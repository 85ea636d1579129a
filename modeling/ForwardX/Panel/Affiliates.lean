import ForwardX.Panel.Payment

/- The affiliate wallet (`affiliateRepository.ts`). Every operation is a transaction that
   locks the row of the account, so each is one function; one that throws is rolled back. -/
namespace ForwardX.Panel

/-! ## Settings -/

structure AffiliateConfig where
  rateBps : Int
  firstOrderOnly : Bool
  confirmationDays : Int
  minimumWithdrawalCents : Int
  allowBalanceTransfer : Bool
  maxCodes : Int
  deriving DecidableEq, Repr

/-- `AFFILIATE_DEFAULTS`. -/
def affiliateDefaults : AffiliateConfig := ⟨1500, true, 7, 1000, true, 10⟩

/-- `affiliateConfigInput`. -/
def AffiliateConfig.isValid (c : AffiliateConfig) : Bool :=
  (0 ≤ c.rateBps && c.rateBps ≤ 10000) && (0 ≤ c.confirmationDays && c.confirmationDays ≤ 365) &&
    (1 ≤ c.minimumWithdrawalCents && c.minimumWithdrawalCents ≤ 100000000) &&
    (1 ≤ c.maxCodes && c.maxCodes ≤ 50)

/-- `affiliateConfig`, of what is stored over the defaults. -/
def affiliateConfig (stored : Option AffiliateConfig) : AffiliateConfig :=
  (stored.filter (·.isValid)).getD affiliateDefaults

theorem affiliateConfig_minimum (stored : Option AffiliateConfig) :
    1 ≤ (affiliateConfig stored).minimumWithdrawalCents := by
  unfold affiliateConfig
  cases hvalid : stored.filter (·.isValid) with
  | none => decide
  | some c =>
    have hc := (Option.filter_eq_some_iff.mp hvalid).2
    unfold AffiliateConfig.isValid at hc
    simp only [Bool.and_eq_true, decide_eq_true_eq] at hc
    exact hc.1.2.1

def commissionCents (amountCents rateBps : Int) : Except String Int :=
  if 9007199254740991 < amountCents ∨ amountCents < 0 ∨ rateBps < 0 ∨ 10000 < rateBps then
    .error "Invalid commission amount"
  else .ok (amountCents * rateBps / 10000)

theorem commissionCents_nonneg {amountCents rateBps c : Int} (h : commissionCents amountCents rateBps = .ok c) :
    0 ≤ c := by
  unfold commissionCents at h
  split at h
  · cases h
  · rename_i hrange
    obtain rfl := Except.ok.inj h
    rw [not_or, not_or, not_or, not_lt, not_lt, not_lt, not_lt] at hrange
    exact Int.ediv_nonneg (Int.mul_nonneg hrange.2.1 hrange.2.2.1) (by decide)

/-! ## Rows -/

/-- A row of `affiliate_accounts`. -/
structure AffiliateAccount where
  userId : Nat
  availableCents : Int
  blocked : Bool
  rateBps : Option Int
  createdAt : Int
  deriving DecidableEq, Repr

inductive CommissionStatus
  | pending
  | available
  | cancelled
  deriving DecidableEq, Repr

/-- A row of `affiliate_commissions`. -/
structure Commission where
  id : Nat
  userId : Nat
  referredUserId : Nat
  orderNo : String
  orderAmountCents : Int
  amountCents : Int
  rateBps : Int
  status : CommissionStatus
  confirmAt : Int
  reason : Option String
  createdAt : Int
  settledAt : Option Int
  deriving DecidableEq, Repr

inductive WithdrawalStatus
  | pending
  | paid
  | rejected
  deriving DecidableEq, Repr

/-- A row of `affiliate_withdrawals`. -/
structure Withdrawal where
  id : Nat
  userId : Nat
  amountCents : Int
  method : String
  account : String
  payee : String
  status : WithdrawalStatus
  note : Option String
  operatorUserId : Option Nat
  requestKey : String
  createdAt : Int
  reviewedAt : Option Int
  deriving DecidableEq, Repr

inductive LedgerType
  | commission
  | reversal
  | cancellation
  | withdrawal
  | withdrawalReturn
  | payout
  | transfer
  | accountUpdate
  deriving DecidableEq, Repr

/-- A row of `affiliate_ledger`. -/
structure LedgerRow where
  userId : Nat
  type : LedgerType
  amountCents : Int
  balanceAfterCents : Int
  reference : String
  operatorUserId : Option Nat
  note : Option String
  createdAt : Int
  deriving DecidableEq, Repr

/-- A row of `affiliate_referrals`. -/
structure Referral where
  userId : Nat
  affiliateUserId : Nat
  createdAt : Int
  deriving DecidableEq, Repr

structure Affiliates where
  enabled : Bool
  config : Option AffiliateConfig
  referrals : List Referral
  accounts : List AffiliateAccount
  commissions : List Commission
  withdrawals : List Withdrawal
  ledger : List LedgerRow
  deriving DecidableEq, Repr

/-! ## The wallet -/

/-- `lockAccount`: the account, made when there is none. -/
def lockAccount (w : Affiliates) (userId : Nat) (now : Int) : AffiliateAccount × Affiliates :=
  match Rows.find (·.userId) w.accounts userId with
  | some account => (account, w)
  | none =>
    let account := ⟨userId, 0, false, none, now⟩
    (account, { w with accounts := w.accounts ++ [account] })

/-- The available amount of a user; the account is locked, so there is one. -/
def availableCents (w : Affiliates) (userId : Nat) : Int :=
  (Rows.find (·.userId) w.accounts userId).elim 0 (·.availableCents)

def ledger (w : Affiliates) (userId : Nat) (type : LedgerType) (amountCents : Int) (reference : String)
    (operatorUserId : Option Nat) (note : Option String) (now : Int) : Affiliates :=
  let w := { w with accounts := Rows.set (·.userId) w.accounts userId (fun a =>
    { a with availableCents := a.availableCents + amountCents }) }
  { w with ledger := w.ledger ++ [{
      userId            := userId
      type              := type
      amountCents       := amountCents
      balanceAfterCents := availableCents w userId
      reference         := reference
      operatorUserId    := operatorUserId
      note              := note.filter (· ≠ "")
      createdAt         := now }] }

def Commission.settle (now : Int) (c : Commission) : Commission :=
  if c.status = .pending then { c with status := .available, settledAt := some now } else c

/-- A due commission is credited. -/
def settleCommission (userId : Nat) (now : Int) (w : Affiliates) (row : Commission) : Affiliates :=
  let w := { w with commissions := Rows.set (·.id) w.commissions row.id (Commission.settle now) }
  ledger w userId .commission row.amountCents (toString row.id) none none now

def settleLocked (w : Affiliates) (userId : Nat) (now : Int) : Affiliates :=
  let due := w.commissions.filter (fun c => c.userId = userId && (c.status = .pending && c.confirmAt ≤ now))
  due.foldl (settleCommission userId now) w

/-- The transaction of `settleAffiliateCommissions` for one account. -/
def settleAffiliateCommissions (w : Affiliates) (userId : Nat) (now : Int) : Affiliates :=
  settleLocked (lockAccount w userId now).2 userId now

/-- `order.currency.toUpperCase() === "CNY"`. -/
def isCny (currency : String) : Bool := currency.toList.map Char.toUpper = "CNY".toList

def isPlanPurchase (o : PaymentOrder) : Bool :=
  o.planId.isSome && 0 < o.amountCents && o.orderType ≠ .test && o.status = .completed

/-- `accrueAffiliateCommissionLocked`. -/
def accrueAffiliateCommission (w : Affiliates) (orders : List PaymentOrder) (enabledUsers : List Nat)
    (orderNo : String) (now : Int) : Except String Affiliates :=
  if !w.enabled then .ok w
  else
    match Rows.find (·.outTradeNo) orders orderNo with
    | none => .ok w
    | some order =>
      if order.status ≠ .completed ∨ order.planId.getD 0 = 0 ∨ order.orderType = .test ∨
          isCny order.currency = false ∨ order.amountCents ≤ 0 then .ok w
      else
        match Rows.find (·.userId) w.referrals order.userId with
        | none => .ok w
        | some referral =>
          if referral.affiliateUserId = order.userId ∨ order.createdAt < referral.createdAt ∨
              !enabledUsers.contains referral.affiliateUserId then .ok w
          else
            let (account, w) := lockAccount w referral.affiliateUserId now
            if account.blocked ∨ (w.commissions.any (fun c => c.orderNo = orderNo)) then .ok w
            else
              let config := affiliateConfig w.config
              if config.firstOrderOnly && orders.any (fun o => o.userId = order.userId &&
                  (o.outTradeNo ≠ orderNo && isPlanPurchase o)) then .ok w
              else
                let rateBps := account.rateBps.getD config.rateBps
                match commissionCents order.amountCents rateBps with
                | .error e => .error e
                | .ok amountCents =>
                  if amountCents = 0 then .ok w
                  else .ok (settleLocked { w with commissions := w.commissions ++ [{
                      id               := Rows.fresh (·.id) w.commissions
                      userId           := referral.affiliateUserId
                      referredUserId   := order.userId
                      orderNo          := orderNo
                      orderAmountCents := order.amountCents
                      amountCents      := amountCents
                      rateBps          := rateBps
                      status           := .pending
                      confirmAt        := now + config.confirmationDays * 86400
                      reason           := none
                      createdAt        := now
                      settledAt        := none }] } referral.affiliateUserId now)

/-- The input of `requestAffiliateWithdrawal`. -/
structure WithdrawalInput where
  amountCents : Int
  method : String
  account : String
  payee : String
  requestKey : String
  deriving DecidableEq, Repr

def requestAffiliateWithdrawal (w : Affiliates) (userId : Nat) (input : WithdrawalInput) (now : Int) :
    Except String (Nat × Affiliates) :=
  let (account, w) := lockAccount w userId now
  match w.withdrawals.find? (fun r => r.userId = userId && r.requestKey = input.requestKey) with
  | some existing => .ok (existing.id, w)
  | none =>
    if account.blocked then .error "推广账户已停用"
    else
      let w := settleLocked w userId now
      if input.amountCents < (affiliateConfig w.config).minimumWithdrawalCents then .error "未达到最低提现金额"
      else if availableCents w userId < input.amountCents then .error "可用佣金不足"
      else if 5 ≤ w.withdrawals.countP (fun r => r.userId = userId && r.status = .pending) then
        .error "待审核提现过多，请等待处理"
      else
        let id := Rows.fresh (·.id) w.withdrawals
        let w := { w with withdrawals := w.withdrawals ++ [{
          id             := id
          userId         := userId
          amountCents    := input.amountCents
          method         := input.method
          account        := input.account
          payee          := input.payee
          status         := .pending
          note           := none
          operatorUserId := none
          requestKey     := input.requestKey
          createdAt      := now
          reviewedAt     := none }] }
        .ok (id, ledger w userId .withdrawal (-input.amountCents) (toString id) none none now)

inductive ReviewStatus
  | paid
  | rejected
  deriving DecidableEq, Repr

def ReviewStatus.toStatus : ReviewStatus → WithdrawalStatus
  | .paid => .paid
  | .rejected => .rejected

def reviewAffiliateWithdrawal (w : Affiliates) (operatorUserId id : Nat) (status : ReviewStatus) (note : String)
    (now : Int) : Except String Affiliates :=
  match Rows.find (·.id) w.withdrawals id with
  | none => .error "提现申请不存在"
  | some row =>
    let (account, w) := lockAccount w row.userId now
    if row.status ≠ .pending then .error "提现申请已处理，请刷新"
    else if status = .paid ∧ (account.blocked ∨ account.availableCents < 0) then
      .error "账户已停用或存在冲正欠款，不能打款"
    else
      let w := { w with withdrawals := Rows.set (·.id) w.withdrawals id (fun r => { r with
        status         := status.toStatus
        note           := some note
        operatorUserId := some operatorUserId
        reviewedAt     := some now }) }
      .ok (match status with
        | .rejected => ledger w row.userId .withdrawalReturn row.amountCents (toString id) (some operatorUserId)
            (some note) now
        | .paid => ledger w row.userId .payout 0 (toString id) (some operatorUserId) (some note) now)

def affiliateTransferMeta : BalanceMeta := ⟨"affiliate_transfer", some "推广佣金转入余额", none, none, none⟩

def transferAffiliateBalance (w : Affiliates) (balances : Accounts) (userId : Nat) (amountCents : Int)
    (requestKey : String) (now : Int) : Except String (Affiliates × Accounts) :=
  let (account, w) := lockAccount w userId now
  if w.ledger.any (fun r => r.userId = userId && (r.type = .transfer && r.reference = requestKey)) then
    .ok (w, balances)
  else if account.blocked then .error "推广账户已停用"
  else if !(affiliateConfig w.config).allowBalanceTransfer then .error "佣金转余额未开启"
  else
    let w := settleLocked w userId now
    if availableCents w userId < amountCents then .error "可用佣金不足"
    else
      (addUserBalance balances userId amountCents affiliateTransferMeta now).map (fun balances =>
        (ledger w userId .transfer (-amountCents) requestKey none none now, balances))

def cancelAffiliateCommission (w : Affiliates) (operatorUserId id : Nat) (reason : String) (now : Int) :
    Except String Affiliates :=
  match Rows.find (·.id) w.commissions id with
  | none => .error "返佣记录不存在"
  | some row =>
    let w := (lockAccount w row.userId now).2
    match row.status with
    | .cancelled => .ok w
    | .available =>
      let w := ledger w row.userId .reversal (-row.amountCents) (toString id) (some operatorUserId) (some reason) now
      .ok { w with commissions := Rows.set (·.id) w.commissions id (fun c =>
        { c with status := .cancelled, reason := some reason }) }
    | .pending =>
      let w := ledger w row.userId .cancellation 0 (toString id) (some operatorUserId) (some reason) now
      .ok { w with commissions := Rows.set (·.id) w.commissions id (fun c =>
        { c with status := .cancelled, reason := some reason }) }

/-- `updateAffiliateAccount`, with the random reference and the note that it writes. -/
def updateAffiliateAccount (w : Affiliates) (operatorUserId userId : Nat) (blocked : Bool) (rateBps : Option Int)
    (reference note : String) (now : Int) : Affiliates :=
  let w := (lockAccount w userId now).2
  let w := { w with accounts := Rows.set (·.userId) w.accounts userId (fun a =>
    { a with blocked := blocked, rateBps := rateBps }) }
  ledger w userId .accountUpdate 0 reference (some operatorUserId) (some note) now

/-! ## Runs -/

/-- What the wallet reads of other tables, the balances, and the time in seconds. -/
structure AffiliateState where
  wallet : Affiliates
  balances : Accounts
  orders : List PaymentOrder
  enabledUsers : List Nat
  now : Int
  deriving DecidableEq, Repr

inductive AffiliateAct
  | tick (elapsed : Nat)
  /-- Anything else that other parts of the panel write. -/
  | edit (enabled : Bool) (config : Option AffiliateConfig) (referrals : List Referral) (balances : Accounts)
      (orders : List PaymentOrder) (enabledUsers : List Nat)
  | accrue (orderNo : String)
  | settle (userId : Nat)
  | withdraw (userId : Nat) (input : WithdrawalInput)
  | review (operatorUserId id : Nat) (status : ReviewStatus) (note : String)
  | transfer (userId : Nat) (amountCents : Int) (requestKey : String)
  | cancel (operatorUserId id : Nat) (reason : String)
  | update (operatorUserId userId : Nat) (blocked : Bool) (rateBps : Option Int) (reference note : String)
  deriving DecidableEq, Repr

/-- One step. A call that throws is none: it changes nothing. -/
def AffiliateState.step (s : AffiliateState) : AffiliateAct → Option AffiliateState
  | .tick elapsed => some { s with now := s.now + elapsed }
  | .edit enabled config referrals balances orders enabledUsers => some { s with
      wallet       := { s.wallet with enabled := enabled, config := config, referrals := referrals }
      balances     := balances
      orders       := orders
      enabledUsers := enabledUsers }
  | .accrue orderNo => (accrueAffiliateCommission s.wallet s.orders s.enabledUsers orderNo s.now).toOption.map
      (fun w => { s with wallet := w })
  | .settle userId => some { s with wallet := settleAffiliateCommissions s.wallet userId s.now }
  | .withdraw userId input => (requestAffiliateWithdrawal s.wallet userId input s.now).toOption.map
      (fun r => { s with wallet := r.2 })
  | .review operatorUserId id status note =>
    (reviewAffiliateWithdrawal s.wallet operatorUserId id status note s.now).toOption.map
      (fun w => { s with wallet := w })
  | .transfer userId amountCents requestKey =>
    (transferAffiliateBalance s.wallet s.balances userId amountCents requestKey s.now).toOption.map
      (fun r => { s with wallet := r.1, balances := r.2 })
  | .cancel operatorUserId id reason =>
    (cancelAffiliateCommission s.wallet operatorUserId id reason s.now).toOption.map (fun w => { s with wallet := w })
  | .update operatorUserId userId blocked rateBps reference note => some { s with
      wallet := updateAffiliateAccount s.wallet operatorUserId userId blocked rateBps reference note s.now }

structure AffiliateState.Start (s : AffiliateState) : Prop where
  accounts : s.wallet.accounts = []
  commissions : s.wallet.commissions = []
  withdrawals : s.wallet.withdrawals = []
  ledger : s.wallet.ledger = []

end ForwardX.Panel
