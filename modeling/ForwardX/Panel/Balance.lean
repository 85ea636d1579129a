import Mathlib.Data.Rat.Floor
import Mathlib.Tactic.Linarith
import ForwardX.Lib.Assoc
import ForwardX.Lib.Slots
import ForwardX.Lib.Transition

/- Balances and their ledger. Two writers share a user's `balanceCents`: `addUserBalance`
   (`billingRepository.ts`), which refuses to leave a balance below zero, and
   `insertTrafficBillingCharge` (`trafficBillingRepository.ts`), which takes what was used
   whatever is left. Both run in a transaction that locks the user's row, so each is one
   step, and a call that throws leaves the database as it was. -/
namespace ForwardX.Panel
open Transition

/-! ## The tables -/

/-- A row of `balance_transactions`. -/
structure BalanceTransaction where
  userId : Nat
  type : String
  amountCents : Int
  balanceAfterCents : Int
  description : Option String
  operatorUserId : Option Nat
  paymentOrderNo : Option String
  redemptionCodeId : Option Nat
  createdAt : Int
  deriving DecidableEq, Repr

inductive ResourceType
  | host
  | tunnel
  | forwardGroup
  deriving DecidableEq, Repr

structure Resource where
  resourceType : ResourceType
  resourceId : Nat
  deriving DecidableEq, Repr

/-- A row of `traffic_billing_records`. -/
structure TrafficBillingRecord where
  userId : Nat
  ruleId : Nat
  resource : Resource
  bytes : Nat
  billedGb : Nat
  pricePerGbCents : Nat
  pricePerGbMilliCents : Nat
  multiplier : Nat
  amountCents : Nat
  balanceAfterCents : Int
  createdAt : Int
  deriving DecidableEq, Repr

/-- The `balanceCents` of the users, and the rows of the two tables in the order in which
they were inserted. -/
structure Accounts where
  balances : List (Nat × Int)
  transactions : List BalanceTransaction
  records : List TrafficBillingRecord
  deriving DecidableEq, Repr

/-- `Math.round`: to the nearest integer, and up at a half. -/
def mathRound (x : Rat) : Int := (x + 1 / 2).floor

/-! ## The two writers -/

/-- What a caller of `addUserBalance` says of the transaction. -/
structure BalanceMeta where
  type : String
  description : Option String
  operatorUserId : Option Nat
  paymentOrderNo : Option String
  redemptionCodeId : Option Nat
  deriving DecidableEq, Repr

/-- The row that both writers insert. -/
def transactionRow (userId : Nat) (amountCents balanceAfterCents : Int) (info : BalanceMeta) (now : Int) :
    BalanceTransaction :=
  { userId := userId
    type := info.type
    amountCents := amountCents
    balanceAfterCents := balanceAfterCents
    description := info.description
    operatorUserId := info.operatorUserId
    paymentOrderNo := info.paymentOrderNo
    redemptionCodeId := info.redemptionCodeId
    createdAt := now }

def addUserBalanceInTransaction (a : Accounts) (userId : Nat) (amountCents : Rat) (info : BalanceMeta)
    (now : Int) : Except String Accounts :=
  match a.balances.lookup userId with
  | none => .error "用户不存在"
  | some current =>
    let delta := mathRound amountCents
    let next := current + delta
    if next < 0 then .error "余额不足"
    else .ok { a with
      balances := Assoc.put a.balances userId next
      transactions := a.transactions ++ [transactionRow userId delta next info now] }

def addUserBalance (a : Accounts) (userId : Nat) (amountCents : Rat) (info : BalanceMeta) (now : Int) :
    Except String Accounts :=
  if amountCents = 0 then .error "金额无效"
  else addUserBalanceInTransaction a userId amountCents info now

/-- The arguments of `insertTrafficBillingCharge`. -/
structure ChargeInput where
  userId : Nat
  ruleId : Nat
  resource : Resource
  bytes : Nat
  billedGb : Nat
  amountCents : Nat
  pricePerGbMilliCents : Nat
  multiplier : Nat
  description : String
  deriving DecidableEq, Repr

/-- What `insertTrafficBillingCharge` returns when it charges. -/
structure Charged where
  amountCents : Nat
  billedGb : Nat
  balanceAfterCents : Int
  deriving DecidableEq, Repr

def insertTrafficBillingCharge (a : Accounts) (input : ChargeInput) (now : Int) :
    Option Charged × Accounts :=
  if input.amountCents = 0 then (none, a)
  else
    match a.balances.lookup input.userId with
    | none => (none, a)
    | some balance =>
      let balanceAfterCents := balance - input.amountCents
      (some ⟨input.amountCents, input.billedGb, balanceAfterCents⟩,
        { balances := Assoc.put a.balances input.userId balanceAfterCents
          transactions := a.transactions ++ [transactionRow input.userId (-input.amountCents)
            balanceAfterCents ⟨"traffic_billing", some input.description, none, none, none⟩ now]
          records := a.records ++ [{
            userId := input.userId
            ruleId := input.ruleId
            resource := input.resource
            bytes := input.bytes
            billedGb := input.billedGb
            pricePerGbCents := input.pricePerGbMilliCents / 1000
            pricePerGbMilliCents := input.pricePerGbMilliCents
            multiplier := input.multiplier
            amountCents := input.amountCents
            balanceAfterCents := balanceAfterCents
            createdAt := now }] })

theorem insertTrafficBillingCharge_cases (a : Accounts) (input : ChargeInput) (now : Int) :
    insertTrafficBillingCharge a input now = (none, a) ∨
    ∃ charged a' r, insertTrafficBillingCharge a input now = (some charged, a') ∧
      charged.amountCents = input.amountCents ∧ charged.billedGb = input.billedGb ∧
      a'.records = a.records ++ [r] ∧ r.ruleId = input.ruleId ∧ r.resource = input.resource ∧
      r.bytes = input.bytes ∧ r.billedGb = input.billedGb := by
  unfold insertTrafficBillingCharge
  split
  · exact .inl rfl
  · split
    · exact .inl rfl
    · exact .inr ⟨_, _, _, rfl, rfl, rfl, rfl, rfl, rfl, rfl, rfl⟩

theorem insertTrafficBillingCharge_amount {a : Accounts} {input : ChargeInput}
    (huser : (a.balances.lookup input.userId).isSome = true) (now : Int) :
    ((insertTrafficBillingCharge a input now).1.map (·.amountCents)).getD 0 = input.amountCents := by
  obtain ⟨balance, hbalance⟩ := Option.isSome_iff_exists.mp huser
  unfold insertTrafficBillingCharge
  by_cases hzero : input.amountCents = 0
  · rw [if_pos hzero, hzero]
    rfl
  · rw [if_neg hzero, hbalance]
    rfl

theorem insertTrafficBillingCharge_users (a : Accounts) (input : ChargeInput) (now : Int) (u : Nat) :
    ((insertTrafficBillingCharge a input now).2.balances.lookup u).isSome =
      (a.balances.lookup u).isSome := by
  unfold insertTrafficBillingCharge
  split
  · rfl
  · split
    · rfl
    · rename_i balance hbalance
      by_cases hu : u = input.userId
      · rw [hu, Assoc.lookup_put_self, hbalance]
        rfl
      · rw [Assoc.lookup_put_ne _ hu]

/-! ## Runs -/

inductive BalanceAct
  /-- `addUserBalance`. -/
  | add (userId : Nat) (amountCents : Rat) (info : BalanceMeta) (now : Int)
  /-- `insertTrafficBillingCharge`. -/
  | charge (input : ChargeInput) (now : Int)

/-- A call on the accounts; one that throws is rolled back. -/
def Accounts.step (a : Accounts) : BalanceAct → Option Accounts
  | .add userId amountCents info now =>
    match addUserBalance a userId amountCents info now with
    | .error _ => some a
    | .ok a' => some a'
  | .charge input now => some (insertTrafficBillingCharge a input now).2

def ledgerSum (userId : Nat) (ts : List BalanceTransaction) : Int :=
  ((ts.filter (fun t => t.userId = userId)).map (·.amountCents)).sum

/-- A ledger from the balances `start` on: every row ends at the running sum of its user, and
the balances are the last ones. -/
structure Accounts.Inv (start : List (Nat × Int)) (a : Accounts) : Prop where
  users : ∀ u, (a.balances.lookup u).isSome = (start.lookup u).isSome
  balance : ∀ u b b₀, a.balances.lookup u = some b → start.lookup u = some b₀ →
    b = b₀ + ledgerSum u a.transactions
  running : ∀ ts t rest, a.transactions = ts ++ t :: rest → ∃ b₀, start.lookup t.userId = some b₀ ∧
    t.balanceAfterCents = b₀ + ledgerSum t.userId (ts ++ [t])

theorem ledgerSum_concat (u : Nat) (ts : List BalanceTransaction) (t : BalanceTransaction) :
    ledgerSum u (ts ++ [t]) = ledgerSum u ts + if t.userId = u then t.amountCents else 0 := by
  unfold ledgerSum
  rw [List.filter_append, List.map_append, List.sum_append]
  congr 1
  by_cases h : t.userId = u
  · simp [h]
  · simp [h]

/-- Both writers post: the balance of one user becomes `next` and a row says so. -/
theorem Accounts.Inv.post {start : List (Nat × Int)} {a : Accounts} (h : a.Inv start)
    {t : BalanceTransaction} {current : Int} (hcurrent : a.balances.lookup t.userId = some current)
    (ht : t.balanceAfterCents = current + t.amountCents) (records : List TrafficBillingRecord) :
    Accounts.Inv start
      ⟨Assoc.put a.balances t.userId t.balanceAfterCents, a.transactions ++ [t], records⟩ where
  users := by
    intro u
    by_cases hu : u = t.userId
    · subst hu
      rw [← h.users t.userId, hcurrent, Assoc.lookup_put_self]
      rfl
    · rw [← h.users u, Assoc.lookup_put_ne _ hu]
  balance := by
    intro u b b₀ hb hb₀
    rw [ledgerSum_concat]
    by_cases hu : u = t.userId
    · subst hu
      rw [Assoc.lookup_put_self] at hb
      have hold := h.balance t.userId current b₀ hcurrent hb₀
      obtain rfl := Option.some.inj hb
      rw [if_pos rfl, ht, hold]
      ring
    · have hne : ¬ t.userId = u := fun h' => hu h'.symm
      dsimp only at hb
      rw [Assoc.lookup_put_ne _ hu] at hb
      rw [if_neg hne, Int.add_zero]
      exact h.balance u b b₀ hb hb₀
  running := by
    intro ts t' rest hts
    dsimp only at hts
    rcases Slots.snoc_split hts with ⟨rfl, rfl, -⟩ | ⟨rest', -, hts⟩
    · -- the new row
      have hstart : (start.lookup t.userId).isSome = true := by
        rw [← h.users, hcurrent]
        rfl
      obtain ⟨b₀, hb₀⟩ := Option.isSome_iff_exists.mp hstart
      refine ⟨b₀, hb₀, ?_⟩
      rw [ledgerSum_concat, if_pos rfl, ht, h.balance t.userId current b₀ hcurrent hb₀]
      ring
    · exact h.running ts t' rest' hts

theorem Accounts.Inv.step {start : List (Nat × Int)} {a a' : Accounts} (h : a.Inv start)
    {act : BalanceAct} (hs : a.step act = some a') : a'.Inv start := by
  cases act with
  | add userId amountCents info now =>
    simp only [Accounts.step, addUserBalance] at hs
    split at hs
    · obtain rfl := Option.some.inj hs
      exact h
    · rename_i a₁ hadd
      obtain rfl := Option.some.inj hs
      split at hadd
      · cases hadd
      · simp only [addUserBalanceInTransaction] at hadd
        split at hadd
        · cases hadd
        · rename_i current hcurrent
          split at hadd
          · cases hadd
          · obtain rfl := Except.ok.inj hadd
            exact h.post (t := transactionRow userId (mathRound amountCents)
              (current + mathRound amountCents) info now) hcurrent rfl a.records
  | charge input now =>
    obtain rfl := Option.some.inj hs
    unfold insertTrafficBillingCharge
    split
    · exact h
    · split
      · exact h
      · rename_i balance hbalance
        exact h.post (t := transactionRow input.userId (-input.amountCents)
          (balance - input.amountCents) ⟨"traffic_billing", some input.description, none, none, none⟩
          now) hbalance Int.sub_eq_add_neg _

theorem addUserBalance_cases {a : Accounts} {userId : Nat} {current : Int}
    (hcurrent : a.balances.lookup userId = some current) {amountCents : Rat} (hne : amountCents ≠ 0)
    (info : BalanceMeta) (now : Int) :
    (current + mathRound amountCents < 0 ∧
      addUserBalance a userId amountCents info now = .error "余额不足") ∨
    (0 ≤ current + mathRound amountCents ∧
      ∃ a', addUserBalance a userId amountCents info now = .ok a') := by
  unfold addUserBalance addUserBalanceInTransaction
  rw [if_neg hne, hcurrent]
  dsimp only
  by_cases hlt : current + mathRound amountCents < 0
  · rw [if_pos hlt]
    exact .inl ⟨hlt, rfl⟩
  · rw [if_neg hlt]
    exact .inr ⟨Int.not_lt.mp hlt, _, rfl⟩

/-- In every run of the two writers from any balances: a balance is what it was at the start plus
the amounts of the user's transactions, and every row carries the running sum; a debit of an
existing user fails exactly when it would leave the balance below zero, and a call that
fails changes nothing; and a credit succeeds exactly when it covers what the user owes. -/
theorem balance_ledger (start : List (Nat × Int)) {acts : List BalanceAct} {a : Accounts}
    (h : Run (Steps.ofFn Accounts.step) ⟨start, [], []⟩ acts a) :
    (∀ u, (a.balances.lookup u).isSome = (start.lookup u).isSome) ∧
    (∀ u b b₀, a.balances.lookup u = some b → start.lookup u = some b₀ →
      b = b₀ + ledgerSum u a.transactions) ∧
    (∀ ts t rest, a.transactions = ts ++ t :: rest → ∃ b₀, start.lookup t.userId = some b₀ ∧
      t.balanceAfterCents = b₀ + ledgerSum t.userId (ts ++ [t])) ∧
    (∀ u b amountCents info now, a.balances.lookup u = some b → amountCents < 0 →
      ((∃ e, addUserBalance a u amountCents info now = .error e) ↔ b + mathRound amountCents < 0)) ∧
    (∀ u amountCents info now e, addUserBalance a u amountCents info now = .error e →
      a.step (.add u amountCents info now) = some a) ∧
    (∀ u b amountCents info now, a.balances.lookup u = some b → 0 < amountCents →
      ((∃ a', addUserBalance a u amountCents info now = .ok a') ↔ 0 ≤ b + mathRound amountCents)) := by
  have hinv : a.Inv start := by
    refine h.preserves (fun _ _ _ hs hinv => hinv.step hs) ⟨fun _ => rfl, fun u b b₀ hb hb₀ => ?_, ?_⟩
    · rw [hb₀] at hb
      obtain rfl := Option.some.inj hb
      simp [ledgerSum]
    · intro ts t rest hts
      exact absurd hts.symm (List.append_ne_nil_of_right_ne_nil _ (List.cons_ne_nil _ _))
  refine ⟨hinv.users, hinv.balance, hinv.running, ?_, ?_, ?_⟩
  · intro u b amountCents info now hb hneg
    rcases addUserBalance_cases hb (ne_of_lt hneg) info now with ⟨hlt, herr⟩ | ⟨hle, a', hok⟩
    · exact ⟨fun _ => hlt, fun _ => ⟨_, herr⟩⟩
    · rw [hok]
      exact ⟨fun ⟨_, he⟩ => (nomatch he), fun hlt => absurd hle (Int.not_le.mpr hlt)⟩
  · intro u amountCents info now e he
    simp only [Accounts.step, he]
  · intro u b amountCents info now hb hpos
    rcases addUserBalance_cases hb (ne_of_gt hpos) info now with ⟨hlt, herr⟩ | ⟨hle, a', hok⟩
    · rw [herr]
      exact ⟨fun ⟨_, he⟩ => (nomatch he), fun hle => absurd hle (Int.not_le.mpr hlt)⟩
    · exact ⟨fun _ => hle, fun _ => ⟨a', hok⟩⟩

def chargedUser : List BalanceAct :=
  [.charge ⟨1, 7, ⟨.host, 2⟩, 1073741824, 1, 500, 500000, 100, "流量计费"⟩ 0]

/-- What `finalizePaidOrder` says of a recharge. -/
def rechargeMeta (outTradeNo : String) : BalanceMeta :=
  ⟨"payment", some ("在线充值：" ++ outTradeNo), none, some outTradeNo, none⟩

theorem balance_ledger_charged_user : ∃ a, a.balances.lookup 1 = some (-500) ∧
    ((∃ a', addUserBalance a 1 600 (rechargeMeta "o1") 1 = .ok a') ↔
      (0 : Int) ≤ -500 + mathRound 600) := by
  obtain ⟨a, hexec, hb⟩ : ∃ a, exec Accounts.step ⟨[(1, 0)], [], []⟩ chargedUser = some a ∧
      a.balances.lookup 1 = some (-500) := ⟨_, rfl, rfl⟩
  refine ⟨a, hb, ?_⟩
  exact (balance_ledger [(1, 0)] (exec_run hexec)).2.2.2.2.2 1 (-500) 600 (rechargeMeta "o1") 1 hb
    (by norm_num)

/-- The recharge of a user in debt bounces: 3 paid against 5 owed is refused as an overdraft. -/
theorem recharge_bounces : ∃ a, Run (Steps.ofFn Accounts.step) ⟨[(1, 0)], [], []⟩ chargedUser a ∧
    a.balances.lookup 1 = some (-500) ∧
    addUserBalance a 1 300 (rechargeMeta "o1") 1 = .error "余额不足" := by
  obtain ⟨a, hexec, hb⟩ : ∃ a, exec Accounts.step ⟨[(1, 0)], [], []⟩ chargedUser = some a ∧
      a.balances.lookup 1 = some (-500) := ⟨_, rfl, rfl⟩
  have hround : mathRound 300 = 300 := by decide +kernel
  refine ⟨a, exec_run hexec, hb, ?_⟩
  unfold addUserBalance addUserBalanceInTransaction
  rw [if_neg (by norm_num), hb, hround]
  rfl

end ForwardX.Panel
