import ForwardX.Panel.SubscriptionRuns

/- Payment orders (`payment.ts`, `billingRepository.ts`). The body of a transaction is one
   function that either throws, and then leaves the database as it was, or returns the new
   database; so is every other statement. `finalizePaidOrder` and the recovery of stale
   orders are tasks that stop between two statements and go on with what they read before. -/
namespace ForwardX.Panel

/-! ## Notifications -/

/-- `PaidNotification`. An amount that is not a finite number is none. -/
structure PaidNotification where
  provider : String
  tradeNo : Option String
  amountCents : Option Rat
  currency : String
  rawNotify : String
  merchantIdentity : Option String
  deriving DecidableEq, Repr

/-- What `String.prototype.trim` takes away. -/
def isTrimmed (c : Char) : Bool :=
  (9 ≤ c.toNat && c.toNat ≤ 13) || (0x2000 ≤ c.toNat && c.toNat ≤ 0x200a) ||
    [0x20, 0xa0, 0x1680, 0x2028, 0x2029, 0x202f, 0x205f, 0x3000, 0xfeff].contains c.toNat

/-- The characters of a currency code without the blanks around it, in upper case. -/
def currencyKey (currency : String) : List Char :=
  (((currency.toList.dropWhile isTrimmed).reverse.dropWhile isTrimmed).reverse).map Char.toUpper

def sameCurrency (a b : String) : Bool := currencyKey a = currencyKey b

def assertMerchantIdentity (order : PaymentOrder) (identity : Option String) : Except String Unit :=
  if order.merchantIdentity.any (fun m => m ≠ "") && order.merchantIdentity ≠ identity then
    .error ("payment merchant changed order=" ++ order.outTradeNo)
  else .ok ()

def assertPaidNotificationMatchesOrder (order : PaymentOrder) (n : PaidNotification) : Except String Unit :=
  match assertMerchantIdentity order n.merchantIdentity with
  | .error e => .error e
  | .ok () =>
    if n.tradeNo.getD "" = "" then .error ("missing paid trade number order=" ++ order.outTradeNo)
    else if order.paidAt.isSome && order.tradeNo.getD "" ≠ "" && n.tradeNo ≠ order.tradeNo then
      .error ("paid trade number mismatch order=" ++ order.outTradeNo)
    else
      match n.amountCents with
      | none => .error ("invalid paid amount order=" ++ order.outTradeNo)
      | some amountCents =>
        if amountCents ≤ 0 then .error ("invalid paid amount order=" ++ order.outTradeNo)
        else if amountCents ≠ order.amountCents then
          .error ("paid amount mismatch order=" ++ order.outTradeNo ++ " expected=" ++
            toString order.amountCents ++ " got=" ++ toString amountCents)
        else if !sameCurrency order.currency n.currency then
          .error ("paid currency mismatch order=" ++ order.outTradeNo ++ " expected=" ++ order.currency ++
            " got=" ++ n.currency)
        else if order.provider ≠ n.provider then
          .error ("paid provider mismatch order=" ++ order.outTradeNo ++ " expected=" ++ order.provider ++
            " got=" ++ n.provider)
        else .ok ()

/-! ## Orders -/

/-- `["completed", "processing", "paid"].includes`. -/
def OrderStatus.isPaid : OrderStatus → Bool
  | .paid | .processing | .completed => true
  | .pending | .expired | .failed | .cancelled => false

inductive ClosingStatus
  | expired
  | failed
  | cancelled
  deriving DecidableEq, Repr

def ClosingStatus.toStatus : ClosingStatus → OrderStatus
  | .expired => .expired
  | .failed => .failed
  | .cancelled => .cancelled

/-- `updatePaymentOrder` with a status that does not close the order, or with none. -/
def updatePaymentOrder (db : Db) (outTradeNo : String) (now : Int) (data : PaymentOrder → PaymentOrder) : Db :=
  setPaymentOrder db outTradeNo (fun o => { data o with updatedAt := toDriver now })

def releaseOrderStock (db : Db) (order : PaymentOrder) : Db :=
  match order.planId with
  | some planId => if order.stockReserved then releasePlanStock db planId else db
  | none => db

/-- `updatePaymentOrder` with a status that closes the order: only a pending one is closed. -/
def closePaymentOrder (db : Db) (outTradeNo : String) (status : ClosingStatus) (now : Int)
    (data : PaymentOrder → PaymentOrder) : Db :=
  match getPaymentOrderByOutTradeNo db outTradeNo with
  | none => db
  | some previous =>
    if previous.status ≠ .pending then db
    else updatePaymentOrder (releaseOrderStock db previous) outTradeNo now
      (fun o => { data o with status := status.toStatus, stockReserved := false })

def releaseOrderDiscount (db : Db) (order : PaymentOrder) : Db :=
  match order.discountCodeId with
  | some id => if order.discountConsumed then releaseDiscountCode db id else db
  | none => db

/-- The transaction of `closePaymentOrderAndReleaseDiscount`. -/
def closePaymentOrderAndReleaseDiscount (db : Db) (outTradeNo : String) (status : ClosingStatus)
    (rawNotify : Option String) (now : Int) : Db :=
  match getPaymentOrderByOutTradeNo db outTradeNo with
  | none => db
  | some order =>
    if order.status ≠ .pending then db
    else closePaymentOrder (releaseOrderDiscount db order) outTradeNo status now
      (fun o => { o with discountConsumed := false, rawNotify := rawNotify <|> o.rawNotify })

def canDeletePaymentOrder (order : PaymentOrder) : Bool :=
  if order.status = .paid ∨ order.status = .processing then false
  else if order.orderType = .test then true
  else order.paidAt.isNone && order.status ≠ .completed

/-- The transaction of `deletePaymentOrder`. The date that hides an order from lists is left out;
no order that has it is pending. -/
def deletePaymentOrder (db : Db) (outTradeNo : String) (now : Int) : Except String Db :=
  match getPaymentOrderByOutTradeNo db outTradeNo with
  | none => .error "订单不存在"
  | some order =>
    if !canDeletePaymentOrder order then
      .error "仅支持删除测试订单或未支付订单，支付处理中的订单请稍后再试"
    else
      let db :=
        if order.status = .pending then
          closePaymentOrder (releaseOrderDiscount db order) outTradeNo .cancelled now
            (fun o => { o with discountConsumed := false })
        else db
      .ok (updatePaymentOrder db outTradeNo now id)

/-- What the shop knows of a new order. -/
structure CreateOrderInput where
  outTradeNo : String
  userId : Nat
  provider : String
  isTest : Bool
  amountCents : Int
  currency : String
  planId : Option Nat
  subscriptionId : Option Nat
  discountCodeId : Option Nat
  merchantIdentity : Option String
  expiresAt : Option Int
  deriving DecidableEq, Repr

/-- The row of a new order. -/
def CreateOrderInput.toOrder (input : CreateOrderInput) (stockReserved : Bool) (now : Int) : PaymentOrder :=
  { outTradeNo       := input.outTradeNo
    userId           := input.userId
    provider         := input.provider
    status           := .pending
    orderType        := if input.planId.isSome then .plan else if input.isTest then .test else .balance
    amountCents      := input.amountCents
    currency         := input.currency
    tradeNo          := none
    planId           := input.planId
    subscriptionId   := input.subscriptionId
    discountCodeId   := input.discountCodeId
    discountConsumed := input.discountCodeId.isSome
    stockReserved    := stockReserved
    rawNotify        := none
    merchantIdentity := input.merchantIdentity
    failureReason    := none
    expiresAt        := input.expiresAt.map toDriver
    paidAt           := none
    createdAt        := toDriver now
    updatedAt        := toDriver now }

/-- The stock of a new order: that of a new subscription of its plan. -/
def reserveOrderStock (db : Db) (input : CreateOrderInput) : Except String (Bool × Db) :=
  match input.planId with
  | none => .ok (false, db)
  | some planId =>
    match getSubscriptionPlanById db planId with
    | none => .error "套餐已删除，无法创建支付订单"
    | some _ =>
      if input.subscriptionId.isSome then .ok (false, db)
      else (reservePlanStock db planId).map (fun db => (true, db))

def consumeOptionalDiscount (db : Db) (discountCodeId : Option Nat) (now : Int) : Except String Db :=
  match discountCodeId with
  | some id => consumeDiscountCode db id now
  | none => .ok db

/-- The transaction in which the shop makes an order: the discount, then `createPaymentOrder`.
The number of an order is unique. -/
def createPaymentOrder (db : Db) (input : CreateOrderInput) (now : Int) : Except String Db :=
  match consumeOptionalDiscount db input.discountCodeId now with
  | .error e => .error e
  | .ok db =>
    match reserveOrderStock db input with
    | .error e => .error e
    | .ok (stockReserved, db) =>
      if (getPaymentOrderByOutTradeNo db input.outTradeNo).isSome then
        .error "UNIQUE constraint failed: payment_orders.outTradeNo"
      else .ok { db with paymentOrders := db.paymentOrders ++ [input.toOrder stockReserved now] }

/-- `setPaymentOrderCheckout`: the number that the provider gave a pending order. -/
def setPaymentOrderCheckout (db : Db) (outTradeNo : String) (tradeNo : Option String) (now : Int) : Db :=
  setPaymentOrder db outTradeNo (fun o =>
    if o.status = .pending then { o with tradeNo := tradeNo, updatedAt := toDriver now } else o)

def recordPaymentOrderFailure (db : Db) (outTradeNo failureReason : String) (statuses : List OrderStatus)
    (now : Int) : Db :=
  setPaymentOrder db outTradeNo (fun o =>
    if statuses.contains o.status then
      { o with failureReason := some failureReason, updatedAt := toDriver now }
    else o)

/-- The statuses that `recordPaymentOrderFailure` takes when it is given none. -/
def unpaidStatuses : List OrderStatus := [.pending, .expired, .failed, .cancelled]

/-! ## A notification that an order was paid -/

/-- The statuses that `markPaymentOrderPaid` starts from. -/
def markableStatuses (verifiedRecovery : Bool) : List OrderStatus :=
  if verifiedRecovery then [.pending, .expired, .failed, .cancelled] else [.pending]

/-- `markPaymentOrderPaid`: the order afterwards, and the database. -/
def markPaymentOrderPaid (db : Db) (outTradeNo : String) (n : PaidNotification) (verifiedRecovery : Bool)
    (now : Int) : Option PaymentOrder × Db :=
  match getPaymentOrderByOutTradeNo db outTradeNo with
  | none => (none, db)
  | some order =>
    if (markableStatuses verifiedRecovery).contains order.status then
      let db := setPaymentOrder db outTradeNo (fun o => { o with
        status    := .paid
        tradeNo   := n.tradeNo.filter (· ≠ "") <|> o.tradeNo
        rawNotify := if n.rawNotify = "" then o.rawNotify else some n.rawNotify
        currency  := if n.currency = "" then o.currency else n.currency
        paidAt    := some (toDriver now)
        updatedAt := toDriver now })
      (getPaymentOrderByOutTradeNo db outTradeNo, db)
    else if order.status.isPaid then
      let db := updatePaymentOrder db outTradeNo now (fun o => { o with
        tradeNo   := n.tradeNo.filter (· ≠ "") <|> order.tradeNo
        rawNotify := if n.rawNotify = "" then order.rawNotify else some n.rawNotify })
      (getPaymentOrderByOutTradeNo db outTradeNo, db)
    else (some order, db)

/-- `PAYMENT_RECOVERY_GRACE_MS`. -/
def paymentRecoveryGraceMs : Int := 7 * 24 * 60 * 60 * 1000

/-- The transaction of `processPaidNotification`. -/
def acceptPaidNotification (db : Db) (outTradeNo : String) (n : PaidNotification) (now : Int) :
    Except String Db :=
  match getPaymentOrderByOutTradeNo db outTradeNo with
  | none => .error ("unknown payment order=" ++ outTradeNo)
  | some order =>
    match assertPaidNotificationMatchesOrder order n with
    | .error e => .error e
    | .ok () =>
      if order.status.isPaid then .ok db
      else
        let deadline := fromDriver (order.expiresAt.getD order.createdAt) + paymentRecoveryGraceMs
        if deadline < now then
          .error ("late payment requires administrator reconciliation order=" ++ outTradeNo)
        else
          match markPaymentOrderPaid db outTradeNo n true now with
          | (some paid, db) =>
            if paid.status.isPaid then .ok db else .error ("cannot claim paid order=" ++ outTradeNo)
          | (none, _) => .error ("cannot claim paid order=" ++ outTradeNo)

/-! ## Finalization -/

/-- The `UPDATE` of `claimPaidPaymentOrder`, when it affects a row. -/
def claimPaidPaymentOrder (db : Db) (outTradeNo : String) (now : Int) : Option Db :=
  if (getPaymentOrderByOutTradeNo db outTradeNo).any (fun o => o.status = .paid) then
    some (setPaymentOrder db outTradeNo (fun o =>
      { o with status := .processing, updatedAt := toDriver now }))
  else none

/-- `resetStaleProcessingPaymentOrder`, when it affects a row. -/
def resetStaleProcessingPaymentOrder (db : Db) (outTradeNo : String) (before now : Int) : Option Db :=
  if (getPaymentOrderByOutTradeNo db outTradeNo).any
      (fun o => o.status = .processing && o.updatedAt < toDriver before) then
    some (setPaymentOrder db outTradeNo (fun o => { o with status := .paid, updatedAt := toDriver now }))
  else none

/-- `PROCESSING_STALE_MS`. -/
def processingStaleMs : Int := 10 * 60 * 1000

def getBalanceTransactionByPaymentOrderNo (db : Db) (paymentOrderNo : String) : Option BalanceTransaction :=
  Rows.find (·.paymentOrderNo) db.accounts.transactions (some paymentOrderNo)

/-- The discount of an order whose copy says that it is not consumed. -/
def consumeOrderDiscount (db : Db) (order : PaymentOrder) (now : Int) : Except String Db :=
  match order.discountCodeId with
  | none => .ok db
  | some id =>
    if order.discountConsumed then .ok db
    else (consumeDiscountCode db id now).map (fun db =>
      updatePaymentOrder db order.outTradeNo now (fun o => { o with discountConsumed := true }))

/-- The update that completes an order. -/
def completePaymentOrder (db : Db) (outTradeNo : String) (subscriptionId : Option Nat) (now : Int) : Db :=
  updatePaymentOrder db outTradeNo now (fun o => { o with
    subscriptionId := subscriptionId <|> o.subscriptionId
    status         := .completed
    failureReason  := none })

/-- The arguments with which an order is applied. -/
def PaymentOrder.applyInput (order : PaymentOrder) (planId trafficLimit : Nat) : ApplyInput :=
  { userId               := order.userId
    planId               := planId
    source               := .payment
    paymentOrderNo       := some order.outTradeNo
    overrideDurationDays := none
    targetSubscriptionId := order.subscriptionId
    trafficLimit         := trafficLimit }

/-- The transaction of `finalizePaidOrder` for an order with a plan. -/
def finalizePlanOrder (db : Db) (order : PaymentOrder) (planId trafficLimit : Nat) (now : Int) :
    Except String Db :=
  match getUserSubscriptionByPaymentOrderNo db order.outTradeNo with
  | some existingSubscription =>
    (consumeOrderDiscount db order now).map (fun db =>
      completePaymentOrder db order.outTradeNo (some existingSubscription.id) now)
  | none =>
    match consumeOrderDiscount db order now with
    | .error e => .error e
    | .ok db =>
      (applySubscriptionToUser db (order.applyInput planId trafficLimit) now).map (fun r =>
        completePaymentOrder r.2 order.outTradeNo (some r.1.subscriptionId) now)

/-- The transaction of `finalizePaidOrder` for a recharge of the balance. -/
def finalizeBalanceOrder (db : Db) (order : PaymentOrder) (now : Int) : Except String Db :=
  match getBalanceTransactionByPaymentOrderNo db order.outTradeNo with
  | some _ => .ok (completePaymentOrder db order.outTradeNo none now)
  | none =>
    (addUserBalance db.accounts order.userId order.amountCents (rechargeMeta order.outTradeNo)
      (toDriver now)).map (fun accounts => completePaymentOrder
        (logEvent { db with accounts := accounts } (.credited order.userId (some order.outTradeNo)))
        order.outTradeNo none now)

/-- The transaction of `finalizePaidOrder`, of the order as it was read. -/
def finalizeTransaction (db : Db) (order : PaymentOrder) (trafficLimit : Nat) (now : Int) : Except String Db :=
  match order.planId with
  | some planId => finalizePlanOrder db order planId trafficLimit now
  | none =>
    match order.orderType with
    | .plan => .error "paid plan no longer exists; administrator reconciliation required"
    | .balance => finalizeBalanceOrder db order now
    | .test => .ok (completePaymentOrder db order.outTradeNo none now)

end ForwardX.Panel
