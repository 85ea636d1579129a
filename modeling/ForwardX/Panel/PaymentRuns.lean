import ForwardX.Lib.Transition
import ForwardX.Panel.Payment

/- Runs of the payment functions on any number of panels. A task is one call of
   `finalizePaidOrder`, or a pass of `recoverStaleProcessingPaymentOrders`; it stops after
   every statement, for any length of time, and what it read by then may be out of date when
   it goes on. -/
namespace ForwardX.Panel
open Transition

/-! ## Tasks -/

/-- Where a call of `finalizePaidOrder` stands. `again` is its second claim. -/
inductive Stage
  | next
  | claim (again : Bool)
  | read (again : Bool)
  | existing
  | reset (staleBefore : Int)
  | apply (order : PaymentOrder)
  | failed (failureReason : String) (statuses : List OrderStatus)
  deriving DecidableEq, Repr

/-- The call that is under way, and the rows that a recovery pass has still to visit. -/
structure Task where
  outTradeNo : String
  stage : Stage
  staleBefore : Int
  rows : List PaymentOrder
  deriving DecidableEq, Repr

/-- A call of `finalizePaidOrder`. -/
def Task.finalize (outTradeNo : String) : Task := ⟨outTradeNo, .claim false, 0, []⟩

def Task.at (t : Task) (stage : Stage) : Task := { t with stage := stage }

/-- What `finalizePaidOrder` says of an order that it could not apply. -/
def finalizeFailure : Stage := .failed "已收款，入账失败，请管理员按订单号查看支付日志" [.paid, .processing]

/-- What `processPaidNotification` says of an order whose notification it rejects. -/
def notificationFailure : Stage := .failed "付款校验未通过，请管理员按订单号查看支付日志" unpaidStatuses

/-- The loop of `recoverStaleProcessingPaymentOrders` at its next row. -/
def Task.visit (t : Task) (db : Db) (now : Int) : Option (Db × Task) :=
  match t.rows with
  | [] => none
  | order :: rows =>
    let t := { t with outTradeNo := order.outTradeNo, rows := rows }
    if order.status = .paid then some (db, t.at (.claim false))
    else if t.staleBefore ≤ fromDriver order.updatedAt then some (db, t.at .next)
    else
      match resetStaleProcessingPaymentOrder db order.outTradeNo t.staleBefore now with
      | some db => some (db, t.at (.claim false))
      | none => some (db, t.at .next)

/-- A task up to its next `await`. -/
def Task.run (t : Task) (db : Db) (trafficLimit : Nat) (now : Int) : Option (Db × Task) :=
  match t.stage with
  | .next => t.visit db now
  | .claim again =>
    match claimPaidPaymentOrder db t.outTradeNo now with
    | some db => some (db, t.at (.read again))
    | none => some (db, t.at (if again then .next else .existing))
  | .read again =>
    match getPaymentOrderByOutTradeNo db t.outTradeNo with
    | some order => some (db, t.at (.apply order))
    | none => some (db, t.at (if again then .next else .existing))
  | .existing =>
    if (getPaymentOrderByOutTradeNo db t.outTradeNo).any (fun o => o.status = .processing) then
      some (db, t.at (.reset (now - processingStaleMs)))
    else some (db, t.at .next)
  | .reset staleBefore =>
    match resetStaleProcessingPaymentOrder db t.outTradeNo staleBefore now with
    | some db => some (db, t.at (.claim true))
    | none => some (db, t.at .next)
  | .apply order =>
    match finalizeTransaction db order trafficLimit now with
    | .ok db => some (db, t.at .next)
    | .error _ => some (db, t.at finalizeFailure)
  | .failed failureReason statuses =>
    some (recordPaymentOrderFailure db t.outTradeNo failureReason statuses now, t.at .next)

def Task.abort (t : Task) : Task :=
  match t.stage with
  | .apply _ => t.at finalizeFailure
  | _ => t.at .next

/-! ## Steps -/

/-- The transaction of `purchasePlanWithBalance`, of the amount that its discount leaves. -/
def purchasePlanWithBalance (db : Db) (input : ApplyInput) (discountCodeId : Option Nat) (amountCents : Nat)
    (description : String) (now : Int) : Except String Db :=
  let charged :=
    if 0 < amountCents then
      addUserBalance db.accounts input.userId (-(amountCents : Rat))
        ⟨"purchase", some description, none, none, none⟩ (toDriver now)
    else .ok db.accounts
  match charged with
  | .error e => .error e
  | .ok accounts =>
    match consumeOptionalDiscount { db with accounts := accounts } discountCodeId now with
    | .error e => .error e
    | .ok db =>
      (applySubscriptionToUser db { input with
        source               := .balance
        paymentOrderNo       := none
        overrideDurationDays := none } now).map (·.2)

/-- The database, the time in milliseconds, the tasks of all panels, and the notifications that
matched their order so far, each with the order it matched. No function reads the last. -/
structure PaymentState where
  db : Db
  now : Int
  tasks : List Task
  verified : List (PaymentOrder × PaidNotification)
  deriving DecidableEq, Repr

inductive PaymentAct
  | tick (elapsed : Nat)
  | edit (users : List User) (plans : List SubscriptionPlan) (discountCodes : List DiscountCode)
      (resources : Resources)
  | create (input : CreateOrderInput)
  | checkout (outTradeNo : String) (tradeNo : Option String)
  | notify (outTradeNo : String) (n : PaidNotification)
  | close (outTradeNo : String) (status : ClosingStatus) (rawNotify : Option String)
  | delete (outTradeNo : String)
  | note (outTradeNo failureReason : String) (statuses : List OrderStatus)
  | finalize (outTradeNo : String)
  | recover (rows : List PaymentOrder)
  | run (i trafficLimit : Nat)
  | abort (i : Nat)
  | assign (input : ApplyInput)
  | purchase (input : ApplyInput) (discountCodeId : Option Nat) (amountCents : Nat) (description : String)

def SubscriptionPlan.counter (p : SubscriptionPlan) : Nat × Nat := (p.id, p.stockUsed)
def DiscountCode.counter (c : DiscountCode) : Nat × Int := (c.id, c.usedCount)

/-- One step. A call that throws is none: it changes nothing. -/
def PaymentState.step (b : PaymentState) : PaymentAct → Option PaymentState
  | .tick elapsed => some { b with now := b.now + elapsed }
  | .edit users plans discountCodes resources =>
    -- settings change, the counters do not
    if plans.map (·.counter) = b.db.plans.map (·.counter) ∧
        discountCodes.map (·.counter) = b.db.discountCodes.map (·.counter) then
      some { b with db := { b.db with
        users         := users
        plans         := plans
        discountCodes := discountCodes
        resources     := resources } }
    else none
  | .create input => (createPaymentOrder b.db input b.now).toOption.map (fun db => { b with db := db })
  | .checkout outTradeNo tradeNo =>
    some { b with db := setPaymentOrderCheckout b.db outTradeNo tradeNo b.now }
  | .notify outTradeNo n =>
    match acceptPaidNotification b.db outTradeNo n b.now with
    | .ok db => some { b with
        db       := db
        tasks    := b.tasks ++ [Task.finalize outTradeNo]
        verified := b.verified ++
          (getPaymentOrderByOutTradeNo b.db outTradeNo).toList.map (fun order => (order, n)) }
    | .error _ => some { b with tasks := b.tasks ++ [(Task.finalize outTradeNo).at notificationFailure] }
  | .close outTradeNo status rawNotify =>
    some { b with db := closePaymentOrderAndReleaseDiscount b.db outTradeNo status rawNotify b.now }
  | .delete outTradeNo => (deletePaymentOrder b.db outTradeNo b.now).toOption.map (fun db => { b with db := db })
  | .note outTradeNo failureReason statuses =>
    some { b with db := recordPaymentOrderFailure b.db outTradeNo failureReason statuses b.now }
  | .finalize outTradeNo => some { b with tasks := b.tasks ++ [Task.finalize outTradeNo] }
  | .recover rows =>
    if ∀ o ∈ rows, o ∈ b.db.paymentOrders ∧ (o.status = .paid ∨ o.status = .processing) then
      some { b with tasks := b.tasks ++ [⟨"", .next, b.now - processingStaleMs, rows⟩] }
    else none
  | .run i trafficLimit =>
    b.tasks[i]?.bind (fun t => (t.run b.db trafficLimit b.now).map (fun r =>
      { b with db := r.1, tasks := b.tasks.set i r.2 }))
  | .abort i => b.tasks[i]?.map (fun t => { b with tasks := b.tasks.set i t.abort })
  | .assign input =>
    if input.source = .payment ∨ input.paymentOrderNo ≠ none then none
    else (applySubscriptionToUser b.db input b.now).toOption.map (fun r => { b with db := r.2 })
  | .purchase input discountCodeId amountCents description =>
    (purchasePlanWithBalance b.db input discountCodeId amountCents description b.now).toOption.map
      (fun db => { b with db := db })

abbrev paymentSteps : Steps PaymentState PaymentAct := Steps.ofFn PaymentState.step

/-- No order was made yet, nothing was paid with one, and nothing is under way. The keys of plans
and codes are distinct. -/
structure PaymentState.Start (b : PaymentState) : Prop where
  paymentOrders : b.db.paymentOrders = []
  subscriptions : ∀ s ∈ b.db.subscriptions, s.paymentOrderNo = none
  transactions : ∀ t ∈ b.db.accounts.transactions, t.paymentOrderNo = none
  log : b.db.log = []
  tasks : b.tasks = []
  verified : b.verified = []
  plans : (b.db.plans.map (·.id)).Nodup
  discountCodes : (b.db.discountCodes.map (·.id)).Nodup
  uses : ∀ c ∈ b.db.discountCodes, 0 ≤ c.usedCount

/-! ## Grants and renewals, as orders see them -/

/-- The renewal of a subscription. -/
structure Renewal (db db' : Db) (input : ApplyInput) (id : Nat) : Prop where
  target : ∃ s ∈ db.subscriptions, s.id = id ∧ s.userId = input.userId ∧ s.planId = input.planId
  subscriptions : ∃ f, db'.subscriptions = Rows.set (·.id) db.subscriptions id f ∧ ∀ s,
    (f s).id = s.id ∧ (f s).userId = s.userId ∧ (f s).planId = s.planId ∧
      (f s).paymentOrderNo = (input.paymentOrderNo <|> s.paymentOrderNo)
  log : db'.log = db.log ++ [.renewed id input.paidWith]
  accounts : db'.accounts = db.accounts
  paymentOrders : db'.paymentOrders = db.paymentOrders
  plans : db'.plans = db.plans
  discountCodes : db'.discountCodes = db.discountCodes

/-- A new subscription. -/
structure Grant (db db' : Db) (input : ApplyInput) (order : Option PaymentOrder) (id : Nat) : Prop where
  subscriptions : ∃ s, db'.subscriptions = db.subscriptions ++ [s] ∧ s.id = id ∧ s.userId = input.userId ∧
    s.planId = input.planId ∧ s.paymentOrderNo = input.paymentOrderNo
  log : db'.log = db.log ++ [.granted id input.paidWith]
  accounts : db'.accounts = db.accounts
  discountCodes : db'.discountCodes = db.discountCodes
  stock : ∃ db₁, reserveGrantStock db input order = .ok db₁ ∧ db'.paymentOrders = db₁.paymentOrders ∧
    db'.plans = db₁.plans

variable {now : Int} {db db' : Db} {r : ApplyResult} {input : ApplyInput}

theorem renew_renewal {plan : SubscriptionPlan} {id : Nat} {s : UserSubscription}
    (hs : renewalTarget db input id = .ok s) (h : renewSubscription db input plan s now = .ok (r, db')) :
    Renewal db db' input r.subscriptionId := by
  obtain ⟨hfind, -, huser, hplan⟩ := renewalTarget_spec hs
  unfold renewSubscription at h
  split at h
  · cases h
  · injection h with h
    obtain ⟨rfl, rfl⟩ := Prod.mk.inj h
    exact ⟨⟨s, Rows.mem_of_find hfind, rfl, huser, hplan⟩, ⟨_, rfl, fun _ => ⟨rfl, rfl, rfl, rfl⟩⟩,
      rfl, rfl, rfl, rfl, rfl⟩

theorem grant_grant {plan : SubscriptionPlan} {order : Option PaymentOrder}
    (h : grantSubscription db input plan order now = .ok (r, db')) : Grant db db' input order r.subscriptionId := by
  unfold grantSubscription at h
  dsimp only at h
  split at h
  · cases h
  · rename_i db₁ hstock
    obtain ⟨hsubs, -, -, hlog, -, haccounts, hcodes⟩ := reserveGrantStock_frame hstock
    split at h
    · cases h
    · rename_i portRangeStart portRangeEnd _
      injection h with h
      obtain ⟨rfl, rfl⟩ := Prod.mk.inj h
      refine ⟨⟨_, ?_, rfl, rfl, rfl, rfl⟩, ?_, ?_, ?_, db₁, hstock, ?_, ?_⟩
      · rw [← hsubs]
        unfold logEvent
        dsimp only
        split <;> rfl
      · rw [← hlog]
        unfold logEvent
        dsimp only
        split <;> rfl
      · rw [← haccounts]
        unfold logEvent
        dsimp only
        split <;> rfl
      · rw [← hcodes]
        unfold logEvent
        dsimp only
        split <;> rfl
      · unfold logEvent
        dsimp only
        split <;> rfl
      · unfold logEvent
        dsimp only
        split <;> rfl

/-- What a call of `applySubscriptionToUser` does: nothing when its order was applied, else a
renewal of the target or a new subscription. -/
theorem apply_effect (h : applySubscriptionToUser db input now = .ok (r, db')) :
    (db' = db ∧ ∃ no order existing, input.paidWith = some no ∧ checkPaymentOrder db input no = .ok order ∧
      existingSubscription db order = some existing ∧ r.subscriptionId = existing.id) ∨
    ∃ order : Option PaymentOrder,
      ((input.paidWith = none ∧ order = none) ∨
        ∃ no o, input.paidWith = some no ∧ checkPaymentOrder db input no = .ok o ∧
          existingSubscription db o = none ∧ order = some o) ∧
      ((input.targetSubscriptionId = none ∧ Grant db db' input order r.subscriptionId) ∨
        (input.targetSubscriptionId.isSome ∧ Renewal db db' input r.subscriptionId)) := by
  rcases apply_cases h with hexisting | ⟨order, plan, -, horder, hcase⟩
  · exact .inl hexisting
  · refine .inr ⟨order, horder, ?_⟩
    rcases hcase with ⟨htarget, hgrant⟩ | ⟨id, s, htarget, hs, hrenew⟩
    · exact .inl ⟨htarget, grant_grant hgrant⟩
    · exact .inr ⟨by rw [htarget]; rfl, renew_renewal hs hrenew⟩

theorem checkPaymentOrder_spec {no : String} {o : PaymentOrder} (h : checkPaymentOrder db input no = .ok o) :
    getPaymentOrderByOutTradeNo db no = some o ∧ o.planId = some input.planId ∧ o.userId = input.userId ∧
      o.status.isPaid = true := by
  unfold checkPaymentOrder at h
  split at h
  · cases h
  · rename_i order hfind
    split at h
    · cases h
    · rename_i hmatch
      split at h
      · cases h
      · rename_i hpaid
        obtain rfl := Except.ok.inj h
        rw [not_or, not_not, not_not] at hmatch
        refine ⟨hfind, hmatch.1, hmatch.2, ?_⟩
        cases hstatus : order.status <;> simp_all [OrderStatus.isPaid]

end ForwardX.Panel
