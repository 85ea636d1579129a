import ForwardX.Panel.PaymentRuns

/- Every order is applied once. A task that goes on with what it read long ago finds in its
   transaction that the order was applied: by the subscription that carries its number, by
   the subscription that the completed order names when a renewal took that number away, or
   by the transaction of the balance. -/
namespace ForwardX.Panel
open Transition

/-! ## What an order was applied as -/

def Event.orderNo : Event → Option String
  | .granted _ no | .renewed _ no | .credited _ no => no
  | .cycleReset _ _ _ => none

def applications (log : List Event) (no : String) : List Event := log.filter (fun e => e.orderNo = some no)

def credits (db : Db) (no : String) : List (Nat × Int) :=
  (db.accounts.transactions.filter (fun t => t.paymentOrderNo = some no)).map
    (fun t => (t.userId, t.amountCents))

def Untouched (db : Db) (no : String) : Prop := applications db.log no = [] ∧ credits db no = []

/-- What the order was paid for was done once: one grant or renewal of its plan for its user,
or one credit of its amount. A test order is for nothing. -/
def Fulfilled (db : Db) (o : PaymentOrder) : Prop :=
  match o.orderType with
  | .plan => ∃ s ∈ db.subscriptions, o.subscriptionId = some s.id ∧ s.userId = o.userId ∧
      o.planId = some s.planId ∧ credits db o.outTradeNo = [] ∧
      (applications db.log o.outTradeNo = [.granted s.id (some o.outTradeNo)] ∨
        applications db.log o.outTradeNo = [.renewed s.id (some o.outTradeNo)])
  | .balance => applications db.log o.outTradeNo = [.credited o.userId (some o.outTradeNo)] ∧
      credits db o.outTradeNo = [(o.userId, o.amountCents)]
  | .test => Untouched db o.outTradeNo

theorem applications_concat (log : List Event) (e : Event) (no : String) :
    applications (log ++ [e]) no = applications log no ++ (if e.orderNo = some no then [e] else []) := by
  unfold applications
  rw [List.filter_append, List.filter_singleton]
  simp

/-! ## What a step keeps of the orders -/

/-- The columns of an order that no function changes. -/
structure SameOrder (o o' : PaymentOrder) : Prop where
  outTradeNo : o'.outTradeNo = o.outTradeNo
  userId : o'.userId = o.userId
  orderType : o'.orderType = o.orderType
  amountCents : o'.amountCents = o.amountCents
  planId : o'.planId = o.planId
  discountCodeId : o'.discountCodeId = o.discountCodeId

theorem SameOrder.refl (o : PaymentOrder) : SameOrder o o := ⟨rfl, rfl, rfl, rfl, rfl, rfl⟩

theorem SameOrder.trans {o₁ o₂ o₃ : PaymentOrder} (h₁ : SameOrder o₁ o₂) (h₂ : SameOrder o₂ o₃) :
    SameOrder o₁ o₃ :=
  ⟨h₂.outTradeNo.trans h₁.outTradeNo, h₂.userId.trans h₁.userId, h₂.orderType.trans h₁.orderType,
    h₂.amountCents.trans h₁.amountCents, h₂.planId.trans h₁.planId,
    h₂.discountCodeId.trans h₁.discountCodeId⟩

/-- A row that is written without being completed. It may be revived: an order that was not paid
is. -/
structure OrderKept (revived : PaymentOrder → Prop) (o o' : PaymentOrder) : Prop where
  same : SameOrder o o'
  completed : o'.status = .completed ↔ o.status = .completed
  subscription : o.status = .completed → o'.subscriptionId = o.subscriptionId
  paid : o.status.isPaid = true → o'.status.isPaid = true
  revived : o'.status.isPaid = true → o.status.isPaid = true ∨ revived o

theorem OrderKept.refl (revived : PaymentOrder → Prop) (o : PaymentOrder) : OrderKept revived o o :=
  ⟨.refl o, Iff.rfl, fun _ => rfl, id, .inl⟩

/-- A step that completes no order and applies none. -/
structure Keeps (revived : PaymentOrder → Prop) (db db' : Db) : Prop where
  rows : ∀ s ∈ db.subscriptions, ∃ s' ∈ db'.subscriptions,
    s'.id = s.id ∧ s'.userId = s.userId ∧ s'.planId = s.planId
  owed : ∀ s' ∈ db'.subscriptions, ∀ no ∈ s'.paymentOrderNo,
    ∃ s ∈ db.subscriptions, s.id = s'.id ∧ s.paymentOrderNo = some no
  applications : ∀ no, applications db'.log no = applications db.log no
  credits : ∀ no, credits db' no = credits db no
  orders : ∃ f, db'.paymentOrders = db.paymentOrders.map f ∧ ∀ o ∈ db.paymentOrders, OrderKept revived o (f o)

def none_revived (_ : PaymentOrder) : Prop := False

variable {revived : PaymentOrder → Prop} {db db' : Db}

/-- What is written besides orders, subscriptions, transactions and the history does not matter. -/
theorem Keeps.of_eq (hsubs : db'.subscriptions = db.subscriptions) (hlog : db'.log = db.log)
    (haccounts : db'.accounts = db.accounts) (horders : db'.paymentOrders = db.paymentOrders) :
    Keeps revived db db' := by
  refine ⟨fun s hs => ⟨s, hsubs ▸ hs, rfl, rfl, rfl⟩, fun s hs no hno => ⟨s, hsubs ▸ hs, rfl, hno⟩,
    fun no => by rw [hlog], fun no => ?_, id, ?_, fun o _ => .refl _ o⟩
  · unfold ForwardX.Panel.credits
    rw [haccounts]
  · rw [horders, List.map_id]

theorem Keeps.trans {db₁ db₂ db₃ : Db} (h₁ : Keeps revived db₁ db₂) (h₂ : Keeps none_revived db₂ db₃) :
    Keeps revived db₁ db₃ := by
  refine ⟨fun s hs => ?_, fun s hs no hno => ?_, fun no => (h₂.applications no).trans (h₁.applications no),
    fun no => (h₂.credits no).trans (h₁.credits no), ?_⟩
  · obtain ⟨s', hs', hid, huser, hplan⟩ := h₁.rows s hs
    obtain ⟨s'', hs'', hid', huser', hplan'⟩ := h₂.rows s' hs'
    exact ⟨s'', hs'', hid'.trans hid, huser'.trans huser, hplan'.trans hplan⟩
  · obtain ⟨s', hs', hid, hno'⟩ := h₂.owed s hs no hno
    obtain ⟨s'', hs'', hid', hno''⟩ := h₁.owed s' hs' no hno'
    exact ⟨s'', hs'', hid'.trans hid, hno''⟩
  · obtain ⟨f, hf, hkept⟩ := h₁.orders
    obtain ⟨g, hg, hkept'⟩ := h₂.orders
    refine ⟨g ∘ f, by rw [hg, hf, List.map_map], fun o ho => ?_⟩
    have h := hkept o ho
    have h' := hkept' (f o) (hf ▸ List.mem_map_of_mem ho)
    refine ⟨h.same.trans h'.same, h'.completed.trans h.completed, fun hc => ?_, fun hp => h'.paid (h.paid hp),
      fun hp => ?_⟩
    · exact (h'.subscription (h.completed.mpr hc)).trans (h.subscription hc)
    · exact h.revived ((h'.revived hp).resolve_right id)

theorem Keeps.set (db : Db) {no : String} {f : PaymentOrder → PaymentOrder}
    (hf : ∀ o ∈ db.paymentOrders, o.outTradeNo = no → OrderKept revived o (f o)) :
    Keeps revived db (setPaymentOrder db no f) := by
  refine ⟨fun s hs => ⟨s, hs, rfl, rfl, rfl⟩, fun s hs n hn => ⟨s, hs, rfl, hn⟩, fun _ => rfl, fun _ => rfl,
    _, rfl, fun o ho => ?_⟩
  split
  · exact hf o ho ‹_›
  · exact .refl _ o

theorem Keeps.touch (db : Db) (no : String) {f : PaymentOrder → PaymentOrder}
    (hf : ∀ o, SameOrder o (f o) ∧ (f o).status = o.status ∧ (f o).subscriptionId = o.subscriptionId) :
    Keeps revived db (setPaymentOrder db no f) := by
  apply Keeps.set
  intro o _ _
  obtain ⟨hsame, hstatus, hsub⟩ := hf o
  exact ⟨hsame, by rw [hstatus], fun _ => hsub, fun hp => hstatus ▸ hp, fun hp => .inl (hstatus ▸ hp)⟩

/-! ## The functions that complete no order -/

@[simp] theorem releaseOrderDiscount_paymentOrders (db : Db) (o : PaymentOrder) :
    (releaseOrderDiscount db o).paymentOrders = db.paymentOrders := by
  unfold releaseOrderDiscount
  split
  · split <;> rfl
  · rfl

theorem releaseOrderDiscount_keeps (revived : PaymentOrder → Prop) (db : Db) (o : PaymentOrder) :
    Keeps revived db (releaseOrderDiscount db o) := by
  unfold releaseOrderDiscount
  split
  · split
    · exact .of_eq rfl rfl rfl rfl
    · exact .of_eq rfl rfl rfl rfl
  · exact .of_eq rfl rfl rfl rfl

@[simp] theorem releaseOrderStock_paymentOrders (db : Db) (o : PaymentOrder) :
    (releaseOrderStock db o).paymentOrders = db.paymentOrders := by
  unfold releaseOrderStock
  split
  · split <;> rfl
  · rfl

theorem releaseOrderStock_keeps (revived : PaymentOrder → Prop) (db : Db) (o : PaymentOrder) :
    Keeps revived db (releaseOrderStock db o) := by
  unfold releaseOrderStock
  split
  · split
    · exact .of_eq rfl rfl rfl rfl
    · exact .of_eq rfl rfl rfl rfl
  · exact .of_eq rfl rfl rfl rfl

theorem closing_not_paid (status : ClosingStatus) :
    status.toStatus.isPaid = false ∧ status.toStatus ≠ .completed := by
  cases status <;> exact ⟨rfl, nofun⟩

section
variable {db : Db} (hnd : (db.paymentOrders.map (·.outTradeNo)).Nodup)
include hnd

theorem found_order {no : String} {o order : PaymentOrder} (hfind : getPaymentOrderByOutTradeNo db no = some order)
    (ho : o ∈ db.paymentOrders) (hno : o.outTradeNo = no) : o = order :=
  Rows.eq_of_key hnd ho (Rows.mem_of_find hfind) (hno.trans (Rows.key_of_find hfind).symm)

theorem closePaymentOrder_keeps (no : String) (status : ClosingStatus) (now : Int)
    {data : PaymentOrder → PaymentOrder} (hdata : ∀ o, SameOrder o (data o)) :
    Keeps none_revived db (closePaymentOrder db no status now data) := by
  unfold closePaymentOrder
  split
  · exact .of_eq rfl rfl rfl rfl
  · rename_i previous hfind
    split
    · exact .of_eq rfl rfl rfl rfl
    · rename_i hpending
      refine (releaseOrderStock_keeps _ db previous).trans ?_
      apply Keeps.set
      intro o ho hno
      rw [releaseOrderStock_paymentOrders] at ho
      obtain rfl := found_order hnd hfind ho hno
      obtain ⟨hunpaid, hopen⟩ := closing_not_paid status
      have hstatus := not_not.mp hpending
      have hsame := hdata o
      refine ⟨⟨hsame.1, hsame.2, hsame.3, hsame.4, hsame.5, hsame.6⟩, ?_, ?_, ?_, ?_⟩
      · rw [hstatus]
        exact ⟨fun h => absurd h hopen, nofun⟩
      · rw [hstatus]
        nofun
      · rw [hstatus]
        nofun
      · intro h
        rw [show ∀ o : PaymentOrder, o.status = status.toStatus → o.status.isPaid = false from
          fun _ h => h ▸ hunpaid] at h
        · cases h
        · rfl

theorem closePaymentOrderAndReleaseDiscount_keeps (no : String) (status : ClosingStatus)
    (rawNotify : Option String) (now : Int) :
    Keeps none_revived db (closePaymentOrderAndReleaseDiscount db no status rawNotify now) := by
  unfold closePaymentOrderAndReleaseDiscount
  split
  · exact .of_eq rfl rfl rfl rfl
  · rename_i order hfind
    split
    · exact .of_eq rfl rfl rfl rfl
    · refine (releaseOrderDiscount_keeps _ db order).trans ?_
      apply closePaymentOrder_keeps
      · rw [releaseOrderDiscount_paymentOrders]
        exact hnd
      · exact fun o => ⟨rfl, rfl, rfl, rfl, rfl, rfl⟩

variable {db' : Db} {now : Int} {no : String}

theorem deletePaymentOrder_keeps (h : deletePaymentOrder db no now = .ok db') : Keeps none_revived db db' := by
  unfold deletePaymentOrder at h
  split at h
  · cases h
  · rename_i order hfind
    split at h
    · cases h
    · obtain rfl := Except.ok.inj h
      have hclosed : Keeps none_revived db (if order.status = .pending then
          closePaymentOrder (releaseOrderDiscount db order) no .cancelled now
            (fun o => { o with discountConsumed := false }) else db) := by
        split
        · refine (releaseOrderDiscount_keeps _ db order).trans ?_
          apply closePaymentOrder_keeps
          · rw [releaseOrderDiscount_paymentOrders]
            exact hnd
          · exact fun o => ⟨rfl, rfl, rfl, rfl, rfl, rfl⟩
        · exact .of_eq rfl rfl rfl rfl
      exact hclosed.trans (Keeps.touch _ no (fun o => ⟨⟨rfl, rfl, rfl, rfl, rfl, rfl⟩, rfl, rfl⟩))

theorem acceptPaidNotification_keeps {n : PaidNotification} (h : acceptPaidNotification db no n now = .ok db') :
    ∃ order, getPaymentOrderByOutTradeNo db no = some order ∧
      assertPaidNotificationMatchesOrder order n = .ok () ∧ Keeps (· = order) db db' ∧
      ∃ o ∈ db'.paymentOrders, o.outTradeNo = no ∧ o.status.isPaid = true := by
  unfold acceptPaidNotification at h
  split at h
  · cases h
  · rename_i order hfind
    split at h
    · cases h
    · rename_i hmatch
      refine ⟨order, hfind, hmatch, ?_⟩
      split at h
      · rename_i hpaid
        obtain rfl := Except.ok.inj h
        exact ⟨.of_eq rfl rfl rfl rfl, order, Rows.mem_of_find hfind, Rows.key_of_find hfind, hpaid⟩
      · rename_i hunpaid
        dsimp only at h
        split at h
        · cases h
        · split at h
          · rename_i paid db₁ hmark
            split at h
            · rename_i hpaid
              obtain rfl := Except.ok.inj h
              unfold markPaymentOrderPaid at hmark
              rw [hfind] at hmark
              dsimp only at hmark
              have hmarkable : (markableStatuses true).contains order.status = true := by
                cases hstatus : order.status <;> simp_all [markableStatuses, OrderStatus.isPaid]
              rw [if_pos hmarkable] at hmark
              obtain ⟨hpaidRow, rfl⟩ := Prod.mk.inj hmark
              refine ⟨?_, paid, Rows.mem_of_find hpaidRow, Rows.key_of_find hpaidRow, hpaid⟩
              apply Keeps.set
              intro o ho hno
              obtain rfl := found_order hnd hfind ho hno
              have hopen : o.status ≠ .completed := by
                intro hcompleted
                rw [hcompleted] at hunpaid
                exact hunpaid rfl
              refine ⟨⟨rfl, rfl, rfl, rfl, rfl, rfl⟩, ?_, fun _ => rfl, fun _ => rfl, fun _ => .inr rfl⟩
              exact ⟨fun hc => (by cases hc), fun hc => absurd hc hopen⟩
            · cases h
          · cases h

theorem claimPaidPaymentOrder_keeps (h : claimPaidPaymentOrder db no now = some db') :
    Keeps none_revived db db' ∧ ∃ o ∈ db'.paymentOrders, o.outTradeNo = no ∧ o.status.isPaid = true := by
  unfold claimPaidPaymentOrder at h
  split at h
  · rename_i hstatus
    obtain rfl := Option.some.inj h
    obtain ⟨order, hfind, hpaid⟩ := (Option.any_eq_true _ _).mp hstatus
    have hpaid := of_decide_eq_true hpaid
    constructor
    · apply Keeps.set
      intro o ho hno
      obtain rfl := found_order hnd hfind ho hno
      refine ⟨⟨rfl, rfl, rfl, rfl, rfl, rfl⟩, ?_, fun _ => rfl, fun _ => rfl, fun _ => .inl ?_⟩
      · rw [hpaid]
        exact ⟨nofun, nofun⟩
      · rw [hpaid]
        rfl
    · have hno : order.outTradeNo = no := Rows.key_of_find hfind
      exact ⟨_, Rows.mem_set.mpr (.inl ⟨order, Rows.mem_of_find hfind, hno, rfl⟩), hno, rfl⟩
  · cases h

theorem resetStaleProcessingPaymentOrder_keeps {before now : Int}
    (h : resetStaleProcessingPaymentOrder db no before now = some db') : Keeps none_revived db db' := by
  unfold resetStaleProcessingPaymentOrder at h
  split at h
  · rename_i hstatus
    obtain rfl := Option.some.inj h
    obtain ⟨order, hfind, hstale⟩ := (Option.any_eq_true _ _).mp hstatus
    rw [Bool.and_eq_true] at hstale
    have hprocessing := of_decide_eq_true hstale.1
    apply Keeps.set
    intro o ho hno
    obtain rfl := found_order hnd hfind ho hno
    refine ⟨⟨rfl, rfl, rfl, rfl, rfl, rfl⟩, ?_, fun _ => rfl, fun _ => rfl, fun _ => .inl ?_⟩
    · rw [hprocessing]
      exact ⟨nofun, nofun⟩
    · rw [hprocessing]
      rfl
  · cases h

end

theorem setPaymentOrderCheckout_keeps (db : Db) (no : String) (tradeNo : Option String) (now : Int) :
    Keeps none_revived db (setPaymentOrderCheckout db no tradeNo now) := by
  apply Keeps.touch
  intro o
  split
  · exact ⟨⟨rfl, rfl, rfl, rfl, rfl, rfl⟩, rfl, rfl⟩
  · exact ⟨.refl o, rfl, rfl⟩

theorem recordPaymentOrderFailure_keeps (db : Db) (no failureReason : String) (statuses : List OrderStatus)
    (now : Int) : Keeps none_revived db (recordPaymentOrderFailure db no failureReason statuses now) := by
  apply Keeps.touch
  intro o
  split
  · exact ⟨⟨rfl, rfl, rfl, rfl, rfl, rfl⟩, rfl, rfl⟩
  · exact ⟨.refl o, rfl, rfl⟩

/-! ## Grants and renewals -/

section
variable {db db' : Db} {input : ApplyInput} {id : Nat}

def RowsStay (db db' : Db) : Prop :=
  ∀ s ∈ db.subscriptions, ∃ s' ∈ db'.subscriptions, s'.id = s.id ∧ s'.userId = s.userId ∧ s'.planId = s.planId

/-- Besides the subscription of a call, the subscriptions carry the orders they carried. -/
def OwedBy (db db' : Db) (input : ApplyInput) (id : Nat) : Prop :=
  ∀ s' ∈ db'.subscriptions, ∀ no ∈ s'.paymentOrderNo,
    (∃ s ∈ db.subscriptions, s.id = s'.id ∧ s.paymentOrderNo = some no) ∨
      (s'.id = id ∧ input.paymentOrderNo = some no)

def HasTarget (db' : Db) (input : ApplyInput) (id : Nat) : Prop :=
  ∃ s ∈ db'.subscriptions, s.id = id ∧ s.userId = input.userId ∧ s.planId = input.planId

theorem Renewal.effect (h : Renewal db db' input id) :
    RowsStay db db' ∧ OwedBy db db' input id ∧ HasTarget db' input id := by
  obtain ⟨f, hsubs, hf⟩ := h.subscriptions
  have hstay : RowsStay db db' := by
    unfold RowsStay
    rw [hsubs]
    intro s hs
    by_cases hid : s.id = id
    · exact ⟨f s, Rows.mem_set.mpr (.inl ⟨s, hs, hid, rfl⟩), (hf s).1, (hf s).2.1, (hf s).2.2.1⟩
    · exact ⟨s, Rows.mem_set.mpr (.inr ⟨hs, hid⟩), rfl, rfl, rfl⟩
  refine ⟨hstay, ?_, ?_⟩
  · unfold OwedBy
    rw [hsubs]
    intro s' hs' no hno
    rcases Rows.mem_set.mp hs' with ⟨s, hs, hk, rfl⟩ | ⟨hs', -⟩
    · obtain ⟨hid, -, -, horder⟩ := hf s
      rw [horder] at hno
      cases hinput : input.paymentOrderNo with
      | none =>
        rw [hinput] at hno
        exact .inl ⟨s, hs, hid.symm, hno⟩
      | some n =>
        rw [hinput] at hno
        exact .inr ⟨hid.trans hk, hno⟩
    · exact .inl ⟨s', hs', rfl, hno⟩
  · obtain ⟨s, hs, hid, huser, hplan⟩ := h.target
    obtain ⟨s', hs', hid', huser', hplan'⟩ := hstay s hs
    exact ⟨s', hs', hid'.trans hid, huser'.trans huser, hplan'.trans hplan⟩

theorem Grant.effect {order : Option PaymentOrder} (h : Grant db db' input order id) :
    RowsStay db db' ∧ OwedBy db db' input id ∧ HasTarget db' input id := by
  obtain ⟨row, hsubs, hid, huser, hplan, hno⟩ := h.subscriptions
  unfold RowsStay OwedBy HasTarget
  rw [hsubs]
  refine ⟨fun s hs => ⟨s, List.mem_append_left _ hs, rfl, rfl, rfl⟩, fun s' hs' no hs'no => ?_,
    row, List.mem_append_right _ (List.mem_singleton.mpr rfl), hid, huser, hplan⟩
  rcases List.mem_append.mp hs' with hs' | hs'
  · exact .inl ⟨s', hs', rfl, hs'no⟩
  · obtain rfl := List.mem_singleton.mp hs'
    exact .inr ⟨hid, hno ▸ hs'no⟩

theorem reserveGrantStock_keeps {order : Option PaymentOrder} (h : reserveGrantStock db input order = .ok db') :
    Keeps none_revived db db' := by
  have hreserve : ∀ {db₁ : Db}, reservePlanStock db input.planId = .ok db₁ → Keeps none_revived db db₁ := by
    intro db₁ h
    unfold reservePlanStock at h
    split at h
    · obtain rfl := Except.ok.inj h
      exact .of_eq rfl rfl rfl rfl
    · cases h
  unfold reserveGrantStock at h
  split at h
  · split at h
    · obtain rfl := Except.ok.inj h
      exact .of_eq rfl rfl rfl rfl
    · cases hstock : reservePlanStock db input.planId with
      | error e =>
        rw [hstock] at h
        cases h
      | ok db₁ =>
        rw [hstock] at h
        obtain rfl := Except.ok.inj h
        exact (hreserve hstock).trans (Keeps.touch db₁ _ fun o => ⟨⟨rfl, rfl, rfl, rfl, rfl, rfl⟩, rfl, rfl⟩)
  · exact hreserve h

/-- A call that applies something, whatever it is paid with. -/
structure Application (db db' : Db) (input : ApplyInput) (id : Nat) : Prop where
  stay : RowsStay db db'
  owed : OwedBy db db' input id
  target : HasTarget db' input id
  log : db'.log = db.log ++ [.granted id input.paidWith] ∨ db'.log = db.log ++ [.renewed id input.paidWith]
  accounts : db'.accounts = db.accounts
  orders : ∃ f, db'.paymentOrders = db.paymentOrders.map f ∧
    ∀ o ∈ db.paymentOrders, OrderKept none_revived o (f o)

end

variable {now : Int} {input : ApplyInput}

theorem apply_application {r : ApplyResult} (h : applySubscriptionToUser db input now = .ok (r, db')) :
    (db' = db ∧ ∃ no order existing, input.paidWith = some no ∧ checkPaymentOrder db input no = .ok order ∧
      existingSubscription db order = some existing ∧ r.subscriptionId = existing.id) ∨
    (Application db db' input r.subscriptionId ∧
      ∀ no, input.paidWith = some no → ∃ o, checkPaymentOrder db input no = .ok o ∧
        existingSubscription db o = none) := by
  rcases apply_effect h with hexisting | ⟨order, horder, hcase⟩
  · exact .inl hexisting
  · refine .inr ⟨?_, fun no hno => ?_⟩
    · rcases hcase with ⟨-, hgrant⟩ | ⟨-, hrenew⟩
      · obtain ⟨hstay, howed, htarget⟩ := hgrant.effect
        obtain ⟨db₁, hstock, horders, -⟩ := hgrant.stock
        refine ⟨hstay, howed, htarget, .inl hgrant.log, hgrant.accounts, ?_⟩
        rw [horders]
        exact (reserveGrantStock_keeps hstock).orders
      · obtain ⟨hstay, howed, htarget⟩ := hrenew.effect
        refine ⟨hstay, howed, htarget, .inr hrenew.log, hrenew.accounts, id, ?_, fun o _ => .refl _ o⟩
        rw [hrenew.paymentOrders, List.map_id]
    · rcases horder with ⟨hnone, -⟩ | ⟨no', o, hno', hcheck, hexisting, -⟩
      · rw [hnone] at hno
        cases hno
      · obtain rfl := Option.some.inj (hno'.symm.trans hno)
        exact ⟨o, hcheck, hexisting⟩

theorem apply_keeps {r : ApplyResult} (hpaid : input.paidWith = none) (hno : input.paymentOrderNo = none)
    (h : applySubscriptionToUser db input now = .ok (r, db')) : Keeps none_revived db db' := by
  rcases apply_application h with ⟨rfl, -⟩ | ⟨happly, -⟩
  · exact .of_eq rfl rfl rfl rfl
  · refine ⟨happly.stay, fun s' hs' no hs'no => ?_, fun no => ?_, fun no => ?_, happly.orders⟩
    · rcases happly.owed s' hs' no hs'no with hold | ⟨-, hinput⟩
      · exact hold
      · rw [hno] at hinput
        cases hinput
    · rcases happly.log with hlog | hlog
      · rw [hlog, applications_concat, hpaid]
        exact List.append_nil _
      · rw [hlog, applications_concat, hpaid]
        exact List.append_nil _
    · unfold credits
      rw [happly.accounts]

theorem addUserBalance_transactions {a a' : Accounts} {userId : Nat} {amountCents : Rat} {info : BalanceMeta}
    (h : addUserBalance a userId amountCents info now = .ok a') : ∃ balance, a'.transactions =
      a.transactions ++ [transactionRow userId (mathRound amountCents) balance info now] := by
  unfold addUserBalance at h
  split at h
  · cases h
  · unfold addUserBalanceInTransaction at h
    split at h
    · cases h
    · dsimp only at h
      split at h
      · cases h
      · obtain rfl := Except.ok.inj h
        exact ⟨_, rfl⟩

theorem consumeDiscountCode_keeps {id : Nat} (h : consumeDiscountCode db id now = .ok db') :
    Keeps none_revived db db' := by
  unfold consumeDiscountCode at h
  split at h
  · obtain rfl := Except.ok.inj h
    exact .of_eq rfl rfl rfl rfl
  · cases h

theorem consumeOptionalDiscount_keeps {discountCodeId : Option Nat}
    (h : consumeOptionalDiscount db discountCodeId now = .ok db') : Keeps none_revived db db' := by
  unfold consumeOptionalDiscount at h
  split at h
  · exact consumeDiscountCode_keeps h
  · obtain rfl := Except.ok.inj h
    exact .of_eq rfl rfl rfl rfl

theorem Keeps.balance {accounts : Accounts} {t : BalanceTransaction}
    (h : accounts.transactions = db.accounts.transactions ++ [t]) (hno : t.paymentOrderNo = none) :
    Keeps none_revived db { db with accounts := accounts } := by
  refine ⟨fun s hs => ⟨s, hs, rfl, rfl, rfl⟩, fun s hs n hn => ⟨s, hs, rfl, hn⟩, fun _ => rfl, fun no => ?_,
    id, (List.map_id _).symm, fun o _ => .refl _ o⟩
  unfold ForwardX.Panel.credits
  rw [h, List.filter_append, List.filter_singleton, hno]
  simp

theorem purchasePlanWithBalance_keeps {discountCodeId : Option Nat} {amountCents : Nat} {description : String}
    (h : purchasePlanWithBalance db input discountCodeId amountCents description now = .ok db') :
    Keeps none_revived db db' := by
  unfold purchasePlanWithBalance at h
  dsimp only at h
  split at h
  · cases h
  · rename_i accounts hcharged
    have hbalance : Keeps none_revived db { db with accounts := accounts } := by
      split at hcharged
      · obtain ⟨balance, htransactions⟩ := addUserBalance_transactions hcharged
        exact .balance htransactions rfl
      · obtain rfl := Except.ok.inj hcharged
        exact .of_eq rfl rfl rfl rfl
    split at h
    · cases h
    · rename_i db₁ hdiscount
      have hconsumed := hbalance.trans (consumeOptionalDiscount_keeps hdiscount)
      cases happly : applySubscriptionToUser db₁ { input with
        source               := .balance
        paymentOrderNo       := none
        overrideDurationDays := none } now with
      | error e =>
        rw [happly] at h
        cases h
      | ok r =>
        rw [happly] at h
        obtain rfl := Except.ok.inj h
        exact hconsumed.trans (apply_keeps rfl rfl happly)

/-! ## The invariant of the tables -/

structure OrdersInv (db : Db) : Prop where
  orders : (db.paymentOrders.map (·.outTradeNo)).Nodup
  types : ∀ o ∈ db.paymentOrders, o.orderType = .plan ↔ o.planId.isSome = true
  fulfilled : ∀ o ∈ db.paymentOrders, o.status = .completed → Fulfilled db o
  untouched : ∀ o ∈ db.paymentOrders, o.status ≠ .completed → Untouched db o.outTradeNo
  unknown : ∀ no, (∀ o ∈ db.paymentOrders, o.outTradeNo ≠ no) → Untouched db no
  owed : ∀ s ∈ db.subscriptions, ∀ no ∈ s.paymentOrderNo, ∃ o ∈ db.paymentOrders,
    o.outTradeNo = no ∧ o.status = .completed ∧ o.subscriptionId = some s.id ∧ o.planId.isSome = true

/-- What an order was applied as, in a database that has as many applications of it. -/
theorem Fulfilled.transfer {o o' : PaymentOrder} (h : Fulfilled db o) (hsame : SameOrder o o')
    (hsub : o'.subscriptionId = o.subscriptionId) (hstay : RowsStay db db')
    (happ : applications db'.log o.outTradeNo = applications db.log o.outTradeNo)
    (hcredits : credits db' o.outTradeNo = credits db o.outTradeNo) : Fulfilled db' o' := by
  unfold Fulfilled Untouched at *
  rw [hsame.orderType, hsame.outTradeNo, hsame.userId, hsame.amountCents, hsame.planId, hsub, happ, hcredits]
  split at h
  · obtain ⟨s, hs, hid, huser, hplan, hrest⟩ := h
    obtain ⟨s', hs', hid', huser', hplan'⟩ := hstay s hs
    refine ⟨s', hs', by rw [hid']; exact hid, huser'.trans huser, by rw [hplan']; exact hplan, ?_⟩
    rw [hid']
    exact hrest
  · exact h
  · exact h

theorem OrdersInv.keeps (h : OrdersInv db) (hk : Keeps revived db db') : OrdersInv db' := by
  obtain ⟨f, hf, hkept⟩ := hk.orders
  have hrow : ∀ o' ∈ db'.paymentOrders, ∃ o ∈ db.paymentOrders, OrderKept revived o o' := by
    rw [hf]
    intro o' ho'
    obtain ⟨o, ho, rfl⟩ := List.mem_map.mp ho'
    exact ⟨o, ho, hkept o ho⟩
  refine ⟨?_, ?_, ?_, ?_, ?_, ?_⟩
  · rw [hf, List.map_map]
    convert h.orders using 1
    apply List.map_congr_left
    intro o ho
    exact (hkept o ho).same.outTradeNo
  · intro o' ho'
    obtain ⟨o, ho, hok⟩ := hrow o' ho'
    rw [hok.same.orderType, hok.same.planId]
    exact h.types o ho
  · intro o' ho' hcompleted
    obtain ⟨o, ho, hok⟩ := hrow o' ho'
    have hbefore := hok.completed.mp hcompleted
    exact (h.fulfilled o ho hbefore).transfer hok.same (hok.subscription hbefore) hk.rows
      (hk.applications _) (hk.credits _)
  · intro o' ho' hopen
    obtain ⟨o, ho, hok⟩ := hrow o' ho'
    have hbefore := h.untouched o ho (fun hc => hopen (hok.completed.mpr hc))
    unfold Untouched at *
    rw [hok.same.outTradeNo, hk.applications, hk.credits]
    exact hbefore
  · intro no hno
    unfold Untouched
    rw [hk.applications, hk.credits]
    apply h.unknown
    intro o ho hono
    refine hno (f o) (hf ▸ List.mem_map_of_mem ho) ?_
    exact (hkept o ho).same.outTradeNo.trans hono
  · intro s' hs' no hno
    obtain ⟨s, hs, hid, hsno⟩ := hk.owed s' hs' no hno
    obtain ⟨o, ho, hono, hcompleted, hsub, hplan⟩ := h.owed s hs no hsno
    have hok := hkept o ho
    refine ⟨f o, hf ▸ List.mem_map_of_mem ho, hok.same.outTradeNo.trans hono, hok.completed.mpr hcompleted, ?_, ?_⟩
    · rw [hok.subscription hcompleted, hsub, hid]
    · rw [hok.same.planId]
      exact hplan

/-- A step that completes the order of a number and applies it. -/
structure Applies (db db' : Db) (no : String) : Prop where
  rows : RowsStay db db'
  owed : ∀ s' ∈ db'.subscriptions, ∀ n ∈ s'.paymentOrderNo,
    (∃ s ∈ db.subscriptions, s.id = s'.id ∧ s.paymentOrderNo = some n) ∨
      (n = no ∧ ∃ o ∈ db'.paymentOrders, o.outTradeNo = no ∧ o.status = .completed ∧
        o.subscriptionId = some s'.id ∧ o.planId.isSome = true)
  applications : ∀ n, n ≠ no → applications db'.log n = applications db.log n
  credits : ∀ n, n ≠ no → credits db' n = credits db n
  orders : ∃ f, db'.paymentOrders = db.paymentOrders.map f ∧ ∀ o ∈ db.paymentOrders,
    SameOrder o (f o) ∧ (o.outTradeNo ≠ no → OrderKept none_revived o (f o)) ∧
    (o.outTradeNo = no → o.status.isPaid = true ∧ (f o).status = .completed ∧ Fulfilled db' (f o))
  known : ∃ o ∈ db.paymentOrders, o.outTradeNo = no ∧ o.status ≠ .completed

theorem OrdersInv.applies {no : String} (h : OrdersInv db) (ha : Applies db db' no) : OrdersInv db' := by
  obtain ⟨f, hf, hrows⟩ := ha.orders
  have hrow : ∀ o' ∈ db'.paymentOrders, ∃ o ∈ db.paymentOrders, f o = o' := by
    rw [hf]
    intro o' ho'
    obtain ⟨o, ho, heq⟩ := List.mem_map.mp ho'
    exact ⟨o, ho, heq⟩
  obtain ⟨o₀, ho₀, hno₀, hopen₀⟩ := ha.known
  refine ⟨?_, ?_, ?_, ?_, ?_, ?_⟩
  · rw [hf, List.map_map]
    convert h.orders using 1
    apply List.map_congr_left
    intro o ho
    exact (hrows o ho).1.outTradeNo
  · intro o' ho'
    obtain ⟨o, ho, rfl⟩ := hrow o' ho'
    rw [(hrows o ho).1.orderType, (hrows o ho).1.planId]
    exact h.types o ho
  · intro o' ho' hcompleted
    obtain ⟨o, ho, rfl⟩ := hrow o' ho'
    obtain ⟨hsame, hother, hmine⟩ := hrows o ho
    by_cases hno : o.outTradeNo = no
    · exact (hmine hno).2.2
    · have hok := hother hno
      have hbefore := hok.completed.mp hcompleted
      exact (h.fulfilled o ho hbefore).transfer hsame (hok.subscription hbefore) ha.rows
        (ha.applications _ hno) (ha.credits _ hno)
  · intro o' ho' hopen
    obtain ⟨o, ho, rfl⟩ := hrow o' ho'
    obtain ⟨hsame, hother, hmine⟩ := hrows o ho
    by_cases hno : o.outTradeNo = no
    · exact absurd (hmine hno).2.1 hopen
    · have hbefore := h.untouched o ho (fun hc => hopen ((hother hno).completed.mpr hc))
      unfold Untouched at *
      rw [hsame.outTradeNo, ha.applications _ hno, ha.credits _ hno]
      exact hbefore
  · intro n hn
    have hne : n ≠ no := by
      rintro rfl
      exact hn (f o₀) (hf ▸ List.mem_map_of_mem ho₀) ((hrows o₀ ho₀).1.outTradeNo.trans hno₀)
    unfold Untouched
    rw [ha.applications _ hne, ha.credits _ hne]
    apply h.unknown
    intro o ho hono
    exact hn (f o) (hf ▸ List.mem_map_of_mem ho) ((hrows o ho).1.outTradeNo.trans hono)
  · intro s' hs' n hn
    rcases ha.owed s' hs' n hn with ⟨s, hs, hid, hsn⟩ | ⟨rfl, o, ho, hrest⟩
    · obtain ⟨o, ho, hono, hcompleted, hsub, hplan⟩ := h.owed s hs n hsn
      -- the order that is applied now was not completed, so this is another one
      have hne : o.outTradeNo ≠ no := by
        intro heq
        obtain rfl := Rows.eq_of_key h.orders ho ho₀ (heq.trans hno₀.symm)
        exact hopen₀ hcompleted
      obtain ⟨hsame, hother, -⟩ := hrows o ho
      have hok := hother hne
      refine ⟨f o, hf ▸ List.mem_map_of_mem ho, hsame.outTradeNo.trans hono, hok.completed.mpr hcompleted, ?_, ?_⟩
      · rw [hok.subscription hcompleted, hsub, hid]
      · rw [hsame.planId]
        exact hplan
    · exact ⟨o, ho, hrest⟩

theorem OrdersInv.create {input : CreateOrderInput} (h : OrdersInv db)
    (hr : createPaymentOrder db input now = .ok db') :
    OrdersInv db' ∧ ∃ o, db'.paymentOrders = db.paymentOrders ++ [o] ∧ o.status = .pending := by
  have hstock : ∀ {db₁ db₂ : Db} {reserved : Bool}, reserveOrderStock db₁ input = .ok (reserved, db₂) →
      Keeps none_revived db₁ db₂ ∧ db₂.paymentOrders = db₁.paymentOrders := by
    intro db₁ db₂ reserved hr
    unfold reserveOrderStock at hr
    split at hr
    · obtain ⟨-, rfl⟩ := Prod.mk.inj (Except.ok.inj hr)
      exact ⟨.of_eq rfl rfl rfl rfl, rfl⟩
    · split at hr
      · cases hr
      · split at hr
        · obtain ⟨-, rfl⟩ := Prod.mk.inj (Except.ok.inj hr)
          exact ⟨.of_eq rfl rfl rfl rfl, rfl⟩
        · unfold reservePlanStock at hr
          split at hr
          · obtain ⟨-, rfl⟩ := Prod.mk.inj (Except.ok.inj hr)
            exact ⟨.of_eq rfl rfl rfl rfl, rfl⟩
          · cases hr
  have hcode : ∀ {db₁ : Db}, consumeOptionalDiscount db input.discountCodeId now = .ok db₁ →
      db₁.paymentOrders = db.paymentOrders := by
    intro db₁ hr
    unfold consumeOptionalDiscount at hr
    split at hr
    · unfold consumeDiscountCode at hr
      split at hr
      · obtain rfl := Except.ok.inj hr
        rfl
      · cases hr
    · obtain rfl := Except.ok.inj hr
      rfl
  unfold createPaymentOrder at hr
  split at hr
  · cases hr
  · rename_i db₁ hdiscount
    split at hr
    · cases hr
    · rename_i reserved db₂ hreserve
      split at hr
      · cases hr
      · rename_i hunique
        obtain rfl := Except.ok.inj hr
        have horders : db₂.paymentOrders = db.paymentOrders := (hstock hreserve).2.trans (hcode hdiscount)
        have h₂ := (h.keeps (consumeOptionalDiscount_keeps hdiscount)).keeps (hstock hreserve).1
        rw [Option.not_isSome_iff_eq_none] at hunique
        have hfresh : ∀ o ∈ db₂.paymentOrders, o.outTradeNo ≠ input.outTradeNo := Rows.find_eq_none.mp hunique
        have huntouched := h₂.unknown _ hfresh
        refine ⟨⟨?_, ?_, ?_, ?_, ?_, ?_⟩, _, by rw [horders], rfl⟩
        · rw [List.map_append, List.map_singleton]
          refine List.nodup_append.mpr ⟨h₂.orders, List.nodup_singleton _, ?_⟩
          rintro no hno _ hnew rfl
          obtain ⟨o, ho, rfl⟩ := List.mem_map.mp hno
          exact hfresh o ho (List.mem_singleton.mp hnew)
        · intro o ho
          rcases List.mem_append.mp ho with ho | ho
          · exact h₂.types o ho
          · obtain rfl := List.mem_singleton.mp ho
            unfold CreateOrderInput.toOrder
            dsimp only
            cases input.planId with
            | none => cases input.isTest <;> decide
            | some planId => exact ⟨fun _ => rfl, fun _ => rfl⟩
        · intro o ho hcompleted
          rcases List.mem_append.mp ho with ho | ho
          · exact h₂.fulfilled o ho hcompleted
          · obtain rfl := List.mem_singleton.mp ho
            cases hcompleted
        · intro o ho hopen
          rcases List.mem_append.mp ho with ho | ho
          · exact h₂.untouched o ho hopen
          · obtain rfl := List.mem_singleton.mp ho
            exact huntouched
        · intro no hno
          exact h₂.unknown no (fun o ho => hno o (List.mem_append_left _ ho))
        · intro s hs no hno
          obtain ⟨o, ho, hrest⟩ := h₂.owed s hs no hno
          exact ⟨o, List.mem_append_left _ ho, hrest⟩

/-! ## The transaction of a task -/

theorem consumeOrderDiscount_keeps {order : PaymentOrder} (h : consumeOrderDiscount db order now = .ok db') :
    Keeps none_revived db db' := by
  unfold consumeOrderDiscount at h
  split at h
  · obtain rfl := Except.ok.inj h
    exact .of_eq rfl rfl rfl rfl
  · split at h
    · obtain rfl := Except.ok.inj h
      exact .of_eq rfl rfl rfl rfl
    · cases hcode : consumeDiscountCode db ‹Nat› now with
      | error e =>
        rw [hcode] at h
        cases h
      | ok db₁ =>
        rw [hcode] at h
        obtain rfl := Except.ok.inj h
        refine (consumeDiscountCode_keeps hcode).trans ?_
        apply Keeps.touch
        exact fun o => ⟨⟨rfl, rfl, rfl, rfl, rfl, rfl⟩, rfl, rfl⟩

/-- The row of an order that is completed. -/
def completedRow (sid : Option Nat) (now : Int) (o : PaymentOrder) : PaymentOrder :=
  { o with
    subscriptionId := sid <|> o.subscriptionId
    status         := .completed
    failureReason  := none
    updatedAt      := toDriver now }

theorem completedRow_same (sid : Option Nat) (now : Int) (o : PaymentOrder) :
    SameOrder o (completedRow sid now o) :=
  ⟨rfl, rfl, rfl, rfl, rfl, rfl⟩

theorem completedRow_subscription {sid : Option Nat} (now : Int) (o : PaymentOrder) {id : Nat} (h : sid = some id) :
    (completedRow sid now o).subscriptionId = some id := by
  rw [h]
  rfl

theorem mathRound_intCast (n : Int) : mathRound n = n := by
  have hround : ⌊(n : Rat) + 1 / 2⌋ = n := by
    rw [Int.floor_eq_iff]
    constructor <;> linarith
  exact hround

section
variable {db : Db} (h : OrdersInv db) {o : PaymentOrder} (ho : o ∈ db.paymentOrders)
include h ho

/-- An order that was completed is completed again, as what it was applied as. -/
theorem OrdersInv.complete_keeps (hcompleted : o.status = .completed) {sid : Option Nat}
    (hsid : ∀ id ∈ sid, o.subscriptionId = some id) (now : Int) :
    Keeps none_revived db (completePaymentOrder db o.outTradeNo sid now) := by
  apply Keeps.set
  intro o' ho' hno
  obtain rfl := Rows.eq_of_key h.orders ho' ho hno
  refine ⟨⟨rfl, rfl, rfl, rfl, rfl, rfl⟩, ⟨fun _ => hcompleted, fun _ => rfl⟩, fun _ => ?_, fun _ => rfl,
    fun _ => .inl ?_⟩
  · cases sid with
    | none => rfl
    | some id => exact (hsid id rfl).symm
  · rw [hcompleted]
    rfl

theorem OrdersInv.complete_applies (hpaid : o.status.isPaid = true) (hopen : o.status ≠ .completed) {db₂ : Db}
    (horders : ∃ f, db₂.paymentOrders = db.paymentOrders.map f ∧
      ∀ o ∈ db.paymentOrders, OrderKept none_revived o (f o))
    (hrows : RowsStay db db₂) {sid : Option Nat}
    (howed : ∀ s' ∈ db₂.subscriptions, ∀ n ∈ s'.paymentOrderNo,
      (∃ s ∈ db.subscriptions, s.id = s'.id ∧ s.paymentOrderNo = some n) ∨
        (n = o.outTradeNo ∧ sid = some s'.id ∧ o.planId.isSome = true))
    (happ : ∀ n, n ≠ o.outTradeNo → applications db₂.log n = applications db.log n)
    (hcredits : ∀ n, n ≠ o.outTradeNo → credits db₂ n = credits db n)
    (hfulfilled : ∀ o', SameOrder o o' → (∀ id ∈ sid, o'.subscriptionId = some id) → Fulfilled db₂ o')
    (now : Int) : Applies db (completePaymentOrder db₂ o.outTradeNo sid now) o.outTradeNo := by
  obtain ⟨f, hf, hkept⟩ := horders
  have hwritten : (completePaymentOrder db₂ o.outTradeNo sid now).paymentOrders =
      Rows.set (·.outTradeNo) db₂.paymentOrders o.outTradeNo (completedRow sid now) := rfl
  refine ⟨hrows, fun s' hs' n hn => ?_, happ, hcredits, ?_, o, ho, rfl, hopen⟩
  · refine (howed s' hs' n hn).imp id ?_
    rintro ⟨rfl, hid, hplan⟩
    have hmem : f o ∈ db₂.paymentOrders := hf ▸ List.mem_map_of_mem ho
    have hsame := (hkept o ho).same
    refine ⟨rfl, completedRow sid now (f o), ?_, hsame.outTradeNo, rfl, completedRow_subscription now _ hid, ?_⟩
    · rw [hwritten]
      exact Rows.mem_set.mpr (.inl ⟨f o, hmem, hsame.outTradeNo, rfl⟩)
    · exact hsame.planId.symm ▸ hplan
  · refine ⟨fun o' => if o'.outTradeNo = o.outTradeNo then completedRow sid now (f o') else f o', ?_, ?_⟩
    · rw [hwritten, hf]
      unfold Rows.set
      rw [List.map_map]
      apply List.map_congr_left
      intro o' ho'
      rw [Function.comp_apply]
      simp only [(hkept o' ho').same.outTradeNo]
    · intro o' ho'
      have hsame := (hkept o' ho').same
      dsimp only
      split
      · rename_i hno
        obtain rfl := Rows.eq_of_key h.orders ho' ho hno
        have hafter := hsame.trans (completedRow_same sid now (f o'))
        exact ⟨hafter, fun hne => absurd rfl hne, fun _ => ⟨hpaid, rfl,
          hfulfilled _ hafter (fun _ hid => completedRow_subscription now _ hid)⟩⟩
      · rename_i hno
        exact ⟨hsame, fun _ => hkept o' ho', fun heq => absurd heq hno⟩

/-- The subscription that an order was applied to is that of the completed order. -/
theorem OrdersInv.existing_completed {existing : UserSubscription}
    (hexisting : existingSubscription db o = some existing) :
    o.status = .completed ∧ o.subscriptionId = some existing.id := by
  unfold existingSubscription at hexisting
  split at hexisting
  · rename_i id hstatus hid
    rw [hid]
    exact ⟨hstatus, congrArg some (Rows.key_of_find hexisting).symm⟩
  · have hno : existing.paymentOrderNo = some o.outTradeNo := Rows.key_of_find hexisting
    obtain ⟨o', ho', hono, hcompleted, hsub, -⟩ := h.owed existing (Rows.mem_of_find hexisting) _ hno
    obtain rfl := Rows.eq_of_key h.orders ho' ho hono
    exact ⟨hcompleted, hsub⟩

/-- A completed order with a plan has the subscription that it was applied to. -/
theorem OrdersInv.completed_existing (hcompleted : o.status = .completed) (hplan : o.planId.isSome = true) :
    existingSubscription db o ≠ none := by
  have hfulfilled := h.fulfilled o ho hcompleted
  unfold Fulfilled at hfulfilled
  rw [(h.types o ho).mpr hplan] at hfulfilled
  obtain ⟨s, hs, hsub, -⟩ := hfulfilled
  unfold existingSubscription
  rw [hcompleted, hsub]
  intro hnone
  exact Rows.find_eq_none.mp hnone s hs rfl

variable {order : PaymentOrder} {db' : Db} {now : Int}

theorem OrdersInv.finalizePlan_effect (hpaid : o.status.isPaid = true) (hsame : SameOrder order o) {planId limit : Nat}
    (hplan : order.planId = some planId) (hr : finalizePlanOrder db order planId limit now = .ok db') :
    ∃ db₁, Keeps none_revived db db₁ ∧ (Keeps none_revived db₁ db' ∨ Applies db₁ db' order.outTradeNo) := by
  have hplan' : o.planId = some planId := hsame.planId.trans hplan
  -- the order after the discount
  have hconsumed : ∀ {db₁ : Db}, consumeOrderDiscount db order now = .ok db₁ →
      Keeps none_revived db db₁ ∧ ∃ o₁ ∈ db₁.paymentOrders, OrderKept none_revived o o₁ := by
    intro db₁ hr
    have hk := consumeOrderDiscount_keeps hr
    obtain ⟨f, hf, hkept⟩ := hk.orders
    exact ⟨hk, f o, hf ▸ List.mem_map_of_mem ho, hkept o ho⟩
  unfold finalizePlanOrder at hr
  split at hr
  · rename_i existing hfind
    obtain ⟨o', ho', hono, hcompleted, hsub, -⟩ :=
      h.owed existing (Rows.mem_of_find hfind) _ (Rows.key_of_find hfind)
    obtain rfl := Rows.eq_of_key h.orders ho' ho (hono.trans hsame.outTradeNo.symm)
    cases hdiscount : consumeOrderDiscount db order now with
    | error e =>
      rw [hdiscount] at hr
      cases hr
    | ok db₁ =>
      rw [hdiscount] at hr
      obtain rfl := Except.ok.inj hr
      obtain ⟨hk, o₁, ho₁, hok⟩ := hconsumed hdiscount
      have hno₁ : order.outTradeNo = o₁.outTradeNo := (hok.same.outTradeNo.trans hsame.outTradeNo).symm
      refine ⟨db₁, hk, .inl ?_⟩
      rw [hno₁]
      apply (h.keeps hk).complete_keeps ho₁ (hok.completed.mpr hcompleted)
      intro id hid
      rw [hok.subscription hcompleted, hsub, Option.mem_def.mp hid]
  · split at hr
    · cases hr
    · rename_i db₁ hdiscount
      obtain ⟨hk, o₁, ho₁, hok⟩ := hconsumed hdiscount
      have h₁ := h.keeps hk
      have hno₁ : order.outTradeNo = o₁.outTradeNo := (hok.same.outTradeNo.trans hsame.outTradeNo).symm
      refine ⟨db₁, hk, ?_⟩
      cases happly : applySubscriptionToUser db₁ (order.applyInput planId limit) now with
      | error e =>
        rw [happly] at hr
        cases hr
      | ok r =>
        rw [happly] at hr
        obtain rfl := Except.ok.inj hr
        -- the order that the call reads again is the one of the table
        have hcheck : ∀ {no : String} {o' : PaymentOrder}, (order.applyInput planId limit).paidWith = some no →
            checkPaymentOrder db₁ (order.applyInput planId limit) no = .ok o' → o' = o₁ := by
          intro no o' hno hcheck
          obtain rfl : order.outTradeNo = no := Option.some.inj hno
          have hfind := (checkPaymentOrder_spec hcheck).1
          exact Rows.eq_of_key h₁.orders (Rows.mem_of_find hfind) ho₁ ((Rows.key_of_find hfind).trans hno₁)
        rcases apply_application happly with ⟨heq, no, o', existing, hno, ho', hexisting, hsid⟩ | ⟨happ, hfresh⟩
        · obtain rfl := hcheck hno ho'
          obtain ⟨hcompleted, hsub⟩ := h₁.existing_completed ho₁ hexisting
          dsimp only
          rw [heq, hno₁]
          refine .inl (h₁.complete_keeps ho₁ hcompleted ?_ now)
          intro id hid
          rw [hsub, ← hsid, Option.mem_def.mp hid]
        · obtain ⟨o', ho', hnone⟩ := hfresh order.outTradeNo rfl
          obtain rfl := hcheck rfl ho'
          have hplan₁ : o'.planId = some planId := hok.same.planId.trans hplan'
          have hopen : o'.status ≠ .completed := fun hc =>
            h₁.completed_existing ho₁ hc (by rw [hplan₁]; rfl) hnone
          obtain ⟨huntouched, hcredits⟩ := h₁.untouched o' ho₁ hopen
          refine .inr ?_
          rw [hno₁]
          apply h₁.complete_applies ho₁ (hok.paid hpaid) hopen happ.orders happ.stay
          · intro s' hs' n hn
            refine (happ.owed s' hs' n hn).imp id ?_
            rintro ⟨hid, hno⟩
            exact ⟨(Option.some.inj hno).symm.trans hno₁, congrArg some hid.symm, by rw [hplan₁]; rfl⟩
          · intro n hn
            have hne : ¬ (order.applyInput planId limit).paidWith = some n :=
              fun heq => hn ((Option.some.inj heq).symm.trans hno₁)
            rcases happ.log with hlog | hlog
            · rw [hlog, applications_concat]
              exact (congrArg _ (if_neg hne)).trans (List.append_nil _)
            · rw [hlog, applications_concat]
              exact (congrArg _ (if_neg hne)).trans (List.append_nil _)
          · intro n _
            unfold credits
            rw [happ.accounts]
          · intro o'' hsame'' hsub''
            have htype : o''.orderType = .plan := by
              rw [hsame''.orderType, h₁.types o' ho₁, hplan₁]
              rfl
            obtain ⟨s, hs, hid, huser, hplanId⟩ := happ.target
            unfold Fulfilled
            rw [htype]
            refine ⟨s, hs, hid ▸ hsub'' _ rfl, ?_, ?_, ?_, ?_⟩
            · rw [huser, hsame''.userId, hok.same.userId, hsame.userId]
              rfl
            · rw [hsame''.planId, hplan₁, hplanId]
              rfl
            · unfold credits at hcredits ⊢
              rw [hsame''.outTradeNo, happ.accounts]
              exact hcredits
            · rw [hsame''.outTradeNo, ← hno₁, hid]
              rw [← hno₁] at huntouched
              rcases happ.log with hlog | hlog
              · left
                rw [hlog, applications_concat, huntouched]
                exact if_pos rfl
              · right
                rw [hlog, applications_concat, huntouched]
                exact if_pos rfl

theorem OrdersInv.finalizeBalance_effect (hpaid : o.status.isPaid = true) (hsame : SameOrder order o)
    (htype : order.orderType = .balance) (hr : finalizeBalanceOrder db order now = .ok db') :
    Keeps none_revived db db' ∨ Applies db db' order.outTradeNo := by
  have hno : order.outTradeNo = o.outTradeNo := hsame.outTradeNo.symm
  have htype' : o.orderType = .balance := hsame.orderType.trans htype
  unfold finalizeBalanceOrder at hr
  rw [hno] at hr ⊢
  split at hr
  · rename_i t hfind
    obtain rfl := Except.ok.inj hr
    -- a transaction of the order says that it was completed
    have hcredited : credits db o.outTradeNo ≠ [] := by
      intro hnil
      refine List.not_mem_nil (a := (t.userId, t.amountCents)) (hnil ▸ List.mem_map.mpr ⟨t, ?_, rfl⟩)
      exact List.mem_filter.mpr ⟨Rows.mem_of_find hfind, decide_eq_true (Rows.key_of_find hfind)⟩
    have hcompleted : o.status = .completed := by
      by_contra hopen
      exact hcredited (h.untouched o ho hopen).2
    exact .inl (h.complete_keeps ho hcompleted (by simp) now)
  · rename_i hfind
    cases hadd : addUserBalance db.accounts order.userId order.amountCents (rechargeMeta o.outTradeNo)
        (toDriver now) with
    | error e =>
      rw [hadd] at hr
      cases hr
    | ok accounts =>
      rw [hadd] at hr
      obtain rfl := Except.ok.inj hr
      obtain ⟨balance, htransactions⟩ := addUserBalance_transactions hadd
      have hopen : o.status ≠ .completed := by
        intro hcompleted
        have hfulfilled := h.fulfilled o ho hcompleted
        unfold Fulfilled at hfulfilled
        rw [htype'] at hfulfilled
        have hmem : (o.userId, o.amountCents) ∈ credits db o.outTradeNo := by
          rw [hfulfilled.2]
          exact List.mem_singleton_self _
        obtain ⟨t, ht, -⟩ := List.mem_map.mp hmem
        obtain ⟨ht, htno⟩ := List.mem_filter.mp ht
        exact Rows.find_eq_none.mp hfind t ht (of_decide_eq_true htno)
      obtain ⟨huntouched, hcredits⟩ := h.untouched o ho hopen
      have hcredits' : ∀ n, (accounts.transactions.filter (fun t => t.paymentOrderNo = some n)).map
          (fun t => (t.userId, t.amountCents)) =
          credits db n ++ (if o.outTradeNo = n then [(order.userId, order.amountCents)] else []) := by
        intro n
        unfold credits
        rw [htransactions, List.filter_append, List.map_append, List.filter_singleton]
        congr 1
        by_cases hn : o.outTradeNo = n
        · subst hn
          simp [transactionRow, rechargeMeta, mathRound_intCast]
        · simp [transactionRow, rechargeMeta, hn]
      refine .inr (h.complete_applies ho hpaid hopen ?_ ?_ ?_ ?_ ?_ ?_ now)
      · exact ⟨id, (List.map_id _).symm, fun o _ => .refl _ o⟩
      · exact fun s hs => ⟨s, hs, rfl, rfl, rfl⟩
      · exact fun s hs n hn => .inl ⟨s, hs, rfl, hn⟩
      · intro n hn
        refine (applications_concat _ _ _).trans ?_
        exact (congrArg _ (if_neg fun heq => hn (Option.some.inj heq).symm)).trans (List.append_nil _)
      · intro n hn
        refine (hcredits' n).trans ?_
        rw [if_neg (Ne.symm hn), List.append_nil]
      · intro o' hsame' _
        unfold Fulfilled
        rw [hsame'.orderType, htype', hsame'.outTradeNo, hsame'.userId, hsame'.amountCents, hsame.userId,
          hsame.amountCents]
        refine ⟨?_, ?_⟩
        · refine (applications_concat _ _ _).trans ?_
          rw [huntouched]
          exact if_pos rfl
        · refine (hcredits' _).trans ?_
          rw [hcredits, if_pos rfl]
          rfl

theorem OrdersInv.finalizeTest_effect (hpaid : o.status.isPaid = true) (htype : o.orderType = .test) (now : Int) :
    Keeps none_revived db (completePaymentOrder db o.outTradeNo none now) ∨
      Applies db (completePaymentOrder db o.outTradeNo none now) o.outTradeNo := by
  by_cases hcompleted : o.status = .completed
  · exact .inl (h.complete_keeps ho hcompleted (by simp) now)
  · refine .inr (h.complete_applies ho hpaid hcompleted ?_ ?_ ?_ (fun _ _ => rfl) (fun _ _ => rfl) ?_ now)
    · exact ⟨id, (List.map_id _).symm, fun o _ => .refl _ o⟩
    · exact fun s hs => ⟨s, hs, rfl, rfl, rfl⟩
    · exact fun s hs n hn => .inl ⟨s, hs, rfl, hn⟩
    · intro o' hsame' _
      unfold Fulfilled
      rw [hsame'.orderType, htype, hsame'.outTradeNo]
      exact h.untouched o ho hcompleted

/-- The transaction of a task whose copy of the order may be out of date. -/
theorem OrdersInv.finalize_effect (hpaid : o.status.isPaid = true) (hsame : SameOrder order o) {limit : Nat}
    (hr : finalizeTransaction db order limit now = .ok db') :
    ∃ db₁, Keeps none_revived db db₁ ∧ (Keeps none_revived db₁ db' ∨ Applies db₁ db' order.outTradeNo) := by
  have hrefl : Keeps none_revived db db := .of_eq rfl rfl rfl rfl
  unfold finalizeTransaction at hr
  split at hr
  · rename_i planId hplan
    exact h.finalizePlan_effect ho hpaid hsame hplan hr
  · split at hr
    · cases hr
    · rename_i htype
      exact ⟨db, hrefl, h.finalizeBalance_effect ho hpaid hsame htype hr⟩
    · rename_i htype
      obtain rfl := Except.ok.inj hr
      rw [← hsame.outTradeNo]
      exact ⟨db, hrefl, h.finalizeTest_effect ho hpaid (hsame.orderType.trans htype) now⟩

end

end ForwardX.Panel
