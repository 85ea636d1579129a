import ForwardX.Panel.OrderFulfilment

/- Runs of the payment functions keep the orders. A task knows of its order no more than that
   it was paid when it was read; an order that was paid stays so, and that is all the
   transaction of the task needs (`OrdersInv.finalize_effect`). -/
namespace ForwardX.Panel
open Transition

/-! ## Paid orders stay paid -/

def OrdersStay (db db' : Db) : Prop :=
  ∀ o ∈ db.paymentOrders, ∃ o' ∈ db'.paymentOrders, SameOrder o o' ∧
    (o.status.isPaid = true → o'.status.isPaid = true)

def NonePaid (db db' : Db) : Prop :=
  ∀ o' ∈ db'.paymentOrders, o'.status.isPaid = true →
    ∃ o ∈ db.paymentOrders, SameOrder o o' ∧ o.status.isPaid = true

/-- A step of the orders in which no order becomes paid. -/
structure Steady (db db' : Db) : Prop where
  inv : OrdersInv db → OrdersInv db'
  stay : OrdersStay db db'
  none : NonePaid db db'

theorem OrdersStay.trans {db₁ db₂ db₃ : Db} (h₁ : OrdersStay db₁ db₂) (h₂ : OrdersStay db₂ db₃) :
    OrdersStay db₁ db₃ := by
  intro o ho
  obtain ⟨o', ho', hsame, hpaid⟩ := h₁ o ho
  obtain ⟨o'', ho'', hsame', hpaid'⟩ := h₂ o' ho'
  exact ⟨o'', ho'', hsame.trans hsame', fun hp => hpaid' (hpaid hp)⟩

theorem Steady.trans {db₁ db₂ db₃ : Db} (h₁ : Steady db₁ db₂) (h₂ : Steady db₂ db₃) : Steady db₁ db₃ := by
  refine ⟨fun h => h₂.inv (h₁.inv h), h₁.stay.trans h₂.stay, fun o'' ho'' hp => ?_⟩
  obtain ⟨o', ho', hsame', hpaid'⟩ := h₂.none o'' ho'' hp
  obtain ⟨o, ho, hsame, hpaid⟩ := h₁.none o' ho' hpaid'
  exact ⟨o, ho, hsame.trans hsame', hpaid⟩

variable {db db' : Db}

theorem Keeps.stay {revived : PaymentOrder → Prop} (h : Keeps revived db db') : OrdersStay db db' := by
  obtain ⟨f, hf, hkept⟩ := h.orders
  intro o ho
  exact ⟨f o, hf ▸ List.mem_map_of_mem ho, (hkept o ho).same, (hkept o ho).paid⟩

theorem Keeps.paid {revived : PaymentOrder → Prop} (h : Keeps revived db db') :
    ∀ o' ∈ db'.paymentOrders, o'.status.isPaid = true →
      ∃ o ∈ db.paymentOrders, SameOrder o o' ∧ (o.status.isPaid = true ∨ revived o) := by
  obtain ⟨f, hf, hkept⟩ := h.orders
  rw [hf]
  intro o' ho' hp
  obtain ⟨o, ho, rfl⟩ := List.mem_map.mp ho'
  exact ⟨o, ho, (hkept o ho).same, (hkept o ho).revived hp⟩

theorem Keeps.steady (h : Keeps none_revived db db') : Steady db db' := by
  refine ⟨fun hinv => hinv.keeps h, h.stay, fun o' ho' hp => ?_⟩
  obtain ⟨o, ho, hsame, hpaid⟩ := h.paid o' ho' hp
  exact ⟨o, ho, hsame, hpaid.resolve_right id⟩

theorem Applies.steady {no : String} (h : Applies db db' no) : Steady db db' := by
  obtain ⟨f, hf, hrows⟩ := h.orders
  refine ⟨fun hinv => hinv.applies h, fun o ho => ?_, fun o' ho' hp => ?_⟩
  · obtain ⟨hsame, hother, hmine⟩ := hrows o ho
    refine ⟨f o, hf ▸ List.mem_map_of_mem ho, hsame, fun hp => ?_⟩
    by_cases hno : o.outTradeNo = no
    · rw [(hmine hno).2.1]
      rfl
    · exact (hother hno).paid hp
  · rw [hf] at ho'
    obtain ⟨o, ho, rfl⟩ := List.mem_map.mp ho'
    obtain ⟨hsame, hother, hmine⟩ := hrows o ho
    refine ⟨o, ho, hsame, ?_⟩
    by_cases hno : o.outTradeNo = no
    · exact (hmine hno).1
    · exact ((hother hno).revived hp).resolve_right id

theorem Steady.refl (db : Db) : Steady db db := Keeps.steady (.of_eq rfl rfl rfl rfl)

/-! ## Tasks -/

def PaidOrder (db : Db) (no : String) : Prop :=
  ∃ o ∈ db.paymentOrders, o.outTradeNo = no ∧ o.status.isPaid = true

/-- What a task relies on. -/
def TaskOk (db : Db) (t : Task) : Prop :=
  match t.stage with
  | .read _ => PaidOrder db t.outTradeNo
  | .apply order => ∃ o ∈ db.paymentOrders, SameOrder order o ∧ o.status.isPaid = true
  | _ => True

theorem TaskOk.stay {t : Task} (h : TaskOk db t) (hstay : OrdersStay db db') : TaskOk db' t := by
  unfold TaskOk at *
  split
  · rename_i hstage
    rw [hstage] at h
    obtain ⟨o, ho, hno, hp⟩ := h
    obtain ⟨o', ho', hsame, hpaid⟩ := hstay o ho
    exact ⟨o', ho', hsame.outTradeNo.trans hno, hpaid hp⟩
  · rename_i hstage
    rw [hstage] at h
    obtain ⟨o, ho, hsame, hp⟩ := h
    obtain ⟨o', ho', hsame', hpaid⟩ := hstay o ho
    exact ⟨o', ho', hsame.trans hsame', hpaid hp⟩
  · trivial

theorem TaskOk.visit {t t' : Task} {now : Int} (hinv : OrdersInv db) (h : t.visit db now = some (db', t')) :
    Steady db db' ∧ TaskOk db' t' := by
  unfold Task.visit at h
  split at h
  · cases h
  · dsimp only at h
    split at h
    · obtain ⟨rfl, rfl⟩ := Prod.mk.inj (Option.some.inj h)
      exact ⟨.refl db, trivial⟩
    · split at h
      · obtain ⟨rfl, rfl⟩ := Prod.mk.inj (Option.some.inj h)
        exact ⟨.refl db, trivial⟩
      · split at h
        · rename_i hreset
          obtain ⟨rfl, rfl⟩ := Prod.mk.inj (Option.some.inj h)
          exact ⟨(resetStaleProcessingPaymentOrder_keeps hinv.orders hreset).steady, trivial⟩
        · obtain ⟨rfl, rfl⟩ := Prod.mk.inj (Option.some.inj h)
          exact ⟨.refl db, trivial⟩

/-- A task goes on: no order becomes paid, and the task may rely on what it read. -/
theorem TaskOk.run {t t' : Task} {limit : Nat} {now : Int} (hinv : OrdersInv db) (hok : TaskOk db t)
    (h : t.run db limit now = some (db', t')) : Steady db db' ∧ TaskOk db' t' := by
  unfold Task.run at h
  unfold TaskOk at hok
  split at h
  · exact TaskOk.visit hinv h
  · split at h
    · rename_i again _ hclaim
      obtain ⟨rfl, rfl⟩ := Prod.mk.inj (Option.some.inj h)
      obtain ⟨hkeeps, hpaid⟩ := claimPaidPaymentOrder_keeps hinv.orders hclaim
      exact ⟨hkeeps.steady, hpaid⟩
    · obtain ⟨rfl, rfl⟩ := Prod.mk.inj (Option.some.inj h)
      refine ⟨.refl db, ?_⟩
      split <;> trivial
  · rename_i hstage
    rw [hstage] at hok
    split at h
    · rename_i order hfind
      obtain ⟨rfl, rfl⟩ := Prod.mk.inj (Option.some.inj h)
      obtain ⟨o, ho, hno, hp⟩ := hok
      obtain rfl := found_order hinv.orders hfind ho hno
      exact ⟨.refl db, o, ho, .refl o, hp⟩
    · obtain ⟨rfl, rfl⟩ := Prod.mk.inj (Option.some.inj h)
      refine ⟨.refl db, ?_⟩
      split <;> trivial
  · split at h
    · obtain ⟨rfl, rfl⟩ := Prod.mk.inj (Option.some.inj h)
      exact ⟨.refl db, trivial⟩
    · obtain ⟨rfl, rfl⟩ := Prod.mk.inj (Option.some.inj h)
      exact ⟨.refl db, trivial⟩
  · split at h
    · rename_i hreset
      obtain ⟨rfl, rfl⟩ := Prod.mk.inj (Option.some.inj h)
      exact ⟨(resetStaleProcessingPaymentOrder_keeps hinv.orders hreset).steady, trivial⟩
    · obtain ⟨rfl, rfl⟩ := Prod.mk.inj (Option.some.inj h)
      exact ⟨.refl db, trivial⟩
  · rename_i order hstage
    rw [hstage] at hok
    obtain ⟨o, ho, hsame, hp⟩ := hok
    split at h
    · rename_i hfinal
      obtain ⟨rfl, rfl⟩ := Prod.mk.inj (Option.some.inj h)
      obtain ⟨db₁, hkeeps, hcase⟩ := hinv.finalize_effect ho hp hsame hfinal
      refine ⟨hkeeps.steady.trans ?_, trivial⟩
      rcases hcase with hkeeps' | happlies
      · exact hkeeps'.steady
      · exact happlies.steady
    · obtain ⟨rfl, rfl⟩ := Prod.mk.inj (Option.some.inj h)
      exact ⟨.refl db, trivial⟩
  · obtain ⟨rfl, rfl⟩ := Prod.mk.inj (Option.some.inj h)
    exact ⟨(recordPaymentOrderFailure_keeps _ _ _ _ _).steady, trivial⟩

theorem TaskOk.abort (db : Db) (t : Task) : TaskOk db t.abort := by
  unfold Task.abort
  split <;> trivial

/-! ## Steps -/

def Verified (verified : List (PaymentOrder × PaidNotification)) (o : PaymentOrder) : Prop :=
  ∃ p ∈ verified, SameOrder p.1 o ∧ assertPaidNotificationMatchesOrder p.1 p.2 = .ok ()

structure PaymentInv (b : PaymentState) : Prop where
  orders : OrdersInv b.db
  tasks : ∀ t ∈ b.tasks, TaskOk b.db t
  verified : ∀ o ∈ b.db.paymentOrders, o.status.isPaid = true → Verified b.verified o

theorem PaymentInv.steady {b b' : PaymentState} (h : PaymentInv b) (hs : Steady b.db b'.db)
    (hverified : b'.verified = b.verified)
    (htasks : ∀ t ∈ b'.tasks, t ∈ b.tasks ∨ TaskOk b'.db t) : PaymentInv b' := by
  refine ⟨hs.inv h.orders, fun t ht => ?_, fun o' ho' hp => ?_⟩
  · rcases htasks t ht with hold | hnew
    · exact (h.tasks t hold).stay hs.stay
    · exact hnew
  · obtain ⟨o, ho, hsame, hpaid⟩ := hs.none o' ho' hp
    obtain ⟨p, hmem, hsame', hmatch⟩ := h.verified o ho hpaid
    rw [hverified]
    exact ⟨p, hmem, hsame'.trans hsame, hmatch⟩

theorem mem_concat {α : Type} {l : List α} {a t : α} {P : α → Prop} (ha : P a) (h : t ∈ l ++ [a]) :
    t ∈ l ∨ P t := by
  rcases List.mem_append.mp h with h | h
  · exact .inl h
  · obtain rfl := List.mem_singleton.mp h
    exact .inr ha

theorem OrdersStay.append {o : PaymentOrder} (h : db'.paymentOrders = db.paymentOrders ++ [o]) : OrdersStay db db' := by
  intro o' ho'
  exact ⟨o', h ▸ List.mem_append_left _ ho', .refl o', id⟩

/-- What one step keeps: what is known of the orders, and that paid orders stay paid. -/
theorem PaymentInv.step {b b' : PaymentState} {a : PaymentAct} (h : PaymentInv b) (hstep : b.step a = some b') :
    PaymentInv b' ∧ OrdersStay b.db b'.db := by
  have hkeeps : ∀ {b' : PaymentState}, Keeps none_revived b.db b'.db → b'.verified = b.verified →
      b'.tasks = b.tasks → PaymentInv b' ∧ OrdersStay b.db b'.db := by
    intro b' hk hverified htasks
    exact ⟨h.steady hk.steady hverified (fun t ht => .inl (htasks ▸ ht)), hk.stay⟩
  have hspawn : ∀ t, TaskOk b.db t → PaymentInv { b with tasks := b.tasks ++ [t] } ∧ OrdersStay b.db b.db := by
    intro t ht
    exact ⟨h.steady (.refl b.db) rfl (fun _ => mem_concat ht), (Steady.refl b.db).stay⟩
  cases a with
  | tick elapsed =>
    obtain rfl := Option.some.inj hstep
    exact hkeeps (.of_eq rfl rfl rfl rfl) rfl rfl
  | edit users plans discountCodes resources =>
    unfold PaymentState.step at hstep
    dsimp only at hstep
    split at hstep
    · obtain rfl := Option.some.inj hstep
      exact hkeeps (.of_eq rfl rfl rfl rfl) rfl rfl
    · cases hstep
  | create input =>
    obtain ⟨db', hr, rfl⟩ := Option.map_eq_some_iff.mp hstep
    obtain ⟨hinv, o, horders, hpending⟩ := h.orders.create (toOption_eq_some hr)
    have hstay : OrdersStay b.db db' := .append horders
    refine ⟨⟨hinv, fun t ht => (h.tasks t ht).stay hstay, fun o' ho' hp => ?_⟩, hstay⟩
    dsimp only at ho'
    rw [horders] at ho'
    rcases List.mem_append.mp ho' with ho' | ho'
    · exact h.verified o' ho' hp
    · obtain rfl := List.mem_singleton.mp ho'
      rw [hpending] at hp
      cases hp
  | checkout no tradeNo =>
    obtain rfl := Option.some.inj hstep
    exact hkeeps (setPaymentOrderCheckout_keeps _ _ _ _) rfl rfl
  | notify no n =>
    unfold PaymentState.step at hstep
    dsimp only at hstep
    split at hstep
    · rename_i db' haccept
      obtain rfl := Option.some.inj hstep
      obtain ⟨order, hfind, hmatch, hk, -⟩ := acceptPaidNotification_keeps h.orders.orders haccept
      refine ⟨⟨h.orders.keeps hk, fun t ht => ?_, fun o' ho' hp => ?_⟩, hk.stay⟩
      · rcases mem_concat (P := TaskOk db') (by trivial) ht with hold | hnew
        · exact (h.tasks t hold).stay hk.stay
        · exact hnew
      · -- an order that was not paid before is the one that the notification matched
        obtain ⟨o, ho, hsame, hpaid | rfl⟩ := hk.paid o' ho' hp
        · obtain ⟨p, hmem, hsame', hok⟩ := h.verified o ho hpaid
          exact ⟨p, List.mem_append_left _ hmem, hsame'.trans hsame, hok⟩
        · refine ⟨(o, n), List.mem_append_right _ ?_, hsame, hmatch⟩
          rw [hfind]
          exact List.mem_singleton_self _
    · obtain rfl := Option.some.inj hstep
      exact hspawn _ trivial
  | close no status rawNotify =>
    obtain rfl := Option.some.inj hstep
    exact hkeeps (closePaymentOrderAndReleaseDiscount_keeps h.orders.orders _ _ _ _) rfl rfl
  | delete no =>
    obtain ⟨db', hr, rfl⟩ := Option.map_eq_some_iff.mp hstep
    exact hkeeps (deletePaymentOrder_keeps h.orders.orders (toOption_eq_some hr)) rfl rfl
  | note no failureReason statuses =>
    obtain rfl := Option.some.inj hstep
    exact hkeeps (recordPaymentOrderFailure_keeps _ _ _ _ _) rfl rfl
  | finalize no =>
    obtain rfl := Option.some.inj hstep
    exact hspawn _ trivial
  | recover rows =>
    unfold PaymentState.step at hstep
    dsimp only at hstep
    split at hstep
    · obtain rfl := Option.some.inj hstep
      exact hspawn _ trivial
    · cases hstep
  | run i limit =>
    obtain ⟨t, ht, hr⟩ := Option.bind_eq_some_iff.mp hstep
    obtain ⟨⟨db', t'⟩, hrun, rfl⟩ := Option.map_eq_some_iff.mp hr
    obtain ⟨hsteady, hok⟩ := TaskOk.run h.orders (h.tasks t (List.mem_of_getElem? ht)) hrun
    refine ⟨h.steady hsteady rfl (fun t'' ht'' => ?_), hsteady.stay⟩
    rcases List.mem_or_eq_of_mem_set ht'' with hold | rfl
    · exact .inl hold
    · exact .inr hok
  | abort i =>
    obtain ⟨t, ht, rfl⟩ := Option.map_eq_some_iff.mp hstep
    refine ⟨h.steady (.refl b.db) rfl (fun t'' ht'' => ?_), (Steady.refl b.db).stay⟩
    rcases List.mem_or_eq_of_mem_set ht'' with hold | rfl
    · exact .inl hold
    · exact .inr (TaskOk.abort _ t)
  | assign input =>
    unfold PaymentState.step at hstep
    dsimp only at hstep
    split at hstep
    · cases hstep
    · rename_i hother
      obtain ⟨⟨r, db'⟩, hr, rfl⟩ := Option.map_eq_some_iff.mp hstep
      rw [not_or, not_not] at hother
      refine hkeeps (apply_keeps ?_ hother.2 (toOption_eq_some hr)) rfl rfl
      unfold ApplyInput.paidWith
      rw [if_neg hother.1]
  | purchase input discountCodeId amountCents description =>
    obtain ⟨db', hr, rfl⟩ := Option.map_eq_some_iff.mp hstep
    exact hkeeps (purchasePlanWithBalance_keeps (toOption_eq_some hr)) rfl rfl

theorem PaymentState.Start.inv {b : PaymentState} (h : b.Start) : PaymentInv b := by
  have huntouched : ∀ no, Untouched b.db no := by
    intro no
    unfold Untouched applications credits
    rw [h.log]
    refine ⟨rfl, ?_⟩
    rw [List.map_eq_nil_iff, List.filter_eq_nil_iff]
    intro t ht
    rw [h.transactions t ht]
    simp
  refine ⟨⟨?_, ?_, ?_, ?_, fun no _ => huntouched no, fun s hs no hno => ?_⟩, ?_, ?_⟩
  · rw [h.paymentOrders]
    exact List.nodup_nil
  · rw [h.paymentOrders]
    exact List.forall_mem_nil _
  · rw [h.paymentOrders]
    exact List.forall_mem_nil _
  · rw [h.paymentOrders]
    exact List.forall_mem_nil _
  · rw [h.subscriptions s hs] at hno
    cases hno
  · rw [h.tasks]
    exact List.forall_mem_nil _
  · rw [h.paymentOrders]
    exact List.forall_mem_nil _

/-! ## Runs -/

theorem Fulfilled.once {o : PaymentOrder} (h : Fulfilled db o) :
    (applications db.log o.outTradeNo).length ≤ 1 ∧ (credits db o.outTradeNo).length ≤ 1 := by
  unfold Fulfilled at h
  split at h
  · obtain ⟨s, -, -, -, -, hcredits, happ | happ⟩ := h
    · rw [hcredits, happ]
      exact ⟨le_rfl, Nat.zero_le 1⟩
    · rw [hcredits, happ]
      exact ⟨le_rfl, Nat.zero_le 1⟩
  · rw [h.1, h.2]
    exact ⟨le_rfl, le_rfl⟩
  · rw [h.1, h.2]
    exact ⟨Nat.zero_le 1, Nat.zero_le 1⟩

/-- A user, a plan and a discount code, before the first order. -/
def shop : PaymentState :=
  { db := { twoUsers.db with
      plans         := [⟨1, true, 30, 3, 1000, 5, 0, [1], [], []⟩]
      discountCodes := [⟨1, true, none, none, 0, 0⟩] }
    now      := twoUsers.now
    tasks    := []
    verified := [] }

theorem shop_start : shop.Start :=
  ⟨rfl, List.forall_mem_nil _, List.forall_mem_nil _, rfl, rfl, rfl, by decide, by decide, by decide⟩

def planOrder : CreateOrderInput := ⟨"A", 1, "epay", false, 500, "CNY", some 1, none, some 1, none, none⟩

def planPaid : PaidNotification := ⟨"epay", some "T1", some 500, "CNY", "", none⟩

/-- One task claims and reads the order; it pauses, another one finds it stale and completes
it, and the first goes on. -/
def resumedTask : List PaymentAct :=
  [.create planOrder, .notify "A" planPaid, .run 0 0, .run 0 0, .tick (11 * 60 * 1000), .finalize "A",
    .run 1 0, .run 1 0, .run 1 0, .run 1 0, .run 1 0, .run 1 0, .run 0 0]

end ForwardX.Panel
