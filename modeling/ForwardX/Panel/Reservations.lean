import ForwardX.Panel.OrderRuns

/- Stock and discounts. The order says what it holds, a plan and a discount code count what is
   held of them. Every function but one takes the flags from the row that it writes; the
   transaction of a task takes `discountConsumed` from its copy. -/
namespace ForwardX.Panel
open Transition

/-! ## What is held -/

def PaymentOrder.holdsCode (o : PaymentOrder) (id : Nat) : Bool := o.discountCodeId = some id && o.discountConsumed

def PaymentOrder.holdsStock (o : PaymentOrder) (id : Nat) : Bool := o.planId = some id && o.stockReserved

/-- The orders of a code with `discountConsumed`, and the orders of a plan with `stockReserved`. -/
def consumedBy (db : Db) (id : Nat) : Nat := db.paymentOrders.countP (·.holdsCode id)
def reservedBy (db : Db) (id : Nat) : Nat := db.paymentOrders.countP (·.holdsStock id)

def uses (codes : List DiscountCode) (id : Nat) : Int := (Rows.find (·.id) codes id).elim 0 (·.usedCount)
def stock (plans : List SubscriptionPlan) (id : Nat) : Int := (Rows.find (·.id) plans id).elim 0 (·.stockUsed)

def codeSlack (db : Db) (id : Nat) : Int := uses db.discountCodes id - consumedBy db id
def planSlack (db : Db) (id : Nat) : Int := stock db.plans id - reservedBy db id

/-! ## Counters and their limits -/

structure UsesKept (c c' : DiscountCode) : Prop where
  id : c'.id = c.id
  maxUses : c'.maxUses = c.maxUses
  within : c.usedCount < c'.usedCount → c'.maxUses ≤ 0 ∨ c'.usedCount ≤ c'.maxUses

structure StockKept (p p' : SubscriptionPlan) : Prop where
  id : p'.id = p.id
  stockLimit : p'.stockLimit = p.stockLimit
  within : p.stockUsed < p'.stockUsed → p'.stockLimit = 0 ∨ p'.stockUsed ≤ p'.stockLimit

theorem UsesKept.refl (c : DiscountCode) : UsesKept c c := ⟨rfl, rfl, fun h => absurd h (lt_irrefl _)⟩

theorem StockKept.refl (p : SubscriptionPlan) : StockKept p p := ⟨rfl, rfl, fun h => absurd h (lt_irrefl _)⟩

theorem UsesKept.trans {c₁ c₂ c₃ : DiscountCode} (h₁ : UsesKept c₁ c₂) (h₂ : UsesKept c₂ c₃) : UsesKept c₁ c₃ := by
  refine ⟨h₂.id.trans h₁.id, h₂.maxUses.trans h₁.maxUses, fun hlt => ?_⟩
  by_cases hup : c₂.usedCount < c₃.usedCount
  · exact h₂.within hup
  · have hwithin := h₁.within (by omega)
    have hlimit := h₂.maxUses
    omega

theorem StockKept.trans {p₁ p₂ p₃ : SubscriptionPlan} (h₁ : StockKept p₁ p₂) (h₂ : StockKept p₂ p₃) :
    StockKept p₁ p₃ := by
  refine ⟨h₂.id.trans h₁.id, h₂.stockLimit.trans h₁.stockLimit, fun hlt => ?_⟩
  by_cases hup : p₂.stockUsed < p₃.stockUsed
  · exact h₂.within hup
  · have hwithin := h₁.within (by omega)
    have hlimit := h₂.stockLimit
    omega

def RowsKept {α : Type} (kept : α → α → Prop) (l l' : List α) : Prop :=
  ∃ f, l' = l.map f ∧ ∀ r ∈ l, kept r (f r)

theorem RowsKept.refl {α : Type} {kept : α → α → Prop} (h : ∀ r, kept r r) (l : List α) : RowsKept kept l l :=
  ⟨id, (List.map_id _).symm, fun r _ => h r⟩

theorem RowsKept.trans {α : Type} {kept : α → α → Prop} (h : ∀ r₁ r₂ r₃, kept r₁ r₂ → kept r₂ r₃ → kept r₁ r₃)
    {l₁ l₂ l₃ : List α} (h₁ : RowsKept kept l₁ l₂) (h₂ : RowsKept kept l₂ l₃) : RowsKept kept l₁ l₃ := by
  obtain ⟨f, rfl, hf⟩ := h₁
  obtain ⟨g, rfl, hg⟩ := h₂
  refine ⟨g ∘ f, by rw [List.map_map], fun r hr => ?_⟩
  exact h _ _ _ (hf r hr) (hg (f r) (List.mem_map_of_mem hr))

theorem RowsKept.set {α κ : Type} [DecidableEq κ] {key : α → κ} {kept : α → α → Prop} (hrefl : ∀ r, kept r r)
    {l : List α} {k : κ} {f : α → α} (hf : ∀ r ∈ l, key r = k → kept r (f r)) :
    RowsKept kept l (Rows.set key l k f) := by
  refine ⟨_, rfl, fun r hr => ?_⟩
  split
  · exact hf r hr ‹_›
  · exact hrefl r

theorem RowsKept.keys {α κ : Type} {key : α → κ} {kept : α → α → Prop} (hkey : ∀ {r r'}, kept r r' → key r' = key r)
    {l l' : List α} (h : RowsKept kept l l') : l'.map key = l.map key := by
  obtain ⟨f, rfl, hf⟩ := h
  rw [List.map_map]
  apply List.map_congr_left
  intro r hr
  exact hkey (hf r hr)

theorem consumeDiscountCode_effect {db db' : Db} (hids : (db.discountCodes.map (·.id)).Nodup) {k : Nat} {now : Int}
    (h : consumeDiscountCode db k now = .ok db') :
    ∃ codes, db' = { db with discountCodes := codes } ∧ RowsKept UsesKept db.discountCodes codes ∧
      ∀ id, uses codes id = uses db.discountCodes id + if id = k then 1 else 0 := by
  unfold consumeDiscountCode at h
  split at h
  · rename_i husable
    obtain rfl := Except.ok.inj h
    obtain ⟨c, hc, hcond⟩ := List.any_eq_true.mp husable
    rw [Bool.and_eq_true, decide_eq_true_eq] at hcond
    refine ⟨_, rfl, RowsKept.set UsesKept.refl fun c _ _ => ?_, fun id => ?_⟩
    · split
      · rename_i hc
        refine ⟨rfl, rfl, fun _ => ?_⟩
        unfold DiscountCode.usable at hc
        rw [Bool.and_eq_true, Bool.or_eq_true, decide_eq_true_eq, decide_eq_true_eq] at hc
        exact hc.2.imp id (fun h => by dsimp only; omega)
      · exact .refl c
    · unfold uses
      rw [Rows.elim_find_set (fun r => by split <;> rfl)]
      by_cases hid : id = k
      · have hfind : Rows.find (·.id) db.discountCodes k = some c := hcond.1 ▸ Rows.find_of_mem hids hc
        rw [if_pos hid, if_pos hid, hid, hfind]
        simp [hcond.2]
      · rw [if_neg hid, if_neg hid, add_zero]
  · cases h

theorem reservePlanStock_effect {db db' : Db} (hids : (db.plans.map (·.id)).Nodup) {k : Nat}
    (h : reservePlanStock db k = .ok db') :
    ∃ plans, db' = { db with plans := plans } ∧ RowsKept StockKept db.plans plans ∧
      ∀ id, stock plans id = stock db.plans id + if id = k then 1 else 0 := by
  unfold reservePlanStock at h
  split at h
  · rename_i hstock
    obtain rfl := Except.ok.inj h
    obtain ⟨p, hp, hcond⟩ := List.any_eq_true.mp hstock
    rw [Bool.and_eq_true, decide_eq_true_eq] at hcond
    refine ⟨_, rfl, RowsKept.set StockKept.refl fun p _ _ => ?_, fun id => ?_⟩
    · split
      · rename_i hp
        refine ⟨rfl, rfl, fun _ => ?_⟩
        unfold SubscriptionPlan.inStock at hp
        rw [Bool.and_eq_true, Bool.or_eq_true, decide_eq_true_eq, decide_eq_true_eq] at hp
        exact hp.2.imp id (fun h => by dsimp only; omega)
      · exact .refl p
    · unfold stock
      rw [Rows.elim_find_set (fun r => by split <;> rfl)]
      by_cases hid : id = k
      · have hfind : Rows.find (·.id) db.plans k = some p := hcond.1 ▸ Rows.find_of_mem hids hp
        rw [if_pos hid, if_pos hid, hid, hfind]
        simp [hcond.2]
      · rw [if_neg hid, if_neg hid, add_zero]
  · cases h

variable {db : Db} {o : PaymentOrder}

theorem consumedBy_pos (ho : o ∈ db.paymentOrders) {id : Nat} (h : o.holdsCode id = true) : 0 < consumedBy db id :=
  List.countP_pos_iff.mpr ⟨o, ho, h⟩

theorem reservedBy_pos (ho : o ∈ db.paymentOrders) {id : Nat} (h : o.holdsStock id = true) : 0 < reservedBy db id :=
  List.countP_pos_iff.mpr ⟨o, ho, h⟩

theorem releaseOrderDiscount_effect (hslack : ∀ id, 0 ≤ codeSlack db id) (ho : o ∈ db.paymentOrders) :
    ∃ codes, releaseOrderDiscount db o = { db with discountCodes := codes } ∧
      RowsKept UsesKept db.discountCodes codes ∧
      ∀ id, uses codes id = uses db.discountCodes id - (o.holdsCode id).toNat := by
  have hnone : (∀ id, o.holdsCode id = false) → ∀ id, uses db.discountCodes id =
      uses db.discountCodes id - (o.holdsCode id).toNat := by
    intro h id
    rw [h id, Bool.toNat_false, Nat.cast_zero, sub_zero]
  unfold releaseOrderDiscount
  split
  · rename_i k hk
    split
    · rename_i hconsumed
      refine ⟨_, rfl, RowsKept.set UsesKept.refl fun c _ _ => ?_, fun id => ?_⟩
      · split
        · exact ⟨rfl, rfl, fun hlt => absurd hlt (by dsimp only; omega)⟩
        · exact .refl c
      · have hheld : o.holdsCode k = true := by simp [PaymentOrder.holdsCode, hk, hconsumed]
        have hpos := consumedBy_pos ho hheld
        have hcounted := hslack k
        unfold codeSlack at hcounted
        have hother : id ≠ k → o.holdsCode id = false := by
          intro hne
          simp [PaymentOrder.holdsCode, hk, Ne.symm hne]
        unfold uses at *
        rw [Rows.elim_find_set (fun r => by split <;> rfl)]
        by_cases hid : id = k
        · rw [if_pos hid, hid, hheld]
          cases hfind : Rows.find (·.id) db.discountCodes k with
          | none =>
            rw [hfind, Option.elim_none] at hcounted
            omega
          | some c =>
            rw [hfind, Option.elim_some] at hcounted
            rw [Option.elim_some, Option.elim_some, if_pos (by omega), Bool.toNat_true, Nat.cast_one]
        · rw [if_neg hid, hother hid, Bool.toNat_false, Nat.cast_zero, sub_zero]
    · rename_i hconsumed
      refine ⟨_, rfl, .refl UsesKept.refl _, hnone fun id => ?_⟩
      simp [PaymentOrder.holdsCode, hconsumed]
  · rename_i hk
    refine ⟨_, rfl, .refl UsesKept.refl _, hnone fun id => ?_⟩
    simp [PaymentOrder.holdsCode, hk]

theorem releaseOrderStock_effect (hslack : ∀ id, 0 ≤ planSlack db id) (ho : o ∈ db.paymentOrders) :
    ∃ plans, releaseOrderStock db o = { db with plans := plans } ∧ RowsKept StockKept db.plans plans ∧
      ∀ id, stock plans id = stock db.plans id - (o.holdsStock id).toNat := by
  have hnone : (∀ id, o.holdsStock id = false) → ∀ id, stock db.plans id =
      stock db.plans id - (o.holdsStock id).toNat := by
    intro h id
    rw [h id, Bool.toNat_false, Nat.cast_zero, sub_zero]
  unfold releaseOrderStock
  split
  · rename_i k hk
    split
    · rename_i hreserved
      refine ⟨_, rfl, RowsKept.set StockKept.refl fun p _ _ => ⟨rfl, rfl, fun hlt => absurd hlt ?_⟩, fun id => ?_⟩
      · dsimp only
        omega
      · have hheld : o.holdsStock k = true := by simp [PaymentOrder.holdsStock, hk, hreserved]
        have hpos := reservedBy_pos ho hheld
        have hcounted := hslack k
        unfold planSlack at hcounted
        have hother : id ≠ k → o.holdsStock id = false := by
          intro hne
          simp [PaymentOrder.holdsStock, hk, Ne.symm hne]
        unfold stock at *
        rw [Rows.elim_find_set (fun r => by rfl)]
        by_cases hid : id = k
        · rw [if_pos hid, hid, hheld]
          cases hfind : Rows.find (·.id) db.plans k with
          | none =>
            rw [hfind, Option.elim_none] at hcounted
            omega
          | some p =>
            rw [hfind, Option.elim_some] at hcounted
            rw [Option.elim_some, Option.elim_some, Bool.toNat_true, Nat.cast_one]
            dsimp only
            omega
        · rw [if_neg hid, hother hid, Bool.toNat_false, Nat.cast_zero, sub_zero]
    · rename_i hreserved
      refine ⟨_, rfl, .refl StockKept.refl _, hnone fun id => ?_⟩
      simp [PaymentOrder.holdsStock, hreserved]
  · rename_i hk
    refine ⟨_, rfl, .refl StockKept.refl _, hnone fun id => ?_⟩
    simp [PaymentOrder.holdsStock, hk]

/-! ## What a step moves -/

/-- The order of a number may take or give back what it holds; the others keep their flags. -/
structure FlagsKept (no : String) (o o' : PaymentOrder) : Prop where
  outTradeNo : o'.outTradeNo = o.outTradeNo
  flags : o.outTradeNo ≠ no → o'.discountConsumed = o.discountConsumed ∧ o'.stockReserved = o.stockReserved

/-- The columns that say what an order holds. -/
structure SameFlags (o o' : PaymentOrder) : Prop where
  outTradeNo : o'.outTradeNo = o.outTradeNo
  planId : o'.planId = o.planId
  discountCodeId : o'.discountCodeId = o.discountCodeId
  discountConsumed : o'.discountConsumed = o.discountConsumed
  stockReserved : o'.stockReserved = o.stockReserved

theorem FlagsKept.refl (no : String) (o : PaymentOrder) : FlagsKept no o o := ⟨rfl, fun _ => ⟨rfl, rfl⟩⟩

variable {now : Int} {db db' : Db} {no : String}

theorem FlagsKept.trans {o₁ o₂ o₃ : PaymentOrder} (h₁ : FlagsKept no o₁ o₂) (h₂ : FlagsKept no o₂ o₃) :
    FlagsKept no o₁ o₃ := by
  refine ⟨h₂.outTradeNo.trans h₁.outTradeNo, fun hne => ?_⟩
  obtain ⟨hconsumed, hreserved⟩ := h₁.flags hne
  obtain ⟨hconsumed', hreserved'⟩ := h₂.flags (fun heq => hne (h₁.outTradeNo.symm.trans heq))
  exact ⟨hconsumed'.trans hconsumed, hreserved'.trans hreserved⟩

/-- A step that only the order of a number takes part in. A code is used `du` times, and an item
of a plan taken `ds` times, beyond what orders hold afterwards. -/
structure Moves (no : String) (db db' : Db) (du ds : Nat → Int) : Prop where
  codes : RowsKept UsesKept db.discountCodes db'.discountCodes
  plans : RowsKept StockKept db.plans db'.plans
  orders : ∀ o ∈ db.paymentOrders, ∃ o' ∈ db'.paymentOrders, FlagsKept no o o'
  uses : ∀ id, codeSlack db' id = codeSlack db id + du id
  stock : ∀ id, planSlack db' id = planSlack db id + ds id

def nothing (_ : Nat) : Int := 0

theorem Moves.trans {db₁ db₂ db₃ : Db} {du du' ds ds' : Nat → Int} (h₁ : Moves no db₁ db₂ du ds)
    (h₂ : Moves no db₂ db₃ du' ds') : Moves no db₁ db₃ (fun id => du id + du' id) (fun id => ds id + ds' id) := by
  refine ⟨@RowsKept.trans _ UsesKept (fun _ _ _ => .trans) _ _ _ h₁.codes h₂.codes,
    @RowsKept.trans _ StockKept (fun _ _ _ => .trans) _ _ _ h₁.plans h₂.plans, fun o ho => ?_, fun id => ?_,
    fun id => ?_⟩
  · obtain ⟨o', ho', hkept⟩ := h₁.orders o ho
    obtain ⟨o'', ho'', hkept'⟩ := h₂.orders o' ho'
    exact ⟨o'', ho'', hkept.trans hkept'⟩
  · rw [h₂.uses, h₁.uses, add_assoc]
  · rw [h₂.stock, h₁.stock, add_assoc]

theorem Moves.congr {du du' ds ds' : Nat → Int} (h : Moves no db db' du ds) (hdu : ∀ id, du id = du' id)
    (hds : ∀ id, ds id = ds' id) : Moves no db db' du' ds' := by
  obtain rfl : du = du' := funext hdu
  obtain rfl : ds = ds' := funext hds
  exact h

theorem Moves.then {db₁ db₂ db₃ : Db} {du ds : Nat → Int} (h₁ : Moves no db₁ db₂ du ds)
    (h₂ : Moves no db₂ db₃ nothing nothing) : Moves no db₁ db₃ du ds :=
  (h₁.trans h₂).congr (fun _ => add_zero _) (fun _ => add_zero _)

theorem Moves.of_eq (no : String) (hcodes : db'.discountCodes = db.discountCodes) (hplans : db'.plans = db.plans)
    (horders : db'.paymentOrders = db.paymentOrders) : Moves no db db' nothing nothing := by
  refine ⟨hcodes ▸ .refl UsesKept.refl _, hplans ▸ .refl StockKept.refl _,
    fun o ho => ⟨o, horders ▸ ho, .refl no o⟩, fun id => ?_, fun id => ?_⟩
  · unfold codeSlack consumedBy nothing
    rw [hcodes, horders, add_zero]
  · unfold planSlack reservedBy nothing
    rw [hplans, horders, add_zero]

theorem Moves.touch (no : String) (db : Db) {n : String} {f : PaymentOrder → PaymentOrder}
    (hf : ∀ o, SameFlags o (f o)) : Moves no db (setPaymentOrder db n f) nothing nothing := by
  have hcount : ∀ (p : PaymentOrder → Bool), (∀ o, p (f o) = p o) →
      (setPaymentOrder db n f).paymentOrders.countP p = db.paymentOrders.countP p := by
    intro p hp
    refine List.countP_map.trans (List.countP_congr fun o _ => ?_)
    rw [Function.comp_apply]
    split
    · rw [hp o]
    · rfl
  refine ⟨.refl UsesKept.refl _, .refl StockKept.refl _, fun o ho => ?_, fun id => ?_, fun id => ?_⟩
  · by_cases hno : o.outTradeNo = n
    · exact ⟨f o, Rows.mem_set.mpr (.inl ⟨o, ho, hno, rfl⟩), (hf o).outTradeNo,
        fun _ => ⟨(hf o).discountConsumed, (hf o).stockReserved⟩⟩
    · exact ⟨o, Rows.mem_set.mpr (.inr ⟨ho, hno⟩), .refl no o⟩
  · unfold codeSlack consumedBy nothing
    rw [add_zero, hcount _ fun o => by
      unfold PaymentOrder.holdsCode
      rw [(hf o).discountCodeId, (hf o).discountConsumed]]
    rfl
  · unfold planSlack reservedBy nothing
    rw [add_zero, hcount _ fun o => by
      unfold PaymentOrder.holdsStock
      rw [(hf o).planId, (hf o).stockReserved]]
    rfl

section
variable {db : Db} (hnd : (db.paymentOrders.map (·.outTradeNo)).Nodup) {no : String} {o : PaymentOrder}
  (hfind : getPaymentOrderByOutTradeNo db no = some o)
include hnd hfind

theorem consumedBy_set (f : PaymentOrder → PaymentOrder) (id : Nat) :
    (consumedBy (setPaymentOrder db no f) id : Int) =
      consumedBy db id - (o.holdsCode id).toNat + ((f o).holdsCode id).toNat := by
  have hcount := Rows.countP_set hnd hfind f (·.holdsCode id)
  unfold consumedBy setPaymentOrder
  dsimp only at hcount ⊢
  omega

theorem reservedBy_set (f : PaymentOrder → PaymentOrder) (id : Nat) :
    (reservedBy (setPaymentOrder db no f) id : Int) =
      reservedBy db id - (o.holdsStock id).toNat + ((f o).holdsStock id).toNat := by
  have hcount := Rows.countP_set hnd hfind f (·.holdsStock id)
  unfold reservedBy setPaymentOrder
  dsimp only at hcount ⊢
  omega

theorem close_moves (hcode : ∀ id, 0 ≤ codeSlack db id) (hplan : ∀ id, 0 ≤ planSlack db id)
    (hpending : o.status = .pending) (status : ClosingStatus) (now : Int) {data : PaymentOrder → PaymentOrder}
    (hdata : ∀ o, (data o).outTradeNo = o.outTradeNo ∧ (data o).discountConsumed = false) :
    Moves no db (closePaymentOrder (releaseOrderDiscount db o) no status now data) nothing nothing := by
  have ho : o ∈ db.paymentOrders := Rows.mem_of_find hfind
  obtain ⟨codes, hcodes, hkept, huses⟩ := releaseOrderDiscount_effect hcode ho
  rw [hcodes]
  have hplan' : ∀ id, 0 ≤ planSlack { db with discountCodes := codes } id := hplan
  obtain ⟨plans, hplans, hkept', hstock⟩ := releaseOrderStock_effect hplan' ho
  have hfind' : getPaymentOrderByOutTradeNo { db with discountCodes := codes } no = some o := hfind
  unfold closePaymentOrder
  rw [hfind']
  dsimp only
  rw [if_neg (not_not.mpr hpending), hplans]
  refine ⟨hkept, hkept', fun o' ho' => ?_, fun id => ?_, fun id => ?_⟩
  · by_cases hno : o'.outTradeNo = no
    · exact ⟨_, Rows.mem_set.mpr (.inl ⟨o', ho', hno, rfl⟩), (hdata o').1, fun hne => absurd hno hne⟩
    · exact ⟨o', Rows.mem_set.mpr (.inr ⟨ho', hno⟩), .refl no o'⟩
  · have hconsumed := consumedBy_set hnd hfind (fun o => { data o with
      status := status.toStatus, stockReserved := false, updatedAt := toDriver now }) id
    have hfree : PaymentOrder.holdsCode { data o with
        status := status.toStatus, stockReserved := false, updatedAt := toDriver now } id = false := by
      simp [PaymentOrder.holdsCode, (hdata o).2]
    rw [hfree, Bool.toNat_false] at hconsumed
    have hcounted := huses id
    unfold codeSlack nothing
    unfold consumedBy updatePaymentOrder setPaymentOrder at *
    dsimp only at *
    omega
  · have hreserved := reservedBy_set hnd hfind (fun o => { data o with
      status := status.toStatus, stockReserved := false, updatedAt := toDriver now }) id
    have hfree : PaymentOrder.holdsStock { data o with
        status := status.toStatus, stockReserved := false, updatedAt := toDriver now } id = false := by
      simp [PaymentOrder.holdsStock]
    rw [hfree, Bool.toNat_false] at hreserved
    have hcounted := hstock id
    unfold planSlack nothing
    unfold reservedBy updatePaymentOrder setPaymentOrder at *
    dsimp only at *
    omega

end

/-! ## The functions that move nothing beyond what orders hold -/

section
variable {db : Db} (hnd : (db.paymentOrders.map (·.outTradeNo)).Nodup)

section
variable (hcode : ∀ id, 0 ≤ codeSlack db id) (hplan : ∀ id, 0 ≤ planSlack db id)
include hnd hcode hplan

theorem closePaymentOrderAndReleaseDiscount_moves (no : String) (status : ClosingStatus)
    (rawNotify : Option String) (now : Int) :
    Moves no db (closePaymentOrderAndReleaseDiscount db no status rawNotify now) nothing nothing := by
  unfold closePaymentOrderAndReleaseDiscount
  split
  · exact .of_eq no rfl rfl rfl
  · rename_i order hfind
    split
    · exact .of_eq no rfl rfl rfl
    · rename_i hpending
      exact close_moves hnd hfind hcode hplan (not_not.mp hpending) status now (fun _ => ⟨rfl, rfl⟩)

theorem deletePaymentOrder_moves (h : deletePaymentOrder db no now = .ok db') : Moves no db db' nothing nothing := by
  unfold deletePaymentOrder at h
  split at h
  · cases h
  · rename_i order hfind
    split at h
    · cases h
    · obtain rfl := Except.ok.inj h
      have hclosed : Moves no db (if order.status = .pending then
          closePaymentOrder (releaseOrderDiscount db order) no .cancelled now
            (fun o => { o with discountConsumed := false }) else db) nothing nothing := by
        split
        · rename_i hpending
          exact close_moves hnd hfind hcode hplan hpending .cancelled now (fun _ => ⟨rfl, rfl⟩)
        · exact .of_eq no rfl rfl rfl
      exact hclosed.then (.touch no _ fun _ => ⟨rfl, rfl, rfl, rfl, rfl⟩)

end

theorem acceptPaidNotification_moves {n : PaidNotification} (h : acceptPaidNotification db no n now = .ok db') :
    Moves no db db' nothing nothing := by
  have hmark : ∀ {r : Option PaymentOrder × Db}, markPaymentOrderPaid db no n true now = r →
      Moves no db r.2 nothing nothing := by
    rintro r rfl
    unfold markPaymentOrderPaid
    split
    · exact .of_eq no rfl rfl rfl
    · split
      · exact .touch no db fun _ => ⟨rfl, rfl, rfl, rfl, rfl⟩
      · split
        · exact .touch no db fun _ => ⟨rfl, rfl, rfl, rfl, rfl⟩
        · exact .of_eq no rfl rfl rfl
  unfold acceptPaidNotification at h
  split at h
  · cases h
  · split at h
    · cases h
    · split at h
      · obtain rfl := Except.ok.inj h
        exact .of_eq no rfl rfl rfl
      · dsimp only at h
        split at h
        · cases h
        · split at h
          · rename_i hpaid
            split at h
            · obtain rfl := Except.ok.inj h
              exact hmark hpaid
            · cases h
          · cases h

theorem claimPaidPaymentOrder_moves (h : claimPaidPaymentOrder db no now = some db') :
    Moves no db db' nothing nothing := by
  unfold claimPaidPaymentOrder at h
  split at h
  · obtain rfl := Option.some.inj h
    exact .touch no db fun _ => ⟨rfl, rfl, rfl, rfl, rfl⟩
  · cases h

theorem resetStaleProcessingPaymentOrder_moves {before now : Int}
    (h : resetStaleProcessingPaymentOrder db no before now = some db') : Moves no db db' nothing nothing := by
  unfold resetStaleProcessingPaymentOrder at h
  split at h
  · obtain rfl := Option.some.inj h
    exact .touch no db fun _ => ⟨rfl, rfl, rfl, rfl, rfl⟩
  · cases h

end

theorem setPaymentOrderCheckout_moves (db : Db) (no : String) (tradeNo : Option String) (now : Int) :
    Moves no db (setPaymentOrderCheckout db no tradeNo now) nothing nothing := by
  apply Moves.touch
  intro o
  split
  · exact ⟨rfl, rfl, rfl, rfl, rfl⟩
  · exact ⟨rfl, rfl, rfl, rfl, rfl⟩

theorem recordPaymentOrderFailure_moves (db : Db) (no failureReason : String) (statuses : List OrderStatus)
    (now : Int) : Moves no db (recordPaymentOrderFailure db no failureReason statuses now) nothing nothing := by
  apply Moves.touch
  intro o
  split
  · exact ⟨rfl, rfl, rfl, rfl, rfl⟩
  · exact ⟨rfl, rfl, rfl, rfl, rfl⟩

theorem completePaymentOrder_moves (db : Db) (no : String) (sid : Option Nat) (now : Int) :
    Moves no db (completePaymentOrder db no sid now) nothing nothing :=
  .touch no db fun _ => ⟨rfl, rfl, rfl, rfl, rfl⟩

/-! ## Orders that take -/

theorem consumeOptionalDiscount_effect (hids : (db.discountCodes.map (·.id)).Nodup) {discountCodeId : Option Nat}
    (h : consumeOptionalDiscount db discountCodeId now = .ok db') :
    ∃ codes, db' = { db with discountCodes := codes } ∧ RowsKept UsesKept db.discountCodes codes ∧
      ∀ id, uses codes id = uses db.discountCodes id + if discountCodeId = some id then 1 else 0 := by
  unfold consumeOptionalDiscount at h
  split at h
  · rename_i k
    obtain ⟨codes, rfl, hkept, huses⟩ := consumeDiscountCode_effect hids h
    refine ⟨codes, rfl, hkept, fun id => ?_⟩
    rw [huses id]
    simp only [Option.some.injEq, eq_comm]
  · obtain rfl := Except.ok.inj h
    exact ⟨_, rfl, .refl UsesKept.refl _, fun id => by simp⟩

theorem reserveOrderStock_effect (hids : (db.plans.map (·.id)).Nodup) {input : CreateOrderInput} {reserved : Bool}
    (h : reserveOrderStock db input = .ok (reserved, db')) :
    ∃ plans, db' = { db with plans := plans } ∧ RowsKept StockKept db.plans plans ∧
      ∀ id, stock plans id = stock db.plans id + (decide (input.planId = some id) && reserved).toNat := by
  unfold reserveOrderStock at h
  split at h
  · rename_i hnone
    obtain ⟨rfl, rfl⟩ := Prod.mk.inj (Except.ok.inj h)
    exact ⟨_, rfl, .refl StockKept.refl _, fun id => by simp⟩
  · rename_i k hk
    split at h
    · cases h
    · split at h
      · obtain ⟨rfl, rfl⟩ := Prod.mk.inj (Except.ok.inj h)
        exact ⟨_, rfl, .refl StockKept.refl _, fun id => by simp⟩
      · cases hstock : reservePlanStock db k with
        | error e =>
          rw [hstock] at h
          cases h
        | ok db₁ =>
          rw [hstock] at h
          obtain ⟨rfl, rfl⟩ := Prod.mk.inj (Except.ok.inj h)
          obtain ⟨plans, rfl, hkept, hcount⟩ := reservePlanStock_effect hids hstock
          refine ⟨plans, rfl, hkept, fun id => ?_⟩
          rw [hcount id, hk]
          by_cases hid : id = k
          · simp [hid]
          · simp [hid, Ne.symm hid]

theorem createPaymentOrder_moves (hcodes : (db.discountCodes.map (·.id)).Nodup) (hplans : (db.plans.map (·.id)).Nodup)
    {input : CreateOrderInput} (h : createPaymentOrder db input now = .ok db') :
    Moves input.outTradeNo db db' nothing nothing := by
  unfold createPaymentOrder at h
  split at h
  · cases h
  · rename_i db₁ hdiscount
    obtain ⟨codes, rfl, hkept, huses⟩ := consumeOptionalDiscount_effect hcodes hdiscount
    split at h
    · cases h
    · rename_i reserved db₂ hreserve
      have hplans' : (({ db with discountCodes := codes } : Db).plans.map (·.id)).Nodup := hplans
      obtain ⟨plans, rfl, hkept', hstock⟩ := reserveOrderStock_effect hplans' hreserve
      split at h
      · cases h
      · obtain rfl := Except.ok.inj h
        refine ⟨hkept, hkept', fun o ho => ⟨o, List.mem_append_left _ ho, .refl _ o⟩, fun id => ?_, fun id => ?_⟩
        · have hcounted := huses id
          unfold codeSlack consumedBy nothing
          dsimp only
          rw [List.countP_append, List.countP_singleton, hcounted]
          by_cases hk : input.discountCodeId = some id
          · simp [PaymentOrder.holdsCode, CreateOrderInput.toOrder, hk]
          · simp [PaymentOrder.holdsCode, CreateOrderInput.toOrder, hk]
        · have hcounted := hstock id
          unfold planSlack reservedBy nothing
          dsimp only at hcounted ⊢
          rw [List.countP_append, List.countP_singleton, hcounted]
          by_cases hk : input.planId = some id
          · cases reserved <;> simp [PaymentOrder.holdsStock, CreateOrderInput.toOrder, hk]
          · simp [PaymentOrder.holdsStock, CreateOrderInput.toOrder, hk]

/-- What the stock of a grant takes beyond what its order holds: an item when it has none. -/
theorem reserveGrantStock_moves (hnd : (db.paymentOrders.map (·.outTradeNo)).Nodup) (hids : (db.plans.map (·.id)).Nodup)
    {input : ApplyInput} {order : Option PaymentOrder}
    (horder : ∀ o ∈ order, getPaymentOrderByOutTradeNo db no = some o ∧ o.planId = some input.planId)
    (h : reserveGrantStock db input order = .ok db') :
    Moves no db db' nothing (fun id => (decide (order = none) && decide (id = input.planId)).toNat) := by
  unfold reserveGrantStock at h
  split at h
  · rename_i o
    obtain ⟨hfind, hplan⟩ := horder o rfl
    have hno : o.outTradeNo = no := Rows.key_of_find hfind
    have hzero : ∀ id, (nothing id : Int) = (decide (some o = none) && decide (id = input.planId)).toNat :=
      fun id => rfl
    split at h
    · obtain rfl := Except.ok.inj h
      exact (Moves.of_eq no rfl rfl rfl).congr (fun _ => rfl) hzero
    · rename_i hreserved
      cases hstock : reservePlanStock db input.planId with
      | error e =>
        rw [hstock] at h
        cases h
      | ok db₁ =>
        rw [hstock] at h
        obtain rfl := Except.ok.inj h
        obtain ⟨plans, rfl, hkept, hcount⟩ := reservePlanStock_effect hids hstock
        rw [hno]
        refine ⟨.refl UsesKept.refl _, hkept, fun o' ho' => ?_, fun id => ?_, fun id => ?_⟩
        · by_cases hno' : o'.outTradeNo = no
          · exact ⟨_, Rows.mem_set.mpr (.inl ⟨o', ho', hno', rfl⟩), rfl, fun hne => absurd hno' hne⟩
          · exact ⟨o', Rows.mem_set.mpr (.inr ⟨ho', hno'⟩), .refl no o'⟩
        · have hconsumed := consumedBy_set hnd hfind (fun o => { o with stockReserved := true }) id
          unfold codeSlack nothing
          unfold consumedBy setPaymentOrder PaymentOrder.holdsCode at *
          dsimp only at *
          omega
        · have hset := reservedBy_set hnd hfind (fun o => { o with stockReserved := true }) id
          have hcounted := hcount id
          rw [← hzero id]
          have hbefore : o.holdsStock id = false := by simp [PaymentOrder.holdsStock, hreserved]
          have hafter : PaymentOrder.holdsStock { o with stockReserved := true } id = decide (id = input.planId) := by
            simp [PaymentOrder.holdsStock, hplan, eq_comm]
          rw [hbefore, hafter] at hset
          unfold planSlack nothing
          unfold reservedBy setPaymentOrder at *
          dsimp only at *
          by_cases hid : id = input.planId
          · rw [if_pos hid] at hcounted
            rw [decide_eq_true hid, Bool.toNat_false, Bool.toNat_true] at hset
            omega
          · rw [if_neg hid] at hcounted
            rw [decide_eq_false hid, Bool.toNat_false] at hset
            omega
  · obtain ⟨plans, rfl, hkept, hcount⟩ := reservePlanStock_effect hids h
    refine ⟨.refl UsesKept.refl _, hkept, fun o' ho' => ⟨o', ho', .refl no o'⟩, fun id => ?_, fun id => ?_⟩
    · unfold codeSlack consumedBy nothing
      rw [add_zero]
    · have hcounted := hcount id
      unfold planSlack reservedBy
      dsimp only
      rw [hcounted]
      by_cases hid : id = input.planId
      · simp [hid]
        omega
      · simp [hid]

def grantedOutside (input : ApplyInput) (id : Nat) : Bool :=
  input.paidWith = none && (input.targetSubscriptionId.isNone && input.planId = id)

theorem apply_moves (hnd : (db.paymentOrders.map (·.outTradeNo)).Nodup) (hids : (db.plans.map (·.id)).Nodup)
    {input : ApplyInput} {r : ApplyResult} (hno : ∀ n ∈ input.paidWith, n = no)
    (h : applySubscriptionToUser db input now = .ok (r, db')) :
    Moves no db db' nothing (fun id => (grantedOutside input id).toNat) := by
  have hzero : (input.paidWith ≠ none ∨ input.targetSubscriptionId ≠ none) →
      ∀ id, (nothing id : Int) = (grantedOutside input id).toNat := by
    intro hheld id
    unfold grantedOutside nothing
    rcases hheld with hpaid | htarget
    · simp [hpaid]
    · rw [Option.isNone_eq_false_iff.mpr (Option.isSome_iff_ne_none.mpr htarget)]
      simp
  rcases apply_effect h with ⟨rfl, n, -, -, hpaid, -⟩ | ⟨order, horder, hcase⟩
  · exact (Moves.of_eq no rfl rfl rfl).congr (fun _ => rfl) (hzero (.inl (by rw [hpaid]; nofun)))
  · rcases hcase with ⟨htarget, hgrant⟩ | ⟨htarget, hrenew⟩
    · obtain ⟨db₁, hstock, horders, hplans⟩ := hgrant.stock
      have hfound : ∀ o ∈ order, getPaymentOrderByOutTradeNo db no = some o ∧ o.planId = some input.planId := by
        rintro o rfl
        rcases horder with ⟨-, hnone⟩ | ⟨n, o', hn, hcheck, -, heq⟩
        · cases hnone
        · obtain rfl := Option.some.inj heq
          obtain ⟨hfind, hplan, -⟩ := checkPaymentOrder_spec hcheck
          exact ⟨hno n hn ▸ hfind, hplan⟩
      have hcodes : db'.discountCodes = db₁.discountCodes :=
        hgrant.discountCodes.trans (reserveGrantStock_frame hstock).2.2.2.2.2.2.symm
      refine ((reserveGrantStock_moves hnd hids hfound hstock).then (.of_eq no hcodes hplans horders)).congr
        (fun _ => rfl) (fun id => ?_)
      have hunpaid : decide (order = none) = decide (input.paidWith = none) := by
        rcases horder with ⟨hpaid, rfl⟩ | ⟨n, o, hn, -, -, rfl⟩
        · rw [hpaid]
          rfl
        · rw [hn]
          rfl
      have hplan : decide (id = input.planId) = decide (input.planId = id) := decide_eq_decide.mpr eq_comm
      unfold grantedOutside
      rw [hunpaid, htarget, hplan]
      rfl
    · refine (Moves.of_eq no hrenew.discountCodes hrenew.plans hrenew.paymentOrders).congr (fun _ => rfl)
        (hzero (.inr ?_))
      exact Option.isSome_iff_ne_none.mp htarget

/-- A purchase with the balance uses its code and takes its item without an order. -/
theorem purchasePlanWithBalance_moves (hnd : (db.paymentOrders.map (·.outTradeNo)).Nodup)
    (hcodes : (db.discountCodes.map (·.id)).Nodup) (hids : (db.plans.map (·.id)).Nodup) {input : ApplyInput}
    {discountCodeId : Option Nat} {amountCents : Nat} {description : String} (no : String)
    (h : purchasePlanWithBalance db input discountCodeId amountCents description now = .ok db') :
    Moves no db db' (fun id => (decide (discountCodeId = some id)).toNat)
      (fun id => (input.targetSubscriptionId.isNone && input.planId = id).toNat) := by
  unfold purchasePlanWithBalance at h
  dsimp only at h
  split at h
  · cases h
  · rename_i accounts _
    split at h
    · cases h
    · rename_i db₁ hdiscount
      have hcodes' : (({ db with accounts := accounts } : Db).discountCodes.map (·.id)).Nodup := hcodes
      obtain ⟨codes, rfl, hkept, huses⟩ := consumeOptionalDiscount_effect hcodes' hdiscount
      have hused : Moves no db { db with accounts := accounts, discountCodes := codes }
          (fun id => (decide (discountCodeId = some id)).toNat) nothing := by
        refine ⟨hkept, .refl StockKept.refl _, fun o ho => ⟨o, ho, .refl no o⟩, fun id => ?_, fun id => ?_⟩
        · have hcounted := huses id
          unfold codeSlack consumedBy
          dsimp only at hcounted ⊢
          rw [hcounted]
          by_cases hk : discountCodeId = some id
          · rw [if_pos hk, decide_eq_true hk, Bool.toNat_true]
            omega
          · rw [if_neg hk, decide_eq_false hk, Bool.toNat_false]
            omega
        · unfold planSlack reservedBy nothing
          rw [add_zero]
      cases happly : applySubscriptionToUser { db with accounts := accounts, discountCodes := codes } { input with
        source               := .balance
        paymentOrderNo       := none
        overrideDurationDays := none } now with
      | error e =>
        rw [happly] at h
        cases h
      | ok r =>
        rw [happly] at h
        obtain rfl := Except.ok.inj h
        have hnd' : (({ db with accounts := accounts, discountCodes := codes } : Db).paymentOrders.map
          (·.outTradeNo)).Nodup := hnd
        refine (hused.trans (apply_moves hnd' hids ?_ happly)).congr (fun id => add_zero _) (fun id => ?_)
        · intro n hn
          cases hn
        · exact zero_add _

/-! ## The transaction of a task -/

/-- The copy of the task says that no use was taken, and the order holds one. -/
def staleUse (order o : PaymentOrder) (id : Nat) : Bool := !order.discountConsumed && o.holdsCode id

section
variable {db : Db} (h : OrdersInv db) (hcodes : (db.discountCodes.map (·.id)).Nodup) {o : PaymentOrder}
  (ho : o ∈ db.paymentOrders) {order : PaymentOrder} (hsame : SameOrder order o)
include h hcodes ho hsame

theorem consumeOrderDiscount_moves (hr : consumeOrderDiscount db order now = .ok db') :
    Moves order.outTradeNo db db' (fun id => (staleUse order o id).toNat) nothing ∧ db'.plans = db.plans := by
  have hfind : getPaymentOrderByOutTradeNo db order.outTradeNo = some o :=
    hsame.outTradeNo ▸ Rows.find_of_mem h.orders ho
  have hzero : (order.discountCodeId = none ∨ order.discountConsumed = true) →
      ∀ id, nothing id = (staleUse order o id).toNat := by
    intro hnone id
    unfold staleUse nothing
    rcases hnone with hnone | hconsumed
    · simp [PaymentOrder.holdsCode, hsame.discountCodeId, hnone]
    · simp [hconsumed]
  unfold consumeOrderDiscount at hr
  split at hr
  · rename_i hnone
    obtain rfl := Except.ok.inj hr
    exact ⟨(Moves.of_eq _ rfl rfl rfl).congr (hzero (.inl hnone)) (fun _ => rfl), rfl⟩
  · rename_i k hk
    split at hr
    · rename_i hconsumed
      obtain rfl := Except.ok.inj hr
      exact ⟨(Moves.of_eq _ rfl rfl rfl).congr (hzero (.inr hconsumed)) (fun _ => rfl), rfl⟩
    · rename_i hconsumed
      cases hcode : consumeDiscountCode db k now with
      | error e =>
        rw [hcode] at hr
        cases hr
      | ok db₁ =>
        rw [hcode] at hr
        obtain rfl := Except.ok.inj hr
        obtain ⟨codes, rfl, hkept, huses⟩ := consumeDiscountCode_effect hcodes hcode
        refine ⟨⟨hkept, .refl StockKept.refl _, fun o' ho' => ?_, fun id => ?_, fun id => ?_⟩, rfl⟩
        · by_cases hno : o'.outTradeNo = order.outTradeNo
          · exact ⟨_, Rows.mem_set.mpr (.inl ⟨o', ho', hno, rfl⟩), rfl, fun hne => absurd hno hne⟩
          · exact ⟨o', Rows.mem_set.mpr (.inr ⟨ho', hno⟩), .refl _ o'⟩
        · have hset := consumedBy_set h.orders hfind
            (fun o => { o with discountConsumed := true, updatedAt := toDriver now }) id
          have hafter : PaymentOrder.holdsCode { o with discountConsumed := true, updatedAt := toDriver now } id =
              decide (id = k) := by
            simp [PaymentOrder.holdsCode, hsame.discountCodeId, hk, eq_comm]
          have hstale : staleUse order o id = o.holdsCode id := by simp [staleUse, hconsumed]
          rw [hafter] at hset
          rw [hstale]
          have hcounted := huses id
          unfold codeSlack
          unfold consumedBy updatePaymentOrder setPaymentOrder at *
          dsimp only at *
          by_cases hid : id = k
          · rw [if_pos hid] at hcounted
            rw [decide_eq_true hid, Bool.toNat_true] at hset
            omega
          · rw [if_neg hid] at hcounted
            rw [decide_eq_false hid, Bool.toNat_false] at hset
            omega
        · have hset := reservedBy_set h.orders hfind
            (fun o => { o with discountConsumed := true, updatedAt := toDriver now }) id
          unfold planSlack nothing
          unfold reservedBy updatePaymentOrder setPaymentOrder PaymentOrder.holdsStock at *
          dsimp only at *
          omega

/-- The transaction of a task uses a code beyond what orders hold when its copy of an order with
a plan is out of date, and only then. -/
theorem finalizeTransaction_moves (hids : (db.plans.map (·.id)).Nodup) {limit : Nat}
    (hr : finalizeTransaction db order limit now = .ok db') :
    Moves order.outTradeNo db db' (fun id => (order.planId.isSome && staleUse order o id).toNat) nothing := by
  have hunplanned : order.planId = none → ∀ id, nothing id = (order.planId.isSome && staleUse order o id).toNat := by
    intro hnone id
    rw [hnone]
    rfl
  unfold finalizeTransaction at hr
  split at hr
  · rename_i planId hplan
    have hplanned : ∀ {db₂ : Db}, Moves order.outTradeNo db db₂ (fun id => (staleUse order o id).toNat) nothing →
        Moves order.outTradeNo db db₂ (fun id => (order.planId.isSome && staleUse order o id).toNat) nothing := by
      intro db₂ hmoves
      refine hmoves.congr (fun id => ?_) (fun _ => rfl)
      rw [hplan]
      rfl
    apply hplanned
    unfold finalizePlanOrder at hr
    split at hr
    · cases hdiscount : consumeOrderDiscount db order now with
      | error e =>
        rw [hdiscount] at hr
        cases hr
      | ok db₁ =>
        rw [hdiscount] at hr
        obtain rfl := Except.ok.inj hr
        exact (consumeOrderDiscount_moves h hcodes ho hsame hdiscount).1.then (completePaymentOrder_moves _ _ _ _)
    · split at hr
      · cases hr
      · rename_i db₁ hdiscount
        obtain ⟨hmoves, hplans⟩ := consumeOrderDiscount_moves h hcodes ho hsame hdiscount
        have hnd₁ := (h.keeps (consumeOrderDiscount_keeps hdiscount)).orders
        cases happly : applySubscriptionToUser db₁ (order.applyInput planId limit) now with
        | error e =>
          rw [happly] at hr
          cases hr
        | ok r =>
          rw [happly] at hr
          obtain rfl := Except.ok.inj hr
          have hpaid : ∀ n ∈ (order.applyInput planId limit).paidWith, n = order.outTradeNo := by
            intro n hn
            exact (Option.some.inj hn).symm
          have happlied := apply_moves hnd₁ (hplans ▸ hids) hpaid happly
          refine (hmoves.trans happlied).congr (fun _ => add_zero _) (fun id => ?_) |>.then
            (completePaymentOrder_moves _ _ _ _)
          exact zero_add _
  · rename_i hnone
    split at hr
    · cases hr
    · unfold finalizeBalanceOrder at hr
      split at hr
      · obtain rfl := Except.ok.inj hr
        exact (completePaymentOrder_moves _ _ _ _).congr (hunplanned hnone) (fun _ => rfl)
      · cases hadd : addUserBalance db.accounts order.userId order.amountCents (rechargeMeta order.outTradeNo)
            (toDriver now) with
        | error e =>
          rw [hadd] at hr
          cases hr
        | ok accounts =>
          rw [hadd] at hr
          obtain rfl := Except.ok.inj hr
          have hcredited : Moves order.outTradeNo db (logEvent { db with accounts := accounts }
              (.credited order.userId (some order.outTradeNo))) nothing nothing := .of_eq _ rfl rfl rfl
          exact (hcredited.then (completePaymentOrder_moves _ _ _ _)).congr (hunplanned hnone) (fun _ => rfl)
    · obtain rfl := Except.ok.inj hr
      exact (completePaymentOrder_moves _ _ _ _).congr (hunplanned hnone) (fun _ => rfl)

end

/-! ## Steps -/

/-- The transaction of the task takes a use that its order already holds. -/
def Task.takesAgain (t : Task) (db : Db) : Bool :=
  match t.stage with
  | .apply order => order.planId.isSome && (!order.discountConsumed && (order.discountCodeId.isSome &&
      (getPaymentOrderByOutTradeNo db order.outTradeNo).any (·.discountConsumed)))
  | _ => false

def PaymentState.takesAgain (b : PaymentState) : PaymentAct → Bool
  | .run i _ => b.tasks[i]?.any (fun t => t.takesAgain b.db)
  | _ => false

/-- Every task takes the discount of its order from an up to date copy. -/
def UpToDate (b : PaymentState) (a : PaymentAct) : Prop := b.takesAgain a = false

def PaymentAct.usesOutside (id : Nat) : PaymentAct → Bool
  | .purchase _ discountCodeId _ _ => discountCodeId = some id
  | _ => false

def PaymentAct.grantsOutside (id : Nat) : PaymentAct → Bool
  | .assign input | .purchase input _ _ _ => input.targetSubscriptionId.isNone && input.planId = id
  | _ => false

/-- What a step does to the counters. A code is used beyond what is accounted for only by a task
that takes again. -/
structure Counted (b b' : PaymentState) (a : PaymentAct) : Prop where
  codeIds : b'.db.discountCodes.map (·.id) = b.db.discountCodes.map (·.id)
  planIds : b'.db.plans.map (·.id) = b.db.plans.map (·.id)
  orders : ∃ no, ∀ o ∈ b.db.paymentOrders, ∃ o' ∈ b'.db.paymentOrders, FlagsKept no o o'
  usesWithin : ∀ c ∈ b.db.discountCodes, ∀ c' ∈ b'.db.discountCodes, c'.id = c.id →
    c.usedCount < c'.usedCount → c'.maxUses ≤ 0 ∨ c'.usedCount ≤ c'.maxUses
  stockWithin : ∀ p ∈ b.db.plans, ∀ p' ∈ b'.db.plans, p'.id = p.id →
    p.stockUsed < p'.stockUsed → p'.stockLimit = 0 ∨ p'.stockUsed ≤ p'.stockLimit
  uses : ∃ du : Nat → Int, (∀ id, 0 ≤ du id) ∧ (UpToDate b a → ∀ id, du id = 0) ∧
    ∀ id, codeSlack b'.db id = codeSlack b.db id + (a.usesOutside id).toNat + du id
  stock : ∀ id, planSlack b'.db id = planSlack b.db id + (a.grantsOutside id).toNat

variable {b b' : PaymentState} {a : PaymentAct}

theorem Moves.counted (hcodes : (b.db.discountCodes.map (·.id)).Nodup) (hplans : (b.db.plans.map (·.id)).Nodup)
    {du ds : Nat → Int} (h : Moves no b.db b'.db du ds)
    (hdu : ∃ du' : Nat → Int, (∀ id, 0 ≤ du' id) ∧ (UpToDate b a → ∀ id, du' id = 0) ∧
      ∀ id, du id = (a.usesOutside id).toNat + du' id) (hds : ∀ id, ds id = (a.grantsOutside id).toNat) :
    Counted b b' a := by
  refine ⟨@RowsKept.keys _ _ (fun c => c.id) UsesKept UsesKept.id _ _ h.codes,
    @RowsKept.keys _ _ (fun p => p.id) StockKept StockKept.id _ _ h.plans, ⟨no, h.orders⟩,
    fun c hc c' hc' hid => ?_, fun p hp p' hp' hid => ?_, ?_, fun id => ?_⟩
  · obtain ⟨f, hf, hkept⟩ := h.codes
    rw [hf] at hc'
    obtain ⟨c₀, hc₀, rfl⟩ := List.mem_map.mp hc'
    obtain rfl := Rows.eq_of_key hcodes hc₀ hc ((hkept c₀ hc₀).id.symm.trans hid)
    exact (hkept c₀ hc₀).within
  · obtain ⟨f, hf, hkept⟩ := h.plans
    rw [hf] at hp'
    obtain ⟨p₀, hp₀, rfl⟩ := List.mem_map.mp hp'
    obtain rfl := Rows.eq_of_key hplans hp₀ hp ((hkept p₀ hp₀).id.symm.trans hid)
    exact (hkept p₀ hp₀).within
  · obtain ⟨du', hnonneg, hfresh, hsum⟩ := hdu
    refine ⟨du', hnonneg, hfresh, fun id => ?_⟩
    rw [h.uses id, hsum id, add_assoc]
  · rw [h.stock id, hds id]

theorem Moves.counted_nothing (hcodes : (b.db.discountCodes.map (·.id)).Nodup) (hplans : (b.db.plans.map (·.id)).Nodup)
    (h : Moves no b.db b'.db nothing nothing) (huses : ∀ id, a.usesOutside id = false)
    (hgrants : ∀ id, a.grantsOutside id = false) : Counted b b' a := by
  refine h.counted hcodes hplans ⟨nothing, fun _ => le_rfl, fun _ _ => rfl, fun id => ?_⟩ (fun id => ?_)
  · rw [huses id]
    rfl
  · rw [hgrants id]
    rfl

theorem TaskOk.moves {t t' : Task} {limit : Nat} (hinv : OrdersInv db) (hcodes : (db.discountCodes.map (·.id)).Nodup)
    (hplans : (db.plans.map (·.id)).Nodup) (hok : TaskOk db t) (h : t.run db limit now = some (db', t')) :
    ∃ no du, Moves no db db' du nothing ∧ (∀ id, 0 ≤ du id) ∧ (t.takesAgain db = false → ∀ id, du id = 0) := by
  have hkept : ∀ {no : String} {db₂ : Db}, Moves no db db₂ nothing nothing → ∃ no du, Moves no db db₂ du nothing ∧
      (∀ id, 0 ≤ du id) ∧ (t.takesAgain db = false → ∀ id, du id = 0) :=
    fun hmoves => ⟨_, nothing, hmoves, fun _ => le_rfl, fun _ _ => rfl⟩
  have hsame : db' = db → ∃ no du, Moves no db db' du nothing ∧ (∀ id, 0 ≤ du id) ∧
      (t.takesAgain db = false → ∀ id, du id = 0) := by
    rintro rfl
    exact hkept (.of_eq "" rfl rfl rfl)
  unfold Task.run at h
  unfold TaskOk at hok
  split at h
  · unfold Task.visit at h
    split at h
    · cases h
    · dsimp only at h
      split at h
      · exact hsame (Prod.mk.inj (Option.some.inj h)).1.symm
      · split at h
        · exact hsame (Prod.mk.inj (Option.some.inj h)).1.symm
        · split at h
          · rename_i hreset
            obtain ⟨rfl, -⟩ := Prod.mk.inj (Option.some.inj h)
            exact hkept (resetStaleProcessingPaymentOrder_moves hreset)
          · exact hsame (Prod.mk.inj (Option.some.inj h)).1.symm
  · split at h
    · rename_i hclaim
      obtain ⟨rfl, -⟩ := Prod.mk.inj (Option.some.inj h)
      exact hkept (claimPaidPaymentOrder_moves hclaim)
    · exact hsame (Prod.mk.inj (Option.some.inj h)).1.symm
  · split at h
    · exact hsame (Prod.mk.inj (Option.some.inj h)).1.symm
    · exact hsame (Prod.mk.inj (Option.some.inj h)).1.symm
  · split at h
    · exact hsame (Prod.mk.inj (Option.some.inj h)).1.symm
    · exact hsame (Prod.mk.inj (Option.some.inj h)).1.symm
  · split at h
    · rename_i hreset
      obtain ⟨rfl, -⟩ := Prod.mk.inj (Option.some.inj h)
      exact hkept (resetStaleProcessingPaymentOrder_moves hreset)
    · exact hsame (Prod.mk.inj (Option.some.inj h)).1.symm
  · rename_i order hstage
    rw [hstage] at hok
    obtain ⟨o, ho, hsameOrder, -⟩ := hok
    split at h
    · rename_i hfinal
      obtain ⟨rfl, -⟩ := Prod.mk.inj (Option.some.inj h)
      refine ⟨_, _, finalizeTransaction_moves hinv hcodes ho hsameOrder hplans hfinal, fun _ => Int.natCast_nonneg _,
        fun hfresh id => ?_⟩
      have hfind : getPaymentOrderByOutTradeNo db order.outTradeNo = some o :=
        hsameOrder.outTradeNo ▸ Rows.find_of_mem hinv.orders ho
      unfold Task.takesAgain at hfresh
      rw [hstage] at hfresh
      dsimp only at hfresh
      rw [hfind, Option.any_some] at hfresh
      -- the order holds a use of the code only if it has a code, and says so
      have hheld : o.holdsCode id = true → order.discountCodeId.isSome = true ∧ o.discountConsumed = true := by
        intro hheld
        unfold PaymentOrder.holdsCode at hheld
        rw [Bool.and_eq_true, decide_eq_true_eq, hsameOrder.discountCodeId] at hheld
        exact ⟨by rw [hheld.1]; rfl, hheld.2⟩
      unfold staleUse
      cases hcode : o.holdsCode id with
      | false => simp
      | true =>
        rw [(hheld hcode).1, (hheld hcode).2] at hfresh
        simp only [Bool.and_true] at hfresh ⊢
        rw [hfresh]
        rfl
    · exact hsame (Prod.mk.inj (Option.some.inj h)).1.symm
  · obtain ⟨rfl, -⟩ := Prod.mk.inj (Option.some.inj h)
    exact hkept (recordPaymentOrderFailure_moves _ _ _ _ _)

theorem uses_counters (codes : List DiscountCode) (id : Nat) :
    uses codes id = (Rows.find Prod.fst (codes.map DiscountCode.counter) id).elim 0 Prod.snd := by
  rw [Rows.find_map (fun c : DiscountCode => c.id) DiscountCode.counter (fun _ => rfl)]
  unfold uses
  cases Rows.find (·.id) codes id <;> rfl

theorem stock_counters (plans : List SubscriptionPlan) (id : Nat) :
    stock plans id = (Rows.find Prod.fst (plans.map SubscriptionPlan.counter) id).elim 0 (fun r : Nat × Nat => (r.2 : Int)) := by
  rw [Rows.find_map (fun p : SubscriptionPlan => p.id) SubscriptionPlan.counter (fun _ => rfl)]
  unfold stock
  cases Rows.find (·.id) plans id <;> rfl

theorem PaymentInv.counted (h : PaymentInv b) (hcodes : (b.db.discountCodes.map (·.id)).Nodup)
    (hplans : (b.db.plans.map (·.id)).Nodup) (hcode : ∀ id, 0 ≤ codeSlack b.db id) (hplan : ∀ id, 0 ≤ planSlack b.db id)
    (hstep : b.step a = some b') : Counted b b' a := by
  have hnd := h.orders.orders
  cases a with
  | tick elapsed =>
    obtain rfl := Option.some.inj hstep
    exact (Moves.of_eq "" rfl rfl rfl).counted_nothing hcodes hplans (fun _ => rfl) (fun _ => rfl)
  | edit users plans discountCodes resources =>
    unfold PaymentState.step at hstep
    dsimp only at hstep
    split at hstep
    · rename_i hcounters
      obtain rfl := Option.some.inj hstep
      obtain ⟨hplanCounters, hcodeCounters⟩ := hcounters
      have hcodeIds : discountCodes.map (·.id) = b.db.discountCodes.map (·.id) := by
        have hids := congrArg (List.map Prod.fst) hcodeCounters
        rw [List.map_map, List.map_map] at hids
        exact hids
      have hplanIds : plans.map (·.id) = b.db.plans.map (·.id) := by
        have hids := congrArg (List.map Prod.fst) hplanCounters
        rw [List.map_map, List.map_map] at hids
        exact hids
      refine ⟨hcodeIds, hplanIds, ⟨"", fun o ho => ⟨o, ho, .refl _ o⟩⟩, fun c hc c' hc' hid hlt => ?_,
        fun p hp p' hp' hid hlt => ?_, ⟨nothing, fun _ => le_rfl, fun _ _ => rfl, fun id => ?_⟩, fun id => ?_⟩
      · have hmem : c'.counter ∈ b.db.discountCodes.map (·.counter) := hcodeCounters ▸ List.mem_map_of_mem hc'
        obtain ⟨c₀, hc₀, heq⟩ := List.mem_map.mp hmem
        obtain ⟨hid₀, hcount⟩ := Prod.mk.inj heq
        obtain rfl := Rows.eq_of_key hcodes hc₀ hc (hid₀.trans hid)
        omega
      · have hmem : p'.counter ∈ b.db.plans.map (·.counter) := hplanCounters ▸ List.mem_map_of_mem hp'
        obtain ⟨p₀, hp₀, heq⟩ := List.mem_map.mp hmem
        obtain ⟨hid₀, hcount⟩ := Prod.mk.inj heq
        obtain rfl := Rows.eq_of_key hplans hp₀ hp (hid₀.trans hid)
        omega
      · have huses : uses discountCodes id = uses b.db.discountCodes id := by
          rw [uses_counters, uses_counters, hcodeCounters]
        unfold codeSlack nothing PaymentAct.usesOutside
        rw [huses, Bool.toNat_false, Nat.cast_zero, add_zero, add_zero]
        rfl
      · have hstock : stock plans id = stock b.db.plans id := by
          rw [stock_counters, stock_counters, hplanCounters]
        unfold planSlack PaymentAct.grantsOutside
        rw [hstock, Bool.toNat_false, Nat.cast_zero, add_zero]
        rfl
    · cases hstep
  | create input =>
    obtain ⟨db', hr, rfl⟩ := Option.map_eq_some_iff.mp hstep
    exact (createPaymentOrder_moves hcodes hplans (toOption_eq_some hr)).counted_nothing hcodes hplans
      (fun _ => rfl) (fun _ => rfl)
  | checkout no tradeNo =>
    obtain rfl := Option.some.inj hstep
    exact (setPaymentOrderCheckout_moves b.db no tradeNo b.now).counted_nothing hcodes hplans
      (fun _ => rfl) (fun _ => rfl)
  | notify no n =>
    unfold PaymentState.step at hstep
    dsimp only at hstep
    split at hstep
    · rename_i haccept
      obtain rfl := Option.some.inj hstep
      exact (acceptPaidNotification_moves haccept).counted_nothing hcodes hplans (fun _ => rfl) (fun _ => rfl)
    · obtain rfl := Option.some.inj hstep
      exact (Moves.of_eq "" rfl rfl rfl).counted_nothing hcodes hplans (fun _ => rfl) (fun _ => rfl)
  | close no status rawNotify =>
    obtain rfl := Option.some.inj hstep
    exact (closePaymentOrderAndReleaseDiscount_moves hnd hcode hplan no status rawNotify b.now).counted_nothing
      hcodes hplans (fun _ => rfl) (fun _ => rfl)
  | delete no =>
    obtain ⟨db', hr, rfl⟩ := Option.map_eq_some_iff.mp hstep
    exact (deletePaymentOrder_moves hnd hcode hplan (toOption_eq_some hr)).counted_nothing hcodes hplans
      (fun _ => rfl) (fun _ => rfl)
  | note no failureReason statuses =>
    obtain rfl := Option.some.inj hstep
    exact (recordPaymentOrderFailure_moves b.db no failureReason statuses b.now).counted_nothing hcodes hplans
      (fun _ => rfl) (fun _ => rfl)
  | finalize no =>
    obtain rfl := Option.some.inj hstep
    exact (Moves.of_eq "" rfl rfl rfl).counted_nothing hcodes hplans (fun _ => rfl) (fun _ => rfl)
  | recover rows =>
    unfold PaymentState.step at hstep
    dsimp only at hstep
    split at hstep
    · obtain rfl := Option.some.inj hstep
      exact (Moves.of_eq "" rfl rfl rfl).counted_nothing hcodes hplans (fun _ => rfl) (fun _ => rfl)
    · cases hstep
  | run i limit =>
    obtain ⟨t, ht, hr⟩ := Option.bind_eq_some_iff.mp hstep
    obtain ⟨⟨db', t'⟩, hrun, rfl⟩ := Option.map_eq_some_iff.mp hr
    obtain ⟨no, du, hmoves, hnonneg, hfresh⟩ :=
      TaskOk.moves h.orders hcodes hplans (h.tasks t (List.mem_of_getElem? ht)) hrun
    refine hmoves.counted hcodes hplans ⟨du, hnonneg, fun huptodate => hfresh ?_, fun id => ?_⟩ (fun _ => rfl)
    · unfold UpToDate PaymentState.takesAgain at huptodate
      dsimp only at huptodate
      rw [ht, Option.any_some] at huptodate
      exact huptodate
    · exact (zero_add _).symm
  | abort i =>
    obtain ⟨t, ht, rfl⟩ := Option.map_eq_some_iff.mp hstep
    exact (Moves.of_eq "" rfl rfl rfl).counted_nothing hcodes hplans (fun _ => rfl) (fun _ => rfl)
  | assign input =>
    unfold PaymentState.step at hstep
    dsimp only at hstep
    split at hstep
    · cases hstep
    · rename_i hother
      obtain ⟨⟨r, db'⟩, hr, rfl⟩ := Option.map_eq_some_iff.mp hstep
      rw [not_or, not_not] at hother
      have hpaid : input.paidWith = none := by
        unfold ApplyInput.paidWith
        rw [if_neg hother.1]
      have hnone : ∀ n ∈ input.paidWith, n = "" := by
        rw [hpaid]
        exact fun n hn => by cases hn
      have hmoves := apply_moves hnd hplans hnone (toOption_eq_some hr)
      refine hmoves.counted hcodes hplans ⟨nothing, fun _ => le_rfl, fun _ _ => rfl, fun _ => rfl⟩ (fun id => ?_)
      unfold grantedOutside
      rw [hpaid]
      rfl
  | purchase input discountCodeId amountCents description =>
    obtain ⟨db', hr, rfl⟩ := Option.map_eq_some_iff.mp hstep
    have hmoves := purchasePlanWithBalance_moves hnd hcodes hplans "" (toOption_eq_some hr)
    refine hmoves.counted hcodes hplans ⟨nothing, fun _ => le_rfl, fun _ _ => rfl, fun id => ?_⟩ (fun _ => rfl)
    exact (add_zero _).symm

/-! ## Runs -/

/-- The counters after the steps `as`. -/
structure Conserved (b₀ : PaymentState) (as : List PaymentAct) (b : PaymentState) : Prop where
  codeIds : b.db.discountCodes.map (·.id) = b₀.db.discountCodes.map (·.id)
  planIds : b.db.plans.map (·.id) = b₀.db.plans.map (·.id)
  uses : ∀ id, uses b₀.db.discountCodes id + as.countP (·.usesOutside id) ≤ codeSlack b.db id
  stock : ∀ id, planSlack b.db id = stock b₀.db.plans id + as.countP (·.grantsOutside id)

theorem uses_nonneg {codes : List DiscountCode} (h : ∀ c ∈ codes, 0 ≤ c.usedCount) (id : Nat) : 0 ≤ uses codes id := by
  unfold uses
  cases hfind : Rows.find (·.id) codes id with
  | none => exact le_rfl
  | some c => exact h c (Rows.mem_of_find hfind)

theorem stock_nonneg (plans : List SubscriptionPlan) (id : Nat) : 0 ≤ stock plans id := by
  unfold stock
  cases Rows.find (·.id) plans id with
  | none => exact le_rfl
  | some p => exact Int.natCast_nonneg p.stockUsed

theorem PaymentState.Start.slack (h : b.Start) (id : Nat) :
    codeSlack b.db id = ForwardX.Panel.uses b.db.discountCodes id ∧ planSlack b.db id = stock b.db.plans id := by
  unfold codeSlack planSlack consumedBy reservedBy
  rw [h.paymentOrders]
  exact ⟨sub_zero _, sub_zero _⟩

section
variable {b₀ : PaymentState} (hstart : b₀.Start)
include hstart

variable {as : List PaymentAct}

theorem Conserved.counted (hinv : PaymentInv b) (h : Conserved b₀ as b) (hstep : b.step a = some b') :
    Counted b b' a := by
  refine hinv.counted (h.codeIds ▸ hstart.discountCodes) (h.planIds ▸ hstart.plans) (fun id => ?_) (fun id => ?_) hstep
  · have hbefore := uses_nonneg hstart.uses id
    have hcount := h.uses id
    omega
  · have hbefore := stock_nonneg b₀.db.plans id
    have hcount := h.stock id
    omega

theorem Conserved.snoc (hinv : PaymentInv b) (h : Conserved b₀ as b) (hstep : b.step a = some b') :
    Conserved b₀ (as ++ [a]) b' := by
  have hcounted := h.counted hstart hinv hstep
  obtain ⟨du, hnonneg, -, huses⟩ := hcounted.uses
  refine ⟨hcounted.codeIds.trans h.codeIds, hcounted.planIds.trans h.planIds, fun id => ?_, fun id => ?_⟩
  · have hbefore := h.uses id
    have hmore := hnonneg id
    rw [huses id, List.countP_append, List.countP_singleton]
    cases a.usesOutside id
    · simp
      omega
    · simp
      omega
  · rw [hcounted.stock id, h.stock id, List.countP_append, List.countP_singleton]
    cases a.grantsOutside id
    · simp
    · simp
      omega

theorem conserved_run (hrun : Run paymentSteps b₀ as b) : PaymentInv b ∧ Conserved b₀ as b := by
  induction hrun with
  | nil =>
    refine ⟨hstart.inv, rfl, rfl, fun id => ?_, fun id => ?_⟩
    · rw [(hstart.slack id).1]
      simp
    · rw [(hstart.slack id).2]
      simp
  | snoc _ hstep ih =>
    obtain ⟨hinv, hconserved⟩ := ih
    exact ⟨(hinv.step hstep).1, hconserved.snoc hstart hinv hstep⟩

/-- When every task is up to date, nothing is counted beyond what is held. -/
theorem uses_run (hrun : Run (Guarded UpToDate paymentSteps) b₀ as b) :
    ∀ id, codeSlack b.db id = uses b₀.db.discountCodes id + as.countP (·.usesOutside id) := by
  induction hrun with
  | nil =>
    intro id
    rw [(hstart.slack id).1]
    simp
  | snoc hrun hstep ih =>
    intro id
    obtain ⟨hinv, hconserved⟩ := conserved_run hstart hrun.of_guarded
    obtain ⟨du, -, hfresh, huses⟩ := (hconserved.counted hstart hinv hstep.2).uses
    have hbefore := ih id
    rw [huses id, hfresh hstep.1 id, List.countP_append, List.countP_singleton, hbefore]
    cases PaymentAct.usesOutside id _
    · simp
    · simp
      omega

end

/-- In every run the stock of a plan is what its orders hold and what was granted without one.
So is the count of a discount code, as long as no task takes the use of its order again. A
step changes what one order holds at most, and takes nothing beyond a limit. -/
theorem reservations_conserved {b₀ b : PaymentState} {as : List PaymentAct} (hstart : b₀.Start)
    (hrun : Run paymentSteps b₀ as b) :
    (∀ p ∈ b.db.plans, ∃ p₀ ∈ b₀.db.plans, p₀.id = p.id ∧
      p.stockUsed = p₀.stockUsed + reservedBy b.db p.id + as.countP (·.grantsOutside p.id)) ∧
    (Run (Guarded UpToDate paymentSteps) b₀ as b → ∀ c ∈ b.db.discountCodes, ∃ c₀ ∈ b₀.db.discountCodes,
      c₀.id = c.id ∧ c.usedCount = c₀.usedCount + consumedBy b.db c.id + as.countP (·.usesOutside c.id)) ∧
    ∀ a b', paymentSteps b a b' →
      (∃ no, ∀ o ∈ b.db.paymentOrders, ∃ o' ∈ b'.db.paymentOrders, FlagsKept no o o') ∧
      (∀ c ∈ b.db.discountCodes, ∀ c' ∈ b'.db.discountCodes, c'.id = c.id →
        c.usedCount < c'.usedCount → c'.maxUses ≤ 0 ∨ c'.usedCount ≤ c'.maxUses) ∧
      ∀ p ∈ b.db.plans, ∀ p' ∈ b'.db.plans, p'.id = p.id →
        p.stockUsed < p'.stockUsed → p'.stockLimit = 0 ∨ p'.stockUsed ≤ p'.stockLimit := by
  obtain ⟨hinv, hconserved⟩ := conserved_run hstart hrun
  refine ⟨fun p hp => ?_, fun hguarded c hc => ?_, fun a b' hstep => ?_⟩
  · obtain ⟨p₀, hp₀, hid⟩ : ∃ p₀ ∈ b₀.db.plans, p₀.id = p.id := by
      have hmem : p.id ∈ b₀.db.plans.map (·.id) := hconserved.planIds ▸ List.mem_map_of_mem hp
      exact List.mem_map.mp hmem
    have hcount := hconserved.stock p.id
    unfold planSlack stock at hcount
    rw [Rows.find_of_mem (hconserved.planIds ▸ hstart.plans) hp, ← hid, Rows.find_of_mem hstart.plans hp₀,
      Option.elim_some, Option.elim_some, hid] at hcount
    refine ⟨p₀, hp₀, hid, ?_⟩
    omega
  · obtain ⟨c₀, hc₀, hid⟩ : ∃ c₀ ∈ b₀.db.discountCodes, c₀.id = c.id := by
      have hmem : c.id ∈ b₀.db.discountCodes.map (·.id) := hconserved.codeIds ▸ List.mem_map_of_mem hc
      exact List.mem_map.mp hmem
    have hcount := uses_run hstart hguarded c.id
    unfold codeSlack uses at hcount
    rw [Rows.find_of_mem (hconserved.codeIds ▸ hstart.discountCodes) hc, ← hid,
      Rows.find_of_mem hstart.discountCodes hc₀, Option.elim_some, Option.elim_some, hid] at hcount
    refine ⟨c₀, hc₀, hid, ?_⟩
    omega
  · have hcounted := hconserved.counted hstart hinv hstep
    exact ⟨hcounted.orders, hcounted.usesWithin, hcounted.stockWithin⟩

theorem reservations_conserved_resumed : ∃ b : PaymentState, ∃ c ∈ b.db.discountCodes, c.usedCount = 1 ∧
    ∃ c₀ ∈ shop.db.discountCodes, c₀.id = c.id ∧
      c.usedCount = c₀.usedCount + consumedBy b.db c.id + resumedTask.countP (·.usesOutside c.id) := by
  have hexec : ((exec (fun b a => if !b.takesAgain a then b.step a else none) shop resumedTask).any (fun b =>
      b.db.discountCodes.any (fun c => c.usedCount = 1))) = true := by
    decide +kernel
  obtain ⟨b, hb, hrow⟩ := (Option.any_eq_true _ _).mp hexec
  obtain ⟨c, hc, hused⟩ := List.any_eq_true.mp hrow
  have hrun := exec_guarded (G := UpToDate) (g := fun b a => !b.takesAgain a)
    (fun _ _ h => (Bool.not_eq_true' _).mp h) hb
  exact ⟨b, c, hc, of_decide_eq_true hused,
    (reservations_conserved shop_start hrun.of_guarded).2.1 hrun c hc⟩

/-- The order expires and is paid after all, without its discount. One task reads it, another
one takes the discount and completes it, and the first takes the discount again. -/
def revivedAndResumed : List PaymentAct :=
  [.create planOrder, .close "A" .expired none, .notify "A" planPaid, .run 0 0, .run 0 0, .tick (11 * 60 * 1000),
    .finalize "A", .run 1 0, .run 1 0, .run 1 0, .run 1 0, .run 1 0, .run 1 0, .run 0 0]

theorem discount_used_twice :
    ¬ ∀ (b₀ b : PaymentState) (as : List PaymentAct), b₀.Start → Run paymentSteps b₀ as b →
      ∀ c ∈ b.db.discountCodes, ∃ c₀ ∈ b₀.db.discountCodes, c₀.id = c.id ∧
        c.usedCount = c₀.usedCount + consumedBy b.db c.id + as.countP (·.usesOutside c.id) := by
  intro hclaim
  have hexec : ((exec PaymentState.step shop revivedAndResumed).any (fun b => b.db.discountCodes.any (fun c =>
      shop.db.discountCodes.all (fun c₀ => decide (c.usedCount ≠ c₀.usedCount + consumedBy b.db c.id +
        revivedAndResumed.countP (·.usesOutside c.id)))))) = true := by
    decide +kernel
  obtain ⟨b, hb, hrow⟩ := (Option.any_eq_true _ _).mp hexec
  obtain ⟨c, hc, hall⟩ := List.any_eq_true.mp hrow
  obtain ⟨c₀, hc₀, -, hcount⟩ := hclaim shop b revivedAndResumed shop_start (exec_run hb) c hc
  exact of_decide_eq_true (List.all_eq_true.mp hall c₀ hc₀) hcount

end ForwardX.Panel
