import ForwardX.Lib.Lease
import ForwardX.Panel.SubscriptionRuns

/- Who owns which ports. The allocator keeps clear of the blocks of the subscriptions that
   are active when it runs, so a block is free again when its subscription expires. An
   extension, a new expiry date or a renewal brings an expired subscription back with the
   block it had, whoever holds those ports by then. -/
namespace ForwardX.Panel
open Transition

def UserSubscription.block (s : UserSubscription) : Option (Nat × Nat) :=
  match s.portRangeStart, s.portRangeEnd with
  | some start, some stop => some (start, stop)
  | _, _ => none

/-- The step brings the subscription back to life, with the block it has. -/
def revives (b : SubscriptionState) (a : SubscriptionAct) (s : UserSubscription) : Bool :=
  !s.isActiveAt b.now &&
  match a with
  | .extend id days _ => s.id = id && s.status ≠ .cancelled && s.expiresAt.isSome && 0 < days
  | .setExpiresAt id expiresAt _ => s.id = id && s.status ≠ .cancelled && expiresAt.all (fun e => b.now < e)
  | .apply input =>
    input.targetSubscriptionId.any (fun id => (renewalTarget b.db input id).toOption = some s) &&
      (usablePlan b.db input.planId).toOption.any (fun plan => keepsBlock plan s) &&
      input.paidWith.all (fun no =>
        (checkPaymentOrder b.db input no).toOption.any (fun o => (existingSubscription b.db o).isNone))
  | _ => false

/-- What a step brings back to life holds no port of an active subscription. -/
def RevivedClear (b : SubscriptionState) (a : SubscriptionAct) : Prop :=
  ∀ s ∈ b.db.subscriptions, revives b a s = true → ∀ s' ∈ b.db.subscriptions, s'.id ≠ s.id →
    s'.isActiveAt b.now = true → Lease.Apart s.block s'.block

instance (b : SubscriptionState) (a : SubscriptionAct) : Decidable (RevivedClear b a) :=
  inferInstanceAs (Decidable (∀ s ∈ b.db.subscriptions, revives b a s = true →
    ∀ s' ∈ b.db.subscriptions, s'.id ≠ s.id → s'.isActiveAt b.now = true → Lease.Apart s.block s'.block))

/-- Both ends of the block are there or none, and it has a port. -/
def UserSubscription.WellFormed (s : UserSubscription) : Prop :=
  (s.portRangeStart = none ∧ s.portRangeEnd = none) ∨
    ∃ start stop, s.portRangeStart = some start ∧ s.portRangeEnd = some stop ∧ 0 < start ∧ start ≤ stop

theorem UserSubscription.WellFormed.of_eq {s s' : UserSubscription} (h : s.WellFormed)
    (hstart : s'.portRangeStart = s.portRangeStart) (hend : s'.portRangeEnd = s.portRangeEnd) :
    s'.WellFormed := by
  unfold WellFormed
  rw [hstart, hend]
  exact h

theorem block_of_eq {s s' : UserSubscription} (hstart : s'.portRangeStart = s.portRangeStart)
    (hend : s'.portRangeEnd = s.portRangeEnd) : s'.block = s.block := by
  unfold UserSubscription.block
  rw [hstart, hend]

theorem holds_of_block {s : UserSubscription} (hwf : s.WellFormed) {start stop : Nat}
    (h : s.block = some (start, stop)) :
    start ≤ stop ∧ ∀ p, start ≤ p → p ≤ stop → s.holds p = true := by
  unfold UserSubscription.block at h
  rcases hwf with ⟨hnone, -⟩ | ⟨a, b, hstart, hend, hpos, hle⟩
  · rw [hnone] at h
    cases h
  · rw [hstart, hend] at h
    obtain ⟨rfl, rfl⟩ := Prod.mk.inj (Option.some.inj h)
    refine ⟨hle, fun p h₁ h₂ => ?_⟩
    unfold UserSubscription.holds
    rw [hstart, hend]
    simp [hpos, h₁, h₂]

structure BlocksOwned (b : SubscriptionState) : Prop where
  ids : (b.db.subscriptions.map (·.id)).Nodup
  wellFormed : ∀ s ∈ b.db.subscriptions, s.WellFormed
  exclusive : Lease.Exclusive (fun s => s.isActiveAt b.now = true) UserSubscription.block b.db.subscriptions

theorem allocated_block {db : Db} {plan : SubscriptionPlan} {now : Int} {block : Option Nat × Option Nat}
    (h : findAvailableSubscriptionPortBlock db plan.portCount plan.hostIds plan.tunnelIds
      plan.forwardGroupIds now = some block) {s : UserSubscription}
    (hstart : s.portRangeStart = block.1) (hend : s.portRangeEnd = block.2) :
    s.WellFormed ∧ (∀ p ∈ s.block, p.2 + 1 = p.1 + plan.portCount) ∧
      ((∀ s' ∈ db.subscriptions, s'.WellFormed) → ∀ s' ∈ db.subscriptions, s'.isActiveAt now = true →
        Lease.Apart s.block s'.block) := by
  rcases findAvailable_eq_some h with ⟨-, rfl⟩ | ⟨port, rfl, hpos, hcount, hfree⟩
  · have hblock : s.block = none := by
      unfold UserSubscription.block
      rw [hstart]
    refine ⟨.inl ⟨hstart, hend⟩, ?_, fun _ _ _ _ => ?_⟩
    · rw [hblock]
      intro p hp
      cases hp
    · rw [hblock]
      exact Lease.apart_none _
  · have hblock : s.block = some (port, port + plan.portCount - 1) := by
      unfold UserSubscription.block
      rw [hstart, hend]
    refine ⟨.inr ⟨_, _, hstart, hend, hpos, by omega⟩, ?_, fun hwf s' hs' hactive => ?_⟩
    · rw [hblock]
      intro p hp
      obtain rfl := Option.mem_some.mp hp
      dsimp only
      omega
    · rw [hblock]
      apply Lease.apart_of_disjoint
      · intro a ha
        obtain rfl := Option.mem_some.mp ha
        dsimp only
        omega
      · intro a ha
        exact (holds_of_block (hwf s' hs') ha).1
      · -- a port in both blocks is used and free
        intro a ha c hc p h₁ h₂ h₃ h₄
        obtain rfl := Option.mem_some.mp ha
        have hheld := (holds_of_block (hwf s' hs') hc).2 p h₃ h₄
        have hused := portUsed_of_holds hs' hactive hheld
        dsimp only at h₁ h₂
        rw [hfree p h₁ (by omega)] at hused
        cases hused

/-! ## What a step preserves -/

section
variable {b b' : SubscriptionState} (h : BlocksOwned b)
include h

/-- An update that keeps ids and blocks and makes no subscription active. -/
theorem BlocksOwned.map {f : UserSubscription → UserSubscription}
    (hsubs : b'.db.subscriptions = b.db.subscriptions.map f)
    (hf : ∀ s, (f s).id = s.id ∧ (f s).portRangeStart = s.portRangeStart ∧
      (f s).portRangeEnd = s.portRangeEnd ∧ ((f s).isActiveAt b'.now = true → s.isActiveAt b.now = true)) :
    BlocksOwned b' := by
  refine ⟨?_, ?_, ?_⟩
  · rw [hsubs, List.map_map]
    convert h.ids using 1
    apply List.map_congr_left
    intro s _
    exact (hf s).1
  · rw [hsubs]
    intro s hs
    obtain ⟨s₀, hs₀, rfl⟩ := List.mem_map.mp hs
    exact (h.wellFormed s₀ hs₀).of_eq (hf s₀).2.1 (hf s₀).2.2.1
  · rw [hsubs]
    apply List.pairwise_map.mpr
    apply h.exclusive.imp
    intro s s' hss hs hs'
    rw [block_of_eq (hf s).2.1 (hf s).2.2.1, block_of_eq (hf s').2.1 (hf s').2.2.1]
    exact hss ((hf s).2.2.2 hs) ((hf s').2.2.2 hs')

/-- An update of one row: it keeps its block while it is active, or its block is clear of the
active ones. -/
theorem BlocksOwned.update (hnow : b'.now = b.now) {id : Nat} {f : UserSubscription → UserSubscription}
    (hsubs : b'.db.subscriptions = Rows.set (·.id) b.db.subscriptions id f)
    (hid : ∀ s, (f s).id = s.id)
    (hf : ∀ s ∈ b.db.subscriptions, s.id = id → (f s).WellFormed ∧
      ((f s).isActiveAt b.now = true → (s.isActiveAt b.now = true ∧ (f s).block = s.block) ∨
        ∀ s' ∈ b.db.subscriptions, s'.id ≠ id → s'.isActiveAt b.now = true →
          Lease.Apart (f s).block s'.block)) :
    BlocksOwned b' := by
  refine ⟨?_, ?_, ?_⟩
  · rw [hsubs, Rows.keys_set hid]
    exact h.ids
  · rw [hsubs]
    intro s hs
    rcases Rows.mem_set.mp hs with ⟨s₀, hs₀, hk, rfl⟩ | ⟨hs, -⟩
    · exact (hf s₀ hs₀ hk).1
    · exact h.wellFormed s hs
  · rw [hsubs, hnow]
    exact h.exclusive.set h.ids (fun s hs hk => (hf s hs hk).2)

theorem BlocksOwned.expiry (hnow : b'.now = b.now) {id : Nat} {status : SubscriptionStatus}
    {expiresAt next : Option Int}
    (hsubs : b'.db.subscriptions = Rows.set (·.id) b.db.subscriptions id (expiryRow status expiresAt next))
    (hclear : ∀ s ∈ b.db.subscriptions, s.id = id →
      (expiryRow status expiresAt next s).isActiveAt b.now = true → s.isActiveAt b.now = false →
      ∀ s' ∈ b.db.subscriptions, s'.id ≠ id → s'.isActiveAt b.now = true → Lease.Apart s.block s'.block) :
    BlocksOwned b' := by
  refine h.update hnow hsubs (fun _ => rfl) ?_
  intro s hs hk
  refine ⟨(h.wellFormed s hs).of_eq rfl rfl, fun hactive => ?_⟩
  cases hbefore : s.isActiveAt b.now with
  | true => exact .inl ⟨rfl, rfl⟩
  | false => exact .inr (hclear s hs hk hactive hbefore)

theorem BlocksOwned.found {id : Nat} {s s₀ : UserSubscription}
    (hfind : getUserSubscriptionById b.db id = some s₀) (hs : s ∈ b.db.subscriptions) (hk : s.id = id) :
    s = s₀ :=
  Rows.eq_of_key h.ids hs (Rows.mem_of_find hfind) (hk.trans (Rows.key_of_find hfind).symm)

theorem BlocksOwned.grant (hnow : b'.now = b.now) {s : UserSubscription} {plan : SubscriptionPlan}
    {block : Option Nat × Option Nat}
    (hblock : findAvailableSubscriptionPortBlock b.db plan.portCount plan.hostIds plan.tunnelIds
      plan.forwardGroupIds b.now = some block)
    (hstart : s.portRangeStart = block.1) (hend : s.portRangeEnd = block.2)
    (hfresh : s.id = Rows.fresh (·.id) b.db.subscriptions)
    (hsubs : b'.db.subscriptions = b.db.subscriptions ++ [s]) : BlocksOwned b' := by
  obtain ⟨hwf, -, hclear⟩ := allocated_block hblock hstart hend
  refine ⟨?_, ?_, ?_⟩
  · rw [hsubs]
    exact Rows.nodup_concat_fresh h.ids hfresh
  · rw [hsubs]
    intro s' hs'
    rcases List.mem_append.mp hs' with hs' | hs'
    · exact h.wellFormed s' hs'
    · obtain rfl := List.mem_singleton.mp hs'
      exact hwf
  · rw [hsubs, hnow]
    exact h.exclusive.concat (fun _ s' hs' hactive => (hclear h.wellFormed s' hs' hactive).symm)

theorem BlocksOwned.recharge (hnow : b'.now = b.now) (userId : Nat)
    (hsubs : b'.db.subscriptions =
      (rechargeSubscriptionTrafficCyclesForUser b.db userId b.now).subscriptions) : BlocksOwned b' := by
  cases huser : getUserById b.db userId with
  | none =>
    refine h.map (f := id) ?_ (fun s => ⟨rfl, rfl, rfl, fun hs => hnow ▸ hs⟩)
    rw [hsubs, List.map_id]
    unfold rechargeSubscriptionTrafficCyclesForUser
    rw [huser]
  | some user =>
    rw [recharge_subscriptions h.ids huser] at hsubs
    refine h.map hsubs (fun s => ?_)
    obtain ⟨next, last, hrow⟩ := rechargedRow_eq b.db user b.now s
    rw [hnow, hrow]
    exact ⟨rfl, rfl, rfl, fun hs => hs⟩

end

theorem BlocksOwned.step {b b' : SubscriptionState} {a : SubscriptionAct} (h : BlocksOwned b)
    (hclear : RevivedClear b a) (hstep : b.step a = some b') : BlocksOwned b' := by
  cases a with
  | tick elapsed =>
    obtain rfl := Option.some.inj hstep
    refine h.map (f := id) (List.map_id _).symm (fun s => ⟨rfl, rfl, rfl, ?_⟩)
    exact isActiveAt_later (by dsimp only; omega)
  | traffic userId bytes =>
    obtain rfl := Option.some.inj hstep
    exact ⟨h.ids, h.wellFormed, h.exclusive⟩
  | edit e =>
    obtain rfl := Option.some.inj hstep
    exact ⟨h.ids, h.wellFormed, h.exclusive⟩
  | apply input =>
    obtain ⟨⟨r, db'⟩, hr, rfl⟩ := Option.map_eq_some_iff.mp hstep
    rcases apply_cases (toOption_eq_some hr) with ⟨rfl, -⟩ | ⟨order, plan, hplan, horder, hcase⟩
    · exact h
    · rcases hcase with ⟨-, hgrant⟩ | ⟨id, s, htarget, hs, hrenew⟩
      · obtain ⟨block, hblock, -, hsubs⟩ := grant_spec hgrant
        exact h.grant rfl hblock rfl rfl rfl hsubs
      · obtain ⟨block, hblock, -, hsubs⟩ := renew_spec hrenew
        obtain ⟨hfind, -, -, -⟩ := renewalTarget_spec hs
        refine h.update rfl hsubs (fun _ => rfl) ?_
        intro s' hs' hk
        obtain rfl : s' = s := Rows.eq_of_key h.ids hs' (Rows.mem_of_find hfind) hk
        unfold renewedBlock at hblock
        split at hblock
        · -- the subscription keeps its block
          rename_i hkeeps
          obtain rfl := Option.some.inj hblock
          refine ⟨(h.wellFormed s' hs').of_eq rfl rfl, fun _ => ?_⟩
          cases hbefore : s'.isActiveAt b.now with
          | true => exact .inl ⟨rfl, rfl⟩
          | false =>
            refine .inr (hclear s' hs' ?_)
            unfold revives
            dsimp only
            rw [hbefore, htarget, Option.any_some, hs, hplan]
            simp only [Except.toOption, decide_true, Option.any_some, hkeeps, Bool.not_false, Bool.true_and]
            rcases horder with ⟨hpaid, -⟩ | ⟨no, o, hpaid, hcheck, hexisting, -⟩
            · rw [hpaid]
              rfl
            · rw [hpaid, Option.all_some, hcheck]
              simp only [Option.any_some, hexisting, Option.isNone_none]
        · obtain ⟨hwf, -, hapart⟩ := allocated_block hblock
            (s := renewedRow input plan _ _ block.1 block.2 s') rfl rfl
          exact ⟨hwf, fun _ => .inr (fun s'' hs'' _ hactive => hapart h.wellFormed s'' hs'' hactive)⟩
  | extend id days limit =>
    obtain ⟨⟨c, db'⟩, hr, rfl⟩ := Option.map_eq_some_iff.mp hstep
    obtain ⟨s₀, cur, hfind, hstatus, hdays, hexp, -, hsubs⟩ := extend_spec (toOption_eq_some hr)
    refine h.expiry rfl hsubs ?_
    intro s hs hk _ hbefore
    obtain rfl := h.found hfind hs hk
    have hrevives : revives b (.extend id days limit) s = true := by
      unfold revives
      simp [hbefore, hk, hstatus, hexp, hdays]
    exact hk ▸ hclear s hs hrevives
  | setExpiresAt id expiresAt limit =>
    obtain ⟨⟨c, db'⟩, hr, rfl⟩ := Option.map_eq_some_iff.mp hstep
    obtain ⟨s₀, hfind, hstatus, -, hsubs⟩ := setExpiresAt_spec (toOption_eq_some hr)
    refine h.expiry rfl hsubs ?_
    intro s hs hk hafter hbefore
    obtain rfl := h.found hfind hs hk
    have hlater : expiresAt.all (fun e => b.now < e) = true := by
      cases hpast : expiresAt.any (fun e => e ≤ b.now) with
      | true =>
        unfold expiryRow UserSubscription.isActiveAt at hafter
        rw [hpast] at hafter
        cases hafter
      | false =>
        cases expiresAt with
        | none => rfl
        | some e =>
          have hlt := of_decide_eq_false hpast
          exact decide_eq_true (Int.not_le.mp hlt)
    have hrevives : revives b (.setExpiresAt id expiresAt limit) s = true := by
      unfold revives
      simp only [hbefore, hk, hstatus, hlater, Bool.not_false, decide_true, ne_eq, not_false_eq_true,
        Bool.and_self]
    exact hk ▸ hclear s hs hrevives
  | cancel id limit =>
    obtain ⟨db', hr, rfl⟩ := Option.map_eq_some_iff.mp hstep
    obtain ⟨-, hsubs⟩ := cancel_spec (toOption_eq_some hr)
    refine h.update rfl hsubs (fun _ => rfl) ?_
    intro s hs _
    refine ⟨(h.wellFormed s hs).of_eq rfl rfl, fun hactive => ?_⟩
    cases hactive
  | expire userId limit =>
    obtain rfl := Option.some.inj hstep
    refine h.map (expire_spec b.db userId limit b.now).2 (fun s => ?_)
    split
    · refine ⟨rfl, rfl, rfl, fun hactive => ?_⟩
      cases hactive
    · exact ⟨rfl, rfl, rfl, fun hs => hs⟩
  | recharge userId =>
    obtain rfl := Option.some.inj hstep
    exact h.recharge rfl userId rfl
  | purchase userId addonId subscriptionId description limit =>
    obtain rfl := Option.some.inj hstep
    refine h.recharge rfl userId ?_
    unfold purchaseTrafficAddonWithBalance
    dsimp only
    split
    · rfl
    · rename_i hinsert
      obtain ⟨s, -, -, -, -, -, -, -, hsubs, -⟩ := insertPurchasedAddon_spec hinsert
      exact hsubs

/-- A block is the one its subscription had before the step, or has as many ports as the plan
counts. -/
def KeptOrAllocated (b : SubscriptionState) (s : UserSubscription) : Prop :=
  (∃ s₀ ∈ b.db.subscriptions, s₀.id = s.id ∧ s₀.block = s.block) ∨
    ∃ plan, getSubscriptionPlanById b.db s.planId = some plan ∧ ∀ p ∈ s.block, p.2 + 1 = p.1 + plan.portCount

variable {b : SubscriptionState}

theorem keptOrAllocated_set {l : List UserSubscription} {id : Nat} {f : UserSubscription → UserSubscription}
    (hl : l = Rows.set (·.id) b.db.subscriptions id f)
    (hf : ∀ s ∈ b.db.subscriptions, s.id = id → KeptOrAllocated b (f s)) : ∀ s ∈ l, KeptOrAllocated b s := by
  rw [hl]
  intro s hs
  rcases Rows.mem_set.mp hs with ⟨s₀, hs₀, hk, rfl⟩ | ⟨hs, -⟩
  · exact hf s₀ hs₀ hk
  · exact .inl ⟨s, hs, rfl, rfl⟩

theorem keptOrAllocated_map {l : List UserSubscription} {f : UserSubscription → UserSubscription}
    (hl : l = b.db.subscriptions.map f) (hf : ∀ s, (f s).id = s.id ∧ (f s).block = s.block) :
    ∀ s ∈ l, KeptOrAllocated b s := by
  rw [hl]
  intro s hs
  obtain ⟨s₀, hs₀, rfl⟩ := List.mem_map.mp hs
  exact .inl ⟨s₀, hs₀, (hf s₀).1.symm, (hf s₀).2.symm⟩

theorem keptOrAllocated_recharge (hids : (b.db.subscriptions.map (·.id)).Nodup) (userId : Nat) :
    ∀ s ∈ (rechargeSubscriptionTrafficCyclesForUser b.db userId b.now).subscriptions,
      KeptOrAllocated b s := by
  cases huser : getUserById b.db userId with
  | none =>
    refine keptOrAllocated_map (f := id) ?_ (fun _ => ⟨rfl, rfl⟩)
    unfold rechargeSubscriptionTrafficCyclesForUser
    rw [huser, List.map_id]
  | some user =>
    refine keptOrAllocated_map (recharge_subscriptions hids huser b.now) (fun s => ?_)
    obtain ⟨next, last, hrow⟩ := rechargedRow_eq b.db user b.now s
    rw [hrow]
    exact ⟨rfl, rfl⟩

theorem keptOrAllocated_step {b b' : SubscriptionState} {a : SubscriptionAct}
    (hids : (b.db.subscriptions.map (·.id)).Nodup) (hstep : b.step a = some b') :
    ∀ s ∈ b'.db.subscriptions, KeptOrAllocated b s := by
  have hsame : ∀ s ∈ b.db.subscriptions, KeptOrAllocated b s := fun s hs => .inl ⟨s, hs, rfl, rfl⟩
  cases a with
  | tick elapsed =>
    obtain rfl := Option.some.inj hstep
    exact hsame
  | traffic userId bytes =>
    obtain rfl := Option.some.inj hstep
    exact hsame
  | edit e =>
    obtain rfl := Option.some.inj hstep
    exact hsame
  | apply input =>
    obtain ⟨⟨r, db'⟩, hr, rfl⟩ := Option.map_eq_some_iff.mp hstep
    rcases apply_cases (toOption_eq_some hr) with ⟨rfl, -⟩ | ⟨order, plan, hplan, -, hcase⟩
    · exact hsame
    · rcases hcase with ⟨-, hgrant⟩ | ⟨id, s, -, hs, hrenew⟩
      · obtain ⟨block, hblock, -, hsubs⟩ := grant_spec hgrant
        dsimp only
        rw [hsubs]
        intro s hs
        rcases List.mem_append.mp hs with hs | hs
        · exact hsame s hs
        · obtain rfl := List.mem_singleton.mp hs
          exact .inr ⟨plan, usablePlan_spec hplan, (allocated_block hblock rfl rfl).2.1⟩
      · obtain ⟨block, hblock, -, hsubs⟩ := renew_spec hrenew
        obtain ⟨hfind, -, -, hplanId⟩ := renewalTarget_spec hs
        refine keptOrAllocated_set hsubs (fun s' hs' hk => ?_)
        obtain rfl : s' = s := Rows.eq_of_key hids hs' (Rows.mem_of_find hfind) hk
        unfold renewedBlock at hblock
        split at hblock
        · obtain rfl := Option.some.inj hblock
          exact .inl ⟨s', hs', rfl, rfl⟩
        · refine .inr ⟨plan, ?_, (allocated_block hblock rfl rfl).2.1⟩
          have hfound := usablePlan_spec hplan
          rw [← hplanId] at hfound
          exact hfound
  | extend id days limit =>
    obtain ⟨⟨c, db'⟩, hr, rfl⟩ := Option.map_eq_some_iff.mp hstep
    obtain ⟨_, _, -, -, -, -, -, hsubs⟩ := extend_spec (toOption_eq_some hr)
    exact keptOrAllocated_set hsubs (fun s hs _ => .inl ⟨s, hs, rfl, rfl⟩)
  | setExpiresAt id expiresAt limit =>
    obtain ⟨⟨c, db'⟩, hr, rfl⟩ := Option.map_eq_some_iff.mp hstep
    obtain ⟨_, -, -, -, hsubs⟩ := setExpiresAt_spec (toOption_eq_some hr)
    exact keptOrAllocated_set hsubs (fun s hs _ => .inl ⟨s, hs, rfl, rfl⟩)
  | cancel id limit =>
    obtain ⟨db', hr, rfl⟩ := Option.map_eq_some_iff.mp hstep
    exact keptOrAllocated_set (cancel_spec (toOption_eq_some hr)).2 (fun s hs _ => .inl ⟨s, hs, rfl, rfl⟩)
  | expire userId limit =>
    obtain rfl := Option.some.inj hstep
    refine keptOrAllocated_map (expire_spec b.db userId limit b.now).2 (fun s => ?_)
    split <;> exact ⟨rfl, rfl⟩
  | recharge userId =>
    obtain rfl := Option.some.inj hstep
    exact keptOrAllocated_recharge hids userId
  | purchase userId addonId subscriptionId description limit =>
    obtain rfl := Option.some.inj hstep
    unfold purchaseTrafficAddonWithBalance
    dsimp only
    split
    · exact keptOrAllocated_recharge hids userId
    · rename_i hinsert
      obtain ⟨_, -, -, -, -, -, -, -, hsubs, -⟩ := insertPurchasedAddon_spec hinsert
      rw [hsubs]
      exact keptOrAllocated_recharge hids userId

/-! ## Runs -/

theorem SubscriptionState.Start.blocksOwned (h : b.Start) : BlocksOwned b := by
  refine ⟨?_, ?_, ?_⟩
  · rw [h.subscriptions]
    exact List.nodup_nil
  · rw [h.subscriptions]
    intro s hs
    cases hs
  · rw [h.subscriptions]
    exact List.Pairwise.nil

/-- As long as no step brings a subscription back to life whose ports an active one holds by
then, the active subscriptions hold disjoint blocks at every instant. What a step allocates
is a block of as many ports as the plan counts. -/
theorem active_blocks_disjoint {b₀ b : SubscriptionState} {as : List SubscriptionAct} (hstart : b₀.Start)
    (hrun : Run (Guarded RevivedClear subscriptionSteps) b₀ as b) :
    (∀ s ∈ b.db.subscriptions, ∀ s' ∈ b.db.subscriptions, s.id ≠ s'.id →
      s.isActiveAt b.now = true → s'.isActiveAt b.now = true → Lease.Apart s.block s'.block) ∧
    ∀ a b', subscriptionSteps b a b' → ∀ s ∈ b'.db.subscriptions, KeptOrAllocated b s := by
  have hinv : BlocksOwned b :=
    hrun.preserves (fun _ _ _ hstep h => h.step hstep.1 hstep.2) hstart.blocksOwned
  refine ⟨fun s hs s' hs' hne => ?_, fun a b' hstep => keptOrAllocated_step hinv.ids hstep⟩
  exact hinv.exclusive.apart hs hs' (fun heq => hne (congrArg _ heq))

def twoSubscriptions : List SubscriptionAct :=
  [assignPlan 1, assignPlan 2, .tick (20 * oneDay), .extend 1 30 0, .tick (15 * oneDay), .expire 2 0]

theorem active_blocks_disjoint_two : ∃ b : SubscriptionState, ∃ s ∈ b.db.subscriptions, ∃ s' ∈ b.db.subscriptions,
    s.block = some (10000, 10002) ∧ s'.block = some (10003, 10005) ∧
    (s.isActiveAt b.now = true → s'.isActiveAt b.now = true → Lease.Apart s.block s'.block) := by
  have hexec : ((exec (fun b a => if decide (RevivedClear b a) then b.step a else none) twoUsers
      twoSubscriptions).any (fun b => b.db.subscriptions.any (fun s => s.id = 1 && s.block = some (10000, 10002)) &&
        b.db.subscriptions.any (fun s => s.id = 2 && s.block = some (10003, 10005)))) = true := by
    decide +kernel
  obtain ⟨b, hb, hrows⟩ := (Option.any_eq_true _ _).mp hexec
  rw [Bool.and_eq_true, List.any_eq_true, List.any_eq_true] at hrows
  obtain ⟨⟨s, hs, hfirst⟩, s', hs', hsecond⟩ := hrows
  rw [Bool.and_eq_true, decide_eq_true_eq, decide_eq_true_eq] at hfirst hsecond
  have hrun := exec_guarded (G := RevivedClear) (g := fun b a => decide (RevivedClear b a))
    (fun _ _ h => of_decide_eq_true h) hb
  have hne : s.id ≠ s'.id := by
    rw [hfirst.1, hsecond.1]
    decide
  exact ⟨b, s, hs, s', hs', hfirst.2, hsecond.2,
    (active_blocks_disjoint twoUsers_start hrun).1 s hs s' hs' hne⟩

/-- The subscription of the first user expires, the second user gets its block, and an
extension brings the first one back. -/
def expiredAndExtended : List SubscriptionAct :=
  [assignPlan 1, .tick (31 * oneDay), .expire 1 0, assignPlan 2, .extend 1 30 0]

theorem extended_block_shared :
    ¬ ∀ (b₀ b : SubscriptionState) (as : List SubscriptionAct), b₀.Start → Run subscriptionSteps b₀ as b →
      ∀ s ∈ b.db.subscriptions, ∀ s' ∈ b.db.subscriptions, s.id ≠ s'.id →
        s.isActiveAt b.now = true → s'.isActiveAt b.now = true → Lease.Apart s.block s'.block := by
  intro hclaim
  have hexec : ((exec SubscriptionState.step twoUsers expiredAndExtended).any (fun b =>
      b.db.subscriptions.any (fun s => b.db.subscriptions.any (fun s' => decide (s.id ≠ s'.id) &&
        (s.isActiveAt b.now && (s'.isActiveAt b.now && decide (¬ Lease.Apart s.block s'.block))))))) = true := by
    decide +kernel
  obtain ⟨b, hb, hrows⟩ := (Option.any_eq_true _ _).mp hexec
  obtain ⟨s, hs, hrow⟩ := List.any_eq_true.mp hrows
  obtain ⟨s', hs', hpair⟩ := List.any_eq_true.mp hrow
  simp only [Bool.and_eq_true, decide_eq_true_eq] at hpair
  obtain ⟨hne, hactive, hactive', hshared⟩ := hpair
  exact hshared (hclaim twoUsers b expiredAndExtended twoUsers_start (exec_run hb) s hs s' hs' hne hactive
    hactive')

end ForwardX.Panel
