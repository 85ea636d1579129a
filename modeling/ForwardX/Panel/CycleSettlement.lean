import ForwardX.Panel.NextReset

/- The settlement of traffic cycles over whole runs. A recharge and the purchase of an add-on
   settle what is due before they move a boundary. A renewal, an extension and a new expiry
   date compute the next boundary from now on, whether the stored one was settled or not. -/
namespace ForwardX.Panel
open Transition

/-! ## The invariant -/

/-- No reset of the user and no add-on of the subscription reaches the boundary yet. -/
structure Unreached (db : Db) (s : UserSubscription) (boundary : Int) : Prop where
  users : ∀ u ∈ db.users, u.id = s.userId → ∀ t ∈ u.lastAutoTrafficReset, t < boundary
  resets : ∀ r ∈ cycleResets db.log, r.1 = s.userId → r.2 < boundary
  addons : ∀ a ∈ db.trafficAddons, a.subscriptionId = s.id → a.createdAt < boundary

/-- Nothing was reset or bought later than now. -/
structure Past (b : SubscriptionState) : Prop where
  users : ∀ u ∈ b.db.users, ∀ t ∈ u.lastAutoTrafficReset, t ≤ toDriver b.now
  resets : ∀ r ∈ cycleResets b.db.log, r.2 ≤ toDriver b.now
  addons : ∀ a ∈ b.db.trafficAddons, a.createdAt ≤ toDriver b.now

structure CycleInv (b : SubscriptionState) : Prop where
  ids : (b.db.subscriptions.map (·.id)).Nodup
  users : (b.db.users.map (·.id)).Nodup
  past : Past b
  ends : ∀ s ∈ b.db.subscriptions, s.EndsBefore
  unreached : ∀ s ∈ b.db.subscriptions, s.isActiveAt b.now = true → (∃ u ∈ b.db.users, u.id = s.userId) →
    ∀ n ∈ s.nextTrafficResetAt, Unreached b.db s n

/-- A step of the database at the time `b.now`: what it resets or adds is of one user, of whom
no active subscription keeps its boundary. -/
structure Advances (b b' : SubscriptionState) (settled : Option Nat) : Prop where
  now : b.now ≤ b'.now
  ids : (b'.db.subscriptions.map (·.id)).Nodup
  users : b'.db.users.map (·.id) = b.db.users.map (·.id)
  userResets : ∀ u' ∈ b'.db.users, ∀ t ∈ u'.lastAutoTrafficReset,
    (∃ u ∈ b.db.users, u.id = u'.id ∧ t ∈ u.lastAutoTrafficReset) ∨
      (t = toDriver b.now ∧ settled = some u'.id)
  resets : ∀ r ∈ cycleResets b'.db.log, r ∈ cycleResets b.db.log ∨ (r.2 = toDriver b.now ∧ settled = some r.1)
  addons : ∀ a' ∈ b'.db.trafficAddons,
    (∃ a ∈ b.db.trafficAddons, a.subscriptionId = a'.subscriptionId ∧ a.createdAt = a'.createdAt) ∨
      (a'.createdAt = toDriver b.now ∧
        ∀ s' ∈ b'.db.subscriptions, s'.id = a'.subscriptionId → settled = some s'.userId)
  rows : ∀ s' ∈ b'.db.subscriptions, s'.Upcoming b.now ∨
    ∃ s ∈ b.db.subscriptions, s.id = s'.id ∧ s.userId = s'.userId ∧
      s.nextTrafficResetAt = s'.nextTrafficResetAt ∧ s.expiresAt = s'.expiresAt ∧
      (s'.isActiveAt b.now = true → s.isActiveAt b.now = true ∧
        ((∃ u ∈ b.db.users, u.id = s'.userId) → settled ≠ some s'.userId))

variable {b b' : SubscriptionState}

theorem CycleInv.advance (h : CycleInv b) {settled : Option Nat} (hstep : Advances b b' settled) : CycleInv b' := by
  have htime : toDriver b.now ≤ toDriver b'.now := by
    have := hstep.now
    unfold toDriver
    omega
  refine ⟨hstep.ids, hstep.users ▸ h.users, ⟨?_, ?_, ?_⟩, ?_, ?_⟩
  · intro u' hu' t ht
    rcases hstep.userResets u' hu' t ht with ⟨u, hu, -, ht'⟩ | ⟨rfl, -⟩
    · exact (h.past.users u hu t ht').trans htime
    · exact htime
  · intro r hr
    rcases hstep.resets r hr with hr | ⟨hr, -⟩
    · exact (h.past.resets r hr).trans htime
    · exact hr ▸ htime
  · intro a' ha'
    rcases hstep.addons a' ha' with ⟨a, ha, -, hcreated⟩ | ⟨hcreated, -⟩
    · exact hcreated ▸ (h.past.addons a ha).trans htime
    · exact hcreated ▸ htime
  · intro s' hs' n hn e he
    rcases hstep.rows s' hs' with hnew | ⟨s, hs, -, -, hnext, hexp, -⟩
    · exact (hnew n hn).2 e he
    · exact h.ends s hs n (hnext ▸ hn) e (hexp ▸ he)
  · intro s' hs' hactive huser n hn
    rcases hstep.rows s' hs' with hnew | ⟨s, hs, hid, huserId, hnext, -, hkept⟩
    · -- everything that happened so far happened before the new boundary
      have hlt := (hnew n hn).1
      refine ⟨fun u' hu' _ t ht => ?_, fun r hr _ => ?_, fun a' ha' _ => ?_⟩
      · rcases hstep.userResets u' hu' t ht with ⟨u, hu, -, ht'⟩ | ⟨rfl, -⟩
        · exact lt_of_le_of_lt (h.past.users u hu t ht') hlt
        · exact hlt
      · rcases hstep.resets r hr with hr | ⟨hr, -⟩
        · exact lt_of_le_of_lt (h.past.resets r hr) hlt
        · exact hr ▸ hlt
      · rcases hstep.addons a' ha' with ⟨a, ha, -, hcreated⟩ | ⟨hcreated, -⟩
        · exact hcreated ▸ lt_of_le_of_lt (h.past.addons a ha) hlt
        · exact hcreated ▸ hlt
    · obtain ⟨hbefore, hother⟩ := hkept (isActiveAt_later hstep.now hactive)
      -- the user existed before the step
      have huser₀ : ∃ u ∈ b.db.users, u.id = s'.userId := by
        obtain ⟨u', hu', hid'⟩ := huser
        have hmem : u'.id ∈ b.db.users.map (·.id) := hstep.users ▸ List.mem_map_of_mem hu'
        obtain ⟨u, hu, heq⟩ := List.mem_map.mp hmem
        exact ⟨u, hu, heq.trans hid'⟩
      have hne := hother huser₀
      obtain ⟨husers, hresets, haddons⟩ := h.unreached s hs hbefore (huserId ▸ huser₀) n (hnext ▸ hn)
      refine ⟨fun u' hu' hu't t ht => ?_, fun r hr hrt => ?_, fun a' ha' hat => ?_⟩
      · rcases hstep.userResets u' hu' t ht with ⟨u, hu, huid, ht'⟩ | ⟨-, hset⟩
        · exact husers u hu (huid.trans (hu't.trans huserId.symm)) t ht'
        · exact absurd (hu't ▸ hset) hne
      · rcases hstep.resets r hr with hr | ⟨-, hset⟩
        · exact hresets r hr (hrt.trans huserId.symm)
        · exact absurd (hrt ▸ hset) hne
      · rcases hstep.addons a' ha' with ⟨a, ha, hasub, hcreated⟩ | ⟨-, hset⟩
        · exact hcreated ▸ haddons a ha (hasub.trans (hat.trans hid.symm))
        · exact absurd (hset s' hs' hat.symm) hne

/-! ## What a step preserves -/

theorem UsersKept.ids {l l' : List User} (h : UsersKept l l') : l'.map (·.id) = l.map (·.id) := by
  obtain ⟨f, rfl, hf⟩ := h
  rw [List.map_map]
  apply List.map_congr_left
  intro u _
  exact (hf u).1

/-- A row keeps its dates, and is active only when it was. -/
def KeptRow (now : Int) (s s' : UserSubscription) : Prop :=
  s.id = s'.id ∧ s.userId = s'.userId ∧ s.nextTrafficResetAt = s'.nextTrafficResetAt ∧
    s.expiresAt = s'.expiresAt ∧ (s'.isActiveAt now = true → s.isActiveAt now = true)

theorem KeptRow.refl (now : Int) (s : UserSubscription) : KeptRow now s s := ⟨rfl, rfl, rfl, rfl, id⟩

theorem Quiet.advances (h : Quiet b.db b'.db) (hnow : b.now ≤ b'.now) (hids : (b'.db.subscriptions.map (·.id)).Nodup)
    (hrows : ∀ s' ∈ b'.db.subscriptions, s'.Upcoming b.now ∨ ∃ s ∈ b.db.subscriptions, KeptRow b.now s s') :
    Advances b b' none := by
  refine ⟨hnow, hids, h.users.ids, ?_, ?_, ?_, ?_⟩
  · obtain ⟨f, hf, hsame⟩ := h.users
    rw [hf]
    intro u' hu' t ht
    obtain ⟨u, hu, rfl⟩ := List.mem_map.mp hu'
    obtain ⟨hid, -, -, hlast⟩ := hsame u
    exact .inl ⟨u, hu, hid.symm, hlast ▸ ht⟩
  · rw [h.resets]
    exact fun r hr => .inl hr
  · obtain ⟨f, hf, hsame⟩ := h.addons
    rw [hf]
    intro a' ha'
    obtain ⟨a, ha, rfl⟩ := List.mem_map.mp ha'
    obtain ⟨⟨-, -, hsub, hcreated⟩, -⟩ := hsame a
    exact .inl ⟨a, ha, hsub.symm, hcreated.symm⟩
  · intro s' hs'
    refine (hrows s' hs').imp id ?_
    rintro ⟨s, hs, hid, huser, hnext, hexp, hactive⟩
    exact ⟨s, hs, hid, huser, hnext, hexp, fun hs' => ⟨hactive hs', fun _ => nofun⟩⟩

/-- An update of one row, which gets a boundary that is to come or keeps what it had. -/
theorem Quiet.advances_set (h : Quiet b.db b'.db) (hnow : b'.now = b.now) (hids : (b.db.subscriptions.map (·.id)).Nodup)
    {id : Nat} {f : UserSubscription → UserSubscription}
    (hsubs : b'.db.subscriptions = Rows.set (·.id) b.db.subscriptions id f) (hid : ∀ s, (f s).id = s.id)
    (hf : ∀ s ∈ b.db.subscriptions, s.id = id → (f s).Upcoming b.now ∨ KeptRow b.now s (f s)) : Advances b b' none := by
  apply h.advances (Int.le_of_eq hnow.symm)
  · rw [hsubs, Rows.keys_set hid]
    exact hids
  · rw [hsubs]
    intro s' hs'
    rcases Rows.mem_set.mp hs' with ⟨s, hs, hk, rfl⟩ | ⟨hs, -⟩
    · exact (hf s hs hk).imp (fun h => h) (fun h => ⟨s, hs, h⟩)
    · exact .inr ⟨s', hs, .refl _ _⟩

theorem CycleInv.recharge_advances (h : CycleInv b) (userId : Nat) :
    Advances b { b with db := rechargeSubscriptionTrafficCyclesForUser b.db userId b.now } (some userId) := by
  have husers : ∀ u' ∈ (rechargeSubscriptionTrafficCyclesForUser b.db userId b.now).users,
      ∀ t ∈ u'.lastAutoTrafficReset, (∃ u ∈ b.db.users, u.id = u'.id ∧ t ∈ u.lastAutoTrafficReset) ∨
        (t = toDriver b.now ∧ some userId = some u'.id) := by
    intro u' hu' t ht
    rcases recharge_log b.db userId b.now with ⟨heq, -⟩ | ⟨_, heq, -⟩
    · exact .inl ⟨u', heq ▸ hu', rfl, ht⟩
    · rw [heq] at hu'
      rcases Rows.mem_set.mp hu' with ⟨u, hu, hk, rfl⟩ | ⟨hu', -⟩
      · exact .inr ⟨(Option.some.inj ht).symm, congrArg some hk.symm⟩
      · exact .inl ⟨u', hu', rfl, ht⟩
  have hkeys : (rechargeSubscriptionTrafficCyclesForUser b.db userId b.now).users.map (·.id) =
      b.db.users.map (·.id) := by
    rcases recharge_log b.db userId b.now with ⟨heq, -⟩ | ⟨_, heq, -⟩
    · rw [heq]
    · rw [heq]
      apply Rows.keys_set
      intro u
      rfl
  have hresets : ∀ r ∈ cycleResets (rechargeSubscriptionTrafficCyclesForUser b.db userId b.now).log,
      r ∈ cycleResets b.db.log ∨ (r.2 = toDriver b.now ∧ some userId = some r.1) := by
    intro r hr
    rcases recharge_log b.db userId b.now with ⟨-, heq⟩ | ⟨_, -, heq⟩
    · exact .inl (heq ▸ hr)
    · rw [heq, cycleResets_concat] at hr
      rcases List.mem_append.mp hr with hr | hr
      · exact .inl hr
      · obtain rfl := List.mem_singleton.mp hr
        exact .inr ⟨rfl, rfl⟩
  cases huser : getUserById b.db userId with
  | none =>
    have hsame : rechargeSubscriptionTrafficCyclesForUser b.db userId b.now = b.db := by
      unfold rechargeSubscriptionTrafficCyclesForUser
      rw [huser]
    refine ⟨Int.le_refl _, ?_, hkeys, husers, hresets, ?_, ?_⟩
    · rw [hsame]
      exact h.ids
    · rw [hsame]
      exact fun a ha => .inl ⟨a, ha, rfl, rfl⟩
    · rw [hsame]
      intro s hs
      refine .inr ⟨s, hs, rfl, rfl, rfl, rfl, fun hactive => ⟨hactive, ?_⟩⟩
      rintro ⟨u, hu, hid⟩ heq
      exact Rows.find_eq_none.mp huser u hu (hid.trans (Option.some.inj heq).symm)
  | some user =>
    have hid : user.id = userId := Rows.key_of_find huser
    have hsubs := recharge_subscriptions h.ids huser b.now
    obtain ⟨f, haddons, hf⟩ := recharge_trafficAddons h.ids huser b.now
    refine ⟨Int.le_refl _, ?_, hkeys, husers, hresets, ?_, ?_⟩
    · rw [hsubs, List.map_map]
      convert h.ids using 1
      apply List.map_congr_left
      intro s _
      obtain ⟨next, last, hrow⟩ := rechargedRow_eq b.db user b.now s
      rw [Function.comp_apply, hrow]
    · rw [haddons]
      intro a' ha'
      obtain ⟨a, ha, rfl⟩ := List.mem_map.mp ha'
      obtain ⟨⟨-, -, hsub, hcreated⟩, -⟩ := hf a
      exact .inl ⟨a, ha, hsub.symm, hcreated.symm⟩
    · rw [hsubs]
      intro s' hs'
      obtain ⟨s, hs, rfl⟩ := List.mem_map.mp hs'
      by_cases hmine : s.isActiveAt b.now = true ∧ s.userId = user.id
      · exact .inl (rechargedRow_upcoming b.db hmine.1 hmine.2)
      · have hsame : rechargedRow b.db user b.now s = s := by
          unfold rechargedRow
          rw [if_neg]
          simpa using hmine
        rw [hsame]
        refine .inr ⟨s, hs, rfl, rfl, rfl, rfl, fun hactive => ⟨hactive, fun _ heq => ?_⟩⟩
        exact hmine ⟨hactive, (Option.some.inj heq).symm.trans hid.symm⟩

theorem CycleInv.purchase_advances (h : CycleInv b) (userId addonId : Nat) (subscriptionId : Option Nat)
    (description : String) (limit : Nat) :
    Advances b { b with db := (purchaseTrafficAddonWithBalance b.db userId addonId subscriptionId description
      limit b.now).2 } (some userId) := by
  have hsettled := h.recharge_advances userId
  unfold purchaseTrafficAddonWithBalance
  dsimp only
  split
  · exact hsettled
  · rename_i row db' hinsert
    obtain ⟨s, hs, -, huser, hsub, -, hcreated, ⟨kept, hkept, haddons⟩, hsubs, husers, hlog⟩ :=
      insertPurchasedAddon_spec hinsert
    refine ⟨Int.le_refl _, ?_, ?_, ?_, ?_, ?_, ?_⟩
    · rw [hsubs]
      exact hsettled.ids
    · rw [husers]
      refine (Rows.keys_set ?_).trans hsettled.users
      intro u
      rfl
    · rw [husers]
      intro u' hu'
      rcases Rows.mem_set.mp hu' with ⟨u, hu, -, rfl⟩ | ⟨hu', -⟩
      · exact hsettled.userResets u hu
      · exact hsettled.userResets u' hu'
    · rw [hlog]
      exact hsettled.resets
    · rw [haddons, hsubs]
      intro a' ha'
      rcases List.mem_append.mp ha' with ha' | ha'
      · obtain ⟨f, rfl, hf⟩ := hkept
        obtain ⟨a, ha, rfl⟩ := List.mem_map.mp ha'
        obtain ⟨⟨-, -, hasub, hacreated⟩, -⟩ := hf a
        rw [hasub, hacreated]
        exact hsettled.addons a ha
      · -- the subscription of the new add-on is one of the user
        obtain rfl := List.mem_singleton.mp ha'
        refine .inr ⟨hcreated, fun s' hs' hid => ?_⟩
        rw [Rows.eq_of_key hsettled.ids hs' hs (hid.trans hsub), huser]
    · rw [hsubs]
      exact hsettled.rows

/-! ## The effect of a step -/

/-- The order of the call was applied before. -/
def alreadyApplied (b : SubscriptionState) (input : ApplyInput) : Bool :=
  input.paidWith.any (fun no =>
    (checkPaymentOrder b.db input no).toOption.any (fun o => (existingSubscription b.db o).isSome))

/-- The subscriptions whose next boundary a step computes. -/
def reschedules (b : SubscriptionState) : SubscriptionAct → UserSubscription → Bool
  | .extend id _ _, s => s.id = id
  | .setExpiresAt id _ _, s => s.id = id
  | .apply input, s => !alreadyApplied b input &&
      s.id = input.targetSubscriptionId.getD (Rows.fresh (·.id) b.db.subscriptions)
  | .recharge userId, s => s.userId = userId && s.isActiveAt b.now && (getUserById b.db userId).isSome
  | .purchase userId _ _ _ _, s => s.userId = userId && s.isActiveAt b.now && (getUserById b.db userId).isSome
  | _, _ => false

structure KeepsRows (b b' : SubscriptionState) : Prop where
  quiet : Quiet b.db b'.db
  now : b.now ≤ b'.now
  rows : ∃ f, b'.db.subscriptions = b.db.subscriptions.map f ∧ ∀ s, KeptRow b.now s (f s)

/-- The row of a key gets a boundary that is to come; the one it had was not due. -/
structure Rewrites (b b' : SubscriptionState) (id : Nat) : Prop where
  quiet : Quiet b.db b'.db
  now : b'.now = b.now
  rows : ∃ f, b'.db.subscriptions = Rows.set (·.id) b.db.subscriptions id f ∧ (∀ s, (f s).id = s.id) ∧
    ∀ s ∈ b.db.subscriptions, s.id = id → Settled b s ∧ (f s).Upcoming b.now

structure Grants (b b' : SubscriptionState) (s : UserSubscription) : Prop where
  quiet : Quiet b.db b'.db
  now : b'.now = b.now
  rows : b'.db.subscriptions = b.db.subscriptions ++ [s]
  fresh : s.id = Rows.fresh (·.id) b.db.subscriptions
  upcoming : s.Upcoming b.now

/-- The settlement of a user, after which an add-on may be inserted. -/
structure SettlesUser (b b' : SubscriptionState) (userId : Nat) : Prop where
  advances : Advances b b' (some userId)
  now : b'.now = b.now
  rows : b'.db.subscriptions = (rechargeSubscriptionTrafficCyclesForUser b.db userId b.now).subscriptions
  log : b'.db.log = (rechargeSubscriptionTrafficCyclesForUser b.db userId b.now).log
  users : ∀ u' ∈ b'.db.users, ∃ u ∈ (rechargeSubscriptionTrafficCyclesForUser b.db userId b.now).users,
    u.id = u'.id ∧ u.trafficUsed = u'.trafficUsed
  addons : ∃ kept, AddonsKept (rechargeSubscriptionTrafficCyclesForUser b.db userId b.now).trafficAddons kept ∧
    (b'.db.trafficAddons = kept ∨ ∃ row, b'.db.trafficAddons = kept ++ [row] ∧ row.status = .active ∧
      row.createdAt = toDriver b.now)

section
variable {b b' : SubscriptionState} (h : CycleInv b)
include h

theorem CycleInv.extend_rewrites {id : Nat} {days : Int} {limit : Nat} {c : ExpiryChange} {db' : Db}
    (hmay : Reschedulable b (.extend id days limit))
    (hr : extendUserSubscription b.db id days limit b.now = .ok (c, db')) :
    Rewrites b { b with db := db' } id := by
  obtain ⟨s, cur, hfind, -, -, hcur, hquiet, hsubs⟩ := extend_spec hr
  refine ⟨hquiet, rfl, _, hsubs, fun _ => rfl, fun s' hs' hk => ⟨(hmay s' hs' hk).1, ?_⟩⟩
  obtain rfl : s' = s :=
    Rows.eq_of_key h.ids hs' (Rows.mem_of_find hfind) (hk.trans (Rows.key_of_find hfind).symm)
  apply expiryRow_upcoming
  intro r hnext
  exact extendedTrafficReset_between hcur (h.ends s' hs') (hmay s' hs' hk) hnext

theorem CycleInv.setExpiresAt_rewrites {id : Nat} {expiresAt : Option Int} {limit : Nat} {c : ExpiryChange}
    {db' : Db} (hmay : Reschedulable b (.setExpiresAt id expiresAt limit))
    (hr : setUserSubscriptionExpiresAt b.db id expiresAt limit b.now = .ok (c, db')) :
    Rewrites b { b with db := db' } id := by
  obtain ⟨s, hfind, -, hquiet, hsubs⟩ := setExpiresAt_spec hr
  refine ⟨hquiet, rfl, _, hsubs, fun _ => rfl, fun s' hs' hk => ⟨(hmay s' hs' hk).1, ?_⟩⟩
  obtain rfl : s' = s :=
    Rows.eq_of_key h.ids hs' (Rows.mem_of_find hfind) (hk.trans (Rows.key_of_find hfind).symm)
  apply expiryRow_upcoming
  intro r hnext
  split at hnext
  · cases hnext
  · rename_i hpast
    exact rescheduledTrafficReset_between (Bool.eq_false_iff.mpr hpast) (hmay s' hs' hk) hnext

theorem CycleInv.renew_rewrites {input : ApplyInput} {plan : SubscriptionPlan} {id : Nat} {s : UserSubscription}
    {r : ApplyResult} {db' : Db} (hmay : Reschedulable b (.apply input))
    (hplan : usablePlan b.db input.planId = .ok plan) (htarget : input.targetSubscriptionId = some id)
    (hs : renewalTarget b.db input id = .ok s)
    (hr : renewSubscription b.db input plan s b.now = .ok (r, db')) :
    Rewrites b { b with db := db' } id := by
  obtain ⟨block, -, hquiet, hsubs⟩ := renew_spec hr
  obtain ⟨hfind, -, huser, -⟩ := renewalTarget_spec hs
  have hid : s.id = id := Rows.key_of_find hfind
  rw [hid] at hsubs
  have hrestart : ∀ s' ∈ b.db.subscriptions, s'.id = id → MayRestart b plan.trafficLimit s' :=
    fun s' hs' hk => (hmay plan (usablePlan_spec hplan)).2 s' hs' (hk ▸ htarget)
  refine ⟨hquiet, rfl, _, hsubs, fun _ => rfl, fun s' hs' hk => ⟨(hrestart s' hs' hk).1, ?_⟩⟩
  obtain rfl : s' = s := Rows.eq_of_key h.ids hs' (Rows.mem_of_find hfind) (hk.trans hid.symm)
  apply upcoming_of_stored rfl rfl
  intro r hnext
  exact renewedTrafficReset_between huser (h.ends s' hs') (hrestart s' hs' hk) hnext

omit h in
theorem grant_grants {input : ApplyInput} {plan : SubscriptionPlan} {order : Option PaymentOrder}
    {r : ApplyResult} {db' : Db} (hmay : Reschedulable b (.apply input))
    (hplan : usablePlan b.db input.planId = .ok plan) (htarget : input.targetSubscriptionId = none)
    (hr : grantSubscription b.db input plan order b.now = .ok (r, db')) :
    ∃ s, Grants b { b with db := db' } s := by
  obtain ⟨block, -, hquiet, hsubs⟩ := grant_spec hr
  refine ⟨_, hquiet, rfl, hsubs, rfl, ?_⟩
  apply upcoming_of_stored rfl rfl
  intro r hnext
  exact grantedTrafficReset_between ((hmay plan (usablePlan_spec hplan)).1 htarget) hnext

theorem CycleInv.recharge_settles (userId : Nat) :
    SettlesUser b { b with db := rechargeSubscriptionTrafficCyclesForUser b.db userId b.now } userId :=
  ⟨h.recharge_advances userId, rfl, rfl, rfl, fun u hu => ⟨u, hu, rfl, rfl⟩, _, .refl _, .inl rfl⟩

theorem CycleInv.purchase_settles (userId addonId : Nat) (subscriptionId : Option Nat) (description : String)
    (limit : Nat) :
    SettlesUser b { b with db := (purchaseTrafficAddonWithBalance b.db userId addonId subscriptionId description
      limit b.now).2 } userId := by
  have hadvances := h.purchase_advances userId addonId subscriptionId description limit
  have hsettled := h.recharge_settles userId
  unfold purchaseTrafficAddonWithBalance at hadvances ⊢
  dsimp only at hadvances ⊢
  split at hadvances
  · exact hsettled
  · rename_i row db' hinsert
    obtain ⟨_, -, -, -, -, hstatus, hcreated, ⟨kept, hkept, haddons⟩, hsubs, husers, hlog⟩ :=
      insertPurchasedAddon_spec hinsert
    refine ⟨hadvances, rfl, hsubs, hlog, ?_, kept, hkept, .inr ⟨row, haddons, hstatus, hcreated⟩⟩
    rw [husers]
    intro u' hu'
    rcases Rows.mem_set.mp hu' with ⟨u, hu, -, rfl⟩ | ⟨hu', -⟩
    · exact ⟨u, hu, rfl, rfl⟩
    · exact ⟨u', hu', rfl, rfl⟩

/-- What a step does: the rows keep their dates, or one is computed anew or added, or a user is
settled. -/
theorem CycleInv.step_effect {a : SubscriptionAct} (hmay : Reschedulable b a) (hstep : b.step a = some b') :
    (KeepsRows b b' ∧ ∀ s', reschedules b a s' = false) ∨
    (∃ id, Rewrites b b' id ∧ ∀ s', reschedules b a s' = true → s'.id = id) ∨
    (∃ s, Grants b b' s ∧ ∀ s', reschedules b a s' = true → s'.id = s.id) ∨
    (∃ userId, SettlesUser b b' userId ∧ ∀ s', reschedules b a s' = true →
      s'.userId = userId ∧ s'.isActiveAt b.now = true ∧ ∃ user, getUserById b.db userId = some user) := by
  have hmine : ∀ {userId : Nat} {s : UserSubscription},
      (s.userId = userId && s.isActiveAt b.now && (getUserById b.db userId).isSome) = true →
      s.userId = userId ∧ s.isActiveAt b.now = true ∧ ∃ user, getUserById b.db userId = some user := by
    intro userId s hs
    rw [Bool.and_eq_true, Bool.and_eq_true, decide_eq_true_eq] at hs
    exact ⟨hs.1.1, hs.1.2, Option.isSome_iff_exists.mp hs.2⟩
  cases a with
  | tick elapsed =>
    obtain rfl := Option.some.inj hstep
    refine .inl ⟨⟨.refl _, ?_, id, (List.map_id _).symm, KeptRow.refl _⟩, fun _ => rfl⟩
    dsimp only
    omega
  | traffic userId bytes =>
    obtain rfl := Option.some.inj hstep
    exact .inl ⟨⟨⟨.update fun _ => ⟨rfl, rfl, rfl, rfl⟩, .refl _, rfl⟩, Int.le_refl _, id,
      (List.map_id _).symm, KeptRow.refl _⟩, fun _ => rfl⟩
  | edit e =>
    obtain rfl := Option.some.inj hstep
    exact .inl ⟨⟨.rest (.refl _) rfl rfl rfl, Int.le_refl _, id, (List.map_id _).symm, KeptRow.refl _⟩,
      fun _ => rfl⟩
  | apply input =>
    obtain ⟨⟨r, db'⟩, hr, rfl⟩ := Option.map_eq_some_iff.mp hstep
    rcases apply_cases (toOption_eq_some hr) with
      ⟨rfl, no, order, existing, hpaid, hcheck, hexisting, -⟩ | ⟨order, plan, hplan, -, hcase⟩
    · refine .inl ⟨⟨.refl _, Int.le_refl _, id, (List.map_id _).symm, KeptRow.refl _⟩, fun s' => ?_⟩
      have happlied : alreadyApplied b input = true := by
        unfold alreadyApplied
        rw [hpaid, Option.any_some, hcheck]
        simp only [Except.toOption, Option.any_some, hexisting, Option.isSome_some]
      unfold reschedules
      dsimp only
      rw [happlied, Bool.not_true, Bool.false_and]
    · rcases hcase with ⟨htarget, hgrant⟩ | ⟨id, s, htarget, hs, hrenew⟩
      · obtain ⟨s, hs⟩ := grant_grants hmay hplan htarget hgrant
        refine .inr (.inr (.inl ⟨s, hs, fun s' hs' => ?_⟩))
        unfold reschedules at hs'
        dsimp only at hs'
        rw [htarget, Bool.and_eq_true] at hs'
        exact (of_decide_eq_true hs'.2).trans hs.fresh.symm
      · refine .inr (.inl ⟨id, h.renew_rewrites hmay hplan htarget hs hrenew, fun s' hs' => ?_⟩)
        unfold reschedules at hs'
        dsimp only at hs'
        rw [htarget, Bool.and_eq_true] at hs'
        exact of_decide_eq_true hs'.2
  | extend id days limit =>
    obtain ⟨⟨c, db'⟩, hr, rfl⟩ := Option.map_eq_some_iff.mp hstep
    exact .inr (.inl ⟨id, h.extend_rewrites hmay (toOption_eq_some hr), fun _ hs => of_decide_eq_true hs⟩)
  | setExpiresAt id expiresAt limit =>
    obtain ⟨⟨c, db'⟩, hr, rfl⟩ := Option.map_eq_some_iff.mp hstep
    exact .inr (.inl ⟨id, h.setExpiresAt_rewrites hmay (toOption_eq_some hr),
      fun _ hs => of_decide_eq_true hs⟩)
  | cancel id limit =>
    obtain ⟨db', hr, rfl⟩ := Option.map_eq_some_iff.mp hstep
    obtain ⟨hquiet, hsubs⟩ := cancel_spec (toOption_eq_some hr)
    refine .inl ⟨⟨hquiet, Int.le_refl _, _, hsubs, fun s => ?_⟩, fun _ => rfl⟩
    split
    · exact ⟨rfl, rfl, rfl, rfl, nofun⟩
    · exact .refl _ _
  | expire userId limit =>
    obtain rfl := Option.some.inj hstep
    obtain ⟨hquiet, hsubs⟩ := expire_spec b.db userId limit b.now
    refine .inl ⟨⟨hquiet, Int.le_refl _, _, hsubs, fun s => ?_⟩, fun _ => rfl⟩
    split
    · exact ⟨rfl, rfl, rfl, rfl, nofun⟩
    · exact .refl _ _
  | recharge userId =>
    obtain rfl := Option.some.inj hstep
    exact .inr (.inr (.inr ⟨userId, h.recharge_settles userId, fun _ => hmine⟩))
  | purchase userId addonId subscriptionId description limit =>
    obtain rfl := Option.some.inj hstep
    exact .inr (.inr (.inr ⟨userId, h.purchase_settles userId addonId subscriptionId description limit,
      fun _ => hmine⟩))

theorem KeepsRows.ids (hkeeps : KeepsRows b b') : (b'.db.subscriptions.map (·.id)).Nodup := by
  obtain ⟨f, hsubs, hf⟩ := hkeeps.rows
  rw [hsubs, List.map_map]
  convert h.ids using 1
  apply List.map_congr_left
  intro s _
  exact (hf s).1.symm

theorem CycleInv.step {a : SubscriptionAct} (hmay : Reschedulable b a) (hstep : b.step a = some b') :
    CycleInv b' := by
  rcases h.step_effect hmay hstep with ⟨hkeeps, -⟩ | ⟨id, hrewrites, -⟩ | ⟨s, hgrants, -⟩ | ⟨userId, hsettles, -⟩
  · apply @CycleInv.advance b b' h none
    apply hkeeps.quiet.advances hkeeps.now (KeepsRows.ids h hkeeps)
    obtain ⟨f, hsubs, hf⟩ := hkeeps.rows
    rw [hsubs]
    intro s' hs'
    obtain ⟨s, hs, rfl⟩ := List.mem_map.mp hs'
    exact .inr ⟨s, hs, hf s⟩
  · obtain ⟨f, hsubs, hid, hf⟩ := hrewrites.rows
    apply @CycleInv.advance b b' h none
    apply hrewrites.quiet.advances_set hrewrites.now h.ids hsubs hid
    exact fun s hs hk => .inl (hf s hs hk).2
  · apply @CycleInv.advance b b' h none
    apply hgrants.quiet.advances (Int.le_of_eq hgrants.now.symm)
    · rw [hgrants.rows]
      exact Rows.nodup_concat_fresh h.ids hgrants.fresh
    · rw [hgrants.rows]
      intro s' hs'
      rcases List.mem_append.mp hs' with hs' | hs'
      · exact .inr ⟨s', hs', .refl _ _⟩
      · obtain rfl := List.mem_singleton.mp hs'
        exact .inl hgrants.upcoming
  · exact h.advance hsettles.advances

end

/-! ## Boundaries and their settlement -/

def resetsSince (log : List Event) (userId : Nat) (boundary : Int) : Nat :=
  (cycleResets log).countP (fun r => r.1 = userId && boundary ≤ r.2)

/-- A step that settles a boundary: it makes the one reset of the user since, and expires the
add-ons bought before. -/
structure SettledOnce (b b' : SubscriptionState) (s : UserSubscription) (boundary : Int) : Prop where
  before : resetsSince b.db.log s.userId boundary = 0
  after : resetsSince b'.db.log s.userId boundary = 1
  users : ∀ u ∈ b'.db.users, u.id = s.userId → u.trafficUsed = 0
  addons : ∀ a ∈ b'.db.trafficAddons, a.subscriptionId = s.id → (a.status = .active ↔ boundary ≤ a.createdAt)

/-- Add-ons that have expired stay so, and one that is added is active and bought now. -/
def AddonsFollow (b b' : SubscriptionState) : Prop :=
  ∃ kept, AddonsKept b.db.trafficAddons kept ∧ (b'.db.trafficAddons = kept ∨
    ∃ row, b'.db.trafficAddons = kept ++ [row] ∧ row.status = .active ∧ row.createdAt = toDriver b.now)

/-- What a step owes the boundaries: one that is due is replaced only by settling it, one that
is computed is still to come and lies before the expiry date, and the add-ons follow. -/
structure KeepsBoundaries (b : SubscriptionState) (a : SubscriptionAct) (b' : SubscriptionState) : Prop where
  settled : ∀ s ∈ b.db.subscriptions, 0 < subscriptionTrafficLimit b.db s →
    ∀ boundary ∈ s.nextTrafficResetAt, boundary ≤ toDriver b.now →
    ∀ s' ∈ b'.db.subscriptions, s'.id = s.id → s'.nextTrafficResetAt ≠ some boundary →
      SettledOnce b b' s boundary
  upcoming : ∀ s' ∈ b'.db.subscriptions, reschedules b a s' = true → s'.Upcoming b.now
  addons : AddonsFollow b b'

theorem resetsSince_eq_zero {db : Db} {s : UserSubscription} {boundary : Int} (h : Unreached db s boundary) :
    resetsSince db.log s.userId boundary = 0 := by
  unfold resetsSince
  rw [List.countP_eq_zero]
  intro r hr hreached
  rw [Bool.and_eq_true, decide_eq_true_eq, decide_eq_true_eq] at hreached
  have := h.resets r hr hreached.1
  omega

theorem recharge_kept {db : Db} (hids : (db.subscriptions.map (·.id)).Nodup) (userId : Nat) (now : Int) :
    AddonsKept db.trafficAddons (rechargeSubscriptionTrafficCyclesForUser db userId now).trafficAddons := by
  cases huser : getUserById db userId with
  | none =>
    unfold rechargeSubscriptionTrafficCyclesForUser
    rw [huser]
    exact .refl _
  | some user =>
    obtain ⟨f, haddons, hf⟩ := recharge_trafficAddons hids huser now
    refine ⟨f, haddons, fun a => ⟨(hf a).1, fun hexpired => ?_⟩⟩
    cases hstatus : (f a).status with
    | expired => rfl
    | active =>
      have hactive := ((hf a).2.mp hstatus).1
      rw [hexpired] at hactive
      cases hactive

section
variable {b b' : SubscriptionState} (h : CycleInv b)
include h

/-- The settlement of a user settles the due boundaries of his active subscriptions. -/
theorem CycleInv.settled_once {userId : Nat} (hsettles : SettlesUser b b' userId) {user : User}
    (huser : getUserById b.db userId = some user) {s : UserSubscription} (hs : s ∈ b.db.subscriptions)
    (hactive : s.isActiveAt b.now = true) (hmine : s.userId = userId) {boundary : Int}
    (hnext : s.nextTrafficResetAt = some boundary) (hdue : boundary ≤ toDriver b.now) :
    SettledOnce b b' s boundary := by
  have hid : user.id = userId := Rows.key_of_find huser
  have hmem : user ∈ b.db.users := Rows.mem_of_find huser
  have hunreached := h.unreached s hs hactive ⟨user, hmem, hid.trans hmine.symm⟩ boundary hnext
  have hcycle := @dueBoundary_of_stored b.db _ _ _ _ hactive (hmine.trans hid.symm) hnext hdue
  obtain ⟨reset, -, husers, hlog⟩ := recharge_resets h.ids huser hs hcycle
    (hunreached.users user hmem (hid.trans hmine.symm))
  have hbefore := resetsSince_eq_zero hunreached
  refine ⟨hbefore, ?_, ?_, ?_⟩
  · -- the step adds one reset, which is not before the boundary
    unfold resetsSince at hbefore ⊢
    rw [hsettles.log, hlog, cycleResets_concat, List.countP_append, hbefore]
    simp [cycleResets, hmine, hdue]
  · intro u hu huid
    obtain ⟨u', hu', hid', hused⟩ := hsettles.users u hu
    rw [husers] at hu'
    rcases Rows.mem_set.mp hu' with ⟨u₀, -, -, rfl⟩ | ⟨-, hne⟩
    · exact hused.symm
    · exact absurd (hid'.trans (huid.trans hmine)) hne
  · obtain ⟨f, haddons, hf⟩ := recharge_trafficAddons h.ids huser b.now
    obtain ⟨kept, ⟨g, hkept, hg⟩, hrows⟩ := hsettles.addons
    -- an add-on that was there before the step was bought before the boundary
    have hold : ∀ a ∈ kept, a.subscriptionId = s.id → a.status = .expired ∧ a.createdAt < boundary := by
      rw [hkept, haddons]
      intro a' ha' hsub
      obtain ⟨a₁, ha₁, rfl⟩ := List.mem_map.mp ha'
      obtain ⟨a, ha, rfl⟩ := List.mem_map.mp ha₁
      obtain ⟨⟨-, -, hsub₁, hcreated₁⟩, hactive₁⟩ := hf a
      obtain ⟨⟨-, -, hsub₂, hcreated₂⟩, hexpired₂⟩ := hg (f a)
      have hsub' : a.subscriptionId = s.id := by rw [← hsub₁, ← hsub₂, hsub]
      have hbought := hunreached.addons a ha hsub'
      refine ⟨hexpired₂ ?_, by rw [hcreated₂, hcreated₁]; exact hbought⟩
      cases hstatus : (f a).status with
      | expired => rfl
      | active =>
        have hlate := (hactive₁.mp hstatus).2 s hs hsub'.symm boundary hcycle
        omega
    have hsplit : ∀ a ∈ b'.db.trafficAddons, a ∈ kept ∨ (a.status = .active ∧ a.createdAt = toDriver b.now) := by
      rcases hrows with hsame | ⟨row, hadded, hstatus, hcreated⟩
      · rw [hsame]
        exact fun a ha => .inl ha
      · rw [hadded]
        intro a ha
        rcases List.mem_append.mp ha with ha | ha
        · exact .inl ha
        · obtain rfl := List.mem_singleton.mp ha
          exact .inr ⟨hstatus, hcreated⟩
    intro a ha hsub
    rcases hsplit a ha with ha | ⟨hstatus, hcreated⟩
    · obtain ⟨hexpired, hbought⟩ := hold a ha hsub
      rw [hexpired]
      constructor
      · nofun
      · omega
    · rw [hstatus, hcreated]
      exact ⟨fun _ => hdue, fun _ => rfl⟩

theorem CycleInv.replaced {a : SubscriptionAct} (hmay : Reschedulable b a) (hstep : b.step a = some b')
    {s s' : UserSubscription} (hs : s ∈ b.db.subscriptions) (hlimit : 0 < subscriptionTrafficLimit b.db s)
    {boundary : Int} (hnext : s.nextTrafficResetAt = some boundary) (hdue : boundary ≤ toDriver b.now)
    (hs' : s' ∈ b'.db.subscriptions) (hid : s'.id = s.id) (hreplaced : s'.nextTrafficResetAt ≠ some boundary) :
    SettledOnce b b' s boundary := by
  rcases h.step_effect hmay hstep with ⟨hkeeps, -⟩ | ⟨id, hrewrites, -⟩ | ⟨row, hgrants, -⟩ | ⟨userId, hsettles, -⟩
  · obtain ⟨f, hsubs, hf⟩ := hkeeps.rows
    rw [hsubs] at hs'
    obtain ⟨s₀, hs₀, rfl⟩ := List.mem_map.mp hs'
    obtain ⟨hid₀, -, hnext₀, -⟩ := hf s₀
    obtain rfl := Rows.eq_of_key h.ids hs₀ hs (hid₀.trans hid)
    exact absurd (hnext₀.symm.trans hnext) hreplaced
  · obtain ⟨f, hsubs, hfid, hf⟩ := hrewrites.rows
    rw [hsubs] at hs'
    rcases Rows.mem_set.mp hs' with ⟨s₀, hs₀, hk, rfl⟩ | ⟨hs', -⟩
    · -- the boundary of the row that is rewritten was not due
      obtain rfl := Rows.eq_of_key h.ids hs₀ hs ((hfid s₀).symm.trans hid)
      rcases (hf s₀ hs₀ hk).1 with hzero | hnot
      · omega
      · rw [(resetDue_iff s₀ b.now).mpr ⟨boundary, hnext, hdue⟩] at hnot
        cases hnot
    · obtain rfl := Rows.eq_of_key h.ids hs' hs hid
      exact absurd hnext hreplaced
  · rw [hgrants.rows] at hs'
    rcases List.mem_append.mp hs' with hs' | hs'
    · obtain rfl := Rows.eq_of_key h.ids hs' hs hid
      exact absurd hnext hreplaced
    · obtain rfl := List.mem_singleton.mp hs'
      have hlt : s.id < Rows.fresh (·.id) b.db.subscriptions := Rows.lt_fresh hs
      have hfresh := hgrants.fresh
      omega
  · rw [hsettles.rows] at hs'
    cases huser : getUserById b.db userId with
    | none =>
      unfold rechargeSubscriptionTrafficCyclesForUser at hs'
      rw [huser] at hs'
      obtain rfl := Rows.eq_of_key h.ids hs' hs hid
      exact absurd hnext hreplaced
    | some user =>
      rw [recharge_subscriptions h.ids huser] at hs'
      obtain ⟨s₀, hs₀, rfl⟩ := List.mem_map.mp hs'
      obtain ⟨next, last, hrow⟩ := rechargedRow_eq b.db user b.now s₀
      have hid₀ : s₀.id = s.id := by
        rw [hrow] at hid
        exact hid
      obtain rfl := Rows.eq_of_key h.ids hs₀ hs hid₀
      by_cases hmine : s₀.isActiveAt b.now = true ∧ s₀.userId = user.id
      · exact h.settled_once hsettles huser hs₀ hmine.1 (hmine.2.trans (Rows.key_of_find huser)) hnext hdue
      · unfold rechargedRow at hreplaced
        rw [if_neg (by simpa using hmine)] at hreplaced
        exact absurd hnext hreplaced

/-- What a step computes is still to come, and lies before the expiry date. -/
theorem CycleInv.upcoming {a : SubscriptionAct} (hmay : Reschedulable b a) (hstep : b.step a = some b')
    {s' : UserSubscription} (hs' : s' ∈ b'.db.subscriptions) (hwritten : reschedules b a s' = true) :
    s'.Upcoming b.now := by
  rcases h.step_effect hmay hstep with ⟨-, hnone⟩ | ⟨id, hrewrites, hid⟩ | ⟨row, hgrants, hid⟩ |
    ⟨userId, hsettles, hmine⟩
  · rw [hnone s'] at hwritten
    cases hwritten
  · obtain ⟨f, hsubs, -, hf⟩ := hrewrites.rows
    rw [hsubs] at hs'
    rcases Rows.mem_set.mp hs' with ⟨s, hs, hk, rfl⟩ | ⟨-, hne⟩
    · exact (hf s hs hk).2
    · exact absurd (hid s' hwritten) hne
  · have hkey := hid s' hwritten
    rw [hgrants.rows] at hs'
    rcases List.mem_append.mp hs' with hs' | hs'
    · have hlt : s'.id < Rows.fresh (·.id) b.db.subscriptions := Rows.lt_fresh hs'
      have hfresh := hgrants.fresh
      omega
    · obtain rfl := List.mem_singleton.mp hs'
      exact hgrants.upcoming
  · obtain ⟨huserId, hactive, user, huser⟩ := hmine s' hwritten
    rw [hsettles.rows, recharge_subscriptions h.ids huser] at hs'
    obtain ⟨s, hs, rfl⟩ := List.mem_map.mp hs'
    obtain ⟨next, last, hrow⟩ := rechargedRow_eq b.db user b.now s
    rw [hrow] at huserId hactive
    exact rechargedRow_upcoming b.db hactive (huserId.trans (Rows.key_of_find huser).symm)

theorem CycleInv.addonsFollow {a : SubscriptionAct} (hmay : Reschedulable b a) (hstep : b.step a = some b') :
    AddonsFollow b b' := by
  rcases h.step_effect hmay hstep with ⟨hkeeps, -⟩ | ⟨id, hrewrites, -⟩ | ⟨row, hgrants, -⟩ | ⟨userId, hsettles, -⟩
  · exact ⟨_, hkeeps.quiet.addons, .inl rfl⟩
  · exact ⟨_, hrewrites.quiet.addons, .inl rfl⟩
  · exact ⟨_, hgrants.quiet.addons, .inl rfl⟩
  · obtain ⟨kept, hkept, hrows⟩ := hsettles.addons
    exact ⟨kept, (recharge_kept h.ids userId b.now).trans hkept, hrows⟩

end

/-! ## Runs -/

theorem SubscriptionState.Start.cycleInv (h : b.Start) : CycleInv b := by
  have hresets : cycleResets b.db.log = [] := by
    rw [h.log]
    rfl
  refine ⟨?_, h.users, ⟨h.resets, ?_, ?_⟩, ?_, ?_⟩
  · rw [h.subscriptions]
    exact List.nodup_nil
  · rw [hresets]
    exact List.forall_mem_nil _
  · rw [h.trafficAddons]
    exact List.forall_mem_nil _
  · rw [h.subscriptions]
    exact List.forall_mem_nil _
  · rw [h.subscriptions]
    exact List.forall_mem_nil _

/-- As long as no boundary is computed anew while one is due, every boundary that passes is
settled once, by the step that replaces it. -/
theorem boundaries_settled_once {b₀ b b' : SubscriptionState} {as : List SubscriptionAct}
    {a : SubscriptionAct} (hstart : b₀.Start) (hrun : Run (Guarded Reschedulable subscriptionSteps) b₀ as b)
    (hstep : Guarded Reschedulable subscriptionSteps b a b') : KeepsBoundaries b a b' := by
  have hinv : CycleInv b :=
    hrun.preserves (fun _ _ _ hstep h => h.step hstep.1 hstep.2) hstart.cycleInv
  refine ⟨fun s hs hlimit boundary hnext hdue s' hs' hid hreplaced => ?_, fun s' hs' hwritten => ?_, ?_⟩
  · exact hinv.replaced hstep.1 hstep.2 hs hlimit hnext hdue hs' hid hreplaced
  · exact hinv.upcoming hstep.1 hstep.2 hs' hwritten
  · exact hinv.addonsFollow hstep.1 hstep.2

/-- A subscription of 30 days, some traffic, and the last day, on which its boundary passes. -/
def lastDay : List SubscriptionAct := [assignPlan 1, .traffic 1 500, .tick (29 * oneDay + oneDay / 2)]

/-- The step replaces the boundary of a subscription that is due. -/
def replacesDue (b : SubscriptionState) (s s' : UserSubscription) (boundary : Int) : Bool :=
  s'.id = s.id && (0 < subscriptionTrafficLimit b.db s &&
    (boundary ≤ toDriver b.now && s'.nextTrafficResetAt ≠ some boundary))

theorem KeepsBoundaries.of_replacesDue {a : SubscriptionAct} (h : KeepsBoundaries b a b')
    (hdue : b.db.subscriptions.any (fun s => b'.db.subscriptions.any (fun s' =>
      s.nextTrafficResetAt.any (fun n => replacesDue b s s' n))) = true) :
    ∃ s ∈ b.db.subscriptions, ∃ n ∈ s.nextTrafficResetAt, n ≤ toDriver b.now ∧ SettledOnce b b' s n := by
  obtain ⟨s, hs, hrow⟩ := List.any_eq_true.mp hdue
  obtain ⟨s', hs', hrow⟩ := List.any_eq_true.mp hrow
  obtain ⟨n, hn, hrow⟩ := (Option.any_eq_true _ _).mp hrow
  unfold replacesDue at hrow
  simp only [Bool.and_eq_true, decide_eq_true_eq] at hrow
  obtain ⟨hid, hlimit, hle, hreplaced⟩ := hrow
  exact ⟨s, hs, n, hn, hle, h.settled s hs hlimit n hn hle s' hs' hid hreplaced⟩

/-- The settlement of the last day. -/
theorem boundaries_settled_once_last_day :
    ∃ b b' : SubscriptionState, ∃ s ∈ b.db.subscriptions, ∃ n ∈ s.nextTrafficResetAt,
      n ≤ toDriver b.now ∧ SettledOnce b b' s n := by
  have hexec : ((exec (fun b a => if decide (Reschedulable b a) then b.step a else none) twoUsers lastDay).any
      (fun b => (b.step (.recharge 1)).any (fun b' => b.db.subscriptions.any (fun s =>
        b'.db.subscriptions.any (fun s' => s.nextTrafficResetAt.any (fun n => replacesDue b s s' n)))))) =
      true := by
    decide +kernel
  obtain ⟨b, hb, hnext⟩ := (Option.any_eq_true _ _).mp hexec
  obtain ⟨b', hb', hdue⟩ := (Option.any_eq_true _ _).mp hnext
  have hrun := exec_guarded (G := Reschedulable) (g := fun b a => decide (Reschedulable b a))
    (fun _ _ h => of_decide_eq_true h) hb
  have hkeeps : KeepsBoundaries b (.recharge 1) b' := boundaries_settled_once twoUsers_start hrun ⟨trivial, hb'⟩
  exact ⟨b, b', hkeeps.of_replacesDue hdue⟩

/-- An extension on the last day moves the boundary and resets nothing. -/
theorem extended_boundary_skipped :
    ¬ ∀ (b₀ b b' : SubscriptionState) (as : List SubscriptionAct) (a : SubscriptionAct), b₀.Start →
      Run subscriptionSteps b₀ as b → subscriptionSteps b a b' → KeepsBoundaries b a b' := by
  intro hclaim
  have hexec : ((exec SubscriptionState.step twoUsers lastDay).any
      (fun b => (b.step (.extend 1 60 0)).any (fun b' => b'.db.log.all (fun e => cycleResets [e] = []) &&
        b.db.subscriptions.any (fun s => b'.db.subscriptions.any (fun s' =>
          s.nextTrafficResetAt.any (fun n => replacesDue b s s' n)))))) = true := by
    decide +kernel
  obtain ⟨b, hb, hnext⟩ := (Option.any_eq_true _ _).mp hexec
  obtain ⟨b', hb', hdue⟩ := (Option.any_eq_true _ _).mp hnext
  rw [Bool.and_eq_true] at hdue
  have hkeeps := hclaim twoUsers b b' lastDay (.extend 1 60 0) twoUsers_start (exec_run hb) hb'
  obtain ⟨s, -, n, -, -, hsettled⟩ := hkeeps.of_replacesDue hdue.2
  -- no reset was made at all
  have hnone : cycleResets b'.db.log = [] := by
    unfold cycleResets
    rw [List.filterMap_eq_nil_iff]
    intro e he
    have := of_decide_eq_true (List.all_eq_true.mp hdue.1 e he)
    simpa [cycleResets] using this
  have hafter := hsettled.after
  unfold resetsSince at hafter
  rw [hnone, List.countP_nil] at hafter
  cases hafter

end ForwardX.Panel
