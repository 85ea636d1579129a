import ForwardX.Lib.Transition
import ForwardX.Panel.Subscription

/- Runs of the subscription functions, one after the other, while time passes and the tables
   that they only read are edited; and what each function does to the tables, as one lemma
   per function. -/
namespace ForwardX.Panel
open Transition

/-- The database and the time, in milliseconds. -/
structure SubscriptionState where
  db : Db
  now : Int
  deriving DecidableEq, Repr

/-- The tables that the subscription functions read and others write. -/
structure Environment where
  plans : List SubscriptionPlan
  planTrafficAddons : List PlanTrafficAddon
  paymentOrders : List PaymentOrder
  discountCodes : List DiscountCode
  resources : Resources
  accounts : Accounts

inductive SubscriptionAct
  | tick (elapsed : Nat)
  | traffic (userId bytes : Nat)
  | edit (environment : Environment)
  | apply (input : ApplyInput)
  | extend (id : Nat) (days : Int) (trafficLimit : Nat)
  | setExpiresAt (id : Nat) (expiresAt : Option Int) (trafficLimit : Nat)
  | cancel (id trafficLimit : Nat)
  | expire (userId trafficLimit : Nat)
  | recharge (userId : Nat)
  | purchase (userId addonId : Nat) (subscriptionId : Option Nat) (description : String) (trafficLimit : Nat)

def addUserTraffic (db : Db) (userId bytes : Nat) : Db :=
  updateUser db userId (fun u => { u with trafficUsed := u.trafficUsed + bytes })

/-- One step. A call that throws is none: it changes nothing. -/
def SubscriptionState.step (b : SubscriptionState) : SubscriptionAct → Option SubscriptionState
  | .tick elapsed => some { b with now := b.now + elapsed }
  | .traffic userId bytes => some { b with db := addUserTraffic b.db userId bytes }
  | .edit e => some { b with db := { b.db with
      plans             := e.plans
      planTrafficAddons := e.planTrafficAddons
      paymentOrders     := e.paymentOrders
      discountCodes     := e.discountCodes
      resources         := e.resources
      accounts          := e.accounts } }
  | .apply input => (applySubscriptionToUser b.db input b.now).toOption.map (fun r => { b with db := r.2 })
  | .extend id days trafficLimit =>
    (extendUserSubscription b.db id days trafficLimit b.now).toOption.map (fun r => { b with db := r.2 })
  | .setExpiresAt id expiresAt trafficLimit =>
    (setUserSubscriptionExpiresAt b.db id expiresAt trafficLimit b.now).toOption.map
      (fun r => { b with db := r.2 })
  | .cancel id trafficLimit =>
    (cancelUserSubscription b.db id trafficLimit b.now).toOption.map (fun db => { b with db := db })
  | .expire userId trafficLimit =>
    some { b with db := expireUserSubscriptions b.db userId trafficLimit b.now }
  | .recharge userId =>
    some { b with db := rechargeSubscriptionTrafficCyclesForUser b.db userId b.now }
  | .purchase userId addonId subscriptionId description trafficLimit =>
    some { b with db := (purchaseTrafficAddonWithBalance b.db userId addonId subscriptionId description
      trafficLimit b.now).2 }

abbrev subscriptionSteps : Steps SubscriptionState SubscriptionAct := Steps.ofFn SubscriptionState.step

/-- No subscription was made yet; the users are known, and none was reset in the future. -/
structure SubscriptionState.Start (b : SubscriptionState) : Prop where
  subscriptions : b.db.subscriptions = []
  trafficAddons : b.db.trafficAddons = []
  log : b.db.log = []
  users : (b.db.users.map (·.id)).Nodup
  resets : ∀ u ∈ b.db.users, ∀ t ∈ u.lastAutoTrafficReset, t ≤ toDriver b.now

/-! ## What the functions keep -/

/-- The columns of a user that only his settings and the settlement of his cycles change. -/
def SameUser (u v : User) : Prop :=
  v.id = u.id ∧ v.trafficAutoReset = u.trafficAutoReset ∧ v.trafficResetDay = u.trafficResetDay ∧
    v.lastAutoTrafficReset = u.lastAutoTrafficReset

def UsersKept (l l' : List User) : Prop := ∃ h, l' = l.map h ∧ ∀ u, SameUser u (h u)

theorem UsersKept.refl (l : List User) : UsersKept l l :=
  ⟨id, (List.map_id l).symm, fun _ => ⟨rfl, rfl, rfl, rfl⟩⟩

theorem UsersKept.trans {l₁ l₂ l₃ : List User} (h₁ : UsersKept l₁ l₂) (h₂ : UsersKept l₂ l₃) :
    UsersKept l₁ l₃ := by
  obtain ⟨f, rfl, hf⟩ := h₁
  obtain ⟨g, rfl, hg⟩ := h₂
  refine ⟨g ∘ f, by rw [List.map_map], fun u => ?_⟩
  obtain ⟨h₁, h₂, h₃, h₄⟩ := hf u
  obtain ⟨h₁', h₂', h₃', h₄'⟩ := hg (f u)
  exact ⟨h₁'.trans h₁, h₂'.trans h₂, h₃'.trans h₃, h₄'.trans h₄⟩

theorem UsersKept.update {db : Db} {id : Nat} {f : User → User} (hf : ∀ u, SameUser u (f u)) :
    UsersKept db.users (updateUser db id f).users := by
  refine ⟨fun u => if u.id = id then f u else u, rfl, fun u => ?_⟩
  dsimp only
  split
  · exact hf u
  · exact ⟨rfl, rfl, rfl, rfl⟩

def cycleResets (log : List Event) : List (Nat × Int) :=
  log.filterMap (fun e => match e with
    | .cycleReset userId _ resetAt => some (userId, resetAt)
    | _ => none)

theorem cycleResets_concat (log : List Event) (e : Event) :
    cycleResets (log ++ [e]) = cycleResets log ++ cycleResets [e] := by
  unfold cycleResets
  rw [List.filterMap_append]

structure Quiet (db db' : Db) : Prop where
  users : UsersKept db.users db'.users
  addons : AddonsKept db.trafficAddons db'.trafficAddons
  resets : cycleResets db'.log = cycleResets db.log

theorem Quiet.refl (db : Db) : Quiet db db := ⟨.refl _, .refl _, rfl⟩

theorem Quiet.trans {db₁ db₂ db₃ : Db} (h₁ : Quiet db₁ db₂) (h₂ : Quiet db₂ db₃) : Quiet db₁ db₃ :=
  ⟨h₁.users.trans h₂.users, h₁.addons.trans h₂.addons, h₂.resets.trans h₁.resets⟩

section
variable {db db' : Db} (h : Quiet db db')
include h

theorem Quiet.sync (userId : Nat) (now : Int) (limit : Nat) :
    Quiet db (syncUserSubscriptionEntitlements db' userId now limit) :=
  h.trans ⟨@UsersKept.update (expireDueTrafficAddons db' userId now) _ _ fun _ => ⟨rfl, rfl, rfl, rfl⟩,
    sync_kept db' userId now limit, rfl⟩

theorem Quiet.cycleEnd (id : Nat) (next expiresAt : Option Int) :
    Quiet db (updateActiveTrafficAddonCycleEnd db' id next expiresAt) :=
  h.trans ⟨.refl _, cycleEnd_kept db' id next expiresAt, rfl⟩

theorem Quiet.expireAddons (p : UserTrafficAddon → Bool) (now : Int) :
    Quiet db (updateTrafficAddons db' p (·.expire now)) :=
  h.trans ⟨.refl _, .update (expire_kept now), rfl⟩

theorem Quiet.logged {e : Event} (he : cycleResets [e] = []) : Quiet db (logEvent db' e) := by
  refine h.trans ⟨.refl _, .refl _, ?_⟩
  unfold logEvent
  rw [cycleResets_concat, he, List.append_nil]

/-- What is written besides users, add-ons and the history does not matter. -/
theorem Quiet.rest {db'' : Db} (husers : db''.users = db'.users)
    (haddons : db''.trafficAddons = db'.trafficAddons) (hlog : db''.log = db'.log) : Quiet db db'' :=
  ⟨husers ▸ h.users, haddons ▸ h.addons, hlog ▸ h.resets⟩

end

/-! ## What each function does -/

/-- The row that a change of the expiry date writes. -/
def expiryRow (status : SubscriptionStatus) (expiresAt nextTrafficResetAt : Option Int) (s : UserSubscription) :
    UserSubscription :=
  { s with
    status             := status
    expiresAt          := expiresAt.map toDriver
    nextTrafficResetAt := nextTrafficResetAt.map toDriver }

theorem writeExpiry_quiet (db : Db) (id : Nat) (status : SubscriptionStatus) (expiresAt next : Option Int) :
    Quiet db (writeExpiry db id status expiresAt next) := by
  apply Quiet.cycleEnd
  exact .rest (.refl db) rfl rfl rfl

variable {id limit : Nat}

theorem extend_spec {db db' : Db} {days : Int} {now : Int} {c : ExpiryChange}
    (h : extendUserSubscription db id days limit now = .ok (c, db')) :
    ∃ s currentExpiresAt, getUserSubscriptionById db id = some s ∧ s.status ≠ .cancelled ∧ 0 < days ∧
      s.expiresAt = some currentExpiresAt ∧ Quiet db db' ∧
      db'.subscriptions = Rows.set (·.id) db.subscriptions id (expiryRow .active
        (some (extendedExpiresAt (fromDriver currentExpiresAt) days now))
        (extendedTrafficReset db s (some (extendedExpiresAt (fromDriver currentExpiresAt) days now)) now)) := by
  unfold extendUserSubscription at h
  split at h
  · cases h
  · rename_i hdays
    split at h
    · cases h
    · rename_i s hs
      split at h
      · cases h
      · rename_i hstatus
        split at h
        · cases h
        · rename_i cur hcur
          obtain ⟨e, he, rfl⟩ := Option.map_eq_some_iff.mp hcur
          injection h with h
          obtain ⟨-, rfl⟩ := Prod.mk.inj h
          exact ⟨s, e, hs, hstatus, Int.not_le.mp hdays, he,
            (writeExpiry_quiet db id _ _ _).sync _ _ _, rfl⟩

theorem setExpiresAt_spec {db db' : Db} {expiresAt : Option Int} {now : Int} {c : ExpiryChange}
    (h : setUserSubscriptionExpiresAt db id expiresAt limit now = .ok (c, db')) :
    ∃ s, getUserSubscriptionById db id = some s ∧ s.status ≠ .cancelled ∧ Quiet db db' ∧
      db'.subscriptions = Rows.set (·.id) db.subscriptions id (expiryRow
        (if expiresAt.any (fun e => e ≤ now) then .expired else .active) expiresAt
        (if expiresAt.any (fun e => e ≤ now) then none else rescheduledTrafficReset db s expiresAt now)) := by
  unfold setUserSubscriptionExpiresAt at h
  split at h
  · cases h
  · rename_i s hs
    split at h
    · cases h
    · rename_i hstatus
      injection h with h
      obtain ⟨-, rfl⟩ := Prod.mk.inj h
      refine ⟨s, hs, hstatus, ?_, ?_⟩
      · apply Quiet.sync
        split
        · exact (writeExpiry_quiet db id _ _ _).expireAddons _ now
        · exact writeExpiry_quiet db id _ _ _
      · rw [syncUserSubscriptionEntitlements_subscriptions]
        split <;> rfl

theorem cancel_spec {db db' : Db} {now : Int} (h : cancelUserSubscription db id limit now = .ok db') :
    Quiet db db' ∧ db'.subscriptions =
      Rows.set (·.id) db.subscriptions id (fun s => { s with status := .cancelled }) := by
  unfold cancelUserSubscription at h
  split at h
  · cases h
  · injection h with h
    subst h
    refine ⟨?_, rfl⟩
    apply Quiet.sync
    apply Quiet.expireAddons
    exact .rest (.refl db) rfl rfl rfl

theorem expire_spec (db : Db) (userId limit : Nat) (now : Int) :
    Quiet db (expireUserSubscriptions db userId limit now) ∧
      (expireUserSubscriptions db userId limit now).subscriptions = db.subscriptions.map (fun s =>
        if s.userId = userId && s.pastExpiry now then { s with status := .expired } else s) := by
  refine ⟨?_, rfl⟩
  apply Quiet.sync
  apply Quiet.expireAddons
  apply Quiet.expireAddons
  apply Quiet.expireAddons
  exact .rest (.refl db) rfl rfl rfl

variable {now : Int} {db db' : Db} {plan : SubscriptionPlan} {r : ApplyResult} {s : UserSubscription}
   {input : ApplyInput}

theorem renew_spec (h : renewSubscription db input plan s now = .ok (r, db')) :
    ∃ block, renewedBlock db plan s now = some block ∧ Quiet db db' ∧
      db'.subscriptions = Rows.set (·.id) db.subscriptions s.id (renewedRow input plan
        (renewedExpiresAt s (input.overrideDurationDays.getD plan.durationDays) now)
        (renewedTrafficReset (getUserById db input.userId) plan s
          (renewedExpiresAt s (input.overrideDurationDays.getD plan.durationDays) now) now)
        block.1 block.2) := by
  unfold renewSubscription at h
  split at h
  · cases h
  · rename_i hblock
    injection h with h
    obtain ⟨-, rfl⟩ := Prod.mk.inj h
    refine ⟨_, hblock, ?_, rfl⟩
    refine Quiet.logged ?_ rfl
    apply Quiet.sync
    apply Quiet.cycleEnd
    exact .rest (.refl db) rfl rfl rfl

theorem reserveGrantStock_frame {order : Option PaymentOrder} (h : reserveGrantStock db input order = .ok db') :
    db'.subscriptions = db.subscriptions ∧ db'.users = db.users ∧ db'.trafficAddons = db.trafficAddons ∧
      db'.log = db.log ∧ db'.resources = db.resources ∧ db'.accounts = db.accounts ∧
      db'.discountCodes = db.discountCodes := by
  have hreserve : ∀ {db₁ : Db}, reservePlanStock db input.planId = .ok db₁ →
      db₁.subscriptions = db.subscriptions ∧ db₁.users = db.users ∧ db₁.trafficAddons = db.trafficAddons ∧
        db₁.log = db.log ∧ db₁.resources = db.resources ∧ db₁.accounts = db.accounts ∧
        db₁.discountCodes = db.discountCodes := by
    intro db₁ h
    unfold reservePlanStock at h
    split at h
    · injection h with h
      subst h
      exact ⟨rfl, rfl, rfl, rfl, rfl, rfl, rfl⟩
    · cases h
  unfold reserveGrantStock at h
  split at h
  · split at h
    · injection h with h
      subst h
      exact ⟨rfl, rfl, rfl, rfl, rfl, rfl, rfl⟩
    · cases hstock : reservePlanStock db input.planId with
      | error e =>
        rw [hstock] at h
        cases h
      | ok db₁ =>
        rw [hstock] at h
        obtain rfl := Except.ok.inj h
        have hframe := hreserve hstock
        exact hframe
  · exact hreserve h

theorem grant_spec {order : Option PaymentOrder} (h : grantSubscription db input plan order now = .ok (r, db')) :
    ∃ block, findAvailableSubscriptionPortBlock db plan.portCount plan.hostIds plan.tunnelIds
        plan.forwardGroupIds now = some block ∧ Quiet db db' ∧
      db'.subscriptions = db.subscriptions ++ [grantedRow db input plan
        (grantedExpiresAt (input.overrideDurationDays.getD plan.durationDays) now)
        (grantedTrafficReset (getUserById db input.userId) plan
          (grantedExpiresAt (input.overrideDurationDays.getD plan.durationDays) now) now)
        block.1 block.2 now] := by
  unfold grantSubscription at h
  dsimp only at h
  split at h
  · cases h
  · rename_i db₁ hstock
    obtain ⟨hsubs, husers, haddons, hlog, hresources, -⟩ := reserveGrantStock_frame hstock
    split at h
    · cases h
    · rename_i portRangeStart portRangeEnd hblock
      injection h with h
      obtain ⟨-, rfl⟩ := Prod.mk.inj h
      refine ⟨(portRangeStart, portRangeEnd), ?_, ?_, ?_⟩
      · rw [← hblock]
        unfold findAvailableSubscriptionPortBlock
        have hused : portUsed db₁ now = portUsed db now := by
          funext port
          unfold portUsed
          rw [hresources, hsubs]
        rw [hused, hresources]
      · have hstart : Quiet db db₁ := .rest (.refl db) husers haddons hlog
        refine Quiet.logged ?_ rfl
        split
        · apply Quiet.sync
          refine Quiet.trans (?_ : Quiet db (syncUserSubscriptionEntitlements _ input.userId now
            input.trafficLimit)) ⟨.update fun _ => ⟨rfl, rfl, rfl, rfl⟩, .refl _, rfl⟩
          apply Quiet.sync
          exact .rest hstart rfl rfl rfl
        · apply Quiet.sync
          exact .rest hstart rfl rfl rfl
      · unfold grantedRow
        rw [← hsubs]
        unfold logEvent
        dsimp only
        split <;> rfl

/-- Grant or renewal, behind the check of the order: an order that was applied changes nothing,
any other call makes a row or writes the row of its target. -/
theorem apply_cases (h : applySubscriptionToUser db input now = .ok (r, db')) :
    (db' = db ∧ ∃ outTradeNo order existing, input.paidWith = some outTradeNo ∧
      checkPaymentOrder db input outTradeNo = .ok order ∧ existingSubscription db order = some existing ∧
      r.subscriptionId = existing.id) ∨
    ∃ order plan, usablePlan db input.planId = .ok plan ∧
      ((input.paidWith = none ∧ order = none) ∨
        ∃ outTradeNo o, input.paidWith = some outTradeNo ∧ checkPaymentOrder db input outTradeNo = .ok o ∧
          existingSubscription db o = none ∧ order = some o) ∧
      ((input.targetSubscriptionId = none ∧ grantSubscription db input plan order now = .ok (r, db')) ∨
        ∃ id s, input.targetSubscriptionId = some id ∧ renewalTarget db input id = .ok s ∧
          renewSubscription db input plan s now = .ok (r, db')) := by
  have hplan : ∀ {order : Option PaymentOrder}, applyPlan db input order now = .ok (r, db') →
      ∃ plan, usablePlan db input.planId = .ok plan ∧
        ((input.targetSubscriptionId = none ∧ grantSubscription db input plan order now = .ok (r, db')) ∨
          ∃ id s, input.targetSubscriptionId = some id ∧ renewalTarget db input id = .ok s ∧
            renewSubscription db input plan s now = .ok (r, db')) := by
    intro order h
    unfold applyPlan at h
    split at h
    · cases h
    · rename_i plan hplan
      split at h
      · rename_i htarget
        exact ⟨plan, hplan, .inl ⟨htarget, h⟩⟩
      · rename_i id htarget
        split at h
        · cases h
        · rename_i s hs
          exact ⟨plan, hplan, .inr ⟨id, s, htarget, hs, h⟩⟩
  unfold applySubscriptionToUser at h
  split at h
  · rename_i hpaid
    obtain ⟨plan, hfound, hcase⟩ := hplan h
    exact .inr ⟨none, plan, hfound, .inl ⟨hpaid, rfl⟩, hcase⟩
  · rename_i outTradeNo hpaid
    split at h
    · cases h
    · rename_i order hcheck
      split at h
      · rename_i hexisting
        obtain ⟨plan, hfound, hcase⟩ := hplan h
        exact .inr ⟨some order, plan, hfound, .inr ⟨outTradeNo, order, hpaid, hcheck, hexisting, rfl⟩, hcase⟩
      · rename_i existing hexisting
        split at h
        · cases h
        · injection h with h
          obtain ⟨rfl, rfl⟩ := Prod.mk.inj h
          exact .inl ⟨rfl, outTradeNo, order, existing, hpaid, hcheck, hexisting, rfl⟩

theorem usablePlan_spec {planId : Nat} (h : usablePlan db planId = .ok plan) :
    getSubscriptionPlanById db planId = some plan := by
  unfold usablePlan at h
  split at h
  · cases h
  · rename_i hplan
    split at h
    · cases h
    · split at h
      · cases h
      · obtain rfl := Except.ok.inj h
        exact hplan

theorem renewalTarget_spec (h : renewalTarget db input id = .ok s) :
    getUserSubscriptionById db id = some s ∧ s.status ≠ .cancelled ∧ s.userId = input.userId ∧
      s.planId = input.planId := by
  unfold renewalTarget at h
  split at h
  · cases h
  · rename_i s' hs
    split at h
    · cases h
    · rename_i huser
      split at h
      · cases h
      · rename_i hplan
        split at h
        · cases h
        · rename_i hstatus
          split at h
          · cases h
          · split at h
            · cases h
            · obtain rfl := Except.ok.inj h
              exact ⟨hs, hstatus, not_not.mp huser, not_not.mp hplan⟩

theorem lt_cycleEnd (s : UserSubscription) (now : Int) :
    toDriver now < toDriver (getTrafficAddonCycleEnd s now) := by
  have hstored : ∀ {o : Option Int} {n : Int}, (o.map fromDriver).filter (fun n => now < n) = some n →
      now < n ∧ n % 1000 = 0 := by
    intro o n hn
    obtain ⟨ho, hlt⟩ := Option.filter_eq_some_iff.mp hn
    obtain ⟨m, -, rfl⟩ := Option.map_eq_some_iff.mp ho
    refine ⟨of_decide_eq_true hlt, ?_⟩
    unfold fromDriver
    omega
  have hlater : now < getTrafficAddonCycleEnd s now ∧ getTrafficAddonCycleEnd s now % 1000 = 0 := by
    unfold getTrafficAddonCycleEnd
    split
    · exact hstored ‹_›
    · split
      · exact hstored ‹_›
      · exact @lt_of_monthly _ _ none rfl
  unfold toDriver
  omega

theorem mem_of_pick {l : List UserSubscription} {planId : Nat} {subscriptionId : Option Nat}
    (h : pickActiveFiniteTrafficSubscription db l planId subscriptionId now = some s) : s ∈ l := by
  have hsorted := List.mem_of_mem_head? (Option.mem_def.mpr h)
  exact (List.mem_filter.mp ((List.mem_insertionSort _).mp hsorted)).1

theorem sync_concat {l l' : List UserTrafficAddon} {row : UserTrafficAddon} {e : Int} (hkept : AddonsKept l l')
    (hl : db.trafficAddons = l' ++ [row]) (he : row.expiresAt = some e) (userId : Nat) (limit : Nat)
    (hlt : toDriver now < e) : ∃ kept, AddonsKept l kept ∧
      (syncUserSubscriptionEntitlements db userId now limit).trafficAddons = kept ++ [row] := by
  refine ⟨(expireDueTrafficAddons { db with trafficAddons := l' } userId now).trafficAddons,
    hkept.trans (.update (expire_kept now)), ?_⟩
  unfold syncUserSubscriptionEntitlements updateUser
  unfold expireDueTrafficAddons updateTrafficAddons
  dsimp only
  have hlate : ¬ e ≤ toDriver now := by omega
  rw [hl, List.map_append, List.map_singleton]
  simp only [he, Option.any_some, decide_eq_false hlate, Bool.and_false, Bool.false_eq_true, if_false]

/-- What a purchase does after the settlement: one more add-on of an active subscription of
the user. -/
theorem insertPurchasedAddon_spec {userId addonId : Nat} {subscriptionId : Option Nat} {description : String}
    {row : UserTrafficAddon}
    (h : insertPurchasedAddon db userId addonId subscriptionId description limit now = .ok (row, db')) :
    ∃ s ∈ db.subscriptions, s.isActiveAt now = true ∧ s.userId = userId ∧
      row.subscriptionId = s.id ∧ row.status = .active ∧ row.createdAt = toDriver now ∧
      (∃ kept, AddonsKept db.trafficAddons kept ∧ db'.trafficAddons = kept ++ [row]) ∧
      db'.subscriptions = db.subscriptions ∧
      db'.users = Rows.set (·.id) db.users userId (fun u => { u with trafficLimit := limit }) ∧
      db'.log = db.log := by
  unfold insertPurchasedAddon at h
  dsimp only at h
  split at h
  · cases h
  · split at h
    · cases h
    · split at h
      · cases h
      · split at h
        · cases h
        · rename_i s hpick
          split at h
          · cases h
          · split at h
            · cases h
            · injection h with h
              obtain ⟨rfl, rfl⟩ := Prod.mk.inj h
              have hmem := mem_of_pick hpick
              unfold getActiveUserSubscriptions at hmem
              rw [List.mem_reverse, List.mem_filter, Bool.and_eq_true] at hmem
              obtain ⟨hs, hactive, huser⟩ := hmem
              refine ⟨s, hs, hactive, of_decide_eq_true huser, rfl, rfl, rfl, ?_, rfl, rfl, rfl⟩
              apply sync_concat (AddonsKept.update (expire_kept now)) rfl rfl
              exact lt_cycleEnd s now

theorem isActiveAt_later {now later : Int} (h : now ≤ later) (hs : s.isActiveAt later = true) :
    s.isActiveAt now = true := by
  unfold UserSubscription.isActiveAt at *
  rw [Bool.and_eq_true] at hs ⊢
  refine ⟨hs.1, ?_⟩
  cases hexp : s.expiresAt with
  | none => rfl
  | some e =>
    rw [hexp] at hs
    have hlt := of_decide_eq_true hs.2
    unfold toDriver at hlt ⊢
    exact decide_eq_true (by omega)

theorem toOption_eq_some {ε α : Type} {x : Except ε α} {a : α} (h : x.toOption = some a) : x = .ok a := by
  cases x with
  | error e => cases h
  | ok a' =>
    obtain rfl := Option.some.inj h
    rfl

/-! ## A small panel -/

def plainUser (id : Nat) : User := ⟨id, false, 1, 0, 0, none, none⟩

/-- Two users, a plan of 30 days and three ports on one host, and no subscription. -/
def twoUsers : SubscriptionState :=
  { db := {
      users             := [plainUser 1, plainUser 2]
      plans             := [⟨1, true, 30, 3, 1000, 0, 0, [1], [], []⟩]
      planTrafficAddons := []
      subscriptions     := []
      trafficAddons     := []
      paymentOrders     := []
      discountCodes     := []
      resources         := ⟨[⟨1, some 10000, some 20000⟩], [], [], []⟩
      accounts          := ⟨[], [], []⟩
      log               := [] }
    now := 1750000000500 }

theorem twoUsers_start : twoUsers.Start :=
  ⟨rfl, rfl, rfl, by decide, by decide⟩

def assignPlan (userId : Nat) : SubscriptionAct := .apply ⟨userId, 1, .admin, none, none, none, 0⟩

def oneDay : Nat := 86400000

end ForwardX.Panel
