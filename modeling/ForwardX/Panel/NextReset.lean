import ForwardX.Panel.SubscriptionRuns

/- What each formula stores of the next reset, and when it may be computed anew: no boundary
   is due, none of this month is left behind, and the stored second of the boundary is not
   that of the expiry date. -/
namespace ForwardX.Panel

/-! ## When the next boundary can be computed anew -/

/-- The instant lies in the first second of a day of the billing zone, after its first
millisecond: stored, it is the start of the day. -/
def inFirstSecond (t : Int) : Bool :=
  let sinceMidnight := (t + billingOffset) % 86400000
  0 < sinceMidnight && sinceMidnight < 1000

/-- The boundary of this month, where the reset day of the user puts it, is still to come, or
it lies before what was handled. -/
def UserSubscription.monthHandled (s : UserSubscription) (user : User) (now : Int) : Bool :=
  let handledThrough :=
    max (fromDriver s.startedAt) ((s.lastTrafficResetAt.map fromDriver).getD (fromDriver s.startedAt))
  let boundary := billingMonthlyBoundary now user.resetDay 0
  now < boundary || boundary ≤ handledThrough

def UserSubscription.startsAnew (s : UserSubscription) (now : Int) : Bool :=
  s.expiresAt.any (fun e => e ≤ toDriver now)

def Settled (b : SubscriptionState) (s : UserSubscription) : Prop :=
  subscriptionTrafficLimit b.db s = 0 ∨ s.resetDue b.now = false

def MonthHandled (b : SubscriptionState) (s : UserSubscription) : Prop :=
  ∀ user ∈ getUserById b.db s.userId, user.trafficAutoReset = true → s.monthHandled user b.now = true

/-- A renewal or an extension of a subscription, with the traffic limit it has afterwards. -/
def MayRestart (b : SubscriptionState) (trafficLimit : Nat) (s : UserSubscription) : Prop :=
  Settled b s ∧ (trafficLimit = 0 ∨
    MonthHandled b s ∧ (s.startsAnew b.now = true → inFirstSecond b.now = false))

/-- A new expiry date of a subscription. Of one that is past no boundary is computed. -/
def MayExpireAt (b : SubscriptionState) (expiresAt : Option Int) (s : UserSubscription) : Prop :=
  Settled b s ∧ (subscriptionTrafficLimit b.db s = 0 ∨ (∃ e ∈ expiresAt, e ≤ b.now) ∨
    MonthHandled b s ∧ ∀ e ∈ expiresAt, inFirstSecond e = false ∧
      (s.nextTrafficResetAt = some (toDriver e) → e % 1000 = 0))

/-- The step computes no boundary anew while one is due, and stores no boundary in the second
of the expiry date. -/
def Reschedulable (b : SubscriptionState) : SubscriptionAct → Prop
  | .extend id _ _ => ∀ s ∈ b.db.subscriptions, s.id = id → MayRestart b (subscriptionTrafficLimit b.db s) s
  | .setExpiresAt id expiresAt _ => ∀ s ∈ b.db.subscriptions, s.id = id → MayExpireAt b expiresAt s
  | .apply input => ∀ plan ∈ getSubscriptionPlanById b.db input.planId,
      (input.targetSubscriptionId = none → plan.trafficLimit = 0 ∨ inFirstSecond b.now = false) ∧
      ∀ s ∈ b.db.subscriptions, input.targetSubscriptionId = some s.id → MayRestart b plan.trafficLimit s
  | _ => True

instance (b : SubscriptionState) (s : UserSubscription) : Decidable (Settled b s) :=
  inferInstanceAs (Decidable (_ ∨ _))

instance (b : SubscriptionState) (s : UserSubscription) : Decidable (MonthHandled b s) :=
  inferInstanceAs (Decidable (∀ user ∈ getUserById b.db s.userId,
    user.trafficAutoReset = true → s.monthHandled user b.now = true))

instance (b : SubscriptionState) (trafficLimit : Nat) (s : UserSubscription) :
    Decidable (MayRestart b trafficLimit s) :=
  inferInstanceAs (Decidable (_ ∧ (_ ∨ _ ∧ (_ → _))))

instance (b : SubscriptionState) (expiresAt : Option Int) (s : UserSubscription) :
    Decidable (MayExpireAt b expiresAt s) :=
  inferInstanceAs (Decidable (Settled b s ∧ (subscriptionTrafficLimit b.db s = 0 ∨
    (∃ e ∈ expiresAt, e ≤ b.now) ∨ MonthHandled b s ∧ ∀ e ∈ expiresAt, inFirstSecond e = false ∧
      (s.nextTrafficResetAt = some (toDriver e) → e % 1000 = 0))))

instance (b : SubscriptionState) : (a : SubscriptionAct) → Decidable (Reschedulable b a)
  | .extend id _ _ => inferInstanceAs (Decidable (∀ s ∈ b.db.subscriptions, s.id = id →
      MayRestart b (subscriptionTrafficLimit b.db s) s))
  | .setExpiresAt id expiresAt _ => inferInstanceAs (Decidable (∀ s ∈ b.db.subscriptions, s.id = id →
      MayExpireAt b expiresAt s))
  | .apply input => inferInstanceAs (Decidable (∀ plan ∈ getSubscriptionPlanById b.db input.planId,
      (input.targetSubscriptionId = none → plan.trafficLimit = 0 ∨ inFirstSecond b.now = false) ∧
      ∀ s ∈ b.db.subscriptions, input.targetSubscriptionId = some s.id → MayRestart b plan.trafficLimit s))
  | .tick _ | .traffic _ _ | .edit _ | .cancel _ _ | .expire _ _ | .recharge _ | .purchase _ _ _ _ _ =>
    inferInstanceAs (Decidable True)

/-! ## What is stored of the next reset -/

/-- The next reset of a row is still to come and lies before the expiry date. -/
def UserSubscription.Upcoming (s : UserSubscription) (now : Int) : Prop :=
  ∀ n ∈ s.nextTrafficResetAt, toDriver now < n ∧ ∀ e ∈ s.expiresAt, n < e

theorem inFirstSecond_of_whole {t : Int} (h : t % 1000 = 0) : inFirstSecond t = false := by
  unfold inFirstSecond billingOffset
  rw [Bool.and_eq_false_imp]
  intro hpos
  have := of_decide_eq_true hpos
  exact decide_eq_false (by omega)

theorem inFirstSecond_addDays (t : Int) (days : Nat) :
    inFirstSecond (addSubscriptionDays t days) = inFirstSecond t := by
  have hday : (addSubscriptionDays t days + billingOffset) % 86400000 = (t + billingOffset) % 86400000 := by
    unfold addSubscriptionDays
    omega
  unfold inFirstSecond
  rw [hday]

theorem toDriver_lt {now r : Int} (h : now < r) (hr : r % 1000 = 0) : toDriver now < toDriver r := by
  unfold toDriver
  omega

/-- A midnight before an expiry date is stored before it, unless that lies in its first second. -/
theorem midnight_lt {d e : Int} (h : dayStart d < e) (he : inFirstSecond e = false) :
    toDriver (dayStart d) < toDriver e := by
  have hsecond := dayStart_second d
  by_contra hle
  -- both lie in one second, so the date lies in the first one of its day
  have hnear : e < dayStart d + 1000 := by
    unfold toDriver at hle
    omega
  have hsince : (e + billingOffset) % 86400000 = e - dayStart d := by
    unfold dayStart at *
    omega
  unfold inFirstSecond at he
  dsimp only at he
  rw [hsince, Bool.and_eq_false_imp] at he
  have hlate := of_decide_eq_false (he (decide_eq_true (by omega)))
  omega

theorem monthly_midnight {start r : Int} {expiresAt : Option Int}
    (h : nextBillingMonthlyTrafficReset start expiresAt = some r) : ∃ d, r = dayStart d := by
  obtain ⟨hr, -⟩ := boundTrafficResetAt_eq_some h
  obtain rfl := Option.some.inj hr
  exact ⟨_, billingStartOfCalendarDay_eq _⟩

theorem configured_midnight {user : User} {startedAt reference r : Int}
    {lastTrafficResetAt expiresAt : Option Int}
    (h : nextConfiguredSubscriptionTrafficReset user startedAt lastTrafficResetAt reference expiresAt =
      some r) : ∃ d, r = dayStart d := by
  obtain ⟨hr, -⟩ := boundTrafficResetAt_eq_some h
  obtain rfl := Option.some.inj hr
  exact ⟨_, boundary_eq _ _ _⟩

/-- When the boundary of the month was handled, the configured reset is still to come. -/
theorem later_of_configured {user : User} {startedAt reference r : Int}
    {lastTrafficResetAt expiresAt : Option Int}
    (h : nextConfiguredSubscriptionTrafficReset user startedAt lastTrafficResetAt reference expiresAt =
      some r)
    (hmonth : reference < billingMonthlyBoundary reference user.resetDay 0 ∨
      billingMonthlyBoundary reference user.resetDay 0 ≤
        max startedAt (lastTrafficResetAt.getD startedAt)) : reference < r := by
  have hlater := (lt_of_configured h).1
  obtain ⟨hr, -⟩ := boundTrafficResetAt_eq_some h
  obtain rfl := Option.some.inj hr
  dsimp only at hlater ⊢
  generalize Search.firstAbove _ _ _ 0 = k at hlater ⊢
  cases k with
  | zero => exact hmonth.elim id (fun hle => absurd hlater (Int.not_lt.mpr hle))
  | succ k =>
    -- any later boundary lies in a later month
    have hbegin := (boundary_bounds reference user.resetDay (k + 1 : Nat)).1
    have hmono := monthBegin_mono
      (show billingMonth reference + 1 ≤ billingMonth reference + (k + 1 : Nat) by omega)
    have hnow := (billingMonth_spec reference).2
    omega

def StoredBetween (now : Int) (expiresAt : Option Int) (r : Int) : Prop :=
  toDriver now < toDriver r ∧ ∀ e ∈ expiresAt, toDriver r < toDriver e

theorem upcoming_of_stored {s : UserSubscription} {now : Int} {next expiresAt : Option Int}
    (hnext : s.nextTrafficResetAt = next.map toDriver) (hexp : s.expiresAt = expiresAt.map toDriver)
    (h : ∀ r ∈ next, StoredBetween now expiresAt r) : s.Upcoming now := by
  intro n hn
  rw [hnext] at hn
  obtain ⟨r, hr, rfl⟩ := Option.map_eq_some_iff.mp hn
  refine ⟨(h r hr).1, fun e he => ?_⟩
  rw [hexp] at he
  obtain ⟨e', he', rfl⟩ := Option.map_eq_some_iff.mp he
  exact (h r hr).2 e' he'

theorem expiryRow_upcoming {status : SubscriptionStatus} {now : Int} {next expiresAt : Option Int}
    (h : ∀ r ∈ next, StoredBetween now expiresAt r) (s : UserSubscription) :
    (expiryRow status expiresAt next s).Upcoming now :=
  upcoming_of_stored rfl rfl h

section
variable {now r : Int} {expiresAt : Option Int} (hclear : ∀ e ∈ expiresAt, inFirstSecond e = false)
include hclear

theorem monthly_storedBetween (h : nextBillingMonthlyTrafficReset now expiresAt = some r) :
    StoredBetween now expiresAt r := by
  obtain ⟨hlater, hsecond⟩ := lt_of_monthly h
  have hbound := (boundTrafficResetAt_eq_some h).2
  obtain ⟨d, rfl⟩ := monthly_midnight h
  exact ⟨toDriver_lt hlater hsecond, fun e he => midnight_lt (hbound e he) (hclear e he)⟩

theorem configured_storedBetween {user : User} {startedAt : Int} {last : Option Int}
    (h : nextConfiguredSubscriptionTrafficReset user startedAt last now expiresAt = some r)
    (hmonth : now < billingMonthlyBoundary now user.resetDay 0 ∨
      billingMonthlyBoundary now user.resetDay 0 ≤ max startedAt (last.getD startedAt)) :
    StoredBetween now expiresAt r := by
  have hsecond := (lt_of_configured h).2
  have hlater := later_of_configured h hmonth
  have hbound := (boundTrafficResetAt_eq_some h).2
  obtain ⟨d, rfl⟩ := configured_midnight h
  exact ⟨toDriver_lt hlater hsecond, fun e he => midnight_lt (hbound e he) (hclear e he)⟩

end

theorem grantedTrafficReset_between {user : Option User} {plan : SubscriptionPlan} {days : Nat} {now r : Int}
    (hclear : plan.trafficLimit = 0 ∨ inFirstSecond now = false)
    (h : grantedTrafficReset user plan (grantedExpiresAt days now) now = some r) :
    StoredBetween now (grantedExpiresAt days now) r := by
  unfold grantedTrafficReset at h
  split at h
  · rename_i hlimit
    have hexp : ∀ e ∈ grantedExpiresAt days now, inFirstSecond e = false := by
      intro e he
      unfold grantedExpiresAt at he
      split at he
      · obtain rfl := Option.some.inj he
        rw [inFirstSecond_addDays]
        exact hclear.resolve_left (by omega)
      · cases he
    split at h
    · -- the subscription starts now, so the boundary of the month does not concern it
      apply configured_storedBetween hexp h
      rw [Option.getD_none, max_self]
      exact Int.lt_or_le _ _
    · exact monthly_storedBetween hexp h
  · cases h

variable {now r : Int} {b : SubscriptionState} {s : UserSubscription} {user : User}

theorem MonthHandled.of_auto (h : MonthHandled b s)
    (huser : (getUserById b.db s.userId).filter (·.trafficAutoReset) = some user) :
    b.now < billingMonthlyBoundary b.now user.resetDay 0 ∨
      billingMonthlyBoundary b.now user.resetDay 0 ≤ max (fromDriver s.startedAt)
        ((s.lastTrafficResetAt.map fromDriver).getD (fromDriver s.startedAt)) := by
  obtain ⟨hfound, hauto⟩ := Option.filter_eq_some_iff.mp huser
  have hmonth := h user hfound hauto
  unfold UserSubscription.monthHandled at hmonth
  rw [Bool.or_eq_true] at hmonth
  exact hmonth.imp of_decide_eq_true of_decide_eq_true

/-- The end of the period that a renewal or an extension adds, from the old end or from now on. -/
theorem restart_clear {cur : Int} (hcur : s.expiresAt = some cur) (days : Nat)
    (h : s.startsAnew b.now = true → inFirstSecond b.now = false) :
    inFirstSecond (addSubscriptionDays (if b.now < fromDriver cur then fromDriver cur else b.now) days) =
      false := by
  rw [inFirstSecond_addDays]
  split
  · apply inFirstSecond_of_whole
    unfold fromDriver
    omega
  · rename_i hpast
    apply h
    unfold UserSubscription.startsAnew
    rw [hcur]
    apply decide_eq_true
    unfold fromDriver at hpast
    unfold toDriver
    omega

/-- A stored boundary that is still to come lies before the end of the period that is added. -/
theorem restart_keeps {now n cur : Int} (hcur : s.expiresAt = some cur) (days : Nat) (hends : ∀ e ∈ s.expiresAt, n < e)
    (hlater : now < fromDriver n) : toDriver now < n ∧
      n < toDriver (addSubscriptionDays (if now < fromDriver cur then fromDriver cur else now) days) := by
  have hn := hends cur hcur
  unfold fromDriver at *
  rw [if_pos (by omega)]
  unfold addSubscriptionDays toDriver
  constructor <;> omega

def UserSubscription.EndsBefore (s : UserSubscription) : Prop :=
  ∀ n ∈ s.nextTrafficResetAt, ∀ e ∈ s.expiresAt, n < e

theorem stored_eq_some {o : Option Int} {now next : Int}
    (h : (o.map fromDriver).filter (fun n => now < n) = some next) :
    ∃ n ∈ o, next = fromDriver n ∧ now < fromDriver n := by
  obtain ⟨ho, hlt⟩ := Option.filter_eq_some_iff.mp h
  obtain ⟨n, hn, rfl⟩ := Option.map_eq_some_iff.mp ho
  exact ⟨n, hn, rfl, of_decide_eq_true hlt⟩

@[simp] theorem toDriver_fromDriver (n : Int) : toDriver (fromDriver n) = n := by
  unfold toDriver fromDriver
  omega

theorem extendedTrafficReset_between {cur r : Int} {days : Int} (hcur : s.expiresAt = some cur) (hends : s.EndsBefore)
    (hmay : MayRestart b (subscriptionTrafficLimit b.db s) s)
    (h : extendedTrafficReset b.db s (some (extendedExpiresAt (fromDriver cur) days b.now)) b.now = some r) :
    StoredBetween b.now (some (extendedExpiresAt (fromDriver cur) days b.now)) r := by
  unfold extendedTrafficReset at h
  split at h
  · rename_i hlimit
    obtain ⟨hmonth, hanew⟩ := hmay.2.resolve_left (by omega)
    have hclear : ∀ e ∈ some (extendedExpiresAt (fromDriver cur) days b.now), inFirstSecond e = false := by
      intro e he
      obtain rfl := Option.some.inj he
      exact restart_clear hcur days.toNat hanew
    split at h
    · rename_i huser
      exact configured_storedBetween hclear (boundTrafficResetAt_eq_some h).1 (hmonth.of_auto huser)
    · split at h
      · -- the stored boundary is kept
        rename_i hstored
        obtain ⟨hr, -⟩ := boundTrafficResetAt_eq_some h
        obtain rfl := Option.some.inj hr
        obtain ⟨n, hn, rfl, hlater⟩ := stored_eq_some hstored
        obtain ⟨hnow, hlt⟩ := restart_keeps hcur days.toNat (hends n hn) hlater
        unfold StoredBetween
        rw [toDriver_fromDriver]
        refine ⟨hnow, fun e he => ?_⟩
        obtain rfl := Option.some.inj he
        exact hlt
      · exact monthly_storedBetween hclear (boundTrafficResetAt_eq_some h).1
  · cases h

theorem rescheduledTrafficReset_between {expiresAt : Option Int} (hpast : expiresAt.any (fun e => e ≤ b.now) = false)
    (hmay : MayExpireAt b expiresAt s) (h : rescheduledTrafficReset b.db s expiresAt b.now = some r) :
    StoredBetween b.now expiresAt r := by
  unfold rescheduledTrafficReset at h
  split at h
  · rename_i hlimit
    have hfuture : ¬ ∃ e ∈ expiresAt, e ≤ b.now := by
      rintro ⟨e, he, hle⟩
      rw [Option.mem_def.mp he, Option.any_some] at hpast
      exact of_decide_eq_false hpast hle
    obtain ⟨hmonth, hdates⟩ := (hmay.2.resolve_left (by omega)).resolve_left hfuture
    have hclear : ∀ e ∈ expiresAt, inFirstSecond e = false := fun e he => (hdates e he).1
    split at h
    · rename_i huser
      exact configured_storedBetween hclear (boundTrafficResetAt_eq_some h).1 (hmonth.of_auto huser)
    · split at h
      · rename_i hkept
        obtain rfl := Option.some.inj h
        obtain ⟨hstored, hbound⟩ := boundTrafficResetAt_eq_some hkept
        obtain ⟨n, hn, rfl, hlater⟩ := stored_eq_some hstored
        unfold StoredBetween
        rw [toDriver_fromDriver]
        constructor
        · unfold fromDriver at hlater
          unfold toDriver
          omega
        · intro e he
          have hlt := hbound e he
          have hsame := (hdates e he).2
          by_contra hle
          -- the expiry date lies in the second of the boundary
          have heq : n = toDriver e := by
            unfold fromDriver at hlt
            unfold toDriver at hle ⊢
            omega
          have hwhole := hsame (heq ▸ hn)
          unfold fromDriver at hlt
          unfold toDriver at heq
          omega
      · exact monthly_storedBetween hclear (boundTrafficResetAt_eq_some h).1
  · cases h

theorem renewedTrafficReset_between {plan : SubscriptionPlan} {userId days : Nat} (huserId : s.userId = userId)
    (hends : s.EndsBefore) (hmay : MayRestart b plan.trafficLimit s)
    (h : renewedTrafficReset (getUserById b.db userId) plan s (renewedExpiresAt s days b.now) b.now = some r) :
    StoredBetween b.now (renewedExpiresAt s days b.now) r := by
  unfold renewedTrafficReset at h
  split at h
  · rename_i hlimit
    obtain ⟨hmonth, hanew⟩ := hmay.2.resolve_left (by omega)
    -- a new end is the end of a period that is added
    have hperiod : ∀ e ∈ renewedExpiresAt s days b.now, ∃ cur, s.expiresAt = some cur ∧
        e = addSubscriptionDays (if b.now < fromDriver cur then fromDriver cur else b.now) days := by
      intro e he
      unfold renewedExpiresAt at he
      split at he
      · cases he
      · rename_i hcur
        obtain ⟨c, hc, rfl⟩ := Option.map_eq_some_iff.mp hcur
        split at he
        · exact ⟨c, hc, (Option.some.inj he).symm⟩
        · cases he
    have hclear : ∀ e ∈ renewedExpiresAt s days b.now, inFirstSecond e = false := by
      intro e he
      obtain ⟨cur, hcur, rfl⟩ := hperiod e he
      exact restart_clear hcur days hanew
    split at h
    · rename_i huser
      exact configured_storedBetween hclear (boundTrafficResetAt_eq_some h).1
        (hmonth.of_auto (huserId ▸ huser))
    · rename_i next hnext
      split at h
      · rename_i hlater
        obtain ⟨n, hn, rfl⟩ := Option.map_eq_some_iff.mp hnext
        obtain ⟨hr, -⟩ := boundTrafficResetAt_eq_some h
        obtain rfl := Option.some.inj hr
        unfold StoredBetween
        rw [toDriver_fromDriver]
        refine ⟨by unfold fromDriver at hlater; unfold toDriver; omega, fun e he => ?_⟩
        obtain ⟨cur, hcur, rfl⟩ := hperiod e he
        exact (restart_keeps hcur days (hends n hn) hlater).2
      · exact monthly_storedBetween hclear (boundTrafficResetAt_eq_some h).1
    · split at h
      · rename_i cur e hcur he
        obtain ⟨c, hc, rfl⟩ := Option.map_eq_some_iff.mp hcur
        split at h
        · -- the period that is added starts with a cycle
          rename_i hlater
          obtain ⟨hr, -⟩ := boundTrafficResetAt_eq_some h
          obtain rfl := Option.some.inj hr
          unfold StoredBetween
          rw [toDriver_fromDriver]
          refine ⟨by unfold fromDriver at hlater; unfold toDriver; omega, fun e' he' => ?_⟩
          obtain ⟨cur', hcur', heq⟩ := hperiod e' he'
          obtain rfl := Option.some.inj (hcur'.symm.trans hc)
          rw [he] at he'
          obtain rfl := Option.some.inj he'
          rw [if_pos hlater.1] at heq
          unfold addSubscriptionDays fromDriver at heq
          unfold fromDriver at hlater
          unfold toDriver
          omega
        · exact monthly_storedBetween hclear (boundTrafficResetAt_eq_some h).1
      · exact monthly_storedBetween hclear (boundTrafficResetAt_eq_some h).1
  · cases h

/-! ## What a settlement leaves -/

theorem alignedTrafficReset_bounds {db : Db} (h : alignedTrafficReset db user s now = some r) :
    r % 1000 = 0 ∧ ∀ e ∈ s.expiresAt, r < fromDriver e := by
  have hbound : ∀ {reset expiresAt : Option Int}, boundTrafficResetAt reset expiresAt = some r →
      expiresAt = s.expiresAt.map fromDriver → ∀ e ∈ s.expiresAt, r < fromDriver e := by
    rintro reset expiresAt hr rfl e he
    exact (boundTrafficResetAt_eq_some hr).2 _ (Option.mem_map_of_mem _ he)
  unfold alignedTrafficReset at h
  dsimp only at h
  split at h
  · split at h
    · exact ⟨(lt_of_configured h).2, hbound h rfl⟩
    · exact ⟨(lt_of_anchored h).2, hbound h rfl⟩
  · cases h

theorem settledTrafficReset_bounds (h : settledTrafficReset user s now = some r) :
    now < r ∧ r % 1000 = 0 ∧ ∀ e ∈ s.expiresAt, r < fromDriver e := by
  unfold settledTrafficReset at h
  obtain ⟨hreset, hbound⟩ := boundTrafficResetAt_eq_some h
  have hexp : ∀ e ∈ s.expiresAt, r < fromDriver e :=
    fun e he => hbound _ (Option.mem_map_of_mem _ he)
  split at hreset
  · obtain ⟨hlater, hsecond⟩ := lt_of_configured hreset
    exact ⟨lt_of_le_of_lt (le_max_right _ _) hlater, hsecond, hexp⟩
  · obtain ⟨hlater, hsecond⟩ := lt_of_anchored hreset
    exact ⟨hlater, hsecond, hexp⟩

theorem toDriver_lt_of_fromDriver {r e : Int} (h : r < fromDriver e) : toDriver r < e := by
  unfold fromDriver at h
  unfold toDriver
  omega

/-- After the settlement of its user no boundary of an active subscription is due. -/
theorem rechargedRow_upcoming (db : Db) (hactive : s.isActiveAt now = true) (huser : s.userId = user.id) :
    (rechargedRow db user now s).Upcoming now := by
  unfold rechargedRow settledRow
  rw [if_pos (by simp [hactive, huser])]
  have hexp : (alignedRow db user now s).expiresAt = s.expiresAt := by
    unfold alignedRow
    split <;> rfl
  split
  · intro n hn
    obtain ⟨r, hr, rfl⟩ := Option.map_eq_some_iff.mp hn
    obtain ⟨hlater, hsecond, hbound⟩ := settledTrafficReset_bounds hr
    exact ⟨toDriver_lt hlater hsecond, fun e he => toDriver_lt_of_fromDriver (hbound e he)⟩
  · rename_i hdue
    intro n hn
    refine ⟨?_, fun e he => ?_⟩
    · by_contra hle
      exact hdue ((resetDue_iff _ _).mpr ⟨n, hn, Int.not_lt.mp hle⟩)
    · rw [hexp] at he
      unfold alignedRow at hn hdue
      split at hn
      · rename_i hstored
        rw [if_pos hstored] at hdue
        exact absurd hstored hdue
      · obtain ⟨r, hr, rfl⟩ := Option.map_eq_some_iff.mp hn
        exact toDriver_lt_of_fromDriver ((alignedTrafficReset_bounds hr).2 e he)

end ForwardX.Panel
