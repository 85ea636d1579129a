import ForwardX.Lib.Quota
import ForwardX.Panel.Store

/- The limits of a user: those of all active subscriptions together
   (`getEffectiveUserPlanLimits`), merged with the ones that an administrator has set by hand
   (`mergeManualAndPlanLimits`). A limit of zero is no limit. -/
namespace ForwardX.Panel

/-- A row of `getActiveUserSubscriptions`: the subscription with the limits of its snapshot or,
without a snapshot, of its plan. They are null when the plan is gone. -/
structure LimitedSubscription extends UserSubscription where
  portCount : Option Nat
  trafficLimit : Option Nat
  rateLimitMbps : Option Nat
  maxRules : Option Nat
  maxConnections : Option Nat
  maxIPs : Option Nat
  deriving DecidableEq, Repr

/-- `Number(sub[field] || 0)`. -/
def numberOr0 (value : Option Nat) : Nat := value.getD 0

structure PlanLimits where
  canAddRules : Bool
  allowForwardXTunnel : Bool
  maxPorts : Nat
  maxRules : Nat
  maxConnections : Nat
  maxIPs : Nat
  baseTrafficLimit : Nat
  addonTrafficLimit : Nat
  trafficLimit : Nat
  gostRateLimitIn : Nat
  gostRateLimitOut : Nat
  expiresAt : Option Int
  deriving DecidableEq, Repr

structure LimitRows where
  subscriptions : List LimitedSubscription
  trafficAddons : List UserTrafficAddon
  deriving DecidableEq, Repr

def LimitRows.active (rows : LimitRows) (userId : Nat) (now : Int) : List LimitedSubscription :=
  rows.subscriptions.filter (fun s => s.isActiveAt now && s.userId = userId)

/-- `getActiveUserTrafficAddonBytes`: an inner join of active add-ons and active subscriptions. -/
def getActiveUserTrafficAddonBytes (rows : LimitRows) (userId : Nat) (now : Int) : Nat :=
  if userId = 0 then 0
  else
    ((rows.trafficAddons.filter (fun a => a.userId = userId && a.status = .active &&
      a.expiresAt.all (fun e => toDriver now < e))).map (fun a =>
        ((rows.subscriptions.filter (fun s => s.id = a.subscriptionId && s.isActiveAt now)).map
          (fun _ => a.trafficBytes)).sum)).sum

def sumWithUnlimited (field : LimitedSubscription → Option Nat) (active : List LimitedSubscription) : Nat :=
  if active.any (fun sub => numberOr0 (field sub) = 0) then 0
  else (active.map (fun sub => numberOr0 (field sub))).sum

/-- `Math.max(...)`. -/
def maxOf (field : LimitedSubscription → Option Nat) (active : List LimitedSubscription) : Nat :=
  (active.map (fun sub => numberOr0 (field sub))).foldl max 0

/-- The loop for `expiresAt`: the latest time, and null as soon as one subscription has none. -/
def latestPlanExpiry : Option Int → List LimitedSubscription → Option Int
  | expiresAt, [] => expiresAt
  | expiresAt, sub :: active =>
    match sub.expiresAt with
    | none => none
    | some subExpiresAt =>
      latestPlanExpiry (some (match expiresAt with
        | none => subExpiresAt
        | some e => if e < subExpiresAt then subExpiresAt else e)) active

def getEffectiveUserPlanLimits (rows : LimitRows) (userId : Nat) (now : Int) : PlanLimits :=
  let active := rows.active userId now
  if active.length = 0 then
    { canAddRules := false, allowForwardXTunnel := false, maxPorts := 0, maxRules := 0, maxConnections := 0,
      maxIPs := 0, baseTrafficLimit := 0, addonTrafficLimit := 0, trafficLimit := 0, gostRateLimitIn := 0,
      gostRateLimitOut := 0, expiresAt := none }
  else
    let baseTrafficLimit := sumWithUnlimited (·.trafficLimit) active
    let addonTrafficLimit :=
      if 0 < baseTrafficLimit then getActiveUserTrafficAddonBytes rows userId now else 0
    { canAddRules := true
      allowForwardXTunnel := true
      maxPorts := sumWithUnlimited (·.portCount) active
      maxRules := sumWithUnlimited (·.maxRules) active
      maxConnections := sumWithUnlimited (·.maxConnections) active
      maxIPs := sumWithUnlimited (·.maxIPs) active
      baseTrafficLimit := baseTrafficLimit
      addonTrafficLimit := addonTrafficLimit
      trafficLimit := if 0 < baseTrafficLimit then baseTrafficLimit + addonTrafficLimit else baseTrafficLimit
      gostRateLimitIn := maxOf (·.rateLimitMbps) active
      gostRateLimitOut := maxOf (·.rateLimitMbps) active
      expiresAt := latestPlanExpiry none active }

/-- What a row of `users` holds that was set by hand. -/
structure ManualLimits where
  manualCanAddRules : Bool
  manualAllowForwardXTunnel : Bool
  manualMaxPorts : Int
  manualMaxRules : Int
  manualMaxConnections : Int
  manualMaxIPs : Int
  manualTrafficLimit : Int
  manualGostRateLimitIn : Int
  manualGostRateLimitOut : Int
  manualExpiresAt : Option Int
  deriving DecidableEq, Repr

/-- Of an integer, `Math.max(0, …)`. -/
def positiveInt (value : Int) : Nat := value.toNat

/-- The loop of `mergeLimitValue`; a source is a pair of `active` and `value`. -/
def mergeLimitLoop (hasSource : Bool) (limit : Nat) : List (Bool × Int) → Nat
  | [] => if hasSource then limit else 0
  | (active, value) :: sources =>
    if !active then mergeLimitLoop hasSource limit sources
    else if positiveInt value = 0 then 0
    else mergeLimitLoop true (max limit (positiveInt value)) sources

def mergeLimitValue (sources : List (Bool × Int)) : Nat := mergeLimitLoop false 0 sources

/-- The loop of `latestExpiresAtValue`. -/
def latestExpiresAtLoop : Option Int → List (Bool × Option Int) → Option Int
  | latest, [] => latest
  | latest, (active, value) :: sources =>
    if !active then latestExpiresAtLoop latest sources
    else
      match value with
      | none => none
      | some date =>
        latestExpiresAtLoop (some (match latest with
          | none => date
          | some e => if e < date then date else e)) sources

def latestExpiresAtValue (sources : List (Bool × Option Int)) : Option Int := latestExpiresAtLoop none sources

structure UserLimits where
  canAddRules : Bool
  allowForwardXTunnel : Bool
  maxPorts : Nat
  maxRules : Nat
  maxConnections : Nat
  maxIPs : Nat
  trafficLimit : Nat
  gostRateLimitIn : Nat
  gostRateLimitOut : Nat
  expiresAt : Option Int
  deriving DecidableEq, Repr

def mergeManualAndPlanLimits (user : ManualLimits) (planLimits : PlanLimits) : UserLimits :=
  let planCanAddRules := planLimits.canAddRules
  let manualDefaultActive := user.manualCanAddRules && !planCanAddRules
  let merge := fun (plan : Nat) (manual : Int) =>
    mergeLimitValue [(planCanAddRules, plan),
      (manualDefaultActive || decide (0 < positiveInt manual), positiveInt manual)]
  let addonTrafficLimit := if planCanAddRules then planLimits.addonTrafficLimit else 0
  let baseTrafficLimit := merge planLimits.baseTrafficLimit user.manualTrafficLimit
  { canAddRules := user.manualCanAddRules || planCanAddRules
    allowForwardXTunnel := user.manualAllowForwardXTunnel || planLimits.allowForwardXTunnel
    maxPorts := merge planLimits.maxPorts user.manualMaxPorts
    maxRules := merge planLimits.maxRules user.manualMaxRules
    maxConnections := merge planLimits.maxConnections user.manualMaxConnections
    maxIPs := merge planLimits.maxIPs user.manualMaxIPs
    trafficLimit := if 0 < baseTrafficLimit then baseTrafficLimit + addonTrafficLimit else baseTrafficLimit
    gostRateLimitIn := merge planLimits.gostRateLimitIn user.manualGostRateLimitIn
    gostRateLimitOut := merge planLimits.gostRateLimitOut user.manualGostRateLimitOut
    expiresAt := latestExpiresAtValue [(planCanAddRules, planLimits.expiresAt),
      (manualDefaultActive || user.manualExpiresAt.isSome, user.manualExpiresAt)] }

def effectiveLimits (user : ManualLimits) (rows : LimitRows) (userId : Nat) (now : Int) : UserLimits :=
  mergeManualAndPlanLimits user (getEffectiveUserPlanLimits rows userId now)

/-! ## The order of limits -/

/-- `b` is no earlier than `a`; no time is the latest. -/
def ExpiryLe (a b : Option Int) : Prop := b.all (fun e => a.any (· ≤ e)) = true

/-- None of the limits is tighter in `b` than in `a`. -/
structure UserLimits.Le (a b : UserLimits) : Prop where
  maxPorts : Quota.Le a.maxPorts b.maxPorts
  maxRules : Quota.Le a.maxRules b.maxRules
  maxConnections : Quota.Le a.maxConnections b.maxConnections
  maxIPs : Quota.Le a.maxIPs b.maxIPs
  trafficLimit : Quota.Le a.trafficLimit b.trafficLimit
  gostRateLimitIn : Quota.Le a.gostRateLimitIn b.gostRateLimitIn
  gostRateLimitOut : Quota.Le a.gostRateLimitOut b.gostRateLimitOut
  expiresAt : ExpiryLe a.expiresAt b.expiresAt

/-! ## The folds over the subscriptions -/

section
variable (field : LimitedSubscription → Option Nat)

theorem sumWithUnlimited_eq_total (active : List LimitedSubscription) :
    sumWithUnlimited field active = Quota.total (active.map (fun sub => numberOr0 (field sub))) := by
  unfold sumWithUnlimited Quota.total
  apply if_congr _ rfl rfl
  rw [List.any_eq_true, List.mem_map]
  simp only [decide_eq_true_eq]

variable {before after : List LimitedSubscription}

theorem sumWithUnlimited_insert (hsome : before ++ after ≠ []) (extra : LimitedSubscription) :
    Quota.Le (sumWithUnlimited field (before ++ after)) (sumWithUnlimited field (before ++ extra :: after)) := by
  rw [sumWithUnlimited_eq_total, sumWithUnlimited_eq_total, List.map_append, List.map_append, List.map_cons]
  apply Quota.total_insert
  rw [← List.map_append]
  simpa using hsome

theorem foldl_max (limits : List Nat) (start : Nat) : limits.foldl max start = max start (limits.foldl max 0) := by
  induction limits generalizing start with
  | nil => exact (Nat.max_eq_left (Nat.zero_le start)).symm
  | cons limit limits ih =>
    rw [List.foldl_cons, List.foldl_cons, ih (max start limit), ih (max 0 limit)]
    omega

theorem maxOf_insert (before after : List LimitedSubscription) (extra : LimitedSubscription) :
    maxOf field (before ++ extra :: after) = max (maxOf field (before ++ after)) (numberOr0 (field extra)) := by
  unfold maxOf
  rw [List.map_append, List.map_append, List.map_cons, List.foldl_append, List.foldl_append, List.foldl_cons,
    foldl_max _ (max _ _), foldl_max _ (List.foldl max 0 (before.map _))]
  omega

theorem maxOf_eq_zero {active : List LimitedSubscription} :
    maxOf field active = 0 ↔ ∀ sub ∈ active, numberOr0 (field sub) = 0 := by
  unfold maxOf
  induction active with
  | nil => simp
  | cons sub active ih =>
    rw [List.map_cons, List.foldl_cons, foldl_max, List.forall_mem_cons, ← ih]
    omega

end

/-! ## Times -/

theorem expiryLe_some {a : Option Int} {bound : Int} : ExpiryLe a (some bound) ↔ ∃ e, a = some e ∧ e ≤ bound := by
  cases a <;> simp [ExpiryLe]

/-- A time is no earlier than another when all that bounds it bounds the other. -/
theorem expiryLe_of_bounds {a b : Option Int} (h : ∀ bound, ExpiryLe b (some bound) → ExpiryLe a (some bound)) :
    ExpiryLe a b := by
  cases b with
  | none => rfl
  | some e => exact h e (expiryLe_some.mpr ⟨e, rfl, Int.le_refl e⟩)

/-- What bounds the result of the loop bounds all the times it was made of. -/
theorem latestPlanExpiry_le {active : List LimitedSubscription} {start : Option Int} {bound : Int}
    (hsome : start.isSome = true ∨ active ≠ []) :
    ExpiryLe (latestPlanExpiry start active) (some bound) ↔
      (∀ e ∈ start, e ≤ bound) ∧ ∀ sub ∈ active, ExpiryLe sub.expiresAt (some bound) := by
  induction active generalizing start with
  | nil =>
    obtain ⟨e, rfl⟩ := Option.isSome_iff_exists.mp (hsome.resolve_right (fun h => h rfl))
    simp [latestPlanExpiry, ExpiryLe]
  | cons sub active ih =>
    unfold latestPlanExpiry
    rw [List.forall_mem_cons]
    cases hexpiry : sub.expiresAt with
    | none =>
      constructor
      · intro h
        obtain ⟨_, hnone, _⟩ := expiryLe_some.mp h
        cases hnone
      · rintro ⟨_, h, _⟩
        exact h
    | some subExpiresAt =>
      dsimp only
      rw [ih (.inl rfl)]
      cases start with
      | none => simp [ExpiryLe]
      | some e =>
        simp only [Option.mem_def, Option.some.injEq, forall_eq', ExpiryLe, Option.all_some, Option.any_some,
          decide_eq_true_eq, ← and_assoc]
        apply and_congr_left
        intro _
        split <;> omega

theorem latestPlanExpiry_insert {before after : List LimitedSubscription} (hsome : before ++ after ≠ [])
    (extra : LimitedSubscription) :
    ExpiryLe (latestPlanExpiry none (before ++ after)) (latestPlanExpiry none (before ++ extra :: after)) := by
  apply expiryLe_of_bounds
  intro bound hbound
  rw [latestPlanExpiry_le (.inr (by simp))] at hbound
  rw [latestPlanExpiry_le (.inr hsome)]
  refine ⟨hbound.1, fun sub hsub => hbound.2 sub ?_⟩
  rw [List.mem_append] at hsub ⊢
  exact hsub.imp_right (List.mem_cons_of_mem extra)

/-! ## The merge with the manual limits -/

theorem mergeLimitValue_plan (plan : Nat) (manual : Int) :
    mergeLimitValue [(true, plan), (false || decide (0 < positiveInt manual), positiveInt manual)] =
      Quota.widen plan (positiveInt manual) := by
  simp only [mergeLimitValue, mergeLimitLoop, Quota.widen, positiveInt, Int.toNat_natCast, Bool.false_or,
    Bool.not_true, Bool.not_eq_true']
  grind

theorem latestExpiresAtValue_le {plan manual : Option Int} {bound : Int} :
    ExpiryLe (latestExpiresAtValue [(true, plan), (false || manual.isSome, manual)]) (some bound) ↔
      ExpiryLe plan (some bound) ∧ ∀ e ∈ manual, e ≤ bound := by
  cases plan with
  | none => simp [latestExpiresAtValue, latestExpiresAtLoop, ExpiryLe]
  | some date =>
    cases manual with
    | none => simp [latestExpiresAtValue, latestExpiresAtLoop, ExpiryLe]
    | some e =>
      simp only [latestExpiresAtValue, latestExpiresAtLoop, ExpiryLe, Option.isSome_some, Bool.or_true,
        Bool.not_true, Bool.false_eq_true, if_false, Option.all_some, Option.any_some, decide_eq_true_eq,
        Option.mem_def, Option.some.injEq, forall_eq']
      split <;> omega

theorem latestExpiresAtValue_mono {a b manual : Option Int} (h : ExpiryLe a b) :
    ExpiryLe (latestExpiresAtValue [(true, a), (false || manual.isSome, manual)])
      (latestExpiresAtValue [(true, b), (false || manual.isSome, manual)]) := by
  apply expiryLe_of_bounds
  intro bound hbound
  rw [latestExpiresAtValue_le] at hbound ⊢
  refine ⟨?_, hbound.2⟩
  obtain ⟨e, rfl, he⟩ := expiryLe_some.mp hbound.1
  obtain ⟨d, rfl, hd⟩ := expiryLe_some.mp h
  exact expiryLe_some.mpr ⟨d, rfl, Int.le_trans hd he⟩

/-! ## One more subscription -/

section
variable {user : ManualLimits} {before after : List LimitedSubscription} {extra : LimitedSubscription}
  {trafficAddons : List UserTrafficAddon} {userId : Nat} {now : Int}

theorem active_insert (hextra : extra.isActiveAt now = true ∧ extra.userId = userId) :
    LimitRows.active ⟨before ++ extra :: after, trafficAddons⟩ userId now =
      LimitRows.active ⟨before, trafficAddons⟩ userId now ++
        extra :: LimitRows.active ⟨after, trafficAddons⟩ userId now := by
  unfold LimitRows.active
  rw [List.filter_append, List.filter_cons_of_pos (by simp [hextra.1, hextra.2])]

theorem active_append :
    LimitRows.active ⟨before ++ after, trafficAddons⟩ userId now =
      LimitRows.active ⟨before, trafficAddons⟩ userId now ++ LimitRows.active ⟨after, trafficAddons⟩ userId now :=
  List.filter_append _ _

theorem addonBytes_insert :
    getActiveUserTrafficAddonBytes ⟨before ++ after, trafficAddons⟩ userId now ≤
      getActiveUserTrafficAddonBytes ⟨before ++ extra :: after, trafficAddons⟩ userId now := by
  unfold getActiveUserTrafficAddonBytes
  split
  · exact Nat.le_refl 0
  · apply List.sum_le_sum
    intro a _
    apply List.Sublist.sum_le_sum
    · apply List.Sublist.map
      apply List.Sublist.filter
      exact (List.Sublist.refl before).append (List.sublist_cons_self extra after)
    · intro _ _
      exact Nat.zero_le _

/-- With an active subscription the limits are those of the plans, widened by the manual ones. -/
theorem effectiveLimits_eq {rows : LimitRows} (hsome : rows.active userId now ≠ []) :
    effectiveLimits user rows userId now =
      let active := rows.active userId now
      let base := Quota.widen (sumWithUnlimited (·.trafficLimit) active) (positiveInt user.manualTrafficLimit)
      let addons :=
        if 0 < sumWithUnlimited (·.trafficLimit) active then getActiveUserTrafficAddonBytes rows userId now else 0
      { canAddRules := true
        allowForwardXTunnel := true
        maxPorts := Quota.widen (sumWithUnlimited (·.portCount) active) (positiveInt user.manualMaxPorts)
        maxRules := Quota.widen (sumWithUnlimited (·.maxRules) active) (positiveInt user.manualMaxRules)
        maxConnections :=
          Quota.widen (sumWithUnlimited (·.maxConnections) active) (positiveInt user.manualMaxConnections)
        maxIPs := Quota.widen (sumWithUnlimited (·.maxIPs) active) (positiveInt user.manualMaxIPs)
        trafficLimit := if 0 < base then base + addons else base
        gostRateLimitIn := Quota.widen (maxOf (·.rateLimitMbps) active) (positiveInt user.manualGostRateLimitIn)
        gostRateLimitOut := Quota.widen (maxOf (·.rateLimitMbps) active) (positiveInt user.manualGostRateLimitOut)
        expiresAt := latestExpiresAtValue [(true, latestPlanExpiry none active),
          (false || user.manualExpiresAt.isSome, user.manualExpiresAt)] } := by
  unfold effectiveLimits getEffectiveUserPlanLimits
  rw [if_neg (by simpa using hsome)]
  simp only [mergeManualAndPlanLimits, Bool.or_true, Bool.not_true, Bool.and_false, if_true, mergeLimitValue_plan]

/-- A rate that is the greatest of the rates is wider with one more subscription, except where
it leaves zero. -/
theorem widen_max_iff {rate x other : Nat} :
    Quota.Le (Quota.widen rate other) (Quota.widen (max rate x) other) ↔ ¬ (rate = 0 ∧ 0 < x) := by
  unfold Quota.Le Quota.widen
  split <;> split <;> omega

/-- Traffic grows with the plans and the add-ons. Where the plans leave it unlimited the add-ons
are not counted. -/
theorem trafficLimit_mono {sum sum' addons addons' : Nat} (manual : Nat) (hsum : Quota.Le sum sum')
    (haddons : addons ≤ addons') :
    Quota.Le
      (if 0 < Quota.widen sum manual then Quota.widen sum manual + (if 0 < sum then addons else 0)
        else Quota.widen sum manual)
      (if 0 < Quota.widen sum' manual then Quota.widen sum' manual + (if 0 < sum' then addons' else 0)
        else Quota.widen sum' manual) := by
  rcases Nat.eq_zero_or_pos sum' with rfl | hpos
  · have hwiden : Quota.widen 0 manual = 0 := Quota.widen_eq_zero.mpr rfl
    simp only [hwiden, Nat.lt_irrefl, if_false]
    exact Quota.le_unlimited _
  · apply Quota.add_mono (Quota.widen_mono hsum manual)
    rw [if_pos hpos]
    split
    · exact haddons
    · exact Nat.zero_le _

/-- One more active subscription tightens no limit, but for a rate: exactly where no active
subscription limits the rate and the new one does, there was no rate limit and now is one. -/
theorem plan_limits_monotone (hsome : LimitRows.active ⟨before ++ after, trafficAddons⟩ userId now ≠ [])
    (hextra : extra.isActiveAt now = true ∧ extra.userId = userId) :
    (effectiveLimits user ⟨before ++ after, trafficAddons⟩ userId now).Le
        (effectiveLimits user ⟨before ++ extra :: after, trafficAddons⟩ userId now) ↔
      ¬ ((∀ sub ∈ LimitRows.active ⟨before ++ after, trafficAddons⟩ userId now,
          numberOr0 sub.rateLimitMbps = 0) ∧
        0 < numberOr0 extra.rateLimitMbps) := by
  have hsome' : LimitRows.active ⟨before ++ extra :: after, trafficAddons⟩ userId now ≠ [] := by
    rw [active_insert hextra]
    simp
  rw [effectiveLimits_eq hsome, effectiveLimits_eq hsome', active_insert hextra, active_append, ← maxOf_eq_zero]
  rw [active_append] at hsome
  dsimp only
  constructor
  · intro h
    have hrate := h.gostRateLimitIn
    dsimp only at hrate
    rw [maxOf_insert, widen_max_iff] at hrate
    exact hrate
  · intro hrate
    have hsum := fun field : LimitedSubscription → Option Nat => sumWithUnlimited_insert field hsome extra
    refine ⟨?_, ?_, ?_, ?_, ?_, ?_, ?_, ?_⟩
    · exact Quota.widen_mono (hsum _) _
    · exact Quota.widen_mono (hsum _) _
    · exact Quota.widen_mono (hsum _) _
    · exact Quota.widen_mono (hsum _) _
    · exact trafficLimit_mono _ (hsum _) addonBytes_insert
    · dsimp only
      rw [maxOf_insert, widen_max_iff]
      exact hrate
    · dsimp only
      rw [maxOf_insert, widen_max_iff]
      exact hrate
    · exact latestExpiresAtValue_mono (latestPlanExpiry_insert hsome extra)

end

/-- A subscription of user 1 without limits, but for the rate. -/
def rateSubscription (id : Nat) (rateLimitMbps : Nat) : LimitedSubscription where
  id := id
  userId := 1
  planId := id
  status := .active
  source := .payment
  paymentOrderNo := none
  planSnapshot := none
  portRangeStart := none
  portRangeEnd := none
  nextTrafficResetAt := none
  lastTrafficResetAt := none
  startedAt := 0
  expiresAt := none
  portCount := some 20
  trafficLimit := some 0
  rateLimitMbps := some rateLimitMbps
  maxRules := some 20
  maxConnections := some 2000
  maxIPs := some 10

def noManualLimits : ManualLimits where
  manualCanAddRules := false
  manualAllowForwardXTunnel := false
  manualMaxPorts := 0
  manualMaxRules := 0
  manualMaxConnections := 0
  manualMaxIPs := 0
  manualTrafficLimit := 0
  manualGostRateLimitIn := 0
  manualGostRateLimitOut := 0
  manualExpiresAt := none

/-- A second plan of 200 Mbit/s beside one of 100. -/
theorem faster_plan_widens :
    (effectiveLimits noManualLimits ⟨[rateSubscription 1 100], []⟩ 1 0).Le
      (effectiveLimits noManualLimits ⟨[rateSubscription 2 200, rateSubscription 1 100], []⟩ 1 0) :=
  (@plan_limits_monotone noManualLimits [] [rateSubscription 1 100] (rateSubscription 2 200) [] 1 0
    (by decide) (by decide)).mpr (by decide)

/-- Beside a plan without a rate limit a plan of 100 Mbit/s takes the rate from unlimited to 100. -/
theorem limited_plan_tightens :
    (effectiveLimits noManualLimits ⟨[rateSubscription 1 0], []⟩ 1 0).gostRateLimitIn = 0 ∧
      (effectiveLimits noManualLimits ⟨[rateSubscription 2 100, rateSubscription 1 0], []⟩ 1 0).gostRateLimitIn =
        100 ∧
      ¬ Quota.Le (effectiveLimits noManualLimits ⟨[rateSubscription 1 0], []⟩ 1 0).gostRateLimitIn
        (effectiveLimits noManualLimits ⟨[rateSubscription 2 100, rateSubscription 1 0], []⟩ 1 0).gostRateLimitIn := by
  decide

end ForwardX.Panel
