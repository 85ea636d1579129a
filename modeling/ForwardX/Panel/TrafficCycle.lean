import ForwardX.Panel.Store

/- Traffic cycles of subscriptions (`billingRepository.ts`): the three formulas for the next
   reset, how add-ons follow the end of their cycle, and the settlement of the boundaries
   that have passed. -/
namespace ForwardX.Panel

/-! ## The next reset -/

def boundTrafficResetAt (resetAt expiresAt : Option Int) : Option Int :=
  resetAt.filter (fun r => expiresAt.all (fun e => r < e))

def startOfDayAfterMonths (date : Int) (months : Int) : Int :=
  billingStartOfCalendarDay (billingAddMonthsClamped date months)

def nextBillingMonthlyTrafficReset (start : Int) (expiresAt : Option Int) : Option Int :=
  boundTrafficResetAt (some (startOfDayAfterMonths start 1)) expiresAt

def nextAnchoredSubscriptionTrafficReset (startedAt reference : Int) (expiresAt : Option Int) :
    Option Int :=
  let referenceCalendar := billingCalendarParts reference
  let anchorCalendar := billingCalendarParts startedAt
  let monthDelta := max 1
    ((referenceCalendar.year - anchorCalendar.year) * 12 + referenceCalendar.month - anchorCalendar.month)
  let next := fun (k : Nat) => startOfDayAfterMonths startedAt (monthDelta + k)
  -- the loop stops in the month after the reference at the latest
  boundTrafficResetAt (some (next (Search.firstAbove next reference 1 0))) expiresAt

def User.resetDay (u : User) : Int := min 28 (max 1 (if u.trafficResetDay = 0 then 1 else u.trafficResetDay))

/-- `nextConfiguredSubscriptionTrafficReset`, of the dates of a subscription. -/
def nextConfiguredSubscriptionTrafficReset (user : User) (startedAt : Int) (lastTrafficResetAt : Option Int)
    (reference : Int) (expiresAt : Option Int) : Option Int :=
  let handledThrough := max startedAt (lastTrafficResetAt.getD startedAt)
  let next := fun (monthOffset : Nat) => billingMonthlyBoundary reference user.resetDay monthOffset
  let fuel := (billingMonth handledThrough + 1 - billingMonth reference).toNat
  boundTrafficResetAt (some (next (Search.firstAbove next handledThrough fuel 0))) expiresAt

/-- The `trafficLimit` of a subscription: that of its snapshot, else that of its plan. -/
def subscriptionTrafficLimit (db : Db) (s : UserSubscription) : Nat :=
  match s.planSnapshot with
  | some snapshot => snapshot.trafficLimit
  | none => ((getSubscriptionPlanById db s.planId).map (·.trafficLimit)).getD 0

/-! ## Add-ons -/

def updateActiveTrafficAddonCycleEnd (db : Db) (subscriptionId : Nat)
    (nextTrafficResetAt expiresAt : Option Int) : Db :=
  let cycleEnd := (nextTrafficResetAt <|> expiresAt).map toDriver
  updateTrafficAddons db
    (fun a => a.subscriptionId = subscriptionId && a.status = .active &&
      (a.expiresAt ≠ cycleEnd || a.cycleResetAt ≠ cycleEnd))
    (fun a => { a with cycleResetAt := cycleEnd, expiresAt := cycleEnd })

def UserTrafficAddon.expire (a : UserTrafficAddon) (now : Int) : UserTrafficAddon :=
  { a with status := .expired, expiredAt := some (toDriver now) }

/-- `expireTrafficAddonsForSubscriptionIds`, of one subscription. -/
def expireTrafficAddonsForSubscription (db : Db) (subscriptionId : Nat) (now : Int) : Db :=
  updateTrafficAddons db (fun a => a.status = .active && a.subscriptionId = subscriptionId) (·.expire now)

/-- `expireTrafficAddonsForSubscriptionCycles`, of one cycle: an add-on that was bought at or
after the boundary belongs to the next one. -/
def expireTrafficAddonsForCycle (db : Db) (subscriptionId : Nat) (dueBoundary now : Int) : Db :=
  updateTrafficAddons db
    (fun a => a.subscriptionId = subscriptionId && a.status = .active &&
      a.createdAt < toDriver dueBoundary)
    (·.expire now)

/-- `expireDueTrafficAddons`, of one user. -/
def expireDueTrafficAddons (db : Db) (userId : Nat) (now : Int) : Db :=
  updateTrafficAddons db
    (fun a => a.status = .active && a.userId = userId && a.expiresAt.any (fun e => e ≤ toDriver now))
    (·.expire now)

/-- `syncUserSubscriptionEntitlements`: add-ons that are due expire, and the user gets the
limits that follow from plans and manual settings. -/
def syncUserSubscriptionEntitlements (db : Db) (userId : Nat) (now : Int) (trafficLimit : Nat) : Db :=
  updateUser (expireDueTrafficAddons db userId now) userId (fun u => { u with trafficLimit := trafficLimit })

/-! ## Settlement -/

/-- `subscriptionCycleRows`: the active subscriptions of a user who exists. -/
def subscriptionCycleRows (db : Db) (userId : Nat) (now : Int) : List UserSubscription :=
  db.subscriptions.filter (fun s => s.isActiveAt now && s.userId = userId)

/-- The reset that the alignment computes for a subscription. -/
def alignedTrafficReset (db : Db) (user : User) (s : UserSubscription) (reference : Int) : Option Int :=
  let expiresAt := s.expiresAt.map fromDriver
  if 0 < subscriptionTrafficLimit db s then
    if user.trafficAutoReset then
      nextConfiguredSubscriptionTrafficReset user (fromDriver s.startedAt)
        (s.lastTrafficResetAt.map fromDriver) reference expiresAt
    else nextAnchoredSubscriptionTrafficReset (fromDriver s.startedAt) reference expiresAt
  else none

def UserSubscription.resetDue (s : UserSubscription) (reference : Int) : Bool :=
  s.nextTrafficResetAt.any (fun n => fromDriver n ≤ reference)

/-- One row of the alignment, with the values that the rows were read with. -/
def alignTrafficCycle (db : Db) (user : User) (reference : Int) (acc : Db) (row : UserSubscription) : Db :=
  if row.resetDue reference then acc
  else
    let nextTrafficResetAt := alignedTrafficReset db user row reference
    let acc := updateActiveTrafficAddonCycleEnd acc row.id nextTrafficResetAt (row.expiresAt.map fromDriver)
    if row.nextTrafficResetAt = nextTrafficResetAt.map toDriver then acc
    else updateUserSubscription acc row.id
      (fun s => { s with nextTrafficResetAt := nextTrafficResetAt.map toDriver })

/-- `alignSubscriptionTrafficCycles` of one user, with `preserveDue`. -/
def alignSubscriptionTrafficCycles (db : Db) (user : User) (reference : Int) : Db :=
  (subscriptionCycleRows db user.id reference).foldl (alignTrafficCycle db user reference) db

def User.resetCycle (u : User) (resetAt : Int) : User :=
  { u with
    trafficUsed := 0
    lastTrafficReset := some (toDriver resetAt)
    lastAutoTrafficReset := some (toDriver resetAt) }

def resetUserTrafficForCycle (db : Db) (userId : Nat) (boundary resetAt : Int) : Db :=
  match getUserById db userId with
  | none => db
  | some user =>
    if user.lastAutoTrafficReset.all (fun t => t < toDriver boundary) then
      logEvent (updateUser db userId (·.resetCycle resetAt))
        (.cycleReset userId (toDriver boundary) (toDriver resetAt))
    else db

/-- A boundary that is settled, and the one after it. -/
structure CycleUpdate where
  id : Nat
  dueBoundary : Int
  nextTrafficResetAt : Option Int
  deriving DecidableEq, Repr

/-- The reset that follows a boundary that is settled. -/
def settledTrafficReset (user : User) (s : UserSubscription) (now : Int) : Option Int :=
  let expiresAt := s.expiresAt.map fromDriver
  boundTrafficResetAt
    (if user.trafficAutoReset then
      nextConfiguredSubscriptionTrafficReset user (fromDriver s.startedAt) (some now) now expiresAt
    else nextAnchoredSubscriptionTrafficReset (fromDriver s.startedAt) now expiresAt) expiresAt

def cycleUpdate (user : User) (now : Int) (s : UserSubscription) : Option CycleUpdate :=
  s.nextTrafficResetAt.map (fun boundary => ⟨s.id, fromDriver boundary, settledTrafficReset user s now⟩)

/-- The row of a subscription after a boundary was settled. -/
def UserSubscription.settle (s : UserSubscription) (nextTrafficResetAt : Option Int) (now : Int) :
    UserSubscription :=
  { s with
    nextTrafficResetAt := nextTrafficResetAt.map toDriver
    lastTrafficResetAt := some (toDriver now) }

/-- The active subscriptions of a user whose stored boundary has passed. -/
def dueSubscriptions (db : Db) (userId : Nat) (now : Int) : List UserSubscription :=
  db.subscriptions.filter (fun s => s.userId = userId && s.isActiveAt now && s.resetDue now)

/-- `rechargeSubscriptionTrafficCyclesForUserUnlocked`. -/
def rechargeSubscriptionTrafficCyclesForUser (db : Db) (userId : Nat) (now : Int) : Db :=
  match getUserById db userId with
  | none => db
  | some user =>
    let db := alignSubscriptionTrafficCycles db user now
    let cycleUpdates := (dueSubscriptions db userId now).filterMap (cycleUpdate user now)
    match (cycleUpdates.map (·.dueBoundary)).max? with
    | none => db
    | some dueBoundary =>
      let db := resetUserTrafficForCycle db userId dueBoundary now
      let db := cycleUpdates.foldl
        (fun acc cycle => expireTrafficAddonsForCycle acc cycle.id cycle.dueBoundary now) db
      cycleUpdates.foldl (fun acc cycle =>
        updateUserSubscription acc cycle.id (fun s => s.settle cycle.nextTrafficResetAt now)) db

/-! ## What the formulas give -/

theorem boundTrafficResetAt_eq_some {resetAt expiresAt : Option Int} {r : Int}
    (h : boundTrafficResetAt resetAt expiresAt = some r) :
    resetAt = some r ∧ ∀ e ∈ expiresAt, r < e := by
  obtain ⟨hreset, hlt⟩ := Option.filter_eq_some_iff.mp h
  refine ⟨hreset, fun e he => ?_⟩
  rw [Option.mem_def] at he
  rw [he] at hlt
  exact of_decide_eq_true hlt

theorem lt_of_monthly {start r : Int} {expiresAt : Option Int}
    (h : nextBillingMonthlyTrafficReset start expiresAt = some r) :
    start < r ∧ r % 1000 = 0 := by
  obtain ⟨hr, -⟩ := boundTrafficResetAt_eq_some h
  obtain rfl := Option.some.inj hr
  have hmonth := (billingMonth_spec start).2
  have hnext := (monthly_bounds start 1).1
  unfold startOfDayAfterMonths
  exact ⟨by omega, monthly_second _⟩

theorem lt_of_anchored {startedAt reference r : Int} {expiresAt : Option Int}
    (h : nextAnchoredSubscriptionTrafficReset startedAt reference expiresAt = some r) :
    reference < r ∧ r % 1000 = 0 := by
  obtain ⟨hr, -⟩ := boundTrafficResetAt_eq_some h
  have hdelta := monthIndex_parts reference
  have hanchor := monthIndex_parts startedAt
  dsimp only at hr
  generalize hd : max 1 (((billingCalendarParts reference).year - (billingCalendarParts startedAt).year) *
    12 + (billingCalendarParts reference).month - (billingCalendarParts startedAt).month) = monthDelta at hr
  obtain rfl := Option.some.inj hr
  refine ⟨?_, monthly_second _⟩
  apply Search.lt_firstAbove (fun k => startOfDayAfterMonths startedAt (monthDelta + k)) reference 1
    (by omega) (by omega)
  -- the second candidate lies in a month after that of the reference
  have hmonth := (billingMonth_spec reference).2
  have hnext := (monthly_bounds startedAt (monthDelta + (1 : Nat))).1
  have hlater : billingMonth reference + 1 ≤ billingMonth startedAt + (monthDelta + (1 : Nat)) := by omega
  have hmono := monthBegin_mono hlater
  unfold startOfDayAfterMonths
  omega

theorem lt_of_configured {user : User} {startedAt reference r : Int} {lastTrafficResetAt expiresAt : Option Int}
    (h : nextConfiguredSubscriptionTrafficReset user startedAt lastTrafficResetAt reference expiresAt =
      some r) :
    max startedAt (lastTrafficResetAt.getD startedAt) < r ∧ r % 1000 = 0 := by
  obtain ⟨hr, -⟩ := boundTrafficResetAt_eq_some h
  obtain rfl := Option.some.inj hr
  refine ⟨?_, boundary_second _ _ _⟩
  generalize hhandled : max startedAt (lastTrafficResetAt.getD startedAt) = handledThrough
  generalize hfuel : (billingMonth handledThrough + 1 - billingMonth reference).toNat = fuel
  apply Search.lt_firstAbove (fun offset => billingMonthlyBoundary reference user.resetDay offset)
    handledThrough fuel (by omega) (by omega)
  have hmonth := (billingMonth_spec handledThrough).2
  have hnext := (boundary_bounds reference user.resetDay fuel).1
  have hmono := monthBegin_mono (show billingMonth handledThrough + 1 ≤ billingMonth reference + fuel by omega)
  omega

/-! ## What the writers leave alone -/

section
variable (db : Db) (id userId : Nat) (now boundary : Int) (next expiresAt : Option Int)

@[simp] theorem syncUserSubscriptionEntitlements_subscriptions (limit : Nat) :
    (syncUserSubscriptionEntitlements db userId now limit).subscriptions = db.subscriptions := rfl
@[simp] theorem resetUserTrafficForCycle_subscriptions :
    (resetUserTrafficForCycle db userId boundary now).subscriptions = db.subscriptions := by
  unfold resetUserTrafficForCycle
  split
  · rfl
  · split <;> rfl
@[simp] theorem resetUserTrafficForCycle_trafficAddons :
    (resetUserTrafficForCycle db userId boundary now).trafficAddons = db.trafficAddons := by
  unfold resetUserTrafficForCycle
  split
  · rfl
  · split <;> rfl

end

/-! ## The rows after a settlement -/

/-- The row of an active subscription after the alignment. -/
def alignedRow (db : Db) (user : User) (reference : Int) (row : UserSubscription) : UserSubscription :=
  if row.resetDue reference then row
  else { row with nextTrafficResetAt := (alignedTrafficReset db user row reference).map toDriver }

def settledRow (user : User) (now : Int) (row : UserSubscription) : UserSubscription :=
  if row.resetDue now then row.settle (settledTrafficReset user row now) now else row

/-- The row of a subscription after `rechargeSubscriptionTrafficCyclesForUser`. -/
def rechargedRow (db : Db) (user : User) (now : Int) (row : UserSubscription) : UserSubscription :=
  if row.isActiveAt now && row.userId = user.id then settledRow user now (alignedRow db user now row)
  else row

theorem rechargedRow_eq (db : Db) (user : User) (now : Int) (s : UserSubscription) :
    ∃ next last, rechargedRow db user now s =
      { s with nextTrafficResetAt := next, lastTrafficResetAt := last } := by
  have haligned : ∃ next, alignedRow db user now s = { s with nextTrafficResetAt := next } := by
    unfold alignedRow
    split
    · exact ⟨s.nextTrafficResetAt, rfl⟩
    · exact ⟨_, rfl⟩
  obtain ⟨next, haligned⟩ := haligned
  unfold rechargedRow settledRow
  split
  · rw [haligned]
    split
    · exact ⟨_, _, rfl⟩
    · exact ⟨next, s.lastTrafficResetAt, rfl⟩
  · exact ⟨s.nextTrafficResetAt, s.lastTrafficResetAt, rfl⟩

theorem alignTrafficCycle_subscriptions (db : Db) (user : User) (reference : Int) (acc : Db)
    (row : UserSubscription) :
    (alignTrafficCycle db user reference acc row).subscriptions =
      Rows.set (·.id) acc.subscriptions row.id (fun s =>
        if row.resetDue reference ∨ row.nextTrafficResetAt =
          (alignedTrafficReset db user row reference).map toDriver then s
        else { s with nextTrafficResetAt := (alignedTrafficReset db user row reference).map toDriver }) := by
  have hid : ∀ (l : List UserSubscription), Rows.set (·.id) l row.id (fun s => s) = l := by
    intro l
    unfold Rows.set
    simp
  unfold alignTrafficCycle
  by_cases hdue : row.resetDue reference = true
  · simp only [hdue, true_or, if_true, hid]
  · by_cases hsame : row.nextTrafficResetAt = (alignedTrafficReset db user row reference).map toDriver
    · simp only [hdue, hsame, or_true, if_true, hid]
      rfl
    · simp only [hdue, hsame, or_false, if_false]
      rfl

theorem alignSubscriptionTrafficCycles_subscriptions {db : Db}
    (hnd : (db.subscriptions.map (·.id)).Nodup) (user : User) (reference : Int) :
    (alignSubscriptionTrafficCycles db user reference).subscriptions =
      db.subscriptions.map (fun s =>
        if s.isActiveAt reference && s.userId = user.id then alignedRow db user reference s else s) := by
  have hfold : ∀ (rows : List UserSubscription) (acc : Db),
      (rows.foldl (alignTrafficCycle db user reference) acc).subscriptions =
        rows.foldl (fun l row => Rows.set (·.id) l row.id (fun s =>
          if row.resetDue reference ∨ row.nextTrafficResetAt =
            (alignedTrafficReset db user row reference).map toDriver then s
          else { s with nextTrafficResetAt := (alignedTrafficReset db user row reference).map toDriver }))
          acc.subscriptions := by
    intro rows
    induction rows with
    | nil => intro acc; rfl
    | cons row rows ih =>
      intro acc
      rw [List.foldl_cons, List.foldl_cons, ih, alignTrafficCycle_subscriptions]
  unfold alignSubscriptionTrafficCycles subscriptionCycleRows
  rw [hfold, Rows.foldl_set UserSubscription.id UserSubscription.id (fun x r => by split <;> rfl)
    (hnd.sublist (List.filter_sublist.map _))]
  apply List.map_congr_left
  intro s hs
  rw [Rows.find_filter_of_mem hnd _ hs]
  split
  · -- the row that is written is the row that was read
    unfold alignedRow
    rw [Option.map_some, Option.getD_some]
    by_cases hdue : s.resetDue reference = true
    · rw [if_pos (Or.inl hdue), if_pos hdue]
    · rw [if_neg hdue]
      split
      · rename_i hsame
        rw [← hsame.resolve_left hdue]
      · rfl
  · rfl

theorem alignedRow_fields (db : Db) (user : User) (reference : Int) (s : UserSubscription) :
    (alignedRow db user reference s).id = s.id ∧ (alignedRow db user reference s).userId = s.userId ∧
      (alignedRow db user reference s).isActiveAt = s.isActiveAt := by
  unfold alignedRow
  split
  · exact ⟨rfl, rfl, rfl⟩
  · exact ⟨rfl, rfl, rfl⟩

def dueUpdate (user : User) (now : Int) (s : UserSubscription) : CycleUpdate :=
  ⟨s.id, fromDriver (s.nextTrafficResetAt.getD 0), settledTrafficReset user s now⟩

theorem cycleUpdates_eq (db : Db) (user : User) (userId : Nat) (now : Int) :
    (dueSubscriptions db userId now).filterMap (cycleUpdate user now) =
      (dueSubscriptions db userId now).map (dueUpdate user now) := by
  rw [← List.filterMap_eq_map]
  apply List.filterMap_congr
  intro s hs
  have hdue := (List.mem_filter.mp hs).2
  rw [Bool.and_eq_true] at hdue
  unfold cycleUpdate
  cases hnext : s.nextTrafficResetAt with
  | none =>
    rw [UserSubscription.resetDue, hnext] at hdue
    cases hdue.2
  | some boundary =>
    rw [Option.map_some, Function.comp_apply, dueUpdate, hnext, Option.getD_some]

theorem settleFold_subscriptions (cycles : List CycleUpdate) (now : Int) (db : Db) :
    (cycles.foldl (fun acc cycle =>
      updateUserSubscription acc cycle.id (fun s => s.settle cycle.nextTrafficResetAt now)) db).subscriptions =
      cycles.foldl (fun l cycle =>
        Rows.set (·.id) l cycle.id (fun s => s.settle cycle.nextTrafficResetAt now)) db.subscriptions := by
  induction cycles generalizing db with
  | nil => rfl
  | cons c cycles ih =>
    rw [List.foldl_cons, List.foldl_cons, ih]
    rfl

theorem expireFold_subscriptions (cycles : List CycleUpdate) (now : Int) (db : Db) :
    (cycles.foldl (fun acc cycle => expireTrafficAddonsForCycle acc cycle.id cycle.dueBoundary now)
      db).subscriptions = db.subscriptions := by
  induction cycles generalizing db with
  | nil => rfl
  | cons c cycles ih =>
    rw [List.foldl_cons, ih]
    rfl

variable {db : Db} {userId : Nat} {user : User}

theorem recharge_subscriptions (hnd : (db.subscriptions.map (·.id)).Nodup) (huser : getUserById db userId = some user)
    (now : Int) : (rechargeSubscriptionTrafficCyclesForUser db userId now).subscriptions =
      db.subscriptions.map (rechargedRow db user now) := by
  have hid : user.id = userId := Rows.key_of_find huser
  have halign := alignSubscriptionTrafficCycles_subscriptions hnd user now
  have hnd' : ((alignSubscriptionTrafficCycles db user now).subscriptions.map (·.id)).Nodup := by
    rw [halign, List.map_map]
    convert hnd using 1
    apply List.map_congr_left
    intro s _
    rw [Function.comp_apply]
    split
    · exact (alignedRow_fields db user now s).1
    · rfl
  -- the settlement of the aligned rows, row by row
  have hsettle : (rechargeSubscriptionTrafficCyclesForUser db userId now).subscriptions =
      (alignSubscriptionTrafficCycles db user now).subscriptions.map (fun s =>
        if s.userId = userId && s.isActiveAt now then settledRow user now s else s) := by
    unfold rechargeSubscriptionTrafficCyclesForUser
    rw [huser]
    dsimp only
    rw [cycleUpdates_eq]
    split
    · rename_i hnone
      rw [List.max?_eq_none_iff, List.map_eq_nil_iff, List.map_eq_nil_iff] at hnone
      -- no row is due
      rw [dueSubscriptions, List.filter_eq_nil_iff] at hnone
      refine ((List.map_congr_left fun s hs => ?_).trans (List.map_id _)).symm
      split
      · rename_i hactive
        have hdue := hnone s hs
        rw [hactive, Bool.true_and] at hdue
        exact if_neg hdue
      · rfl
    · rw [settleFold_subscriptions, expireFold_subscriptions, resetUserTrafficForCycle_subscriptions]
      have hkeys : (((dueSubscriptions (alignSubscriptionTrafficCycles db user now) userId now).map
          (dueUpdate user now)).map CycleUpdate.id).Nodup := by
        rw [List.map_map]
        exact hnd'.sublist (List.filter_sublist.map _)
      rw [Rows.foldl_set UserSubscription.id CycleUpdate.id
        (g := fun c s => s.settle c.nextTrafficResetAt now) (fun _ _ => rfl) hkeys]
      apply List.map_congr_left
      intro s hs
      rw [Rows.find_map UserSubscription.id (dueUpdate user now) (fun _ => rfl), dueSubscriptions,
        Rows.find_filter_of_mem hnd' _ hs]
      by_cases hactive : (decide (s.userId = userId) && s.isActiveAt now) = true
      · unfold settledRow
        by_cases hdue : s.resetDue now = true
        · simp only [hactive, hdue, Bool.and_self, if_true]
          rfl
        · simp only [hactive, hdue, Bool.true_and, if_true, if_false, Bool.false_eq_true]
          rfl
      · simp only [hactive, Bool.false_and, if_false, Bool.false_eq_true]
        rfl
  rw [hsettle, halign, List.map_map]
  apply List.map_congr_left
  intro s _
  rw [Function.comp_apply]
  unfold rechargedRow
  by_cases hactive : (s.isActiveAt now && decide (s.userId = user.id)) = true
  · obtain ⟨-, huserId, hsame⟩ := alignedRow_fields db user now s
    have hboth := Bool.and_eq_true_iff.mp hactive
    rw [if_pos hactive, if_pos, if_pos hactive]
    rw [huserId, hsame, hboth.1, ← hid, hboth.2]
    rfl
  · rw [if_neg hactive, if_neg hactive, if_neg]
    rwa [← hid, Bool.and_comm]

theorem expireCycles_trafficAddons (cycles : List CycleUpdate) (now : Int) (db : Db) :
    (cycles.foldl (fun acc cycle => expireTrafficAddonsForCycle acc cycle.id cycle.dueBoundary now)
      db).trafficAddons =
      db.trafficAddons.map (fun a =>
        if a.status = .active ∧ ∃ c ∈ cycles, a.subscriptionId = c.id ∧ a.createdAt < toDriver c.dueBoundary
        then a.expire now else a) := by
  induction cycles generalizing db with
  | nil =>
    refine ((List.map_congr_left fun a _ => ?_).trans (List.map_id _)).symm
    rw [if_neg]
    · rfl
    · rintro ⟨-, c, hc, -⟩
      cases hc
  | cons c cycles ih =>
    rw [List.foldl_cons, ih]
    unfold expireTrafficAddonsForCycle updateTrafficAddons
    rw [List.map_map]
    apply List.map_congr_left
    intro a _
    rw [Function.comp_apply]
    by_cases hfirst : (decide (a.subscriptionId = c.id) && decide (a.status = .active) &&
        decide (a.createdAt < toDriver c.dueBoundary)) = true
    · -- an add-on that has expired is not expired again
      have hpass : a.status = .active ∧ ∃ c' ∈ c :: cycles,
          a.subscriptionId = c'.id ∧ a.createdAt < toDriver c'.dueBoundary := by
        simp only [Bool.and_eq_true, decide_eq_true_eq] at hfirst
        exact ⟨hfirst.1.2, c, List.mem_cons_self, hfirst.1.1, hfirst.2⟩
      rw [if_pos hfirst, if_pos hpass, if_neg]
      rintro ⟨hstatus, -⟩
      cases hstatus
    · rw [if_neg hfirst]
      simp only [Bool.and_eq_true, decide_eq_true_eq, not_and] at hfirst
      congr 1
      apply propext
      constructor
      · rintro ⟨hstatus, c', hc', h⟩
        exact ⟨hstatus, c', List.mem_cons_of_mem _ hc', h⟩
      · rintro ⟨hstatus, c', hc', hid, hcreated⟩
        rcases List.mem_cons.mp hc' with rfl | hc'
        · exact absurd hcreated (hfirst ⟨hid, hstatus⟩)
        · exact ⟨hstatus, c', hc', hid, hcreated⟩

/-- The boundary of a subscription that the settlement of its user settles. -/
def dueBoundary (db : Db) (user : User) (now : Int) (s : UserSubscription) : Option Int :=
  if s.isActiveAt now && s.userId = user.id then
    (alignedRow db user now s).nextTrafficResetAt.filter (fun b => b ≤ toDriver now)
  else none

theorem resetDue_iff (s : UserSubscription) (now : Int) :
    s.resetDue now = true ↔ ∃ b, s.nextTrafficResetAt = some b ∧ b ≤ toDriver now := by
  have htime : ∀ b, fromDriver b ≤ now ↔ b ≤ toDriver now := by
    intro b
    unfold fromDriver toDriver
    omega
  unfold UserSubscription.resetDue
  rw [Option.any_eq_true]
  simp only [decide_eq_true_eq, htime]

def dueCycles (db : Db) (user : User) (now : Int) : List CycleUpdate :=
  (dueSubscriptions (alignSubscriptionTrafficCycles db user now) user.id now).map (dueUpdate user now)

theorem mem_dueCycles (hnd : (db.subscriptions.map (·.id)).Nodup) {now : Int} {c : CycleUpdate} :
    c ∈ dueCycles db user now ↔ ∃ s ∈ db.subscriptions, ∃ b, dueBoundary db user now s = some b ∧
      c = ⟨s.id, fromDriver b, settledTrafficReset user (alignedRow db user now s) now⟩ := by
  unfold dueCycles dueSubscriptions
  rw [alignSubscriptionTrafficCycles_subscriptions hnd, List.mem_map]
  constructor
  · rintro ⟨x, hx, rfl⟩
    obtain ⟨hmem, hdue⟩ := List.mem_filter.mp hx
    obtain ⟨s, hs, rfl⟩ := List.mem_map.mp hmem
    refine ⟨s, hs, ?_⟩
    by_cases hactive : (s.isActiveAt now && decide (s.userId = user.id)) = true
    · rw [if_pos hactive] at hdue ⊢
      rw [Bool.and_eq_true] at hdue
      obtain ⟨b, hnext, hb⟩ := (resetDue_iff _ _).mp hdue.2
      refine ⟨b, ?_, ?_⟩
      · unfold dueBoundary
        rw [if_pos hactive, hnext]
        exact Option.filter_eq_some_iff.mpr ⟨rfl, decide_eq_true hb⟩
      · unfold dueUpdate
        rw [hnext, (alignedRow_fields db user now s).1, Option.getD_some]
    · rw [if_neg hactive] at hdue
      rw [Bool.and_eq_true, Bool.and_comm] at hdue
      exact absurd hdue.1 hactive
  · rintro ⟨s, hs, b, hb, rfl⟩
    unfold dueBoundary at hb
    split at hb
    · rename_i hactive
      obtain ⟨hnext, hb⟩ := Option.filter_eq_some_iff.mp hb
      obtain ⟨hid, huserId, hsame⟩ := alignedRow_fields db user now s
      refine ⟨alignedRow db user now s, List.mem_filter.mpr ⟨?_, ?_⟩, ?_⟩
      · exact List.mem_map.mpr ⟨s, hs, if_pos hactive⟩
      · have hdue := (resetDue_iff (alignedRow db user now s) now).mpr ⟨b, hnext, of_decide_eq_true hb⟩
        rw [huserId, hsame, hdue, Bool.and_true, Bool.and_comm]
        exact hactive
      · unfold dueUpdate
        rw [hnext, hid, Option.getD_some]
    · cases hb

theorem recharge_eq (huser : getUserById db userId = some user) (now : Int) :
    rechargeSubscriptionTrafficCyclesForUser db userId now =
      match ((dueCycles db user now).map (·.dueBoundary)).max? with
      | none => alignSubscriptionTrafficCycles db user now
      | some dueBoundary =>
        (dueCycles db user now).foldl (fun acc cycle =>
          updateUserSubscription acc cycle.id (fun s => s.settle cycle.nextTrafficResetAt now))
          ((dueCycles db user now).foldl
            (fun acc cycle => expireTrafficAddonsForCycle acc cycle.id cycle.dueBoundary now)
            (resetUserTrafficForCycle (alignSubscriptionTrafficCycles db user now) userId dueBoundary now)) := by
  have hid : user.id = userId := Rows.key_of_find huser
  unfold rechargeSubscriptionTrafficCyclesForUser dueCycles
  rw [huser]
  dsimp only
  rw [cycleUpdates_eq, hid]

theorem dueBoundary_of_stored {now : Int} {s : UserSubscription} {b : Int} (hactive : s.isActiveAt now = true)
    (huser : s.userId = user.id) (hnext : s.nextTrafficResetAt = some b) (hdue : b ≤ toDriver now) :
    dueBoundary db user now s = some b := by
  have hreset : s.resetDue now = true := (resetDue_iff s now).mpr ⟨b, hnext, hdue⟩
  unfold dueBoundary alignedRow
  rw [if_pos (by simp [hactive, huser]), if_pos hreset, hnext]
  exact Option.filter_eq_some_iff.mpr ⟨rfl, decide_eq_true hdue⟩

/-! ## Add-ons keep what they were bought as -/

def SameAddon (a b : UserTrafficAddon) : Prop :=
  b.id = a.id ∧ b.userId = a.userId ∧ b.subscriptionId = a.subscriptionId ∧ b.createdAt = a.createdAt

/-- The add-ons of the second table are those of the first, and none that had expired is active. -/
def AddonsKept (l l' : List UserTrafficAddon) : Prop :=
  ∃ h : UserTrafficAddon → UserTrafficAddon, l' = l.map h ∧
    ∀ a, SameAddon a (h a) ∧ (a.status = .expired → (h a).status = .expired)

theorem AddonsKept.refl (l : List UserTrafficAddon) : AddonsKept l l :=
  ⟨id, (List.map_id l).symm, fun _ => ⟨⟨rfl, rfl, rfl, rfl⟩, id⟩⟩

theorem AddonsKept.trans {l₁ l₂ l₃ : List UserTrafficAddon} (h₁ : AddonsKept l₁ l₂) (h₂ : AddonsKept l₂ l₃) :
    AddonsKept l₁ l₃ := by
  obtain ⟨f, rfl, hf⟩ := h₁
  obtain ⟨g, rfl, hg⟩ := h₂
  refine ⟨g ∘ f, by rw [List.map_map], fun a => ?_⟩
  obtain ⟨⟨h₁, h₂, h₃, h₄⟩, hexp⟩ := hf a
  obtain ⟨⟨h₁', h₂', h₃', h₄'⟩, hexp'⟩ := hg (f a)
  exact ⟨⟨h₁'.trans h₁, h₂'.trans h₂, h₃'.trans h₃, h₄'.trans h₄⟩, fun h => hexp' (hexp h)⟩

/-- The updates of add-ons are of two kinds: one moves the end of the cycle, one expires. -/
theorem AddonsKept.update {p : UserTrafficAddon → Bool} {f : UserTrafficAddon → UserTrafficAddon}
    (hf : ∀ a, SameAddon a (f a) ∧ (a.status = .expired → (f a).status = .expired)) :
    AddonsKept db.trafficAddons (updateTrafficAddons db p f).trafficAddons := by
  refine ⟨fun a => if p a then f a else a, rfl, fun a => ?_⟩
  dsimp only
  split
  · exact hf a
  · exact ⟨⟨rfl, rfl, rfl, rfl⟩, id⟩

theorem expire_kept (now : Int) (a : UserTrafficAddon) :
    SameAddon a (a.expire now) ∧ (a.status = .expired → (a.expire now).status = .expired) :=
  ⟨⟨rfl, rfl, rfl, rfl⟩, fun _ => rfl⟩

theorem cycleEnd_kept (db : Db) (id : Nat) (next expiresAt : Option Int) :
    AddonsKept db.trafficAddons (updateActiveTrafficAddonCycleEnd db id next expiresAt).trafficAddons :=
  .update (fun _ => ⟨⟨rfl, rfl, rfl, rfl⟩, fun h => h⟩)

theorem sync_kept (db : Db) (userId : Nat) (now : Int) (limit : Nat) :
    AddonsKept db.trafficAddons (syncUserSubscriptionEntitlements db userId now limit).trafficAddons :=
  .update (expire_kept now)

/-! ## Users, history and add-ons after a settlement -/

theorem alignTrafficCycle_rest (db : Db) (user : User) (reference : Int) (acc : Db) (row : UserSubscription) :
    (alignTrafficCycle db user reference acc row).users = acc.users ∧
      (alignTrafficCycle db user reference acc row).log = acc.log ∧
      ∃ h, (alignTrafficCycle db user reference acc row).trafficAddons = acc.trafficAddons.map h ∧
        ∀ a, SameAddon a (h a) ∧ (h a).status = a.status := by
  have hmove : ∀ (next : Option Int) (a : UserTrafficAddon),
      SameAddon a { a with cycleResetAt := next, expiresAt := next } := fun _ _ => ⟨rfl, rfl, rfl, rfl⟩
  unfold alignTrafficCycle
  split
  · exact ⟨rfl, rfl, id, (List.map_id _).symm, fun a => ⟨⟨rfl, rfl, rfl, rfl⟩, rfl⟩⟩
  · dsimp only
    split <;> refine ⟨rfl, rfl, _, rfl, fun a => ?_⟩ <;> dsimp only <;> split
    · exact ⟨hmove _ a, rfl⟩
    · exact ⟨⟨rfl, rfl, rfl, rfl⟩, rfl⟩
    · exact ⟨hmove _ a, rfl⟩
    · exact ⟨⟨rfl, rfl, rfl, rfl⟩, rfl⟩

theorem alignSubscriptionTrafficCycles_rest (db : Db) (user : User) (reference : Int) :
    (alignSubscriptionTrafficCycles db user reference).users = db.users ∧
      (alignSubscriptionTrafficCycles db user reference).log = db.log ∧
      ∃ h, (alignSubscriptionTrafficCycles db user reference).trafficAddons = db.trafficAddons.map h ∧
        ∀ a, SameAddon a (h a) ∧ (h a).status = a.status := by
  have hfold : ∀ (rows : List UserSubscription) (acc : Db),
      (rows.foldl (alignTrafficCycle db user reference) acc).users = acc.users ∧
      (rows.foldl (alignTrafficCycle db user reference) acc).log = acc.log ∧
      ∃ h, (rows.foldl (alignTrafficCycle db user reference) acc).trafficAddons = acc.trafficAddons.map h ∧
        ∀ a, SameAddon a (h a) ∧ (h a).status = a.status := by
    intro rows
    induction rows with
    | nil =>
      intro acc
      exact ⟨rfl, rfl, id, (List.map_id _).symm, fun a => ⟨⟨rfl, rfl, rfl, rfl⟩, rfl⟩⟩
    | cons row rows ih =>
      intro acc
      obtain ⟨husers, hlog, f, haddons, hf⟩ := alignTrafficCycle_rest db user reference acc row
      obtain ⟨husers', hlog', g, haddons', hg⟩ := ih (alignTrafficCycle db user reference acc row)
      rw [List.foldl_cons, husers', hlog', haddons', husers, hlog, haddons, List.map_map]
      refine ⟨rfl, rfl, g ∘ f, rfl, fun a => ?_⟩
      obtain ⟨⟨h₁, h₂, h₃, h₄⟩, hstatus⟩ := hf a
      obtain ⟨⟨h₁', h₂', h₃', h₄'⟩, hstatus'⟩ := hg (f a)
      exact ⟨⟨h₁'.trans h₁, h₂'.trans h₂, h₃'.trans h₃, h₄'.trans h₄⟩, hstatus'.trans hstatus⟩
  exact hfold _ db

theorem expireFold_rest (cycles : List CycleUpdate) (now : Int) (db : Db) :
    (cycles.foldl (fun acc cycle => expireTrafficAddonsForCycle acc cycle.id cycle.dueBoundary now)
      db).users = db.users ∧
    (cycles.foldl (fun acc cycle => expireTrafficAddonsForCycle acc cycle.id cycle.dueBoundary now)
      db).log = db.log := by
  induction cycles generalizing db with
  | nil => exact ⟨rfl, rfl⟩
  | cons c cycles ih => exact ih _

theorem settleFold_rest (cycles : List CycleUpdate) (now : Int) (db : Db) :
    (cycles.foldl (fun acc cycle =>
      updateUserSubscription acc cycle.id (fun s => s.settle cycle.nextTrafficResetAt now)) db).users = db.users ∧
    (cycles.foldl (fun acc cycle =>
      updateUserSubscription acc cycle.id (fun s => s.settle cycle.nextTrafficResetAt now)) db).log = db.log ∧
    (cycles.foldl (fun acc cycle =>
      updateUserSubscription acc cycle.id (fun s => s.settle cycle.nextTrafficResetAt now)) db).trafficAddons =
      db.trafficAddons := by
  induction cycles generalizing db with
  | nil => exact ⟨rfl, rfl, rfl⟩
  | cons c cycles ih => exact ih _

theorem recharge_log (db : Db) (userId : Nat) (now : Int) :
    ((rechargeSubscriptionTrafficCyclesForUser db userId now).users = db.users ∧
      (rechargeSubscriptionTrafficCyclesForUser db userId now).log = db.log) ∨
    ∃ boundary, (rechargeSubscriptionTrafficCyclesForUser db userId now).users =
        Rows.set (·.id) db.users userId (·.resetCycle now) ∧
      (rechargeSubscriptionTrafficCyclesForUser db userId now).log =
        db.log ++ [.cycleReset userId boundary (toDriver now)] := by
  cases huser : getUserById db userId with
  | none =>
    left
    unfold rechargeSubscriptionTrafficCyclesForUser
    rw [huser]
    exact ⟨rfl, rfl⟩
  | some user =>
    obtain ⟨husers, hlog, -⟩ := alignSubscriptionTrafficCycles_rest db user now
    rw [recharge_eq huser]
    split
    · exact .inl ⟨husers, hlog⟩
    · rename_i boundary _
      rw [(settleFold_rest _ _ _).1, (settleFold_rest _ _ _).2.1, (expireFold_rest _ _ _).1,
        (expireFold_rest _ _ _).2]
      unfold resetUserTrafficForCycle getUserById
      rw [husers]
      split
      · exact .inl ⟨husers, hlog⟩
      · split
        · refine .inr ⟨toDriver boundary, ?_, ?_⟩
          · unfold logEvent updateUser
            dsimp only
            rw [husers]
          · unfold logEvent updateUser
            dsimp only
            rw [hlog]
        · exact .inl ⟨husers, hlog⟩

/-- A boundary that is due, and that no reset of the user reaches yet, resets his traffic. -/
theorem recharge_resets (hnd : (db.subscriptions.map (·.id)).Nodup) (huser : getUserById db userId = some user)
    {now : Int} {s : UserSubscription} (hs : s ∈ db.subscriptions) {b : Int} (hdue : dueBoundary db user now s = some b)
    (hlast : ∀ t ∈ user.lastAutoTrafficReset, t < b) : ∃ boundary, b ≤ boundary ∧
      (rechargeSubscriptionTrafficCyclesForUser db userId now).users =
        Rows.set (·.id) db.users userId (·.resetCycle now) ∧
      (rechargeSubscriptionTrafficCyclesForUser db userId now).log =
        db.log ++ [.cycleReset userId boundary (toDriver now)] := by
  obtain ⟨husers, hlog, -⟩ := alignSubscriptionTrafficCycles_rest db user now
  have hcycle := (mem_dueCycles hnd).mpr ⟨s, hs, b, hdue, rfl⟩
  rw [recharge_eq huser]
  split
  · rename_i hnone
    rw [List.max?_eq_none_iff, List.map_eq_nil_iff] at hnone
    rw [hnone] at hcycle
    cases hcycle
  · rename_i boundary hmax
    have hle : fromDriver b ≤ boundary :=
      (List.max?_eq_some_iff.mp hmax).2 _ (List.mem_map_of_mem hcycle)
    have hle' : b ≤ toDriver boundary := by
      unfold fromDriver at hle
      unfold toDriver
      omega
    have hreset : user.lastAutoTrafficReset.all (fun t => t < toDriver boundary) = true := by
      rw [Option.all_eq_true]
      intro t ht
      have := hlast t ht
      exact decide_eq_true (by omega)
    rw [(settleFold_rest _ _ _).1, (settleFold_rest _ _ _).2.1, (expireFold_rest _ _ _).1,
      (expireFold_rest _ _ _).2]
    unfold resetUserTrafficForCycle
    unfold getUserById at huser ⊢
    rw [husers, huser]
    dsimp only
    rw [if_pos hreset]
    refine ⟨toDriver boundary, hle', ?_, ?_⟩
    · unfold logEvent updateUser
      dsimp only
      rw [husers]
    · unfold logEvent updateUser
      dsimp only
      rw [hlog]

/-- A settlement expires the add-ons that were bought before a boundary that it settles, and
no others. -/
theorem recharge_trafficAddons (hnd : (db.subscriptions.map (·.id)).Nodup) (huser : getUserById db userId = some user)
    (now : Int) : ∃ h, (rechargeSubscriptionTrafficCyclesForUser db userId now).trafficAddons = db.trafficAddons.map h ∧
      ∀ a, SameAddon a (h a) ∧ ((h a).status = .active ↔ a.status = .active ∧
        ∀ s ∈ db.subscriptions, s.id = a.subscriptionId → ∀ b ∈ dueBoundary db user now s, b ≤ a.createdAt) := by
  obtain ⟨-, -, f, haddons, hf⟩ := alignSubscriptionTrafficCycles_rest db user now
  rw [recharge_eq huser]
  split
  · rename_i hnone
    rw [List.max?_eq_none_iff, List.map_eq_nil_iff] at hnone
    refine ⟨f, haddons, fun a => ⟨(hf a).1, ?_⟩⟩
    rw [(hf a).2]
    refine ⟨fun h => ⟨h, fun s hs _ b hb => ?_⟩, fun h => h.1⟩
    -- no boundary is due
    have hcycle := (mem_dueCycles hnd).mpr ⟨s, hs, b, hb, rfl⟩
    rw [hnone] at hcycle
    cases hcycle
  · rw [(settleFold_rest _ _ _).2.2, expireCycles_trafficAddons, resetUserTrafficForCycle_trafficAddons,
      haddons, List.map_map]
    refine ⟨_, rfl, fun a => ?_⟩
    obtain ⟨⟨h₁, h₂, h₃, h₄⟩, hstatus⟩ := hf a
    rw [Function.comp_apply, h₃, h₄, hstatus]
    have htime : ∀ b, toDriver (fromDriver b) = b := by
      intro b
      unfold toDriver fromDriver
      omega
    split
    · rename_i hexpired
      refine ⟨⟨h₁, h₂, h₃, h₄⟩, fun h => (by cases h), fun h => ?_⟩
      obtain ⟨-, c, hc, hid, hcreated⟩ := hexpired
      obtain ⟨s, hs, b, hb, rfl⟩ := (mem_dueCycles hnd).mp hc
      have := h.2 s hs hid.symm b hb
      rw [htime] at hcreated
      omega
    · rename_i hkept
      refine ⟨⟨h₁, h₂, h₃, h₄⟩, fun h => ?_, fun h => hstatus.trans h.1⟩
      rw [hstatus] at h
      refine ⟨h, fun s hs hid b hb => ?_⟩
      by_contra hlt
      refine hkept ⟨h, _, (mem_dueCycles hnd).mpr ⟨s, hs, b, hb, rfl⟩, hid.symm, ?_⟩
      rw [htime]
      exact Int.not_le.mp hlt

end ForwardX.Panel
