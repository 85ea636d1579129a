import Mathlib.Data.List.Sort
import ForwardX.Panel.MemberEvaluation

/- The evaluation of a failover group with template rules (`runForwardGroupFailoverForGroups`
   of `forwardGroupRepository.ts`): the members by priority, the time to look again, and
   the member that is to be active. The evaluations of a group run one at a time; the rules
   are those that `syncForwardGroupRules` leaves, and the clock is read once. -/
namespace ForwardX.Panel.Failover

open Ddns

/-! ## The time to look again -/

/-- The end of the freshness of a member's check from China, where the check is healthy. -/
def chinaDeadline (now : Int) (m : Member) : Option Int :=
  if !m.columns.isEnabled then none
  else if forwardGroupChinaHealthStateAt m.columns now ≠ .healthy then none
  else some (m.columns.chinaHealthCheckedAt.getD 0 + FORWARD_GROUP_CHINA_HEALTH_FRESHNESS_TTL_MS)

def nextForwardGroupChinaHealthExpiryAt (enabled : Bool) (members : List Member) (now : Int) : Option Int :=
  if !enabled then none else (members.filterMap (chinaDeadline now)).min?

/-- The ends of the windows that are still open, as `nextForwardGroupHealthRecheckAt` lists
them for one member. -/
def windowDeadlines (failoverMs recoverMs : Int) (m : Evaluated) : List Int :=
  let failing :=
    if !m.healthy && !m.failedLongEnough then
      let since := m.failureSince.getD 0
      if 0 < since then [since + max 0 failoverMs] else []
    else []
  let recovering :=
    if m.healthy && !m.recoveredLongEnough then
      let since := m.healthySince.getD 0
      if 0 < since then [since + max 0 recoverMs] else []
    else []
  failing ++ recovering

def nextForwardGroupHealthRecheckAt (members : List Evaluated) (failoverMs recoverMs now : Int) : Option Int :=
  (members.flatMap (windowDeadlines failoverMs recoverMs)).min?.map (max now)

/-- `a && b ? Math.min(a, b) : a ?? b`, of times that may be missing. -/
def earlier (a b : Option Int) : Option Int :=
  match a, b with
  | some x, some y => if x ≠ 0 ∧ y ≠ 0 then some (min x y) else some x
  | some x, none => some x
  | none, b => b

/-- `probeExpiryAt`: the first of the members' times that is still to come. -/
def probeExpiryAt (evaluated : List Evaluated) (now : Int) : Option Int :=
  ((evaluated.map fun m => m.nextProbeExpiryAt.getD 0).filter (now < ·)).min?

/-- The time that is handed to `forwardGroupHealthRechecks`. -/
def nextRecheckAt (group : HealthGroup) (members : List Member) (evaluated : List Evaluated) (now : Int) :
    Option Int :=
  let chinaHealthExpiryAt :=
    nextForwardGroupChinaHealthExpiryAt group.settings.chinaHealthCheckEnabled members now
  let healthWindowRecheckAt := nextForwardGroupHealthRecheckAt evaluated
    (forwardGroupFailoverDelayMs group.settings) (forwardGroupRecoverDelayMs group.settings) now
  earlier (earlier healthWindowRecheckAt chinaHealthExpiryAt) (probeExpiryAt evaluated now)

/-- `ForwardGroupHealthRecheckScheduler.replace`: the time held for the group afterwards. -/
def replace (dueAt : Option Int) : Option Int := dueAt.filter (0 < ·)

/-! ## The choice -/

/-- The order of `healthyMembers`. -/
def Precedes (left right : Verdict) : Prop :=
  left.priority < right.priority ∨ (left.priority = right.priority ∧ left.id ≤ right.id)

instance : DecidableRel Precedes := fun left right =>
  inferInstanceAs (Decidable (left.priority < right.priority ∨
    (left.priority = right.priority ∧ left.id ≤ right.id)))

def healthyMembers (evaluated : List Verdict) : List Verdict :=
  (evaluated.filter Verdict.healthy).insertionSort Precedes

/-- `active`. -/
def activeMember (activeMemberId : Option Nat) (evaluated : List Verdict) : Option Verdict :=
  activeMemberId.bind fun id => evaluated.find? (·.id == id)

def shouldFailback (autoFailback : Bool) (active failbackCandidate : Option Verdict) : Bool :=
  autoFailback && active.any fun a => failbackCandidate.any fun c => c.priority < a.priority

def shouldFailover (active : Option Verdict) : Bool :=
  active.all fun a => !a.healthy && a.failedLongEnough

/-- What an evaluation comes to: it holds what is there, or it has a member, or none. -/
inductive Choice
  | hold
  | next (member : Option Verdict)
  deriving DecidableEq, Repr

/-- The choice among the evaluated members. -/
def chooseMember (autoFailback forcePriority : Bool) (activeMemberId : Option Nat) (lastValue : String)
    (evaluated : List Verdict) : Choice :=
  let active := activeMember activeMemberId evaluated
  let healthy := healthyMembers evaluated
  let firstHealthy := healthy.head?
  let anyPending := evaluated.any Verdict.healthPending
  if (active.any Verdict.healthPending && jsTrim lastValue ≠ "") ||
      (active.isNone && firstHealthy.isNone && anyPending) then .hold
  else
    let failbackCandidate := healthy.find? Verdict.recoveredLongEnough
    .next (
      if forcePriority then firstHealthy
      else if shouldFailback autoFailback active failbackCandidate then failbackCandidate
      else if shouldFailover active then firstHealthy
      else active)

/-! ## The evaluation -/

/-- What does not change between the evaluations of a group. -/
structure FailoverGroup where
  ddns : GroupConfig
  health : HealthGroup
  autoFailback : Bool
  /-- `memberDdnsValue`, by the id of the member -/
  ddnsValue : Nat → String

/-- The rows of the group, and the time held for it in `forwardGroupHealthRechecks`. -/
structure FailoverState where
  members : List Member
  ids_nodup : (members.map Member.id).Nodup
  group : GroupState
  recheckAt : Option Int

/-- The options of an evaluation and what it meets on its way. -/
structure Surroundings where
  forcePriority : Bool
  forceSync : Bool
  /-- `failoverAgentSelectionStillCurrent` without a member to go to -/
  stillCurrent : Bool
  /-- `failoverAgentSelectionStillCurrent` before and after the provider's update -/
  beforeCommit : Bool
  afterUpdate : Bool
  preserving : Preserving
  reply : ForwardGroupRecordType → Reply

/-- What an evaluation leaves, and whether it has put the group into the queue again. -/
structure Evaluation where
  state : FailoverState
  outcome : Outcome
  queued : Bool

theorem evaluateMemberHealth_id (group : HealthGroup) (m : Member) (now : Int) :
    (evaluateMemberHealth group m now).2.id = m.id := by
  simp only [evaluateMemberHealth, writeMember]
  split <;> rfl

def evaluateMembers (group : HealthGroup) (members : List Member) (now : Int) : List Member :=
  members.map fun m => (evaluateMemberHealth group m now).2

theorem evaluateMembers_ids (group : HealthGroup) (members : List Member) (now : Int) :
    (evaluateMembers group members now).map Member.id = members.map Member.id := by
  unfold evaluateMembers
  rw [List.map_map]
  apply List.map_congr_left
  intro m _
  exact evaluateMemberHealth_id group m now

def byPriority (members : List Member) : List Member :=
  members.insertionSort fun a b => a.priority ≤ b.priority

/-- `evaluated`. -/
def evaluatedMembers (group : HealthGroup) (members : List Member) (now : Int) : List Evaluated :=
  (byPriority members).map fun m => (evaluateMemberHealth group m now).1

def verdicts (group : HealthGroup) (members : List Member) (now : Int) : List Verdict :=
  (evaluatedMembers group members now).map Evaluated.toVerdict

/-- The rows and the time to look again, once the members are evaluated. -/
def evaluatedState (g : FailoverGroup) (s : FailoverState) (now : Int) : FailoverState :=
  { members := evaluateMembers g.health s.members now
    ids_nodup := by
      rw [evaluateMembers_ids]
      exact s.ids_nodup
    group := s.group
    recheckAt := replace
      (nextRecheckAt g.health (byPriority s.members) (evaluatedMembers g.health s.members now) now) }

/-- The choice of an evaluation. -/
def choiceAt (g : FailoverGroup) (s : FailoverState) (forcePriority : Bool) (now : Int) : Choice :=
  chooseMember g.autoFailback forcePriority s.group.activeMemberId s.group.lastValue
    (verdicts g.health s.members now)

/-- A choice is carried out: the group's row after it, what came of it, and whether the group is
put into the queue again. -/
def carryOutChoice (ddns : GroupConfig) (ddnsValue : Nat → String) (s : GroupState) (look : Surroundings) :
    Choice → GroupState × Outcome × Bool
  | .hold => ({ s with lastStatus := .unknown }, .settled, false)
  | .next none =>
    if !look.stillCurrent then (s, .settled, true)
    else
      let preserved := preserveForwardGroupDdns ddns s look.preserving look.forceSync look.reply
      (preserved.1, preserved.2, false)
  | .next (some next) =>
    let value := ddnsValue next.id
    if value = "" then (s, .settled, false)
    else
      let synced := syncSingleForwardGroupDdns ddns s (some next.id) value look.forceSync
        look.beforeCommit look.afterUpdate look.reply
      (synced.1, synced.2, synced.2 = .aborted)

/-- The same for the whole state. -/
def carryOut (g : FailoverGroup) (s : FailoverState) (look : Surroundings) (choice : Choice) : Evaluation :=
  let done := carryOutChoice g.ddns g.ddnsValue s.group look choice
  ⟨{ s with group := done.1 }, done.2.1, done.2.2⟩

/-- `runForwardGroupFailoverForGroups` for one failover group with template rules. -/
def runForwardGroupFailover (g : FailoverGroup) (s : FailoverState) (look : Surroundings) (now : Int) :
    Evaluation :=
  if s.members.isEmpty then ⟨s, .settled, false⟩
  else
    let evaluated := evaluatedState g s now
    if g.ddns.domain = "" then
      let found := verdicts g.health s.members now
      let lastStatus : GroupStatus :=
        if found.any Verdict.healthy then .healthy
        else if found.any Verdict.healthPending then .unknown else .down
      ⟨{ evaluated with group := { s.group with lastStatus := lastStatus } }, .settled, false⟩
    else carryOut g evaluated look (choiceAt g s look.forcePriority now)

end ForwardX.Panel.Failover
