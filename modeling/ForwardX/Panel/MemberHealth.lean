import ForwardX.Panel.DdnsGroup
import ForwardX.Panel.DdnsValues

/- The health of a group's members (`forwardGroupRepository.ts`, `forwardGroupHealthRecheck.ts`):
   the columns of a member's row, what an Agent's reports write there, and what an evaluation
   takes the member to be. Times are milliseconds since the epoch; a column keeps whole
   seconds (`stored`). -/
namespace ForwardX.Panel.Ddns

/-! ## Dates and windows -/

/-- What an `epoch` column gives back of a date. -/
def stored (date : Int) : Int := date / 1000 * 1000

def FORWARD_GROUP_AGENT_HEALTH_FRESHNESS_TTL_MS : Int := 5 * 60 * 1000

def HOST_ONLINE_TTL_MS : Int := 150 * 1000

/-- The settings of a group that an evaluation of health reads. -/
structure HealthSettings where
  chinaHealthCheckEnabled : Bool
  failoverSeconds : Int
  recoverSeconds : Int
  deriving DecidableEq, Repr

/-- `Math.max(10, Number(seconds || missing)) * 1000`. -/
def delayMs (seconds missing : Int) : Int := max 10 (if seconds = 0 then missing else seconds) * 1000

def forwardGroupFailoverDelayMs (group : HealthSettings) : Int := delayMs group.failoverSeconds 60

def forwardGroupRecoverDelayMs (group : HealthSettings) : Int := delayMs group.recoverSeconds 120

/-! ## Columns -/

inductive HealthStatus
  | unknown | healthy | unhealthy
  deriving DecidableEq, Repr

/-- The columns of a member's row that its health is made of. -/
structure MemberColumns where
  isEnabled : Bool
  healthStatus : HealthStatus
  lastCheckedAt : Option Int
  chinaHealthStatus : HealthStatus
  chinaHealthCheckedAt : Option Int
  failureSince : Option Int
  healthySince : Option Int
  updatedAt : Int
  deriving DecidableEq, Repr

/-- A report of `updateForwardGroupMemberChinaHealth`: a raw result, or the decision of the
Agent in `healthStatus`. -/
structure ChinaHealthReport where
  isTimeout : Bool
  healthStatus : Option HealthStatus
  deriving DecidableEq, Repr

/-- `updateForwardGroupMemberChinaHealth` at `now`, for a member of the group and a report of
its host: only a decision for or against the member moves its windows. -/
def updateForwardGroupMemberChinaHealth (group : HealthSettings) (m : MemberColumns)
    (input : ChinaHealthReport) (now : Int) : MemberColumns :=
  if ¬ group.chinaHealthCheckEnabled then m
  else
    let nextStatus := input.healthStatus.getD (if input.isTimeout then .unhealthy else .healthy)
    let reported :=
      { m with
        chinaHealthStatus := nextStatus
        chinaHealthCheckedAt := some (stored now)
        updatedAt := stored now }
    match input.healthStatus with
    | some .unhealthy =>
      { reported with
        failureSince := some (stored (now - forwardGroupFailoverDelayMs group))
        healthySince := none }
    | some .healthy =>
      { reported with
        failureSince := none
        healthySince := some (stored (now - forwardGroupRecoverDelayMs group)) }
    | _ => reported

/-! ## States -/

/-- `ForwardGroupChinaHealthState`, with the state of a member whose host is away. -/
inductive HealthState
  | healthy | unhealthy | pending | stale | offline
  deriving DecidableEq, Repr

/-- A status and the time of its sample, at `now`. -/
def healthStateAt (status : HealthStatus) (checkedAt : Option Int) (now : Int) : HealthState :=
  let sampleAt := checkedAt.getD 0
  match status with
  | .unknown => .pending
  | .healthy =>
    if sampleAt ≤ 0 ∨ sampleAt > now + 60000 then .stale
    else if now - sampleAt < FORWARD_GROUP_AGENT_HEALTH_FRESHNESS_TTL_MS then .healthy else .stale
  | .unhealthy =>
    if sampleAt ≤ 0 ∨ sampleAt > now + 60000 then .stale
    else if now - sampleAt < FORWARD_GROUP_AGENT_HEALTH_FRESHNESS_TTL_MS then .unhealthy else .stale

def forwardGroupChinaHealthStateAt (m : MemberColumns) (now : Int) : HealthState :=
  healthStateAt m.chinaHealthStatus m.chinaHealthCheckedAt now

def forwardGroupAgentHealthStateAt (m : MemberColumns) (now : Int) : HealthState :=
  healthStateAt m.healthStatus m.lastCheckedAt now

/-! ## Liveness -/

/-- The presence of a host that reports it (`getPresenceCapableHostLivenessSnapshot`); 0 is a
time that is not known. -/
structure FastState where
  lastSeenAt : Int
  confirmedOffline : Bool
  transitionEpoch : Nat
  lastOfflineAt : Int
  deriving DecidableEq, Repr

/-- What `resolveMemberAgentLiveness` reads of a member's host. -/
structure HostLiveness where
  /-- `hostTrafficExcluded`, or the plan of a tunnel leaves the member out -/
  trafficExcluded : Bool
  fastState : Option FastState
  /-- `getLastAuthenticatedAgentActivity`, 0 for none -/
  authenticatedAt : Int
  lastHeartbeat : Option Int
  createdAt : Option Int
  updatedAt : Option Int
  deriving DecidableEq, Repr

structure LivenessSignature where
  hostId : Nat
  available : Bool
  trafficExcluded : Bool
  confirmedOffline : Bool
  transitionEpoch : Nat
  lastOfflineAt : Int
  deriving DecidableEq, Repr

structure MemberAgentLiveness where
  available : Bool
  trafficExcluded : Bool
  failureSince : Option Int
  lastOfflineAt : Option Int
  signature : LivenessSignature
  deriving DecidableEq, Repr

/-- `resolveMemberAgentLiveness`, of a member whose host exists unless `host` is none. -/
def resolveMemberAgentLiveness (hostId : Nat) (host : Option HostLiveness) (nowMs : Int) :
    MemberAgentLiveness :=
  let trafficExcluded := host.any HostLiveness.trafficExcluded
  let fastState := host.bind HostLiveness.fastState
  let authenticatedAt := (host.map HostLiveness.authenticatedAt).getD 0
  let heartbeatAt := (host.bind HostLiveness.lastHeartbeat).getD 0
  let lastSeenAt := match fastState with
    | some fast => fast.lastSeenAt
    | none => max authenticatedAt heartbeatAt
  let legacyActivityRecently := 0 < lastSeenAt ∧ nowMs - min lastSeenAt nowMs ≤ HOST_ONLINE_TTL_MS
  let lifecycleAt := ((host.bind HostLiveness.createdAt).orElse fun _ =>
    host.bind HostLiveness.updatedAt).getD nowMs
  let confirmedOffline := fastState.any FastState.confirmedOffline
  let available := host.isSome && !trafficExcluded && match fastState with
    | some _ => !confirmedOffline
    | none => decide legacyActivityRecently
  let failureAt := if 0 < lastSeenAt then min lastSeenAt nowMs else min lifecycleAt nowMs
  let lastOfflineAt := (fastState.map FastState.lastOfflineAt).filter (· ≠ 0)
  { available := available
    trafficExcluded := trafficExcluded
    failureSince := if available then none else some failureAt
    lastOfflineAt := lastOfflineAt
    signature :=
      { hostId := hostId
        available := available
        trafficExcluded := trafficExcluded
        confirmedOffline := confirmedOffline
        transitionEpoch := (fastState.map FastState.transitionEpoch).getD 0
        lastOfflineAt := lastOfflineAt.getD 0 } }

def agentHealthSampleIsCurrent (liveness : MemberAgentLiveness) (sampleAt : Option Int) : Bool :=
  match liveness.lastOfflineAt with
  | none => true
  | some offlineAt => sampleAt.getD 0 > offlineAt

theorem stored_le (date : Int) : stored date ≤ date := by
  unfold stored
  omega

theorem stored_mono {a b : Int} (h : a ≤ b) : stored a ≤ stored b := by
  unfold stored
  have : a / 1000 ≤ b / 1000 := Int.ediv_le_ediv (by decide) h
  omega

@[simp] theorem stored_stored (date : Int) : stored (stored date) = stored date := by
  unfold stored
  omega

theorem stored_min (a b : Int) : stored (min a b) = min (stored a) (stored b) := by
  unfold stored
  omega

theorem le_delayMs (seconds missing : Int) : seconds * 1000 ≤ delayMs seconds missing := by
  unfold delayMs
  split <;> omega

theorem delayMs_pos (seconds missing : Int) : 10000 ≤ delayMs seconds missing := by
  unfold delayMs
  omega

end ForwardX.Panel.Ddns
