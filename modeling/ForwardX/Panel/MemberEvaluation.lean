import ForwardX.Panel.MemberHealth

/- The health of a member of a failover group (`evaluateMemberHealth` of
   `forwardGroupRepository.ts`): a walk over the rules that forward through the member, each
   with its latest probe, then the check from China, then the windows, which are written
   back to the member's row. The clock is read once. -/
namespace ForwardX.Panel.Failover

open Ddns

/-! ## What an evaluation reads -/

/-- The `healthStatus` of a probe, trimmed and in lower case. -/
inductive ProbeStatus
  | unknown | healthy | unhealthy | other
  deriving DecidableEq, Repr

/-- A row of `tcping_stats`. -/
structure RuleProbe where
  recordedAt : Int
  healthStatus : ProbeStatus
  isTimeout : Bool
  latencyMs : Option Int
  deriving DecidableEq, Repr

/-- A rule that forwards through a member, and its latest probe (`latestTcping`). -/
structure ChildRule where
  forwardGroupRuleId : Nat
  isEnabled : Bool
  pendingDelete : Bool
  isRunning : Bool
  latestStat : Option RuleProbe
  deriving DecidableEq, Repr

structure TemplateRule where
  id : Nat
  isEnabled : Bool
  pendingDelete : Bool
  deriving DecidableEq, Repr

/-- A member: its row, the host it is entered by, and its rules. -/
structure Member where
  id : Nat
  priority : Int
  columns : MemberColumns
  lastLatencyMs : Option Int
  chinaHealthLatencyMs : Option Int
  hostId : Nat
  host : Option HostLiveness
  childRules : List ChildRule
  deriving DecidableEq, Repr

/-- What the evaluation of a member reads of its group. -/
structure HealthGroup where
  settings : HealthSettings
  updatedAt : Option Int
  createdAt : Option Int
  templates : List TemplateRule
  deriving DecidableEq, Repr

/-- What `resolveMemberAgentLiveness` says of a member at `now`. -/
def Member.liveness (m : Member) (now : Int) : MemberAgentLiveness :=
  resolveMemberAgentLiveness m.hostId m.host now

/-! ## What it finds -/

def FORWARD_GROUP_CHINA_HEALTH_FRESHNESS_TTL_MS : Int := FORWARD_GROUP_AGENT_HEALTH_FRESHNESS_TTL_MS

def forwardGroupRuleProbeFreshMs : Int := FORWARD_GROUP_AGENT_HEALTH_FRESHNESS_TTL_MS

def freshForwardGroupRuleProbe (stat : Option RuleProbe) (now : Int) : Option RuleProbe :=
  stat.filter fun stat =>
    decide (-60000 ≤ now - stat.recordedAt ∧ now - stat.recordedAt ≤ forwardGroupRuleProbeFreshMs)

/-- The variables of `evaluateMemberHealth`. -/
structure Findings where
  healthy : Bool := false
  agentHealthPending : Bool := false
  chinaHealthPending : Bool := false
  agentFailureFinal : Bool := false
  allRuleHealthAgentFinal : Bool := false
  observedFailureSince : Option Int := none
  nextProbeExpiryAt : Option Int := none
  latencies : List Int := []
  message : String := ""
  deriving DecidableEq, Repr

def Findings.healthPending (f : Findings) : Bool := f.agentHealthPending || f.chinaHealthPending

def waitingSince (group : HealthGroup) (m : Member) (now : Int) : Int :=
  (m.columns.lastCheckedAt.orElse fun _ => group.updatedAt.orElse fun _ => group.createdAt).getD now

/-- A rule without a fresh probe: its latest is too old, or it has none. -/
def ruleWithoutProbe (latestStat : Option RuleProbe) (waitingSince now : Int) (f : Findings) : Findings :=
  let f := { f with healthy := false, allRuleHealthAgentFinal := false }
  match latestStat with
  | some stat =>
    { f with
      agentFailureFinal := true
      observedFailureSince := some (stat.recordedAt + forwardGroupRuleProbeFreshMs)
      message := "Agent health result expired" }
  | none =>
    let expiresAt := waitingSince + forwardGroupRuleProbeFreshMs
    if expiresAt ≤ now then
      { f with
        agentFailureFinal := true
        observedFailureSince := some expiresAt
        message := "Agent health result missing for 5 minutes" }
    else
      { f with
        agentHealthPending := true
        nextProbeExpiryAt := some expiresAt
        message := "Waiting for Agent health result" }

/-- The end of a fresh probe is a time to look again. -/
def noteExpiry (stat : RuleProbe) (f : Findings) : Findings :=
  let expiresAt := stat.recordedAt + forwardGroupRuleProbeFreshMs
  { f with
    nextProbeExpiryAt := some (match f.nextProbeExpiryAt with
      | none => expiresAt
      | some next => min next expiresAt) }

/-- A probe that speaks for its rule. -/
def passProbe (stat : RuleProbe) (f : Findings) : Findings :=
  { f with
    allRuleHealthAgentFinal := f.allRuleHealthAgentFinal && stat.healthStatus = .healthy
    latencies := f.latencies ++ stat.latencyMs.toList }

/-- The rule is not in use, or its latest probe is from before the Agent was away. -/
def ruleNotReady (liveness : MemberAgentLiveness) (rule : ChildRule) (f : Findings) : Option Findings :=
  if !rule.isEnabled || rule.pendingDelete then
    some { f with healthy := false, message := "Member rule disabled" }
  else if !rule.isRunning then some { f with healthy := false, message := "Member rule not running yet" }
  else if !agentHealthSampleIsCurrent liveness (rule.latestStat.map RuleProbe.recordedAt) then
    some
      { f with
        healthy := false
        allRuleHealthAgentFinal := false
        agentHealthPending := true
        message := "Waiting for Agent health result after reconnect" }
  else none

/-- A fresh probe that does not speak for its rule. -/
def probeNotWell (stat : RuleProbe) (f : Findings) : Option Findings :=
  if stat.healthStatus = .unknown then
    some
      { f with
        healthy := false
        allRuleHealthAgentFinal := false
        agentHealthPending := true
        message := "Waiting for Agent health decision" }
  else if stat.healthStatus = .unhealthy then
    some { f with healthy := false, agentFailureFinal := true, message := "Agent health check failed" }
  else if stat.healthStatus ≠ .healthy ∧ stat.isTimeout then
    some
      { f with healthy := false, allRuleHealthAgentFinal := false, message := "Latency probe timeout" }
  else none

/-- The loop over the rules, which ends at the first that is not known to be well. -/
def scanRules (liveness : MemberAgentLiveness) (waitingSince now : Int) :
    List ChildRule → Findings → Findings
  | [], f => f
  | rule :: rules, f =>
    match ruleNotReady liveness rule f with
    | some found => found
    | none =>
      match freshForwardGroupRuleProbe rule.latestStat now with
      | none => ruleWithoutProbe rule.latestStat waitingSince now f
      | some stat =>
        match probeNotWell stat (noteExpiry stat f) with
        | some found => found
        | none => scanRules liveness waitingSince now rules (passProbe stat (noteExpiry stat f))

def chinaStatus (m : Member) (liveness : MemberAgentLiveness) (now : Int) : HealthState :=
  if agentHealthSampleIsCurrent liveness m.columns.chinaHealthCheckedAt then
    forwardGroupChinaHealthStateAt m.columns now
  else .pending

/-- The check from China, of a member whose rules are well. -/
def checkChina (m : Member) (liveness : MemberAgentLiveness) (now : Int) (f : Findings) : Findings :=
  match chinaStatus m liveness now with
  | .unhealthy => { f with healthy := false, message := "国内健康度检测超时" }
  | .stale =>
    { f with
      healthy := false
      message := "国内健康度检测数据已过期"
      observedFailureSince :=
        (m.columns.chinaHealthCheckedAt.map (· + FORWARD_GROUP_CHINA_HEALTH_FRESHNESS_TTL_MS)).orElse
          fun _ => f.observedFailureSince }
  | .healthy => { f with latencies := f.latencies ++ m.chinaHealthLatencyMs.toList }
  | _ =>
    { f with healthy := false, chinaHealthPending := true, message := "等待国内健康度检测数据" }

/-- `activeChildRules`: the rules whose template is enabled. -/
def activeChildRules (group : HealthGroup) (m : Member) : List ChildRule :=
  let templateRuleIds := ((m.childRules.map ChildRule.forwardGroupRuleId).filter (0 < ·)).dedup
  let templateRows := group.templates.filter fun rule => templateRuleIds.contains rule.id
  let enabledTemplateIds :=
    ((templateRows.filter fun rule => rule.isEnabled && !rule.pendingDelete).map TemplateRule.id).filter (0 < ·)
  m.childRules.filter fun rule => enabledTemplateIds.contains rule.forwardGroupRuleId

/-- The text for a healthy member. -/
def describeHealthy (f : Findings) : Findings :=
  if f.healthy then
    { f with
      message := if f.latencies.isEmpty then "Rule is running, waiting for latency probe data"
        else "Latency probe normal" }
  else f

/-- The rules of an available member, and the check from China. -/
def checkRules (group : HealthGroup) (m : Member) (liveness : MemberAgentLiveness) (now : Int) : Findings :=
  let scanned := scanRules liveness (waitingSince group m now) now (activeChildRules group m)
    { healthy := true, allRuleHealthAgentFinal := true }
  describeHealthy
    (if scanned.healthy && group.settings.chinaHealthCheckEnabled then checkChina m liveness now scanned
    else scanned)

/-- What `evaluateMemberHealth` finds of a member. -/
def memberFindings (group : HealthGroup) (m : Member) (liveness : MemberAgentLiveness) (now : Int) : Findings :=
  if liveness.trafficExcluded then
    { message := "主机流量达到故障转移阈值，已暂停组调度"
      agentFailureFinal := true
      observedFailureSince := some now }
  else if !m.columns.isEnabled then { message := "Member disabled" }
  else if m.childRules.isEmpty then { message := "No forwarding rule is using this group yet" }
  else if (activeChildRules group m).isEmpty then
    { message := "No enabled forwarding rule is using this group member" }
  else if !liveness.available then
    { observedFailureSince := some (liveness.failureSince.getD now), message := "Member Agent offline" }
  else checkRules group m liveness now

/-! ## What comes of it -/

/-- What the choice of a group depends on in an evaluated member. -/
structure Verdict where
  id : Nat
  priority : Int
  healthy : Bool
  healthPending : Bool
  failedLongEnough : Bool
  recoveredLongEnough : Bool
  deriving DecidableEq, Repr

/-- What `evaluateMemberHealth` returns. -/
structure Evaluated extends Verdict where
  chinaHealthPending : Bool
  latencyMs : Option Int
  message : String
  failureSince : Option Int
  healthySince : Option Int
  nextProbeExpiryAt : Option Int
  agentLivenessSignature : LivenessSignature
  deriving DecidableEq, Repr

/-- `Math.round` of the mean of the latencies. -/
def meanLatency (latencies : List Int) : Option Int :=
  if latencies.isEmpty then none
  else some ((2 * latencies.foldl (· + ·) 0 + latencies.length) / (2 * latencies.length))

def nextHealthStatus (f : Findings) : HealthStatus :=
  if f.healthy then .healthy else if f.healthPending then .unknown else .unhealthy

/-- `prevFailure || observedFailureSince || now`, or what was observed where that is earlier. -/
def failureStart (prevFailure observed : Option Int) (now : Int) : Int :=
  let failureSince := (prevFailure.orElse fun _ => observed).getD now
  match observed with
  | some date => if date < failureSince then date else failureSince
  | none => failureSince

/-- `failureSince`, of a member that is neither healthy nor pending. -/
def failureSinceOf (m : Member) (f : Findings) (now : Int) : Option Int :=
  if f.healthy || f.healthPending then none
  else some (failureStart m.columns.failureSince f.observedFailureSince now)

def healthySinceOf (m : Member) (f : Findings) (now : Int) : Option Int :=
  if f.healthy then some (m.columns.healthySince.getD now) else none

def failedLongEnough (group : HealthGroup) (m : Member) (f : Findings) (now : Int) : Bool :=
  f.agentFailureFinal ||
    (failureSinceOf m f now).any fun since => forwardGroupFailoverDelayMs group.settings ≤ now - since

def recoveredLongEnough (group : HealthGroup) (m : Member) (f : Findings) (now : Int) : Bool :=
  (f.healthy && f.allRuleHealthAgentFinal) ||
    (healthySinceOf m f now).any fun since => forwardGroupRecoverDelayMs group.settings ≤ now - since

/-- The row an evaluation leaves: it is written where the state has changed, and every five
minutes while the Agent is there. -/
def writeMember (m : Member) (available : Bool) (f : Findings) (now : Int) : Member :=
  let failureSince := failureSinceOf m f now
  let healthySince := healthySinceOf m f now
  let healthStateChanged := m.columns.healthStatus ≠ nextHealthStatus f ∨
    m.columns.failureSince ≠ failureSince ∨ m.columns.healthySince ≠ healthySince
  let healthSnapshotDue := available && m.columns.lastCheckedAt.all fun last => 5 * 60 * 1000 ≤ now - last
  if healthStateChanged ∨ healthSnapshotDue then
    { m with
      lastLatencyMs := if f.healthy then meanLatency f.latencies else none
      columns :=
        { m.columns with
          healthStatus := nextHealthStatus f
          failureSince := failureSince.map stored
          healthySince := healthySince.map stored
          lastCheckedAt := if available then some (stored now) else m.columns.lastCheckedAt
          updatedAt := stored now } }
  else m

/-- `evaluateMemberHealth`: what it returns, and the member with the row it leaves. -/
def evaluateMemberHealth (group : HealthGroup) (m : Member) (now : Int) : Evaluated × Member :=
  let liveness := m.liveness now
  let f := memberFindings group m liveness now
  ({ id := m.id
     priority := m.priority
     healthy := f.healthy
     healthPending := f.healthPending
     failedLongEnough := failedLongEnough group m f now
     recoveredLongEnough := recoveredLongEnough group m f now
     chinaHealthPending := f.chinaHealthPending
     latencyMs := if f.healthy then meanLatency f.latencies else none
     message := f.message
     failureSince := failureSinceOf m f now
     healthySince := healthySinceOf m f now
     nextProbeExpiryAt := f.nextProbeExpiryAt
     agentLivenessSignature := liveness.signature },
   writeMember m liveness.available f now)

end ForwardX.Panel.Failover
