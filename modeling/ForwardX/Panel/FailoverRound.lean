import ForwardX.Panel.FailoverHistory
import ForwardX.Panel.RecheckTimes

/- One evaluation of a failover group: what it has read of the members (`Survey`), what it
   meets as it chooses and commits (`Commit`), and the reasons it can have to make another
   member the active one. It reads each member, its rules and its host in its turn, and looks
   at the group again before and after the provider's update; all of that may have changed
   meanwhile, so all of it is input. -/
namespace ForwardX.Panel.Failover

open Ddns

/-! ## One evaluation -/

/-- A member as an evaluation sees it: with the templates and the time of that moment. -/
structure Sighting where
  member : Member
  templates : List TemplateRule
  now : Int
  deriving DecidableEq, Repr

/-- What `getForwardGroupById` gives of the group the second and the third time. -/
structure LatestGroup where
  activeMemberId : Option Nat
  enabledMemberIds : List Nat
  deriving DecidableEq, Repr

/-- A look at the group and at the hosts of its members; none where the read throws. -/
structure Glance where
  latest : Option LatestGroup
  liveness : Nat → MemberAgentLiveness

/-- What an evaluation has read of the group and the members. -/
structure Survey where
  settings : HealthSettings
  updatedAt : Option Int
  createdAt : Option Int
  sightings : List Sighting
  deriving DecidableEq, Repr

/-- What an evaluation meets as it chooses a member and commits it. -/
structure Commit where
  ddns : GroupConfig
  autoFailback : Bool
  ddnsValue : Nat → String
  forceSync : Bool
  before : Glance
  after : Glance
  preserving : Preserving
  reply : ForwardGroupRecordType → Reply

/-- An evaluation that has looked at all its members. -/
structure Round extends Survey, Commit where
  ids_nodup : (sightings.map fun x => x.member.id).Nodup

namespace Survey

variable (r : Survey)

def health (x : Sighting) : HealthGroup := ⟨r.settings, r.updatedAt, r.createdAt, x.templates⟩

def found (x : Sighting) : Findings :=
  memberFindings (r.health x) x.member (x.member.liveness x.now) x.now

def evaluate (x : Sighting) : Evaluated := (evaluateMemberHealth (r.health x) x.member x.now).1

def date (W : Window) (x : Sighting) : Option Int := W.value x.member (r.found x) x.now

def Elapsed (W : Window) (x : Sighting) : Prop :=
  ∃ since, r.date W x = some since ∧ W.seconds r.settings * 1000 ≤ x.now - since

end Survey

namespace Round

variable (r : Round)

def evaluated : List Evaluated :=
  (r.sightings.insertionSort fun x y => x.member.priority ≤ y.member.priority).map r.evaluate

def verdicts : List Verdict := r.evaluated.map Evaluated.toVerdict

def choice (s : GroupState) : Choice :=
  chooseMember r.autoFailback false s.activeMemberId s.lastValue r.verdicts

def memberAgentSelectionStillCurrent (glance : Glance) (v : Verdict) : Bool :=
  (r.evaluated.find? (·.id == v.id)).all fun e => (glance.liveness v.id).signature = e.agentLivenessSignature

def failoverAgentSelectionStillCurrent (s : GroupState) (glance : Glance) (next : Option Verdict) : Bool :=
  let active := activeMember s.activeMemberId r.verdicts
  match glance.latest with
  | none => false
  | some latest =>
    latest.activeMemberId.getD 0 = s.activeMemberId.getD 0 &&
      active.all (fun v => latest.enabledMemberIds.contains v.id) &&
      next.all (fun v => latest.enabledMemberIds.contains v.id) &&
      active.all (r.memberAgentSelectionStillCurrent glance) &&
      next.all (r.memberAgentSelectionStillCurrent glance) &&
      next.all (fun v => active.any (·.id == v.id) || (glance.liveness v.id).available)

def nextOf : Choice → Option Verdict
  | .hold => none
  | .next member => member

def look (s : GroupState) : Surroundings where
  forcePriority := false
  forceSync := r.forceSync
  stillCurrent := r.failoverAgentSelectionStillCurrent s r.before none
  beforeCommit := r.failoverAgentSelectionStillCurrent s r.before (nextOf (r.choice s))
  afterUpdate := r.failoverAgentSelectionStillCurrent s r.after (nextOf (r.choice s))
  preserving := r.preserving
  reply := r.reply

/-- The group's row after the evaluation, which is without `forcePriority`. -/
def run (s : GroupState) : GroupState :=
  if r.sightings.isEmpty then s
  else if r.ddns.domain = "" then
    { s with
      lastStatus :=
        if r.verdicts.any Verdict.healthy then .healthy
        else if r.verdicts.any Verdict.healthPending then .unknown else .down }
  else (carryOutChoice r.ddns r.ddnsValue s (r.look s) (r.choice s)).1

end Round

/-! ## Evidence -/

/-- The evidence against a member is final: its host is excluded, or a rule's probe says so, is too
old, or has been missing for too long. -/
def FinalEvidence (group : HealthGroup) (m : Member) (now : Int) : Prop :=
  (m.liveness now).trafficExcluded = true ∨ ∃ rule ∈ activeChildRules group m,
    (∃ stat, freshForwardGroupRuleProbe rule.latestStat now = some stat ∧ stat.healthStatus = .unhealthy) ∨
    (∃ stat, rule.latestStat = some stat ∧ freshForwardGroupRuleProbe rule.latestStat now = none) ∨
    (rule.latestStat = none ∧ waitingSince group m now + forwardGroupRuleProbeFreshMs ≤ now)

/-- The Agent says of every rule of a member that it is healthy. -/
def Confirmed (group : HealthGroup) (m : Member) (now : Int) : Prop :=
  ∀ rule ∈ activeChildRules group m,
    ∃ stat, freshForwardGroupRuleProbe rule.latestStat now = some stat ∧ stat.healthStatus = .healthy

instance (group : HealthGroup) (m : Member) (now : Int) : Decidable (Confirmed group m now) :=
  decidable_of_iff (∀ rule ∈ activeChildRules group m,
      (freshForwardGroupRuleProbe rule.latestStat now).any fun stat => stat.healthStatus = .healthy) (by
    simp only [Confirmed, Option.any_eq_true, decide_eq_true_eq])

section
variable {liveness : MemberAgentLiveness} {waitingSince now : Int} {stat : RuleProbe} {rule : ChildRule}
  {f found : Findings}

theorem ruleNotReady_final (h : ruleNotReady liveness rule f = some found) :
    found.agentFailureFinal = f.agentFailureFinal := by
  unfold ruleNotReady at h
  split_ifs at h <;> cases h <;> rfl

theorem probeNotWell_final (h : probeNotWell stat f = some found) (hf : f.agentFailureFinal = false)
    (hfound : found.agentFailureFinal = true) : stat.healthStatus = .unhealthy ∧ found.healthPending = f.healthPending := by
  unfold probeNotWell at h
  split_ifs at h with _ hunhealthy
  · cases h
    exact absurd hfound (by simp [hf])
  · cases h
    exact ⟨hunhealthy, rfl⟩
  · cases h
    exact absurd hfound (by simp [hf])

/-- Where the walk ends with final evidence, a rule has given it, and nothing is pending. -/
theorem scanRules_final {rules : List ChildRule} (hf : f.agentFailureFinal = false) (hpending : f.healthPending = false)
    (h : (scanRules liveness waitingSince now rules f).agentFailureFinal = true) :
    (scanRules liveness waitingSince now rules f).healthPending = false ∧ ∃ rule ∈ rules,
      (∃ stat, freshForwardGroupRuleProbe rule.latestStat now = some stat ∧ stat.healthStatus = .unhealthy) ∨
      (∃ stat, rule.latestStat = some stat ∧ freshForwardGroupRuleProbe rule.latestStat now = none) ∨
      (rule.latestStat = none ∧ waitingSince + forwardGroupRuleProbeFreshMs ≤ now) := by
  induction rules generalizing f with
  | nil => exact absurd h (by simp [scanRules, hf])
  | cons rule rules ih =>
    cases hready : ruleNotReady liveness rule f with
    | some found =>
      rw [scanRules_notReady hready] at h
      exact absurd h (by simp [ruleNotReady_final hready, hf])
    | none =>
      cases hfresh : freshForwardGroupRuleProbe rule.latestStat now with
      | none =>
        rw [scanRules_withoutProbe hready hfresh] at h ⊢
        cases hlatest : rule.latestStat with
        | some stat =>
          exact ⟨hpending, rule, List.mem_cons_self, Or.inr (Or.inl ⟨stat, hlatest, hfresh⟩)⟩
        | none =>
          rw [hlatest] at h
          by_cases hover : waitingSince + forwardGroupRuleProbeFreshMs ≤ now
          · simp only [ruleWithoutProbe, if_pos hover]
            exact ⟨hpending, rule, List.mem_cons_self, Or.inr (Or.inr ⟨hlatest, hover⟩)⟩
          · simp only [ruleWithoutProbe, if_neg hover] at h
            exact absurd h (by simp [hf])
      | some stat =>
        cases hwell : probeNotWell stat (noteExpiry stat f) with
        | some found =>
          rw [scanRules_stops hready hfresh hwell] at h ⊢
          obtain ⟨hunhealthy, hsame⟩ := probeNotWell_final hwell hf h
          exact ⟨hsame.trans hpending, rule, List.mem_cons_self, Or.inl ⟨stat, hfresh, hunhealthy⟩⟩
        | none =>
          rw [scanRules_passes hready hfresh hwell] at h ⊢
          obtain ⟨hnot, rule', hrule', hevidence⟩ := ih (f := passProbe stat (noteExpiry stat f)) hf hpending h
          exact ⟨hnot, rule', List.mem_cons_of_mem rule hrule', hevidence⟩

/-- Where the walk ends well and every decision was the Agent's, it has confirmed every rule. -/
theorem scanRules_confirmed {rules : List ChildRule} (h : (scanRules liveness waitingSince now rules f).healthy = true)
    (hall : (scanRules liveness waitingSince now rules f).allRuleHealthAgentFinal = true) :
    f.allRuleHealthAgentFinal = true ∧ ∀ rule ∈ rules,
      ∃ stat, freshForwardGroupRuleProbe rule.latestStat now = some stat ∧ stat.healthStatus = .healthy := by
  induction rules generalizing f with
  | nil => exact ⟨hall, fun _ hrule => by cases hrule⟩
  | cons rule rules ih =>
    cases hready : ruleNotReady liveness rule f with
    | some found =>
      rw [scanRules_notReady hready] at h
      exact absurd h (by rw [ruleNotReady_healthy hready]; decide)
    | none =>
      cases hfresh : freshForwardGroupRuleProbe rule.latestStat now with
      | none =>
        rw [scanRules_withoutProbe hready hfresh] at h
        exact absurd h (by rw [ruleWithoutProbe_healthy]; decide)
      | some stat =>
        cases hwell : probeNotWell stat (noteExpiry stat f) with
        | some found =>
          rw [scanRules_stops hready hfresh hwell] at h
          exact absurd h (by rw [probeNotWell_healthy hwell]; decide)
        | none =>
          rw [scanRules_passes hready hfresh hwell] at h hall
          obtain ⟨hpassed, hrest⟩ := ih h hall
          obtain ⟨hbefore, hhealthy⟩ := Bool.and_eq_true_iff.mp hpassed
          refine ⟨hbefore, fun rule' hrule' => ?_⟩
          rcases List.mem_cons.mp hrule' with rfl | hrule'
          · exact ⟨stat, hfresh, by simpa using hhealthy⟩
          · exact hrest rule' hrule'

end

theorem checkChina_allFinal (m : Member) (liveness : MemberAgentLiveness) (now : Int) (f : Findings) :
    (checkChina m liveness now f).allRuleHealthAgentFinal = f.allRuleHealthAgentFinal := by
  unfold checkChina
  split <;> rfl

theorem describeHealthy_allFinal (f : Findings) :
    (describeHealthy f).allRuleHealthAgentFinal = f.allRuleHealthAgentFinal := by
  unfold describeHealthy
  split <;> rfl

section
variable {group : HealthGroup} {m : Member} {now : Int}

theorem memberFindings_final (h : (memberFindings group m (m.liveness now) now).agentFailureFinal = true) :
    (memberFindings group m (m.liveness now) now).healthPending = false ∧ FinalEvidence group m now := by
  unfold memberFindings at h ⊢
  split_ifs at h ⊢ with htraffic
  · exact ⟨rfl, Or.inl htraffic⟩
  · simp only [checkRules] at h ⊢
    rw [(describeHealthy_flags _).2.2] at h
    rw [(describeHealthy_flags _).2.1]
    split at h
    next hon =>
      rw [checkChina_final, (scanRules_healthy (Bool.and_eq_true_iff.mp hon).1).2] at h
      cases h
    next hoff =>
      rw [if_neg hoff]
      obtain ⟨hpending, hevidence⟩ := scanRules_final rfl rfl h
      exact ⟨hpending, Or.inr hevidence⟩

theorem memberFindings_confirmed (h : (memberFindings group m (m.liveness now) now).healthy = true)
    (hall : (memberFindings group m (m.liveness now) now).allRuleHealthAgentFinal = true) :
    Confirmed group m now := by
  unfold memberFindings at h hall
  split_ifs at h hall
  simp only [checkRules] at h hall
  rw [(describeHealthy_flags _).1] at h
  rw [describeHealthy_allFinal] at hall
  split at h
  next hon =>
    rw [if_pos hon, checkChina_allFinal] at hall
    exact (scanRules_confirmed (Bool.and_eq_true_iff.mp hon).1 hall).2
  next hoff =>
    rw [if_neg hoff] at hall
    exact (scanRules_confirmed h hall).2

end

section
variable {r : Survey} {x : Sighting}

/-- A member that has failed for long enough is not pending, and the evidence is final or its window
over. -/
theorem failed_evidence (h : (r.evaluate x).failedLongEnough = true) :
    (r.found x).healthPending = false ∧ (FinalEvidence (r.health x) x.member x.now ∨ r.Elapsed .failure x) := by
  rcases Bool.or_eq_true_iff.mp h with hfinal | hwindow
  · obtain ⟨hpending, hevidence⟩ := memberFindings_final hfinal
    exact ⟨hpending, Or.inl hevidence⟩
  · obtain ⟨since, hsome, hover⟩ := (Option.any_eq_true _ _).mp hwindow
    rw [decide_eq_true_eq] at hover
    exact ⟨(failing_of_failureSince hsome).2, Or.inr ⟨since, hsome, (le_delayMs r.settings.failoverSeconds 60).trans hover⟩⟩

/-- A healthy member that has recovered for long enough is confirmed, or its window is over. -/
theorem recovered_evidence (hhealthy : (r.found x).healthy = true) (h : (r.evaluate x).recoveredLongEnough = true) :
    Confirmed (r.health x) x.member x.now ∨ r.Elapsed .recovery x := by
  rcases Bool.or_eq_true_iff.mp h with hfinal | hwindow
  · exact Or.inl (memberFindings_confirmed hhealthy (Bool.and_eq_true_iff.mp hfinal).2)
  · obtain ⟨since, hsome, hover⟩ := (Option.any_eq_true _ _).mp hwindow
    rw [decide_eq_true_eq] at hover
    exact Or.inr ⟨since, hsome, (le_delayMs r.settings.recoverSeconds 120).trans hover⟩

end

/-! ## Switches -/

section
variable {r : Round} {s : GroupState} {a b : Nat}

theorem Round.mem_verdicts {v : Verdict} :
    v ∈ r.verdicts ↔ ∃ x ∈ r.sightings, (r.evaluate x).toVerdict = v := by
  unfold Round.verdicts Round.evaluated
  simp only [List.mem_map, List.mem_insertionSort, exists_exists_and_eq_and]

/-- No member that is seen comes before `x` among the healthy ones. -/
def Round.First (r : Round) (x : Sighting) : Prop :=
  ∀ y ∈ r.sightings, (r.found y).healthy = true →
    x.member.priority < y.member.priority ∨
      (x.member.priority = y.member.priority ∧ x.member.id ≤ y.member.id)

/-- The look at the group that a switch from `a` to the member of `x` needs: the stored active
member is as it was read, `x` is enabled and its liveness as it was, and so for `a` if it is
a member. -/
structure Round.Unchanged (r : Round) (s : GroupState) (glance : Glance) (x : Sighting) : Prop where
  stored : ∃ latest, glance.latest = some latest ∧ latest.activeMemberId.getD 0 = s.activeMemberId.getD 0 ∧
    x.member.id ∈ latest.enabledMemberIds ∧
    ∀ y ∈ r.sightings, s.activeMemberId = some y.member.id → y.member.id ∈ latest.enabledMemberIds
  next : (glance.liveness x.member.id).signature = (x.member.liveness x.now).signature
  active : ∀ y ∈ r.sightings, s.activeMemberId = some y.member.id →
    (glance.liveness y.member.id).signature = (y.member.liveness y.now).signature

/-- The reasons for a switch from `a` to the member of `x`, where `Over` is what a window needs that
is over. -/
inductive Round.Reason (r : Round) (Over : Window → Sighting → Prop) (a : Nat) (x : Sighting) : Prop
  | gone (h : ∀ y ∈ r.sightings, y.member.id ≠ a) (hfirst : r.First x)
  | failed (y : Sighting) (hy : y ∈ r.sightings) (hid : y.member.id = a)
      (hhealthy : (r.found y).healthy = false) (hpending : (r.found y).healthPending = false)
      (hevidence : FinalEvidence (r.health y) y.member y.now ∨ Over .failure y) (hfirst : r.First x)
  | better (y : Sighting) (hy : y ∈ r.sightings) (hid : y.member.id = a) (hauto : r.autoFailback = true)
      (hpriority : x.member.priority < y.member.priority)
      (hevidence : Confirmed (r.health x) x.member x.now ∨ Over .recovery x)

/-- A switch from `a` to `b` with all that it needs. -/
structure Justified (r : Round) (Over : Window → Sighting → Prop) (s : GroupState) (a b : Nat) : Prop where
  target : ∃ x ∈ r.sightings, x.member.id = b ∧ x.member.columns.isEnabled = true ∧
    (r.found x).healthy = true ∧ (x.member.liveness x.now).trafficExcluded = false ∧
    r.Reason Over a x ∧ r.Unchanged s r.before x ∧ (r.ddns.ddnsEnabled = true → r.Unchanged s r.after x)
  accepted : r.ddns.ddnsEnabled = true → Accepted r.ddns.js r.ddns.recordType [r.ddnsValue b] r.reply

theorem Round.Reason.mono {Over Over' : Window → Sighting → Prop} {x : Sighting} (h : r.Reason Over a x)
    (hx : x ∈ r.sightings) (hover : ∀ W, ∀ y ∈ r.sightings, Over W y → Over' W y) : r.Reason Over' a x := by
  cases h with
  | gone h hfirst => exact .gone h hfirst
  | failed y hy hid hhealthy hpending hevidence hfirst =>
    exact .failed y hy hid hhealthy hpending (hevidence.imp_right (hover .failure y hy)) hfirst
  | better y hy hid hauto hpriority hevidence =>
    exact .better y hy hid hauto hpriority (hevidence.imp_right (hover .recovery x hx))

theorem Justified.mono {Over Over' : Window → Sighting → Prop} (h : Justified r Over s a b)
    (hover : ∀ W, ∀ y ∈ r.sightings, Over W y → Over' W y) : Justified r Over' s a b := by
  obtain ⟨⟨x, hx, hid, henabled, hhealthy, hincluded, hreason, hunchanged⟩, haccepted⟩ := h
  exact ⟨⟨x, hx, hid, henabled, hhealthy, hincluded, hreason.mono hx hover, hunchanged⟩, haccepted⟩

theorem healthy_precedes {evaluated : List Verdict} {w v : Verdict}
    (h : (healthyMembers evaluated).head? = some w) (hv : v ∈ healthyMembers evaluated) : Precedes w v := by
  have hsorted : (healthyMembers evaluated).Pairwise Precedes := List.pairwise_insertionSort _ _
  cases hlist : healthyMembers evaluated with
  | nil => simp [hlist] at h
  | cons first rest =>
    rw [hlist] at h hv hsorted
    cases h
    rcases List.mem_cons.mp hv with rfl | hin
    · exact Or.inr ⟨rfl, le_refl _⟩
    · exact (List.pairwise_cons.mp hsorted).1 v hin

theorem Round.first_of_head {w : Verdict} (h : (healthyMembers r.verdicts).head? = some w) {x : Sighting}
    (hx : (r.evaluate x).toVerdict = w) : r.First x := by
  subst hx
  intro y hy hhealthy
  exact healthy_precedes h (mem_healthyMembers.mpr ⟨Round.mem_verdicts.mpr ⟨y, hy, rfl⟩, hhealthy⟩)

theorem Round.active_sighting {u : Verdict} (h : activeMember s.activeMemberId r.verdicts = some u)
    (ha : s.activeMemberId = some a) : ∃ y ∈ r.sightings, y.member.id = a ∧ (r.evaluate y).toVerdict = u := by
  obtain ⟨hid, hmem⟩ := activeMember_id h
  obtain ⟨y, hy, rfl⟩ := Round.mem_verdicts.mp hmem
  exact ⟨y, hy, Option.some.inj (hid.symm.trans ha), rfl⟩

theorem Round.reason {w : Verdict} (h : r.choice s = .next (some w)) (ha : s.activeMemberId = some a)
    (hother : w.id ≠ a) {x : Sighting} (hverdict : (r.evaluate x).toVerdict = w) :
    (r.found x).healthy = true ∧ r.Reason r.Elapsed a x := by
  subst hverdict
  have hchosen := chooseMember_next h
  cases hchosen with
  | forced hforced => cases hforced
  | failback _ hback hcandidate =>
    have hfind := hcandidate.symm
    have hhealthy := (mem_healthyMembers.mp (List.mem_of_find?_eq_some hfind)).2
    refine ⟨hhealthy, ?_⟩
    rw [hfind] at hback
    obtain ⟨hauto, hany⟩ := Bool.and_eq_true_iff.mp hback
    cases hactive : activeMember s.activeMemberId r.verdicts with
    | none => simp [hactive] at hany
    | some u =>
      rw [hactive, Option.any_some, Option.any_some, decide_eq_true_eq] at hany
      obtain ⟨y, hy, hid, rfl⟩ := Round.active_sighting hactive ha
      have hrecovered : (r.evaluate x).toVerdict.recoveredLongEnough = true := List.find?_some hfind
      exact .better y hy hid hauto hany (recovered_evidence hhealthy hrecovered)
  | failover _ _ hover hhead =>
    have hhealthy := (mem_healthyMembers.mp (List.mem_of_head? hhead.symm)).2
    have hfirst := Round.first_of_head hhead.symm rfl
    refine ⟨hhealthy, ?_⟩
    cases hactive : activeMember s.activeMemberId r.verdicts with
    | none =>
      refine .gone (fun y hy hid => ?_) hfirst
      rw [ha] at hactive
      have hnot := List.find?_eq_none.mp hactive _ (Round.mem_verdicts.mpr ⟨y, hy, rfl⟩)
      exact hnot (beq_iff_eq.mpr hid)
    | some u =>
      obtain ⟨y, hy, hid, rfl⟩ := Round.active_sighting hactive ha
      rw [hactive] at hover
      simp only [shouldFailover, Option.all_some, Bool.and_eq_true, Bool.not_eq_true'] at hover
      obtain ⟨hpending, hevidence⟩ := failed_evidence hover.2
      exact .failed y hy hid hover.1 hpending hevidence hfirst
  | stays _ _ _ hactive =>
    obtain ⟨y, hy, hid, hsame⟩ := Round.active_sighting hactive.symm ha
    rw [← hsame] at hother
    exact absurd hid hother

theorem Round.signature {glance : Glance} {x : Sighting} (hx : x ∈ r.sightings)
    (h : r.memberAgentSelectionStillCurrent glance (r.evaluate x).toVerdict = true) :
    (glance.liveness x.member.id).signature = (x.member.liveness x.now).signature := by
  unfold Round.memberAgentSelectionStillCurrent at h
  cases hfind : r.evaluated.find? (·.id == (r.evaluate x).id) with
  | none =>
    have hin : r.evaluate x ∈ r.evaluated :=
      List.mem_map.mpr ⟨x, (List.mem_insertionSort _).mpr hx, rfl⟩
    have hnot := List.find?_eq_none.mp hfind _ hin
    simp at hnot
  | some e =>
    rw [hfind, Option.all_some, decide_eq_true_eq] at h
    obtain ⟨y, hy, rfl⟩ := List.mem_map.mp (List.mem_of_find?_eq_some hfind)
    have hfound := List.find?_some hfind
    have hid : y.member.id = x.member.id := beq_iff_eq.mp hfound
    have hsame := List.inj_on_of_nodup_map r.ids_nodup ((List.mem_insertionSort _).mp hy) hx hid
    rw [hsame] at h
    exact h

end

end ForwardX.Panel.Failover
