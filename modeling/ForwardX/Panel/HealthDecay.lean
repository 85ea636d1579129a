import ForwardX.Panel.VerdictsInTime

/- A member's health between two evaluations without new evidence: it only decays, but for a
   missing result. An evaluation that finds a result missing for five minutes writes
   `lastCheckedAt`, and for five minutes more the next takes the wait to have begun there. -/
namespace ForwardX.Panel.Failover

open Ddns

/-! ## Rules that the walk passes -/

/-- The rule is in use, and its latest probe is not from before the Agent was away. -/
def Ready (liveness : MemberAgentLiveness) (rule : ChildRule) : Prop :=
  rule.isEnabled = true ∧ rule.pendingDelete = false ∧ rule.isRunning = true ∧
    agentHealthSampleIsCurrent liveness (rule.latestStat.map RuleProbe.recordedAt) = true

def Well (stat : RuleProbe) : Prop :=
  stat.healthStatus = .healthy ∨ (stat.healthStatus = .other ∧ stat.isTimeout = false)

/-- The walk at `now` comes to a rule without a result. -/
def ReachesMissing (liveness : MemberAgentLiveness) (now : Int) : List ChildRule → Prop
  | [] => False
  | rule :: rules =>
    Ready liveness rule ∧
      match rule.latestStat with
      | none => True
      | some stat =>
        now ≤ stat.recordedAt + forwardGroupRuleProbeFreshMs ∧ Well stat ∧ ReachesMissing liveness now rules

section
variable {liveness : MemberAgentLiveness} {rule : ChildRule} {stat : RuleProbe} {f : Findings}

theorem ruleNotReady_eq_none : ruleNotReady liveness rule f = none ↔ Ready liveness rule := by
  unfold ruleNotReady Ready
  split_ifs with hused hrunning hcurrent
  · refine ⟨fun h => (nomatch h), fun h => ?_⟩
    simp [h.1, h.2.1] at hused
  · refine ⟨fun h => (nomatch h), fun h => ?_⟩
    simp [h.2.2.1] at hrunning
  · refine ⟨fun h => (nomatch h), fun h => ?_⟩
    simp [h.2.2.2] at hcurrent
  · refine ⟨fun _ => ?_, fun _ => rfl⟩
    simp only [Bool.or_eq_true, Bool.not_eq_true', not_or, Bool.not_eq_false, Bool.not_eq_true] at hused hrunning hcurrent
    exact ⟨hused.1, hused.2, hrunning, hcurrent⟩

theorem ruleNotReady_healthy {found : Findings} (h : ruleNotReady liveness rule f = some found) :
    found.healthy = false := by
  unfold ruleNotReady at h
  split_ifs at h <;> cases h <;> rfl

theorem probeNotWell_healthy {found : Findings} (h : probeNotWell stat f = some found) : found.healthy = false := by
  unfold probeNotWell at h
  split_ifs at h <;> cases h <;> rfl

theorem ruleWithoutProbe_healthy {latest : Option RuleProbe} {waitingSince now : Int} :
    (ruleWithoutProbe latest waitingSince now f).healthy = false := by
  cases latest with
  | some stat => rfl
  | none =>
    simp only [ruleWithoutProbe]
    split <;> rfl

theorem probeNotWell_eq_none : probeNotWell stat f = none ↔ Well stat := by
  unfold probeNotWell Well
  cases stat.healthStatus <;> cases stat.isTimeout <;> simp

end

/-! ## Findings that only decay -/

/-- What becomes of the findings `f` at a later time without new evidence. -/
structure Findings.Decays (f f' : Findings) : Prop where
  unhealthy : f.healthy = false → f'.healthy = false
  decided : f.healthPending = false → f'.healthPending = false
  final : f.agentFailureFinal = true → f'.agentFailureFinal = true

theorem Findings.Decays.refl (f : Findings) : f.Decays f := ⟨id, id, id⟩

section
variable {liveness liveness' : MemberAgentLiveness} {waitingSince waitingSince' t t' : Int} {rules : List ChildRule}

theorem scanRules_of_reaches (waitingSince : Int) {now : Int} (h : ReachesMissing liveness now rules)
    (hpast : ∀ rule ∈ rules, ∀ stat ∈ rule.latestStat, stat.recordedAt ≤ now) (f : Findings) :
    ∃ g : Findings, scanRules liveness waitingSince now rules f = ruleWithoutProbe none waitingSince now g ∧
      g.healthPending = f.healthPending ∧ g.agentFailureFinal = f.agentFailureFinal := by
  induction rules generalizing f with
  | nil => cases h
  | cons rule rules ih =>
    obtain ⟨hready, hrest⟩ := h
    have hready := (ruleNotReady_eq_none (f := f)).mpr hready
    cases hlatest : rule.latestStat with
    | none =>
      rw [scanRules_withoutProbe hready (by rw [hlatest]; rfl), hlatest]
      exact ⟨f, rfl, rfl, rfl⟩
    | some stat =>
      rw [hlatest] at hrest
      obtain ⟨hfresh, hwell, hreaches⟩ := hrest
      have hfresh' : freshForwardGroupRuleProbe rule.latestStat now = some stat := by
        rw [hlatest]
        exact (fresh_iff (hpast rule List.mem_cons_self stat hlatest)).mpr hfresh
      rw [scanRules_passes hready hfresh' (probeNotWell_eq_none.mpr hwell)]
      exact ih hreaches (fun r hr => hpast r (List.mem_cons_of_mem rule hr)) _

theorem ReachesMissing.earlier (hle : t ≤ t') (h : ReachesMissing liveness t' rules) :
    ReachesMissing liveness t rules := by
  induction rules with
  | nil => exact h
  | cons rule rules ih =>
    obtain ⟨hready, hrest⟩ := h
    refine ⟨hready, ?_⟩
    cases hlatest : rule.latestStat with
    | none => trivial
    | some stat =>
      rw [hlatest] at hrest
      exact ⟨hle.trans hrest.1, hrest.2.1, ih hrest.2.2⟩

theorem ruleMissing_decays {f : Findings} (h : waitingSince + forwardGroupRuleProbeFreshMs ≤ t →
    ¬ t' < waitingSince' + forwardGroupRuleProbeFreshMs) :
    (ruleWithoutProbe none waitingSince t f).Decays (ruleWithoutProbe none waitingSince' t' f) := by
  by_cases hover : waitingSince + forwardGroupRuleProbeFreshMs ≤ t
  · simp only [ruleWithoutProbe, if_pos hover, if_pos (not_lt.mp (h hover))]
    exact ⟨fun _ => rfl, id, fun _ => rfl⟩
  · simp only [ruleWithoutProbe, if_neg hover]
    refine ⟨fun _ => ?_, fun hpending => ?_, fun hfinal => ?_⟩
    · split <;> rfl
    · cases hpending
    · split
      next => rfl
      next => exact hfinal

theorem ReachesMissing.congr (hcurrent : agentHealthSampleIsCurrent liveness' = agentHealthSampleIsCurrent liveness)
    (h : ReachesMissing liveness t rules) : ReachesMissing liveness' t rules := by
  induction rules with
  | nil => exact h
  | cons rule rules ih =>
    obtain ⟨hready, hrest⟩ := h
    refine ⟨?_, ?_⟩
    · unfold Ready at hready ⊢
      rwa [hcurrent]
    · cases hlatest : rule.latestStat with
      | none => trivial
      | some stat =>
        rw [hlatest] at hrest
        exact ⟨hrest.1, hrest.2.1, ih hrest.2.2⟩

/-- What the walk finds only decays, unless it comes to a missing result that is waited for
again. -/
theorem scanRules_decays {f : Findings}
    (hcurrent : agentHealthSampleIsCurrent liveness' = agentHealthSampleIsCurrent liveness) (hle : t ≤ t')
    (hpast : ∀ rule ∈ rules, ∀ stat ∈ rule.latestStat, stat.recordedAt ≤ t) (hpending : f.healthPending = false)
    (hmissing : ¬ (ReachesMissing liveness t' rules ∧ waitingSince + forwardGroupRuleProbeFreshMs ≤ t ∧
      t' < waitingSince' + forwardGroupRuleProbeFreshMs)) :
    (scanRules liveness waitingSince t rules f).Decays (scanRules liveness' waitingSince' t' rules f) := by
  induction rules generalizing f with
  | nil => exact .refl f
  | cons rule rules ih =>
    cases hready : ruleNotReady liveness rule f with
    | some found =>
      rw [scanRules_notReady hready, scanRules_notReady ((ruleNotReady_congr hcurrent).symm ▸ hready)]
      exact .refl found
    | none =>
      have hready' : ruleNotReady liveness' rule f = none := (ruleNotReady_congr hcurrent).symm ▸ hready
      cases hlatest : rule.latestStat with
      | none =>
        rw [scanRules_withoutProbe hready (by rw [hlatest]; rfl),
          scanRules_withoutProbe hready' (by rw [hlatest]; rfl), hlatest]
        refine ruleMissing_decays fun hover hwaits => hmissing ⟨⟨ruleNotReady_eq_none.mp hready, ?_⟩, hover, hwaits⟩
        rw [hlatest]
        trivial
      | some stat =>
        have hold := hpast rule List.mem_cons_self stat hlatest
        by_cases hfresh' : t' ≤ stat.recordedAt + forwardGroupRuleProbeFreshMs
        · -- fresh at both times
          have hsome : freshForwardGroupRuleProbe rule.latestStat t = some stat := by
            rw [hlatest]
            exact (fresh_iff hold).mpr (hle.trans hfresh')
          have hsome' : freshForwardGroupRuleProbe rule.latestStat t' = some stat := by
            rw [hlatest]
            exact (fresh_iff (hold.trans hle)).mpr hfresh'
          cases hwell : probeNotWell stat (noteExpiry stat f) with
          | some found =>
            rw [scanRules_stops hready hsome hwell, scanRules_stops hready' hsome' hwell]
            exact .refl found
          | none =>
            rw [scanRules_passes hready hsome hwell, scanRules_passes hready' hsome' hwell]
            refine ih (fun r hr => hpast r (List.mem_cons_of_mem rule hr)) hpending fun hlater => hmissing ?_
            refine ⟨⟨ruleNotReady_eq_none.mp hready, ?_⟩, hlater.2⟩
            rw [hlatest]
            exact ⟨hfresh', probeNotWell_eq_none.mp hwell, hlater.1⟩
        · -- over at the later time
          have hnone' := (fresh_eq_none_iff (hold.trans hle)).mpr (not_le.mp hfresh')
          rw [← hlatest] at hnone'
          rw [scanRules_withoutProbe hready' hnone', hlatest]
          exact ⟨fun _ => rfl, fun _ => hpending, fun _ => rfl⟩

theorem scanRules_healthy {f : Findings} (h : (scanRules liveness waitingSince t rules f).healthy = true) :
    (scanRules liveness waitingSince t rules f).healthPending = f.healthPending ∧
      (scanRules liveness waitingSince t rules f).agentFailureFinal = f.agentFailureFinal := by
  induction rules generalizing f with
  | nil => exact ⟨rfl, rfl⟩
  | cons rule rules ih =>
    cases hready : ruleNotReady liveness rule f with
    | some found =>
      rw [scanRules_notReady hready] at h
      exact absurd h (by rw [ruleNotReady_healthy hready]; decide)
    | none =>
      cases hfresh : freshForwardGroupRuleProbe rule.latestStat t with
      | none =>
        rw [scanRules_withoutProbe hready hfresh] at h
        exact absurd h (by rw [ruleWithoutProbe_healthy]; decide)
      | some stat =>
        cases hwell : probeNotWell stat (noteExpiry stat f) with
        | some found =>
          rw [scanRules_stops hready hfresh hwell] at h
          exact absurd h (by rw [probeNotWell_healthy hwell]; decide)
        | none =>
          rw [scanRules_passes hready hfresh hwell] at h ⊢
          exact ih h

end

/-! ## The check from China -/

section
variable {m m' : Member} {liveness liveness' : MemberAgentLiveness} {t t' : Int} {f f' : Findings}

theorem checkChina_pending (h : (checkChina m liveness t f).healthPending = false) : f.healthPending = false := by
  unfold checkChina at h
  split at h
  next => exact h
  next => exact h
  next => exact h
  next => simp [Findings.healthPending] at h

theorem checkChina_healthy (h : (checkChina m liveness t f).healthy = true) :
    (checkChina m liveness t f).healthPending = f.healthPending := by
  unfold checkChina at h ⊢
  split at h
  next => cases h
  next => cases h
  next => rfl
  next => cases h

theorem chinaStatus_of_healthy (t' : Int) (hsame : m.Same m')
    (hcurrent : agentHealthSampleIsCurrent liveness' = agentHealthSampleIsCurrent liveness)
    (h : chinaStatus m liveness t = .healthy) :
    chinaStatus m' liveness' t' = .healthy ∨ chinaStatus m' liveness' t' = .stale := by
  unfold chinaStatus at h ⊢
  rw [hcurrent, hsame.chinaHealthCheckedAt]
  split at h
  next hsample =>
    rw [if_pos hsample]
    unfold forwardGroupChinaHealthStateAt at h ⊢
    rw [hsame.chinaHealthStatus, hsame.chinaHealthCheckedAt]
    cases hstatus : m.columns.chinaHealthStatus with
    | unknown =>
      rw [hstatus] at h
      cases h
    | healthy =>
      simp only [healthStateAt]
      split_ifs <;> simp
    | unhealthy =>
      rw [hstatus] at h
      simp only [healthStateAt] at h
      split_ifs at h
  next => cases h

theorem checkChina_decays (h : f.Decays f') (hsame : m.Same m')
    (hcurrent : agentHealthSampleIsCurrent liveness' = agentHealthSampleIsCurrent liveness) (hle : t ≤ t')
    (hpast : ∀ date ∈ m.columns.chinaHealthCheckedAt, Failover.Past t date) (hhealthy : f.healthy = true) :
    (checkChina m liveness t f).Decays (checkChina m' liveness' t' f') := by
  obtain ⟨-, hdecided, hfinal⟩ := h
  unfold checkChina
  by_cases hwell : chinaStatus m liveness t = .healthy
  · rw [hwell]
    rcases chinaStatus_of_healthy t' hsame hcurrent hwell with hstatus' | hstatus'
    · rw [hstatus']
      refine ⟨fun hnot => ?_, hdecided, hfinal⟩
      rw [hhealthy] at hnot
      cases hnot
    · rw [hstatus']
      exact ⟨fun _ => rfl, hdecided, hfinal⟩
  · rcases chinaStatus_later hsame hcurrent hle hpast fun h => absurd h hwell with hstatus' | ⟨hstatus, hstatus', -⟩
    · rw [hstatus']
      cases hstatus : chinaStatus m liveness t with
      | healthy => exact absurd hstatus hwell
      | unhealthy => exact ⟨fun _ => rfl, hdecided, hfinal⟩
      | stale => exact ⟨fun _ => rfl, hdecided, hfinal⟩
      | pending => exact ⟨fun _ => rfl, fun hnot => by simp [Findings.healthPending] at hnot, hfinal⟩
      | offline => exact ⟨fun _ => rfl, fun hnot => by simp [Findings.healthPending] at hnot, hfinal⟩
    · rw [hstatus, hstatus']
      exact ⟨fun _ => rfl, hdecided, hfinal⟩

end

/-! ## Members -/

theorem describeHealthy_flags (f : Findings) : (describeHealthy f).healthy = f.healthy ∧
    (describeHealthy f).healthPending = f.healthPending ∧
    (describeHealthy f).agentFailureFinal = f.agentFailureFinal := by
  unfold describeHealthy
  split <;> exact ⟨rfl, rfl, rfl⟩

theorem describeHealthy_decays {f f' : Findings} (h : f.Decays f') :
    (describeHealthy f).Decays (describeHealthy f') := by
  obtain ⟨hhealthy, hpending, hfinal⟩ := describeHealthy_flags f
  obtain ⟨hhealthy', hpending', hfinal'⟩ := describeHealthy_flags f'
  constructor
  · rw [hhealthy, hhealthy']
    exact h.unhealthy
  · rw [hpending, hpending']
    exact h.decided
  · rw [hfinal, hfinal']
    exact h.final

/-- An evaluation at `t` finds a result missing that an evaluation at `t'` waits for: the rule is
there, the rules before it are well at both times, and the wait was over at `t` but began
again there. -/
def ForgetsMissing (group : HealthGroup) (m : Member) (t t' : Int) : Prop :=
  (m.liveness t).trafficExcluded = false ∧ m.columns.isEnabled = true ∧ (m.liveness t).available = true ∧
    ReachesMissing (m.liveness t) t' (activeChildRules group m) ∧
    waitingSince group m t + forwardGroupRuleProbeFreshMs ≤ t ∧ t' < stored t + forwardGroupRuleProbeFreshMs

section
variable {group : HealthGroup} {m m' : Member} {t t' : Int}

theorem memberFindings_walked (htraffic : (m.liveness t).trafficExcluded = false)
    (henabled : m.columns.isEnabled = true) (hrules : activeChildRules group m ≠ [])
    (havailable : (m.liveness t).available = true) :
    memberFindings group m (m.liveness t) t = checkRules group m (m.liveness t) t := by
  have hchildren : m.childRules ≠ [] := by
    intro hnil
    apply hrules
    unfold activeChildRules
    rw [hnil]
    rfl
  unfold memberFindings
  rw [htraffic, henabled, havailable, if_neg (by decide), if_neg (by decide), if_neg (by simpa using hchildren),
    if_neg (by simpa using hrules), if_neg (by decide)]

theorem memberFindings_healthy (h : (memberFindings group m (m.liveness t) t).healthy = true) :
    (memberFindings group m (m.liveness t) t).healthPending = false := by
  unfold memberFindings at h ⊢
  split_ifs at h ⊢
  simp only [checkRules] at h ⊢
  rw [(describeHealthy_flags _).1] at h
  rw [(describeHealthy_flags _).2.1]
  split at h
  next hon =>
    rw [if_pos hon, checkChina_healthy h]
    exact (scanRules_healthy (Bool.and_eq_true_iff.mp hon).1).1
  next hoff =>
    rw [if_neg hoff]
    exact (scanRules_healthy h).1

theorem checkRules_decays (hsame : m.Same m') (hle : t ≤ t')
    (hprobes : ∀ rule ∈ m.childRules, ∀ stat ∈ rule.latestStat, stat.recordedAt ≤ t)
    (hchecked : ∀ date ∈ m.columns.chinaHealthCheckedAt, Failover.Past t date)
    (hmissing : ¬ (ReachesMissing (m.liveness t) t' (activeChildRules group m) ∧
      waitingSince group m t + forwardGroupRuleProbeFreshMs ≤ t ∧
      t' < waitingSince group m' t' + forwardGroupRuleProbeFreshMs)) :
    (checkRules group m (m.liveness t) t).Decays (checkRules group m' (m'.liveness t') t') := by
  have hcurrent : agentHealthSampleIsCurrent (m'.liveness t') = agentHealthSampleIsCurrent (m.liveness t) := by
    rw [hsame.liveness]
    exact sampleIsCurrent_liveness m t t'
  have hscan := scanRules_decays (f := { healthy := true, allRuleHealthAgentFinal := true }) hcurrent hle
    (fun rule hrule => hprobes rule (mem_activeChildRules hrule)) rfl hmissing
  apply describeHealthy_decays
  rw [hsame.activeChildRules]
  split
  next hon =>
    have hhealthy := (Bool.and_eq_true_iff.mp hon).1
    split
    next => exact checkChina_decays hscan hsame hcurrent hle hchecked hhealthy
    next hoff =>
      have hchina := (Bool.and_eq_true_iff.mp hon).2
      refine ⟨fun _ => ?_, fun hpending => hscan.decided (checkChina_pending hpending), fun hfinal => ?_⟩
      · simpa [hchina] using hoff
      · rw [checkChina_final] at hfinal
        exact hscan.final hfinal
  next hoff =>
    split
    next hon =>
      -- rules that are not well do not become so
      obtain ⟨hhealthy', hchina⟩ := Bool.and_eq_true_iff.mp hon
      have hhealthy : (scanRules (m.liveness t) (waitingSince group m t) t (activeChildRules group m)
          { healthy := true, allRuleHealthAgentFinal := true }).healthy = false := by
        simpa [hchina] using hoff
      rw [hscan.unhealthy hhealthy] at hhealthy'
      cases hhealthy'
    next => exact hscan

theorem waitingSince_of_over {f : Findings}
    (h : waitingSince group m t + forwardGroupRuleProbeFreshMs ≤ t) :
    waitingSince group (writeMember m true f t) t' = stored t := by
  have hms : forwardGroupRuleProbeFreshMs = 5 * 60 * 1000 := by decide
  have hdue : (m.columns.lastCheckedAt.all fun last => decide (5 * 60 * 1000 ≤ t - last)) = true := by
    cases hlast : m.columns.lastCheckedAt with
    | none => rfl
    | some last =>
      simp only [waitingSince, hlast, Option.orElse_some, Option.getD_some] at h
      simp only [Option.all_some, decide_eq_true_eq]
      omega
  simp only [writeMember, hdue, Bool.and_self, or_true, if_true, waitingSince, Option.orElse_some, Option.getD_some]

/-- What is found on a member only decays, unless a missing result is forgotten. -/
theorem memberFindings_decays (hprobes : ∀ rule ∈ m.childRules, ∀ stat ∈ rule.latestStat, stat.recordedAt ≤ t)
    (hchecked : ∀ date ∈ m.columns.chinaHealthCheckedAt, Failover.Past t date) (hle : t ≤ t')
    (hsignature : (m.liveness t').signature = (m.liveness t).signature) (hmissing : ¬ ForgetsMissing group m t t') :
    (memberFindings group m (m.liveness t) t).Decays
      (memberFindings group (evaluateMemberHealth group m t).2
        ((evaluateMemberHealth group m t).2.liveness t') t') := by
  have hsame : m.Same (evaluateMemberHealth group m t).2 := writeMember_same m _ _ t
  have hexcluded := liveness_trafficExcluded m t t'
  have havailable := available_of_signature hsignature
  have hlive := hsame.liveness t'
  have hrules : (m.liveness t).trafficExcluded = false → m.columns.isEnabled = true →
      (m.liveness t).available = true →
      (checkRules group m (m.liveness t) t).Decays (checkRules group (evaluateMemberHealth group m t).2
        ((evaluateMemberHealth group m t).2.liveness t') t') := by
    intro htraffic henabled hthere
    apply checkRules_decays hsame hle hprobes hchecked
    rintro ⟨hreaches, hover, hwaits⟩
    refine hmissing ⟨htraffic, henabled, hthere, hreaches, hover, ?_⟩
    have hrow : (evaluateMemberHealth group m t).2 =
        writeMember m true (memberFindings group m (m.liveness t) t) t := by
      rw [← hthere]
      rfl
    rwa [hrow, waitingSince_of_over hover] at hwaits
  rw [hlive] at hrules ⊢
  unfold memberFindings
  rw [hexcluded, hsame.isEnabled, hsame.childRules, hsame.activeChildRules, havailable]
  split_ifs with htraffic hdisabled hnone hinactive hoffline
  · exact ⟨fun _ => rfl, id, fun _ => rfl⟩
  · exact .refl _
  · exact .refl _
  · exact .refl _
  · exact ⟨fun _ => rfl, id, id⟩
  · exact hrules (by simpa using htraffic) (by simpa using hdisabled) (by simpa using hoffline)

/-! ## Two evaluations -/

/-- The health of a member that was evaluated twice has only decayed. `healthySince` is compared
as the row keeps it. -/
structure Decayed (first second : Evaluated × Member) : Prop where
  unhealthy : first.1.healthy = false → first.1.healthPending = false →
    second.1.healthy = false ∧ second.1.healthPending = false ∧
      ∃ before ∈ first.1.failureSince, ∃ after ∈ second.1.failureSince, after ≤ before
  pending : first.1.healthPending = true → second.1.healthy = false
  failed : first.1.failedLongEnough = true → second.1.failedLongEnough = true
  healthySince : first.1.healthy = true → second.1.healthy = true →
    second.2.columns.healthySince = first.2.columns.healthySince

theorem failureSince_le {f f' : Findings} {since : Int} (h : failureSinceOf m f t = some since)
    (hrow : m'.columns.failureSince = failureSinceOf m f t ∨
      m'.columns.failureSince = (failureSinceOf m f t).map stored)
    (hhealthy : f'.healthy = false) (hpending : f'.healthPending = false) :
    ∃ since', failureSinceOf m' f' t' = some since' ∧ since' ≤ since := by
  rw [h] at hrow
  obtain ⟨row, hrow, hkept⟩ := kept_of_row hrow
  rw [failureSinceOf_failing hhealthy hpending, hrow]
  exact ⟨_, rfl, (failureStart_le_row row _ t').trans hkept.1⟩

theorem writeMember_healthySince_read (available : Bool) (f : Findings) (t : Int)
    (hread : m.columns.healthySince.map stored = m.columns.healthySince) :
    (writeMember m available f t).columns.healthySince = (healthySinceOf m f t).map stored := by
  simp only [writeMember]
  split
  next => rfl
  next hunchanged =>
    push Not at hunchanged
    rw [← hunchanged.1.2.2, hread]

theorem healthySince_kept {f f' : Findings} {available available' : Bool}
    (hread : m.columns.healthySince.map stored = m.columns.healthySince) (hhealthy : f.healthy = true)
    (hhealthy' : f'.healthy = true) :
    (writeMember (writeMember m available f t) available' f' t').columns.healthySince =
      (writeMember m available f t).columns.healthySince := by
  have hfirst := writeMember_healthySince_read available f t hread
  generalize writeMember m available f t = m' at hfirst ⊢
  have hread' : m'.columns.healthySince.map stored = m'.columns.healthySince := by
    rw [hfirst, Option.map_map]
    congr 1
    funext date
    exact stored_stored date
  rw [writeMember_healthySince_read available' f' t' hread']
  simp only [healthySinceOf, hhealthy, hhealthy', if_true, Option.map_some] at hfirst ⊢
  rw [hfirst, Option.getD_some, stored_stored]

theorem failing_of_failureSince {f : Findings} {since : Int} (h : failureSinceOf m f t = some since) :
    f.healthy = false ∧ f.healthPending = false := by
  unfold failureSinceOf at h
  split at h
  next => cases h
  next hnot =>
    simp only [Bool.or_eq_true, not_or, Bool.not_eq_true] at hnot
    exact hnot

theorem decayed_of_not_forgets (hprobes : ∀ rule ∈ m.childRules, ∀ stat ∈ rule.latestStat, stat.recordedAt ≤ t)
    (hchecked : ∀ date ∈ m.columns.chinaHealthCheckedAt, Failover.Past t date) (hle : t ≤ t')
    (hsignature : (m.liveness t').signature = (m.liveness t).signature)
    (hread : m.columns.healthySince.map stored = m.columns.healthySince) (hmissing : ¬ ForgetsMissing group m t t') :
    Decayed (evaluateMemberHealth group m t) (evaluateMemberHealth group (evaluateMemberHealth group m t).2 t') := by
  have hdecays := memberFindings_decays hprobes hchecked hle hsignature hmissing
  have hrow := writeMember_failureSince m (m.liveness t).available (memberFindings group m (m.liveness t) t) t
  have hdecided : (memberFindings group m (m.liveness t) t).healthy = false →
      (memberFindings group m (m.liveness t) t).healthPending = false →
      ∃ since, failureSinceOf m (memberFindings group m (m.liveness t) t) t = some since ∧
        ∃ since', failureSinceOf (evaluateMemberHealth group m t).2 (memberFindings group
          (evaluateMemberHealth group m t).2 ((evaluateMemberHealth group m t).2.liveness t') t') t' = some since' ∧
          since' ≤ since := by
    intro hhealthy hpending
    have hsince := failureSinceOf_failing (m := m) (t := t) hhealthy hpending
    exact ⟨_, hsince, failureSince_le hsince hrow (hdecays.unhealthy hhealthy) (hdecays.decided hpending)⟩
  constructor
  · intro hhealthy hpending
    obtain ⟨since, hsince, since', hsince', hle'⟩ := hdecided hhealthy hpending
    exact ⟨hdecays.unhealthy hhealthy, hdecays.decided hpending, since, hsince, since', hsince', hle'⟩
  · intro hpending
    apply hdecays.unhealthy
    by_contra hhealthy
    have hnot := memberFindings_healthy (by simpa using hhealthy)
    rw [show (memberFindings group m (m.liveness t) t).healthPending = true from hpending] at hnot
    cases hnot
  · intro hfailed
    rcases Bool.or_eq_true_iff.mp hfailed with hfinal | hwindow
    · exact Bool.or_eq_true_iff.mpr (Or.inl (hdecays.final hfinal))
    · apply Bool.or_eq_true_iff.mpr
      right
      cases hsome : failureSinceOf m (memberFindings group m (m.liveness t) t) t with
      | none => simp [hsome] at hwindow
      | some since =>
        obtain ⟨hhealthy, hpending⟩ := failing_of_failureSince hsome
        obtain ⟨before, hbefore, since', hsince', hle'⟩ := hdecided hhealthy hpending
        cases hsome.symm.trans hbefore
        rw [hsome, Option.any_some, decide_eq_true_eq] at hwindow
        rw [hsince', Option.any_some, decide_eq_true_eq]
        omega
  · intro hhealthy hhealthy'
    exact healthySince_kept hread hhealthy hhealthy'

theorem memberFindings_missing (htraffic : (m.liveness t).trafficExcluded = false)
    (henabled : m.columns.isEnabled = true) (havailable : (m.liveness t).available = true)
    (hreaches : ReachesMissing (m.liveness t) t (activeChildRules group m))
    (hpast : ∀ rule ∈ activeChildRules group m, ∀ stat ∈ rule.latestStat, stat.recordedAt ≤ t) :
    (memberFindings group m (m.liveness t) t).healthy = false ∧
      (memberFindings group m (m.liveness t) t).healthPending =
        decide (t < waitingSince group m t + forwardGroupRuleProbeFreshMs) := by
  have hrules : activeChildRules group m ≠ [] := by
    intro hnil
    rw [hnil] at hreaches
    cases hreaches
  obtain ⟨g, hscan, hpending, -⟩ := scanRules_of_reaches (waitingSince group m t) hreaches hpast
    { healthy := true, allRuleHealthAgentFinal := true }
  have hunhealthy : (scanRules (m.liveness t) (waitingSince group m t) t (activeChildRules group m)
      { healthy := true, allRuleHealthAgentFinal := true }).healthy = false := by
    rw [hscan]
    exact ruleWithoutProbe_healthy
  rw [memberFindings_walked htraffic henabled hrules havailable]
  simp only [checkRules, (describeHealthy_flags _).1, (describeHealthy_flags _).2.1]
  rw [hunhealthy, Bool.false_and, if_neg (by decide), hscan]
  refine ⟨ruleWithoutProbe_healthy, ?_⟩
  simp only [ruleWithoutProbe]
  split
  next hover =>
    rw [decide_eq_false (not_lt.mpr hover)]
    exact hpending
  next hwaits =>
    rw [decide_eq_true (not_le.mp hwaits)]
    rfl

/-- Between two evaluations without new evidence the health of a member only decays, exactly
where no missing result is forgotten. -/
theorem health_decays_iff (hlt : t < t')
    (hprobes : ∀ rule ∈ m.childRules, ∀ stat ∈ rule.latestStat, stat.recordedAt ≤ t)
    (hchecked : ∀ date ∈ m.columns.chinaHealthCheckedAt, Failover.Past t date)
    (hread : m.columns.healthySince.map stored = m.columns.healthySince)
    (hsignature : (m.liveness t').signature = (m.liveness t).signature) :
    Decayed (evaluateMemberHealth group m t) (evaluateMemberHealth group (evaluateMemberHealth group m t).2 t') ↔
      ¬ ForgetsMissing group m t t' := by
  constructor
  · rintro hdecayed ⟨htraffic, henabled, havailable, hreaches, hover, hwaits⟩
    have hsame : m.Same (evaluateMemberHealth group m t).2 := writeMember_same m _ _ t
    have hactive : ∀ rule ∈ activeChildRules group m, ∀ stat ∈ rule.latestStat, stat.recordedAt ≤ t :=
      fun rule hrule => hprobes rule (mem_activeChildRules hrule)
    obtain ⟨hhealthy, hpending⟩ :=
      memberFindings_missing htraffic henabled havailable (hreaches.earlier hlt.le) hactive
    rw [decide_eq_false (not_lt.mpr hover)] at hpending
    obtain ⟨-, hpending', -⟩ := hdecayed.unhealthy hhealthy hpending
    -- the second evaluation comes to the same rule and waits
    have hlive := hsame.liveness t'
    obtain ⟨-, hpending''⟩ := memberFindings_missing (m := (evaluateMemberHealth group m t).2) (t := t')
      (by rw [hlive]; exact htraffic) (hsame.isEnabled.trans henabled)
      (by rw [hlive, available_of_signature hsignature]; exact havailable)
      (by
        rw [hsame.activeChildRules, hlive]
        exact hreaches.congr (sampleIsCurrent_liveness m t t'))
      (by
        rw [hsame.activeChildRules]
        exact fun rule hrule stat hstat => (hactive rule hrule stat hstat).trans hlt.le)
    have hrow : (evaluateMemberHealth group m t).2 =
        writeMember m true (memberFindings group m (m.liveness t) t) t := by
      rw [← havailable]
      rfl
    rw [hrow, waitingSince_of_over hover, ← hrow, decide_eq_true hwaits] at hpending''
    cases hpending''.symm.trans hpending'
  · exact decayed_of_not_forgets hprobes hchecked hlt.le hsignature hread

end

/-! ## A result that is forgotten -/

def oneTemplate : HealthGroup := ⟨⟨false, 60, 120⟩, some 1690000000000, some 1690000000000, [⟨7, true, false⟩]⟩

/-- A member that was checked five minutes ago, with one rule that has no result. -/
def unprobedMember : Member where
  id := 1
  priority := 1
  columns := ⟨true, .unknown, some 1699999700000, .unknown, none, none, none, 1699999700000⟩
  lastLatencyMs := none
  chinaHealthLatencyMs := none
  hostId := 1
  host := some ⟨false, some ⟨1700000000000, false, 1, 0⟩, 0, none, some 1690000000000, none⟩
  childRules := [⟨7, true, false, true, none⟩]

/-- The result has been missing for five minutes: the member is unhealthy and has failed for long
enough. Fifteen seconds later it waits for a result and has not. -/
theorem missing_result_forgotten :
    (unprobedMember.liveness 1700000015000).signature = (unprobedMember.liveness 1700000000000).signature ∧
    (evaluateMemberHealth oneTemplate unprobedMember 1700000000000).1.failedLongEnough = true ∧
    ¬ Decayed (evaluateMemberHealth oneTemplate unprobedMember 1700000000000)
      (evaluateMemberHealth oneTemplate (evaluateMemberHealth oneTemplate unprobedMember 1700000000000).2
        1700000015000) := by
  refine ⟨by decide, by decide, fun h => ?_⟩
  have hdecided := (h.unhealthy (by decide) (by decide)).2.1
  revert hdecided
  decide

/-- The same member a whole wait later is unhealthy once more. -/
theorem missing_result_found_again :
    Decayed (evaluateMemberHealth oneTemplate unprobedMember 1700000000000)
      (evaluateMemberHealth oneTemplate (evaluateMemberHealth oneTemplate unprobedMember 1700000000000).2
        1700000300000) := by
  have hnot : ¬ ForgetsMissing oneTemplate unprobedMember 1700000000000 1700000300000 := by
    rintro ⟨-, -, -, -, -, hwaits⟩
    revert hwaits
    decide
  have hprobes : ∀ rule ∈ unprobedMember.childRules, ∀ stat ∈ rule.latestStat, stat.recordedAt ≤ 1700000000000 := by
    intro rule hrule stat hstat
    rw [List.mem_singleton.mp hrule] at hstat
    cases hstat
  exact (health_decays_iff (by decide) hprobes (fun date hdate => nomatch hdate) rfl (by decide)).mpr hnot

end ForwardX.Panel.Failover
