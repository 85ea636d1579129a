import ForwardX.Panel.MemberEvaluation

/- What the passing of time makes of the findings on a member (`memberFindings`). A probe that
   is fresh ends with `nextProbeExpiryAt`, the check from China with the end of its freshness;
   until then the findings stay as they are (`Lasts`), but for a member whose missing result
   was final: its row now says that it was checked, and it waits once more. -/
namespace ForwardX.Panel.Failover

open Ddns

/-! ## Liveness -/

section
variable {m : Member} {t t' : Int}

theorem liveness_trafficExcluded (m : Member) (t t' : Int) :
    (m.liveness t').trafficExcluded = (m.liveness t).trafficExcluded := rfl

theorem sampleIsCurrent_liveness (m : Member) (t t' : Int) :
    agentHealthSampleIsCurrent (m.liveness t') = agentHealthSampleIsCurrent (m.liveness t) := rfl

theorem available_of_signature (h : (m.liveness t').signature = (m.liveness t).signature) :
    (m.liveness t').available = (m.liveness t).available :=
  congrArg LivenessSignature.available h

/-- `lastSeenAt` of the host of a member. -/
def Member.lastSeenAt (m : Member) : Int :=
  match m.host.bind HostLiveness.fastState with
  | some fast => fast.lastSeenAt
  | none => max ((m.host.map HostLiveness.authenticatedAt).getD 0) ((m.host.bind HostLiveness.lastHeartbeat).getD 0)

/-- The start of the failure of a member that is not there. -/
def Member.failureAt (m : Member) (now : Int) : Int :=
  let lifecycleAt := ((m.host.bind HostLiveness.createdAt).orElse fun _ =>
    m.host.bind HostLiveness.updatedAt).getD now
  if 0 < m.lastSeenAt then min m.lastSeenAt now else min lifecycleAt now

theorem liveness_failureSince (h : (m.liveness t).available = false) :
    (m.liveness t).failureSince = some (m.failureAt t) := by
  have hdef : (m.liveness t).failureSince =
      if (m.liveness t).available then none else some (m.failureAt t) := rfl
  rw [hdef, if_neg (by rw [h]; decide)]

theorem failureAt_le (m : Member) (t : Int) : m.failureAt t ≤ t := by
  simp only [Member.failureAt]
  split <;> exact min_le_right _ _

theorem failureAt_mono (m : Member) (h : t ≤ t') : m.failureAt t ≤ m.failureAt t' := by
  simp only [Member.failureAt]
  split
  · exact min_le_min_left _ h
  · apply min_le_min _ h
    cases (m.host.bind HostLiveness.createdAt).orElse fun _ => m.host.bind HostLiveness.updatedAt with
    | none => exact h
    | some date => exact le_refl date

end

/-! ## Dates -/

/-- A date that a column may hold when the clock is at `now`. -/
def Past (now date : Int) : Prop := 0 < date ∧ date ≤ now

structure Member.Past (m : Member) (now : Int) : Prop where
  lastCheckedAt : ∀ date ∈ m.columns.lastCheckedAt, Failover.Past now date
  chinaHealthCheckedAt : ∀ date ∈ m.columns.chinaHealthCheckedAt, Failover.Past now date
  failureSince : ∀ date ∈ m.columns.failureSince, Failover.Past now date
  healthySince : ∀ date ∈ m.columns.healthySince, Failover.Past now date
  probes : ∀ rule ∈ m.childRules, ∀ stat ∈ rule.latestStat, Failover.Past now stat.recordedAt
  created : ∀ host ∈ m.host, ∀ date ∈ host.createdAt, Failover.Past now date
  updated : ∀ host ∈ m.host, ∀ date ∈ host.updatedAt, Failover.Past now date

structure HealthGroup.Past (group : HealthGroup) (now : Int) : Prop where
  updatedAt : ∀ date ∈ group.updatedAt, Failover.Past now date
  createdAt : ∀ date ∈ group.createdAt, Failover.Past now date

section
variable {group : HealthGroup} {m : Member} {t : Int}

theorem failureAt_pos (ht : 0 < t) (h : m.Past t) : 0 < m.failureAt t := by
  simp only [Member.failureAt]
  split
  next hseen => exact lt_min hseen ht
  · apply lt_min _ ht
    cases hhost : m.host with
    | none => simpa using ht
    | some host =>
      cases hcreated : host.createdAt with
      | some date => simpa [hcreated] using (h.created host hhost date hcreated).1
      | none =>
        cases hupdated : host.updatedAt with
        | some date => simpa [hcreated, hupdated] using (h.updated host hhost date hupdated).1
        | none => simpa [hcreated, hupdated] using ht

theorem waitingSince_le (hgroup : group.Past t) (h : m.Past t) : waitingSince group m t ≤ t := by
  unfold waitingSince
  cases hlast : m.columns.lastCheckedAt with
  | some date => exact (h.lastCheckedAt date hlast).2
  | none =>
    cases hupdated : group.updatedAt with
    | some date => exact (hgroup.updatedAt date hupdated).2
    | none =>
      cases hcreated : group.createdAt with
      | some date => exact (hgroup.createdAt date hcreated).2
      | none => exact le_refl t

end

/-! ## Probes -/

section
variable {stat : RuleProbe} {t t' : Int}

theorem fresh_iff (hpast : stat.recordedAt ≤ t) :
    freshForwardGroupRuleProbe (some stat) t = some stat ↔ t ≤ stat.recordedAt + forwardGroupRuleProbeFreshMs := by
  unfold freshForwardGroupRuleProbe
  rw [Option.filter_eq_some_iff]
  simp only [decide_eq_true_eq, true_and]
  omega

theorem fresh_eq_none_iff (hpast : stat.recordedAt ≤ t) :
    freshForwardGroupRuleProbe (some stat) t = none ↔ stat.recordedAt + forwardGroupRuleProbeFreshMs < t := by
  unfold freshForwardGroupRuleProbe
  rw [Option.filter_eq_none_iff]
  simp only [Option.some.injEq, forall_eq', decide_eq_true_eq, not_and, not_le]
  omega

theorem fresh_eq_some {latest : Option RuleProbe} (h : freshForwardGroupRuleProbe latest t = some stat) :
    latest = some stat := by
  unfold freshForwardGroupRuleProbe at h
  exact (Option.filter_eq_some_iff.mp h).1

end

/-! ## What is kept -/

/-- What the findings `f` of one time have become at another, later than `t`. The last case of
`flags` is that of a missing result. -/
structure Findings.Lasts (t : Int) (f f' : Findings) : Prop where
  healthy : f'.healthy = f.healthy
  allFinal : f'.allRuleHealthAgentFinal = f.allRuleHealthAgentFinal
  flags : (f'.healthPending = f.healthPending ∧ f'.agentFailureFinal = f.agentFailureFinal) ∨
    (f.healthy = false ∧ f.healthPending = false ∧ f.agentFailureFinal = true ∧
      f'.healthPending = true ∧ f'.agentFailureFinal = false)
  observed : f.agentFailureFinal = false → ∀ date ∈ f'.observedFailureSince,
    t < date ∨ ∃ before ∈ f.observedFailureSince, before ≤ date

theorem Findings.Lasts.refl (t : Int) (f : Findings) : f.Lasts t f where
  healthy := rfl
  allFinal := rfl
  flags := Or.inl ⟨rfl, rfl⟩
  observed := fun _ date hdate => Or.inr ⟨date, hdate, le_refl date⟩

/-- Findings that differ in the time to look again, the latencies and the text. -/
theorem Findings.Lasts.of_eq {t : Int} {f f' : Findings} (hhealthy : f'.healthy = f.healthy)
    (hall : f'.allRuleHealthAgentFinal = f.allRuleHealthAgentFinal) (hpending : f'.healthPending = f.healthPending)
    (hfinal : f'.agentFailureFinal = f.agentFailureFinal)
    (hobserved : f'.observedFailureSince = f.observedFailureSince) : f.Lasts t f' where
  healthy := hhealthy
  allFinal := hall
  flags := Or.inl ⟨hpending, hfinal⟩
  observed := by
    intro _ date hdate
    rw [hobserved] at hdate
    exact Or.inr ⟨date, hdate, le_refl date⟩

/-! ## The walk over the rules -/

section
variable {liveness : MemberAgentLiveness} {rule : ChildRule} {stat : RuleProbe} {f found : Findings}

theorem ruleNotReady_next (h : ruleNotReady liveness rule f = some found) :
    found.nextProbeExpiryAt = f.nextProbeExpiryAt := by
  unfold ruleNotReady at h
  split_ifs at h <;> cases h <;> rfl

theorem probeNotWell_next (h : probeNotWell stat f = some found) :
    found.nextProbeExpiryAt = f.nextProbeExpiryAt := by
  unfold probeNotWell at h
  split_ifs at h <;> cases h <;> rfl

theorem ruleNotReady_observed (h : ruleNotReady liveness rule f = some found) :
    found.observedFailureSince = f.observedFailureSince := by
  unfold ruleNotReady at h
  split_ifs at h <;> cases h <;> rfl

theorem probeNotWell_observed (h : probeNotWell stat f = some found) :
    found.observedFailureSince = f.observedFailureSince := by
  unfold probeNotWell at h
  split_ifs at h <;> cases h <;> rfl

/-- The time noted for a probe is the first of its end and of what was noted before. -/
theorem noteExpiry_next (stat : RuleProbe) (f : Findings) :
    ∃ e, (noteExpiry stat f).nextProbeExpiryAt = some e ∧ e ≤ stat.recordedAt + forwardGroupRuleProbeFreshMs ∧
      (∀ before ∈ f.nextProbeExpiryAt, e ≤ before) ∧
      (e = stat.recordedAt + forwardGroupRuleProbeFreshMs ∨ e ∈ f.nextProbeExpiryAt) := by
  cases hnext : f.nextProbeExpiryAt with
  | none => exact ⟨_, by simp [noteExpiry, hnext], le_refl _, by simp, Or.inl rfl⟩
  | some before =>
    refine ⟨min before (stat.recordedAt + forwardGroupRuleProbeFreshMs), by simp [noteExpiry, hnext],
      min_le_right _ _, ?_, ?_⟩
    · intro b hb
      cases hb
      exact min_le_left _ _
    · rcases min_choice before (stat.recordedAt + forwardGroupRuleProbeFreshMs) with hmin | hmin
      · rw [hmin]
        exact Or.inr rfl
      · exact Or.inl hmin

end

/-- While a member waits for a first result, no rule before has a latest probe that is older
than that wait. -/
def InOrder (waitingSince now : Int) (rules : List ChildRule) : Prop :=
  now < waitingSince + forwardGroupRuleProbeFreshMs →
    rules.Pairwise fun earlier later =>
      later.latestStat = none → ∀ stat ∈ earlier.latestStat, waitingSince ≤ stat.recordedAt

/-- What is noted so far does not come before the end of that wait. -/
def Noted (waitingSince now : Int) (rules : List ChildRule) (f : Findings) : Prop :=
  now < waitingSince + forwardGroupRuleProbeFreshMs → (∃ rule ∈ rules, rule.latestStat = none) →
    ∀ e ∈ f.nextProbeExpiryAt, waitingSince + forwardGroupRuleProbeFreshMs ≤ e

section
variable {waitingSince now : Int} {rule : ChildRule} {rules : List ChildRule} {stat : RuleProbe} {f : Findings}

theorem InOrder.tail (h : InOrder waitingSince now (rule :: rules)) : InOrder waitingSince now rules :=
  fun hwaits => (List.pairwise_cons.mp (h hwaits)).2

theorem Noted.pass (h : Noted waitingSince now (rule :: rules) f) (horder : InOrder waitingSince now (rule :: rules))
    (hstat : rule.latestStat = some stat) :
    Noted waitingSince now rules (passProbe stat (noteExpiry stat f)) := by
  intro hwaits ⟨later, hlater, hnone⟩ e he
  obtain ⟨noted, hnoted, -, -, heq | hbefore⟩ := noteExpiry_next stat f
  · have he' : e = noted := Option.some.inj (he.symm.trans hnoted)
    have hle := (List.pairwise_cons.mp (horder hwaits)).1 later hlater hnone stat hstat
    omega
  · have he' : e = noted := Option.some.inj (he.symm.trans hnoted)
    rw [he']
    exact h hwaits ⟨later, List.mem_cons_of_mem rule hlater, hnone⟩ noted hbefore

end

section
variable {liveness : MemberAgentLiveness} {waitingSince now : Int} {rule : ChildRule} {rules : List ChildRule}
  {stat : RuleProbe} {f found : Findings}

theorem scanRules_notReady (h : ruleNotReady liveness rule f = some found) :
    scanRules liveness waitingSince now (rule :: rules) f = found := by
  simp only [scanRules, h]

variable (hready : ruleNotReady liveness rule f = none)
include hready

theorem scanRules_withoutProbe (hfresh : freshForwardGroupRuleProbe rule.latestStat now = none) :
    scanRules liveness waitingSince now (rule :: rules) f = ruleWithoutProbe rule.latestStat waitingSince now f := by
  simp only [scanRules, hready, hfresh]

variable (hfresh : freshForwardGroupRuleProbe rule.latestStat now = some stat)
include hfresh

theorem scanRules_stops (h : probeNotWell stat (noteExpiry stat f) = some found) :
    scanRules liveness waitingSince now (rule :: rules) f = found := by
  simp only [scanRules, hready, hfresh, h]

theorem scanRules_passes (h : probeNotWell stat (noteExpiry stat f) = none) :
    scanRules liveness waitingSince now (rule :: rules) f =
      scanRules liveness waitingSince now rules (passProbe stat (noteExpiry stat f)) := by
  simp only [scanRules, hready, hfresh, h]

end

section
variable {liveness : MemberAgentLiveness} {waitingSince t : Int} {f : Findings} {rules : List ChildRule}

/-- What was noted before the walk is still looked at in time after it. -/
theorem scanRules_noted (horder : InOrder waitingSince t rules) (hnoted : Noted waitingSince t rules f) {e : Int}
    (he : e ∈ f.nextProbeExpiryAt) :
    ∃ e', (scanRules liveness waitingSince t rules f).nextProbeExpiryAt = some e' ∧ e' ≤ e := by
  induction rules generalizing f e with
  | nil => exact ⟨e, he, le_refl e⟩
  | cons rule rules ih =>
    cases hready : ruleNotReady liveness rule f with
    | some found =>
      rw [scanRules_notReady hready, ruleNotReady_next hready]
      exact ⟨e, he, le_refl e⟩
    | none =>
      cases hfresh : freshForwardGroupRuleProbe rule.latestStat t with
      | none =>
        rw [scanRules_withoutProbe hready hfresh]
        cases hlatest : rule.latestStat with
        | some stat => exact ⟨e, he, le_refl e⟩
        | none =>
          simp only [ruleWithoutProbe]
          split
          next => exact ⟨e, he, le_refl e⟩
          next hwaits =>
            exact ⟨_, rfl, hnoted (by omega) ⟨rule, List.mem_cons_self, hlatest⟩ e he⟩
      | some stat =>
        obtain ⟨e₁, he₁, -, hbefore, -⟩ := noteExpiry_next stat f
        cases hwell : probeNotWell stat (noteExpiry stat f) with
        | some found =>
          rw [scanRules_stops hready hfresh hwell, probeNotWell_next hwell]
          exact ⟨e₁, he₁, hbefore e he⟩
        | none =>
          rw [scanRules_passes hready hfresh hwell]
          obtain ⟨e₂, he₂, hle⟩ := ih horder.tail (hnoted.pass horder (fresh_eq_some hfresh))
            (f := passProbe stat (noteExpiry stat f)) (e := e₁) he₁
          exact ⟨e₂, he₂, hle.trans (hbefore e he)⟩

/-- Every time that is noted is still to come, where no probe is exactly at its end. -/
theorem scanRules_next_gt (hpast : ∀ rule ∈ rules, ∀ stat ∈ rule.latestStat, stat.recordedAt ≤ t)
    (hsharp : ∀ rule ∈ rules, ∀ stat ∈ rule.latestStat, stat.recordedAt + forwardGroupRuleProbeFreshMs ≠ t)
    (hf : ∀ e ∈ f.nextProbeExpiryAt, t < e) :
    ∀ e ∈ (scanRules liveness waitingSince t rules f).nextProbeExpiryAt, t < e := by
  induction rules generalizing f with
  | nil => exact hf
  | cons rule rules ih =>
    cases hready : ruleNotReady liveness rule f with
    | some found =>
      rw [scanRules_notReady hready, ruleNotReady_next hready]
      exact hf
    | none =>
      cases hfresh : freshForwardGroupRuleProbe rule.latestStat t with
      | none =>
        rw [scanRules_withoutProbe hready hfresh]
        cases hlatest : rule.latestStat with
        | some stat => exact hf
        | none =>
          simp only [ruleWithoutProbe]
          split
          next => exact hf
          next hwaits =>
            intro e he
            cases he
            omega
      | some stat =>
        have hstat := fresh_eq_some hfresh
        have hafter : ∀ e ∈ (noteExpiry stat f).nextProbeExpiryAt, t < e := by
          intro e he
          obtain ⟨e₁, he₁, -, -, heq | hbefore⟩ := noteExpiry_next stat f
          · rw [Option.mem_def, he₁, Option.some.injEq] at he
            have hle := (fresh_iff (hpast rule List.mem_cons_self stat hstat)).mp (hstat ▸ hfresh)
            have hne := hsharp rule List.mem_cons_self stat hstat
            omega
          · rw [Option.mem_def, he₁, Option.some.injEq] at he
            exact he ▸ hf e₁ hbefore
        cases hwell : probeNotWell stat (noteExpiry stat f) with
        | some found =>
          rw [scanRules_stops hready hfresh hwell, probeNotWell_next hwell]
          exact hafter
        | none =>
          rw [scanRules_passes hready hfresh hwell]
          exact ih (fun r hr => hpast r (List.mem_cons_of_mem rule hr))
            (fun r hr => hsharp r (List.mem_cons_of_mem rule hr)) hafter

theorem ruleNotReady_congr {liveness liveness' : MemberAgentLiveness}
    (h : agentHealthSampleIsCurrent liveness' = agentHealthSampleIsCurrent liveness) :
    ruleNotReady liveness' = ruleNotReady liveness := by
  funext rule f
  unfold ruleNotReady
  rw [h]

/-- A rule without a fresh probe, and the wait for its result at a later time. -/
theorem ruleWithoutProbe_lasts {waitingSince' t' : Int} {latest : Option RuleProbe}
    (hwaiting : waitingSince ≤ waitingSince' + 999) (hpending : f.healthPending = false)
    (hfinal : f.agentFailureFinal = false)
    (hdue : ∀ e ∈ (ruleWithoutProbe latest waitingSince t f).nextProbeExpiryAt, t' + 999 < e) :
    (ruleWithoutProbe latest waitingSince t f).Lasts t (ruleWithoutProbe latest waitingSince' t' f) := by
  cases latest with
  | some stat => exact .refl t _
  | none =>
    by_cases hover : waitingSince + forwardGroupRuleProbeFreshMs ≤ t
    · -- the result was missing: by now it may be waited for again
      by_cases hover' : waitingSince' + forwardGroupRuleProbeFreshMs ≤ t'
      · simp only [ruleWithoutProbe, if_pos hover, if_pos hover']
        exact ⟨rfl, rfl, Or.inl ⟨rfl, rfl⟩, fun h => by cases h⟩
      · simp only [ruleWithoutProbe, if_pos hover, if_neg hover']
        exact ⟨rfl, rfl, Or.inr ⟨rfl, hpending, rfl, rfl, hfinal⟩, fun h => by cases h⟩
    · simp only [ruleWithoutProbe, if_neg hover] at hdue ⊢
      have hdue' := hdue _ rfl
      rw [if_neg (by omega)]
      exact .of_eq rfl rfl rfl rfl rfl

theorem scanRules_lasts {liveness' : MemberAgentLiveness} {waitingSince' t' : Int}
    (hcurrent : agentHealthSampleIsCurrent liveness' = agentHealthSampleIsCurrent liveness) (hle : t ≤ t')
    (hwaiting : waitingSince ≤ waitingSince' + 999)
    (hpast : ∀ rule ∈ rules, ∀ stat ∈ rule.latestStat, stat.recordedAt ≤ t) (horder : InOrder waitingSince t rules)
    (hnoted : Noted waitingSince t rules f) (hpending : f.healthPending = false) (hfinal : f.agentFailureFinal = false)
    (hdue : ∀ e ∈ (scanRules liveness waitingSince t rules f).nextProbeExpiryAt, t' + 999 < e) :
    (scanRules liveness waitingSince t rules f).Lasts t (scanRules liveness' waitingSince' t' rules f) := by
  induction rules generalizing f with
  | nil => exact .refl t f
  | cons rule rules ih =>
    cases hready : ruleNotReady liveness rule f with
    | some found =>
      rw [scanRules_notReady hready, scanRules_notReady ((ruleNotReady_congr hcurrent).symm ▸ hready)]
      exact .refl t found
    | none =>
      have hready' : ruleNotReady liveness' rule f = none := (ruleNotReady_congr hcurrent).symm ▸ hready
      cases hfresh : freshForwardGroupRuleProbe rule.latestStat t with
      | none =>
        have hfresh' : freshForwardGroupRuleProbe rule.latestStat t' = none := by
          cases hlatest : rule.latestStat with
          | none => rfl
          | some stat =>
            have hold := hpast rule List.mem_cons_self stat hlatest
            have hover := (fresh_eq_none_iff hold).mp (hlatest ▸ hfresh)
            exact (fresh_eq_none_iff (hold.trans hle)).mpr (hover.trans_le hle)
        rw [scanRules_withoutProbe hready hfresh] at hdue ⊢
        rw [scanRules_withoutProbe hready' hfresh']
        exact ruleWithoutProbe_lasts hwaiting hpending hfinal hdue
      | some stat =>
        have hstat := fresh_eq_some hfresh
        obtain ⟨e, he, hend, -, -⟩ := noteExpiry_next stat f
        -- the end of this probe is noted, or a time before it
        have hkept : ∃ e', (scanRules liveness waitingSince t (rule :: rules) f).nextProbeExpiryAt = some e' ∧
            e' ≤ e := by
          cases hwell : probeNotWell stat (noteExpiry stat f) with
          | some found =>
            rw [scanRules_stops hready hfresh hwell, probeNotWell_next hwell]
            exact ⟨e, he, le_refl e⟩
          | none =>
            rw [scanRules_passes hready hfresh hwell]
            exact scanRules_noted horder.tail (hnoted.pass horder hstat) he
        obtain ⟨e', he', hle'⟩ := hkept
        have hlate := hdue e' he'
        have hfresh' : freshForwardGroupRuleProbe rule.latestStat t' = some stat := by
          rw [hstat]
          exact (fresh_iff ((hpast rule List.mem_cons_self stat hstat).trans hle)).mpr (by omega)
        cases hwell : probeNotWell stat (noteExpiry stat f) with
        | some found =>
          rw [scanRules_stops hready hfresh hwell, scanRules_stops hready' hfresh' hwell]
          exact .refl t found
        | none =>
          rw [scanRules_passes hready hfresh hwell] at hdue ⊢
          rw [scanRules_passes hready' hfresh' hwell]
          exact ih (fun r hr => hpast r (List.mem_cons_of_mem rule hr)) horder.tail (hnoted.pass horder hstat)
            hpending hfinal hdue

end

/-! ## The check from China -/

section
variable {m m' : Member} {liveness liveness' : MemberAgentLiveness} {t t' : Int}

structure Member.Same (m m' : Member) : Prop where
  host : m'.host = m.host
  hostId : m'.hostId = m.hostId
  childRules : m'.childRules = m.childRules
  isEnabled : m'.columns.isEnabled = m.columns.isEnabled
  chinaHealthStatus : m'.columns.chinaHealthStatus = m.columns.chinaHealthStatus
  chinaHealthCheckedAt : m'.columns.chinaHealthCheckedAt = m.columns.chinaHealthCheckedAt

/-- The check is worth the same until it is no longer fresh, and an unhealthy one turns stale then. -/
theorem chinaStatus_later (hsame : m.Same m')
    (hcurrent : agentHealthSampleIsCurrent liveness' = agentHealthSampleIsCurrent liveness) (hle : t ≤ t')
    (hpast : ∀ date ∈ m.columns.chinaHealthCheckedAt, Failover.Past t date)
    (hdue : chinaStatus m liveness t = .healthy →
      ∀ date ∈ m.columns.chinaHealthCheckedAt, t' < date + FORWARD_GROUP_CHINA_HEALTH_FRESHNESS_TTL_MS) :
    chinaStatus m' liveness' t' = chinaStatus m liveness t ∨
      (chinaStatus m liveness t = .unhealthy ∧ chinaStatus m' liveness' t' = .stale ∧
        ∃ date ∈ m.columns.chinaHealthCheckedAt, t < date + FORWARD_GROUP_CHINA_HEALTH_FRESHNESS_TTL_MS) := by
  simp only [chinaStatus, forwardGroupChinaHealthStateAt, hsame.chinaHealthStatus, hsame.chinaHealthCheckedAt,
    hcurrent] at hdue ⊢
  cases hsample : agentHealthSampleIsCurrent liveness m.columns.chinaHealthCheckedAt with
  | false => exact Or.inl rfl
  | true =>
    simp only [hsample, if_true] at hdue ⊢
    cases hchecked : m.columns.chinaHealthCheckedAt with
    | none =>
      left
      cases m.columns.chinaHealthStatus <;> simp [healthStateAt]
    | some date =>
      obtain ⟨hpos, hold⟩ := hpast date hchecked
      rw [hchecked] at hdue
      simp only [FORWARD_GROUP_CHINA_HEALTH_FRESHNESS_TTL_MS] at hdue ⊢
      have hstale : ¬ (date ≤ 0 ∨ date > t + 60000) := by omega
      have hstale' : ¬ (date ≤ 0 ∨ date > t' + 60000) := by omega
      cases hstatus : m.columns.chinaHealthStatus with
      | unknown => exact Or.inl rfl
      | healthy =>
        simp only [hstatus, healthStateAt, Option.getD_some, if_neg hstale, if_neg hstale'] at hdue ⊢
        by_cases hfresh : t - date < FORWARD_GROUP_AGENT_HEALTH_FRESHNESS_TTL_MS
        · have hlate := hdue (if_pos hfresh) date rfl
          left
          rw [if_pos hfresh, if_pos (by omega)]
        · left
          rw [if_neg hfresh, if_neg (by omega)]
      | unhealthy =>
        simp only [healthStateAt, Option.getD_some, if_neg hstale, if_neg hstale']
        by_cases hfresh : t - date < FORWARD_GROUP_AGENT_HEALTH_FRESHNESS_TTL_MS
        · by_cases hfresh' : t' - date < FORWARD_GROUP_AGENT_HEALTH_FRESHNESS_TTL_MS
          · left
            rw [if_pos hfresh, if_pos hfresh']
          · right
            exact ⟨if_pos hfresh, if_neg hfresh', date, rfl, by omega⟩
        · left
          rw [if_neg hfresh, if_neg (by omega)]

theorem checkChina_final (m : Member) (liveness : MemberAgentLiveness) (t : Int) (f : Findings) :
    (checkChina m liveness t f).agentFailureFinal = f.agentFailureFinal := by
  unfold checkChina
  split <;> rfl

theorem checkChina_lasts {f f' : Findings} (h : f.Lasts t f') (hhealthy : f.healthy = true) (hsame : m.Same m')
    (hcurrent : agentHealthSampleIsCurrent liveness' = agentHealthSampleIsCurrent liveness) (hle : t ≤ t')
    (hpast : ∀ date ∈ m.columns.chinaHealthCheckedAt, Failover.Past t date)
    (hdue : chinaStatus m liveness t = .healthy →
      ∀ date ∈ m.columns.chinaHealthCheckedAt, t' < date + FORWARD_GROUP_CHINA_HEALTH_FRESHNESS_TTL_MS) :
    (checkChina m liveness t f).Lasts t (checkChina m' liveness' t' f') := by
  obtain ⟨hsameHealthy, hall, hflags, hobserved⟩ := h
  obtain ⟨hpending, hfinal⟩ := hflags.resolve_right fun hflap => by
    rw [hhealthy] at hflap
    cases hflap.1
  rcases chinaStatus_later hsame hcurrent hle hpast hdue with hstatus | ⟨hbefore, hafter, date, hdate, hlate⟩
  · unfold checkChina
    rw [hstatus]
    cases chinaStatus m liveness t with
    | healthy => exact ⟨hsameHealthy, hall, Or.inl ⟨hpending, hfinal⟩, hobserved⟩
    | unhealthy => exact ⟨rfl, hall, Or.inl ⟨hpending, hfinal⟩, hobserved⟩
    | pending => exact ⟨rfl, hall, Or.inl ⟨by simp [Findings.healthPending], hfinal⟩, hobserved⟩
    | offline => exact ⟨rfl, hall, Or.inl ⟨by simp [Findings.healthPending], hfinal⟩, hobserved⟩
    | stale =>
      refine ⟨rfl, hall, Or.inl ⟨hpending, hfinal⟩, ?_⟩
      simp only [hsame.chinaHealthCheckedAt]
      cases m.columns.chinaHealthCheckedAt with
      | none => exact hobserved
      | some date => exact fun _ date' hdate' => Or.inr ⟨date', hdate', le_refl date'⟩
  · unfold checkChina
    rw [hbefore, hafter]
    refine ⟨rfl, hall, Or.inl ⟨hpending, hfinal⟩, ?_⟩
    intro _ date' hdate'
    simp only [hsame.chinaHealthCheckedAt, Option.mem_def.mp hdate] at hdate'
    cases hdate'
    exact Or.inl hlate

end

/-! ## The findings on a member -/

theorem describeHealthy_lasts {t : Int} {f f' : Findings} (h : f.Lasts t f') :
    (describeHealthy f).Lasts t (describeHealthy f') := by
  obtain ⟨hhealthy, hall, hflags, hobserved⟩ := h
  unfold describeHealthy
  by_cases hwell : f.healthy = true
  · rw [if_pos hwell, if_pos (hhealthy.trans hwell)]
    exact ⟨hhealthy, hall, hflags, hobserved⟩
  · rw [if_neg hwell, if_neg (by rwa [hhealthy])]
    exact ⟨hhealthy, hall, hflags, hobserved⟩

theorem describeHealthy_next (f : Findings) : (describeHealthy f).nextProbeExpiryAt = f.nextProbeExpiryAt := by
  unfold describeHealthy
  split <;> rfl

theorem checkChina_next (m : Member) (liveness : MemberAgentLiveness) (t : Int) (f : Findings) :
    (checkChina m liveness t f).nextProbeExpiryAt = f.nextProbeExpiryAt := by
  unfold checkChina
  split <;> rfl

section
variable {group : HealthGroup} {m m' : Member} {t t' : Int}

theorem Member.Same.liveness (h : m.Same m') (now : Int) : m'.liveness now = m.liveness now := by
  unfold Member.liveness
  rw [h.host, h.hostId]

theorem Member.Same.activeChildRules (h : m.Same m') (group : HealthGroup) :
    Failover.activeChildRules group m' = Failover.activeChildRules group m := by
  unfold Failover.activeChildRules
  rw [h.childRules]

theorem mem_activeChildRules {rule : ChildRule} (h : rule ∈ activeChildRules group m) : rule ∈ m.childRules :=
  (List.mem_filter.mp h).1

theorem checkRules_next (liveness : MemberAgentLiveness) :
    (checkRules group m liveness t).nextProbeExpiryAt =
      (scanRules liveness (waitingSince group m t) t (activeChildRules group m)
        { healthy := true, allRuleHealthAgentFinal := true }).nextProbeExpiryAt := by
  simp only [checkRules, describeHealthy_next]
  split
  · exact checkChina_next m liveness t _
  · rfl

/-- The times at which the findings may change are still to come at `t'`. -/
structure Undue (group : HealthGroup) (m : Member) (t t' : Int) : Prop where
  probe : ∀ e ∈ (memberFindings group m (m.liveness t) t).nextProbeExpiryAt, t' + 999 < e
  china : group.settings.chinaHealthCheckEnabled = true → m.columns.isEnabled = true →
    forwardGroupChinaHealthStateAt m.columns t = .healthy →
    ∀ date ∈ m.columns.chinaHealthCheckedAt, t' < date + FORWARD_GROUP_CHINA_HEALTH_FRESHNESS_TTL_MS

theorem checkRules_lasts (hsame : m.Same m') (hle : t ≤ t') (hpast : m.Past t)
    (horder : InOrder (waitingSince group m t) t (activeChildRules group m))
    (hwaiting : waitingSince group m t ≤ waitingSince group m' t' + 999) (henabled : m.columns.isEnabled = true)
    (hprobe : ∀ e ∈ (checkRules group m (m.liveness t) t).nextProbeExpiryAt, t' + 999 < e)
    (hchina : group.settings.chinaHealthCheckEnabled = true → m.columns.isEnabled = true →
      forwardGroupChinaHealthStateAt m.columns t = .healthy →
      ∀ date ∈ m.columns.chinaHealthCheckedAt, t' < date + FORWARD_GROUP_CHINA_HEALTH_FRESHNESS_TTL_MS) :
    (checkRules group m (m.liveness t) t).Lasts t (checkRules group m' (m'.liveness t') t') := by
  rw [checkRules_next] at hprobe
  have hcurrent : agentHealthSampleIsCurrent (m'.liveness t') = agentHealthSampleIsCurrent (m.liveness t) := by
    rw [hsame.liveness]
    exact sampleIsCurrent_liveness m t t'
  have hscan := scanRules_lasts (f := { healthy := true, allRuleHealthAgentFinal := true }) hcurrent hle hwaiting
    (fun rule hrule stat hstat => (hpast.probes rule (mem_activeChildRules hrule) stat hstat).2) horder
    (fun _ _ e he => by cases he) rfl rfl hprobe
  apply describeHealthy_lasts
  rw [hsame.activeChildRules, hscan.healthy]
  split
  next hwell =>
    obtain ⟨hhealthy, hon⟩ := Bool.and_eq_true_iff.mp hwell
    refine checkChina_lasts hscan hhealthy hsame hcurrent hle hpast.chinaHealthCheckedAt fun hstatus => ?_
    refine hchina hon henabled ?_
    unfold chinaStatus at hstatus
    split at hstatus
    next => exact hstatus
    next => cases hstatus
  next => exact hscan

/-- The findings on a member stay as they are, while its liveness does and no time is due. -/
theorem memberFindings_lasts (hsame : m.Same m')
    (hsignature : (m.liveness t').signature = (m.liveness t).signature) (hle : t ≤ t') (hpast : m.Past t)
    (horder : InOrder (waitingSince group m t) t (activeChildRules group m))
    (hwaiting : (m.liveness t).available = true → waitingSince group m t ≤ waitingSince group m' t' + 999)
    (hundue : Undue group m t t') :
    (memberFindings group m (m.liveness t) t).Lasts t (memberFindings group m' (m'.liveness t') t') := by
  obtain ⟨hprobe, hchina⟩ := hundue
  have hlive := hsame.liveness t'
  have havailable := available_of_signature hsignature
  have hexcluded := liveness_trafficExcluded m t t'
  unfold memberFindings at hprobe ⊢
  rw [hlive, hexcluded, hsame.isEnabled, hsame.childRules, hsame.activeChildRules, havailable]
  split_ifs at hprobe ⊢ with htraffic hdisabled hnone hinactive hoffline
  · exact ⟨rfl, rfl, Or.inl ⟨rfl, rfl⟩, fun h => by cases h⟩
  · exact .refl t _
  · exact .refl t _
  · exact .refl t _
  · have haway : (m.liveness t).available = false := by simpa using hoffline
    refine ⟨rfl, rfl, Or.inl ⟨rfl, rfl⟩, fun _ date hdate => ?_⟩
    rw [liveness_failureSince (havailable.trans haway)] at hdate
    rw [liveness_failureSince haway]
    cases hdate
    exact Or.inr ⟨_, rfl, failureAt_mono m hle⟩
  · have hthere : (m.liveness t).available = true := by simpa using hoffline
    have henabled : m.columns.isEnabled = true := by simpa using hdisabled
    rw [← hlive]
    exact checkRules_lasts hsame hle hpast horder (hwaiting hthere) henabled hprobe hchina

end

end ForwardX.Panel.Failover
