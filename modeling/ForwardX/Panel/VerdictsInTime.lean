import ForwardX.Panel.FailoverEvaluation
import ForwardX.Panel.FindingsInTime

/- What the passing of time makes of the verdict on a member. An evaluation writes the windows
   to the member's row, where a date keeps whole seconds; an evaluation after it measures
   them from there. So a window may end up to 999 ms before the time to look again. -/
namespace ForwardX.Panel.Failover

open Ddns

theorem le_stored_add (date : Int) : date ≤ stored date + 999 := by
  unfold stored
  omega

/-! ## What was observed -/

section
variable {group : HealthGroup} {m : Member} {liveness : MemberAgentLiveness} {waitingSince t : Int}

theorem ruleWithoutProbe_observed {latest : Option RuleProbe} {f : Findings}
    (hpast : ∀ stat ∈ latest, Failover.Past t stat.recordedAt) (hwaiting : 0 < waitingSince)
    (hfresh : freshForwardGroupRuleProbe latest t = none)
    (hf : ∀ date ∈ f.observedFailureSince, Failover.Past t date) :
    ∀ date ∈ (ruleWithoutProbe latest waitingSince t f).observedFailureSince, Failover.Past t date := by
  intro date hdate
  have hms : 0 < forwardGroupRuleProbeFreshMs := by decide
  cases latest with
  | some stat =>
    obtain ⟨hpos, hold⟩ := hpast stat rfl
    have hover := (fresh_eq_none_iff hold).mp hfresh
    cases hdate
    exact ⟨by omega, by omega⟩
  | none =>
    simp only [ruleWithoutProbe] at hdate
    split at hdate
    next hover =>
      cases hdate
      exact ⟨by omega, hover⟩
    next => exact hf date hdate

theorem scanRules_observed {rules : List ChildRule} {f : Findings}
    (hpast : ∀ rule ∈ rules, ∀ stat ∈ rule.latestStat, Failover.Past t stat.recordedAt)
    (hwaiting : 0 < waitingSince) (hf : ∀ date ∈ f.observedFailureSince, Failover.Past t date) :
    ∀ date ∈ (scanRules liveness waitingSince t rules f).observedFailureSince, Failover.Past t date := by
  induction rules generalizing f with
  | nil => exact hf
  | cons rule rules ih =>
    cases hready : ruleNotReady liveness rule f with
    | some found =>
      rw [scanRules_notReady hready, ruleNotReady_observed hready]
      exact hf
    | none =>
      cases hfresh : freshForwardGroupRuleProbe rule.latestStat t with
      | none =>
        rw [scanRules_withoutProbe hready hfresh]
        exact ruleWithoutProbe_observed (hpast rule List.mem_cons_self) hwaiting hfresh hf
      | some stat =>
        cases hwell : probeNotWell stat (noteExpiry stat f) with
        | some found =>
          rw [scanRules_stops hready hfresh hwell, probeNotWell_observed hwell]
          exact hf
        | none =>
          rw [scanRules_passes hready hfresh hwell]
          exact ih (fun r hr => hpast r (List.mem_cons_of_mem rule hr)) hf

theorem stale_of_past {status : HealthStatus} {date : Int} (hpast : Failover.Past t date)
    (h : healthStateAt status (some date) t = .stale) :
    date + FORWARD_GROUP_CHINA_HEALTH_FRESHNESS_TTL_MS ≤ t := by
  have hseen : ¬ (date ≤ 0 ∨ date > t + 60000) := by
    have := hpast.1
    have := hpast.2
    omega
  show date + FORWARD_GROUP_AGENT_HEALTH_FRESHNESS_TTL_MS ≤ t
  cases status with
  | unknown => cases h
  | healthy =>
    simp only [healthStateAt, Option.getD_some, if_neg hseen] at h
    split at h
    next => cases h
    next => omega
  | unhealthy =>
    simp only [healthStateAt, Option.getD_some, if_neg hseen] at h
    split at h
    next => cases h
    next => omega

theorem checkChina_observed {f : Findings} (hpast : ∀ date ∈ m.columns.chinaHealthCheckedAt, Failover.Past t date)
    (hf : ∀ date ∈ f.observedFailureSince, Failover.Past t date) :
    ∀ date ∈ (checkChina m liveness t f).observedFailureSince, Failover.Past t date := by
  unfold checkChina
  split
  next => exact hf
  next hstale =>
    cases hchecked : m.columns.chinaHealthCheckedAt with
    | none => exact hf
    | some date =>
      intro observed hobserved
      cases hobserved
      have hold := hpast date hchecked
      have hms : (0 : Int) < FORWARD_GROUP_CHINA_HEALTH_FRESHNESS_TTL_MS := by decide
      simp only [chinaStatus, forwardGroupChinaHealthStateAt, hchecked] at hstale
      split at hstale
      next => exact ⟨Int.add_pos hold.1 hms, stale_of_past hold hstale⟩
      next => cases hstale
  next => exact hf
  next => exact hf

theorem describeHealthy_observed (f : Findings) :
    (describeHealthy f).observedFailureSince = f.observedFailureSince := by
  unfold describeHealthy
  split <;> rfl

theorem waitingSince_pos (ht : 0 < t) (hgroup : group.Past t) (h : m.Past t) :
    0 < Failover.waitingSince group m t := by
  unfold Failover.waitingSince
  cases hlast : m.columns.lastCheckedAt with
  | some date => exact (h.lastCheckedAt date hlast).1
  | none =>
    cases hupdated : group.updatedAt with
    | some date => exact (hgroup.updatedAt date hupdated).1
    | none =>
      cases hcreated : group.createdAt with
      | some date => exact (hgroup.createdAt date hcreated).1
      | none => exact ht

theorem memberFindings_observed (ht : 0 < t) (hgroup : group.Past t) (h : m.Past t) :
    ∀ date ∈ (memberFindings group m (m.liveness t) t).observedFailureSince, Failover.Past t date := by
  intro date hdate
  unfold memberFindings at hdate
  split_ifs at hdate with _ _ _ _ hoffline
  · cases hdate
    exact ⟨ht, le_refl t⟩
  · cases hdate
  · cases hdate
  · cases hdate
  · rw [liveness_failureSince (by simpa using hoffline)] at hdate
    cases hdate
    exact ⟨failureAt_pos ht h, failureAt_le m t⟩
  · simp only [checkRules, describeHealthy_observed] at hdate
    have hscan : ∀ date ∈ (scanRules (m.liveness t) (Failover.waitingSince group m t) t (activeChildRules group m)
        { healthy := true, allRuleHealthAgentFinal := true }).observedFailureSince, Failover.Past t date :=
      scanRules_observed (fun rule hrule => h.probes rule (mem_activeChildRules hrule))
        (waitingSince_pos ht hgroup h) (fun _ hnone => by cases hnone)
    split at hdate
    · exact checkChina_observed h.chinaHealthCheckedAt hscan date hdate
    · exact hscan date hdate

end

/-! ## The row an evaluation leaves -/

section
variable {group : HealthGroup} {m : Member} {available : Bool} {f : Findings} {t : Int}

theorem writeMember_same (m : Member) (available : Bool) (f : Findings) (t : Int) :
    m.Same (writeMember m available f t) := by
  simp only [writeMember]
  split
  · exact ⟨rfl, rfl, rfl, rfl, rfl, rfl⟩
  · exact ⟨rfl, rfl, rfl, rfl, rfl, rfl⟩

/-- The start of a failure is in the row, in whole seconds where it was written. -/
theorem writeMember_failureSince (m : Member) (available : Bool) (f : Findings) (t : Int) :
    (writeMember m available f t).columns.failureSince = failureSinceOf m f t ∨
      (writeMember m available f t).columns.failureSince = (failureSinceOf m f t).map stored := by
  simp only [writeMember]
  split
  next => exact Or.inr rfl
  next hunchanged =>
    push Not at hunchanged
    exact Or.inl hunchanged.1.2.1

theorem writeMember_healthySince (m : Member) (available : Bool) (f : Findings) (t : Int) :
    (writeMember m available f t).columns.healthySince = healthySinceOf m f t ∨
      (writeMember m available f t).columns.healthySince = (healthySinceOf m f t).map stored := by
  simp only [writeMember]
  split
  next => exact Or.inr rfl
  next hunchanged =>
    push Not at hunchanged
    exact Or.inl hunchanged.1.2.2

theorem writeMember_lastCheckedAt (m : Member) (f : Findings) (t : Int) :
    (writeMember m true f t).columns.lastCheckedAt = some (stored t) ∨
      (∃ last, m.columns.lastCheckedAt = some last ∧
        (writeMember m true f t).columns.lastCheckedAt = some last) := by
  simp only [writeMember]
  split
  next => exact Or.inl rfl
  next hunchanged =>
    cases hlast : m.columns.lastCheckedAt with
    | some last => exact Or.inr ⟨last, rfl, rfl⟩
    | none => simp [hlast] at hunchanged

/-- The wait for a result does not begin earlier, but for the seconds of the row. -/
theorem waitingSince_written {t' : Int} (hgroup : group.Past t) (h : m.Past t) (f : Findings) :
    waitingSince group m t ≤ waitingSince group (writeMember m true f t) t' + 999 := by
  rcases writeMember_lastCheckedAt m f t with hnow | ⟨last, hlast, hkept⟩
  · have hbegun := waitingSince_le hgroup h
    have hrow := le_stored_add t
    simp only [waitingSince, hnow, Option.orElse_some, Option.getD_some] at hbegun ⊢
    omega
  · simp only [waitingSince, hlast, hkept, Option.orElse_some, Option.getD_some]
    omega

end

/-! ## Windows -/

section
variable {prev observed : Option Int} {t : Int}

theorem failureStart_past (ht : 0 < t) (hprev : ∀ date ∈ prev, Failover.Past t date)
    (hobserved : ∀ date ∈ observed, Failover.Past t date) : Failover.Past t (failureStart prev observed t) := by
  have hnow : Failover.Past t t := ⟨ht, le_refl t⟩
  cases observed with
  | none =>
    cases prev with
    | none => exact hnow
    | some date => exact hprev date rfl
  | some first =>
    cases prev with
    | none => simpa [failureStart] using hobserved first rfl
    | some date =>
      show Failover.Past t (if first < date then first else date)
      by_cases hearlier : first < date
      · rw [if_pos hearlier]
        exact hobserved first rfl
      · rw [if_neg hearlier]
        exact hprev date rfl

theorem failureStart_le {date : Int} (h : date ∈ observed) : failureStart prev observed t ≤ date := by
  cases h
  simp only [failureStart]
  split <;> omega

theorem failureStart_le_row (since : Int) (observed : Option Int) (t : Int) :
    failureStart (some since) observed t ≤ since := by
  cases observed with
  | none => exact le_refl since
  | some date =>
    show (if date < since then date else since) ≤ since
    split <;> omega

theorem failureStart_kept {since : Int} (h : ∀ date ∈ observed, since ≤ date) :
    failureStart (some since) observed t = since := by
  cases observed with
  | none => rfl
  | some date =>
    have hle := h date rfl
    simp only [failureStart, Option.orElse_some, Option.getD_some]
    exact if_neg (by omega)

end

section
variable {group : HealthGroup} {m m' : Member} {f f' : Findings} {t t' : Int}

theorem failureSinceOf_failing (h : f.healthy = false) (hpending : f.healthPending = false) :
    failureSinceOf m f t = some (failureStart m.columns.failureSince f.observedFailureSince t) := by
  unfold failureSinceOf
  rw [h, hpending]
  rfl

theorem failureSinceOf_none (h : f.healthy = true ∨ f.healthPending = true) : failureSinceOf m f t = none := by
  unfold failureSinceOf
  rw [if_pos (by simpa using h)]

/-- A failure that has a start is neither healthy nor pending, and its start is a date of the past. -/
theorem mem_failureSinceOf (ht : 0 < t) (hprev : ∀ date ∈ m.columns.failureSince, Failover.Past t date)
    (hobserved : ∀ date ∈ f.observedFailureSince, Failover.Past t date) {since : Int}
    (h : since ∈ failureSinceOf m f t) : f.healthy = false ∧ Failover.Past t since := by
  unfold failureSinceOf at h
  split at h
  next => cases h
  next hfails =>
    cases h
    exact ⟨by simp only [Bool.or_eq_true, not_or] at hfails; simpa using hfails.1,
      failureStart_past ht hprev hobserved⟩

theorem mem_healthySinceOf (ht : 0 < t) (hprev : ∀ date ∈ m.columns.healthySince, Failover.Past t date) {since : Int}
    (h : since ∈ healthySinceOf m f t) : f.healthy = true ∧ 0 < since := by
  unfold healthySinceOf at h
  split at h
  next hhealthy =>
    refine ⟨hhealthy, ?_⟩
    cases hrow : m.columns.healthySince with
    | none =>
      rw [hrow] at h
      cases h
      exact ht
    | some date =>
      rw [hrow] at h
      cases h
      exact (hprev date hrow).1
  next => cases h

def Kept (date row : Int) : Prop := row ≤ date ∧ date ≤ row + 999

theorem kept_of_row {date : Int} {row : Option Int} (h : row = some date ∨ row = (some date).map stored) :
    ∃ d, row = some d ∧ Kept date d := by
  rcases h with h | h
  · exact ⟨date, h, le_refl date, by omega⟩
  · exact ⟨stored date, h, stored_le date, le_stored_add date⟩

/-- A window that is still open, measured from the row at a time before its end, is open. -/
theorem window_kept {delay since row : Int} (hkept : Kept since row) (hle : t ≤ t')
    (hopen : ¬ delay ≤ t - since → t' + 999 < since + delay) :
    (decide (delay ≤ t' - row)) = decide (delay ≤ t - since) := by
  obtain ⟨hrow, hsince⟩ := hkept
  rw [decide_eq_decide]
  constructor
  · intro hover
    by_contra hnot
    have := hopen hnot
    omega
  · intro hover
    omega

/-- Where the flags are the same, so is whether the member has failed for long enough. -/
theorem failedLongEnough_kept (ht : 0 < t) (hle : t ≤ t') (hprev : ∀ date ∈ m.columns.failureSince, Failover.Past t date)
    (hobserved : ∀ date ∈ f.observedFailureSince, Failover.Past t date) (hlasts : f.Lasts t f')
    (hflags : f'.healthPending = f.healthPending ∧ f'.agentFailureFinal = f.agentFailureFinal)
    (hrow : m'.columns.failureSince = failureSinceOf m f t ∨
      m'.columns.failureSince = (failureSinceOf m f t).map stored)
    (hwindow : failedLongEnough group m f t = false → ∀ since ∈ failureSinceOf m f t,
      t' + 999 < since + forwardGroupFailoverDelayMs group.settings) :
    failedLongEnough group m' f' t' = failedLongEnough group m f t := by
  obtain ⟨hpending, hfinal⟩ := hflags
  cases hdecided : f.agentFailureFinal with
  | true => simp [failedLongEnough, hfinal, hdecided]
  | false =>
    by_cases hfails : f.healthy = false ∧ f.healthPending = false
    · have hsince := failureSinceOf_failing (m := m) (t := t) hfails.1 hfails.2
      rw [hsince] at hrow
      obtain ⟨row, hrow, hkept⟩ := kept_of_row hrow
      have hpast := failureStart_past ht hprev hobserved
      -- nothing seen since then moves the start back
      have hsince' : failureSinceOf m' f' t' = some row := by
        rw [failureSinceOf_failing (hlasts.healthy.trans hfails.1) (hpending.trans hfails.2), hrow]
        congr 1
        apply failureStart_kept
        intro date hdate
        rcases hlasts.observed hdecided date hdate with hlater | ⟨before, hbefore, hle'⟩
        · exact hkept.1.trans (hpast.2.trans hlater.le)
        · exact hkept.1.trans ((failureStart_le hbefore).trans hle')
      have hopen := hwindow
      simp only [failedLongEnough, hsince, hdecided, Bool.false_or, Option.any_some, Option.mem_def,
        Option.some.injEq, forall_eq', decide_eq_false_iff_not] at hopen
      simp only [failedLongEnough, hfinal, hdecided, hsince, hsince', Bool.false_or, Option.any_some]
      exact window_kept hkept hle hopen
    · have hnot : f.healthy = true ∨ f.healthPending = true := by
        by_contra hneither
        push Not at hneither
        exact hfails (by simpa using hneither)
      have hnot' : f'.healthy = true ∨ f'.healthPending = true := by
        rw [hlasts.healthy, hpending]
        exact hnot
      simp only [failedLongEnough, hfinal, hdecided, failureSinceOf_none hnot, failureSinceOf_none hnot',
        Option.any_none]

theorem recoveredLongEnough_kept (hle : t ≤ t') (hlasts : f.Lasts t f')
    (hrow : m'.columns.healthySince = healthySinceOf m f t ∨
      m'.columns.healthySince = (healthySinceOf m f t).map stored)
    (hwindow : recoveredLongEnough group m f t = false → ∀ since ∈ healthySinceOf m f t,
      t' + 999 < since + forwardGroupRecoverDelayMs group.settings) :
    recoveredLongEnough group m' f' t' = recoveredLongEnough group m f t := by
  cases hhealthy : f.healthy with
  | false =>
    have hhealthy' := hlasts.healthy.trans hhealthy
    simp [recoveredLongEnough, healthySinceOf, hhealthy, hhealthy']
  | true =>
    have hhealthy' := hlasts.healthy.trans hhealthy
    cases hall : f.allRuleHealthAgentFinal with
    | true => simp [recoveredLongEnough, hhealthy, hhealthy', hall, hlasts.allFinal]
    | false =>
      simp only [healthySinceOf, hhealthy, if_true] at hrow
      obtain ⟨row, hrow, hkept⟩ := kept_of_row hrow
      have hopen := hwindow
      simp only [recoveredLongEnough, healthySinceOf, hhealthy, hall, if_true, Bool.and_false, Bool.false_or,
        Option.any_some, Option.mem_def, Option.some.injEq, forall_eq', decide_eq_false_iff_not] at hopen
      simp only [recoveredLongEnough, healthySinceOf, hhealthy, hhealthy', hall, hlasts.allFinal, hrow, if_true,
        Bool.and_false, Bool.false_or, Option.any_some, Option.getD_some]
      exact window_kept hkept hle hopen

end

/-! ## Verdicts -/

/-- The verdict `w` follows `v` without a time being due: it is the same, or that on a missing
result, which is waited for again. -/
def Verdict.Keeps (v w : Verdict) : Prop :=
  w = v ∨ (v.healthy = false ∧ v.healthPending = false ∧ v.failedLongEnough = true ∧
    w = { v with healthPending := true, failedLongEnough := false })

section
variable {group : HealthGroup} {m : Member} {t t' : Int}

theorem failoverDelay_pos (settings : HealthSettings) : 0 < forwardGroupFailoverDelayMs settings :=
  lt_of_lt_of_le (by decide) (delayMs_pos settings.failoverSeconds 60)

theorem recoverDelay_pos (settings : HealthSettings) : 0 < forwardGroupRecoverDelayMs settings :=
  lt_of_lt_of_le (by decide) (delayMs_pos settings.recoverSeconds 120)

theorem window_of_deadline {failoverMs recoverMs : Int} {e : Evaluated} (hfailover : 0 < failoverMs)
    (hrecover : 0 < recoverMs) (h : ∀ d ∈ windowDeadlines failoverMs recoverMs e, t' + 999 < d) :
    (e.healthy = false → e.failedLongEnough = false → ∀ since ∈ e.failureSince, 0 < since →
      t' + 999 < since + failoverMs) ∧
    (e.healthy = true → e.recoveredLongEnough = false → ∀ since ∈ e.healthySince, 0 < since →
      t' + 999 < since + recoverMs) := by
  constructor
  · intro hhealthy hfailed since hsince hpos
    have hmax : max 0 failoverMs = failoverMs := max_eq_right hfailover.le
    apply h
    simp [windowDeadlines, hhealthy, hfailed, Option.mem_def.mp hsince, hpos, hmax]
  · intro hhealthy hrecovered since hsince hpos
    have hmax : max 0 recoverMs = recoverMs := max_eq_right hrecover.le
    apply h
    simp [windowDeadlines, hhealthy, hrecovered, Option.mem_def.mp hsince, hpos, hmax]

/-- The verdict on a member with the findings `f`. -/
def verdictOf (group : HealthGroup) (m : Member) (f : Findings) (now : Int) : Verdict where
  id := m.id
  priority := m.priority
  healthy := f.healthy
  healthPending := f.healthPending
  failedLongEnough := failedLongEnough group m f now
  recoveredLongEnough := recoveredLongEnough group m f now

theorem writeMember_id (m : Member) (available : Bool) (f : Findings) (t : Int) :
    (writeMember m available f t).id = m.id ∧ (writeMember m available f t).priority = m.priority := by
  simp only [writeMember]
  split <;> exact ⟨rfl, rfl⟩

theorem verdictOf_keeps {m' : Member} {f f' : Findings} (hid : m'.id = m.id ∧ m'.priority = m.priority)
    (hlasts : f.Lasts t f')
    (hfailed : f'.healthPending = f.healthPending ∧ f'.agentFailureFinal = f.agentFailureFinal →
      failedLongEnough group m' f' t' = failedLongEnough group m f t)
    (hrecovered : recoveredLongEnough group m' f' t' = recoveredLongEnough group m f t) :
    (verdictOf group m f t).Keeps (verdictOf group m' f' t') := by
  unfold Verdict.Keeps verdictOf
  rw [hid.1, hid.2, hlasts.healthy, hrecovered]
  rcases hlasts.flags with hsame | ⟨hhealthy, hpending, hfinal, hpending', hfinal'⟩
  · left
    rw [hsame.1, hfailed hsame]
  · right
    refine ⟨hhealthy, hpending, by simp [failedLongEnough, hfinal], ?_⟩
    have hnone := failureSinceOf_none (m := m') (t := t') (Or.inr hpending')
    rw [hpending']
    simp only [failedLongEnough, hfinal', hnone, Option.any_none, Bool.or_false]

theorem verdict_keeps (ht : 0 < t) (hle : t ≤ t') (hgroup : group.Past t) (hpast : m.Past t)
    (hsignature : (m.liveness t').signature = (m.liveness t).signature)
    (horder : InOrder (waitingSince group m t) t (activeChildRules group m)) (hundue : Undue group m t t')
    (hwindow : ∀ d ∈ windowDeadlines (forwardGroupFailoverDelayMs group.settings)
      (forwardGroupRecoverDelayMs group.settings) (evaluateMemberHealth group m t).1, t' + 999 < d) :
    (evaluateMemberHealth group m t).1.toVerdict.Keeps
      (evaluateMemberHealth group (evaluateMemberHealth group m t).2 t').1.toVerdict := by
  obtain ⟨hfailing, hrecovering⟩ :=
    window_of_deadline (failoverDelay_pos group.settings) (recoverDelay_pos group.settings) hwindow
  have hobserved := memberFindings_observed ht hgroup hpast
  have hlasts := memberFindings_lasts
    (writeMember_same m (m.liveness t).available (memberFindings group m (m.liveness t) t) t) hsignature hle hpast
    horder (fun havailable => by
      rw [havailable]
      exact waitingSince_written hgroup hpast _) hundue
  refine verdictOf_keeps (writeMember_id m _ _ t) hlasts (fun hflags => ?_) ?_
  · refine failedLongEnough_kept ht hle hpast.failureSince hobserved hlasts hflags (writeMember_failureSince m _ _ t)
      fun hnot since hsince => ?_
    obtain ⟨hfails, hpos, -⟩ := mem_failureSinceOf ht hpast.failureSince hobserved hsince
    exact hfailing hfails hnot since hsince hpos
  · refine recoveredLongEnough_kept hle hlasts (writeMember_healthySince m _ _ t) fun hnot since hsince => ?_
    obtain ⟨hhealthy, hpos⟩ := mem_healthySinceOf ht hpast.healthySince hsince
    exact hrecovering hhealthy hnot since hsince hpos

end

end ForwardX.Panel.Failover
