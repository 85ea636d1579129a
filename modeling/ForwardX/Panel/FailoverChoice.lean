import ForwardX.Panel.VerdictsInTime

/- The choice of a group (`chooseMember`) made twice, over verdicts of which the second follow
   the first (`Verdict.Keeps`). The healthy members are the same, in the same order; so the
   member the first choice has made active is not left by the second. -/
namespace ForwardX.Panel.Failover

open Ddns

/-! ## The order of the healthy members -/

instance : Std.Total Precedes where
  total a b := by
    unfold Precedes
    omega

instance : IsTrans Verdict Precedes where
  trans a b c hab hbc := by
    unfold Precedes at *
    omega

variable {evaluated : List Verdict}

theorem firstHealthy_priority {n w : Verdict} (hfirst : (healthyMembers evaluated).head? = some n)
    (hw : w ∈ healthyMembers evaluated) : n.priority ≤ w.priority := by
  have hsorted : (healthyMembers evaluated).Pairwise Precedes := List.pairwise_insertionSort _ _
  obtain ⟨rest, hrest⟩ : ∃ rest, healthyMembers evaluated = n :: rest := by
    cases hlist : healthyMembers evaluated with
    | nil => simp [hlist] at hfirst
    | cons first rest =>
      rw [hlist] at hfirst
      cases hfirst
      exact ⟨rest, rfl⟩
  rw [hrest] at hsorted hw
  rcases List.mem_cons.mp hw with rfl | hin
  · exact le_refl _
  · rcases (List.pairwise_cons.mp hsorted).1 w hin with hlt | ⟨heq, -⟩
    · exact hlt.le
    · exact heq.le

theorem mem_healthyMembers {w : Verdict} : w ∈ healthyMembers evaluated ↔ w ∈ evaluated ∧ w.healthy = true := by
  unfold healthyMembers
  rw [List.mem_insertionSort, List.mem_filter]

/-! ## What a choice can be -/

section
variable {autoFailback forcePriority : Bool} {activeMemberId : Option Nat} {lastValue : String}
  {evaluated : List Verdict}

/-- The four ways to what is chosen. -/
inductive Chosen (autoFailback forcePriority : Bool) (active : Option Verdict) (healthy : List Verdict)
    (member : Option Verdict) : Prop
  | forced (hforce : forcePriority = true) (h : member = healthy.head?)
  | failback (hforce : forcePriority = false)
      (hback : shouldFailback autoFailback active (healthy.find? Verdict.recoveredLongEnough) = true)
      (h : member = healthy.find? Verdict.recoveredLongEnough)
  | failover (hforce : forcePriority = false)
      (hback : shouldFailback autoFailback active (healthy.find? Verdict.recoveredLongEnough) = false)
      (hover : shouldFailover active = true) (h : member = healthy.head?)
  | stays (hforce : forcePriority = false)
      (hback : shouldFailback autoFailback active (healthy.find? Verdict.recoveredLongEnough) = false)
      (hover : shouldFailover active = false) (h : member = active)

theorem chooseMember_next {member : Option Verdict}
    (h : chooseMember autoFailback forcePriority activeMemberId lastValue evaluated = .next member) :
    Chosen autoFailback forcePriority (activeMember activeMemberId evaluated) (healthyMembers evaluated) member := by
  simp only [chooseMember] at h
  split at h
  next => cases h
  next =>
    cases h
    split
    next hforce => exact .forced hforce rfl
    next hforce =>
      have hforce' : forcePriority = false := by simpa using hforce
      split
      next hback => exact .failback hforce' hback rfl
      next hback =>
        have hback' := Bool.eq_false_iff.mpr hback
        split
        next hover => exact .failover hforce' hback' hover rfl
        next hover => exact .stays hforce' hback' (Bool.eq_false_iff.mpr hover) rfl

/-- A choice holds what is there for an active member that is pending, or where nothing is
known of any. -/
theorem chooseMember_hold
    (h : chooseMember autoFailback forcePriority activeMemberId lastValue evaluated = .hold) :
    ((∃ active, activeMember activeMemberId evaluated = some active ∧ active.healthPending = true) ∧
      jsTrim lastValue ≠ "") ∨
    (activeMember activeMemberId evaluated = none ∧ healthyMembers evaluated = []) := by
  simp only [chooseMember] at h
  split at h
  next hhold =>
    rcases Bool.or_eq_true_iff.mp hhold with hpending | hnone
    · left
      obtain ⟨hactive, hvalue⟩ := Bool.and_eq_true_iff.mp hpending
      refine ⟨?_, by simpa using hvalue⟩
      cases hfound : activeMember activeMemberId evaluated with
      | none => simp [hfound] at hactive
      | some active =>
        rw [hfound, Option.any_some] at hactive
        exact ⟨active, rfl, hactive⟩
    · right
      simp only [Bool.and_eq_true, Option.isNone_iff_eq_none, List.head?_eq_none_iff] at hnone
      exact hnone.1
  next => cases h

theorem chooseMember_of_pending {active : Verdict} (hactive : activeMember activeMemberId evaluated = some active)
    (hpending : active.healthPending = true) (hvalue : jsTrim lastValue ≠ "") :
    chooseMember autoFailback forcePriority activeMemberId lastValue evaluated = .hold := by
  simp only [chooseMember]
  rw [if_pos]
  simp [hactive, hpending, hvalue]

end

/-! ## Verdicts that are kept -/

section
variable {v w : Verdict} (h : v.Keeps w)
include h

theorem Verdict.Keeps.id_eq : w.id = v.id := by
  rcases h with rfl | ⟨-, -, -, rfl⟩
  · rfl
  · rfl

theorem Verdict.Keeps.priority_eq : w.priority = v.priority := by
  rcases h with rfl | ⟨-, -, -, rfl⟩
  · rfl
  · rfl

theorem Verdict.Keeps.healthy_eq : w.healthy = v.healthy := by
  rcases h with rfl | ⟨-, -, -, rfl⟩
  · rfl
  · rfl

theorem Verdict.Keeps.eq_of_healthy (hv : v.healthy = true) : w = v := by
  rcases h with rfl | ⟨hnot, -⟩
  · rfl
  · rw [hv] at hnot
    cases hnot

theorem Verdict.Keeps.eq_of_pending (hv : v.healthPending = true) : w = v := by
  rcases h with rfl | ⟨-, hnot, -⟩
  · rfl
  · rw [hv] at hnot
    cases hnot

/-- A member that has failed for long enough by now had done so before. -/
theorem Verdict.Keeps.failed (hw : w.failedLongEnough = true) : v.failedLongEnough = true := by
  rcases h with rfl | ⟨-, -, hv, -⟩
  · exact hw
  · exact hv

end

section
variable {vs ws : List Verdict} (h : List.Forall₂ Verdict.Keeps vs ws)
include h

theorem filter_healthy_keeps : ws.filter Verdict.healthy = vs.filter Verdict.healthy := by
  induction h with
  | nil => rfl
  | @cons v w vs ws hvw _ ih =>
    rw [List.filter_cons, List.filter_cons, hvw.healthy_eq, ih]
    split
    next hhealthy => rw [hvw.eq_of_healthy hhealthy]
    next => rfl

theorem healthyMembers_keeps : healthyMembers ws = healthyMembers vs := by
  unfold healthyMembers
  rw [filter_healthy_keeps h]

theorem find_keeps (id : Nat) : Option.Rel Verdict.Keeps (vs.find? (·.id == id)) (ws.find? (·.id == id)) := by
  induction h with
  | nil => exact .none
  | @cons v w vs ws hvw _ ih =>
    rw [List.find?_cons, List.find?_cons, hvw.id_eq]
    split
    next => exact .some hvw
    next => exact ih

/-- The active member is the same, with a verdict that follows the one before. -/
theorem activeMember_keeps (id : Option Nat) : Option.Rel Verdict.Keeps (activeMember id vs) (activeMember id ws) := by
  cases id with
  | none => exact .none
  | some id => exact find_keeps h id

end

section
variable {active active' : Option Verdict} (h : Option.Rel Verdict.Keeps active active')
include h

theorem shouldFailback_keeps (autoFailback : Bool) (candidate : Option Verdict) :
    shouldFailback autoFailback active' candidate = shouldFailback autoFailback active candidate := by
  cases h with
  | none => rfl
  | some hvw => simp only [shouldFailback, Option.any_some, hvw.priority_eq]

theorem shouldFailover_keeps (hover : shouldFailover active' = true) : shouldFailover active = true := by
  cases h with
  | none => rfl
  | @some v w hvw =>
    simp only [shouldFailover, Option.all_some, Bool.and_eq_true, Bool.not_eq_true'] at hover ⊢
    exact ⟨hvw.healthy_eq ▸ hover.1, hvw.failed hover.2⟩

end

theorem keeps_none {o : Option Verdict} (h : Option.Rel Verdict.Keeps none o) : o = none := by
  cases h
  rfl

theorem keeps_some {v : Verdict} {o : Option Verdict} (h : Option.Rel Verdict.Keeps (some v) o) :
    ∃ w, o = some w ∧ v.Keeps w := by
  cases h with
  | some hvw => exact ⟨_, rfl, hvw⟩

theorem activeMember_id {id : Option Nat} {v : Verdict} (h : activeMember id evaluated = some v) :
    id = some v.id ∧ v ∈ evaluated := by
  cases id with
  | none => cases h
  | some id =>
    have hid : v.id = id := by simpa using List.find?_some h
    exact ⟨congrArg some hid.symm, List.mem_of_find?_eq_some h⟩

theorem mem_of_next {n : Verdict}
    (h : chooseMember autoFailback forcePriority activeMemberId lastValue evaluated = .next (some n)) : n ∈ evaluated := by
  cases chooseMember_next h with
  | forced _ h => exact (mem_healthyMembers.mp (List.mem_of_head? h.symm)).1
  | failback _ _ h => exact (mem_healthyMembers.mp (List.mem_of_find?_eq_some h.symm)).1
  | failover _ _ _ h => exact (mem_healthyMembers.mp (List.mem_of_head? h.symm)).1
  | stays _ _ _ h => exact (activeMember_id h.symm).2

theorem activeMember_of_mem (hnodup : (evaluated.map Verdict.id).Nodup) {v : Verdict} (hv : v ∈ evaluated) :
    activeMember (some v.id) evaluated = some v := by
  cases hfound : activeMember (some v.id) evaluated with
  | none =>
    have hnot := List.find?_eq_none.mp hfound v hv
    simp at hnot
  | some w =>
    obtain ⟨hid, hw⟩ := activeMember_id hfound
    exact congrArg some (List.inj_on_of_nodup_map hnodup hw hv (Option.some.inj hid).symm)

/-- A member that is chosen is left neither for a better one nor for its failure. -/
theorem Chosen.rests {autoFailback forcePriority : Bool} {active : Option Verdict} {n : Verdict}
    (h : Chosen autoFailback forcePriority active (healthyMembers evaluated) (some n)) :
    shouldFailback autoFailback (some n) ((healthyMembers evaluated).find? Verdict.recoveredLongEnough) = false ∧
      shouldFailover (some n) = false := by
  have hfirst : some n = (healthyMembers evaluated).head? →
      shouldFailback autoFailback (some n) ((healthyMembers evaluated).find? Verdict.recoveredLongEnough) = false ∧
        shouldFailover (some n) = false := by
    intro hhead
    have hhealthy := (mem_healthyMembers.mp (List.mem_of_head? hhead.symm)).2
    refine ⟨?_, by simp [shouldFailover, hhealthy]⟩
    cases hfind : (healthyMembers evaluated).find? Verdict.recoveredLongEnough with
    | none => simp [shouldFailback]
    | some c =>
      have hle := firstHealthy_priority hhead.symm (List.mem_of_find?_eq_some hfind)
      simp [shouldFailback, hle]
  cases h with
  | forced _ h => exact hfirst h
  | failback _ _ h =>
    have hhealthy := (mem_healthyMembers.mp (List.mem_of_find?_eq_some h.symm)).2
    rw [← h]
    exact ⟨by simp [shouldFailback], by simp [shouldFailover, hhealthy]⟩
  | failover _ _ _ h => exact hfirst h
  | stays _ hback hover h =>
    rw [← h] at hback hover
    exact ⟨hback, hover⟩

/-! ## The second choice -/

section
variable {autoFailback forcePriority forcePriority' : Bool} {vs ws : List Verdict} {activeId : Option Nat}
  {lastValue lastValue' : String} (hkeeps : List.Forall₂ Verdict.Keeps vs ws)
include hkeeps

theorem second_of_hold (h : chooseMember autoFailback forcePriority activeId lastValue vs = .hold) {w : Verdict} :
    chooseMember autoFailback forcePriority' activeId lastValue ws ≠ .next (some w) := by
  intro hsecond
  have hrel := activeMember_keeps hkeeps activeId
  rcases chooseMember_hold h with ⟨⟨active, hactive, hpending⟩, hvalue⟩ | ⟨hnone, hhealthy⟩
  · rw [hactive] at hrel
    obtain ⟨active', hactive', hvw⟩ := keeps_some hrel
    rw [hvw.eq_of_pending hpending] at hactive'
    rw [chooseMember_of_pending hactive' hpending hvalue] at hsecond
    cases hsecond
  · rw [hnone] at hrel
    have hchosen := chooseMember_next hsecond
    rw [keeps_none hrel, healthyMembers_keeps hkeeps, hhealthy] at hchosen
    cases hchosen with
    | forced _ h => cases h
    | failback _ _ h => cases h
    | failover _ _ _ h => cases h
    | stays _ _ _ h => cases h

theorem second_of_none (h : chooseMember autoFailback forcePriority activeId lastValue vs = .next none)
    {activeId' : Option Nat} {w : Verdict}
    (hsecond : chooseMember autoFailback forcePriority' activeId' lastValue' ws = .next (some w)) :
    activeId' = some w.id := by
  have hhealthy : healthyMembers vs = [] := by
    cases chooseMember_next h with
    | forced _ h => exact List.head?_eq_none_iff.mp h.symm
    | failback _ hback h =>
      rw [← h] at hback
      cases hactive : activeMember activeId vs <;> simp [shouldFailback, hactive] at hback
    | failover _ _ _ h => exact List.head?_eq_none_iff.mp h.symm
    | stays _ _ hover h =>
      rw [← h] at hover
      cases hover
  have hchosen := chooseMember_next hsecond
  rw [healthyMembers_keeps hkeeps, hhealthy] at hchosen
  cases hchosen with
  | forced _ h => cases h
  | failback _ _ h => cases h
  | failover _ _ _ h => cases h
  | stays _ _ _ h => exact (activeMember_id h.symm).1

theorem second_of_next (hnodup : (vs.map Verdict.id).Nodup) (hforce : forcePriority' = true → forcePriority = true)
    {n : Verdict} (h : chooseMember autoFailback forcePriority activeId lastValue vs = .next (some n)) {w : Verdict}
    (hsecond : chooseMember autoFailback forcePriority' (some n.id) lastValue' ws = .next (some w)) :
    w.id = n.id := by
  have hfirst := chooseMember_next h
  have hn := mem_of_next h
  have hrel := activeMember_keeps hkeeps (some n.id)
  rw [activeMember_of_mem hnodup hn] at hrel
  obtain ⟨hback, hover⟩ := hfirst.rests
  have hchosen := chooseMember_next hsecond
  rw [healthyMembers_keeps hkeeps] at hchosen
  cases hchosen with
  | forced hforced hw =>
    cases hfirst with
    | forced _ h => exact congrArg Verdict.id (Option.some.inj (hw.trans h.symm))
    | failback hnot => exact absurd (hforce hforced) (by simp [hnot])
    | failover hnot => exact absurd (hforce hforced) (by simp [hnot])
    | stays hnot => exact absurd (hforce hforced) (by simp [hnot])
  | failback _ hback' =>
    rw [shouldFailback_keeps hrel, hback] at hback'
    cases hback'
  | failover _ _ hover' =>
    rw [shouldFailover_keeps hrel hover'] at hover
    cases hover
  | stays _ _ _ hw => exact (Option.some.inj (activeMember_id hw.symm).1).symm

/-- Where nothing came of a choice, the same member is chosen, or the active one. -/
theorem second_of_unsettled (hforce : forcePriority' = forcePriority) {n : Verdict}
    (h : chooseMember autoFailback forcePriority activeId lastValue vs = .next (some n)) {w : Verdict}
    (hsecond : chooseMember autoFailback forcePriority' activeId lastValue' ws = .next (some w)) :
    w.id = n.id ∨ activeId = some w.id := by
  have hrel := activeMember_keeps hkeeps activeId
  have hfirst := chooseMember_next h
  have hchosen := chooseMember_next hsecond
  have hsame : ∀ {o : Option Verdict}, some n = o → some w = o → w.id = n.id := by
    intro o hn hw
    exact congrArg Verdict.id (Option.some.inj (hw.trans hn.symm))
  rw [healthyMembers_keeps hkeeps, hforce] at hchosen
  cases hchosen with
  | forced hforced hw =>
    cases hfirst with
    | forced _ hn => exact Or.inl (hsame hn hw)
    | failback hnot => exact absurd hforced (by simp [hnot])
    | failover hnot => exact absurd hforced (by simp [hnot])
    | stays hnot => exact absurd hforced (by simp [hnot])
  | failback hnot hback hw =>
    rw [shouldFailback_keeps hrel] at hback
    cases hfirst with
    | forced hforced => exact absurd hforced (by simp [hnot])
    | failback _ _ hn => exact Or.inl (hsame hn hw)
    | failover _ hback' => exact absurd hback (by simp [hback'])
    | stays _ hback' => exact absurd hback (by simp [hback'])
  | failover hnot hback hover hw =>
    rw [shouldFailback_keeps hrel] at hback
    have hover := shouldFailover_keeps hrel hover
    cases hfirst with
    | forced hforced => exact absurd hforced (by simp [hnot])
    | failback _ hback' => exact absurd hback' (by simp [hback])
    | failover _ _ _ hn => exact Or.inl (hsame hn hw)
    | stays _ _ hover' => exact absurd hover (by simp [hover'])
  | stays _ _ _ hw => exact Or.inr (activeMember_id hw.symm).1

end

end ForwardX.Panel.Failover
