import Mathlib.Data.Finset.Insert
import ForwardX.Panel.DdnsGroup

/- What the panel believes of a group's records, over every run of evaluations. `Truthful`
   is the belief that is right: a healthy group's records are the stored value's, and no
   evaluation skips an update that is due. `Harmless` says, from the state and the inputs of
   an evaluation, when a change of the records that is not remembered (an update that throws
   after it took effect, one whose commit is given up, one for exhausted hosts) contradicts
   nothing. An evaluation of a truthful group leaves it truthful exactly when it is harmless
   (`evaluate_truthful`). -/
namespace ForwardX.Panel.Ddns
open Transition

/-! ## Beliefs -/

/-- The signature of `value` is the remembered one. -/
def Remembers (g : GroupConfig) (s : GroupState) (value : String) : Prop :=
  s.exactDdnsReconciled = some (exactDdnsSignature g value)

/-- A group with the stored value `lastValue` may take `value` to be published already:
the stored value itself, or the fallback of a group without a healthy member. -/
def Skippable (g : GroupConfig) (lastValue value : String) : Prop :=
  value = lastValue ∨
    value ≠ "" ∧ (previousFallback g lastValue = value ∨ previousFallback g lastValue = "")

def Forgotten (g : GroupConfig) (s : GroupState) : Prop :=
  ∀ value, Remembers g s value → ¬ Skippable g s.lastValue value

/-- A healthy group's records are those of the stored value, and an evaluation that skips
the update selects what the records are. -/
structure Truthful (g : GroupConfig) (s : GroupState) : Prop where
  healthy : s.lastStatus = .healthy → Published g.js g.recordType s.records s.lastValue
  skipped : ∀ e value, (evaluate g s e).2 = .skipped value → Published g.js g.recordType s.records value

structure Believed (g : GroupConfig) (s : GroupState) : Prop where
  healthy : s.lastStatus = .healthy → Published g.js g.recordType s.records s.lastValue
  remembered : ∀ value, Remembers g s value → Skippable g s.lastValue value →
    Published g.js g.recordType s.records value

def SameRecords (g : GroupConfig) (value value' : String) : Prop :=
  ∀ records, Published g.js g.recordType records value ↔ Published g.js g.recordType records value'

/-! ## Harmless evaluations -/

/-- The commit follows, or the update changes nothing, or nothing speaks against its change. -/
def CommitHarmless (g : GroupConfig) (s : GroupState) (values : List String) (stillCurrent : Bool)
    (reply : ForwardGroupRecordType → Reply) : Prop :=
  Accepted g.js g.recordType values reply ∧ stillCurrent = true ∨
    Untouched g.js g.recordType s.records values reply ∨
    Forgotten g s ∧ (Accepted g.js g.recordType values reply → s.lastStatus ≠ .healthy)

/-- The same where the commit follows at once. -/
def HoldHarmless (g : GroupConfig) (s : GroupState) (value : String)
    (reply : ForwardGroupRecordType → Reply) : Prop :=
  Accepted g.js g.recordType [value] reply ∨
    Untouched g.js g.recordType s.records [value] reply ∨ Forgotten g s

/-- Removing the addresses of exhausted hosts is stored but not remembered: what is
remembered has to stand for the retained records, or not be taken for them. -/
def QuotaHarmless (g : GroupConfig) (s : GroupState) (retained : List String)
    (reply : ForwardGroupRecordType → Reply) : Prop :=
  if Accepted g.js g.recordType retained reply then
    ∀ value, Remembers g s value → Skippable g (joinValues retained) value →
      SameRecords g value (joinValues retained)
  else
    Untouched g.js g.recordType s.records retained reply ∨ Forgotten g s ∧ s.lastStatus ≠ .healthy

def PreserveHarmless (g : GroupConfig) (s : GroupState) (p : Preserving) (forceSync : Bool)
    (reply : ForwardGroupRecordType → Reply) : Prop :=
  if p.quota then ∀ allowed, p.allowed = some allowed → QuotaHarmless g s (retainedValues s allowed) reply
  else
    forwardGroupDdnsFallbackValue g s p.members ≠ "" →
      (forceSync || exactDdnsReconciliationDue g s (forwardGroupDdnsFallbackValue g s p.members)) = true →
      HoldHarmless g s (forwardGroupDdnsFallbackValue g s p.members) reply

/-- The condition on an evaluation: on the request it makes, if it makes one. -/
def Harmless (g : GroupConfig) (s : GroupState) : Evaluation → Prop
  | .entry sel p forceSync check reply =>
    sel.waits s = false → jsTrim g.domain ≠ "" → check.atStart = true →
      if sel.values.isEmpty then PreserveHarmless g s p forceSync reply
      else
        (forceSync = true ∨ s.lastValue ≠ joinValues sel.values ∨
          exactDdnsReconciliationDue g s (joinValues sel.values) = true) →
        check.beforeUpdate = true → CommitHarmless g s sel.values check.afterUpdate reply
  | .single memberId value forceSync beforeCommit afterUpdate reply =>
    beforeCommit = true →
      (forceSync = true ∨ s.activeMemberId ≠ memberId ∨ s.lastValue ≠ value ∨
        exactDdnsReconciliationDue g s value = true) →
      CommitHarmless g s [value] afterUpdate reply
  | .preserve p forceSync reply => PreserveHarmless g s p forceSync reply

/-! ## What is kept -/

section
variable {g : GroupConfig} {s : GroupState} {reply : ForwardGroupRecordType → Reply}

theorem exactDdnsSignature_inj {value value' : String}
    (h : exactDdnsSignature g value = exactDdnsSignature g value') : value = value' := by
  unfold exactDdnsSignature at h
  have hlists := congrArg String.toList h
  simp only [String.toList_append] at hlists
  exact String.toList_inj.mp (List.append_cancel_left hlists)

variable {value : String}

theorem due_eq_false : exactDdnsReconciliationDue g s value = false ↔ Remembers g s value := by
  simp [exactDdnsReconciliationDue, Remembers]

theorem believed_of_committed (hvalue : s.lastValue = value) (hmemory : Remembers g s value)
    (hpublished : Published g.js g.recordType s.records value) : Believed g s := by
  refine ⟨fun _ => hvalue ▸ hpublished, fun value' hmemory' _ => ?_⟩
  have hsame : exactDdnsSignature g value = exactDdnsSignature g value' :=
    Option.some.inj (hmemory.symm.trans hmemory')
  exact exactDdnsSignature_inj hsame ▸ hpublished

/-- An evaluation that leaves the records and the stored value as they are. -/
theorem Believed.quiet (h : Believed g s) (activeMemberId : Option Nat) (status : GroupStatus)
    (hstatus : status = .healthy → Published g.js g.recordType s.records s.lastValue) :
    Believed g { s with activeMemberId := activeMemberId, lastStatus := status } :=
  ⟨hstatus, h.remembered⟩

theorem Believed.unremembered_iff (h : Believed g s) (activeMemberId : Option Nat) (status : GroupStatus)
    (hstatus : status = .healthy → s.lastStatus = .healthy) (values : List String) :
    Believed g { s with
        activeMemberId := activeMemberId
        lastStatus := status
        records := (updateForwardGroupDdnsRecordValues g.js g.recordType s.records values reply).1 } ↔
      Untouched g.js g.recordType s.records values reply ∨ Forgotten g s ∧ status ≠ .healthy := by
  constructor
  · intro hafter
    by_cases hsame : Untouched g.js g.recordType s.records values reply
    · exact Or.inl hsame
    · refine Or.inr ⟨fun value hmemory hskip => hsame ?_, fun hhealthy => hsame ?_⟩
      · exact (h.remembered value hmemory hskip).untouched (hafter.remembered value hmemory hskip)
      · exact (h.healthy (hstatus hhealthy)).untouched (hafter.healthy hhealthy)
  · rintro (hsame | ⟨hforgotten, hunhealthy⟩)
    · rw [update_untouched hsame]
      exact h.quiet activeMemberId status fun hhealthy => h.healthy (hstatus hhealthy)
    · exact ⟨fun hhealthy => absurd hhealthy hunhealthy,
        fun value hmemory hskip => absurd hskip (hforgotten value hmemory)⟩

theorem commitDdns_believed (h : Believed g s) (activeMemberId : Option Nat) (values : List String)
    (stillCurrent : Bool) :
    Believed g (commitDdns g s activeMemberId values stillCurrent reply).1 ↔
      CommitHarmless g s values stillCurrent reply := by
  unfold commitDdns CommitHarmless
  simp only [update_returns]
  by_cases haccepted : Accepted g.js g.recordType values reply
  · cases stillCurrent with
    | true =>
      -- the commit
      simp only [haccepted, not_true_eq_false, if_false, and_self, true_or, iff_true]
      exact believed_of_committed rfl rfl (update_published s.records haccepted)
    | false =>
      -- the commit is given up, and the records are the new ones
      simpa [haccepted] using h.unremembered_iff s.activeMemberId s.lastStatus (fun hhealthy => hhealthy) values
  · simpa [haccepted] using
      h.unremembered_iff s.activeMemberId .error (fun hhealthy => nomatch hhealthy) values

theorem believed_of_stored (hvalue : s.lastValue = value) (hstatus : s.lastStatus ≠ .healthy)
    (hpublished : Published g.js g.recordType s.records value) :
    Believed g s ↔ ∀ value', Remembers g s value' → Skippable g value value' → SameRecords g value' value := by
  constructor
  · intro h value' hmemory hskip records
    have hown := h.remembered value' hmemory (hvalue ▸ hskip)
    exact ⟨hown.same hpublished, hpublished.same hown⟩
  · intro hsame
    refine ⟨fun hhealthy => absurd hhealthy hstatus, fun value' hmemory hskip => ?_⟩
    exact (hsame value' hmemory (hvalue ▸ hskip) s.records).mpr hpublished

theorem preserveForQuota_believed (hddns : g.ddnsEnabled = true) (hauto : g.ddnsAutoResolveEnabled = true)
    (h : Believed g s) (retained : List String) :
    Believed g (preserveForQuota g s retained reply).1 ↔ QuotaHarmless g s retained reply := by
  unfold preserveForQuota QuotaHarmless
  simp only [hddns, hauto, Bool.and_self, if_true, update_returns]
  by_cases haccepted : Accepted g.js g.recordType retained reply
  · simp only [haccepted, not_true_eq_false, if_false, if_true]
    exact believed_of_stored (orNull_getD _) (fun hhealthy => nomatch hhealthy) (update_published s.records haccepted)
  · simpa [haccepted] using
      h.unremembered_iff s.activeMemberId s.lastStatus (fun hhealthy => hhealthy) retained

theorem holdDdns_believed (h : Believed g s) (value : String) :
    Believed g (holdDdns g s value reply).1 ↔ HoldHarmless g s value reply := by
  unfold holdDdns HoldHarmless
  simp only [update_returns]
  by_cases haccepted : Accepted g.js g.recordType [value] reply
  · have hpublished := update_published s.records haccepted
    rw [joinValues_singleton] at hpublished
    simp only [haccepted, not_true_eq_false, if_false, true_or, iff_true]
    exact believed_of_committed rfl rfl hpublished
  · simpa [haccepted] using
      h.unremembered_iff none .error (fun hhealthy => nomatch hhealthy) [value]

theorem skippable_fallback (members : List DdnsMember) (h : forwardGroupDdnsFallbackValue g s members ≠ "") :
    Skippable g s.lastValue (forwardGroupDdnsFallbackValue g s members) := by
  refine Or.inr ⟨h, ?_⟩
  unfold forwardGroupDdnsFallbackValue
  by_cases hprevious : previousFallback g s.lastValue = ""
  · exact Or.inr hprevious
  · simp [hprevious]

theorem preserve_believed (hddns : g.ddnsEnabled = true) (hauto : g.ddnsAutoResolveEnabled = true)
    (h : Believed g s) (p : Preserving) (forceSync : Bool) :
    Believed g (preserveForwardGroupDdns g s p forceSync reply).1 ↔ PreserveHarmless g s p forceSync reply := by
  unfold preserveForwardGroupDdns PreserveHarmless
  by_cases hquota : p.quota = true
  · simp only [hquota, if_true]
    cases p.allowed with
    | none => simpa using h
    | some allowed =>
      simpa using preserveForQuota_believed hddns hauto h (retainedValues s allowed)
  have hskip := skippable_fallback (g := g) (s := s) p.members
  simp only [hquota, hddns]
  generalize forwardGroupDdnsFallbackValue g s p.members = value at hskip ⊢
  by_cases hempty : value = ""
  · simpa [hempty] using h.quiet s.activeMemberId .down (fun hhealthy => nomatch hhealthy)
  by_cases hdue : (forceSync || exactDdnsReconciliationDue g s value) = true
  · -- the fallback value is sent to the provider
    simpa [hempty, hdue] using holdDdns_believed h value
  · -- the update is skipped, and the fallback value is stored
    have hmemory : Remembers g s value := by
      rw [← due_eq_false]
      simp_all
    have hkept : Believed g { s with lastDdnsValue := some value, lastStatus := .down } :=
      believed_of_committed rfl hmemory (h.remembered value hmemory (hskip hempty))
    simpa [hempty, hdue] using hkept

theorem entry_believed (hddns : g.ddnsEnabled = true) (hauto : g.ddnsAutoResolveEnabled = true)
    (h : Believed g s) (sel : EntrySelection) (p : Preserving) (forceSync : Bool) (check : EntryChecks) :
    Believed g (syncEntryGroupDdns g s sel p forceSync check reply).1 ↔
      Harmless g s (.entry sel p forceSync check reply) := by
  unfold syncEntryGroupDdns Harmless
  by_cases hwaits : sel.waits s = true
  · simpa [hwaits] using h.quiet s.activeMemberId .unknown (fun hhealthy => nomatch hhealthy)
  by_cases hdomain : jsTrim g.domain = ""
  · simpa [hwaits, hdomain] using h.quiet s.activeMemberId .error (fun hhealthy => nomatch hhealthy)
  by_cases hstart : check.atStart = true
  swap
  · simpa [hwaits, hdomain, hstart] using h
  by_cases hvalues : sel.values.isEmpty = true
  · simpa [hwaits, hdomain, hstart, hvalues, hauto] using preserve_believed hddns hauto h p forceSync
  by_cases hskip : forceSync = false ∧ s.lastValue = joinValues sel.values ∧
      exactDdnsReconciliationDue g s (joinValues sel.values) = false
  · -- the stored value is taken to be published
    have hmemory : Remembers g s s.lastValue := by
      rw [hskip.2.1]
      exact due_eq_false.mp hskip.2.2
    have hpublished := h.remembered _ hmemory (Or.inl rfl)
    simpa [hwaits, hdomain, hstart, hvalues, hauto, hddns, hskip] using
      h.quiet s.activeMemberId .healthy (fun _ => hpublished)
  have hdue : forceSync = true ∨ s.lastValue ≠ joinValues sel.values ∨
      exactDdnsReconciliationDue g s (joinValues sel.values) = true := by
    simp only [not_and_or, Bool.not_eq_false] at hskip
    exact hskip
  by_cases hbefore : check.beforeUpdate = true
  · simpa [hwaits, hdomain, hstart, hvalues, hauto, hddns, hskip, hdue, hbefore] using
      commitDdns_believed h sel.activeMemberId sel.values check.afterUpdate
  · simpa [hwaits, hdomain, hstart, hvalues, hauto, hddns, hskip, hbefore] using h

theorem single_believed (hddns : g.ddnsEnabled = true) (h : Believed g s) (memberId : Option Nat)
    (value : String) (forceSync beforeCommit afterUpdate : Bool) :
    Believed g (syncSingleForwardGroupDdns g s memberId value forceSync beforeCommit afterUpdate reply).1 ↔
      Harmless g s (.single memberId value forceSync beforeCommit afterUpdate reply) := by
  unfold syncSingleForwardGroupDdns Harmless
  by_cases hcurrent : beforeCommit = true
  swap
  · simpa [hcurrent] using h
  by_cases hskip : forceSync = false ∧ s.activeMemberId = memberId ∧ s.lastValue = value ∧
      exactDdnsReconciliationDue g s value = false
  · have hmemory : Remembers g s s.lastValue := by
      rw [hskip.2.2.1]
      exact due_eq_false.mp hskip.2.2.2
    have hpublished := h.remembered _ hmemory (Or.inl rfl)
    simpa [hcurrent, hddns, hskip] using h.quiet s.activeMemberId .healthy (fun _ => hpublished)
  have hdue : forceSync = true ∨ s.activeMemberId ≠ memberId ∨ s.lastValue ≠ value ∨
      exactDdnsReconciliationDue g s value = true := by
    simp only [not_and_or, Bool.not_eq_false] at hskip
    exact hskip
  simpa [hcurrent, hddns, hskip, hdue] using commitDdns_believed h memberId [value] afterUpdate

theorem evaluate_believed (hddns : g.ddnsEnabled = true) (hauto : g.ddnsAutoResolveEnabled = true)
    (h : Believed g s) (e : Evaluation) : Believed g (evaluate g s e).1 ↔ Harmless g s e := by
  cases e with
  | entry sel p forceSync check reply => exact entry_believed hddns hauto h sel p forceSync check
  | single memberId value forceSync beforeCommit afterUpdate reply =>
    exact single_believed hddns h memberId value forceSync beforeCommit afterUpdate
  | preserve p forceSync reply => exact preserve_believed hddns hauto h p forceSync

/-! ## Skipped updates -/

theorem commitDdns_not_skipped (activeMemberId : Option Nat) (values : List String) (stillCurrent : Bool)
    (value : String) : (commitDdns g s activeMemberId values stillCurrent reply).2 ≠ .skipped value := by
  unfold commitDdns
  dsimp only
  split
  · exact Outcome.noConfusion
  · split <;> exact Outcome.noConfusion

theorem preserve_skipped {p : Preserving} {forceSync : Bool}
    (hout : (preserveForwardGroupDdns g s p forceSync reply).2 = .skipped value) :
    Remembers g s value ∧ Skippable g s.lastValue value := by
  have hskip := skippable_fallback (g := g) (s := s) p.members
  unfold preserveForwardGroupDdns preserveForQuota holdDdns at hout
  dsimp only at hout
  split at hout
  · split at hout
    · cases hout
    · split at hout <;> split at hout <;> cases hout
  split at hout
  · cases hout
  split at hout
  · cases hout
  next hempty =>
    split at hout
    next hdue =>
      cases hout
      refine ⟨due_eq_false.mp ?_, hskip hempty⟩
      simp_all
    · split at hout <;> cases hout

/-- An evaluation that skips the update selects a value that is remembered. -/
theorem evaluate_skipped {e : Evaluation} (hout : (evaluate g s e).2 = .skipped value) :
    Remembers g s value ∧ Skippable g s.lastValue value := by
  cases e with
  | preserve p forceSync reply => exact preserve_skipped hout
  | single memberId selected forceSync beforeCommit afterUpdate reply =>
    unfold evaluate syncSingleForwardGroupDdns at hout
    dsimp only at hout
    split at hout
    · cases hout
    split at hout
    · cases hout
    split at hout
    next hskip =>
      cases hout
      exact ⟨due_eq_false.mp (by simpa using hskip.2.2.2), Or.inl hskip.2.2.1.symm⟩
    · exact absurd hout (commitDdns_not_skipped _ _ _ _)
  | entry sel p forceSync check reply =>
    unfold evaluate syncEntryGroupDdns at hout
    dsimp only at hout
    split at hout
    · cases hout
    split at hout
    · cases hout
    split at hout
    · cases hout
    split at hout
    · split at hout
      · cases hout
      · exact preserve_skipped hout
    split at hout
    · cases hout
    split at hout
    next hskip =>
      cases hout
      exact ⟨due_eq_false.mp (by simpa using hskip.2.2), Or.inl hskip.2.1.symm⟩
    split at hout
    · cases hout
    · exact absurd hout (commitDdns_not_skipped _ _ _ _)

/-- A remembered value that the group takes to be published is one that some evaluation
skips the update of. -/
theorem exists_skipped (hddns : g.ddnsEnabled = true) (hmemory : Remembers g s value)
    (hskip : Skippable g s.lastValue value) : ∃ e, (evaluate g s e).2 = .skipped value := by
  have hdue := due_eq_false.mpr hmemory
  obtain rfl | ⟨hempty, hprevious⟩ := hskip
  · refine ⟨.single s.activeMemberId s.lastValue false true true fun _ => .ok, ?_⟩
    simp [evaluate, syncSingleForwardGroupDdns, hddns, hdue]
  · refine ⟨.preserve ⟨[], [⟨false, some value⟩]⟩ false fun _ => .ok, ?_⟩
    have hvalue : forwardGroupDdnsFallbackValue g s [⟨false, some value⟩] = value := by
      unfold forwardGroupDdnsFallbackValue
      obtain hprevious | hprevious := hprevious <;> simp [hprevious, hempty]
    simp [evaluate, preserveForwardGroupDdns, Preserving.quota, hddns, hvalue, hempty, hdue]

/-- The belief about evaluations is the belief about remembered values. -/
theorem truthful_iff (hddns : g.ddnsEnabled = true) : Truthful g s ↔ Believed g s := by
  constructor
  · intro h
    refine ⟨h.healthy, fun value hmemory hskip => ?_⟩
    obtain ⟨e, he⟩ := exists_skipped hddns hmemory hskip
    exact h.skipped e value he
  · intro h
    refine ⟨h.healthy, fun e value hout => ?_⟩
    obtain ⟨hmemory, hskip⟩ := evaluate_skipped hout
    exact h.remembered value hmemory hskip

/-- An evaluation leaves a truthful group truthful exactly when it is harmless. -/
theorem evaluate_truthful (hddns : g.ddnsEnabled = true) (hauto : g.ddnsAutoResolveEnabled = true)
    (h : Truthful g s) (e : Evaluation) : Truthful g (evaluate g s e).1 ↔ Harmless g s e := by
  rw [truthful_iff hddns] at h ⊢
  exact evaluate_believed hddns hauto h e

end

/-! ## Runs -/

/-- A process that has remembered nothing yet, on a row that tells the truth. -/
structure Started (g : GroupConfig) (s : GroupState) : Prop where
  forgotten : s.exactDdnsReconciled = none
  healthy : s.lastStatus = .healthy → Published g.js g.recordType s.records s.lastValue

section
variable {g : GroupConfig}

theorem Started.truthful (hddns : g.ddnsEnabled = true) {s : GroupState} (h : Started g s) : Truthful g s := by
  rw [truthful_iff hddns]
  refine ⟨h.healthy, fun value hmemory _ => ?_⟩
  exact absurd (h.forgotten.symm.trans hmemory) (Option.some_ne_none _).symm

theorem evaluations_truthful (hddns : g.ddnsEnabled = true) (hauto : g.ddnsAutoResolveEnabled = true)
    {s s' : GroupState} {e : Evaluation} (hstep : evaluations g s e s') (h : Truthful g s) :
    Truthful g s' ↔ Harmless g s e := by
  rw [← Option.some.inj hstep]
  exact evaluate_truthful hddns hauto h e

/-- The runs in whose every state the group tells the truth are those of harmless evaluations. -/
theorem truthful_runs_iff (hddns : g.ddnsEnabled = true) (hauto : g.ddnsAutoResolveEnabled = true)
    {s₀ s : GroupState} {es : List Evaluation} (h₀ : Started g s₀) :
    Run (fun s e s' => evaluations g s e s' ∧ Truthful g s') s₀ es s ↔
      Run (Guarded (Harmless g) (evaluations g)) s₀ es s := by
  constructor
  · intro hrun
    exact hrun.mono_of_invariant (fun _ _ _ hstep _ => hstep.2)
      (fun _ _ _ hstep h => ⟨(evaluations_truthful hddns hauto hstep.1 h).mp hstep.2, hstep.1⟩) (h₀.truthful hddns)
  · intro hrun
    have hnext : ∀ s e s', Guarded (Harmless g) (evaluations g) s e s' → Truthful g s → Truthful g s' :=
      fun _ _ _ hstep h => (evaluations_truthful hddns hauto hstep.2 h).mpr hstep.1
    exact hrun.mono_of_invariant hnext (fun s e s' hstep h => ⟨hstep.2, hnext s e s' hstep h⟩) (h₀.truthful hddns)

/-- Over every run of harmless evaluations a healthy group's records are those of the stored
value, and the next evaluation skips the update only of what is published. -/
theorem ddns_belief_true (hddns : g.ddnsEnabled = true) (hauto : g.ddnsAutoResolveEnabled = true)
    {s₀ s : GroupState} {es : List Evaluation} (h₀ : Started g s₀)
    (hrun : Run (Guarded (Harmless g) (evaluations g)) s₀ es s) :
    (s.lastStatus = .healthy → Published g.js g.recordType s.records s.lastValue) ∧
      ∀ e value, (evaluate g s e).2 = .skipped value → Published g.js g.recordType s.records value := by
  have htruthful := hrun.preserves (P := Truthful g)
    (fun t e t' hstep ht => (evaluations_truthful hddns hauto hstep.2 ht).mpr hstep.1) (h₀.truthful hddns)
  exact ⟨htruthful.healthy, htruthful.skipped⟩

end

/-! ## A switch given up after the provider's update -/

section

/-- A failover group with `A` records. -/
def failoverGroup : GroupConfig where
  js := ⟨fun s => s, fun _ => none⟩
  domain := "entry.example.net"
  recordType := .A
  ddnsEnabled := true
  ddnsAutoResolveEnabled := true

def newGroup : GroupState := ⟨none, none, .unknown, none, fun _ => ∅⟩

/-- The evaluation that selects a member whose address is `value`, all requests succeeding. -/
def selects (memberId : Nat) (value : String) (afterUpdate : Bool) : Evaluation :=
  .single (some memberId) value false true afterUpdate fun _ => .ok

/-- The group after a commit of its first member and a switch to the second that is given up. -/
def switchGivenUp : GroupState :=
  (evaluate failoverGroup (evaluate failoverGroup newGroup (selects 1 "192.0.2.1" true)).1
    (selects 2 "192.0.2.2" false)).1

theorem newGroup_started : Started failoverGroup newGroup :=
  ⟨rfl, fun hhealthy => nomatch hhealthy⟩

/-- The group is healthy and its stored value is the first member's, but the records are the
second's, and the next evaluation that selects the first member takes them for its own. -/
theorem switch_given_up_is_hidden :
    Run (evaluations failoverGroup) newGroup [selects 1 "192.0.2.1" true, selects 2 "192.0.2.2" false]
        switchGivenUp ∧
      Started failoverGroup newGroup ∧
      switchGivenUp.lastStatus = .healthy ∧ switchGivenUp.lastValue = "192.0.2.1" ∧
      switchGivenUp.records .A = {"192.0.2.2"} ∧
      ¬ Published failoverGroup.js .A switchGivenUp.records switchGivenUp.lastValue ∧
      (evaluate failoverGroup switchGivenUp (selects 1 "192.0.2.1" true)).2 = .skipped "192.0.2.1" := by
  refine ⟨exec_run rfl, newGroup_started, ?_, ?_, ?_, ?_, ?_⟩ <;> decide +kernel

/-- Two switches that are committed. -/
theorem ddns_belief_after_switches : ∃ s, Run (Guarded (Harmless failoverGroup) (evaluations failoverGroup))
      newGroup [selects 1 "192.0.2.1" true, selects 2 "192.0.2.2" true] s ∧
      Published failoverGroup.js failoverGroup.recordType s.records s.lastValue := by
  have hcommits : ∀ s memberId value, Harmless failoverGroup s (selects memberId value true) :=
    fun _ _ _ _ _ => Or.inl ⟨fun _ _ => rfl, rfl⟩
  have hrun : Run (Guarded (Harmless failoverGroup) (evaluations failoverGroup)) newGroup
      [selects 1 "192.0.2.1" true, selects 2 "192.0.2.2" true] _ :=
    Run.cons ⟨hcommits _ _ _, rfl⟩ (Run.single ⟨hcommits _ _ _, rfl⟩)
  exact ⟨_, hrun, (ddns_belief_true rfl rfl newGroup_started hrun).1 (by decide +kernel)⟩

end

end ForwardX.Panel.Ddns
