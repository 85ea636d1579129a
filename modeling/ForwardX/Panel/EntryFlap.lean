import ForwardX.Panel.EntryGroup

/- An entry group over time: Agents' reports, edits of members and evaluations at
   non-decreasing times. `Observed` records of each member what the history says, apart from
   its columns: the Agent's latest decision, the start of the failure, the evaluations that
   have found it healthy without a break, and whether it was dropped for ill health. A
   published address is dropped only for a reason (`drop_justified`). -/
namespace ForwardX.Panel.Ddns
open Transition

/-! ## The stored value after an evaluation -/

section
variable {g : GroupConfig} {s : GroupState} {reply : ForwardGroupRecordType → Reply}

theorem commitDdns_lastValue (activeMemberId : Option Nat) (values : List String) (stillCurrent : Bool) :
    (commitDdns g s activeMemberId values stillCurrent reply).1.lastValue = s.lastValue ∨
      (commitDdns g s activeMemberId values stillCurrent reply).1.lastValue = joinValues values := by
  unfold commitDdns
  dsimp only
  split
  · exact Or.inl rfl
  · split
    · exact Or.inl rfl
    · exact Or.inr rfl

theorem preserve_lastValue (p : Preserving) (forceSync : Bool) :
    (preserveForwardGroupDdns g s p forceSync reply).1.lastValue = s.lastValue ∨
      (∃ allowed, (preserveForwardGroupDdns g s p forceSync reply).1.lastValue =
        joinValues (retainedValues s allowed)) ∨
      (p.quota = false ∧ (preserveForwardGroupDdns g s p forceSync reply).1.lastValue =
        forwardGroupDdnsFallbackValue g s p.members) := by
  unfold preserveForwardGroupDdns preserveForQuota holdDdns
  dsimp only
  by_cases hquota : p.quota = true
  · rw [if_pos hquota]
    split
    · exact Or.inl rfl
    next allowed _ =>
      split
      · split
        · exact Or.inl rfl
        · exact Or.inr (Or.inl ⟨allowed, orNull_getD _⟩)
      · split
        · exact Or.inl rfl
        · exact Or.inr (Or.inl ⟨allowed, orNull_getD _⟩)
  · rw [if_neg hquota]
    have hfree : p.quota = false := by simpa using hquota
    split
    · by_cases hvalue : forwardGroupDdnsFallbackValue g s p.members = ""
      · refine Or.inl ?_
        by_cases hlast : s.lastDdnsValue.getD "" = "" <;> simp [GroupState.lastValue, hvalue, hlast]
      · refine Or.inr (Or.inr ⟨hfree, ?_⟩)
        simp [GroupState.lastValue, hvalue]
    split
    · exact Or.inl rfl
    split
    · exact Or.inr (Or.inr ⟨hfree, rfl⟩)
    split
    · exact Or.inl rfl
    · exact Or.inr (Or.inr ⟨hfree, rfl⟩)

end

/-- An evaluation publishes the address of the first member for want of any other. -/
def FallsBack (g : EntryGroup) (s : EntryState) (look : Look) : Prop :=
  (scanGroup g s look).selection.waits s.group = false ∧ jsTrim g.ddns.domain ≠ "" ∧
    (scanGroup g s look).selection.values = [] ∧ g.ddns.ddnsAutoResolveEnabled = true ∧
    (preserving g s look).quota = false ∧ previousFallback g.ddns s.group.lastValue = ""

section
variable {g : EntryGroup} {s : EntryState} {look : Look}

/-- What an evaluation stores: what was stored, the selected addresses, or, where it selects
none, some of those that were stored or the address to fall back to. -/
theorem syncEntryGroup_lastValue (g : EntryGroup) (s : EntryState) (look : Look) :
    (syncEntryGroup g s look).group.lastValue = s.group.lastValue ∨
      (syncEntryGroup g s look).group.lastValue = joinValues (scanGroup g s look).selection.values ∨
      (scanGroup g s look).selection.values = [] ∧
        ((∃ allowed, (syncEntryGroup g s look).group.lastValue = joinValues (retainedValues s.group allowed)) ∨
          (syncEntryGroup g s look).group.lastValue = previousFallback g.ddns s.group.lastValue ∨
          FallsBack g s look ∧ (syncEntryGroup g s look).group.lastValue =
            forwardGroupDdnsFallbackValue g.ddns s.group (preserving g s look).members) := by
  unfold syncEntryGroup syncEntryGroupDdns
  dsimp only
  split
  · exact Or.inl rfl
  next hwaits =>
  split
  · exact Or.inl rfl
  next hdomain =>
  rw [if_neg (by simp)]
  split
  next hnone =>
    have hnil : (scanGroup g s look).selection.values = [] := List.isEmpty_iff.mp hnone
    split
    · exact Or.inl rfl
    next hauto =>
    obtain hsame | ⟨allowed, hretained⟩ | ⟨hquota, hfallback⟩ :=
      preserve_lastValue (preserving g s look) look.forceSync (g := g.ddns) (s := s.group)
    · exact Or.inl hsame
    · exact Or.inr (Or.inr ⟨hnil, Or.inl ⟨allowed, hretained⟩⟩)
    · refine Or.inr (Or.inr ⟨hnil, Or.inr ?_⟩)
      by_cases hprevious : previousFallback g.ddns s.group.lastValue = ""
      · exact Or.inr ⟨⟨by simpa using hwaits, hdomain, hnil, by simpa using hauto, hquota, hprevious⟩, hfallback⟩
      · refine Or.inl (hfallback.trans ?_)
        simp [forwardGroupDdnsFallbackValue, hprevious]
  split
  · exact Or.inr (Or.inl rfl)
  split
  · exact Or.inl rfl
  rw [if_neg (by simp)]
  obtain hsame | hjoined := commitDdns_lastValue (scanGroup g s look).selection.activeMemberId
    (scanGroup g s look).selection.values true (g := g.ddns) (s := s.group)
  · exact Or.inl hsame
  · exact Or.inr (Or.inl hjoined)

end

/-! ## Events -/

inductive EntryEvent
  | evaluate (look : Look)
  | report (memberId : Nat) (input : ChinaHealthReport) (now : Int)
  | edit (memberId : Nat) (isEnabled : Bool) (now : Int)

def EntryEvent.time : EntryEvent → Int
  | .evaluate look => look.now
  | .report _ _ now => now
  | .edit _ _ now => now

/-- What the history says of a member: the latest decision of its Agent, the earliest failure
observed since it was last found healthy, the first of the evaluations that have found it
healthy without a break, and whether it was dropped for ill health and is still away. -/
structure Observed where
  latestDecision : Option HealthStatus
  failureStart : Option Int
  healthyRun : Option Int
  dropped : Bool
  deriving DecidableEq, Repr

structure EntryWorld where
  state : EntryState
  seen : Nat → Observed
  clock : Int

/-- What an evaluation finds of a member; none where it does not look at it. -/
def findingOf (g : EntryGroup) (s : EntryState) (look : Look) (m : EntryMember) : Option Finding :=
  if Assessed g s m then some (assessMember g s look m).finding else none

def observedFailure (g : EntryGroup) (s : EntryState) (look : Look) (m : EntryMember) : Option Int :=
  (observeMember g.health (s.columns m.id) (look.memberLiveness m) look.now).2

/-- The history after an evaluation. -/
def Observed.evaluated (o : Observed) (finding : Option Finding) (observed : Option Int) (now : Int)
    (before after : Bool) : Observed :=
  { latestDecision := o.latestDecision
    failureStart :=
      if finding = some .healthy then none
      else if finding = some .failing then
        some (match observed with
          | some observedAt => min observedAt (o.failureStart.getD observedAt)
          | none => o.failureStart.getD now)
      else o.failureStart
    healthyRun := if finding = some .healthy then some (o.healthyRun.getD now) else none
    dropped :=
      if after then false
      else if before && finding = some .failing then true
      else o.dropped }

/-- The history after a report: a decision against the member counts as a failure of the
whole failover time. -/
def Observed.reported (o : Observed) (group : HealthSettings) (input : ChinaHealthReport) (now : Int) : Observed :=
  { o with
    latestDecision := input.healthStatus.orElse fun _ => o.latestDecision
    failureStart :=
      if input.healthStatus = some .unhealthy then some (now - forwardGroupFailoverDelayMs group)
      else if input.healthStatus = some .healthy then none
      else o.failureStart }

/-- The histories after an evaluation, by the ids of the members. -/
def observeEvaluation (g : EntryGroup) (w : EntryWorld) (look : Look) (k : Nat) : Observed :=
  match g.members.find? fun m => m.id = k with
  | none => w.seen k
  | some m =>
    (w.seen k).evaluated (findingOf g w.state look m) (observedFailure g w.state look m) look.now
      (previouslyIncluded g w.state.group m)
      (previouslyIncluded g (syncEntryGroup g w.state look).group m)

/-- The events of a group, at non-decreasing times. -/
def entryStep (g : EntryGroup) (w : EntryWorld) (e : EntryEvent) : Option EntryWorld :=
  if e.time < w.clock then none
  else
    match e with
    | .evaluate look =>
      some ⟨syncEntryGroup g w.state look, observeEvaluation g w look, look.now⟩
    | .report k input now =>
      some
        { state := { w.state with
            columns := Function.update w.state.columns k
              (updateForwardGroupMemberChinaHealth g.health (w.state.columns k) input now) }
          seen := Function.update w.seen k ((w.seen k).reported g.health input now)
          clock := now }
    | .edit k isEnabled now =>
      some
        { state := { w.state with
            columns := Function.update w.state.columns k
              { w.state.columns k with isEnabled := isEnabled, updatedAt := stored now } }
          seen := w.seen
          clock := now }

def entryEvents (g : EntryGroup) : Steps EntryWorld EntryEvent := Steps.ofFn (entryStep g)

/-- What a drop needs: the member is disabled or excluded by its traffic, or found failing, its
failure having started the failover time ago. -/
def DropJustified (g : EntryGroup) (w w' : EntryWorld) (look : Look) (m : EntryMember) : Prop :=
  (w.state.columns m.id).isEnabled = false ∨ (look.memberLiveness m).trafficExcluded = true ∨
    findingOf g w.state look m = some .failing ∧ ∃ since, (w'.seen m.id).failureStart = some since ∧
      stored since + forwardGroupFailoverDelayMs g.health ≤ look.now

/-- What the return of a dropped member needs: the Agent's latest decision is for it, or every
evaluation since one that is the recovery time ago has found it healthy. -/
def ReturnJustified (g : EntryGroup) (w w' : EntryWorld) (look : Look) (m : EntryMember) : Prop :=
  (w.seen m.id).latestDecision = some .healthy ∨
    ∃ since, (w'.seen m.id).healthyRun = some since ∧
      stored since + forwardGroupRecoverDelayMs g.health ≤ look.now

/-- The condition on an event, for each member that was dropped and for whom the Agent has not
decided: an evaluation does not publish it in the middle of its recovery, nor pass it over
with its recovery going on, and no group falls back to its address. A decision is
taken back only where there is no recovery. -/
def Steady (g : EntryGroup) (w : EntryWorld) : EntryEvent → Prop
  | .evaluate look => ∀ m ∈ g.members, (w.seen m.id).dropped = true →
      (w.seen m.id).latestDecision ≠ some .healthy →
        (findingOf g w.state look m = some .healthy → wasUnhealthy (w.state.columns m.id) = true ∨
          forwardGroupRecoverDelayMs g.health ≤
            look.now - (w.state.columns m.id).healthySince.getD look.now) ∧
        (findingOf g w.state look m ≠ some .healthy → findingOf g w.state look m ≠ some .failing →
          (w.state.columns m.id).healthySince = none) ∧
        (FallsBack g w.state look → ∀ a ∈ memberAddresses g m,
          a ∉ storedValues (forwardGroupDdnsFallbackValue g.ddns w.state.group
            (preserving g w.state look).members))
  | .report k input _ => (w.seen k).dropped = true → (w.seen k).latestDecision = some .healthy →
      input.healthStatus = some .unknown → (w.state.columns k).healthySince = none
  | .edit .. => True

/-! ## Published addresses -/

def Clean (js : Runtime) (value : String) : Prop :=
  ∃ values, (∀ v ∈ values, Canonical js v) ∧ value = joinValues values

section
variable {g : EntryGroup} {s : EntryState} {look : Look}

theorem Clean.stored {js : Runtime} {value : String} (h : Clean js value) :
    (∀ v ∈ storedValues value, Canonical js v) ∧ value = joinValues (storedValues value) := by
  obtain ⟨values, hvalues, rfl⟩ := h
  rw [storedValues_joined hvalues]
  exact ⟨hvalues, rfl⟩

theorem previousValues_clean {s : GroupState} {js : Runtime} (h : Clean js s.lastValue) :
    previousValues s = storedValues s.lastValue := by
  obtain ⟨values, hvalues, hlast⟩ := h
  unfold previousValues
  rw [hlast, jsTrim_joined hvalues]

theorem memberValue_clean (hjs : g.ddns.js.Serialises) (hcname : g.ddns.recordType ≠ .CNAME) (m : EntryMember) :
    Clean g.ddns.js (memberDdnsValue g m) :=
  hostValue_canonical hjs hcname m.host

variable {m : EntryMember} {a : String}

theorem mem_memberAddresses : a ∈ memberAddresses g m ↔ a ∈ storedValues (memberDdnsValue g m) :=
  List.mem_eraseDups

theorem memberAddress_canonical (hjs : g.ddns.js.Serialises) (hcname : g.ddns.recordType ≠ .CNAME)
    (ha : a ∈ memberAddresses g m) : Canonical g.ddns.js a :=
  (memberValue_clean hjs hcname m).stored.1 a (mem_memberAddresses.mp ha)

theorem value_ne_of_address (ha : a ∈ memberAddresses g m) : memberDdnsValue g m ≠ "" := by
  intro hempty
  have hnil : splitForwardGroupDdnsValues "" = [] := by decide +kernel
  rw [memberAddresses, hempty, hnil] at ha
  cases ha

theorem selected_canonical (hjs : g.ddns.js.Serialises) (hcname : g.ddns.recordType ≠ .CNAME)
    (s : EntryState) (look : Look) :
    ∀ v ∈ (scanGroup g s look).selection.values, Canonical g.ddns.js v := by
  intro v hv
  obtain ⟨m, _, _, _, ha⟩ := (mem_scanGroup hcname).mp hv
  exact memberAddress_canonical hjs hcname ha

theorem fallback_clean (hjs : g.ddns.js.Serialises) (hcname : g.ddns.recordType ≠ .CNAME)
    (h : previousFallback g.ddns s.group.lastValue = "") :
    Clean g.ddns.js (forwardGroupDdnsFallbackValue g.ddns s.group (preserving g s look).members) := by
  unfold forwardGroupDdnsFallbackValue preserving
  simp only [h, ne_eq, not_true_eq_false, if_false]
  cases hfind : (List.map (fun m : DdnsMember => m.value.getD "")
      ((sortedMembers g s.columns).map fun m =>
        ⟨(look.memberLiveness m).trafficExcluded, some (memberDdnsValue g m)⟩)).find? (fun v => ¬ v = "") with
  | none => exact ⟨[], by simp, rfl⟩
  | some value =>
    have hmem := List.mem_of_find?_eq_some hfind
    simp only [List.map_map, List.mem_map] at hmem
    obtain ⟨m, _, rfl⟩ := hmem
    exact memberValue_clean hjs hcname m

theorem syncEntryGroup_published (hjs : g.ddns.js.Serialises) (hcname : g.ddns.recordType ≠ .CNAME)
    (hclean : Clean g.ddns.js s.group.lastValue) (look : Look) :
    Clean g.ddns.js (syncEntryGroup g s look).group.lastValue ∧
      (∀ a ∈ storedValues (syncEntryGroup g s look).group.lastValue,
        a ∈ storedValues s.group.lastValue ∨ a ∈ (scanGroup g s look).selection.values ∨
          FallsBack g s look ∧ a ∈ storedValues
            (forwardGroupDdnsFallbackValue g.ddns s.group (preserving g s look).members)) ∧
      (∀ a ∈ storedValues s.group.lastValue, a ∈ (scanGroup g s look).selection.values →
        a ∈ storedValues (syncEntryGroup g s look).group.lastValue) := by
  obtain ⟨hold, hjoined⟩ := hclean.stored
  -- a value joined of addresses that were stored
  have hpart : ∀ values : List String, (∀ v ∈ values, v ∈ storedValues s.group.lastValue) →
      Clean g.ddns.js (joinValues values) ∧ storedValues (joinValues values) = values := fun values hsub =>
    ⟨⟨values, fun v hv => hold v (hsub v hv), rfl⟩, storedValues_joined fun v hv => hold v (hsub v hv)⟩
  obtain hsame | hselected | ⟨hnil, ⟨allowed, hretained⟩ | hprevious | ⟨hback, hfallback⟩⟩ :=
    syncEntryGroup_lastValue g s look
  · rw [hsame]
    exact ⟨hclean, fun a ha => Or.inl ha, fun a ha _ => ha⟩
  · have hcanonical := selected_canonical hjs hcname s look
    rw [hselected, storedValues_joined hcanonical]
    exact ⟨⟨_, hcanonical, rfl⟩, fun a ha => Or.inr (Or.inl ha), fun a _ ha => ha⟩
  · have hsub : ∀ v ∈ retainedValues s.group allowed, v ∈ storedValues s.group.lastValue := by
      intro v hv
      obtain ⟨hmem, hkept⟩ := List.mem_filter.mp hv
      simp only [Bool.and_eq_true] at hkept
      exact List.mem_filter.mpr ⟨hmem, hkept.1⟩
    obtain ⟨hclean', hvalues⟩ := hpart _ hsub
    rw [hretained, hvalues, hnil]
    exact ⟨hclean', fun a ha => Or.inl (hsub a ha), fun a _ ha => by cases ha⟩
  · unfold previousFallback at hprevious
    rw [hjoined, split_joined hold] at hprevious
    have hsub : ∀ v ∈ (forwardGroupDdnsRecordSets g.ddns.js g.ddns.recordType
        (storedValues s.group.lastValue).eraseDups).flatMap (fun record => record.values.take 1),
        v ∈ storedValues s.group.lastValue := by
      intro v hv
      obtain ⟨set, hset, hfirst⟩ := List.mem_flatMap.mp hv
      have hcanonical : ∀ v ∈ (storedValues s.group.lastValue).eraseDups, Canonical g.ddns.js v :=
        fun v hv => hold v (List.mem_eraseDups.mp hv)
      exact List.mem_eraseDups.mp (recordSet_subset hcname hcanonical hset v (List.mem_of_mem_take hfirst))
    obtain ⟨hclean', hvalues⟩ := hpart _ hsub
    rw [hprevious, hvalues, hnil]
    exact ⟨hclean', fun a ha => Or.inl (hsub a ha), fun a _ ha => by cases ha⟩
  · have hempty := hback.2.2.2.2.2
    rw [hfallback, hnil]
    exact ⟨fallback_clean hjs hcname hempty, fun a ha => Or.inr (Or.inr ⟨hback, ha⟩), fun a _ ha => by cases ha⟩

end

/-! ## Drops -/

section
variable {g : EntryGroup}

structure EntryInv (g : EntryGroup) (w : EntryWorld) : Prop where
  clean : Clean g.ddns.js w.state.group.lastValue
  read : ∀ m ∈ g.members, (w.state.columns m.id).Read
  failureSince : ∀ m ∈ g.members,
    (w.state.columns m.id).failureSince = (w.seen m.id).failureStart.map stored
  clocked : ∀ m ∈ g.members, ∀ since, (w.seen m.id).healthyRun = some since → since ≤ w.clock

/-- The start of the failure that an evaluation reckons with is the history's. -/
theorem failureStart_evaluated {o : Observed} {m : MemberColumns} (observed : Option Int) (now : Int)
    (before after : Bool) (h : m.failureSince = o.failureStart.map stored) :
    ∃ since, (o.evaluated (some .failing) observed now before after).failureStart = some since ∧
      stored since ≤ failureStartAt m observed now ∧
      stored (failureStartAt m observed now) = stored since := by
  cases observed with
  | none =>
    refine ⟨o.failureStart.getD now, rfl, ?_⟩
    unfold failureStartAt
    rw [h]
    cases o.failureStart with
    | none => exact ⟨stored_le now, rfl⟩
    | some since => exact ⟨Int.le_refl _, stored_stored since⟩
  | some observedAt =>
    refine ⟨min observedAt (o.failureStart.getD observedAt), rfl, ?_⟩
    unfold failureStartAt
    rw [h]
    cases o.failureStart with
    | none => simpa using stored_le observedAt
    | some since =>
      have hcolumn : (((some since).map stored).orElse fun _ => some observedAt).getD now = stored since := rfl
      simp only [hcolumn, Option.getD_some, stored_min, stored_stored, and_true]
      have := stored_le observedAt
      omega

theorem observeEvaluation_member (hids : (g.members.map EntryMember.id).Nodup) (w : EntryWorld) (look : Look)
    {m : EntryMember} (hm : m ∈ g.members) : observeEvaluation g w look m.id =
      (w.seen m.id).evaluated (findingOf g w.state look m) (observedFailure g w.state look m) look.now
        (previouslyIncluded g w.state.group m)
        (previouslyIncluded g (syncEntryGroup g w.state look).group m) := by
  have hfind : g.members.find? (fun m' => m'.id = m.id) = some m := by
    have hsome : (g.members.find? fun m' => m'.id = m.id).isSome = true :=
      List.find?_isSome.mpr ⟨m, hm, by simp⟩
    obtain ⟨m', hm'⟩ := Option.isSome_iff_exists.mp hsome
    have hsame : m'.id = m.id := by simpa using List.find?_some hm'
    rw [hm', List.inj_on_of_nodup_map hids (List.mem_of_find?_eq_some hm') hm hsame]
  unfold observeEvaluation
  rw [hfind]

theorem previouslyIncluded_iff {s : EntryState} (hclean : Clean g.ddns.js s.group.lastValue) {m : EntryMember} :
    previouslyIncluded g s.group m = true ↔
      ∃ a ∈ memberAddresses g m, a ∈ storedValues s.group.lastValue := by
  unfold previouslyIncluded
  rw [previousValues_clean hclean, List.any_eq_true]
  simp

variable {m : EntryMember} {look : Look} {s : EntryState}

/-- A published address that an evaluation does not select is dropped for a reason. -/
theorem drop_justified (hids : (g.members.map EntryMember.id).Nodup) (hcname : g.ddns.recordType ≠ .CNAME)
    {w w' : EntryWorld} (hinv : EntryInv g w) (hseen : w'.seen = observeEvaluation g w look) (hm : m ∈ g.members)
    {a : String} (ha : a ∈ memberAddresses g m) (hbefore : a ∈ storedValues w.state.group.lastValue)
    (hafter : a ∉ (scanGroup g w.state look).selection.values) : DropJustified g w w' look m := by
  by_cases henabled : (w.state.columns m.id).isEnabled = true
  swap
  · exact Or.inl (by simpa using henabled)
  have hassessed : Assessed g w.state m := ⟨henabled, value_ne_of_address ha⟩
  have hprevious : previouslyIncluded g w.state.group m = true :=
    (previouslyIncluded_iff hinv.clean).mpr ⟨a, ha, hbefore⟩
  have hout : (assessMember g w.state look m).included ≠ true := fun hincluded =>
    hafter ((mem_scanGroup hcname).mpr ⟨m, hm, hassessed, hincluded, ha⟩)
  have hfound : findingOf g w.state look m = some (assessMember g w.state look m).finding := if_pos hassessed
  cases hfinding : (assessMember g w.state look m).finding with
  | excluded => exact Or.inr (Or.inl (assess_excluded hfinding).1)
  | pending => exact absurd ((assess_pending hfinding).1.trans hprevious) hout
  | healthy =>
    refine absurd ((assess_healthy hfinding).1.trans ?_) hout
    simp [healthyWindow, hprevious]
  | failing =>
    -- the member stays unless it has failed for the failover time
    have hlong : forwardGroupFailoverDelayMs g.health ≤ look.now -
        failureStartAt (w.state.columns m.id) (observedFailure g w.state look m) look.now := by
      have hwindow : (failingWindow g.health (w.state.columns m.id) (previouslyIncluded g w.state.group m)
          (observedFailure g w.state look m) look.now).included ≠ true :=
        (assess_failing hfinding).1 ▸ hout
      simpa [failingWindow, hprevious] using hwindow
    obtain ⟨since, hstart, hle, -⟩ := failureStart_evaluated (observedFailure g w.state look m) look.now
      (previouslyIncluded g w.state.group m)
      (previouslyIncluded g (syncEntryGroup g w.state look).group m) (hinv.failureSince m hm)
    refine Or.inr (Or.inr ⟨by rw [hfound, hfinding], since, ?_, by omega⟩)
    rw [hseen, observeEvaluation_member hids w look hm, hfound, hfinding]
    exact hstart

/-! ## Columns after an evaluation -/

theorem syncEntryGroup_columns (hids : (g.members.map EntryMember.id).Nodup) (hcname : g.ddns.recordType ≠ .CNAME)
    (hm : m ∈ g.members) : (syncEntryGroup g s look).columns m.id =
      if Assessed g s m then (assessMember g s look m).columns else s.columns m.id :=
  scanGroup_columns hcname hids hm

theorem columns_of_healthy (hids : (g.members.map EntryMember.id).Nodup) (hcname : g.ddns.recordType ≠ .CNAME)
    (hm : m ∈ g.members) (hread : (s.columns m.id).Read) (hfinding : findingOf g s look m = some .healthy) :
    ((syncEntryGroup g s look).columns m.id).failureSince = none ∧
      ((syncEntryGroup g s look).columns m.id).healthySince =
        some (stored ((s.columns m.id).healthySince.getD look.now)) := by
  rw [syncEntryGroup_columns hids hcname hm]
  unfold findingOf at hfinding
  split at hfinding
  next hassessed =>
    obtain ⟨hfailure, hhealthy, -⟩ := writeWindow_spec hread .healthy
      (healthyWindow g.health (s.columns m.id) (previouslyIncluded g s.group m) look.now) look.now
    rw [if_pos hassessed, assessMember, (assess_healthy (Option.some.inj hfinding)).2]
    exact ⟨hfailure, hhealthy⟩
  · cases hfinding

theorem columns_of_failing (hids : (g.members.map EntryMember.id).Nodup) (hcname : g.ddns.recordType ≠ .CNAME)
    (hm : m ∈ g.members) (hread : (s.columns m.id).Read) (hfinding : findingOf g s look m = some .failing) :
    ((syncEntryGroup g s look).columns m.id).failureSince =
        some (stored (failureStartAt (s.columns m.id) (observedFailure g s look m) look.now)) ∧
      ((syncEntryGroup g s look).columns m.id).healthySince = none ∧
      wasUnhealthy ((syncEntryGroup g s look).columns m.id) = true := by
  rw [syncEntryGroup_columns hids hcname hm]
  unfold findingOf at hfinding
  split at hfinding
  next hassessed =>
    obtain ⟨hfailure, hhealthy, hstatus, -⟩ := writeWindow_spec hread .unhealthy
      (failingWindow g.health (s.columns m.id) (previouslyIncluded g s.group m)
        (observedFailure g s look m) look.now) look.now
    rw [if_pos hassessed, assessMember, (assess_failing (Option.some.inj hfinding)).2]
    refine ⟨hfailure, hhealthy, ?_⟩
    unfold wasUnhealthy
    rw [observedFailure] at hstatus
    simp [hstatus]
  · cases hfinding

/-- An evaluation that finds a member neither healthy nor failing leaves its columns. -/
theorem columns_of_other (hids : (g.members.map EntryMember.id).Nodup) (hcname : g.ddns.recordType ≠ .CNAME)
    (hm : m ∈ g.members) (hhealthy : findingOf g s look m ≠ some .healthy)
    (hfailing : findingOf g s look m ≠ some .failing) : (syncEntryGroup g s look).columns m.id = s.columns m.id := by
  rw [syncEntryGroup_columns hids hcname hm]
  unfold findingOf at hhealthy hfailing
  split at hhealthy
  next hassessed =>
    rw [if_pos hassessed] at hfailing ⊢
    cases hfinding : (assessMember g s look m).finding with
    | excluded => exact (assess_excluded hfinding).2.2
    | pending => exact (assess_pending hfinding).2
    | healthy => exact absurd (by rw [hfinding]) hhealthy
    | failing => exact absurd (by rw [hfinding]) hfailing
  next hassessed => rw [if_neg hassessed]

/-! ## Steps -/

theorem report_read {m : MemberColumns} (h : m.Read) (group : HealthSettings) (input : ChinaHealthReport)
    (now : Int) : (updateForwardGroupMemberChinaHealth group m input now).Read := by
  unfold updateForwardGroupMemberChinaHealth
  split
  · exact h
  · dsimp only
    split
    · exact ⟨congrArg some (stored_stored _), rfl⟩
    · exact ⟨rfl, congrArg some (stored_stored _)⟩
    · exact ⟨h.failureSince, h.healthySince⟩

theorem report_failureSince {m : MemberColumns} {o : Observed} {group : HealthSettings}
    (hchina : group.chinaHealthCheckEnabled = true) (h : m.failureSince = o.failureStart.map stored)
    (input : ChinaHealthReport) (now : Int) :
    (updateForwardGroupMemberChinaHealth group m input now).failureSince =
      (o.reported group input now).failureStart.map stored := by
  unfold updateForwardGroupMemberChinaHealth Observed.reported
  simp only [hchina, not_true_eq_false, if_false]
  cases hstatus : input.healthStatus with
  | none => simpa using h
  | some status => cases status <;> simp [h]

theorem EntryInv.step (hjs : g.ddns.js.Serialises) (hids : (g.members.map EntryMember.id).Nodup)
    (hcname : g.ddns.recordType ≠ .CNAME) (hchina : g.health.chinaHealthCheckEnabled = true)
    {w w' : EntryWorld} {e : EntryEvent} (h : EntryInv g w) (hstep : entryEvents g w e w') : EntryInv g w' := by
  unfold entryEvents Steps.ofFn entryStep at hstep
  split at hstep
  · cases hstep
  next htime =>
  cases e with
  | evaluate look =>
    cases hstep
    have hclock : w.clock ≤ look.now := Int.not_lt.mp htime
    refine ⟨(syncEntryGroup_published hjs hcname h.clean look).1, fun m hm => ?_, fun m hm => ?_, fun m hm since => ?_⟩
    · by_cases hhealthy : findingOf g w.state look m = some .healthy
      · obtain ⟨hfailure, hwindow⟩ := columns_of_healthy hids hcname hm (h.read m hm) hhealthy
        exact ⟨by rw [hfailure]; rfl, by rw [hwindow]; exact congrArg some (stored_stored _)⟩
      by_cases hfailing : findingOf g w.state look m = some .failing
      · obtain ⟨hfailure, hwindow, -⟩ := columns_of_failing hids hcname hm (h.read m hm) hfailing
        exact ⟨by rw [hfailure]; exact congrArg some (stored_stored _), by rw [hwindow]; rfl⟩
      · exact (columns_of_other hids hcname hm hhealthy hfailing).symm ▸ h.read m hm
    · show ((syncEntryGroup g w.state look).columns m.id).failureSince =
        (observeEvaluation g w look m.id).failureStart.map stored
      rw [observeEvaluation_member hids w look hm]
      by_cases hhealthy : findingOf g w.state look m = some .healthy
      · rw [(columns_of_healthy hids hcname hm (h.read m hm) hhealthy).1, hhealthy]
        rfl
      by_cases hfailing : findingOf g w.state look m = some .failing
      · rw [(columns_of_failing hids hcname hm (h.read m hm) hfailing).1, hfailing]
        obtain ⟨since, hstart, -, hsame⟩ := failureStart_evaluated (observedFailure g w.state look m) look.now
          (previouslyIncluded g w.state.group m)
          (previouslyIncluded g (syncEntryGroup g w.state look).group m) (h.failureSince m hm)
        rw [hstart, hsame]
        rfl
      · rw [columns_of_other hids hcname hm hhealthy hfailing, h.failureSince m hm]
        simp [Observed.evaluated, hhealthy, hfailing]
    · show (observeEvaluation g w look m.id).healthyRun = some since → since ≤ look.now
      rw [observeEvaluation_member hids w look hm]
      intro hrun
      unfold Observed.evaluated at hrun
      dsimp only at hrun
      split at hrun
      · cases hrun
        cases hsince : (w.seen m.id).healthyRun with
        | none => exact Int.le_refl _
        | some since => exact Int.le_trans (h.clocked m hm since hsince) hclock
      · cases hrun
  | report k input now =>
    cases hstep
    have hclock : w.clock ≤ now := Int.not_lt.mp htime
    refine ⟨h.clean, fun m hm => ?_, fun m hm => ?_, fun m hm since hrun => ?_⟩
    · by_cases hk : m.id = k
      · subst hk
        simpa using report_read (h.read m hm) g.health input now
      · simpa [hk] using h.read m hm
    · by_cases hk : m.id = k
      · subst hk
        simpa using report_failureSince hchina (h.failureSince m hm) input now
      · simpa [hk] using h.failureSince m hm
    · refine Int.le_trans (h.clocked m hm since ?_) hclock
      by_cases hk : m.id = k
      · subst hk
        simpa [Observed.reported] using hrun
      · simpa [hk] using hrun
  | edit k isEnabled now =>
    cases hstep
    have hclock : w.clock ≤ now := Int.not_lt.mp htime
    refine ⟨h.clean, fun m hm => ?_, fun m hm => ?_,
      fun m hm since hrun => Int.le_trans (h.clocked m hm since hrun) hclock⟩
    · by_cases hk : m.id = k
      · subst hk
        simpa using (⟨(h.read m hm).failureSince, (h.read m hm).healthySince⟩ : MemberColumns.Read
          { w.state.columns m.id with isEnabled := isEnabled, updatedAt := stored now })
      · simpa [hk] using h.read m hm
    · by_cases hk : m.id = k
      · subst hk
        simpa using h.failureSince m hm
      · simpa [hk] using h.failureSince m hm

end

end ForwardX.Panel.Ddns
