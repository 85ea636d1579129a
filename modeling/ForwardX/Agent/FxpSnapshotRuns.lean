import ForwardX.Agent.EntryGroupFoldRuns
import ForwardX.Agent.FxpSnapshotForms

/- The snapshots after any calls, each stopped after any of its operations: a file holds a spec in the form that
   scrubbing leaves, without credentials. What is loaded has that form too, so that a batch folds over it
   (`loaded_folds_plainly_iff`). -/
namespace ForwardX.Agent.EntryGroups
open Fxp.Control (Unicode asciiUnicode)
open Files

inductive Scrubbed (u : Unicode) : FxpSpec → Prop
  | single {e : FxpEntry} : StoredSingle u e → Scrubbed u { toFxpEntry := e }
  | group {g : FxpSpec} : StoredGroup u g → Scrubbed u g

section
variable {u : Unicode} {clock : String → Int} {d : Dir Snapshot} {spec : FxpSpec} {name : String} {x : Snapshot}

def Kept (u : Unicode) (d : Dir Snapshot) : Prop := ∀ file ∈ d, isSnapshotName file.1 = true → Scrubbed u file.2.spec

theorem Scrubbed.fixed {s : FxpSpec} (h : Scrubbed u s) : scrubFXPSpec u s = s := by
  cases h with
  | single h => exact h.scrub
  | group h => exact h.scrub

theorem no_credentials {e : FxpEntry} (h : scrubSingle u e = e) : e.PanelURL = "" ∧ e.Token = "" := by
  rw [← h, scrubSingle]
  exact ⟨rfl, rfl⟩

theorem writes_replace {ops : List (Op Snapshot)} (h : replacePersistedSharedFXPEntryGroup u clock d spec = .ok ops)
    (hx : Op.write name x ∈ ops) : Scrubbed u x.spec := by
  have hstored := storedGroup_scrub (u := u) (s := spec)
  rw [replacePersistedSharedFXPEntryGroup] at h
  generalize scrubFXPSpec u spec = g at h hstored
  dsimp only at h
  split at h
  · cases h
  · next hgroup =>
    split at h
    · cases h
    · injection h with hops
      rw [Bool.or_eq_true, not_or, Bool.not_eq_true', Bool.not_eq_false] at hgroup
      rw [← hops] at hx
      rcases List.mem_cons.mp hx with hx | hx
      · injection hx with _ hx
        rw [hx]
        exact .group (hstored hgroup.1 fun hnil => hgroup.2 (List.isEmpty_iff.mpr hnil))
      · obtain ⟨file, -, hact⟩ := mem_sweep_write hx
        rw [supersededAction] at hact
        split at hact
        · cases hact
        · split at hact
          · cases hact
          · cases hact

theorem writes_persist {ops : List (Op Snapshot)} (h : persistFXPSpec u clock d spec = .ok ops)
    (hx : Op.write name x ∈ ops) : Scrubbed u x.spec := by
  have hstored := storedSingle_scrub (u := u) (s := spec)
  rw [persistFXPSpec] at h
  generalize scrubFXPSpec u spec = g at h hstored
  dsimp only at h
  split at h
  · exact writes_replace h hx
  · next hgroup =>
    split at h
    · cases h
    · next hidentity =>
      injection h with hops
      rw [← hops] at hx
      injection List.mem_singleton.mp hx with _ hx
      rw [Bool.not_eq_true', Bool.not_eq_false] at hidentity
      obtain ⟨hform, hsingle⟩ := hstored (Bool.eq_false_iff.mpr hgroup) hidentity
      rw [hx, hform]
      exact .single hsingle

theorem Scrubbed.normal {s : FxpSpec} (h : Scrubbed u s) : normalizeFXPSpec u s = s := by
  cases h with
  | single h => exact h.normalize
  | group h => exact h.normalize

theorem removal_replaces {protocol version : String} {e m : FxpEntry} {file : String × Snapshot} (h : Scrubbed u file.2.spec)
    (hact : removalAction u clock protocol version e m file = .replace x) : Scrubbed u x.spec := by
  rw [removalAction, h.normal] at hact
  generalize file.2.spec = s at h hact
  dsimp only at hact
  by_cases hgroup : isFXPEntryGroup u s.toFxpEntry = true
  · rw [if_pos hgroup] at hact
    split at hact
    · cases hact
    · split at hact
      · cases hact
      · next hne =>
        injection hact with hx
        rw [← hx]
        cases h with
        | single h =>
          -- a single spec has no members to lose
          have hnot := h.not_group
          rw [hgroup] at hnot
          cases hnot
        | group h =>
          have hleft := h.sublist (List.filter_sublist (p := fun member => !fxpRemovalMatchesEntry u m member))
            fun hnil => hne (List.isEmpty_iff.mpr hnil)
          rw [hleft.scrub]
          exact .group hleft
  · rw [if_neg hgroup] at hact
    repeat' split at hact
    all_goals cases hact

theorem writes_standalone (hkept : Kept u d) (hx : Op.write name x ∈ removeStandalone u clock d spec) : Scrubbed u x.spec := by
  rw [removeStandalone] at hx
  dsimp only at hx
  rcases List.mem_append.mp hx with hx | hx
  · split at hx
    · cases List.mem_singleton.mp hx
    · cases hx
  · obtain ⟨file, hfile, hact⟩ := mem_sweep_write hx
    obtain ⟨hmem, hname⟩ := List.mem_filter.mp hfile
    -- the sweep reads the directory that the first removal leaves
    refine removal_replaces (forall_run (fun name x hx => ?_) hkept file (Dir.mem_readDir.mp hmem) hname) hact
    split at hx
    · cases List.mem_singleton.mp hx
    · cases hx

theorem kept_run {ops : List (Op Snapshot)} (hkept : Kept u d) (hops : ∀ name x, Op.write name x ∈ ops → Scrubbed u x.spec) :
    Kept u (run ops d) :=
  forall_run (fun name x hx _ => hops name x hx) hkept

theorem writes_members (hkept : Kept u d) {entries : List FxpEntry} (hx : Op.write name x ∈ removeMembers u clock d entries) :
    Scrubbed u x.spec := by
  induction entries generalizing d with
  | nil => cases hx
  | cons entry entries ih =>
    rcases List.mem_append.mp hx with hx | hx
    · exact writes_standalone hkept hx
    · exact ih (kept_run hkept fun _ _ hx => writes_standalone hkept hx) hx

theorem writes_remove (hkept : Kept u d) (hx : Op.write name x ∈ removePersistedFXPSpec u clock d spec) : Scrubbed u x.spec := by
  rw [removePersistedFXPSpec] at hx
  dsimp only at hx
  split at hx
  · rcases List.mem_cons.mp hx with hx | hx
    · cases hx
    · refine writes_members (fun file hfile => ?_) hx
      exact hkept file (Dir.mem_remove.mp hfile).1
  · exact writes_standalone hkept hx

/-! ## Runs -/

/-- A call, with the times of the files that it writes. -/
inductive Call
  | persist (clock : String → Int) (spec : FxpSpec)
  | remove (clock : String → Int) (spec : FxpSpec)

/-- The operations of a call; one that is refused has none. -/
def Call.ops (u : Unicode) (d : Dir Snapshot) : Call → List (Op Snapshot)
  | .persist clock spec => (persistFXPSpec u clock d spec).toOption.getD []
  | .remove clock spec => removePersistedFXPSpec u clock d spec

def attempt (u : Unicode) (d : Dir Snapshot) (c : Call × Nat) : Dir Snapshot := run ((c.1.ops u d).take c.2) d

/-- Whatever calls are made, and wherever each stops: a snapshot is as scrubbing leaves it, and neither a spec of its own
nor a member of a group has credentials. -/
theorem snapshots_stay_scrubbed (hkept : Kept u d) (calls : List (Call × Nat)) :
    ∀ file ∈ calls.foldl (attempt u) d, isSnapshotName file.1 = true → scrubFXPSpec u file.2.spec = file.2.spec ∧
      (isFXPEntryGroup u file.2.spec.toFxpEntry = false → file.2.spec.PanelURL = "" ∧ file.2.spec.Token = "") ∧
      ∀ member ∈ file.2.spec.Entries, member.PanelURL = "" ∧ member.Token = "" := by
  induction calls generalizing d with
  | nil =>
    intro file hfile hname
    have hs := hkept file hfile hname
    refine ⟨hs.fixed, ?_⟩
    generalize file.2.spec = s at hs
    cases hs with
    | single h => exact ⟨fun _ => no_credentials h.scrubbed, fun member hmember => by cases hmember⟩
    | group h =>
      refine ⟨fun hnot => ?_, fun member hmember => no_credentials (h.scrubbed member hmember)⟩
      rw [h.group] at hnot
      cases hnot
  | cons c calls ih =>
    refine ih (kept_run hkept fun name x hx => ?_)
    have hmem := List.mem_of_mem_take hx
    obtain ⟨call, k⟩ := c
    cases call with
    | persist clock spec =>
      cases hops : persistFXPSpec u clock d spec with
      | error err =>
        rw [Call.ops, hops] at hmem
        cases hmem
      | ok ops =>
        rw [Call.ops, hops] at hmem
        exact writes_persist hops hmem
    | remove clock spec =>
      rw [Call.ops] at hmem
      exact writes_remove hkept hmem

/-! ## Loading -/

def FromFile (u : Unicode) (c : String × Snapshot × String) (file : String × Snapshot) : Prop :=
  c.2.1 = file.2 ∧ isFXPEntryGroup u file.2.spec.toFxpEntry = true ∧ file.2.spec.Entries ≠ []

theorem of_mem_addCandidate {groups : List (String × Snapshot × String)} {file : String × Snapshot}
    {c : String × Snapshot × String} (hc : c ∈ addCandidate u groups file) : c ∈ groups ∨ FromFile u c file := by
  unfold addCandidate at hc
  dsimp only at hc
  by_cases hskip : (!isFXPEntryGroup u file.2.spec.toFxpEntry || file.2.spec.Entries.isEmpty) = true
  · rw [if_pos hskip] at hc
    exact Or.inl hc
  · rw [if_neg hskip] at hc
    rw [Bool.or_eq_true, not_or, Bool.not_eq_true', Bool.not_eq_false] at hskip
    have hnew : ∀ {key : String}, c ∈ Assoc.assign groups key (file.2, file.1) → c ∈ groups ∨ FromFile u c file := by
      intro key hmem
      rcases Assoc.of_mem_assign hmem with rfl | hold
      · exact Or.inr ⟨rfl, hskip.1, fun hnil => hskip.2 (List.isEmpty_iff.mpr hnil)⟩
      · exact Or.inl hold
    split at hc
    · exact hnew hc
    · split at hc
      · exact hnew hc
      · exact Or.inl hc

theorem mem_candidates {files : List (String × Snapshot)} {groups : List (String × Snapshot × String)}
    {c : String × Snapshot × String} (hc : c ∈ files.foldl (addCandidate u) groups) :
    c ∈ groups ∨ ∃ file ∈ files, FromFile u c file := by
  induction files generalizing groups with
  | nil => exact Or.inl hc
  | cons file files ih =>
    rw [List.foldl_cons] at hc
    rcases ih hc with hadded | ⟨later, hlater, hfrom⟩
    · exact (of_mem_addCandidate hadded).imp_right fun hfrom => ⟨file, List.mem_cons_self, hfrom⟩
    · exact Or.inr ⟨later, List.mem_cons_of_mem _ hlater, hfrom⟩

theorem loadedSpecs_scrubbed {order : MapOrder} {e : FxpEntry} (he : e ∈ loadedSpecs u d order) : scrubSingle u e = e := by
  unfold loadedSpecs at he
  dsimp only at he
  rcases List.mem_append.mp he with hsingle | hmember
  · obtain ⟨s, hs, rfl⟩ := List.mem_map.mp (List.mem_filter.mp hsingle).1
    obtain ⟨hfile, hkind⟩ := List.mem_filter.mp hs
    obtain ⟨scrubbed, hscrubbed, hs⟩ := List.mem_map.mp hfile
    obtain ⟨file, -, hspec⟩ := List.mem_map.mp hscrubbed
    have hscrub : s = scrubFXPSpec u file.2.spec := by rw [← hs, ← hspec]
    rw [hscrub, Bool.and_eq_true, Bool.not_eq_true'] at hkind
    obtain ⟨hform, hstored⟩ := storedSingle_scrub hkind.1 hkind.2
    rw [hscrub, hform]
    exact hstored.scrubbed
  · obtain ⟨candidate, hcandidate, hentry⟩ := List.mem_flatMap.mp hmember
    obtain hnone | ⟨scrubbed, hscrubbed, hspec, hgroup, hne⟩ := mem_candidates ((order.groups_perm _).mem_iff.mp hcandidate)
    · cases hnone
    · obtain ⟨file, -, hread⟩ := List.mem_map.mp hscrubbed
      have hscrub : scrubbed.2.spec = scrubFXPSpec u file.2.spec := by rw [← hread]
      rw [hspec, hscrub] at hentry
      rw [hscrub] at hgroup hne
      exact (storedGroup_scrub hgroup hne).scrubbed e (List.mem_filter.mp hentry).1

theorem mem_byID {specs : List FxpEntry} {byID : List (String × FxpEntry)} {e : String × FxpEntry}
    (he : e ∈ specs.foldl (fun byID spec => Assoc.assign byID (fxpServerID u spec) spec) byID) :
    e ∈ byID ∨ e.2 ∈ specs := by
  induction specs generalizing byID with
  | nil => exact Or.inl he
  | cons spec specs ih =>
    rw [List.foldl_cons] at he
    rcases ih he with hassigned | hlater
    · rcases Assoc.of_mem_assign hassigned with rfl | hold
      · exact Or.inr List.mem_cons_self
      · exact Or.inl hold
    · exact Or.inr (List.mem_cons_of_mem _ hlater)

/-- Whatever the files hold, what is loaded has no credentials and is as scrubbing leaves it. -/
theorem loadPersistedFXPSpecs_scrubbed {order : MapOrder} {e : FxpEntry} (he : e ∈ loadPersistedFXPSpecs u d order) :
    scrubSingle u e = e := by
  unfold loadPersistedFXPSpecs at he
  dsimp only at he
  rw [List.mem_insertionSort, (order.specs_perm _).mem_iff] at he
  obtain ⟨pair, hpair, rfl⟩ := List.mem_map.mp he
  rcases mem_byID hpair with hnone | hspec
  · cases hnone
  · exact loadedSpecs_scrubbed hspec

/-- A batch folds plainly over what is loaded exactly where nothing is skipped. -/
theorem loaded_folds_plainly_iff (order : MapOrder) (actions : List Action) :
    FoldsPlainly u (loadPersistedFXPSpecs u d order) actions ↔
      NothingSkipped u (loadPersistedFXPSpecs u d order) actions := by
  have hnormal : ∀ p ∈ loadPersistedFXPSpecs u d order, normalizeSingle u p = p := fun p hp =>
    normal_of_scrubbed (loadPersistedFXPSpecs_scrubbed hp)
  exact ⟨fun h => h.nothingSkipped hnormal, fun h => h.foldsPlainly hnormal⟩

end

/-- A group of two rules and an exit, all with credentials. -/
def tokenedGroup : FxpSpec :=
  { Role := "entry-group", TransportVersion := "v1", TunnelID := 5
    Entries := [{ plainMember 1 8443 with PanelURL := "https://panel.example", Token := "t" },
      { plainMember 2 8444 with Token := "t" }] }

def tokenedExit : FxpSpec := { Role := "exit", TunnelID := 7, ListenPort := 8443, Key := "k", Token := "t" }

/-- Both are persisted, the group loses its first rule, and the removal of the exit stops at once. -/
def snapshotCalls : List (Call × Nat) :=
  [(.persist (fun _ => 0) tokenedExit, 1), (.persist (fun _ => 1) tokenedGroup, 2),
    (.remove (fun _ => 2) { Role := "entry", TunnelID := 5, RuleID := 1 }, 3), (.remove (fun _ => 3) tokenedExit, 0)]

theorem group_stays_scrubbed : ∃ exit group : FxpSpec,
    (snapshotCalls.foldl (attempt asciiUnicode) ⟨[], List.nodup_nil⟩).files.map (fun file => file.2.spec) = [exit, group] ∧
    exit.Token = "" ∧ group.Entries.map FxpEntry.RuleID = [2] ∧
    ∀ member ∈ group.Entries, member.PanelURL = "" ∧ member.Token = "" := by
  have hkept : Kept asciiUnicode ⟨[], List.nodup_nil⟩ := fun _ hnone => by cases hnone
  have hscrubbed := snapshots_stay_scrubbed hkept snapshotCalls
  have hfiles : (snapshotCalls.foldl (attempt asciiUnicode) ⟨[], List.nodup_nil⟩).files.length = 2 := by decide +kernel
  have hnames : ∀ file ∈ (snapshotCalls.foldl (attempt asciiUnicode) ⟨[], List.nodup_nil⟩).files,
      isSnapshotName file.1 = true := by decide +kernel
  have hmembers : (snapshotCalls.foldl (attempt asciiUnicode) ⟨[], List.nodup_nil⟩).files.map
      (fun file => (isFXPEntryGroup asciiUnicode file.2.spec.toFxpEntry, file.2.spec.Entries.map FxpEntry.RuleID)) =
        [(false, []), (true, [2])] := by decide +kernel
  generalize snapshotCalls.foldl (attempt asciiUnicode) ⟨[], List.nodup_nil⟩ = d at hscrubbed hfiles hnames hmembers ⊢
  obtain ⟨exit, group, hd⟩ := List.length_eq_two.mp hfiles
  have hmem : ∀ file ∈ [exit, group], file ∈ d := fun file hfile => by
    rw [← hd] at hfile
    exact hfile
  rw [hd] at hmembers hnames ⊢
  simp only [List.map_cons, List.map_nil, List.cons.injEq, Prod.mk.injEq, and_true] at hmembers
  obtain ⟨⟨hsingle, -⟩, -, hrules⟩ := hmembers
  have hexit := hscrubbed exit (hmem exit (by simp)) (hnames exit (by simp))
  have hgroup := hscrubbed group (hmem group (by simp)) (hnames group (by simp))
  exact ⟨exit.2.spec, group.2.spec, rfl, (hexit.2.1 hsingle).2, hrules, hgroup.2.2⟩

end ForwardX.Agent.EntryGroups
