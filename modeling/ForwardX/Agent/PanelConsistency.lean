import ForwardX.Lib.Trim
import ForwardX.Agent.PanelMigration

/- On which panel the agent is, by its config file and by its runtime (`panel_migration.go`).

   The fields of a migration are written under the lock together with the runtime's own, so
   file and runtime always agree on them (`Recorded`). The panel URL of the file is written
   under the lock and the runtime URL is switched after it: a call that lies in between has
   its target `pending`. File and runtime agree on the panel when no call is pending as long
   as whoever writes the file agrees with the pending calls (`Settled`, `Orderly`); two calls
   that pass each other leave them apart (`migration_leaves_panels_apart`). -/
namespace ForwardX.Agent.Migration

open Transition Status

variable {Url : Type}

/-- The URL that a call has written to the file and has still to switch to. -/
def Call.pending : Call Url → Option Url
  | .switch target _ => some target
  | .restored target _ => some target
  | _ => none

def Clear (s : State Url) (url : Url) : Prop := ∀ c ∈ s.calls, ∀ u ∈ c.pending, u = url

def Arrives (s : State Url) (url : Url) : Prop := s.url = url ∨ ∃ c ∈ s.calls, c.pending = some url

/-- The file has a migration with a trimmed id and a fallback, or none. -/
def File.WellFormed (f : File Url) : Prop :=
  (f.migrationFallbackPanelUrl = none ∧ f.panelMigrationId = none) ∨
  (f.migrationFallbackPanelUrl.isSome ∧ ∃ id ∈ f.panelMigrationId, id ≠ "" ∧ trimSpace id = id)

/-! ### Trimmed texts -/

theorem trimSpace_trimSpace (text : String) : trimSpace (trimSpace text) = trimSpace text := by
  change String.ofList (Trim.trim isSpace (String.ofList (Trim.trim isSpace text.toList)).toList) =
    String.ofList (Trim.trim isSpace text.toList)
  rw [String.toList_ofList, Trim.trim_trim]

/-! ### Calls in progress -/

variable {calls : List (Call Url)} {c : Call Url} {i : Nat}

theorem mem_putBack {next : Option (Call Url)} (h : c ∈ putBack calls i next) : c ∈ calls ∨ next = some c := by
  cases next with
  | none => exact Or.inl (List.mem_of_mem_eraseIdx h)
  | some c' =>
    rcases List.mem_or_eq_of_mem_set h with h | h
    · exact Or.inl h
    · exact Or.inr (congrArg some h.symm)

theorem mem_putBack_of_ne {c c' : Call Url} (next : Option (Call Url)) (hc : calls[i]? = some c) (h : c' ∈ calls) :
    c' = c ∨ c' ∈ putBack calls i next := by
  obtain ⟨j, hj⟩ := List.mem_iff_getElem?.mp h
  by_cases hij : j = i
  · subst hij
    exact Or.inl (Option.some.inj (hj.symm.trans hc))
  · refine Or.inr ?_
    cases next with
    | none => exact List.mem_eraseIdx_iff_getElem?.mpr ⟨j, hij, hj⟩
    | some c'' =>
      apply List.mem_of_getElem?
      rw [putBack, List.getElem?_set_ne (Ne.symm hij)]
      exact hj

theorem mem_putBack_self {c next : Call Url} (hc : calls[i]? = some c) : next ∈ putBack calls i (some next) := by
  obtain ⟨hi, -⟩ := List.getElem?_eq_some_iff.mp hc
  exact List.mem_set hi next

/-! ### What the file records -/

/-- The file has the migration of the runtime if one is active, and none otherwise. -/
structure Recorded (f : File Url) (rt : Runtime Url) : Prop where
  fallback : f.migrationFallbackPanelUrl = if rt.active then rt.fallback else none
  id : f.panelMigrationId = if rt.active then some rt.id else none
  present : rt.active → rt.fallback.isSome ∧ rt.id ≠ "" ∧ trimSpace rt.id = rt.id

theorem Recorded.wellFormed {f : File Url} {rt : Runtime Url} (h : Recorded f rt) : f.WellFormed := by
  cases hactive : rt.active with
  | false =>
    left
    rw [h.fallback, h.id, hactive]
    exact ⟨rfl, rfl⟩
  | true =>
    obtain ⟨hfallback, hid, htrim⟩ := h.present hactive
    right
    rw [h.fallback, h.id, hactive]
    exact ⟨hfallback, rt.id, rfl, hid, htrim⟩

theorem recorded_initialize {f : File Url} (h : f.WellFormed) (now : Int) :
    Recorded f (initializePanelMigration f now) := by
  rcases h with ⟨hfallback, hid⟩ | ⟨hfallback, id, hid, hne, htrim⟩
  · constructor <;> simp [initializePanelMigration, hfallback, hid]
  · have hid : f.panelMigrationId = some id := hid
    constructor <;> simp [initializePanelMigration, hfallback, hid, hne, htrim]

theorem recorded_terminate (url : Url) (rt : Runtime Url) (id : String) :
    Recorded (File.cleared url) (rt.terminate id) := by
  constructor <;> simp [File.cleared, Runtime.terminate]

def Named (calls : List (Call Url)) : Prop :=
  ∀ d target current, Call.prepare d target current ∈ calls → trimSpace d.id ≠ ""

variable [DecidableEq Url] {env : Env Url}

variable (env) in
/-- A section of a preparing directive does nothing, knows the migration, or writes it. -/
theorem prepareSection_cases (s : State Url) (d : Directive) (target current : Url) (m : Meets) :
    prepareSection env s d target current m = (s, none) ∨
    ∃ fallback startedAt, prepareFallback env s.runtime d target current = some fallback ∧
      s.runtime.terminalID ≠ trimSpace d.id ∧
      ((alreadyActive s.runtime d target current fallback = true ∧
          prepareSection env s d target current m
            = ({ s with runtime := s.runtime.prepare (trimSpace d.id) fallback startedAt (current ≠ target) },
              if current ≠ target then some (.switch target none) else none)) ∨
        (alreadyActive s.runtime d target current fallback = false ∧ m.written = true ∧
          prepareSection env s d target current m
            = ({ s with
                  file := File.prepared target fallback (trimSpace d.id) startedAt
                  runtime := s.runtime.prepare (trimSpace d.id) fallback startedAt (current ≠ target) },
              if current ≠ target then some (.switch target none) else none))) := by
  unfold prepareSection
  by_cases hterminal : s.runtime.terminalID = trimSpace d.id
  · exact Or.inl (if_pos hterminal)
  rw [if_neg hterminal]
  cases hfallback : prepareFallback env s.runtime d target current with
  | none => exact Or.inl rfl
  | some fallback =>
    dsimp only
    cases hknown : alreadyActive s.runtime d target current fallback with
    | true =>
      refine Or.inr ⟨fallback, prepareStartedAt s.runtime d m.now, rfl, hterminal, Or.inl ⟨hknown, ?_⟩⟩
      rw [if_neg (fun h => Bool.noConfusion h.1)]
      rfl
    | false =>
      cases hwritten : m.written with
      | false => exact Or.inl (if_pos ⟨rfl, rfl⟩)
      | true =>
        refine Or.inr ⟨fallback, prepareStartedAt s.runtime d m.now, rfl, hterminal, Or.inr ⟨hknown, rfl, ?_⟩⟩
        rw [if_neg (fun h => Bool.noConfusion h.2)]
        rfl

variable {s : State Url}

theorem readDirective_named {d d' : Directive} {target current : Url}
    (h : readDirective env s d = some (.prepare d' target current)) : trimSpace d'.id ≠ "" := by
  unfold readDirective at h
  dsimp only at h
  split at h
  · cases h
  · rename_i hid
    split at h
    · obtain ⟨rfl, -, -⟩ := Call.prepare.inj (Option.some.inj h)
      exact fun hnil => hid (Or.inl hnil)
    · split at h <;> cases h

theorem Recorded.callStep (h : Recorded s.file s.runtime) (c : Call Url) (m : Meets)
    (hnamed : ∀ d target current, c = .prepare d target current → trimSpace d.id ≠ "") :
    Recorded (callStep env s c m).1.file (callStep env s c m).1.runtime := by
  cases c with
  | prepare d target current =>
    have hname := hnamed d target current rfl
    unfold Migration.callStep
    dsimp only
    rcases prepareSection_cases env s d target current m with
      hskip | ⟨fallback, startedAt, hfallback, hterminal, ⟨hknown, hstep⟩ | ⟨hknown, hwritten, hstep⟩⟩
    · rw [hskip]
      exact h
    · rw [hstep]
      simp only [alreadyActive, Bool.and_eq_true, decide_eq_true_eq] at hknown
      obtain ⟨⟨⟨hactive, hid⟩, hsame⟩, -⟩ := hknown
      refine ⟨?_, ?_, fun _ => ⟨rfl, hname, trimSpace_trimSpace d.id⟩⟩
      · rw [h.fallback, if_pos hactive, hsame]
        rfl
      · rw [h.id, if_pos hactive, hid]
        rfl
    · rw [hstep]
      exact ⟨rfl, rfl, fun _ => ⟨rfl, hname, trimSpace_trimSpace d.id⟩⟩
  | commit target id =>
    unfold Migration.callStep
    dsimp only
    split
    · exact h
    · exact recorded_terminate target s.runtime _
  | fallback =>
    unfold Migration.callStep
    dsimp only
    split
    · exact h
    · exact recorded_terminate _ s.runtime _
  | clear =>
    unfold Migration.callStep
    dsimp only
    split
    · exact h
    · exact recorded_terminate s.url s.runtime _
  | failure =>
    unfold Migration.callStep failureSection
    dsimp only
    split
    · exact h
    · exact ⟨h.fallback, h.id, h.present⟩
  | _ => exact h

/-! ### Which panel -/

/-- A call that would write the file agrees with the calls that have still to switch; one that
keeps the URL it has read finds it in force. -/
def CallOrderly (env : Env Url) (s : State Url) (c : Call Url) : Prop :=
  match c with
  | .prepare d target current =>
    s.runtime.terminalID = trimSpace d.id ∨
    (∀ fallback ∈ prepareFallback env s.runtime d target current,
      alreadyActive s.runtime d target current fallback = true) ∨
    (Clear s target ∧ (current = target → Arrives s target))
  | .commit target _ => Clear s target
  | .fallback => s.runtime.active = true → ∀ target ∈ s.runtime.fallback, Clear s target
  | .clear => s.runtime.active = true → Clear s s.url
  | _ => True

instance (s : State Url) (url : Url) : Decidable (Clear s url) :=
  inferInstanceAs (Decidable (∀ c ∈ s.calls, ∀ u ∈ c.pending, u = url))

instance (s : State Url) (url : Url) : Decidable (Arrives s url) :=
  inferInstanceAs (Decidable (s.url = url ∨ ∃ c ∈ s.calls, c.pending = some url))

instance (env : Env Url) (s : State Url) (c : Call Url) : Decidable (CallOrderly env s c) :=
  match c with
  | .prepare d target current => inferInstanceAs (Decidable (s.runtime.terminalID = trimSpace d.id ∨
      (∀ fallback ∈ prepareFallback env s.runtime d target current,
        alreadyActive s.runtime d target current fallback = true) ∨
      (Clear s target ∧ (current = target → Arrives s target))))
  | .commit target _ => inferInstanceAs (Decidable (Clear s target))
  | .fallback => inferInstanceAs (Decidable (s.runtime.active = true → ∀ target ∈ s.runtime.fallback, Clear s target))
  | .clear => inferInstanceAs (Decidable (s.runtime.active = true → Clear s s.url))
  | .directive _ | .compare _ _ | .committed _ _ | .restored _ _ | .switch _ _ | .report _ | .failure =>
    inferInstanceAs (Decidable True)

def Orderly (env : Env Url) (s : State Url) (a : Act) : Prop :=
  match a with
  | .advance i m => m.written = true → ∀ c ∈ s.calls[i]?, CallOrderly env s c
  | _ => True

instance (env : Env Url) (s : State Url) (a : Act) : Decidable (Orderly env s a) :=
  match a with
  | .advance i m => inferInstanceAs (Decidable (m.written = true → ∀ c ∈ s.calls[i]?, CallOrderly env s c))
  | .directive _ | .heartbeatFailure | .redirect _ | .heartbeatSuccess | .stream _ | .restart _ =>
    inferInstanceAs (Decidable True)

/-- The calls that have still to switch will switch to the panel of the file, and if there is
none the runtime is on it. -/
structure Settled (s : State Url) : Prop where
  pending : Clear s s.file.panelUrl
  quiet : (∀ c ∈ s.calls, c.pending = none) → s.url = s.file.panelUrl

section
omit [DecidableEq Url]
variable {s t : State Url} {i : Nat} {c : Call Url} {next : Option (Call Url)}

theorem Settled.append (h : Settled s) {more : List (Call Url)} (hmore : ∀ c ∈ more, c.pending = none) :
    Settled { s with calls := s.calls ++ more } where
  pending := by
    intro c hc u hu
    rcases List.mem_append.mp hc with hc | hc
    · exact h.pending c hc u hu
    · rw [hmore c hc] at hu
      cases hu
  quiet := fun hquiet => h.quiet fun c hc => hquiet c (List.mem_append_left more hc)

/-- A step that touches neither URL and leaves the call as pending as it was. -/
theorem Settled.silent (h : Settled s) (hc : s.calls[i]? = some c) (hpending : next.bind Call.pending = c.pending)
    (hfile : t.file.panelUrl = s.file.panelUrl) (hurl : t.url = s.url) :
    Settled { t with calls := putBack s.calls i next } where
  pending := by
    intro c' hc' u hu
    show u = t.file.panelUrl
    rw [hfile]
    rcases mem_putBack hc' with hc' | rfl
    · exact h.pending c' hc' u hu
    · exact h.pending c (List.mem_of_getElem? hc) u (hpending ▸ hu)
  quiet := by
    intro hquiet
    show t.url = t.file.panelUrl
    rw [hfile, hurl]
    apply h.quiet
    intro c' hc'
    rcases mem_putBack_of_ne next hc hc' with rfl | hc'
    · rw [← hpending]
      cases next with
      | none => rfl
      | some n => exact hquiet n (mem_putBack_self hc)
    · exact hquiet c' hc'

theorem Settled.arrive (h : Settled s) (hpending : next.bind Call.pending = none)
    (hfile : t.file.panelUrl = s.file.panelUrl) (hurl : t.url = s.file.panelUrl) :
    Settled { t with calls := putBack s.calls i next } where
  pending := by
    intro c' hc' u hu
    show u = t.file.panelUrl
    rw [hfile]
    rcases mem_putBack hc' with hc' | rfl
    · exact h.pending c' hc' u hu
    · rw [Option.bind_some] at hpending
      rw [hpending] at hu
      cases hu
  quiet := fun _ => hurl.trans hfile.symm

theorem Settled.write {n : Call Url} (hc : s.calls[i]? = some c) (hclear : Clear s t.file.panelUrl)
    (hpending : n.pending = some t.file.panelUrl) :
    Settled { t with calls := putBack s.calls i (some n) } where
  pending := by
    intro c' (hc' : c' ∈ putBack s.calls i (some n)) u hu
    rcases mem_putBack hc' with hc' | heq
    · exact hclear c' hc' u hu
    · obtain rfl := Option.some.inj heq
      exact (Option.some.inj (hpending.symm.trans hu)).symm
  quiet := by
    intro hquiet
    have hnone := hquiet n (mem_putBack_self hc)
    rw [hpending] at hnone
    cases hnone

theorem Settled.confirm (hc : s.calls[i]? = some c) (hclear : Clear s t.file.panelUrl)
    (harrives : Arrives s t.file.panelUrl) (hpending : c.pending = none) (hurl : t.url = s.url) :
    Settled { t with calls := putBack s.calls i none } where
  pending := by
    intro c' (hc' : c' ∈ putBack s.calls i none) u hu
    rcases mem_putBack hc' with hc' | heq
    · exact hclear c' hc' u hu
    · cases heq
  quiet := by
    intro hquiet
    show t.url = t.file.panelUrl
    rw [hurl]
    rcases harrives with harrived | ⟨c', hc', hcoming⟩
    · exact harrived
    · rcases mem_putBack_of_ne none hc hc' with rfl | hc'
      · rw [hpending] at hcoming
        cases hcoming
      · have hnone := hquiet c' hc'
        rw [hcoming] at hnone
        cases hnone

end

theorem readDirective_pending (s : State Url) (d : Directive) :
    (readDirective env s d).bind Call.pending = none := by
  unfold readDirective
  dsimp only
  split
  · rfl
  · split
    · rfl
    · split <;> rfl

theorem Settled.callStep (h : Settled s) (hc : s.calls[i]? = some c) {m : Meets}
    (horder : m.written = true → CallOrderly env s c) :
    Settled { (callStep env s c m).1 with calls := putBack s.calls i (callStep env s c m).2 } := by
  have hmem := List.mem_of_getElem? hc
  cases c with
  | directive d => exact h.silent hc (readDirective_pending s d) rfl rfl
  | prepare d target current =>
    unfold Migration.callStep
    dsimp only
    rcases prepareSection_cases env s d target current m with
      hskip | ⟨fallback, startedAt, hfallback, hterminal, ⟨hknown, hstep⟩ | ⟨hknown, hwritten, hstep⟩⟩
    · rw [hskip]
      exact h.silent hc rfl rfl rfl
    · have hcurrent : current = target := by
        simp only [alreadyActive, Bool.and_eq_true, decide_eq_true_eq] at hknown
        exact hknown.2
      rw [hstep, if_neg (not_not_intro hcurrent)]
      exact h.silent hc rfl rfl rfl
    · obtain ⟨hclear, harrives⟩ : Clear s target ∧ (current = target → Arrives s target) := by
        rcases horder hwritten with hdone | hknown' | hfree
        · exact absurd hdone hterminal
        · rw [hknown' fallback hfallback] at hknown
          cases hknown
        · exact hfree
      rw [hstep]
      by_cases hcurrent : current = target
      · rw [if_neg (not_not_intro hcurrent)]
        exact Settled.confirm hc hclear (harrives hcurrent) rfl rfl
      · rw [if_pos hcurrent]
        exact Settled.write hc hclear rfl
  | compare id state =>
    refine h.silent hc ?_ rfl rfl
    unfold Migration.callStep
    dsimp only
    split
    · split
      · rfl
      · split <;> rfl
    · rfl
  | committed target id =>
    refine h.silent hc ?_ rfl rfl
    unfold Migration.callStep
    dsimp only
    split <;> rfl
  | commit target id =>
    unfold Migration.callStep
    dsimp only
    split
    · exact h.silent hc rfl rfl rfl
    · rename_i hwritten
      exact Settled.write hc (horder ((Bool.not_eq_false m.written).mp hwritten)) rfl
  | fallback =>
    unfold Migration.callStep
    dsimp only
    split
    · exact h.silent hc rfl rfl rfl
    · rename_i target htarget
      obtain ⟨hfallback, hboth⟩ := Option.filter_eq_some_iff.mp htarget
      obtain ⟨hactive, hwritten⟩ := Bool.and_eq_true_iff.mp hboth
      exact Settled.write hc (horder hwritten hactive target hfallback) rfl
  | restored target id =>
    have htarget := h.pending _ hmem target rfl
    unfold Migration.callStep
    dsimp only
    split
    · rename_i hurl
      exact h.arrive rfl rfl (hurl.symm.trans htarget)
    · exact h.silent hc rfl rfl rfl
  | switch target rollback =>
    have htarget := h.pending _ hmem target rfl
    refine h.arrive ?_ rfl htarget
    unfold Migration.callStep
    cases rollback <;> rfl
  | clear =>
    unfold Migration.callStep
    dsimp only
    split
    · exact h.silent hc rfl rfl rfl
    · rename_i hboth
      rw [not_or, Bool.not_eq_false, Bool.not_eq_false] at hboth
      exact Settled.confirm hc (horder hboth.2 hboth.1) (Or.inl rfl) rfl rfl
  | report id =>
    refine h.silent hc ?_ rfl rfl
    unfold Migration.callStep
    dsimp only
    cases m.migrated.bind env.normalizePanelURL <;> rfl
  | failure =>
    unfold Migration.callStep failureSection
    dsimp only
    split
    · exact h.silent hc rfl rfl rfl
    · refine h.silent hc ?_ rfl rfl
      split <;> rfl

/-! ### Runs -/

theorem callStep_named {m : Meets} {d : Directive} {target current : Url}
    (h : (callStep env s c m).2 = some (.prepare d target current)) : trimSpace d.id ≠ "" := by
  cases c with
  | directive d' => exact readDirective_named h
  | prepare d' target' current' =>
    exfalso
    unfold Migration.callStep at h
    dsimp only at h
    rcases prepareSection_cases env s d' target' current' m with
      hskip | ⟨fallback, startedAt, -, -, ⟨-, hstep⟩ | ⟨-, -, hstep⟩⟩
    · rw [hskip] at h
      cases h
    · rw [hstep] at h
      split at h <;> cases h
    · rw [hstep] at h
      split at h <;> cases h
  | compare id state =>
    unfold Migration.callStep at h
    dsimp only at h
    split at h
    · split at h
      · cases h
      · split at h <;> cases h
    · cases h
  | switch target' rollback => cases rollback <;> cases h
  | report id =>
    obtain ⟨_, -, heq⟩ := Option.map_eq_some_iff.mp h
    cases heq
  | failure =>
    unfold Migration.callStep failureSection at h
    dsimp only at h
    split at h
    · cases h
    · dsimp only at h
      split at h <;> cases h
  | _ =>
    unfold Migration.callStep at h
    dsimp only at h
    split at h <;> cases h

/-- The part of the invariant that every run keeps. -/
structure FileInv (s : State Url) : Prop where
  recorded : Recorded s.file s.runtime
  named : Named s.calls

omit [DecidableEq Url] in
theorem Named.append {calls more : List (Call Url)} (h : Named calls)
    (hmore : ∀ d target current, Call.prepare d target current ∉ more) : Named (calls ++ more) := by
  intro d target current hmem
  rcases List.mem_append.mp hmem with hmem | hmem
  · exact h d target current hmem
  · exact absurd hmem (hmore d target current)

omit [DecidableEq Url] in
theorem fileInv_start {f : File Url} (hf : f.WellFormed) (now : Int) : FileInv (State.start f now) where
  recorded := recorded_initialize hf now
  named := fun _ _ _ h => absurd h List.not_mem_nil

theorem FileInv.step {s s' : State Url} {a : Act} (h : FileInv s) (hstep : steps env s a s') : FileInv s' := by
  cases a with
  | directive d =>
    obtain rfl := Option.some.inj hstep
    exact ⟨h.recorded, h.named.append (by simp)⟩
  | heartbeatFailure =>
    obtain rfl := Option.some.inj hstep
    exact ⟨h.recorded, h.named.append (by simp)⟩
  | redirect panelURL =>
    obtain rfl := Option.some.inj hstep
    refine ⟨h.recorded, h.named.append ?_⟩
    cases env.normalizePanelURL panelURL <;> simp
  | heartbeatSuccess =>
    obtain rfl := Option.some.inj hstep
    exact ⟨⟨h.recorded.fallback, h.recorded.id, h.recorded.present⟩, h.named⟩
  | stream connected =>
    obtain rfl := Option.some.inj hstep
    exact ⟨⟨h.recorded.fallback, h.recorded.id, h.recorded.present⟩, h.named⟩
  | restart now =>
    obtain rfl := Option.some.inj hstep
    exact fileInv_start h.recorded.wellFormed now
  | advance i m =>
    obtain ⟨c, hc, rfl⟩ := Option.map_eq_some_iff.mp hstep
    refine ⟨h.recorded.callStep c m fun d target current heq => ?_, fun d target current hmem => ?_⟩
    · exact h.named d target current (heq ▸ List.mem_of_getElem? hc)
    · rcases mem_putBack hmem with hmem | hnext
      · exact h.named d target current hmem
      · exact callStep_named hnext

theorem Settled.step {s s' : State Url} {a : Act} (h : Settled s)
    (hstep : Guarded (Orderly env) (steps env) s a s') : Settled s' := by
  obtain ⟨horder, hstep⟩ := hstep
  cases a with
  | directive d =>
    obtain rfl := Option.some.inj hstep
    exact h.append fun c hc => List.mem_singleton.mp hc ▸ rfl
  | heartbeatFailure =>
    obtain rfl := Option.some.inj hstep
    exact h.append fun c hc => List.mem_singleton.mp hc ▸ rfl
  | redirect panelURL =>
    obtain rfl := Option.some.inj hstep
    refine h.append fun c hc => ?_
    obtain ⟨target, -, rfl⟩ := Option.map_eq_some_iff.mp (Option.mem_toList.mp hc)
    rfl
  | heartbeatSuccess =>
    obtain rfl := Option.some.inj hstep
    exact ⟨h.pending, h.quiet⟩
  | stream connected =>
    obtain rfl := Option.some.inj hstep
    exact ⟨h.pending, h.quiet⟩
  | restart now =>
    obtain rfl := Option.some.inj hstep
    exact ⟨fun _ hc => absurd hc List.not_mem_nil, fun _ => rfl⟩
  | advance i m =>
    obtain ⟨c, hc, rfl⟩ := Option.map_eq_some_iff.mp hstep
    exact h.callStep hc fun hwritten => horder hwritten c hc

/-! ### After a migration ended -/

/-- The migration has ended, and no other one runs. -/
structure Ended (id : String) (s : State Url) : Prop where
  terminal : s.runtime.terminalID = id
  inactive : s.runtime.active = false

/-- No restart, and no section of a directive or redirect of another migration. -/
def SameMigration (id : String) (s : State Url) (a : Act) : Prop :=
  match a with
  | .restart _ => False
  | .advance i _ => ∀ c ∈ s.calls[i]?,
    (∀ d target current, c = .prepare d target current → trimSpace d.id = id) ∧
    (∀ target id', c = .commit target id' → s.runtime.committed id' = id)
  | _ => True

theorem Ended.step {id : String} {s s' : State Url} {a : Act} (h : Ended id s)
    (hstep : Guarded (SameMigration id) (steps env) s a s') : Ended id s' := by
  obtain ⟨hsame, hstep⟩ := hstep
  cases a with
  | restart now => exact hsame.elim
  | advance i m =>
    obtain ⟨c, hc, rfl⟩ := Option.map_eq_some_iff.mp hstep
    obtain ⟨hprepare, hcommit⟩ := hsame c hc
    suffices hdone : Ended id (callStep env s c m).1 from ⟨hdone.terminal, hdone.inactive⟩
    cases c with
    | prepare d target current =>
      have hskip : prepareSection env s d target current m = (s, none) := by
        unfold prepareSection
        exact if_pos (h.terminal.trans (hprepare d target current rfl).symm)
      unfold Migration.callStep
      dsimp only
      rw [hskip]
      exact h
    | commit target id' =>
      unfold Migration.callStep
      dsimp only
      split
      · exact h
      · exact ⟨hcommit target id' rfl, rfl⟩
    | fallback =>
      have hskip : s.runtime.fallback.filter (fun _ => s.runtime.active && m.written) = none := by
        rw [h.inactive]
        cases s.runtime.fallback <;> rfl
      unfold Migration.callStep
      dsimp only
      rw [hskip]
      exact h
    | clear =>
      unfold Migration.callStep
      dsimp only
      rw [if_pos (Or.inl h.inactive)]
      exact h
    | failure =>
      unfold Migration.callStep failureSection
      dsimp only
      rw [if_pos h.inactive]
      exact h
    | switch target rollback => exact ⟨h.terminal, h.inactive⟩
    | _ => exact h
  | _ =>
    obtain rfl := Option.some.inj hstep
    exact ⟨h.terminal, h.inactive⟩

/-! ### The result -/

/-- In a run in which no call writes the file past another one, file and runtime have one panel
whenever no call is in progress. In every state they have one migration, and one that has ended
stays ended until another one starts or the agent does. -/
theorem panels_agree {f : File Url} (hf : f.WellFormed) {now : Int} {acts : List Act} {s : State Url}
    (hrun : Run (Guarded (Orderly env) (steps env)) (State.start f now) acts s) :
    (s.calls = [] → s.file.panelUrl = s.url) ∧
    s.file.migrationFallbackPanelUrl.isSome = s.runtime.active ∧
    s.file.panelMigrationId.isSome = s.runtime.active ∧
    (s.runtime.active = true → s.file.migrationFallbackPanelUrl = s.runtime.fallback ∧
      s.file.panelMigrationId = some s.runtime.id) ∧
    (∀ id more s', s.runtime.terminalID = id → s.runtime.active = false →
      Run (Guarded (SameMigration id) (steps env)) s more s' →
      s'.runtime.active = false ∧ s'.file.migrationFallbackPanelUrl = none ∧ s'.file.panelMigrationId = none) := by
  have hfile : FileInv s :=
    hrun.of_guarded.preserves (fun _ _ _ hstep h => h.step hstep) (fileInv_start hf now)
  have hsettled : Settled s := hrun.preserves (fun _ _ _ hstep h => h.step hstep)
    ⟨fun _ hc => absurd hc List.not_mem_nil, fun _ => rfl⟩
  have hrecorded := hfile.recorded
  refine ⟨fun hcalls => ?_, ?_, ?_, fun hactive => ⟨?_, ?_⟩, fun id more s' hterminal hinactive hmore => ?_⟩
  · refine (hsettled.quiet fun c hc => ?_).symm
    rw [hcalls] at hc
    cases hc
  · rw [hrecorded.fallback]
    cases hactive : s.runtime.active with
    | false => rfl
    | true => exact (hrecorded.present hactive).1
  · rw [hrecorded.id]
    cases s.runtime.active <;> rfl
  · rw [hrecorded.fallback, if_pos hactive]
  · rw [hrecorded.id, if_pos hactive]
  · have hended : Ended id s' := hmore.preserves (fun _ _ _ hstep h => h.step hstep) ⟨hterminal, hinactive⟩
    have hfile' : FileInv s' := hmore.of_guarded.preserves (fun _ _ _ hstep h => h.step hstep) hfile
    refine ⟨hended.inactive, ?_, ?_⟩
    · rw [hfile'.recorded.fallback, hended.inactive]
      rfl
    · rw [hfile'.recorded.id, hended.inactive]
      rfl

/-! ### Two runs -/

def textEnv : Env String where
  normalizePanelURL url := if url = "" then none else some url
  toLower := String.toLower

def onOldPanel : State String := State.start (File.cleared "https://old.example.com") 0

def directiveOf (state : String) : Directive :=
  { id := "m1", state, targetPanelURL := "https://new.example.com",
    fallbackPanelURL := "https://old.example.com", startedAt := 0 }

def go (i : Nat) : Act := .advance i { written := true, now := 1000000000, migrated := none }

/-- The heartbeat loop prepares and has written the file; the presence loop aborts, finds the
runtime still on the old panel and returns; then the heartbeat loop switches. -/
def passing : List Act :=
  [.directive (directiveOf "preparing"), go 0, go 0,
    .directive (directiveOf "aborted"), go 1, go 1, go 1, go 1, go 0]

def queued : List Act :=
  [.directive (directiveOf "preparing"), go 0, go 0, go 0,
    .directive (directiveOf "aborted"), go 0, go 0, go 0, go 0, go 0, go 0]

/-- No call is in progress, and the file says another panel than the runtime is on. -/
def apart (s : State String) : Bool :=
  s.calls = [] && s.file = File.cleared "https://old.example.com" && s.url = "https://new.example.com"
    && !s.runtime.active

/-- Two loops leave the agent on the new panel without a fallback, while its file says the old. -/
theorem migration_leaves_panels_apart : ∃ s, Run (steps textEnv) onOldPanel passing s ∧
    s.calls = [] ∧ s.file.panelUrl ≠ s.url ∧ s.runtime.active = false := by
  have hrun : (exec (step textEnv) onOldPanel passing).any apart = true := by decide +kernel
  obtain ⟨s, hs, htest⟩ := (Option.any_eq_true _ _).mp hrun
  simp only [apart, Bool.and_eq_true, decide_eq_true_eq, Bool.not_eq_true'] at htest
  obtain ⟨⟨⟨hcalls, hfile⟩, hurl⟩, hactive⟩ := htest
  refine ⟨s, exec_run hs, hcalls, ?_, hactive⟩
  rw [hfile, hurl]
  decide

theorem panels_agree_queued : ∃ s, Run (Guarded (Orderly textEnv) (steps textEnv)) onOldPanel queued s ∧
    s.calls = [] ∧ s.url = "https://old.example.com" ∧ s.file.panelUrl = s.url := by
  have hrun : (exec (fun s a => if decide (Orderly textEnv s a) then step textEnv s a else none) onOldPanel
      queued).any (fun s => s.calls = [] && s.url = "https://old.example.com") = true := by decide +kernel
  obtain ⟨s, hs, htest⟩ := (Option.any_eq_true _ _).mp hrun
  rw [Bool.and_eq_true, decide_eq_true_eq, decide_eq_true_eq] at htest
  have hrun := exec_guarded (fun s a => of_decide_eq_true) hs
  exact ⟨s, hrun, htest.1, htest.2, (panels_agree (Or.inl ⟨rfl, rfl⟩) hrun).1 htest.1⟩

end ForwardX.Agent.Migration
