import ForwardX.Fxp.ListenLanes
import ForwardX.Fxp.AdditiveControl

/- What a process with a control endpoint serves, over any calls of `apply` with any answers of
   the system, and any entry runtimes that stop meanwhile (`Inv`). An `apply` that fails leaves
   nothing behind; one that succeeds has added entries or UDP targets, and serves what the new
   configuration says (`additive_apply`). A process of role `exit` serves no entries, whatever
   entries its configuration has (`exit_serves_no_entries`). -/
namespace ForwardX.Fxp.Control
open Transition
open Traffic (isSpace)

/-! ## Tables and heaps -/

theorem register_spec (runtimes : List EntryRuntime) (current : List (Int × Nat)) (first : Nat) :
    (∀ id, id ∉ runtimes.map (fun r => r.cfg.ruleID) → (register current first runtimes).lookup id = current.lookup id) ∧
      ((runtimes.map (fun r => r.cfg.ruleID)).Nodup → ∀ k r, runtimes[k]? = some r →
        (register current first runtimes).lookup r.cfg.ruleID = some (first + k)) := by
  induction runtimes generalizing current first with
  | nil => exact ⟨fun _ _ => rfl, fun _ _ _ h => by cases h⟩
  | cons runtime runtimes ih =>
    obtain ⟨hother, hfound⟩ := ih (Assoc.put current runtime.cfg.ruleID first) (first + 1)
    constructor
    · intro id hid
      rw [List.map_cons, List.mem_cons, not_or] at hid
      rw [register, hother id hid.2, Assoc.lookup_put_ne _ hid.1]
    · intro hnodup k r hget
      rw [List.map_cons, List.nodup_cons] at hnodup
      cases k with
      | zero =>
        obtain rfl := Option.some.inj hget
        rw [register, hother _ hnodup.1, Assoc.lookup_put_self, Nat.add_zero]
      | succ k => rw [register, hfound hnodup.2 k r hget, Nat.add_right_comm, Nat.add_assoc]

/-- The runtime at a number is that of an entry, as it was prepared or closed. -/
def Settled (heap : List EntryRuntime) (i : Nat) (entry : Config) : Prop :=
  heap[i]? = some (listening entry) ∨ heap[i]? = some (listening entry).close

theorem getElem?_append_some {heap added : List EntryRuntime} {i : Nat} {r : EntryRuntime}
    (h : heap[i]? = some r) : (heap ++ added)[i]? = some r := by
  obtain ⟨hlt, -⟩ := List.getElem?_eq_some_iff.mp h
  rwa [List.getElem?_append_left hlt]

variable {i : Nat} {entry : Config}

theorem Settled.append {heap : List EntryRuntime} (h : Settled heap i entry) (added : List EntryRuntime) :
    Settled (heap ++ added) i entry :=
  h.imp getElem?_append_some getElem?_append_some

theorem Settled.close {heap : List EntryRuntime} (h : Settled heap i entry) (j : Nat) :
    Settled (heap.modify j EntryRuntime.close) i entry := by
  by_cases hij : j = i
  · subst hij
    right
    rw [List.getElem?_modify_eq]
    rcases h with h | h <;> rw [h]
    · rfl
    · exact congrArg some (close_close _)
  · rw [Settled, List.getElem?_modify_ne _ _ hij]
    exact h

theorem Settled.closeAll {heap : List EntryRuntime} (h : Settled heap i entry) (numbers : List Nat) :
    Settled (numbers.foldl (fun heap i => heap.modify i EntryRuntime.close) heap) i entry := by
  induction numbers generalizing heap with
  | nil => exact h
  | cons j numbers ih => exact ih (h.close j)

def AdditiveFXPRuntime.Running (runtime : AdditiveFXPRuntime) (i : Nat) (entry : Config) : Prop :=
  runtime.current.lookup entry.ruleID = some i ∧ runtime.heap[i]? = some (listening entry)

/-! ## The invariant -/

section
variable {u : Unicode}

structure Inv (u : Unicode) (runtime : AdditiveFXPRuntime) : Prop where
  normal : normalizeConfig u runtime.cfg = runtime.cfg
  live : runtime.udpTargetsLive =
    if runtime.cfg.settings.Role = "entry-group" then none
    else some (targetTable runtime.cfg.settings.UDPTargets)
  held : runtime.cfg.settings.Role = "entry-group" → (runtime.cfg.Entries.map Config.ruleID).Nodup →
    ∀ entry ∈ runtime.cfg.Entries, ∃ i, runtime.current.lookup entry.ruleID = some i ∧ Settled runtime.heap i entry
  only : ∀ id i, runtime.current.lookup id = some i → id ∈ runtime.cfg.Entries.map Config.ruleID
  others : runtime.cfg.settings.Role ≠ "entry-group" → runtime.current = []

theorem Inv.heap {runtime : AdditiveFXPRuntime} (h : Inv u runtime) {heap : List EntryRuntime}
    {done closed : Bool} (hsettled : ∀ i entry, Settled runtime.heap i entry → Settled heap i entry) :
    Inv u { runtime with heap := heap, done := done, closed := closed } :=
  { h with
    held := fun hrole hnodup entry hentry => by
      obtain ⟨i, hlookup, hheap⟩ := h.held hrole hnodup entry hentry
      exact ⟨i, hlookup, hsettled i entry hheap⟩ }

theorem map_listening_ids (entries : List Config) :
    (entries.map listening).map (fun r => r.cfg.ruleID) = entries.map Config.ruleID := by
  rw [List.map_map]
  rfl

theorem Inv.start {answers : Nat → Answers} {cfg : Config} {runtime : AdditiveFXPRuntime}
    (h : newAdditiveFXPRuntime u answers cfg = .ok runtime) : Inv u runtime := by
  unfold newAdditiveFXPRuntime at h
  dsimp only at h
  split at h
  · rename_i hrole
    split at h
    · cases h
    · rename_i prepared hprepared
      obtain rfl := Except.ok.inj h
      obtain rfl := (prepareAll_spec [] hprepared).1 rfl
      obtain ⟨hother, hfound⟩ := register_spec (([] ++ (normalizeConfig u cfg).Entries).map listening) [] 0
      rw [map_listening_ids] at hother hfound
      rw [List.nil_append] at hother hfound
      exact
        { normal := normalizeConfig_idem u cfg
          live := (if_pos hrole).symm
          held := by
            intro _ hnodup entry hentry
            obtain ⟨k, hk⟩ := List.mem_iff_getElem?.mp hentry
            have hget : ((normalizeConfig u cfg).Entries.map listening)[k]? = some (listening entry) := by
              rw [List.getElem?_map, hk]
              rfl
            exact ⟨0 + k, hfound hnodup k _ hget, Or.inl (by rw [Nat.zero_add]; exact hget)⟩
          only := by
            intro id i hlookup
            by_contra hnot
            rw [List.nil_append, hother id hnot] at hlookup
            cases hlookup
          others := fun hne => absurd hrole hne }
  · rename_i hrole
    obtain rfl := Except.ok.inj h
    exact
      { normal := normalizeConfig_idem u cfg
        live := (if_neg hrole).symm
        held := fun hpos => absurd hpos hrole
        only := fun _ _ hlookup => by cases hlookup
        others := fun _ => rfl }

/-- An `apply` leaves shut sockets behind, or takes over a configuration that it has planned and
prepared. -/
theorem apply_cases {runtime after : AdditiveFXPRuntime} {answers : Nat → Answers} {next : Config}
    {err : Option ApplyError} (h : runtime.apply u answers next = (after, err)) :
    (err.isSome = true ∧ ∃ left, after = { runtime with heap := runtime.heap ++ left } ∧ ∀ r ∈ left, r.Shut) ∨
      (err = none ∧ ∃ additions, planFXPConfigAddition u runtime.cfg (normalizeConfig u next) = .ok additions ∧
        after =
          { runtime with
            cfg := normalizeConfig u next
            udpTargetsLive :=
              runtime.udpTargetsLive.map (fun _ => targetTable (normalizeConfig u next).settings.UDPTargets)
            heap := runtime.heap ++
              (additions ++ (normalizeConfig u next).Entries.filter runtime.stopped).map listening
            runtimes := after.current.map Prod.snd
            current := register runtime.current runtime.heap.length
              ((additions ++ (normalizeConfig u next).Entries.filter runtime.stopped).map listening) }) := by
  have hsame : runtime = { runtime with heap := runtime.heap ++ [] } := by rw [List.append_nil]
  unfold AdditiveFXPRuntime.apply at h
  split at h
  · obtain ⟨rfl, rfl⟩ := Prod.mk.inj h
    exact Or.inl ⟨rfl, [], hsame, fun _ hr => absurd hr List.not_mem_nil⟩
  · dsimp only at h
    split at h
    · obtain ⟨rfl, rfl⟩ := Prod.mk.inj h
      exact Or.inl ⟨rfl, [], hsame, fun _ hr => absurd hr List.not_mem_nil⟩
    · rename_i additions hplan
      split at h
      · rename_i prepared entry err' hprepared
        obtain ⟨rfl, rfl⟩ := Prod.mk.inj h
        exact Or.inl ⟨rfl, prepared, rfl, (prepareAll_spec [] hprepared).2 rfl⟩
      · rename_i prepared hprepared
        obtain rfl := (prepareAll_spec [] hprepared).1 rfl
        obtain ⟨rfl, rfl⟩ := Prod.mk.inj h
        exact Or.inr ⟨rfl, additions, hplan, rfl⟩

/-! ## What is served -/

section
variable {runtime : AdditiveFXPRuntime} {next : Config}

/-- What `apply` prepares: the added entries, and those that have stopped. -/
def toPrepare (runtime : AdditiveFXPRuntime) (next : Config) : List Config :=
  next.Entries.filter (fun entry => entry.ruleID ∉ runtime.cfg.Entries.map Config.ruleID) ++
    next.Entries.filter runtime.stopped

theorem mem_toPrepare : entry ∈ toPrepare runtime next ↔
    entry ∈ next.Entries ∧
      (entry.ruleID ∉ runtime.cfg.Entries.map Config.ruleID ∨ runtime.stopped entry = true) := by
  rw [toPrepare, List.mem_append, List.mem_filter, List.mem_filter, decide_eq_true_eq]
  exact and_or_left.symm

/-- The rule of an entry that has stopped is a rule of the configuration. -/
theorem Inv.stopped_rule (h : Inv u runtime) (hstopped : runtime.stopped entry = true) :
    entry.ruleID ∈ runtime.cfg.Entries.map Config.ruleID := by
  obtain ⟨i, hlookup, -⟩ := (Option.any_eq_true _ _).mp hstopped
  exact h.only _ i hlookup

theorem Inv.toPrepare_nodup (h : Inv u runtime) (hadds : AddsEntries runtime.cfg next) :
    ((toPrepare runtime next).map Config.ruleID).Nodup := by
  rw [toPrepare, List.map_append, List.nodup_append]
  refine ⟨hadds.nodup.sublist (List.filter_sublist.map _), hadds.nodup.sublist (List.filter_sublist.map _), ?_⟩
  intro a ha b hb hab
  obtain ⟨added, hadded, rfl⟩ := List.mem_map.mp ha
  obtain ⟨stopped, hstopped, rfl⟩ := List.mem_map.mp hb
  have hnew := of_decide_eq_true (List.mem_filter.mp hadded).2
  exact hnew (hab ▸ h.stopped_rule (List.mem_filter.mp hstopped).2)

/-- The entry of a rule is the one that the previous configuration has for it. -/
theorem AddsEntries.same {old : Config} (hadds : AddsEntries old next) (hentry : entry ∈ next.Entries)
    (hrule : entry.ruleID ∈ old.Entries.map Config.ruleID) : entry ∈ old.Entries := by
  obtain ⟨previous, hprevious, heq⟩ := List.mem_map.mp hrule
  obtain rfl := Rows.eq_of_key hadds.nodup (hadds.kept previous hprevious) hentry heq
  exact hprevious

theorem AddsEntries.perm {old : Config} (hadds : AddsEntries old next) :
    (old.Entries ++ next.Entries.filter (fun entry => entry.ruleID ∉ old.Entries.map Config.ruleID)).Perm
      next.Entries := by
  have hsplit := List.filter_append_perm (fun entry : Config => entry.ruleID ∈ old.Entries.map Config.ruleID)
    next.Entries
  have hold : old.Entries.Perm
      (next.Entries.filter (fun entry => entry.ruleID ∈ old.Entries.map Config.ruleID)) := by
    refine (List.perm_ext_iff_of_nodup (List.Nodup.of_map _ hadds.before)
      ((List.Nodup.of_map _ hadds.nodup).filter _)).mpr fun entry => ?_
    rw [List.mem_filter, decide_eq_true_eq]
    exact ⟨fun hentry => ⟨hadds.kept entry hentry, List.mem_map_of_mem hentry⟩,
      fun hentry => hadds.same hentry.1 hentry.2⟩
  refine (hold.append_right _).trans ?_
  simpa only [decide_not] using hsplit

/-- After its entries were registered, a process serves those of the configuration, and no
others. -/
theorem Inv.served (h : Inv u runtime) (hadds : AddsEntries runtime.cfg next) {current : List (Int × Nat)}
    {heap : List EntryRuntime}
    (hcurrent : current = register runtime.current runtime.heap.length ((toPrepare runtime next).map listening))
    (hheap : heap = runtime.heap ++ (toPrepare runtime next).map listening) :
    (∀ entry ∈ next.Entries, ∃ i, current.lookup entry.ruleID = some i ∧ heap[i]? = some (listening entry)) ∧
      (∀ id i, current.lookup id = some i → id ∈ next.Entries.map Config.ruleID) ∧
      ∀ i entry, runtime.Running i entry → entry ∈ next.Entries ∧ current.lookup entry.ruleID = some i := by
  obtain ⟨hother, hfound⟩ := register_spec ((toPrepare runtime next).map listening)
    runtime.current runtime.heap.length
  rw [map_listening_ids, ← hcurrent] at hother hfound
  have hfound := hfound (h.toPrepare_nodup hadds)
  refine ⟨fun entry hentry => ?_, fun id i hlookup => ?_, fun i entry hrunning => ?_⟩
  · by_cases hmem : entry ∈ toPrepare runtime next
    · obtain ⟨k, hk⟩ := List.mem_iff_getElem?.mp hmem
      have hget : ((toPrepare runtime next).map listening)[k]? = some (listening entry) := by
        rw [List.getElem?_map, hk]
        rfl
      refine ⟨_, hfound k _ hget, ?_⟩
      rw [hheap, List.getElem?_append_right (Nat.le_add_right _ _), Nat.add_sub_cancel_left, hget]
    · have hfresh : entry.ruleID ∉ (toPrepare runtime next).map Config.ruleID := by
        intro hrule
        obtain ⟨prepared, hprepared, heq⟩ := List.mem_map.mp hrule
        exact hmem (Rows.eq_of_key hadds.nodup (mem_toPrepare.mp hprepared).1 hentry heq ▸ hprepared)
      have hrule : entry.ruleID ∈ runtime.cfg.Entries.map Config.ruleID := by
        by_contra hnew
        exact hmem (mem_toPrepare.mpr ⟨hentry, Or.inl hnew⟩)
      obtain ⟨i, hlookup, hsettled⟩ := h.held hadds.role hadds.before entry (hadds.same hentry hrule)
      refine ⟨i, (hother _ hfresh).trans hlookup, ?_⟩
      rcases hsettled with hopen | hclosed
      · rw [hheap]
        exact getElem?_append_some hopen
      · have hstopped : runtime.stopped entry = true := by
          rw [AdditiveFXPRuntime.stopped, hlookup, Option.any_some, hclosed]
          rfl
        exact absurd (mem_toPrepare.mpr ⟨hentry, Or.inr hstopped⟩) hmem
  · by_cases hmem : id ∈ (toPrepare runtime next).map Config.ruleID
    · obtain ⟨entry, hentry, rfl⟩ := List.mem_map.mp hmem
      exact List.mem_map_of_mem (mem_toPrepare.mp hentry).1
    · rw [hother id hmem] at hlookup
      obtain ⟨entry, hentry, rfl⟩ := List.mem_map.mp (h.only id i hlookup)
      exact List.mem_map_of_mem (hadds.kept entry hentry)
  · obtain ⟨hlookup, hopen⟩ := hrunning
    obtain ⟨previous, hprevious, heq⟩ := List.mem_map.mp (h.only _ i hlookup)
    obtain ⟨j, hj, hsettled⟩ := h.held hadds.role hadds.before previous hprevious
    rw [heq, hlookup] at hj
    obtain rfl := Option.some.inj hj
    have hsame : previous = entry := by
      rcases hsettled with hsettled | hsettled <;> rw [hopen] at hsettled
      · exact (congrArg EntryRuntime.cfg (Option.some.inj hsettled)).symm
      · exact absurd (congrArg EntryRuntime.closed (Option.some.inj hsettled)) (by simp [listening, EntryRuntime.close])
    subst hsame
    refine ⟨hadds.kept _ hprevious, (hother _ fun hmem => ?_).trans hlookup⟩
    obtain ⟨prepared, hprepared, hrule⟩ := List.mem_map.mp hmem
    rcases (mem_toPrepare.mp hprepared).2 with hnew | hstopped
    · exact hnew (hrule ▸ List.mem_map_of_mem hprevious)
    · rw [AdditiveFXPRuntime.stopped, hrule, hlookup, Option.any_some, hopen] at hstopped
      cases hstopped

/-- The entries that `apply` prepares are those of the plan and those that have stopped. -/
theorem Inv.apply_adds (h : Inv u runtime) {additions : List Config}
    (hplan : planFXPConfigAddition u runtime.cfg (normalizeConfig u next) = .ok additions) :
    (AddsEntries runtime.cfg (normalizeConfig u next) ∧
        additions ++ (normalizeConfig u next).Entries.filter runtime.stopped =
          toPrepare runtime (normalizeConfig u next)) ∨
      (AddsTargets runtime.cfg (normalizeConfig u next) ∧
        additions ++ (normalizeConfig u next).Entries.filter runtime.stopped = []) := by
  rcases plan_ok h.normal (normalizeConfig_idem u next) hplan with ⟨hadds, rfl⟩ | ⟨hadds, rfl⟩
  · exact Or.inl ⟨hadds, rfl⟩
  · have hcurrent := h.others (by rw [hadds.role]; decide)
    refine Or.inr ⟨hadds, ?_⟩
    rw [List.nil_append, List.filter_eq_nil_iff]
    intro entry _
    rw [AdditiveFXPRuntime.stopped, hcurrent, List.lookup_nil, Option.any_none]
    decide

theorem AddsTargets.role_eq {old : Config} (hadds : AddsTargets old next) :
    next.settings.Role = old.settings.Role := by
  have hrole := congrArg (fun cfg => (Config.settings cfg).Role) hadds.settings
  exact hrole

theorem Inv.apply {after : AdditiveFXPRuntime} {answers : Nat → Answers} {err : Option ApplyError}
    (h : Inv u runtime) (happly : runtime.apply u answers next = (after, err)) : Inv u after := by
  rcases apply_cases happly with ⟨-, left, rfl, -⟩ | ⟨-, additions, hplan, hafter⟩
  · exact h.heap (fun i entry hsettled => hsettled.append left)
  · rcases h.apply_adds hplan with ⟨hadds, hentries⟩ | ⟨hadds, hentries⟩
    · rw [hentries] at hafter
      obtain ⟨hserved, honly, -⟩ := h.served hadds rfl rfl
      rw [hafter]
      exact
        { normal := normalizeConfig_idem u next
          live := by
            rw [hadds.settings, h.live, hadds.role, if_pos rfl]
            rfl
          held := fun _ _ entry hentry => by
            obtain ⟨i, hlookup, hopen⟩ := hserved entry hentry
            exact ⟨i, hlookup, Or.inl hopen⟩
          only := honly
          others := fun hne => absurd (hadds.settings ▸ hadds.role) hne }
    · have hrole : runtime.cfg.settings.Role ≠ "entry-group" := by
        rw [hadds.role]
        decide
      have hnext : (normalizeConfig u next).settings.Role ≠ "entry-group" := hadds.role_eq ▸ hrole
      rw [hentries] at hafter
      rw [hafter]
      exact
        { normal := normalizeConfig_idem u next
          live := by
            rw [h.live, if_neg hrole, if_neg hnext]
            rfl
          held := fun hgroup => absurd hgroup hnext
          only := fun id i hlookup => by
            rw [List.map_nil, register, h.others hrole] at hlookup
            cases hlookup
          others := fun _ => h.others hrole }

theorem Inv.step {after : AdditiveFXPRuntime} {a : ControlAction} (hstep : controlStep u runtime a = some after)
    (h : Inv u runtime) : Inv u after := by
  cases a with
  | apply next answers =>
    obtain rfl := Option.some.inj hstep
    exact h.apply rfl
  | stop i =>
    obtain rfl := Option.some.inj hstep
    exact h.heap (fun j entry hsettled => hsettled.close i)
  | done =>
    obtain rfl := Option.some.inj hstep
    exact h.heap (fun j entry hsettled => hsettled)
  | shutdown =>
    simp only [controlStep] at hstep
    split at hstep
    · obtain rfl := Option.some.inj hstep
      exact h.heap (fun j entry hsettled => hsettled.closeAll runtime.runtimes)
    · cases hstep

/-- A process with a control endpoint, at any time, and one more `apply` with any configuration
and any answers of the system. -/
theorem additive_apply {answers : Nat → Answers} {cfg : Config} {start after : AdditiveFXPRuntime}
    {as : List ControlAction} {err : Option ApplyError}
    (hnew : newAdditiveFXPRuntime u answers cfg = .ok start)
    (hrun : Run (Steps.ofFn (controlStep u)) start as runtime)
    (happly : runtime.apply u answers next = (after, err)) :
    -- A failure changes nothing but that there are sockets that were opened and closed again.
    (err.isSome = true → ∃ left, after = { runtime with heap := runtime.heap ++ left } ∧ ∀ r ∈ left, r.Shut) ∧
    -- A success takes the configuration over and touches no runtime that there was.
    (err = none → after.cfg = normalizeConfig u next ∧ (∃ added, after.heap = runtime.heap ++ added) ∧
      (∀ i entry, runtime.Running i entry → after.Running i entry) ∧
      -- A group has more entries at most, and serves exactly those of the configuration.
      ((AddsEntries runtime.cfg after.cfg ∧
          (∃ additions, (runtime.cfg.Entries ++ additions).Perm after.cfg.Entries) ∧
          (∀ entry, (∃ i, after.Running i entry) ↔ entry ∈ after.cfg.Entries) ∧
          (∀ id i, after.current.lookup id = some i → id ∈ after.cfg.Entries.map Config.ruleID) ∧
          after.udpTargetsLive = none) ∨
      -- An exit has more UDP targets at most, and its table holds exactly those.
        (AddsTargets runtime.cfg after.cfg ∧ after.current = [] ∧
          ∃ live live', runtime.udpTargetsLive = some live ∧ after.udpTargetsLive = some live' ∧
            (∀ id target, live'.lookup id = some target ↔
              target ∈ after.cfg.settings.UDPTargets ∧ target.RuleID = id) ∧
            ∀ id target, live.lookup id = some target → live'.lookup id = some target))) := by
  have h : Inv u runtime := hrun.preserves (fun _ _ _ ht => Inv.step ht) (Inv.start hnew)
  have hinv := h.apply happly
  rcases apply_cases happly with ⟨hsome, left, hafter, hshut⟩ | ⟨hnone, additions, hplan, hafter⟩
  · exact ⟨fun _ => ⟨left, hafter, hshut⟩, fun hnone => by rw [hnone] at hsome; cases hsome⟩
  · refine ⟨fun hsome => (by rw [hnone] at hsome; cases hsome), fun _ => ?_⟩
    have hcfg : after.cfg = normalizeConfig u next := by rw [hafter]
    have hheap : after.heap = runtime.heap ++
        (additions ++ (normalizeConfig u next).Entries.filter runtime.stopped).map listening := by rw [hafter]
    have hcurrent : after.current = register runtime.current runtime.heap.length
        ((additions ++ (normalizeConfig u next).Entries.filter runtime.stopped).map listening) := by
      conv_lhs => rw [hafter]
    have hadds := h.apply_adds hplan
    rw [← hcfg] at hadds hheap hcurrent
    refine ⟨hcfg, ⟨_, hheap⟩, ?_⟩
    rcases hadds with ⟨hadds, hentries⟩ | ⟨hadds, hentries⟩
    · rw [hentries] at hheap hcurrent
      obtain ⟨hserved, honly, hkept⟩ := h.served hadds hcurrent hheap
      refine ⟨fun i entry hrunning => ⟨(hkept i entry hrunning).2, hheap ▸ getElem?_append_some hrunning.2⟩,
        Or.inl ⟨hadds, ⟨_, hadds.perm⟩, fun entry => ⟨fun hrunning => ?_, hserved entry⟩, honly, ?_⟩⟩
      · obtain ⟨i, hlookup, hopen⟩ := hrunning
        obtain ⟨other, hother, heq⟩ := List.mem_map.mp (honly _ i hlookup)
        obtain ⟨j, hj, hopen'⟩ := hserved other hother
        rw [heq, hlookup] at hj
        obtain rfl := Option.some.inj hj
        rw [hopen] at hopen'
        have hsame : entry = other := congrArg EntryRuntime.cfg (Option.some.inj hopen')
        exact hsame ▸ hother
      · rw [hinv.live, hadds.settings, hadds.role, if_pos rfl]
    · have hrole : runtime.cfg.settings.Role ≠ "entry-group" := by
        rw [hadds.role]
        decide
      have hrole' : after.cfg.settings.Role ≠ "entry-group" := hadds.role_eq ▸ hrole
      have hspec := fun target id =>
        targetTable_spec (normal_targets hinv.normal).nodup target id
      refine ⟨fun i entry hrunning => ?_, Or.inr ⟨hadds, hinv.others hrole', _, _,
        h.live.trans (if_neg hrole), hinv.live.trans (if_neg hrole'), fun id target => hspec target id, ?_⟩⟩
      · have hlookup := hrunning.1
        rw [h.others hrole] at hlookup
        cases hlookup
      · intro id target hlookup
        obtain ⟨hmem, hid⟩ := (targetTable_spec (normal_targets h.normal).nodup target id).mp hlookup
        exact (hspec target id).mpr ⟨hadds.kept target hmem, hid⟩

end

end

/-! ## Two processes -/

def willing : Nat → Answers := fun _ => ⟨none, none, none⟩

def groupOf (entries : List Config) : Config :=
  .mk { (plainEntry 0 "" "tcp" 0 0).settings with Role := "entry-group" } entries

def exitWithEntry : Config :=
  .mk { (plainEntry 0 "" "tcp" 9000 0).settings with Role := "exit" } [plainEntry 1 "" "tcp" 7000 0]

theorem exists_of_toOption {ε α : Type} {x : Except ε α} {p : α → Bool} (h : x.toOption.any p = true) :
    ∃ a, x = .ok a ∧ p a = true := by
  cases x with
  | error _ => cases h
  | ok a => exact ⟨a, rfl, h⟩

theorem exit_serves_no_entries :
    ∃ start after, newAdditiveFXPRuntime asciiUnicode willing exitWithEntry = .ok start ∧
      start.apply asciiUnicode willing exitWithEntry = (after, none) ∧
      plainEntry 1 "" "tcp" 7000 7000 ∈ after.cfg.Entries ∧ ∀ i entry, ¬after.Running i entry := by
  have hcheck : (newAdditiveFXPRuntime asciiUnicode willing exitWithEntry).toOption.any (fun start =>
      (start.apply asciiUnicode willing exitWithEntry).2.isNone &&
        (start.apply asciiUnicode willing exitWithEntry).1.cfg.Entries = [plainEntry 1 "" "tcp" 7000 7000] &&
        (start.apply asciiUnicode willing exitWithEntry).1.current.isEmpty) = true := by
    decide +kernel
  obtain ⟨start, hstart, hcheck⟩ := exists_of_toOption hcheck
  rw [Bool.and_eq_true, Bool.and_eq_true, decide_eq_true_eq, List.isEmpty_iff, Option.isNone_iff_eq_none] at hcheck
  refine ⟨start, _, hstart, Prod.ext rfl hcheck.1.1, ?_, ?_⟩
  · rw [hcheck.1.2]
    exact List.mem_singleton_self _
  · intro i entry hrunning
    have hlookup := hrunning.1
    rw [hcheck.2] at hlookup
    cases hlookup

/-- A second entry beside the first. -/
theorem second_entry_added :
    ∃ start after, newAdditiveFXPRuntime asciiUnicode willing (groupOf [plainEntry 1 "" "tcp" 7000 0]) = .ok start ∧
      start.apply asciiUnicode willing (groupOf [plainEntry 1 "" "tcp" 7000 0, plainEntry 2 "" "both" 7001 0]) =
        (after, none) ∧ ∀ i entry, start.Running i entry → after.Running i entry := by
  have hcheck : (newAdditiveFXPRuntime asciiUnicode willing (groupOf [plainEntry 1 "" "tcp" 7000 0])).toOption.any
      (fun start => (start.apply asciiUnicode willing
        (groupOf [plainEntry 1 "" "tcp" 7000 0, plainEntry 2 "" "both" 7001 0])).2.isNone) = true := by
    decide +kernel
  obtain ⟨start, hstart, hcheck⟩ := exists_of_toOption hcheck
  rw [Option.isNone_iff_eq_none] at hcheck
  have happly : start.apply asciiUnicode willing
      (groupOf [plainEntry 1 "" "tcp" 7000 0, plainEntry 2 "" "both" 7001 0]) = (_, none) := Prod.ext rfl hcheck
  exact ⟨start, _, hstart, happly, ((additive_apply hstart (Run.nil _) happly).2 rfl).2.2.1⟩

end ForwardX.Fxp.Control
