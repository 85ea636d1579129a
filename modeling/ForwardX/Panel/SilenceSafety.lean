import ForwardX.Panel.SilenceInvariant
import ForwardX.Lib.Transition
import Mathlib.Tactic.Linarith

/- Runs of the silence scheduler. Two steps can go wrong: after a failed lookup the host is armed
   again only while the retry lies ahead of a second reading of the clock, and the entries of a
   failed trigger go back by a generation number that starts over when the host was cleared.
   Where neither happens no deadline is lost and none is raised for a host that was seen again. -/
namespace ForwardX.Panel.SilenceScheduler

open Assoc EvaluationQueue Transition

section
variable {c : Config} {clock : ℕ → ℚ} {s t : Scheduler}

/-! ## The entries of a failed trigger -/

/-- The rows of a table of deadlines are from the states that their hosts have in `s`. -/
def TableOk (s : Scheduler) (deadlines : List ((Nat × Nat) × HostGroupDeadline)) : Prop :=
  ∀ e ∈ deadlines, e.1 = e.2.key ∧ s.hosts.lookup e.2.hostId = some e.2.origin ∧ Valid s e.2

def Holds (deadlines : List ((Nat × Nat) × HostGroupDeadline)) (ref groupId : Nat) : Prop :=
  ∃ e ∈ deadlines, e.2.origin = ref ∧ e.2.groupId = groupId

/-- A host that has the generation of the entry has its state too, or a deadline of the group that
comes before the retry. -/
def Unmistaken (s : Scheduler) (retryAt : ℚ) (deadlines : List ((Nat × Nat) × HostGroupDeadline))
    (d : HostGroupDeadline) : Prop :=
  ∀ (ref : Nat) (st : HostSilenceState), s.hosts.lookup d.hostId = some ref → s.states[ref]? = some st →
    st.generation = d.generation → ref = d.origin ∨
      ∃ existing, Assoc.get deadlines d.key = some existing ∧ existing.dueAt ≤ retryAt

variable {retryAt : ℚ} {deadlines : List ((Nat × Nat) × HostGroupDeadline)} {d : HostGroupDeadline}

theorem TableOk.assign (h : TableOk s deadlines) (hd : Valid s d) (hdue : d.dueAt ≤ retryAt)
    (hcurrent : s.hosts.lookup d.hostId = some d.origin) :
    TableOk s (assign deadlines d.key { d with dueAt := retryAt }) ∧
    (∀ ref groupId, Holds deadlines ref groupId → Holds (assign deadlines d.key { d with dueAt := retryAt }) ref groupId) ∧
    Holds (assign deadlines d.key { d with dueAt := retryAt }) d.origin d.groupId := by
  have hself := mem_assign_self deadlines d.key { d with dueAt := retryAt }
  refine ⟨fun e he => ?_, fun ref groupId hold => ?_, ⟨_, hself, rfl, rfl⟩⟩
  · rcases of_mem_assign he with rfl | he
    · obtain ⟨howner, st, groups, hst, hgeneration, hsilent, hrest⟩ := hd
      exact ⟨rfl, hcurrent, howner, st, groups, hst, hgeneration, hsilent.trans hdue, hrest⟩
    · exact h e he
  · obtain ⟨e, he, horigin, hgroup⟩ := hold
    by_cases hkey : e.1 = d.key
    · obtain ⟨hekey, hecurrent, _⟩ := h e he
      rw [hekey] at hkey
      obtain ⟨hhost, hgroup'⟩ := Prod.mk.inj hkey
      rw [hhost, hcurrent] at hecurrent
      exact ⟨_, hself, (Option.some.inj hecurrent).trans horigin, hgroup'.symm.trans hgroup⟩
    · exact ⟨e, mem_assign_of_ne he hkey _, horigin, hgroup⟩

theorem Unmistaken.assign {d' : HostGroupDeadline} (h : Unmistaken s retryAt deadlines d') :
    Unmistaken s retryAt (Assoc.assign deadlines d.key { d with dueAt := retryAt }) d' := by
  intro ref st hlookup hst hgeneration
  refine (h ref st hlookup hst hgeneration).imp id ?_
  rintro ⟨existing, hexisting, hdue⟩
  by_cases hkey : d'.key = d.key
  · exact ⟨{ d with dueAt := retryAt }, by rw [hkey]; exact lookup_assign_self _ _ _, le_refl _⟩
  · exact ⟨existing, (lookup_assign_ne _ hkey _).trans hexisting, hdue⟩

theorem reinsert_spec (h : TableOk s deadlines) (hd : Valid s d) (hdue : d.dueAt ≤ retryAt)
    (hclear : Unmistaken s retryAt deadlines d) :
    TableOk s (s.reinsert retryAt deadlines d) ∧
    (∀ ref groupId, Holds deadlines ref groupId → Holds (s.reinsert retryAt deadlines d) ref groupId) ∧
    (s.hosts.lookup d.hostId = some d.origin → Holds (s.reinsert retryAt deadlines d) d.origin d.groupId) ∧
    ∀ d', Unmistaken s retryAt deadlines d' → Unmistaken s retryAt (s.reinsert retryAt deadlines d) d' := by
  obtain ⟨_, stOrigin, _, hstOrigin, hgenerationOrigin, _⟩ := id hd
  unfold Scheduler.reinsert
  cases hstate : (s.hosts.lookup d.hostId).bind (s.states[·]?) with
  | none =>
    refine ⟨h, fun _ _ => id, fun hcurrent => ?_, fun _ => id⟩
    rw [hcurrent, Option.bind_some, hstOrigin] at hstate
    cases hstate
  | some st =>
    obtain ⟨ref, hlookup, hst⟩ := Option.bind_eq_some_iff.mp hstate
    dsimp only
    by_cases hgeneration : st.generation ≠ d.generation
    · rw [if_pos hgeneration]
      refine ⟨h, fun _ _ => id, fun hcurrent => ?_, fun _ => id⟩
      obtain rfl := Option.some.inj (hlookup.symm.trans hcurrent)
      obtain rfl := Option.some.inj (hst.symm.trans hstOrigin)
      exact absurd hgenerationOrigin hgeneration
    · rw [if_neg hgeneration]
      have hsame := hclear ref st hlookup hst (not_not.mp hgeneration)
      cases hexisting : Assoc.get deadlines d.key with
      | none =>
        have href : ref = d.origin := hsame.resolve_right fun ⟨existing, hsome, _⟩ => by
          rw [hexisting] at hsome
          cases hsome
        obtain ⟨htable, hkept, hnew⟩ := h.assign hd hdue (href ▸ hlookup)
        exact ⟨htable, hkept, fun _ => hnew, fun _ => Unmistaken.assign⟩
      | some existing =>
        dsimp only
        by_cases hsooner : retryAt < existing.dueAt
        · rw [if_pos hsooner]
          have href : ref = d.origin := hsame.resolve_right fun ⟨existing', hsome, hle⟩ => by
            obtain rfl := Option.some.inj (hexisting.symm.trans hsome)
            exact absurd hsooner (not_lt.mpr hle)
          obtain ⟨htable, hkept, hnew⟩ := h.assign hd hdue (href ▸ hlookup)
          exact ⟨htable, hkept, fun _ => hnew, fun _ => Unmistaken.assign⟩
        · rw [if_neg hsooner]
          refine ⟨h, fun _ _ => id, fun hcurrent => ?_, fun _ => id⟩
          have hmem := mem_of_lookup hexisting
          obtain ⟨hkey, hexistingCurrent, _⟩ := h _ hmem
          obtain ⟨hhost, hgroup⟩ := Prod.mk.inj hkey
          have hhost : d.hostId = existing.hostId := hhost
          rw [← hhost, hcurrent] at hexistingCurrent
          exact ⟨_, hmem, (Option.some.inj hexistingCurrent).symm, hgroup.symm⟩

theorem reinserts_spec : ∀ {dueEntries : List HostGroupDeadline} {deadlines : List ((Nat × Nat) × HostGroupDeadline)},
    TableOk s deadlines → (∀ d ∈ dueEntries, Valid s d ∧ d.dueAt ≤ retryAt ∧ Unmistaken s retryAt deadlines d) →
    TableOk s (dueEntries.foldl (s.reinsert retryAt) deadlines) ∧
    (∀ ref groupId, Holds deadlines ref groupId → Holds (dueEntries.foldl (s.reinsert retryAt) deadlines) ref groupId) ∧
    ∀ d ∈ dueEntries, s.hosts.lookup d.hostId = some d.origin →
      Holds (dueEntries.foldl (s.reinsert retryAt) deadlines) d.origin d.groupId
  | [], deadlines, h, _ => ⟨h, fun _ _ => id, fun _ hd => nomatch hd⟩
  | d :: dueEntries, deadlines, h, hall => by
    obtain ⟨hd, hdue, hclear⟩ := hall d List.mem_cons_self
    obtain ⟨htable, hkept, hnew, hstill⟩ := reinsert_spec h hd hdue hclear
    obtain ⟨htable', hkept', hnew'⟩ := reinserts_spec htable fun d' hd' => by
      obtain ⟨hvalid, hdue', hclear'⟩ := hall d' (List.mem_cons_of_mem d hd')
      exact ⟨hvalid, hdue', hstill d' hclear'⟩
    refine ⟨htable', fun ref groupId hold => hkept' ref groupId (hkept ref groupId hold), fun d' hd' hcurrent => ?_⟩
    rcases List.mem_cons.mp hd' with rfl | hd'
    · exact hkept' _ _ (hnew hcurrent)
    · exact hnew' d' hd' hcurrent

theorem Inv.triggerThrew (h : Inv clock none s) (hclock : Monotone clock) {i : Nat} {dueEntries : List HostGroupDeadline}
    (hi : s.flights[i]? = some (.triggering dueEntries))
    (hclear : ∀ d ∈ dueEntries, Unmistaken s (clock s.reads + c.retryMs) s.groupDeadlines d) :
    Inv clock none (s.triggerThrew c clock i dueEntries) ∧ Armed (s.triggerThrew c clock i dueEntries) := by
  have hmem := List.mem_of_getElem? hi
  obtain ⟨htable, hkept, hnew⟩ := @reinserts_spec s (clock s.reads + c.retryMs) _ _ h.table fun d hd => by
    obtain ⟨hvalid, hdue⟩ := h.taken dueEntries hmem d hd
    have hretry : (0 : ℚ) ≤ c.retryMs := zero_le_one.trans c.retry_pos
    exact ⟨hvalid, hdue.trans (le_add_of_nonneg_right hretry), hclear d hd⟩
  have hother : ∀ {g : Flight}, g ∈ s.flights → g ≠ .triggering dueEntries → g ∈ s.flights.set i .triggerFailed :=
    fun hg hne => Slots.mem_set_of_ne hi hg hne _
  refine ⟨Inv.tick (s := { s with
    groupDeadlines := dueEntries.foldl (s.reinsert (clock s.reads + c.retryMs)) s.groupDeadlines
    flights := s.flights.set i .triggerFailed })
    ⟨h.known, h.hostTimer, h.alive, fun r st hst hres => ?_, fun a b hab => ?_, h.groupTimer, htable,
      fun entries hentries => ?_, ?_, h.resolved, fun ref groups hres g hg a ha => ?_, h.called⟩ hclock, fun hfalse => ?_⟩
  · obtain ⟨a, hfly⟩ := h.flying r st hst hres
    exact ⟨a, hfly.imp (fun hg => hother hg (by simp)) (fun hg => hother hg (by simp))⟩
  · rcases hab with hab | hab
    · rcases List.mem_or_eq_of_mem_set hab with hab | heq
      · exact h.owned a b (Or.inl hab)
      · cases heq
    · rcases List.mem_or_eq_of_mem_set hab with hab | heq
      · exact h.owned a b (Or.inr hab)
      · cases heq
  · rcases List.mem_or_eq_of_mem_set hentries with hentries | heq
    · exact h.taken entries hentries
    · cases heq
  · exact (Slots.countP_set_eq hi (p := Flight.isTrigger) (z := .triggerFailed) rfl).trans h.triggers
  · rcases h.kept ref groups hres g hg a ha with hin | ⟨entries, hentries, hd⟩ | hdone
    · exact Or.inl (hkept ref g.1 hin)
    · by_cases hsame : Flight.triggering entries = .triggering dueEntries
      · cases hsame
        obtain ⟨d, hd, rfl, hgroup⟩ := hd
        have howner := (h.taken dueEntries hmem d hd).1.1
        obtain rfl := howner.2 a ha
        exact Or.inl (hgroup ▸ hnew d hd ha)
      · exact Or.inr (Or.inl ⟨entries, hother hentries hsame, hd⟩)
    · exact Or.inr (Or.inr hdone)
  · -- a trigger is still in flight
    have hcount := Slots.countP_eraseIdx hi Flight.isTrigger
    have hrun : s.groupTriggerRunning = false := hfalse
    rw [h.triggers, hrun] at hcount
    simp [Flight.isTrigger] at hcount

/-! ## Steps -/

/-- What a step must not meet. A failed lookup is reported while its retry still lies ahead of the
clock, and no entry of a failed trigger is taken for one of a host that was cleared and has come
back to its generation. -/
def Careful (c : Config) (clock : ℕ → ℚ) (s : Scheduler) : Action → Prop
  | .reported i _ => ∀ (hostId ref : Nat) (st : HostSilenceState), s.flights[i]? = some (.resolveFailed hostId ref) →
      s.hosts.lookup hostId = some ref → s.states[ref]? = some st → clock s.reads < st.attemptAt
  | .triggerThrew i => ∀ dueEntries, s.flights[i]? = some (.triggering dueEntries) →
      ∀ d ∈ dueEntries, Unmistaken s (clock s.reads + c.retryMs) s.groupDeadlines d
  | _ => True

theorem Inv.drop {x : Option Nat} (h : Inv clock x s) {k : Nat} {timer : Timer} (hk : s.timers.get k = some timer)
    (hhost : ∀ hostId ref st, timer.callback = .host hostId ref → s.hosts.lookup hostId = some ref →
      s.states[ref]? = some st → st.timer ≠ some k)
    (hgroup : ∀ dueAt, timer.callback = .group dueAt → s.groupTimer ≠ some k) :
    Inv clock x { s with timers := s.timers.clear k } := by
  refine ⟨h.known, fun a b st k' hab hst hk' => ?_, h.alive, h.flying, h.owned, fun k' hk' => ?_, h.table, h.taken,
    h.triggers, h.resolved, h.kept, h.called⟩
  · obtain ⟨delay, hget⟩ := h.hostTimer a b st k' hab hst hk'
    refine ⟨delay, (Timers.get_clear _ _ _).trans ?_⟩
    rw [if_neg, hget]
    rintro rfl
    obtain rfl := Option.some.inj (hk.symm.trans hget)
    exact hhost a b st rfl hab hst hk'
  · obtain ⟨dueAt, delay, hget, hdue⟩ := h.groupTimer k' hk'
    refine ⟨dueAt, delay, (Timers.get_clear _ _ _).trans ?_, hdue⟩
    rw [if_neg, hget]
    rintro rfl
    obtain rfl := Option.some.inj (hk.symm.trans hget)
    exact hgroup dueAt rfl hk'

theorem Inv.fireHost (h : Inv clock none s) (ha : Armed s) (hclock : Monotone clock) {k hostId ref : Nat} {delay : ℚ}
    (hk : s.timers.get k = some ⟨.host hostId ref, delay⟩) :
    Inv clock none (({ s with timers := s.timers.clear k }).runCallback clock k (.host hostId ref)) ∧
      Armed (({ s with timers := s.timers.clear k }).runCallback clock k (.host hostId ref)) := by
  unfold Scheduler.runCallback
  dsimp only
  cases hst : s.states[ref]? with
  | none =>
    refine ⟨h.drop hk (fun a b st heq _ hst' => ?_) (fun _ heq => nomatch heq), ha⟩
    cases heq
    rw [hst] at hst'
    cases hst'
  | some st =>
    dsimp only
    by_cases hskip : (!Scheduler.isCurrent { s with timers := s.timers.clear k } hostId ref || st.timer ≠ some k) = true
    · rw [if_pos hskip]
      refine ⟨h.drop hk (fun a b st' heq hlookup hst' => ?_) (fun _ heq => nomatch heq), ha⟩
      cases heq
      obtain rfl := Option.some.inj (hst.symm.trans hst')
      have hcurrent : Scheduler.isCurrent { s with timers := s.timers.clear k } hostId ref = true := isCurrent_iff.mpr hlookup
      simpa [hcurrent] using hskip
    · rw [if_neg hskip]
      simp only [Bool.or_eq_true, Bool.not_eq_true', decide_eq_true_eq, not_or, Bool.not_eq_false, not_not] at hskip
      have hlookup : s.hosts.lookup hostId = some ref := isCurrent_iff.mp hskip.1
      -- the timer is the one of the state, and is taken off it
      have hoff := h.setState hostId ref (f := fun st => { st with timer := none })
        (fun _ hr => nomatch hr) (h.known hostId ref hlookup) (fun _ => ⟨rfl, rfl⟩) (fun _ _ _ hk' _ => nomatch hk')
        (fun st' hst' hres => h.flying ref st' hst' hres)
      have hdropped := hoff.drop (k := k) hk (fun a b st' heq _ hst' => by
        cases heq
        rw [setState_get, if_pos rfl, hst] at hst'
        cases hst'
        simp) (fun _ heq => nomatch heq)
      have htick := hdropped.tick hclock
      split
      · exact ⟨htick.armHost hclock (fun r hr => (Option.some.inj hr).symm) hlookup, armed_armHost ha⟩
      · refine ⟨htick.resolveHost (fun r hr => (Option.some.inj hr).symm) hlookup, ?_⟩
        unfold Scheduler.resolveHost
        split
        · exact ha
        · split
          · exact ha
          · exact ha

theorem Inv.fireGroup (h : Inv clock none s) (ha : Armed s) (hclock : Monotone clock) {k : Nat} {dueAt delay : ℚ}
    (hk : s.timers.get k = some ⟨.group dueAt, delay⟩) :
    Inv clock none (({ s with timers := s.timers.clear k }).runCallback clock k (.group dueAt)) ∧
      Armed (({ s with timers := s.timers.clear k }).runCallback clock k (.group dueAt)) := by
  unfold Scheduler.runCallback
  dsimp only
  by_cases hskip : s.groupTimer ≠ some k
  · rw [if_pos hskip]
    exact ⟨h.drop hk (fun _ _ _ heq => nomatch heq) (fun _ _ => hskip), ha⟩
  · rw [if_neg hskip]
    have hnone : Inv clock none { s with groupTimer := none, groupTimerDueAt := none } :=
      ⟨h.known, h.hostTimer, h.alive, h.flying, h.owned, (fun _ hk => nomatch hk), h.table, h.taken, h.triggers,
        h.resolved, h.kept, h.called⟩
    have htick := (hnone.drop (k := k) hk (fun _ _ _ heq => nomatch heq) (fun _ _ hk => nomatch hk)).tick hclock
    split
    · exact htick.armGroupTimer hclock false
    · exact htick.triggerDueGroups hclock

theorem Inv.observeAt (h : Inv clock none s) (ha : Armed s) (hclock : Monotone clock) (hostId : Nat) (seenAt : ℚ)
    (notBefore : Option ℚ) : Inv clock none (s.observeAt c clock hostId seenAt notBefore).1 ∧
      Armed (s.observeAt c clock hostId seenAt notBefore).1 := by
  unfold Scheduler.observeAt
  cases hexisting : (s.hosts.lookup hostId).bind (s.states[·]?) with
  | none => exact h.accept ha hclock hexisting _ _ _
  | some existing =>
    dsimp only
    split
    · exact ⟨h, ha⟩
    · split
      · exact ⟨h, ha⟩
      · exact h.accept ha hclock hexisting _ _ _

theorem Inv.observeNumbers (h : Inv clock none s) (ha : Armed s) (hclock : Monotone clock) (hostId : Option Nat)
    (seenAt notBefore : Option ℚ) : Inv clock none (s.observeNumbers c clock hostId seenAt notBefore).1 ∧
      Armed (s.observeNumbers c clock hostId seenAt notBefore).1 := by
  unfold Scheduler.observeNumbers
  cases hostId with
  | none => exact ⟨h, ha⟩
  | some hostId =>
    cases seenAt with
    | none => exact ⟨h, ha⟩
    | some seenAt =>
      dsimp only
      split
      · exact ⟨h, ha⟩
      · exact h.observeAt ha hclock hostId seenAt notBefore

theorem Inv.step (h : Inv clock none s) (ha : Armed s) (hclock : Monotone clock) {a : Action}
    (hcareful : Careful c clock s a) (hs : s.step c clock a = some t) : Inv clock none t ∧ Armed t := by
  cases a with
  | observe hostId seenAt notBefore =>
    obtain rfl := Option.some.inj hs
    cases seenAt with
    | undefined => exact (h.tick hclock).observeNumbers ha hclock _ _ notBefore
    | number value => exact h.observeNumbers ha hclock _ value notBefore
  | clear hostId =>
    obtain rfl := Option.some.inj hs
    exact h.clear ha hclock hostId
  | fire k =>
    obtain ⟨⟨callback, delay⟩, hk, rfl⟩ := Option.map_eq_some_iff.mp hs
    cases callback with
    | host hostId ref => exact h.fireHost ha hclock hk
    | group dueAt => exact h.fireGroup ha hclock hk
  | resolved i value =>
    unfold Scheduler.step at hs
    cases hi : s.flights[i]? with
    | none => simp [hi] at hs
    | some f =>
      cases f with
      | resolving hostId ref =>
        simp only [hi, Option.some.injEq] at hs
        exact hs ▸ h.resolveSettled ha hclock hi value
      | _ => simp [hi] at hs
  | resolveThrew i =>
    unfold Scheduler.step at hs
    cases hi : s.flights[i]? with
    | none => simp [hi] at hs
    | some f =>
      cases f with
      | resolving hostId ref =>
        simp only [hi, Option.some.injEq] at hs
        exact hs ▸ h.resolveThrew ha hclock hi
      | _ => simp [hi] at hs
  | triggered i =>
    unfold Scheduler.step at hs
    cases hi : s.flights[i]? with
    | none => simp [hi] at hs
    | some f =>
      cases f with
      | triggering dueEntries =>
        simp only [hi, Option.some.injEq] at hs
        exact hs ▸ (h.logTriggered dueEntries).finishTrigger hclock hi (Or.inr ⟨dueEntries, rfl, List.mem_cons_self⟩)
      | _ => simp [hi] at hs
  | triggerThrew i =>
    unfold Scheduler.step at hs
    cases hi : s.flights[i]? with
    | none => simp [hi] at hs
    | some f =>
      cases f with
      | triggering dueEntries =>
        simp only [hi, Option.some.injEq] at hs
        exact hs ▸ h.triggerThrew hclock hi (hcareful dueEntries hi)
      | _ => simp [hi] at hs
  | reported i onError =>
    unfold Scheduler.step at hs
    cases hi : s.flights[i]? with
    | none => simp [hi] at hs
    | some f =>
      cases f with
      | resolveFailed hostId ref =>
        simp only [hi, Option.some.injEq] at hs
        exact hs ▸ h.finishResolve ha hclock hi (Or.inr rfl) fun st hst hlookup =>
          Or.inl (hcareful hostId ref st hi hlookup hst)
      | triggerFailed =>
        simp only [hi, Option.some.injEq] at hs
        exact hs ▸ h.finishTrigger hclock hi (Or.inl rfl)
      | _ => simp [hi] at hs

theorem invariant (hclock : Monotone clock) {as : List Action}
    (h : Run (Guarded (Careful c clock) (Steps.ofFn (Scheduler.step c clock))) initial as s) :
    Inv clock none s ∧ Armed s :=
  h.preserves (P := fun s => Inv clock none s ∧ Armed s) (fun _ _ _ hs hinv => hinv.1.step hinv.2 hclock hs.1 hs.2)
    ⟨inv_initial, fun _ _ hsome => nomatch hsome⟩

theorem foldl_earliest (deadlines : List ((Nat × Nat) × HostGroupDeadline)) : ∀ earliest : Option ℚ,
    (deadlines = [] ∧ deadlines.foldl (fun earliest e => some (earliest.elim e.2.dueAt (min · e.2.dueAt))) earliest = earliest) ∨
    ∃ dueAt, deadlines.foldl (fun earliest e => some (earliest.elim e.2.dueAt (min · e.2.dueAt))) earliest = some dueAt ∧
      (earliest = some dueAt ∨ ∃ e ∈ deadlines, e.2.dueAt = dueAt) ∧ (∀ first, earliest = some first → dueAt ≤ first) ∧
      ∀ e ∈ deadlines, dueAt ≤ e.2.dueAt := by
  induction deadlines with
  | nil => exact fun earliest => Or.inl ⟨rfl, rfl⟩
  | cons e deadlines ih =>
    intro earliest
    right
    have hstep : ∃ first, some (earliest.elim e.2.dueAt (min · e.2.dueAt)) = some first ∧ first ≤ e.2.dueAt ∧
        (∀ x, earliest = some x → first ≤ x) ∧ (first = e.2.dueAt ∨ earliest = some first) := by
      cases earliest with
      | none => exact ⟨_, rfl, le_refl _, fun _ hx => (nomatch hx), Or.inl rfl⟩
      | some x =>
        refine ⟨_, rfl, min_le_right _ _, fun y hy => Option.some.inj hy ▸ min_le_left _ _, ?_⟩
        exact (min_choice x e.2.dueAt).elim (fun h => Or.inr (congrArg some h.symm)) Or.inl
    obtain ⟨first, hfirst, hle, hother, hfrom⟩ := hstep
    rw [List.foldl_cons, hfirst]
    rcases ih (some first) with ⟨rfl, heq⟩ | ⟨dueAt, heq, hin, hbefore, hall⟩
    · refine ⟨first, heq, ?_, hother, fun e' he' => ?_⟩
      · exact hfrom.elim (fun h => Or.inr ⟨e, List.mem_singleton_self e, h.symm⟩) Or.inl
      · rw [List.mem_singleton.mp he']
        exact hle
    · have hdue := hbefore first rfl
      refine ⟨dueAt, heq, ?_, fun x hx => hdue.trans (hother x hx), fun e' he' => ?_⟩
      · rcases hin with hsame | ⟨e', he', hsame⟩
        · obtain rfl := Option.some.inj hsame
          exact hfrom.elim (fun h => Or.inr ⟨e, List.mem_cons_self, h.symm⟩) Or.inl
        · exact Or.inr ⟨e', List.mem_cons_of_mem e he', hsame⟩
      · rcases List.mem_cons.mp he' with rfl | he'
        · exact hdue.trans hle
        · exact hall e' he'

theorem earliest_spec (hne : s.groupDeadlines ≠ []) : ∃ dueAt, s.earliestGroupDueAt = some dueAt ∧
    (∃ e ∈ s.groupDeadlines, e.2.dueAt = dueAt) ∧ ∀ e ∈ s.groupDeadlines, dueAt ≤ e.2.dueAt := by
  rcases foldl_earliest s.groupDeadlines none with ⟨hnil, _⟩ | ⟨dueAt, heq, hin, _, hall⟩
  · exact absurd hnil hne
  · exact ⟨dueAt, heq, hin.resolve_left (by simp), hall⟩

end

/-! ## Careful runs -/

/-- Along a run whose steps are careful: a host that is known has a timer, is being resolved or was
resolved since it was seen; while no trigger runs the group timer is armed for the least deadline;
a deadline is from the state its host has now; `trigger` gets a group only for a host that was
silent long enough; and what a host was resolved to waits, is being triggered, or was. -/
theorem silence_scheduler_sound (silenceMs retryMs : Option ℚ) {clock : ℕ → ℚ} (hclock : Monotone clock)
    {s : Scheduler} {as : List Action}
    (h : Run (Guarded (Careful (.ofOptions silenceMs retryMs) clock)
      (Steps.ofFn (Scheduler.step (.ofOptions silenceMs retryMs) clock))) initial as s) :
    (∀ hostId ref, s.hosts.lookup hostId = some ref → ∃ st : HostSilenceState, s.states[ref]? = some st ∧
      ((∃ k d, st.timer = some k ∧ s.timers.get k = some ⟨.host hostId ref, d⟩) ∨
        (.resolving hostId ref ∈ s.flights ∨ .resolveFailed hostId ref ∈ s.flights) ∨
        ∃ groups, .resolved ref groups ∈ s.trace)) ∧
    (s.groupDeadlines ≠ [] → (∀ f ∈ s.flights, f.isTrigger = false) → ∃ dueAt k d,
      s.groupTimer = some k ∧ s.timers.get k = some ⟨.group dueAt, d⟩ ∧
      (∃ e ∈ s.groupDeadlines, e.2.dueAt = dueAt) ∧ ∀ e ∈ s.groupDeadlines, dueAt ≤ e.2.dueAt) ∧
    (∀ e ∈ s.groupDeadlines, s.hosts.lookup e.2.hostId = some e.2.origin) ∧
    (∀ now hosts groupIds, .called now hosts groupIds ∈ s.trace → ∀ g ∈ groupIds, JustlyCalled s now hosts g) ∧
    (∀ ref groups, .resolved ref groups ∈ s.trace → ∀ g ∈ groups, ∀ hostId, s.hosts.lookup hostId = some ref →
      Kept s ref g.1) := by
  obtain ⟨hinv, harmed⟩ := invariant hclock h
  refine ⟨fun hostId ref hlookup => ?_, fun hne hidle => ?_, fun e he => (hinv.table e he).2.1, hinv.called, hinv.kept⟩
  · obtain ⟨st, hst⟩ := hinv.known_state hlookup
    refine ⟨st, hst, ?_⟩
    rcases hinv.alive hostId ref st (by simp) hlookup hst with htimer | hresolving | hresolved
    · obtain ⟨k, hk⟩ := Option.isSome_iff_exists.mp htimer
      obtain ⟨d, hd⟩ := hinv.hostTimer hostId ref st k hlookup hst hk
      exact Or.inl ⟨k, d, hk, hd⟩
    · obtain ⟨hostId', hfly⟩ := hinv.flying ref st hst hresolving
      obtain rfl := (hinv.owned hostId' ref hfly).2 hostId hlookup
      exact Or.inr (Or.inl hfly)
    · exact Or.inr (Or.inr hresolved)
  · have hrun : s.groupTriggerRunning = false := by
      have hcount : s.flights.countP Flight.isTrigger = 0 := by
        rw [List.countP_eq_zero]
        intro f hf
        simp [hidle f hf]
      rw [hinv.triggers] at hcount
      simpa using hcount
    obtain ⟨dueAt, hearliest, hin, hleast⟩ := earliest_spec hne
    obtain ⟨hdueAt, htimer⟩ := harmed hrun dueAt hearliest
    obtain ⟨k, hk⟩ := Option.isSome_iff_exists.mp htimer
    obtain ⟨dueAt', d, hd, hdue⟩ := hinv.groupTimer k hk
    obtain rfl := Option.some.inj (hdueAt.symm.trans hdue)
    exact ⟨dueAt, k, d, hk, hd, hin, hleast⟩

def seconds (n : ℕ) : ℚ := 1000 * n

theorem seconds_mono : Monotone seconds := fun a b hab => by
  unfold seconds
  have : (a : ℚ) ≤ b := Nat.cast_le.mpr hab
  linarith

/-- Host 1 is seen at 0, is resolved to a deadline of group 7 and the group is triggered. -/
def silent : List Action :=
  [.observe (some 1) (.number (some 0)) none, .fire 0, .resolved 0 [(some 7, some 0)], .fire 1]

def defaults : Config := .ofOptions none none

def halfSeconds (n : ℕ) : ℚ := 500 * n

theorem halfSeconds_mono : Monotone halfSeconds := fun a b hab => by
  unfold halfSeconds
  have : (a : ℚ) ≤ b := Nat.cast_le.mpr hab
  linarith

instance (s : Scheduler) (retryAt : ℚ) (deadlines : List ((Nat × Nat) × HostGroupDeadline))
    (d : HostGroupDeadline) : Decidable (Unmistaken s retryAt deadlines d) :=
  decidable_of_iff (∀ ref ∈ s.hosts.lookup d.hostId, ∀ st ∈ s.states[ref]?, st.generation = d.generation →
      ref = d.origin ∨ ∃ existing ∈ Assoc.get deadlines d.key, existing.dueAt ≤ retryAt)
    ⟨fun h ref st hlookup hst => h ref hlookup st hst, fun h ref hlookup st hst => h ref st hlookup hst⟩

/-- The check of `Careful`. -/
def carefulCheck (c : Config) (clock : ℕ → ℚ) (s : Scheduler) : Action → Bool
  | .reported i _ =>
    match s.flights[i]? with
    | some (.resolveFailed hostId ref) =>
      decide (s.hosts.lookup hostId = some ref → ∀ st ∈ s.states[ref]?, clock s.reads < st.attemptAt)
    | _ => true
  | .triggerThrew i =>
    match s.flights[i]? with
    | some (.triggering dueEntries) =>
      decide (∀ d ∈ dueEntries, Unmistaken s (clock s.reads + c.retryMs) s.groupDeadlines d)
    | _ => true
  | _ => true

theorem careful_of_check {c : Config} {clock : ℕ → ℚ} {s : Scheduler} {a : Action}
    (h : carefulCheck c clock s a = true) : Careful c clock s a := by
  cases a with
  | reported i onError =>
    intro hostId ref st hflight hlookup hst
    simp only [carefulCheck, hflight] at h
    exact of_decide_eq_true h hlookup st hst
  | triggerThrew i =>
    intro dueEntries hflight
    simp only [carefulCheck, hflight] at h
    exact of_decide_eq_true h
  | _ => trivial

/-- The lookup of host 1 fails and is retried; the host is resolved to a deadline of group 7, whose
trigger fails and is retried. -/
def retried : List Action :=
  [.observe (some 1) (.number (some 0)) none, .fire 0, .resolveThrew 0, .reported 0 (.ok ()), .fire 1,
    .resolved 0 [(some 7, some 0)], .fire 2, .triggerThrew 0, .reported 0 (.error ()), .fire 3, .triggered 0]

theorem silent_host_is_retried : ∃ s,
    Run (Guarded (Careful defaults halfSeconds) (Steps.ofFn (Scheduler.step defaults halfSeconds))) initial retried s ∧
    (s.trace.filter fun e => match e with | .called .. => true | _ => false).length = 2 ∧
    ∀ now hosts groupIds, .called now hosts groupIds ∈ s.trace → ∀ g ∈ groupIds, JustlyCalled s now hosts g := by
  have hend : (exec (fun s a => if carefulCheck defaults halfSeconds s a then
      Scheduler.step defaults halfSeconds s a else none) initial retried).any (fun s =>
        decide ((s.trace.filter fun e => match e with | .called .. => true | _ => false).length = 2)) = true := by
    decide +kernel
  obtain ⟨s, hs, hcalls⟩ := (Option.any_eq_true _ _).mp hend
  have hrun := exec_guarded (G := Careful defaults halfSeconds) (fun _ _ => careful_of_check) hs
  exact ⟨s, hrun, of_decide_eq_true hcalls, (silence_scheduler_sound none none halfSeconds_mono hrun).2.2.2.1⟩

/-- The lookup of host 1 fails, and a second passes before the host would be armed again. -/
def stuck : List Action :=
  [.observe (some 1) (.number (some 0)) none, .fire 0, .resolveThrew 0, .reported 0 (.ok ())]

/-- The host is cleared and seen again while the trigger for its old silence runs, and the trigger
fails. -/
def revived : List Action :=
  silent ++ [.clear (some 1), .observe (some 1) (.number (some 100000)) none, .triggerThrew 0]

/-- A host can be left with no timer though it was never resolved, and a deadline of a host that was
seen again can come back. -/
theorem silence_scheduler_fails :
    (¬ ∀ (clock : ℕ → ℚ), Monotone clock → ∀ (as : List Action) (s : Scheduler),
      Run (Steps.ofFn (Scheduler.step defaults clock)) initial as s → ∀ hostId ref,
      s.hosts.lookup hostId = some ref → ∃ st : HostSilenceState, s.states[ref]? = some st ∧
      ((∃ k d, st.timer = some k ∧ s.timers.get k = some ⟨.host hostId ref, d⟩) ∨
        (.resolving hostId ref ∈ s.flights ∨ .resolveFailed hostId ref ∈ s.flights) ∨
        ∃ groups, .resolved ref groups ∈ s.trace)) ∧
    (¬ ∀ (clock : ℕ → ℚ), Monotone clock → ∀ (as : List Action) (s : Scheduler),
      Run (Steps.ofFn (Scheduler.step defaults clock)) initial as s →
      ∀ e ∈ s.groupDeadlines, s.hosts.lookup e.2.hostId = some e.2.origin) := by
  constructor
  · intro hall
    have hend : (exec (Scheduler.step defaults seconds) initial stuck).any (fun s =>
        s.hosts.lookup 1 == some 0 && s.flights.isEmpty && s.trace.isEmpty &&
          (s.states[0]?.any fun st => st.timer.isNone)) = true := by decide +kernel
    obtain ⟨s, hs, hend⟩ := (Option.any_eq_true _ _).mp hend
    simp only [Bool.and_eq_true, beq_iff_eq, List.isEmpty_iff] at hend
    obtain ⟨⟨⟨hlookup, hflights⟩, htrace⟩, hstate⟩ := hend
    obtain ⟨st, hst, htimer⟩ := (Option.any_eq_true _ _).mp hstate
    obtain ⟨st', hst', halive⟩ := hall seconds seconds_mono stuck s (exec_run hs) 1 0 hlookup
    obtain rfl := Option.some.inj (hst.symm.trans hst')
    rcases halive with ⟨k, d, hk, _⟩ | hfly | ⟨groups, hres⟩
    · simp [hk] at htimer
    · simp [hflights] at hfly
    · simp [htrace] at hres
  · intro hall
    have hend : (exec (Scheduler.step defaults seconds) initial revived).any (fun s =>
        s.groupDeadlines.any fun e => !(s.hosts.lookup e.2.hostId == some e.2.origin)) = true := by decide +kernel
    obtain ⟨s, hs, hend⟩ := (Option.any_eq_true _ _).mp hend
    obtain ⟨e, he, hne⟩ := List.any_eq_true.mp hend
    have hsame := hall seconds seconds_mono revived s (exec_run hs) e he
    simp [hsame] at hne

end ForwardX.Panel.SilenceScheduler
