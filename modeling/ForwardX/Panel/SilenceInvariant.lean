import ForwardX.Panel.SilenceScheduler
import ForwardX.Lib.Slots

/- What every operation of the silence scheduler keeps. A host that is known has a timer, is being
   resolved or was resolved; a deadline in the table comes from the state its host has now. -/
namespace ForwardX.Panel.SilenceScheduler

open Assoc EvaluationQueue

section
variable {c : Config} {clock : ℕ → ℚ} {s t : Scheduler}

/-! ## What only grows -/

/-- No state loses its generation or its silence, no host comes back to a state it had left, and
what happened stays. -/
structure Extends (s t : Scheduler) : Prop where
  states : ∀ (ref : Nat) (st : HostSilenceState), s.states[ref]? = some st →
    ∃ st' : HostSilenceState, t.states[ref]? = some st' ∧ st'.generation = st.generation ∧ st'.silentAt = st.silentAt
  hosts : ∀ hostId ref, ref < s.states.length → t.hosts.lookup hostId = some ref → s.hosts.lookup hostId = some ref
  trace : ∀ e ∈ s.trace, e ∈ t.trace

theorem Extends.length (h : Extends s t) {ref : Nat} (hlt : ref < s.states.length) : ref < t.states.length := by
  obtain ⟨st', hst', _⟩ := h.states ref _ (List.getElem?_eq_getElem hlt)
  exact (List.getElem?_eq_some_iff.mp hst').1

def Owner (s : Scheduler) (hostId ref : Nat) : Prop :=
  ref < s.states.length ∧ ∀ hostId', s.hosts.lookup hostId' = some ref → hostId' = hostId

variable {hostId ref : Nat}

theorem Owner.mono (h : Owner s hostId ref) (ht : Extends s t) : Owner t hostId ref :=
  ⟨ht.length h.1, fun hostId' hlookup => h.2 hostId' (ht.hosts hostId' ref h.1 hlookup)⟩

/-- The deadline was resolved for its state, and is due no sooner than that says. -/
def Valid (s : Scheduler) (d : HostGroupDeadline) : Prop :=
  Owner s d.hostId d.origin ∧ ∃ (st : HostSilenceState) (groups : List (Nat × ℚ)), s.states[d.origin]? = some st ∧
    st.generation = d.generation ∧ st.silentAt + d.timeoutMs ≤ d.dueAt ∧
    .resolved d.origin groups ∈ s.trace ∧ (d.groupId, d.timeoutMs) ∈ groups

theorem Valid.mono {d : HostGroupDeadline} (h : Valid s d) (ht : Extends s t) : Valid t d := by
  obtain ⟨howner, st, groups, hst, hgeneration, hdue, hresolved, hmem⟩ := h
  obtain ⟨st', hst', hgeneration', hsilent⟩ := ht.states d.origin st hst
  exact ⟨howner.mono ht, st', groups, hst', hgeneration'.trans hgeneration, hsilent ▸ hdue, ht.trace _ hresolved, hmem⟩

/-- Where the deadlines of a group that were resolved for a state can be. -/
def Kept (s : Scheduler) (ref groupId : Nat) : Prop :=
  (∃ e ∈ s.groupDeadlines, e.2.origin = ref ∧ e.2.groupId = groupId) ∨
  (∃ dueEntries, .triggering dueEntries ∈ s.flights ∧ ∃ d ∈ dueEntries, d.origin = ref ∧ d.groupId = groupId) ∨
  (∃ dueEntries, .triggered dueEntries ∈ s.trace ∧ ∃ d ∈ dueEntries, d.origin = ref ∧ d.groupId = groupId)

/-- A call of `trigger` was given a group for the silence of a host that was known then. -/
def JustlyCalled (s : Scheduler) (now : ℚ) (hosts : List (Nat × Nat)) (groupId : Nat) : Prop :=
  ∃ (hostId ref : Nat) (st : HostSilenceState) (groups : List (Nat × ℚ)) (timeoutMs : ℚ),
    hosts.lookup hostId = some ref ∧ s.states[ref]? = some st ∧ .resolved ref groups ∈ s.trace ∧
    (groupId, timeoutMs) ∈ groups ∧ st.silentAt + timeoutMs ≤ now

theorem JustlyCalled.mono {now : ℚ} {hosts : List (Nat × Nat)} {groupId : Nat} (h : JustlyCalled s now hosts groupId)
    (ht : Extends s t) : JustlyCalled t now hosts groupId := by
  obtain ⟨hostId, ref, st, groups, timeoutMs, hhost, hst, hresolved, hmem, hdue⟩ := h
  obtain ⟨st', hst', _, hsilent⟩ := ht.states ref st hst
  exact ⟨hostId, ref, st', groups, timeoutMs, hhost, hst', ht.trace _ hresolved, hmem, hsilent ▸ hdue⟩

/-! ## The invariant -/

/-- The state of `hostId` is neither stuck nor forgotten. -/
def Alive (s : Scheduler) (ref : Nat) (st : HostSilenceState) : Prop :=
  st.timer.isSome ∨ st.resolving = true ∨ ∃ groups, .resolved ref groups ∈ s.trace

/-- A call of `trigger` is in progress, or its error is reported. -/
def Flight.isTrigger : Flight → Bool
  | .resolving _ _ => false
  | .resolveFailed _ _ => false
  | .triggering _ => true
  | .triggerFailed => true

/-- `x` is a state that is not claimed to be alive, inside an operation on it. -/
structure Inv (clock : ℕ → ℚ) (x : Option Nat) (s : Scheduler) : Prop where
  known : ∀ hostId ref, s.hosts.lookup hostId = some ref → Owner s hostId ref
  hostTimer : ∀ (hostId ref : Nat) (st : HostSilenceState) (k : Nat), s.hosts.lookup hostId = some ref →
    s.states[ref]? = some st → st.timer = some k → ∃ d, s.timers.get k = some ⟨.host hostId ref, d⟩
  alive : ∀ (hostId ref : Nat) (st : HostSilenceState), x ≠ some ref → s.hosts.lookup hostId = some ref →
    s.states[ref]? = some st → Alive s ref st
  flying : ∀ (ref : Nat) (st : HostSilenceState), s.states[ref]? = some st → st.resolving = true →
    ∃ hostId, .resolving hostId ref ∈ s.flights ∨ .resolveFailed hostId ref ∈ s.flights
  owned : ∀ hostId ref, .resolving hostId ref ∈ s.flights ∨ .resolveFailed hostId ref ∈ s.flights →
    Owner s hostId ref
  groupTimer : ∀ k, s.groupTimer = some k →
    ∃ dueAt d, s.timers.get k = some ⟨.group dueAt, d⟩ ∧ s.groupTimerDueAt = some dueAt
  table : ∀ e ∈ s.groupDeadlines, e.1 = e.2.key ∧ s.hosts.lookup e.2.hostId = some e.2.origin ∧ Valid s e.2
  taken : ∀ dueEntries, .triggering dueEntries ∈ s.flights → ∀ d ∈ dueEntries, Valid s d ∧ d.dueAt ≤ clock s.reads
  triggers : s.flights.countP Flight.isTrigger = if s.groupTriggerRunning then 1 else 0
  resolved : ∀ ref groups, .resolved ref groups ∈ s.trace → ref < s.states.length
  kept : ∀ ref groups, .resolved ref groups ∈ s.trace → ∀ g ∈ groups, ∀ hostId, s.hosts.lookup hostId = some ref →
    Kept s ref g.1
  called : ∀ now hosts groupIds, .called now hosts groupIds ∈ s.trace → ∀ g ∈ groupIds, JustlyCalled s now hosts g

/-- Deadlines that wait have the group timer armed for the least of them. -/
def Armed (s : Scheduler) : Prop :=
  s.groupTriggerRunning = false → ∀ dueAt, s.earliestGroupDueAt = some dueAt →
    s.groupTimerDueAt = some dueAt ∧ s.groupTimer.isSome

theorem inv_initial : Inv clock none initial where
  known _ _ h := nomatch h
  hostTimer _ _ _ _ h := nomatch h
  alive _ _ _ _ h := nomatch h
  flying _ _ h := nomatch h
  owned _ _ h := h.elim (fun h => nomatch h) (fun h => nomatch h)
  groupTimer _ h := nomatch h
  table _ h := nomatch h
  taken _ h := nomatch h
  triggers := rfl
  resolved _ _ h := nomatch h
  kept _ _ h := nomatch h
  called _ _ _ h := nomatch h

variable {x : Option Nat}

theorem Inv.known_state (h : Inv clock x s) (hlookup : s.hosts.lookup hostId = some ref) :
    ∃ st, s.states[ref]? = some st :=
  ⟨_, List.getElem?_eq_getElem (h.known hostId ref hlookup).1⟩

theorem Inv.tick (h : Inv clock x s) (hclock : Monotone clock) : Inv clock x s.tick :=
  ⟨h.known, h.hostTimer, h.alive, h.flying, h.owned, h.groupTimer, h.table,
    fun dueEntries hmem d hd => ⟨(h.taken dueEntries hmem d hd).1,
      (h.taken dueEntries hmem d hd).2.trans (hclock (Nat.le_succ _))⟩,
    h.triggers, h.resolved, h.kept, h.called⟩

theorem isCurrent_iff : s.isCurrent hostId ref = true ↔ s.hosts.lookup hostId = some ref := by
  rw [Scheduler.isCurrent, beq_iff_eq]

/-- What `setState` leaves of the other states, and of every state what it is known by. -/
theorem setState_get (s : Scheduler) (ref : Nat) (f : HostSilenceState → HostSilenceState) (r : Nat) :
    (s.setState ref f).states[r]? = if ref = r then (s.states[r]?).map f else s.states[r]? := by
  show (s.states.modify ref f)[r]? = _
  rw [List.getElem?_modify]
  by_cases hr : ref = r
  · simp [hr]
  · simp [hr]

theorem extends_setState (s : Scheduler) (ref : Nat) {f : HostSilenceState → HostSilenceState}
    (hf : ∀ st, (f st).generation = st.generation ∧ (f st).silentAt = st.silentAt) : Extends s (s.setState ref f) where
  states r st hst := by
    rw [setState_get, hst]
    by_cases hr : ref = r
    · exact ⟨f st, by rw [if_pos hr]; rfl, hf st⟩
    · exact ⟨st, by rw [if_neg hr], rfl, rfl⟩
  hosts _ _ _ hlookup := hlookup
  trace _ he := he

theorem Inv.setState (h : Inv clock x s) (hostId ref : Nat) {f : HostSilenceState → HostSilenceState}
    (hx : ∀ r, x = some r → r = ref) (howner : Owner s hostId ref)
    (hf : ∀ st, (f st).generation = st.generation ∧ (f st).silentAt = st.silentAt)
    (htimer : ∀ st k, s.states[ref]? = some st → (f st).timer = some k → s.hosts.lookup hostId = some ref →
      ∃ d, s.timers.get k = some ⟨.host hostId ref, d⟩)
    (hresolving : ∀ st, s.states[ref]? = some st → (f st).resolving = true →
      ∃ hostId, .resolving hostId ref ∈ s.flights ∨ .resolveFailed hostId ref ∈ s.flights) :
    Inv clock (some ref) (s.setState ref f) := by
  have hext := extends_setState s ref hf
  have hcases : ∀ {r st}, (s.setState ref f).states[r]? = some st →
      (r = ref ∧ ∃ st₀, s.states[r]? = some st₀ ∧ st = f st₀) ∨ (r ≠ ref ∧ s.states[r]? = some st) := by
    intro r st hst
    rw [setState_get] at hst
    by_cases hr : ref = r
    · rw [if_pos hr, Option.map_eq_some_iff] at hst
      obtain ⟨st₀, hst₀, heq⟩ := hst
      exact Or.inl ⟨hr.symm, st₀, hst₀, heq.symm⟩
    · rw [if_neg hr] at hst
      exact Or.inr ⟨Ne.symm hr, hst⟩
  refine ⟨fun a b hab => (h.known a b hab).mono hext, fun a b st k hab hst hk => ?_, fun a b st hb hab hst => ?_,
    fun b st hst hres => ?_, fun a b hab => (h.owned a b hab).mono hext, h.groupTimer,
    fun e he => ⟨(h.table e he).1, (h.table e he).2.1, (h.table e he).2.2.mono hext⟩,
    fun entries hmem d hd => ⟨(h.taken entries hmem d hd).1.mono hext, (h.taken entries hmem d hd).2⟩, h.triggers,
    fun b groups hb => hext.length (h.resolved b groups hb), h.kept,
    fun now hosts groupIds hmem g hg => (h.called now hosts groupIds hmem g hg).mono hext⟩
  · rcases hcases hst with ⟨rfl, st₀, hst₀, rfl⟩ | ⟨_, hst⟩
    · obtain rfl := howner.2 a hab
      exact htimer st₀ k hst₀ hk hab
    · exact h.hostTimer a b st k hab hst hk
  · rcases hcases hst with ⟨rfl, _⟩ | ⟨hne, hst⟩
    · exact absurd rfl hb
    · refine h.alive a b st (fun hxb => hne (hx b hxb)) hab hst
  · rcases hcases hst with ⟨rfl, st₀, hst₀, rfl⟩ | ⟨_, hst⟩
    · exact hresolving st₀ hst₀ hres
    · exact h.flying b st hst hres

theorem Inv.revive (h : Inv clock x s) (hx : ∀ r, x = some r → r = ref)
    (halive : ∀ hostId st, s.hosts.lookup hostId = some ref → s.states[ref]? = some st → Alive s ref st) :
    Inv clock none s :=
  { h with
    alive := fun hostId r st _ hlookup hst => by
      by_cases hr : r = ref
      · subst hr
        exact halive hostId st hlookup hst
      · exact h.alive hostId r st (fun hxr => hr (hx r hxr)) hlookup hst }

/-! ## Timers -/

theorem Inv.setTimer (h : Inv clock x s) (timer : Timer) : Inv clock x { s with timers := s.timers.set timer } := by
  have hkeep : ∀ {k : Nat} {old : Timer}, s.timers.get k = some old → (s.timers.set timer).get k = some old := by
    intro k old hold
    rw [Timers.get_set, if_neg]
    · exact hold
    · rintro rfl
      rw [s.timers.get_next] at hold
      cases hold
  refine ⟨h.known, fun a b st k hab hst hk => ?_, h.alive, h.flying, h.owned, fun k hk => ?_, h.table, h.taken,
    h.triggers, h.resolved, h.kept, h.called⟩
  · obtain ⟨d, hd⟩ := h.hostTimer a b st k hab hst hk
    exact ⟨d, hkeep hd⟩
  · obtain ⟨dueAt, d, hd, hdue⟩ := h.groupTimer k hk
    exact ⟨dueAt, d, hkeep hd, hdue⟩

theorem Inv.armHost (h : Inv clock x s) (hclock : Monotone clock) (hx : ∀ r, x = some r → r = ref)
    (hlookup : s.hosts.lookup hostId = some ref) : Inv clock none (s.armHost clock hostId ref) := by
  obtain ⟨st, hst⟩ := h.known_state hlookup
  have hcurrent : s.isCurrent hostId ref = true := isCurrent_iff.mpr hlookup
  simp only [Scheduler.armHost, hst]
  by_cases hskip : (!s.isCurrent hostId ref || st.timer.isSome || st.resolving) = true
  · rw [if_pos hskip]
    refine h.revive hx fun _ st' _ hst' => ?_
    obtain rfl := Option.some.inj (hst.symm.trans hst')
    simp only [hcurrent, Bool.not_true, Bool.false_or, Bool.or_eq_true] at hskip
    exact hskip.imp id Or.inl
  · rw [if_neg hskip]
    have hset := ((h.setTimer ⟨.host hostId ref, timerDelay st.attemptAt (s.now clock)⟩).tick hclock).setState hostId ref
      (f := fun st => { st with timer := some s.timers.next }) hx (h.known hostId ref hlookup)
      (fun _ => ⟨rfl, rfl⟩) (fun _ k _ hk _ => by
        obtain rfl := Option.some.inj hk
        exact ⟨_, (Timers.get_set _ _ _).trans (if_pos rfl)⟩) (fun st' hst' hres => h.flying ref st' hst' hres)
    refine hset.revive (fun r hr => (Option.some.inj hr).symm) fun _ st' _ hst' => ?_
    rw [setState_get, if_pos rfl, Option.map_eq_some_iff] at hst'
    obtain ⟨_, _, rfl⟩ := hst'
    exact Or.inl rfl

theorem armed_armHost (h : Armed s) : Armed (s.armHost clock hostId ref) := by
  unfold Scheduler.armHost
  split
  · exact h
  · split
    · exact h
    · exact h

theorem Inv.armGroupTimer (h : Inv clock x s) (hclock : Monotone clock) (force : Bool) :
    Inv clock x (s.armGroupTimer clock force) ∧ Armed (s.armGroupTimer clock force) := by
  -- clearing the group timer clears no host's
  have hclear : ∀ {k : Nat} {hostId ref : Nat} {d : ℚ}, s.timers.get k = some ⟨.host hostId ref, d⟩ →
      (s.timers.clearSome s.groupTimer).get k = some ⟨.host hostId ref, d⟩ := by
    intro k hostId ref d hget
    rw [Timers.get_clearSome, if_neg]
    · exact hget
    · intro hgroup
      obtain ⟨dueAt, d', hd', _⟩ := h.groupTimer k hgroup
      rw [hget] at hd'
      cases hd'
  have hcleared : Inv clock x
      { s with timers := s.timers.clearSome s.groupTimer, groupTimer := none, groupTimerDueAt := none } :=
    ⟨h.known, (fun a b st k hab hst hk => (h.hostTimer a b st k hab hst hk).imp fun _ hd => hclear hd), h.alive, h.flying,
      h.owned, (fun _ hk => nomatch hk), h.table, h.taken, h.triggers, h.resolved, h.kept, h.called⟩
  unfold Scheduler.armGroupTimer
  by_cases hrun : s.groupTriggerRunning = true
  · rw [if_pos hrun]
    exact ⟨h, fun hfalse => absurd (hrun.symm.trans hfalse) (by simp)⟩
  · rw [if_neg hrun]
    cases hdue : s.earliestGroupDueAt with
    | none =>
      refine ⟨hcleared, fun _ dueAt hsome => ?_⟩
      exact absurd (hdue.symm.trans hsome) (by simp)
    | some dueAt =>
      dsimp only
      by_cases hskip : (!force && s.groupTimer.isSome && s.groupTimerDueAt == some dueAt) = true
      · rw [if_pos hskip]
        simp only [Bool.and_eq_true, beq_iff_eq] at hskip
        refine ⟨h, fun _ dueAt' hdue' => ?_⟩
        obtain rfl := Option.some.inj (hdue.symm.trans hdue')
        exact ⟨hskip.2, hskip.1.2⟩
      · rw [if_neg hskip]
        have hset := (hcleared.setTimer ⟨.group dueAt, timerDelay dueAt (s.now clock)⟩).tick hclock
        refine ⟨⟨hset.known, hset.hostTimer, hset.alive, hset.flying, hset.owned, fun k hk => ?_, hset.table, hset.taken,
          hset.triggers, hset.resolved, hset.kept, hset.called⟩, fun _ dueAt' hdue' => ?_⟩
        · obtain rfl := Option.some.inj hk
          exact ⟨dueAt, _, (Timers.get_set _ _ _).trans (if_pos rfl), rfl⟩
        · exact ⟨hdue.symm.trans hdue', rfl⟩

/-- Arming the group timer leaves the hosts, the calls in progress and the trace. -/
theorem frame_armGroupTimer (s : Scheduler) (force : Bool) : (s.armGroupTimer clock force).hosts = s.hosts ∧
    (s.armGroupTimer clock force).flights = s.flights ∧ (s.armGroupTimer clock force).trace = s.trace := by
  unfold Scheduler.armGroupTimer
  split
  · exact ⟨rfl, rfl, rfl⟩
  · split
    · exact ⟨rfl, rfl, rfl⟩
    · split <;> exact ⟨rfl, rfl, rfl⟩

theorem hosts_removeDeadlines (s : Scheduler) (hostId : Nat) :
    (s.removeDeadlinesForHost clock hostId).hosts = s.hosts := by
  unfold Scheduler.removeDeadlinesForHost
  dsimp only
  split
  · exact (frame_armGroupTimer _ _).1
  · rfl

theorem Inv.removeDeadlines (hclock : Monotone clock)
    (h : Inv clock x { s with groupDeadlines := s.groupDeadlines.filter (fun e => e.2.hostId ≠ hostId) })
    (ha : Armed s) :
    Inv clock x (s.removeDeadlinesForHost clock hostId) ∧ Armed (s.removeDeadlinesForHost clock hostId) := by
  unfold Scheduler.removeDeadlinesForHost
  cases hany : s.groupDeadlines.any (fun e => e.2.hostId == hostId) with
  | true => exact h.armGroupTimer hclock true
  | false =>
    have hsame : s.groupDeadlines.filter (fun e => e.2.hostId ≠ hostId) = s.groupDeadlines := by
      apply List.filter_eq_self.mpr
      intro e he
      simpa using List.any_eq_false.mp hany e he
    rw [hsame] at h
    simp only [Bool.false_eq_true, if_false]
    rw [hsame]
    exact ⟨h, ha⟩

/-! ## Hosts that come and go -/

theorem Kept.imp {ref groupId : Nat} (h : Kept s ref groupId)
    (htable : ∀ e ∈ s.groupDeadlines, e.2.origin = ref → e.2.groupId = groupId →
      ∃ e' ∈ t.groupDeadlines, e'.2.origin = ref ∧ e'.2.groupId = groupId)
    (hflights : ∀ dueEntries, .triggering dueEntries ∈ s.flights → .triggering dueEntries ∈ t.flights)
    (htrace : ∀ e ∈ s.trace, e ∈ t.trace) : Kept t ref groupId := by
  rcases h with ⟨e, he, horigin, hgroup⟩ | ⟨entries, hmem, hd⟩ | ⟨entries, hmem, hd⟩
  · exact Or.inl (htable e he horigin hgroup)
  · exact Or.inr (Or.inl ⟨entries, hflights entries hmem, hd⟩)
  · exact Or.inr (Or.inr ⟨entries, htrace _ hmem, hd⟩)

/-- A host is no longer known: its timer is cleared and its deadlines go. -/
theorem Inv.forget (h : Inv clock x s) (hostId : Nat) :
    Inv clock x { s with
      timers := s.timers.clearSome (((s.hosts.lookup hostId).bind (s.states[·]?)).bind (·.timer))
      hosts := erase s.hosts hostId
      groupDeadlines := s.groupDeadlines.filter (fun e => e.2.hostId ≠ hostId) } := by
  have hlookup : ∀ {a ref : Nat}, (erase s.hosts hostId).lookup a = some ref → a ≠ hostId ∧ s.hosts.lookup a = some ref := by
    intro a ref ha
    by_cases hah : a = hostId
    · rw [hah, lookup_erase_self] at ha
      cases ha
    · rw [lookup_erase_ne _ hah] at ha
      exact ⟨hah, ha⟩
  -- the timer that is cleared is the host's own
  have htimer : ∀ {k : Nat} {timer : Timer}, s.timers.get k = some timer →
      (∀ ref, timer.callback ≠ .host hostId ref) →
      (s.timers.clearSome (((s.hosts.lookup hostId).bind (s.states[·]?)).bind (·.timer))).get k = some timer := by
    intro k timer hget hother
    rw [Timers.get_clearSome, if_neg]
    · exact hget
    · intro hk
      obtain ⟨st, hst, hk⟩ := Option.bind_eq_some_iff.mp hk
      obtain ⟨ref, href, hst⟩ := Option.bind_eq_some_iff.mp hst
      obtain ⟨d, hd⟩ := h.hostTimer hostId ref st k href hst hk
      obtain rfl := Option.some.inj (hget.symm.trans hd)
      exact hother ref rfl
  have hext : Extends s { s with
      timers := s.timers.clearSome (((s.hosts.lookup hostId).bind (s.states[·]?)).bind (·.timer))
      hosts := erase s.hosts hostId
      groupDeadlines := s.groupDeadlines.filter (fun e => e.2.hostId ≠ hostId) } :=
    ⟨fun _ st hst => ⟨st, hst, rfl, rfl⟩, fun _ _ _ ha => (hlookup ha).2, fun _ he => he⟩
  refine ⟨fun a b hab => (h.known a b (hlookup hab).2).mono hext, fun a b st k hab hst hk => ?_,
    fun a b st hb hab hst => h.alive a b st hb (hlookup hab).2 hst, h.flying,
    fun a b hab => (h.owned a b hab).mono hext, fun k hk => ?_, fun e he => ?_,
    fun entries hmem d hd => ⟨(h.taken entries hmem d hd).1.mono hext, (h.taken entries hmem d hd).2⟩, h.triggers,
    h.resolved, fun ref groups hmem g hg a ha => ?_,
    fun now hosts groupIds hmem g hg => (h.called now hosts groupIds hmem g hg).mono hext⟩
  · obtain ⟨hne, hab⟩ := hlookup hab
    obtain ⟨d, hd⟩ := h.hostTimer a b st k hab hst hk
    refine ⟨d, htimer hd fun ref heq => hne ?_⟩
    cases heq
    rfl
  · obtain ⟨dueAt, d, hd, hdue⟩ := h.groupTimer k hk
    exact ⟨dueAt, d, htimer hd (fun _ heq => nomatch heq), hdue⟩
  · obtain ⟨he, hne⟩ := List.mem_filter.mp he
    obtain ⟨hkey, hcurrent, hvalid⟩ := h.table e he
    refine ⟨hkey, ?_, hvalid.mono hext⟩
    show (erase s.hosts hostId).lookup _ = _
    rw [lookup_erase_ne _ (by simpa using hne)]
    exact hcurrent
  · obtain ⟨hne, ha⟩ := hlookup ha
    refine (h.kept ref groups hmem g hg a ha).imp (fun e he horigin hgroup => ⟨e, ?_, horigin, hgroup⟩) (fun _ => id)
      (fun _ => id)
    refine List.mem_filter.mpr ⟨he, ?_⟩
    -- the deadlines of the state are of the host that has it
    have hcurrent := (h.table e he).2.1
    rw [horigin] at hcurrent
    have hsame := (h.known a ref ha).2 _ hcurrent
    rw [hsame]
    simpa using hne

theorem Inv.enlist (h : Inv clock none s) (hostId : Nat) (hnone : s.hosts.lookup hostId = none)
    {u : HostSilenceState} (htimer : u.timer = none) (hresolving : u.resolving = false) :
    Inv clock (some s.states.length) { s with
      states := s.states ++ [u], hosts := put s.hosts hostId s.states.length } := by
  have hlookup : ∀ {a ref : Nat}, (put s.hosts hostId s.states.length).lookup a = some ref →
      (a = hostId ∧ ref = s.states.length) ∨ (a ≠ hostId ∧ s.hosts.lookup a = some ref) := by
    intro a ref ha
    by_cases hah : a = hostId
    · rw [hah, lookup_put_self] at ha
      exact Or.inl ⟨hah, (Option.some.inj ha).symm⟩
    · rw [lookup_put_ne _ hah] at ha
      exact Or.inr ⟨hah, ha⟩
  have hget : ∀ {ref : Nat} {st' : HostSilenceState}, (s.states ++ [u])[ref]? = some st' →
      (ref = s.states.length ∧ st' = u) ∨ (ref < s.states.length ∧ s.states[ref]? = some st') :=
    fun hst => Slots.getElem?_concat_cases hst
  have hext : Extends s { s with states := s.states ++ [u], hosts := put s.hosts hostId s.states.length } := by
    refine ⟨fun ref st' hst' => ⟨st', ?_, rfl, rfl⟩, fun a ref hlt ha => ?_, fun _ he => he⟩
    · exact (List.getElem?_append_left (List.getElem?_eq_some_iff.mp hst').1).trans hst'
    · rcases hlookup ha with ⟨_, rfl⟩ | ⟨_, ha⟩
      · exact absurd hlt (Nat.lt_irrefl _)
      · exact ha
  refine ⟨fun a b hab => ?_, fun a b st' k hab hst' hk => ?_, fun a b st' hb hab hst' => ?_, fun b st' hst' hres => ?_,
    fun a b hab => (h.owned a b hab).mono hext, h.groupTimer, fun e he => ?_,
    fun entries hmem d hd => ⟨(h.taken entries hmem d hd).1.mono hext, (h.taken entries hmem d hd).2⟩, h.triggers,
    fun b groups hb => hext.length (h.resolved b groups hb), fun ref groups hmem g hg a ha => ?_,
    fun now hosts groupIds hmem g hg => (h.called now hosts groupIds hmem g hg).mono hext⟩
  · rcases hlookup hab with ⟨rfl, rfl⟩ | ⟨_, hab⟩
    · refine ⟨by simp, fun a' ha' => ?_⟩
      rcases hlookup ha' with ⟨rfl, _⟩ | ⟨_, ha'⟩
      · rfl
      · exact absurd (h.known a' _ ha').1 (Nat.lt_irrefl _)
    · exact (h.known a b hab).mono hext
  · rcases hget hst' with ⟨_, rfl⟩ | ⟨hlt, hst'⟩
    · rw [htimer] at hk
      cases hk
    · rcases hlookup hab with ⟨_, rfl⟩ | ⟨_, hab⟩
      · exact absurd hlt (Nat.lt_irrefl _)
      · exact h.hostTimer a b st' k hab hst' hk
  · rcases hlookup hab with ⟨_, rfl⟩ | ⟨_, hab⟩
    · exact absurd rfl hb
    · have hlt := (h.known a b hab).1
      rcases hget hst' with ⟨rfl, _⟩ | ⟨_, hst'⟩
      · exact absurd hlt (Nat.lt_irrefl _)
      · exact h.alive a b st' (by simp) hab hst'
  · rcases hget hst' with ⟨_, rfl⟩ | ⟨_, hst'⟩
    · rw [hresolving] at hres
      cases hres
    · exact h.flying b st' hst' hres
  · obtain ⟨hkey, hcurrent, hvalid⟩ := h.table e he
    refine ⟨hkey, ?_, hvalid.mono hext⟩
    show (put s.hosts hostId _).lookup _ = _
    rw [lookup_put_ne]
    · exact hcurrent
    · intro hsame
      rw [hsame, hnone] at hcurrent
      cases hcurrent
  · rcases hlookup ha with ⟨_, rfl⟩ | ⟨_, ha⟩
    · exact absurd (h.resolved _ groups hmem) (Nat.lt_irrefl _)
    · exact (h.kept ref groups hmem g hg a ha).imp (fun e he horigin hgroup => ⟨e, he, horigin, hgroup⟩) (fun _ => id)
        (fun _ => id)

theorem Inv.clear (h : Inv clock none s) (ha : Armed s) (hclock : Monotone clock) (hostId : Option Int) :
    Inv clock none (s.clear clock hostId).1 ∧ Armed (s.clear clock hostId).1 := by
  unfold Scheduler.clear
  cases positiveInteger hostId with
  | none => exact ⟨h, ha⟩
  | some hostId => exact Inv.removeDeadlines hclock (h.forget hostId) ha

theorem Inv.accept (h : Inv clock none s) (ha : Armed s) (hclock : Monotone clock) {existing : Option HostSilenceState}
    (hexisting : (s.hosts.lookup hostId).bind (s.states[·]?) = existing) (seenAt silentAt attemptAt : ℚ) :
    Inv clock none (s.accept clock hostId existing seenAt silentAt attemptAt) ∧
      Armed (s.accept clock hostId existing seenAt silentAt attemptAt) := by
  have hput : put (erase s.hosts hostId) hostId s.states.length = put s.hosts hostId s.states.length := by
    unfold put
    rw [erase_of_notMem (notMem_erase s.hosts hostId)]
  have hforget := h.forget hostId
  rw [hexisting] at hforget
  have henlist := hforget.enlist hostId (lookup_erase_self _ _)
    (u := ⟨existing.elim 0 (·.generation) + 1, seenAt, silentAt, attemptAt, none, false⟩) rfl rfl
  obtain ⟨hremoved, harmed⟩ := Inv.removeDeadlines (s := { s with
    timers := s.timers.clearSome (existing.bind (·.timer))
    states := s.states ++ [⟨existing.elim 0 (·.generation) + 1, seenAt, silentAt, attemptAt, none, false⟩]
    hosts := put s.hosts hostId s.states.length }) (x := some s.states.length) hclock (hput ▸ henlist) ha
  refine ⟨hremoved.armHost hclock (fun r hr => (Option.some.inj hr).symm) ?_, armed_armHost harmed⟩
  rw [hosts_removeDeadlines]
  exact lookup_put_self _ _ _

/-! ## Hosts that are resolved -/

theorem Inv.resolveHost (h : Inv clock x s) (hx : ∀ r, x = some r → r = ref)
    (hlookup : s.hosts.lookup hostId = some ref) : Inv clock none (s.resolveHost hostId ref) := by
  obtain ⟨st, hst⟩ := h.known_state hlookup
  have howner := h.known hostId ref hlookup
  have hcurrent : s.isCurrent hostId ref = true := isCurrent_iff.mpr hlookup
  simp only [Scheduler.resolveHost, hst]
  by_cases hskip : (!s.isCurrent hostId ref || st.resolving) = true
  · rw [if_pos hskip]
    refine h.revive hx fun _ st' _ hst' => ?_
    obtain rfl := Option.some.inj (hst.symm.trans hst')
    rw [hcurrent, Bool.not_true, Bool.false_or] at hskip
    exact Or.inr (Or.inl hskip)
  · rw [if_neg hskip]
    have htakeOff : Inv clock x { s with flights := s.flights ++ [.resolving hostId ref] } := by
      refine ⟨h.known, h.hostTimer, h.alive, fun r st' hst' hres => ?_, fun a b hab => ?_, h.groupTimer, h.table,
        fun entries hmem => ?_, ?_, h.resolved, fun r groups hmem g hg a ha => ?_, h.called⟩
      · obtain ⟨a, ha⟩ := h.flying r st' hst' hres
        exact ⟨a, ha.imp (List.mem_append_left _) (List.mem_append_left _)⟩
      · simp only [List.mem_append, List.mem_singleton, Flight.resolving.injEq, reduceCtorEq, or_false] at hab
        rcases hab with (hab | ⟨rfl, rfl⟩) | hab
        · exact h.owned a b (Or.inl hab)
        · exact howner
        · exact h.owned a b (Or.inr hab)
      · simp only [List.mem_append, List.mem_singleton, reduceCtorEq, or_false] at hmem
        exact h.taken entries hmem
      · show (s.flights ++ [_]).countP Flight.isTrigger = _
        rw [List.countP_append, List.countP_singleton]
        exact h.triggers
      · exact (h.kept r groups hmem g hg a ha).imp (fun e he horigin hgroup => ⟨e, he, horigin, hgroup⟩)
          (fun _ => List.mem_append_left _) (fun _ => id)
    have hset := htakeOff.setState hostId ref (f := fun st => { st with resolving := true }) hx howner
      (fun _ => ⟨rfl, rfl⟩) (fun st' k hst' hk _ => h.hostTimer hostId ref st' k hlookup hst' hk)
      (fun _ _ _ => ⟨hostId, Or.inl (List.mem_append_right _ (List.mem_singleton_self _))⟩)
    refine hset.revive (fun r hr => (Option.some.inj hr).symm) fun _ st' _ hst' => ?_
    rw [setState_get, if_pos rfl, Option.map_eq_some_iff] at hst'
    obtain ⟨_, _, rfl⟩ := hst'
    exact Or.inr (Or.inl rfl)

/-- A call of `resolveHost` returns. Its host is armed again, unless it was resolved or the time of
the next attempt has passed. -/
theorem Inv.finishResolve (h : Inv clock none s) (ha : Armed s) (hclock : Monotone clock) {i hostId ref : Nat}
    {f : Flight} (hi : s.flights[i]? = some f) (hf : f = .resolving hostId ref ∨ f = .resolveFailed hostId ref)
    (hok : ∀ st, s.states[ref]? = some st → s.hosts.lookup hostId = some ref →
      clock s.reads < st.attemptAt ∨ ∃ groups, .resolved ref groups ∈ s.trace) :
    Inv clock none (s.finishResolve clock i hostId ref) ∧ Armed (s.finishResolve clock i hostId ref) := by
  have hmem : f ∈ s.flights := List.mem_of_getElem? hi
  have howner : Owner s hostId ref := h.owned hostId ref (by rcases hf with rfl | rfl <;> simp [hmem])
  have htrigger : f.isTrigger = false := by rcases hf with rfl | rfl <;> rfl
  obtain ⟨st, hst⟩ : ∃ st, s.states[ref]? = some st := ⟨_, List.getElem?_eq_getElem howner.1⟩
  have hset := h.setState hostId ref (f := fun st => { st with resolving := false })
    (fun _ hr => nomatch hr) howner (fun _ => ⟨rfl, rfl⟩)
    (fun st' k hst' hk hlookup => h.hostTimer hostId ref st' k hlookup hst' hk) (fun _ _ hres => nomatch hres)
  have hget : (s.setState ref fun st => { st with resolving := false }).states[ref]? =
      some { st with resolving := false } := by
    rw [setState_get, if_pos rfl, hst]
    rfl
  -- the state is no longer in flight
  have hland : Inv clock (some ref)
      { (s.setState ref fun st => { st with resolving := false }) with flights := s.flights.eraseIdx i } := by
    have hother : ∀ {g : Flight}, g ∈ s.flights → g ≠ f → g ∈ s.flights.eraseIdx i :=
      fun hg hne => Slots.mem_eraseIdx_of_ne hi hg hne
    have hsub : ∀ {g : Flight}, g ∈ s.flights.eraseIdx i → g ∈ s.flights := fun hg => List.mem_of_mem_eraseIdx hg
    refine ⟨hset.known, hset.hostTimer, hset.alive, fun r st' hst' hres => ?_,
      fun a b hab => hset.owned a b (hab.imp hsub hsub), hset.groupTimer, hset.table,
      fun entries hentries => hset.taken entries (hsub hentries), ?_, hset.resolved,
      fun r groups hres g hg a hlookup => ?_, hset.called⟩
    · have hne : r ≠ ref := by
        rintro rfl
        obtain rfl := Option.some.inj (hget.symm.trans hst')
        cases hres
      obtain ⟨a, hfly⟩ := hset.flying r st' hst' hres
      refine ⟨a, hfly.imp (fun hg => hother hg ?_) (fun hg => hother hg ?_)⟩
      · rcases hf with rfl | rfl <;> simp [hne]
      · rcases hf with rfl | rfl <;> simp [hne]
    · have hcount := Slots.countP_eraseIdx hi Flight.isTrigger
      rw [htrigger, if_neg Bool.false_ne_true, Nat.add_zero] at hcount
      exact hcount.symm.trans h.triggers
    · refine (hset.kept r groups hres g hg a hlookup).imp (fun e he horigin hgroup => ⟨e, he, horigin, hgroup⟩)
        (fun entries hentries => hother hentries ?_) (fun _ => id)
      rcases hf with rfl | rfl <;> simp
  simp only [Scheduler.finishResolve, hget]
  by_cases hcurrent : s.isCurrent hostId ref = true
  · have hlookup := isCurrent_iff.mp hcurrent
    have hcurrent' : Scheduler.isCurrent
        { (s.setState ref fun st => { st with resolving := false }) with flights := s.flights.eraseIdx i } hostId ref =
        true := hcurrent
    rw [if_pos hcurrent']
    by_cases hlate : st.attemptAt > Scheduler.now clock
        { (s.setState ref fun st => { st with resolving := false }) with flights := s.flights.eraseIdx i }
    · rw [if_pos hlate]
      exact ⟨(hland.tick hclock).armHost hclock (fun r hr => (Option.some.inj hr).symm) hlookup, armed_armHost ha⟩
    · rw [if_neg hlate]
      refine ⟨(hland.tick hclock).revive (fun r hr => (Option.some.inj hr).symm) fun _ st' _ hst' => ?_, ha⟩
      exact (hok st hst hlookup).elim (fun hlt => absurd hlt hlate) (fun hres => Or.inr (Or.inr hres))
  · have hcurrent' : ¬ Scheduler.isCurrent
        { (s.setState ref fun st => { st with resolving := false }) with flights := s.flights.eraseIdx i } hostId ref =
        true := hcurrent
    rw [if_neg hcurrent']
    refine ⟨hland.revive (fun r hr => (Option.some.inj hr).symm) fun a st' hlookup _ => ?_, ha⟩
    obtain rfl := howner.2 a hlookup
    exact absurd (isCurrent_iff.mpr hlookup) hcurrent

theorem Inv.addDeadlines (h : Inv clock none s) {st : HostSilenceState} (hlookup : s.hosts.lookup hostId = some ref)
    (hst : s.states[ref]? = some st) (groups : List (Nat × ℚ)) :
    Inv clock none { (s.addDeadlines hostId ref st groups) with trace := .resolved ref groups :: s.trace } := by
  have howner := h.known hostId ref hlookup
  have hext : Extends s { (s.addDeadlines hostId ref st groups) with trace := .resolved ref groups :: s.trace } :=
    ⟨fun _ st' hst' => ⟨st', hst', rfl, rfl⟩, fun _ _ _ ha => ha, fun _ he => List.mem_cons_of_mem _ he⟩
  have hnew : ∀ g ∈ groups, Valid { (s.addDeadlines hostId ref st groups) with trace := .resolved ref groups :: s.trace }
      ⟨hostId, g.1, st.generation, st.silentAt + g.2, ref, g.2⟩ :=
    fun g hg => ⟨howner.mono hext, st, groups, hst, rfl, le_refl _, List.mem_cons_self, hg⟩
  refine ⟨fun a b hab => (h.known a b hab).mono hext, h.hostTimer, fun a b st' hb hab hst' => ?_, h.flying,
    fun a b hab => (h.owned a b hab).mono hext, h.groupTimer, fun e he => ?_,
    fun entries hmem d hd => ⟨(h.taken entries hmem d hd).1.mono hext, (h.taken entries hmem d hd).2⟩, h.triggers,
    fun r groups' hres => ?_, fun r groups' hres g hg a ha => ?_, fun now hosts groupIds hcalled g hg => ?_⟩
  · refine (h.alive a b st' hb hab hst').imp id (Or.imp id ?_)
    rintro ⟨groups', hres⟩
    exact ⟨groups', List.mem_cons_of_mem _ hres⟩
  · rcases of_mem_foldl_assign (fun g : Nat × ℚ =>
      ((hostId, g.1), (⟨hostId, g.1, st.generation, st.silentAt + g.2, ref, g.2⟩ : HostGroupDeadline))) he with
      he | ⟨g, hg, rfl⟩
    · exact ⟨(h.table e he).1, (h.table e he).2.1, (h.table e he).2.2.mono hext⟩
    · exact ⟨rfl, hlookup, hnew g hg⟩
  · rcases List.mem_cons.mp hres with heq | hres
    · cases heq
      exact howner.1
    · exact h.resolved r groups' hres
  · rcases List.mem_cons.mp hres with heq | hres
    · cases heq
      obtain ⟨g', hg', hmem, hkey⟩ := exists_mem_foldl_assign_of_mem (fun g : Nat × ℚ =>
        ((hostId, g.1), (⟨hostId, g.1, st.generation, st.silentAt + g.2, ref, g.2⟩ : HostGroupDeadline)))
        s.groupDeadlines hg
      exact Or.inl ⟨_, hmem, rfl, (Prod.mk.inj hkey).2⟩
    · refine (h.kept r groups' hres g hg a ha).imp (fun e he horigin hgroup => ?_) (fun _ => id)
        (fun _ => List.mem_cons_of_mem _)
      obtain ⟨e', he', hkey, hfrom⟩ := exists_mem_foldl_assign (fun g : Nat × ℚ =>
        ((hostId, g.1), (⟨hostId, g.1, st.generation, st.silentAt + g.2, ref, g.2⟩ : HostGroupDeadline))) groups he
      refine ⟨e', he', ?_⟩
      rcases hfrom with rfl | ⟨g', _, rfl⟩
      · exact ⟨horigin, hgroup⟩
      · -- a deadline of the same host and group is from the same state
        obtain ⟨hkey', hcurrent, _⟩ := h.table e he
        rw [hkey'] at hkey
        obtain ⟨hhost, hgroup'⟩ := Prod.mk.inj hkey
        rw [← hhost, hlookup] at hcurrent
        exact ⟨(Option.some.inj hcurrent).trans horigin, hgroup'.trans hgroup⟩
  · rcases List.mem_cons.mp hcalled with heq | hcalled
    · cases heq
    · exact (h.called now hosts groupIds hcalled g hg).mono hext

theorem Inv.resolveSettled (h : Inv clock none s) (ha : Armed s) (hclock : Monotone clock) {i hostId ref : Nat}
    (hi : s.flights[i]? = some (.resolving hostId ref)) (value : List (Option Int × Option ℚ)) :
    Inv clock none (s.resolved clock i hostId ref value) ∧ Armed (s.resolved clock i hostId ref value) := by
  have howner := h.owned hostId ref (Or.inl (List.mem_of_getElem? hi))
  obtain ⟨st, hst⟩ : ∃ st, s.states[ref]? = some st := ⟨_, List.getElem?_eq_getElem howner.1⟩
  simp only [Scheduler.resolved, hst]
  by_cases hcurrent : s.isCurrent hostId ref = true
  · rw [if_pos hcurrent]
    obtain ⟨hadded, harmed⟩ := (h.addDeadlines (isCurrent_iff.mp hcurrent) hst
      (Scheduler.byGroupId value)).armGroupTimer hclock false
    obtain ⟨_, hflights, htrace⟩ := @frame_armGroupTimer clock { (s.addDeadlines hostId ref st
      (Scheduler.byGroupId value)) with trace := .resolved ref (Scheduler.byGroupId value) :: s.trace } false
    refine hadded.finishResolve harmed hclock (f := .resolving hostId ref) ?_ (Or.inl rfl) fun _ _ _ =>
      Or.inr ⟨Scheduler.byGroupId value, ?_⟩
    · rw [hflights]
      exact hi
    · rw [htrace]
      exact List.mem_cons_self
  · rw [if_neg hcurrent]
    exact h.finishResolve ha hclock hi (Or.inl rfl) fun _ _ hlookup => absurd (isCurrent_iff.mpr hlookup) hcurrent

theorem Inv.resolveThrew (h : Inv clock none s) (ha : Armed s) (hclock : Monotone clock) {i hostId ref : Nat}
    (hi : s.flights[i]? = some (.resolving hostId ref)) :
    Inv clock none (s.resolveThrew c clock i hostId ref) ∧ Armed (s.resolveThrew c clock i hostId ref) := by
  have hmem := List.mem_of_getElem? hi
  have howner := h.owned hostId ref (Or.inl hmem)
  unfold Scheduler.resolveThrew
  by_cases hcurrent : s.isCurrent hostId ref = true
  · rw [if_pos hcurrent]
    have hlookup := isCurrent_iff.mp hcurrent
    have hset := (h.tick hclock).setState hostId ref
      (f := fun st => { st with attemptAt := s.now clock + c.retryMs }) (fun _ hr => nomatch hr) howner
      (fun _ => ⟨rfl, rfl⟩) (fun st' k hst' hk _ => h.hostTimer hostId ref st' k hlookup hst' hk)
      (fun st' hst' hres => h.flying ref st' hst' hres)
    -- its timer and what it waits for are as they were
    have halive := hset.revive (fun r hr => (Option.some.inj hr).symm) fun _ st' _ hst' => by
      rw [setState_get, if_pos rfl, Option.map_eq_some_iff] at hst'
      obtain ⟨st₀, hst₀, rfl⟩ := hst'
      exact h.alive hostId ref st₀ (by simp) hlookup hst₀
    have hother : ∀ {g : Flight}, g ∈ s.flights → g ≠ .resolving hostId ref →
        g ∈ s.flights.set i (.resolveFailed hostId ref) := fun hg hne => Slots.mem_set_of_ne hi hg hne _
    refine ⟨⟨halive.known, halive.hostTimer, halive.alive, fun r st' hst' hres => ?_, fun a b hab => ?_,
      halive.groupTimer, halive.table, fun entries hentries => ?_, ?_, halive.resolved,
      fun r groups hres g hg a hl => ?_, halive.called⟩, ha⟩
    · obtain ⟨a, hfly⟩ := halive.flying r st' hst' hres
      by_cases hsame : Flight.resolving a r = .resolving hostId ref
      · cases hsame
        exact ⟨hostId, Or.inr (Slots.mem_set_self hi _)⟩
      · exact ⟨a, hfly.imp (fun hg => hother hg hsame) (fun hg => hother hg (by simp))⟩
    · rcases hab with hab | hab
      · rcases List.mem_or_eq_of_mem_set hab with hab | heq
        · exact halive.owned a b (Or.inl hab)
        · cases heq
      · rcases List.mem_or_eq_of_mem_set hab with hab | heq
        · exact halive.owned a b (Or.inr hab)
        · cases heq
          exact halive.owned hostId ref (Or.inl hmem)
    · rcases List.mem_or_eq_of_mem_set hentries with hentries | heq
      · exact halive.taken entries hentries
      · cases heq
    · have hcount := Slots.countP_set_eq hi (p := Flight.isTrigger) (z := .resolveFailed hostId ref) rfl
      exact hcount.trans h.triggers
    · exact (halive.kept r groups hres g hg a hl).imp (fun e he horigin hgroup => ⟨e, he, horigin, hgroup⟩)
        (fun entries hentries => hother hentries (by simp)) (fun _ => id)
  · rw [if_neg hcurrent]
    exact h.finishResolve ha hclock hi (Or.inl rfl) fun _ _ hlookup => absurd (isCurrent_iff.mpr hlookup) hcurrent

/-! ## Groups that are triggered -/

theorem Inv.triggerDueGroups (h : Inv clock none s) (hclock : Monotone clock) :
    Inv clock none (s.triggerDueGroups clock) ∧ Armed (s.triggerDueGroups clock) := by
  unfold Scheduler.triggerDueGroups
  by_cases hnot : s.groupTriggerRunning = true
  · rw [if_pos hnot]
    exact ⟨h, fun hfalse => absurd (hnot.symm.trans hfalse) (by simp)⟩
  rw [if_neg hnot]
  have hrun : s.groupTriggerRunning = false := by simpa using hnot
  by_cases hnone : ((s.tick.groupDeadlines.filter (fun e => e.2.dueAt ≤ s.now clock)).map Prod.snd).length = 0
  · have hall : s.tick.groupDeadlines.filter (fun e => ¬ e.2.dueAt ≤ s.now clock) = s.tick.groupDeadlines := by
      apply List.filter_eq_self.mpr
      intro e he
      rw [List.length_map, List.length_eq_zero_iff, List.filter_eq_nil_iff] at hnone
      exact decide_eq_true (by simpa using hnone e he)
    dsimp only
    rw [if_pos hnone, hall]
    exact (h.tick hclock).armGroupTimer hclock false
  · dsimp only
    rw [if_neg hnone]
    refine ⟨?_, fun hfalse => nomatch hfalse⟩
    have htick := h.tick hclock
    have hext : Extends s { s.tick with
        groupDeadlines := s.groupDeadlines.filter (fun e => ¬ e.2.dueAt ≤ s.now clock)
        groupTriggerRunning := true
        flights := s.flights ++ [.triggering ((s.groupDeadlines.filter (fun e => e.2.dueAt ≤ s.now clock)).map Prod.snd)]
        trace := .called (s.now clock) s.hosts
          (((s.groupDeadlines.filter (fun e => e.2.dueAt ≤ s.now clock)).map Prod.snd).map (·.groupId)).eraseDups ::
          s.trace } :=
      ⟨fun _ st hst => ⟨st, hst, rfl, rfl⟩, fun _ _ _ ha => ha, fun _ he => List.mem_cons_of_mem _ he⟩
    -- an entry that is taken was in the table and is due
    have htaken : ∀ d ∈ (s.groupDeadlines.filter (fun e => e.2.dueAt ≤ s.now clock)).map Prod.snd,
        ∃ e ∈ s.groupDeadlines, e.2 = d ∧ d.dueAt ≤ s.now clock := by
      intro d hd
      obtain ⟨e, he, rfl⟩ := List.mem_map.mp hd
      rw [List.mem_filter, decide_eq_true_eq] at he
      exact ⟨e, he.1, rfl, he.2⟩
    refine ⟨fun a b hab => (h.known a b hab).mono hext, h.hostTimer, fun a b st hb hab hst => ?_,
      fun r st hst hres => ?_, fun a b hab => ?_, h.groupTimer, fun e he => ?_, fun entries hentries d hd => ?_, ?_,
      fun r groups hres => ?_, fun r groups hres g hg a ha => ?_, fun now hosts groupIds hcalled g hg => ?_⟩
    · refine (h.alive a b st hb hab hst).imp id (Or.imp id ?_)
      rintro ⟨groups, hres⟩
      exact ⟨groups, List.mem_cons_of_mem _ hres⟩
    · obtain ⟨a, hfly⟩ := h.flying r st hst hres
      exact ⟨a, hfly.imp (List.mem_append_left _) (List.mem_append_left _)⟩
    · simp only [List.mem_append, List.mem_singleton, reduceCtorEq, or_false] at hab
      exact (h.owned a b hab).mono hext
    · obtain ⟨hkey, hcurrent, hvalid⟩ := h.table e (List.mem_filter.mp he).1
      exact ⟨hkey, hcurrent, hvalid.mono hext⟩
    · rcases List.mem_append.mp hentries with hentries | hentries
      · exact ⟨(h.taken entries hentries d hd).1.mono hext, (htick.taken entries hentries d hd).2⟩
      · rw [List.mem_singleton, Flight.triggering.injEq] at hentries
        rw [hentries] at hd
        obtain ⟨e, he, rfl, hdue⟩ := htaken d hd
        exact ⟨(h.table e he).2.2.mono hext, hdue.trans (hclock (Nat.le_succ _))⟩
    · show (s.flights ++ [_]).countP Flight.isTrigger = _
      rw [List.countP_append, List.countP_singleton, h.triggers, hrun]
      rfl
    · rcases List.mem_cons.mp hres with heq | hres
      · cases heq
      · exact h.resolved r groups hres
    · rcases List.mem_cons.mp hres with heq | hres
      · cases heq
      · rcases h.kept r groups hres g hg a ha with ⟨e, he, horigin, hgroup⟩ | ⟨entries, hmem, hd⟩ | ⟨entries, hmem, hd⟩
        · by_cases hdue : e.2.dueAt ≤ s.now clock
          · refine Or.inr (Or.inl ⟨_, List.mem_append_right _ (List.mem_singleton_self _), e.2, ?_, horigin, hgroup⟩)
            exact List.mem_map_of_mem (List.mem_filter.mpr ⟨he, by simpa using hdue⟩)
          · exact Or.inl ⟨e, List.mem_filter.mpr ⟨he, by simpa using hdue⟩, horigin, hgroup⟩
        · exact Or.inr (Or.inl ⟨entries, List.mem_append_left _ hmem, hd⟩)
        · exact Or.inr (Or.inr ⟨entries, List.mem_cons_of_mem _ hmem, hd⟩)
    · rcases List.mem_cons.mp hcalled with heq | hcalled
      · cases heq
        rw [List.mem_eraseDups, List.mem_map] at hg
        obtain ⟨d, hd, rfl⟩ := hg
        obtain ⟨e, he, rfl, hdue⟩ := htaken d hd
        obtain ⟨_, hcurrent, _, st, groups, hst, _, hsilent, hres, hmem⟩ := h.table e he
        exact ⟨e.2.hostId, e.2.origin, st, groups, e.2.timeoutMs, hcurrent, hst, List.mem_cons_of_mem _ hres, hmem,
          hsilent.trans hdue⟩
      · exact (h.called now hosts groupIds hcalled g hg).mono hext

theorem Inv.finishTrigger (h : Inv clock none s) (hclock : Monotone clock) {i : Nat} {f : Flight}
    (hi : s.flights[i]? = some f) (hf : f = .triggerFailed ∨ ∃ entries, f = .triggering entries ∧ .triggered entries ∈ s.trace) :
    Inv clock none (s.finishTrigger clock i) ∧ Armed (s.finishTrigger clock i) := by
  have htrigger : f.isTrigger = true := by
    rcases hf with rfl | ⟨_, rfl, _⟩ <;> rfl
  have hother : ∀ {g : Flight}, g ∈ s.flights → g.isTrigger = false → g ∈ s.flights.eraseIdx i := by
    intro g hg hnot
    refine Slots.mem_eraseIdx_of_ne hi hg ?_
    rintro rfl
    rw [htrigger] at hnot
    cases hnot
  have hsub : ∀ {g : Flight}, g ∈ s.flights.eraseIdx i → g ∈ s.flights := fun hg => List.mem_of_mem_eraseIdx hg
  refine Inv.armGroupTimer (s := { s with flights := s.flights.eraseIdx i, groupTriggerRunning := false })
    ⟨h.known, h.hostTimer, h.alive, fun r st hst hres => ?_, fun a b hab => h.owned a b (hab.imp hsub hsub), h.groupTimer,
      h.table, fun entries hentries => h.taken entries (hsub hentries), ?_, h.resolved,
      fun r groups hres g hg a ha => ?_, h.called⟩ hclock true
  · obtain ⟨a, hfly⟩ := h.flying r st hst hres
    exact ⟨a, hfly.imp (fun hg => hother hg rfl) (fun hg => hother hg rfl)⟩
  · have hcount := Slots.countP_eraseIdx hi Flight.isTrigger
    rw [htrigger, if_pos rfl, h.triggers] at hcount
    show (s.flights.eraseIdx i).countP Flight.isTrigger = 0
    cases hrun : s.groupTriggerRunning with
    | false =>
      rw [hrun, if_neg Bool.false_ne_true] at hcount
      omega
    | true =>
      rw [hrun, if_pos rfl] at hcount
      omega
  · rcases h.kept r groups hres g hg a ha with hin | ⟨entries, hmem, hd⟩ | hdone
    · exact Or.inl hin
    · by_cases hsame : Flight.triggering entries = f
      · rcases hf with rfl | ⟨entries', rfl, htrace⟩
        · cases hsame
        · cases hsame
          exact Or.inr (Or.inr ⟨entries, htrace, hd⟩)
      · exact Or.inr (Or.inl ⟨entries, Slots.mem_eraseIdx_of_ne hi hmem hsame, hd⟩)
    · exact Or.inr (Or.inr hdone)

theorem Inv.logTriggered (h : Inv clock none s) (entries : List HostGroupDeadline) :
    Inv clock none { s with trace := .triggered entries :: s.trace } := by
  have hext : Extends s { s with trace := .triggered entries :: s.trace } :=
    ⟨fun _ st hst => ⟨st, hst, rfl, rfl⟩, fun _ _ _ ha => ha, fun _ he => List.mem_cons_of_mem _ he⟩
  have hresolved : ∀ {r groups}, Event.resolved r groups ∈ Event.triggered entries :: s.trace →
      Event.resolved r groups ∈ s.trace := by
    intro r groups hmem
    rcases List.mem_cons.mp hmem with heq | hmem
    · cases heq
    · exact hmem
  refine ⟨fun a b hab => (h.known a b hab).mono hext, h.hostTimer, fun a b st hb hab hst => ?_, h.flying,
    fun a b hab => (h.owned a b hab).mono hext, h.groupTimer,
    fun e he => ⟨(h.table e he).1, (h.table e he).2.1, (h.table e he).2.2.mono hext⟩,
    fun entries' hmem d hd => ⟨(h.taken entries' hmem d hd).1.mono hext, (h.taken entries' hmem d hd).2⟩, h.triggers,
    fun r groups hres => h.resolved r groups (hresolved hres), fun r groups hres g hg a ha => ?_,
    fun now hosts groupIds hcalled g hg => ?_⟩
  · refine (h.alive a b st hb hab hst).imp id (Or.imp id ?_)
    rintro ⟨groups, hres⟩
    exact ⟨groups, List.mem_cons_of_mem _ hres⟩
  · exact (h.kept r groups (hresolved hres) g hg a ha).imp (fun e he horigin hgroup => ⟨e, he, horigin, hgroup⟩)
      (fun _ => id) (fun _ => List.mem_cons_of_mem _)
  · rcases List.mem_cons.mp hcalled with heq | hcalled
    · cases heq
    · exact (h.called now hosts groupIds hcalled g hg).mono hext

end

end ForwardX.Panel.SilenceScheduler
