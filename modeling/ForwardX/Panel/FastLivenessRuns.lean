import ForwardX.Panel.FastLiveness
import ForwardX.Lib.Transition
import Mathlib.Tactic.Linarith

/- Runs of the liveness tracker. Every host that is registered and not confirmed offline has one live
   timer, its deadline is what the log of its registration and activity says, and the events alternate
   and have increasing epochs until the counter starts over. -/
namespace ForwardX.Panel.FastLiveness

open Assoc EvaluationQueue Transition

/-! ## What the log says of a host -/

def Entry.hostId : Entry → Nat
  | .registered hostId _ _ => hostId
  | .activity hostId _ => hostId
  | .removed hostId => hostId
  | .emitted event => event.hostId

/-- The latest activity of the host and the time of silence, or its registration and the grace. -/
def deadlineOf (c : Config) (hostId : Nat) : List Entry → Option ℚ
  | [] => none
  | .registered h now grace :: log =>
    if h = hostId then some (now + if grace then c.startupGraceMs else c.silenceMs) else deadlineOf c hostId log
  | .activity h now :: log => if h = hostId then some (now + c.silenceMs) else deadlineOf c hostId log
  | .removed _ :: log => deadlineOf c hostId log
  | .emitted _ :: log => deadlineOf c hostId log

/-- The latest transition since the registration of the host is to offline. -/
def isDown (hostId : Nat) : List Entry → Bool
  | [] => false
  | .registered h _ _ :: log => if h = hostId then false else isDown hostId log
  | .activity _ _ :: log => isDown hostId log
  | .removed _ :: log => isDown hostId log
  | .emitted event :: log => if event.hostId = hostId then event.kind == .confirmedOffline else isDown hostId log

/-- The host was confirmed offline since its latest activity or registration. -/
def confirmedSince (hostId : Nat) : List Entry → Bool
  | [] => false
  | .registered h _ _ :: log => if h = hostId then false else confirmedSince hostId log
  | .activity h _ :: log => if h = hostId then false else confirmedSince hostId log
  | .removed _ :: log => confirmedSince hostId log
  | .emitted event :: log =>
    if event.hostId = hostId ∧ event.kind = .confirmedOffline then true else confirmedSince hostId log

/-- The epoch of the latest transition since the registration of the host, 0 where there is none. -/
def latestEpoch (hostId : Nat) : List Entry → Nat
  | [] => 0
  | .registered h _ _ :: log => if h = hostId then 0 else latestEpoch hostId log
  | .activity _ _ :: log => latestEpoch hostId log
  | .removed _ :: log => latestEpoch hostId log
  | .emitted event :: log => if event.hostId = hostId then event.transitionEpoch else latestEpoch hostId log

/-- The host is registered. -/
def isKnown (hostId : Nat) : List Entry → Bool
  | [] => false
  | .registered h _ _ :: log => if h = hostId then true else isKnown hostId log
  | .activity _ _ :: log => isKnown hostId log
  | .removed h :: log => if h = hostId then false else isKnown hostId log
  | .emitted _ :: log => isKnown hostId log

def count : List Entry → Nat
  | [] => 0
  | .emitted _ :: log => count log + 1
  | .registered _ _ _ :: log => count log
  | .activity _ _ :: log => count log
  | .removed _ :: log => count log

/-- The epoch of the `n`-th event. -/
def epochOf (n : Nat) : Nat := if n = 0 then 0 else (n - 1) % MAX_SAFE_INTEGER + 1

theorem positiveInteger_pos {value : Option Int} {n : Nat} (h : positiveInteger value = some n) : 0 < n := by
  unfold positiveInteger at h
  split at h
  · obtain rfl := Option.some.inj h
    exact Nat.succ_pos _
  · cases h

theorem positiveInteger_natCast {n : Nat} (hn : 0 < n) : positiveInteger (some (n : Int)) = some n := by
  obtain ⟨m, rfl⟩ : ∃ m, n = m + 1 := ⟨n - 1, by omega⟩
  rfl

theorem nextGeneration_epochOf (n : Nat) : nextGeneration (epochOf n) = epochOf (n + 1) := by
  unfold nextGeneration epochOf
  rw [if_neg (Nat.succ_ne_zero n), Nat.add_sub_cancel]
  have hmax : MAX_SAFE_INTEGER = 9007199254740991 := rfl
  by_cases hn : n = 0
  · rw [if_pos hn, hn, hmax]
    rfl
  · rw [if_neg hn]
    have hlt := Nat.mod_lt (n - 1) (show MAX_SAFE_INTEGER > 0 by decide)
    have hstep : n % MAX_SAFE_INTEGER = ((n - 1) % MAX_SAFE_INTEGER + 1) % MAX_SAFE_INTEGER := by
      rw [Nat.mod_add_mod, Nat.sub_add_cancel (Nat.pos_of_ne_zero hn)]
    rw [hstep]
    by_cases hend : (n - 1) % MAX_SAFE_INTEGER + 1 ≥ MAX_SAFE_INTEGER
    · have hlast : (n - 1) % MAX_SAFE_INTEGER + 1 = MAX_SAFE_INTEGER := by omega
      rw [if_pos hend, hlast, Nat.mod_self]
    · have hsmall : ((n - 1) % MAX_SAFE_INTEGER + 1) % MAX_SAFE_INTEGER = (n - 1) % MAX_SAFE_INTEGER + 1 :=
        Nat.mod_eq_of_lt (Nat.lt_of_not_ge hend)
      rw [if_neg hend, hsmall]

/-- Until the counter starts over the epoch is the number of the event. -/
theorem epochOf_eq {n : Nat} (hn : n ≤ MAX_SAFE_INTEGER) : epochOf n = n := by
  unfold epochOf
  have hmax : MAX_SAFE_INTEGER = 9007199254740991 := rfl
  by_cases hzero : n = 0
  · rw [if_pos hzero, hzero]
  · rw [if_neg hzero, Nat.mod_eq_of_lt (by omega)]
    omega

section
variable {c : Config} {clock : ℕ → ℚ} {t : Tracker} {log : List Entry} {a : Nat} {entry : Entry}

theorem other_entry (log : List Entry) (h : entry.hostId ≠ a) : deadlineOf c a (entry :: log) = deadlineOf c a log ∧
    isDown a (entry :: log) = isDown a log ∧ confirmedSince a (entry :: log) = confirmedSince a log ∧
    latestEpoch a (entry :: log) = latestEpoch a log ∧ isKnown a (entry :: log) = isKnown a log := by
  cases entry with
  | registered b now grace => exact ⟨if_neg h, if_neg h, if_neg h, if_neg h, if_neg h⟩
  | activity b now => exact ⟨if_neg h, rfl, if_neg h, rfl, rfl⟩
  | removed b => exact ⟨rfl, rfl, rfl, rfl, if_neg h⟩
  | emitted event => exact ⟨rfl, if_neg h, if_neg fun hboth => h hboth.1, if_neg h, rfl⟩

/-- An event and what happened before it: the host was silent for long enough, was not confirmed
offline since it was active, and is told of the other change each time. -/
structure TransitionOk (c : Config) (clock : ℕ → ℚ) (event : AgentFastLivenessTransition) (log : List Entry) : Prop where
  read : ∃ n, event.readAt = clock n
  pos : 0 < event.hostId
  deadline : event.kind = .confirmedOffline →
    deadlineOf c event.hostId log = some event.deadlineAt ∧ event.deadlineAt ≤ event.readAt
  once : event.kind = .confirmedOffline → confirmedSince event.hostId log = false
  alternates : event.kind = .confirmedOffline ↔ isDown event.hostId log = false
  epoch : event.transitionEpoch = epochOf (count log + 1)
  known : isKnown event.hostId log = true

def LogOk (c : Config) (clock : ℕ → ℚ) : List Entry → Prop
  | [] => True
  | .registered h _ _ :: log => isKnown h log = false ∧ LogOk c clock log
  | .activity _ _ :: log => LogOk c clock log
  | .removed _ :: log => LogOk c clock log
  | .emitted event :: log => TransitionOk c clock event log ∧ LogOk c clock log

/-! ## The invariant -/

/-- The state of a registered host is what the log says. -/
structure HostOk (c : Config) (log : List Entry) (hostId : Nat) (st : MutableAgentFastLivenessState) : Prop where
  key : st.hostId = hostId
  pos : 0 < hostId
  armed : st.timer.isSome = !st.confirmedOffline
  deadline : deadlineOf c hostId log = some st.deadlineAt
  down : isDown hostId log = st.confirmedOffline
  since : confirmedSince hostId log = st.confirmedOffline
  epoch : latestEpoch hostId log = st.transitionEpoch

theorem HostOk.other {st : MutableAgentFastLivenessState} (h : HostOk c log a st) (hentry : entry.hostId ≠ a) :
    HostOk c (entry :: log) a st := by
  obtain ⟨hdeadline, hdown, hsince, hepoch, _⟩ := other_entry (c := c) log hentry
  exact ⟨h.key, h.pos, h.armed, hdeadline.trans h.deadline, hdown.trans h.down, hsince.trans h.since, hepoch.trans h.epoch⟩

/-- All but one host, which has no live timer. -/
structure Rest (c : Config) (clock : ℕ → ℚ) (hostId : Nat) (t : Tracker) : Prop where
  host : ∀ a st, a ≠ hostId → t.hosts.lookup a = some st → HostOk c t.log a st
  timers : ∀ k x, t.timers.get k = some x → x.hostId ≠ hostId ∧ ∃ st, t.hosts.lookup x.hostId = some st ∧
    st.timer = some k ∧ st.timerGeneration = x.timerGeneration
  live : ∀ a st k, a ≠ hostId → t.hosts.lookup a = some st → st.timer = some k →
    ∃ x, t.timers.get k = some x ∧ x.hostId = a
  counter : t.transitionEpochCounter = epochOf (count t.log)
  known : ∀ a, a ≠ hostId → isKnown a t.log = (t.hosts.lookup a).isSome
  log : LogOk c clock t.log

structure Inv (c : Config) (clock : ℕ → ℚ) (t : Tracker) : Prop where
  host : ∀ a st, t.hosts.lookup a = some st → HostOk c t.log a st
  timers : ∀ k x, t.timers.get k = some x → ∃ st, t.hosts.lookup x.hostId = some st ∧
    st.timer = some k ∧ st.timerGeneration = x.timerGeneration
  live : ∀ a st k, t.hosts.lookup a = some st → st.timer = some k → ∃ x, t.timers.get k = some x ∧ x.hostId = a
  counter : t.transitionEpochCounter = epochOf (count t.log)
  known : ∀ a, isKnown a t.log = (t.hosts.lookup a).isSome
  log : LogOk c clock t.log

theorem inv_initial : Inv c clock initial where
  host _ _ h := nomatch h
  timers _ _ h := nomatch h
  live _ _ _ h := nomatch h
  counter := rfl
  known _ := rfl
  log := trivial

theorem Inv.tick (h : Inv c clock t) : Inv c clock t.tick := ⟨h.host, h.timers, h.live, h.counter, h.known, h.log⟩

theorem Inv.tell (h : Inv c clock t) (emitting : List AgentFastLivenessTransition) : Inv c clock { t with emitting := emitting } :=
  ⟨h.host, h.timers, h.live, h.counter, h.known, h.log⟩

variable {st : MutableAgentFastLivenessState} {hostId : Nat}

theorem Inv.detach (h : Inv c clock t) (hlookup : t.hosts.lookup hostId = some st) :
    Rest c clock hostId { t with timers := t.timers.clearSome st.timer } where
  host a st' _ := h.host a st'
  timers k x hk := by
    have hk : (t.timers.clearSome st.timer).get k = some x := hk
    rw [Timers.get_clearSome] at hk
    by_cases hcleared : st.timer = some k
    · rw [if_pos hcleared] at hk
      cases hk
    · rw [if_neg hcleared] at hk
      obtain ⟨st', hst', htimer, hgeneration⟩ := h.timers k x hk
      refine ⟨?_, st', hst', htimer, hgeneration⟩
      rintro hsame
      rw [hsame, hlookup] at hst'
      obtain rfl := Option.some.inj hst'
      exact hcleared htimer
  live a st' k hne ha hk := by
    obtain ⟨x, hx, hxa⟩ := h.live a st' k ha hk
    refine ⟨x, ?_, hxa⟩
    show (t.timers.clearSome st.timer).get k = some x
    rw [Timers.get_clearSome, if_neg, hx]
    -- the timer of the host is its own
    intro hsame
    obtain ⟨x', hx', hxhost⟩ := h.live hostId st k hlookup hsame
    obtain rfl := Option.some.inj (hx.symm.trans hx')
    exact hne (hxa.symm.trans hxhost)
  counter := h.counter
  known a _ := h.known a
  log := h.log

theorem Rest.tick (h : Rest c clock hostId t) : Rest c clock hostId t.tick :=
  ⟨h.host, h.timers, h.live, h.counter, h.known, h.log⟩

/-- Something is entered about the host; the counter goes with the events. -/
theorem Rest.enter {e : Entry} (h : Rest c clock hostId t) (hentry : e.hostId = hostId)
    (hlog : LogOk c clock (e :: t.log)) {counter : Nat} (hcounter : counter = epochOf (count (e :: t.log))) :
    Rest c clock hostId { t with log := e :: t.log, transitionEpochCounter := counter } where
  host a st hne ha := (h.host a st hne ha).other (by rw [hentry]; exact Ne.symm hne)
  timers := h.timers
  live := h.live
  counter := hcounter
  known a hne := ((other_entry (c := c) _ (by rw [hentry]; exact Ne.symm hne)).2.2.2.2).trans (h.known a hne)
  log := hlog

theorem Rest.settle (h : Rest c clock hostId t) {u : MutableAgentFastLivenessState} (hok : HostOk c t.log hostId u)
    (htimer : u.timer = none) (hknown : isKnown hostId t.log = true) :
    Inv c clock { t with hosts := put t.hosts hostId u } where
  host a st' ha := by
    by_cases hne : a = hostId
    · subst hne
      obtain rfl := Option.some.inj ((lookup_put_self _ _ _).symm.trans ha)
      exact hok
    · exact h.host a st' hne ((lookup_put_ne _ hne _).symm.trans ha)
  timers k x hk := by
    obtain ⟨hne, st', hst', hrest⟩ := h.timers k x hk
    exact ⟨st', (lookup_put_ne _ hne _).trans hst', hrest⟩
  live a st' k ha hk := by
    by_cases hne : a = hostId
    · subst hne
      obtain rfl := Option.some.inj ((lookup_put_self _ _ _).symm.trans ha)
      rw [htimer] at hk
      cases hk
    · exact h.live a st' k hne ((lookup_put_ne _ hne _).symm.trans ha) hk
  counter := h.counter
  known a := by
    show _ = ((put t.hosts hostId u).lookup a).isSome
    by_cases hne : a = hostId
    · rw [hne, lookup_put_self, hknown]
      rfl
    · rw [lookup_put_ne _ hne]
      exact h.known a hne
  log := h.log

theorem Rest.arm (h : Rest c clock hostId t) {u : MutableAgentFastLivenessState} (hkey : u.hostId = hostId)
    (hpos : 0 < hostId) (honline : u.confirmedOffline = false)
    (hdeadline : deadlineOf c hostId t.log = some u.deadlineAt) (hdown : isDown hostId t.log = false)
    (hsince : confirmedSince hostId t.log = false) (hepoch : latestEpoch hostId t.log = u.transitionEpoch)
    (hknown : isKnown hostId t.log = true) : Inv c clock (t.arm clock u) := by
  subst hkey
  have hself : (put t.hosts u.hostId { u with timer := some t.timers.next }).lookup u.hostId =
      some { u with timer := some t.timers.next } := lookup_put_self _ _ _
  have hkeep : ∀ {k : Nat} {x : Timer}, t.timers.get k = some x → ∀ new, (t.timers.set new).get k = some x := by
    intro k x hx new
    rw [Timers.get_set, if_neg, hx]
    rintro rfl
    rw [t.timers.get_next] at hx
    cases hx
  refine ⟨fun a st' ha => ?_, fun k x hk => ?_, fun a st' k ha hk => ?_, h.counter, fun a => ?_, h.log⟩
  · by_cases hne : a = u.hostId
    · subst hne
      obtain rfl := Option.some.inj (hself.symm.trans ha)
      exact ⟨rfl, hpos, by rw [honline]; rfl, hdeadline, hdown.trans honline.symm, hsince.trans honline.symm, hepoch⟩
    · exact h.host a st' hne ((lookup_put_ne _ hne _).symm.trans ha)
  · have hk : (t.timers.set _).get k = some x := hk
    rw [Timers.get_set] at hk
    by_cases hnext : k = t.timers.next
    · rw [if_pos hnext] at hk
      obtain rfl := Option.some.inj hk
      exact ⟨_, hself, congrArg some hnext.symm, rfl⟩
    · rw [if_neg hnext] at hk
      obtain ⟨hne, st', hst', hrest⟩ := h.timers k x hk
      exact ⟨st', (lookup_put_ne _ hne _).trans hst', hrest⟩
  · by_cases hne : a = u.hostId
    · subst hne
      obtain rfl := Option.some.inj (hself.symm.trans ha)
      obtain rfl := Option.some.inj hk
      exact ⟨_, (Timers.get_set _ _ _).trans (if_pos rfl), rfl⟩
    · obtain ⟨x, hx, hxa⟩ := h.live a st' k hne ((lookup_put_ne _ hne _).symm.trans ha) hk
      exact ⟨x, hkeep hx _, hxa⟩
  · show isKnown a t.log = ((put t.hosts u.hostId _).lookup a).isSome
    by_cases hne : a = u.hostId
    · rw [hne, hself, hknown]
      rfl
    · rw [lookup_put_ne _ hne]
      exact h.known a hne

/-! ## Steps -/

theorem Inv.removeHost (h : Inv c clock t) (hostId : Option Int) : Inv c clock (t.removeHost hostId).1 := by
  unfold Tracker.removeHost
  cases positiveInteger hostId with
  | none => exact h
  | some hostId =>
    dsimp only
    cases hlookup : t.hosts.lookup hostId with
    | none => exact h
    | some st =>
      have hrest := (h.detach hlookup).enter (e := .removed hostId) rfl h.log h.counter
      have hgone : ∀ {a st'}, (erase t.hosts hostId).lookup a = some st' → a ≠ hostId ∧ t.hosts.lookup a = some st' := by
        intro a st' ha
        by_cases hne : a = hostId
        · rw [hne, lookup_erase_self] at ha
          cases ha
        · exact ⟨hne, (lookup_erase_ne _ hne).symm.trans ha⟩
      refine ⟨fun a st' ha => hrest.host a st' (hgone ha).1 (hgone ha).2, fun k x hk => ?_,
        fun a st' k ha hk => hrest.live a st' k (hgone ha).1 (hgone ha).2 hk, h.counter, fun a => ?_, h.log⟩
      · obtain ⟨hne, st', hst', hboth⟩ := hrest.timers k x hk
        exact ⟨st', (lookup_erase_ne _ hne).trans hst', hboth⟩
      · show isKnown a (.removed hostId :: t.log) = ((erase t.hosts hostId).lookup a).isSome
        by_cases hne : a = hostId
        · rw [hne, lookup_erase_self, isKnown, if_pos rfl]
          rfl
        · rw [lookup_erase_ne _ hne]
          exact hrest.known a hne

theorem removed_log (hosts : List (Nat × MutableAgentFastLivenessState)) (log : List Entry) :
    count (hosts.map (fun e => Entry.removed e.1) ++ log) = count log ∧
    (LogOk c clock (hosts.map (fun e => Entry.removed e.1) ++ log) ↔ LogOk c clock log) ∧
    ∀ a, isKnown a (hosts.map (fun e => Entry.removed e.1) ++ log) = (isKnown a log && !decide (a ∈ keys hosts)) := by
  induction hosts with
  | nil => exact ⟨rfl, Iff.rfl, fun a => by simp⟩
  | cons e hosts ih =>
    refine ⟨ih.1, ih.2.1, fun a => ?_⟩
    show (if e.1 = a then false else isKnown a (hosts.map (fun e => Entry.removed e.1) ++ log)) = _
    by_cases hsame : e.1 = a
    · rw [if_pos hsame]
      simp [← hsame]
    · have hmem : a ∈ keys (e :: hosts) ↔ a ∈ keys hosts := by simp [keys, Ne.symm hsame]
      rw [if_neg hsame, ih.2.2 a, decide_eq_decide.mpr hmem]

theorem get_foldl_clearSome (hosts : List (Nat × MutableAgentFastLivenessState)) (k : Nat) : ∀ timers : Timers Timer,
    (hosts.foldl (fun timers e => timers.clearSome e.2.timer) timers).get k =
      if ∃ e ∈ hosts, e.2.timer = some k then none else timers.get k := by
  induction hosts with
  | nil => intro timers; simp
  | cons e hosts ih =>
    intro timers
    rw [List.foldl_cons, ih, Timers.get_clearSome]
    by_cases hrest : ∃ e ∈ hosts, e.2.timer = some k
    · obtain ⟨e', he', hk⟩ := hrest
      rw [if_pos ⟨e', he', hk⟩, if_pos ⟨e', List.mem_cons_of_mem e he', hk⟩]
    · by_cases hfirst : e.2.timer = some k
      · rw [if_neg hrest, if_pos hfirst, if_pos ⟨e, List.mem_cons_self, hfirst⟩]
      · rw [if_neg hrest, if_neg hfirst, if_neg]
        rintro ⟨e', he', hk⟩
        rcases List.mem_cons.mp he' with rfl | he'
        · exact hfirst hk
        · exact hrest ⟨e', he', hk⟩

theorem Inv.clear (h : Inv c clock t) : Inv c clock t.clear := by
  obtain ⟨hcount, hlog, hknown⟩ := @removed_log c clock t.hosts t.log
  have htimers : ∀ k x, t.clear.timers.get k ≠ some x := by
    intro k x hk
    have hk : (t.hosts.foldl (fun timers e => timers.clearSome e.2.timer) t.timers).get k = some x := hk
    rw [get_foldl_clearSome, Option.ite_none_left_eq_some] at hk
    obtain ⟨st, hst, htimer, _⟩ := h.timers k x hk.2
    exact hk.1 ⟨_, mem_of_lookup hst, htimer⟩
  refine ⟨fun _ _ ha => (nomatch ha), fun k x hk => absurd hk (htimers k x), fun _ _ _ ha => (nomatch ha),
    h.counter.trans (congrArg epochOf hcount.symm), fun a => ?_, hlog.mpr h.log⟩
  show isKnown a (t.hosts.map (fun e => Entry.removed e.1) ++ t.log) = false
  rw [hknown, h.known a]
  cases hlookup : t.hosts.lookup a with
  | none => rfl
  | some st =>
    have hmem : a ∈ keys t.hosts := mem_keys.mpr ⟨st, hlookup⟩
    simp [hmem]

theorem Inv.accept (h : Inv c clock t) (hlookup : t.hosts.lookup hostId = some st) (seenAt : TimeValue) :
    Inv c clock (t.accept c clock st seenAt) := by
  have hok := h.host hostId st hlookup
  obtain rfl := hok.key
  have hknown : isKnown st.hostId t.log = true := by rw [h.known, hlookup]; rfl
  have hactive := (h.detach hlookup).tick.enter (e := .activity st.hostId (t.now clock)) rfl h.log h.counter
  have hdeadline : deadlineOf c st.hostId (.activity st.hostId (t.now clock) :: t.log) =
      some (t.now clock + c.silenceMs) := if_pos rfl
  have hsince : confirmedSince st.hostId (.activity st.hostId (t.now clock) :: t.log) = false := if_pos rfl
  have hdown : isDown st.hostId (.activity st.hostId (t.now clock) :: t.log) = st.confirmedOffline := hok.down
  unfold Tracker.accept
  by_cases hoffline : st.confirmedOffline = true
  · simp only [if_pos hoffline]
    have hcounter : nextGeneration t.transitionEpochCounter = epochOf (count t.log + 1) := by
      rw [h.counter, nextGeneration_epochOf]
    -- the event is entered before the timer is armed, which makes no difference
    have hemitted := hactive.enter (e := .emitted ⟨{ Tracker.active c st (t.now clock)
      ((normalizedTimestamp seenAt (t.now clock)).getD (t.now clock)) with
        transitionEpoch := nextGeneration t.transitionEpochCounter }, .activityRestored, t.now clock⟩) rfl
      ⟨⟨⟨_, rfl⟩, hok.pos, fun hkind => (nomatch hkind), fun hkind => (nomatch hkind), ⟨fun hkind => (nomatch hkind), fun hfalse =>
        absurd (hfalse.symm.trans (hdown.trans hoffline)) (by simp)⟩, hcounter, hknown⟩, h.log⟩ hcounter
    refine Inv.tell (hemitted.arm (u := { Tracker.active c st (t.now clock)
      ((normalizedTimestamp seenAt (t.now clock)).getD (t.now clock)) with
        transitionEpoch := nextGeneration t.transitionEpochCounter }) rfl hok.pos rfl hdeadline (if_pos rfl) ?_ (if_pos rfl)
          hknown) _
    exact (if_neg (fun hboth => nomatch hboth.2)).trans hsince
  · have honline : st.confirmedOffline = false := by simpa using hoffline
    simp only [if_neg hoffline]
    exact hactive.arm (u := Tracker.active c st (t.now clock) ((normalizedTimestamp seenAt (t.now clock)).getD (t.now clock)))
      rfl hok.pos rfl hdeadline (hdown.trans honline) hsince hok.epoch hknown

theorem Inv.observeActivity (h : Inv c clock t) (hostId : Option Int) (seenAt : Option TimeValue) :
    Inv c clock (t.observeActivity c clock hostId seenAt).1 := by
  have hat : ∀ {t : Tracker}, Inv c clock t → ∀ (hostId : Nat) (seenAt : TimeValue) {st : MutableAgentFastLivenessState},
      t.hosts.lookup hostId = some st → Inv c clock (t.accept c clock st seenAt) :=
    fun h _ seenAt _ hlookup => h.accept hlookup seenAt
  unfold Tracker.observeActivity
  cases seenAt with
  | none =>
    cases positiveInteger hostId with
    | none => exact h.tick
    | some hostId =>
      dsimp only
      cases hlookup : t.tick.hosts.lookup hostId with
      | none => exact h.tick
      | some st => exact hat h.tick hostId _ hlookup
  | some seenAt =>
    cases positiveInteger hostId with
    | none => exact h
    | some hostId =>
      dsimp only
      cases hlookup : t.hosts.lookup hostId with
      | none => exact h
      | some st => exact hat h hostId _ hlookup

theorem Inv.register (h : Inv c clock t) (hpos : 0 < hostId) (hlookup : t.hosts.lookup hostId = none)
    (host : AgentFastLivenessHost) (agentVersion : String) (startupGrace : Bool) (activityAt : Option TimeValue) :
    Inv c clock (t.register c clock hostId host agentVersion startupGrace activityAt) := by
  have hunknown : isKnown hostId t.log = false := by rw [h.known, hlookup]; rfl
  have hrest : Rest c clock hostId t := by
    refine ⟨fun a st _ => h.host a st, fun k x hk => ?_, fun a st k _ => h.live a st k, h.counter, fun a _ => h.known a,
      h.log⟩
    obtain ⟨st, hst, hboth⟩ := h.timers k x hk
    refine ⟨?_, st, hst, hboth⟩
    intro hsame
    rw [hsame, hlookup] at hst
    cases hst
  have hentered := hrest.tick.enter (e := .registered hostId (t.now clock)
    (startupGrace && (activityAt.map fun value => (normalizedTimestamp value (t.now clock)).getD (t.now clock)).isNone))
    rfl ⟨hunknown, h.log⟩ h.counter
  unfold Tracker.register
  exact hentered.arm rfl hpos rfl (if_pos rfl) (if_pos rfl) (if_pos rfl) (if_pos rfl) (if_pos rfl)

theorem Inv.rename (h : Inv c clock t) (hlookup : t.hosts.lookup hostId = some st) (agentVersion : String) :
    Inv c clock { t with hosts := put t.hosts hostId { st with agentVersion := agentVersion } } := by
  have hcases : ∀ {a st'}, (put t.hosts hostId { st with agentVersion := agentVersion }).lookup a = some st' →
      ∃ st₀, t.hosts.lookup a = some st₀ ∧ st'.timer = st₀.timer ∧ (HostOk c t.log a st₀ → HostOk c t.log a st') := by
    intro a st' ha
    by_cases hne : a = hostId
    · rw [hne, lookup_put_self] at ha
      obtain rfl := Option.some.inj ha
      exact ⟨st, hne ▸ hlookup, rfl, fun hok => ⟨hok.key, hok.pos, hok.armed, hok.deadline, hok.down, hok.since, hok.epoch⟩⟩
    · rw [lookup_put_ne _ hne] at ha
      exact ⟨st', ha, rfl, id⟩
  refine ⟨fun a st' ha => ?_, fun k x hk => ?_, fun a st' k ha hk => ?_, h.counter, fun a => ?_, h.log⟩
  · obtain ⟨st₀, hst₀, _, hok⟩ := hcases ha
    exact hok (h.host a st₀ hst₀)
  · obtain ⟨st', hst', hboth⟩ := h.timers k x hk
    by_cases hne : x.hostId = hostId
    · rw [hne, hlookup] at hst'
      obtain rfl := Option.some.inj hst'
      exact ⟨{ st with agentVersion := agentVersion }, by rw [hne]; exact lookup_put_self _ _ _, hboth⟩
    · exact ⟨st', (lookup_put_ne _ hne _).trans hst', hboth⟩
  · obtain ⟨st₀, hst₀, htimer, _⟩ := hcases ha
    exact h.live a st₀ k hst₀ (htimer ▸ hk)
  · show isKnown a t.log = ((put t.hosts hostId _).lookup a).isSome
    by_cases hne : a = hostId
    · rw [hne, lookup_put_self, h.known, hlookup]
      rfl
    · rw [lookup_put_ne _ hne]
      exact h.known a

theorem Inv.registerHost (h : Inv c clock t) (host : AgentFastLivenessHost) (startupGrace : Bool)
    (activityAt : Option TimeValue) : Inv c clock (t.registerHost c clock host startupGrace activityAt).1 := by
  unfold Tracker.registerHost
  cases hid : positiveInteger host.hostId with
  | none => exact h
  | some hostId =>
    dsimp only
    by_cases hold : (!supportsAgentFastLiveness (Ddns.jsTrim host.agentVersion)) = true
    · rw [if_pos hold]
      exact h.removeHost (some (hostId : Int))
    · rw [if_neg hold]
      cases hlookup : t.hosts.lookup hostId with
      | none => exact h.register (positiveInteger_pos hid) hlookup host _ startupGrace activityAt
      | some existing =>
        have hrenamed := h.rename hlookup (Ddns.jsTrim host.agentVersion)
        cases activityAt with
        | none => exact hrenamed
        | some activityAt => exact hrenamed.observeActivity (some (hostId : Int)) (some activityAt)

theorem Inv.primeHosts (hosts : List AgentFastLivenessHost) : ∀ {t : Tracker}, Inv c clock t →
    Inv c clock (t.primeHosts c clock hosts).1 := by
  induction hosts with
  | nil => exact fun h => h
  | cons host hosts ih => exact fun h => ih (h.registerHost host true none)

theorem Inv.registerPresenceCapableHost (h : Inv c clock t) (hostId : Option Int) (seenAt : Option TimeValue) :
    Inv c clock (t.registerPresenceCapableHost c clock hostId seenAt).1 := by
  have hat : ∀ {t : Tracker}, Inv c clock t → ∀ (id : Nat) (seenAt : TimeValue),
      Inv c clock (if (t.hosts.lookup id).isSome then t.observeActivity c clock hostId (some seenAt)
        else t.registerHost c clock ⟨some id, AGENT_FAST_LIVENESS_MIN_VERSION, false, .value none none⟩ false
          (some seenAt)).1 := by
    intro t h id seenAt
    split
    · exact h.observeActivity hostId (some seenAt)
    · exact h.registerHost _ false (some seenAt)
  unfold Tracker.registerPresenceCapableHost
  cases seenAt with
  | none =>
    cases positiveInteger hostId with
    | none => exact h.tick
    | some id => exact hat h.tick id _
  | some seenAt =>
    cases positiveInteger hostId with
    | none => exact h
    | some id => exact hat h id seenAt

theorem Inv.fire (h : Inv c clock t) {k : Nat} {timer : Timer} (hk : t.timers.get k = some timer) :
    Inv c clock (({ t with timers := t.timers.clear k }).runCallback clock k timer) := by
  obtain ⟨st, hlookup, htimer, hgeneration⟩ := h.timers k timer hk
  have hok := h.host timer.hostId st hlookup
  have hkey : st.hostId = timer.hostId := hok.key
  have honline : st.confirmedOffline = false := by
    have harmed := hok.armed
    rw [htimer] at harmed
    simpa using harmed
  have hdown : isDown timer.hostId t.log = false := hok.down.trans honline
  have hsince : confirmedSince timer.hostId t.log = false := hok.since.trans honline
  have hknown : isKnown timer.hostId t.log = true := by rw [h.known, hlookup]; rfl
  have hrest := h.detach hlookup
  rw [htimer] at hrest
  have hrest : Rest c clock timer.hostId { t with timers := t.timers.clear k } := hrest
  have hskip : ¬ (st.timerGeneration ≠ timer.timerGeneration ∨ st.timer ≠ some k) := by
    rw [not_or, not_not, not_not]
    exact ⟨hgeneration, htimer⟩
  -- what the host is set to in between makes no difference for the others
  have hbetween : Rest c clock timer.hostId { t with
      timers := t.timers.clear k, hosts := put t.hosts timer.hostId { st with timer := none } }.tick := by
    refine ⟨fun a st' hne ha => hrest.host a st' hne ((lookup_put_ne _ hne _).symm.trans ha), fun k' x hk' => ?_,
      fun a st' k' hne ha hk' => hrest.live a st' k' hne ((lookup_put_ne _ hne _).symm.trans ha) hk', h.counter,
      fun a hne => ?_, h.log⟩
    · obtain ⟨hne, st', hst', hboth⟩ := hrest.timers k' x hk'
      exact ⟨hne, st', (lookup_put_ne _ hne _).trans hst', hboth⟩
    · show isKnown a t.log = ((put t.hosts timer.hostId _).lookup a).isSome
      rw [lookup_put_ne _ hne]
      exact h.known a
  have hlookup' : ({ t with timers := t.timers.clear k } : Tracker).hosts.lookup timer.hostId = some st := hlookup
  simp only [Tracker.runCallback, hlookup', if_neg hskip]
  by_cases hearly : t.now clock < st.deadlineAt
  · have hearly' : Tracker.now clock { t with timers := t.timers.clear k } < st.deadlineAt := hearly
    rw [if_pos hearly']
    exact hbetween.arm hkey hok.pos honline hok.deadline hdown hsince hok.epoch hknown
  · have hearly' : ¬ Tracker.now clock { t with timers := t.timers.clear k } < st.deadlineAt := hearly
    have hnot : ¬ st.confirmedOffline = true := by simp [honline]
    rw [if_neg hearly', if_neg hnot]
    have hcounter : nextGeneration t.transitionEpochCounter = epochOf (count t.log + 1) := by
      rw [h.counter, nextGeneration_epochOf]
    have hemitted := (hbetween.tick).enter (e := .emitted ⟨{ st with
        confirmedOffline := true
        offlineAt := some (clock (t.reads + 1))
        lastOfflineAt := some (clock (t.reads + 1))
        transitionEpoch := nextGeneration t.transitionEpochCounter }, .confirmedOffline, t.now clock⟩) hkey
      ⟨⟨⟨_, rfl⟩, hkey ▸ hok.pos, fun _ => ⟨hkey ▸ hok.deadline, not_lt.mp hearly⟩, fun _ => hkey ▸ hsince,
        ⟨fun _ => hkey ▸ hdown, fun _ => rfl⟩, hcounter, hkey ▸ hknown⟩, h.log⟩ hcounter
    refine Inv.tell ((hemitted.settle (u := { st with
        timer := none
        confirmedOffline := true
        offlineAt := some (clock (t.reads + 1))
        lastOfflineAt := some (clock (t.reads + 1))
        transitionEpoch := nextGeneration t.transitionEpochCounter })
      ⟨hkey, hok.pos, rfl, hok.deadline, if_pos hkey, if_pos ⟨hkey, rfl⟩, if_pos hkey⟩ rfl hknown)) _

theorem Inv.step (h : Inv c clock t) {a : Action} {t' : Tracker} (hs : t.step c clock a = some t') : Inv c clock t' := by
  cases a with
  | registerHost host startupGrace activityAt =>
    obtain rfl := Option.some.inj hs
    exact h.registerHost host startupGrace activityAt
  | primeHosts hosts =>
    obtain rfl := Option.some.inj hs
    exact Inv.primeHosts hosts h
  | registerPresenceCapableHost hostId seenAt =>
    obtain rfl := Option.some.inj hs
    exact h.registerPresenceCapableHost hostId seenAt
  | observeActivity hostId seenAt =>
    obtain rfl := Option.some.inj hs
    exact h.observeActivity hostId seenAt
  | removeHost hostId =>
    obtain rfl := Option.some.inj hs
    exact h.removeHost hostId
  | clear =>
    obtain rfl := Option.some.inj hs
    exact h.clear
  | fire k =>
    obtain ⟨_, hs⟩ := Option.ite_none_right_eq_some.mp hs
    obtain ⟨timer, hk, rfl⟩ := Option.map_eq_some_iff.mp hs
    exact h.fire hk
  | listener result =>
    obtain ⟨_, hs⟩ := Option.ite_none_left_eq_some.mp hs
    cases result <;> exact Option.some.inj hs ▸ h
  | emitted =>
    unfold Tracker.step at hs
    cases hstack : t.emitting with
    | nil => simp [hstack] at hs
    | cons event outer =>
      simp only [hstack, Option.some.injEq] at hs
      exact hs ▸ h.tell outer

theorem invariant {as : List Action} (h : Run (Steps.ofFn (Tracker.step c clock)) initial as t) : Inv c clock t :=
  h.preserves (P := Inv c clock) (fun _ _ _ hs hinv => hinv.step hs) inv_initial

/-! ## Which event is current -/

/-- The entry ends what an event of its host said: a transition, or the removal of the host. -/
def Entry.ends : Entry → Bool
  | .registered _ _ _ => false
  | .activity _ _ => false
  | .removed _ => true
  | .emitted _ => true

theorem count_append_le (pre log : List Entry) : count log ≤ count (pre ++ log) := by
  induction pre with
  | nil => exact Nat.le_refl _
  | cons entry pre ih =>
    cases entry with
    | emitted event => exact Nat.le_succ_of_le ih
    | _ => exact ih

theorem LogOk.of_append {p : List Entry} (h : LogOk c clock (p ++ log)) : LogOk c clock log := by
  induction p with
  | nil => exact h
  | cons entry p ih =>
    cases entry with
    | activity a now => exact ih h
    | removed a => exact ih h
    | registered a now grace => exact ih h.2
    | emitted event => exact ih h.2

variable {event : AgentFastLivenessTransition}

/-- What the log says of the host of an event, later on: the same, or an entry has ended it and the
latest epoch is none or a later one. -/
theorem since_event {rest : List Entry} (pre : List Entry) (h : LogOk c clock (pre ++ .emitted event :: rest))
    (hcount : count (pre ++ .emitted event :: rest) ≤ MAX_SAFE_INTEGER) :
    ((∀ entry ∈ pre, entry.hostId = event.hostId → entry.ends = false) ∧
      isKnown event.hostId (pre ++ .emitted event :: rest) = true ∧
      latestEpoch event.hostId (pre ++ .emitted event :: rest) = event.transitionEpoch ∧
      isDown event.hostId (pre ++ .emitted event :: rest) = (event.kind == .confirmedOffline)) ∨
    ((∃ entry ∈ pre, entry.hostId = event.hostId ∧ entry.ends = true) ∧
      (isKnown event.hostId (pre ++ .emitted event :: rest) = true →
        latestEpoch event.hostId (pre ++ .emitted event :: rest) = 0 ∨
        event.transitionEpoch < latestEpoch event.hostId (pre ++ .emitted event :: rest))) := by
  induction pre with
  | nil => exact Or.inl ⟨fun _ hmem => (nomatch hmem), h.1.known, if_pos rfl, if_pos rfl⟩
  | cons entry pre ih =>
    have hcount' : count (pre ++ .emitted event :: rest) ≤ MAX_SAFE_INTEGER :=
      Nat.le_trans (count_append_le [entry] _) hcount
    have hlog' : LogOk c clock (pre ++ .emitted event :: rest) := LogOk.of_append (p := [entry]) h
    rw [List.cons_append]
    by_cases hhost : entry.hostId = event.hostId
    · cases entry with
      | activity a now =>
        rcases ih hlog' hcount' with ⟨hall, hsame⟩ | ⟨⟨entry, hmem, hends⟩, hlater⟩
        · refine Or.inl ⟨fun entry hmem hsame => ?_, hsame⟩
          rcases List.mem_cons.mp hmem with rfl | hmem
          · rfl
          · exact hall entry hmem hsame
        · exact Or.inr ⟨⟨entry, List.mem_cons_of_mem _ hmem, hends⟩, hlater⟩
      | registered a now grace =>
        have hunknown : isKnown event.hostId (pre ++ .emitted event :: rest) = false := by
          rw [← hhost]
          exact h.1
        rcases ih hlog' hcount' with ⟨_, hknown, _⟩ | ⟨⟨entry, hmem, hends⟩, _⟩
        · rw [hunknown] at hknown
          cases hknown
        · exact Or.inr ⟨⟨entry, List.mem_cons_of_mem _ hmem, hends⟩, fun _ => Or.inl (if_pos hhost)⟩
      | removed a =>
        refine Or.inr ⟨⟨_, List.mem_cons_self, hhost, rfl⟩, fun hknown => ?_⟩
        have hunknown : isKnown event.hostId (.removed a :: (pre ++ .emitted event :: rest)) = false := if_pos hhost
        rw [hunknown] at hknown
        cases hknown
      | emitted later =>
        refine Or.inr ⟨⟨_, List.mem_cons_self, hhost, rfl⟩, fun _ => Or.inr ?_⟩
        -- the epochs are the numbers of the events
        have hless : count rest + 1 ≤ count (pre ++ .emitted event :: rest) :=
          count_append_le pre (.emitted event :: rest)
        have hfirst : event.transitionEpoch = count rest + 1 :=
          (hlog'.of_append (p := pre)).1.epoch.trans (epochOf_eq (hless.trans hcount'))
        have hlast : later.transitionEpoch = count (pre ++ .emitted event :: rest) + 1 :=
          h.1.epoch.trans (epochOf_eq hcount)
        have hlatest : latestEpoch event.hostId (.emitted later :: (pre ++ .emitted event :: rest)) = later.transitionEpoch :=
          if_pos hhost
        rw [hlatest, hlast, hfirst]
        exact Nat.lt_succ_of_le hless
    · obtain ⟨_, hdown, _, hepoch, hknown⟩ := other_entry (c := c) (pre ++ .emitted event :: rest) hhost
      rw [hdown, hepoch, hknown]
      rcases ih hlog' hcount' with ⟨hall, hsame⟩ | ⟨⟨entry', hmem, hends⟩, hlater⟩
      · refine Or.inl ⟨fun entry' hmem hsame => ?_, hsame⟩
        rcases List.mem_cons.mp hmem with rfl | hmem
        · exact absurd hsame hhost
        · exact hall entry' hmem hsame
      · exact Or.inr ⟨⟨entry', List.mem_cons_of_mem _ hmem, hends⟩, hlater⟩

theorem Inv.isCurrent_iff (h : Inv c clock t) {pre rest : List Entry} (hlog : t.log = pre ++ .emitted event :: rest)
    (hcount : count t.log ≤ MAX_SAFE_INTEGER) :
    t.isCurrent event = true ↔ ∀ entry ∈ pre, entry.hostId = event.hostId → entry.ends = false := by
  have hok : LogOk c clock (pre ++ .emitted event :: rest) := hlog ▸ h.log
  have hevent := (hok.of_append (p := pre)).1
  have hrest : count (.emitted event :: rest) ≤ MAX_SAFE_INTEGER := by
    rw [hlog] at hcount
    exact (count_append_le pre _).trans hcount
  have hepoch : event.transitionEpoch = count rest + 1 := hevent.epoch.trans (epochOf_eq hrest)
  have hle : ¬ event.transitionEpoch > MAX_SAFE_INTEGER := by
    rw [hepoch]
    exact not_lt.mpr hrest
  have hpos : 0 < event.transitionEpoch := by omega
  have hunfold : t.isCurrent event = (t.hosts.lookup event.hostId).elim false (fun st =>
      if st.transitionEpoch ≠ event.transitionEpoch then false
      else st.confirmedOffline == (event.kind == .confirmedOffline)) := by
    simp only [Tracker.isCurrent, Tracker.isCurrentTransition, positiveInteger_natCast hevent.pos,
      positiveInteger_natCast hpos, if_neg hle]
    cases t.hosts.lookup event.hostId <;> rfl
  have hknown := h.known event.hostId
  rw [hunfold]
  rcases since_event pre hok (hlog ▸ hcount) with ⟨hall, hisKnown, hlatest, hdown⟩ | ⟨⟨entry, hmem, hends⟩, hlater⟩
  · rw [← hlog] at hisKnown hlatest hdown
    rw [hisKnown] at hknown
    obtain ⟨st, hst⟩ := Option.isSome_iff_exists.mp hknown.symm
    have hst' := h.host event.hostId st hst
    have hsame : ¬ st.transitionEpoch ≠ event.transitionEpoch := by
      rw [← hst'.epoch, hlatest]
      exact fun hne => hne rfl
    rw [hst, Option.elim_some, if_neg hsame, ← hst'.down, hdown, beq_self_eq_true]
    exact ⟨fun _ => hall, fun _ => rfl⟩
  · refine ⟨fun hcurrent => ?_, fun hall => ?_⟩
    · exfalso
      rw [← hlog] at hlater
      cases hlookup : t.hosts.lookup event.hostId with
      | none => simp [hlookup] at hcurrent
      | some st =>
        have hst' := h.host event.hostId st hlookup
        have hne : st.transitionEpoch ≠ event.transitionEpoch := by
          rw [← hst'.epoch]
          rcases hlater (by rw [hknown, hlookup]; rfl) with hzero | hless <;> omega
        rw [hlookup, Option.elim_some, if_pos hne] at hcurrent
        cases hcurrent
    · rw [hall entry hmem hends.1] at hends
      cases hends.2

theorem exists_emitted {n : Nat} : ∀ log : List Entry, count log = n + 1 →
    ∃ pre event rest, log = pre ++ .emitted event :: rest ∧ count rest = n
  | [], h => nomatch h
  | entry :: log, h => by
    cases entry with
    | emitted event => exact ⟨[], event, log, rfl, Nat.succ.inj h⟩
    | _ =>
      obtain ⟨pre, event, rest, heq, hcount⟩ := exists_emitted log h
      exact ⟨_ :: pre, event, rest, by rw [heq, List.cons_append], hcount⟩

theorem LogOk.epoch_of_mem (h : LogOk c clock log) (hmem : .emitted event ∈ log) :
    ∃ n, n < count log ∧ event.transitionEpoch = epochOf (n + 1) := by
  obtain ⟨pre, rest, rfl⟩ := List.append_of_mem hmem
  refine ⟨count rest, ?_, (h.of_append (p := pre)).1.epoch⟩
  exact Nat.lt_of_lt_of_le (Nat.lt_succ_self _) (count_append_le pre (.emitted event :: rest))

end

/-! ## Timers and events along a run -/

/-- Along every run: a registered host that is not confirmed offline has exactly one live timer, one
that is has none; an event to offline is emitted at a reading of the clock that is not before the
deadline of the latest activity or the registration, and not again before the next activity; the
events of a registration alternate; and until the counter of the epochs starts over they increase,
and an event is current while no later event or removal of its host is in the log. -/
theorem liveness_tracker_sound (silenceMs startupGraceMs : Option ℚ) (clock : ℕ → ℚ) {t : Tracker} {as : List Action}
    (h : Run (Steps.ofFn (Tracker.step (.ofOptions silenceMs startupGraceMs) clock)) initial as t) :
    (∀ hostId st, t.hosts.lookup hostId = some st →
      (st.confirmedOffline = false → ∃! k, ∃ timer, t.timers.get k = some timer ∧ timer.hostId = hostId) ∧
      (st.confirmedOffline = true → ∀ k timer, t.timers.get k = some timer → timer.hostId ≠ hostId)) ∧
    (∀ pre event rest, t.log = pre ++ .emitted event :: rest →
      (event.kind = .confirmedOffline → (∃ n, event.readAt = clock n) ∧
        deadlineOf (.ofOptions silenceMs startupGraceMs) event.hostId rest = some event.deadlineAt ∧
        event.deadlineAt ≤ event.readAt ∧ confirmedSince event.hostId rest = false) ∧
      (event.kind = .confirmedOffline ↔ isDown event.hostId rest = false) ∧
      event.transitionEpoch = epochOf (count rest + 1) ∧
      (count t.log ≤ MAX_SAFE_INTEGER →
        (∀ earlier, .emitted earlier ∈ rest → earlier.transitionEpoch < event.transitionEpoch) ∧
        (t.isCurrent event = true ↔ ∀ entry ∈ pre, entry.hostId = event.hostId → entry.ends = false))) := by
  have hinv := invariant h
  refine ⟨fun hostId st hst => ⟨fun honline => ?_, fun hoffline k timer hk hhost => ?_⟩,
    fun pre event rest hlog => ?_⟩
  · have harmed := (hinv.host hostId st hst).armed
    rw [honline] at harmed
    obtain ⟨k, hk⟩ := Option.isSome_iff_exists.mp harmed
    obtain ⟨timer, htimer, hhost⟩ := hinv.live hostId st k hst hk
    refine ⟨k, ⟨timer, htimer, hhost⟩, fun k' ⟨timer', htimer', hhost'⟩ => ?_⟩
    obtain ⟨st', hst', hk', _⟩ := hinv.timers k' timer' htimer'
    rw [hhost', hst] at hst'
    obtain rfl := Option.some.inj hst'
    exact Option.some.inj (hk'.symm.trans hk)
  · have harmed := (hinv.host hostId st hst).armed
    obtain ⟨st', hst', hk', _⟩ := hinv.timers k timer hk
    rw [hhost, hst] at hst'
    obtain rfl := Option.some.inj hst'
    rw [hk', hoffline] at harmed
    cases harmed
  · have hok : LogOk (.ofOptions silenceMs startupGraceMs) clock (pre ++ .emitted event :: rest) := hlog ▸ hinv.log
    obtain ⟨hevent, hrestOk⟩ := hok.of_append (p := pre)
    refine ⟨fun hkind => ⟨hevent.read, (hevent.deadline hkind).1, (hevent.deadline hkind).2, hevent.once hkind⟩,
      hevent.alternates, hevent.epoch, fun hcount => ⟨fun earlier hmem => ?_, hinv.isCurrent_iff hlog hcount⟩⟩
    obtain ⟨n, hn, hepoch⟩ := hrestOk.epoch_of_mem hmem
    have hle : count rest + 1 ≤ MAX_SAFE_INTEGER := by
      rw [hlog] at hcount
      exact (count_append_le pre (.emitted event :: rest)).trans hcount
    rw [hepoch, hevent.epoch, epochOf_eq hle, epochOf_eq (by omega)]
    omega

def rising (n : ℕ) : ℚ := 1000000 * n

def defaults : Config := .ofOptions none none

def agent : AgentFastLivenessHost := ⟨some 1, "2.2.171", false, .date none⟩

theorem offline_and_back : ∃ t as, Run (Steps.ofFn (Tracker.step defaults rising)) initial as t ∧ count t.log = 2 ∧
    ∀ pre event rest, t.log = pre ++ .emitted event :: rest →
      ∀ earlier, .emitted earlier ∈ rest → earlier.transitionEpoch < event.transitionEpoch := by
  have hend : (exec (Tracker.step defaults rising) initial [.registerHost agent true none, .fire 0, .listener .threw,
      .observeActivity (some 1) none]).any (fun t => count t.log == 2) = true := by decide +kernel
  obtain ⟨t, ht, hcount⟩ := (Option.any_eq_true _ _).mp hend
  rw [beq_iff_eq] at hcount
  have hrun := exec_run ht
  refine ⟨t, _, hrun, hcount, fun pre event rest hlog => ?_⟩
  exact (((liveness_tracker_sound none none rising hrun).2 pre event rest hlog).2.2.2 (by rw [hcount]; decide)).1

/-- Host 1 is registered and due, and no event is being emitted. -/
structure Due (t : Tracker) : Prop where
  run : ∃ as, Run (Steps.ofFn (Tracker.step defaults rising)) initial as t
  host : ∃ st, t.hosts.lookup 1 = some st ∧ st.confirmedOffline = false ∧ st.deadlineAt ≤ rising t.reads
  quiet : t.emitting = []

theorem Due.again {t : Tracker} (h : Due t) : ∃ t', Due t' ∧ count t'.log = count t.log + 2 := by
  obtain ⟨as, hrun⟩ := h.run
  obtain ⟨st, hlookup, honline, hdue⟩ := h.host
  have hinv := invariant hrun
  have hkey : st.hostId = 1 := (hinv.host 1 st hlookup).key
  have harmed := (hinv.host 1 st hlookup).armed
  rw [honline] at harmed
  obtain ⟨k, hk⟩ := Option.isSome_iff_exists.mp harmed
  obtain ⟨timer, htimer, hhost⟩ := hinv.live 1 st k hlookup hk
  obtain ⟨st', hst', _, hgeneration⟩ := hinv.timers k timer htimer
  obtain rfl : st = st' := by
    rw [hhost, hlookup] at hst'
    exact Option.some.inj hst'
  -- the timer runs and finds the host silent
  have hskip : ¬ (st.timerGeneration ≠ timer.timerGeneration ∨ st.timer ≠ some k) := by
    rw [not_or, not_not, not_not]
    exact ⟨hgeneration, hk⟩
  have hlate : ¬ Tracker.now rising { t with timers := t.timers.clear k } < st.deadlineAt := not_lt.mpr hdue
  have hnot : ¬ st.confirmedOffline = true := by simp [honline]
  obtain ⟨off, hoff⟩ : ∃ off : MutableAgentFastLivenessState, off = { st with
    timer := none
    confirmedOffline := true
    offlineAt := some (rising (t.reads + 1))
    lastOfflineAt := some (rising (t.reads + 1))
    transitionEpoch := nextGeneration t.transitionEpochCounter } := ⟨_, rfl⟩
  obtain ⟨t₁, ht₁⟩ : ∃ t₁, t₁ = ({ t with timers := t.timers.clear k }).runCallback rising k timer := ⟨_, rfl⟩
  have hfired : t.step defaults rising (.fire k) = some t₁ := by
    rw [ht₁]
    show (if t.emitting = [] then _ else none) = _
    rw [if_pos h.quiet, htimer]
    rfl
  have hfields : t₁.hosts.lookup 1 = some off ∧ t₁.emitting.length = 1 ∧ count t₁.log = count t.log + 1 := by
    rw [ht₁]
    have hlookup' : ({ t with timers := t.timers.clear k } : Tracker).hosts.lookup timer.hostId = some st := by
      rw [hhost]
      exact hlookup
    simp only [Tracker.runCallback, hlookup', if_neg hskip, if_neg hlate, if_neg hnot]
    refine ⟨?_, by show (_ :: t.emitting).length = 1; rw [h.quiet]; rfl, rfl⟩
    show (put (put t.hosts timer.hostId _) timer.hostId _).lookup 1 = some off
    rw [hhost, lookup_put_self, hoff]
    rfl
  obtain ⟨event, hevent⟩ : ∃ event, t₁.emitting = [event] := List.length_eq_one_iff.mp hfields.2.1
  have hreturned : t₁.step defaults rising .emitted = some { t₁ with emitting := [] } := by
    simp only [Tracker.step, hevent]
  -- it is active again
  have hback : ({ t₁ with emitting := [] } : Tracker).step defaults rising (.observeActivity (some 1) (some (.date none))) =
      some (({ t₁ with emitting := [] } : Tracker).accept defaults rising off (.date none)) := by
    have hlookup₁ : ({ t₁ with emitting := [] } : Tracker).hosts.lookup 1 = some off := hfields.1
    show some (({ t₁ with emitting := [] } : Tracker).observeActivity defaults rising (some 1) (some (.date none))).1 = _
    have hone : positiveInteger (some 1) = some 1 := rfl
    simp only [Tracker.observeActivity, hone, hlookup₁]
  obtain ⟨t₂, ht₂⟩ : ∃ t₂, t₂ = ({ t₁ with emitting := [] } : Tracker).accept defaults rising off (.date none) := ⟨_, rfl⟩
  rw [← ht₂] at hback
  have hoffline : off.confirmedOffline = true := by rw [hoff]
  have hfields₂ : (∃ st, t₂.hosts.lookup 1 = some st ∧ st.confirmedOffline = false ∧ st.deadlineAt ≤ rising t₂.reads) ∧
      t₂.emitting.length = 1 ∧ count t₂.log = count t.log + 2 := by
    have hkeyOff : off.hostId = 1 := by rw [hoff]; exact hkey
    rw [ht₂]
    simp only [Tracker.accept, if_pos hoffline]
    refine ⟨?_, rfl, congrArg Nat.succ hfields.2.2⟩
    show ∃ st, (put t₁.hosts off.hostId _).lookup 1 = some st ∧ st.confirmedOffline = false ∧
      st.deadlineAt ≤ rising (t₁.reads + 1 + 1)
    rw [hkeyOff, lookup_put_self]
    refine ⟨_, rfl, rfl, ?_⟩
    show rising t₁.reads + defaults.silenceMs ≤ rising (t₁.reads + 1 + 1)
    have hsilence : defaults.silenceMs = 90000 := by decide +kernel
    rw [hsilence, rising, rising]
    push_cast
    linarith
  obtain ⟨event₂, hevent₂⟩ : ∃ event, t₂.emitting = [event] := List.length_eq_one_iff.mp hfields₂.2.1
  have hreturned₂ : t₂.step defaults rising .emitted = some { t₂ with emitting := [] } := by
    simp only [Tracker.step, hevent₂]
  have hrun₂ := ((((hrun.snoc hfired).snoc hreturned).snoc hback).snoc hreturned₂)
  exact ⟨{ t₂ with emitting := [] }, ⟨⟨_, hrun₂⟩, hfields₂.1, rfl⟩, hfields₂.2.2⟩

theorem exists_due (n : Nat) : ∃ t, Due t ∧ count t.log = 2 * n := by
  induction n with
  | zero =>
    have hend : (exec (Tracker.step defaults rising) initial [.registerHost agent false none]).any (fun t =>
        (t.hosts.lookup 1).any (fun st => !st.confirmedOffline && decide (st.deadlineAt ≤ rising t.reads)) &&
          t.emitting.isEmpty && count t.log == 0) = true := by decide +kernel
    obtain ⟨t, ht, hend⟩ := (Option.any_eq_true _ _).mp hend
    simp only [Bool.and_eq_true, beq_iff_eq, List.isEmpty_iff] at hend
    obtain ⟨⟨hhost, hquiet⟩, hcount⟩ := hend
    obtain ⟨st, hst, hboth⟩ := (Option.any_eq_true _ _).mp hhost
    rw [Bool.and_eq_true, Bool.not_eq_true', decide_eq_true_eq] at hboth
    exact ⟨t, ⟨⟨_, exec_run ht⟩, ⟨st, hst, hboth⟩, hquiet⟩, hcount⟩
  | succ n ih =>
    obtain ⟨t, hdue, hcount⟩ := ih
    obtain ⟨t', hdue', hcount'⟩ := hdue.again
    exact ⟨t', hdue', by omega⟩

/-- The event after `2 ^ 53 - 1` others has the epoch of the first. -/
theorem epochs_start_over : ¬ ∀ (t : Tracker) (as : List Action),
    Run (Steps.ofFn (Tracker.step defaults rising)) initial as t → ∀ pre event rest, t.log = pre ++ .emitted event :: rest →
      ∀ earlier, .emitted earlier ∈ rest → earlier.transitionEpoch < event.transitionEpoch := by
  intro hall
  obtain ⟨t, hdue, hcount⟩ := exists_due 4503599627370496
  obtain ⟨as, hrun⟩ := hdue.run
  have hlogOk := (invariant hrun).log
  have hmany : count t.log = MAX_SAFE_INTEGER + 1 := hcount
  obtain ⟨pre, event, rest, hlog, hrest⟩ := exists_emitted _ hmany
  have hsome : count rest = 9007199254740990 + 1 := hrest
  obtain ⟨pre', earlier, rest', hrest', _⟩ := exists_emitted _ hsome
  have hmem : .emitted earlier ∈ rest := by
    rw [hrest']
    exact List.mem_append_right _ List.mem_cons_self
  have hless := hall t as hrun pre event rest hlog earlier hmem
  rw [hlog] at hlogOk
  obtain ⟨hevent, hrestOk⟩ := hlogOk.of_append (p := pre)
  have hone : event.transitionEpoch = 1 := by
    rw [hevent.epoch, hrest]
    decide +kernel
  obtain ⟨n, _, hepoch⟩ := hrestOk.epoch_of_mem hmem
  have hpos : 0 < earlier.transitionEpoch := by
    rw [hepoch, epochOf, if_neg (Nat.succ_ne_zero n)]
    exact Nat.succ_pos _
  omega

end ForwardX.Panel.FastLiveness
