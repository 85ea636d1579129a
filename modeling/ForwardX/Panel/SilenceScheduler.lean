import ForwardX.Panel.EvaluationQueue

/- The scheduler of host silence. A host that was not seen for a while has its failover deadlines
   looked up, and the groups whose deadlines have come are handed to `trigger`. Both calls are
   asynchronous, and the host may be seen again while they run. The readings of the clock are the
   values of a function of their number, which never decreases. -/
namespace ForwardX.Panel.SilenceScheduler

open Assoc EvaluationQueue

structure Config where
  silenceMs : ℚ
  retryMs : ℚ
  silence_nonneg : 0 ≤ silenceMs
  retry_pos : 1 ≤ retryMs

def Config.ofOptions (silenceMs retryMs : Option ℚ) : Config :=
  ⟨max 0 (silenceMs.getD 0), max 1 (retryMs.getD 1000), le_max_left _ _, le_max_left _ _⟩

def MAX_TIMER_DELAY_MS : ℚ := 2147483647

def timerDelay (dueAt now : ℚ) : ℚ := min MAX_TIMER_DELAY_MS (max 0 (dueAt - now))

structure HostSilenceState where
  generation : Nat
  seenAt : ℚ
  silentAt : ℚ
  attemptAt : ℚ
  timer : Option Nat
  resolving : Bool

/-- A deadline. The source has the first four fields; the others tell the reader which observation
of the host it was resolved for, and with which timeout. -/
structure HostGroupDeadline where
  hostId : Nat
  groupId : Nat
  generation : Nat
  dueAt : ℚ
  origin : Nat
  timeoutMs : ℚ

/-- `deadlineKey`: the source joins the two numbers by a colon. -/
abbrev HostGroupDeadline.key (d : HostGroupDeadline) : Nat × Nat := (d.hostId, d.groupId)

/-- The callback of a host's timer holds the state it was armed for, that of the group timer the
deadline. -/
inductive Callback
  | host (hostId state : Nat)
  | group (dueAt : ℚ)
  deriving DecidableEq

structure Timer where
  callback : Callback
  delayMs : ℚ
  deriving DecidableEq

/-- An asynchronous call that waits for its promise, or for `onError` to return. -/
inductive Flight
  | resolving (hostId state : Nat)
  | resolveFailed (hostId state : Nat)
  | triggering (dueEntries : List HostGroupDeadline)
  | triggerFailed

/-- What happened, for the reader: deadlines were resolved for a state, `trigger` was called at a
reading of the clock while `hosts` was known, a call of it succeeded. -/
inductive Event
  | resolved (state : Nat) (byGroupId : List (Nat × ℚ))
  | called (now : ℚ) (hosts : List (Nat × Nat)) (groupIds : List Nat)
  | triggered (dueEntries : List HostGroupDeadline)

/-- `hosts` refers to the states, which are objects of their own. -/
structure Scheduler where
  hosts : List (Nat × Nat)
  states : List HostSilenceState
  groupDeadlines : List ((Nat × Nat) × HostGroupDeadline)
  groupTimer : Option Nat
  groupTimerDueAt : Option ℚ
  groupTriggerRunning : Bool
  timers : Timers Timer
  flights : List Flight
  /-- How often the clock was read. -/
  reads : Nat
  trace : List Event

def initial : Scheduler := ⟨[], [], [], none, none, false, .empty, [], 0, []⟩

/-- A value of the caller that should be a time: `undefined`, or the number it is, if that is finite. -/
inductive TimeValue
  | undefined
  | number (value : Option ℚ)

namespace Scheduler

def tick (s : Scheduler) : Scheduler := { s with reads := s.reads + 1 }

def setState (s : Scheduler) (state : Nat) (f : HostSilenceState → HostSilenceState) : Scheduler :=
  { s with states := s.states.modify state f }

/-- `this.hosts.get(hostId) === state` -/
def isCurrent (s : Scheduler) (hostId state : Nat) : Bool := s.hosts.lookup hostId == some state

def earliestGroupDueAt (s : Scheduler) : Option ℚ :=
  s.groupDeadlines.foldl (fun earliest e => some (earliest.elim e.2.dueAt (min · e.2.dueAt))) none

section
variable (c : Config) (clock : ℕ → ℚ)

def now (s : Scheduler) : ℚ := clock s.reads

def armHost (s : Scheduler) (hostId state : Nat) : Scheduler :=
  match s.states[state]? with
  | none => s
  | some st =>
    if !s.isCurrent hostId state || st.timer.isSome || st.resolving then s
    else ({ s with timers := s.timers.set ⟨.host hostId state, timerDelay st.attemptAt (s.now clock)⟩ }.tick).setState
      state (fun st => { st with timer := some s.timers.next })

def armGroupTimer (s : Scheduler) (force : Bool) : Scheduler :=
  if s.groupTriggerRunning then s
  else match s.earliestGroupDueAt with
    | none => { s with timers := s.timers.clearSome s.groupTimer, groupTimer := none, groupTimerDueAt := none }
    | some dueAt =>
      if !force && s.groupTimer.isSome && s.groupTimerDueAt == some dueAt then s
      else { s with
        timers := (s.timers.clearSome s.groupTimer).set ⟨.group dueAt, timerDelay dueAt (s.now clock)⟩
        groupTimer := some (s.timers.clearSome s.groupTimer).next
        groupTimerDueAt := some dueAt }.tick

def removeDeadlinesForHost (s : Scheduler) (hostId : Nat) : Scheduler :=
  let kept := s.groupDeadlines.filter (fun e => e.2.hostId ≠ hostId)
  let removed := s.groupDeadlines.any (fun e => e.2.hostId == hostId)
  let s := { s with groupDeadlines := kept }
  if removed then s.armGroupTimer clock true else s

/-- A new state for the host. -/
def accept (s : Scheduler) (hostId : Nat) (existing : Option HostSilenceState) (seenAt silentAt attemptAt : ℚ) :
    Scheduler :=
  let s := { s with timers := s.timers.clearSome (existing.bind (·.timer)) }
  let generation := (existing.elim 0 (·.generation)) + 1
  let state : HostSilenceState := ⟨generation, seenAt, silentAt, attemptAt, none, false⟩
  let ref := s.states.length
  let s := { s with states := s.states ++ [state], hosts := put s.hosts hostId ref }
  (s.removeDeadlinesForHost clock hostId).armHost clock hostId ref

def observeAt (s : Scheduler) (hostId : Nat) (seenAt : ℚ) (notBefore : Option ℚ) : Scheduler × Bool :=
  let silentAt := seenAt + c.silenceMs
  let attemptAt := max silentAt (notBefore.elim 0 fun notBefore => if notBefore > 0 then notBefore else 0)
  match (s.hosts.lookup hostId).bind (s.states[·]?) with
  | none => (s.accept clock hostId none seenAt silentAt attemptAt, true)
  | some existing =>
    if seenAt < existing.seenAt then (s, false)
    else if seenAt = existing.seenAt ∧ silentAt = existing.silentAt then (s, true)
    else (s.accept clock hostId (some existing) seenAt silentAt attemptAt, true)

/-- `observe` with the numbers that the values are, where they are ones. -/
def observeNumbers (s : Scheduler) (hostId : Option Nat) (seenAt notBefore : Option ℚ) : Scheduler × Bool :=
  match hostId, seenAt with
  | some hostId, some seenAt => if seenAt < 0 then (s, false) else s.observeAt c clock hostId seenAt notBefore
  | _, _ => (s, false)

def observe (s : Scheduler) (hostIdValue : Option Int) (seenAtValue : TimeValue) (notBeforeValue : Option ℚ) :
    Scheduler × Bool :=
  match seenAtValue with
  | .undefined => s.tick.observeNumbers c clock (positiveInteger hostIdValue) (some (s.now clock)) notBeforeValue
  | .number value => s.observeNumbers c clock (positiveInteger hostIdValue) value notBeforeValue

/-- `clear`; a value that is no key of `hosts` finds nothing. -/
def clear (s : Scheduler) (hostIdValue : Option Int) : Scheduler × Bool :=
  match positiveInteger hostIdValue with
  | none => (s, false)
  | some hostId =>
    let state := (s.hosts.lookup hostId).bind (s.states[·]?)
    let removed := hostId ∈ keys s.hosts
    let s := { s with timers := s.timers.clearSome (state.bind (·.timer)), hosts := erase s.hosts hostId }
    (s.removeDeadlinesForHost clock hostId, removed)

/-- `resolveHost` up to its `await`. -/
def resolveHost (s : Scheduler) (hostId state : Nat) : Scheduler :=
  match s.states[state]? with
  | none => s
  | some st =>
    if !s.isCurrent hostId state || st.resolving then s
    else { (s.setState state fun st => { st with resolving := true }) with
      flights := s.flights ++ [.resolving hostId state] }

/-- `triggerDueGroups` up to its `await`. -/
def triggerDueGroups (s : Scheduler) : Scheduler :=
  if s.groupTriggerRunning then s
  else
    let now := s.now clock
    let s := s.tick
    let dueEntries := (s.groupDeadlines.filter (fun e => e.2.dueAt ≤ now)).map Prod.snd
    let s := { s with groupDeadlines := s.groupDeadlines.filter (fun e => ¬ e.2.dueAt ≤ now) }
    if dueEntries.length = 0 then s.armGroupTimer clock false
    else { s with
      groupTriggerRunning := true
      flights := s.flights ++ [.triggering dueEntries]
      trace := .called now s.hosts (dueEntries.map (·.groupId)).eraseDups :: s.trace }

/-- The callback of a timer that is no longer live. -/
def runCallback (s : Scheduler) (handle : Nat) : Callback → Scheduler
  | .host hostId state =>
    match s.states[state]? with
    | none => s
    | some st =>
      if !s.isCurrent hostId state || st.timer ≠ some handle then s
      else
        let now := s.now clock
        let s := (s.setState state fun st => { st with timer := none }).tick
        if now < st.attemptAt then s.armHost clock hostId state else s.resolveHost hostId state
  | .group dueAt =>
    if s.groupTimer ≠ some handle then s
    else
      let now := s.now clock
      let s := { s with groupTimer := none, groupTimerDueAt := none }.tick
      if now < dueAt then s.armGroupTimer clock false else s.triggerDueGroups clock

/-- The timeouts of a resolved list by group, the least where a group is there twice. -/
def byGroupId (resolved : List (Option Int × Option ℚ)) : List (Nat × ℚ) :=
  resolved.foldl (fun byGroupId value =>
    match positiveInteger value.1, value.2 with
    | some groupId, some timeoutMs =>
      let normalizedTimeout := max 0 timeoutMs
      match byGroupId.lookup groupId with
      | none => assign byGroupId groupId normalizedTimeout
      | some previous =>
        if normalizedTimeout < previous then assign byGroupId groupId normalizedTimeout else byGroupId
    | _, _ => byGroupId) []

/-- The `finally` block of `resolveHost`, which then returns. -/
def finishResolve (s : Scheduler) (i hostId state : Nat) : Scheduler :=
  let s := { (s.setState state fun st => { st with resolving := false }) with flights := s.flights.eraseIdx i }
  match s.states[state]? with
  | none => s
  | some st =>
    if s.isCurrent hostId state then
      let now := s.now clock
      let s := s.tick
      if st.attemptAt > now then s.armHost clock hostId state else s
    else s

/-- The deadlines a host's state is resolved to. -/
def addDeadlines (s : Scheduler) (hostId state : Nat) (st : HostSilenceState) (groups : List (Nat × ℚ)) : Scheduler :=
  { s with groupDeadlines := groups.foldl (fun deadlines group =>
      assign deadlines (hostId, group.1)
        ⟨hostId, group.1, st.generation, st.silentAt + group.2, state, group.2⟩) s.groupDeadlines }

/-- `resolveDeadlines` returns a list. -/
def resolved (s : Scheduler) (i hostId state : Nat) (value : List (Option Int × Option ℚ)) : Scheduler :=
  match s.states[state]? with
  | none => s
  | some st =>
    if s.isCurrent hostId state then
      let groups := byGroupId value
      let s := { (s.addDeadlines hostId state st groups) with trace := .resolved state groups :: s.trace }
      (s.armGroupTimer clock false).finishResolve clock i hostId state
    else s.finishResolve clock i hostId state

/-- `resolveDeadlines` throws: the `catch` block runs up to `onError`. -/
def resolveThrew (s : Scheduler) (i hostId state : Nat) : Scheduler :=
  if s.isCurrent hostId state then
    let now := s.now clock
    let s := s.tick.setState state fun st => { st with attemptAt := now + c.retryMs }
    { s with flights := s.flights.set i (.resolveFailed hostId state) }
  else s.finishResolve clock i hostId state

/-- One entry of a failed trigger goes back, if its host has the generation it had. -/
def reinsert (s : Scheduler) (retryAt : ℚ) (deadlines : List ((Nat × Nat) × HostGroupDeadline)) (d : HostGroupDeadline) :
    List ((Nat × Nat) × HostGroupDeadline) :=
  match (s.hosts.lookup d.hostId).bind (s.states[·]?) with
  | none => deadlines
  | some st =>
    if st.generation ≠ d.generation then deadlines
    else match Assoc.get deadlines d.key with
      | none => assign deadlines d.key { d with dueAt := retryAt }
      | some existing => if retryAt < existing.dueAt then assign deadlines d.key { d with dueAt := retryAt } else deadlines

/-- The `finally` block of `triggerDueGroups`, which then returns. -/
def finishTrigger (s : Scheduler) (i : Nat) : Scheduler :=
  ({ s with flights := s.flights.eraseIdx i, groupTriggerRunning := false }).armGroupTimer clock true

/-- `trigger` throws: the `catch` block runs up to `onError`. -/
def triggerThrew (s : Scheduler) (i : Nat) (dueEntries : List HostGroupDeadline) : Scheduler :=
  let retryAt := s.now clock + c.retryMs
  { s with
    groupDeadlines := dueEntries.foldl (s.reinsert retryAt) s.groupDeadlines
    flights := s.flights.set i .triggerFailed }.tick

end

end Scheduler

/-- What can happen next: a host is seen or cleared, a live timer runs, the promise of a call
settles, its `onError` returns or throws. -/
inductive Action
  | observe (hostId : Option Int) (seenAt : TimeValue) (notBefore : Option ℚ)
  | clear (hostId : Option Int)
  | fire (handle : Nat)
  | resolved (i : Nat) (value : List (Option Int × Option ℚ))
  | resolveThrew (i : Nat)
  | triggered (i : Nat)
  | triggerThrew (i : Nat)
  | reported (i : Nat) (onError : Except Unit Unit)

def Scheduler.step (c : Config) (clock : ℕ → ℚ) (s : Scheduler) : Action → Option Scheduler
  | .observe hostId seenAt notBefore => some (s.observe c clock hostId seenAt notBefore).1
  | .clear hostId => some (s.clear clock hostId).1
  | .fire handle =>
    (s.timers.get handle).map fun timer =>
      ({ s with timers := s.timers.clear handle }).runCallback clock handle timer.callback
  | .resolved i value =>
    match s.flights[i]? with
    | some (.resolving hostId state) => some (s.resolved clock i hostId state value)
    | _ => none
  | .resolveThrew i =>
    match s.flights[i]? with
    | some (.resolving hostId state) => some (s.resolveThrew c clock i hostId state)
    | _ => none
  | .triggered i =>
    match s.flights[i]? with
    | some (.triggering dueEntries) =>
      some ({ s with trace := .triggered dueEntries :: s.trace }.finishTrigger clock i)
    | _ => none
  | .triggerThrew i =>
    match s.flights[i]? with
    | some (.triggering dueEntries) => some (s.triggerThrew c clock i dueEntries)
    | _ => none
  | .reported i _ =>
    -- what `onError` throws is caught
    match s.flights[i]? with
    | some (.resolveFailed hostId state) => some (s.finishResolve clock i hostId state)
    | some .triggerFailed => some (s.finishTrigger clock i)
    | _ => none

end ForwardX.Panel.SilenceScheduler
