import ForwardX.Panel.DdnsRecords
import ForwardX.Panel.EvaluationQueue

/- The fast liveness of agents. A host that is registered has a timer for the time at which its
   silence is long enough; then it is confirmed offline, until it is active again. Both changes are
   told to listeners as events with an epoch. The readings of the clock are the values of a function
   of their number, which may go down. -/
namespace ForwardX.Panel.FastLiveness

open Assoc Ddns EvaluationQueue

/-! ## Versions of the agent -/

def normalizeVersion (version : String) : String :=
  let trimmed := (jsTrim version).toList
  String.ofList (if trimmed.head? = some 'v' ∨ trimmed.head? = some 'V' then trimmed.tail else trimmed)

/-- `Number.parseInt(x, 10) || 0`, of a piece without a minus sign. -/
def pieceValue (piece : List Char) : Nat :=
  let piece := piece.dropWhile jsIsSpace
  digitsValue ((if piece.head? = some '+' then piece.tail else piece).takeWhile Char.isDigit)

def versionPieces (version : String) : List Nat :=
  ((normalizeVersion version).toList.splitOnP (fun c => c == '.' || c == '-')).map pieceValue

def compareVersions (a b : String) : Int :=
  let pa := versionPieces a
  let pb := versionPieces b
  let diffs := (List.range (max pa.length pb.length)).map fun i => (pa.getD i 0 : Int) - (pb.getD i 0 : Int)
  (diffs.find? (· ≠ 0)).elim 0 Int.sign

def isAgentVersionAtLeast (version target : String) : Bool :=
  if version = "" ∨ target = "" then false else compareVersions version target ≥ 0

def AGENT_FAST_LIVENESS_MIN_VERSION : String := "2.2.171"

def supportsAgentFastLiveness (agentVersion : String) : Bool :=
  isAgentVersionAtLeast agentVersion AGENT_FAST_LIVENESS_MIN_VERSION

/-! ## The tracker -/

structure Config where
  silenceMs : ℚ
  startupGraceMs : ℚ

def Config.ofOptions (silenceMs startupGraceMs : Option ℚ) : Config :=
  ⟨max 1 (silenceMs.getD 90000), max 0 (startupGraceMs.getD 90000)⟩

def MAX_SAFE_INTEGER : Nat := 9007199254740991

def nextGeneration (current : Nat) : Nat := if current ≥ MAX_SAFE_INTEGER then 1 else current + 1

/-- A value that should be a time: a date with its time, or a value with the number it is and the
time its text is, each only where it is finite. -/
inductive TimeValue
  | date (time : Option ℚ)
  | value (numeric parsed : Option ℚ)

def normalizedTimestamp (value : TimeValue) (now : ℚ) : Option ℚ :=
  let positive (x : Option ℚ) : Option ℚ := x.bind fun x => if x > 0 then some (min x now) else none
  match value with
  | .date time => positive time
  | .value numeric parsed => (positive numeric).or (positive parsed)

structure AgentFastLivenessHost where
  hostId : Option Int
  agentVersion : String
  /-- `isOnline` is `false`, `0` or `"0"`. -/
  isOffline : Bool
  lastHeartbeat : TimeValue

structure AgentFastLivenessState where
  hostId : Nat
  agentVersion : String
  transitionEpoch : Nat
  lastSeenAt : Option ℚ
  deadlineAt : ℚ
  offlineAt : Option ℚ
  lastOfflineAt : Option ℚ
  confirmedOffline : Bool

structure MutableAgentFastLivenessState extends AgentFastLivenessState where
  timerGeneration : Nat
  timer : Option Nat

inductive AgentFastLivenessTransitionKind
  | confirmedOffline
  | activityRestored
  deriving DecidableEq

/-- An event, with the reading of the clock by which it was decided. -/
structure AgentFastLivenessTransition extends AgentFastLivenessState where
  kind : AgentFastLivenessTransitionKind
  readAt : ℚ

structure Timer where
  hostId : Nat
  timerGeneration : Nat
  delayMs : ℚ

/-- What happened, for the reader: a host was registered at a reading of the clock, for the startup
grace or not; its activity was accepted; it was removed; an event was emitted. -/
inductive Entry
  | registered (hostId : Nat) (now : ℚ) (grace : Bool)
  | activity (hostId : Nat) (now : ℚ)
  | removed (hostId : Nat)
  | emitted (event : AgentFastLivenessTransition)

structure Tracker where
  hosts : List (Nat × MutableAgentFastLivenessState)
  transitionEpochCounter : Nat
  timers : Timers Timer
  /-- The events whose listeners are being called, the innermost first. -/
  emitting : List AgentFastLivenessTransition
  /-- How often the clock was read. -/
  reads : Nat
  log : List Entry

def initial : Tracker := ⟨[], 0, .empty, [], 0, []⟩

namespace Tracker

def tick (t : Tracker) : Tracker := { t with reads := t.reads + 1 }

/-- `emit`. The listeners are called next, and nothing is left to do when they have returned: a call
that one of them makes is a step of its own. -/
def emit (t : Tracker) (kind : AgentFastLivenessTransitionKind) (st : MutableAgentFastLivenessState) (readAt : ℚ) : Tracker :=
  let event : AgentFastLivenessTransition := ⟨st.toAgentFastLivenessState, kind, readAt⟩
  { t with emitting := event :: t.emitting, log := .emitted event :: t.log }

def removeHost (t : Tracker) (hostId : Option Int) : Tracker × Bool :=
  match positiveInteger hostId with
  | none => (t, false)
  | some hostId =>
    match t.hosts.lookup hostId with
    | none => (t, false)
    | some st =>
      ({ t with
        timers := t.timers.clearSome st.timer
        hosts := erase t.hosts hostId
        log := .removed hostId :: t.log }, true)

def clear (t : Tracker) : Tracker :=
  { t with
    timers := t.hosts.foldl (fun timers e => timers.clearSome e.2.timer) t.timers
    hosts := []
    log := t.hosts.map (fun e => .removed e.1) ++ t.log }

def isCurrentTransition (t : Tracker) (hostId transitionEpoch : Option Int) (confirmedOffline : Option Bool) : Bool :=
  match positiveInteger hostId, positiveInteger transitionEpoch with
  | some hostId, some transitionEpoch =>
    if transitionEpoch > MAX_SAFE_INTEGER then false
    else match t.hosts.lookup hostId with
      | none => false
      | some st =>
        if st.transitionEpoch ≠ transitionEpoch then false
        else confirmedOffline.elim true (fun confirmedOffline => st.confirmedOffline == confirmedOffline)
  | _, _ => false

/-- `event.isCurrent()` -/
def isCurrent (t : Tracker) (event : AgentFastLivenessTransition) : Bool :=
  t.isCurrentTransition (some event.hostId) (some event.transitionEpoch)
    (some (event.kind == .confirmedOffline))

section
variable (c : Config) (clock : ℕ → ℚ)

def now (t : Tracker) : ℚ := clock t.reads

/-- `arm`: the state is in `hosts` under its `hostId`. -/
def arm (t : Tracker) (st : MutableAgentFastLivenessState) : Tracker :=
  { t with
    timers := t.timers.set ⟨st.hostId, st.timerGeneration, max 0 (st.deadlineAt - t.now clock)⟩
    hosts := put t.hosts st.hostId { st with timer := some t.timers.next } }.tick

/-- The callback of a timer that is no longer live. -/
def runCallback (t : Tracker) (handle : Nat) (timer : Timer) : Tracker :=
  match t.hosts.lookup timer.hostId with
  | none => t
  | some current =>
    if current.timerGeneration ≠ timer.timerGeneration ∨ current.timer ≠ some handle then t
    else
      let current := { current with timer := none }
      let readAt := t.now clock
      let t := { t with hosts := put t.hosts timer.hostId current }.tick
      if readAt < current.deadlineAt then t.arm clock current
      else if current.confirmedOffline then t
      else
        let offlineAt := t.now clock
        let current := { current with
          confirmedOffline := true
          offlineAt := some offlineAt
          lastOfflineAt := some offlineAt
          transitionEpoch := nextGeneration t.transitionEpochCounter }
        { t with
          hosts := put t.hosts timer.hostId current
          transitionEpochCounter := nextGeneration t.transitionEpochCounter }.tick.emit .confirmedOffline current readAt

/-- The state of a host whose activity is accepted at the reading `now`. -/
def active (st : MutableAgentFastLivenessState) (now seenAt : ℚ) : MutableAgentFastLivenessState :=
  { st with
    timer := none
    timerGeneration := nextGeneration st.timerGeneration
    lastSeenAt := some (max (st.lastSeenAt.getD 0) seenAt)
    deadlineAt := now + c.silenceMs
    confirmedOffline := false
    offlineAt := none }

/-- The activity of a registered host. -/
def accept (t : Tracker) (st : MutableAgentFastLivenessState) (seenAtValue : TimeValue) : Tracker :=
  let now := t.now clock
  let seenAt := (normalizedTimestamp seenAtValue now).getD now
  let fresh := active c st now seenAt
  let t := { t.tick with timers := t.timers.clearSome st.timer, log := .activity st.hostId now :: t.log }
  if st.confirmedOffline then
    let fresh := { fresh with transitionEpoch := nextGeneration t.transitionEpochCounter }
    ({ t with transitionEpochCounter := nextGeneration t.transitionEpochCounter }.arm clock fresh).emit
      .activityRestored fresh now
  else t.arm clock fresh

/-- `observeActivity`; a time that is not given is a reading of the clock. -/
def observeActivity (t : Tracker) (hostId : Option Int) (seenAtValue : Option TimeValue) : Tracker × Bool :=
  let (seenAtValue, t) := match seenAtValue with
    | none => (.value (some (t.now clock)) none, t.tick)
    | some seenAtValue => (seenAtValue, t)
  match positiveInteger hostId with
  | none => (t, false)
  | some hostId =>
    match t.hosts.lookup hostId with
    | none => (t, false)
    | some st => (t.accept c clock st seenAtValue, true)

/-- A host that is not registered yet. -/
def register (t : Tracker) (hostId : Nat) (host : AgentFastLivenessHost) (agentVersion : String) (startupGrace : Bool)
    (activityAt : Option TimeValue) : Tracker :=
  let now := t.now clock
  let activityAt := activityAt.map fun value => (normalizedTimestamp value now).getD now
  let persistedSeenAt := normalizedTimestamp host.lastHeartbeat now
  let persistedOffline := startupGrace && host.isOffline
  let grace := startupGrace && activityAt.isNone
  let deadlineDelay := if grace then c.startupGraceMs else c.silenceMs
  let st : MutableAgentFastLivenessState :=
    { hostId := hostId
      agentVersion := agentVersion
      transitionEpoch := 0
      lastSeenAt := activityAt.or persistedSeenAt
      deadlineAt := now + deadlineDelay
      offlineAt := none
      lastOfflineAt := if persistedOffline then some now else none
      confirmedOffline := false
      timerGeneration := 1
      timer := none }
  { t.tick with log := .registered hostId now grace :: t.log }.arm clock st

def registerHost (t : Tracker) (host : AgentFastLivenessHost) (startupGrace : Bool) (activityAt : Option TimeValue) :
    Tracker × Bool :=
  match positiveInteger host.hostId with
  | none => (t, false)
  | some hostId =>
    let agentVersion := jsTrim host.agentVersion
    if !supportsAgentFastLiveness agentVersion then ((t.removeHost (some hostId)).1, false)
    else match t.hosts.lookup hostId with
      | some existing =>
        let t := { t with hosts := put t.hosts hostId { existing with agentVersion := agentVersion } }
        match activityAt with
        | none => (t, true)
        | some activityAt => ((t.observeActivity c clock (some hostId) (some activityAt)).1, true)
      | none => (t.register c clock hostId host agentVersion startupGrace activityAt, true)

/-- `primeHosts`: how many were eligible. -/
def primeHosts (t : Tracker) : List AgentFastLivenessHost → Tracker × Nat
  | [] => (t, 0)
  | host :: hosts =>
    let (t, registered) := t.registerHost c clock host true none
    let (t, eligible) := t.primeHosts hosts
    (t, eligible + if registered then 1 else 0)

/-- `registerPresenceCapableHost`; a time that is not given is a reading of the clock. -/
def registerPresenceCapableHost (t : Tracker) (hostId : Option Int) (seenAtValue : Option TimeValue) : Tracker × Bool :=
  let (seenAtValue, t) := match seenAtValue with
    | none => (.value (some (t.now clock)) none, t.tick)
    | some seenAtValue => (seenAtValue, t)
  match positiveInteger hostId with
  | none => (t, false)
  | some id =>
    if (t.hosts.lookup id).isSome then t.observeActivity c clock hostId (some seenAtValue)
    else t.registerHost c clock
      ⟨some id, AGENT_FAST_LIVENESS_MIN_VERSION, false, .value none none⟩ false (some seenAtValue)

end

end Tracker

/-- How a listener returns: with a promise that rejects, or by throwing; the tracker catches both. -/
inductive ListenerResult
  | returned
  | rejected
  | threw

/-- What can happen next. A listener can call the tracker while an event is emitted; the callback of
a timer runs when no event is. -/
inductive Action
  | registerHost (host : AgentFastLivenessHost) (startupGrace : Bool) (activityAt : Option TimeValue)
  | primeHosts (hosts : List AgentFastLivenessHost)
  | registerPresenceCapableHost (hostId : Option Int) (seenAt : Option TimeValue)
  | observeActivity (hostId : Option Int) (seenAt : Option TimeValue)
  | removeHost (hostId : Option Int)
  | clear
  | fire (handle : Nat)
  | listener (result : ListenerResult)
  | emitted

def Tracker.step (c : Config) (clock : ℕ → ℚ) (t : Tracker) : Action → Option Tracker
  | .registerHost host startupGrace activityAt => some (t.registerHost c clock host startupGrace activityAt).1
  | .primeHosts hosts => some (t.primeHosts c clock hosts).1
  | .registerPresenceCapableHost hostId seenAt => some (t.registerPresenceCapableHost c clock hostId seenAt).1
  | .observeActivity hostId seenAt => some (t.observeActivity c clock hostId seenAt).1
  | .removeHost hostId => some (t.removeHost hostId).1
  | .clear => some t.clear
  | .fire handle =>
    if t.emitting = [] then
      (t.timers.get handle).map fun timer => ({ t with timers := t.timers.clear handle }).runCallback clock handle timer
    else none
  | .listener result =>
    if t.emitting = [] then none
    else match result with
      | .returned => some t
      -- `reportError`, which catches what `onError` throws
      | .rejected => some t
      | .threw => some t
  | .emitted =>
    match t.emitting with
    | [] => none
    | _ :: outer => some { t with emitting := outer }

end ForwardX.Panel.FastLiveness
