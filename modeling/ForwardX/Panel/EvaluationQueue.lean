import ForwardX.Lib.Timers
import ForwardX.Lib.Transition
import Mathlib.Algebra.Order.Field.Rat
import Mathlib.Data.List.Nodup

/- The queue of failover evaluations. Groups that are enqueued wait for a debounce timer, then one
   call of `evaluate` takes all that are pending; a group that it fails is put back by a retry
   timer whose delay doubles with every consecutive failure. -/
namespace ForwardX.Panel.EvaluationQueue

open Assoc

structure ForwardGroupEvaluationQueueOptions where
  debounceMs : Option ℚ
  retryBaseMs : Option ℚ
  retryMaxMs : Option ℚ

/-- The delays of a queue, as its constructor leaves them. -/
structure Delays where
  debounceMs : ℚ
  retryBaseMs : ℚ
  retryMaxMs : ℚ
  base_pos : 1 ≤ retryBaseMs
  base_le_max : retryBaseMs ≤ retryMaxMs

def ForwardGroupEvaluationQueueOptions.delays (o : ForwardGroupEvaluationQueueOptions) : Delays where
  debounceMs := max 0 (o.debounceMs.getD 250)
  retryBaseMs := max 1 (o.retryBaseMs.getD 1000)
  retryMaxMs := max (max 1 (o.retryBaseMs.getD 1000)) (o.retryMaxMs.getD 30000)
  base_pos := le_max_left _ _
  base_le_max := le_max_left _ _

/-- The positive integer that a value is, if it is one. The value is given by what `Number` makes
of it, `none` for what is no integer. -/
def positiveInteger : Option Int → Option Nat
  | some (.ofNat (n + 1)) => some (n + 1)
  | _ => none

/-- The groups an evaluation names as failed, each once. -/
structure ForwardGroupEvaluationBatchError where
  retryGroupIds : List Nat
  nodup : retryGroupIds.Nodup

/-- How the promise of `evaluate` settles. -/
inductive Outcome
  | success
  | batchError (error : ForwardGroupEvaluationBatchError)
  | otherError

/-- The groups of a batch that are evaluated again after an error. -/
def retryIds (groupIds : List Nat) : Outcome → List Nat
  | .success => []
  | .batchError error =>
    let requestedRetryIds := error.retryGroupIds.filter (fun groupId => groupId ∈ groupIds)
    if requestedRetryIds.length > 0 then requestedRetryIds else groupIds
  | .otherError => groupIds

inductive Callback
  | debounce
  | retry (groupId : Nat)
  deriving DecidableEq

structure Timer where
  callback : Callback
  delayMs : ℚ
  deriving DecidableEq

/-- What happened, for a reader of the queue: which groups were asked for, which calls of
`evaluate` started and how they ended, which retry timers ran. -/
inductive Event
  | enqueued (groupIds : List Nat)
  | started (groupIds : List Nat)
  | completed (groupIds : List Nat) (outcome : Outcome)
  | retried (groupId : Nat)

/-- A call of `flush` that waits for `evaluate`, or one that calls `onError`. -/
inductive Flight
  | evaluating (groupIds : List Nat)
  | reporting (retryDelayMs : ℚ)

/-- The queue, the timers of the runtime, the calls of `flush` that have not returned and, newest
first, what happened. -/
structure Queue where
  pending : List Nat
  retryTimers : List (Nat × Nat)
  consecutiveFailures : List (Nat × Nat)
  timer : Option Nat
  running : Bool
  timers : Timers Timer
  flights : List Flight
  trace : List Event

def initial : Queue := ⟨[], [], [], none, false, .empty, [], []⟩

/-- `pending.add` -/
def Queue.add (q : Queue) (groupId : Nat) : Queue :=
  { q with pending := if groupId ∈ q.pending then q.pending else q.pending ++ [groupId] }

def Queue.arm (q : Queue) (delayMs : ℚ) : Queue :=
  if q.timer.isSome || q.running || q.pending.isEmpty then q
  else { q with timer := some q.timers.next, timers := q.timers.set ⟨.debounce, delayMs⟩ }

section
variable (o : Delays)

def Queue.enqueue (q : Queue) (groupIds : List (Option Int)) : Queue × Nat :=
  let ids := groupIds.filterMap positiveInteger
  let q := ({ ids.foldl Queue.add q with trace := .enqueued ids :: q.trace }).arm o.debounceMs
  (q, q.pending.length)

/-- The delay after the `failures`-th consecutive failure. -/
def retryDelay (failures : Nat) : ℚ :=
  let exponent := min (failures - 1) 30
  min o.retryMaxMs (o.retryBaseMs * 2 ^ exponent)

/-- Count one failure more of a group; the delay is the result. -/
def Queue.retryDelayMs (q : Queue) (groupId : Nat) : Queue × ℚ :=
  let failures := (q.consecutiveFailures.lookup groupId).getD 0 + 1
  ({ q with consecutiveFailures := put q.consecutiveFailures groupId failures }, retryDelay o failures)

def Queue.clearRetry (q : Queue) (groupId : Nat) : Queue :=
  { q with
    consecutiveFailures := erase q.consecutiveFailures groupId
    timers := q.timers.clearSome (q.retryTimers.lookup groupId)
    retryTimers := erase q.retryTimers groupId }

def Queue.scheduleRetry (q : Queue) (groupId : Nat) : Queue × ℚ :=
  let q := { q with timers := q.timers.clearSome (q.retryTimers.lookup groupId) }
  let (q, delayMs) := q.retryDelayMs o groupId
  ({ q with
    retryTimers := put q.retryTimers groupId q.timers.next
    timers := q.timers.set ⟨.retry groupId, delayMs⟩ }, delayMs)

/-- `retryIds.map(scheduleRetry)`: the delays are in the order of the groups. -/
def Queue.scheduleRetries (q : Queue) : List Nat → Queue × List ℚ
  | [] => (q, [])
  | groupId :: groupIds =>
    let (q, delayMs) := q.scheduleRetry o groupId
    let (q, delays) := q.scheduleRetries groupIds
    (q, delayMs :: delays)

/-- `flush` up to its `await`. -/
def Queue.flush (q : Queue) : Queue :=
  if q.running || q.pending.isEmpty then q
  else { q with
    pending := []
    running := true
    flights := q.flights ++ [.evaluating q.pending]
    trace := .started q.pending :: q.trace }

/-- The callback of a timer that is no longer live. -/
def Queue.runCallback (q : Queue) (handle : Nat) : Callback → Queue
  | .debounce => ({ q with timer := none }).flush
  | .retry groupId =>
    if q.retryTimers.lookup groupId ≠ some handle then q
    else
      let q := { q with retryTimers := erase q.retryTimers groupId, trace := .retried groupId :: q.trace }
      (q.add groupId).arm 0

/-- The `finally` block of a call of `flush`, which then returns. -/
def Queue.finish (q : Queue) (i : Nat) : Queue :=
  ({ q with flights := q.flights.eraseIdx i, running := false }).arm o.debounceMs

/-- `evaluate` settles: the `try` block goes on, or the `catch` block runs up to `onError`. -/
def Queue.settle (q : Queue) (i : Nat) (groupIds : List Nat) (outcome : Outcome) : Queue :=
  let q := { q with trace := .completed groupIds outcome :: q.trace }
  match outcome with
  | .success => (groupIds.foldl Queue.clearRetry q).finish o i
  | _ =>
    let retryIds := retryIds groupIds outcome
    let q := (groupIds.filter (fun groupId => groupId ∉ retryIds)).foldl Queue.clearRetry q
    let (q, delays) := q.scheduleRetries o retryIds
    { q with flights := q.flights.set i (.reporting (delays.tail.foldl min (delays.headD 0))) }

/-- What can happen next: a caller enqueues groups, a live timer runs, the `i`-th call of
`evaluate` settles, its `onError` returns or throws. -/
inductive Action
  | enqueue (groupIds : List (Option Int))
  | fire (handle : Nat)
  | settle (i : Nat) (outcome : Outcome)
  | reported (i : Nat) (onError : Except Unit Unit)

def Queue.step (q : Queue) : Action → Option Queue
  | .enqueue groupIds => some (q.enqueue o groupIds).1
  | .fire handle =>
    (q.timers.get handle).map fun timer => ({ q with timers := q.timers.clear handle }).runCallback handle timer.callback
  | .settle i outcome =>
    match q.flights[i]? with
    | some (.evaluating groupIds) => some (q.settle o i groupIds outcome)
    | _ => none
  | .reported i onError =>
    match q.flights[i]? with
    | some (.reporting _) =>
      match onError with
      | .ok _ => some (q.finish o i)
      -- the error of `onError` is caught
      | .error _ => some (q.finish o i)
    | _ => none

end

/-- The batches that `evaluate` is called with and has not settled. -/
def Queue.evaluating (q : Queue) : List (List Nat) :=
  q.flights.filterMap fun
    | .evaluating groupIds => some groupIds
    | .reporting _ => none

/-! ## What the trace says of a group -/

/-- A call of `evaluate` failed a group of its batch: it threw, and not for others only. -/
def Outcome.Failed (groupIds : List Nat) (groupId : Nat) : Outcome → Prop
  | .success => False
  | .batchError error => groupId ∈ error.retryGroupIds ∨ ∀ other ∈ groupIds, other ∉ error.retryGroupIds
  | .otherError => True

instance (groupIds : List Nat) (groupId : Nat) : (outcome : Outcome) → Decidable (outcome.Failed groupIds groupId)
  | .success => inferInstanceAs (Decidable False)
  | .batchError error =>
    inferInstanceAs (Decidable (groupId ∈ error.retryGroupIds ∨ ∀ other ∈ groupIds, other ∉ error.retryGroupIds))
  | .otherError => inferInstanceAs (Decidable True)

/-- The group was enqueued since the last call of `evaluate` started. -/
def EnqueuedSinceStart (groupId : Nat) : List Event → Prop
  | [] => False
  | .enqueued groupIds :: trace => groupId ∈ groupIds ∨ EnqueuedSinceStart groupId trace
  | .started _ :: _ => False
  | .completed _ _ :: trace => EnqueuedSinceStart groupId trace
  | .retried _ :: trace => EnqueuedSinceStart groupId trace

/-- The group was enqueued, and no call of `evaluate` that contained it and started afterwards has
completed without failing it. -/
def Owed (groupId : Nat) : List Event → Prop
  | [] => False
  | .enqueued groupIds :: trace => groupId ∈ groupIds ∨ Owed groupId trace
  | .started _ :: trace => Owed groupId trace
  | .completed groupIds outcome :: trace =>
    Owed groupId trace ∧ (groupId ∈ groupIds → outcome.Failed groupIds groupId ∨ EnqueuedSinceStart groupId trace)
  | .retried _ :: trace => Owed groupId trace

/-- The latest call of `evaluate` that contained the group completed without failing it. -/
def Succeeded (groupId : Nat) : List Event → Prop
  | [] => False
  | .completed groupIds outcome :: trace =>
    if groupId ∈ groupIds then ¬ outcome.Failed groupIds groupId else Succeeded groupId trace
  | .enqueued _ :: trace => Succeeded groupId trace
  | .started _ :: trace => Succeeded groupId trace
  | .retried _ :: trace => Succeeded groupId trace

/-- How many calls of `evaluate` failed the group since the latest that did not. -/
def failures (groupId : Nat) : List Event → Nat
  | [] => 0
  | .completed groupIds outcome :: trace =>
    if groupId ∈ groupIds then
      if outcome.Failed groupIds groupId then failures groupId trace + 1 else 0
    else failures groupId trace
  | .enqueued _ :: trace => failures groupId trace
  | .started _ :: trace => failures groupId trace
  | .retried _ :: trace => failures groupId trace

/-- The latest call of `evaluate` that contained the group failed it, and it was not retried since. -/
def BackedOff (groupId : Nat) : List Event → Prop
  | [] => False
  | .completed groupIds outcome :: trace =>
    if groupId ∈ groupIds then outcome.Failed groupIds groupId else BackedOff groupId trace
  | .retried other :: trace => other ≠ groupId ∧ BackedOff groupId trace
  | .enqueued _ :: trace => BackedOff groupId trace
  | .started _ :: trace => BackedOff groupId trace

end ForwardX.Panel.EvaluationQueue
