import Mathlib.Logic.Function.Basic
import ForwardX.Lib.Slots
import ForwardX.Lib.Transition

/- The outbound pool of V3 sessions (`v3_session.go`, `v3SessionPool`): any number of
   calls of `openAt`, the `releaseWhenClosed` goroutines, `Close`, and the sessions
   with what their own goroutines and peers do to them.

   `openAt` is cut where it lets others run: it takes the lock and looks its bucket up
   (`begin`), looks at one session after the other (`check`, `closeStale`, `slots`),
   leaves the lock with what it found (`finish`), opens a stream (`openBegin`,
   `opened`, `openFailed`, `closeSelected`), waits for another call's dial (`wake`) or
   dials itself (`dialed`). The sessions it looks at go on while it holds the lock. -/
namespace ForwardX.V3.Pool
open Transition

universe u

def v3PoolSessionLimit : Int := 64
/-- `v3SessionStaleAge`: three write timeouts of ten seconds, in nanoseconds. -/
def v3SessionStaleAge : Int := 3 * 10000000000
def maxStreams : Nat := 128

/-- What the pool sees of a `v3.Session`: whether `Err` reports an error, whether its
goroutines are gone, the time of its last successful write, whether it is draining,
the next stream ID, its live streams, those of them the peer has closed, and
whether a physical write has failed. -/
structure Session where
  err : Bool
  ended : Bool
  lastWrite : Int
  draining : Bool
  nextID : Nat
  streams : List Nat
  remoteEOF : List Nat
  writeFailed : Bool
  deriving DecidableEq, Repr

def Session.new (now : Int) : Session := ⟨false, false, now, false, 1, [], [], false⟩

def Session.alive (x : Session) (now maxAge : Int) : Bool :=
  if x.err || x.draining then false
  else if maxAge ≤ 0 then true
  else decide (now - x.lastWrite ≤ maxAge)

def Session.openSlots (x : Session) : Nat :=
  if x.err || x.draining then 0 else maxStreams - x.streams.length

/-- `Close`: the session fails, and its streams are finished. -/
def Session.close (x : Session) : Session := { x with err := true, streams := [] }

/-- How `Open` starts: with an error, at the stream limit, or with a stream
registered under its ID; the second component is the session after it. -/
inductive Opening where
  | failed
  | limit
  | registered (id : Nat)
  deriving DecidableEq, Repr

def Session.openStream (x : Session) : Opening × Session :=
  if x.err then (.failed, x)
  else if x.draining then (.failed, x)
  else if x.streams.length ≥ maxStreams then (.limit, x)
  else if x.nextID = 0 then (.failed, { x with draining := true })
  else (.registered x.nextID,
    { x with streams := x.nextID :: x.streams, nextID := (x.nextID + 1) % 4294967296 })

/-- `v3PoolBucket`, with the key it was made for; `changed` counts how often the
channel was closed and replaced. -/
structure Bucket (κ : Type u) where
  key : κ
  sessions : List Nat
  dialing : Bool
  changed : Nat
  lastErr : Bool

/-- The loop of `openAt` over a bucket: the sessions to come, the ones kept, and the
one with the most slots. -/
structure Scan where
  bucket : Nat
  todo : List Nat
  alive : List Nat
  selected : Option Nat
  mostSlots : Nat

/-- Where a call of `openAt` stands. -/
inductive Phase where
  | start
  | scan (c : Scan)
  | stale (x : Nat) (c : Scan)
  | live (x : Nat) (c : Scan)
  | opening (x : Nat)
  | sending (x id : Nat)
  | failed (x : Nat)
  | waiting (bucket changed : Nat)
  | dialing (bucket slot : Nat)
  | returned (ok : Bool)

structure Caller (κ : Type u) where
  key : κ
  retries : Nat
  phase : Phase

/-- A `releaseWhenClosed` goroutine that has not run its critical section, with the
slot its session holds. -/
structure Releaser where
  bucket : Nat
  session : Nat
  slot : Nat
  deriving DecidableEq, Repr

/-- `v3SessionPool` with all its bucket and session objects, the calls of `openAt`,
and what `Close` has yet to close. `lock` is the call that is in its loop; `taken` and
`returned` number the slots. -/
structure SessionPool (κ : Type u) where
  clock : Int
  lock : Option Nat
  buckets : κ → Option Nat
  count : Int
  closed : Bool
  bucketObjects : List (Bucket κ)
  sessions : List Session
  callers : List (Caller κ)
  releasers : List Releaser
  closing : List Nat
  taken : Nat
  returned : List Nat

def SessionPool.init (κ : Type u) : SessionPool κ := ⟨0, none, fun _ => none, 0, false, [], [], [], [], [], 0, []⟩

inductive Act (κ : Type u) where
  -- `openAt`
  | call (key : κ)
  | begin (i : Nat)
  | check (i : Nat)
  | closeStale (i : Nat)
  | slots (i : Nat)
  | finish (i : Nat)
  | openBegin (i : Nat)
  | opened (i : Nat)
  | openFailed (i : Nat)
  | closeSelected (i : Nat)
  | wake (i : Nat)
  | dialed (i : Nat) (ok : Bool)
  -- `releaseWhenClosed` and `Close`
  | release (j : Nat)
  | close
  | closeNext
  -- the sessions and the world
  | tick (d : Nat)
  | write (x : Nat)
  | drain (x : Nat)
  | streamEnds (x id : Nat)
  | peerCloses (x id : Nat)
  | writeFails (x : Nat)
  | fail (x : Nat)
  | exit (x : Nat)

section
variable {κ : Type u} [DecidableEq κ]

def SessionPool.putCaller (s : SessionPool κ) (i : Nat) (c : Caller κ) : SessionPool κ :=
  { s with callers := s.callers.set i c }

def SessionPool.putSession (s : SessionPool κ) (x : Nat) (y : Session) : SessionPool κ :=
  { s with sessions := s.sessions.set x y }

def SessionPool.putBucket (s : SessionPool κ) (b : Nat) (v : Bucket κ) : SessionPool κ :=
  { s with bucketObjects := s.bucketObjects.set b v }

def SessionPool.deleteKey (s : SessionPool κ) (key : κ) : SessionPool κ :=
  { s with buckets := Function.update s.buckets key none }

def SessionPool.move (s : SessionPool κ) (i : Nat) (c : Caller κ) (phase : Phase) : SessionPool κ :=
  s.putCaller i { c with phase }

/-- The head of the loop of `openAt`. -/
def begin (s : SessionPool κ) (i : Nat) (c : Caller κ) : Option (SessionPool κ) :=
  if s.closed then some (s.move i c (.returned false))
  else
    match s.buckets c.key with
    | some b => (s.bucketObjects[b]?).map fun v =>
      { s.move i c (.scan ⟨b, v.sessions, [], none, 0⟩) with lock := some i }
    | none =>
      let b := s.bucketObjects.length
      some { s.move i c (.scan ⟨b, [], [], none, 0⟩) with
        lock := some i, buckets := Function.update s.buckets c.key (some b),
        bucketObjects := s.bucketObjects ++ [⟨c.key, [], false, 0, false⟩] }

/-- `Err` and `Alive` of the next session. -/
def check (s : SessionPool κ) (i : Nat) (c : Caller κ) (n : Scan) : Option (SessionPool κ) :=
  match n.todo with
  | [] => none
  | x :: todo => (s.sessions[x]?).map fun y =>
    let n := { n with todo }
    if y.err then s.move i c (.scan n)
    else if y.alive s.clock v3SessionStaleAge then s.move i c (.live x n)
    else s.move i c (.stale x n)

/-- `OpenSlots` of a session that is kept. -/
def slots (s : SessionPool κ) (i : Nat) (c : Caller κ) (x : Nat) (n : Scan) (y : Session) : SessionPool κ :=
  let kept := { n with alive := n.alive ++ [x] }
  if y.openSlots > n.mostSlots then
    s.move i c (.scan { kept with selected := some x, mostSlots := y.openSlots })
  else s.move i c (.scan kept)

/-- What follows the loop, up to where the lock is left. -/
def finish (s : SessionPool κ) (i : Nat) (c : Caller κ) (n : Scan) (v : Bucket κ) : SessionPool κ :=
  let v := { v with sessions := n.alive }
  let s : SessionPool κ := { s.putBucket n.bucket v with lock := none }
  match n.selected with
  | some x => s.move i c (.opening x)
  | none =>
    if v.dialing then s.move i c (.waiting n.bucket v.changed)
    else if s.count ≥ v3PoolSessionLimit then
      (if n.alive.length = 0 then s.deleteKey c.key else s).move i c (.returned false)
    else
      { (s.putBucket n.bucket { v with dialing := true }).move i c (.dialing n.bucket s.taken) with
        count := s.count + 1, taken := s.taken + 1 }

/-- `Open`, up to where its frame is queued. -/
def openBegin (s : SessionPool κ) (i : Nat) (c : Caller κ) (x : Nat) (y : Session) : SessionPool κ :=
  let r := y.openStream
  let s := s.putSession x r.2
  match r.1 with
  | .failed => s.move i c (.failed x)
  | .limit => s.move i c .start
  | .registered id => s.move i c (.sending x id)

/-- `send` may fail: the stream was finished or closed by the peer, or the session
or a physical write has failed. -/
def Session.sendMayFail (y : Session) (id : Nat) : Bool :=
  y.err || y.writeFailed || y.remoteEOF.contains id || !y.streams.contains id

/-- The critical section after the dial. -/
def dialed (s : SessionPool κ) (i : Nat) (c : Caller κ) (b slot : Nat) (v : Bucket κ) (ok : Bool) : SessionPool κ :=
  let ok := ok && !s.closed
  let v := { v with dialing := false, lastErr := !ok, changed := v.changed + 1 }
  if ok then
    let x := s.sessions.length
    { (s.putBucket b { v with sessions := v.sessions ++ [x] }).move i c .start with
      sessions := s.sessions ++ [.new s.clock], releasers := s.releasers ++ [⟨b, x, slot⟩] }
  else
    let s : SessionPool κ := { s.putBucket b v with count := s.count - 1, returned := slot :: s.returned }
    (if v.sessions.length = 0 then s.deleteKey c.key else s).move i c (.returned false)

/-- The critical section of `releaseWhenClosed`. -/
def release (s : SessionPool κ) (j : Nat) (r : Releaser) (v : Bucket κ) : SessionPool κ :=
  let v := { v with sessions := v.sessions.erase r.session }
  let s : SessionPool κ := { s.putBucket r.bucket v with
    count := if s.count > 0 then s.count - 1 else s.count,
    releasers := s.releasers.eraseIdx j, returned := r.slot :: s.returned }
  if v.sessions.length = 0 ∧ v.dialing = false ∧ s.buckets v.key = some r.bucket then
    s.deleteKey v.key
  else s

def SessionPool.pooled (s : SessionPool κ) : List Nat :=
  (s.bucketObjects.zipIdx.filter (fun v => s.buckets v.1.key = some v.2)).flatMap (·.1.sessions)

/-- One step; `none` where the action is not enabled. -/
def step (s : SessionPool κ) : Act κ → Option (SessionPool κ)
  | .call key => some { s with callers := s.callers ++ [⟨key, 0, .start⟩] }
  | .begin i => (s.callers[i]?).bind fun c =>
    match c.phase with
    | .start => if s.lock = none then begin s i c else none
    | _ => none
  | .check i => (s.callers[i]?).bind fun c =>
    match c.phase with
    | .scan n => check s i c n
    | _ => none
  | .closeStale i => (s.callers[i]?).bind fun c =>
    match c.phase with
    | .stale x n => (s.sessions[x]?).map fun y => (s.putSession x y.close).move i c (.scan n)
    | _ => none
  | .slots i => (s.callers[i]?).bind fun c =>
    match c.phase with
    | .live x n => (s.sessions[x]?).map fun y => slots s i c x n y
    | _ => none
  | .finish i => (s.callers[i]?).bind fun c =>
    match c.phase with
    | .scan n => if n.todo = [] then (s.bucketObjects[n.bucket]?).map (finish s i c n) else none
    | _ => none
  | .openBegin i => (s.callers[i]?).bind fun c =>
    match c.phase with
    | .opening x => (s.sessions[x]?).map fun y => openBegin s i c x y
    | _ => none
  | .opened i => (s.callers[i]?).bind fun c =>
    match c.phase with
    | .sending _ _ => some (s.move i c (.returned true))
    | _ => none
  | .openFailed i => (s.callers[i]?).bind fun c =>
    match c.phase with
    | .sending x id => (s.sessions[x]?).bind fun y =>
      if y.sendMayFail id then
        some ((s.putSession x { y with streams := y.streams.erase id }).move i c (.failed x))
      else none
    | _ => none
  | .closeSelected i => (s.callers[i]?).bind fun c =>
    match c.phase with
    | .failed x => (s.sessions[x]?).map fun y =>
      if c.retries < 2 then
        (s.putSession x y.close).move i { c with retries := c.retries + 1 } .start
      else (s.putSession x y.close).move i c (.returned false)
    | _ => none
  | .wake i => (s.callers[i]?).bind fun c =>
    match c.phase with
    | .waiting b changed => (s.bucketObjects[b]?).bind fun v =>
      if s.lock = none ∧ changed < v.changed then
        some (s.move i c (if v.lastErr then .returned false else .start))
      else none
    | _ => none
  | .dialed i ok => (s.callers[i]?).bind fun c =>
    match c.phase with
    | .dialing b slot =>
      if s.lock = none then (s.bucketObjects[b]?).map fun v => dialed s i c b slot v ok else none
    | _ => none
  | .release j => (s.releasers[j]?).bind fun r => (s.sessions[r.session]?).bind fun y =>
    if s.lock = none ∧ y.err ∧ y.ended then (s.bucketObjects[r.bucket]?).map (release s j r) else none
  | .close =>
    if s.lock = none then some { s with closed := true, closing := s.closing ++ s.pooled } else none
  | .closeNext =>
    match s.closing with
    | [] => none
    | x :: closing => (s.sessions[x]?).map fun y => { s.putSession x y.close with closing }
  | .tick d => some { s with clock := s.clock + d }
  | .write x => (s.sessions[x]?).map fun y => s.putSession x { y with lastWrite := s.clock }
  | .drain x => (s.sessions[x]?).map fun y => s.putSession x { y with draining := true }
  | .streamEnds x id => (s.sessions[x]?).map fun y =>
    s.putSession x { y with streams := y.streams.erase id }
  | .peerCloses x id => (s.sessions[x]?).map fun y =>
    s.putSession x { y with remoteEOF := id :: y.remoteEOF }
  | .writeFails x => (s.sessions[x]?).map fun y => s.putSession x { y with writeFailed := true }
  | .fail x => (s.sessions[x]?).map fun y => s.putSession x y.close
  | .exit x => (s.sessions[x]?).bind fun y =>
    if y.err then some (s.putSession x { y with ended := true }) else none

end

def pool (κ : Type u) [DecidableEq κ] : Steps (SessionPool κ) (Act κ) := Steps.ofFn step

end ForwardX.V3.Pool
