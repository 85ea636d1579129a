import Mathlib.Data.List.Dedup
import Mathlib.Data.List.Perm.Basic
import ForwardX.Lib.Assoc
import ForwardX.Lib.Transition

/- Traffic reporting of one process (`traffic.go`). Traffic is added to a batch for its
   key (`enqueueTraffic`); a flush freezes a copy of every batch under a new report
   id, posts the copies one by one and takes a copy off its batch when the panel has
   confirmed it (`acknowledgeTrafficBatch`). A report that failed is posted again
   by the next flush as it is.

   `trafficBatchFlushMu` lets one flush run at a time; between its posts any
   traffic may be enqueued. The byte counts are `uint64`, so they wrap around. -/
namespace ForwardX.Fxp.Traffic

/-! ## Keys and counts -/

def isSpace (c : Char) : Bool :=
  c ∈ ['\t', '\n', '\x0b', '\x0c', '\r', ' ', '\u0085', '\u00a0', '\u1680', '\u2028', '\u2029',
    '\u202f', '\u205f', '\u3000'] || ('\u2000' ≤ c && c ≤ '\u200a')

def trimSpace (s : String) : String :=
  String.ofList (((s.toList.dropWhile isSpace).reverse.dropWhile isSpace).reverse)

/-- `strings.TrimRight(s, "/")`. -/
def trimRightSlash (s : String) : String :=
  String.ofList ((s.toList.reverse.dropWhile (· == '/')).reverse)

/-- The configuration of a listener, as far as reporting reads it. -/
structure Config where
  PanelURL : String
  Token : String
  Role : String
  TunnelID : Int
  RuleID : Int
  ListenPort : Int
  InstallationID : String
  deriving DecidableEq, Repr

/-- `strings.ToLower`, the hash of a string in hexadecimal digits, and the ids that
`newFXPTrafficReportID` returns, in order. -/
structure Env where
  toLower : String → String
  sha256 : String → String
  reportID : Nat → String

def fxpTrafficProducerID (env : Env) (cfg : Config) : String :=
  let identity := trimRightSlash (trimSpace cfg.PanelURL) ++ "\x00" ++ trimSpace cfg.Token ++ "\x00" ++
    env.toLower (trimSpace cfg.Role) ++ "\x00" ++ toString cfg.TunnelID ++ "\x00" ++
    toString cfg.RuleID ++ "\x00" ++ toString cfg.ListenPort
  "fxp-" ++ env.sha256 identity

/-- `trafficBatchKey`. -/
structure Key where
  installationID : String
  panelURL : String
  token : String
  producerID : String
  deriving DecidableEq, Repr

/-- `trafficBatchValue`. -/
structure Value where
  bytesIn : UInt64
  bytesOut : UInt64
  connections : UInt64
  deriving DecidableEq, Repr

/-- The three counts of a `Value`. -/
inductive Measure
  | bytesIn
  | bytesOut
  | connections
  deriving DecidableEq, Repr

def Value.at (v : Value) : Measure → UInt64
  | .bytesIn => v.bytesIn
  | .bytesOut => v.bytesOut
  | .connections => v.connections

def Value.zero : Value := ⟨0, 0, 0⟩

def Value.add (v w : Value) : Value :=
  ⟨v.bytesIn + w.bytesIn, v.bytesOut + w.bytesOut, v.connections + w.connections⟩

/-- `current - sent`, or 0 where more was sent. -/
def saturate (current sent : UInt64) : UInt64 :=
  if current ≥ sent then current - sent else 0

def Value.saturate (current sent : Value) : Value :=
  ⟨Traffic.saturate current.bytesIn sent.bytesIn, Traffic.saturate current.bytesOut sent.bytesOut,
    Traffic.saturate current.connections sent.connections⟩

theorem Value.at_zero (m : Measure) : Value.zero.at m = 0 := by
  cases m <;> rfl

theorem Value.at_add (v w : Value) (m : Measure) : (v.add w).at m = v.at m + w.at m := by
  cases m <;> rfl

theorem Value.at_saturate (v w : Value) (m : Measure) :
    (v.saturate w).at m = Traffic.saturate (v.at m) (w.at m) := by
  cases m <;> rfl

/-- `map[int]trafficBatchValue`. -/
abbrev ByRule := List (Int × Value)

def amount (byRule : ByRule) (rule : Int) (m : Measure) : Nat :=
  (((byRule.lookup rule).getD Value.zero).at m).toNat

/-- `pendingTrafficBatch`. -/
structure Pending where
  reportID : String
  byRule : ByRule
  deriving DecidableEq, Repr

/-! ## The reporter -/

/-- `trafficBatches` and `trafficPendingReports`, and the flush that is running: the
copies it has still to post and the one whose answer it waits for. `issued` are all
reports made so far, in order: it numbers the calls of `newFXPTrafficReportID`. -/
structure Reporter where
  batches : List (Key × ByRule)
  pending : List (Key × Pending)
  todo : List (Key × Pending)
  posting : Option (Key × Pending)
  issued : List (Key × Pending)

def Reporter.new : Reporter := ⟨[], [], [], none, []⟩

def Reporter.batch (r : Reporter) (key : Key) : ByRule := (r.batches.lookup key).getD []

/-- The key that `enqueueTraffic` adds to; `none` when it returns without counting. -/
def trafficKey (env : Env) (cfg : Config) (delta : Value) : Option Key :=
  let panelURL := trimRightSlash (trimSpace cfg.PanelURL)
  let token := trimSpace cfg.Token
  if delta.bytesIn = 0 ∧ delta.bytesOut = 0 ∧ delta.connections = 0 then none
  else if panelURL = "" ∨ token = "" ∨ cfg.RuleID ≤ 0 then none
  else some ⟨cfg.InstallationID, panelURL, token, fxpTrafficProducerID env cfg⟩

/-- The addition of `enqueueTraffic`, under `trafficBatchMu`. -/
def Reporter.add (r : Reporter) (key : Key) (rule : Int) (delta : Value) : Reporter :=
  let byRule := r.batch key
  let current := (byRule.lookup rule).getD Value.zero
  { r with batches := Assoc.put r.batches key (Assoc.put byRule rule (current.add delta)) }

def Reporter.enqueueTraffic (env : Env) (r : Reporter) (cfg : Config) (bytesIn bytesOut : UInt64)
    (connectionDeltas : List UInt64) : Reporter :=
  let delta : Value := ⟨bytesIn, bytesOut, connectionDeltas.headD 0⟩
  match trafficKey env cfg delta with
  | none => r
  | some key => r.add key cfg.RuleID delta

/-- One round of the loop of `trafficBatchPendingSnapshot`. -/
def Reporter.freeze (env : Env) (r : Reporter) (key : Key) : Reporter :=
  let pending := (r.pending.lookup key).getD ⟨"", []⟩
  if pending.byRule ≠ [] then { r with todo := r.todo ++ [(key, pending)] }
  else
    let copy := (r.batch key).filter
      (fun e => e.2.bytesIn > 0 || e.2.bytesOut > 0 || e.2.connections > 0)
    if copy ≠ [] then
      let pending : Pending := ⟨env.reportID r.issued.length, copy⟩
      { r with
        pending := Assoc.put r.pending key pending
        todo := r.todo ++ [(key, pending)]
        issued := r.issued ++ [(key, pending)] }
    else r

/-- The keys that `trafficBatchPendingSnapshot` collects. -/
def Reporter.keys (r : Reporter) : List Key :=
  (Assoc.keys r.batches ++ Assoc.keys r.pending).dedup

/-- `trafficBatchPendingSnapshot`, with the keys in the order in which they are visited. -/
def Reporter.snapshot (env : Env) (r : Reporter) (order : List Key) : Reporter :=
  order.foldl (Reporter.freeze env) { r with todo := [] }

/-- One round of the loop of `acknowledgeTrafficBatch`. -/
def settleRule (byRule : ByRule) (sent : Int × Value) : ByRule :=
  match byRule.lookup sent.1 with
  | none => byRule
  | some current =>
    let rest := current.saturate sent.2
    if rest.bytesIn = 0 ∧ rest.bytesOut = 0 ∧ rest.connections = 0 then Assoc.erase byRule sent.1
    else Assoc.put byRule sent.1 rest

def Reporter.acknowledgeTrafficBatch (r : Reporter) (key : Key) (sent : ByRule) : Reporter :=
  let byRule := sent.foldl settleRule (r.batch key)
  { r with
    pending := Assoc.erase r.pending key
    batches := if byRule = [] then Assoc.erase r.batches key else Assoc.put r.batches key byRule }

/-! ## The reporter and a panel -/

/-- What happened, in order. -/
inductive Event
  | enqueued (key : Key) (rule : Int) (delta : Value)
  | posted (key : Key) (pending : Pending)
  | acknowledged (key : Key) (pending : Pending)
  deriving DecidableEq, Repr

/-- What `enqueueTraffic` counted. -/
def Event.enqueuedAmount (key : Key) (rule : Int) (m : Measure) : Event → Nat
  | .enqueued k r delta => if k = key ∧ r = rule then (delta.at m).toNat else 0
  | _ => 0

def Event.acknowledgedAmount (key : Key) (rule : Int) (m : Measure) : Event → Nat
  | .acknowledged k pending => if k = key then amount pending.byRule rule m else 0
  | _ => 0

/-- A reporter, the requests it has posted, and a panel for each URL that applies the
report of a producer at most once. A request may reach its panel at any time, any
number of times, or never. -/
structure System where
  reporter : Reporter
  requests : List (Key × Pending)
  applied : List (String × String × String)
  credited : Key → Int → Measure → Nat
  log : List Event

def System.initial : System := ⟨Reporter.new, [], [], fun _ _ _ => 0, []⟩

def reportKey (request : Key × Pending) : String × String × String :=
  (request.1.panelURL, request.1.producerID, request.2.reportID)

inductive Act
  /-- `enqueueTraffic`. -/
  | enqueue (cfg : Config) (bytesIn bytesOut : UInt64) (connectionDeltas : List UInt64)
  /-- `flushTrafficBatches` starts, and takes its snapshot. -/
  | flush (order : List Key)
  /-- `postTrafficBatch` of one of the copies. -/
  | post (key : Key)
  /-- A request reaches its panel. -/
  | deliver (request : Nat)
  /-- `postTrafficBatch` returns false: nothing came back, or no success. -/
  | fail
  /-- `postTrafficBatch` returns true: the panel has processed the request. -/
  | succeed

/-- One step; `none` where it is not enabled. -/
def System.step (env : Env) (s : System) : Act → Option System
  | .enqueue cfg bytesIn bytesOut connectionDeltas =>
    let delta : Value := ⟨bytesIn, bytesOut, connectionDeltas.headD 0⟩
    some { s with
      reporter := s.reporter.enqueueTraffic env cfg bytesIn bytesOut connectionDeltas
      log := match trafficKey env cfg delta with
        | none => s.log
        | some key => s.log ++ [.enqueued key cfg.RuleID delta] }
  | .flush order =>
    if s.reporter.todo = [] ∧ s.reporter.posting = none ∧ order.Perm s.reporter.keys then
      some { s with reporter := s.reporter.snapshot env order }
    else none
  | .post key =>
    match s.reporter.posting, s.reporter.todo.lookup key with
    | none, some pending => some { s with
        reporter := { s.reporter with
          todo := Assoc.erase s.reporter.todo key
          posting := some (key, pending) }
        requests := s.requests ++ [(key, pending)]
        log := s.log ++ [.posted key pending] }
    | _, _ => none
  | .deliver i => do
    let request ← s.requests[i]?
    if reportKey request ∈ s.applied then some s
    else some { s with
      applied := s.applied ++ [reportKey request]
      credited := fun key rule m => s.credited key rule m +
        if key = request.1 then amount request.2.byRule rule m else 0 }
  | .fail => do
    let _ ← s.reporter.posting
    some { s with reporter := { s.reporter with posting := none } }
  | .succeed => do
    let request ← s.reporter.posting
    if reportKey request ∈ s.applied then
      some { s with
        reporter :=
          { s.reporter.acknowledgeTrafficBatch request.1 request.2.byRule with posting := none }
        log := s.log ++ [.acknowledged request.1 request.2] }
    else none

/-- What the panel has credited of the pending report. -/
def inFlight (s : System) (key : Key) (rule : Int) (m : Measure) : Nat :=
  match s.reporter.pending.lookup key with
  | none => 0
  | some pending => if reportKey (key, pending) ∈ s.applied then amount pending.byRule rule m else 0

end ForwardX.Fxp.Traffic
