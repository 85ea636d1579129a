import Mathlib.Logic.Function.Basic
import ForwardX.Lib.Transition
import ForwardX.Agent.ActionStatus

/- How the agent collects and reports traffic (`metrics.go`, `gost_traffic.go`).

   A collection is cut at its file and network operations. On the disk are the baseline of
   each port (`traffic_<port>.prev`) and the pending report; a write or a removal that fails
   may have taken effect. In the memory is the cache of the baselines and where the
   collection stands; a crash loses both. The panel applies a report when it first sees it.

   Correspondence: a `Row` is an entry of `stats` with the entry of `Baselines` that was
   appended with it. The rule, the byte source and the epoch of a port are those of `Env`, and
   its counters never decrease; the report identity is one, and `port_<port>.rule` is there.
   `State.first`, `sampled`, `saved` and `ids` record what happened, the code has no such
   fields. -/
namespace ForwardX.Agent.Traffic

open Transition Status

/-! ### Baselines -/

inductive Dir
  | inbound
  | outbound
  deriving DecidableEq, Repr

/-- `trafficPrevState`. -/
structure Baseline where
  ruleID : Int
  bytesIn : Nat
  bytesOut : Nat
  conns : Nat
  connSource : String
  byteSource : String
  byteEpoch : String
  deriving DecidableEq, Repr

/-- The zero `trafficPrevState`, of a port that has no baseline. -/
def Baseline.zero : Baseline := ⟨0, 0, 0, 0, "", "", ""⟩

def Baseline.bytes (b : Baseline) : Dir → Nat
  | .inbound => b.bytesIn
  | .outbound => b.bytesOut

def validTrafficConnectionSource (source : String) : Bool :=
  ["", "conntrack-snapshot-v1", "process-nft-v1", "process-iptables-v1", "gost-native-v1",
    "guard-native-v1"].contains source

def normalizeTrafficConnectionSource (source : String) : String :=
  if validTrafficConnectionSource source && source ≠ "" then source else "conntrack-snapshot-v1"

def isNativeTrafficSource (source : String) : Bool :=
  source = "gost-native-v1" || source = "guard-native-v1"

/-- A hex digit, as `hex.DecodeString` takes it. -/
def isHexDigit (c : Char) : Bool :=
  c.isDigit || ('a' ≤ c && c ≤ 'f') || ('A' ≤ c && c ≤ 'F')

def validTrafficByteIdentity (source epoch : String) : Bool :=
  if ["", "native-nft-v1", "iptables-v1", "process-nft-v1", "process-iptables-v1"].contains source then epoch = ""
  else isNativeTrafficSource source && epoch.length = 64 && epoch.toList.all isHexDigit

def delta (cur prev : Nat) : Nat := if cur ≥ prev then cur - prev else cur

/-- How a file operation ends. -/
inductive Outcome
  | ok
  | failed
  /-- It returns an error but has taken effect. -/
  | failedButDone
  deriving DecidableEq, Repr

variable {Port : Type}

/-- The baselines on the disk and those in the cache. -/
structure Store (Port : Type) where
  file : Port → Option Baseline
  cache : Port → Option Baseline

section
variable [DecidableEq Port]

def Store.readPrevState (st : Store Port) (port : Port) : Store Port × Baseline :=
  match st.cache port with
  | some b => (st, b)
  | none =>
    let b := (st.file port).getD .zero
    ({ st with cache := Function.update st.cache port (some b) }, b)

/-- `writePrevState`, and whether it returns nil. -/
def Store.writePrevState (st : Store Port) (port : Port) (next : Baseline) (o : Outcome) : Store Port × Bool :=
  let next := { next with connSource := normalizeTrafficConnectionSource next.connSource }
  if st.cache port = some next then (st, true)
  else
    match o with
    | .ok => ({ file := Function.update st.file port (some next)
                cache := Function.update st.cache port (some next) }, true)
    | .failed => (st, false)
    | .failedButDone => ({ st with file := Function.update st.file port (some next) }, false)

end

/-! ### Reports -/

/-- What is sampled of a port: its counters, and its connections as `prepareConnectionCounterBaseline`
and the native snapshot prepare them. -/
structure Sample where
  bytesIn : Nat
  bytesOut : Nat
  connectionTotal : Nat
  connectionSource : String
  prevConns : Nat
  countFreshInitialConnections : Bool
  deriving DecidableEq, Repr

def Sample.bytes (x : Sample) : Dir → Nat
  | .inbound => x.bytesIn
  | .outbound => x.bytesOut

structure Row (Port : Type) where
  port : Port
  bytesIn : Nat
  bytesOut : Nat
  connections : Nat
  baseline : Baseline
  deriving DecidableEq, Repr

def Row.bytes (row : Row Port) : Dir → Nat
  | .inbound => row.bytesIn
  | .outbound => row.bytesOut

/-- `pendingTrafficReport`. -/
structure Report (Port : Type) where
  reportId : String
  rows : List (Row Port)
  hostTraffic : Option (Nat × Nat)
  deriving DecidableEq, Repr

/-- What does not change of the ports. -/
structure Env (Port : Type) where
  ruleOf : Port → Int
  byteSource : Port → String
  byteEpoch : Port → String
  validPort : Port → Bool

def trafficByteDeltas (previous : Baseline) (ruleID : Int) (bytesIn bytesOut : Nat) (source epoch : String) :
    Nat × Nat × Bool :=
  let initial := previous.ruleID ≤ 0 ∨ previous.ruleID ≠ ruleID
  let changed := previous.byteSource ≠ source ∧ (previous.byteSource ≠ "" ∨ isNativeTrafficSource source = true)
  let reset := isNativeTrafficSource source = true
    ∧ (previous.byteEpoch ≠ epoch ∨ bytesIn < previous.bytesIn ∨ bytesOut < previous.bytesOut)
  if initial ∨ changed ∨ reset then (0, 0, true)
  else (delta bytesIn previous.bytesIn, delta bytesOut previous.bytesOut, false)

/-- What `collectTraffic` computes of a port. -/
def Env.rowOf (env : Env Port) (port : Port) (previous : Baseline) (x : Sample) : Row Port :=
  let deltas := trafficByteDeltas previous (env.ruleOf port) x.bytesIn x.bytesOut (env.byteSource port)
    (env.byteEpoch port)
  let initialBaseline := previous.ruleID ≤ 0 ∨ previous.ruleID ≠ env.ruleOf port
  { port
    bytesIn := deltas.1
    bytesOut := deltas.2.1
    connections := if initialBaseline ∧ x.countFreshInitialConnections = false then 0
      else delta x.connectionTotal x.prevConns
    baseline :=
      { ruleID := env.ruleOf port, bytesIn := x.bytesIn, bytesOut := x.bytesOut, conns := x.connectionTotal
        connSource := x.connectionSource, byteSource := env.byteSource port, byteEpoch := env.byteEpoch port } }

def Row.isZero (row : Row Port) : Bool := row.bytesIn = 0 && row.bytesOut = 0 && row.connections = 0

/-- `validatePendingTrafficReport`, as far as what `collectTraffic` builds can fail it. -/
def Env.valid [DecidableEq Port] (env : Env Port) (r : Report Port) : Bool :=
  r.reportId ≠ "" && trimSpace r.reportId = r.reportId && r.reportId.length ≤ 128
    && (r.rows ≠ [] || r.hostTraffic.isSome)
    && (r.rows.map Row.port).Nodup
    && r.rows.all (fun row => env.validPort row.port && validTrafficConnectionSource row.baseline.connSource
      && validTrafficByteIdentity row.baseline.byteSource row.baseline.byteEpoch && 0 < row.baseline.ruleID)

/-! ### Collections -/

inductive Phase (Port : Type)
  | idle
  /-- The ports of the collection that were sampled, and the rows so far. -/
  | sampling (visited : List Port) (rows : List (Row Port))
  | saving (r : Report Port)
  | posting (r : Report Port)
  | waiting (r : Report Port)
  /-- `completePendingTrafficReport`: the baselines that are not committed yet, then the removal. -/
  | completing (r : Report Port) (rest : List (Row Port))

structure State (Port : Type) where
  store : Store Port
  pending : Option (Report Port)
  phase : Phase Port
  posted : List (Report Port)
  /-- What the panel applied, in this order. -/
  applied : List (Report Port)
  /-- The largest counters that were sampled. -/
  sampled : Port → Dir → Nat
  /-- The first baseline that was committed, or read back after a restart. -/
  first : Port → Option Baseline
  /-- The reports whose saving took effect. -/
  saved : List (Report Port)
  ids : List String

def State.initial : State Port :=
  { store := ⟨fun _ => none, fun _ => none⟩, pending := none, phase := .idle, posted := [], applied := []
    sampled := fun _ _ => 0, first := fun _ => none, saved := [], ids := [] }

inductive Act (Port : Type)
  /-- A collection starts: it loads the pending report. -/
  | collect
  | sample (port : Port) (x : Sample) (o : Outcome)
  /-- The sampling ends; `due` and `hostDue` say whether a report of the rules and of the host is due. -/
  | build (due hostDue : Bool) (hostTraffic : Option (Nat × Nat)) (reportId : String)
  | save (o : Outcome)
  | post
  /-- The post returns. -/
  | answer (ok : Bool)
  | commit (o : Outcome)
  | remove (o : Outcome)
  /-- The panel processes a report that was posted. -/
  | deliver (r : Report Port)
  | crash

section
variable [DecidableEq Port] (env : Env Port)

/-- Keep the first baseline of the port's rule. -/
def noteFirst (first : Port → Option Baseline) (port : Port) (b : Baseline) : Port → Option Baseline :=
  if first port = none ∧ b.ruleID = env.ruleOf port then Function.update first port (some b) else first

def State.appliedIds (s : State Port) : List String := s.applied.map Report.reportId

/-- One port of the sampling loop. -/
def State.sample (s : State Port) (visited : List Port) (rows : List (Row Port)) (port : Port) (x : Sample)
    (o : Outcome) : State Port :=
  let read := s.store.readPrevState port
  let row := env.rowOf port read.2 x
  let first := noteFirst env s.first port read.2
  let sampled := Function.update s.sampled port x.bytes
  if row.isZero then
    let written := read.1.writePrevState port row.baseline o
    { s with
      store := written.1
      first := if written.2 then noteFirst env first port row.baseline else first
      sampled
      phase := .sampling (port :: visited) rows }
  else
    { s with store := read.1, first, sampled, phase := .sampling (port :: visited) (rows ++ [row]) }

def step (s : State Port) : Act Port → Option (State Port)
  | .collect =>
    match s.phase with
    | .idle =>
      match s.pending with
      | some r => some { s with phase := .posting r }
      | none => some { s with phase := .sampling [] [] }
    | _ => none
  | .sample port x o =>
    match s.phase with
    | .sampling visited rows =>
      if port ∉ visited ∧ 0 < env.ruleOf port ∧ s.sampled port .inbound ≤ x.bytesIn
        ∧ s.sampled port .outbound ≤ x.bytesOut then some (s.sample env visited rows port x o) else none
    | _ => none
  | .build due hostDue hostTraffic reportId =>
    match s.phase with
    | .sampling _ rows =>
      let reportRuleTraffic := rows ≠ [] ∧ due = true
      let hostTraffic := if reportRuleTraffic ∨ hostDue = true then hostTraffic else none
      if reportRuleTraffic ∨ hostTraffic.isSome then
        if reportId ∈ s.ids then none
        else some { s with phase := .saving { reportId, rows, hostTraffic }, ids := reportId :: s.ids }
      else some { s with phase := .idle }
    | _ => none
  | .save o =>
    match s.phase with
    | .saving r =>
      if env.valid r = false ∨ o = .failed then some { s with phase := .idle }
      else some { s with
        pending := some r
        saved := s.saved ++ [r]
        phase := if o = .ok then .posting r else .idle }
    | _ => none
  | .post =>
    match s.phase with
    | .posting r => some { s with posted := s.posted ++ [r], phase := .waiting r }
    | _ => none
  | .answer ok =>
    match s.phase with
    | .waiting r =>
      if ok = false then some { s with phase := .idle }
      else if r.reportId ∈ s.appliedIds then some { s with phase := .completing r r.rows } else none
    | _ => none
  | .commit o =>
    match s.phase with
    | .completing r (row :: rest) =>
      let written := s.store.writePrevState row.port row.baseline o
      some { s with
        store := written.1
        first := if written.2 then noteFirst env s.first row.port row.baseline else s.first
        phase := if written.2 then .completing r rest else .idle }
    | _ => none
  | .remove o =>
    match s.phase with
    | .completing _ [] => some { s with pending := if o = .failed then s.pending else none, phase := .idle }
    | _ => none
  | .deliver r =>
    if r ∈ s.posted then
      some (if r.reportId ∈ s.appliedIds then s else { s with applied := s.applied ++ [r] })
    else none
  | .crash => some { s with store := { s.store with cache := fun _ => none }, phase := .idle }

abbrev steps : Steps (State Port) (Act Port) := Steps.ofFn (step env)

end

end ForwardX.Agent.Traffic
