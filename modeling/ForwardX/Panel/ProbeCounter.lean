import Mathlib.Data.List.Dedup
import ForwardX.Lib.Assoc
import ForwardX.Agent.TcpingReportGate

/- The probe counters of the panel: the snapshot of a report and the statistics over the
   stored snapshots (`probeCounterRepository.ts`), and the gate in front of the table
   (`agentProbeCounterReportGate.ts`).

   A snapshot has the two totals of an epoch and the batch that led to them. The gate lets
   through what can matter, the table keeps one row of each total of an epoch with the time
   it was first stored, and `getProbeCounterStatistics` recovers from eight aggregates over
   the rows of an epoch how many probes fall into a window and how many of them succeeded.
   SHA-256 and `toLowerCase` are parameters. -/
namespace ForwardX.Probe

/-! ### Snapshots -/

/-- `/^[a-zA-Z0-9_-]{1,64}$/`. -/
def epochShape (epoch : String) : Bool :=
  1 ≤ epoch.length && epoch.length ≤ 64 && epoch.toList.all (fun c => c.isAlphanum || c == '_' || c == '-')

def hasAgentProbeCounter (t : Totals) : Bool :=
  epochShape t.probeCounterEpoch && 1 ≤ t.probeTotalCount && t.probeTotalCount ≤ 1000000000
    && t.probeTotalSuccesses ≤ t.probeTotalCount

/-- The number of probes and of successes of a report. -/
def normalizeAgentProbeCounts (r : Report) (legacyZeroAsSuccess : Bool) : Nat × Nat :=
  let rawCount := r.probeCount.getD 0
  let probeCount : Nat := if 1 ≤ rawCount ∧ rawCount ≤ 1024 then rawCount.toNat else 1
  let probeSuccesses : Int := r.probeSuccesses.getD (if r.isTimeout then 0 else probeCount)
  let probeSuccesses := if probeSuccesses < 0 then 0 else probeSuccesses
  let probeSuccesses := if probeSuccesses > probeCount then (probeCount : Int) else probeSuccesses
  if probeSuccesses = 0 ∧ ¬ r.isTimeout ∧ (r.probeSuccesses.isNone ∨ legacyZeroAsSuccess) then
    (probeCount, probeCount)
  else (probeCount, probeSuccesses.toNat)

/-- What the route of the reports makes of one before anything else reads it. -/
def ingress (r : Report) : Report :=
  let counts := normalizeAgentProbeCounts r false
  { r with
    probeCount := some counts.1
    probeSuccesses := some counts.2
    isTimeout := counts.2 == 0 }

/-- The values whose JSON array is digested into the key of a probe. -/
structure PanelIdentity where
  kind : Kind
  refId : Int
  hostId : Nat
  topologyKey : String
  probeKey : String
  targetIp : String
  targetPort : Int
  sourcePort : Int
  method : String
  hopIndex : Int
  hopCount : Int
  seriesKey : String
  memberId : Int
  probeType : String
  deriving DecidableEq, Repr

/-- The functions that are not the panel's own. -/
structure Env where
  sha256 : List String → String
  probeKey : PanelIdentity → String
  toLowerCase : String → String

structure Snapshot where
  kind : Kind
  refId : Int
  hostId : Nat
  probeKey : String
  epoch : String
  totalCount : Nat
  totalSuccesses : Nat
  batchCount : Nat
  batchSuccesses : Nat
  deriving DecidableEq, Repr

variable (env : Env)

def panelIdentity (kind : Kind) (refId : Int) (hostId : Nat) (r : Report) : PanelIdentity :=
  { kind, refId, hostId
    topologyKey := r.topologyKey
    probeKey := r.probeKey
    targetIp := env.toLowerCase r.targetIp
    targetPort := r.targetPort.getD 0
    sourcePort := r.sourcePort.getD 0
    method := r.method
    hopIndex := r.hopIndex.getD (-1)
    hopCount := r.hopCount.getD 0
    seriesKey := r.seriesKey
    memberId := r.memberId.getD 0
    probeType := r.probeType }

def probeCounterSnapshot (kind : Kind) (refId : Int) (hostId : Nat) (r : Report) (totals : Option Totals) :
    Option Snapshot :=
  match totals with
  | none => none
  | some t =>
    if hasAgentProbeCounter t = false ∨ r.method = "self" then none
    else
      let counts := normalizeAgentProbeCounts r false
      if t.probeTotalCount < counts.1 ∨ t.probeTotalSuccesses < counts.2
        ∨ (t.probeTotalCount : Int) - t.probeTotalSuccesses < (counts.1 : Int) - counts.2 then none
      else some {
        kind, refId, hostId
        probeKey := env.probeKey (panelIdentity env kind refId hostId r)
        epoch := t.probeCounterEpoch
        totalCount := t.probeTotalCount
        totalSuccesses := t.probeTotalSuccesses
        batchCount := counts.1
        batchSuccesses := counts.2 }

def refOf (kind : Kind) (r : Report) : Int :=
  match kind with
  | .rule => r.ruleId.getD 0
  | .tunnel => r.tunnelId.getD 0
  | .forwardGroup => r.groupId.getD 0

/-- `collectCounter` for a report of the host, as it comes out of `ingress`. -/
def collectCounter (hostId : Nat) (x : Sample) : Option Snapshot :=
  if refOf x.kind x.report ≤ 0 then none
  else probeCounterSnapshot env x.kind (refOf x.kind x.report) hostId (ingress x.report) x.totals

/-! ### The gate -/

/-- What the rows of one stream share: `${hostId}:${kind}:${refId}:${probeKey}:${epoch}`. -/
structure Stream where
  hostId : Nat
  kind : Kind
  refId : Int
  probeKey : String
  epoch : String
  deriving DecidableEq, Repr

def Snapshot.stream (x : Snapshot) : Stream :=
  { hostId := x.hostId, kind := x.kind, refId := x.refId, probeKey := x.probeKey, epoch := x.epoch }

/-- The state that the gate saves of a stream; the signature is `${batchCount}/${batchSuccesses}`. -/
structure Saved where
  count : Nat
  signature : Nat × Nat
  savedAt : Int
  seenAt : Int
  deriving DecidableEq, Repr

structure PanelGate where
  states : List (Stream × Saved) := []
  lastPruneAt : Int := 0
  deriving DecidableEq, Repr

def gateCapacity : Nat := 32768
def gateTtlMs : Int := 30 * 60000

/-- `Map.set`: the place of a key that is there stays. -/
def mapSet (l : List (Stream × Saved)) (k : Stream) (x : Saved) : List (Stream × Saved) :=
  if (l.lookup k).isSome then l.map (fun e => if e.1 = k then (k, x) else e) else l ++ [(k, x)]

/-- `setBoundedMapValue`: the key goes to the back, and the oldest go while the map is full. -/
def setBoundedMapValue (l : List (Stream × Saved)) (k : Stream) (x : Saved) (maxSize : Nat) :
    List (Stream × Saved) :=
  let rest := Assoc.erase l k
  rest.drop (rest.length + 1 - max 1 maxSize) ++ [(k, x)]

/-- What `plan` has selected and what its commit will save. -/
structure Plan where
  states : List (Stream × Saved)
  updates : List (Stream × Saved) := []
  rows : List Snapshot := []
  deriving DecidableEq, Repr

/-- The filter of `plan` on one row. -/
def planRow (force : Bool) (now : Int) (p : Plan) (row : Snapshot) : Plan :=
  let key := row.stream
  let previous := p.states.lookup key
  let states := p.states.map (fun e => if e.1 = key then (e.1, { e.2 with seenAt := now }) else e)
  let signature := (row.batchCount, row.batchSuccesses)
  let refused := previous.any (fun previous => row.totalCount ≤ previous.count
    || (!force && signature == previous.signature && now - previous.savedAt < 5 * 60000))
  if refused then { p with states }
  else { states
         updates := mapSet p.updates key { count := row.totalCount, signature, savedAt := now, seenAt := now }
         rows := p.rows ++ [row] }

/-- `AgentProbeCounterReportGate.plan`: what is left of the gate, and the plan. -/
def PanelGate.plan (g : PanelGate) (rows : List Snapshot) (force : Bool) (now : Int) : PanelGate × Plan :=
  let g := if now - g.lastPruneAt ≥ 60000 then
      { states := g.states.filter (fun e => ¬ now - e.2.seenAt > gateTtlMs), lastPruneAt := now }
    else g
  let p := rows.foldl (planRow force now) { states := g.states }
  ({ g with states := p.states }, p)

/-- The commit of a plan. -/
def PanelGate.commit (g : PanelGate) (updates : List (Stream × Saved)) : PanelGate :=
  { g with states := updates.foldl (fun states e =>
      if (states.lookup e.1).all (fun previous => e.2.count > previous.count) then
        setBoundedMapValue states e.1 e.2 gateCapacity
      else states) g.states }

/-! ### The table -/

/-- A row of `probe_counter_snapshots`. -/
structure Row where
  snapshot : Snapshot
  recordedAt : Int
  deriving DecidableEq, Repr

def Snapshot.unique (x : Snapshot) : Stream × Nat := (x.stream, x.totalCount)

/-- `INSERT … ON CONFLICT (…) DO NOTHING` of one row. -/
def insertRow (recordedAt : Int) (rows : List Row) (x : Snapshot) : List Row :=
  if rows.any (fun r => r.snapshot.unique = x.unique) then rows else rows ++ [⟨x, recordedAt⟩]

/-- One statement of `insertProbeCounterSnapshots`. -/
def insertBatch (recordedAt : Int) (rows : List Row) (batch : List Snapshot) : List Row :=
  batch.foldl (insertRow recordedAt) rows

/-! ### Statistics -/

def latencyHistoryHours : Int := 30 * 24

/-- The aggregates over the rows of one stream; `NULL` is `none`. -/
structure Aggregates where
  baseCount : Option Int
  baseSuccesses : Option Int
  initialCount : Option Int
  initialSuccesses : Option Int
  endCount : Option Int
  endSuccesses : Option Int
  firstAt : Option Int
  lastAt : Option Int
  deriving DecidableEq, Repr

def before (start : Int) (rows : List Row) : List Row := rows.filter (fun r => r.recordedAt < start)

def inside (start : Int) (rows : List Row) : List Row := rows.filter (fun r => r.recordedAt ≥ start)

/-- The select list of the query, over the rows of one stream. -/
def aggregate (start : Int) (rows : List Row) : Aggregates where
  baseCount := ((before start rows).map (fun r => (r.snapshot.totalCount : Int))).max?
  baseSuccesses := ((before start rows).map (fun r => (r.snapshot.totalSuccesses : Int))).max?
  initialCount := ((inside start rows).map (fun r => (r.snapshot.totalCount : Int) - r.snapshot.batchCount)).min?
  initialSuccesses :=
    ((inside start rows).map (fun r => (r.snapshot.totalSuccesses : Int) - r.snapshot.batchSuccesses)).min?
  endCount := ((inside start rows).map (fun r => (r.snapshot.totalCount : Int))).max?
  endSuccesses := ((inside start rows).map (fun r => (r.snapshot.totalSuccesses : Int))).max?
  firstAt := ((inside start rows).map Row.recordedAt).min?
  lastAt := ((inside start rows).map Row.recordedAt).max?

/-- How far the count of a stream moved in the window, before it is bounded. -/
def Aggregates.countDelta (g : Aggregates) : Int :=
  g.endCount.getD 0 - (g.baseCount <|> g.initialCount).getD 0

def Aggregates.successDelta (g : Aggregates) : Int :=
  g.endSuccesses.getD 0 - (g.baseSuccesses <|> g.initialSuccesses).getD 0

def Aggregates.count (g : Aggregates) : Int := if g.endCount = none then 0 else max 0 g.countDelta

def Aggregates.successes (g : Aggregates) : Int :=
  if g.endCount = none then 0 else max 0 (min g.count g.successDelta)

structure ProbeStatistics where
  total : Int := 0
  successes : Int := 0
  available : Bool := false
  observedSince : Option Int := none
  latestAt : Option Int := none
  deriving DecidableEq, Repr

/-- One pass of the loop over the rows of the query. -/
def ProbeStatistics.addStream (acc : ProbeStatistics) (g : Aggregates) : ProbeStatistics :=
  if g.endCount = none then acc
  else
    { total := acc.total + g.count
      successes := acc.successes + g.successes
      available := true
      observedSince := if acc.observedSince.all (fun first => g.firstAt.getD 0 < first) then g.firstAt
        else acc.observedSince
      latestAt := if acc.latestAt.all (fun last => g.lastAt.getD 0 > last) then g.lastAt else acc.latestAt }

/-- What a query asks for; times in milliseconds. -/
structure Query where
  kind : Kind
  refIds : List Int
  sinceMs : Int
  untilMs : Int
  nowMs : Int

def Query.ids (q : Query) : List Int := (q.refIds.filter (fun id => id > 0)).dedup

def Query.start (q : Query) : Int := q.sinceMs / 1000

/-- The `WHERE` clause: within retention and up to the end of the window. -/
def Query.selects (q : Query) (r : Row) : Bool :=
  r.snapshot.kind = q.kind && q.ids.contains r.snapshot.refId
    && r.recordedAt ≥ q.nowMs / 1000 - latencyHistoryHours * 3600
    && r.recordedAt < min (q.untilMs / 1000) (q.nowMs / 1000 + 1)

def Query.rows (q : Query) (rows : List Row) : List Row := rows.filter q.selects

def Query.streams (q : Query) (rows : List Row) : List Stream :=
  ((q.rows rows).map (fun r => r.snapshot.stream)).dedup

def Query.rowsOf (q : Query) (rows : List Row) (g : Stream) : List Row :=
  (q.rows rows).filter (fun r => r.snapshot.stream = g)

def getProbeCounterStatistics (rows : List Row) (q : Query) : ProbeStatistics :=
  if q.ids = [] then {}
  else ((q.streams rows).map (fun g => aggregate q.start (q.rowsOf rows g))).foldl ProbeStatistics.addStream {}

end ForwardX.Probe
