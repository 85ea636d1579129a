import ForwardX.Agent.ActionStatus

/- The probe counters of the agent (`tcping_report_gate.go`).

   `countReport` is one pass of the loop of `countReports`: the report is filed under the
   digest of its identity, the counter filed there grows by the report's batch, and the
   report leaves with the epoch and the two totals of the counter. A counter ends when it
   would pass `tcpingCounterMax`, when it is the least recently used of more than
   `tcpingCounterCapacity`, or when it was not used for `tcpingReportStateTTL`; the next
   report under its key starts a counter under a new epoch. The digest is a parameter. -/
namespace ForwardX.Probe

open Agent.Status (trimSpace)

def tcpingReportStateTTL : Int := 30 * 60 * 1000000000
def tcpingCounterCapacity : Nat := 32768
def tcpingCounterMax : Nat := 1000000000

/-- The three lists of reports that are counted. -/
inductive Kind
  | rule
  | tunnel
  | forwardGroup
  deriving DecidableEq, Repr

def Kind.text : Kind → String
  | .rule => "rule"
  | .tunnel => "tunnel"
  | .forwardGroup => "forwardGroup"

/-- The fields of a report that the counters read. A text that is absent is empty. -/
structure Report where
  ruleId : Option Int := none
  tunnelId : Option Int := none
  groupId : Option Int := none
  memberId : Option Int := none
  probeKey : String := ""
  topologyKey : String := ""
  targetIp : String := ""
  targetPort : Option Int := none
  sourcePort : Option Int := none
  method : String := ""
  hopIndex : Option Int := none
  hopCount : Option Int := none
  seriesKey : String := ""
  probeType : String := ""
  isTimeout : Bool := false
  probeCount : Option Int := none
  probeSuccesses : Option Int := none
  deriving DecidableEq, Repr

/-- `tcpingReportText` of a number: the empty text when the field is absent. -/
def intText : Option Int → String
  | none => ""
  | some n => toString n

def tcpingProbeStateKey (kind : Kind) (r : Report) : String :=
  let probeKey := trimSpace r.probeKey
  if probeKey ≠ "" then probeKey
  else String.intercalate ":" [kind.text, intText r.ruleId, intText r.tunnelId, intText r.groupId,
    intText r.memberId, trimSpace r.targetIp, intText r.targetPort, trimSpace r.method,
    intText r.hopIndex, intText r.hopCount, trimSpace r.seriesKey]

/-- The texts whose JSON array is digested. -/
def identity (kind : Kind) (r : Report) : List String :=
  [kind.text, intText r.ruleId, intText r.tunnelId, intText r.groupId, intText r.memberId,
    tcpingProbeStateKey kind r, trimSpace r.topologyKey, trimSpace r.targetIp, intText r.targetPort,
    intText r.sourcePort, trimSpace r.method, intText r.hopIndex, intText r.hopCount,
    trimSpace r.seriesKey, trimSpace r.probeType]

/-- The number of probes of a report: 1 when the field is missing or out of range. -/
def reportCount (r : Report) : Nat :=
  let count := r.probeCount.getD 0
  if count < 1 ∨ 1024 < count then 1 else count.toNat

/-- The successes of a report: all or none when the field is missing, clamped to the count. -/
def reportSuccesses (r : Report) : Nat :=
  let count := reportCount r
  let successes := r.probeSuccesses.getD (if r.isTimeout then 0 else count)
  let successes := if successes < 0 then 0 else successes
  (if successes > count then (count : Int) else successes).toNat

/-- A counter of the gate (`tcpingProbeCounter`). -/
structure Counter where
  key : String
  epoch : String
  count : Nat
  successes : Nat
  seenAt : Int
  deriving DecidableEq, Repr

/-- The fields that `countReports` adds to a report. -/
structure Totals where
  probeCounterEpoch : String
  probeTotalCount : Nat
  probeTotalSuccesses : Nat
  deriving DecidableEq, Repr

/-- A report as it leaves `countReports`; one that is not counted leaves without totals. -/
structure Sample where
  kind : Kind
  report : Report
  totals : Option Totals
  deriving DecidableEq, Repr

section
variable (sha256 : List String → String)

def counterKey (kind : Kind) (r : Report) : String := sha256 (identity kind r)

/-- The counters by `counterOrder`, the least recently used first, the oldest dropped while
there are more than `tcpingCounterCapacity`. -/
def evictOldest (counters : List Counter) : List Counter :=
  counters.drop (counters.length - tcpingCounterCapacity)

/-- The counter that a report adds to: the one under its key, unless that would pass the
maximum, or else a new one, if `rand.Read` gives an epoch. -/
def counterFor (counters : List Counter) (key : String) (count : Nat) (draw : Option String) (now : Int) :
    Option Counter :=
  match (counters.find? (fun c => c.key == key)).filter (fun c => ¬ c.count > tcpingCounterMax - count) with
  | some counter => some counter
  | none => draw.map (fun epoch => { key, epoch, count := 0, successes := 0, seenAt := now })

/-- One pass of the loop of `countReports`. `draw` is what `rand.Read` gives if it is called. -/
def countReport (counters : List Counter) (kind : Kind) (r : Report) (draw : Option String) (now : Int) :
    List Counter × Sample :=
  if trimSpace r.method = "self" then
    -- a synthetic local hop is no network probe
    (counters, { kind, report := r, totals := none })
  else
    let key := counterKey sha256 kind r
    let rest := counters.filter (fun c => c.key != key)
    match counterFor counters key (reportCount r) draw now with
    | none => (rest, { kind, report := r, totals := none })
    | some counter =>
      let counter := { counter with
        count := counter.count + reportCount r
        successes := counter.successes + reportSuccesses r
        seenAt := now }
      (evictOldest (rest ++ [counter]),
        { kind, report := r, totals := some { probeCounterEpoch := counter.epoch,
                                              probeTotalCount := counter.count,
                                              probeTotalSuccesses := counter.successes } })

/-- `countReports` over the reports of one kind, each with the draw it may need. -/
def countReports (counters : List Counter) (kind : Kind) (now : Int) :
    List (Report × Option String) → List Counter × List Sample
  | [] => (counters, [])
  | (r, draw) :: rest =>
    let counted := countReport sha256 counters kind r draw now
    let others := countReports counted.1 kind now rest
    (others.1, counted.2 :: others.2)

/-- The start of `plan`: the counters at the front that were not used for the TTL go. -/
def expireCounters (counters : List Counter) (now : Int) : List Counter :=
  counters.dropWhile (fun c => ¬ now - c.seenAt ≤ tcpingReportStateTTL)

/-! ### What a pass does -/

theorem expireCounters_sublist (counters : List Counter) (now : Int) :
    (expireCounters counters now).Sublist counters := List.dropWhile_sublist _

theorem evictOldest_sublist (counters : List Counter) : (evictOldest counters).Sublist counters := by
  unfold evictOldest
  exact List.drop_sublist _ counters

theorem reportSuccesses_le (r : Report) : reportSuccesses r ≤ reportCount r := by
  unfold reportSuccesses
  dsimp only
  split <;> omega

theorem reportCount_of_measured {r : Report} {n : Nat} (h : r.probeCount = some (n : Int))
    (hpos : 1 ≤ n) (hle : n ≤ 1024) : reportCount r = n := by
  have hrange : ¬ ((n : Int) < 1 ∨ 1024 < (n : Int)) := by omega
  simp only [reportCount, h, Option.getD_some, if_neg hrange, Int.toNat_natCast]

theorem reportSuccesses_of_measured {r : Report} {n m : Nat} (hcount : reportCount r = n)
    (h : r.probeSuccesses = some (m : Int)) (hle : m ≤ n) : reportSuccesses r = m := by
  have hneg : ¬ (m : Int) < 0 := by omega
  have hover : ¬ (m : Int) > (n : Int) := by omega
  simp only [reportSuccesses, hcount, h, Option.getD_some, if_neg hneg, if_neg hover, Int.toNat_natCast]

/-- The counter a report adds to is one that is kept under the report's key, or a new one under
the drawn epoch. -/
theorem counterFor_cases {counters : List Counter} {key : String} {count : Nat} {draw : Option String}
    {now : Int} {c : Counter} (h : counterFor counters key count draw now = some c) :
    c.key = key ∧ (c ∈ counters ∨ draw = some c.epoch ∧ c.count = 0 ∧ c.successes = 0) := by
  unfold counterFor at h
  split at h
  · rename_i kept hkept
    obtain rfl := Option.some.inj h
    obtain ⟨hfind, -⟩ := Option.filter_eq_some_iff.mp hkept
    exact ⟨by simpa using List.find?_some hfind, Or.inl (List.mem_of_find?_eq_some hfind)⟩
  · obtain ⟨epoch, hdraw, rfl⟩ := Option.map_eq_some_iff.mp h
    exact ⟨rfl, Or.inr ⟨hdraw, rfl, rfl⟩⟩

/-- A pass either counts nothing and at most drops counters, or adds the batch of the report to
the counter under its key, which goes to the back. -/
theorem countReport_cases (counters : List Counter) (kind : Kind) (r : Report) (draw : Option String)
    (now : Int) :
    ((countReport sha256 counters kind r draw now).2 = ⟨kind, r, none⟩ ∧
      (countReport sha256 counters kind r draw now).1.Sublist counters) ∨
    ∃ c, c.key = counterKey sha256 kind r ∧
      (c ∈ counters ∨ draw = some c.epoch ∧ c.count = 0 ∧ c.successes = 0) ∧
      (countReport sha256 counters kind r draw now).2 = ⟨kind, r, some
        ⟨c.epoch, c.count + reportCount r, c.successes + reportSuccesses r⟩⟩ ∧
      (countReport sha256 counters kind r draw now).1.Sublist
        (counters.filter (fun c' => c'.key != counterKey sha256 kind r) ++ [{ c with
          count := c.count + reportCount r, successes := c.successes + reportSuccesses r, seenAt := now }]) := by
  unfold countReport
  split
  · exact Or.inl ⟨rfl, List.Sublist.refl _⟩
  · dsimp only
    split
    · exact Or.inl ⟨rfl, List.filter_sublist⟩
    · rename_i c hc
      obtain ⟨hkey, hfrom⟩ := counterFor_cases hc
      refine Or.inr ⟨c, hkey, hfrom, rfl, ?_⟩
      dsimp only
      exact evictOldest_sublist _

end

end ForwardX.Probe
