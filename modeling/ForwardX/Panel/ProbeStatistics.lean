import Mathlib.Data.Nat.Cast.Order.Basic
import Mathlib.Algebra.BigOperators.Ring.Finset
import Mathlib.Algebra.Order.Group.Nat
import Mathlib.Algebra.Order.Ring.Int
import ForwardX.Panel.ProbeDelivery

/- What `getProbeCounterStatistics` says about the probes (`probeCounterRepository.ts`).

   Of a stream with rows in the window, `windowStart` is the position after which the window
   counts and `windowEnd` the last position stored in it. The successes are a monotone
   function of the position, so the eight aggregates describe these two positions
   (`aggregate_deltas`), and the stream adds the probes between them and the successes among
   them (`count_covered`, `successes_covered`). A position is a position of the epoch's own
   history, so different epochs never count a probe twice; two streams of one epoch can
   (`total_exceeds_made`). -/
namespace ForwardX.Probe

open Transition Prefixes

/-- The position after which the window counts: the largest total stored before it, or else the
smallest start of a batch stored in it. -/
def windowStart (start : Int) (rows : List Row) : Option Nat :=
  ((before start rows).map (fun r => r.snapshot.totalCount)).max? <|>
    ((inside start rows).map (fun r => r.snapshot.totalCount - r.snapshot.batchCount)).min?

def windowEnd (start : Int) (rows : List Row) : Option Nat :=
  ((inside start rows).map (fun r => r.snapshot.totalCount)).max?

def covered (probes : List Bool) (start : Int) (rows : List Row) : List Bool :=
  ((windowEnd start rows).bind fun z => (windowStart start rows).map fun a => slice probes a z).getD []

def Describe (probes : List Bool) (rows : List Row) : Prop := ∀ r ∈ rows,
  OnPath probes r.snapshot.totalCount r.snapshot.totalSuccesses r.snapshot.batchCount r.snapshot.batchSuccesses

/-! ### The aggregates of a stream -/

section
variable {probes : List Bool} {rows : List Row} {start : Int}

theorem Describe.subset (h : Describe probes rows) {rows' : List Row} (hsub : rows' ⊆ rows) :
    Describe probes rows' := fun r hr => h r (hsub hr)

theorem natCast_hits_le (probes : List Bool) {m n : Nat} (h : m ≤ n) :
    (hits probes m : Int) ≤ hits probes n :=
  Int.ofNat_le.mpr (countUpTo_mono id probes h)

theorem max_totalCount (rows : List Row) :
    (rows.map (fun r => (r.snapshot.totalCount : Int))).max?
      = ((rows.map (fun r => r.snapshot.totalCount)).max?).map Nat.cast := by
  rw [← max?_map Nat.mono_cast, List.map_map]
  rfl

theorem max_totalSuccesses (h : Describe probes rows) :
    (rows.map (fun r => (r.snapshot.totalSuccesses : Int))).max?
      = ((rows.map (fun r => r.snapshot.totalCount)).max?).map (fun n => (hits probes n : Int)) := by
  rw [← max?_map (fun _ _ h => natCast_hits_le probes h), List.map_map]
  exact congrArg List.max? (List.map_congr_left fun r hr => congrArg Nat.cast (h r hr).total)

theorem min_startCount (h : Describe probes rows) :
    (rows.map (fun r => (r.snapshot.totalCount : Int) - r.snapshot.batchCount)).min?
      = ((rows.map (fun r => r.snapshot.totalCount - r.snapshot.batchCount)).min?).map Nat.cast := by
  rw [← min?_map Nat.mono_cast, List.map_map]
  exact congrArg List.min? (List.map_congr_left fun r hr => (Int.ofNat_sub (h r hr).batch).symm)

theorem min_startSuccesses (h : Describe probes rows) :
    (rows.map (fun r => (r.snapshot.totalSuccesses : Int) - r.snapshot.batchSuccesses)).min?
      = ((rows.map (fun r => r.snapshot.totalCount - r.snapshot.batchCount)).min?).map
          (fun n => (hits probes n : Int)) := by
  rw [← min?_map (fun _ _ h => natCast_hits_le probes h), List.map_map]
  refine congrArg List.min? (List.map_congr_left fun r hr => ?_)
  have := (h r hr).start
  simp only [Function.comp_apply]
  omega

theorem before_subset (start : Int) (rows : List Row) : before start rows ⊆ rows :=
  List.filter_sublist.subset

theorem inside_subset (start : Int) (rows : List Row) : inside start rows ⊆ rows :=
  List.filter_sublist.subset

theorem windowStart_of_end {z : Nat} (h : windowEnd start rows = some z) :
    ∃ a, windowStart start rows = some a := by
  have hne : inside start rows ≠ [] := by
    intro hnil
    rw [windowEnd, hnil] at h
    cases h
  have hmin : ((inside start rows).map (fun r => r.snapshot.totalCount - r.snapshot.batchCount)).min? ≠ none := by
    rw [ne_eq, List.min?_eq_none_iff, List.map_eq_nil_iff]
    exact hne
  obtain ⟨b, hb⟩ := Option.ne_none_iff_exists'.mp hmin
  rw [windowStart, hb]
  cases ((before start rows).map (fun r => r.snapshot.totalCount)).max? with
  | none => exact ⟨b, rfl⟩
  | some a => exact ⟨a, rfl⟩

theorem windowEnd_le (h : Describe probes rows) {z : Nat} (hz : windowEnd start rows = some z) :
    z ≤ probes.length := by
  obtain ⟨r, hr, rfl⟩ := List.mem_map.mp (List.max?_mem hz)
  exact (h r (inside_subset start rows hr)).within

/-- Base and initial count are the start of the window, base and initial successes are those up
to it, and the same holds of its end. -/
theorem aggregate_eq (h : Describe probes rows) (start : Int) :
    (aggregate start rows).endCount = (windowEnd start rows).map Nat.cast ∧
    (aggregate start rows).endSuccesses = (windowEnd start rows).map (fun n => (hits probes n : Int)) ∧
    ((aggregate start rows).baseCount <|> (aggregate start rows).initialCount)
      = (windowStart start rows).map Nat.cast ∧
    ((aggregate start rows).baseSuccesses <|> (aggregate start rows).initialSuccesses)
      = (windowStart start rows).map (fun n => (hits probes n : Int)) := by
  have hbefore := h.subset (before_subset start rows)
  have hinside := h.subset (inside_subset start rows)
  refine ⟨max_totalCount _, max_totalSuccesses hinside, ?_, ?_⟩
  · simp only [aggregate, windowStart, max_totalCount, min_startCount hinside]
    cases ((before start rows).map (fun r => r.snapshot.totalCount)).max? <;> rfl
  · simp only [aggregate, windowStart, max_totalSuccesses hbefore, min_startSuccesses hinside]
    cases ((before start rows).map (fun r => r.snapshot.totalCount)).max? <;> rfl

theorem aggregate_deltas (h : Describe probes rows) {a z : Nat} (ha : windowStart start rows = some a)
    (hz : windowEnd start rows = some z) :
    (aggregate start rows).countDelta = (z : Int) - a ∧
    (aggregate start rows).successDelta = (hits probes z : Int) - hits probes a := by
  obtain ⟨hcount, hsuccesses, hbaseCount, hbaseSuccesses⟩ := aggregate_eq h start
  constructor
  · rw [Aggregates.countDelta, hcount, hbaseCount, ha, hz]
    rfl
  · rw [Aggregates.successDelta, hsuccesses, hbaseSuccesses, ha, hz]
    rfl

theorem aggregate_endCount_none (h : Describe probes rows) :
    (aggregate start rows).endCount = none ↔ windowEnd start rows = none := by
  rw [(aggregate_eq h _).1, Option.map_eq_none_iff]

theorem count_covered (h : Describe probes rows) :
    (aggregate start rows).count = ((covered probes start rows).length : Int) := by
  unfold Aggregates.count
  cases hz : windowEnd start rows with
  | none => rw [if_pos ((aggregate_endCount_none h).mpr hz), covered, hz]; rfl
  | some z =>
    obtain ⟨a, ha⟩ := windowStart_of_end hz
    have hend : (aggregate start rows).endCount ≠ none := by
      rw [ne_eq, aggregate_endCount_none h, hz]
      exact Option.some_ne_none z
    have hlength : (covered probes start rows).length = z - a := by
      rw [covered, hz, ha]
      exact length_slice (windowEnd_le h hz)
    rw [if_neg hend, (aggregate_deltas h ha hz).1, hlength]
    omega

/-- The successes move by those between the two positions, and not at all if there are none. -/
theorem successDelta_covered (h : Describe probes rows) (hend : (aggregate start rows).endCount ≠ none) :
    max 0 (aggregate start rows).successDelta = ((covered probes start rows).countP id : Int) := by
  obtain ⟨z, hz⟩ := Option.ne_none_iff_exists'.mp (fun hz => hend ((aggregate_endCount_none h).mpr hz))
  obtain ⟨a, ha⟩ := windowStart_of_end hz
  have hcovered : covered probes start rows = slice probes a z := by
    rw [covered, hz, ha]
    rfl
  rw [(aggregate_deltas h ha hz).2, hcovered]
  rcases Nat.le_total a z with haz | hza
  · have := countP_slice id probes haz
    have hmono := countUpTo_mono id probes haz
    simp only [hits]
    omega
  · have hmono := countUpTo_mono id probes hza
    rw [slice_eq_nil hza, List.countP_nil]
    simp only [hits]
    omega

theorem successes_covered (h : Describe probes rows) :
    (aggregate start rows).successes = ((covered probes start rows).countP id : Int) := by
  unfold Aggregates.successes
  split
  · rename_i hend
    rw [covered, (aggregate_endCount_none h).mp hend]
    rfl
  · rename_i hend
    have hdelta := successDelta_covered h hend
    have hle : (covered probes start rows).countP id ≤ (covered probes start rows).length :=
      List.countP_le_length
    rw [count_covered h]
    omega

end

/-! ### The statistics -/

theorem addStream_sums (acc : ProbeStatistics) (g : Aggregates) :
    (acc.addStream g).total = acc.total + g.count
      ∧ (acc.addStream g).successes = acc.successes + g.successes := by
  unfold ProbeStatistics.addStream Aggregates.count Aggregates.successes
  split <;> simp

theorem foldl_addStream_sums (gs : List Aggregates) (acc : ProbeStatistics) :
    (gs.foldl ProbeStatistics.addStream acc).total = acc.total + (gs.map Aggregates.count).sum
      ∧ (gs.foldl ProbeStatistics.addStream acc).successes
        = acc.successes + (gs.map Aggregates.successes).sum := by
  induction gs generalizing acc with
  | nil => simp
  | cons g gs ih =>
    obtain ⟨htotal, hsuccesses⟩ := ih (acc.addStream g)
    rw [List.foldl_cons, htotal, hsuccesses, (addStream_sums acc g).1, (addStream_sums acc g).2]
    simp only [List.map_cons, List.sum_cons]
    omega

theorem streams_of_no_ids {q : Query} (h : q.ids = []) (rows : List Row) : q.streams rows = [] := by
  have hnone : q.rows rows = [] := by
    apply List.filter_eq_nil_iff.mpr
    intro r hr
    simp [Query.selects, h]
  rw [Query.streams, hnone]
  rfl

theorem statistics_sums (rows : List Row) (q : Query) :
    (getProbeCounterStatistics rows q).total
      = ((q.streams rows).map (fun g => (aggregate q.start (q.rowsOf rows g)).count)).sum
    ∧ (getProbeCounterStatistics rows q).successes
      = ((q.streams rows).map (fun g => (aggregate q.start (q.rowsOf rows g)).successes)).sum := by
  unfold getProbeCounterStatistics
  split
  · rename_i hids
    rw [streams_of_no_ids hids]
    exact ⟨rfl, rfl⟩
  · obtain ⟨htotal, hsuccesses⟩ := foldl_addStream_sums
      ((q.streams rows).map (fun g => aggregate q.start (q.rowsOf rows g))) {}
    rw [htotal, hsuccesses, List.map_map, List.map_map]
    exact ⟨Int.zero_add _, Int.zero_add _⟩

/-! ### What is stored -/

theorem normalizeAgentProbeCounts_ingress (r : Report) :
    normalizeAgentProbeCounts (ingress r) false = (reportCount r, reportSuccesses r) := by
  have hraw : normalizeAgentProbeCounts r false = (reportCount r, reportSuccesses r) := by
    unfold normalizeAgentProbeCounts reportSuccesses reportCount
    cases r.probeSuccesses with
    | none => cases r.isTimeout <;> grind
    | some n => grind
  have hle := reportSuccesses_le r
  have hrange : 1 ≤ reportCount r ∧ reportCount r ≤ 1024 := by
    unfold reportCount
    grind
  unfold ingress
  rw [hraw]
  unfold normalizeAgentProbeCounts
  grind

variable {env : Env}

theorem collectCounter_eq_some {hostId : Nat} {e : Sample} {x : Snapshot}
    (h : collectCounter env hostId e = some x) :
    ∃ t ∈ e.totals, x = {
      kind := e.kind, refId := refOf e.kind e.report, hostId
      probeKey := env.probeKey (panelIdentity env e.kind (refOf e.kind e.report) hostId (ingress e.report))
      epoch := t.probeCounterEpoch
      totalCount := t.probeTotalCount
      totalSuccesses := t.probeTotalSuccesses
      batchCount := reportCount e.report
      batchSuccesses := reportSuccesses e.report } := by
  unfold collectCounter probeCounterSnapshot at h
  split at h
  · cases h
  · split at h
    · cases h
    · rename_i t ht
      split at h
      · cases h
      · dsimp only at h
        split at h
        · cases h
        · obtain rfl := Option.some.inj h
          rw [normalizeAgentProbeCounts_ingress]
          exact ⟨t, ht, rfl⟩

variable {s : State} {rows : List Row}

theorem Inv.describe (h : Inv env s) (hsub : rows ⊆ s.rows) {epoch : String}
    (hepoch : ∀ r ∈ rows, r.snapshot.epoch = epoch) : Describe (history s.made epoch) rows := by
  intro r hr
  obtain ⟨e, he, hx⟩ := h.panel.stored r (hsub hr)
  obtain ⟨t, ht, hsnapshot⟩ := collectCounter_eq_some hx
  have hpath := (h.agents.logged e he t ht).1
  have hsame : t.probeCounterEpoch = epoch := by
    rw [← hepoch r hr, hsnapshot]
  rw [hsnapshot, ← hsame]
  exact hpath

theorem rowsOf_subset (q : Query) (rows : List Row) (g : Stream) : q.rowsOf rows g ⊆ rows :=
  (List.filter_sublist.trans List.filter_sublist).subset

def probesOf (s : State) (q : Query) (g : Stream) : List Bool :=
  covered (history s.made g.epoch) q.start (q.rowsOf s.rows g)

theorem Inv.describe_rowsOf (h : Inv env s) (q : Query) (g : Stream) :
    Describe (history s.made g.epoch) (q.rowsOf s.rows g) := by
  apply h.describe (rowsOf_subset q s.rows g)
  intro r hr
  have hstream : r.snapshot.stream = g := by simpa using (List.mem_filter.mp hr).2
  rw [← hstream]
  rfl

theorem insertBatch_stored {batch : List Snapshot} (recordedAt : Int) (h : ∀ x ∈ batch, ∃ r ∈ rows, r.snapshot = x) :
    insertBatch recordedAt rows batch = rows := by
  induction batch with
  | nil => rfl
  | cons x batch ih =>
    obtain ⟨r, hr, hx⟩ := h x List.mem_cons_self
    have hany : rows.any (fun r => r.snapshot.unique = x.unique) = true :=
      List.any_eq_true.mpr ⟨r, hr, by simp [hx]⟩
    have hinsert : insertRow recordedAt rows x = rows := if_pos hany
    rw [insertBatch, List.foldl_cons, hinsert]
    exact ih fun y hy => h y (List.mem_cons_of_mem _ hy)

/-! ### Streams and epochs -/

variable (env) in
/-- Reports that an agent counts together have one identity for the panel. -/
def SameIdentity (log : List (Nat × Sample)) : Prop := ∀ e ∈ log, ∀ e' ∈ log, e.1 = e'.1 →
  counterKey env.sha256 e.2.kind e.2.report = counterKey env.sha256 e'.2.kind e'.2.report →
  panelIdentity env e.2.kind (refOf e.2.kind e.2.report) e.1 e.2.report
    = panelIdentity env e'.2.kind (refOf e'.2.kind e'.2.report) e'.1 e'.2.report

theorem Inv.stream_of_epoch (h : Inv env s) (hsame : SameIdentity env s.log) {r r' : Row} (hr : r ∈ s.rows)
    (hr' : r' ∈ s.rows) (hepoch : r.snapshot.epoch = r'.snapshot.epoch) : r.snapshot.stream = r'.snapshot.stream := by
  obtain ⟨e, he, hx⟩ := h.panel.stored r hr
  obtain ⟨e', he', hx'⟩ := h.panel.stored r' hr'
  obtain ⟨t, ht, hsnapshot⟩ := collectCounter_eq_some hx
  obtain ⟨t', ht', hsnapshot'⟩ := collectCounter_eq_some hx'
  rw [hsnapshot, hsnapshot'] at hepoch ⊢
  dsimp only at hepoch
  have howned := (h.agents.logged e he t ht).2
  have howned' := (h.agents.logged e' he' t' ht').2
  rw [← hepoch] at howned'
  obtain ⟨hhost, hkey⟩ := h.agents.owned_unique howned howned'
  have hidentity := hsame e he e' he' hhost hkey
  have hkind : e.2.kind = e'.2.kind := congrArg PanelIdentity.kind hidentity
  have href : refOf e.2.kind e.2.report = refOf e'.2.kind e'.2.report :=
    congrArg PanelIdentity.refId hidentity
  simp only [Snapshot.stream, Stream.mk.injEq]
  exact ⟨hhost, hkind, href, congrArg env.probeKey hidentity, hepoch⟩

theorem history_length (made : List Batch) (epoch : String) :
    (history made epoch).length
      = ((made.filter (fun b => b.epoch = epoch)).map (fun b => b.probes.length)).sum := by
  rw [history, List.length_flatMap]

theorem covered_length_le {probes : List Bool} (start : Int) : (covered probes start rows).length ≤ probes.length := by
  unfold covered
  cases windowEnd start rows with
  | none => simp
  | some z =>
    cases windowStart start rows with
    | none => simp
    | some a =>
      simp only [Option.bind_some, Option.map_some, Option.getD_some, slice, List.length_drop,
        List.length_take]
      omega

theorem Inv.total_le_made (h : Inv env s) (hsame : SameIdentity env s.log) (q : Query) :
    ((q.streams s.rows).map (fun g => (probesOf s q g).length)).sum
      ≤ (s.made.map (fun b => b.probes.length)).sum := by
  have hepochs : ((q.streams s.rows).map Stream.epoch).Nodup := by
    apply List.Nodup.map_on _ (List.nodup_dedup _)
    intro g hg g' hg' hepoch
    obtain ⟨r, hr, rfl⟩ := List.mem_map.mp (List.mem_dedup.mp hg)
    obtain ⟨r', hr', rfl⟩ := List.mem_map.mp (List.mem_dedup.mp hg')
    exact h.stream_of_epoch hsame (List.mem_of_mem_filter hr) (List.mem_of_mem_filter hr') hepoch
  calc ((q.streams s.rows).map (fun g => (probesOf s q g).length)).sum
      ≤ ((q.streams s.rows).map (fun g => (history s.made g.epoch).length)).sum :=
        List.sum_le_sum fun g _ => covered_length_le q.start
    _ = (((q.streams s.rows).map Stream.epoch).map (fun epoch =>
          ((s.made.filter (fun b => b.epoch = epoch)).map (fun b => b.probes.length)).sum)).sum := by
        rw [List.map_map]
        exact congrArg List.sum (List.map_congr_left fun g _ => history_length s.made g.epoch)
    _ ≤ (s.made.map (fun b => b.probes.length)).sum := sum_classes_le Batch.epoch _ hepochs s.made

/-! ### The result -/

/-- Every stream adds the probes between the start and the end of its window, and the successes
among these probes, also without the bound by the count; a stored snapshot changes nothing when
it comes again. No stream counts more than was made under its epoch, and all streams together
count no more than was made if reports that an agent counts together have one identity. -/
theorem probes_counted_once {acts : List Act} {s : State} (hrun : Run (steps env) State.initial acts s)
    (q : Query) :
    (∀ g, (aggregate q.start (q.rowsOf s.rows g)).count = (probesOf s q g).length ∧
      (aggregate q.start (q.rowsOf s.rows g)).successes = (probesOf s q g).countP id ∧
      (∀ z ∈ windowEnd q.start (q.rowsOf s.rows g), z ≤ (history s.made g.epoch).length) ∧
      ((aggregate q.start (q.rowsOf s.rows g)).endCount ≠ none →
        max 0 (aggregate q.start (q.rowsOf s.rows g)).successDelta
          = (aggregate q.start (q.rowsOf s.rows g)).successes)) ∧
    (getProbeCounterStatistics s.rows q).total
      = ((q.streams s.rows).map (fun g => ((probesOf s q g).length : Int))).sum ∧
    (getProbeCounterStatistics s.rows q).successes
      = ((q.streams s.rows).map (fun g => ((probesOf s q g).countP id : Int))).sum ∧
    (getProbeCounterStatistics s.rows q).successes ≤ (getProbeCounterStatistics s.rows q).total ∧
    (∀ recordedAt batch, (∀ x ∈ batch, ∃ r ∈ s.rows, r.snapshot = x) →
      insertBatch recordedAt s.rows batch = s.rows) ∧
    (SameIdentity env s.log → (getProbeCounterStatistics s.rows q).total
      ≤ (s.made.map (fun b => b.probes.length)).sum) := by
  have hinv := inv_of_run hrun
  have hdescribe := hinv.describe_rowsOf q
  obtain ⟨htotal, hsuccesses⟩ := statistics_sums s.rows q
  have htotal' : (getProbeCounterStatistics s.rows q).total
      = ((q.streams s.rows).map (fun g => ((probesOf s q g).length : Int))).sum := by
    rw [htotal]
    exact congrArg List.sum (List.map_congr_left fun g _ => count_covered (hdescribe g))
  have hsuccesses' : (getProbeCounterStatistics s.rows q).successes
      = ((q.streams s.rows).map (fun g => ((probesOf s q g).countP id : Int))).sum := by
    rw [hsuccesses]
    exact congrArg List.sum (List.map_congr_left fun g _ => successes_covered (hdescribe g))
  refine ⟨fun g => ⟨count_covered (hdescribe g), successes_covered (hdescribe g),
      fun z hz => windowEnd_le (hdescribe g) hz, fun hend => ?_⟩,
    htotal', hsuccesses', ?_, fun recordedAt batch => insertBatch_stored recordedAt, fun hsame => ?_⟩
  · rw [successDelta_covered (hdescribe g) hend, successes_covered (hdescribe g)]
  · rw [htotal', hsuccesses']
    exact List.sum_le_sum fun g _ => Int.ofNat_le.mpr List.countP_le_length
  · have hle := hinv.total_le_made hsame q
    have hcast : (q.streams s.rows).map (fun g => ((probesOf s q g).length : Int))
        = ((q.streams s.rows).map (fun g => (probesOf s q g).length)).map Nat.cast := by
      rw [List.map_map]
      rfl
    rw [htotal', hcast, ← Nat.cast_list_sum]
    exact Int.ofNat_le.mpr hle

/-- Digests that keep their texts apart. -/
def plainEnv : Env where
  sha256 := String.intercalate "|"
  probeKey x := String.intercalate "|" [x.kind.text, toString x.refId, toString x.hostId, x.topologyKey, x.probeKey,
    x.targetIp, toString x.targetPort, toString x.sourcePort, x.method, toString x.hopIndex,
    toString x.hopCount, x.seriesKey, toString x.memberId, x.probeType]
  toLowerCase := String.toLower

/-- A probe of a rule's target. -/
def ruleReport (targetIp : String) : Report :=
  { ruleId := some 5, sourcePort := some 8000, targetIp, targetPort := some 443, method := "tcping"
    probeKey := "rule:5:10.0.0.9:443:tcping", probeCount := some 5, probeSuccesses := some 5 }

/-- The report of the `n`-th batch of five probes. -/
def ruleSample (targetIp : String) (n : Nat) : Sample :=
  { kind := .rule, report := ruleReport targetIp, totals := some ⟨"e1", 5 * n, 5 * n⟩ }

def countRule (targetIp : String) (draw : Option String) : Act :=
  .count 1 .rule (ruleReport targetIp) [true, true, true, true, true] draw 0

/-- What the query of rule 5 from time `ms` on says. -/
def ruleQuery (ms : Int) : Query := { kind := .rule, refIds := [5], sinceMs := 0, untilMs := ms, nowMs := ms }

/-- Three batches for a target that is written with and without a blank; every snapshot is stored. -/
def respelledTarget : List Act :=
  [countRule "10.0.0.9" (some "e1"), countRule "10.0.0.9 " none, countRule "10.0.0.9" none,
    .receive 1 [ruleSample "10.0.0.9" 1, ruleSample "10.0.0.9 " 2, ruleSample "10.0.0.9" 3] true 60000 60000,
    .insert 0, .commit 0]

/-- Two batches; the second snapshot comes within five minutes of the first. -/
def heldBack : List Act :=
  [countRule "10.0.0.9" (some "e1"), .receive 1 [ruleSample "10.0.0.9" 1] false 60000 60000, .insert 0, .commit 0,
    countRule "10.0.0.9" none, .receive 1 [ruleSample "10.0.0.9" 2] false 120000 120000, .commit 0]

def deliveredAgain : List Act :=
  [.receive 1 [ruleSample "10.0.0.9" 2] false 361000 361000, .insert 0, .commit 0]

def exceeds (s : State) (q : Query) : Bool :=
  (s.made.map (fun b => b.probes.length)).sum < (getProbeCounterStatistics s.rows q).total

def agree (s s' : State) (q : Query) : Bool :=
  getProbeCounterStatistics s.rows q = getProbeCounterStatistics s'.rows q

/-- The total can exceed the number of probes made: the agent trims the target and counts both
spellings under one epoch, the panel keeps them apart, and each stream counts what lies between
its own snapshots. And a snapshot that the gate held back is stored when it comes again. -/
theorem total_exceeds_made :
    (∃ s, Run (steps plainEnv) State.initial respelledTarget s ∧ exceeds s (ruleQuery 120000)) ∧
    (∃ s s', Run (steps plainEnv) State.initial heldBack s ∧
      Run (steps plainEnv) State.initial (heldBack ++ deliveredAgain) s' ∧
      agree s s' (ruleQuery 600000) = false) := by
  have hfirst : (exec (step plainEnv) State.initial respelledTarget).any
      (fun s => exceeds s (ruleQuery 120000)) = true := by decide +kernel
  have hsecond : (exec (step plainEnv) State.initial heldBack).any (fun s =>
      (exec (step plainEnv) State.initial (heldBack ++ deliveredAgain)).any
        (fun s' => agree s s' (ruleQuery 600000) = false)) = true := by decide +kernel
  obtain ⟨s, hs, htest⟩ := (Option.any_eq_true _ _).mp hfirst
  obtain ⟨t, ht, hagain⟩ := (Option.any_eq_true _ _).mp hsecond
  obtain ⟨t', ht', hdiffer⟩ := (Option.any_eq_true _ _).mp hagain
  exact ⟨⟨s, exec_run hs, htest⟩, ⟨t, t', exec_run ht, exec_run ht', of_decide_eq_true hdiffer⟩⟩

/-- The three batches again with the target written in one way. -/
def spelledTarget : List Act :=
  [countRule "10.0.0.9" (some "e1"), countRule "10.0.0.9" none, countRule "10.0.0.9" none,
    .receive 1 [ruleSample "10.0.0.9" 3, ruleSample "10.0.0.9" 1] true 60000 60000, .insert 0, .commit 0]

/-- What the run leaves: fifteen probes of one identity, all of them counted. -/
def fifteenCounted (s : State) : Bool :=
  s.log.all (fun e => s.log.all fun e' =>
      panelIdentity plainEnv e.2.kind (refOf e.2.kind e.2.report) e.1 e.2.report
        = panelIdentity plainEnv e'.2.kind (refOf e'.2.kind e'.2.report) e'.1 e'.2.report)
    && (getProbeCounterStatistics s.rows (ruleQuery 120000)).total = 15
    && (s.made.map (fun b => b.probes.length)).sum = 15

theorem probes_counted_once_spelled : ∃ s, Run (steps plainEnv) State.initial spelledTarget s ∧
    (getProbeCounterStatistics s.rows (ruleQuery 120000)).total = 15 ∧
    (getProbeCounterStatistics s.rows (ruleQuery 120000)).total ≤ (s.made.map (fun b => b.probes.length)).sum := by
  have hrun : (exec (step plainEnv) State.initial spelledTarget).any fifteenCounted = true := by decide +kernel
  obtain ⟨s, hs, htest⟩ := (Option.any_eq_true _ _).mp hrun
  have hrun := exec_run hs
  simp only [fifteenCounted, Bool.and_eq_true, List.all_eq_true, decide_eq_true_eq] at htest
  obtain ⟨⟨hsame, htotal⟩, -⟩ := htest
  exact ⟨s, hrun, htotal, (probes_counted_once hrun (ruleQuery 120000)).2.2.2.2.2
    fun e he e' he' _ _ => hsame e he e' he'⟩

end ForwardX.Probe
