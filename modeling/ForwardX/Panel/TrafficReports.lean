import Mathlib.Algebra.Order.Ring.Nat
import ForwardX.Fxp.TrafficLedger
import ForwardX.Lib.LastSeen

/- Traffic reports at the panel. `claimAgentTrafficReport` (`metricsRepository.ts`) keeps the
   last report id of each host and producer, and the traffic route accounts for a report that
   claims it. Reporters retry a report until it is confirmed, and processes with the same
   panel, token, role, tunnel, rule and port share a producer id: a report that reaches the
   panel again after another one of its producer is accounted for a second time. -/
namespace ForwardX.Panel
open Transition Fxp.Traffic

/-! ## Claiming a report -/

/-- White space and line ends of `String.prototype.trim`. -/
def jsIsSpace (c : Char) : Bool :=
  c ∈ ['\t', '\n', '\x0b', '\x0c', '\r', ' ', '\u00a0', '\u1680', '\u2028', '\u2029', '\u202f',
    '\u205f', '\u3000', '\ufeff'] || ('\u2000' ≤ c && c ≤ '\u200a')

/-- `s.trim().slice(0, 128)`, of a string of characters below `U+10000`. -/
def cleanId (s : String) : String :=
  String.ofList ((((s.toList.dropWhile jsIsSpace).reverse.dropWhile jsIsSpace).reverse).take 128)

/-- A row of `agent_traffic_reports`, unique by host and report and by host and producer. -/
structure AgentTrafficReport where
  hostId : Nat
  producerId : Option String
  reportId : String
  deriving DecidableEq, Repr

/-- `claimAgentTrafficReport`: whether the report is new, and the rows after it. -/
def claimAgentTrafficReport (rows : List AgentTrafficReport) (hostId : Nat) (reportId producerId : String) :
    Except String (Bool × List AgentTrafficReport) :=
  let key := cleanId reportId
  let producer := cleanId producerId
  if hostId = 0 ∨ key = "" then .ok (true, rows)
  else if producer = "" then
    if rows.any (fun r => r.hostId = hostId ∧ r.reportId = key) then .ok (false, rows)
    else .ok (true, rows ++ [⟨hostId, none, key⟩])
  else if rows.any (fun r => r.hostId = hostId ∧ (r.reportId = key ∨ r.producerId = some producer)) then
    -- the insert does nothing: replace the head of the producer
    if rows.any (fun r => r.hostId = hostId ∧ r.producerId = some producer ∧ r.reportId ≠ key) then
      if rows.any (fun r => r.hostId = hostId ∧ r.reportId = key) then .error "UNIQUE constraint failed"
      else .ok (true, rows.map (fun r =>
        if r.hostId = hostId ∧ r.producerId = some producer then { r with reportId := key } else r))
    else .ok (false, rows)
  else .ok (true, rows ++ [⟨hostId, some producer, key⟩])

/-- A batch as the panel tells batches apart: by host and producer, and the report id. -/
abbrev Batch := LastSeen.Item (Nat × String) String

/-- The rows of the reports, and the batches that were accounted for, in order. -/
structure PanelState where
  rows : List AgentTrafficReport
  accounted : List Batch

/-- The transaction of the traffic route: whether the report is a duplicate, and the state after it. -/
def trafficRoute (panel : PanelState) (hostId : Nat) (reportId reportProducerId : String) :
    Except String (Bool × PanelState) :=
  let trafficReportId := cleanId reportId
  let trafficReportProducerId := cleanId reportProducerId
  let accounted := panel.accounted ++ [((hostId, trafficReportProducerId), trafficReportId)]
  if trafficReportId = "" then .ok (false, ⟨panel.rows, accounted⟩)
  else
    match claimAgentTrafficReport panel.rows hostId trafficReportId trafficReportProducerId with
    | .error e => .error e
    | .ok (false, rows) => .ok (true, ⟨rows, panel.accounted⟩)
    | .ok (true, rows) => .ok (false, ⟨rows, accounted⟩)

/-! ## Processes and the network -/

abbrev Request := Nat × Key × Pending

/-- The processes with their reporters, the requests they have posted, and a panel. Of the
panel's side: the requests that it answered with success, and the batches that reached it. -/
structure Fleet where
  reporters : Nat → Reporter
  requests : List Request
  panel : PanelState
  answered : List Request
  acknowledged : List Request
  arrivals : List Batch

def Fleet.initial : Fleet := ⟨fun _ => Reporter.new, [], ⟨[], []⟩, [], [], []⟩

inductive FleetAct
  /-- `enqueueTraffic` of a process. -/
  | enqueue (process : Nat) (cfg : Config) (bytesIn bytesOut : UInt64) (connectionDeltas : List UInt64)
  /-- `flushTrafficBatches` of a process takes its snapshot. -/
  | flush (process : Nat) (order : List Key)
  /-- `postTrafficBatch` of one of the copies. -/
  | post (process : Nat) (key : Key)
  /-- A request reaches the panel, at any time and any number of times. -/
  | arrive (request : Nat)
  /-- `postTrafficBatch` returns false. -/
  | fail (process : Nat)
  /-- `postTrafficBatch` returns true: a success of the request came back. -/
  | succeed (process : Nat)

section
variable (env : Env) (ids : Nat → Nat → String) (hostOf : String → Option { hostId : Nat // 0 < hostId })

/-- The environment of a process: `ids` are the report ids that it draws. -/
def processEnv (process : Nat) : Env := { env with reportID := ids process }

/-- The batch of a request from a host that the panel knows by its token. -/
def batchOf (request : Request) : Option Batch :=
  (hostOf request.2.1.token).map
    (fun host => ((host.1, cleanId request.2.1.producerID), cleanId request.2.2.reportID))

/-- One step; `none` where it is not enabled. -/
def Fleet.step (f : Fleet) : FleetAct → Option Fleet
  | .enqueue process cfg bytesIn bytesOut connectionDeltas =>
    some { f with
      reporters := Function.update f.reporters process
        ((f.reporters process).enqueueTraffic (processEnv env ids process) cfg bytesIn bytesOut
          connectionDeltas) }
  | .flush process order =>
    let reporter := f.reporters process
    if reporter.todo = [] ∧ reporter.posting = none ∧ order.Perm reporter.keys then
      some { f with
        reporters := Function.update f.reporters process
          (reporter.snapshot (processEnv env ids process) order) }
    else none
  | .post process key =>
    let reporter := f.reporters process
    match reporter.posting, reporter.todo.lookup key with
    | none, some pending => some { f with
        reporters := Function.update f.reporters process { reporter with
          todo := Assoc.erase reporter.todo key
          posting := some (key, pending) }
        requests := f.requests ++ [(process, key, pending)] }
    | _, _ => none
  | .arrive i => do
    let request ← f.requests[i]?
    let host ← hostOf request.2.1.token
    match trafficRoute f.panel host.1 request.2.2.reportID request.2.1.producerID with
    | .error _ => some f
    | .ok (_, panel) => some { f with
        panel := panel
        answered := f.answered ++ [request]
        arrivals := f.arrivals ++
          [((host.1, cleanId request.2.1.producerID), cleanId request.2.2.reportID)] }
  | .fail process => do
    let _ ← (f.reporters process).posting
    some { f with
      reporters := Function.update f.reporters process { f.reporters process with posting := none } }
  | .succeed process => do
    let request ← (f.reporters process).posting
    if (process, request) ∈ f.answered then
      some { f with
        reporters := Function.update f.reporters process
          { (f.reporters process).acknowledgeTrafficBatch request.1 request.2.byRule with
            posting := none }
        acknowledged := f.acknowledged ++ [(process, request)] }
    else none

end

/-! ## The panel keeps the last report -/

/-- The rows after the batches `arrivals`: one for each producer that has reported, with its last
report. -/
def RowsOk (arrivals : List Batch) (rows : List AgentTrafficReport) : Prop :=
  ∀ r, r ∈ rows ↔ ∃ producer, r.producerId = some producer ∧
    LastSeen.last arrivals (r.hostId, producer) = some r.reportId

namespace RowsOk
variable {arrivals : List Batch} {rows : List AgentTrafficReport} {hostId : Nat}
  {producer report : String}

theorem insert (h : RowsOk arrivals rows) (hnone : LastSeen.last arrivals (hostId, producer) = none) :
    RowsOk (arrivals ++ [((hostId, producer), report)]) (rows ++ [⟨hostId, some producer, report⟩]) := by
  intro r
  rw [List.mem_append, List.mem_singleton, h]
  constructor
  · rintro (⟨p, hp, hlast⟩ | rfl)
    · refine ⟨p, hp, ?_⟩
      rw [LastSeen.last_concat, if_neg ?_]
      · exact hlast
      · rintro hsource
        rw [← hsource, hnone] at hlast
        cases hlast
    · refine ⟨producer, rfl, ?_⟩
      rw [LastSeen.last_concat, if_pos rfl]
  · rintro ⟨p, hp, hlast⟩
    rw [LastSeen.last_concat] at hlast
    split at hlast
    · rename_i hsource
      obtain ⟨hrhost, hrproducer⟩ := Prod.mk.inj hsource
      obtain ⟨rhost, rproducer, rreport⟩ := r
      dsimp only at hrhost hrproducer hp hlast
      rw [hp, ← hrproducer, ← hrhost, ← Option.some.inj hlast]
      exact .inr rfl
    · exact .inl ⟨p, hp, hlast⟩

theorem replace (h : RowsOk arrivals rows) {old : String}
    (hold : LastSeen.last arrivals (hostId, producer) = some old) :
    RowsOk (arrivals ++ [((hostId, producer), report)]) (rows.map (fun r =>
      if r.hostId = hostId ∧ r.producerId = some producer then { r with reportId := report } else r)) := by
  intro r
  rw [List.mem_map]
  constructor
  · rintro ⟨r₀, hr₀, rfl⟩
    obtain ⟨p, hp, hlast⟩ := (h r₀).mp hr₀
    by_cases hhead : r₀.hostId = hostId ∧ r₀.producerId = some producer
    · rw [if_pos hhead]
      refine ⟨producer, hhead.2, ?_⟩
      rw [LastSeen.last_concat, if_pos (by rw [← hhead.1])]
    · rw [if_neg hhead]
      refine ⟨p, hp, ?_⟩
      rw [LastSeen.last_concat, if_neg ?_]
      · exact hlast
      · rintro hsource
        obtain ⟨hrhost, hrproducer⟩ := Prod.mk.inj hsource
        exact hhead ⟨hrhost.symm, by rw [hp, hrproducer]⟩
  · rintro ⟨p, hp, hlast⟩
    rw [LastSeen.last_concat] at hlast
    split at hlast
    · rename_i hsource
      obtain ⟨hrhost, hrproducer⟩ := Prod.mk.inj hsource
      obtain ⟨rhost, rproducer, rreport⟩ := r
      dsimp only at hrhost hrproducer hp hlast
      refine ⟨⟨hostId, some producer, old⟩, (h _).mpr ⟨producer, rfl, hold⟩, ?_⟩
      rw [if_pos ⟨rfl, rfl⟩, hp, ← hrproducer, ← hrhost, ← Option.some.inj hlast]
    · rename_i hsource
      refine ⟨r, (h r).mpr ⟨p, hp, hlast⟩, if_neg ?_⟩
      rintro ⟨hrhost, hrproducer⟩
      apply hsource
      rw [hrhost, ← Option.some.inj (hp.symm.trans hrproducer)]

theorem same (h : RowsOk arrivals rows) (hlast : LastSeen.last arrivals (hostId, producer) = some report) :
    RowsOk (arrivals ++ [((hostId, producer), report)]) rows := by
  intro r
  rw [h]
  simp only [LastSeen.last_concat_same (x := ((hostId, producer), report)) hlast]

theorem head (h : RowsOk arrivals rows) {r : AgentTrafficReport} (hr : r ∈ rows)
    (hproducer : r.producerId = some producer) :
    LastSeen.last arrivals (r.hostId, producer) = some r.reportId := by
  obtain ⟨p, hp, hlast⟩ := (h r).mp hr
  obtain rfl := Option.some.inj (hp.symm.trans hproducer)
  exact hlast

end RowsOk

/-- The panel after the batches `arrivals`: it has accounted for those that were not the last one
of their producer again. -/
structure PanelOk (arrivals : List Batch) (panel : PanelState) : Prop where
  rows : RowsOk arrivals panel.rows
  accounted : panel.accounted = LastSeen.accepted arrivals

/-- What the panel does with a report whose id no other producer of the host has used. -/
theorem PanelOk.arrive {arrivals : List Batch} {panel : PanelState} (h : PanelOk arrivals panel)
    {hostId : Nat} {producer report : String} (hhost : 0 < hostId)
    (hproducer : cleanId producer = producer) (hproducer' : producer ≠ "")
    (hreport : cleanId report = report) (hreport' : report ≠ "")
    (hunique : ∀ p, ((hostId, p), report) ∈ arrivals → p = producer) :
    ∃ dup panel', trafficRoute panel hostId report producer = .ok (dup, panel') ∧
      PanelOk (arrivals ++ [((hostId, producer), report)]) panel' := by
  -- a row with the report is the row of the producer
  have howner : ∀ r ∈ panel.rows, r.hostId = hostId → r.reportId = report →
      r.producerId = some producer := by
    intro r hr hrhost hrreport
    obtain ⟨p, hp, hlast⟩ := (h.rows r).mp hr
    rw [hrhost, hrreport] at hlast
    have hmem : ((hostId, p), report) ∈ arrivals := LastSeen.last_eq_some hlast
    rw [hp, hunique p hmem]
  have hhost' : ¬ (hostId = 0 ∨ report = "") := by
    rintro (h0 | h0)
    · exact Nat.ne_of_gt hhost h0
    · exact hreport' h0
  unfold trafficRoute claimAgentTrafficReport
  simp only [hreport, hproducer, if_neg hhost', if_neg hproducer', if_neg hreport', List.any_eq_true,
    decide_eq_true_eq]
  cases hlast : LastSeen.last arrivals (hostId, producer) with
  | none =>
    -- the first report of the producer
    have hnone : ¬ ∃ r ∈ panel.rows, r.hostId = hostId ∧
        (r.reportId = report ∨ r.producerId = some producer) := by
      rintro ⟨r, hr, hrhost, hkey⟩
      have hrproducer : r.producerId = some producer := hkey.elim (howner r hr hrhost) id
      have hhead := h.rows.head hr hrproducer
      rw [hrhost, hlast] at hhead
      cases hhead
    rw [if_neg hnone]
    refine ⟨false, _, rfl, h.rows.insert hlast, ?_⟩
    rw [LastSeen.accepted_concat, hlast, if_neg (by simp), h.accounted]
  | some old =>
    have hrow : (⟨hostId, some producer, old⟩ : AgentTrafficReport) ∈ panel.rows :=
      (h.rows _).mpr ⟨producer, rfl, hlast⟩
    rw [if_pos ⟨_, hrow, rfl, .inr rfl⟩]
    by_cases hsame : old = report
    · subst hsame
      have hno : ¬ ∃ r ∈ panel.rows, r.hostId = hostId ∧ r.producerId = some producer ∧
          r.reportId ≠ old := by
        rintro ⟨r, hr, hrhost, hrproducer, hne⟩
        have hhead := h.rows.head hr hrproducer
        rw [hrhost, hlast] at hhead
        exact hne (Option.some.inj hhead).symm
      rw [if_neg hno]
      refine ⟨true, _, rfl, h.rows.same hlast, ?_⟩
      rw [LastSeen.accepted_concat, hlast, if_pos rfl, List.append_nil, h.accounted]
    · have hother : ¬ ∃ r ∈ panel.rows, r.hostId = hostId ∧ r.reportId = report := by
        rintro ⟨r, hr, hrhost, hrreport⟩
        have hhead := h.rows.head hr (howner r hr hrhost hrreport)
        rw [hrhost, hlast] at hhead
        exact hsame ((Option.some.inj hhead).trans hrreport)
      rw [if_pos ⟨_, hrow, rfl, rfl, hsame⟩, if_neg hother]
      refine ⟨false, _, rfl, h.rows.replace hlast, ?_⟩
      rw [LastSeen.accepted_concat, hlast, if_neg (fun heq => hsame (Option.some.inj heq)), h.accounted]

/-! ## What the reporters post -/

/-- The producer id of a key is the one that `fxpTrafficProducerID` computes. -/
def FromConfig (env : Env) (key : Key) : Prop := ∃ cfg, key.producerID = fxpTrafficProducerID env cfg

theorem snapshot_issued (env : Env) (r : Reporter) (order : List Key) :
    r.issued <+: (r.snapshot env order).issued := by
  suffices hall : ∀ r' : Reporter, r'.issued <+: (order.foldl (Reporter.freeze env) r').issued from
    hall { r with todo := [] }
  intro r'
  induction order generalizing r' with
  | nil => exact List.prefix_refl _
  | cons key order ih =>
    have hfreeze : r'.issued <+: (r'.freeze env key).issued := by
      rcases freeze_cases env r' key with ⟨p, -, -, he⟩ | ⟨f, -, -, he⟩ | he
      · simp only [he, List.prefix_refl]
      · simp only [he, List.prefix_append]
      · simp only [he, List.prefix_refl]
    exact hfreeze.trans (ih _)

/-- A reporter numbers its reports by `reportID`, and all that it has to post it has made. -/
structure ReporterOk (env : Env) (r : Reporter) : Prop where
  ids : ∀ i x, r.issued[i]? = some x → x.2.reportID = env.reportID i
  keys : ∀ x ∈ r.issued, FromConfig env x.1
  batches : ∀ key ∈ Assoc.keys r.batches, FromConfig env key
  pending : ∀ key p, r.pending.lookup key = some p → (key, p) ∈ r.issued
  todo : ∀ x ∈ r.todo, x ∈ r.issued
  posting : ∀ x, r.posting = some x → x ∈ r.issued

namespace ReporterOk
variable {env : Env} {r : Reporter}

theorem new (env : Env) : ReporterOk env Reporter.new where
  ids := by
    intro i x hx
    cases hx
  keys := by
    intro x hx
    cases hx
  batches := by
    intro key hkey
    cases hkey
  pending := by
    intro key p hp
    cases hp
  todo := by
    intro x hx
    cases hx
  posting := by
    intro x hx
    cases hx

theorem putBatch (h : ReporterOk env r) {key : Key} (hkey : FromConfig env key) (byRule : ByRule) :
    ∀ k ∈ Assoc.keys (Assoc.put r.batches key byRule), FromConfig env k := by
  intro k hk
  obtain ⟨e, he, rfl⟩ := List.mem_map.mp hk
  rcases List.mem_append.mp he with he | he
  · exact h.batches e.1 (List.mem_map_of_mem (List.mem_filter.mp he).1)
  · rw [List.mem_singleton.mp he]
    exact hkey

theorem enqueueTraffic (h : ReporterOk env r) (cfg : Config) (bytesIn bytesOut : UInt64)
    (connectionDeltas : List UInt64) :
    ReporterOk env (r.enqueueTraffic env cfg bytesIn bytesOut connectionDeltas) := by
  unfold Reporter.enqueueTraffic
  dsimp only
  split
  · exact h
  · rename_i key hkey
    have hfrom : FromConfig env key := by
      unfold trafficKey at hkey
      dsimp only at hkey
      split at hkey
      · cases hkey
      · split at hkey
        · cases hkey
        · obtain rfl := Option.some.inj hkey
          exact ⟨cfg, rfl⟩
    exact { h with batches := h.putBatch hfrom _ }

theorem freeze (h : ReporterOk env r) (key : Key) : ReporterOk env (r.freeze env key) := by
  rcases freeze_cases env r key with ⟨p, hp, -, he⟩ | ⟨f, -, hcopy, he⟩ | he
  · rw [he]
    refine { h with todo := ?_ }
    intro x hx
    rcases List.mem_append.mp hx with hx | hx
    · exact h.todo x hx
    · rw [List.mem_singleton.mp hx]
      exact h.pending key p hp
  · -- a new report, under the next id
    have hfrom : FromConfig env key := by
      refine h.batches key (Assoc.mem_keys.mpr ?_)
      cases hbatch : r.batches.lookup key with
      | some byRule => exact ⟨byRule, rfl⟩
      | none =>
        rw [Reporter.batch, hbatch] at hcopy
        exact absurd rfl hcopy
    rw [he]
    refine ⟨?_, ?_, h.batches, ?_, ?_, ?_⟩
    · intro i x hx
      rcases Slots.getElem?_concat_cases hx with ⟨rfl, rfl⟩ | ⟨-, hx⟩
      · rfl
      · exact h.ids i x hx
    · intro x hx
      rcases List.mem_append.mp hx with hx | hx
      · exact h.keys x hx
      · rw [List.mem_singleton.mp hx]
        exact hfrom
    · intro key' p' hp'
      by_cases hk : key' = key
      · rw [hk, Assoc.lookup_put_self] at hp'
        rw [hk, ← Option.some.inj hp']
        exact List.mem_append_right _ List.mem_cons_self
      · rw [Assoc.lookup_put_ne _ hk] at hp'
        exact List.mem_append_left _ (h.pending key' p' hp')
    · intro x hx
      rcases List.mem_append.mp hx with hx | hx
      · exact List.mem_append_left _ (h.todo x hx)
      · rw [List.mem_singleton.mp hx]
        exact List.mem_append_right _ List.mem_cons_self
    · exact fun x hx => List.mem_append_left _ (h.posting x hx)
  · rw [he]
    exact h

theorem snapshot (h : ReporterOk env r) (order : List Key) : ReporterOk env (r.snapshot env order) := by
  have hstart : ReporterOk env { r with todo := [] } :=
    { h with todo := fun x hx => by cases hx }
  suffices hall : ∀ r' : Reporter, ReporterOk env r' →
      ReporterOk env (order.foldl (Reporter.freeze env) r') from hall _ hstart
  intro r' hr'
  induction order generalizing r' with
  | nil => exact hr'
  | cons key order ih => exact ih _ (hr'.freeze key)

theorem post (h : ReporterOk env r) {key : Key} {pending : Pending}
    (hp : r.todo.lookup key = some pending) :
    (key, pending) ∈ r.issued ∧
    ReporterOk env { r with todo := Assoc.erase r.todo key, posting := some (key, pending) } := by
  have hissued := h.todo _ (Assoc.mem_of_lookup hp)
  refine ⟨hissued, { h with todo := ?_, posting := ?_ }⟩
  · exact fun x hx => h.todo x (List.mem_filter.mp hx).1
  · intro x hx
    rw [← Option.some.inj hx]
    exact hissued

theorem fail (h : ReporterOk env r) : ReporterOk env { r with posting := none } :=
  { h with posting := fun x hx => by cases hx }

theorem acknowledge (h : ReporterOk env r) {request : Key × Pending} (hposting : r.posting = some request) :
    ReporterOk env { r.acknowledgeTrafficBatch request.1 request.2.byRule with posting := none } := by
  have hfrom := h.keys request (h.posting request hposting)
  refine { h with batches := ?_, pending := ?_, posting := fun x hx => by cases hx }
  · unfold Reporter.acknowledgeTrafficBatch
    dsimp only
    split
    · exact fun k hk => h.batches k ((Assoc.keys_erase_sublist _ _).subset hk)
    · exact h.putBatch hfrom _
  · intro key p hp
    unfold Reporter.acknowledgeTrafficBatch at hp
    dsimp only at hp
    by_cases hk : key = request.1
    · rw [hk, Assoc.lookup_erase_self] at hp
      cases hp
    · rw [Assoc.lookup_erase_ne _ hk] at hp
      exact h.pending key p hp

end ReporterOk

/-! ## The fleet and the panel -/

section
variable {env : Env} {ids : Nat → Nat → String} {hostOf : String → Option { hostId : Nat // 0 < hostId }}

/-- The report ids that were drawn differ, and have the form in which the panel keeps them. -/
structure DrawnIds (ids : Nat → Nat → String) (f : Fleet) : Prop where
  distinct : ∀ p q n m, n < (f.reporters p).issued.length → m < (f.reporters q).issued.length →
    ids p n = ids q m → p = q ∧ n = m
  clean : ∀ p n, n < (f.reporters p).issued.length → cleanId (ids p n) = ids p n ∧ ids p n ≠ ""

structure Fleet.Inv (env : Env) (ids : Nat → Nat → String)
    (hostOf : String → Option { hostId : Nat // 0 < hostId }) (f : Fleet) : Prop where
  reporters : ∀ p, ReporterOk (processEnv env ids p) (f.reporters p)
  requests : ∀ q ∈ f.requests, q.2 ∈ (f.reporters q.1).issued
  arrivals : ∀ b ∈ f.arrivals, ∃ q ∈ f.requests, batchOf hostOf q = some b
  answered : ∀ q ∈ f.answered, ∃ b ∈ f.arrivals, batchOf hostOf q = some b
  acknowledged : ∀ q ∈ f.acknowledged, ∃ b ∈ f.arrivals, batchOf hostOf q = some b
  panel : PanelOk f.arrivals f.panel

theorem Fleet.Inv.initial : Fleet.initial.Inv env ids hostOf where
  reporters := fun p => ReporterOk.new _
  requests := by
    intro q hq
    cases hq
  arrivals := by
    intro b hb
    cases hb
  answered := by
    intro q hq
    cases hq
  acknowledged := by
    intro q hq
    cases hq
  panel := by
    refine ⟨fun r => ⟨fun hr => (nomatch hr), ?_⟩, rfl⟩
    rintro ⟨p, -, hlast⟩
    cases hlast

theorem Fleet.Inv.reporter {f : Fleet} (h : f.Inv env ids hostOf) {p : Nat} {r : Reporter}
    (hr : ReporterOk (processEnv env ids p) r) (hissued : (f.reporters p).issued <+: r.issued) :
    Fleet.Inv env ids hostOf { f with reporters := Function.update f.reporters p r } := by
  refine { h with reporters := ?_, requests := ?_ }
  · intro q
    dsimp only
    by_cases hq : q = p
    · subst hq
      rw [Function.update_self]
      exact hr
    · rw [Function.update_of_ne hq]
      exact h.reporters q
  · intro q hq
    dsimp only
    by_cases hp : q.1 = p
    · rw [hp, Function.update_self]
      exact hissued.subset (hp ▸ h.requests q hq)
    · rw [Function.update_of_ne hp]
      exact h.requests q hq

theorem Fleet.Inv.drawn {f : Fleet} (h : f.Inv env ids hostOf) {q : Request} (hq : q ∈ f.requests) :
    ∃ n, (f.reporters q.1).issued[n]? = some q.2 ∧ n < (f.reporters q.1).issued.length ∧
      q.2.2.reportID = ids q.1 n := by
  obtain ⟨n, hn⟩ := List.mem_iff_getElem?.mp (h.requests q hq)
  exact ⟨n, hn, (List.getElem?_eq_some_iff.mp hn).1, (h.reporters q.1).ids n q.2 hn⟩

theorem Fleet.Inv.same {f : Fleet} (h : f.Inv env ids hostOf) (hids : DrawnIds ids f) {q q' : Request}
    (hq : q ∈ f.requests) (hq' : q' ∈ f.requests)
    (heq : cleanId q.2.2.reportID = cleanId q'.2.2.reportID) : q = q' := by
  obtain ⟨n, hn, hlt, hid⟩ := h.drawn hq
  obtain ⟨m, hm, hlt', hid'⟩ := h.drawn hq'
  rw [hid, hid', (hids.clean _ _ hlt).1, (hids.clean _ _ hlt').1] at heq
  obtain ⟨hp, rfl⟩ := hids.distinct _ _ _ _ hlt hlt' heq
  rw [← hp, hn] at hm
  exact Prod.ext hp (Option.some.inj hm)

theorem Fleet.Inv.arrive {f : Fleet} (h : f.Inv env ids hostOf) (hids : DrawnIds ids f)
    (hsha : ∀ s, cleanId ("fxp-" ++ env.sha256 s) = "fxp-" ++ env.sha256 s) {q : Request}
    (hq : q ∈ f.requests) {host : { hostId : Nat // 0 < hostId }} (hhost : hostOf q.2.1.token = some host)
    {dup : Bool} {panel : PanelState}
    (hroute : trafficRoute f.panel host.1 q.2.2.reportID q.2.1.producerID = .ok (dup, panel)) :
    Fleet.Inv env ids hostOf { f with
      panel := panel
      answered := f.answered ++ [q]
      arrivals := f.arrivals ++ [((host.1, cleanId q.2.1.producerID), cleanId q.2.2.reportID)] } := by
  have hbatch : batchOf hostOf q =
      some ((host.1, cleanId q.2.1.producerID), cleanId q.2.2.reportID) := by
    rw [batchOf, hhost]
    rfl
  obtain ⟨n, -, hlt, hid⟩ := h.drawn hq
  have hreport : cleanId q.2.2.reportID = q.2.2.reportID ∧ q.2.2.reportID ≠ "" := by
    rw [hid]
    exact hids.clean _ _ hlt
  have hproducer : cleanId q.2.1.producerID = q.2.1.producerID ∧ q.2.1.producerID ≠ "" := by
    obtain ⟨cfg, hcfg⟩ := (h.reporters q.1).keys q.2 (h.requests q hq)
    rw [hcfg]
    refine ⟨hsha _, fun hempty => ?_⟩
    have hlength := congrArg String.length hempty
    rw [fxpTrafficProducerID, String.length_append] at hlength
    simp at hlength
  have hunique : ∀ p, ((host.1, p), q.2.2.reportID) ∈ f.arrivals → p = q.2.1.producerID := by
    intro p hp
    obtain ⟨q', hq', hbatch'⟩ := h.arrivals _ hp
    obtain ⟨host', -, heq⟩ := Option.map_eq_some_iff.mp hbatch'
    obtain ⟨hsource, hreport'⟩ := Prod.mk.inj heq
    obtain ⟨-, rfl⟩ := Prod.mk.inj hsource
    rw [h.same hids hq' hq (by rw [hreport', hreport.1])]
    exact hproducer.1
  obtain ⟨dup', panel', hroute', hok⟩ := h.panel.arrive host.2 hproducer.1 hproducer.2 hreport.1 hreport.2
    hunique
  rw [hroute'] at hroute
  obtain ⟨-, rfl⟩ := Prod.mk.inj (Except.ok.inj hroute)
  refine { h with arrivals := ?_, answered := ?_, acknowledged := ?_, panel := ?_ }
  · intro b hb
    rcases List.mem_append.mp hb with hb | hb
    · exact h.arrivals b hb
    · rw [List.mem_singleton.mp hb]
      exact ⟨q, hq, hbatch⟩
  · intro q' hq'
    rcases List.mem_append.mp hq' with hq' | hq'
    · obtain ⟨b, hb, hbatch'⟩ := h.answered q' hq'
      exact ⟨b, List.mem_append_left _ hb, hbatch'⟩
    · rw [List.mem_singleton.mp hq']
      exact ⟨_, List.mem_append_right _ List.mem_cons_self, hbatch⟩
  · intro q' hq'
    obtain ⟨b, hb, hbatch'⟩ := h.acknowledged q' hq'
    exact ⟨b, List.mem_append_left _ hb, hbatch'⟩
  · rw [hproducer.1, hreport.1]
    exact hok

theorem Fleet.Inv.step {f f' : Fleet} (h : f.Inv env ids hostOf) (hids : DrawnIds ids f)
    (hsha : ∀ s, cleanId ("fxp-" ++ env.sha256 s) = "fxp-" ++ env.sha256 s) {a : FleetAct}
    (hs : f.step env ids hostOf a = some f') : f'.Inv env ids hostOf := by
  cases a with
  | enqueue p cfg bytesIn bytesOut connectionDeltas =>
    obtain rfl := Option.some.inj hs
    refine h.reporter ((h.reporters p).enqueueTraffic cfg bytesIn bytesOut connectionDeltas) ?_
    unfold Reporter.enqueueTraffic
    dsimp only
    split
    · exact List.prefix_refl _
    · exact List.prefix_refl _
  | flush p order =>
    simp only [Fleet.step] at hs
    split at hs
    · obtain rfl := Option.some.inj hs
      exact h.reporter ((h.reporters p).snapshot order) (snapshot_issued _ _ _)
    · cases hs
  | post p key =>
    simp only [Fleet.step] at hs
    split at hs
    · rename_i pending _ hpending
      obtain rfl := Option.some.inj hs
      obtain ⟨hissued, hok⟩ := (h.reporters p).post hpending
      have hinv := h.reporter hok (List.prefix_refl _)
      refine { hinv with requests := ?_, arrivals := ?_ }
      · intro q hq
        rcases List.mem_append.mp hq with hq | hq
        · exact hinv.requests q hq
        · rw [List.mem_singleton.mp hq]
          dsimp only
          rw [Function.update_self]
          exact hissued
      · intro b hb
        obtain ⟨q, hq, hbatch⟩ := h.arrivals b hb
        exact ⟨q, List.mem_append_left _ hq, hbatch⟩
    · cases hs
  | arrive i =>
    simp only [Fleet.step, Option.bind_eq_bind, Option.bind_eq_some_iff] at hs
    obtain ⟨q, hq, host, hhost, hs⟩ := hs
    split at hs
    · obtain rfl := Option.some.inj hs
      exact h
    · rename_i dup panel hroute
      obtain rfl := Option.some.inj hs
      exact h.arrive hids hsha (List.mem_of_getElem? hq) hhost hroute
  | fail p =>
    simp only [Fleet.step, Option.bind_eq_bind, Option.bind_eq_some_iff] at hs
    obtain ⟨q, -, hs⟩ := hs
    obtain rfl := Option.some.inj hs
    exact h.reporter (h.reporters p).fail (List.prefix_refl _)
  | succeed p =>
    simp only [Fleet.step, Option.bind_eq_bind, Option.bind_eq_some_iff] at hs
    obtain ⟨q, hq, hs⟩ := hs
    split at hs
    · rename_i hanswered
      obtain rfl := Option.some.inj hs
      have hinv := h.reporter ((h.reporters p).acknowledge hq) (List.prefix_refl _)
      refine { hinv with acknowledged := ?_ }
      intro q' hq'
      rcases List.mem_append.mp hq' with hq' | hq'
      · exact h.acknowledged q' hq'
      · rw [List.mem_singleton.mp hq']
        exact h.answered _ hanswered
    · cases hs

/-- The reports of a process after one of the others, or it, has moved. -/
theorem update_issued (reporters : Nat → Reporter) {p : Nat} {r : Reporter}
    (h : (reporters p).issued <+: r.issued) (q : Nat) :
    (reporters q).issued <+: (Function.update reporters p r q).issued := by
  by_cases hq : q = p
  · rw [hq, Function.update_self]
    exact h
  · simp only [Function.update_of_ne hq, List.prefix_refl]

theorem Fleet.step_issued {f f' : Fleet} {a : FleetAct} (hs : f.step env ids hostOf a = some f') (q : Nat) :
    (f.reporters q).issued <+: (f'.reporters q).issued := by
  cases a with
  | enqueue p cfg bytesIn bytesOut connectionDeltas =>
    obtain rfl := Option.some.inj hs
    apply update_issued
    unfold Reporter.enqueueTraffic
    dsimp only
    split
    · exact List.prefix_refl _
    · exact List.prefix_refl _
  | flush p order =>
    simp only [Fleet.step] at hs
    split at hs
    · obtain rfl := Option.some.inj hs
      exact update_issued _ (snapshot_issued _ _ _) q
    · cases hs
  | post p key =>
    simp only [Fleet.step] at hs
    split at hs
    · obtain rfl := Option.some.inj hs
      apply update_issued
      exact List.prefix_refl _
    · cases hs
  | arrive i =>
    simp only [Fleet.step, Option.bind_eq_bind, Option.bind_eq_some_iff] at hs
    obtain ⟨_, -, _, -, hs⟩ := hs
    split at hs
    · obtain rfl := Option.some.inj hs
      exact List.prefix_refl _
    · obtain rfl := Option.some.inj hs
      exact List.prefix_refl _
  | fail p =>
    simp only [Fleet.step, Option.bind_eq_bind, Option.bind_eq_some_iff] at hs
    obtain ⟨_, -, hs⟩ := hs
    obtain rfl := Option.some.inj hs
    apply update_issued
    exact List.prefix_refl _
  | succeed p =>
    simp only [Fleet.step, Option.bind_eq_bind, Option.bind_eq_some_iff] at hs
    obtain ⟨_, -, hs⟩ := hs
    split at hs
    · obtain rfl := Option.some.inj hs
      apply update_issued
      exact List.prefix_refl _
    · cases hs

/-- The ids that were drawn by a step's end include those drawn before. -/
theorem DrawnIds.before {f f' : Fleet} (h : DrawnIds ids f')
    (hissued : ∀ q, (f.reporters q).issued <+: (f'.reporters q).issued) : DrawnIds ids f where
  distinct := by
    intro p q n m hn hm heq
    exact h.distinct p q n m (Nat.lt_of_lt_of_le hn (hissued p).length_le)
      (Nat.lt_of_lt_of_le hm (hissued q).length_le) heq
  clean := by
    intro p n hn
    exact h.clean p n (Nat.lt_of_lt_of_le hn (hissued p).length_le)

theorem Fleet.inv_of_run (hsha : ∀ s, cleanId ("fxp-" ++ env.sha256 s) = "fxp-" ++ env.sha256 s)
    {acts : List FleetAct} {f : Fleet}
    (h : Run (Steps.ofFn (Fleet.step env ids hostOf)) Fleet.initial acts f) (hids : DrawnIds ids f) :
    f.Inv env ids hostOf := by
  induction h with
  | nil => exact Fleet.Inv.initial
  | snoc _ hs ih =>
    have hbefore := hids.before (fun q => Fleet.step_issued hs q)
    exact (ih hbefore).step hbefore hsha hs

/-- In every run of any number of processes, over a network that may delay, repeat and lose what it
likes: what a process has acknowledged was accounted for, and the panel accounts for every batch
at most once exactly when no batch reaches it again after another one of its host and producer. -/
theorem accounted_once_iff (hsha : ∀ s, cleanId ("fxp-" ++ env.sha256 s) = "fxp-" ++ env.sha256 s)
    {acts : List FleetAct} {f : Fleet}
    (h : Run (Steps.ofFn (Fleet.step env ids hostOf)) Fleet.initial acts f) (hids : DrawnIds ids f) :
    (∀ q ∈ f.acknowledged, ∃ b, batchOf hostOf q = some b ∧ b ∈ f.panel.accounted) ∧
    (((∀ b, f.panel.accounted.count b ≤ 1) ∧
      (∀ q ∈ f.acknowledged, ∃ b, batchOf hostOf q = some b ∧ f.panel.accounted.count b = 1)) ↔
        LastSeen.InOrder f.arrivals) := by
  have hinv := Fleet.inv_of_run hsha h hids
  have hmem : ∀ q ∈ f.acknowledged, ∃ b, batchOf hostOf q = some b ∧ b ∈ f.panel.accounted := by
    intro q hq
    obtain ⟨b, hb, hbatch⟩ := hinv.acknowledged q hq
    refine ⟨b, hbatch, ?_⟩
    rw [hinv.panel.accounted, LastSeen.mem_accepted]
    exact hb
  refine ⟨hmem, ?_⟩
  rw [← LastSeen.accepted_nodup_iff, ← hinv.panel.accounted, List.nodup_iff_count_le_one]
  refine ⟨fun hall => hall.1, fun hcount => ⟨hcount, fun q hq => ?_⟩⟩
  obtain ⟨b, hbatch, hb⟩ := hmem q hq
  exact ⟨b, hbatch, Nat.le_antisymm (hcount b) (List.count_pos_iff.mpr hb)⟩

end

def twoIds (process _ : Nat) : String := if process = 0 then "fxp-a" else "fxp-b"

def shortHash : Env := ⟨fun s => s, fun _ => "0", fun _ => ""⟩

def oneHost (token : String) : Option { hostId : Nat // 0 < hostId } :=
  if token = "token" then some ⟨5, by decide⟩ else none

def oneKey : Key := ⟨"", "https://panel", "token", fxpTrafficProducerID shortHash entryConfig⟩

theorem shortHash_clean (s : String) : cleanId ("fxp-" ++ shortHash.sha256 s) = "fxp-" ++ shortHash.sha256 s := by
  have hclean : cleanId "fxp-0" = "fxp-0" := by decide +kernel
  exact hclean

theorem twoIds_drawn {f : Fleet} (h₀ : (f.reporters 0).issued.length ≤ 1)
    (h₁ : (f.reporters 1).issued.length ≤ 1)
    (hrest : ∀ p, (f.reporters (p + 2)).issued.length = 0) : DrawnIds twoIds f := by
  have hclean : ∀ p n, cleanId (twoIds p n) = twoIds p n ∧ twoIds p n ≠ "" := by
    intro p n
    unfold twoIds
    split
    · decide +kernel
    · decide +kernel
  refine ⟨fun p q n m hn hm heq => ?_, fun p n _ => hclean p n⟩
  match p, q with
  | 0, 0 => exact ⟨rfl, by omega⟩
  | 0, 1 => exact absurd heq (by simp [twoIds])
  | 1, 0 => exact absurd heq (by simp [twoIds])
  | 1, 1 => exact ⟨rfl, by omega⟩
  | p + 2, _ =>
    rw [hrest p] at hn
    omega
  | _, q + 2 =>
    rw [hrest q] at hm
    omega

/-- Two processes of one tunnel, rule and port. The answer to the report of process 0 is lost, and it
posts the report again before process 1 reports. -/
def retriedInOrder : List FleetAct :=
  [.enqueue 0 entryConfig 10 0 [], .flush 0 [oneKey], .post 0 oneKey, .arrive 0, .fail 0,
    .flush 0 [oneKey], .post 0 oneKey, .arrive 1, .succeed 0,
    .enqueue 1 entryConfig 20 0 [], .flush 1 [oneKey], .post 1 oneKey, .arrive 2, .succeed 1]

theorem accounted_once_retried : ∃ f,
    exec (Fleet.step shortHash twoIds oneHost) Fleet.initial retriedInOrder = some f ∧
    f.arrivals = [((5, "fxp-0"), "fxp-a"), ((5, "fxp-0"), "fxp-a"), ((5, "fxp-0"), "fxp-b")] ∧
    f.acknowledged.length = 2 ∧ (∀ b, f.panel.accounted.count b ≤ 1) ∧
    ∀ q ∈ f.acknowledged, ∃ b, batchOf oneHost q = some b ∧ f.panel.accounted.count b = 1 := by
  obtain ⟨f, hexec, harrivals, hacknowledged, h₀, h₁, hrest⟩ : ∃ f,
      exec (Fleet.step shortHash twoIds oneHost) Fleet.initial retriedInOrder = some f ∧
      f.arrivals = [((5, "fxp-0"), "fxp-a"), ((5, "fxp-0"), "fxp-a"), ((5, "fxp-0"), "fxp-b")] ∧
      f.acknowledged.length = 2 ∧ (f.reporters 0).issued.length = 1 ∧
      (f.reporters 1).issued.length = 1 ∧ ∀ p, (f.reporters (p + 2)).issued.length = 0 :=
    ⟨_, rfl, rfl, rfl, rfl, rfl, fun _ => rfl⟩
  have hids := twoIds_drawn (f := f) (Nat.le_of_eq h₀) (Nat.le_of_eq h₁) hrest
  have horder : LastSeen.InOrder f.arrivals := by
    rw [harrivals]
    exact (LastSeen.accepted_nodup_iff _).mp (by decide)
  obtain ⟨honce, hall⟩ := (accounted_once_iff shortHash_clean (exec_run hexec) hids).2.mpr horder
  exact ⟨f, hexec, harrivals, hacknowledged, honce, hall⟩

/-- Two processes of one tunnel, rule and port: the answer to the first report of process 0 is lost,
process 1 reports, and process 0 posts its report again. -/
def oldAndNew : List FleetAct :=
  [.enqueue 0 entryConfig 10 0 [], .flush 0 [oneKey], .post 0 oneKey, .arrive 0, .fail 0,
    .enqueue 1 entryConfig 20 0 [], .flush 1 [oneKey], .post 1 oneKey, .arrive 1, .succeed 1,
    .flush 0 [oneKey], .post 0 oneKey, .arrive 2, .succeed 0]

theorem report_accounted_twice : ∃ f,
    Run (Steps.ofFn (Fleet.step shortHash twoIds oneHost)) Fleet.initial oldAndNew f ∧
    DrawnIds twoIds f ∧ f.panel.accounted.count ((5, "fxp-0"), "fxp-a") = 2 := by
  obtain ⟨f, hexec, hcount, h₀, h₁, hrest⟩ : ∃ f,
      exec (Fleet.step shortHash twoIds oneHost) Fleet.initial oldAndNew = some f ∧
      f.panel.accounted.count ((5, "fxp-0"), "fxp-a") = 2 ∧ (f.reporters 0).issued.length = 1 ∧
      (f.reporters 1).issued.length = 1 ∧ ∀ p, (f.reporters (p + 2)).issued.length = 0 :=
    ⟨_, rfl, rfl, rfl, rfl, fun _ => rfl⟩
  exact ⟨f, exec_run hexec, twoIds_drawn (Nat.le_of_eq h₀) (Nat.le_of_eq h₁) hrest, hcount⟩

end ForwardX.Panel
