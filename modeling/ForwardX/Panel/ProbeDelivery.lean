import ForwardX.Lib.Prefixes
import ForwardX.Lib.Transition
import ForwardX.Panel.ProbeCounter

/- Probe snapshots on their way: the agents count (`tcping_report_gate.go`), the network
   delivers any of the reports any number of times, and the panel stores what its gate lets
   through (`agentProbeCounterReportGate.ts`, `probeCounterRepository.ts`).

   `State.made` records every batch of probes under the epoch it was counted in. Every
   snapshot of an epoch names a position in that history and the position before its batch,
   with the successes up to both (`OnPath`); a stored row is such a snapshot (`Inv`). -/
namespace ForwardX.Probe

open Transition Prefixes

/-- Probes that were counted together, in the order in which they were made. -/
structure Batch where
  hostId : Nat
  key : String
  epoch : String
  probes : List Bool
  deriving DecidableEq, Repr

structure Flight where
  rows : List Snapshot
  updates : List (Stream × Saved)
  recordedAt : Int
  deriving DecidableEq, Repr

/-- The agents of the hosts, what they made and sent, and the panel. -/
structure State where
  agents : Nat → List Counter
  made : List Batch
  log : List (Nat × Sample)
  gate : PanelGate
  flights : List Flight
  rows : List Row

def State.initial : State :=
  { agents := fun _ => [], made := [], log := [], gate := {}, flights := [], rows := [] }

inductive Act
  /-- A report with its probes passes `countReports`; `draw` is what `rand.Read` gives. -/
  | count (hostId : Nat) (kind : Kind) (r : Report) (probes : List Bool) (draw : Option String) (now : Int)
  | expire (hostId : Nat) (now : Int)
  | restartAgent (hostId : Nat)
  /-- A request of the host with these of its reports arrives. -/
  | receive (hostId : Nat) (reports : List Sample) (force : Bool) (now recordedAt : Int)
  /-- The next statement of a request's insertion. -/
  | insert (i : Nat)
  | commit (i : Nat)
  | fail (i : Nat)
  | restartPanel
  /-- Rows that are older than the retention are deleted. -/
  | prune (cutoff : Int)

def Measured (r : Report) (probes : List Bool) : Prop :=
  r.probeCount = some (probes.length : Int) ∧ r.probeSuccesses = some (probes.countP id : Int)
    ∧ 1 ≤ probes.length ∧ probes.length ≤ 1024

instance (r : Report) (probes : List Bool) : Decidable (Measured r probes) :=
  inferInstanceAs (Decidable (_ ∧ _ ∧ _ ∧ _))

def Fresh (made : List Batch) (epoch : String) : Prop := ∀ b ∈ made, b.epoch ≠ epoch

instance (made : List Batch) (epoch : String) : Decidable (Fresh made epoch) :=
  inferInstanceAs (Decidable (∀ b ∈ made, _))

def batchOf (hostId : Nat) (key : String) (probes : List Bool) (totals : Option Totals) : List Batch :=
  (totals.map (fun t => { hostId, key, epoch := t.probeCounterEpoch, probes })).toList

def State.setAgent (s : State) (hostId : Nat) (counters : List Counter) : State :=
  { s with agents := fun h => if h = hostId then counters else s.agents h }

/-- The statements of `insertProbeCounterSnapshots` hold this many rows. -/
def insertChunk : Nat := 80

variable (env : Env)

def step (s : State) : Act → Option State
  | .count hostId kind r probes draw now =>
    if Measured r probes ∧ ∀ epoch ∈ draw, Fresh s.made epoch then
      let counted := countReport env.sha256 (s.agents hostId) kind r draw now
      some { s.setAgent hostId counted.1 with
        made := s.made ++ batchOf hostId (counterKey env.sha256 kind r) probes counted.2.totals
        log := s.log ++ [(hostId, counted.2)] }
    else none
  | .expire hostId now => some (s.setAgent hostId (expireCounters (s.agents hostId) now))
  | .restartAgent hostId => some (s.setAgent hostId [])
  | .receive hostId reports force now recordedAt =>
    if ∀ x ∈ reports, (hostId, x) ∈ s.log then
      let planned := s.gate.plan (reports.filterMap (collectCounter env hostId)) force now
      some { s with
        gate := planned.1
        flights := s.flights ++ [{ rows := planned.2.rows, updates := planned.2.updates,
                                   recordedAt := recordedAt / 1000 }] }
    else none
  | .insert i => s.flights[i]?.map fun f =>
      { s with
        flights := s.flights.set i { f with rows := f.rows.drop insertChunk }
        rows := insertBatch f.recordedAt s.rows (f.rows.take insertChunk) }
  | .commit i => (s.flights[i]?.filter (fun f => f.rows.isEmpty)).map fun f =>
      { s with gate := s.gate.commit f.updates, flights := s.flights.eraseIdx i }
  | .fail i => some { s with flights := s.flights.eraseIdx i }
  | .restartPanel => some { s with gate := {}, flights := [] }
  | .prune cutoff => some { s with rows := s.rows.filter (fun r => ¬ r.recordedAt < cutoff) }

abbrev steps : Steps State Act := Steps.ofFn (step env)

/-! ### The history of an epoch -/

def history (made : List Batch) (epoch : String) : List Bool :=
  (made.filter (fun b => b.epoch = epoch)).flatMap Batch.probes

/-- The successes among the first `n` probes. -/
abbrev hits (l : List Bool) (n : Nat) : Nat := countUpTo id l n

theorem history_append (made more : List Batch) (epoch : String) :
    history (made ++ more) epoch = history made epoch ++ history more epoch := by
  simp [history]

theorem history_of_fresh {made : List Batch} {epoch : String} (h : Fresh made epoch) :
    history made epoch = [] := by
  have hnone : made.filter (fun b => b.epoch = epoch) = [] :=
    List.filter_eq_nil_iff.mpr fun b hb => by simpa using h b hb
  rw [history, hnone, List.flatMap_nil]

/-- The numbers of a snapshot name two positions of a history, the end and the start of its
batch, and the successes up to both. -/
structure OnPath (l : List Bool) (totalCount totalSuccesses batchCount batchSuccesses : Nat) : Prop where
  within : totalCount ≤ l.length
  batch : batchCount ≤ totalCount
  total : totalSuccesses = hits l totalCount
  start : totalSuccesses = hits l (totalCount - batchCount) + batchSuccesses

/-- A history only grows at the end, so what was on its path stays there. -/
theorem OnPath.append {l : List Bool} {n m b c : Nat} (h : OnPath l n m b c) (more : List Bool) :
    OnPath (l ++ more) n m b c where
  within := h.within.trans (by rw [List.length_append]; omega)
  batch := h.batch
  total := by rw [hits, countUpTo_append _ more h.within]; exact h.total
  start := by
    have hle : n - b ≤ l.length := (Nat.sub_le n b).trans h.within
    rw [hits, countUpTo_append _ more hle]
    exact h.start

/-- The snapshot after a batch is on the path of the history that ends with the batch. -/
theorem OnPath.of_batch (l probes : List Bool) :
    OnPath (l ++ probes) (l.length + probes.length) (l.countP id + probes.countP id) probes.length
      (probes.countP id) where
  within := by rw [List.length_append]
  batch := Nat.le_add_left _ _
  total := by
    have := countUpTo_length id (l ++ probes)
    rw [List.length_append, List.countP_append] at this
    exact this.symm
  start := by
    rw [Nat.add_sub_cancel, hits, countUpTo_append id probes le_rfl, countUpTo_length]

/-! ### The agents -/

def Owned (made : List Batch) (hostId : Nat) (key epoch : String) : Prop :=
  ∃ b ∈ made, b.hostId = hostId ∧ b.key = key ∧ b.epoch = epoch

theorem Owned.append {made : List Batch} {h : Nat} {key epoch : String} (howned : Owned made h key epoch)
    (more : List Batch) : Owned (made ++ more) h key epoch := by
  obtain ⟨b, hb, hrest⟩ := howned
  exact ⟨b, List.mem_append_left _ hb, hrest⟩

structure AgentInv (agents : Nat → List Counter) (made : List Batch) (log : List (Nat × Sample)) : Prop where
  owner : ∀ b ∈ made, ∀ b' ∈ made, b.epoch = b'.epoch → b.hostId = b'.hostId ∧ b.key = b'.key
  keys : ∀ h, ((agents h).map Counter.key).Nodup
  counted : ∀ h, ∀ c ∈ agents h, c.count = (history made c.epoch).length
    ∧ c.successes = (history made c.epoch).countP id ∧ Owned made h c.key c.epoch
  logged : ∀ e ∈ log, ∀ t ∈ e.2.totals,
    OnPath (history made t.probeCounterEpoch) t.probeTotalCount t.probeTotalSuccesses
      (reportCount e.2.report) (reportSuccesses e.2.report)
    ∧ Owned made e.1 (counterKey env.sha256 e.2.kind e.2.report) t.probeCounterEpoch

section
variable {env} {agents : Nat → List Counter} {made : List Batch} {log : List (Nat × Sample)}

theorem AgentInv.owned_unique (h : AgentInv env agents made log) {host host' : Nat} {key key' epoch : String}
    (ho : Owned made host key epoch) (ho' : Owned made host' key' epoch) : host = host' ∧ key = key' := by
  obtain ⟨b, hb, rfl, rfl, rfl⟩ := ho
  obtain ⟨b', hb', rfl, rfl, hepoch⟩ := ho'
  exact h.owner b hb b' hb' hepoch.symm

theorem AgentInv.shrink (h : AgentInv env agents made log) {host : Nat} {counters : List Counter}
    (hsub : counters.Sublist (agents host)) :
    AgentInv env (fun i => if i = host then counters else agents i) made log where
  owner := h.owner
  keys := by
    intro i
    split
    · subst i
      exact (h.keys host).sublist (hsub.map _)
    · exact h.keys i
  counted := by
    intro i c hc
    split at hc
    · subst i
      exact h.counted host c (hsub.subset hc)
    · exact h.counted i c hc
  logged := h.logged

theorem AgentInv.log_uncounted (h : AgentInv env agents made log) (host : Nat) (kind : Kind) (r : Report) :
    AgentInv env agents made (log ++ [(host, ⟨kind, r, none⟩)]) where
  owner := h.owner
  keys := h.keys
  counted := h.counted
  logged := by
    intro e he t ht
    rcases List.mem_append.mp he with he | he
    · exact h.logged e he t ht
    · obtain rfl := List.mem_singleton.mp he
      cases ht

/-- The counter that a report adds to holds the history of its epoch, and no other counter or
batch has that epoch. -/
theorem AgentInv.source (h : AgentInv env agents made log) {host : Nat} {key : String} {c : Counter}
    {draw : Option String} (hkey : c.key = key) (hfresh : ∀ epoch ∈ draw, Fresh made epoch)
    (hfrom : c ∈ agents host ∨ draw = some c.epoch ∧ c.count = 0 ∧ c.successes = 0) :
    c.count = (history made c.epoch).length ∧ c.successes = (history made c.epoch).countP id
      ∧ ∀ host' key', Owned made host' key' c.epoch → host' = host ∧ key' = key := by
  rcases hfrom with hmem | ⟨hdraw, hcount, hsuccesses⟩
  · obtain ⟨hcount, hsuccesses, howned⟩ := h.counted host c hmem
    refine ⟨hcount, hsuccesses, fun host' key' howned' => ?_⟩
    rw [hkey] at howned
    exact h.owned_unique howned' howned
  · have hnew := hfresh c.epoch hdraw
    rw [history_of_fresh hnew]
    refine ⟨hcount, hsuccesses, fun host' key' howned => ?_⟩
    obtain ⟨b, hb, -, -, hepoch⟩ := howned
    exact absurd hepoch (hnew b hb)

/-- A counted report: its counter grows with the history of its epoch, and its totals are the
next snapshot of that history. -/
theorem AgentInv.count (h : AgentInv env agents made log) {host : Nat} {kind : Kind} {r : Report}
    {probes : List Bool} {draw : Option String} {now : Int} {c : Counter} {counters : List Counter}
    (hcount : reportCount r = probes.length) (hsuccesses : reportSuccesses r = probes.countP id)
    (hkey : c.key = counterKey env.sha256 kind r) (hfresh : ∀ epoch ∈ draw, Fresh made epoch)
    (hfrom : c ∈ agents host ∨ draw = some c.epoch ∧ c.count = 0 ∧ c.successes = 0)
    (hsub : counters.Sublist
      ((agents host).filter (fun c' => c'.key != counterKey env.sha256 kind r) ++ [{ c with
        count := c.count + reportCount r, successes := c.successes + reportSuccesses r, seenAt := now }])) :
    AgentInv env (fun i => if i = host then counters else agents i)
      (made ++ [⟨host, counterKey env.sha256 kind r, c.epoch, probes⟩])
      (log ++ [(host, ⟨kind, r, some
        ⟨c.epoch, c.count + reportCount r, c.successes + reportSuccesses r⟩⟩)]) := by
  obtain ⟨hlength, hwins, hunique⟩ := h.source hkey hfresh hfrom
  generalize hk : counterKey env.sha256 kind r = key at *
  have hhistory : ∀ epoch, history (made ++ [⟨host, key, c.epoch, probes⟩]) epoch
      = history made epoch ++ if c.epoch = epoch then probes else [] := by
    intro epoch
    rw [history_append]
    by_cases hepoch : c.epoch = epoch <;> simp [history, hepoch]
  have hsame : history (made ++ [⟨host, key, c.epoch, probes⟩]) c.epoch
      = history made c.epoch ++ probes := by rw [hhistory, if_pos rfl]
  have hnew : Owned (made ++ [⟨host, key, c.epoch, probes⟩]) host key c.epoch :=
    ⟨_, List.mem_append_right _ List.mem_cons_self, rfl, rfl, rfl⟩
  -- a counter that is kept has another epoch, whose history does not move
  have hkept : ∀ i, ∀ c' ∈ agents i, ¬ (i = host ∧ c'.key = key) →
      c'.count = (history (made ++ [⟨host, key, c.epoch, probes⟩]) c'.epoch).length
      ∧ c'.successes = (history (made ++ [⟨host, key, c.epoch, probes⟩]) c'.epoch).countP id
      ∧ Owned (made ++ [⟨host, key, c.epoch, probes⟩]) i c'.key c'.epoch := by
    intro i c' hc' hother
    obtain ⟨hlength', hwins', howned'⟩ := h.counted i c' hc'
    have hepoch : c.epoch ≠ c'.epoch := fun hepoch => hother (hunique i c'.key (hepoch ▸ howned'))
    rw [hhistory, if_neg hepoch, List.append_nil]
    exact ⟨hlength', hwins', howned'.append _⟩
  constructor
  case owner =>
    have hlast : ∀ b ∈ made, b.epoch = c.epoch → b.hostId = host ∧ b.key = key :=
      fun b hb hepoch => hunique b.hostId b.key ⟨b, hb, rfl, rfl, hepoch⟩
    intro b hb b' hb' hepoch
    rcases List.mem_append.mp hb with hb | hb <;> rcases List.mem_append.mp hb' with hb' | hb'
    · exact h.owner b hb b' hb' hepoch
    · obtain rfl := List.mem_singleton.mp hb'
      exact hlast b hb hepoch
    · obtain rfl := List.mem_singleton.mp hb
      obtain ⟨hhost, hkey'⟩ := hlast b' hb' hepoch.symm
      exact ⟨hhost.symm, hkey'.symm⟩
    · obtain rfl := List.mem_singleton.mp hb
      obtain rfl := List.mem_singleton.mp hb'
      exact ⟨rfl, rfl⟩
  case keys =>
    intro i
    split
    · refine List.Nodup.sublist (hsub.map Counter.key) ?_
      rw [List.map_append, List.nodup_append]
      refine ⟨(h.keys host).sublist (List.filter_sublist.map _), by simp, ?_⟩
      intro k hmem k' hmem' heq
      obtain ⟨c', hc', rfl⟩ := List.mem_map.mp hmem
      have hne := (List.mem_filter.mp hc').2
      rw [List.map_singleton, List.mem_singleton] at hmem'
      rw [heq, hmem', hkey] at hne
      simp at hne
    · exact h.keys i
  case counted =>
    intro i c' hc'
    split at hc'
    · subst i
      rcases List.mem_append.mp (hsub.subset hc') with hmem | hmem
      · obtain ⟨hmem, hne⟩ := List.mem_filter.mp hmem
        exact hkept host c' hmem fun hboth => by simp [hboth.2] at hne
      · obtain rfl := List.mem_singleton.mp hmem
        refine ⟨?_, ?_, ?_⟩
        · rw [hsame, List.length_append, hlength, hcount]
        · rw [hsame, List.countP_append, hwins, hsuccesses]
        · exact hkey ▸ hnew
    · rename_i hi
      exact hkept i c' hc' fun hboth => hi hboth.1
  case logged =>
    intro e he t ht
    rcases List.mem_append.mp he with he | he
    · obtain ⟨hpath, howned⟩ := h.logged e he t ht
      rw [hhistory]
      exact ⟨hpath.append _, howned.append _⟩
    · obtain rfl := List.mem_singleton.mp he
      obtain rfl := Option.some.inj ht
      refine ⟨?_, hk.symm ▸ hnew⟩
      rw [hsame, hlength, hwins, hcount, hsuccesses]
      exact OnPath.of_batch _ probes

end

/-! ### The panel -/

def Collected (log : List (Nat × Sample)) (x : Snapshot) : Prop :=
  ∃ e ∈ log, collectCounter env e.1 e.2 = some x

/-- What holds of what the panel stores or is about to store. -/
structure PanelInv (log : List (Nat × Sample)) (flights : List Flight) (rows : List Row) : Prop where
  flown : ∀ f ∈ flights, ∀ x ∈ f.rows, Collected env log x
  stored : ∀ r ∈ rows, Collected env log r.snapshot

section
variable {env} {log : List (Nat × Sample)} {flights : List Flight} {rows : List Row}

theorem Collected.append {x : Snapshot} (h : Collected env log x) (more : List (Nat × Sample)) :
    Collected env (log ++ more) x := by
  obtain ⟨e, he, hx⟩ := h
  exact ⟨e, List.mem_append_left _ he, hx⟩

theorem PanelInv.log_more (h : PanelInv env log flights rows) (more : List (Nat × Sample)) :
    PanelInv env (log ++ more) flights rows where
  flown := fun f hf x hx => (h.flown f hf x hx).append more
  stored := fun r hr => (h.stored r hr).append more

theorem PanelInv.subset (h : PanelInv env log flights rows) {flights' : List Flight} {rows' : List Row}
    (hflights : flights' ⊆ flights) (hrows : rows' ⊆ rows) : PanelInv env log flights' rows' where
  flown := fun f hf => h.flown f (hflights hf)
  stored := fun r hr => h.stored r (hrows hr)

theorem mem_insertBatch {recordedAt : Int} {batch : List Snapshot} {rows : List Row} {r : Row}
    (hr : r ∈ insertBatch recordedAt rows batch) : r ∈ rows ∨ r.snapshot ∈ batch := by
  induction batch generalizing rows with
  | nil => exact Or.inl hr
  | cons x batch ih =>
    rcases ih hr with hmem | hmem
    · unfold insertRow at hmem
      split at hmem
      · exact Or.inl hmem
      · rcases List.mem_append.mp hmem with hmem | hmem
        · exact Or.inl hmem
        · obtain rfl := List.mem_singleton.mp hmem
          exact Or.inr List.mem_cons_self
    · exact Or.inr (List.mem_cons_of_mem _ hmem)

theorem planned_rows (force : Bool) (now : Int) (xs : List Snapshot) (p : Plan) :
    ∀ x ∈ (xs.foldl (planRow force now) p).rows, x ∈ p.rows ∨ x ∈ xs := by
  induction xs generalizing p with
  | nil => exact fun x hx => Or.inl hx
  | cons y xs ih =>
    intro x hx
    rcases ih (planRow force now p y) x hx with hmem | hmem
    · unfold planRow at hmem
      dsimp only at hmem
      split at hmem
      · exact Or.inl hmem
      · rcases List.mem_append.mp hmem with hmem | hmem
        · exact Or.inl hmem
        · exact Or.inr (List.mem_cons.mpr (Or.inl (List.mem_singleton.mp hmem)))
    · exact Or.inr (List.mem_cons_of_mem _ hmem)

theorem plan_rows (g : PanelGate) (xs : List Snapshot) (force : Bool) (now : Int) :
    ∀ x ∈ (g.plan xs force now).2.rows, x ∈ xs := by
  intro x hx
  rcases planned_rows force now xs _ x hx with hmem | hmem
  · cases hmem
  · exact hmem

theorem PanelInv.receive (h : PanelInv env log flights rows) {host : Nat} {reports : List Sample}
    (hsent : ∀ x ∈ reports, (host, x) ∈ log) (g : PanelGate) (force : Bool) (now recordedAt : Int) :
    PanelInv env log (flights ++ [{
      rows := (g.plan (reports.filterMap (collectCounter env host)) force now).2.rows
      updates := (g.plan (reports.filterMap (collectCounter env host)) force now).2.updates
      recordedAt }]) rows where
  flown := by
    intro f hf x hx
    rcases List.mem_append.mp hf with hf | hf
    · exact h.flown f hf x hx
    · obtain rfl := List.mem_singleton.mp hf
      obtain ⟨report, hreport, hcollect⟩ := List.mem_filterMap.mp (plan_rows g _ force now x hx)
      exact ⟨(host, report), hsent report hreport, hcollect⟩
  stored := h.stored

theorem PanelInv.insert (h : PanelInv env log flights rows) {i : Nat} {f : Flight}
    (hf : flights[i]? = some f) (n : Nat) :
    PanelInv env log (flights.set i { f with rows := f.rows.drop n })
      (insertBatch f.recordedAt rows (f.rows.take n)) where
  flown := by
    intro f' hf' x hx
    rcases List.mem_or_eq_of_mem_set hf' with hf' | rfl
    · exact h.flown f' hf' x hx
    · exact h.flown f (List.mem_of_getElem? hf) x (List.mem_of_mem_drop hx)
  stored := by
    intro r hr
    rcases mem_insertBatch hr with hr | hr
    · exact h.stored r hr
    · exact h.flown f (List.mem_of_getElem? hf) r.snapshot (List.mem_of_mem_take hr)

end

/-! ### The whole system -/

structure Inv (s : State) : Prop where
  agents : AgentInv env s.agents s.made s.log
  panel : PanelInv env s.log s.flights s.rows

variable {env}

theorem inv_initial : Inv env State.initial where
  agents := {
    owner := fun _ hb => absurd hb List.not_mem_nil
    keys := fun _ => List.nodup_nil
    counted := fun _ _ hc => absurd hc List.not_mem_nil
    logged := fun _ he => absurd he List.not_mem_nil }
  panel := {
    flown := fun _ hf => absurd hf List.not_mem_nil
    stored := fun _ hr => absurd hr List.not_mem_nil }

theorem Inv.count {s : State} (h : Inv env s) {host : Nat} {kind : Kind} {r : Report} {probes : List Bool}
    {draw : Option String} {now : Int} (hmeasured : Measured r probes)
    (hfresh : ∀ epoch ∈ draw, Fresh s.made epoch) {counted : List Counter × Sample}
    (hcounted : countReport env.sha256 (s.agents host) kind r draw now = counted) :
    Inv env { s.setAgent host counted.1 with
      made := s.made ++ batchOf host (counterKey env.sha256 kind r) probes counted.2.totals
      log := s.log ++ [(host, counted.2)] } := by
  obtain ⟨hcount, hsuccesses, hpos, hle⟩ := hmeasured
  have hcount' := reportCount_of_measured hcount hpos hle
  have hsuccesses' := reportSuccesses_of_measured hcount' hsuccesses List.countP_le_length
  obtain ⟨counters, sample⟩ := counted
  rcases countReport_cases env.sha256 (s.agents host) kind r draw now with
    ⟨hsample, hsub⟩ | ⟨c, hkey, hfrom, hsample, hsub⟩
  · rw [hcounted] at hsample hsub
    obtain rfl : sample = ⟨kind, r, none⟩ := hsample
    refine ⟨?_, h.panel.log_more _⟩
    have := (h.agents.shrink hsub).log_uncounted host kind r
    simpa [State.setAgent, batchOf] using this
  · rw [hcounted] at hsample hsub
    subst hsample
    exact ⟨h.agents.count hcount' hsuccesses' hkey hfresh hfrom hsub, h.panel.log_more _⟩

theorem Inv.step {s s' : State} {a : Act} (h : Inv env s) (hstep : steps env s a s') : Inv env s' := by
  cases a with
  | count host kind r probes draw now =>
    obtain ⟨hok, hs⟩ := Option.ite_none_right_eq_some.mp hstep
    obtain rfl := Option.some.inj hs
    exact h.count hok.1 hok.2 rfl
  | expire host now =>
    obtain rfl := Option.some.inj hstep
    exact ⟨h.agents.shrink (expireCounters_sublist _ now), h.panel⟩
  | restartAgent host =>
    obtain rfl := Option.some.inj hstep
    exact ⟨h.agents.shrink (List.nil_sublist _), h.panel⟩
  | receive host reports force now recordedAt =>
    obtain ⟨hsent, hs⟩ := Option.ite_none_right_eq_some.mp hstep
    obtain rfl := Option.some.inj hs
    exact ⟨h.agents, h.panel.receive hsent s.gate force now _⟩
  | insert i =>
    obtain ⟨f, hf, rfl⟩ := Option.map_eq_some_iff.mp hstep
    exact ⟨h.agents, h.panel.insert hf insertChunk⟩
  | commit i =>
    obtain ⟨f, hf, rfl⟩ := Option.map_eq_some_iff.mp hstep
    exact ⟨h.agents, h.panel.subset (List.eraseIdx_sublist _ i).subset (List.Subset.refl _)⟩
  | fail i =>
    obtain rfl := Option.some.inj hstep
    exact ⟨h.agents, h.panel.subset (List.eraseIdx_sublist _ i).subset (List.Subset.refl _)⟩
  | restartPanel =>
    obtain rfl := Option.some.inj hstep
    exact ⟨h.agents, h.panel.subset (List.nil_subset _) (List.Subset.refl _)⟩
  | prune cutoff =>
    obtain rfl := Option.some.inj hstep
    exact ⟨h.agents, h.panel.subset (List.Subset.refl _) List.filter_sublist.subset⟩

theorem inv_of_run {acts : List Act} {s : State} (hrun : Run (steps env) State.initial acts s) : Inv env s :=
  hrun.preserves (fun _ _ _ hstep h => h.step hstep) inv_initial

structure Pass where
  report : Report
  probes : List Bool
  draw : Option String

variable (env) in
/-- A call of `countReports` is its passes one after the other: the agent ends with the counters
that the call leaves, and what the call returns is sent. -/
theorem exec_countReports {host : Nat} {kind : Kind} {now : Int} (passes : List Pass) {s s' : State}
    (h : exec (step env) s (passes.map fun p => .count host kind p.report p.probes p.draw now) = some s') :
    s'.agents host = (countReports env.sha256 (s.agents host) kind now
        (passes.map fun p => (p.report, p.draw))).1 ∧
    s'.log = s.log ++ ((countReports env.sha256 (s.agents host) kind now
        (passes.map fun p => (p.report, p.draw))).2).map (fun x => (host, x)) := by
  induction passes generalizing s with
  | nil =>
    obtain rfl := Option.some.inj h
    simp [countReports]
  | cons p passes ih =>
    rw [List.map_cons, exec, Option.bind_eq_some_iff] at h
    obtain ⟨t, ht, hrest⟩ := h
    obtain ⟨-, ht⟩ := Option.ite_none_right_eq_some.mp ht
    obtain rfl := Option.some.inj ht
    obtain ⟨hagents, hlog⟩ := ih hrest
    simp only [State.setAgent, if_true] at hagents hlog
    simp only [List.map_cons, countReports]
    exact ⟨hagents, by rw [hlog, List.append_assoc]; rfl⟩

end ForwardX.Probe
