import Mathlib.Algebra.Order.Ring.Int
import Mathlib.Tactic.Linarith
import ForwardX.Agent.ActionStatus

/- Which report of an action the panel stores in the end (`action_status.go`,
   `agentStatusOrdering.ts`).

   The agent sends for each key the last report it enqueued and did not drop, again and
   again until a post succeeds (`AgentInv`). The panel stores the last report it processed
   of those with the largest `IssuedAt` (`PanelInv`). Both compare `IssuedAt` only, so
   reports that share one are stored in the order in which they are processed
   (`older_status_stored`); of the others the newest wins (`newest_status_stored`). -/
namespace ForwardX.Agent.Status

open Transition

/-! ### The queue -/

def Filed (reports : List (StatusKey × Report)) : Prop := ∀ k r, reports.lookup k = some r → r.key = k

/-- What is taken comes off the front of the order, and out of the pending reports. -/
theorem takeReports_spec : ∀ (limit : Nat) (order : List StatusKey) (reports : List (StatusKey × Report)),
    order.Nodup → (∀ k ∈ order, ∃ r, reports.lookup k = some r) → Filed reports →
    ∃ taken rest left, takeReports limit order reports = (taken, rest, left) ∧
      order = taken.map Report.key ++ rest ∧ (∀ r ∈ taken, reports.lookup r.key = some r) ∧
      ∀ k, left.lookup k = if k ∈ taken.map Report.key then none else reports.lookup k
  | 0, order, reports, _, _, _ => ⟨[], order, reports, by simp [takeReports], by simp, by simp, by simp⟩
  | limit + 1, [], reports, _, _, _ => ⟨[], [], reports, by simp [takeReports], by simp, by simp, by simp⟩
  | limit + 1, key :: order, reports, hnodup, hfound, hfiled => by
    obtain ⟨report, hreport⟩ := hfound key List.mem_cons_self
    have hkey := hfiled key report hreport
    have hrest : ∀ k ∈ order, ∃ r, (Assoc.erase reports key).lookup k = some r := by
      intro k hk
      obtain ⟨r, hr⟩ := hfound k (List.mem_cons_of_mem _ hk)
      have hne : k ≠ key := fun heq => (List.nodup_cons.mp hnodup).1 (heq ▸ hk)
      exact ⟨r, (Assoc.lookup_erase_ne reports hne).trans hr⟩
    have hfiled' : Filed (Assoc.erase reports key) := by
      intro k r hr
      by_cases hk : k = key
      · rw [hk, Assoc.lookup_erase_self] at hr
        cases hr
      · exact hfiled k r ((Assoc.lookup_erase_ne reports hk).symm.trans hr)
    obtain ⟨taken, rest, left, htake, hsplit, hmem, hleft⟩ :=
      takeReports_spec limit order (Assoc.erase reports key) (List.nodup_cons.mp hnodup).2 hrest hfiled'
    refine ⟨report :: taken, rest, left, ?_, ?_, ?_, ?_⟩
    · simp only [takeReports, hreport, htake]
    · rw [List.map_cons, List.cons_append, hkey, ← hsplit]
    · intro r hr
      rcases List.mem_cons.mp hr with rfl | hr
      · rw [hkey]
        exact hreport
      · have hne : r.key ≠ key := by
          intro heq
          have hlost := hmem r hr
          rw [heq, Assoc.lookup_erase_self] at hlost
          cases hlost
        exact (Assoc.lookup_erase_ne reports hne).symm.trans (hmem r hr)
    · intro k
      rw [hleft k, List.map_cons, hkey]
      by_cases hk : k = key
      · simp [hk]
      · simp [hk, Assoc.lookup_erase_ne reports hk]

/-- What is put back: the reports of the batch that are not stale and have no newer one pending. -/
theorem restoreReports_spec (q : Queue) : ∀ batch : List Report, (batch.map Report.key).Nodup →
    (∀ k r, (restoreReports q batch).1.lookup k = some r ↔ q.reports.lookup k = some r ∨
      q.reports.lookup k = none ∧ r ∈ batch ∧ r.key = k ∧ q.stale r.key r.payload.issuedAt = false) ∧
    (restoreReports q batch).2.Nodup ∧
    ∀ k, k ∈ (restoreReports q batch).2 ↔ q.reports.lookup k = none ∧
      ∃ r ∈ batch, r.key = k ∧ q.stale r.key r.payload.issuedAt = false
  | [], _ => by simp [restoreReports]
  | report :: rest, hnodup => by
    rw [List.map_cons, List.nodup_cons] at hnodup
    obtain ⟨hlookup, hnd, hkeys⟩ := restoreReports_spec q rest hnodup.2
    have hother : ∀ r ∈ rest, r.key ≠ report.key := fun r hr heq => hnodup.1 (heq ▸ List.mem_map_of_mem hr)
    -- the key of the report is pending after the others only if it was before
    have hpending : (restoreReports q rest).1.lookup report.key = q.reports.lookup report.key := by
      refine Option.ext fun r => ?_
      rw [hlookup]
      constructor
      · intro h
        rcases h with h | ⟨_, hr, hk, _⟩
        · exact h
        · exact absurd hk (hother r hr)
      · exact Or.inl
    by_cases hback : q.reports.lookup report.key = none ∧ q.stale report.key report.payload.issuedAt = false
    · have hput : restoreReports q (report :: rest) =
          (Assoc.put (restoreReports q rest).1 report.key report, report.key :: (restoreReports q rest).2) := by
        simp [restoreReports, hback.2, hpending, hback.1]
      rw [hput]
      refine ⟨fun k r => ?_, List.nodup_cons.mpr ⟨fun hk => ?_, hnd⟩, fun k => ?_⟩
      · by_cases hk : k = report.key
        · subst hk
          rw [Assoc.lookup_put_self]
          constructor
          · intro h
            obtain rfl := Option.some.inj h
            exact Or.inr ⟨hback.1, List.mem_cons_self, rfl, hback.2⟩
          · intro h
            rcases h with h | ⟨_, hr, hk, _⟩
            · rw [hback.1] at h
              cases h
            · rcases List.mem_cons.mp hr with rfl | hr
              · rfl
              · exact absurd hk (hother r hr)
        · rw [Assoc.lookup_put_ne _ hk, hlookup]
          constructor
          · exact fun h => h.imp_right fun ⟨hn, hr, hrest⟩ => ⟨hn, List.mem_cons_of_mem _ hr, hrest⟩
          · refine fun h => h.imp_right fun ⟨hn, hr, hrk, hfresh⟩ => ⟨hn, ?_, hrk, hfresh⟩
            rcases List.mem_cons.mp hr with rfl | hr
            · exact absurd hrk.symm hk
            · exact hr
      · obtain ⟨_, r, hr, hrk, _⟩ := (hkeys report.key).mp hk
        exact hother r hr hrk
      · rw [List.mem_cons, hkeys]
        constructor
        · intro h
          rcases h with rfl | ⟨hn, r, hr, hrest⟩
          · exact ⟨hback.1, report, List.mem_cons_self, rfl, hback.2⟩
          · exact ⟨hn, r, List.mem_cons_of_mem _ hr, hrest⟩
        · intro ⟨hn, r, hr, hrk, hfresh⟩
          rcases List.mem_cons.mp hr with rfl | hr
          · exact Or.inl hrk.symm
          · exact Or.inr ⟨hn, r, hr, hrk, hfresh⟩
    · have hskip : restoreReports q (report :: rest) = restoreReports q rest := by
        by_cases hstale : q.stale report.key report.payload.issuedAt = true
        · simp [restoreReports, hstale]
        · have hsome : (q.reports.lookup report.key).isSome := by
            rw [Bool.not_eq_true] at hstale
            exact Option.isSome_iff_ne_none.mpr fun hnone => hback ⟨hnone, hstale⟩
          simp [restoreReports, hstale, hpending, hsome]
      rw [hskip]
      have hnot : ∀ r k, q.reports.lookup k = none → r ∈ report :: rest → r.key = k →
          q.stale r.key r.payload.issuedAt = false → r ∈ rest := by
        intro r k hn hr hk hfresh
        rcases List.mem_cons.mp hr with rfl | hr
        · exact absurd ⟨hk ▸ hn, hfresh⟩ hback
        · exact hr
      refine ⟨fun k r => ?_, hnd, fun k => ?_⟩
      · rw [hlookup]
        constructor
        · exact fun h => h.imp_right fun ⟨hn, hr, hrest⟩ => ⟨hn, List.mem_cons_of_mem _ hr, hrest⟩
        · exact fun h => h.imp_right fun ⟨hn, hr, hk, hfresh⟩ => ⟨hn, hnot r k hn hr hk hfresh, hk, hfresh⟩
      · rw [hkeys]
        constructor
        · exact fun ⟨hn, r, hr, hrest⟩ => ⟨hn, r, List.mem_cons_of_mem _ hr, hrest⟩
        · exact fun ⟨hn, r, hr, hk, hfresh⟩ => ⟨hn, r, hnot r k hn hr hk hfresh, hk, hfresh⟩

theorem orderOk_put {q : Queue} (h : OrderOk q) (r : Report) : OrderOk (q.put r) := by
  obtain ⟨hnodup, hmem⟩ := h
  have hlookup : ∀ k, (∃ r', (q.put r).reports.lookup k = some r') ↔ k = r.key ∨ ∃ r', q.reports.lookup k = some r' := by
    intro k
    by_cases hk : k = r.key
    · subst hk
      simp [Queue.put]
    · simp [Queue.put, Assoc.lookup_put_ne _ hk, hk]
  by_cases hpending : (q.reports.lookup r.key).isSome
  · have horder : (q.put r).order = q.order := by simp [Queue.put, hpending]
    refine ⟨horder ▸ hnodup, fun k => ?_⟩
    rw [hlookup, horder, hmem]
    constructor
    · exact Or.inr
    · intro hor
      rcases hor with rfl | hold
      · exact Option.isSome_iff_exists.mp hpending
      · exact hold
  · have horder : (q.put r).order = q.order ++ [r.key] := by simp [Queue.put, hpending]
    have hnew : r.key ∉ q.order := fun hk => hpending (Option.isSome_iff_exists.mpr ((hmem _).mp hk))
    refine ⟨?_, fun k => ?_⟩
    · rw [horder]
      exact List.nodup_append.mpr ⟨hnodup, List.nodup_singleton _,
        fun a ha b hb hab => hnew (List.mem_singleton.mp hb ▸ hab ▸ ha)⟩
    · rw [hlookup, horder, List.mem_append, List.mem_singleton, hmem, or_comm]

theorem orderOk_restore {q : Queue} (h : OrderOk q) {batch : List Report} (hbatch : (batch.map Report.key).Nodup) :
    OrderOk (q.restore batch) := by
  obtain ⟨hnodup, hmem⟩ := h
  obtain ⟨hlookup, hnd, hkeys⟩ := restoreReports_spec q batch hbatch
  constructor
  · refine List.nodup_append.mpr ⟨hnd, hnodup, fun a ha b hb hab => ?_⟩
    obtain ⟨hnone, _⟩ := (hkeys a).mp ha
    obtain ⟨r, hr⟩ := (hmem b).mp hb
    rw [← hab, hnone] at hr
    cases hr
  · intro k
    have hwhere : k ∈ (q.restore batch).order ↔ k ∈ (restoreReports q batch).2 ∨ k ∈ q.order := List.mem_append
    rw [hwhere, hkeys, hmem]
    constructor
    · intro h
      rcases h with ⟨hnone, r, hr, hk, hfresh⟩ | ⟨r, hr⟩
      · exact ⟨r, (hlookup k r).mpr (Or.inr ⟨hnone, hr, hk, hfresh⟩)⟩
      · exact ⟨r, (hlookup k r).mpr (Or.inl hr)⟩
    · intro ⟨r, hr⟩
      rcases (hlookup k r).mp hr with hold | ⟨hnone, hmem', hk, hfresh⟩
      · exact Or.inr ⟨r, hold⟩
      · exact Or.inl ⟨hnone, r, hmem', hk, hfresh⟩

/-! ### The agent's invariant -/

def System.Newest (s : System) (r : Report) : Prop := ∀ r' ∈ s.enqueued, r'.key = r.key → r'.seq ≤ r.seq

/-- What is known of a batch that is being sent: every report of it is processed, or still to be posted. -/
structure SendingOk (s : System) (sending : Sending) : Prop where
  keys : (sending.batch.map Report.key).Nodup
  batch : ∀ r ∈ sending.batch, r ∈ s.enqueued ∧ (s.Newest r ∨ ∃ r', s.queue.reports.lookup r.key = some r')
  todo : ∀ post ∈ sending.todo, ∀ r ∈ post.reports, r ∈ sending.batch
  awaiting : ∀ request post, sending.awaiting = some (request, post) →
    s.requests[request]? = some post.reports ∧ ∀ r ∈ post.reports, r ∈ sending.batch
  progress : ∀ r ∈ sending.batch, r ∈ s.processed ∨ (∃ post ∈ sending.todo, r ∈ post.reports) ∨
    ∃ request post, sending.awaiting = some (request, post) ∧ r ∈ post.reports

structure AgentInv (s : System) : Prop where
  order : OrderOk s.queue
  filed : Filed s.queue.reports
  pending : ∀ k r, s.queue.reports.lookup k = some r → r ∈ s.enqueued ∧ s.Newest r
  seqs : ∀ r ∈ s.enqueued, r.seq < s.nextSeq
  inj : ∀ r ∈ s.enqueued, ∀ r' ∈ s.enqueued, r.seq = r'.seq → r = r'
  keyed : ∀ r ∈ s.enqueued, r.key = actionStatusReportKey r.payload ∧ r.payload.statusType ≠ "" ∧ 0 < r.payload.issuedAt
  epochs : ∀ r ∈ s.enqueued, ∀ r' ∈ s.enqueued, r.key = r'.key → r.seq ≤ r'.seq → r.payload.issuedAt ≤ r'.payload.issuedAt
  latest : ∀ r ∈ s.enqueued, ∃ i, s.queue.latestIssuedAt.lookup r.key = some i ∧ r.payload.issuedAt ≤ i ∧
    (s.Newest r → i = r.payload.issuedAt)
  sending : ∀ sending, s.sending = some sending → SendingOk s sending
  covered : ∀ r ∈ s.enqueued, s.Newest r → s.queue.reports.lookup r.key = some r ∨
    (∃ sending, s.sending = some sending ∧ r ∈ sending.batch) ∨ r ∈ s.processed
  requests : ∀ rs ∈ s.requests, ∀ r ∈ rs, r ∈ s.enqueued
  delivered : ∀ d ∈ s.delivered, ∃ rs r, s.requests[d.1]? = some rs ∧ rs[d.2]? = some r ∧ r ∈ s.processed
  processed : ∀ r ∈ s.processed, r ∈ s.enqueued

theorem init_agentInv : AgentInv System.init := by
  constructor <;> simp [System.init, OrderOk, Filed]

namespace AgentInv
variable {s : System}

theorem newest_unique (h : AgentInv s) {r r' : Report} (hr : r ∈ s.enqueued) (hr' : r' ∈ s.enqueued)
    (hkey : r.key = r'.key) (hn : s.Newest r) (hn' : s.Newest r') : r = r' :=
  h.inj r hr r' hr' (le_antisymm (hn' r hr hkey) (hn r' hr' hkey.symm))

theorem newest_fresh (h : AgentInv s) {r : Report} (hr : r ∈ s.enqueued) (hn : s.Newest r) :
    s.queue.stale r.key r.payload.issuedAt = false := by
  obtain ⟨i, hi, _, heq⟩ := h.latest r hr
  have hpos := (h.keyed r hr).2.2
  rw [heq hn] at hi
  simp only [Queue.stale, hi, Option.getD_some, Bool.and_eq_false_iff, Bool.or_eq_false_iff, decide_eq_false_iff_not,
    not_le, not_lt]
  exact Or.inr ⟨hpos, le_refl _⟩

theorem skip (h : AgentInv s) : AgentInv { s with nextSeq := s.nextSeq + 1 } :=
  { h with
    seqs := fun r hr => Nat.lt_succ_of_lt (h.seqs r hr)
    sending := fun sending hs =>
      let hok := h.sending sending hs
      ⟨hok.keys, hok.batch, hok.todo, hok.awaiting, hok.progress⟩ }

theorem le_of_fresh (h : AgentInv s) {key : StatusKey} {issuedAt : Int}
    (hfresh : s.queue.stale key issuedAt = false) {r : Report} (hr : r ∈ s.enqueued) (hkey : r.key = key) :
    r.payload.issuedAt ≤ issuedAt ∧ ∀ i, s.queue.latestIssuedAt.lookup key = some i → i ≤ issuedAt := by
  obtain ⟨i, hi, hle, _⟩ := h.latest r hr
  have hpos := (h.keyed r hr).2.2
  rw [hkey] at hi
  simp only [Queue.stale, hi, Option.getD_some, Bool.and_eq_false_iff, Bool.or_eq_false_iff, decide_eq_false_iff_not,
    not_le, not_lt] at hfresh
  have hbound : i ≤ issuedAt := by
    rcases hfresh with hnone | ⟨_, hnew⟩
    · exact absurd (lt_of_lt_of_le hpos hle) (not_lt.mpr hnone)
    · exact hnew
  refine ⟨hle.trans hbound, fun i' hi' => ?_⟩
  rw [hi] at hi'
  exact Option.some.inj hi' ▸ hbound

theorem enqueue (h : AgentInv s) {r : Report} (hseq : r.seq = s.nextSeq)
    (hkey : r.key = actionStatusReportKey r.payload ∧ r.payload.statusType ≠ "" ∧ 0 < r.payload.issuedAt)
    (hfresh : s.queue.stale r.key r.payload.issuedAt = false) :
    AgentInv { s with queue := s.queue.put r, enqueued := s.enqueued ++ [r], nextSeq := s.nextSeq + 1 } := by
  have hlast : ∀ r' ∈ s.enqueued, r'.seq < r.seq := fun r' hr' => hseq ▸ h.seqs r' hr'
  have hmem : ∀ {r'}, r' ∈ s.enqueued ++ [r] ↔ r' ∈ s.enqueued ∨ r' = r := by
    intro r'
    rw [List.mem_append, List.mem_singleton]
  have hself : (s.queue.put r).reports.lookup r.key = some r := Assoc.lookup_put_self _ _ _
  have hother : ∀ k, k ≠ r.key → (s.queue.put r).reports.lookup k = s.queue.reports.lookup k :=
    fun k hk => Assoc.lookup_put_ne _ hk _
  -- an older report stays the newest of its key unless the key is that of the new one
  have hnewest : ∀ r' ∈ s.enqueued, s.Newest r' → r'.key ≠ r.key →
      System.Newest { s with queue := s.queue.put r, enqueued := s.enqueued ++ [r], nextSeq := s.nextSeq + 1 } r' := by
    intro r' _ hn hk r'' hr'' hk''
    rcases hmem.mp hr'' with hold | rfl
    · exact hn r'' hold hk''
    · exact absurd hk''.symm hk
  constructor
  · exact orderOk_put h.order r
  · intro k r' hr'
    by_cases hk : k = r.key
    · rw [hk, hself] at hr'
      obtain rfl := Option.some.inj hr'
      exact hk.symm
    · exact h.filed k r' ((hother k hk).symm.trans hr')
  · intro k r' hr'
    by_cases hk : k = r.key
    · rw [hk, hself] at hr'
      obtain rfl := Option.some.inj hr'
      refine ⟨hmem.mpr (Or.inr rfl), fun r'' hr'' _ => ?_⟩
      rcases hmem.mp hr'' with hold | rfl
      · exact (hlast r'' hold).le
      · exact le_refl _
    · have hold := (hother k hk).symm.trans hr'
      obtain ⟨hin, hn⟩ := h.pending k r' hold
      exact ⟨hmem.mpr (Or.inl hin), hnewest r' hin hn (h.filed k r' hold ▸ hk)⟩
  · intro r' hr'
    rcases hmem.mp hr' with hold | rfl
    · exact Nat.lt_succ_of_lt (h.seqs r' hold)
    · exact hseq ▸ Nat.lt_succ_self _
  · intro r₁ hr₁ r₂ hr₂ heq
    rcases hmem.mp hr₁ with hold₁ | rfl
    · rcases hmem.mp hr₂ with hold₂ | rfl
      · exact h.inj r₁ hold₁ r₂ hold₂ heq
      · exact absurd heq (hlast r₁ hold₁).ne
    · rcases hmem.mp hr₂ with hold₂ | rfl
      · exact absurd heq.symm (hlast r₂ hold₂).ne
      · rfl
  · intro r' hr'
    rcases hmem.mp hr' with hold | rfl
    · exact h.keyed r' hold
    · exact hkey
  · intro r₁ hr₁ r₂ hr₂ hk hle
    rcases hmem.mp hr₁ with hold₁ | rfl
    · rcases hmem.mp hr₂ with hold₂ | rfl
      · exact h.epochs r₁ hold₁ r₂ hold₂ hk hle
      · exact (h.le_of_fresh hfresh hold₁ hk).1
    · rcases hmem.mp hr₂ with hold₂ | rfl
      · exact absurd hle (not_le.mpr (hlast r₂ hold₂))
      · exact le_refl _
  · intro r' hr'
    by_cases hk : r'.key = r.key
    · -- the latest `IssuedAt` of the key is that of the new report
      have hlatest : (s.queue.put r).latestIssuedAt.lookup r.key = some r.payload.issuedAt := by
        simp only [Queue.put]
        split
        · exact Assoc.lookup_put_self _ _ _
        · rename_i hnot
          rw [not_lt] at hnot
          cases hl : s.queue.latestIssuedAt.lookup r.key with
          | none =>
            rw [hl] at hnot
            exact absurd hkey.2.2 (not_lt.mpr hnot)
          | some i =>
            rw [hl, Option.getD_some] at hnot
            simp only [Queue.stale, hl, Option.getD_some, Bool.and_eq_false_iff, Bool.or_eq_false_iff,
              decide_eq_false_iff_not, not_le, not_lt] at hfresh
            rcases hfresh with hnone | ⟨_, hnew⟩
            · exact absurd (lt_of_lt_of_le hkey.2.2 hnot) (not_lt.mpr hnone)
            · rw [le_antisymm hnew hnot]
      rw [hk]
      refine ⟨_, hlatest, ?_, fun hn => ?_⟩
      · rcases hmem.mp hr' with hold | rfl
        · exact (h.le_of_fresh hfresh hold hk).1
        · exact le_refl _
      · rcases hmem.mp hr' with hold | rfl
        · exact absurd (hn r (hmem.mpr (Or.inr rfl)) hk.symm) (not_le.mpr (hlast r' hold))
        · rfl
    · rcases hmem.mp hr' with hold | rfl
      · obtain ⟨i, hi, hle, hmax⟩ := h.latest r' hold
        have hkeep : (s.queue.put r).latestIssuedAt.lookup r'.key = some i := by
          simp only [Queue.put]
          split
          · rw [Assoc.lookup_put_ne _ hk]
            exact hi
          · exact hi
        refine ⟨i, hkeep, hle, fun hn => hmax fun r'' hr'' hk'' => ?_⟩
        exact hn r'' (hmem.mpr (Or.inl hr'')) hk''
      · exact absurd rfl hk
  · intro sending hs
    have hok := h.sending sending hs
    refine ⟨hok.keys, fun r' hr' => ?_, hok.todo, hok.awaiting, hok.progress⟩
    obtain ⟨hin, hor⟩ := hok.batch r' hr'
    refine ⟨hmem.mpr (Or.inl hin), ?_⟩
    by_cases hk : r'.key = r.key
    · exact Or.inr ⟨r, hk ▸ hself⟩
    · rcases hor with hn | ⟨r'', hr''⟩
      · exact Or.inl (hnewest r' hin hn hk)
      · exact Or.inr ⟨r'', (hother _ hk).trans hr''⟩
  · intro r' hr' hn
    rcases hmem.mp hr' with hold | rfl
    · have hk : r'.key ≠ r.key := by
        intro hk
        exact absurd (hn r (hmem.mpr (Or.inr rfl)) hk.symm) (not_le.mpr (hlast r' hold))
      have hn' : s.Newest r' := fun r'' hr'' hk'' => hn r'' (hmem.mpr (Or.inl hr'')) hk''
      exact (h.covered r' hold hn').imp_left fun hp => (hother _ hk).trans hp
    · exact Or.inl hself
  · exact fun rs hrs r' hr' => hmem.mpr (Or.inl (h.requests rs hrs r' hr'))
  · exact h.delivered
  · exact fun r' hr' => hmem.mpr (Or.inl (h.processed r' hr'))

theorem mem_groups {batch : List Report} {r : Report} : (∃ post ∈ groups batch, r ∈ post.reports) ↔ r ∈ batch := by
  constructor
  · intro ⟨post, hpost, hr⟩
    obtain ⟨key, _, rfl⟩ := List.mem_map.mp hpost
    exact (List.mem_filter.mp hr).1
  · intro hr
    have hkey : groupKey r ∈ (batch.map groupKey).eraseDups := List.mem_eraseDups.mpr (List.mem_map_of_mem hr)
    exact ⟨_, List.mem_map_of_mem hkey, List.mem_filter.mpr ⟨hr, by simp⟩⟩

theorem take (h : AgentInv s) (hidle : s.sending = none) {taken : List Report} {rest : List StatusKey}
    {left : List (StatusKey × Report)}
    (htake : takeReports actionStatusBatchSize s.queue.order s.queue.reports = (taken, rest, left)) :
    AgentInv { s with
      queue := { s.queue with order := rest, reports := left }
      sending := if taken = [] then none else some ⟨taken, groups taken, none⟩ } := by
  obtain ⟨taken', rest', left', heq, hsplit, htaken, hleft⟩ := takeReports_spec actionStatusBatchSize s.queue.order
    s.queue.reports h.order.1 (fun k hk => (h.order.2 k).mp hk) h.filed
  rw [htake] at heq
  obtain ⟨rfl, hpair⟩ := Prod.mk.inj heq
  obtain ⟨rfl, rfl⟩ := Prod.mk.inj hpair
  have hnodup : (taken.map Report.key ++ rest).Nodup := hsplit ▸ h.order.1
  obtain ⟨hbatch, hrest, hapart⟩ := List.nodup_append.mp hnodup
  have hkept : ∀ k r, left.lookup k = some r → s.queue.reports.lookup k = some r := by
    intro k r hr
    rw [hleft] at hr
    split at hr
    · cases hr
    · exact hr
  constructor
  · refine ⟨hrest, fun k => ?_⟩
    have hwhere := h.order.2 k
    rw [hsplit, List.mem_append] at hwhere
    have hlookup : left.lookup k = if k ∈ taken.map Report.key then none else s.queue.reports.lookup k := hleft k
    constructor
    · intro hk
      obtain ⟨r, hr⟩ := hwhere.mp (Or.inr hk)
      have hnot : k ∉ taken.map Report.key := fun hin => hapart k hin k hk rfl
      exact ⟨r, by rw [hlookup, if_neg hnot, hr]⟩
    · intro ⟨r, hr⟩
      rcases hwhere.mpr ⟨r, hkept k r hr⟩ with hin | hk
      · rw [hlookup, if_pos hin] at hr
        cases hr
      · exact hk
  · exact fun k r hr => h.filed k r (hkept k r hr)
  · exact fun k r hr => h.pending k r (hkept k r hr)
  · exact h.seqs
  · exact h.inj
  · exact h.keyed
  · exact h.epochs
  · exact h.latest
  · intro sending hs
    dsimp only at hs
    split at hs
    · cases hs
    · obtain rfl := Option.some.inj hs
      refine ⟨hbatch, fun r hr => ?_, fun post hpost r hr => ?_, fun request post hnone => ?_, fun r hr => ?_⟩
      · obtain ⟨hin, hn⟩ := h.pending r.key r (htaken r hr)
        exact ⟨hin, Or.inl hn⟩
      · exact mem_groups.mp ⟨post, hpost, hr⟩
      · cases hnone
      · exact Or.inr (Or.inl (mem_groups.mpr hr))
  · intro r hr hn
    rcases h.covered r hr hn with hp | ⟨sending, hs, _⟩ | hp
    · by_cases hin : r.key ∈ taken.map Report.key
      · obtain ⟨r', hr', hk⟩ := List.mem_map.mp hin
        have hsame : r' = r := by
          have hlook := htaken r' hr'
          rw [hk, hp] at hlook
          exact (Option.some.inj hlook).symm
        have hne : taken ≠ [] := List.ne_nil_of_mem hr'
        exact Or.inr (Or.inl ⟨_, if_neg hne, hsame ▸ hr'⟩)
      · exact Or.inl ((hleft r.key).trans (by rw [if_neg hin, hp]))
    · rw [hidle] at hs
      cases hs
    · exact Or.inr (Or.inr hp)
  · exact h.requests
  · exact h.delivered
  · exact h.processed

variable {batch : List Report} {todo : List Post}

theorem post (h : AgentInv s) {next : Post} (hs : s.sending = some ⟨batch, next :: todo, none⟩) : AgentInv { s with
      requests := s.requests ++ [next.reports]
      sending := some ⟨batch, todo, some (s.requests.length, next)⟩ } := by
  have hok := h.sending _ hs
  refine { h with sending := ?_, covered := ?_, requests := ?_, delivered := ?_ }
  · intro sending heq
    obtain rfl := Option.some.inj heq
    refine ⟨hok.keys, hok.batch, fun post hpost => hok.todo post (List.mem_cons_of_mem _ hpost), ?_, ?_⟩
    · intro request post hawait
      obtain ⟨rfl, rfl⟩ := Prod.mk.inj (Option.some.inj hawait)
      exact ⟨by simp, hok.todo _ List.mem_cons_self⟩
    · intro r hr
      rcases hok.progress r hr with hp | ⟨post, hpost, hin⟩ | ⟨_, _, hnone, _⟩
      · exact Or.inl hp
      · rcases List.mem_cons.mp hpost with rfl | hpost
        · exact Or.inr (Or.inr ⟨_, _, rfl, hin⟩)
        · exact Or.inr (Or.inl ⟨post, hpost, hin⟩)
      · cases hnone
  · intro r hr hn
    rcases h.covered r hr hn with hp | ⟨sending, heq, hin⟩ | hp
    · exact Or.inl hp
    · rw [hs] at heq
      obtain rfl := Option.some.inj heq
      exact Or.inr (Or.inl ⟨_, rfl, hin⟩)
    · exact Or.inr (Or.inr hp)
  · intro rs hrs r hr
    rcases List.mem_append.mp hrs with hold | hnew
    · exact h.requests rs hold r hr
    · obtain rfl := List.mem_singleton.mp hnew
      exact (hok.batch r (hok.todo next List.mem_cons_self r hr)).1
  · intro d hd
    obtain ⟨rs, r, hrs, hr, hp⟩ := h.delivered d hd
    exact ⟨rs, r, List.getElem?_append_left (List.getElem?_eq_some_iff.mp hrs).1 ▸ hrs, hr, hp⟩

variable {request : Nat} {post : Post}

theorem done_processed (h : AgentInv s) {sending : Sending} (hs : s.sending = some sending)
    (hawait : sending.awaiting = some (request, post)) (hdone : s.done request post = true) :
    ∀ r ∈ post.reports, r ∈ s.processed := by
  intro r hr
  obtain ⟨part, hpart, hget⟩ := List.getElem_of_mem hr
  have hin := List.all_eq_true.mp hdone part (List.mem_range.mpr hpart)
  obtain ⟨rs, r', hrs, hr', hp⟩ := h.delivered _ (List.contains_iff_mem.mp hin)
  have hreq := ((h.sending sending hs).awaiting request post hawait).1
  dsimp only at hrs hr'
  rw [hreq] at hrs
  obtain rfl := Option.some.inj hrs
  rw [List.getElem?_eq_getElem hpart, hget] at hr'
  exact Option.some.inj hr' ▸ hp

theorem ok (h : AgentInv s) (hs : s.sending = some ⟨batch, todo, some (request, post)⟩)
    (hdone : s.done request post = true) :
    AgentInv { s with sending := if todo = [] then none else some ⟨batch, todo, none⟩ } := by
  have hok := h.sending _ hs
  have hprocessed := h.done_processed hs rfl hdone
  have hprogress : ∀ r ∈ batch, r ∈ s.processed ∨ ∃ post ∈ todo, r ∈ post.reports := by
    intro r hr
    rcases hok.progress r hr with hp | htodo | ⟨_, _, hawait, hin⟩
    · exact Or.inl hp
    · exact Or.inr htodo
    · obtain ⟨rfl, rfl⟩ := Prod.mk.inj (Option.some.inj hawait)
      exact Or.inl (hprocessed r hin)
  refine { h with sending := ?_, covered := ?_ }
  · intro sending heq
    dsimp only at heq
    split at heq
    · cases heq
    · obtain rfl := Option.some.inj heq
      refine ⟨hok.keys, hok.batch, hok.todo, fun _ _ hnone => (by cases hnone), fun r hr => ?_⟩
      exact (hprogress r hr).imp_right Or.inl
  · intro r hr hn
    rcases h.covered r hr hn with hp | ⟨sending, heq, hin⟩ | hp
    · exact Or.inl hp
    · rw [hs] at heq
      obtain rfl := Option.some.inj heq
      rcases hprogress r hin with hp | ⟨post', hpost', _⟩
      · exact Or.inr (Or.inr hp)
      · exact Or.inr (Or.inl ⟨_, if_neg (List.ne_nil_of_mem hpost'), hin⟩)
    · exact Or.inr (Or.inr hp)

theorem unsupported (h : AgentInv s) (hs : s.sending = some ⟨batch, todo, some (request, post)⟩) : AgentInv { s with
      sending := some ⟨batch, (post.reports.map fun report => ⟨[report], true⟩) ++ todo, none⟩ } := by
  have hok := h.sending _ hs
  have hposted := (hok.awaiting request post rfl).2
  refine { h with sending := ?_, covered := ?_ }
  · intro sending heq
    obtain rfl := Option.some.inj heq
    refine ⟨hok.keys, hok.batch, fun post' hpost' r hr => ?_, fun _ _ hnone => (by cases hnone), fun r hr => ?_⟩
    · rcases List.mem_append.mp hpost' with hsingle | htodo
      · obtain ⟨report, hreport, rfl⟩ := List.mem_map.mp hsingle
        obtain rfl := List.mem_singleton.mp hr
        exact hposted _ hreport
      · exact hok.todo post' htodo r hr
    · rcases hok.progress r hr with hp | ⟨post', hpost', hin⟩ | ⟨_, _, hawait, hin⟩
      · exact Or.inl hp
      · exact Or.inr (Or.inl ⟨post', List.mem_append_right _ hpost', hin⟩)
      · obtain ⟨rfl, rfl⟩ := Prod.mk.inj (Option.some.inj hawait)
        have hsingle : (⟨[r], true⟩ : Post) ∈ post.reports.map fun report => (⟨[report], true⟩ : Post) :=
          List.mem_map_of_mem (f := fun report => (⟨[report], true⟩ : Post)) hin
        exact Or.inr (Or.inl ⟨⟨[r], true⟩, List.mem_append_left _ hsingle, List.mem_singleton_self r⟩)
  · intro r hr hn
    rcases h.covered r hr hn with hp | ⟨sending, heq, hin⟩ | hp
    · exact Or.inl hp
    · rw [hs] at heq
      obtain rfl := Option.some.inj heq
      exact Or.inr (Or.inl ⟨_, rfl, hin⟩)
    · exact Or.inr (Or.inr hp)

/-- A batch whose post failed: what is still the newest of its key is pending again. -/
theorem failed (h : AgentInv s) {sending : Sending} (hs : s.sending = some sending) :
    AgentInv { s with queue := s.queue.restore sending.batch, sending := none } := by
  have hok := h.sending _ hs
  obtain ⟨hlookup, _, _⟩ := restoreReports_spec s.queue sending.batch hok.keys
  have hback : ∀ k r, (s.queue.restore sending.batch).reports.lookup k = some r ↔
      s.queue.reports.lookup k = some r ∨ s.queue.reports.lookup k = none ∧ r ∈ sending.batch ∧ r.key = k ∧
        s.queue.stale r.key r.payload.issuedAt = false := hlookup
  refine { h with order := ?_, filed := ?_, pending := ?_, sending := ?_, covered := ?_ }
  · exact orderOk_restore h.order hok.keys
  · intro k r hr
    rcases (hback k r).mp hr with hold | ⟨_, _, hk, _⟩
    · exact h.filed k r hold
    · exact hk
  · intro k r hr
    rcases (hback k r).mp hr with hold | ⟨hnone, hin, rfl, _⟩
    · exact h.pending k r hold
    · obtain ⟨hmem, hor⟩ := hok.batch r hin
      rcases hor with hn | ⟨r', hr'⟩
      · exact ⟨hmem, hn⟩
      · rw [hnone] at hr'
        cases hr'
  · intro sending' heq
    cases heq
  · intro r hr hn
    rcases h.covered r hr hn with hp | ⟨sending', heq, hin⟩ | hp
    · exact Or.inl ((hback r.key r).mpr (Or.inl hp))
    · rw [hs] at heq
      obtain rfl := Option.some.inj heq
      cases hl : s.queue.reports.lookup r.key with
      | none => exact Or.inl ((hback r.key r).mpr (Or.inr ⟨hl, hin, rfl, h.newest_fresh hr hn⟩))
      | some r' =>
        obtain ⟨hmem, hn'⟩ := h.pending r.key r' hl
        have hsame := h.newest_unique hmem hr (h.filed r.key r' hl) hn' hn
        exact Or.inl ((hback r.key r).mpr (Or.inl (hsame ▸ hl)))
    · exact Or.inr (Or.inr hp)

theorem deliver (h : AgentInv s) {request part : Nat} {rs : List Report} {report : Report}
    (hrs : s.requests[request]? = some rs) (hpart : rs[part]? = some report) (latest : List (String × Epoch))
    (stored : List (String × Report)) :
    AgentInv { s with
      delivered := s.delivered ++ [(request, part)]
      processed := s.processed ++ [report]
      latest, stored } := by
  refine { h with sending := ?_, covered := ?_, delivered := ?_, processed := ?_ }
  · intro sending heq
    have hok := h.sending sending heq
    exact ⟨hok.keys, hok.batch, hok.todo, hok.awaiting,
      fun r hr => (hok.progress r hr).imp_left (List.mem_append_left _)⟩
  · intro r hr hn
    exact (h.covered r hr hn).imp_right fun hor => hor.imp_right (List.mem_append_left _)
  · intro d hd
    rcases List.mem_append.mp hd with hold | hnew
    · obtain ⟨rs', r, hrs', hr, hp⟩ := h.delivered d hold
      exact ⟨rs', r, hrs', hr, List.mem_append_left _ hp⟩
    · obtain rfl := List.mem_singleton.mp hnew
      exact ⟨rs, report, hrs, hpart, List.mem_append_right _ (List.mem_singleton_self _)⟩
  · intro r hr
    rcases List.mem_append.mp hr with hold | hnew
    · exact h.processed r hold
    · obtain rfl := List.mem_singleton.mp hnew
      exact h.requests rs (List.mem_of_getElem? hrs) _ (List.mem_of_getElem? hpart)

end AgentInv

/-- What is enqueued is filed under the key of its payload, whose status type is not empty. -/
theorem statusPayload_statusType (a : Action) (running : Bool) (message : String) (previousFailures : Option Int)
    (retryNotBefore : Int) : (statusPayload a running message previousFailures retryNotBefore).statusType ≠ "" := by
  unfold statusPayload
  dsimp only
  split
  · decide
  · assumption

theorem agentInv_step {hostId : Nat} {s s' : System} {a : StatusAct} (hstep : statusSystem hostId s a s')
    (h : AgentInv s) : AgentInv s' := by
  simp only [statusSystem, Steps.ofFn] at hstep
  cases a with
  | enqueue cfg a running message previousFailures retryNotBefore =>
    simp only [System.step] at hstep
    split at hstep
    · cases hstep
    · rename_i hpos
      split at hstep
      · obtain rfl := Option.some.inj hstep
        exact h.skip
      · rename_i hfresh
        obtain rfl := Option.some.inj hstep
        rw [Bool.not_eq_true] at hfresh
        have htype := statusPayload_statusType a running message previousFailures retryNotBefore
        generalize statusPayload a running message previousFailures retryNotBefore = payload at *
        exact h.enqueue (r := ⟨actionStatusReportKey payload, cfg, payload, s.nextSeq⟩) rfl
          ⟨rfl, htype, not_le.mp hpos⟩ hfresh
  | take =>
    simp only [System.step] at hstep
    split at hstep
    · cases hstep
    · rename_i hidle
      have hnone : s.sending = none := Option.not_isSome_iff_eq_none.mp hidle
      have hparts : takeReports actionStatusBatchSize s.queue.order s.queue.reports =
          ((takeReports actionStatusBatchSize s.queue.order s.queue.reports).1,
            (takeReports actionStatusBatchSize s.queue.order s.queue.reports).2.1,
            (takeReports actionStatusBatchSize s.queue.order s.queue.reports).2.2) := rfl
      have htake := h.take hnone hparts
      split at hstep
      · rename_i hempty
        obtain rfl := Option.some.inj hstep
        rw [if_pos hempty] at htake
        rw [← hnone] at htake
        exact htake
      · rename_i htaken
        obtain rfl := Option.some.inj hstep
        rw [if_neg htaken] at htake
        exact htake
  | post =>
    simp only [System.step] at hstep
    split at hstep
    · rename_i batch next todo hs
      obtain rfl := Option.some.inj hstep
      exact h.post hs
    · cases hstep
  | reply r =>
    simp only [System.step] at hstep
    split at hstep
    · rename_i batch todo request post hs
      have hfailed := h.failed hs
      cases r with
      | ok =>
        dsimp only at hstep
        split at hstep
        · rename_i hdone
          obtain rfl := Option.some.inj hstep
          exact h.ok hs hdone
        · cases hstep
      | unsupported =>
        dsimp only at hstep
        split at hstep
        · obtain rfl := Option.some.inj hstep
          exact hfailed
        · obtain rfl := Option.some.inj hstep
          exact h.unsupported hs
      | failed =>
        obtain rfl := Option.some.inj hstep
        exact hfailed
    · cases hstep
  | deliver request part now =>
    obtain ⟨report, hreport, rfl⟩ := Option.map_eq_some_iff.mp hstep
    obtain ⟨rs, hrs, hpart⟩ := Option.bind_eq_some_iff.mp hreport
    exact h.deliver hrs hpart _ _

/-! ### The panel's invariant -/

variable {latest : List (String × Epoch)}

theorem lookup_prune_of_recent {now : Int} (h : ∀ e ∈ latest, now - e.2.seenAt ≤ statusOrderCacheTtlMs) :
    prune latest now = latest := by
  refine List.filter_eq_self.mpr fun e he => ?_
  rw [Bool.not_eq_true', decide_eq_false_iff_not, not_lt]
  exact h e he

/-- `expect` with no entry to prune writes the largest `IssuedAt` of the resource. -/
theorem expect_spec {key : String} {issuedAt now : Int} (hkey : key ≠ "") (hpos : 0 < issuedAt)
    (hskew : issuedAt ≤ now + maxFutureSkewMs)
    (hroom : latest.length < statusOrderCacheMaxSize ∨ ∀ e ∈ latest, now - e.2.seenAt ≤ statusOrderCacheTtlMs) :
    expect latest key issuedAt now =
      Assoc.put latest key ⟨max issuedAt (((latest.lookup key).map Epoch.issuedAt).getD 0), now⟩ := by
  have hnormal : normalizeAgentStatusIssuedAt issuedAt now = issuedAt := by
    unfold normalizeAgentStatusIssuedAt
    rw [if_neg (not_or.mpr ⟨not_le.mpr hpos, not_lt.mpr hskew⟩)]
  unfold expect
  simp only [hnormal]
  rw [if_neg (not_or.mpr ⟨hkey, not_le.mpr hpos⟩)]
  split
  · rename_i hfull
    rcases hroom with hroom | hrecent
    · -- one entry more than there is room for is still within the size
      have hlength : (Assoc.erase latest key).length ≤ latest.length := List.length_filter_le _ _
      simp only [Assoc.put, List.length_append, List.length_singleton] at hfull
      omega
    · refine lookup_prune_of_recent fun e he => ?_
      rcases List.mem_append.mp he with hold | hnew
      · exact hrecent e (List.mem_filter.mp hold).1
      · obtain rfl := List.mem_singleton.mp hnew
        simp [statusOrderCacheTtlMs]
  · rfl

/-- The guard refuses what is older than the resource's `IssuedAt`, and remembers what it accepts. -/
theorem accept_spec {key : String} {issuedAt now : Int} (hkey : key ≠ "") (hpos : 0 < issuedAt)
    (hskew : issuedAt ≤ now + maxFutureSkewMs)
    (hroom : latest.length < statusOrderCacheMaxSize ∨ ∀ e ∈ latest, now - e.2.seenAt ≤ statusOrderCacheTtlMs) :
    (∃ current, latest.lookup key = some current ∧ issuedAt < current.issuedAt ∧
      accept latest key issuedAt now = (false, latest)) ∨
    ((∀ current, latest.lookup key = some current → current.issuedAt ≤ issuedAt) ∧
      accept latest key issuedAt now = (true, Assoc.put latest key ⟨issuedAt, now⟩)) := by
  have hnormal : normalizeAgentStatusIssuedAt issuedAt now = issuedAt := by
    unfold normalizeAgentStatusIssuedAt
    rw [if_neg (not_or.mpr ⟨not_le.mpr hpos, not_lt.mpr hskew⟩)]
  have hexpect := expect_spec hkey hpos hskew hroom
  unfold accept
  simp only [hnormal]
  rw [if_neg (not_or.mpr ⟨hkey, not_le.mpr hpos⟩)]
  cases hl : latest.lookup key with
  | none =>
    refine Or.inr ⟨fun current hnone => (by cases hnone), ?_⟩
    rw [hexpect, hl]
    simp [max_eq_left hpos.le]
  | some current =>
    by_cases holder : issuedAt < current.issuedAt
    · exact Or.inl ⟨current, rfl, holder, by simp [holder]⟩
    · refine Or.inr ⟨fun current' heq => Option.some.inj heq ▸ not_lt.mp holder, ?_⟩
      rw [hexpect, hl]
      simp [holder, max_eq_left (not_lt.mp holder)]

section
variable {hostId : Nat}

/-- The report of the resource that was processed last among those that are at least as new. -/
def LastOfNewest (hostId : Nat) (processed : List Report) (resource : String) (r : Report) : Prop :=
  r.resource hostId = resource ∧ ∃ before after, processed = before ++ r :: after ∧
    (∀ r' ∈ before, r'.resource hostId = resource → r'.payload.issuedAt ≤ r.payload.issuedAt) ∧
    ∀ r' ∈ after, r'.resource hostId = resource → r'.payload.issuedAt < r.payload.issuedAt

/-- What the panel keeps true: it stores, for each resource, the last of the newest reports it
processed, and the guard knows its `IssuedAt`. -/
structure PanelInv (hostId : Nat) (s : System) : Prop where
  stored : ∀ resource r, s.storedStatus resource = some r → LastOfNewest hostId s.processed resource r
  latest : ∀ resource, (s.latest.lookup resource).map Epoch.issuedAt =
    (s.storedStatus resource).map fun r => r.payload.issuedAt
  seen : ∀ r ∈ s.processed, (s.storedStatus (r.resource hostId)).isSome

theorem init_panelInv : PanelInv hostId System.init := by
  constructor <;> simp [System.init, System.storedStatus]

theorem resource_ne_empty (r : Report) : r.resource hostId ≠ "" := by
  intro h
  have hlength := congrArg String.length h
  simp [Report.resource, agentStatusOrderingKey, String.length_append] at hlength

variable {r report : Report} {resource : String} {processed : List Report}

/-- What was processed after the last of the newest does not change it when it is older. -/
theorem LastOfNewest.concat (h : LastOfNewest hostId processed resource r)
    (holder : report.resource hostId = resource → report.payload.issuedAt < r.payload.issuedAt) :
    LastOfNewest hostId (processed ++ [report]) resource r := by
  obtain ⟨hresource, before, after, rfl, hbefore, hafter⟩ := h
  refine ⟨hresource, before, after ++ [report], by simp, hbefore, fun r' hr' hsame => ?_⟩
  rcases List.mem_append.mp hr' with hold | hnew
  · exact hafter r' hold hsame
  · obtain rfl := List.mem_singleton.mp hnew
    exact holder hsame

theorem LastOfNewest.le (h : LastOfNewest hostId processed resource r) {r' : Report} (hr' : r' ∈ processed)
    (hsame : r'.resource hostId = resource) : r'.payload.issuedAt ≤ r.payload.issuedAt := by
  obtain ⟨_, before, after, rfl, hbefore, hafter⟩ := h
  rcases List.mem_append.mp hr' with hr' | hr'
  · exact hbefore r' hr' hsame
  · rcases List.mem_cons.mp hr' with rfl | hr'
    · exact le_refl _
    · exact (hafter r' hr' hsame).le

theorem LastOfNewest.mem (h : LastOfNewest hostId processed resource r) : r ∈ processed := by
  obtain ⟨_, before, after, rfl, _⟩ := h
  simp

variable {now : Int} {s : System}

theorem PanelInv.process (h : PanelInv hostId s) (request part : Nat) (hpos : 0 < report.payload.issuedAt)
    (hskew : report.payload.issuedAt ≤ now + maxFutureSkewMs)
    (hroom : s.latest.length < statusOrderCacheMaxSize ∨ ∀ e ∈ s.latest, now - e.2.seenAt ≤ statusOrderCacheTtlMs) :
    PanelInv hostId (s.process hostId request part report now) := by
  have hne : report.resource hostId ≠ "" := resource_ne_empty report
  rcases accept_spec hne hpos hskew hroom with ⟨current, hcurrent, holder, heq⟩ | ⟨hnewer, heq⟩
  · -- refused
    have hstored : (s.process hostId request part report now).stored = s.stored := by
      simp only [System.process, Report.resource] at heq ⊢
      rw [heq]
      simp
    have hlatest : (s.process hostId request part report now).latest = s.latest := by
      simp only [System.process, Report.resource] at heq ⊢
      rw [heq]
    have hknown := h.latest (report.resource hostId)
    rw [hcurrent, Option.map_some] at hknown
    constructor
    · intro resource r hr
      rw [System.storedStatus, hstored] at hr
      refine (h.stored resource r hr).concat fun hsame => ?_
      subst hsame
      rw [System.storedStatus, hr, Option.map_some] at hknown
      exact Option.some.inj hknown ▸ holder
    · intro resource
      rw [System.storedStatus, hstored, hlatest]
      exact h.latest resource
    · intro r hr
      rw [System.storedStatus, hstored]
      rcases List.mem_append.mp hr with hold | hnew
      · exact h.seen r hold
      · obtain rfl := List.mem_singleton.mp hnew
        have hsome : ((s.storedStatus (r.resource hostId)).map fun r => r.payload.issuedAt).isSome := by
          rw [← hknown]
          rfl
        rwa [Option.isSome_map] at hsome
  · have hstored : (s.process hostId request part report now).stored =
        Assoc.put s.stored (report.resource hostId) report := by
      simp only [System.process, Report.resource] at heq ⊢
      rw [heq]
      simp
    have hlatest : (s.process hostId request part report now).latest =
        Assoc.put s.latest (report.resource hostId) ⟨report.payload.issuedAt, now⟩ := by
      simp only [System.process, Report.resource] at heq ⊢
      rw [heq]
    constructor
    · intro resource r hr
      rw [System.storedStatus, hstored] at hr
      by_cases hk : resource = report.resource hostId
      · subst hk
        rw [Assoc.lookup_put_self] at hr
        obtain rfl := Option.some.inj hr
        refine ⟨rfl, s.processed, [], rfl, fun r' hr' hsame => ?_, fun r' hr' => (by cases hr')⟩
        obtain ⟨x, hx⟩ := Option.isSome_iff_exists.mp (h.seen r' hr')
        rw [hsame] at hx
        have hknown := h.latest (report.resource hostId)
        rw [hx, Option.map_some] at hknown
        obtain ⟨current, hcurrent, hissued⟩ := Option.map_eq_some_iff.mp hknown
        calc r'.payload.issuedAt ≤ x.payload.issuedAt := (h.stored _ x hx).le hr' hsame
          _ = current.issuedAt := hissued.symm
          _ ≤ report.payload.issuedAt := hnewer current hcurrent
      · rw [Assoc.lookup_put_ne _ hk] at hr
        exact (h.stored resource r hr).concat fun hsame => absurd hsame.symm hk
    · intro resource
      rw [System.storedStatus, hstored, hlatest]
      by_cases hk : resource = report.resource hostId
      · subst hk
        rw [Assoc.lookup_put_self, Assoc.lookup_put_self]
        rfl
      · rw [Assoc.lookup_put_ne _ hk, Assoc.lookup_put_ne _ hk]
        exact h.latest resource
    · intro r hr
      rw [System.storedStatus, hstored]
      by_cases hk : r.resource hostId = report.resource hostId
      · rw [hk, Assoc.lookup_put_self]
        rfl
      · rw [Assoc.lookup_put_ne _ hk]
        rcases List.mem_append.mp hr with hold | hnew
        · exact h.seen r hold
        · obtain rfl := List.mem_singleton.mp hnew
          exact absurd rfl hk

/-! ### The newest status is stored -/

theorem resource_of_key (h : AgentInv s) {r r' : Report} (hr : r ∈ s.enqueued) (hr' : r' ∈ s.enqueued)
    (hkey : r.key = r'.key) : r.resource hostId = r'.resource hostId := by
  obtain ⟨hk, htype, _⟩ := h.keyed r hr
  obtain ⟨hk', htype', _⟩ := h.keyed r' hr'
  have hsame : actionStatusReportKey r.payload = actionStatusReportKey r'.payload := hk.symm.trans (hkey.trans hk')
  simp only [actionStatusReportKey, if_neg htype, if_neg htype'] at hsame
  simp only [Report.resource, agentStatusOrderingKey, if_neg htype, if_neg htype']
  by_cases hrun : r.payload.statusType = "runtime"
  · by_cases hrun' : r'.payload.statusType = "runtime"
    · simp only [hrun, hrun', if_true, StatusKey.runtime.injEq] at hsame
      simp only [hrun, hrun', hsame, if_true]
    · simp [hrun, hrun'] at hsame
  · by_cases hrun' : r'.payload.statusType = "runtime"
    · simp [hrun, hrun'] at hsame
    · simp only [if_neg hrun, if_neg hrun', StatusKey.resource.injEq] at hsame
      obtain ⟨htypes, hrule, htunnel, _⟩ := hsame
      simp only [htypes, hrule, htunnel, if_neg hrun']

/-- The last of the newest reports of a resource is the newest of its key. -/
theorem newest_of_isLast (h : AgentInv s) (hlast : s.IsLast hostId resource r) : s.Newest r := by
  obtain ⟨hr, hresource, hmax⟩ := hlast
  intro r' hr' hkey
  have hsame : r'.resource hostId = resource := (resource_of_key h hr' hr hkey).trans hresource
  rcases hmax r' hr' hsame with holder | ⟨_, hseq⟩
  · by_contra hlater
    exact absurd (h.epochs r hr r' hr' hkey.symm (not_le.mp hlater).le) (not_le.mpr holder)
  · exact hseq

theorem processed_of_idle (h : AgentInv s) (hidle : s.Idle) (hr : r ∈ s.enqueued) (hn : s.Newest r) :
    r ∈ s.processed := by
  rcases h.covered r hr hn with hp | ⟨sending, hs, _⟩ | hp
  · have hin := (h.order.2 r.key).mpr ⟨r, hp⟩
    rw [hidle.1] at hin
    cases hin
  · rw [hidle.2] at hs
    cases hs
  · exact hp

theorem storesLast (h : AgentInv s) (hp : PanelInv hostId s) (hidle : s.Idle) : s.StoresLast hostId := by
  intro resource r hlast
  have hprocessed := processed_of_idle h hidle hlast.1 (newest_of_isLast h hlast)
  obtain ⟨x, hx⟩ := Option.isSome_iff_exists.mp (hp.seen r hprocessed)
  rw [hlast.2.1] at hx
  have hnewest := hp.stored resource x hx
  have hle := hnewest.le hprocessed hlast.2.1
  have hxin := h.processed x hnewest.mem
  obtain ⟨hissued, hseq⟩ : x.payload.issuedAt = r.payload.issuedAt ∧ x.seq ≤ r.seq := by
    rcases hlast.2.2 x hxin hnewest.1 with holder | hsame
    · exact absurd hle (not_le.mpr holder)
    · exact hsame
  refine ⟨x, hx, hissued, fun hin => ?_⟩
  refine h.inj x hxin r hlast.1 (le_antisymm hseq ?_)
  -- the last of the newest comes after the report, so it was enqueued after it
  obtain ⟨hxresource, before, after, heq, _, hafter⟩ := hnewest
  rw [heq] at hprocessed
  rcases List.mem_append.mp hprocessed with hbefore | hrest
  · rw [System.InOrder, heq] at hin
    exact (List.pairwise_append.mp hin).2.2 r hbefore x List.mem_cons_self hlast.2.1 hxresource hissued.symm
  · rcases List.mem_cons.mp hrest with rfl | hin'
    · exact le_refl _
    · exact absurd (hafter r hin' hlast.2.1) (not_lt.mpr hissued.le)

theorem process_stored {request part : Nat} {x : Report}
    (hx : (s.process hostId request part report now).storedStatus resource = some x) :
    s.storedStatus resource = some x ∨ resource = report.resource hostId ∧ x = report := by
  simp only [System.storedStatus, System.process] at hx
  split at hx
  · by_cases hk : resource = report.resource hostId
    · subst hk
      rw [Report.resource, Assoc.lookup_put_self] at hx
      exact Or.inr ⟨rfl, (Option.some.inj hx).symm⟩
    · have hkeep := Assoc.lookup_put_ne s.stored hk report
      exact Or.inl (hkeep.symm.trans hx)
  · exact Or.inl hx

theorem keepsLatest_process (h : AgentInv s) (hp : PanelInv hostId s) {request part : Nat}
    (hp' : PanelInv hostId (s.process hostId request part report now)) (hreport : report ∈ s.enqueued) :
    KeepsLatest hostId s (s.process hostId request part report now) := by
  intro resource y x hy hx
  rcases process_stored hx with hsame | ⟨rfl, rfl⟩
  · obtain rfl := Option.some.inj (hy.symm.trans hsame)
    exact ⟨le_refl _, fun _ _ => le_refl _⟩
  · have hold := hp.stored _ y hy
    have hnew := hp'.stored _ x hx
    have hyin : y ∈ (s.process hostId request part x now).processed := List.mem_append_left _ hold.mem
    have hle := hnew.le hyin hold.1
    refine ⟨hle, fun hin hone => ?_⟩
    rcases lt_or_eq_of_le hle with hlt | heq
    · -- an older one under the same key was enqueued before
      by_contra hlater
      have hkey := hone y (h.processed y hold.mem) x hreport hold.1 rfl
      exact absurd (h.epochs x hreport y (h.processed y hold.mem) hkey.symm (not_le.mp hlater).le) (not_le.mpr hlt)
    · have hpair : (s.processed ++ [x]).Pairwise fun r r' => r.resource hostId = x.resource hostId →
          r'.resource hostId = x.resource hostId → r.payload.issuedAt = r'.payload.issuedAt → r.seq ≤ r'.seq := hin
      exact (List.pairwise_append.mp hpair).2.2 y hold.mem x (List.mem_singleton_self x) hold.1 rfl heq

theorem panelInv_step {s s' : System} {a : StatusAct} (h : AgentInv s)
    (hstep : Guarded InTime (statusSystem hostId) s a s') (hp : PanelInv hostId s) :
    PanelInv hostId s' ∧ KeepsLatest hostId s s' := by
  obtain ⟨hin, hstep⟩ := hstep
  -- only a delivery touches what the panel holds
  have hframe : s'.processed = s.processed → s'.latest = s.latest → s'.stored = s.stored →
      PanelInv hostId s' ∧ KeepsLatest hostId s s' := by
    intro hprocessed hlatest hstored
    refine ⟨⟨?_, ?_, ?_⟩, fun resource y x hy hx => ?_⟩
    · intro resource r hr
      rw [System.storedStatus, hstored] at hr
      exact hprocessed ▸ hp.stored resource r hr
    · intro resource
      rw [System.storedStatus, hstored, hlatest]
      exact hp.latest resource
    · intro r hr
      rw [System.storedStatus, hstored]
      exact hp.seen r (hprocessed ▸ hr)
    · rw [System.storedStatus, hstored] at hx
      obtain rfl := Option.some.inj (hy.symm.trans hx)
      exact ⟨le_refl _, fun _ _ => le_refl _⟩
  simp only [statusSystem, Steps.ofFn] at hstep
  cases a with
  | enqueue cfg a running message previousFailures retryNotBefore =>
    simp only [System.step] at hstep
    split at hstep
    · cases hstep
    · split at hstep <;> obtain rfl := Option.some.inj hstep <;> exact hframe rfl rfl rfl
  | take =>
    simp only [System.step] at hstep
    split at hstep
    · cases hstep
    · split at hstep <;> obtain rfl := Option.some.inj hstep <;> exact hframe rfl rfl rfl
  | post =>
    simp only [System.step] at hstep
    split at hstep
    · obtain rfl := Option.some.inj hstep
      exact hframe rfl rfl rfl
    · cases hstep
  | reply r =>
    simp only [System.step] at hstep
    split at hstep
    · cases r with
      | ok =>
        dsimp only at hstep
        split at hstep
        · obtain rfl := Option.some.inj hstep
          exact hframe rfl rfl rfl
        · cases hstep
      | unsupported =>
        dsimp only at hstep
        split at hstep <;> obtain rfl := Option.some.inj hstep <;> exact hframe rfl rfl rfl
      | failed =>
        obtain rfl := Option.some.inj hstep
        exact hframe rfl rfl rfl
    · cases hstep
  | deliver request part now =>
    obtain ⟨report, hreport, rfl⟩ := Option.map_eq_some_iff.mp hstep
    obtain ⟨rs, hrs, hpart⟩ := Option.bind_eq_some_iff.mp hreport
    obtain ⟨hskew, hroom⟩ := hin rs report hrs hpart
    have hmem := h.requests rs (List.mem_of_getElem? hrs) report (List.mem_of_getElem? hpart)
    have hp' := hp.process request part (h.keyed report hmem).2.2 hskew hroom
    exact ⟨hp', keepsLatest_process h hp hp' hmem⟩

end

/-- Every key is in the agent's order exactly when it is pending, and once. As long as what
is processed counts and the guard prunes nothing, a stored status is replaced by none with a
smaller `IssuedAt`, and once the agent is idle each resource has one with the largest
`IssuedAt` that was enqueued: the last of them, when those that share an `IssuedAt` were
processed in the order in which they were enqueued. -/
theorem newest_status_stored (hostId : Nat) {s : System} {as : List StatusAct}
    (hrun : Run (statusSystem hostId) System.init as s) :
    OrderOk s.queue ∧ (Run (Guarded InTime (statusSystem hostId)) System.init as s →
      (∀ a s', Guarded InTime (statusSystem hostId) s a s' → KeepsLatest hostId s s') ∧
      (s.Idle → s.StoresLast hostId)) := by
  have hinv := hrun.preserves (P := AgentInv) (fun _ _ _ => agentInv_step) init_agentInv
  refine ⟨hinv.order, fun hguarded => ?_⟩
  have hboth := hguarded.preserves (P := fun t => AgentInv t ∧ PanelInv hostId t)
    (fun t a t' hstep h => ⟨agentInv_step hstep.2 h.1, (panelInv_step h.1 hstep h.2).1⟩)
    ⟨init_agentInv, init_panelInv⟩
  exact ⟨fun a s' hstep => (panelInv_step hinv hstep hboth.2).2, storesLast hinv hboth.2⟩

/-! ### A late request -/

def ruleAction : Action := ⟨1, 0, "rule", 80, 443, "tcp", "tcp", 5, "apply", 1⟩

def panelConfig : Config := ⟨"https://panel", "token"⟩

/-- A report that the action failed is posted and lost on the way; the action succeeds, and
that report is posted and stored. Both share the action's `IssuedAt`. -/
def overtaken : List StatusAct :=
  [.enqueue panelConfig ruleAction false "failed" none 0, .take, .post, .reply .failed,
    .enqueue panelConfig ruleAction true "" none 0, .take, .post, .deliver 1 0 1000, .reply .ok]

/-- A test of `InTime` for a guard with room. -/
def inTimeHere (s : System) : StatusAct → Bool
  | .deliver request part now => (s.requests[request]?.bind fun reports => reports[part]?).all fun report =>
      decide (report.payload.issuedAt ≤ now + maxFutureSkewMs) && decide (s.latest.length < statusOrderCacheMaxSize)
  | _ => true

theorem inTime_of_inTimeHere (s : System) (a : StatusAct) (h : inTimeHere s a = true) : InTime s a := by
  cases a with
  | deliver request part now =>
    intro reports report hreports hreport
    simp only [inTimeHere, hreports, Option.bind_some, hreport, Option.all_some, Bool.and_eq_true] at h
    exact ⟨of_decide_eq_true h.1, Or.inl (of_decide_eq_true h.2)⟩
  | _ => trivial

theorem newest_status_stored_overtaken : ∃ s : System, s.stored.length = 1 ∧ OrderOk s.queue ∧ s.StoresLast 1 := by
  have hexec : ((exec (fun s a => if inTimeHere s a then System.step 1 s a else none) System.init overtaken).any
      (fun s => decide (s.stored.length = 1) && (decide (s.queue.order = []) && s.sending.isNone))) = true := by
    decide +kernel
  obtain ⟨s, hs, hend⟩ := (Option.any_eq_true _ _).mp hexec
  rw [Bool.and_eq_true, Bool.and_eq_true] at hend
  have hrun := exec_guarded (G := InTime) inTime_of_inTimeHere hs
  obtain ⟨horder, hrest⟩ := newest_status_stored 1 hrun.of_guarded
  exact ⟨s, of_decide_eq_true hend.1, horder,
    (hrest hrun).2 ⟨of_decide_eq_true hend.2.1, Option.isNone_iff_eq_none.mp hend.2.2⟩⟩

/-- A stored status is never replaced by one that was enqueued before it. -/
def KeepsOrder (s s' : System) : Prop :=
  ∀ resource r r', s.storedStatus resource = some r → s'.storedStatus resource = some r' → r.seq ≤ r'.seq

/-- The lost request arrives after all, and the failure is stored over the success. -/
theorem older_status_stored :
    ¬ ∀ (hostId : Nat) (s s' : System) (as : List StatusAct) (a : StatusAct), Run (statusSystem hostId) System.init as s →
      statusSystem hostId s a s' → KeepsOrder s s' := by
  intro hclaim
  let key := agentStatusOrderingKey 1 (statusPayload ruleAction true "" none 0)
  have hexec : ((exec (System.step 1) System.init overtaken).any fun s =>
      (s.step 1 (.deliver 0 0 1001)).any fun s' => (s.storedStatus key).any fun r => (s'.storedStatus key).any fun r' =>
        decide (r'.seq < r.seq)) = true := by
    decide +kernel
  obtain ⟨s, hs, hnext⟩ := (Option.any_eq_true _ _).mp hexec
  obtain ⟨s', hs', hstored⟩ := (Option.any_eq_true _ _).mp hnext
  obtain ⟨r, hr, hstored⟩ := (Option.any_eq_true _ _).mp hstored
  obtain ⟨r', hr', hseq⟩ := (Option.any_eq_true _ _).mp hstored
  have hkeeps := hclaim 1 s s' overtaken (.deliver 0 0 1001) (exec_run hs) hs' key r r' hr hr'
  exact absurd hkeeps (not_le.mpr (of_decide_eq_true hseq))

end ForwardX.Agent.Status
