import ForwardX.Panel.EvaluationQueue

/- No interleaving of enqueues, timers and settled evaluations loses a group: what is owed to it is
   kept in `pending`, in the one batch that runs, or by its one live retry timer. -/
namespace ForwardX.Panel.EvaluationQueue

open Assoc Transition

section
variable {o : Delays} {q q' q'' : Queue} {trace trace' : List Event} {g : Nat}

/-! ## The groups an error retries -/

theorem mem_retryIds {groupIds : List Nat} {outcome : Outcome} :
    g ∈ retryIds groupIds outcome ↔ g ∈ groupIds ∧ outcome.Failed groupIds g := by
  cases outcome with
  | success => simp [retryIds, Outcome.Failed]
  | otherError => simp [retryIds, Outcome.Failed]
  | batchError error =>
    simp only [retryIds, Outcome.Failed]
    by_cases hlength : (error.retryGroupIds.filter (fun groupId => groupId ∈ groupIds)).length > 0
    · rw [if_pos hlength, List.mem_filter, decide_eq_true_eq, and_comm, and_congr_right_iff]
      intro hg
      obtain ⟨x, hx⟩ := List.exists_mem_of_length_pos hlength
      rw [List.mem_filter, decide_eq_true_eq] at hx
      exact ⟨Or.inl, fun h => h.elim id fun hall => absurd hx.1 (hall x hx.2)⟩
    · rw [if_neg hlength, iff_self_and]
      intro hg
      -- the error names no group of the batch
      refine Or.inr fun other hother hnamed => hlength ?_
      exact List.length_pos_of_mem (List.mem_filter.mpr ⟨hnamed, by simpa using hother⟩)

theorem nodup_retryIds {groupIds : List Nat} (hnd : groupIds.Nodup) (outcome : Outcome) :
    (retryIds groupIds outcome).Nodup := by
  cases outcome with
  | success => exact List.nodup_nil
  | otherError => exact hnd
  | batchError error =>
    simp only [retryIds]
    split
    · exact error.nodup.filter _
    · exact hnd

theorem of_succeeded (h : Succeeded g trace) : failures g trace = 0 ∧ ¬ BackedOff g trace := by
  induction trace with
  | nil => cases h
  | cons event trace ih =>
    cases event with
    | completed groupIds outcome =>
      unfold Succeeded at h
      unfold failures BackedOff
      by_cases hg : g ∈ groupIds
      · rw [if_pos hg] at h
        rw [if_pos hg, if_pos hg, if_neg h]
        exact ⟨rfl, h⟩
      · rw [if_neg hg] at h
        rw [if_neg hg, if_neg hg]
        exact ih h
    | retried other => exact ⟨(ih h).1, fun hb => (ih h).2 hb.2⟩
    | enqueued groupIds => exact ih h
    | started groupIds => exact ih h

/-! ## What the queue holds for one group -/

/-- The retry timer and the failure count of a group are what `trace` says of it. -/
structure GroupOk (o : Delays) (q : Queue) (trace : List Event) (g : Nat) : Prop where
  retry : ∀ h d, q.timers.get h = some ⟨.retry g, d⟩ ↔
    q.retryTimers.lookup g = some h ∧ d = retryDelay o (failures g trace)
  count : q.consecutiveFailures.lookup g = if failures g trace = 0 then none else some (failures g trace)
  backedOff : BackedOff g trace ↔ (q.retryTimers.lookup g).isSome

/-- Nothing changes but the retry timers and the failure counts of `groupIds`. -/
structure Touches (groupIds : List Nat) (q q' : Queue) : Prop where
  timers : ∀ h t, (∀ g ∈ groupIds, t.callback ≠ .retry g) → (q'.timers.get h = some t ↔ q.timers.get h = some t)
  retryTimers : ∀ g, g ∉ groupIds → q'.retryTimers.lookup g = q.retryTimers.lookup g
  failures : ∀ g, g ∉ groupIds → q'.consecutiveFailures.lookup g = q.consecutiveFailures.lookup g
  pending : q'.pending = q.pending
  timer : q'.timer = q.timer
  running : q'.running = q.running
  flights : q'.flights = q.flights
  trace : q'.trace = q.trace

theorem Touches.refl (q : Queue) : Touches [] q q :=
  ⟨fun _ _ _ => Iff.rfl, fun _ _ => rfl, fun _ _ => rfl, rfl, rfl, rfl, rfl, rfl⟩

theorem Touches.trans {ids ids' : List Nat} (h : Touches ids q q') (h' : Touches ids' q' q'') :
    Touches (ids ++ ids') q q'' where
  timers k t ht :=
    (h'.timers k t fun g hg => ht g (List.mem_append_right _ hg)).trans
      (h.timers k t fun g hg => ht g (List.mem_append_left _ hg))
  retryTimers g hg :=
    (h'.retryTimers g fun hmem => hg (List.mem_append_right _ hmem)).trans
      (h.retryTimers g fun hmem => hg (List.mem_append_left _ hmem))
  failures g hg :=
    (h'.failures g fun hmem => hg (List.mem_append_right _ hmem)).trans
      (h.failures g fun hmem => hg (List.mem_append_left _ hmem))
  pending := h'.pending.trans h.pending
  timer := h'.timer.trans h.timer
  running := h'.running.trans h.running
  flights := h'.flights.trans h.flights
  trace := h'.trace.trans h.trace

theorem GroupOk.touch (h : GroupOk o q trace g) {ids : List Nat} (ht : Touches ids q q') (hg : g ∉ ids) :
    GroupOk o q' trace g where
  retry k d := by
    rw [ht.timers k _ fun g' hg' heq => hg (by cases heq; exact hg'), ht.retryTimers g hg]
    exact h.retry k d
  count := by rw [ht.failures g hg, h.count]
  backedOff := by rw [ht.retryTimers g hg, h.backedOff]

theorem GroupOk.get_clearSome (h : GroupOk o q trace g) (k : Nat) (t : Timer) :
    (q.timers.clearSome (q.retryTimers.lookup g)).get k = some t ↔
      q.timers.get k = some t ∧ t.callback ≠ .retry g := by
  rw [Timers.get_clearSome]
  by_cases hk : q.retryTimers.lookup g = some k
  · have hget := (h.retry k _).mpr ⟨hk, rfl⟩
    rw [if_pos hk, hget]
    constructor
    · intro hnone
      cases hnone
    · rintro ⟨hsome, hne⟩
      cases hsome
      exact absurd rfl hne
  · rw [if_neg hk, iff_self_and]
    rintro hget hcallback
    obtain ⟨callback, d⟩ := t
    obtain rfl : callback = .retry g := hcallback
    exact hk ((h.retry k d).mp hget).1

theorem GroupOk.clearRetry (h : GroupOk o q trace g) (hcount : failures g trace' = 0) (hback : ¬ BackedOff g trace') :
    Touches [g] q (q.clearRetry g) ∧ GroupOk o (q.clearRetry g) trace' g := by
  constructor
  · refine ⟨fun k t ht => ?_, fun g' hg' => ?_, fun g' hg' => ?_, rfl, rfl, rfl, rfl, rfl⟩
    · show (q.timers.clearSome _).get k = some t ↔ _
      rw [h.get_clearSome, and_iff_left (ht g (List.mem_singleton_self g))]
    · exact lookup_erase_ne _ (by simpa using hg')
    · exact lookup_erase_ne _ (by simpa using hg')
  · refine ⟨fun k d => ?_, ?_, ?_⟩
    · show (q.timers.clearSome _).get k = _ ↔ (erase q.retryTimers g).lookup g = _ ∧ _
      rw [h.get_clearSome, lookup_erase_self]
      simp
    · show (erase q.consecutiveFailures g).lookup g = _
      rw [if_pos hcount, lookup_erase_self]
    · show _ ↔ ((erase q.retryTimers g).lookup g).isSome
      rw [lookup_erase_self]
      simpa using hback

theorem GroupOk.scheduleRetry (h : GroupOk o q trace g) (hcount : failures g trace' = failures g trace + 1)
    (hback : BackedOff g trace') :
    Touches [g] q (q.scheduleRetry o g).1 ∧ GroupOk o (q.scheduleRetry o g).1 trace' g := by
  have hfailures : (q.consecutiveFailures.lookup g).getD 0 + 1 = failures g trace' := by
    rw [h.count, hcount]
    by_cases hzero : failures g trace = 0
    · rw [if_pos hzero, hzero]
      rfl
    · rw [if_neg hzero]
      rfl
  have hnext := (q.timers.clearSome (q.retryTimers.lookup g)).get_next
  have hget : ∀ k t, (q.scheduleRetry o g).1.timers.get k = some t ↔
      if k = (q.timers.clearSome (q.retryTimers.lookup g)).next then t = ⟨.retry g, retryDelay o (failures g trace')⟩
      else q.timers.get k = some t ∧ t.callback ≠ .retry g := by
    intro k t
    show ((q.timers.clearSome (q.retryTimers.lookup g)).set
      ⟨.retry g, retryDelay o ((q.consecutiveFailures.lookup g).getD 0 + 1)⟩).get k = some t ↔ _
    rw [Timers.get_set, hfailures]
    by_cases hk : k = (q.timers.clearSome (q.retryTimers.lookup g)).next
    · rw [if_pos hk, if_pos hk, Option.some.injEq, eq_comm]
    · rw [if_neg hk, if_neg hk, h.get_clearSome]
  constructor
  · refine ⟨fun k t ht => ?_, fun g' hg' => ?_, fun g' hg' => ?_, rfl, rfl, rfl, rfl, rfl⟩
    · have hcallback := ht g (List.mem_singleton_self g)
      rw [hget]
      by_cases hk : k = (q.timers.clearSome (q.retryTimers.lookup g)).next
      · rw [if_pos hk]
        constructor
        · rintro rfl
          exact absurd rfl hcallback
        · intro hold
          rw [hk, ← and_iff_left hcallback (a := _ = _), ← h.get_clearSome, hnext] at hold
          cases hold
      · rw [if_neg hk, and_iff_left hcallback]
    · exact lookup_put_ne _ (by simpa using hg') _
    · exact lookup_put_ne _ (by simpa using hg') _
  · refine ⟨fun k d => ?_, ?_, ?_⟩
    · rw [hget]
      show _ ↔ (put q.retryTimers g _).lookup g = _ ∧ _
      rw [lookup_put_self]
      by_cases hk : k = (q.timers.clearSome (q.retryTimers.lookup g)).next
      · rw [if_pos hk]
        constructor
        · intro hd
          cases hd
          exact ⟨congrArg some hk.symm, rfl⟩
        · rintro ⟨_, rfl⟩
          rfl
      · rw [if_neg hk]
        constructor
        · rintro ⟨_, hne⟩
          exact absurd rfl hne
        · rintro ⟨hsome, _⟩
          exact absurd (Option.some.inj hsome).symm hk
    · show (put q.consecutiveFailures g _).lookup g = _
      rw [lookup_put_self, hfailures, if_neg (by omega)]
    · show _ ↔ ((put q.retryTimers g _).lookup g).isSome
      rw [lookup_put_self]
      simpa using hback

/-- What a step does to one group, its fold over groups does to all of them. -/
theorem fold_groups {step : Queue → Nat → Queue} {ids : List Nat}
    (hstep : ∀ g ∈ ids, ∀ q, GroupOk o q trace g → Touches [g] q (step q g) ∧ GroupOk o (step q g) trace' g)
    (hnd : ids.Nodup) (hok : ∀ g ∈ ids, GroupOk o q trace g) :
    Touches ids q (ids.foldl step q) ∧ ∀ g ∈ ids, GroupOk o (ids.foldl step q) trace' g := by
  induction ids generalizing q with
  | nil => exact ⟨Touches.refl q, fun _ h => nomatch h⟩
  | cons g ids ih =>
    rw [List.nodup_cons] at hnd
    obtain ⟨hfirst, hg⟩ := hstep g List.mem_cons_self q (hok g List.mem_cons_self)
    obtain ⟨hrest, hids⟩ := ih (fun g' hg' => hstep g' (List.mem_cons_of_mem g hg')) hnd.2 fun g' hg' =>
      (hok g' (List.mem_cons_of_mem g hg')).touch hfirst fun hsame => hnd.1 (List.mem_singleton.mp hsame ▸ hg')
    refine ⟨hfirst.trans hrest, fun g' hg' => ?_⟩
    rcases List.mem_cons.mp hg' with rfl | hg'
    · exact hg.touch hrest hnd.1
    · exact hids g' hg'

theorem clearRetries (ids : List Nat) {q : Queue} (hnd : ids.Nodup) (hok : ∀ g ∈ ids, GroupOk o q trace g)
    (hnew : ∀ g ∈ ids, failures g trace' = 0 ∧ ¬ BackedOff g trace') :
    Touches ids q (ids.foldl Queue.clearRetry q) ∧ ∀ g ∈ ids, GroupOk o (ids.foldl Queue.clearRetry q) trace' g :=
  fold_groups (fun g hg _ h => h.clearRetry (hnew g hg).1 (hnew g hg).2) hnd hok

theorem scheduleRetries_queue (ids : List Nat) (q : Queue) :
    (q.scheduleRetries o ids).1 = ids.foldl (fun q g => (q.scheduleRetry o g).1) q := by
  induction ids generalizing q with
  | nil => rfl
  | cons g ids ih => exact ih _

theorem scheduleRetries (ids : List Nat) {q : Queue} (hnd : ids.Nodup) (hok : ∀ g ∈ ids, GroupOk o q trace g)
    (hnew : ∀ g ∈ ids, failures g trace' = failures g trace + 1 ∧ BackedOff g trace') :
    Touches ids q (q.scheduleRetries o ids).1 ∧ ∀ g ∈ ids, GroupOk o (q.scheduleRetries o ids).1 trace' g := by
  rw [scheduleRetries_queue]
  exact fold_groups (fun g hg _ h => h.scheduleRetry (hnew g hg).1 (hnew g hg).2) hnd hok

/-! ## The invariant -/

structure Core (o : Delays) (q : Queue) : Prop where
  group : ∀ g, GroupOk o q q.trace g
  debounce : ∀ h, (∃ d, q.timers.get h = some ⟨.debounce, d⟩) ↔ q.timer = some h
  flights : (q.running = true ∧ ∃ f, q.flights = [f]) ∨ (q.running = false ∧ q.flights = [])
  nodup : q.pending.Nodup
  batch : ∀ b, q.flights = [.evaluating b] → b.Nodup ∧ ∀ g, EnqueuedSinceStart g q.trace → g ∈ q.pending
  owed : ∀ g, Owed g q.trace → g ∈ q.pending ∨ (∃ b, q.flights = [.evaluating b] ∧ g ∈ b) ∨ BackedOff g q.trace

def Armed (q : Queue) : Prop := q.running = false → q.pending ≠ [] → q.timer.isSome

theorem core_initial : Core o initial where
  group _ := ⟨by simp [initial], rfl, by simp [initial, BackedOff]⟩
  debounce _ := by simp [initial]
  flights := Or.inr ⟨rfl, rfl⟩
  nodup := List.nodup_nil
  batch _ h := nomatch h
  owed _ h := h.elim

/-- After `arm` the debounce timer is armed, where there is something to wait for. -/
theorem Core.arm (h : Core o q) (d : ℚ) : Core o (q.arm d) ∧ Armed (q.arm d) := by
  unfold Queue.arm
  by_cases hskip : (q.timer.isSome || q.running || q.pending.isEmpty) = true
  · rw [if_pos hskip]
    refine ⟨h, fun hrun hpending => ?_⟩
    simpa [hrun, hpending] using hskip
  · rw [if_neg hskip]
    have htimer : q.timer = none := by
      cases ht : q.timer with
      | none => rfl
      | some _ => simp [ht] at hskip
    refine ⟨⟨fun g => ⟨fun k delay => ?_, (h.group g).count, (h.group g).backedOff⟩, fun k => ?_, h.flights, h.nodup,
      h.batch, h.owed⟩, fun _ _ => rfl⟩
    · show (q.timers.set _).get k = _ ↔ _
      rw [Timers.get_set, ← (h.group g).retry]
      by_cases hk : k = q.timers.next
      · rw [if_pos hk, hk, q.timers.get_next]
        simp
      · rw [if_neg hk]
    · show (∃ d', (q.timers.set _).get k = _) ↔ some q.timers.next = some k
      rw [Timers.get_set]
      by_cases hk : k = q.timers.next
      · simp [hk]
      · have hnone : ¬ ∃ d', q.timers.get k = some ⟨.debounce, d'⟩ := by rw [h.debounce k, htimer]; simp
        rw [if_neg hk]
        exact ⟨fun hd => absurd hd hnone, fun hsome => absurd (Option.some.inj hsome).symm hk⟩

theorem mem_add (q : Queue) (g x : Nat) : x ∈ (q.add g).pending ↔ x = g ∨ x ∈ q.pending := by
  show (x ∈ if g ∈ q.pending then q.pending else q.pending ++ [g]) ↔ _
  split
  · rename_i hg
    exact ⟨Or.inr, fun hx => hx.elim (fun heq => heq ▸ hg) id⟩
  · rw [List.mem_append, List.mem_singleton, or_comm]

theorem nodup_add (hnd : q.pending.Nodup) (g : Nat) : (q.add g).pending.Nodup := by
  show (if g ∈ q.pending then q.pending else q.pending ++ [g]).Nodup
  split
  · exact hnd
  · rename_i hg
    rw [← List.concat_eq_append]
    exact hnd.concat hg

theorem foldl_add (ids : List Nat) : ∀ q : Queue, ∃ p, ids.foldl Queue.add q = { q with pending := p } ∧
    (∀ x, x ∈ p ↔ x ∈ ids ∨ x ∈ q.pending) ∧ (q.pending.Nodup → p.Nodup) := by
  induction ids with
  | nil => exact fun q => ⟨q.pending, rfl, by simp, id⟩
  | cons g ids ih =>
    intro q
    obtain ⟨p, hp, hmem, hnd⟩ := ih (q.add g)
    refine ⟨p, hp, fun x => ?_, fun h => hnd (nodup_add h g)⟩
    rw [hmem, mem_add, List.mem_cons, or_left_comm, or_assoc]

theorem Core.enqueue (h : Core o q) (groupIds : List (Option Int)) :
    Core o (q.enqueue o groupIds).1 ∧ Armed (q.enqueue o groupIds).1 := by
  obtain ⟨p, hp, hmem, hnd⟩ := foldl_add (groupIds.filterMap positiveInteger) q
  refine Core.arm (q := { (groupIds.filterMap positiveInteger).foldl Queue.add q with
    trace := .enqueued (groupIds.filterMap positiveInteger) :: q.trace }) ?_ o.debounceMs
  rw [hp]
  refine ⟨fun g => ⟨(h.group g).retry, (h.group g).count, (h.group g).backedOff⟩, h.debounce, h.flights, hnd h.nodup,
    fun b hb => ⟨(h.batch b hb).1, fun g hg => ?_⟩, fun g hg => ?_⟩
  · rcases hg with hg | hg
    · exact (hmem g).mpr (Or.inl hg)
    · exact (hmem g).mpr (Or.inr ((h.batch b hb).2 g hg))
  · rcases hg with hg | hg
    · exact Or.inl ((hmem g).mpr (Or.inl hg))
    · rcases h.owed g hg with hpending | hrest
      · exact Or.inl ((hmem g).mpr (Or.inr hpending))
      · exact Or.inr hrest

theorem Core.flush (h : Core o q) : Core o q.flush ∧ Armed q.flush := by
  unfold Queue.flush
  by_cases hskip : (q.running || q.pending.isEmpty) = true
  · rw [if_pos hskip]
    refine ⟨h, fun hrun hpending => ?_⟩
    simp [hrun, hpending] at hskip
  · rw [if_neg hskip]
    obtain ⟨hrun, _⟩ : q.running = false ∧ q.pending ≠ [] := by simpa using hskip
    have hflights : q.flights = [] := by
      rcases h.flights with ⟨htrue, _⟩ | ⟨_, hnil⟩
      · rw [hrun] at htrue
        cases htrue
      · exact hnil
    refine ⟨⟨fun g => ⟨(h.group g).retry, (h.group g).count, (h.group g).backedOff⟩, h.debounce,
      Or.inl ⟨rfl, .evaluating q.pending, by rw [hflights]; rfl⟩, List.nodup_nil, fun b hb => ?_, fun g hg => ?_⟩,
      fun hfalse => nomatch hfalse⟩
    · rw [hflights] at hb
      cases hb
      exact ⟨h.nodup, fun g hg => hg.elim⟩
    · rcases h.owed g hg with hpending | ⟨b, hb, _⟩ | hback
      · exact Or.inr (Or.inl ⟨q.pending, by rw [hflights]; rfl, hpending⟩)
      · rw [hflights] at hb
        cases hb
      · exact Or.inr (Or.inr hback)

theorem Core.fire (h : Core o q) {k : Nat} {t : Timer} (hk : q.timers.get k = some t) :
    Core o (({ q with timers := q.timers.clear k }).runCallback k t.callback) ∧
      Armed (({ q with timers := q.timers.clear k }).runCallback k t.callback) := by
  obtain ⟨callback, delay⟩ := t
  cases callback with
  | debounce =>
    have hq : q.timer = some k := (h.debounce k).mp ⟨delay, hk⟩
    refine Core.flush (q := { q with timers := q.timers.clear k, timer := none })
      ⟨fun g => ⟨fun k' d => ?_, (h.group g).count, (h.group g).backedOff⟩, fun k' => ?_, h.flights, h.nodup, h.batch,
        h.owed⟩
    · show (q.timers.clear k).get k' = _ ↔ _
      rw [Timers.get_clear, ← (h.group g).retry]
      by_cases hkk : k' = k
      · rw [if_pos hkk, hkk, hk]
        simp
      · rw [if_neg hkk]
    · show (∃ d, (q.timers.clear k).get k' = _) ↔ none = some k'
      rw [Timers.get_clear]
      by_cases hkk : k' = k
      · simp [hkk]
      · rw [if_neg hkk, h.debounce k', hq]
        simpa using Ne.symm hkk
  | retry g =>
    have hq := ((h.group g).retry k delay).mp hk
    have hlive : ¬ q.retryTimers.lookup g ≠ some k := not_not.mpr hq.1
    show Core o (if q.retryTimers.lookup g ≠ some k then _ else _) ∧ Armed (if q.retryTimers.lookup g ≠ some k then _ else _)
    rw [if_neg hlive]
    refine Core.arm (q := ({ q with
      timers := q.timers.clear k, retryTimers := erase q.retryTimers g, trace := .retried g :: q.trace }).add g)
      ⟨fun g' => ⟨fun k' d => ?_, (h.group g').count, ?_⟩, fun k' => ?_, h.flights, nodup_add h.nodup g,
        fun b hb => ⟨(h.batch b hb).1, fun g' hg' => ?_⟩, fun g' hg' => ?_⟩ 0
    · show (q.timers.clear k).get k' = _ ↔ (erase q.retryTimers g).lookup g' = _ ∧ d = retryDelay o (failures g' q.trace)
      rw [Timers.get_clear]
      by_cases hg : g' = g
      · subst hg
        rw [lookup_erase_self, (show (none = some k' ∧ _) ↔ False by simp), iff_false]
        by_cases hkk : k' = k
        · simp [hkk]
        · rw [if_neg hkk]
          intro hget
          have := ((h.group g').retry k' d).mp hget
          exact hkk (Option.some.inj (this.1.symm.trans hq.1))
      · rw [lookup_erase_ne _ hg, ← (h.group g').retry]
        by_cases hkk : k' = k
        · rw [if_pos hkk, hkk, hk]
          simpa using fun hsame : g = g' => absurd hsame.symm hg
        · rw [if_neg hkk]
    · show g ≠ g' ∧ BackedOff g' q.trace ↔ ((erase q.retryTimers g).lookup g').isSome
      by_cases hg : g' = g
      · simp [hg]
      · rw [lookup_erase_ne _ hg, ← (h.group g').backedOff, and_iff_right (Ne.symm hg)]
    · show (∃ d, (q.timers.clear k).get k' = _) ↔ q.timer = some k'
      rw [Timers.get_clear, ← h.debounce k']
      by_cases hkk : k' = k
      · rw [if_pos hkk, hkk, hk]
        simp
      · rw [if_neg hkk]
    · exact (mem_add _ g g').mpr (Or.inr ((h.batch b hb).2 g' hg'))
    · by_cases hg : g' = g
      · exact Or.inl ((mem_add _ g g').mpr (Or.inl hg))
      · rcases h.owed g' hg' with hpending | hrun | hback
        · exact Or.inl ((mem_add _ g g').mpr (Or.inr hpending))
        · exact Or.inr (Or.inl hrun)
        · exact Or.inr (Or.inr ⟨Ne.symm hg, hback⟩)

/-- What the queue is after a call of `evaluate` settled, when the retry timers and the counts of
its batch are as they should be. -/
theorem Core.settled (h : Core o q) {b : List Nat} (hb : q.flights = [.evaluating b]) (outcome : Outcome)
    (ht : Touches b { q with trace := .completed b outcome :: q.trace } q')
    (hok : ∀ g ∈ b, GroupOk o q' (.completed b outcome :: q.trace) g) {flights : List Flight} {running : Bool}
    (hflights : (running = true ∧ ∃ d, flights = [.reporting d]) ∨ (running = false ∧ flights = [])) :
    Core o { q' with flights := flights, running := running } := by
  have htrace : q'.trace = .completed b outcome :: q.trace := ht.trace
  have hpending : q'.pending = q.pending := ht.pending
  have hevaluating : ∀ b', flights ≠ [.evaluating b'] := by
    rintro b' rfl
    simp at hflights
  refine ⟨fun g => ?_, fun k => ?_, ?_, hpending ▸ h.nodup, fun b' hb' => absurd hb' (hevaluating b'), fun g hg => ?_⟩
  · show GroupOk o _ q'.trace g
    rw [htrace]
    by_cases hg : g ∈ b
    · exact ⟨(hok g hg).retry, (hok g hg).count, (hok g hg).backedOff⟩
    · have hold : GroupOk o { q with trace := .completed b outcome :: q.trace } (.completed b outcome :: q.trace) g := by
        have hfailures : failures g (.completed b outcome :: q.trace) = failures g q.trace := if_neg hg
        have hback : BackedOff g (.completed b outcome :: q.trace) ↔ BackedOff g q.trace := by
          rw [BackedOff, if_neg hg]
        exact ⟨hfailures ▸ (h.group g).retry, hfailures ▸ (h.group g).count, hback.trans (h.group g).backedOff⟩
      have hnew := hold.touch ht hg
      exact ⟨hnew.retry, hnew.count, hnew.backedOff⟩
  · show (∃ d, q'.timers.get k = _) ↔ q'.timer = some k
    have htimer : q'.timer = q.timer := ht.timer
    rw [htimer, ← h.debounce k]
    exact exists_congr fun d => ht.timers k _ fun g _ => by simp
  · rcases hflights with ⟨hrun, d, hd⟩ | hidle
    · exact Or.inl ⟨hrun, _, hd⟩
    · exact Or.inr hidle
  · show g ∈ q'.pending ∨ (∃ b', flights = [.evaluating b'] ∧ g ∈ b') ∨ BackedOff g q'.trace
    have hg : Owed g q'.trace := hg
    rw [htrace] at hg ⊢
    rw [hpending]
    obtain ⟨howed, hnew⟩ := hg
    by_cases hgb : g ∈ b
    · rcases hnew hgb with hfailed | hsince
      · exact Or.inr (Or.inr (by rw [BackedOff, if_pos hgb]; exact hfailed))
      · exact Or.inl ((h.batch b hb).2 g hsince)
    · rcases h.owed g howed with hold | ⟨b', hb', hgb'⟩ | hback
      · exact Or.inl hold
      · rw [hb] at hb'
        cases hb'
        exact absurd hgb' hgb
      · exact Or.inr (Or.inr (by rw [BackedOff, if_neg hgb]; exact hback))

theorem Core.settle (h : Core o q) {b : List Nat} (hb : q.flights = [.evaluating b]) (outcome : Outcome) :
    Core o (q.settle o 0 b outcome) ∧ Armed (q.settle o 0 b outcome) := by
  have hrun : q.running = true := by
    rcases h.flights with ⟨hrun, _⟩ | ⟨_, hnil⟩
    · exact hrun
    · rw [hb] at hnil
      cases hnil
  have hnd := (h.batch b hb).1
  have hgroup : ∀ g, GroupOk o { q with trace := .completed b outcome :: q.trace } q.trace g :=
    fun g => ⟨(h.group g).retry, (h.group g).count, (h.group g).backedOff⟩
  have hkept : ∀ g ∈ b, ¬ outcome.Failed b g → failures g (.completed b outcome :: q.trace) = 0 ∧
      ¬ BackedOff g (.completed b outcome :: q.trace) := by
    intro g hg hnot
    unfold failures BackedOff
    rw [if_pos hg, if_neg hnot, if_pos hg]
    exact ⟨rfl, hnot⟩
  have hfailed : ∀ g ∈ b, outcome.Failed b g → failures g (.completed b outcome :: q.trace) = failures g q.trace + 1 ∧
      BackedOff g (.completed b outcome :: q.trace) := by
    intro g hg hfail
    rw [failures, BackedOff, if_pos hg, if_pos hfail, if_pos hg]
    exact ⟨rfl, hfail⟩
  -- the error path, whichever the error
  have herror : ∀ q₃ : Queue, q₃ = (((b.filter (fun g => g ∉ retryIds b outcome)).foldl Queue.clearRetry
      { q with trace := .completed b outcome :: q.trace }).scheduleRetries o (retryIds b outcome)).1 →
      ∀ d, Core o { q₃ with flights := q₃.flights.set 0 (.reporting d) } ∧
        Armed { q₃ with flights := q₃.flights.set 0 (.reporting d) } := by
    rintro q₃ rfl d
    obtain ⟨hcleared, hclearedOk⟩ := @clearRetries o q.trace (.completed b outcome :: q.trace)
      (b.filter (fun g => g ∉ retryIds b outcome)) _ (hnd.filter _) (fun g _ => hgroup g) (by
        intro g hg
        rw [List.mem_filter, decide_eq_true_eq, mem_retryIds] at hg
        exact hkept g hg.1 fun hfail => hg.2 ⟨hg.1, hfail⟩)
    have hapart : ∀ g, g ∈ retryIds b outcome → g ∉ b.filter (fun g => g ∉ retryIds b outcome) := by
      intro g hg hmem
      rw [List.mem_filter, decide_eq_true_eq] at hmem
      exact hmem.2 hg
    obtain ⟨hscheduled, hscheduledOk⟩ := @scheduleRetries o q.trace (.completed b outcome :: q.trace)
      (retryIds b outcome) _ (nodup_retryIds hnd outcome)
      (fun g hg => (hgroup g).touch hcleared (hapart g hg)) (by
        intro g hg
        rw [mem_retryIds] at hg
        exact hfailed g hg.1 hg.2)
    have htouch := hcleared.trans hscheduled
    have hflights := htouch.flights
    refine ⟨h.settled hb outcome ⟨fun k t hcall => htouch.timers k t fun g hg => ?_,
      fun g hg => htouch.retryTimers g fun hmem => ?_, fun g hg => htouch.failures g fun hmem => ?_, htouch.pending,
      htouch.timer, htouch.running, htouch.flights, htouch.trace⟩ (fun g hg => ?_)
      (Or.inl ⟨htouch.running.trans hrun, d, by rw [hflights, hb]; rfl⟩), fun hfalse => ?_⟩
    · rcases List.mem_append.mp hg with hg | hg
      · exact hcall g (List.mem_filter.mp hg).1
      · exact hcall g (mem_retryIds.mp hg).1
    · rcases List.mem_append.mp hmem with hmem | hmem
      · exact hg (List.mem_filter.mp hmem).1
      · exact hg (mem_retryIds.mp hmem).1
    · rcases List.mem_append.mp hmem with hmem | hmem
      · exact hg (List.mem_filter.mp hmem).1
      · exact hg (mem_retryIds.mp hmem).1
    · by_cases hretry : g ∈ retryIds b outcome
      · exact hscheduledOk g hretry
      · exact (hclearedOk g (List.mem_filter.mpr ⟨hg, by simpa using hretry⟩)).touch hscheduled hretry
    · have hstill := htouch.running.trans hrun
      exact absurd (hstill.symm.trans hfalse) (by simp)
  cases outcome with
  | success =>
    obtain ⟨htouch, hok⟩ := @clearRetries o q.trace (.completed b .success :: q.trace) b _ hnd (fun g _ => hgroup g) (fun g hg => hkept g hg id)
    have hflights := htouch.flights
    refine Core.arm (q := { b.foldl Queue.clearRetry { q with trace := .completed b .success :: q.trace } with
      flights := (b.foldl Queue.clearRetry { q with trace := .completed b .success :: q.trace }).flights.eraseIdx 0
      running := false }) ?_ o.debounceMs
    exact h.settled hb .success htouch hok (Or.inr ⟨rfl, by rw [hflights, hb]; rfl⟩)
  | batchError error => exact herror _ rfl _
  | otherError => exact herror _ rfl _

theorem Core.finish (h : Core o q) {d : ℚ} (hd : q.flights = [.reporting d]) :
    Core o (q.finish o 0) ∧ Armed (q.finish o 0) := by
  refine Core.arm (q := { q with flights := q.flights.eraseIdx 0, running := false })
    ⟨fun g => ⟨(h.group g).retry, (h.group g).count, (h.group g).backedOff⟩, h.debounce,
      Or.inr ⟨rfl, by rw [hd]; rfl⟩, h.nodup, fun b hb => ?_, fun g hg => ?_⟩ o.debounceMs
  · rw [hd] at hb
    cases hb
  · rcases h.owed g hg with hpending | ⟨b, hb, _⟩ | hback
    · exact Or.inl hpending
    · rw [hd] at hb
      cases hb
    · exact Or.inr (Or.inr hback)

theorem Core.only (h : Core o q) {i : Nat} {f : Flight} (hi : q.flights[i]? = some f) : i = 0 ∧ q.flights = [f] := by
  rcases h.flights with ⟨_, f', hf⟩ | ⟨_, hnil⟩
  · rw [hf] at hi
    cases i with
    | zero => exact ⟨rfl, by rw [hf, Option.some.inj hi]⟩
    | succ i => cases hi
  · rw [hnil] at hi
    cases hi

theorem Core.step (h : Core o q) {a : Action} (hs : q.step o a = some q') : Core o q' ∧ Armed q' := by
  cases a with
  | enqueue groupIds =>
    obtain rfl := Option.some.inj hs
    exact h.enqueue groupIds
  | fire k =>
    obtain ⟨t, hk, rfl⟩ := Option.map_eq_some_iff.mp hs
    exact h.fire hk
  | settle i outcome =>
    unfold Queue.step at hs
    cases hi : q.flights[i]? with
    | none => simp [hi] at hs
    | some f =>
      cases f with
      | reporting d => simp [hi] at hs
      | evaluating b =>
        simp only [hi, Option.some.injEq] at hs
        obtain ⟨rfl, hb⟩ := h.only hi
        exact hs ▸ h.settle hb outcome
  | reported i onError =>
    unfold Queue.step at hs
    cases hi : q.flights[i]? with
    | none => simp [hi] at hs
    | some f =>
      cases f with
      | evaluating b => simp [hi] at hs
      | reporting d =>
        obtain ⟨rfl, hd⟩ := h.only hi
        have hfinish := h.finish hd
        cases onError with
        | ok _ =>
          simp only [hi, Option.some.injEq] at hs
          exact hs ▸ hfinish
        | error _ =>
          simp only [hi, Option.some.injEq] at hs
          exact hs ▸ hfinish

theorem invariant {as : List Action} (h : Run (Steps.ofFn (Queue.step o)) initial as q) : Core o q ∧ Armed q :=
  h.preserves (P := fun q => Core o q ∧ Armed q) (fun _ _ _ hs hq => hq.1.step hs)
    ⟨core_initial, fun _ hne => absurd rfl hne⟩

theorem Core.evaluating (h : Core o q) : q.evaluating.length ≤ 1 := by
  have hlength : q.flights.length ≤ 1 := by
    rcases h.flights with ⟨_, f, hf⟩ | ⟨_, hnil⟩
    · rw [hf, List.length_singleton]
    · rw [hnil]
      exact Nat.zero_le 1
  exact (List.length_filterMap_le _ _).trans hlength

theorem Core.retryTimer (h : Core o q) (hback : BackedOff g q.trace) :
    ∃ k, q.timers.get k = some ⟨.retry g, retryDelay o (failures g q.trace)⟩ ∧
      ∀ k' d, q.timers.get k' = some ⟨.retry g, d⟩ → k' = k := by
  obtain ⟨k, hk⟩ := Option.isSome_iff_exists.mp ((h.group g).backedOff.mp hback)
  refine ⟨k, ((h.group g).retry k _).mpr ⟨hk, rfl⟩, fun k' d hk' => ?_⟩
  have hsame := ((h.group g).retry k' d).mp hk'
  exact Option.some.inj (hsame.1.symm.trans hk)

end

/-! ## No group is lost -/

/-- At most one call of `evaluate` is in progress; what is owed to a group is pending, in the batch
that is evaluated, or in its one live retry timer; groups that are pending while no batch runs have
the debounce timer armed; a group whose latest evaluation succeeded has neither a retry timer nor a
failure count; and a group that failed has a retry timer with the delay of its failures. -/
theorem evaluation_queue_loses_no_group (o : ForwardGroupEvaluationQueueOptions) {q : Queue} {as : List Action}
    (h : Run (Steps.ofFn (Queue.step o.delays)) initial as q) :
    q.evaluating.length ≤ 1 ∧
    (∀ g, Owed g q.trace →
      g ∈ q.pending ∨ (∃ b ∈ q.evaluating, g ∈ b) ∨ ∃! k, ∃ d, q.timers.get k = some ⟨.retry g, d⟩) ∧
    (q.pending ≠ [] → q.flights = [] → ∃ k d, q.timer = some k ∧ q.timers.get k = some ⟨.debounce, d⟩) ∧
    (∀ g, Succeeded g q.trace → q.retryTimers.lookup g = none ∧ q.consecutiveFailures.lookup g = none ∧
      ∀ k d, q.timers.get k ≠ some ⟨.retry g, d⟩) ∧
    (∀ g, BackedOff g q.trace → ∃ k, q.timers.get k = some ⟨.retry g,
      min o.delays.retryMaxMs (o.delays.retryBaseMs * 2 ^ min (failures g q.trace - 1) 30)⟩) := by
  obtain ⟨hcore, harmed⟩ := invariant h
  refine ⟨hcore.evaluating, fun g hg => ?_, fun hpending hidle => ?_, fun g hg => ?_, fun g hg => ?_⟩
  · rcases hcore.owed g hg with hpending | ⟨b, hb, hgb⟩ | hback
    · exact Or.inl hpending
    · refine Or.inr (Or.inl ⟨b, ?_, hgb⟩)
      simp [Queue.evaluating, hb]
    · obtain ⟨k, hk, honly⟩ := hcore.retryTimer hback
      exact Or.inr (Or.inr ⟨k, ⟨_, hk⟩, fun k' ⟨d, hd⟩ => honly k' d hd⟩)
  · have hrun : q.running = false := by
      rcases hcore.flights with ⟨_, f, hf⟩ | ⟨hfalse, _⟩
      · rw [hidle] at hf
        cases hf
      · exact hfalse
    obtain ⟨k, hk⟩ := Option.isSome_iff_exists.mp (harmed hrun hpending)
    obtain ⟨d, hd⟩ := (hcore.debounce k).mpr hk
    exact ⟨k, d, hk, hd⟩
  · obtain ⟨hzero, hback⟩ := of_succeeded hg
    have hnone : q.retryTimers.lookup g = none := by
      rw [← Option.not_isSome_iff_eq_none]
      exact fun hsome => hback ((hcore.group g).backedOff.mpr hsome)
    refine ⟨hnone, ?_, fun k d hk => ?_⟩
    · rw [(hcore.group g).count, if_pos hzero]
    · have hlive := ((hcore.group g).retry k d).mp hk
      rw [hnone] at hlive
      cases hlive.1
  · obtain ⟨k, hk, _⟩ := hcore.retryTimer hg
    exact ⟨k, hk⟩

/-- Group 1 fails `n` times: each time the debounce timer runs, then `evaluate` throws and the
retry timer runs, but for the last. -/
def failing (n : Nat) : List Action :=
  .enqueue [some 1] ::
    ((List.range n).flatMap fun i =>
      [.fire (2 * i), .settle 0 .otherError, .reported 0 (.ok ()), .fire (2 * i + 1)]).dropLast

def slow : ForwardGroupEvaluationQueueOptions := ⟨none, some 1, some 4294967296⟩

theorem two_failures_back_off : ∃ q as, Run (Steps.ofFn (Queue.step slow.delays)) initial as q ∧
    BackedOff 1 q.trace ∧ failures 1 q.trace = 2 ∧ ∃ k, q.timers.get k = some ⟨.retry 1, 2⟩ := by
  have hend : (exec (Queue.step slow.delays) initial (failing 2)).any (fun q =>
      (q.retryTimers.lookup 1).isSome && failures 1 q.trace == 2) = true := by decide +kernel
  obtain ⟨q, hq, hends⟩ := Option.any_eq_true _ _ |>.mp hend
  rw [Bool.and_eq_true, beq_iff_eq] at hends
  have hrun := exec_run hq
  have hback := (((invariant hrun).1.group 1).backedOff).mpr hends.1
  obtain ⟨k, hk⟩ := (evaluation_queue_loses_no_group slow hrun).2.2.2.2 1 hback
  refine ⟨q, _, hrun, hback, hends.2, k, ?_⟩
  rw [hk, hends.2]
  decide +kernel

/-- The delay stops doubling at the 31st failure: under a maximum above `2 ^ 30` times the base
the 32nd is retried too early for the doubling rule. -/
theorem doubling_stops : ¬ ∀ (o : ForwardGroupEvaluationQueueOptions) (q : Queue) (as : List Action),
    Run (Steps.ofFn (Queue.step o.delays)) initial as q → ∀ g, BackedOff g q.trace → ∃ k, q.timers.get k =
      some ⟨.retry g, min o.delays.retryMaxMs (o.delays.retryBaseMs * 2 ^ (failures g q.trace - 1))⟩ := by
  intro hall
  have hend : (exec (Queue.step slow.delays) initial (failing 32)).any (fun q =>
      (q.retryTimers.lookup 1).isSome && failures 1 q.trace == 32) = true := by decide +kernel
  obtain ⟨q, hq, hends⟩ := Option.any_eq_true _ _ |>.mp hend
  rw [Bool.and_eq_true, beq_iff_eq] at hends
  have hrun := exec_run hq
  have hcore := (invariant hrun).1
  obtain ⟨k, hk⟩ := hall slow q _ hrun 1 ((hcore.group 1).backedOff.mpr hends.1)
  have hdelay := (((hcore.group 1).retry k _).mp hk).2
  rw [hends.2] at hdelay
  exact absurd hdelay (by decide +kernel)

end ForwardX.Panel.EvaluationQueue
