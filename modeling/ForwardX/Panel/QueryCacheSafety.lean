import ForwardX.Panel.QueryCacheRuns

/- Safety of the query cache over every run: the limits and the exact total, one load in flight for
   a key since it was cleared, no entry evicted under its load, nothing from before a clear, and no
   value past its time. -/
namespace ForwardX.Panel.QueryCache
open Transition Assoc

def Answer.load {V : Type} : Answer V → Option Nat
  | .value _ i | .promise i => some i
  | .busy => none

/-- At most one of the loads of the key from number `n` on is in flight. -/
def Cache.Once {V : Type} (s : Cache V) (key : String) (n : Nat) : Prop :=
  ∀ (i j : Nat) (l m : Load), s.loads[i]? = some l → s.loads[j]? = some m → l.key = key → m.key = key →
    l.inFlight = true → m.inFlight = true → n ≤ i → n ≤ j → i = j

section
variable {V : Type} {o : CacheOptions V} {s t u : Cache V} {key : String} {a : Action V}

theorem inFlight_of_pending {l : Load} {p : Progress} (h : l.progress = p) (hp : p ≠ .settled) : l.inFlight = true := by
  rw [Load.inFlight, h]
  exact bne_iff_ne.mpr hp

/-- A load that is not over is in flight, at the progress that was asked for. -/
theorem load_of_filter {i : Nat} {p : Progress} (hp : p ≠ .settled) {f : Load → Cache V}
    (h : (s.loads[i]?.filter (fun l => l.progress = p)).map f = some t) :
    ∃ l, s.loads[i]? = some l ∧ l.inFlight = true ∧ f l = t := by
  obtain ⟨l, hl, ht⟩ := Option.map_eq_some_iff.mp h
  obtain ⟨hl, hlp⟩ := Option.filter_eq_some_iff.mp hl
  exact ⟨l, hl, inFlight_of_pending (of_decide_eq_true hlp) hp, ht⟩

theorem Cache.Inv.apply (h : s.Inv o) (ha : apply o s a = some t) : t.Inv o ∧ Moves (fun k => a.clears k) s t := by
  have hshrunk : ∀ {t}, Shrunk s t → t.Inv o ∧ Moves (fun k => a.clears k) s t := fun hs => ⟨h.shrunk hs, hs.moves _⟩
  cases a with
  | get key ttlMs staleMs now =>
    obtain rfl := Option.some.inj ha
    obtain ⟨⟨u, hu, hstart⟩, _⟩ := get_spec s o key ttlMs staleMs now h.core.keys
    have hinv := h.shrunk hu
    exact ⟨hinv.starts hstart, (hu.moves _).trans (hstart.moves hinv.core.keys _)⟩
  | resolve i value now =>
    obtain ⟨l, hl, hf, rfl⟩ := load_of_filter (by decide) ha
    exact ⟨h.resolve hl hf value now, h.core.moves_resolve hl hf value now⟩
  | reject i now =>
    obtain ⟨l, hl, hf, rfl⟩ := load_of_filter (by decide) ha
    exact ⟨h.progress hl hf (Or.inl (by decide)), moves_progress s hl hf _⟩
  | fail i now =>
    obtain ⟨l, hl, hf, rfl⟩ := load_of_filter (by decide) ha
    exact ⟨h.fail hl hf now, h.core.moves_fail hl hf now⟩
  | prune now =>
    obtain rfl := Option.some.inj ha
    exact hshrunk (shrunk_prune s o now)
  | timer now =>
    by_cases htimer : s.cleanupTimer = true
    · rw [QueryCache.apply, if_pos htimer] at ha
      obtain rfl := Option.some.inj ha
      have hs := shrunk_prune { s with cleanupTimer := false } o now
      exact hshrunk ⟨hs.loads, hs.nextId, hs.entries, hs.kept, hs.bytes⟩
    · rw [QueryCache.apply, if_neg htimer] at ha
      cases ha
  | clear matching =>
    obtain rfl := Option.some.inj ha
    exact ⟨h.removeAll _, moves_clear s rfl rfl rfl⟩
  | clearAll =>
    obtain rfl := Option.some.inj ha
    refine ⟨h.clearAll, moves_clear s rfl rfl ?_⟩
    show [] = s.entries.filter fun _ => false
    rw [List.filter_false]

theorem step_apply (h : step o s a = some t) : ∃ u, apply o s a = some u ∧ t = { u with clock := t.clock } := by
  by_cases hclock : s.clock ≤ a.now.getD s.clock
  · rw [step, if_pos hclock] at h
    obtain ⟨u, hu, rfl⟩ := Option.map_eq_some_iff.mp h
    exact ⟨u, hu, rfl⟩
  · rw [step, if_neg hclock] at h
    cases h

theorem Cache.Inv.step (h : s.Inv o) (hst : step o s a = some t) : t.Inv o := by
  obtain ⟨u, hu, ht⟩ := step_apply hst
  obtain ⟨⟨hkeys, hids, hfresh, hloads, hbytes, hpromise, hflight, hvalue⟩, hsize, hfits⟩ := (h.apply hu).1
  rw [ht]
  exact ⟨⟨hkeys, hids, hfresh, hloads, hbytes, hpromise, hflight, hvalue⟩, hsize, hfits⟩

theorem Cache.Inv.moves (h : s.Inv o) (hst : QueryCache.step o s a = some t) : Moves (fun k => a.clears k) s t := by
  obtain ⟨u, hu, ht⟩ := step_apply hst
  obtain ⟨hnext, hold, hnew, hids, hkept⟩ := (h.apply hu).2
  rw [ht]
  exact ⟨hnext, hold, hnew, hids, hkept⟩

theorem cleared_gone (hst : QueryCache.step o s a = some t) (hc : a.clears key = true) : ∀ e ∈ t.entries, e.1 ≠ key := by
  obtain ⟨u, hu, ht⟩ := step_apply hst
  intro e he hk
  rw [ht] at he
  cases a with
  | clear matching =>
    obtain rfl := Option.some.inj hu
    have hne : (!matching e.1) = true := (List.mem_filter.mp he).2
    have hc : matching key = true := hc
    rw [hk, hc] at hne
    cases hne
  | clearAll =>
    obtain rfl := Option.some.inj hu
    cases he
  | get => cases hc
  | resolve => cases hc
  | reject => cases hc
  | fail => cases hc
  | prune => cases hc
  | timer => cases hc

theorem inv_start (o : CacheOptions V) (clock : Int) : (createQueryCache clock : Cache V).Inv o := by
  refine ⟨⟨List.nodup_nil, fun _ h => (by cases h), fun _ h => (by cases h), fun _ h => (by cases h), rfl,
    fun _ h => (by cases h), fun _ _ h => (by cases h), fun _ h => (by cases h)⟩, Nat.zero_le _, fun m _ => ?_⟩
  exact Int.natCast_nonneg m

theorem Cache.Inv.run {as : List (Action V)} (h : s.Inv o) (hrun : Run (Steps.ofFn (QueryCache.step o)) s as t) : t.Inv o :=
  hrun.preserves (fun _ _ _ hst hs => hs.step hst) h

/-! ## Since a key was cleared -/

/-- What is left of the key came after number `n` of the loads and identity `m` of the entries. -/
structure Cache.Since (s : Cache V) (key : String) (n m : Nat) : Prop where
  length : n ≤ s.loads.length
  next : m ≤ s.nextId
  entries : ∀ e ∈ s.entries, e.1 = key → m ≤ e.2.id
  loads : ∀ (i : Nat) (l : Load), s.loads[i]? = some l → i < n → l.entry < m

theorem Cache.Since.moves {cleared : String → Bool} {n m : Nat} (h : s.Since key n m) (hm : Moves cleared s t) :
    t.Since key n m := by
  refine ⟨h.length.trans hm.length, h.next.trans hm.nextId, fun e he hk => ?_, fun i l hl hi => ?_⟩
  · rcases hm.ids e he with hid | ⟨e', he', hk', hid⟩
    · exact h.next.trans hid
    · rw [← hid]
      exact h.entries e' he' (hk'.trans hk)
  · have hlt := hi.trans_le h.length
    obtain ⟨l', hl', _, hen, _⟩ := hm.old i _ (List.getElem?_eq_getElem hlt)
    obtain rfl := Option.some.inj (hl.symm.trans hl')
    rw [hen]
    exact h.loads i _ (List.getElem?_eq_getElem hlt) hi

theorem Cache.Since.run {as : List (Action V)} {n m : Nat} (hinv : s.Inv o) (h : s.Since key n m)
    (hrun : Run (Steps.ofFn (QueryCache.step o)) s as t) : t.Since key n m := by
  have hboth : t.Inv o ∧ t.Since key n m :=
    hrun.preserves (P := fun u => Cache.Inv o u ∧ u.Since key n m)
      (fun _ _ _ hst hs => ⟨hs.1.step hst, hs.2.moves (hs.1.moves hst)⟩) ⟨hinv, h⟩
  exact hboth.2

theorem since_clear (h : s.Inv o) (hst : QueryCache.step o s a = some t) (hc : a.clears key = true) :
    t.Since key t.loads.length t.nextId :=
  ⟨Nat.le_refl _, Nat.le_refl _, fun e he hk => absurd hk (cleared_gone hst hc e he),
    fun _ l hl _ => (h.step hst).core.loads l (List.mem_of_getElem? hl)⟩

theorem Cache.Since.answer (h : s.Core) {n m : Nat} (hs : s.Since key n m) {now : Int} {answer : Answer V}
    (hfrom : answer.From s key now) {i : Nat} (hi : answer.load = some i) : n ≤ i := by
  -- a load of an entry of the key is not one from before
  have hload : ∀ (e : CacheEntry V) (l : Load), (key, e) ∈ s.entries → s.loads[i]? = some l → l.entry = e.id → n ≤ i := by
    intro e l he hl hid
    refine Nat.le_of_not_lt fun hlt => ?_
    have hbefore := hs.loads i l hl hlt
    rw [hid] at hbefore
    exact absurd (hs.entries (key, e) he rfl) (Nat.not_le_of_lt hbefore)
  cases answer with
  | value v j =>
    obtain rfl := Option.some.inj hi
    obtain ⟨e, he, hv, rfl, _⟩ := hfrom
    obtain ⟨l, _, hl, _, hid, _⟩ := h.value (key, e) he (by rw [hv]; rfl)
    exact hload e l he hl hid
  | promise j =>
    obtain rfl := Option.some.inj hi
    rcases hfrom with rfl | ⟨e, he, hp⟩
    · exact hs.length
    · obtain ⟨l, hl, _, hid, _⟩ := h.promise (key, e) he j hp
      exact hload e l he hl hid
  | busy => cases hi

/-- The loads of the key in flight from number `n` on are those of entries. -/
def Cache.Held (s : Cache V) (key : String) (n : Nat) : Prop :=
  ∀ (i : Nat) (l : Load), s.loads[i]? = some l → l.key = key → n ≤ i → l.inFlight = true →
    ∃ e ∈ s.entries, e.1 = key ∧ e.2.promise = some i

theorem Cache.Held.once {n : Nat} (h : s.Held key n) (hc : s.Core) : s.Once key n := by
  intro i j l m hl hm hlk hmk hlf hmf hi hj
  obtain ⟨e, he, hek, hep⟩ := h i l hl hlk hi hlf
  obtain ⟨e', he', hek', hep'⟩ := h j m hm hmk hj hmf
  obtain ⟨_, hl', _, hid, _⟩ := hc.promise e he i hep
  have hsame : e = e' := Rows.eq_of_key hc.keys he he' (hek.trans hek'.symm)
  rw [← hsame, hep] at hep'
  exact Option.some.inj hep'

theorem Cache.Held.moves {cleared : String → Bool} {n : Nat} (h : s.Held key n) (hm : Moves cleared s t)
    (hc : cleared key = false) : t.Held key n := by
  intro i l hl hk hi hf
  rcases Nat.lt_or_ge i s.loads.length with hlt | hge
  · obtain ⟨l', hl', hk', _, hf'⟩ := hm.old i _ (List.getElem?_eq_getElem hlt)
    obtain rfl := Option.some.inj (hl.symm.trans hl')
    obtain ⟨e, he, hek, hp⟩ := h i _ (List.getElem?_eq_getElem hlt) (hk'.symm.trans hk) hi (hf' hf)
    rcases hm.kept e he i hp (hek ▸ hc) with ⟨m, hm', hmf⟩ | ⟨e', he', hek', _, hp'⟩
    · obtain rfl := Option.some.inj (hl.symm.trans hm')
      rw [hf] at hmf
      cases hmf
    · exact ⟨e', he', hek'.trans hek, hp'⟩
  · obtain ⟨e, he, hek, _, hp⟩ := hm.new i l hl hge hf (hk ▸ hc)
    exact ⟨e, he, hek.trans hk, hp⟩

theorem Cache.Held.run {as : List (Action V)} {n : Nat} (hinv : s.Inv o) (h : s.Held key n)
    (hrun : Run (Steps.ofFn (QueryCache.step o)) s as t) (hclears : ∀ b ∈ as, b.clears key = false) :
    t.Held key n := by
  induction hrun with
  | nil => exact h
  | snoc hrun hst ih =>
    refine (ih fun b hb => hclears b (List.mem_append_left _ hb)).moves ((hinv.run hrun).moves hst) ?_
    exact hclears _ (List.mem_append_right _ (List.mem_singleton_self _))

theorem held_from_now (s : Cache V) (key : String) : s.Held key s.loads.length :=
  fun _ _ hl _ hi _ => absurd (List.getElem?_eq_some_iff.mp hl).1 (Nat.not_lt_of_le hi)

/-- In every run of a cache the number of entries and their sizes stay within the limits, and the
total is exact. Since a key was cleared at most one load is in flight for it; an entry leaves under
its load only when its key is cleared; no answer after a clear comes from a load before it, and a
value that is answered at once was stored less than its two times ago. -/
theorem query_cache_sound (o : CacheOptions V) (clock : Int) {as : List (Action V)} {s : Cache V}
    (h : Run (Steps.ofFn (QueryCache.step o)) (createQueryCache clock) as s) :
    s.entries.length ≤ o.entries ∧ s.bytes = total s.entries ∧ o.fits s.bytes ∧
    (∀ key, (∀ a ∈ as, a.clears key = false) → s.Once key 0) ∧
    (∀ key ttlMs staleMs now v i, (s.get o key ttlMs staleMs now).2 = .value v i →
      ∃ (l : Load) (at' : Int), s.loads[i]? = some l ∧ l.key = key ∧ l.storedAt = some at' ∧
        now < at' + l.ttlMs + l.staleMs) ∧
    ∀ a t, QueryCache.step o s a = some t →
      (∀ e ∈ s.entries, ∀ i, e.2.promise = some i → a.clears e.1 = false →
        (∃ l : Load, t.loads[i]? = some l ∧ l.inFlight = false) ∨
          ∃ e' ∈ t.entries, e'.1 = e.1 ∧ e'.2.id = e.2.id ∧ e'.2.promise = some i) ∧
      ∀ key, a.clears key = true → ∀ bs u, Run (Steps.ofFn (QueryCache.step o)) t bs u →
        (∀ ttlMs staleMs now i, (u.get o key ttlMs staleMs now).2.load = some i → t.loads.length ≤ i) ∧
        ((∀ b ∈ bs, b.clears key = false) → u.Once key t.loads.length) := by
  have hinv : s.Inv o := (inv_start o clock).run h
  refine ⟨hinv.size, hinv.core.bytes, hinv.fits, fun key hclears => ?_, fun key ttlMs staleMs now v i hv => ?_,
    fun a t hst => ⟨(hinv.moves hst).kept, fun key hc bs u hrun => ⟨fun ttlMs staleMs now i hi => ?_, fun hclears => ?_⟩⟩⟩
  · exact ((held_from_now _ key).run (inv_start o clock) h hclears).once hinv.core
  · obtain ⟨_, hfrom⟩ := get_spec s o key ttlMs staleMs now hinv.core.keys
    rw [hv] at hfrom
    obtain ⟨e, he, hval, rfl, hnow⟩ := hfrom
    obtain ⟨l, at', hl, hk, _, _, hat, hfresh, hstale⟩ := hinv.core.value (key, e) he (by rw [hval]; rfl)
    have hfresh : e.freshUntil = at' + l.ttlMs := hfresh
    have hstale : e.staleUntil = at' + l.ttlMs + l.staleMs := hstale
    exact ⟨l, at', hl, hk, hat, by omega⟩
  · have hu := (hinv.step hst).run hrun
    obtain ⟨_, hfrom⟩ := get_spec u o key ttlMs staleMs now hu.core.keys
    exact ((since_clear hinv hst hc).run (hinv.step hst) hrun).answer hu.core hfrom hi
  · exact ((held_from_now t key).run (hinv.step hst) hrun hclears).once ((hinv.step hst).run hrun).core

end

def small : CacheOptions Nat := ⟨some 1, some 10, some id, none⟩

/-- A value is loaded, served and refreshed, and cleared under the load. -/
def clearedRun : List (Action Nat) :=
  [.get "k" 5 none 0, .resolve 0 (some 3) 2, .get "k" 5 none 4, .get "k" 5 none 8, .clear (fun _ => true),
    .get "k" 5 none 9, .resolve 1 (some 4) 9]

theorem query_cache_cleared :
    ∃ s, exec (QueryCache.step small) (createQueryCache 0) clearedRun = some s ∧ s.entries.length = 1 ∧
      s.bytes = total s.entries := by
  have hsome : (exec (QueryCache.step small) (createQueryCache 0) clearedRun).isSome = true := by decide +kernel
  have hrun := (Option.some_get hsome).symm
  exact ⟨_, hrun, rfl, (query_cache_sound small 0 (exec_run hrun)).2.1⟩

end ForwardX.Panel.QueryCache
