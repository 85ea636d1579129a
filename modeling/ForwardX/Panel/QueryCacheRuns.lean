import ForwardX.Panel.QueryCacheInvariant

/- Every run of the query cache. A step keeps the invariant and moves the loads and the entries in
   few ways: what holds of one key since it was cleared follows from those. -/
namespace ForwardX.Panel.QueryCache
open Transition Assoc

section
variable {V : Type} {o : CacheOptions V} {s t u : Cache V} {key : String}

/-! ## Each step keeps the invariant -/

theorem length_update (s : Cache V) (key : String) (f : CacheEntry V → CacheEntry V) :
    (s.update key f).entries.length = s.entries.length :=
  List.length_map _

theorem length_startLoad (s : Cache V) (key : String) (id ttlMs staleMs : Nat) :
    (s.startLoad key id ttlMs staleMs).entries.length = s.entries.length :=
  length_update s key fun e => { e with promise := some s.loads.length }

theorem length_put {entries : List (String × CacheEntry V)} {e : CacheEntry V} (h : entries.lookup key = none) :
    (put entries key e).length = entries.length + 1 := by
  rw [put, erase_of_notMem (lookup_eq_none.mp h), List.length_append, List.length_singleton]

theorem Cache.Inv.starts {ttlMs staleMs : Nat} (h : s.Inv o) (hs : Starts o key ttlMs staleMs s t) : t.Inv o := by
  cases hs with
  | nothing => exact h
  | again hlook hnone =>
    refine ⟨h.core.startLoad hlook hnone ttlMs staleMs, ?_, h.fits⟩
    rw [length_startLoad]
    exact h.size
  | first timer hlook hroom =>
    refine ⟨(h.core.newEntry hlook timer).startLoad (lookup_put_self _ _ _) rfl ttlMs staleMs, ?_, h.fits⟩
    rw [length_startLoad]
    show (put s.entries key _).length ≤ _
    rw [length_put hlook]
    exact hroom

theorem Cache.Inv.remove_bytes (h : s.Inv o) (test : String × CacheEntry V → Bool) :
    (s.removeAll test).bytes = total (s.removeAll test).entries := by
  rw [bytes_removeAll, h.core.bytes]
  omega

theorem Cache.Inv.removeAll (h : s.Inv o) (test : String × CacheEntry V → Bool) : (s.removeAll test).Inv o := by
  have hsub : (s.removeAll test).entries.Sublist s.entries := List.filter_sublist
  refine ⟨h.core.sub rfl rfl hsub.subperm (h.remove_bytes test), hsub.length_le.trans h.size, ?_⟩
  refine CacheOptions.fits_mono h.fits ?_
  rw [h.remove_bytes, h.core.bytes]
  exact total_sublist hsub

theorem Cache.Inv.clearAll (h : s.Inv o) : s.clearAll.Inv o := by
  refine ⟨h.core.sub rfl rfl (List.nil_sublist _).subperm rfl, Nat.zero_le _, CacheOptions.fits_mono h.fits ?_⟩
  rw [h.core.bytes]
  exact total_nonneg s.entries

variable {i : Nat} {l : Load}

/-- The entry of a load, where it is the one at its key, waits for the load. -/
theorem Cache.Core.current (h : s.Core) (hl : s.loads[i]? = some l) (hf : l.inFlight = true) {e : CacheEntry V}
    (hcur : s.current l = some e) : s.entries.lookup l.key = some e ∧ e.id = l.entry ∧ e.promise = some i := by
  obtain ⟨hlook, hid⟩ := Option.filter_eq_some_iff.mp hcur
  have hid : e.id = l.entry := beq_iff_eq.mp hid
  exact ⟨hlook, hid, (h.flight i l hl hf (l.key, e) (mem_of_lookup hlook) hid).2⟩

theorem Cache.Core.no_entry (h : s.Core) (hl : s.loads[i]? = some l) (hf : l.inFlight = true)
    (hcur : s.current l = none) : ∀ e ∈ s.entries, e.2.id ≠ l.entry := by
  intro e he hid
  have hkey := (h.flight i l hl hf e he hid).1
  have hlook : s.entries.lookup l.key = some e.2 := lookup_of_mem h.keys (hkey ▸ he)
  rw [Cache.current, hlook, Option.filter_some, if_pos (beq_iff_eq.mpr hid)] at hcur
  cases hcur

theorem Cache.Core.removed (h : s.Core) (hl : s.loads[i]? = some l) (hf : l.inFlight = true) :
    ∀ e ∈ s.entries.filter (fun e => !(e.1 == l.key)), e.2.id ≠ l.entry := by
  intro e he hid
  obtain ⟨he, hne⟩ := List.mem_filter.mp he
  rw [(h.flight i l hl hf e he hid).1, beq_self_eq_true] at hne
  cases hne

theorem Cache.Inv.progress (h : s.Inv o) (hl : s.loads[i]? = some l) (hf : l.inFlight = true) {p : Progress}
    (hgone : p ≠ .settled ∨ ∀ e ∈ s.entries, e.2.id ≠ l.entry) : (s.progress i l p).Inv o := by
  refine ⟨h.core.setLoad (d := { l with progress := p }) hl hf rfl rfl rfl rfl (List.Subperm.refl _) h.core.bytes
    (hgone.imp_left fun hp => ?_), h.size, h.fits⟩
  exact bne_iff_ne.mpr hp

theorem Cache.Inv.drop (h : s.Inv o) (hl : s.loads[i]? = some l) (hf : l.inFlight = true) :
    ((s.remove l.key).progress i l .settled).Inv o := by
  have hrem : (s.remove l.key).Inv o := h.removeAll _
  exact hrem.progress hl hf (Or.inr (h.core.removed hl hf))

variable {f : CacheEntry V → CacheEntry V}

theorem remove_update (s : Cache V) (key : String) (hf : ∀ e, (f e).bytes = e.bytes) :
    (s.update key f).remove key = s.remove key := by
  have hentries := filter_update s key f
  have hmap : (s.update key f).entries.map (fun e => (e.1, e.2.bytes)) = s.entries.map (fun e => (e.1, e.2.bytes)) := by
    show (s.entries.map fun r => if r.1 = key then (r.1, f r.2) else r).map _ = _
    rw [List.map_map]
    refine List.map_congr_left fun r _ => ?_
    by_cases hr : r.1 = key
    · simp [hr, hf]
    · simp [hr]
  have hsum : ∀ entries : List (String × CacheEntry V),
      ((entries.filter (fun e => e.1 == key)).map (fun e => (e.2.bytes : Int))).sum =
        (((entries.map (fun e => (e.1, e.2.bytes))).filter (fun e => e.1 == key)).map (fun e => (e.2 : Int))).sum := by
    intro entries
    rw [List.filter_map, List.map_map]
    rfl
  unfold Cache.remove Cache.removeAll Cache.retain
  rw [hentries, hsum, hsum, hmap]
  rfl

theorem Cache.Inv.fail (h : s.Inv o) (hl : s.loads[i]? = some l) (hf : l.inFlight = true) (now : Int) :
    (s.fail o i l now).Inv o := by
  unfold Cache.fail
  cases hcur : s.current l with
  | none => exact h.progress hl hf (Or.inr (h.core.no_entry hl hf hcur))
  | some e =>
    obtain ⟨hlook, hid, _⟩ := h.core.current hl hf hcur
    dsimp only
    by_cases hv : e.value.isNone = true
    · rw [if_pos hv,
        remove_update (f := fun e => { e with promise := none, retryAt := now + o.retry }) s l.key fun _ => rfl]
      exact h.drop hl hf
    · rw [if_neg hv]
      have hbytes := total_update (f := fun e => { e with promise := none, retryAt := now + o.retry }) h.core.keys hlook
      refine ⟨h.core.settle hl hf hlook hid (f := fun e => { e with promise := none, retryAt := now + o.retry })
        (d := { l with progress := .settled }) rfl rfl rfl rfl rfl rfl rfl rfl ?_
        (fun _ => Or.inl ⟨rfl, rfl, rfl, rfl⟩), ?_, h.fits⟩
      · show s.bytes = total (s.update l.key fun e => { e with promise := none, retryAt := now + o.retry }).entries
        rw [hbytes, h.core.bytes]
        show total s.entries = total s.entries - (e.bytes : Int) + (e.bytes : Int)
        omega
      · show (s.update l.key fun e => { e with promise := none, retryAt := now + o.retry }).entries.length ≤ _
        rw [length_update]
        exact h.size

/-- The value of an entry is stored, and what no longer fits is trimmed. -/
theorem Cache.Inv.store (h : s.Inv o) (hl : s.loads[i]? = some l) (hf : l.inFlight = true) {e : CacheEntry V}
    (hcur : s.current l = some e) (hfid : (f e).id = e.id) (hnone : (f e).promise = none) (hsource : (f e).source = i)
    {now : Int} (hfresh : (f e).freshUntil = now + l.ttlMs) (hstale : (f e).staleUntil = now + l.ttlMs + l.staleMs) :
    (Cache.trim { s.update l.key f with
      loads := s.loads.set i { l with progress := .settled, storedAt := some now }
      bytes := s.bytes - e.bytes + (f e).bytes } o 0).Inv o := by
  obtain ⟨hlook, hid, _⟩ := h.core.current hl hf hcur
  have hbytes : s.bytes - e.bytes + (f e).bytes = total (s.update l.key f).entries := by
    rw [total_update h.core.keys hlook, h.core.bytes]
  have hcore : Cache.Core { s.update l.key f with
      loads := s.loads.set i { l with progress := .settled, storedAt := some now }
      bytes := s.bytes - e.bytes + (f e).bytes } :=
    h.core.settle hl hf hlook hid (f := f) (d := { l with progress := .settled, storedAt := some now }) hfid hnone rfl
      rfl rfl rfl rfl rfl hbytes (fun _ => Or.inr ⟨now, hsource, rfl, hfresh, hstale⟩)
  have htrim := shrunk_trim { s.update l.key f with
      loads := s.loads.set i { l with progress := .settled, storedAt := some now }
      bytes := s.bytes - e.bytes + (f e).bytes } o 0
  have hroom := trim_room { s.update l.key f with
      loads := s.loads.set i { l with progress := .settled, storedAt := some now }
      bytes := s.bytes - e.bytes + (f e).bytes } o 0
  revert htrim hroom
  generalize Cache.trim _ o 0 = t
  intro htrim hroom
  have htb : t.bytes = total t.entries := by
    rw [htrim.bytes]
    show s.bytes - e.bytes + (f e).bytes - total (s.update l.key f).entries + total t.entries = total t.entries
    omega
  have htsize : t.entries.length ≤ o.entries := by
    refine htrim.entries.length_le.trans ?_
    rw [length_update]
    exact h.size
  refine ⟨hcore.sub htrim.loads htrim.nextId htrim.entries htb, htsize, ?_⟩
  rcases hroom with hroom | hall
  · exact hroom.2
  · -- the entry that was stored is gone, and the others were there before
    refine CacheOptions.fits_mono h.fits ?_
    have hother : t.entries.filter (fun e => !(e.1 == l.key)) = t.entries := by
      refine List.filter_eq_self.mpr fun x hx => ?_
      by_cases hx' : x.1 = l.key
      · have hmem := htrim.entries.subset hx
        rcases (mem_update h.core.keys hlook).mp hmem with rfl | ⟨_, hne⟩
        · have := hall _ hx
          rw [hnone] at this
          cases this
        · exact absurd hx' hne
      · simpa using hx'
    have hsub : t.entries.Subperm (s.entries.filter fun e => !(e.1 == l.key)) := by
      rw [← hother, ← filter_update s l.key f]
      exact htrim.entries.filter _
    calc t.bytes = total t.entries := htb
      _ ≤ total (s.entries.filter fun e => !(e.1 == l.key)) := total_subperm hsub
      _ ≤ total s.entries := total_sublist List.filter_sublist
      _ = s.bytes := h.core.bytes.symm

theorem Cache.Inv.resolve (h : s.Inv o) (hl : s.loads[i]? = some l) (hf : l.inFlight = true) (value : Option V)
    (now : Int) : (s.resolve o i l value now).Inv o := by
  unfold Cache.resolve
  cases hcur : s.current l with
  | none => exact h.progress hl hf (Or.inr (h.core.no_entry hl hf hcur))
  | some e =>
    dsimp only
    cases o.size l.key value with
    | none => exact h.progress hl hf (Or.inl (by decide))
    | some size =>
      dsimp only
      by_cases hfits : o.fits size
      · rw [if_pos hfits]
        exact h.store hl hf hcur (f := fun e => { e with
            value := value, promise := none, bytes := size, retryAt := 0, source := i
            freshUntil := now + l.ttlMs, staleUntil := now + l.ttlMs + l.staleMs }) rfl rfl rfl rfl rfl
      · rw [if_neg hfits]
        exact h.drop hl hf

/-! ## What a step does to the loads and the entries -/

/-- The loads go on in their entries, apart from the keys that are cleared. -/
structure Moves (cleared : String → Bool) (s t : Cache V) : Prop where
  nextId : s.nextId ≤ t.nextId
  old : ∀ (i : Nat) (l : Load), s.loads[i]? = some l → ∃ l' : Load, t.loads[i]? = some l' ∧ l'.key = l.key ∧
    l'.entry = l.entry ∧ (l'.inFlight = true → l.inFlight = true)
  /-- A load that is new is that of an entry. -/
  new : ∀ (i : Nat) (l : Load), t.loads[i]? = some l → s.loads.length ≤ i → l.inFlight = true → cleared l.key = false →
    ∃ e ∈ t.entries, e.1 = l.key ∧ e.2.id = l.entry ∧ e.2.promise = some i
  ids : ∀ e ∈ t.entries, s.nextId ≤ e.2.id ∨ ∃ e' ∈ s.entries, e'.1 = e.1 ∧ e'.2.id = e.2.id
  /-- An entry with a load stays until the load is over. -/
  kept : ∀ e ∈ s.entries, ∀ i, e.2.promise = some i → cleared e.1 = false →
    (∃ l : Load, t.loads[i]? = some l ∧ l.inFlight = false) ∨
      ∃ e' ∈ t.entries, e'.1 = e.1 ∧ e'.2.id = e.2.id ∧ e'.2.promise = some i

variable {e : CacheEntry V} {i : Nat} {cleared : String → Bool} {l : Load}

theorem Moves.length (h : Moves cleared s t) : s.loads.length ≤ t.loads.length := by
  refine Nat.le_of_not_lt fun hlt => ?_
  obtain ⟨l', hl', _⟩ := h.old t.loads.length _ (List.getElem?_eq_getElem hlt)
  exact absurd (List.getElem?_eq_some_iff.mp hl').1 (Nat.lt_irrefl _)

theorem Moves.trans (h : Moves cleared s u) (h' : Moves cleared u t) : Moves cleared s t := by
  refine ⟨h.nextId.trans h'.nextId, fun i l hl => ?_, fun i l hl hi hf hc => ?_, fun e he => ?_,
    fun e he i hp hc => ?_⟩
  · obtain ⟨m, hm, hmk, hme, hmf⟩ := h.old i l hl
    obtain ⟨l', hl', hk, hen, hf⟩ := h'.old i m hm
    exact ⟨l', hl', hk.trans hmk, hen.trans hme, fun h => hmf (hf h)⟩
  · rcases Nat.lt_or_ge i u.loads.length with hlt | hge
    · obtain ⟨l', hl', hk, hen, hf'⟩ := h'.old i _ (List.getElem?_eq_getElem hlt)
      obtain rfl := Option.some.inj (hl.symm.trans hl')
      obtain ⟨e, he, hek, hid, hp⟩ := h.new i _ (List.getElem?_eq_getElem hlt) hi (hf' hf) (hk ▸ hc)
      rcases h'.kept e he i hp (by rw [hek, ← hk]; exact hc) with ⟨m, hm, hmf⟩ | ⟨e', he', hek', hid', hp'⟩
      · obtain rfl := Option.some.inj (hl.symm.trans hm)
        rw [hf] at hmf
        cases hmf
      · exact ⟨e', he', hek'.trans (hek.trans hk.symm), hid'.trans (hid.trans hen.symm), hp'⟩
    · exact h'.new i l hl hge hf hc
  · rcases h'.ids e he with hid | ⟨e', he', hk, hid⟩
    · exact Or.inl (h.nextId.trans hid)
    · rcases h.ids e' he' with hid' | ⟨e'', he'', hk', hid'⟩
      · exact Or.inl (hid ▸ hid')
      · exact Or.inr ⟨e'', he'', hk'.trans hk, hid'.trans hid⟩
  · rcases h.kept e he i hp hc with ⟨l, hl, hf⟩ | ⟨e', he', hk, hid, hp'⟩
    · obtain ⟨l', hl', _, _, hf'⟩ := h'.old i l hl
      refine Or.inl ⟨l', hl', ?_⟩
      cases hover : l'.inFlight with
      | false => rfl
      | true =>
        rw [hf' hover] at hf
        cases hf
    · rcases h'.kept e' he' i hp' (hk ▸ hc) with hover | ⟨e'', he'', hk', hid', hp''⟩
      · exact Or.inl hover
      · exact Or.inr ⟨e'', he'', hk'.trans hk, hid'.trans hid, hp''⟩

theorem Shrunk.moves (h : Shrunk s t) (cleared : String → Bool) : Moves cleared s t := by
  refine ⟨Nat.le_of_eq h.nextId.symm, fun i l hl => ⟨l, h.loads ▸ hl, rfl, rfl, id⟩, fun i l hl hi => ?_,
    fun e he => Or.inr ⟨e, h.entries.subset he, rfl, rfl⟩, fun e he i hp _ => Or.inr ⟨e, ?_, rfl, rfl, hp⟩⟩
  · have := (List.getElem?_eq_some_iff.mp hl).1
    rw [h.loads] at this
    exact absurd hi (Nat.not_le_of_lt this)
  · exact h.kept e he (by rw [hp]; rfl)

theorem moves_set {l d : Load} (hl : s.loads[i]? = some l) (hkey : d.key = l.key) (hentry : d.entry = l.entry)
    (hf : l.inFlight = true) (hloads : t.loads = s.loads.set i d) (hnext : t.nextId = s.nextId)
    (hids : ∀ e ∈ t.entries, ∃ e' ∈ s.entries, e'.1 = e.1 ∧ e'.2.id = e.2.id)
    (hkept : ∀ e ∈ s.entries, ∀ j, e.2.promise = some j → (j = i ∧ d.inFlight = false) ∨ e ∈ t.entries) :
    Moves cleared s t := by
  have hlt := (List.getElem?_eq_some_iff.mp hl).1
  refine ⟨Nat.le_of_eq hnext.symm, fun j m hm => ?_, fun j m hm hj => ?_, fun e he => Or.inr (hids e he),
    fun e he j hp _ => ?_⟩
  · rw [hloads]
    by_cases hj : j = i
    · subst hj
      obtain rfl := Option.some.inj (hl.symm.trans hm)
      exact ⟨d, List.getElem?_set_self hlt, hkey, hentry, fun _ => hf⟩
    · exact ⟨m, by rw [List.getElem?_set_ne (Ne.symm hj)]; exact hm, rfl, rfl, id⟩
  · have := (List.getElem?_eq_some_iff.mp hm).1
    rw [hloads, List.length_set] at this
    exact absurd hj (Nat.not_le_of_lt this)
  · rcases hkept e he j hp with ⟨rfl, hover⟩ | he'
    · exact Or.inl ⟨d, by rw [hloads]; exact List.getElem?_set_self hlt, hover⟩
    · exact Or.inr ⟨e, he', rfl, rfl, hp⟩

theorem moves_progress (s : Cache V) (hl : s.loads[i]? = some l) (hf : l.inFlight = true) (p : Progress) :
    Moves cleared s (s.progress i l p) :=
  moves_set (d := { l with progress := p }) hl rfl rfl hf rfl rfl (fun e he => ⟨e, he, rfl, rfl⟩)
    (fun _ he _ _ => Or.inr he)

theorem Cache.Core.moves_drop (h : s.Core) (hl : s.loads[i]? = some l) (hf : l.inFlight = true)
    (hcur : s.current l = some e) : Moves cleared s ((s.remove l.key).progress i l .settled) := by
  obtain ⟨hlook, _, hp⟩ := h.current hl hf hcur
  refine moves_set (d := { l with progress := .settled }) hl rfl rfl hf rfl rfl
    (fun x hx => ⟨x, (List.mem_filter.mp hx).1, rfl, rfl⟩) fun x hx j hj => ?_
  by_cases hk : x.1 = l.key
  · have hx' : x.2 = e := Option.some.inj ((lookup_of_mem h.keys (hk ▸ hx)).symm.trans hlook)
    rw [hx', hp] at hj
    exact Or.inl ⟨(Option.some.inj hj).symm, rfl⟩
  · exact Or.inr (List.mem_filter.mpr ⟨hx, by simpa using hk⟩)

theorem Cache.Core.moves_update (h : s.Core) {l d : Load} (hl : s.loads[i]? = some l) (hf : l.inFlight = true)
    (hcur : s.current l = some e) (hfid : (f e).id = e.id) (hkey : d.key = l.key) (hentry : d.entry = l.entry)
    (hover : d.inFlight = false) (hloads : t.loads = s.loads.set i d) (hnext : t.nextId = s.nextId)
    (hentries : t.entries = (s.update l.key f).entries) : Moves cleared s t := by
  obtain ⟨hlook, _, hp⟩ := h.current hl hf hcur
  have hmem : ∀ x, x ∈ t.entries ↔ x = (l.key, f e) ∨ (x ∈ s.entries ∧ x.1 ≠ l.key) := fun x => by
    rw [hentries]
    exact mem_update h.keys hlook
  refine moves_set hl hkey hentry hf hloads hnext (fun x hx => ?_) fun x hx j hj => ?_
  · rcases (hmem x).mp hx with rfl | ⟨hx, _⟩
    · exact ⟨(l.key, e), mem_of_lookup hlook, rfl, hfid.symm⟩
    · exact ⟨x, hx, rfl, rfl⟩
  · by_cases hk : x.1 = l.key
    · have hx' : x.2 = e := Option.some.inj ((lookup_of_mem h.keys (hk ▸ hx)).symm.trans hlook)
      rw [hx', hp] at hj
      exact Or.inl ⟨(Option.some.inj hj).symm, hover⟩
    · exact Or.inr ((hmem x).mpr (Or.inr ⟨hx, hk⟩))

theorem Cache.Core.moves_resolve (h : s.Core) (hl : s.loads[i]? = some l) (hf : l.inFlight = true) (value : Option V)
    (now : Int) : Moves cleared s (s.resolve o i l value now) := by
  unfold Cache.resolve
  cases hcur : s.current l with
  | none => exact moves_progress s hl hf _
  | some e =>
    dsimp only
    cases o.size l.key value with
    | none => exact moves_progress s hl hf _
    | some size =>
      dsimp only
      by_cases hfits : o.fits size
      · rw [if_pos hfits]
        refine Moves.trans ?_ ((shrunk_trim _ o 0).moves cleared)
        exact h.moves_update hl hf hcur (f := fun e => { e with
            value := value, promise := none, bytes := size, retryAt := 0, source := i
            freshUntil := now + l.ttlMs, staleUntil := now + l.ttlMs + l.staleMs })
          (d := { l with progress := .settled, storedAt := some now }) rfl rfl rfl rfl rfl rfl rfl
      · rw [if_neg hfits]
        exact h.moves_drop hl hf hcur

theorem Cache.Core.moves_fail (h : s.Core) (hl : s.loads[i]? = some l) (hf : l.inFlight = true) (now : Int) :
    Moves cleared s (s.fail o i l now) := by
  unfold Cache.fail
  cases hcur : s.current l with
  | none => exact moves_progress s hl hf _
  | some e =>
    dsimp only
    by_cases hv : e.value.isNone = true
    · rw [if_pos hv,
        remove_update (f := fun e => { e with promise := none, retryAt := now + o.retry }) s l.key fun _ => rfl]
      exact h.moves_drop hl hf hcur
    · rw [if_neg hv]
      exact h.moves_update hl hf hcur (f := fun e => { e with promise := none, retryAt := now + o.retry })
        (d := { l with progress := .settled }) rfl rfl rfl rfl rfl rfl rfl

theorem moves_startLoad (hnd : (keys s.entries).Nodup) (hlook : s.entries.lookup key = some e)
    (hnone : e.promise = none) (ttlMs staleMs : Nat) : Moves cleared s (s.startLoad key e.id ttlMs staleMs) := by
  have hmem : ∀ x, x ∈ (s.startLoad key e.id ttlMs staleMs).entries ↔
      x = (key, { e with promise := some s.loads.length }) ∨ (x ∈ s.entries ∧ x.1 ≠ key) :=
    fun x => mem_update (f := fun e => { e with promise := some s.loads.length }) hnd hlook
  refine ⟨Nat.le_refl _, fun i l hl => ⟨l, getElem?_concat hl, rfl, rfl, id⟩, fun i l hl hi _ _ => ?_, fun x hx => ?_,
    fun x hx i hp _ => Or.inr ⟨x, ?_, rfl, rfl, hp⟩⟩
  · have hl : (s.loads ++ [⟨key, e.id, ttlMs, staleMs, .pending, none⟩])[i]? = some l := hl
    have hlt := (List.getElem?_eq_some_iff.mp hl).1
    rw [List.length_append, List.length_singleton] at hlt
    obtain rfl : i = s.loads.length := by omega
    rw [List.getElem?_concat_length] at hl
    obtain rfl := Option.some.inj hl
    exact ⟨_, (hmem _).mpr (Or.inl rfl), rfl, rfl, rfl⟩
  · rcases (hmem x).mp hx with rfl | ⟨hx, _⟩
    · exact Or.inr ⟨(key, e), mem_of_lookup hlook, rfl, rfl⟩
    · exact Or.inr ⟨x, hx, rfl, rfl⟩
  · refine (hmem x).mpr (Or.inr ⟨hx, ?_⟩)
    rintro rfl
    have hx' : x.2 = e := Option.some.inj ((lookup_of_mem hnd hx).symm.trans hlook)
    rw [hx', hnone] at hp
    cases hp

theorem Starts.moves {ttlMs staleMs : Nat} (hs : Starts o key ttlMs staleMs s t) (hnd : (keys s.entries).Nodup)
    (cleared : String → Bool) : Moves cleared s t := by
  cases hs with
  | nothing => exact ⟨Nat.le_refl _, fun i l hl => ⟨l, hl, rfl, rfl, id⟩,
      fun i l hl hi => absurd (List.getElem?_eq_some_iff.mp hl).1 (Nat.not_lt_of_le hi),
      fun e he => Or.inr ⟨e, he, rfl, rfl⟩, fun e he i hp _ => Or.inr ⟨e, he, rfl, rfl, hp⟩⟩
  | again hlook hnone => exact moves_startLoad hnd hlook hnone ttlMs staleMs
  | first timer hlook hroom =>
    refine Moves.trans ?_ (moves_startLoad (e := ⟨s.nextId, 0, 0, 0, 0, none, 0, none⟩) (s := { s with
      entries := put s.entries key ⟨s.nextId, 0, 0, 0, 0, none, 0, none⟩
      nextId := s.nextId + 1, cleanupTimer := timer }) (nodup_put hnd _ _) (lookup_put_self _ _ _) rfl ttlMs staleMs)
    have hput : put s.entries key (⟨s.nextId, 0, 0, 0, 0, none, 0, none⟩ : CacheEntry V) =
        s.entries ++ [(key, ⟨s.nextId, 0, 0, 0, 0, none, 0, none⟩)] := by
      rw [put, erase_of_notMem (lookup_eq_none.mp hlook)]
    refine ⟨Nat.le_succ _, fun i l hl => ⟨l, hl, rfl, rfl, id⟩,
      fun i l hl hi => absurd (List.getElem?_eq_some_iff.mp hl).1 (Nat.not_lt_of_le hi), fun e he => ?_,
      fun e he i hp _ => Or.inr ⟨e, ?_, rfl, rfl, hp⟩⟩
    · rw [hput] at he
      rcases List.mem_append.mp he with he | he
      · exact Or.inr ⟨e, he, rfl, rfl⟩
      · rw [List.mem_singleton.mp he]
        exact Or.inl (Nat.le_refl _)
    · rw [hput]
      exact List.mem_append_left _ he

theorem moves_clear (s : Cache V) (hloads : t.loads = s.loads) (hnext : t.nextId = s.nextId)
    (hentries : t.entries = s.entries.filter (fun e => !cleared e.1)) : Moves cleared s t := by
  refine ⟨Nat.le_of_eq hnext.symm, fun i l hl => ⟨l, hloads ▸ hl, rfl, rfl, id⟩, fun i l hl hi => ?_, fun e he => ?_,
    fun e he i hp hc => Or.inr ⟨e, ?_, rfl, rfl, hp⟩⟩
  · have := (List.getElem?_eq_some_iff.mp hl).1
    rw [hloads] at this
    exact absurd hi (Nat.not_le_of_lt this)
  · rw [hentries] at he
    exact Or.inr ⟨e, (List.mem_filter.mp he).1, rfl, rfl⟩
  · rw [hentries]
    exact List.mem_filter.mpr ⟨he, by rw [hc]; rfl⟩

end

end ForwardX.Panel.QueryCache
