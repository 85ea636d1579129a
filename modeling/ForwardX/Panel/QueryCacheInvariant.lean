import ForwardX.Panel.QueryCache

/- What holds of the query cache in every state: each entry and the loads in flight for it point at
   each other, the running total is the sum of the entries' sizes, and both limits hold. -/
namespace ForwardX.Panel.QueryCache
open Transition Assoc

section
variable {V : Type} {o : CacheOptions V} {s t : Cache V}

/-! ## The invariant -/

def Load.inFlight (l : Load) : Bool := l.progress != .settled

structure Cache.Core (s : Cache V) : Prop where
  keys : (keys s.entries).Nodup
  ids : ∀ e ∈ s.entries, ∀ e' ∈ s.entries, e.2.id = e'.2.id → e = e'
  fresh : ∀ e ∈ s.entries, e.2.id < s.nextId
  loads : ∀ l ∈ s.loads, l.entry < s.nextId
  bytes : s.bytes = total s.entries
  /-- A promise is that of a load in flight for the entry. -/
  promise : ∀ e ∈ s.entries, ∀ i, e.2.promise = some i →
    ∃ l, s.loads[i]? = some l ∧ l.key = e.1 ∧ l.entry = e.2.id ∧ l.inFlight = true
  /-- An entry of a load in flight has the promise of the load. -/
  flight : ∀ (i : Nat) (l : Load), s.loads[i]? = some l → l.inFlight = true →
    ∀ e ∈ s.entries, e.2.id = l.entry → e.1 = l.key ∧ e.2.promise = some i
  /-- A value came from a load of the entry, and is fresh and stale for as long as that said. -/
  value : ∀ e ∈ s.entries, e.2.value.isSome = true → ∃ l at', s.loads[e.2.source]? = some l ∧ l.key = e.1 ∧
    l.entry = e.2.id ∧ l.inFlight = false ∧ l.storedAt = some at' ∧ e.2.freshUntil = at' + l.ttlMs ∧
    e.2.staleUntil = at' + l.ttlMs + l.staleMs

structure Cache.Inv (o : CacheOptions V) (s : Cache V) : Prop where
  core : s.Core
  size : s.entries.length ≤ o.entries
  fits : o.fits s.bytes

theorem CacheOptions.fits_mono {a b : Int} (h : o.fits b) (hab : a ≤ b) : o.fits a :=
  fun m hm => Int.le_trans hab (h m hm)

theorem Cache.Core.sub (h : s.Core) (hloads : t.loads = s.loads) (hnext : t.nextId = s.nextId)
    (hsub : t.entries.Subperm s.entries) (hbytes : t.bytes = total t.entries) : t.Core := by
  have hmem : ∀ e ∈ t.entries, e ∈ s.entries := fun e he => hsub.subset he
  refine ⟨?_, fun e he e' he' => h.ids e (hmem e he) e' (hmem e' he'), fun e he => hnext ▸ h.fresh e (hmem e he),
    fun l hl => ?_, hbytes, fun e he i hp => ?_, fun i l hl hf e he => ?_, fun e he hv => ?_⟩
  · obtain ⟨l, hperm, hl⟩ := hsub
    exact (hperm.map Prod.fst).nodup_iff.mp (h.keys.sublist (hl.map Prod.fst))
  · rw [hloads] at hl
    exact hnext ▸ h.loads l hl
  · rw [hloads]
    exact h.promise e (hmem e he) i hp
  · rw [hloads] at hl
    exact h.flight i l hl hf e (hmem e he)
  · rw [hloads]
    exact h.value e (hmem e he) hv

theorem Cache.Inv.shrunk (h : s.Inv o) (hs : Shrunk s t) : t.Inv o := by
  have hbytes : t.bytes = total t.entries := by
    rw [hs.bytes, h.core.bytes]
    omega
  refine ⟨h.core.sub hs.loads hs.nextId hs.entries hbytes, hs.entries.length_le.trans h.size, ?_⟩
  refine CacheOptions.fits_mono h.fits ?_
  rw [hbytes, h.core.bytes]
  exact total_subperm hs.entries

/-! ## What each operation keeps -/

variable {key : String} {e : CacheEntry V} {f : CacheEntry V → CacheEntry V}

theorem mem_update (hnd : (keys s.entries).Nodup) (hlook : s.entries.lookup key = some e) {x : String × CacheEntry V} :
    x ∈ (s.update key f).entries ↔ x = (key, f e) ∨ (x ∈ s.entries ∧ x.1 ≠ key) := by
  show x ∈ Rows.set Prod.fst s.entries key _ ↔ _
  rw [Rows.mem_set]
  constructor
  · rintro (⟨r, hr, rfl, rfl⟩ | h)
    · left
      have : r.2 = e := Option.some.inj ((lookup_of_mem hnd hr).symm.trans hlook)
      rw [this]
    · exact Or.inr h
  · rintro (rfl | h)
    · exact Or.inl ⟨(key, e), mem_of_lookup hlook, rfl, rfl⟩
    · exact Or.inr h

theorem keys_update (s : Cache V) (key : String) (f : CacheEntry V → CacheEntry V) :
    Assoc.keys (s.update key f).entries = Assoc.keys s.entries :=
  Rows.keys_set fun _ => rfl

theorem total_update (hnd : (keys s.entries).Nodup) (hlook : s.entries.lookup key = some e) :
    total (s.update key f).entries = total s.entries - e.bytes + (f e).bytes := by
  have hsum := Rows.sum_set hnd (mem_of_lookup hlook) (fun x : String × CacheEntry V => (x.1, f x.2))
    (fun x => (x.2.bytes : Int))
  show ((Rows.set Prod.fst s.entries key _).map _).sum = _
  rw [hsum]
  show total s.entries + ((f e).bytes - e.bytes : Int) = _
  omega

theorem Cache.Core.at_key (h : s.Core) (hlook : s.entries.lookup key = some e) {x : String × CacheEntry V}
    (hx : x ∈ s.entries) (hid : x.2.id = e.id) : x = (key, e) :=
  h.ids x hx (key, e) (mem_of_lookup hlook) hid

theorem getElem?_concat {l l' : Load} {loads : List Load} {i : Nat} (h : loads[i]? = some l) :
    (loads ++ [l'])[i]? = some l := by
  rw [List.getElem?_append_left (List.getElem?_eq_some_iff.mp h).1, h]

theorem Cache.Core.startLoad (h : s.Core) (hlook : s.entries.lookup key = some e) (hnone : e.promise = none)
    (ttlMs staleMs : Nat) : (s.startLoad key e.id ttlMs staleMs).Core := by
  have hmem : ∀ x, x ∈ (s.startLoad key e.id ttlMs staleMs).entries ↔
      x = (key, { e with promise := some s.loads.length }) ∨ (x ∈ s.entries ∧ x.1 ≠ key) :=
    fun x => mem_update (f := fun e => { e with promise := some s.loads.length }) h.keys hlook
  have hold := mem_of_lookup hlook
  have hne : ∀ x ∈ s.entries, x.1 ≠ key → x.2.id ≠ e.id := by
    intro x hx hxk hid
    rw [h.at_key hlook hx hid] at hxk
    exact hxk rfl
  refine ⟨?_, fun x hx y hy hid => ?_, fun x hx => ?_, fun l hl => ?_, ?_, fun x hx i hp => ?_,
    fun i l hl hf x hx hid => ?_, fun x hx hv => ?_⟩
  · show (Assoc.keys (s.update key fun e => { e with promise := some s.loads.length }).entries).Nodup
    rw [keys_update]
    exact h.keys
  · rcases (hmem x).mp hx with rfl | ⟨hx, hxk⟩
    · rcases (hmem y).mp hy with rfl | ⟨hy, hyk⟩
      · rfl
      · exact absurd hid.symm (hne y hy hyk)
    · rcases (hmem y).mp hy with rfl | ⟨hy, _⟩
      · exact absurd hid (hne x hx hxk)
      · exact h.ids x hx y hy hid
  · rcases (hmem x).mp hx with rfl | ⟨hx, _⟩
    · exact h.fresh (key, e) hold
    · exact h.fresh x hx
  · rcases List.mem_append.mp hl with hl | hl
    · exact h.loads l hl
    · rw [List.mem_singleton.mp hl]
      exact h.fresh (key, e) hold
  · show s.bytes = total (s.update key fun e => { e with promise := some s.loads.length }).entries
    rw [total_update h.keys hlook, h.bytes]
    show total s.entries = total s.entries - (e.bytes : Int) + (e.bytes : Int)
    omega
  · rcases (hmem x).mp hx with rfl | ⟨hx, _⟩
    · obtain rfl := Option.some.inj hp
      exact ⟨_, List.getElem?_concat_length, rfl, rfl, rfl⟩
    · obtain ⟨l, hl, hrest⟩ := h.promise x hx i hp
      exact ⟨l, getElem?_concat hl, hrest⟩
  · rcases Nat.lt_or_ge i s.loads.length with hlt | hge
    · have hl' : s.loads[i]? = some l := by
        rwa [show (s.startLoad key e.id ttlMs staleMs).loads = s.loads ++ [_] from rfl,
          List.getElem?_append_left hlt] at hl
      rcases (hmem x).mp hx with rfl | ⟨hx, _⟩
      · have := (h.flight i l hl' hf (key, e) hold hid).2
        rw [hnone] at this
        cases this
      · exact h.flight i l hl' hf x hx hid
    · have hi : i = s.loads.length := by
        have := (List.getElem?_eq_some_iff.mp hl).1
        rw [show (s.startLoad key e.id ttlMs staleMs).loads = s.loads ++ [_] from rfl, List.length_append,
          List.length_singleton] at this
        omega
      subst hi
      rw [show (s.startLoad key e.id ttlMs staleMs).loads = s.loads ++ [_] from rfl, List.getElem?_concat_length] at hl
      obtain rfl := Option.some.inj hl
      rcases (hmem x).mp hx with rfl | ⟨hx, hxk⟩
      · exact ⟨rfl, rfl⟩
      · exact absurd hid (hne x hx hxk)
  · rcases (hmem x).mp hx with rfl | ⟨hx, _⟩
    · obtain ⟨l, at', hl, hrest⟩ := h.value (key, e) hold hv
      exact ⟨l, at', getElem?_concat hl, hrest⟩
    · obtain ⟨l, at', hl, hrest⟩ := h.value x hx hv
      exact ⟨l, at', getElem?_concat hl, hrest⟩

theorem Cache.Core.newEntry (h : s.Core) (hlook : s.entries.lookup key = none) (timer : Bool) :
    Cache.Core { s with
      entries := put s.entries key ⟨s.nextId, 0, 0, 0, 0, none, 0, none⟩, nextId := s.nextId + 1, cleanupTimer := timer } := by
  have hout : key ∉ Assoc.keys s.entries := lookup_eq_none.mp hlook
  have hput : put s.entries key (⟨s.nextId, 0, 0, 0, 0, none, 0, none⟩ : CacheEntry V) =
      s.entries ++ [(key, ⟨s.nextId, 0, 0, 0, 0, none, 0, none⟩)] := by
    rw [put, erase_of_notMem hout]
  have hmem : ∀ x ∈ put s.entries key (⟨s.nextId, 0, 0, 0, 0, none, 0, none⟩ : CacheEntry V),
      x ∈ s.entries ∨ x = (key, ⟨s.nextId, 0, 0, 0, 0, none, 0, none⟩) := by
    intro x hx
    rw [hput, List.mem_append, List.mem_singleton] at hx
    exact hx
  refine ⟨nodup_put h.keys _ _, fun x hx y hy hid => ?_, fun x hx => ?_, fun l hl => ?_, ?_, fun x hx i hp => ?_,
    fun i l hl hf x hx hid => ?_, fun x hx hv => ?_⟩
  · rcases hmem x hx with hx | rfl
    · rcases hmem y hy with hy | rfl
      · exact h.ids x hx y hy hid
      · exact absurd hid (Nat.ne_of_lt (h.fresh x hx))
    · rcases hmem y hy with hy | rfl
      · exact absurd hid.symm (Nat.ne_of_lt (h.fresh y hy))
      · rfl
  · rcases hmem x hx with hx | rfl
    · exact Nat.lt_succ_of_lt (h.fresh x hx)
    · exact Nat.lt_succ_self _
  · exact Nat.lt_succ_of_lt (h.loads l hl)
  · show s.bytes = total (put s.entries key _)
    rw [hput, h.bytes, total, total, List.map_append, List.sum_append]
    simp
  · rcases hmem x hx with hx | rfl
    · exact h.promise x hx i hp
    · cases hp
  · rcases hmem x hx with hx | rfl
    · exact h.flight i l hl hf x hx hid
    · have := h.loads l (List.mem_of_getElem? hl)
      exact absurd hid.symm (Nat.ne_of_lt this)
  · rcases hmem x hx with hx | rfl
    · exact h.value x hx hv
    · cases hv

theorem filter_update (s : Cache V) (key : String) (f : CacheEntry V → CacheEntry V) :
    (s.update key f).entries.filter (fun e => !(e.1 == key)) = s.entries.filter (fun e => !(e.1 == key)) := by
  show (s.entries.map fun r => if r.1 = key then (r.1, f r.2) else r).filter _ = _
  induction s.entries with
  | nil => rfl
  | cons r rest ih =>
    rw [List.map_cons]
    by_cases hr : r.1 = key
    · rw [if_pos hr, List.filter_cons_of_neg (by simp [hr]), List.filter_cons_of_neg (by simp [hr]), ih]
    · rw [if_neg hr, List.filter_cons_of_pos (by simp [hr]), List.filter_cons_of_pos (by simp [hr]), ih]

theorem getElem?_set_loads {l d m : Load} {loads : List Load} {i j : Nat} (hl : loads[i]? = some l)
    (hm : (loads.set i d)[j]? = some m) : j = i ∧ m = d ∨ j ≠ i ∧ loads[j]? = some m := by
  have hlt := (List.getElem?_eq_some_iff.mp hl).1
  by_cases hj : j = i
  · subst hj
    rw [List.getElem?_set_self hlt] at hm
    exact Or.inl ⟨rfl, (Option.some.inj hm).symm⟩
  · rw [List.getElem?_set_ne (Ne.symm hj)] at hm
    exact Or.inr ⟨hj, hm⟩

/-- A load in flight goes on, or it is over and no entry is left for it. -/
theorem Cache.Core.setLoad (h : s.Core) {i : Nat} {l d : Load} (hl : s.loads[i]? = some l) (hf : l.inFlight = true)
    (hkey : d.key = l.key) (hentry : d.entry = l.entry) (hloads : t.loads = s.loads.set i d)
    (hnext : t.nextId = s.nextId) (hsub : t.entries.Subperm s.entries) (hbytes : t.bytes = total t.entries)
    (hgone : d.inFlight = true ∨ ∀ e ∈ t.entries, e.2.id ≠ l.entry) : t.Core := by
  have hmem : ∀ e ∈ t.entries, e ∈ s.entries := fun e he => hsub.subset he
  have hlt := (List.getElem?_eq_some_iff.mp hl).1
  refine ⟨?_, fun e he e' he' => h.ids e (hmem e he) e' (hmem e' he'), fun e he => hnext ▸ h.fresh e (hmem e he),
    fun m hm => ?_, hbytes, fun e he j hp => ?_, fun j m hm hmf e he hid => ?_, fun e he hv => ?_⟩
  · obtain ⟨l, hperm, hl⟩ := hsub
    exact (hperm.map Prod.fst).nodup_iff.mp (h.keys.sublist (hl.map Prod.fst))
  · rw [hloads] at hm
    rw [hnext]
    rcases List.mem_or_eq_of_mem_set hm with hm | rfl
    · exact h.loads m hm
    · rw [hentry]
      exact h.loads l (List.mem_of_getElem? hl)
  · obtain ⟨m, hm, hmk, hme, hmf⟩ := h.promise e (hmem e he) j hp
    rw [hloads]
    by_cases hj : j = i
    · subst hj
      obtain rfl := Option.some.inj (hl.symm.trans hm)
      refine ⟨d, List.getElem?_set_self hlt, hkey.trans hmk, hentry.trans hme, ?_⟩
      exact hgone.resolve_right fun hall => hall e he hme.symm
    · exact ⟨m, by rw [List.getElem?_set_ne (Ne.symm hj)]; exact hm, hmk, hme, hmf⟩
  · rw [hloads] at hm
    rcases getElem?_set_loads hl hm with ⟨rfl, rfl⟩ | ⟨_, hm⟩
    · rw [hkey]
      exact h.flight j l hl hf e (hmem e he) (hid.trans hentry)
    · exact h.flight j m hm hmf e (hmem e he) hid
  · obtain ⟨m, at', hm, hmk, hme, hmf, hrest⟩ := h.value e (hmem e he) hv
    rw [hloads]
    refine ⟨m, at', ?_, hmk, hme, hmf, hrest⟩
    rw [List.getElem?_set_ne, hm]
    rintro rfl
    obtain rfl := Option.some.inj (hl.symm.trans hm)
    rw [hf] at hmf
    cases hmf

theorem Cache.Core.settle (h : s.Core) {i : Nat} {l d : Load} (hl : s.loads[i]? = some l) (hf : l.inFlight = true)
    (hlook : s.entries.lookup l.key = some e) (hid : e.id = l.entry) (hfid : (f e).id = e.id)
    (hnone : (f e).promise = none) (hkey : d.key = l.key) (hentry : d.entry = l.entry) (hover : d.inFlight = false)
    (hloads : t.loads = s.loads.set i d) (hnext : t.nextId = s.nextId)
    (hentries : t.entries = (s.update l.key f).entries) (hbytes : t.bytes = total t.entries)
    (hval : (f e).value.isSome = true →
      ((f e).value = e.value ∧ (f e).source = e.source ∧ (f e).freshUntil = e.freshUntil ∧ (f e).staleUntil = e.staleUntil) ∨
      ∃ at', (f e).source = i ∧ d.storedAt = some at' ∧ (f e).freshUntil = at' + d.ttlMs ∧
        (f e).staleUntil = at' + d.ttlMs + d.staleMs) : t.Core := by
  have hold := mem_of_lookup hlook
  have hlt := (List.getElem?_eq_some_iff.mp hl).1
  have hmem : ∀ x, x ∈ t.entries ↔ x = (l.key, f e) ∨ (x ∈ s.entries ∧ x.1 ≠ l.key) := fun x => by
    rw [hentries]
    exact mem_update h.keys hlook
  have hne : ∀ x ∈ s.entries, x.1 ≠ l.key → x.2.id ≠ e.id := by
    intro x hx hxk hxid
    rw [h.at_key hlook hx hxid] at hxk
    exact hxk rfl
  -- a load whose value is kept is not the one that is over now
  have hkept : ∀ x ∈ s.entries, x.2.value.isSome = true → ∃ m at', (s.loads.set i d)[x.2.source]? = some m ∧
      m.key = x.1 ∧ m.entry = x.2.id ∧ m.inFlight = false ∧ m.storedAt = some at' ∧ x.2.freshUntil = at' + m.ttlMs ∧
      x.2.staleUntil = at' + m.ttlMs + m.staleMs := by
    intro x hx hv
    obtain ⟨m, at', hm, hmk, hme, hmf, hrest⟩ := h.value x hx hv
    refine ⟨m, at', ?_, hmk, hme, hmf, hrest⟩
    rw [List.getElem?_set_ne, hm]
    rintro rfl
    obtain rfl := Option.some.inj (hl.symm.trans hm)
    rw [hf] at hmf
    cases hmf
  refine ⟨?_, fun x hx y hy hxy => ?_, fun x hx => ?_, fun m hm => ?_, hbytes, fun x hx j hp => ?_,
    fun j m hm hmf x hx hxid => ?_, fun x hx hv => ?_⟩
  · rw [hentries, keys_update]
    exact h.keys
  · rcases (hmem x).mp hx with rfl | ⟨hx, hxk⟩
    · rcases (hmem y).mp hy with rfl | ⟨hy, hyk⟩
      · rfl
      · exact absurd (hxy.symm.trans hfid) (hne y hy hyk)
    · rcases (hmem y).mp hy with rfl | ⟨hy, _⟩
      · exact absurd (hxy.trans hfid) (hne x hx hxk)
      · exact h.ids x hx y hy hxy
  · rw [hnext]
    rcases (hmem x).mp hx with rfl | ⟨hx, _⟩
    · show (f e).id < s.nextId
      rw [hfid]
      exact h.fresh (l.key, e) hold
    · exact h.fresh x hx
  · rw [hloads] at hm
    rw [hnext]
    rcases List.mem_or_eq_of_mem_set hm with hm | rfl
    · exact h.loads m hm
    · rw [hentry]
      exact h.loads l (List.mem_of_getElem? hl)
  · rcases (hmem x).mp hx with rfl | ⟨hx, hxk⟩
    · have : (f e).promise = some j := hp
      rw [hnone] at this
      cases this
    · obtain ⟨m, hm, hmk, hme, hmf⟩ := h.promise x hx j hp
      refine ⟨m, ?_, hmk, hme, hmf⟩
      rw [hloads, List.getElem?_set_ne, hm]
      rintro rfl
      obtain rfl := Option.some.inj (hl.symm.trans hm)
      exact hxk hmk.symm
  · rw [hloads] at hm
    rcases getElem?_set_loads hl hm with ⟨rfl, rfl⟩ | ⟨hj, hm⟩
    · rw [hover] at hmf
      cases hmf
    · rcases (hmem x).mp hx with rfl | ⟨hx, _⟩
      · have hp := (h.flight j m hm hmf (l.key, e) hold (hfid.symm.trans hxid)).2
        have hp' := (h.flight i l hl hf (l.key, e) hold hid).2
        exact absurd (Option.some.inj (hp.symm.trans hp')) hj
      · exact h.flight j m hm hmf x hx hxid
  · rw [hloads]
    rcases (hmem x).mp hx with rfl | ⟨hx, _⟩
    · rcases hval hv with ⟨hsame, hsource, hfresh, hstale⟩ | ⟨at', hsource, hstored, hfresh, hstale⟩
      · have hv' : e.value.isSome = true := hsame ▸ hv
        obtain ⟨m, at', hm, hmk, hme, hmf, hst, hfr, hsl⟩ := hkept (l.key, e) hold hv'
        refine ⟨m, at', ?_, hmk, hme.trans hfid.symm, hmf, hst, hfresh.trans hfr, hstale.trans hsl⟩
        show (s.loads.set i d)[(f e).source]? = some m
        rw [hsource]
        exact hm
      · refine ⟨d, at', ?_, hkey, hentry.trans (hid.symm.trans hfid.symm), hover, hstored, hfresh, hstale⟩
        show (s.loads.set i d)[(f e).source]? = some d
        rw [hsource]
        exact List.getElem?_set_self hlt
    · exact hkept x hx hv

/-! ## What `get` does -/

/-- A load starts: there is none, the entry of the key had no load, or the key had no entry. -/
inductive Starts (o : CacheOptions V) (key : String) (ttlMs staleMs : Nat) (u : Cache V) : Cache V → Prop
  | nothing : Starts o key ttlMs staleMs u u
  | again {e : CacheEntry V} (hlook : u.entries.lookup key = some e) (hnone : e.promise = none) :
      Starts o key ttlMs staleMs u (u.startLoad key e.id ttlMs staleMs)
  | first (timer : Bool) (hlook : u.entries.lookup key = none) (hroom : u.entries.length < o.entries) :
      Starts o key ttlMs staleMs u (Cache.startLoad { u with
        entries := put u.entries key ⟨u.nextId, 0, 0, 0, 0, none, 0, none⟩
        nextId := u.nextId + 1, cleanupTimer := timer } key u.nextId ttlMs staleMs)

/-- Where an answer comes from: the value of the entry, which has not expired, its load, or a new
load. -/
def Answer.From (s : Cache V) (key : String) (now : Int) : Answer V → Prop
  | .value v i => ∃ e, (key, e) ∈ s.entries ∧ e.value = some v ∧ e.source = i ∧
      (now < e.freshUntil ∨ now < e.staleUntil)
  | .promise i => i = s.loads.length ∨ ∃ e, (key, e) ∈ s.entries ∧ e.promise = some i
  | .busy => True

theorem refresh_spec (s : Cache V) (o : CacheOptions V) (key : String) (ttlMs staleMs : Nat)
    (hnone : ∀ e, s.entries.lookup key = some e → e.promise = none) :
    (∃ u, Shrunk s u ∧ Starts o key ttlMs staleMs u (s.refresh o key ttlMs staleMs).1) ∧
      ((s.refresh o key ttlMs staleMs).2 = .busy ∨ (s.refresh o key ttlMs staleMs).2 = .promise s.loads.length) := by
  unfold Cache.refresh
  cases hlook : s.entries.lookup key with
  | some e =>
    exact ⟨⟨s, ⟨rfl, rfl, List.Subperm.refl _, fun _ h _ => h, by omega⟩, .again hlook (hnone e hlook)⟩, Or.inr rfl⟩
  | none =>
    have htrim := shrunk_trim s o 1
    have hlook' : (s.trim o 1).entries.lookup key = none := by
      rw [lookup_eq_none] at hlook ⊢
      intro hk
      obtain ⟨x, hx, hkey⟩ := List.mem_map.mp hk
      exact hlook (List.mem_map.mpr ⟨x, htrim.entries.subset hx, hkey⟩)
    by_cases hfull : o.entries ≤ (s.trim o 1).entries.length
    · simp only [if_pos hfull]
      exact ⟨⟨_, htrim, .nothing⟩, Or.inl trivial⟩
    · simp only [if_neg hfull]
      exact ⟨⟨_, htrim, .first _ hlook' (Nat.lt_of_not_le hfull)⟩, Or.inr (by rw [← htrim.loads]; rfl)⟩

/-- `serve` moves the entry of the key to the end, and loads it where it has nothing to give. -/
theorem serve_spec (s : Cache V) (o : CacheOptions V) (key : String) (ttlMs staleMs : Nat) (now : Int)
    (hnd : (keys s.entries).Nodup) :
    (∃ u, Shrunk s u ∧ Starts o key ttlMs staleMs u (s.serve o key ttlMs staleMs now).1) ∧
      (s.serve o key ttlMs staleMs now).2.From s key now := by
  unfold Cache.serve
  cases hlook : s.entries.lookup key with
  | none =>
    obtain ⟨hstart, hans⟩ := refresh_spec s o key ttlMs staleMs (by simp [hlook])
    refine ⟨hstart, ?_⟩
    rcases hans with hans | hans
    · rw [hans]
      trivial
    · rw [hans]
      exact Or.inl rfl
  | some e =>
    have htouch := shrunk_touch hnd hlook
    have hold := mem_of_lookup hlook
    have hget : ∀ x, (put s.entries key e).lookup key = some x → x = e := fun x hx =>
      Option.some.inj (hx.symm.trans (lookup_put_self s.entries key e))
    -- the load that starts where the entry waits for none
    have hload : e.promise = none →
        (∃ u, Shrunk s u ∧ Starts o key ttlMs staleMs u
          (Cache.refresh { s with entries := put s.entries key e } o key ttlMs staleMs).1) ∧
        (Cache.refresh { s with entries := put s.entries key e } o key ttlMs staleMs).2.From s key now := by
      intro hp
      obtain ⟨⟨u, hu, hstart⟩, hans⟩ := refresh_spec { s with entries := put s.entries key e } o key ttlMs staleMs
        (fun x hx => (hget x hx) ▸ hp)
      refine ⟨⟨u, htouch.trans hu, hstart⟩, ?_⟩
      rcases hans with hans | hans
      · rw [hans]
        trivial
      · rw [hans]
        exact Or.inl rfl
    dsimp only
    cases hv : e.value with
    | none =>
      dsimp only
      cases hp : e.promise with
      | some i => exact ⟨⟨_, htouch, .nothing⟩, Or.inr ⟨e, hold, hp⟩⟩
      | none => exact hload hp
    | some value =>
      dsimp only
      by_cases hfresh : now < e.freshUntil
      · rw [if_pos hfresh]
        exact ⟨⟨_, htouch, .nothing⟩, e, hold, hv, rfl, Or.inl hfresh⟩
      · rw [if_neg hfresh]
        by_cases hstale : now < e.staleUntil
        · rw [if_pos hstale]
          by_cases hretry : e.promise.isNone = true ∧ e.retryAt ≤ now
          · rw [if_pos hretry]
            exact ⟨(hload (Option.isNone_iff_eq_none.mp hretry.1)).1, e, hold, hv, rfl, Or.inr hstale⟩
          · rw [if_neg hretry]
            exact ⟨⟨_, htouch, .nothing⟩, e, hold, hv, rfl, Or.inr hstale⟩
        · rw [if_neg hstale]
          cases hp : e.promise with
          | some i => exact ⟨⟨_, htouch, .nothing⟩, Or.inr ⟨e, hold, hp⟩⟩
          | none => exact hload hp

theorem get_spec (s : Cache V) (o : CacheOptions V) (key : String) (ttlMs : Nat) (staleMs : Option Nat) (now : Int)
    (hnd : (keys s.entries).Nodup) :
    (∃ u, Shrunk s u ∧ Starts o key ttlMs (staleMs.getD ttlMs) u (s.get o key ttlMs staleMs now).1) ∧
      (s.get o key ttlMs staleMs now).2.From s key now := by
  unfold Cache.get
  by_cases hprune : s.nextPruneAt ≤ now
  · simp only [if_pos hprune]
    have hs : Shrunk s { s.prune o now with nextPruneAt := now + 1000 } := by
      obtain ⟨hloads, hnext, hentries, hkept, hbytes⟩ := shrunk_prune s o now
      exact ⟨hloads, hnext, hentries, hkept, hbytes⟩
    have hnd' : (keys (s.prune o now).entries).Nodup := by
      obtain ⟨l, hperm, hl⟩ := hs.entries
      exact (hperm.map Prod.fst).nodup_iff.mp (hnd.sublist (hl.map Prod.fst))
    obtain ⟨⟨u, hu, hstart⟩, hans⟩ := serve_spec { s.prune o now with nextPruneAt := now + 1000 } o key ttlMs
      (staleMs.getD ttlMs) now hnd'
    refine ⟨⟨u, hs.trans hu, hstart⟩, ?_⟩
    revert hans
    cases (Cache.serve { s.prune o now with nextPruneAt := now + 1000 } o key ttlMs (staleMs.getD ttlMs) now).2 with
    | value value source =>
      rintro ⟨e, he, hrest⟩
      exact ⟨e, hs.entries.subset he, hrest⟩
    | promise i =>
      rintro (hi | ⟨e, he, hp⟩)
      · exact Or.inl (hi.trans (congrArg List.length hs.loads))
      · exact Or.inr ⟨e, hs.entries.subset he, hp⟩
    | busy => exact id
  · simp only [if_neg hprune]
    exact serve_spec s o key ttlMs (staleMs.getD ttlMs) now hnd

end

end ForwardX.Panel.QueryCache
