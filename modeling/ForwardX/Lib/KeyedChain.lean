import ForwardX.Lib.Assoc

/- Chains by key. Entries come one after the other; one with a key waits for the last entry of that
   key that is not closed, which a table of tails names. The entries of a key are closed in the
   order they came: one that is past waiting has only closed ones before it. -/
namespace KeyedChain
open Assoc

universe u

inductive Stage where
  | waiting
  | running
  | closed
  deriving DecidableEq

/-- An entry: its key, the entry it waits for and its stage. -/
structure Entry (κ : Type u) where
  key : Option κ
  before : Option Nat
  stage : Stage
  deriving DecidableEq

section
variable {κ : Type u}

def Ready (entries : List (Entry κ)) (e : Entry κ) : Prop :=
  ∀ p ∈ e.before, ∀ f ∈ entries[p]?, f.stage = .closed

instance (entries : List (Entry κ)) (e : Entry κ) : Decidable (Ready entries e) :=
  inferInstanceAs (Decidable (∀ p ∈ e.before, ∀ f ∈ entries[p]?, f.stage = .closed))

end

variable {κ : Type u} [DecidableEq κ]

/-- The tails once entry `i` is closed: it is dropped where it still is the tail. -/
def leave (tails : List (κ × Nat)) (key : Option κ) (i : Nat) : List (κ × Nat) :=
  match key with
  | none => tails
  | some k => if tails.lookup k = some i then erase tails k else tails

/-- What orders the entries of each key. -/
structure InOrder (entries : List (Entry κ)) (tails : List (κ × Nat)) : Prop where
  /-- An entry waits for one that no other open entry of its key comes after. -/
  waits : ∀ {i j : Nat} {d e : Entry κ} {k : κ}, i < j → entries[i]? = some d → entries[j]? = some e →
    d.key = some k → e.key = some k → e.stage = .waiting → d.stage = .closed ∨ ∃ p, e.before = some p ∧ i ≤ p
  back : ∀ {j p : Nat} {e : Entry κ} {k : κ}, entries[j]? = some e → e.key = some k → e.stage = .waiting →
    e.before = some p → p < j ∧ ∃ f, entries[p]? = some f ∧ f.key = some k
  started : ∀ {i j : Nat} {d e : Entry κ} {k : κ}, i < j → entries[i]? = some d → entries[j]? = some e →
    d.key = some k → e.key = some k → e.stage ≠ .waiting → d.stage = .closed
  tail : ∀ {k : κ} {i : Nat}, tails.lookup k = some i → (∃ e, entries[i]? = some e ∧ e.key = some k ∧
    e.stage ≠ .closed) ∧ ∀ {j : Nat} {f : Entry κ}, i < j → entries[j]? = some f → f.key ≠ some k
  found : ∀ {k : κ} {i : Nat} {e : Entry κ}, entries[i]? = some e → e.key = some k → e.stage ≠ .closed →
    ∃ t, tails.lookup k = some t

theorem InOrder.empty : InOrder ([] : List (Entry κ)) [] :=
  ⟨(fun _ h => by cases h), (fun h => by cases h), (fun _ h => by cases h), (fun h => by cases h),
    (fun h => by cases h)⟩

section
variable {entries : List (Entry κ)} {tails : List (κ × Nat)}

omit [DecidableEq κ] in
theorem get_concat {e d : Entry κ} {j : Nat} (h : (entries ++ [e])[j]? = some d) :
    entries[j]? = some d ∨ (j = entries.length ∧ d = e) := by
  rcases Nat.lt_trichotomy j entries.length with hlt | heq | hgt
  · left
    rwa [List.getElem?_append_left hlt] at h
  · right
    rw [heq, List.getElem?_concat_length] at h
    exact ⟨heq, (Option.some.inj h).symm⟩
  · rw [List.getElem?_eq_none (by rw [List.length_append, List.length_singleton]; omega)] at h
    cases h

omit [DecidableEq κ] in
theorem lt_of_get {d : Entry κ} {j : Nat} (h : entries[j]? = some d) : j < entries.length :=
  (List.getElem?_eq_some_iff.mp h).1

omit [DecidableEq κ] in
theorem get_set {e d : Entry κ} {i j : Nat} (h : (entries.set i e)[j]? = some d) :
    (j ≠ i ∧ entries[j]? = some d) ∨ (j = i ∧ d = e) := by
  by_cases hj : i = j
  · right
    have hlt := (List.getElem?_eq_some_iff.mp h).1
    rw [List.length_set] at hlt
    rw [← hj, List.getElem?_set_self (by omega)] at h
    exact ⟨hj.symm, (Option.some.inj h).symm⟩
  · left
    rw [List.getElem?_set_ne hj] at h
    exact ⟨fun hji => hj hji.symm, h⟩

variable {d e : Entry κ} {i j : Nat} {k : κ}

/-- The last open entry of a key is the tail, and it is the last entry of the key. -/
theorem InOrder.le_tail (h : InOrder entries tails) {i t : Nat} (ht : tails.lookup k = some t)
    (hi : entries[i]? = some e) (hk : e.key = some k) : i ≤ t := by
  by_contra hlt
  exact (h.tail ht).2 (by omega) hi hk

/-- One more entry of a key: it waits for the tail and becomes the tail. -/
theorem InOrder.join (h : InOrder entries tails) (k : κ) :
    InOrder (entries ++ [⟨some k, tails.lookup k, .waiting⟩]) (put tails k entries.length) := by
  constructor
  · intro i j d e k' hij hi hj hdk hek hw
    rcases get_concat hj with hj | ⟨rfl, rfl⟩
    · have hi' : entries[i]? = some d := by
        rcases get_concat hi with hi | ⟨rfl, _⟩
        · exact hi
        · exact absurd (lt_of_get hj) (by omega)
      exact h.waits hij hi' hj hdk hek hw
    · obtain rfl := Option.some.inj hek
      have hi' : entries[i]? = some d := by
        rwa [List.getElem?_append_left hij] at hi
      by_cases hc : d.stage = .closed
      · exact Or.inl hc
      · obtain ⟨t, ht⟩ := h.found hi' hdk hc
        exact Or.inr ⟨t, ht, h.le_tail ht hi' hdk⟩
  · intro j p e k' hj hek hw hp
    rcases get_concat hj with hj | ⟨rfl, rfl⟩
    · obtain ⟨hpj, f, hf, hfk⟩ := h.back hj hek hw hp
      exact ⟨hpj, f, by rw [List.getElem?_append_left (lt_of_get hf), hf], hfk⟩
    · obtain rfl := Option.some.inj hek
      obtain ⟨⟨f, hf, hfk, _⟩, _⟩ := h.tail hp
      exact ⟨lt_of_get hf, f, by rw [List.getElem?_append_left (lt_of_get hf), hf], hfk⟩
  · intro i j d e k' hij hi hj hdk hek hs
    rcases get_concat hj with hj | ⟨rfl, rfl⟩
    · rcases get_concat hi with hi | ⟨rfl, _⟩
      · exact h.started hij hi hj hdk hek hs
      · exact absurd (lt_of_get hj) (by omega)
    · exact absurd rfl hs
  · intro k' i hlook
    by_cases hkk : k' = k
    · rw [hkk, lookup_put_self] at hlook
      obtain rfl := Option.some.inj hlook
      refine ⟨⟨_, List.getElem?_concat_length, by rw [hkk], by simp⟩, fun hij hj => ?_⟩
      have := (List.getElem?_eq_some_iff.mp hj).1
      rw [List.length_append, List.length_singleton] at this
      omega
    · rw [lookup_put_ne _ hkk] at hlook
      obtain ⟨⟨e, he, hek, hopen⟩, hlast⟩ := h.tail hlook
      refine ⟨⟨e, by rw [List.getElem?_append_left (lt_of_get he), he], hek, hopen⟩, fun hij hj => ?_⟩
      rcases get_concat hj with hj | ⟨rfl, rfl⟩
      · exact hlast hij hj
      · exact fun hk => hkk (Option.some.inj hk).symm
  · intro k' i e hi hek hopen
    by_cases hkk : k' = k
    · exact ⟨entries.length, by rw [hkk, lookup_put_self]⟩
    · rw [lookup_put_ne _ hkk]
      rcases get_concat hi with hi | ⟨rfl, rfl⟩
      · exact h.found hi hek hopen
      · exact absurd (Option.some.inj hek).symm hkk

theorem InOrder.pass (h : InOrder entries tails) (before : Option Nat) (stage : Stage) :
    InOrder (entries ++ [⟨none, before, stage⟩]) tails := by
  have hold : ∀ {j : Nat} {d : Entry κ} {k : κ}, (entries ++ [⟨none, before, stage⟩])[j]? = some d →
      d.key = some k → entries[j]? = some d := by
    intro j d k hj hk
    rcases get_concat hj with hj | ⟨_, rfl⟩
    · exact hj
    · cases hk
  have hkeep : ∀ {j : Nat} {d : Entry κ}, entries[j]? = some d →
      (entries ++ [⟨none, before, stage⟩])[j]? = some d := by
    intro j d hj
    rw [List.getElem?_append_left (lt_of_get hj), hj]
  constructor
  · intro i j d e k hij hi hj hdk hek hw
    exact h.waits hij (hold hi hdk) (hold hj hek) hdk hek hw
  · intro j p e k hj hek hw hp
    obtain ⟨hpj, f, hf, hfk⟩ := h.back (hold hj hek) hek hw hp
    exact ⟨hpj, f, hkeep hf, hfk⟩
  · intro i j d e k hij hi hj hdk hek hs
    exact h.started hij (hold hi hdk) (hold hj hek) hdk hek hs
  · intro k i hlook
    obtain ⟨⟨e, he, hek, hopen⟩, hlast⟩ := h.tail hlook
    exact ⟨⟨e, hkeep he, hek, hopen⟩, fun hij hj hk => hlast hij (hold hj hk) hk⟩
  · intro k i e hi hek hopen
    exact h.found (hold hi hek) hek hopen

omit [DecidableEq κ] in
theorem get_stage {stage : Stage} (hi : entries[i]? = some e)
    (h : (entries.set i { e with stage := stage })[j]? = some d) :
    ∃ d₀, entries[j]? = some d₀ ∧ d₀.key = d.key ∧ d₀.before = d.before ∧
      ((j ≠ i ∧ d₀ = d) ∨ (j = i ∧ d₀ = e ∧ d.stage = stage)) := by
  rcases get_set h with ⟨hne, hj⟩ | ⟨rfl, rfl⟩
  · exact ⟨d, hj, rfl, rfl, Or.inl ⟨hne, rfl⟩⟩
  · exact ⟨e, hi, rfl, rfl, Or.inr ⟨rfl, rfl, rfl⟩⟩

omit [DecidableEq κ] in
theorem exists_stage (stage : Stage) (hi : entries[i]? = some e) (hj : entries[j]? = some d) :
    ∃ d', (entries.set i { e with stage := stage })[j]? = some d' ∧ d'.key = d.key ∧
      ((j ≠ i ∧ d' = d) ∨ (j = i ∧ d'.stage = stage)) := by
  by_cases hji : j = i
  · rw [hji, hi] at hj
    obtain rfl := Option.some.inj hj
    have hset : (entries.set i { e with stage := stage })[j]? = some { e with stage := stage } := by
      rw [hji, List.getElem?_set_self (lt_of_get hi)]
    exact ⟨_, hset, rfl, Or.inr ⟨hji, rfl⟩⟩
  · exact ⟨d, by rw [List.getElem?_set_ne (Ne.symm hji), hj], rfl, Or.inl ⟨hji, rfl⟩⟩

theorem InOrder.back_stage (h : InOrder entries tails) {stage : Stage} (hi : entries[i]? = some e)
    (hstage : stage ≠ .waiting) {j p : Nat} {f : Entry κ} (hj : (entries.set i { e with stage := stage })[j]? = some f)
    (hfk : f.key = some k) (hw : f.stage = .waiting) (hp : f.before = some p) :
    p < j ∧ ∃ g, (entries.set i { e with stage := stage })[p]? = some g ∧ g.key = some k := by
  obtain ⟨f₀, hj₀, _, _, hf⟩ := get_stage hi hj
  rcases hf with ⟨_, rfl⟩ | ⟨_, _, heq⟩
  · obtain ⟨hpj, g, hg, hgk⟩ := h.back hj₀ hfk hw hp
    obtain ⟨g', hg', hgk', _⟩ := exists_stage stage hi hg
    exact ⟨hpj, g', hg', hgk'.trans hgk⟩
  · exact absurd (heq.symm.trans hw) hstage

theorem InOrder.closed_of_ready (h : InOrder entries tails) (hij : i < j) (hi : entries[i]? = some d)
    (hj : entries[j]? = some e) (hdk : d.key = some k) (hek : e.key = some k) (hr : Ready entries e) :
    d.stage = .closed := by
  by_cases hw : e.stage = .waiting
  · rcases h.waits hij hi hj hdk hek hw with hc | ⟨p, hp, hip⟩
    · exact hc
    · obtain ⟨_, f, hf, hfk⟩ := h.back hj hek hw hp
      have hfc := hr p hp f hf
      rcases Nat.lt_or_eq_of_le hip with hlt | rfl
      · exact h.started hlt hi hf hdk hfk (by simp [hfc])
      · rw [hi] at hf
        obtain rfl := Option.some.inj hf
        exact hfc
  · exact h.started hij hi hj hdk hek hw

theorem InOrder.proceed (h : InOrder entries tails) (hi : entries[i]? = some e) (hw : e.stage = .waiting)
    (hr : Ready entries e) : InOrder (entries.set i { e with stage := .running }) tails := by
  -- an entry is closed afterwards where it was
  have hclosed : ∀ {j : Nat} {d d₀ : Entry κ}, ((j ≠ i ∧ d₀ = d) ∨ (j = i ∧ d₀ = e ∧ d.stage = Stage.running)) →
      d₀.stage = .closed → d.stage = .closed := by
    rintro j d d₀ (⟨_, rfl⟩ | ⟨_, rfl, _⟩) hc
    · exact hc
    · rw [hw] at hc
      cases hc
  constructor
  · intro x y d f k hxy hx hy hdk hfk hfw
    obtain ⟨d₀, hx₀, hdk₀, _, hd⟩ := get_stage hi hx
    obtain ⟨f₀, hy₀, hfk₀, hfb₀, hf⟩ := get_stage hi hy
    rcases hf with ⟨_, rfl⟩ | ⟨_, _, hrun⟩
    · exact (h.waits hxy hx₀ hy₀ (hdk₀.trans hdk) hfk hfw).imp_left (hclosed hd)
    · rw [hrun] at hfw
      cases hfw
  · exact h.back_stage hi (by simp)
  · intro x y d f k hxy hx hy hdk hfk hfs
    obtain ⟨d₀, hx₀, hdk₀, _, hd⟩ := get_stage hi hx
    obtain ⟨f₀, hy₀, hfk₀, _, hf⟩ := get_stage hi hy
    apply hclosed hd
    rcases hf with ⟨_, rfl⟩ | ⟨_, rfl, _⟩
    · exact h.started hxy hx₀ hy₀ (hdk₀.trans hdk) hfk hfs
    · exact h.closed_of_ready hxy hx₀ hy₀ (hdk₀.trans hdk) (hfk₀.trans hfk) hr
  · intro k t ht
    obtain ⟨⟨f, hf, hfk, hopen⟩, hlast⟩ := h.tail ht
    obtain ⟨f', hf', hfk', hstage⟩ := exists_stage .running hi hf
    refine ⟨⟨f', hf', hfk'.trans hfk, ?_⟩, fun hty hy hk => ?_⟩
    · rcases hstage with ⟨_, rfl⟩ | ⟨_, hrun⟩
      · exact hopen
      · simp [hrun]
    · obtain ⟨g₀, hg₀, hgk₀, _⟩ := get_stage hi hy
      exact hlast hty hg₀ (hgk₀.trans hk)
  · intro k j f hf hfk hopen
    obtain ⟨f₀, hf₀, hfk₀, _, hstage⟩ := get_stage hi hf
    exact h.found hf₀ (hfk₀.trans hfk) (fun hc => hopen (hclosed hstage hc))

theorem InOrder.close (h : InOrder entries tails) (hi : entries[i]? = some e) (hrun : e.stage = .running) :
    InOrder (entries.set i { e with stage := .closed }) (leave tails e.key i) := by
  -- what was closed is closed
  have hclosed : ∀ {j : Nat} {d d₀ : Entry κ}, ((j ≠ i ∧ d₀ = d) ∨ (j = i ∧ d₀ = e ∧ d.stage = Stage.closed)) →
      d₀.stage = .closed → d.stage = .closed := by
    rintro j d d₀ (⟨_, rfl⟩ | ⟨_, _, hc⟩) hc₀
    · exact hc₀
    · exact hc
  have hlook : ∀ {k : κ} {t : Nat}, (leave tails e.key i).lookup k = some t → tails.lookup k = some t ∧ t ≠ i := by
    intro k t ht
    have hkey : ∀ {t : Nat}, tails.lookup k = some t → t = i → e.key = some k := by
      intro t ht hti
      obtain ⟨⟨f, hf, hfk, _⟩, _⟩ := h.tail ht
      rw [hti, hi] at hf
      rw [Option.some.inj hf]
      exact hfk
    cases hek : e.key with
    | none =>
      rw [hek] at ht
      exact ⟨ht, fun hti => by cases hek.symm.trans (hkey ht hti)⟩
    | some k' =>
      rw [hek] at ht
      simp only [leave] at ht
      by_cases hown : tails.lookup k' = some i
      · rw [if_pos hown] at ht
        by_cases hkk : k = k'
        · rw [hkk, lookup_erase_self] at ht
          cases ht
        · rw [lookup_erase_ne _ hkk] at ht
          exact ⟨ht, fun hti => hkk (Option.some.inj (hek.symm.trans (hkey ht hti))).symm⟩
      · rw [if_neg hown] at ht
        refine ⟨ht, fun hti => ?_⟩
        obtain rfl := Option.some.inj (hek.symm.trans (hkey ht hti))
        exact hown (hti ▸ ht)
  constructor
  · intro x y d f k hxy hx hy hdk hfk hfw
    obtain ⟨d₀, hx₀, hdk₀, _, hd⟩ := get_stage hi hx
    obtain ⟨f₀, hy₀, hfk₀, _, hf⟩ := get_stage hi hy
    rcases hf with ⟨_, rfl⟩ | ⟨_, _, hcl⟩
    · exact (h.waits hxy hx₀ hy₀ (hdk₀.trans hdk) hfk hfw).imp_left (hclosed hd)
    · rw [hcl] at hfw
      cases hfw
  · exact h.back_stage hi (by simp)
  · intro x y d f k hxy hx hy hdk hfk hfs
    obtain ⟨d₀, hx₀, hdk₀, _, hd⟩ := get_stage hi hx
    obtain ⟨f₀, hy₀, hfk₀, _, hf⟩ := get_stage hi hy
    apply hclosed hd
    apply h.started hxy hx₀ hy₀ (hdk₀.trans hdk) (hfk₀.trans hfk)
    rcases hf with ⟨_, rfl⟩ | ⟨_, rfl, _⟩
    · exact hfs
    · simp [hrun]
  · intro k t ht
    obtain ⟨ht, hti⟩ := hlook ht
    obtain ⟨⟨f, hf, hfk, hopen⟩, hlast⟩ := h.tail ht
    refine ⟨⟨f, by rw [List.getElem?_set_ne (Ne.symm hti), hf], hfk, hopen⟩, fun hty hy hk => ?_⟩
    obtain ⟨g₀, hg₀, hgk₀, _⟩ := get_stage hi hy
    exact hlast hty hg₀ (hgk₀.trans hk)
  · intro k j f hf hfk hopen
    obtain ⟨f₀, hf₀, hfk₀, _, hstage⟩ := get_stage hi hf
    rcases hstage with ⟨hji, rfl⟩ | ⟨_, _, hcl⟩
    · obtain ⟨t, ht⟩ := h.found hf₀ hfk hopen
      -- the tail of the key is not the entry that is closed: an open one of the key is left
      have hti : e.key = some k → t ≠ i := by
        intro hek hti
        have hle := h.le_tail ht hf₀ hfk
        exact hopen (h.started (by omega) hf₀ hi hfk hek (by simp [hrun]))
      refine ⟨t, ?_⟩
      cases hek : e.key with
      | none => exact ht
      | some k' =>
        simp only [leave]
        by_cases hown : tails.lookup k' = some i
        · rw [if_pos hown]
          by_cases hkk : k = k'
          · rw [hkk] at ht
            exact absurd (Option.some.inj (ht.symm.trans hown)) (hti (hkk ▸ hek))
          · rw [lookup_erase_ne _ hkk, ht]
        · rw [if_neg hown, ht]
    · exact absurd hcl hopen

theorem InOrder.exclusive (h : InOrder entries tails) (hi : entries[i]? = some d) (hj : entries[j]? = some e)
    (hdk : d.key = some k) (hek : e.key = some k) (hdr : d.stage = .running) (her : e.stage = .running) : i = j := by
  rcases Nat.lt_trichotomy i j with hij | hij | hij
  · have := h.started hij hi hj hdk hek (by simp [her])
    simp [hdr] at this
  · exact hij
  · have := h.started hij hj hi hek hdk (by simp [hdr])
    simp [her] at this

theorem InOrder.tail_iff (h : InOrder entries tails) (k : κ) :
    (∃ t, tails.lookup k = some t) ↔
      ∃ (i : Nat) (e : Entry κ), entries[i]? = some e ∧ e.key = some k ∧ e.stage ≠ .closed := by
  constructor
  · rintro ⟨t, ht⟩
    obtain ⟨⟨e, he, hek, hopen⟩, _⟩ := h.tail ht
    exact ⟨t, e, he, hek, hopen⟩
  · rintro ⟨i, e, hi, hek, hopen⟩
    exact h.found hi hek hopen

theorem InOrder.progress (h : InOrder entries tails) (hi : entries[i]? = some e) (hek : e.key = some k)
    (hw : e.stage = .waiting) : ∃ (j : Nat) (d : Entry κ), entries[j]? = some d ∧ d.key = some k ∧
      (d.stage = .running ∨ (d.stage = .waiting ∧ Ready entries d)) := by
  induction i using Nat.strongRecOn generalizing e with
  | ind i ih =>
    by_cases hr : Ready entries e
    · exact ⟨i, e, hi, hek, Or.inr ⟨hw, hr⟩⟩
    · simp only [Ready, Option.mem_def, not_forall] at hr
      obtain ⟨p, hp, f, hf, hopen⟩ := hr
      obtain ⟨hpi, g, hg, hgk⟩ := h.back hi hek hw hp
      rw [hf] at hg
      obtain rfl := Option.some.inj hg
      cases hstage : f.stage with
      | waiting => exact ih p hpi hf hgk hstage
      | running => exact ⟨p, f, hf, hgk, Or.inl hstage⟩
      | closed => exact absurd hstage hopen

end

end KeyedChain
