import ForwardX.Lib.Assoc

/- An index over items that arrive one by one: a map from the key of an item to an item with
   that key, kept for those items that pass a test. It finds an item exactly for the keys of
   such items, and later items may take the place of earlier ones or not. -/
namespace Index

universe u v

variable {κ : Type u} {α : Type v} [DecidableEq κ]

/-- The map is an index of the items that pass `p`, by `key`. -/
structure Indexes (map : List (κ × α)) (key : α → κ) (p : α → Prop) (items : List α) : Prop where
  sound : ∀ k x, map.lookup k = some x → x ∈ items ∧ key x = k ∧ p x
  complete : ∀ x ∈ items, p x → (map.lookup (key x)).isSome = true

variable {map : List (κ × α)} {key : α → κ} {p : α → Prop} {items : List α}

theorem Indexes.empty : Indexes ([] : List (κ × α)) key p [] := by
  constructor
  · intro k x h
    cases h
  · intro x h
    cases h

theorem Indexes.sound_append (h : Indexes map key p items) (x : α) :
    ∀ k y, map.lookup k = some y → y ∈ items ++ [x] ∧ key y = k ∧ p y := by
  intro k y hy
  obtain ⟨hmem, hrest⟩ := h.sound k y hy
  exact ⟨List.mem_append_left _ hmem, hrest⟩

theorem Indexes.put (h : Indexes map key p items) {x : α} (hp : p x) :
    Indexes (Assoc.put map (key x) x) key p (items ++ [x]) := by
  constructor
  · intro k y hy
    by_cases hk : k = key x
    · rw [hk, Assoc.lookup_put_self] at hy
      obtain rfl := Option.some.inj hy
      exact ⟨by simp, hk.symm, hp⟩
    · rw [Assoc.lookup_put_ne _ hk] at hy
      exact h.sound_append x k y hy
  · intro y hy hpy
    by_cases hk : key y = key x
    · rw [hk, Assoc.lookup_put_self]
      rfl
    · rw [Assoc.lookup_put_ne _ hk]
      rcases List.mem_append.mp hy with hmem | hmem
      · exact h.complete y hmem hpy
      · rw [List.mem_singleton.mp hmem] at hk
        exact absurd rfl hk

/-- The new item is left out when its key is there, or when it does not pass the test. -/
theorem Indexes.skip (h : Indexes map key p items) {x : α} (hskip : p x → (map.lookup (key x)).isSome = true) :
    Indexes map key p (items ++ [x]) := by
  constructor
  · exact h.sound_append x
  · intro y hy hpy
    rcases List.mem_append.mp hy with hmem | hmem
    · exact h.complete y hmem hpy
    · rw [List.mem_singleton] at hmem
      rw [hmem] at hpy ⊢
      exact hskip hpy

end Index
