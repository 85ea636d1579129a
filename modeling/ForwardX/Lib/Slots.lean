import Mathlib.Data.List.Perm.Basic

/- Lists as tables of numbered slots: what the entries of a table are after one of
   them is replaced or a new one is added, and where a longer table is cut. -/
namespace Slots

universe u v

variable {α : Type u}

/-- An entry of a table with slot `k` replaced is the new entry, or an old one of
another slot. -/
theorem getElem?_set_cases {l : List α} {k i : Nat} {x y : α} (h : (l.set k x)[i]? = some y) :
    (i = k ∧ y = x) ∨ (i ≠ k ∧ l[i]? = some y) := by
  by_cases hik : i = k
  · subst hik
    rw [List.getElem?_set] at h
    simp only [if_true] at h
    split at h
    · exact .inl ⟨rfl, (Option.some.inj h).symm⟩
    · cases h
  · rw [List.getElem?_set_ne (fun hk => hik hk.symm)] at h
    exact .inr ⟨hik, h⟩

/-- Replacing an entry by one with the same `f` leaves the `f` of every slot. -/
theorem getElem?_set_map {β : Type u} (f : α → β) {l : List α} {k i : Nat} {x x' y : α}
    (hx : l[k]? = some x) (h : (l.set k x')[i]? = some y) (hf : f x' = f x) :
    ∃ z, l[i]? = some z ∧ f z = f y := by
  rcases getElem?_set_cases h with ⟨rfl, rfl⟩ | ⟨-, h⟩
  · exact ⟨x, hx, hf.symm⟩
  · exact ⟨y, h, rfl⟩

variable {x y : α} {i : Nat} {l : List α}

/-- An entry of a table with one more slot is an old one or the new one. -/
theorem getElem?_concat_cases (h : (l ++ [x])[i]? = some y) :
    (i = l.length ∧ y = x) ∨ (i < l.length ∧ l[i]? = some y) := by
  have hlt := (List.getElem?_eq_some_iff.mp h).1
  rw [List.length_append, List.length_singleton] at hlt
  rcases Nat.lt_or_ge i l.length with hi | hi
  · rw [List.getElem?_append_left hi] at h
    exact .inr ⟨hi, h⟩
  · obtain rfl : i = l.length := by omega
    rw [List.getElem?_concat_length] at h
    exact .inl ⟨rfl, (Option.some.inj h).symm⟩

theorem snoc_split {l l₁ l₂ : List α} {e x : α} (h : l ++ [e] = l₁ ++ x :: l₂) :
    (l = l₁ ∧ e = x ∧ l₂ = []) ∨ ∃ l₂', l₂ = l₂' ++ [e] ∧ l = l₁ ++ x :: l₂' := by
  rcases List.eq_nil_or_concat l₂ with rfl | ⟨l₂', y, rfl⟩
  · have := List.append_inj' h rfl
    exact .inl ⟨this.1, (List.cons.inj this.2).1, rfl⟩
  · rw [List.concat_eq_append, ← List.cons_append, ← List.append_assoc] at h
    obtain ⟨hl, he⟩ := List.append_inj' h rfl
    obtain rfl := (List.cons.inj he).1
    exact .inr ⟨l₂', List.concat_eq_append, hl⟩

/-- Up to order, a table is one of its entries and the rest, and replacing the entry
leaves the rest. -/
theorem exists_rest (h : l[i]? = some x) :
    ∃ rest, l.Perm (x :: rest) ∧ (l.eraseIdx i).Perm rest ∧ ∀ y, (l.set i y).Perm (y :: rest) := by
  induction l generalizing i with
  | nil => cases h
  | cons z l ih =>
    cases i with
    | zero =>
      obtain rfl := Option.some.inj h
      exact ⟨l, List.Perm.refl _, List.Perm.refl _, fun y => List.Perm.refl _⟩
    | succ i =>
      obtain ⟨rest, hperm, herase, hset⟩ := ih h
      refine ⟨z :: rest, ?_, herase.cons z, fun y => ?_⟩
      · exact (hperm.cons z).trans (List.Perm.swap x z rest)
      · exact ((hset y).cons z).trans (List.Perm.swap y z rest)

theorem exists_rest_filterMap {β : Type v} (f : α → Option β) (h : l[i]? = some x) :
    ∃ rest, (l.filterMap f).Perm ((f x).toList ++ rest) ∧
      ∀ y, ((l.set i y).filterMap f).Perm ((f y).toList ++ rest) := by
  obtain ⟨rest, hperm, -, hset⟩ := exists_rest h
  have hcons : ∀ y, (y :: rest).filterMap f = (f y).toList ++ rest.filterMap f := by
    intro y
    cases hf : f y with
    | none => rw [List.filterMap_cons_none hf]; rfl
    | some b => rw [List.filterMap_cons_some hf]; rfl
  refine ⟨rest.filterMap f, ?_, fun y => ?_⟩
  · rw [← hcons]
    exact hperm.filterMap f
  · rw [← hcons]
    exact (hset y).filterMap f

theorem mem_eraseIdx_of_ne (hi : l[i]? = some x) (hy : y ∈ l) (hne : y ≠ x) : y ∈ l.eraseIdx i := by
  obtain ⟨rest, hperm, herase, _⟩ := exists_rest hi
  exact herase.mem_iff.mpr ((List.mem_cons.mp (hperm.mem_iff.mp hy)).resolve_left hne)

theorem mem_set_of_ne (hi : l[i]? = some x) (hy : y ∈ l) (hne : y ≠ x) (z : α) : y ∈ l.set i z := by
  obtain ⟨rest, hperm, _, hset⟩ := exists_rest hi
  exact (hset z).mem_iff.mpr (List.mem_cons_of_mem z ((List.mem_cons.mp (hperm.mem_iff.mp hy)).resolve_left hne))

theorem mem_set_self (hi : l[i]? = some x) (z : α) : z ∈ l.set i z := by
  obtain ⟨rest, _, _, hset⟩ := exists_rest hi
  exact (hset z).mem_iff.mpr List.mem_cons_self

theorem countP_eraseIdx (hi : l[i]? = some x) (p : α → Bool) :
    l.countP p = (l.eraseIdx i).countP p + if p x then 1 else 0 := by
  obtain ⟨rest, hperm, herase, _⟩ := exists_rest hi
  rw [hperm.countP_eq, herase.countP_eq, List.countP_cons]

theorem countP_set_eq (hi : l[i]? = some x) {p : α → Bool} {z : α} (hz : p z = p x) :
    (l.set i z).countP p = l.countP p := by
  obtain ⟨rest, hperm, _, hset⟩ := exists_rest hi
  rw [hperm.countP_eq, (hset z).countP_eq, List.countP_cons, List.countP_cons, hz]

end Slots
