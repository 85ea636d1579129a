import Mathlib.Data.List.Basic

/- Decimal texts of integers, and keys that are joined from parts by a separator: a separator
   that does not occur in the first part shows where the first part ends. -/
namespace DecimalText

/-- What stands before the first separator, and what behind it, is read off the joined text. -/
theorem join_inj {α : Type} {sep : α} {a b x y : List α} (ha : sep ∉ a) (hb : sep ∉ b)
    (h : a ++ sep :: x = b ++ sep :: y) : a = b ∧ x = y := by
  induction a generalizing b with
  | nil =>
    cases b with
    | nil => exact ⟨rfl, (List.cons.inj h).2⟩
    | cons c b => exact absurd (List.cons.inj h).1 (fun hc => hb (hc ▸ List.mem_cons_self))
  | cons c a ih =>
    cases b with
    | nil => exact absurd (List.cons.inj h).1 (fun hc => ha (hc ▸ List.mem_cons_self))
    | cons d b =>
      obtain ⟨hcd, htail⟩ := List.cons.inj h
      obtain ⟨hab, hxy⟩ :=
        ih (fun hc => ha (List.mem_cons_of_mem _ hc)) (fun hd => hb (List.mem_cons_of_mem _ hd)) htail
      exact ⟨by rw [hcd, hab], hxy⟩

theorem toDigits_inj {m n : Nat} (h : Nat.toDigits 10 m = Nat.toDigits 10 n) : m = n := by
  calc m = Nat.ofDigitChars 10 (Nat.toDigits 10 m) 0 := Nat.ofDigitChars_ten_toDigits.symm
    _ = Nat.ofDigitChars 10 (Nat.toDigits 10 n) 0 := by rw [h]
    _ = n := Nat.ofDigitChars_ten_toDigits

/-- The text of an integer: the digits of its absolute value, behind a sign if it is negative. -/
theorem toList_toString (a : Int) :
    (toString a).toList = (if 0 ≤ a then [] else ['-']) ++ Nat.toDigits 10 a.natAbs := by
  rw [Int.toString_eq_repr, Int.repr_eq_if]
  split
  · rw [Nat.toList_repr, List.nil_append]
    congr 1
    omega
  · rw [String.toList_append, Nat.toList_repr]
    congr 2
    omega

example : (toString (-12 : Int)).toList = ['-', '1', '2'] := by decide +kernel

theorem mem_toString {a : Int} {c : Char} (h : c ∈ (toString a).toList) : c.isDigit = true ∨ c = '-' := by
  rw [toList_toString, List.mem_append] at h
  rcases h with h | h
  · right
    split at h
    · cases h
    · exact List.mem_singleton.mp h
  · exact .inl (Nat.isDigit_of_mem_toDigits (by decide) (by decide) h)

theorem toString_inj {a b : Int} (h : toString a = toString b) : a = b := by
  have hchars := congrArg String.toList h
  rw [toList_toString, toList_toString] at hchars
  have hminus : ∀ n, '-' ∉ Nat.toDigits 10 n := fun n hmem =>
    absurd (Nat.isDigit_of_mem_toDigits (by decide) (by decide) hmem) (by decide)
  by_cases ha : 0 ≤ a <;> by_cases hb : 0 ≤ b
  · rw [if_pos ha, if_pos hb] at hchars
    have := toDigits_inj hchars
    omega
  · rw [if_pos ha, if_neg hb, List.nil_append] at hchars
    have hmem : '-' ∈ Nat.toDigits 10 a.natAbs := by
      rw [hchars]
      exact List.mem_cons_self
    exact absurd hmem (hminus _)
  · rw [if_neg ha, if_pos hb, List.nil_append] at hchars
    have hmem : '-' ∈ Nat.toDigits 10 b.natAbs := by
      rw [← hchars]
      exact List.mem_cons_self
    exact absurd hmem (hminus _)
  · rw [if_neg ha, if_neg hb] at hchars
    have := toDigits_inj (List.cons.inj hchars).2
    omega

end DecimalText
