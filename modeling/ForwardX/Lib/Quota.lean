import Mathlib.Algebra.Order.BigOperators.Group.List
import Mathlib.Algebra.Order.Ring.Nat

/- Quotas: natural numbers of which zero is no quota at all, and so the most generous one. In
   that order the total of some quotas and the wider of two quotas grow with each of them. The
   greatest number does not: it takes zero for the least. -/
namespace Quota

/-- The quota `b` allows all that `a` allows. -/
def Le (a b : Nat) : Prop := b = 0 ∨ (0 < a ∧ a ≤ b)

instance (a b : Nat) : Decidable (Le a b) := inferInstanceAs (Decidable (b = 0 ∨ (0 < a ∧ a ≤ b)))

theorem le_unlimited (a : Nat) : Le a 0 := .inl rfl

def total (quotas : List Nat) : Nat := if 0 ∈ quotas then 0 else quotas.sum

theorem total_insert {before after : List Nat} (hsome : before ++ after ≠ []) (x : Nat) :
    Le (total (before ++ after)) (total (before ++ x :: after)) := by
  by_cases hzero : 0 ∈ before ++ x :: after
  · rw [show total (before ++ x :: after) = 0 from if_pos hzero]
    exact le_unlimited _
  · have hless : 0 ∉ before ++ after := by
      intro hmem
      apply hzero
      rw [List.mem_append] at hmem ⊢
      exact hmem.imp_right (List.mem_cons_of_mem x)
    rw [show total (before ++ after) = (before ++ after).sum from if_neg hless,
      show total (before ++ x :: after) = (before ++ x :: after).sum from if_neg hzero]
    obtain ⟨quota, hquota⟩ := List.exists_mem_of_ne_nil _ hsome
    have hpos : 0 < quota := Nat.pos_of_ne_zero (fun h => hless (h ▸ hquota))
    have hsum : quota ≤ (before ++ after).sum := List.single_le_sum (fun _ _ => Nat.zero_le _) quota hquota
    have hinsert : (before ++ x :: after).sum = (before ++ after).sum + x := by
      rw [List.sum_append, List.sum_append, List.sum_cons]
      omega
    exact .inr ⟨by omega, by omega⟩

/-- The wider of two quotas, the second of which is left out when it is zero. -/
def widen (quota other : Nat) : Nat := if quota = 0 then 0 else max quota other

theorem widen_mono {a b : Nat} (h : Le a b) (other : Nat) : Le (widen a other) (widen b other) := by
  unfold Le widen at *
  split <;> split <;> omega

theorem widen_eq_zero {quota other : Nat} : widen quota other = 0 ↔ quota = 0 := by
  unfold widen
  split <;> omega

theorem add_mono {a b x y : Nat} (hab : Le a b) (hxy : x ≤ y) :
    Le (if 0 < a then a + x else a) (if 0 < b then b + y else b) := by
  unfold Le at *
  split <;> split <;> omega

end Quota
