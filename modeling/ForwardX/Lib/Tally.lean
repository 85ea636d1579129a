import Mathlib.Algebra.BigOperators.Group.Finset.Basic
import Mathlib.Data.Fintype.BigOperators
import Mathlib.Algebra.Order.BigOperators.Group.Finset
import Mathlib.Algebra.Order.BigOperators.Group.List
import Mathlib.Tactic.Ring
import ForwardX.Lib.Assoc

/- Totals of a table of rows: how a sum changes when one row is replaced, added or
   removed, and that one row is at most the sum when all are nonnegative. A table
   is a function on a finite index type, a list, or an association list. Last, what
   is lost when every entry is divided on its own. -/
namespace Tally

universe u v

section Indexed
variable {ι : Type u} {α : Type v} [Fintype ι]

theorem le_sum {f : ι → Int} (h : ∀ i, 0 ≤ f i) (k : ι) : f k ≤ ∑ i, f i :=
  Finset.single_le_sum (fun i _ => h i) (Finset.mem_univ k)

variable [DecidableEq ι]

/-- Replacing one row of a table moves the total by the difference of the two rows. -/
theorem sum_update (f : α → Int) (g : ι → α) (k : ι) (x : α) :
    ∑ i, f (Function.update g k x i) = ∑ i, f (g i) + (f x - f (g k)) := by
  have hsplit : ∀ h : ι → α, ∑ i, f (h i) = f (h k) + ∑ i ∈ Finset.univ.erase k, f (h i) :=
    fun h => (Finset.add_sum_erase Finset.univ (fun i => f (h i)) (Finset.mem_univ k)).symm
  have hrest : ∑ i ∈ Finset.univ.erase k, f (Function.update g k x i)
      = ∑ i ∈ Finset.univ.erase k, f (g i) := by
    apply Finset.sum_congr rfl
    intro i hi
    rw [Function.update_of_ne (Finset.ne_of_mem_erase hi)]
  rw [hsplit, hsplit g, hrest, Function.update_self]
  ring

end Indexed

section Listed
variable {α : Type v} (f : α → Int)

theorem sum_map_set {l : List α} {i : Nat} {x : α} (h : l[i]? = some x) (y : α) :
    ((l.set i y).map f).sum = (l.map f).sum + (f y - f x) := by
  induction l generalizing i with
  | nil => cases h
  | cons z l ih =>
    cases i with
    | zero =>
      obtain rfl := Option.some.inj h
      simp only [List.set_cons_zero, List.map_cons, List.sum_cons]
      ring
    | succ i =>
      simp only [List.set_cons_succ, List.map_cons, List.sum_cons, ih h]
      ring

omit f in
theorem countP_set (p : α → Bool) {l : List α} {i : Nat} {x : α} (h : l[i]? = some x) (y : α) :
    (l.set i y).countP p + (if p x then 1 else 0) = l.countP p + (if p y then 1 else 0) := by
  induction l generalizing i with
  | nil => cases h
  | cons z l ih =>
    cases i with
    | zero =>
      obtain rfl := Option.some.inj h
      rw [List.set_cons_zero, List.countP_cons, List.countP_cons]
      omega
    | succ i =>
      have := ih h
      rw [List.set_cons_succ, List.countP_cons, List.countP_cons]
      omega

theorem sum_map_concat (l : List α) (x : α) : ((l ++ [x]).map f).sum = (l.map f).sum + f x := by
  simp

theorem sum_map_nonneg (h : ∀ x, 0 ≤ f x) (l : List α) : 0 ≤ (l.map f).sum := by
  induction l with
  | nil => simp
  | cons x l ih =>
    have := h x
    rw [List.map_cons, List.sum_cons]
    omega

theorem le_sum_map (h : ∀ x, 0 ≤ f x) {l : List α} {x : α} (hx : x ∈ l) : f x ≤ (l.map f).sum := by
  induction l with
  | nil => cases hx
  | cons y l ih =>
    have hy := h y
    have hl := sum_map_nonneg f h l
    rw [List.map_cons, List.sum_cons]
    rcases List.mem_cons.mp hx with rfl | hx
    · omega
    · have := ih hx
      omega

end Listed

section Keyed
variable {κ : Type u} {α : Type v} (f : α → Int)

def total (l : List (κ × α)) : Int := (l.map (fun e => f e.2)).sum

theorem total_cons (e : κ × α) (l : List (κ × α)) : total f (e :: l) = f e.2 + total f l := by
  simp [total]

theorem total_nonneg (h : ∀ x, 0 ≤ f x) (l : List (κ × α)) : 0 ≤ total f l :=
  sum_map_nonneg (fun e : κ × α => f e.2) (fun e => h e.2) l

theorem total_erase [DecidableEq κ] {l : List (κ × α)} (hnd : (l.map Prod.fst).Nodup) {k : κ} {x : α}
    (h : l.lookup k = some x) : total f (Assoc.erase l k) = total f l - f x := by
  induction l with
  | nil => cases h
  | cons e l ih =>
    obtain ⟨k', y⟩ := e
    rw [List.map_cons, List.nodup_cons] at hnd
    rw [total_cons]
    by_cases hk : k = k'
    · subst hk
      rw [List.lookup_cons_self] at h
      obtain rfl := Option.some.inj h
      have hrest : Assoc.erase ((k, y) :: l) k = l := by
        have := Assoc.erase_of_notMem hnd.1
        simpa [Assoc.erase] using this
      rw [hrest]
      ring
    · have hne : (k == k') = false := by simpa using hk
      rw [List.lookup_cons, hne] at h
      have hcons : Assoc.erase ((k', y) :: l) k = (k', y) :: Assoc.erase l k := by
        have hkk : (k' != k) = true := by simpa using fun h' => hk (Eq.symm h')
        simp [Assoc.erase, hkk]
      rw [hcons, total_cons, ih hnd.2 h]
      ring

theorem total_filter_add (p : κ × α → Bool) (l : List (κ × α)) :
    total f (l.filter p) + total f (l.filter (fun e => !p e)) = total f l := by
  induction l with
  | nil => rfl
  | cons e l ih =>
    rw [total_cons, ← ih]
    cases hp : p e with
    | true =>
      rw [List.filter_cons_of_pos hp, List.filter_cons_of_neg (by simp [hp]), total_cons]
      ring
    | false =>
      rw [List.filter_cons_of_neg (by simp [hp]), List.filter_cons_of_pos (by simp [hp]), total_cons]
      ring

end Keyed

section Floors
variable (D : Nat)

/-- What the entries divided one by one give and what they drop add up to the total. -/
theorem floors_add_remainders (l : List Nat) :
    D * (l.map (· / D)).sum + (l.map (· % D)).sum = l.sum := by
  induction l with
  | nil => simp
  | cons n l ih =>
    have hn := Nat.div_add_mod n D
    rw [List.map_cons, List.map_cons, List.sum_cons, List.sum_cons, List.sum_cons, Nat.mul_add]
    omega

/-- Dividing one by one gives what dividing the total does exactly when what is dropped stays
below the divisor. -/
theorem floors_eq_iff {D : Nat} (hD : 0 < D) (l : List Nat) :
    (l.map (· / D)).sum = l.sum / D ↔ (l.map (· % D)).sum < D := by
  have hsplit := floors_add_remainders D l
  have hdiv : l.sum / D = (l.map (· / D)).sum + (l.map (· % D)).sum / D := by
    rw [← hsplit, Nat.mul_add_div hD]
  rw [hdiv, left_eq_add]
  exact Nat.div_eq_zero_iff_lt hD

end Floors

end Tally
