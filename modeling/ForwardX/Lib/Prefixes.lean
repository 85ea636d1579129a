import Mathlib.Order.Monotone.Basic
import Mathlib.Order.Lattice
import Mathlib.Data.List.Basic
import Mathlib.Data.List.Nodup
import Mathlib.Algebra.Order.BigOperators.Group.List
import Mathlib.Data.Rat.Floor

/- Counting along a growing list.

   1. The largest and the smallest value of a monotone function over samples are its
      values at the largest and the smallest sample (`max?_map`, `min?_map`): aggregates
      of several columns that grow together describe one and the same sample.
   2. `countUpTo p l n` counts what satisfies `p` among the first `n` entries of `l`; it
      is monotone in `n` and does not see what is appended later. Between two positions it
      grows by the count of the slice (`countP_slice`).
   3. The entries of a list fall into classes by a key; distinct keys together hold at
      most what the list holds (`sum_classes_le`). -/
namespace Prefixes

universe u v

section Extremes
variable {α : Type u} {β : Type v} [LinearOrder α] [LinearOrder β] {f : α → β}

theorem max?_map (hf : Monotone f) (l : List α) : (l.map f).max? = l.max?.map f := by
  cases l with
  | nil => rfl
  | cons x l =>
    rw [List.map_cons, List.max?_cons', List.max?_cons', Option.map_some, List.foldl_map]
    exact congrArg some (List.foldl_hom f fun a b => (hf.map_max).symm)

theorem min?_map (hf : Monotone f) (l : List α) : (l.map f).min? = l.min?.map f := by
  cases l with
  | nil => rfl
  | cons x l =>
    rw [List.map_cons, List.min?_cons', List.min?_cons', Option.map_some, List.foldl_map]
    exact congrArg some (List.foldl_hom f fun a b => (hf.map_min).symm)

end Extremes

section Counts
variable {α : Type u} (p : α → Bool)

/-- How many of the first `n` entries satisfy `p`. -/
def countUpTo (l : List α) (n : Nat) : Nat := (l.take n).countP p

/-- The entries with the ordinals `a + 1, …, z`. -/
def slice (l : List α) (a z : Nat) : List α := (l.take z).drop a

theorem countUpTo_mono (l : List α) : Monotone (countUpTo p l) :=
  fun _ _ h => (List.take_sublist_take_left h).countP_le

theorem countUpTo_append {l : List α} (m : List α) {n : Nat} (h : n ≤ l.length) :
    countUpTo p (l ++ m) n = countUpTo p l n := by
  rw [countUpTo, List.take_append_of_le_length h, countUpTo]

theorem countUpTo_length (l : List α) : countUpTo p l l.length = l.countP p := by
  rw [countUpTo, List.take_length]

theorem length_slice {l : List α} {a z : Nat} (h : z ≤ l.length) : (slice l a z).length = z - a := by
  rw [slice, List.length_drop, List.length_take, Nat.min_eq_left h]

theorem slice_eq_nil {l : List α} {a z : Nat} (h : z ≤ a) : slice l a z = [] :=
  List.drop_eq_nil_of_le ((List.length_take_le z l).trans h)

theorem countP_slice (l : List α) {a z : Nat} (h : a ≤ z) :
    countUpTo p l a + (slice l a z).countP p = countUpTo p l z := by
  have htake : l.take a = (l.take z).take a := by rw [List.take_take, Nat.min_eq_left h]
  calc countUpTo p l a + (slice l a z).countP p
      = ((l.take z).take a ++ (l.take z).drop a).countP p := by
        rw [List.countP_append, countUpTo, htake, slice]
    _ = countUpTo p l z := by rw [List.take_append_drop, countUpTo]

end Counts

section Classes
variable {α : Type u} {κ : Type v} [DecidableEq κ] (key : α → κ) (w : α → Nat)

/-- The weight of one entry is counted under one of distinct keys at most. -/
theorem sum_one_class_le {ks : List κ} (hnodup : ks.Nodup) (k : κ) (n : Nat) :
    (ks.map (fun k' => if k = k' then n else 0)).sum ≤ n := by
  induction ks with
  | nil => simp
  | cons k' ks ih =>
    rw [List.nodup_cons] at hnodup
    rw [List.map_cons, List.sum_cons]
    by_cases hk : k = k'
    · have hrest : (ks.map (fun k' => if k = k' then n else 0)).sum = 0 := by
        apply List.sum_eq_zero
        intro m hm
        obtain ⟨j, hj, rfl⟩ := List.mem_map.mp hm
        have hne : k ≠ j := fun hkj => hnodup.1 (by rw [← hk, hkj]; exact hj)
        exact if_neg hne
      rw [if_pos hk, hrest]
      exact le_rfl
    · rw [if_neg hk, Nat.zero_add]
      exact ih hnodup.2

theorem sum_classes_le {ks : List κ} (hnodup : ks.Nodup) (l : List α) :
    (ks.map (fun k => ((l.filter (fun x => key x = k)).map w).sum)).sum ≤ (l.map w).sum := by
  induction l with
  | nil => simp
  | cons x l ih =>
    have hsplit : ∀ k, (((x :: l).filter (fun x => key x = k)).map w).sum
        = (if key x = k then w x else 0) + ((l.filter (fun x => key x = k)).map w).sum := by
      intro k
      by_cases hk : key x = k
      · rw [List.filter_cons_of_pos (by simpa using hk), List.map_cons, List.sum_cons, if_pos hk]
      · rw [List.filter_cons_of_neg (by simpa using hk), if_neg hk, Nat.zero_add]
    calc (ks.map (fun k => (((x :: l).filter (fun x => key x = k)).map w).sum)).sum
        = (ks.map (fun k => (if key x = k then w x else 0)
            + ((l.filter (fun x => key x = k)).map w).sum)).sum := by
          exact congrArg List.sum (List.map_congr_left fun k _ => hsplit k)
      _ = (ks.map (fun k => if key x = k then w x else 0)).sum
            + (ks.map (fun k => ((l.filter (fun x => key x = k)).map w).sum)).sum :=
          List.sum_map_add
      _ ≤ w x + (l.map w).sum := Nat.add_le_add (sum_one_class_le hnodup (key x) (w x)) ih
      _ = ((x :: l).map w).sum := by rw [List.map_cons, List.sum_cons]

end Classes

end Prefixes
