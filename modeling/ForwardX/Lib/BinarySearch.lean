import Mathlib.Order.Basic
import Mathlib.Data.List.Basic

/- Binary search in a list whose entries know on which side of them the target lies. The list
   must be in order: what lies left of an entry lies left of those behind it, and what lies
   right of an entry lies right of those before it. -/
namespace BinarySearch

universe u

variable {α : Type u}

/-- The loop between `low` and `stop`, of which `stop` is not searched. -/
def searchLoop (side : α → Ordering) (xs : List α) : Nat → Nat → Nat → Bool
  | 0, _, _ => false
  | fuel + 1, low, stop =>
    if low < stop then
      let middle := (low + (stop - 1)) / 2
      match xs[middle]? with
      | none => false
      | some x =>
        match side x with
        | .eq => true
        | .lt => searchLoop side xs fuel low middle
        | .gt => searchLoop side xs fuel (middle + 1) stop
    else false

def binarySearch (side : α → Ordering) (xs : List α) : Bool := searchLoop side xs xs.length 0 xs.length

def InOrder (side : α → Ordering) (xs : List α) : Prop :=
  xs.Pairwise (fun a b => (side a = .lt → side b = .lt) ∧ (side b = .gt → side a = .gt))

variable {side : α → Ordering} {xs : List α}

theorem InOrder.lt_of_lt (h : InOrder side xs) {i j : Nat} {x y : α} (hx : xs[i]? = some x) (hy : xs[j]? = some y)
    (hlt : side x = .lt) (heq : side y = .eq) : j < i := by
  rcases Nat.lt_trichotomy j i with hji | rfl | hij
  · exact hji
  · rw [hx] at hy
    rw [Option.some.inj hy, heq] at hlt
    cases hlt
  · obtain ⟨hi, rfl⟩ := List.getElem?_eq_some_iff.mp hx
    obtain ⟨hj, rfl⟩ := List.getElem?_eq_some_iff.mp hy
    have hright := (List.pairwise_iff_getElem.mp h i j hi hj hij).1 hlt
    rw [heq] at hright
    cases hright

theorem InOrder.gt_of_gt (h : InOrder side xs) {i j : Nat} {x y : α} (hx : xs[i]? = some x) (hy : xs[j]? = some y)
    (hgt : side x = .gt) (heq : side y = .eq) : i < j := by
  rcases Nat.lt_trichotomy i j with hij | rfl | hji
  · exact hij
  · rw [hx] at hy
    rw [Option.some.inj hy, heq] at hgt
    cases hgt
  · obtain ⟨hi, rfl⟩ := List.getElem?_eq_some_iff.mp hx
    obtain ⟨hj, rfl⟩ := List.getElem?_eq_some_iff.mp hy
    have hleft := (List.pairwise_iff_getElem.mp h j i hj hi hji).2 hgt
    rw [heq] at hleft
    cases hleft

theorem searchLoop_iff (h : InOrder side xs) {fuel low stop : Nat} (hfuel : stop - low ≤ fuel)
    (hstop : stop ≤ xs.length) :
    searchLoop side xs fuel low stop = true ↔
      ∃ i x, low ≤ i ∧ i < stop ∧ xs[i]? = some x ∧ side x = .eq := by
  induction fuel generalizing low stop with
  | zero =>
    constructor
    · intro hfound
      cases hfound
    · rintro ⟨i, x, hlow, hi, _⟩
      omega
  | succ fuel ih =>
    unfold searchLoop
    split
    · rename_i hlt
      have hmiddle : (low + (stop - 1)) / 2 < xs.length := by omega
      dsimp only
      rw [List.getElem?_eq_getElem hmiddle]
      have hget := List.getElem?_eq_getElem hmiddle
      dsimp only
      cases hside : side xs[(low + (stop - 1)) / 2] with
      | eq => exact ⟨fun _ => ⟨_, _, by omega, by omega, hget, hside⟩, fun _ => rfl⟩
      | lt =>
        dsimp only
        rw [ih (by omega) (by omega)]
        constructor
        · rintro ⟨i, x, hlow, hi, hx, heq⟩
          exact ⟨i, x, hlow, by omega, hx, heq⟩
        · rintro ⟨i, x, hlow, hi, hx, heq⟩
          exact ⟨i, x, hlow, h.lt_of_lt hget hx hside heq, hx, heq⟩
      | gt =>
        dsimp only
        rw [ih (by omega) (by omega)]
        constructor
        · rintro ⟨i, x, hlow, hi, hx, heq⟩
          exact ⟨i, x, by omega, hi, hx, heq⟩
        · rintro ⟨i, x, hlow, hi, hx, heq⟩
          exact ⟨i, x, h.gt_of_gt hget hx hside heq, hi, hx, heq⟩
    · constructor
      · intro hfound
        cases hfound
      · rintro ⟨i, x, hlow, hi, _⟩
        omega

theorem binarySearch_iff (h : InOrder side xs) :
    binarySearch side xs = true ↔ ∃ x ∈ xs, side x = .eq := by
  unfold binarySearch
  rw [searchLoop_iff h (by omega) (Nat.le_refl _)]
  constructor
  · rintro ⟨i, x, _, _, hx, heq⟩
    exact ⟨x, List.mem_of_getElem? hx, heq⟩
  · rintro ⟨x, hx, heq⟩
    obtain ⟨i, hi, rfl⟩ := List.getElem_of_mem hx
    exact ⟨i, _, Nat.zero_le i, hi, List.getElem?_eq_getElem hi, heq⟩

example : binarySearch (compare 7) [1, 4, 7, 9] = true := by decide +kernel

end BinarySearch
