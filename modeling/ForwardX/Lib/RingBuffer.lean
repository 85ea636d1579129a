import Mathlib.Data.Nat.ModEq
import Mathlib.Data.List.Basic

/- A ring buffer as its slots, the index of its oldest element and its size, and the
   list it holds: `contents` reads `size` slots from `head`, around the end. Writing
   behind the newest element appends to the list (`contents_push`); emptying the slot
   at `head` and moving `head` on drops its first element (`contents_pop`). What is in
   the other slots does not matter. -/
namespace RingBuffer

universe u

variable {α : Type u}

def contents (zero : α) (slots : List α) (head size : Nat) : List α :=
  (List.range size).map fun i => slots.getD ((head + i) % slots.length) zero

@[simp] theorem length_contents (zero : α) (slots : List α) (head size : Nat) :
    (contents zero slots head size).length = size := by
  simp [contents]

@[simp] theorem contents_zero (zero : α) (slots : List α) (head : Nat) :
    contents zero slots head 0 = [] := rfl

theorem index_inj {n head i j : Nat} (hi : i < n) (hj : j < n)
    (h : (head + i) % n = (head + j) % n) : i = j :=
  (Nat.ModEq.add_left_cancel' head h).eq_of_lt_of_lt hi hj

theorem index_lt {n head i : Nat} (hi : i < n) : (head + i) % n < n :=
  Nat.mod_lt _ (Nat.zero_lt_of_lt hi)

theorem getElem?_contents (zero : α) (slots : List α) (head : Nat) {size i : Nat} (h : i < size) :
    (contents zero slots head size)[i]? =
      some (slots.getD ((head + i) % slots.length) zero) := by
  simp [contents, h]

variable {slots : List α} {head : Nat}

theorem contents_set {zero : α} {head size : Nat} (h : size < slots.length) (x : α) :
    contents zero (slots.set ((head + size) % slots.length) x) head size =
      contents zero slots head size := by
  apply List.map_congr_left
  intro i hi
  have hlt : i < size := List.mem_range.mp hi
  have hne : (head + size) % slots.length ≠ (head + i) % slots.length := by
    intro heq
    have := index_inj h (Nat.lt_trans hlt h) heq
    omega
  simp only [List.length_set, List.getD_eq_getElem?_getD]
  rw [List.getElem?_set_ne hne]

theorem contents_push (zero : α) (head : Nat) {size : Nat} (h : size < slots.length) (x : α) :
    contents zero (slots.set ((head + size) % slots.length) x) head (size + 1) =
      contents zero slots head size ++ [x] := by
  have hlast : (slots.set ((head + size) % slots.length) x).getD
      ((head + size) % slots.length) zero = x := by
    simp [List.getD_eq_getElem?_getD, List.getElem?_set_self (index_lt h)]
  calc contents zero (slots.set ((head + size) % slots.length) x) head (size + 1)
      = contents zero (slots.set ((head + size) % slots.length) x) head size ++
          [(slots.set ((head + size) % slots.length) x).getD
            ((head + size) % slots.length) zero] := by
        simp only [contents, List.range_succ, List.map_append, List.map_singleton,
          List.length_set]
    _ = contents zero slots head size ++ [x] := by rw [contents_set h, hlast]

theorem contents_pop (zero : α) (size : Nat) (h : size < slots.length) (hhead : head < slots.length) :
    contents zero (slots.set head zero) ((head + 1) % slots.length) size =
      (contents zero slots head (size + 1)).tail := by
  simp only [contents, List.range_succ_eq_map, List.map_cons, List.tail_cons, List.map_map,
    List.length_set]
  apply List.map_congr_left
  intro i hi
  have hlt : i < size := List.mem_range.mp hi
  -- the slot of offset `i` from the new head is that of `i + 1` from the old one
  have hindex : ((head + 1) % slots.length + i) % slots.length = (head + (i + 1)) % slots.length := by
    rw [Nat.mod_add_mod]
    congr 1
    omega
  have hne : head ≠ (head + (i + 1)) % slots.length := by
    intro heq
    have hzero : (head + 0) % slots.length = (head + (i + 1)) % slots.length := by
      rw [Nat.add_zero, Nat.mod_eq_of_lt hhead, ← heq]
    have := index_inj (by omega) (by omega) hzero
    omega
  simp only [Function.comp, Nat.succ_eq_add_one, List.getD_eq_getElem?_getD, hindex]
  rw [List.getElem?_set_ne hne]

theorem head_contents (zero : α) (size : Nat) (hhead : head < slots.length) :
    (contents zero slots head (size + 1)).head? = some (slots.getD head zero) := by
  simp [contents, List.range_succ_eq_map, Nat.mod_eq_of_lt hhead]

end RingBuffer
