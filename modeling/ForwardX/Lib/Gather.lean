import Mathlib.Data.List.Forall2
import Mathlib.Data.List.GetD
import Mathlib.Algebra.BigOperators.Group.List.Basic
import Mathlib.Algebra.Order.Ring.Nat
import ForwardX.Lib.Slots

/- Putting a list together again from its pieces. A table of slots is within a list
   when every filled slot holds the list's entry of that number (`Within`); a table with
   as many filled slots as the list has entries is the list (`Within.complete`).

   A list cut into pieces of one size is the pieces put together (`flatten_pieces`). -/
namespace Gather

universe u

variable {α : Type u}

def Within (slots : List (Option α)) (full : List α) : Prop :=
  List.Forall₂ (fun slot x => ∀ y ∈ slot, y = x) slots full

def filled (slots : List (Option α)) : Nat := slots.countP Option.isSome

def size (weight : α → Nat) (slots : List (Option α)) : Nat :=
  (slots.map (fun slot => (slot.map weight).getD 0)).sum

theorem Within.empty (full : List α) : Within (List.replicate full.length none) full := by
  induction full with
  | nil => exact List.Forall₂.nil
  | cons x full ih => exact List.Forall₂.cons (fun _ hy => nomatch hy) ih

@[simp] theorem filled_empty (n : Nat) : filled (List.replicate n (none : Option α)) = 0 := by
  simp [filled, List.countP_replicate]

@[simp] theorem size_empty (weight : α → Nat) (n : Nat) :
    size weight (List.replicate n none) = 0 := by
  simp [size]

variable {slots : List (Option α)} {full : List α}

theorem Within.length_eq (h : Within slots full) : slots.length = full.length := List.Forall₂.length_eq h

theorem Within.set (h : Within slots full) {i : Nat} {x : α} (hx : full[i]? = some x) :
    Within (slots.set i (some x)) full := by
  induction h generalizing i with
  | nil => cases hx
  | @cons slot z slots full hz hrest ih =>
    cases i with
    | zero =>
      obtain rfl : z = x := by simpa using hx
      exact List.Forall₂.cons (fun y hy => (Option.some.inj hy).symm) hrest
    | succ i => exact List.Forall₂.cons hz (ih (by simpa using hx))

theorem filled_set {i : Nat} (h : slots[i]? = some none) (x : α) :
    filled (slots.set i (some x)) = filled slots + 1 := by
  obtain ⟨rest, hperm, -, hset⟩ := Slots.exists_rest h
  calc filled (slots.set i (some x))
      = List.countP Option.isSome (some x :: rest) := (hset (some x)).countP_eq _
    _ = List.countP Option.isSome (none :: rest) + 1 := by simp
    _ = filled slots + 1 := by rw [filled, hperm.countP_eq]

theorem size_set (weight : α → Nat) {i : Nat} (h : slots[i]? = some none) (x : α) :
    size weight (slots.set i (some x)) = size weight slots + weight x := by
  obtain ⟨rest, hperm, -, hset⟩ := Slots.exists_rest h
  have hafter := ((hset (some x)).map (fun slot => (slot.map weight).getD 0)).sum_eq
  have hbefore := (hperm.map (fun slot => (slot.map weight).getD 0)).sum_eq
  simp only [size, hafter, hbefore, List.map_cons, List.sum_cons, Option.map_some, Option.map_none,
    Option.getD_some, Option.getD_none]
  omega

theorem filled_le_length (slots : List (Option α)) : filled slots ≤ slots.length :=
  List.countP_le_length

theorem Within.size_le (h : Within slots full) (weight : α → Nat) : size weight slots ≤ (full.map weight).sum := by
  induction h with
  | nil => exact Nat.le_refl 0
  | @cons slot z slots full hz hrest ih =>
    have hhead : (slot.map weight).getD 0 ≤ weight z := by
      cases slot with
      | none => exact Nat.zero_le _
      | some y => exact Nat.le_of_eq (congrArg weight (hz y rfl))
    simp only [size, List.map_cons, List.sum_cons] at ih ⊢
    omega

theorem Within.complete (h : Within slots full) (hall : filled slots = full.length) : slots = full.map some := by
  induction h with
  | nil => rfl
  | @cons slot z slots full hz hrest ih =>
    have hle := filled_le_length slots
    have hlen := List.Forall₂.length_eq hrest
    cases slot with
    | none =>
      -- an empty slot leaves too few
      have : filled slots = full.length + 1 := by simpa [filled] using hall
      omega
    | some y =>
      have htail : filled slots = full.length := by simpa [filled] using hall
      rw [ih htail, hz y rfl, List.map_cons]

theorem filled_eq_length_iff (slots : List (Option α)) :
    filled slots = slots.length ↔ ∀ i < slots.length, (slots.getD i none).isSome = true := by
  unfold filled
  rw [List.countP_eq_length]
  constructor
  · intro h i hi
    rw [List.getD_eq_getElem _ _ hi]
    exact h _ (List.getElem_mem hi)
  · intro h slot hslot
    obtain ⟨i, hi, rfl⟩ := List.getElem_of_mem hslot
    have := h i hi
    rwa [List.getD_eq_getElem _ _ hi] at this

theorem none_mem_of_filled_ne (h : filled slots ≠ slots.length) : none ∈ slots := by
  by_contra hnone
  apply h
  rw [filled, List.countP_eq_length]
  intro slot hslot
  rw [Option.isSome_iff_ne_none]
  exact fun heq => hnone (heq ▸ hslot)

theorem isSome_getD_set {i : Nat} (h : i < slots.length) (x : α) (j : Nat) :
    ((slots.set i (some x)).getD j none).isSome = true ↔ j = i ∨ (slots.getD j none).isSome = true := by
  rw [List.getD_eq_getElem?_getD, List.getD_eq_getElem?_getD, List.getElem?_set]
  by_cases hij : i = j
  · subst hij
    simp [h]
  · simp [hij, Ne.symm hij]

/-! ## Pieces of one size -/

/-- Piece `i` of a list cut into pieces of `n`. -/
def piece (n : Nat) (l : List α) (i : Nat) : List α := (l.drop (i * n)).take n

theorem flatten_pieces_take (n : Nat) (l : List α) (count : Nat) :
    ((List.range count).map (piece n l)).flatten = l.take (count * n) := by
  induction count with
  | zero => simp
  | succ count ih =>
    rw [List.range_succ, List.map_append, List.flatten_append, ih, Nat.succ_mul, List.take_add]
    simp [piece]

theorem flatten_pieces {n : Nat} {l : List α} {count : Nat} (h : l.length ≤ count * n) :
    ((List.range count).map (piece n l)).flatten = l := by
  rw [flatten_pieces_take, List.take_of_length_le h]

theorem length_piece_le (n : Nat) (l : List α) (i : Nat) : (piece n l i).length ≤ n := by
  rw [piece, List.length_take]
  exact Nat.min_le_left _ _

theorem length_piece_pos {n : Nat} {l : List α} {i : Nat} (hn : 0 < n) (h : i * n < l.length) :
    0 < (piece n l i).length := by
  rw [piece, List.length_take, List.length_drop]
  omega

end Gather
