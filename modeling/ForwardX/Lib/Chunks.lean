import Mathlib.Data.List.Basic

/- A list cut into chunks of one length, the last one shorter. -/
namespace Chunks

universe u

/-- The chunks of `n` elements; `n` is not zero. -/
def chunks {α : Type u} (n : Nat) (l : List α) : List (List α) :=
  (List.range ((l.length + (n - 1)) / n)).map (fun i => (l.drop (n * i)).take n)

variable {α : Type u} {n : Nat}

theorem flatten_take (n k : Nat) (l : List α) :
    ((List.range k).map (fun i => (l.drop (n * i)).take n)).flatten = l.take (n * k) := by
  induction k with
  | zero => simp
  | succ k ih =>
    rw [List.range_succ, List.map_append, List.flatten_append, ih, Nat.mul_succ, List.take_add]
    simp

theorem chunks_flatten (hn : 0 < n) (l : List α) : (chunks n l).flatten = l := by
  rw [chunks, flatten_take, List.take_of_length_le]
  have hdiv := Nat.div_add_mod (l.length + (n - 1)) n
  have hmod := Nat.mod_lt (l.length + (n - 1)) hn
  omega

end Chunks
