import Mathlib.Data.List.Basic

/- JSON values over some numbers. An object is an association list and stands for the map that
   `List.lookup` reads from it; `deepEqual` compares two values as such. -/
universe u

inductive Json (N : Type u) : Type u where
  | null
  | bool (b : Bool)
  | num (n : N)
  | str (s : String)
  | arr (items : List (Json N))
  | obj (fields : List (String × Json N))

namespace Json

variable {N : Type u} [DecidableEq N]

mutual

/-- The values are equal, objects as maps. -/
def deepEqual : Json N → Json N → Bool
  | null, null => true
  | bool a, bool b => a = b
  | num m, num n => m = n
  | str s, str t => s = t
  | arr xs, arr ys => deepEqualItems xs ys
  | obj fs, obj gs => deepEqualFields [] fs gs && gs.all (fun field => (fs.lookup field.1).isSome)
  | _, _ => false

def deepEqualItems : List (Json N) → List (Json N) → Bool
  | [], [] => true
  | x :: xs, y :: ys => deepEqual x y && deepEqualItems xs ys
  | _, _ => false

/-- Every field that no field before it hides is there on the other side. -/
def deepEqualFields (seen : List String) : List (String × Json N) → List (String × Json N) → Bool
  | [], _ => true
  | (key, value) :: fs, gs =>
    (decide (key ∈ seen) ||
      match gs.lookup key with
      | none => false
      | some other => deepEqual value other) && deepEqualFields (key :: seen) fs gs

end

mutual

theorem deepEqual_refl : ∀ value : Json N, deepEqual value value = true
  | null => rfl
  | bool b => by simp [deepEqual]
  | num n => by simp [deepEqual]
  | str s => by simp [deepEqual]
  | arr items => by
    rw [deepEqual]
    exact deepEqualItems_refl items
  | obj fields => by
    rw [deepEqual, Bool.and_eq_true, List.all_eq_true]
    refine ⟨deepEqualFields_refl fields [] fields (fun _ _ => rfl), fun field hfield => ?_⟩
    rw [List.lookup_isSome_iff]
    exact ⟨field, hfield, by simp⟩

theorem deepEqualItems_refl : ∀ items : List (Json N), deepEqualItems items items = true
  | [] => rfl
  | item :: items => by
    rw [deepEqualItems, Bool.and_eq_true]
    exact ⟨deepEqual_refl item, deepEqualItems_refl items⟩

theorem deepEqualFields_refl : ∀ (fields : List (String × Json N)) (seen : List String) (others : List (String × Json N)),
    (∀ key, key ∉ seen → others.lookup key = fields.lookup key) → deepEqualFields seen fields others = true
  | [], _, _, _ => rfl
  | (key, value) :: fields, seen, others, h => by
    rw [deepEqualFields, Bool.and_eq_true, Bool.or_eq_true, decide_eq_true_eq]
    constructor
    · by_cases hseen : key ∈ seen
      · exact Or.inl hseen
      · right
        rw [h key hseen, List.lookup_cons_self]
        exact deepEqual_refl value
    · refine deepEqualFields_refl fields (key :: seen) others fun other hother => ?_
      rw [List.mem_cons, not_or] at hother
      have hne : (other == key) = false := by simpa using hother.1
      rw [h other hother.2, List.lookup_cons, hne]

end

theorem eq_null_of_deepEqual {value : Json N} (h : deepEqual value null = true) : value = null := by
  cases value with
  | null => rfl
  | _ => simp [deepEqual] at h

end Json
