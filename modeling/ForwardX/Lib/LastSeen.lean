import Mathlib.Data.List.Induction
import Mathlib.Data.List.Nodup
import ForwardX.Lib.Slots

/- Suppressing repeats by the last id of a source. A receiver that keeps one id for each
   source takes an item as new whenever its id is not the one it keeps. It takes each
   item at most once exactly when no item comes back after another one of its source
   (`accepted_nodup_iff`), and what it has seen it has taken (`mem_accepted`). -/
namespace LastSeen

universe u v

variable {κ : Type u} {ι : Type v}

abbrev Item (κ : Type u) (ι : Type v) := κ × ι

section
variable [DecidableEq κ]

/-- The id that is kept for a source after the items `xs`. -/
def last (xs : List (Item κ ι)) (source : κ) : Option ι :=
  ((xs.filter (fun x => x.1 = source)).getLast?).map Prod.snd

theorem last_concat (xs : List (Item κ ι)) (x : Item κ ι) (source : κ) :
    last (xs ++ [x]) source = if x.1 = source then some x.2 else last xs source := by
  unfold last
  rw [List.filter_append]
  by_cases h : x.1 = source
  · simp [h]
  · simp [h]

variable {xs : List (Item κ ι)} {x : Item κ ι}

theorem last_concat_same (h : last xs x.1 = some x.2) (source : κ) : last (xs ++ [x]) source = last xs source := by
  rw [last_concat]
  split
  · rename_i hsource
    rw [← hsource, h]
  · rfl

theorem last_eq_some (h : last xs x.1 = some x.2) : x ∈ xs := by
  obtain ⟨y, hy, hid⟩ := Option.map_eq_some_iff.mp h
  have hmem := List.mem_filter.mp (List.mem_of_getLast? hy)
  have hsource : y.1 = x.1 := by simpa using hmem.2
  have heq : y = x := Prod.ext hsource hid
  exact heq ▸ hmem.1

def Returns (xs : List (Item κ ι)) (x : Item κ ι) : Prop := x ∈ xs ∧ last xs x.1 ≠ some x.2

def InOrder (xs : List (Item κ ι)) : Prop := ∀ ys x zs, xs = ys ++ x :: zs → ¬ Returns ys x

theorem InOrder.nil : InOrder ([] : List (Item κ ι)) := by
  intro ys x zs h
  exact absurd h.symm (List.append_ne_nil_of_right_ne_nil _ (List.cons_ne_nil _ _))

theorem inOrder_concat (xs : List (Item κ ι)) (x : Item κ ι) :
    InOrder (xs ++ [x]) ↔ InOrder xs ∧ ¬ Returns xs x := by
  constructor
  · intro h
    refine ⟨fun ys y zs hxs => h ys y (zs ++ [x]) ?_, h xs x [] rfl⟩
    rw [hxs, List.append_assoc, List.cons_append]
  · rintro ⟨h, hx⟩ ys y zs hsplit
    rcases Slots.snoc_split hsplit with ⟨rfl, rfl, -⟩ | ⟨zs', -, hxs⟩
    · exact hx
    · exact h ys y zs' hxs

variable [DecidableEq ι]

/-- What the receiver takes as new, from the items seen so far and those to come. -/
def acceptedFrom : List (Item κ ι) → List (Item κ ι) → List (Item κ ι)
  | _, [] => []
  | seen, x :: xs =>
    if last seen x.1 = some x.2 then acceptedFrom (seen ++ [x]) xs
    else x :: acceptedFrom (seen ++ [x]) xs

def accepted (xs : List (Item κ ι)) : List (Item κ ι) := acceptedFrom [] xs

theorem acceptedFrom_concat (seen xs : List (Item κ ι)) (x : Item κ ι) :
    acceptedFrom seen (xs ++ [x]) = acceptedFrom seen xs ++
      if last (seen ++ xs) x.1 = some x.2 then [] else [x] := by
  induction xs generalizing seen with
  | nil =>
    simp only [List.nil_append, acceptedFrom, List.append_nil]
  | cons y xs ih =>
    have hseen : seen ++ [y] ++ xs = seen ++ y :: xs := by simp
    simp only [List.cons_append, acceptedFrom, ih, hseen]
    split
    · rfl
    · rfl

theorem accepted_concat (xs : List (Item κ ι)) (x : Item κ ι) :
    accepted (xs ++ [x]) = accepted xs ++ if last xs x.1 = some x.2 then [] else [x] :=
  acceptedFrom_concat [] xs x

theorem mem_accepted : x ∈ accepted xs ↔ x ∈ xs := by
  induction xs using List.reverseRecOn with
  | nil => rfl
  | append_singleton xs y ih =>
    rw [accepted_concat, List.mem_append, List.mem_append, ih]
    by_cases hlast : last xs y.1 = some y.2
    · have hy := last_eq_some hlast
      rw [if_pos hlast, List.mem_singleton]
      constructor
      · rintro (h | h)
        · exact .inl h
        · cases h
      · rintro (h | rfl)
        · exact .inl h
        · exact .inl hy
    · rw [if_neg hlast]

/-- Each item is taken at most once exactly when none comes back after another of its source. -/
theorem accepted_nodup_iff (xs : List (Item κ ι)) : (accepted xs).Nodup ↔ InOrder xs := by
  induction xs using List.reverseRecOn with
  | nil => exact ⟨fun _ => InOrder.nil, fun _ => List.nodup_nil⟩
  | append_singleton xs x ih =>
    rw [accepted_concat, inOrder_concat, ← ih]
    by_cases hlast : last xs x.1 = some x.2
    · have hno : ¬ Returns xs x := fun h => h.2 hlast
      rw [if_pos hlast, List.append_nil]
      exact (and_iff_left hno).symm
    · have hreturns : Returns xs x ↔ x ∈ accepted xs := by
        rw [mem_accepted]
        exact and_iff_left hlast
      rw [if_neg hlast, hreturns, List.nodup_append]
      constructor
      · rintro ⟨hnodup, -, hdisjoint⟩
        exact ⟨hnodup, fun hmem => hdisjoint x hmem x List.mem_cons_self rfl⟩
      · rintro ⟨hnodup, hnew⟩
        refine ⟨hnodup, List.nodup_singleton x, ?_⟩
        intro a ha b hb hab
        rw [List.mem_singleton.mp hb] at hab
        exact hnew (hab ▸ ha)

end

end LastSeen
