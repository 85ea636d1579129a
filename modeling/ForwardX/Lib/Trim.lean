import Mathlib.Data.List.Basic

/- A list without what meets a test at either end, as texts are trimmed. Trimming twice is
   trimming once (`trim_trim`), and it goes with a map that keeps the test (`trim_map`). -/
namespace Trim

universe u

variable {α : Type u} {p : α → Bool}

/-- The list without what meets `p` at either end. -/
def trim (p : α → Bool) (l : List α) : List α := ((l.dropWhile p).reverse.dropWhile p).reverse

theorem head_dropWhile (p : α → Bool) (l : List α) : ∀ a ∈ (l.dropWhile p).head?, p a = false := by
  induction l with
  | nil => simp
  | cons a l ih =>
    cases hp : p a with
    | true => rwa [List.dropWhile_cons_of_pos hp]
    | false =>
      rw [List.dropWhile_cons_of_neg (by simp [hp])]
      intro b hb
      obtain rfl := Option.some.inj hb
      exact hp

theorem dropWhile_of_head {l : List α} (h : ∀ a ∈ l.head?, p a = false) : l.dropWhile p = l := by
  cases l with
  | nil => rfl
  | cons a l => exact List.dropWhile_cons_of_neg (by simp [h a rfl])

theorem trim_trim (p : α → Bool) (l : List α) : trim p (trim p l) = trim p l := by
  unfold trim
  generalize hfront : l.dropWhile p = front
  generalize hback : front.reverse.dropWhile p = back
  have hbackHead : ∀ a ∈ back.head?, p a = false := hback ▸ head_dropWhile p front.reverse
  have hprefix : back.reverse <+: front := by
    rw [← List.reverse_suffix, List.reverse_reverse, ← hback]
    exact List.dropWhile_suffix p
  have hfrontHead : ∀ a ∈ back.reverse.head?, p a = false := by
    intro a ha
    obtain ⟨rest, hrest⟩ := hprefix
    have hhead : front.head? = some a := by
      rw [← hrest, List.head?_append, ha]
      rfl
    exact head_dropWhile p l a (hfront ▸ hhead)
  rw [dropWhile_of_head hfrontHead, List.reverse_reverse, dropWhile_of_head hbackHead]

theorem trim_map (f : α → α) (h : ∀ a, p (f a) = p a) (l : List α) : trim p (l.map f) = (trim p l).map f := by
  have hcomp : p ∘ f = p := funext h
  simp only [trim, List.dropWhile_map, ← List.map_reverse, hcomp]

end Trim
