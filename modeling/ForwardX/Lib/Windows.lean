import Mathlib.Algebra.Order.Field.Basic
import Mathlib.Algebra.Order.Group.Abs
import Mathlib.Data.List.Sort
import Mathlib.Data.List.GetD
import Mathlib.Data.List.TakeWhile
import Mathlib.Tactic.Linarith
import Mathlib.Tactic.Ring

/- Windows of a bounded width over a list that is sorted by a key. `windows` has one for each
   start; the scan keeps the first of the longest and notes whether another of that length has a
   median apart from it. No interval of the width holds more elements than the longest window. -/
namespace Windows

variable {α K : Type} [Field K] [LinearOrder K]

/-- The middle of a list of numbers, or the mean of the two in the middle. -/
def median (values : List K) : K :=
  let sorted := values.insertionSort (· ≤ ·)
  let middle := sorted.length / 2
  if sorted.length % 2 = 0 then (sorted.getD (middle - 1) 0 + sorted.getD middle 0) / (2 : Nat)
  else sorted.getD middle 0

section
variable (key : α → K) (width : K)

/-- The elements from `s` on that lie within the width of it. -/
def window (s : α) (rest : List α) : List α := s :: rest.takeWhile (fun t => key t - key s ≤ width)

def windows : List α → List (List α)
  | [] => []
  | s :: rest => window key width s rest :: windows rest

def apart (a b : List α) : Bool := width < |median (a.map key) - median (b.map key)|

/-- One window of the scan: the best so far, and whether it is ambiguous. -/
def scanStep (acc : List α × Bool) (candidate : List α) : List α × Bool :=
  if acc.1.length < candidate.length then (candidate, false)
  else if candidate.length = acc.1.length ∧ 0 < acc.1.length then (acc.1, acc.2 || apart key width acc.1 candidate)
  else acc

def scan (l : List α) : List α × Bool := (windows key width l).foldl (scanStep key width) ([], false)

/-- How many elements lie between `x` and `x + width`. -/
def within (x : K) (l : List α) : Nat := l.countP (fun t => x ≤ key t ∧ key t ≤ x + width)

end

section
variable {key : α → K} {width : K}

/-! ## The scan sees the keys only -/

theorem windows_ne_nil {l w : List α} (h : w ∈ windows key width l) : w ≠ [] := by
  induction l with
  | nil => cases h
  | cons s rest ih =>
    rcases List.mem_cons.mp h with rfl | h
    · exact List.cons_ne_nil _ _
    · exact ih h

theorem windows_map (l : List α) : (windows key width l).map (List.map key) = windows id width (l.map key) := by
  induction l with
  | nil => rfl
  | cons s rest ih =>
    rw [windows, List.map_cons, List.map_cons, windows, ih, window, window, List.map_cons, List.takeWhile_map]
    rfl

theorem scanStep_map (acc : List α × Bool) (candidate : List α) :
    ((scanStep key width acc candidate).1.map key, (scanStep key width acc candidate).2) =
      scanStep id width (acc.1.map key, acc.2) (candidate.map key) := by
  simp only [scanStep, List.length_map, apart, List.map_id]
  split
  · rfl
  · split <;> rfl

variable (key width) in
theorem scan_map (l : List α) :
    ((scan key width l).1.map key, (scan key width l).2) = scan id width (l.map key) := by
  have hfold : ∀ (candidates : List (List α)) (acc : List α × Bool),
      ((candidates.foldl (scanStep key width) acc).1.map key, (candidates.foldl (scanStep key width) acc).2) =
        (candidates.map (List.map key)).foldl (scanStep id width) (acc.1.map key, acc.2) := by
    intro candidates
    induction candidates with
    | nil => exact fun _ => rfl
    | cons candidate rest ih =>
      intro acc
      rw [List.foldl_cons, ih, List.map_cons, List.foldl_cons, ← scanStep_map]
  rw [scan, hfold, windows_map, scan]
  rfl

/-! ## The scan finds the first of the longest windows -/

/-- What the scan knows of the windows that it has seen. -/
structure Scanned (key : α → K) (width : K) (seen : List (List α)) (acc : List α × Bool) : Prop where
  longest : ∀ w ∈ seen, w.length ≤ acc.1.length
  first : seen = [] ∧ acc.1 = [] ∨ seen.find? (fun w => w.length = acc.1.length) = some acc.1
  ambiguous : acc.2 = true ↔ ∃ w ∈ seen, w.length = acc.1.length ∧ apart key width acc.1 w = true

variable [IsStrictOrderedRing K]

theorem apart_self (hwidth : 0 ≤ width) (w : List α) : apart key width w w = false := by
  rw [apart, sub_self, abs_zero]
  exact decide_eq_false (not_lt.mpr hwidth)

theorem Scanned.step (hwidth : 0 ≤ width) {seen : List (List α)} {acc : List α × Bool}
    (h : Scanned key width seen acc) {candidate : List α} (hne : candidate ≠ []) :
    Scanned key width (seen ++ [candidate]) (scanStep key width acc candidate) := by
  have hpos : 0 < candidate.length := List.length_pos_iff.mpr hne
  rw [scanStep]
  split
  · next hlonger =>
    refine ⟨fun w hw => ?_, Or.inr ?_, ?_⟩
    · rcases List.mem_append.mp hw with hw | hw
      · exact le_trans (h.longest w hw) (Nat.le_of_lt hlonger)
      · rw [List.mem_singleton.mp hw]
    · -- no window before it is as long
      have hnone : seen.find? (fun w => w.length = candidate.length) = none := by
        rw [List.find?_eq_none]
        intro w hw heq
        have := h.longest w hw
        have : w.length = candidate.length := by simpa using heq
        omega
      rw [List.find?_append, hnone]
      simp
    · constructor
      · intro hfalse
        cases hfalse
      · rintro ⟨w, hw, hlength, hapart⟩
        rcases List.mem_append.mp hw with hw | hw
        · have := h.longest w hw
          change w.length = candidate.length at hlength
          omega
        · rw [List.mem_singleton.mp hw, apart_self hwidth] at hapart
          cases hapart
  next hnot =>
  have hfirst : 0 < acc.1.length → (seen ++ [candidate]).find? (fun w => w.length = acc.1.length) = some acc.1 := by
    intro hbest
    rcases h.first with ⟨_, hnil⟩ | hfound
    · rw [hnil] at hbest
      cases hbest
    · rw [List.find?_append, hfound]
      rfl
  have hbest : 0 < acc.1.length := by omega
  have hlongest : ∀ w ∈ seen ++ [candidate], w.length ≤ acc.1.length := by
    intro w hw
    rcases List.mem_append.mp hw with hw | hw
    · exact h.longest w hw
    · rw [List.mem_singleton.mp hw]
      omega
  split
  · next hequal =>
    refine ⟨hlongest, Or.inr (hfirst hbest), ?_⟩
    rw [Bool.or_eq_true, h.ambiguous]
    simp only [List.mem_append, List.mem_singleton]
    constructor
    · rintro (⟨w, hw, hlength, hapart⟩ | hapart)
      · exact ⟨w, Or.inl hw, hlength, hapart⟩
      · exact ⟨candidate, Or.inr rfl, hequal.1, hapart⟩
    · rintro ⟨w, hw | rfl, hlength, hapart⟩
      · exact Or.inl ⟨w, hw, hlength, hapart⟩
      · exact Or.inr hapart
  · next hshorter =>
    refine ⟨hlongest, Or.inr (hfirst hbest), ?_⟩
    rw [h.ambiguous]
    simp only [List.mem_append, List.mem_singleton]
    constructor
    · rintro ⟨w, hw, hlength, hapart⟩
      exact ⟨w, Or.inl hw, hlength, hapart⟩
    · rintro ⟨w, hw | rfl, hlength, hapart⟩
      · exact ⟨w, hw, hlength, hapart⟩
      · exact absurd ⟨hlength, hbest⟩ hshorter

variable (key) in
theorem scan_scanned (hwidth : 0 ≤ width) (l : List α) :
    Scanned key width (windows key width l) (scan key width l) := by
  have hfold : ∀ (rest seen : List (List α)) (acc : List α × Bool), (∀ w ∈ rest, w ≠ []) →
      Scanned key width seen acc → Scanned key width (seen ++ rest) (rest.foldl (scanStep key width) acc) := by
    intro rest
    induction rest with
    | nil =>
      intro seen acc _ h
      rw [List.append_nil]
      exact h
    | cons candidate rest ih =>
      intro seen acc hne h
      rw [List.append_cons]
      exact ih _ _ (fun w hw => hne w (List.mem_cons_of_mem _ hw)) (h.step hwidth (hne candidate List.mem_cons_self))
  have hstart : Scanned key width [] (([] : List α), false) :=
    ⟨by simp, Or.inl ⟨rfl, rfl⟩, by simp⟩
  exact hfold _ [] _ (fun w hw => windows_ne_nil hw) hstart

/-! ## What a window holds -/

theorem mem_window {s t : α} {rest : List α} (hsorted : (s :: rest).Pairwise (fun a b => key a ≤ key b))
    (hwidth : 0 ≤ width) (h : t ∈ window key width s rest) : key s ≤ key t ∧ key t ≤ key s + width := by
  rcases List.mem_cons.mp h with rfl | h
  · exact ⟨le_refl _, by linarith⟩
  · have hle := List.rel_of_pairwise_cons hsorted (List.takeWhile_subset _ h)
    have hwithin := List.mem_takeWhile_imp h
    exact ⟨hle, by linarith [of_decide_eq_true hwithin]⟩

/-- A window of a sorted list has all elements within the width of its start. -/
theorem countP_le_window {s : α} {rest : List α} (hsorted : (s :: rest).Pairwise (fun a b => key a ≤ key b))
    {x : K} (hx : x ≤ key s) : within key width x (s :: rest) ≤ (window key width s rest).length := by
  have htake : rest.countP (fun t => x ≤ key t ∧ key t ≤ x + width) ≤
      (rest.takeWhile (fun t => key t - key s ≤ width)).length := by
    have hlist := (List.pairwise_cons.mp hsorted).2
    clear hsorted
    induction rest with
    | nil => exact Nat.le_refl _
    | cons t rest ih =>
      by_cases ht : key t - key s ≤ width
      · rw [List.takeWhile_cons_of_pos (by simpa using ht), List.length_cons, List.countP_cons]
        have := ih hlist.of_cons
        split <;> omega
      · -- behind an element that is too far, all are
        have hnone : (t :: rest).countP (fun t => x ≤ key t ∧ key t ≤ x + width) = 0 := by
          rw [List.countP_eq_zero]
          intro u hu hwithin
          have hle : key t ≤ key u := by
            rcases List.mem_cons.mp hu with rfl | hu
            · exact le_refl _
            · exact List.rel_of_pairwise_cons hlist hu
          have hwithin : x ≤ key u ∧ key u ≤ x + width := by simpa using hwithin
          exact ht (by linarith [hwithin.2])
        rw [hnone]
        exact Nat.zero_le _
  rw [within, List.countP_cons, window, List.length_cons]
  split <;> omega

variable (key) in
theorem within_le {l : List α} (hsorted : l.Pairwise (fun a b => key a ≤ key b)) {x : K} (hpos : 0 < within key width x l) :
    ∃ w ∈ windows key width l, within key width x l ≤ w.length := by
  induction l with
  | nil => cases hpos
  | cons s rest ih =>
    by_cases hx : x ≤ key s
    · exact ⟨_, List.mem_cons_self, countP_le_window hsorted hx⟩
    · have hrest : within key width x (s :: rest) = within key width x rest := by
        rw [within, List.countP_cons_of_neg]
        · rfl
        · simp [hx]
      rw [hrest] at hpos ⊢
      obtain ⟨w, hw, hle⟩ := ih hsorted.of_cons hpos
      exact ⟨w, List.mem_cons_of_mem _ hw, hle⟩

variable (key) in
theorem mem_windows {l w : List α} (hsorted : l.Pairwise (fun a b => key a ≤ key b)) (hwidth : 0 ≤ width)
    (h : w ∈ windows key width l) :
    ∃ x, (∀ t ∈ w, x ≤ key t ∧ key t ≤ x + width) ∧ w.length ≤ within key width x l := by
  induction l with
  | nil => cases h
  | cons s rest ih =>
    rcases List.mem_cons.mp h with rfl | h
    · refine ⟨key s, fun t ht => mem_window hsorted hwidth ht, ?_⟩
      have hsub : (window key width s rest).Sublist (s :: rest) := (List.takeWhile_sublist _).cons_cons s
      calc (window key width s rest).length
          = (window key width s rest).countP (fun t => key s ≤ key t ∧ key t ≤ key s + width) := by
            symm
            rw [List.countP_eq_length]
            intro t ht
            simpa using mem_window hsorted hwidth ht
        _ ≤ within key width (key s) (s :: rest) := hsub.countP_le
    · obtain ⟨x, hmem, hlength⟩ := ih hsorted.of_cons h
      exact ⟨x, hmem, le_trans hlength ((List.sublist_cons_self s rest).countP_le)⟩

/-! ## Medians and majorities -/

theorem median_mem {values : List K} (hne : values ≠ []) {lo hi : K} (h : ∀ v ∈ values, lo ≤ v ∧ v ≤ hi) :
    lo ≤ median values ∧ median values ≤ hi := by
  have hpos : 0 < (values.insertionSort (· ≤ ·)).length := by
    rw [List.length_insertionSort]
    exact List.length_pos_iff.mpr hne
  have hget : ∀ i, i < (values.insertionSort (· ≤ ·)).length →
      lo ≤ (values.insertionSort (· ≤ ·)).getD i 0 ∧ (values.insertionSort (· ≤ ·)).getD i 0 ≤ hi := by
    intro i hi
    rw [List.getD_eq_getElem _ _ hi]
    exact h _ ((List.mem_insertionSort _).mp (List.getElem_mem hi))
  rw [median]
  split
  · obtain ⟨h₁, h₂⟩ := hget ((values.insertionSort (· ≤ ·)).length / 2 - 1) (by omega)
    obtain ⟨h₃, h₄⟩ := hget ((values.insertionSort (· ≤ ·)).length / 2) (by omega)
    constructor <;> linarith
  · exact hget _ (by omega)

omit [Field K] [LinearOrder K] [IsStrictOrderedRing K] in
/-- Two tests that more than half of a list pass have an element in common. -/
theorem exists_of_majorities {l : List α} {p q : α → Bool} (hp : l.length < 2 * l.countP p)
    (hq : l.length < 2 * l.countP q) : ∃ x ∈ l, p x = true ∧ q x = true := by
  by_contra hnone
  have hsum : l.countP p + l.countP q ≤ l.length := by
    clear hp hq
    induction l with
    | nil => simp
    | cons x rest ih =>
      have hrest := ih fun ⟨y, hy, hpq⟩ => hnone ⟨y, List.mem_cons_of_mem _ hy, hpq⟩
      rw [List.countP_cons, List.countP_cons, List.length_cons]
      by_cases hpx : p x = true
      · have hqx : ¬q x = true := fun hqx => hnone ⟨x, List.mem_cons_self, hpx, hqx⟩
        rw [if_pos hpx, if_neg hqx]
        omega
      · rw [if_neg hpx]
        split <;> omega
  omega

end

end Windows
