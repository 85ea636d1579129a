import Mathlib.Data.List.Infix

/- The first place of a separator in a list. Once it is in a prefix of a stream its place
   does not depend on what follows (`index_extend`); behind a text without the
   separator's first element it is where the text ends (`index_append`). -/
namespace ByteSearch

universe u

variable {α : Type u} [DecidableEq α]

/-- The index of the first occurrence of `sep`. -/
def index (sep : List α) : List α → Option Nat
  | [] => if sep.isPrefixOf [] then some 0 else none
  | b :: bs => if sep.isPrefixOf (b :: bs) then some 0 else (index sep bs).map (· + 1)

omit [DecidableEq α] in
/-- A list at least as long as the separator decides whether it starts with it. -/
theorem prefix_iff_of_le {sep d e : List α} (h : d <+: e) (hlen : sep.length ≤ d.length) :
    sep <+: d ↔ sep <+: e := by
  constructor
  · intro hd
    exact hd.trans h
  · intro he
    exact List.prefix_of_prefix_length_le he h hlen

theorem length_le_of_index {sep d : List α} {i : Nat} (h : index sep d = some i) :
    i + sep.length ≤ d.length := by
  induction d generalizing i with
  | nil =>
    simp only [index, List.isPrefixOf_iff_prefix, List.prefix_nil, Option.ite_none_right_eq_some,
      Option.some.injEq] at h
    obtain ⟨rfl, rfl⟩ := h
    exact Nat.le_refl _
  | cons b bs ih =>
    simp only [index, List.isPrefixOf_iff_prefix] at h
    split at h
    next hp =>
      obtain rfl := Option.some.inj h
      simpa using hp.length_le
    next =>
      obtain ⟨j, hj, rfl⟩ := Option.map_eq_some_iff.mp h
      have := ih hj
      rw [List.length_cons]
      omega

theorem index_extend {sep d e : List α} {i : Nat} (h : d <+: e) (hi : index sep d = some i) :
    index sep e = some i := by
  induction d generalizing e i with
  | nil =>
    simp only [index, List.isPrefixOf_iff_prefix, List.prefix_nil, Option.ite_none_right_eq_some,
      Option.some.injEq] at hi
    obtain ⟨rfl, rfl⟩ := hi
    cases e <;> simp [index]
  | cons b bs ih =>
    obtain ⟨t, rfl⟩ := h
    have hext : b :: bs <+: b :: (bs ++ t) := ⟨t, rfl⟩
    simp only [index, List.isPrefixOf_iff_prefix, List.cons_append] at hi ⊢
    split at hi
    next hp =>
      obtain rfl := Option.some.inj hi
      rw [if_pos (hp.trans hext)]
    next hp =>
      obtain ⟨j, hj, rfl⟩ := Option.map_eq_some_iff.mp hi
      have hlen := length_le_of_index hj
      have hmore : ¬ sep <+: b :: (bs ++ t) := by
        rw [← prefix_iff_of_le hext (by rw [List.length_cons]; omega)]
        exact hp
      rw [if_neg hmore, ih (List.prefix_append bs t) hj]
      rfl

/-- Behind a text without its first element, a separator is found where the text ends. -/
theorem index_append {sep text rest : List α} {c : α} (hc : c ∉ text) (hsep : sep.head? = some c) :
    index sep (text ++ (sep ++ rest)) = some text.length := by
  obtain ⟨tail, rfl⟩ : ∃ tail, sep = c :: tail := by
    cases sep with
    | nil => cases hsep
    | cons d tail => exact ⟨tail, by rw [Option.some.inj hsep]⟩
  induction text with
  | nil => simp [index]
  | cons b bs ih =>
    have hne : c ≠ b := fun heq => hc (heq ▸ List.mem_cons_self)
    have hrest := ih (fun hmem => hc (List.mem_cons_of_mem b hmem))
    rw [List.cons_append, index, if_neg, hrest]
    · rfl
    · rw [List.isPrefixOf_iff_prefix, List.cons_prefix_cons]
      exact fun hp => hne hp.1

example : index [13, 10] [71, 13, 10, 65] = some 1 := by decide +kernel

end ByteSearch
