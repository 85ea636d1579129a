import Mathlib.Order.WithBot
import Mathlib.Data.List.Basic

/- Binary heaps in a list, the way an array-based heap package keeps them: the
   children of position `i` are `2i + 1` and `2i + 2`, `push` appends and sifts up,
   `pop` swaps the root with the last entry, sifts down and removes the last. The
   sifts take a bound on their number of steps, which `push` and `pop` choose large
   enough. Entries are ordered by a key; `pop` removes one entry with a least key
   and both keep the rest (`push_perm`, `pop_spec`). -/
namespace Heap

universe u v

variable {α : Type u} {κ : Type v} (key : α → κ)

/-! ## Positions -/

def swap (l : List α) (i j : Nat) : List α :=
  match l[i]?, l[j]? with
  | some x, some y => (l.set i y).set j x
  | _, _ => l

def keyAt (l : List α) (i : Nat) : WithTop κ := match l[i]? with
  | some x => (key x : WithTop κ)
  | none => ⊤

theorem swap_length (l : List α) (i j : Nat) : (swap l i j).length = l.length := by
  unfold swap
  split
  · rw [List.length_set, List.length_set]
  · rfl

theorem swap_perm (l : List α) (i j : Nat) : (swap l i j).Perm l := by
  unfold swap
  split
  · rename_i x y hx hy
    obtain ⟨hi, rfl⟩ := List.getElem?_eq_some_iff.mp hx
    obtain ⟨hj, rfl⟩ := List.getElem?_eq_some_iff.mp hy
    exact List.set_set_perm hi hj
  · exact List.Perm.refl l

variable {i j : Nat} {l : List α}

theorem getElem?_swap (hi : i < l.length) (hj : j < l.length) (k : Nat) :
    (swap l i j)[k]? = if k = i then l[j]? else if k = j then l[i]? else l[k]? := by
  unfold swap
  rw [List.getElem?_eq_getElem hi, List.getElem?_eq_getElem hj]
  dsimp only
  rw [List.getElem?_set, List.getElem?_set, List.length_set]
  by_cases hkj : j = k
  · subst hkj
    by_cases hij : j = i
    · subst hij
      simp [hj]
    · simp [hij, hj]
  · by_cases hki : i = k
    · subst hki
      simp [hkj, hi]
    · have hki' : ¬ k = i := fun h => hki h.symm
      have hkj' : ¬ k = j := fun h => hkj h.symm
      simp [hkj, hki, hki', hkj']

theorem keyAt_swap (hi : i < l.length) (hj : j < l.length) (k : Nat) : keyAt key (swap l i j) k =
      if k = i then keyAt key l j else if k = j then keyAt key l i else keyAt key l k := by
  unfold keyAt
  rw [getElem?_swap hi hj]
  by_cases hki : k = i
  · rw [if_pos hki, if_pos hki]
  · rw [if_neg hki, if_neg hki]
    by_cases hkj : k = j
    · rw [if_pos hkj, if_pos hkj]
    · rw [if_neg hkj, if_neg hkj]

theorem keyAt_append {k : Nat} (hk : k < l.length) (l' : List α) : keyAt key (l ++ l') k = keyAt key l k := by
  unfold keyAt
  rw [List.getElem?_append_left hk]

theorem keyAt_take {n k : Nat} (hk : k < n) : keyAt key (l.take n) k = keyAt key l k := by
  unfold keyAt
  rw [List.getElem?_take_of_lt hk]

theorem keyAt_getElem {k : Nat} (hk : k < l.length) : keyAt key l k = (key l[k] : WithTop κ) := by
  unfold keyAt
  rw [List.getElem?_eq_getElem hk]

/-! ## The heap -/

variable [LinearOrder κ]

def less (l : List α) (i j : Nat) : Bool :=
  match l[i]?, l[j]? with
  | some x, some y => key x < key y
  | _, _ => false

def parent (j : Nat) : Nat := (j - 1) / 2

/-- Sift the entry at `j` up. -/
def up : Nat → List α → Nat → List α
  | 0, l, _ => l
  | fuel + 1, l, j =>
    if j = 0 ∨ less key l j (parent j) = false then l
    else up fuel (swap l (parent j) j) (parent j)

/-- The child of `i` with the smaller key among the first `n` entries. -/
def child (l : List α) (i n : Nat) : Nat :=
  if 2 * i + 2 < n ∧ less key l (2 * i + 2) (2 * i + 1) = true then 2 * i + 2 else 2 * i + 1

/-- Sift the entry at `i` down among the first `n` entries. -/
def down : Nat → List α → Nat → Nat → List α
  | 0, l, _, _ => l
  | fuel + 1, l, i, n =>
    if n ≤ 2 * i + 1 ∨ less key l (child key l i n) i = false then l
    else down fuel (swap l i (child key l i n)) (child key l i n) n

def push (l : List α) (x : α) : List α := up key (l.length + 1) (l ++ [x]) l.length

def pop (l : List α) : Option (α × List α) :=
  let n := l.length - 1
  let l' := down key (n + 1) (swap l 0 n) 0 n
  (l'[n]?).map (fun x => (x, l'.take n))

/-- Every entry among the first `n` is at or above its parent. -/
def Ordered (l : List α) (n : Nat) : Prop :=
  ∀ k, 0 < k → k < n → keyAt key l (parent k) ≤ keyAt key l k

/-! ## Comparing -/

theorem less_iff (hi : i < l.length) (hj : j < l.length) : less key l i j = true ↔ keyAt key l i < keyAt key l j := by
  unfold less keyAt
  rw [List.getElem?_eq_getElem hi, List.getElem?_eq_getElem hj]
  simp

theorem not_less_iff (hi : i < l.length) (hj : j < l.length) :
    less key l i j = false ↔ keyAt key l j ≤ keyAt key l i := by
  rw [← Bool.not_eq_true, less_iff key hi hj, not_lt]

/-! ## Sifting up -/

theorem up_perm (fuel : Nat) (l : List α) (j : Nat) : (up key fuel l j).Perm l := by
  induction fuel generalizing l j with
  | zero => exact List.Perm.refl l
  | succ fuel ih =>
    unfold up
    split
    · exact List.Perm.refl l
    · exact (ih _ _).trans (swap_perm l _ _)

/-- All pairs are in order but the one of `j` and its parent, and the children of `j`
are at or above that parent. -/
structure UpOrdered (l : List α) (n j : Nat) : Prop where
  except : ∀ k, 0 < k → k < n → k ≠ j → keyAt key l (parent k) ≤ keyAt key l k
  grand : ∀ k, 0 < k → k < n → parent k = j → 0 < j → keyAt key l (parent j) ≤ keyAt key l k

theorem parent_lt {k : Nat} (h : 0 < k) : parent k < k := by
  unfold parent
  omega

theorem UpOrdered.swap (h : UpOrdered key l l.length j) (hj0 : 0 < j) (hj : j < l.length)
    (hlt : keyAt key l j < keyAt key l (parent j)) : UpOrdered key (swap l (parent j) j) l.length (parent j) := by
  have hp := parent_lt hj0
  have hpl : parent j < l.length := Nat.lt_trans hp hj
  have hkey := keyAt_swap key hpl hj
  refine ⟨fun k hk0 hk hkp => ?_, fun k hk0 hk hkp hpos => ?_⟩
  · have hpk := parent_lt hk0
    rw [hkey k, hkey (parent k), if_neg hkp]
    by_cases hkj : k = j
    · subst hkj
      rw [if_pos rfl, if_pos rfl]
      exact le_of_lt hlt
    · rw [if_neg hkj]
      by_cases hpp : parent k = parent j
      · rw [if_pos hpp]
        exact le_trans (le_of_lt hlt) (hpp ▸ h.except k hk0 hk hkj)
      · rw [if_neg hpp]
        by_cases hpj : parent k = j
        · rw [if_pos hpj]
          exact h.grand k hk0 hk hpj hj0
        · rw [if_neg hpj]
          exact h.except k hk0 hk hkj
  · have hpp := parent_lt hpos
    have hup := h.except (parent j) hpos hpl (Nat.ne_of_lt hp)
    rw [hkey k, hkey (parent (parent j)), if_neg (Nat.ne_of_lt hpp),
      if_neg (Nat.ne_of_lt (Nat.lt_trans hpp hp))]
    have hkne : k ≠ parent j := by
      have := parent_lt hk0
      omega
    rw [if_neg hkne]
    by_cases hkj : k = j
    · rw [if_pos hkj]
      exact hup
    · rw [if_neg hkj]
      exact le_trans hup (hkp ▸ h.except k hk0 hk hkj)

theorem up_ordered {fuel : Nat} (hfuel : j < fuel) (hj : j < l.length) (h : UpOrdered key l l.length j) :
    Ordered key (up key fuel l j) l.length := by
  induction fuel generalizing l j with
  | zero => omega
  | succ fuel ih =>
    unfold up
    split
    · rename_i hstop
      intro k hk0 hk
      by_cases hkj : k = j
      · subst hkj
        rcases hstop with hstop | hstop
        · omega
        · exact (not_less_iff key hj (Nat.lt_trans (parent_lt hk0) hj)).mp hstop
      · exact h.except k hk0 hk hkj
    · rename_i hgo
      rw [not_or, Bool.not_eq_false] at hgo
      have hj0 : 0 < j := Nat.pos_of_ne_zero hgo.1
      have hp := parent_lt hj0
      have hlt := (less_iff key hj (Nat.lt_trans hp hj)).mp hgo.2
      have hlen := swap_length l (parent j) j
      have := ih (l := Heap.swap l (parent j) j) (j := parent j) (by omega) (by omega)
        (hlen.symm ▸ h.swap key hj0 hj hlt)
      rwa [hlen] at this

theorem push_perm (l : List α) (x : α) : (push key l x).Perm (x :: l) :=
  (up_perm key _ _ _).trans (List.perm_append_singleton x l)

theorem push_ordered (x : α) (h : Ordered key l l.length) : Ordered key (push key l x) (push key l x).length := by
  have hlen : (push key l x).length = (l ++ [x]).length := (up_perm key _ _ _).length_eq
  have hsize : (l ++ [x]).length = l.length + 1 := by simp
  rw [hlen]
  refine up_ordered key (Nat.lt_succ_self _) (by omega) ⟨fun k hk0 hk hkj => ?_, fun k hk0 hk hkj _ => ?_⟩
  · have hkl : k < l.length := by omega
    rw [keyAt_append key hkl, keyAt_append key (Nat.lt_trans (parent_lt hk0) hkl)]
    exact h k hk0 hkl
  · have := parent_lt hk0
    omega

/-! ## Sifting down -/

theorem down_perm (fuel : Nat) (l : List α) (i n : Nat) : (down key fuel l i n).Perm l := by
  induction fuel generalizing l i with
  | zero => exact List.Perm.refl l
  | succ fuel ih =>
    unfold down
    split
    · exact List.Perm.refl l
    · exact (ih _ _).trans (swap_perm l _ _)

/-- All pairs are in order but those of `i` and its children, and these are at or
above the parent of `i`. -/
structure DownOrdered (l : List α) (n i : Nat) : Prop where
  except : ∀ k, 0 < k → k < n → parent k ≠ i → keyAt key l (parent k) ≤ keyAt key l k
  grand : ∀ k, 0 < k → k < n → parent k = i → 0 < i → keyAt key l (parent i) ≤ keyAt key l k

theorem child_cases (l : List α) (i n : Nat) (h : 2 * i + 1 < n) :
    0 < child key l i n ∧ child key l i n < n ∧ parent (child key l i n) = i := by
  unfold child parent
  split <;> omega

theorem child_le {i n : Nat} (hn : n ≤ l.length) (h : 2 * i + 1 < n) {k : Nat} (hk0 : 0 < k) (hk : k < n)
    (hki : parent k = i) : keyAt key l (child key l i n) ≤ keyAt key l k := by
  unfold parent at hki
  unfold child
  by_cases hright : 2 * i + 2 < n
  · have hless := less_iff key (l := l) (i := 2 * i + 2) (j := 2 * i + 1) (by omega) (by omega)
    by_cases hl : less key l (2 * i + 2) (2 * i + 1) = true
    · rw [if_pos ⟨hright, hl⟩]
      rcases (by omega : k = 2 * i + 1 ∨ k = 2 * i + 2) with rfl | rfl
      · exact le_of_lt (hless.mp hl)
      · exact le_refl _
    · rw [if_neg (fun hc => hl hc.2)]
      rw [hless, not_lt] at hl
      rcases (by omega : k = 2 * i + 1 ∨ k = 2 * i + 2) with rfl | rfl
      · exact le_refl _
      · exact hl
  · rw [if_neg (fun hc => hright hc.1)]
    obtain rfl : k = 2 * i + 1 := by omega
    exact le_refl _

theorem DownOrdered.swap {n i : Nat} (h : DownOrdered key l n i) (hn : n ≤ l.length) (hchild : 2 * i + 1 < n)
    (hlt : keyAt key l (child key l i n) < keyAt key l i) :
    DownOrdered key (swap l i (child key l i n)) n (child key l i n) := by
  obtain ⟨hj0, hjn, hji⟩ := child_cases key l i n hchild
  have hleast := fun k => child_le key hn hchild (k := k)
  generalize child key l i n = j at *
  have hij := parent_lt hj0
  rw [hji] at hij
  have hkey := keyAt_swap key (l := l) (i := i) (j := j) (by omega) (by omega)
  refine ⟨fun k hk0 hk hkj => ?_, fun k hk0 hk hkj hpos => ?_⟩
  · have hpk := parent_lt hk0
    rw [hkey k, hkey (parent k)]
    by_cases hpi : parent k = i
    · -- the children of `i`: the chosen one was the least
      rw [if_pos hpi, if_neg (by omega)]
      by_cases hkk : k = j
      · rw [if_pos hkk]
        exact le_of_lt hlt
      · rw [if_neg hkk]
        exact hleast k hk0 hk hpi
    · rw [if_neg hpi, if_neg hkj]
      by_cases hki : k = i
      · rw [if_pos hki]
        subst hki
        exact h.grand j hj0 hjn hji (by omega)
      · have hkk : k ≠ j := fun hkk => hpi (hkk ▸ hji)
        rw [if_neg hki, if_neg hkk]
        exact h.except k hk0 hk hpi
  · have hpk := parent_lt hk0
    rw [hkey k, hkey (parent j), hji, if_pos rfl, if_neg (by omega), if_neg (by omega)]
    exact hkj ▸ h.except k hk0 hk (by omega)

theorem down_ordered {fuel n : Nat} (hfuel : n ≤ fuel + i) (hn : n ≤ l.length) (h : DownOrdered key l n i) :
    Ordered key (down key fuel l i n) n := by
  induction fuel generalizing l i with
  | zero =>
    intro k hk0 hk
    exact h.except k hk0 hk (by have := parent_lt hk0; omega)
  | succ fuel ih =>
    unfold down
    split
    · rename_i hstop
      intro k hk0 hk
      by_cases hki : parent k = i
      · rcases hstop with hstop | hstop
        · unfold parent at hki
          omega
        · have hchild : 2 * i + 1 < n := by
            unfold parent at hki
            omega
          obtain ⟨-, hjn, -⟩ := child_cases key l i n hchild
          have hle := (not_less_iff key (by omega) (by omega)).mp hstop
          rw [hki]
          exact le_trans hle (child_le key hn hchild hk0 hk hki)
      · exact h.except k hk0 hk hki
    · rename_i hgo
      rw [not_or, Bool.not_eq_false, Nat.not_le] at hgo
      obtain ⟨hj0, hjn, hji⟩ := child_cases key l i n hgo.1
      have hij := parent_lt hj0
      have hlt := (less_iff key (by omega) (by omega)).mp hgo.2
      refine ih (by omega) ?_ (h.swap key hn hgo.1 hlt)
      rw [swap_length]
      exact hn

theorem down_getElem? {fuel n : Nat} {i k : Nat} (hn : n ≤ l.length) (hk : n ≤ k) :
    (down key fuel l i n)[k]? = l[k]? := by
  induction fuel generalizing l i with
  | zero => rfl
  | succ fuel ih =>
    unfold down
    split
    · rfl
    · rename_i hgo
      rw [not_or, Bool.not_eq_false, Nat.not_le] at hgo
      obtain ⟨hj0, hjn, hji⟩ := child_cases key l i n hgo.1
      have hij := parent_lt hj0
      rw [ih (by rw [swap_length]; exact hn), getElem?_swap (by omega) (by omega),
        if_neg (by omega), if_neg (by omega)]

/-! ## Removing the least entry -/

theorem root_le (h : Ordered key l l.length) (k : Nat) : k < l.length → keyAt key l 0 ≤ keyAt key l k := by
  induction k using Nat.strongRecOn with
  | ind k ih =>
    intro hk
    rcases Nat.eq_zero_or_pos k with rfl | hk0
    · exact le_refl _
    · have hp := parent_lt hk0
      exact le_trans (ih _ hp (by omega)) (h k hk0 hk)

/-- `pop` of a nonempty heap takes out an entry with a least key and keeps the rest
as a heap. -/
theorem pop_spec (h : Ordered key l l.length) (hne : l ≠ []) :
    ∃ x l', pop key l = some (x, l') ∧ l.Perm (x :: l') ∧ (∀ y ∈ l, key x ≤ key y) ∧
      Ordered key l' l'.length := by
  have hpos : 0 < l.length := List.length_pos_iff.mpr hne
  obtain ⟨n, hn⟩ : ∃ n, l.length = n + 1 := ⟨l.length - 1, by omega⟩
  have hperm : (down key (n + 1) (swap l 0 n) 0 n).Perm l :=
    (down_perm key _ _ _ _).trans (swap_perm l 0 n)
  have hlast : (down key (n + 1) (swap l 0 n) 0 n)[n]? = some l[0] := by
    rw [down_getElem? key (by rw [swap_length]; omega) (Nat.le_refl n),
      getElem?_swap hpos (by omega), ← List.getElem?_eq_getElem hpos]
    by_cases hn0 : n = 0
    · rw [if_pos hn0, hn0]
    · rw [if_neg hn0, if_pos rfl]
  have hordered : Ordered key (down key (n + 1) (swap l 0 n) 0 n) n := by
    refine down_ordered key (by omega) (by rw [swap_length]; omega)
      ⟨fun k hk0 hk hki => ?_, fun _ _ _ _ hi => absurd hi (Nat.lt_irrefl 0)⟩
    have hpk := parent_lt hk0
    rw [keyAt_swap key hpos (by omega), keyAt_swap key hpos (by omega), if_neg hki,
      if_neg (by omega), if_neg (by omega), if_neg (by omega)]
    exact h k hk0 (by omega)
  refine ⟨l[0], (down key (n + 1) (swap l 0 n) 0 n).take n, ?_, ?_, ?_, ?_⟩
  · unfold pop
    have hsub : l.length - 1 = n := by omega
    rw [hsub]
    dsimp only
    rw [hlast]
    rfl
  · generalize down key (n + 1) (swap l 0 n) 0 n = l₂ at hperm hlast
    obtain ⟨hlt, hget⟩ := List.getElem?_eq_some_iff.mp hlast
    have hlen := hperm.length_eq
    have hdrop : l₂.drop n = [l[0]] := by
      rw [List.drop_eq_getElem_cons hlt, hget, List.drop_of_length_le (by omega)]
    have hsplit : l₂ = l₂.take n ++ [l[0]] := by rw [← hdrop, List.take_append_drop]
    have hconcat : l₂.Perm (l[0] :: l₂.take n) := by
      have := List.perm_append_singleton l[0] (l₂.take n)
      rwa [← hsplit] at this
    exact hperm.symm.trans hconcat
  · intro y hy
    obtain ⟨k, hk, rfl⟩ := List.mem_iff_getElem.mp hy
    have hle := root_le key h k hk
    rw [keyAt_getElem key hpos, keyAt_getElem key hk] at hle
    exact WithTop.coe_le_coe.mp hle
  · intro k hk0 hk
    have hkn : k < n := Nat.lt_of_lt_of_le hk (by rw [List.length_take]; exact Nat.min_le_left _ _)
    rw [keyAt_take key hkn, keyAt_take key (Nat.lt_trans (parent_lt hk0) hkn)]
    exact hordered k hk0 hkn

end Heap
