import Mathlib.Data.List.Nodup
import Mathlib.Data.List.Basic
import Mathlib.Algebra.Order.Ring.Int
import Mathlib.Algebra.Order.Ring.Nat
import Mathlib.Algebra.Order.BigOperators.Group.List

/- Tables as lists of rows with a key. `set` updates the rows of a key, `find` reads the
   first of them, `fresh` is the next key of an auto-increment column. -/
namespace Rows

universe u v w

section
variable {α : Type u} {κ : Type v} [DecidableEq κ] (key : α → κ)

/-- `UPDATE … WHERE key = k`. -/
def set (l : List α) (k : κ) (f : α → α) : List α := l.map (fun r => if key r = k then f r else r)

/-- `SELECT … WHERE key = k LIMIT 1`. -/
def find (l : List α) (k : κ) : Option α := l.find? (fun r => key r = k)

variable {key} {k : κ} {r : α} {l : List α}

theorem mem_of_find (h : find key l k = some r) : r ∈ l :=
  List.mem_of_find?_eq_some h

theorem key_of_find (h : find key l k = some r) : key r = k := by
  have := List.find?_some h
  exact of_decide_eq_true this

theorem find_eq_none : find key l k = none ↔ ∀ r ∈ l, key r ≠ k := by
  unfold find
  simp

omit [DecidableEq κ] in
theorem eq_of_key (hnd : (l.map key).Nodup) {r r' : α} (hr : r ∈ l) (hr' : r' ∈ l) (hkey : key r = key r') : r = r' :=
  List.inj_on_of_nodup_map hnd hr hr' hkey

theorem find_of_mem (hnd : (l.map key).Nodup) (hr : r ∈ l) : find key l (key r) = some r := by
  cases hfind : find key l (key r) with
  | none => exact absurd rfl (find_eq_none.mp hfind r hr)
  | some r' => rw [eq_of_key hnd (mem_of_find hfind) hr (key_of_find hfind)]

variable {f : α → α}

theorem mem_set : r ∈ set key l k f ↔ (∃ r₀ ∈ l, key r₀ = k ∧ f r₀ = r) ∨ (r ∈ l ∧ key r ≠ k) := by
  unfold set
  rw [List.mem_map]
  constructor
  · rintro ⟨r₀, hr₀, rfl⟩
    by_cases hk : key r₀ = k
    · rw [if_pos hk]
      exact .inl ⟨r₀, hr₀, hk, rfl⟩
    · rw [if_neg hk]
      exact .inr ⟨hr₀, hk⟩
  · rintro (⟨r₀, hr₀, hk, rfl⟩ | ⟨hr, hk⟩)
    · exact ⟨r₀, hr₀, if_pos hk⟩
    · exact ⟨r, hr, if_neg hk⟩

theorem map_set {γ : Type w} {g : α → γ} (hf : ∀ r, g (f r) = g r) : (set key l k f).map g = l.map g := by
  unfold set
  rw [List.map_map]
  apply List.map_congr_left
  intro r _
  rw [Function.comp_apply]
  split
  · exact hf r
  · rfl

theorem keys_set (hf : ∀ r, key (f r) = key r) : (set key l k f).map key = l.map key := map_set hf

theorem absent_of_set (hf : ∀ r, key (f r) = key r) {i : κ} (h : ∀ r ∈ set key l k f, key r ≠ i) :
    ∀ r ∈ l, key r ≠ i := by
  intro r hr
  by_cases hk : key r = k
  · rw [← hf r]
    exact h _ (mem_set.mpr (.inl ⟨r, hr, hk, rfl⟩))
  · exact h r (mem_set.mpr (.inr ⟨hr, hk⟩))

/-- An update that keeps the key of the rows it touches keeps the keys of the table. -/
theorem keys_set_of (hf : ∀ r ∈ l, key r = k → key (f r) = k) : (set key l k f).map key = l.map key := by
  unfold set
  rw [List.map_map]
  apply List.map_congr_left
  intro r hr
  rw [Function.comp_apply]
  by_cases hk : key r = k
  · rw [if_pos hk, hf r hr hk, hk]
  · rw [if_neg hk]

theorem sum_set_le (g : α → Nat) (hf : ∀ r ∈ l, key r = k → g (f r) ≤ g r) :
    ((set key l k f).map g).sum ≤ (l.map g).sum := by
  unfold set
  rw [List.map_map]
  apply List.sum_le_sum
  intro r hr
  rw [Function.comp_apply]
  by_cases hk : key r = k
  · rw [if_pos hk]
    exact hf r hr hk
  · rw [if_neg hk]

theorem find_set_self (hf : ∀ r, key (f r) = key r) : find key (set key l k f) k = (find key l k).map f := by
  induction l with
  | nil => rfl
  | cons r l ih =>
    unfold find set at *
    by_cases hk : key r = k
    · have hk' : key (f r) = k := (hf r).trans hk
      simp [hk, hk']
    · simp only [List.map_cons, if_neg hk, List.find?_cons, decide_eq_false hk]
      exact ih

theorem find_set_ne {k k' : κ} (hf : ∀ r, key (f r) = key r) (h : k' ≠ k) :
    find key (set key l k f) k' = find key l k' := by
  induction l with
  | nil => rfl
  | cons r l ih =>
    unfold find set at *
    by_cases hk : key r = k
    · have hk' : key (f r) ≠ k' := fun hk' => h (hk'.symm.trans ((hf r).trans hk))
      have hk'' : key r ≠ k' := fun hk'' => h (hk''.symm.trans hk)
      simp only [List.map_cons, if_pos hk, List.find?_cons, decide_eq_false hk', decide_eq_false hk'']
      exact ih
    · by_cases hk' : key r = k'
      · simp only [List.map_cons, if_neg hk, List.find?_cons, decide_eq_true hk']
      · simp only [List.map_cons, if_neg hk, List.find?_cons, decide_eq_false hk']
        exact ih

variable (key) in
/-- Updates of distinct keys, one after the other, are one update of the table. -/
theorem foldl_set {β : Type w} (k : β → κ) {g : β → α → α} (hg : ∀ x r, key (g x r) = key r)
    {xs : List β} (hnd : (xs.map k).Nodup) (l : List α) :
    xs.foldl (fun acc x => set key acc (k x) (g x)) l =
      l.map (fun r => ((find k xs (key r)).map (fun x => g x r)).getD r) := by
  induction xs generalizing l with
  | nil =>
    rw [List.foldl_nil]
    exact (List.map_id _).symm
  | cons x xs ih =>
    rw [List.map_cons, List.nodup_cons] at hnd
    rw [List.foldl_cons, ih hnd.2]
    unfold set
    rw [List.map_map]
    apply List.map_congr_left
    intro r _
    rw [Function.comp_apply]
    by_cases hr : key r = k x
    · have hnone : find k xs (key (g x r)) = none := by
        rw [hg, hr, find_eq_none]
        intro y hy hky
        exact hnd.1 (hky ▸ List.mem_map_of_mem hy)
      have hsome : find k (x :: xs) (key r) = some x := by simp [find, hr]
      rw [if_pos hr, hnone, hsome]
      rfl
    · have hskip : find k (x :: xs) (key r) = find k xs (key r) := by
        have hr' : ¬ k x = key r := fun h => hr h.symm
        simp [find, hr']
      rw [if_neg hr, hskip]

variable (key) in
theorem find_map {β : Type w} {k : β → κ} (f : α → β) (hf : ∀ r, k (f r) = key r) (l : List α) (i : κ) :
    find k (l.map f) i = (find key l i).map f := by
  unfold find
  rw [List.find?_map]
  congr 2
  funext r
  rw [Function.comp_apply, hf]

/-- What a selection of the rows of a table holds at a key of the table. -/
theorem find_filter_of_mem (hnd : (l.map key).Nodup) (p : α → Bool) (hr : r ∈ l) :
    find key (l.filter p) (key r) = if p r then some r else none := by
  have hnd' : ((l.filter p).map key).Nodup := hnd.sublist (List.filter_sublist.map key)
  by_cases hp : p r = true
  · rw [if_pos hp]
    exact find_of_mem hnd' (List.mem_filter.mpr ⟨hr, hp⟩)
  · rw [if_neg hp, find_eq_none]
    intro r' hr' hkey
    obtain ⟨hmem, hp'⟩ := List.mem_filter.mp hr'
    exact hp (eq_of_key hnd hmem hr hkey ▸ hp')

theorem countP_set (hnd : (l.map key).Nodup) (hr : find key l k = some r) (f : α → α) (p : α → Bool) :
    (set key l k f).countP p + (p r).toNat = l.countP p + (p (f r)).toNat := by
  induction l with
  | nil => cases hr
  | cons r₀ l ih =>
    rw [List.map_cons, List.nodup_cons] at hnd
    unfold find set at *
    rw [List.map_cons, List.countP_cons, List.countP_cons]
    by_cases hk : key r₀ = k
    · obtain rfl : r₀ = r := by simpa [hk] using hr
      have hrest : l.map (fun r => if key r = k then f r else r) = l := by
        refine (List.map_congr_left fun r hr => if_neg ?_).trans (List.map_id l)
        intro heq
        exact hnd.1 (hk.trans heq.symm ▸ List.mem_map_of_mem hr)
      rw [hrest, if_pos hk]
      cases p r₀ <;> cases p (f r₀) <;> simp
    · have hr' : l.find? (fun r => key r = k) = some r := by simpa [hk] using hr
      have htail := ih hnd.2 hr'
      rw [if_neg hk]
      omega

omit [DecidableEq κ] in
theorem map_key_ne (h : k ∉ l.map key) [DecidableEq κ] (f : α → α) : set key l k f = l := by
  refine (List.map_congr_left fun r hr => if_neg ?_).trans (List.map_id l)
  rintro rfl
  exact h (List.mem_map_of_mem hr)

/-- Writing the row of a key moves a total by the difference of the two rows. -/
theorem sum_set (hnd : (l.map key).Nodup) (hr : r ∈ l) (f : α → α) (g : α → Int) :
    ((set key l (key r) f).map g).sum = (l.map g).sum + (g (f r) - g r) := by
  induction l with
  | nil => cases hr
  | cons r₀ l ih =>
    rw [List.map_cons, List.nodup_cons] at hnd
    have hcons : set key (r₀ :: l) (key r) f = (if key r₀ = key r then f r₀ else r₀) :: set key l (key r) f := rfl
    rw [hcons, List.map_cons, List.map_cons, List.sum_cons, List.sum_cons]
    rcases List.mem_cons.mp hr with rfl | hr
    · rw [if_pos rfl, map_key_ne hnd.1]
      omega
    · have hne : key r₀ ≠ key r := fun heq => hnd.1 (heq ▸ List.mem_map_of_mem hr)
      rw [if_neg hne, ih hnd.2 hr]
      omega

/-- What a column sums to over the rows of a key: its value at the row, or nothing. -/
theorem elim_find_set {k k' : κ} (hf : ∀ r, key (f r) = key r) (c : α → Int) : (find key (set key l k f) k').elim 0 c =
      if k' = k then (find key l k).elim 0 (fun r => c (f r)) else (find key l k').elim 0 c := by
  by_cases hk : k' = k
  · subst hk
    rw [find_set_self hf, if_pos rfl]
    cases find key l k' <;> rfl
  · rw [find_set_ne hf hk, if_neg hk]

end

def fresh {α : Type u} (key : α → Nat) (l : List α) : Nat := (l.map key).foldr max 0 + 1

theorem lt_fresh {α : Type u} {key : α → Nat} {l : List α} {r : α} (h : r ∈ l) : key r < fresh key l := by
  unfold fresh
  induction l with
  | nil => cases h
  | cons r' l ih =>
    simp only [List.map_cons, List.foldr_cons]
    rcases List.mem_cons.mp h with rfl | h
    · omega
    · have := ih h
      omega

theorem nodup_concat_fresh {α : Type u} {key : α → Nat} {l : List α} (hnd : (l.map key).Nodup)
    {r : α} (h : key r = fresh key l) : ((l ++ [r]).map key).Nodup := by
  rw [List.map_append]
  refine List.nodup_append.mpr ⟨hnd, by simp, ?_⟩
  intro a ha b hb
  obtain ⟨r', hr', rfl⟩ := List.mem_map.mp ha
  have hlt := @lt_fresh _ key _ _ hr'
  simp only [List.map_cons, List.map_nil, List.mem_singleton] at hb
  omega

end Rows
