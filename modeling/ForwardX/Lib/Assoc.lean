import Mathlib.Data.List.Nodup
import Mathlib.Data.List.Basic
import Mathlib.Tactic.TypeStar

/- Maps as association lists: `List.lookup` reads a key, `put` writes it and `erase`
   removes it. The keys of a map are distinct, which every write keeps. -/
namespace Assoc

universe u v

variable {κ : Type u} {α : Type v} [DecidableEq κ]

abbrev keys (l : List (κ × α)) : List κ := l.map Prod.fst

/-- What a map holds at a key, where the equality of keys may be that of a product. -/
abbrev get (l : List (κ × α)) (k : κ) : Option α := l.lookup k

def erase (l : List (κ × α)) (k : κ) : List (κ × α) := l.filter (fun e => e.1 != k)

/-- The map with `x` at the key `k`. -/
def put (l : List (κ × α)) (k : κ) (x : α) : List (κ × α) := erase l k ++ [(k, x)]

variable {k : κ} {l : List (κ × α)}

theorem lookup_eq_none : l.lookup k = none ↔ k ∉ keys l := by
  induction l with
  | nil => simp
  | cons e l ih =>
    by_cases hk : k = e.1
    · subst hk
      simp
    · have hne : (k == e.1) = false := by simpa using hk
      rw [List.lookup_cons, hne, keys, List.map_cons, List.mem_cons, not_or]
      exact ih.trans (iff_and_self.mpr fun _ => hk)

theorem mem_keys : k ∈ keys l ↔ ∃ x, l.lookup k = some x := by
  rw [← Option.isSome_iff_exists, Option.isSome_iff_ne_none, ne_eq, lookup_eq_none, not_not]

theorem mem_of_lookup {x : α} (h : l.lookup k = some x) : (k, x) ∈ l := by
  induction l with
  | nil => cases h
  | cons e l ih =>
    by_cases hk : k = e.1
    · subst hk
      rw [List.lookup_cons_self] at h
      obtain rfl := Option.some.inj h
      exact List.mem_cons_self
    · have hne : (k == e.1) = false := by simpa using hk
      rw [List.lookup_cons, hne] at h
      exact List.mem_cons_of_mem _ (ih h)

theorem lookup_of_mem (hnd : (keys l).Nodup) {x : α} (h : (k, x) ∈ l) : l.lookup k = some x := by
  induction l with
  | nil => cases h
  | cons e l ih =>
    rw [keys, List.map_cons, List.nodup_cons] at hnd
    rcases List.mem_cons.mp h with rfl | h
    · exact List.lookup_cons_self
    · have hk : k ≠ e.1 := fun hk => hnd.1 (hk ▸ List.mem_map_of_mem h)
      have hne : (k == e.1) = false := by simpa using hk
      rw [List.lookup_cons, hne]
      exact ih hnd.2 h

theorem notMem_erase (l : List (κ × α)) (k : κ) : k ∉ keys (erase l k) := by
  intro h
  obtain ⟨e, he, rfl⟩ := List.mem_map.mp h
  have := (List.mem_filter.mp he).2
  simp at this

theorem erase_of_notMem (h : k ∉ keys l) : erase l k = l := by
  apply List.filter_eq_self.mpr
  intro e he
  have hne : e.1 ≠ k := fun hk => h (hk ▸ List.mem_map_of_mem he)
  simpa using hne

theorem keys_erase_sublist (l : List (κ × α)) (k : κ) : (keys (erase l k)).Sublist (keys l) :=
  (List.filter_sublist).map Prod.fst

theorem nodup_erase (hnd : (keys l).Nodup) (k : κ) : (keys (erase l k)).Nodup :=
  hnd.sublist (keys_erase_sublist l k)

theorem nodup_put (hnd : (keys l).Nodup) (k : κ) (x : α) : (keys (put l k x)).Nodup := by
  unfold keys put
  rw [List.map_append]
  refine List.nodup_append.mpr ⟨nodup_erase hnd k, by simp, ?_⟩
  intro a ha b hb hab
  simp only [List.map_cons, List.map_nil, List.mem_singleton] at hb
  rw [hab, hb] at ha
  exact notMem_erase l k ha

@[simp] theorem lookup_erase_self (l : List (κ × α)) (k : κ) : (erase l k).lookup k = none :=
  lookup_eq_none.mpr (notMem_erase l k)

theorem lookup_erase_ne (l : List (κ × α)) {k k' : κ} (h : k' ≠ k) :
    (erase l k).lookup k' = l.lookup k' := by
  induction l with
  | nil => rfl
  | cons e l ih =>
    by_cases hk : e.1 = k
    · have hdrop : erase (e :: l) k = erase l k := by simp [erase, hk]
      have hne : (k' == e.1) = false := by simpa [hk] using h
      rw [hdrop, ih, List.lookup_cons, hne]
    · have hkeep : erase (e :: l) k = e :: erase l k := by simp [erase, hk]
      rw [hkeep, List.lookup_cons, List.lookup_cons, ih]

@[simp] theorem lookup_put_self (l : List (κ × α)) (k : κ) (x : α) :
    (put l k x).lookup k = some x := by
  unfold put
  rw [List.lookup_append, lookup_erase_self]
  simp

theorem lookup_put_ne (l : List (κ × α)) {k k' : κ} (h : k' ≠ k) (x : α) :
    (put l k x).lookup k' = l.lookup k' := by
  have hne : (k' == k) = false := by simpa using h
  unfold put
  rw [List.lookup_append, lookup_erase_ne l h, List.lookup_cons, hne]
  simp

example : (put [(1, 'a'), (2, 'b')] 1 'c').lookup 2 = some 'b' := by decide +kernel

theorem put_perm (hnd : (keys l).Nodup) {x : α} (h : l.lookup k = some x) : (put l k x).Perm l := by
  induction l with
  | nil => cases h
  | cons e l ih =>
    rw [keys, List.map_cons, List.nodup_cons] at hnd
    by_cases hk : k = e.1
    · subst hk
      rw [List.lookup_cons_self] at h
      obtain rfl := Option.some.inj h
      have herase : erase (e :: l) e.1 = l := by
        rw [erase, List.filter_cons_of_neg (by simp)]
        exact erase_of_notMem hnd.1
      rw [put, herase]
      exact List.perm_append_singleton e l
    · have hne : (k == e.1) = false := by simpa using hk
      rw [List.lookup_cons, hne] at h
      have hkeep : erase (e :: l) k = e :: erase l k := by
        rw [erase, List.filter_cons_of_pos (by simpa using Ne.symm hk)]
        rfl
      rw [put, hkeep]
      exact (ih hnd.2 h).cons e

theorem put_put (l : List (κ × α)) (k : κ) (x y : α) : put (put l k x) k y = put l k y := by
  simp [put, erase, List.filter_append, List.filter_filter]

theorem lookup_filter (hnd : (keys l).Nodup) (p : κ × α → Bool) (k : κ) :
    (l.filter p).lookup k = (l.lookup k).filter (fun x => p (k, x)) := by
  induction l with
  | nil => rfl
  | cons e l ih =>
    rw [keys, List.map_cons, List.nodup_cons] at hnd
    by_cases hk : k = e.1
    · subst hk
      have hout : (l.filter p).lookup e.1 = none :=
        lookup_eq_none.mpr fun h => hnd.1 ((List.filter_sublist.map Prod.fst).subset h)
      rw [List.lookup_cons_self]
      by_cases hp : p e = true
      · rw [List.filter_cons_of_pos hp, List.lookup_cons_self, Option.filter_some, if_pos hp]
      · rw [List.filter_cons_of_neg hp, hout, Option.filter_some, if_neg hp]
    · have hne : (k == e.1) = false := by simpa using hk
      have hcons : (e :: l).lookup k = l.lookup k := by rw [List.lookup_cons, hne]
      rw [hcons]
      by_cases hp : p e = true
      · rw [List.filter_cons_of_pos hp, List.lookup_cons, hne]
        exact ih hnd.2
      · rw [List.filter_cons_of_neg hp]
        exact ih hnd.2

/-- The map with `x` at the key `k`, which keeps its place if it has one. -/
def assign (l : List (κ × α)) (k : κ) (x : α) : List (κ × α) :=
  if k ∈ keys l then l.map (fun e => if e.1 = k then (k, x) else e) else l ++ [(k, x)]

theorem mem_assign_self (l : List (κ × α)) (k : κ) (x : α) : (k, x) ∈ assign l k x := by
  unfold assign
  split
  · rename_i hk
    obtain ⟨e, he, hkey⟩ := List.mem_map.mp hk
    exact List.mem_map.mpr ⟨e, he, if_pos hkey⟩
  · exact List.mem_append_right _ (List.mem_singleton_self _)

theorem mem_assign_of_ne {e : κ × α} (he : e ∈ l) (hk : e.1 ≠ k) (x : α) : e ∈ assign l k x := by
  unfold assign
  split
  · exact List.mem_map.mpr ⟨e, he, if_neg hk⟩
  · exact List.mem_append_left _ he

theorem of_mem_assign {x : α} {e : κ × α} (he : e ∈ assign l k x) : e = (k, x) ∨ e ∈ l := by
  unfold assign at he
  split at he
  · obtain ⟨e', he', heq⟩ := List.mem_map.mp he
    split at heq
    · exact Or.inl heq.symm
    · exact Or.inr (heq ▸ he')
  · rcases List.mem_append.mp he with he | he
    · exact Or.inr he
    · exact Or.inl (List.mem_singleton.mp he)

theorem lookup_assign_self (l : List (κ × α)) (k : κ) (x : α) : (assign l k x).lookup k = some x := by
  unfold assign
  split
  · rename_i hk
    induction l with
    | nil => cases hk
    | cons e l ih =>
      by_cases he : e.1 = k
      · rw [List.map_cons, if_pos he, List.lookup_cons_self]
      · have hne : (k == e.1) = false := by simpa using Ne.symm he
        rw [List.map_cons, if_neg he, List.lookup_cons, hne]
        refine ih ?_
        rw [keys, List.map_cons, List.mem_cons] at hk
        exact hk.resolve_left (Ne.symm he)
  · rename_i hk
    rw [List.lookup_append, lookup_eq_none.mpr hk, List.lookup_cons_self]
    rfl

theorem lookup_assign_ne (l : List (κ × α)) {k k' : κ} (h : k' ≠ k) (x : α) :
    (assign l k x).lookup k' = l.lookup k' := by
  have hne : (k' == k) = false := by simpa using h
  unfold assign
  split
  · rename_i hk
    clear hk
    induction l with
    | nil => rfl
    | cons e l ih =>
      by_cases he : e.1 = k
      · rw [List.map_cons, if_pos he, List.lookup_cons, List.lookup_cons, hne, he, hne]
        exact ih
      · rw [List.map_cons, if_neg he, List.lookup_cons, List.lookup_cons, ih]
  · rw [List.lookup_append, List.lookup_cons, hne]
    exact Option.or_none

section
variable {β : Type*} (f : β → κ × α) {bs : List β} {l : List (κ × α)}

theorem of_mem_foldl_assign {e : κ × α} (he : e ∈ bs.foldl (fun l b => assign l (f b).1 (f b).2) l) :
    e ∈ l ∨ ∃ b ∈ bs, e = f b := by
  induction bs generalizing l with
  | nil => exact Or.inl he
  | cons b bs ih =>
    rcases ih he with he | ⟨b', hb', heq⟩
    · rcases of_mem_assign he with heq | he
      · exact Or.inr ⟨b, List.mem_cons_self, heq⟩
      · exact Or.inl he
    · exact Or.inr ⟨b', List.mem_cons_of_mem b hb', heq⟩

theorem exists_mem_foldl_assign (bs : List β) {e : κ × α} (he : e ∈ l) :
    ∃ e' ∈ bs.foldl (fun l b => assign l (f b).1 (f b).2) l, e'.1 = e.1 ∧ (e' = e ∨ ∃ b ∈ bs, e' = f b) := by
  induction bs generalizing l e with
  | nil => exact ⟨e, he, rfl, Or.inl rfl⟩
  | cons b bs ih =>
    by_cases hkey : e.1 = (f b).1
    · obtain ⟨e', he', hkey', hfrom⟩ := ih (mem_assign_self l (f b).1 (f b).2)
      refine ⟨e', he', hkey'.trans hkey.symm, Or.inr ?_⟩
      rcases hfrom with heq | ⟨b', hb', heq⟩
      · exact ⟨b, List.mem_cons_self, heq⟩
      · exact ⟨b', List.mem_cons_of_mem b hb', heq⟩
    · obtain ⟨e', he', hkey', hfrom⟩ := ih (mem_assign_of_ne he hkey (f b).2)
      refine ⟨e', he', hkey', hfrom.imp id ?_⟩
      rintro ⟨b', hb', heq⟩
      exact ⟨b', List.mem_cons_of_mem b hb', heq⟩

theorem exists_mem_foldl_assign_of_mem (l : List (κ × α)) {b : β} (hb : b ∈ bs) :
    ∃ b' ∈ bs, f b' ∈ bs.foldl (fun l b => assign l (f b).1 (f b).2) l ∧ (f b').1 = (f b).1 := by
  induction bs generalizing l with
  | nil => cases hb
  | cons x bs ih =>
    rcases List.mem_cons.mp hb with rfl | hb
    · obtain ⟨e, he, hkey, hfrom⟩ := exists_mem_foldl_assign f bs (mem_assign_self l (f b).1 (f b).2)
      rcases hfrom with heq | ⟨b', hb', heq⟩
      · exact ⟨b, List.mem_cons_self, by rw [heq] at he; exact he, rfl⟩
      · exact ⟨b', List.mem_cons_of_mem b hb', by rw [heq] at he; exact he, heq ▸ hkey⟩
    · obtain ⟨b', hb', hmem, hkey⟩ := ih (assign l (f x).1 (f x).2) hb
      exact ⟨b', List.mem_cons_of_mem x hb', hmem, hkey⟩

theorem keys_assign (l : List (κ × α)) (k : κ) (x : α) :
    keys (assign l k x) = if k ∈ keys l then keys l else keys l ++ [k] := by
  unfold assign
  split
  · show (l.map fun e => if e.1 = k then (k, x) else e).map Prod.fst = l.map Prod.fst
    rw [List.map_map]
    apply List.map_congr_left
    intro e _
    by_cases he : e.1 = k
    · simp [he]
    · simp [he]
  · simp [keys]

theorem nodup_assign (hnd : (keys l).Nodup) (k : κ) (x : α) : (keys (assign l k x)).Nodup := by
  rw [keys_assign]
  split
  · exact hnd
  · rename_i hk
    exact List.nodup_append.mpr ⟨hnd, by simp, fun a ha b hb hab => hk (List.mem_singleton.mp hb ▸ hab ▸ ha)⟩

theorem nodup_foldl_assign (bs : List β) (hnd : (keys l).Nodup) :
    (keys (bs.foldl (fun l b => assign l (f b).1 (f b).2) l)).Nodup := by
  induction bs generalizing l with
  | nil => exact hnd
  | cons b bs ih => exact ih (nodup_assign hnd _ _)

theorem foldl_assign_of_nodup (hnd : (keys l ++ bs.map fun b => (f b).1).Nodup) :
    bs.foldl (fun l b => assign l (f b).1 (f b).2) l = l ++ bs.map f := by
  induction bs generalizing l with
  | nil => simp
  | cons b bs ih =>
    have hnew : (f b).1 ∉ keys l := fun hmem =>
      (List.nodup_append.mp hnd).2.2 _ hmem _ List.mem_cons_self rfl
    have hassign : assign l (f b).1 (f b).2 = l ++ [f b] := if_neg hnew
    rw [List.foldl_cons, hassign, ih, List.map_cons, List.append_assoc, List.singleton_append]
    rw [keys, List.map_append, List.append_assoc]
    exact hnd

example : [2, 1].foldl (fun l b => assign l b (b * b)) [(3, 9)] = [(3, 9), (2, 4), (1, 1)] := by decide +kernel

end

end Assoc
