import Mathlib.Algebra.BigOperators.Group.List.Basic
import Mathlib.Algebra.Order.Ring.Int
import Mathlib.Data.List.Nodup

/- Insert or update. A table holds rows with keys; an item that comes changes the row of its key, or
   is inserted as a new row under the next number. A whole batch with distinct keys does to each old
   row what its own item says and adds the others in order (`insertAll_eq`), so the order of the
   batch shows only in the new rows; sums go up by what the items bring (`total_insertAll`). -/
namespace Upsert

universe u v w

/-- What identifies rows and items, what a row becomes, and what an item is inserted as. -/
structure Scheme (α : Type u) (β : Type v) (κ : Type w) where
  key : α → κ
  keyOf : β → κ
  merge : α → β → α
  make : Nat → β → α
  key_merge : ∀ r x, key (merge r x) = key r
  key_make : ∀ n x, key (make n x) = keyOf x

structure Table (α : Type u) where
  rows : List α
  next : Nat
  deriving DecidableEq

section
variable {α : Type u} {β : Type v} {κ : Type w} [DecidableEq κ] (S : Scheme α β κ)

def Scheme.keys (rows : List α) : List κ := rows.map S.key

/-- An item is inserted, or changes the row of its key. -/
def Scheme.insert (t : Table α) (x : β) : Table α :=
  if S.keyOf x ∈ S.keys t.rows then { t with rows := t.rows.map (fun r => if S.key r = S.keyOf x then S.merge r x else r) }
  else ⟨t.rows ++ [S.make t.next x], t.next + 1⟩

def Scheme.insertAll (t : Table α) (xs : List β) : Table α := xs.foldl S.insert t

def Scheme.absorb (xs : List β) (r : α) : α := ((xs.find? (fun x => S.keyOf x = S.key r)).map (S.merge r)).getD r

def Scheme.fresh (t : Table α) (xs : List β) : List β := xs.filter (fun x => S.keyOf x ∉ S.keys t.rows)

def Scheme.numbered : Nat → List β → List α
  | _, [] => []
  | n, x :: xs => S.make n x :: Scheme.numbered (n + 1) xs

variable {S} {t : Table α} {x : β} {xs ys : List β} {r : α}

omit [DecidableEq κ] in
theorem keys_map {rows : List α} {f : α → α} (hf : ∀ r, S.key (f r) = S.key r) : S.keys (rows.map f) = S.keys rows := by
  rw [Scheme.keys, List.map_map]
  exact List.map_congr_left fun r _ => hf r

omit [DecidableEq κ] in
theorem keys_concat (rows : List α) (r : α) : S.keys (rows ++ [r]) = S.keys rows ++ [S.key r] := by
  simp [Scheme.keys]

theorem insert_of_mem (h : S.keyOf x ∈ S.keys t.rows) :
    S.insert t x = { t with rows := t.rows.map (fun r => if S.key r = S.keyOf x then S.merge r x else r) } := if_pos h

theorem insert_of_notMem (h : S.keyOf x ∉ S.keys t.rows) :
    S.insert t x = ⟨t.rows ++ [S.make t.next x], t.next + 1⟩ := if_neg h

theorem keys_insert (t : Table α) (x : β) :
    S.keys (S.insert t x).rows = if S.keyOf x ∈ S.keys t.rows then S.keys t.rows else S.keys t.rows ++ [S.keyOf x] := by
  by_cases h : S.keyOf x ∈ S.keys t.rows
  · rw [if_pos h, insert_of_mem h]
    refine keys_map fun r => ?_
    split
    · exact S.key_merge r x
    · rfl
  · rw [if_neg h, insert_of_notMem h, keys_concat, S.key_make]

theorem nodup_insert (h : (S.keys t.rows).Nodup) (x : β) : (S.keys (S.insert t x).rows).Nodup := by
  rw [keys_insert]
  split
  · exact h
  · rename_i hx
    rw [← List.concat_eq_append]
    exact h.concat hx

theorem nodup_insertAll (h : (S.keys t.rows).Nodup) (xs : List β) : (S.keys (S.insertAll t xs).rows).Nodup := by
  induction xs generalizing t with
  | nil => exact h
  | cons x xs ih => exact ih (nodup_insert h x)

theorem insertAll_append (t : Table α) (xs ys : List β) :
    S.insertAll t (xs ++ ys) = S.insertAll (S.insertAll t xs) ys := List.foldl_append

theorem absorb_none (h : S.key r ∉ xs.map S.keyOf) : S.absorb xs r = r := by
  have hnone : xs.find? (fun x => S.keyOf x = S.key r) = none := by
    refine List.find?_eq_none.mpr fun x hx hk => h ?_
    exact List.mem_map.mpr ⟨x, hx, of_decide_eq_true hk⟩
  rw [Scheme.absorb, hnone]
  rfl

theorem key_absorb (xs : List β) (r : α) : S.key (S.absorb xs r) = S.key r := by
  rw [Scheme.absorb]
  cases xs.find? (fun x => S.keyOf x = S.key r) with
  | none => rfl
  | some x => exact S.key_merge r x

theorem absorb_cons (h : S.keyOf x ∉ xs.map S.keyOf) (r : α) :
    S.absorb xs (if S.key r = S.keyOf x then S.merge r x else r) = S.absorb (x :: xs) r := by
  by_cases hr : S.key r = S.keyOf x
  · have hfind : (x :: xs).find? (fun x => S.keyOf x = S.key r) = some x :=
      List.find?_cons_of_pos (p := fun x => decide (S.keyOf x = S.key r)) (decide_eq_true hr.symm)
    rw [if_pos hr, absorb_none (by rwa [S.key_merge, hr]), Scheme.absorb, hfind]
    rfl
  · rw [if_neg hr, Scheme.absorb, Scheme.absorb, List.find?_cons_of_neg (by simpa using Ne.symm hr)]

/-- A batch with distinct keys: each old row takes up the item of its key, and the items without a
row are new rows. -/
theorem insertAll_eq (t : Table α) (hnd : (xs.map S.keyOf).Nodup) :
    S.insertAll t xs = ⟨t.rows.map (S.absorb xs) ++ S.numbered t.next (xs.filter (fun x => S.keyOf x ∉ S.keys t.rows)),
      t.next + (xs.filter (fun x => S.keyOf x ∉ S.keys t.rows)).length⟩ := by
  induction xs generalizing t with
  | nil =>
    have hid : t.rows.map (S.absorb []) = t.rows := List.map_id'' (fun _ => rfl) _
    rw [List.filter_nil, hid]
    exact congrArg (fun rows => (⟨rows, t.next⟩ : Table α)) (List.append_nil _).symm
  | cons x xs ih =>
    rw [List.map_cons, List.nodup_cons] at hnd
    obtain ⟨hx, hnd⟩ := hnd
    rw [show S.insertAll t (x :: xs) = S.insertAll (S.insert t x) xs from rfl, ih _ hnd]
    by_cases hmem : S.keyOf x ∈ S.keys t.rows
    · have hkeys : S.keys (S.insert t x).rows = S.keys t.rows := by rw [keys_insert, if_pos hmem]
      rw [hkeys, List.filter_cons_of_neg (by simpa using hmem), insert_of_mem hmem, List.map_map]
      congr 2
      exact List.map_congr_left fun r _ => absorb_cons hx r
    · have hkeys : S.keys (S.insert t x).rows = S.keys t.rows ++ [S.keyOf x] := by rw [keys_insert, if_neg hmem]
      have hfilter : xs.filter (fun y => S.keyOf y ∉ S.keys t.rows ++ [S.keyOf x]) =
          xs.filter (fun y => S.keyOf y ∉ S.keys t.rows) := by
        refine List.filter_congr fun y hy => ?_
        have hne : S.keyOf y ≠ S.keyOf x := fun heq => hx (heq ▸ List.mem_map.mpr ⟨y, hy, rfl⟩)
        simp [hne]
      have hold : t.rows.map (S.absorb xs) = t.rows.map (S.absorb (x :: xs)) := by
        refine List.map_congr_left fun r hr => ?_
        have hne : S.key r ≠ S.keyOf x := fun heq => hmem (heq ▸ List.mem_map.mpr ⟨r, hr, rfl⟩)
        rw [← absorb_cons hx, if_neg hne]
      have hnew : S.absorb xs (S.make t.next x) = S.make t.next x := absorb_none (by rwa [S.key_make])
      rw [hkeys, hfilter, List.filter_cons_of_pos (by simpa using hmem), insert_of_notMem hmem, List.map_append,
        List.map_singleton, hold, hnew, List.append_assoc, List.length_cons]
      congr 1
      show t.next + 1 + _ = t.next + (_ + 1)
      omega

theorem filter_eq_fresh {p : β → Bool} (h : ∀ x ∈ xs, p x = true ↔ S.keyOf x ∈ S.keys t.rows) :
    xs.filter (fun x => !p x) = S.fresh t xs := by
  refine List.filter_congr fun x hx => ?_
  rw [decide_not, ← Bool.decide_congr (h x hx), Bool.decide_eq_true]

/-- A batch may be taken in two steps: what the old rows make of it, then its new rows. -/
theorem insertAll_split (t : Table α) (hnd : (xs.map S.keyOf).Nodup) :
    S.insertAll { t with rows := t.rows.map (S.absorb xs) } (S.fresh t xs) = S.insertAll t xs := by
  have hkeys : S.keys (t.rows.map (S.absorb xs)) = S.keys t.rows := keys_map (key_absorb xs)
  have hnd' : ((xs.filter (fun x => S.keyOf x ∉ S.keys t.rows)).map S.keyOf).Nodup := hnd.sublist (List.filter_sublist.map _)
  -- the second pass inserts what no row had absorbed
  have hold : (t.rows.map (S.absorb xs)).map (S.absorb (xs.filter (fun x => S.keyOf x ∉ S.keys t.rows))) =
      t.rows.map (S.absorb xs) := by
    refine (List.map_congr_left fun r hr => absorb_none fun hmem => ?_).trans (List.map_id _)
    obtain ⟨x, hx, hk⟩ := List.mem_map.mp hmem
    have hfree : S.keyOf x ∉ S.keys t.rows := of_decide_eq_true (List.mem_filter.mp hx).2
    exact hfree (hkeys ▸ hk ▸ List.mem_map.mpr ⟨r, hr, rfl⟩)
  rw [Scheme.fresh, insertAll_eq _ hnd', insertAll_eq t hnd]
  simp only [hkeys, hold, List.filter_filter, Bool.and_self]

omit [DecidableEq κ] in
theorem numbered_map {γ : Type*} {content : α → γ} (h : ∀ n x, content (S.make n x) = content (S.make 0 x)) (n : Nat)
    (xs : List β) : (S.numbered n xs).map content = xs.map (fun x => content (S.make 0 x)) := by
  induction xs generalizing n with
  | nil => rfl
  | cons x xs ih => rw [Scheme.numbered, List.map_cons, List.map_cons, h, ih]

theorem absorb_perm (hperm : xs.Perm ys) (hnd : (xs.map S.keyOf).Nodup) (r : α) : S.absorb xs r = S.absorb ys r := by
  have hfind : xs.find? (fun x => S.keyOf x = S.key r) = ys.find? (fun x => S.keyOf x = S.key r) := by
    cases hx : xs.find? (fun x => S.keyOf x = S.key r) with
    | none =>
      refine (List.find?_eq_none.mpr fun y hy => ?_).symm
      exact List.find?_eq_none.mp hx y (hperm.mem_iff.mpr hy)
    | some x =>
      have hxk : S.keyOf x = S.key r := by simpa using List.find?_some hx
      cases hy : ys.find? (fun x => S.keyOf x = S.key r) with
      | none => exact absurd (decide_eq_true hxk) (List.find?_eq_none.mp hy x (hperm.mem_iff.mp (List.mem_of_find?_eq_some hx)))
      | some y =>
        have hyk : S.keyOf y = S.key r := by simpa using List.find?_some hy
        have hmemx := List.mem_of_find?_eq_some hx
        have hmemy := hperm.mem_iff.mpr (List.mem_of_find?_eq_some hy)
        rw [List.inj_on_of_nodup_map hnd hmemx hmemy (hxk.trans hyk.symm)]
  rw [Scheme.absorb, Scheme.absorb, hfind]

/-- The order of a batch with distinct keys shows only in the numbers and the order of the new
rows. -/
theorem insertAll_perm {γ : Type*} {content : α → γ} (h : ∀ n x, content (S.make n x) = content (S.make 0 x))
    (t : Table α) (hperm : xs.Perm ys) (hnd : (xs.map S.keyOf).Nodup) :
    ∃ new new' : List α, (S.insertAll t xs).rows = t.rows.map (S.absorb xs) ++ new ∧
      (S.insertAll t ys).rows = t.rows.map (S.absorb xs) ++ new' ∧ (new.map content).Perm (new'.map content) := by
  have hnd' : (ys.map S.keyOf).Nodup := (hperm.map _).nodup_iff.mp hnd
  have hsame : t.rows.map (S.absorb ys) = t.rows.map (S.absorb xs) :=
    List.map_congr_left fun r _ => (absorb_perm hperm hnd r).symm
  refine ⟨_, _, by rw [insertAll_eq t hnd], by rw [insertAll_eq t hnd', hsame], ?_⟩
  rw [numbered_map h, numbered_map h]
  exact (hperm.filter _).map _

/-! ## Sums -/

def total {α : Type u} (p : α → Bool) (amount : α → Int) (rows : List α) : Int := ((rows.filter p).map amount).sum

theorem total_cons {α : Type u} (p : α → Bool) (amount : α → Int) (r : α) (rows : List α) :
    total p amount (r :: rows) = (if p r then amount r else 0) + total p amount rows := by
  unfold total
  cases hr : p r with
  | true => rw [List.filter_cons_of_pos hr, List.map_cons, List.sum_cons, if_pos rfl]
  | false => rw [List.filter_cons_of_neg (by simp [hr]), if_neg (by decide), Int.zero_add]

theorem total_append {α : Type u} (p : α → Bool) (amount : α → Int) (rows rows' : List α) :
    total p amount (rows ++ rows') = total p amount rows + total p amount rows' := by
  rw [total, List.filter_append, List.map_append, List.sum_append]
  rfl

theorem total_perm {α : Type u} (p : α → Bool) (amount : α → Int) {rows rows' : List α} (h : rows.Perm rows') :
    total p amount rows = total p amount rows' := ((h.filter p).map amount).sum_eq

/-- What counts is told by the key, and an item changes a row by what it brings. -/
structure Adds (S : Scheme α β κ) (p : α → Bool) (q : β → Bool) (amount : α → Int) (gain : β → Int) : Prop where
  counts : ∀ r x, S.key r = S.keyOf x → p r = q x
  merge : ∀ r x, amount (S.merge r x) = amount r + gain x
  make : ∀ n x, amount (S.make n x) = gain x

variable {p : α → Bool} {q : β → Bool} {amount : α → Int} {gain : β → Int} (h : Adds S p q amount gain)
include h

theorem total_merge {rows : List α} (hnd : (S.keys rows).Nodup) (hmem : S.keyOf x ∈ S.keys rows) :
    total p amount (rows.map (fun r => if S.key r = S.keyOf x then S.merge r x else r)) =
      total p amount rows + total q gain [x] := by
  induction rows with
  | nil => cases hmem
  | cons r rows ih =>
    rw [Scheme.keys, List.map_cons, List.nodup_cons] at hnd
    rw [List.map_cons, total_cons, total_cons]
    by_cases hr : S.key r = S.keyOf x
    · -- the row of the item: no other one has its key
      have hsame : rows.map (fun r => if S.key r = S.keyOf x then S.merge r x else r) = rows := by
        refine (List.map_congr_left fun s hs => if_neg fun heq => ?_).trans (List.map_id _)
        exact hnd.1 (hr ▸ heq ▸ List.mem_map.mpr ⟨s, hs, rfl⟩)
      rw [if_pos hr, hsame, h.counts (S.merge r x) x ((S.key_merge r x).trans hr), h.counts r x hr, total_cons, h.merge]
      show _ = _ + ((if q x then gain x else 0) + 0)
      split <;> omega
    · rw [if_neg hr, ih hnd.2 ((List.mem_cons.mp hmem).resolve_left (Ne.symm hr))]
      omega

theorem total_insert (hnd : (S.keys t.rows).Nodup) :
    total p amount (S.insert t x).rows = total p amount t.rows + total q gain [x] := by
  by_cases hmem : S.keyOf x ∈ S.keys t.rows
  · rw [insert_of_mem hmem]
    exact total_merge h hnd hmem
  · rw [insert_of_notMem hmem, total_append, total_cons, total_cons, h.counts _ x (S.key_make t.next x), h.make]
    rfl

theorem total_insertAll (hnd : (S.keys t.rows).Nodup) (xs : List β) :
    total p amount (S.insertAll t xs).rows = total p amount t.rows + total q gain xs := by
  induction xs generalizing t with
  | nil => exact (Int.add_zero _).symm
  | cons x xs ih =>
    rw [show S.insertAll t (x :: xs) = S.insertAll (S.insert t x) xs from rfl, ih (nodup_insert hnd x), total_insert h hnd,
      total_cons q gain x xs, total_cons q gain x [], Int.add_assoc, Int.add_assoc]
    congr 2
    exact Int.zero_add _

theorem total_collect (xs : List β) : total p amount (S.insertAll ⟨[], 0⟩ xs).rows = total q gain xs := by
  rw [total_insertAll h (t := ⟨[], 0⟩) List.nodup_nil]
  exact Int.zero_add _

end

end Upsert
