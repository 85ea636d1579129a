import Mathlib.Data.List.Pairwise
import ForwardX.Lib.Rows

/- Leases of intervals. Some of the rows of a table are live, and each may hold an interval
   of numbers. The table is exclusive when no two live rows hold a number in common. A live
   row may give its interval up, a row may stop being live, and a row may become live or be
   added when its interval is clear of those of the other live rows. -/
namespace Lease

universe u v

def Apart (x y : Option (Nat × Nat)) : Prop := ∀ a ∈ x, ∀ b ∈ y, a.2 < b.1 ∨ b.2 < a.1

theorem Apart.symm {x y : Option (Nat × Nat)} (h : Apart x y) : Apart y x :=
  fun b hb a ha => (h a ha b hb).symm

theorem apart_none (y : Option (Nat × Nat)) : Apart none y := fun _ h => nomatch h

theorem apart_of_disjoint {x y : Option (Nat × Nat)} (hx : ∀ a ∈ x, a.1 ≤ a.2) (hy : ∀ b ∈ y, b.1 ≤ b.2)
    (h : ∀ a ∈ x, ∀ b ∈ y, ∀ p, a.1 ≤ p → p ≤ a.2 → b.1 ≤ p → p ≤ b.2 → False) : Apart x y := by
  intro a ha b hb
  have ha' := hx a ha
  have hb' := hy b hb
  by_contra hmeet
  -- the larger of the two starts is in both
  exact h a ha b hb (max a.1 b.1) (by omega) (by omega) (by omega) (by omega)

instance (x y : Option (Nat × Nat)) : Decidable (Apart x y) :=
  match x, y with
  | none, y => .isTrue (apart_none y)
  | some _, none => .isTrue (fun _ _ _ h => nomatch h)
  | some a, some b =>
    decidable_of_iff (a.2 < b.1 ∨ b.2 < a.1) ⟨fun h _ ha _ hb => by cases ha; cases hb; exact h,
      fun h => h a rfl b rfl⟩

section
variable {α : Type u} {live live' : α → Prop} {block : α → Option (Nat × Nat)}

def Exclusive (live : α → Prop) (block : α → Option (Nat × Nat)) (l : List α) : Prop :=
  l.Pairwise (fun a b => live a → live b → Apart (block a) (block b))

theorem Exclusive.apart {l : List α} (h : Exclusive live block l) {a b : α} (ha : a ∈ l) (hb : b ∈ l)
    (hne : a ≠ b) (hla : live a) (hlb : live b) : Apart (block a) (block b) := by
  have hsymm : Std.Symm (fun a b => live a → live b → Apart (block a) (block b)) :=
    ⟨fun _ _ hab hlb hla => (hab hla hlb).symm⟩
  exact h.forall ha hb hne hla hlb

theorem Exclusive.concat {l : List α} {x : α} (h : Exclusive live block l)
    (hx : live x → ∀ a ∈ l, live a → Apart (block a) (block x)) : Exclusive live block (l ++ [x]) := by
  refine List.pairwise_append.mpr ⟨h, List.pairwise_singleton _ _, ?_⟩
  intro a ha b hb hla hlb
  obtain rfl := List.mem_singleton.mp hb
  exact hx hlb a ha hla

/-- An update of the row of one key: the row was live and keeps its interval, or its interval
is clear of those of the other live rows. -/
theorem Exclusive.set {κ : Type v} [DecidableEq κ] {key : α → κ} {l : List α} {k : κ} {f : α → α}
    (h : Exclusive live block l) (hnd : (l.map key).Nodup)
    (hf : ∀ r ∈ l, key r = k → live (f r) → (live r ∧ block (f r) = block r) ∨
      ∀ r' ∈ l, key r' ≠ k → live r' → Apart (block (f r)) (block r')) :
    Exclusive live block (Rows.set key l k f) := by
  apply List.pairwise_map.mpr
  have hkeys : l.Pairwise (fun a b => key a ≠ key b) := List.pairwise_map.mp hnd
  refine (h.and hkeys).imp_of_mem ?_
  rintro a b ha hb ⟨hab, hne⟩
  by_cases hka : key a = k
  · have hkb : key b ≠ k := fun hkb => hne (hka.trans hkb.symm)
    rw [if_pos hka, if_neg hkb]
    intro hla hlb
    rcases hf a ha hka hla with ⟨hold, hblock⟩ | hclear
    · rw [hblock]
      exact hab hold hlb
    · exact hclear b hb hkb hlb
  · rw [if_neg hka]
    by_cases hkb : key b = k
    · rw [if_pos hkb]
      intro hla hlb
      rcases hf b hb hkb hlb with ⟨hold, hblock⟩ | hclear
      · rw [hblock]
        exact hab hla hold
      · exact (hclear a ha hka hla).symm
    · rw [if_neg hkb]
      exact hab

end

end Lease
