import Mathlib.Data.List.Sort
import Mathlib.Data.String.Basic
import ForwardX.Lib.Assoc

/- A directory whose files are written and removed as a whole. A program that dies between two operations leaves
   the directory of some first part of them. A sweep goes over the listing and keeps, replaces or deletes each file. -/
namespace ForwardX.Files
universe u
variable {α : Type u}

/-! ## Directories -/

structure Dir (α : Type u) where
  files : List (String × α)
  nodup : (Assoc.keys files).Nodup

namespace Dir

instance : Membership (String × α) (Dir α) := ⟨fun d e => e ∈ d.files⟩

def write (d : Dir α) (name : String) (x : α) : Dir α := ⟨Assoc.put d.files name x, Assoc.nodup_put d.nodup name x⟩

def remove (d : Dir α) (name : String) : Dir α := ⟨Assoc.erase d.files name, Assoc.nodup_erase d.nodup name⟩

def readDir (d : Dir α) : List (String × α) := d.files.insertionSort fun a b => a.1 ≤ b.1

variable {d : Dir α} {e : String × α} {name : String} {x y : α}

theorem mem_remove : e ∈ d.remove name ↔ e ∈ d ∧ e.1 ≠ name := by
  show e ∈ Assoc.erase d.files name ↔ _
  unfold Assoc.erase
  rw [List.mem_filter, bne_iff_ne]
  exact Iff.rfl

theorem mem_write : e ∈ d.write name x ↔ e = (name, x) ∨ (e ∈ d ∧ e.1 ≠ name) := by
  show e ∈ Assoc.erase d.files name ++ [(name, x)] ↔ _
  rw [List.mem_append, List.mem_singleton, or_comm]
  exact or_congr Iff.rfl mem_remove

theorem mem_readDir : e ∈ d.readDir ↔ e ∈ d := (List.perm_insertionSort _ _).mem_iff

end Dir

/-! ## Operations -/

inductive Op (α : Type u)
  | write (name : String) (x : α)
  | remove (name : String)

def Op.apply (d : Dir α) : Op α → Dir α
  | .write name x => d.write name x
  | .remove name => d.remove name

def run (ops : List (Op α)) (d : Dir α) : Dir α := ops.foldl Op.apply d

/-- What every file has, it has after operations that write such files only. -/
theorem forall_run {P : String × α → Prop} {ops : List (Op α)} {d : Dir α} (hops : ∀ name x, Op.write name x ∈ ops → P (name, x))
    (h : ∀ e ∈ d, P e) : ∀ e ∈ run ops d, P e := by
  induction ops generalizing d with
  | nil => exact h
  | cons op ops ih =>
    refine ih (fun name x hx => hops name x (List.mem_cons_of_mem _ hx)) fun e he => ?_
    cases op with
    | write name x =>
      rcases Dir.mem_write.mp he with rfl | ⟨he, -⟩
      · exact hops name x List.mem_cons_self
      · exact h e he
    | remove name => exact h e (Dir.mem_remove.mp he).1

/-! ## Sweeps -/

inductive Action (α : Type u)
  | keep
  | replace (x : α)
  | delete

variable (act : String × α → Action α)

def Action.op (name : String) : Action α → Option (Op α)
  | .keep => none
  | .replace x => some (.write name x)
  | .delete => some (.remove name)

def sweep (listing : List (String × α)) : List (Op α) := listing.filterMap fun e => (act e).op e.1

theorem mem_sweep_write {act : String × α → Action α} {listing : List (String × α)} {name : String} {x : α}
    (h : Op.write name x ∈ sweep act listing) : ∃ e ∈ listing, act e = .replace x := by
  obtain ⟨e, he, hop⟩ := List.mem_filterMap.mp h
  cases hact : act e with
  | keep => simp [hact, Action.op] at hop
  | replace y =>
    rw [hact] at hop
    cases hop
    exact ⟨e, he, hact⟩
  | delete => simp [hact, Action.op] at hop

end ForwardX.Files
