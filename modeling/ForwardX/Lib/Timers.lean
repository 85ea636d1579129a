import ForwardX.Lib.Assoc

/- The timers of a runtime. Setting one gives a handle that no other timer had; a timer is live
   until its callback runs or its handle is cleared. -/

/-- The live timers and the next handle. A timer is told by its content `γ`: which callback it
runs and after what delay. -/
structure Timers (γ : Type) where
  live : List (Nat × γ)
  next : Nat
  fresh : ∀ e ∈ live, e.1 < next

namespace Timers

open Assoc

variable {γ : Type} {h k : Nat} {x y : γ}

def empty : Timers γ := ⟨[], 0, fun _ h => nomatch h⟩

/-- The live timer with the handle `h`. -/
def get (t : Timers γ) (h : Nat) : Option γ := t.live.lookup h

/-- Set a timer; its handle is `t.next`. -/
def set (t : Timers γ) (x : γ) : Timers γ where
  live := t.live ++ [(t.next, x)]
  next := t.next + 1
  fresh e he := by
    rcases List.mem_append.mp he with he | he
    · exact Nat.lt_succ_of_lt (t.fresh e he)
    · rw [List.mem_singleton.mp he]
      exact Nat.lt_succ_self _

/-- The timer with the handle `h` is no longer live: it was cleared, or its callback runs. -/
def clear (t : Timers γ) (h : Nat) : Timers γ where
  live := erase t.live h
  next := t.next
  fresh e he := t.fresh e (List.mem_of_mem_filter he)

def clearSome (t : Timers γ) (h : Option Nat) : Timers γ := h.elim t t.clear

@[simp] theorem get_empty (h : Nat) : (empty : Timers γ).get h = none := rfl

theorem get_next (t : Timers γ) : t.get t.next = none := by
  apply lookup_eq_none.mpr
  intro hmem
  obtain ⟨e, he, hkey⟩ := List.mem_map.mp hmem
  have := t.fresh e he
  omega

theorem get_set (t : Timers γ) (x : γ) (h : Nat) : (t.set x).get h = if h = t.next then some x else t.get h := by
  show (t.live ++ [(t.next, x)]).lookup h = _
  rw [List.lookup_append]
  by_cases hnext : h = t.next
  · have hnone : t.live.lookup h = none := hnext ▸ t.get_next
    rw [if_pos hnext, hnone, hnext, List.lookup_cons_self]
    rfl
  · have hne : (h == t.next) = false := by simpa using hnext
    rw [if_neg hnext, List.lookup_cons, hne]
    exact Option.or_none

theorem get_clear (t : Timers γ) (h k : Nat) : (t.clear h).get k = if k = h then none else t.get k := by
  by_cases hkh : k = h
  · rw [if_pos hkh, hkh]
    exact lookup_erase_self _ _
  · rw [if_neg hkh]
    exact lookup_erase_ne _ hkh

theorem get_clearSome (t : Timers γ) (h : Option Nat) (k : Nat) :
    (t.clearSome h).get k = if h = some k then none else t.get k := by
  cases h with
  | none => simp [clearSome]
  | some h =>
    rw [clearSome, Option.elim_some, get_clear]
    simp only [Option.some.injEq, eq_comm (a := h)]

end Timers
