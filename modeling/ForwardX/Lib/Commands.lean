/- Programs that give commands to a system they do not own. What a command does and what it
   answers is a relation, so a command may fail, with or without effect. An `Execution` passes
   through states; `Always` is the weakest precondition for an invariant of all of them and a
   postcondition at the end. Where every command keeps the invariant, it is enough to know which
   commands the program gives (`Prog.Only`). -/
namespace Commands

/-- A program that gives commands `C`, goes on by their answers `R` and ends with a result. -/
inductive Prog (C R α : Type) where
  | done (a : α)
  | call (c : C) (next : R → Prog C R α)

namespace Prog

variable {C R α β : Type}

def bind : Prog C R α → (α → Prog C R β) → Prog C R β
  | done a, f => f a
  | call c next, f => call c (fun r => (next r).bind f)

def andThen (p q : Prog C R (Option α)) : Prog C R (Option α) :=
  p.bind (fun err => err.elim q (fun e => done (some e)))

def each : List β → (β → Prog C R (Option α)) → Prog C R (Option α)
  | [], _ => done none
  | b :: bs, f => (f b).andThen (each bs f)

end Prog

/-- What a command may do: the state before, the command, the answer and the state after. -/
abbrev System (σ C R : Type) := σ → C → R → σ → Prop

section
variable {σ C R α β : Type} {system : System σ C R}

/-- A complete run of a program: the states that it passes through, its result and its last
state. -/
inductive Execution (system : System σ C R) : Prog C R α → σ → List σ → α → σ → Prop
  | done (a : α) (s : σ) : Execution system (.done a) s [s] a s
  | call {c : C} {next : R → Prog C R α} {s t u : σ} {r : R} {path : List σ} {a : α} :
      system s c r t → Execution system (next r) t path a u → Execution system (.call c next) s (s :: path) a u

/-- The run in which every command is answered by a function: its states, its result and its last
state. -/
def Prog.exec (f : σ → C → R × σ) : Prog C R α → σ → List σ × α × σ
  | .done a, s => ([s], a, s)
  | .call c next, s =>
    let rest := (next (f s c).1).exec f (f s c).2
    (s :: rest.1, rest.2)

theorem Execution.of_exec {f : σ → C → R × σ} (hf : ∀ s c, system s c (f s c).1 (f s c).2) (p : Prog C R α) (s : σ) :
    Execution system p s (p.exec f s).1 (p.exec f s).2.1 (p.exec f s).2.2 := by
  induction p generalizing s with
  | done a => exact .done a s
  | call c next ih => exact .call (hf s c) (ih (f s c).1 (f s c).2)

/-- Every run passes through states with `I` only, and ends with `Q`. -/
def Always (system : System σ C R) (I : σ → Prop) (Q : α → σ → Prop) : Prog C R α → σ → Prop
  | .done a, s => I s ∧ Q a s
  | .call c next, s => I s ∧ ∀ r t, system s c r t → Always system I Q (next r) t

variable {I : σ → Prop} {Q Q' : α → σ → Prop} {s : σ} {p : Prog C R α}

theorem Always.sound {path : List σ} {a : α} {t : σ} (h : Always system I Q p s)
    (hrun : Execution system p s path a t) :
    (∀ u ∈ path, I u) ∧ Q a t := by
  induction hrun with
  | done a s => exact ⟨fun u hu => List.mem_singleton.mp hu ▸ h.1, h.2⟩
  | call hstep _ ih =>
    obtain ⟨hpath, hend⟩ := ih (h.2 _ _ hstep)
    refine ⟨fun u hu => ?_, hend⟩
    rcases List.mem_cons.mp hu with rfl | hu
    · exact h.1
    · exact hpath u hu

theorem Always.mono (h : Always system I Q p s) (hQ : ∀ a t, I t → Q a t → Q' a t) : Always system I Q' p s := by
  induction p generalizing s with
  | done a => exact ⟨h.1, hQ a s h.1 h.2⟩
  | call c next ih => exact ⟨h.1, fun r t hstep => ih r (h.2 r t hstep)⟩

theorem Always.bind {f : α → Prog C R β} {Q : β → σ → Prop}
    (h : Always system I (fun a t => Always system I Q (f a) t) p s) : Always system I Q (p.bind f) s := by
  induction p generalizing s with
  | done a => exact h.2
  | call c next ih => exact ⟨h.1, fun r t hstep => ih r (h.2 r t hstep)⟩

/-! ## Programs that give some commands only -/

/-- Whatever the answers, every command has `P`. -/
def Prog.Only (P : C → Prop) : Prog C R α → Prop
  | .done _ => True
  | .call c next => P c ∧ ∀ r, (next r).Only P

variable {P : C → Prop}

theorem Prog.Only.bind {f : α → Prog C R β} (h : p.Only P) (hf : ∀ a, (f a).Only P) : (p.bind f).Only P := by
  induction p with
  | done a => exact hf a
  | call c next ih => exact ⟨h.1, fun r => ih r (h.2 r)⟩

theorem Prog.Only.andThen {p q : Prog C R (Option α)} (h : p.Only P) (hq : q.Only P) : (p.andThen q).Only P := by
  refine h.bind fun err => ?_
  cases err with
  | none => exact hq
  | some e => exact trivial

theorem Prog.Only.each {f : β → Prog C R (Option α)} {bs : List β} (h : ∀ b ∈ bs, (f b).Only P) :
    (Prog.each bs f).Only P := by
  induction bs with
  | nil => exact trivial
  | cons b bs ih => exact (h b List.mem_cons_self).andThen (ih fun b' hb' => h b' (List.mem_cons_of_mem _ hb'))

theorem Prog.Only.invariant (h : p.Only P) (hstep : ∀ c s r t, P c → system s c r t → I s → I t) {path : List σ} {a : α}
    {t : σ} (hrun : Execution system p s path a t) (hI : I s) : ∀ u ∈ path, I u := by
  induction hrun with
  | done a s => exact fun u hu => List.mem_singleton.mp hu ▸ hI
  | call hs _ ih => exact List.forall_mem_cons.mpr ⟨hI, ih (h.2 _) (hstep _ _ _ _ h.1 hs hI)⟩

end

end Commands
