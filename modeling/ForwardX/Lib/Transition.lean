import Mathlib.Logic.Relation

/- Labelled transition systems and their runs. A system is a step relation
   `σ → α → σ → Prop`; a partial step function is one by `Steps.ofFn`. What one
   step preserves a run preserves (`Run.preserves`), also when only the steps
   that meet a condition are taken (`Guarded`), and a measure that some steps
   decrease and none raises bounds how many of these a run takes (`Run.countP_le`). -/
namespace Transition

universe u v

/-- A labelled transition system over the states `σ` with the labels `α`. -/
abbrev Steps (σ : Type u) (α : Type v) := σ → α → σ → Prop

/-- The system of a partial step function: `none` is a disabled label. -/
def Steps.ofFn {σ : Type u} {α : Type v} (f : σ → α → Option σ) : Steps σ α :=
  fun s a s' => f s a = some s'

/-- The steps of `step` that meet the condition `G` on their source and label. -/
def Guarded {σ : Type u} {α : Type v} (G : σ → α → Prop) (step : Steps σ α) : Steps σ α :=
  fun s a s' => G s a ∧ step s a s'

/-- `Run step s as s'`: the labels `as`, in order, lead from `s` to `s'`. -/
inductive Run {σ : Type u} {α : Type v} (step : Steps σ α) : σ → List α → σ → Prop
  | nil (s : σ) : Run step s [] s
  | snoc {s t s' : σ} {as : List α} {a : α} :
      Run step s as t → step t a s' → Run step s (as ++ [a]) s'

def exec {σ : Type u} {α : Type v} (f : σ → α → Option σ) : σ → List α → Option σ
  | s, [] => some s
  | s, a :: as => (f s a).bind (fun t => exec f t as)

theorem bind_ite_eq_some {α : Type u} {β : Type v} {x : Option α} {p : α → Prop} [DecidablePred p] {f : α → β} {b : β} :
    (x.bind fun a => if p a then some (f a) else none) = some b ↔ ∃ a, x = some a ∧ p a ∧ f a = b := by
  simp only [Option.bind_eq_some_iff, Option.ite_none_right_eq_some, Option.some.injEq]

section
variable {σ : Type u} {α : Type v} {step : Steps σ α}

theorem Run.single {s s' : σ} {a : α} (h : step s a s') : Run step s [a] s' := by
  have hrun : Run step s ([] ++ [a]) s' := Run.snoc (Run.nil s) h
  exact hrun

theorem Run.trans {s t s' : σ} {as bs : List α} (h₁ : Run step s as t) (h₂ : Run step t bs s') :
    Run step s (as ++ bs) s' := by
  induction h₂ with
  | nil => simpa using h₁
  | snoc _ hs ih =>
    rw [← List.append_assoc]
    exact Run.snoc ih hs

variable {s s' : σ} {as : List α}

/-- The invariant rule: what every step preserves, every run preserves. -/
theorem Run.preserves {P : σ → Prop} (hstep : ∀ s a s', step s a s' → P s → P s') (h : Run step s as s') (hs : P s) :
    P s' := by
  induction h with
  | nil => exact hs
  | snoc _ h ih => exact hstep _ _ _ h ih

theorem Run.mono {step' : Steps σ α} (hsub : ∀ s a s', step s a s' → step' s a s') (h : Run step s as s') :
    Run step' s as s' := by
  induction h with
  | nil => exact Run.nil _
  | snoc _ h ih => exact Run.snoc ih (hsub _ _ _ h)

/-- In a run from a state that meets an invariant every step is taken where the invariant holds. -/
theorem Run.mono_of_invariant {I : σ → Prop} {step' : Steps σ α} (hI : ∀ s a s', step s a s' → I s → I s')
    (hsub : ∀ s a s', step s a s' → I s → step' s a s') (h : Run step s as s') (hs : I s) : Run step' s as s' := by
  induction h with
  | nil => exact Run.nil _
  | snoc hrun hlast ih => exact Run.snoc ih (hsub _ _ _ hlast (hrun.preserves hI hs))

theorem Run.of_guarded {G : σ → α → Prop} (h : Run (Guarded G step) s as s') : Run step s as s' :=
  h.mono (fun _ _ _ hg => hg.2)

/-- A property that a step keeps exactly when it meets a condition holds at the end of a
run exactly when every step of the run met it. -/
theorem Run.guarded_iff {I P : σ → Prop} {G : σ → α → Prop} (hI : ∀ s a s', step s a s' → I s → I s')
    (hstep : ∀ s a s', step s a s' → I s → (P s' ↔ P s ∧ G s a)) (h : Run step s as s') (hs : I s) (hP : P s) :
    P s' ↔ Run (Guarded G step) s as s' := by
  constructor
  · intro hP'
    induction h with
    | nil => exact Run.nil _
    | snoc hrun hlast ih =>
      have hkept := (hstep _ _ _ hlast (hrun.preserves hI hs)).mp hP'
      exact Run.snoc (ih hkept.1) ⟨hkept.2, hlast⟩
  · intro hguarded
    have hboth := hguarded.preserves (P := fun t => I t ∧ P t)
      (fun t a t' ht hinv => ⟨hI t a t' ht.2 hinv.1, (hstep t a t' ht.2 hinv.1).mpr ⟨hinv.2, ht.1⟩⟩) ⟨hs, hP⟩
    exact hboth.2

/-- A measure that no step raises and every step with the label `p` decreases bounds how many
of these a run takes. -/
theorem Run.countP_le {I : σ → Prop} {μ : σ → Nat} {p : α → Bool} (hI : ∀ s a s', step s a s' → I s → I s')
    (hdec : ∀ s a s', step s a s' → I s → (if p a then 1 else 0) + μ s' ≤ μ s) (h : Run step s as s') (hs : I s) :
    as.countP p + μ s' ≤ μ s := by
  induction h with
  | nil => simp
  | snoc hrun hlast ih =>
    have := hdec _ _ _ hlast (hrun.preserves hI hs)
    rw [List.countP_append, List.countP_singleton]
    omega

theorem Run.cons {s t s' : σ} {a : α} (h₁ : step s a t) (h₂ : Run step t as s') : Run step s (a :: as) s' :=
  (Run.single h₁).trans h₂

end

theorem exec_run {σ : Type u} {α : Type v} {f : σ → α → Option σ} :
    ∀ {s s' : σ} {as : List α}, exec f s as = some s' → Run (Steps.ofFn f) s as s'
  | s, s', [], h => by
    simp only [exec, Option.some.injEq] at h
    exact h ▸ Run.nil s
  | s, s', a :: as, h => by
    simp only [exec] at h
    obtain ⟨t, ht, hrest⟩ := Option.bind_eq_some_iff.mp h
    exact Run.cons ht (exec_run hrest)

/-- A list of labels that executes, each passing the test `g`, is a run whose steps
meet what `g` tests for. -/
theorem exec_guarded {σ : Type u} {α : Type v} {f : σ → α → Option σ} {G : σ → α → Prop}
    {g : σ → α → Bool} (hg : ∀ s a, g s a = true → G s a) {s s' : σ} {as : List α}
    (h : exec (fun s a => if g s a then f s a else none) s as = some s') :
    Run (Guarded G (Steps.ofFn f)) s as s' := by
  refine (exec_run h).mono fun s a s' hs => ?_
  simp only [Steps.ofFn] at hs
  split at hs
  · rename_i hpass
    exact ⟨hg s a hpass, hs⟩
  · cases hs

end Transition
