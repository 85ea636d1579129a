import Mathlib.Data.List.Basic

/- Deterministic machines with output: `next` is the state after an input and
   `out` what the machine emits on it. A relation holds pairwise along the whole
   output exactly when it holds within the output of every input and between the
   outputs of every two inputs (`pairwise_outputs_iff`). -/
namespace Machine

universe u v w

variable {σ : Type u} {α : Type v} {β : Type w}

def after (next : σ → α → σ) (s : σ) (as : List α) : σ := as.foldl next s

def outputs (next : σ → α → σ) (out : σ → α → List β) : σ → List α → List β
  | _, [] => []
  | s, a :: as => out s a ++ outputs next out (next s a) as

section
variable (next : σ → α → σ) (out : σ → α → List β)

@[simp] theorem after_cons (s : σ) (a : α) (as : List α) :
    after next s (a :: as) = after next (next s a) as := rfl

@[simp] theorem after_append (s : σ) (as bs : List α) :
    after next s (as ++ bs) = after next (after next s as) bs :=
  List.foldl_append

theorem mem_outputs {b : β} (s : σ) (as : List α) :
    b ∈ outputs next out s as ↔
      ∃ pre x post, as = pre ++ x :: post ∧ b ∈ out (after next s pre) x := by
  induction as generalizing s with
  | nil => simp [outputs]
  | cons a as ih =>
    rw [outputs, List.mem_append, ih]
    constructor
    · intro h
      rcases h with h | ⟨pre, x, post, rfl, h⟩
      · exact ⟨[], a, as, rfl, h⟩
      · exact ⟨a :: pre, x, post, rfl, h⟩
    · intro h
      obtain ⟨pre, x, post, heq, h⟩ := h
      cases pre with
      | nil =>
        obtain ⟨rfl, rfl⟩ := List.cons.inj heq
        exact .inl h
      | cons p pre =>
        obtain ⟨rfl, rfl⟩ := List.cons.inj heq
        exact .inr ⟨pre, x, post, rfl, h⟩

/-- A relation is pairwise along the output when it is within the output of each
input and between the outputs of an input and of a later one. -/
theorem pairwise_outputs_iff {R : β → β → Prop} (s : σ) (as : List α) :
    (outputs next out s as).Pairwise R ↔
      (∀ pre x post, as = pre ++ x :: post → (out (after next s pre) x).Pairwise R) ∧
      ∀ pre x mid y post, as = pre ++ x :: (mid ++ y :: post) →
        ∀ a ∈ out (after next s pre) x, ∀ b ∈ out (after next s (pre ++ x :: mid)) y, R a b := by
  induction as generalizing s with
  | nil => simp [outputs]
  | cons c as ih =>
    rw [outputs, List.pairwise_append, ih]
    constructor
    · intro h
      obtain ⟨hhead, ⟨hone, htwo⟩, hcross⟩ := h
      refine ⟨?_, ?_⟩
      · intro pre x post heq
        cases pre with
        | nil =>
          obtain ⟨rfl, rfl⟩ := List.cons.inj heq
          exact hhead
        | cons p pre =>
          obtain ⟨rfl, rfl⟩ := List.cons.inj heq
          exact hone pre x post rfl
      · intro pre x mid y post heq a ha b hb
        cases pre with
        | nil =>
          obtain ⟨rfl, rfl⟩ := List.cons.inj heq
          exact hcross a ha b ((mem_outputs next out _ _).mpr ⟨mid, y, post, rfl, hb⟩)
        | cons p pre =>
          obtain ⟨rfl, rfl⟩ := List.cons.inj heq
          exact htwo pre x mid y post rfl a ha b hb
    · intro h
      obtain ⟨hone, htwo⟩ := h
      refine ⟨hone [] c as rfl, ⟨?_, ?_⟩, ?_⟩
      · intro pre x post heq
        exact hone (c :: pre) x post (by rw [heq]; rfl)
      · intro pre x mid y post heq a ha b hb
        exact htwo (c :: pre) x mid y post (by rw [heq]; rfl) a ha b hb
      · intro a ha b hb
        obtain ⟨mid, y, post, rfl, hy⟩ := (mem_outputs next out _ _).mp hb
        exact htwo [] c mid y post rfl a ha b hy

end

end Machine
