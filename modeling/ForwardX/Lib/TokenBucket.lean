import Mathlib.Algebra.Order.BigOperators.Group.List
import Mathlib.Algebra.Order.Field.Basic
import Mathlib.Tactic.Linarith
import Mathlib.Tactic.Ring

/- Token buckets over an ordered field: a level that rises with time at a given rate, up to the
   capacity, and falls by what is taken. `Bounded` keeps the level and the log of what was taken
   together; over every interval no more was taken than the capacity and what the rate brings
   in that time (`Bounded.within`). -/
namespace TokenBucket

variable {K : Type} [Field K] [LinearOrder K]

/-- What was taken from `t₀` on and up to `t₁`, of a log of times and amounts. -/
def taken (log : List (K × K)) (t₀ t₁ : K) : K :=
  ((log.filter (fun e => decide (t₀ ≤ e.1) && decide (e.1 ≤ t₁))).map Prod.snd).sum

theorem taken_nil (t₀ t₁ : K) : taken [] t₀ t₁ = 0 := rfl

theorem taken_concat (log : List (K × K)) (t amount t₀ t₁ : K) :
    taken (log ++ [(t, amount)]) t₀ t₁ = taken log t₀ t₁ + if t₀ ≤ t ∧ t ≤ t₁ then amount else 0 := by
  unfold taken
  rw [List.filter_append, List.map_append, List.sum_append]
  congr 1
  by_cases h : t₀ ≤ t ∧ t ≤ t₁ <;> simp [h]

theorem taken_eq_zero {log : List (K × K)} {last t₀ : K} (hlog : ∀ e ∈ log, e.1 ≤ last) (h : last < t₀) (t₁ : K) :
    taken log t₀ t₁ = 0 := by
  have hnone : log.filter (fun e => decide (t₀ ≤ e.1) && decide (e.1 ≤ t₁)) = [] := by
    rw [List.filter_eq_nil_iff]
    intro e he hin
    rw [Bool.and_eq_true, decide_eq_true_eq] at hin
    exact absurd (le_trans hin.1 (hlog e he)) (not_le.mpr h)
  unfold taken
  rw [hnone]
  rfl

theorem taken_of_last_le {log : List (K × K)} {last t₁ : K} (hlog : ∀ e ∈ log, e.1 ≤ last) (h : last ≤ t₁) (t₀ : K) :
    taken log t₀ t₁ = taken log t₀ last := by
  unfold taken
  congr 2
  apply List.filter_congr
  intro e he
  rw [decide_eq_true (hlog e he), decide_eq_true (le_trans (hlog e he) h)]

/-- The level lies between zero and the capacity, and over no interval was more taken than the
capacity and the rate allow. From a time on up to the last, what is left counts as taken. -/
structure Bounded (capacity rate level last : K) (log : List (K × K)) : Prop where
  nonneg : 0 ≤ level
  le : level ≤ capacity
  past : ∀ e ∈ log, e.1 ≤ last
  since : ∀ t₀ ≤ last, taken log t₀ last + level ≤ capacity + rate * (last - t₀)
  within : ∀ t₀ t₁, t₀ ≤ t₁ → taken log t₀ t₁ ≤ capacity + rate * (t₁ - t₀)

section
variable [IsStrictOrderedRing K] {capacity rate level level' last now amount : K} {log : List (K × K)}

theorem Bounded.full (hcapacity : 0 ≤ capacity) (hrate : 0 ≤ rate) (last : K) :
    Bounded capacity rate capacity last [] := by
  refine ⟨hcapacity, le_refl _, ?_, fun t₀ ht => ?_, fun t₀ t₁ ht => ?_⟩
  · intro e he
    cases he
  · have := mul_nonneg hrate (sub_nonneg.mpr ht)
    rw [taken_nil]
    linarith
  · have := mul_nonneg hrate (sub_nonneg.mpr ht)
    rw [taken_nil]
    linarith

theorem Bounded.refill (h : Bounded capacity rate level last log) (hrate : 0 ≤ rate) (hnow : last ≤ now)
    (hmore : level ≤ level') (hcapacity : level' ≤ capacity) (hle : level' ≤ level + rate * (now - last)) :
    Bounded capacity rate level' now log := by
  refine ⟨le_trans h.nonneg hmore, hcapacity, fun e he => le_trans (h.past e he) hnow, fun t₀ ht => ?_, h.within⟩
  rcases le_or_gt t₀ last with hbefore | hbehind
  · rw [taken_of_last_le h.past hnow]
    have hsum : rate * (now - last) + rate * (last - t₀) = rate * (now - t₀) := by ring
    linarith [h.since t₀ hbefore]
  · rw [taken_eq_zero h.past hbehind]
    have := mul_nonneg hrate (sub_nonneg.mpr ht)
    linarith

theorem Bounded.take (h : Bounded capacity rate level last log) (hrate : 0 ≤ rate) (hamount : 0 ≤ amount)
    (hlevel : amount ≤ level) : Bounded capacity rate (level - amount) last (log ++ [(last, amount)]) := by
  have hpast : ∀ e ∈ log ++ [(last, amount)], e.1 ≤ last := by
    intro e he
    rcases List.mem_append.mp he with he | he
    · exact h.past e he
    · rw [List.mem_singleton.mp he]
  have hsince : ∀ t₀ ≤ last,
      taken (log ++ [(last, amount)]) t₀ last + (level - amount) ≤ capacity + rate * (last - t₀) := by
    intro t₀ ht
    rw [taken_concat, if_pos ⟨ht, le_refl last⟩]
    linarith [h.since t₀ ht]
  refine ⟨sub_nonneg.mpr hlevel, by linarith [h.le], hpast, hsince, fun t₀ t₁ ht => ?_⟩
  by_cases hin : t₀ ≤ last ∧ last ≤ t₁
  · rw [taken_of_last_le hpast hin.2]
    have hmono := mul_le_mul_of_nonneg_left (sub_le_sub_right hin.2 t₀) hrate
    linarith [hsince t₀ hin.1]
  · rw [taken_concat, if_neg hin, add_zero]
    exact h.within t₀ t₁ ht

end

end TokenBucket
