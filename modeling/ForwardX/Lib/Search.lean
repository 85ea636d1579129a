import Mathlib.Order.Basic
import Mathlib.Tactic.ByContra

/- Searches that count upwards. `firstAbove` looks for the first index at which a function
   exceeds a bound, `firstFit` for the first run of free numbers of a given length. Both
   take fuel, and find what there is when the fuel reaches it. -/
namespace Search

/-- The first index from `k` on, of at most `fuel` more, at which `f` exceeds `bound`. -/
def firstAbove (f : Nat → Int) (bound : Int) : Nat → Nat → Nat
  | 0, k => k
  | fuel + 1, k => if f k ≤ bound then firstAbove f bound fuel (k + 1) else k

section
variable (f : Nat → Int) (bound : Int)

theorem le_firstAbove (fuel k : Nat) : k ≤ firstAbove f bound fuel k := by
  induction fuel generalizing k with
  | zero => exact Nat.le_refl k
  | succ fuel ih =>
    unfold firstAbove
    split
    · exact Nat.le_trans (Nat.le_succ k) (ih (k + 1))
    · exact Nat.le_refl k

theorem le_of_lt_firstAbove (fuel : Nat) {k j : Nat} (hk : k ≤ j) (hj : j < firstAbove f bound fuel k) :
    f j ≤ bound := by
  induction fuel generalizing k with
  | zero => exact absurd hj (Nat.not_lt.mpr hk)
  | succ fuel ih =>
    unfold firstAbove at hj
    split at hj
    · rename_i hle
      rcases Nat.eq_or_lt_of_le hk with rfl | hlt
      · exact hle
      · exact ih hlt hj
    · exact absurd hj (Nat.not_lt.mpr hk)

/-- The search ends above the bound when some index that the fuel reaches is above it. -/
theorem lt_firstAbove {fuel k : Nat} (m : Nat) (hk : k ≤ m) (hm : m ≤ k + fuel) (hf : bound < f m) :
    bound < f (firstAbove f bound fuel k) := by
  induction fuel generalizing k with
  | zero =>
    obtain rfl : m = k := by omega
    exact hf
  | succ fuel ih =>
    unfold firstAbove
    split
    · rename_i hle
      have hne : k ≠ m := by
        rintro rfl
        exact absurd hf (Int.not_lt.mpr hle)
      exact ih (by omega) (by omega)
    · rename_i hlt
      exact Int.not_le.mp hlt

end

section
variable (used : Nat → Bool)

/-- The first used number of `p`, `p + 1`, … up to `count` of them. -/
def firstUsed : Nat → Nat → Option Nat
  | 0, _ => none
  | count + 1, p => if used p then some p else firstUsed count (p + 1)

/-- The first start of `count` free numbers from `p` on and up to `stop`. After a used number
the search goes on behind it. -/
def firstFit (count stop : Nat) : Nat → Nat → Option Nat
  | 0, _ => none
  | fuel + 1, p =>
    if p ≤ stop then
      match firstUsed used count p with
      | none => some p
      | some q => firstFit count stop fuel (q + 1)
    else none

variable {used}

theorem firstUsed_eq_none {count p : Nat} :
    firstUsed used count p = none ↔ ∀ q, p ≤ q → q < p + count → used q = false := by
  induction count generalizing p with
  | zero =>
    refine ⟨fun _ q h₁ h₂ => ?_, fun _ => rfl⟩
    omega
  | succ count ih =>
    unfold firstUsed
    by_cases hp : used p = true
    · rw [if_pos hp]
      refine ⟨fun h => (by cases h), fun h => ?_⟩
      have := h p (Nat.le_refl p) (by omega)
      rw [hp] at this
      cases this
    · rw [if_neg hp, ih]
      refine ⟨fun h q h₁ h₂ => ?_, fun h q h₁ h₂ => h q (by omega) (by omega)⟩
      rcases Nat.eq_or_lt_of_le h₁ with rfl | hlt
      · exact Bool.eq_false_iff.mpr hp
      · exact h q hlt (by omega)

theorem firstUsed_eq_some {count p q : Nat} (h : firstUsed used count p = some q) :
    p ≤ q ∧ q < p + count ∧ used q = true := by
  induction count generalizing p with
  | zero => cases h
  | succ count ih =>
    unfold firstUsed at h
    split at h
    · rename_i hp
      obtain rfl := Option.some.inj h
      exact ⟨Nat.le_refl p, by omega, hp⟩
    · obtain ⟨h₁, h₂, h₃⟩ := ih h
      exact ⟨by omega, by omega, h₃⟩

theorem firstFit_eq_some {count stop fuel p r : Nat} (h : firstFit used count stop fuel p = some r) :
    p ≤ r ∧ r ≤ stop ∧ ∀ q, r ≤ q → q < r + count → used q = false := by
  induction fuel generalizing p with
  | zero => cases h
  | succ fuel ih =>
    unfold firstFit at h
    split at h
    · rename_i hstop
      split at h
      · rename_i hfree
        obtain rfl := Option.some.inj h
        exact ⟨Nat.le_refl p, hstop, firstUsed_eq_none.mp hfree⟩
      · rename_i q hused
        obtain ⟨h₁, h₂, h₃⟩ := ih h
        exact ⟨Nat.le_trans (by have := (firstUsed_eq_some hused).1; omega) h₁, h₂, h₃⟩
    · cases h

/-- The search gives up only when every start is blocked by a used number. -/
theorem firstFit_eq_none {count stop fuel p : Nat} (hfuel : stop < p + fuel)
    (h : firstFit used count stop fuel p = none) {r : Nat} (hp : p ≤ r) (hr : r ≤ stop) :
    ∃ q, r ≤ q ∧ q < r + count ∧ used q = true := by
  induction fuel generalizing p with
  | zero => omega
  | succ fuel ih =>
    unfold firstFit at h
    rw [if_pos (Nat.le_trans hp hr)] at h
    split at h
    · cases h
    · rename_i q hused
      obtain ⟨h₁, h₂, h₃⟩ := firstUsed_eq_some hused
      rcases Nat.lt_or_ge q r with hlt | hge
      · exact ih (by omega) h hlt
      · exact ⟨q, hge, by omega, h₃⟩

/-- What the search finds is the first: every earlier start is blocked by a used number. -/
theorem firstFit_least {count stop fuel p r : Nat} (h : firstFit used count stop fuel p = some r)
    {s : Nat} (hp : p ≤ s) (hs : s < r) : ∃ q, s ≤ q ∧ q < s + count ∧ used q = true := by
  induction fuel generalizing p with
  | zero => cases h
  | succ fuel ih =>
    unfold firstFit at h
    split at h
    · split at h
      · obtain rfl := Option.some.inj h
        omega
      · rename_i q hused
        obtain ⟨h₁, h₂, h₃⟩ := firstUsed_eq_some hused
        rcases Nat.lt_or_ge q s with hlt | hge
        · exact ih h hlt
        · exact ⟨q, hge, by omega, h₃⟩
    · cases h

/-- With fuel for every start the search ends by itself: more fuel changes nothing. -/
theorem firstFit_fuel {count stop fuel p : Nat} (hfuel : stop < p + fuel) (extra : Nat) :
    firstFit used count stop (fuel + extra) p = firstFit used count stop fuel p := by
  induction fuel generalizing p with
  | zero =>
    cases extra with
    | zero => rfl
    | succ extra =>
      rw [Nat.zero_add]
      unfold firstFit
      rw [if_neg (by omega)]
  | succ fuel ih =>
    rw [Nat.add_right_comm]
    unfold firstFit
    split
    · split
      · rfl
      · rename_i q hused
        have hbehind := (firstUsed_eq_some hused).1
        exact ih (by omega)
    · rfl

end

end Search
