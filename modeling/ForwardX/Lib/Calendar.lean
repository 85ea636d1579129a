import Mathlib.Tactic.IntervalCases
import Mathlib.Data.Int.Basic
import ForwardX.Lib.Search

/- The proleptic Gregorian calendar, in days since 1970-01-01 and in months since January of
   the year 0. The years are counted from March, so that a leap day is the last of its year,
   and repeat in eras of 400 years. -/
namespace Calendar

/-- Days from March 1st of the year 0 to March 1st of the year `y`. -/
def daysBeforeYear (y : Int) : Int := 365 * y + y / 4 - y / 100 + y / 400

def monthStart (m : Int) : Int :=
  daysBeforeYear ((m - 2) / 12) + (153 * ((m - 2) % 12) + 2) / 5 - 719468

/-- The month of a day: the era by division, and the month in the era by a search. -/
def monthOf (d : Int) : Int :=
  let era := (d + 719468) / 146097
  let doe := (d + 719468) % 146097
  4800 * era + Search.firstAbove (fun k => monthStart (k + 3) + 719468) doe 4800 (doe.toNat / 31) + 2

def dayOfMonth (d : Int) : Int := d - monthStart (monthOf d) + 1

def isLeapYear (y : Int) : Bool := y % 4 = 0 && (y % 100 ≠ 0 || y % 400 = 0)

def daysInMonth (m : Int) : Int := monthStart (m + 1) - monthStart m

/-! ## Months have the lengths of the Gregorian calendar -/

theorem daysBeforeYear_succ (y : Int) :
    daysBeforeYear (y + 1) - daysBeforeYear y = if isLeapYear (y + 1) then 366 else 365 := by
  have h4 : (y + 1) / 4 = y / 4 + if (y + 1) % 4 = 0 then 1 else 0 := by omega
  have h100 : (y + 1) / 100 = y / 100 + if (y + 1) % 100 = 0 then 1 else 0 := by omega
  have h400 : (y + 1) / 400 = y / 400 + if (y + 1) % 400 = 0 then 1 else 0 := by omega
  unfold daysBeforeYear isLeapYear
  rw [h4, h100, h400]
  simp only [Bool.and_eq_true, Bool.or_eq_true, decide_eq_true_eq]
  split_ifs <;> omega

theorem daysInMonth_eq (m : Int) :
    daysInMonth m =
      if m % 12 = 1 then (if isLeapYear (m / 12) then 29 else 28)
      else if m % 12 = 3 ∨ m % 12 = 5 ∨ m % 12 = 8 ∨ m % 12 = 10 then 30 else 31 := by
  have hsucc := daysBeforeYear_succ ((m - 2) / 12)
  unfold daysInMonth monthStart
  by_cases hfeb : m % 12 = 1
  · -- the year from March ends
    have hyear : (m + 1 - 2) / 12 = (m - 2) / 12 + 1 := by omega
    have hleap : (m - 2) / 12 + 1 = m / 12 := by omega
    rw [if_pos hfeb, hyear, ← hleap]
    split at hsucc
    · rename_i h
      rw [if_pos h]
      omega
    · rename_i h
      rw [if_neg h]
      omega
  · have hyear : (m + 1 - 2) / 12 = (m - 2) / 12 := by omega
    have hmonth : (m + 1 - 2) % 12 = (m - 2) % 12 + 1 := by omega
    have hmod : m % 12 = ((m - 2) % 12 + 2) % 12 := by omega
    have h0 : 0 ≤ (m - 2) % 12 := Int.emod_nonneg _ (by decide)
    have h1 : (m - 2) % 12 < 11 := by omega
    rw [if_neg hfeb, hyear, hmonth, hmod]
    -- the eleven months whose successor is in the same year from March
    generalize (m - 2) % 12 = p at h0 h1
    interval_cases p <;> simp

theorem daysInMonth_bounds (m : Int) : 28 ≤ daysInMonth m ∧ daysInMonth m ≤ 31 := by
  rw [daysInMonth_eq]
  split_ifs <;> omega

theorem monthStart_succ (m : Int) : monthStart (m + 1) = monthStart m + daysInMonth m := by
  unfold daysInMonth
  omega

theorem monthStart_add (m : Int) (k : Nat) :
    monthStart m + 28 * k ≤ monthStart (m + k) ∧ monthStart (m + k) ≤ monthStart m + 31 * k := by
  induction k with
  | zero => simp
  | succ k ih =>
    have hsucc := monthStart_succ (m + k)
    have hbounds := daysInMonth_bounds (m + k)
    rw [Int.natCast_succ, ← Int.add_assoc]
    omega

theorem monthStart_mono {m n : Int} (h : m ≤ n) : monthStart m ≤ monthStart n := by
  obtain ⟨k, rfl⟩ := Int.le.dest h
  have := (monthStart_add m k).1
  omega

/-! ## The month of a day -/

theorem monthStart_era (e m : Int) : monthStart (4800 * e + m) = 146097 * e + monthStart m := by
  unfold monthStart daysBeforeYear
  have hyear : (4800 * e + m - 2) / 12 = 400 * e + (m - 2) / 12 := by omega
  have hmonth : (4800 * e + m - 2) % 12 = (m - 2) % 12 := by omega
  rw [hyear, hmonth]
  omega

theorem monthOf_spec (d : Int) : monthStart (monthOf d) ≤ d ∧ d < monthStart (monthOf d + 1) := by
  have hera := Int.emod_add_mul_ediv (d + 719468) 146097
  have h0 : 0 ≤ (d + 719468) % 146097 := Int.emod_nonneg _ (by decide)
  have h1 : (d + 719468) % 146097 < 146097 := Int.emod_lt_of_pos _ (by decide)
  unfold monthOf
  generalize (d + 719468) / 146097 = era at *
  generalize (d + 719468) % 146097 = doe at *
  have hmarch : monthStart 2 = -719468 := by decide
  generalize hk : Search.firstAbove (fun k => monthStart (k + 3) + 719468) doe 4800 (doe.toNat / 31) = k
  -- the search ends above the day, and what is below its end is not above the day
  have habove : doe < monthStart (k + 3) + 719468 := by
    rw [← hk]
    have hlast : monthStart ((4799 : Nat) + 3) + 719468 = 146097 := by decide
    exact Search.lt_firstAbove (fun k => monthStart (k + 3) + 719468) doe 4799 (by omega) (by omega)
      (by rw [hlast]; exact h1)
  have hbelow : monthStart (k + 2) + 719468 ≤ doe := by
    have hstart : doe.toNat / 31 ≤ k := hk ▸ Search.le_firstAbove _ doe 4800 (doe.toNat / 31)
    rcases Nat.eq_or_lt_of_le hstart with heq | hlt
    · have := (monthStart_add 2 k).2
      rw [Int.add_comm 2] at this
      omega
    · obtain ⟨j, rfl⟩ : ∃ j, k = j + 1 := ⟨k - 1, by omega⟩
      have hj := Search.le_of_lt_firstAbove (fun k => monthStart (k + 3) + 719468) doe 4800
        (Nat.le_of_lt_succ hlt) (by rw [hk]; exact Nat.lt_succ_self j)
      rw [Int.natCast_succ, Int.add_assoc]
      exact hj
  have hs : monthStart (4800 * era + k + 2) = 146097 * era + monthStart (k + 2) := by
    rw [Int.add_assoc, monthStart_era]
  have hs' : monthStart (4800 * era + k + 2 + 1) = 146097 * era + monthStart (k + 3) := by
    rw [Int.add_assoc, Int.add_assoc, monthStart_era]
    rfl
  dsimp only
  rw [hk, hs, hs']
  constructor <;> omega

theorem monthOf_unique {d m : Int} (h₁ : monthStart m ≤ d) (h₂ : d < monthStart (m + 1)) :
    monthOf d = m := by
  obtain ⟨hle, hlt⟩ := monthOf_spec d
  rcases lt_trichotomy (monthOf d) m with h | h | h
  · have := monthStart_mono (Int.add_one_le_of_lt h)
    omega
  · exact h
  · have := monthStart_mono (Int.add_one_le_of_lt h)
    omega

theorem dayOfMonth_bounds (d : Int) : 1 ≤ dayOfMonth d ∧ dayOfMonth d ≤ daysInMonth (monthOf d) := by
  obtain ⟨hle, hlt⟩ := monthOf_spec d
  unfold dayOfMonth daysInMonth
  constructor <;> omega

theorem monthStart_add_dayOfMonth (d : Int) : monthStart (monthOf d) + dayOfMonth d - 1 = d := by
  unfold dayOfMonth
  omega

end Calendar
