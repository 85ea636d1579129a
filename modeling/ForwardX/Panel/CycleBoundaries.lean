import ForwardX.Panel.TrafficCycle

/- The boundaries of traffic cycles (`shared/billingTime.ts`, `billingRepository.ts`). A date of the billing zone is
   rendered as it was built. Whole months behind an anchor a boundary falls on the day of the anchor, or on the last
   one of a shorter month; a short month changes nothing for those after it. The searches end at the first boundary
   that is late enough.

   All of it is about the years from 1992 on. Asia/Shanghai had summer time until September 1991 and another offset
   before 1901, and for these years the fixed offset of `billingCalendarParts` is not that of the zone. -/
namespace ForwardX.Panel
open Calendar

/-- The years in which the billing zone is eight hours ahead of UTC and a `Date` holds every day. -/
def DateYear (year : Int) : Prop := 1992 ≤ year ∧ year < 275760

instance (year : Int) : Decidable (DateYear year) := inferInstanceAs (Decidable (_ ∧ _))

/-- An instant from the first one of 1992 in the billing zone on that a `Date` holds. -/
def RecentDate (t : Int) : Prop := 694195200000 ≤ t ∧ t ≤ 8640000000000000

instance (t : Int) : Decidable (RecentDate t) := inferInstanceAs (Decidable (_ ∧ _))

theorem dateYear_iff {month : Int} : DateYear (month / 12) ↔ 1992 * 12 ≤ month ∧ month < 275760 * 12 := by
  unfold DateYear
  omega

theorem year_parts (t : Int) : (billingCalendarParts t).year = billingMonth t / 12 := rfl

/-- The instants of the months from 1992 on, up to the first one after the years of `DateYear`. -/
theorem recentDate_of_month {t : Int} (hlow : 1992 * 12 ≤ billingMonth t) (hhigh : billingMonth t ≤ 275760 * 12) :
    RecentDate t := by
  have hfirst : monthBegin (1992 * 12) = 694195200000 := by decide +kernel
  have hlast : monthBegin (275760 * 12 + 1) ≤ 8640000000000000 := by decide +kernel
  have hspec := billingMonth_spec t
  have hbegin := monthBegin_mono hlow
  have hend := monthBegin_mono (show billingMonth t + 1 ≤ 275760 * 12 + 1 by omega)
  unfold RecentDate
  omega

/-! ## Dates -/

theorem date_of_toDay (d : BillingDate) : monthOf d.toDay = d.monthIndex ∧ dayOfMonth d.toDay = d.day := by
  have hrange := d.day_range
  have hmonth := d.month_range
  have hlen : d.year * 12 + d.month - 1 = d.monthIndex := by
    unfold BillingDate.monthIndex
    omega
  rw [billingDaysInMonth_eq, hlen] at hrange
  have hnext := monthStart_succ d.monthIndex
  have hsame : monthOf d.toDay = d.monthIndex := by
    apply monthOf_unique
    · unfold BillingDate.toDay
      omega
    · unfold BillingDate.toDay
      omega
  refine ⟨hsame, ?_⟩
  unfold dayOfMonth
  rw [hsame]
  unfold BillingDate.toDay
  omega

theorem parts_ext {a b : BillingCalendarParts} (hyear : a.year = b.year) (hmonth : a.month = b.month)
    (hday : a.day = b.day) (hhour : a.hour = b.hour) (hminute : a.minute = b.minute) (hsecond : a.second = b.second) :
    a = b := by
  obtain ⟨⟨ay, am, ad, _, _⟩, ah, ami, as, _, _, _⟩ := a
  obtain ⟨⟨bY, bm, bd, _, _⟩, bh, bmi, bs, _, _, _⟩ := b
  dsimp only at hyear hmonth hday hhour hminute hsecond
  subst hyear hmonth hday hhour hminute hsecond
  rfl

theorem parts_dateTime (parts : BillingCalendarParts) {millisecond : Int} (h : 0 ≤ millisecond ∧ millisecond < 1000) :
    billingCalendarParts (billingDateTime parts millisecond) = parts := by
  obtain ⟨hmonth, hday⟩ := date_of_toDay parts.toBillingDate
  have hhour := parts.hour_range
  have hminute := parts.minute_range
  have hsecond := parts.second_range
  have hrange := parts.month_range
  have hvalue := billingDateTime_eq parts h
  have hdate : billingDay (billingDateTime parts millisecond) = parts.toDay := by
    rw [hvalue]
    unfold dayStart billingDay
    omega
  have htime : (billingDateTime parts millisecond + billingOffset) % 86400000 =
      parts.hour * 3600000 + parts.minute * 60000 + parts.second * 1000 + millisecond := by
    rw [hvalue]
    unfold dayStart
    omega
  apply parts_ext
  · show monthOf (billingDay _) / 12 = _
    rw [hdate, hmonth]
    unfold BillingDate.monthIndex
    omega
  · show monthOf (billingDay _) % 12 + 1 = _
    rw [hdate, hmonth]
    unfold BillingDate.monthIndex
    omega
  · show dayOfMonth (billingDay _) = _
    rw [hdate, hday]
  · show (billingDateTime parts millisecond + billingOffset) % 86400000 / 3600000 = _
    rw [htime]
    omega
  · show (billingDateTime parts millisecond + billingOffset) % 86400000 % 3600000 / 60000 = _
    rw [htime]
    omega
  · show (billingDateTime parts millisecond + billingOffset) % 86400000 % 60000 / 1000 = _
    rw [htime]
    omega

/-- Dates of the billing zone and instants are the same things: either is read off the other. -/
theorem billing_dates_round_trip :
    (∀ (parts : BillingCalendarParts) (millisecond : Int), DateYear parts.year → 0 ≤ millisecond → millisecond < 1000 →
      RecentDate (billingDateTime parts millisecond) ∧
        billingCalendarParts (billingDateTime parts millisecond) = parts ∧
        billingDateTime parts millisecond % 1000 = millisecond) ∧
    ∀ t : Int, DateYear (billingCalendarParts t).year →
      RecentDate t ∧ billingDateTime (billingCalendarParts t) (t % 1000) = t := by
  have hrecent : ∀ t : Int, DateYear (billingCalendarParts t).year → RecentDate t := by
    intro t ht
    rw [year_parts, dateYear_iff] at ht
    exact recentDate_of_month ht.1 ht.2.le
  constructor
  · intro parts millisecond hyear hlow hhigh
    have hsame := parts_dateTime parts ⟨hlow, hhigh⟩
    refine ⟨hrecent _ (hsame.symm ▸ hyear), hsame, ?_⟩
    have hstart := dayStart_second parts.toDay
    rw [billingDateTime_eq parts ⟨hlow, hhigh⟩]
    omega
  · intro t hyear
    refine ⟨hrecent t hyear, ?_⟩
    have hrendered := rendered_eq t (t % 1000)
    rw [dateUTC_eq] at hrendered
    rw [billingDateTime_eq _ ⟨by omega, by omega⟩]
    unfold dayStart
    omega

/-- A quarter of a minute past half past twelve, on the leap day of 2024. -/
def leapDay : BillingCalendarParts where
  year := 2024
  month := 2
  day := 29
  hour := 12
  minute := 30
  second := 15
  month_range := by decide
  day_range := by decide +kernel
  hour_range := by decide
  minute_range := by decide
  second_range := by decide

theorem leap_day_round_trip :
    billingDateTime leapDay 500 = 1709181015500 ∧ billingCalendarParts (billingDateTime leapDay 500) = leapDay ∧
      billingDateTime (billingCalendarParts 1709181015500) 500 = 1709181015500 :=
  ⟨by decide +kernel, (billing_dates_round_trip.1 leapDay 500 (by decide) (by decide) (by decide)).2.1,
    (billing_dates_round_trip.2 1709181015500 (by decide +kernel)).2⟩

/-! ## Boundaries -/

theorem parts_dayStart (d : Int) : (billingCalendarParts (dayStart d)).hour = 0 ∧
    (billingCalendarParts (dayStart d)).minute = 0 ∧ (billingCalendarParts (dayStart d)).second = 0 := by
  have htime : (dayStart d + billingOffset) % 86400000 = 0 := by
    unfold dayStart
    omega
  refine ⟨?_, ?_, ?_⟩
  · show (dayStart d + billingOffset) % 86400000 / 3600000 = 0
    rw [htime]
    rfl
  · show (dayStart d + billingOffset) % 86400000 % 3600000 / 60000 = 0
    rw [htime]
    rfl
  · show (dayStart d + billingOffset) % 86400000 % 60000 / 1000 = 0
    rw [htime]
    rfl

/-- An instant at midnight of a day of a month, or of the last day of a shorter one. -/
structure OnDay (t month day : Int) : Prop where
  month : billingMonth t = month
  day : (billingCalendarParts t).day =
    min day (billingDaysInMonth (billingCalendarParts t).year (billingCalendarParts t).month)
  midnight : (billingCalendarParts t).hour = 0 ∧ (billingCalendarParts t).minute = 0 ∧ (billingCalendarParts t).second = 0

theorem onDay_dayStart (month : Int) {day : Int} (h : 1 ≤ day) :
    OnDay (dayStart (monthStart month + min day (daysInMonth month) - 1)) month day := by
  have hbounds := daysInMonth_bounds month
  have hnext := monthStart_succ month
  have hmonth : monthOf (monthStart month + min day (daysInMonth month) - 1) = month := by
    apply monthOf_unique
    · omega
    · omega
  have hindex : billingMonth (dayStart (monthStart month + min day (daysInMonth month) - 1)) = month := by
    unfold billingMonth
    rw [billingDay_dayStart, hmonth]
  refine ⟨hindex, ?_, parts_dayStart _⟩
  rw [billingDaysInMonth_eq, monthIndex_parts, hindex]
  show dayOfMonth (billingDay _) = _
  unfold dayOfMonth
  rw [billingDay_dayStart, hmonth]
  omega

theorem onDay_afterMonths (anchor : Int) (k : Int) :
    OnDay (startOfDayAfterMonths anchor k) (billingMonth anchor + k) (billingCalendarParts anchor).day := by
  unfold startOfDayAfterMonths
  rw [billingStartOfCalendarDay_eq, billingDay_addMonthsClamped]
  exact onDay_dayStart _ (billingCalendarParts anchor).day_range.1

theorem onDay_boundary (t resetDay k : Int) :
    OnDay (billingMonthlyBoundary t resetDay k) (billingMonth t + k) (min (max 1 (if resetDay = 0 then 1 else resetDay)) 28) := by
  rw [boundary_eq]
  exact onDay_dayStart _ (by omega)

theorem lt_of_months {t t' month month' day day' : Int} (h : OnDay t month day) (h' : OnDay t' month' day')
    (hlt : month < month') : t < t' := by
  have hlow := (billingMonth_spec t').1
  have hhigh := (billingMonth_spec t).2
  rw [h'.month] at hlow
  rw [h.month] at hhigh
  have hmono := monthBegin_mono (show month + 1 ≤ month' by omega)
  omega

def beforeExpiry (boundary : Int) (expiresAt : Option Int) : Option Int :=
  if ∀ e ∈ expiresAt, boundary < e then some boundary else none

theorem boundTrafficResetAt_some (boundary : Int) (expiresAt : Option Int) :
    boundTrafficResetAt (some boundary) expiresAt = beforeExpiry boundary expiresAt := by
  unfold boundTrafficResetAt beforeExpiry
  cases expiresAt with
  | none => simp
  | some e =>
    by_cases h : boundary < e
    · simp [h]
    · have hle := Int.not_lt.mp h
      simpa [h] using hle

/-- The boundaries behind an anchor keep its day, and the search for the next one finds the first that is later
than the reference. -/
theorem anchored_boundaries_do_not_drift (anchor : Int) (hanchor : DateYear (billingCalendarParts anchor).year) :
    (∀ k : Nat, DateYear ((billingMonth anchor + k) / 12) →
      OnDay (startOfDayAfterMonths anchor k) (billingMonth anchor + k) (billingCalendarParts anchor).day ∧
        RecentDate (startOfDayAfterMonths anchor k) ∧
        ∀ j < k, startOfDayAfterMonths anchor j < startOfDayAfterMonths anchor k) ∧
    ∀ (reference : Int) (expiresAt : Option Int), DateYear (billingCalendarParts reference).year → ∃ k : Nat, 1 ≤ k ∧
      nextAnchoredSubscriptionTrafficReset anchor reference expiresAt =
        beforeExpiry (startOfDayAfterMonths anchor k) expiresAt ∧
      RecentDate (startOfDayAfterMonths anchor k) ∧
      reference < startOfDayAfterMonths anchor k ∧
      ∀ j : Nat, 1 ≤ j → reference < startOfDayAfterMonths anchor j → k ≤ j := by
  rw [year_parts, dateYear_iff] at hanchor
  have hmonth : ∀ k : Nat, billingMonth (startOfDayAfterMonths anchor k) = billingMonth anchor + k :=
    fun k => (onDay_afterMonths anchor k).month
  refine ⟨fun k hk => ⟨onDay_afterMonths anchor k, ?_, fun j hj => ?_⟩, fun reference expiresAt hyear => ?_⟩
  · have hk' := dateYear_iff.mp hk
    exact recentDate_of_month (by rw [hmonth]; omega) (by rw [hmonth]; omega)
  · exact lt_of_months (onDay_afterMonths anchor j) (onDay_afterMonths anchor k) (by omega)
  · rw [year_parts, dateYear_iff] at hyear
    have hanchorMonth := monthIndex_parts anchor
    have hreference := monthIndex_parts reference
    generalize hmonths : max 1 (((billingCalendarParts reference).year - (billingCalendarParts anchor).year) * 12 +
      (billingCalendarParts reference).month - (billingCalendarParts anchor).month) = delta
    have hpos : 1 ≤ delta := by omega
    have hreach : billingMonth reference ≤ billingMonth anchor + delta := by omega
    have hexact : 1 < delta → billingMonth anchor + delta = billingMonth reference := by omega
    have hspec := billingMonth_spec reference
    generalize hfound : Search.firstAbove (fun k : Nat => startOfDayAfterMonths anchor (delta + k)) reference 1 0 = found
    have hsame : ((delta.toNat + found : Nat) : Int) = delta + found := by omega
    -- the boundary of the month after the reference is later than it
    have hlater : reference < startOfDayAfterMonths anchor (delta + found) := by
      rw [← hfound]
      apply Search.lt_firstAbove (fun k : Nat => startOfDayAfterMonths anchor (delta + k)) reference 1 (by omega) (by omega)
      have hbounds := (monthly_bounds anchor (delta + (1 : Nat))).1
      have hmono := monthBegin_mono
        (show billingMonth reference + 1 ≤ billingMonth anchor + (delta + (1 : Nat)) by omega)
      unfold startOfDayAfterMonths
      omega
    -- the boundary before the one found lies no later than in the month of the reference
    have hprevious : found ≠ 0 → billingMonth anchor + delta + found ≤ billingMonth reference + 1 := by
      intro hne
      have hle := Search.le_of_lt_firstAbove (fun k : Nat => startOfDayAfterMonths anchor (delta + k)) reference 1
        (k := 0) (j := found - 1) (by omega) (by omega)
      have hbounds := (monthly_bounds anchor (delta + (found - 1 : Nat))).1
      by_contra hgt
      have hmono := monthBegin_mono
        (show billingMonth reference + 1 ≤ billingMonth anchor + (delta + (found - 1 : Nat)) by omega)
      unfold startOfDayAfterMonths at hle
      omega
    refine ⟨delta.toNat + found, by omega, ?_, ?_, ?_, fun j hj hlate => ?_⟩
    · unfold nextAnchoredSubscriptionTrafficReset
      dsimp only
      rw [hmonths, hfound, boundTrafficResetAt_some, hsame]
    · apply recentDate_of_month
      · rw [hmonth]
        omega
      · rw [hmonth, hsame]
        by_cases hzero : found = 0
        · rcases Int.lt_or_eq_of_le hpos with hone | hone <;> omega
        · have := hprevious hzero
          omega
    · rw [hsame]
      exact hlater
    · by_contra hlt
      by_cases hbefore : (j : Int) < delta
      · -- the boundaries before the first candidate lie in months before that of the reference
        have hbounds := (monthly_bounds anchor j).2
        have hmono := monthBegin_mono (show billingMonth anchor + j + 1 ≤ billingMonth reference by omega)
        unfold startOfDayAfterMonths at hlate
        omega
      · have hle := Search.le_of_lt_firstAbove (fun k : Nat => startOfDayAfterMonths anchor (delta + k)) reference 1
          (k := 0) (j := j - delta.toNat) (by omega) (by omega)
        have hindex : delta + ((j - delta.toNat : Nat) : Int) = j := by omega
        rw [hindex] at hle
        omega

/-- A subscription from the last day of January 2024 on: its second boundary is the last day of March. -/
theorem january_boundaries_do_not_drift :
    (billingCalendarParts (startOfDayAfterMonths 1706630400000 (2 : Nat))).day = 31 ∧ ∃ k : Nat, 1 ≤ k ∧
      nextAnchoredSubscriptionTrafficReset 1706630400000 1706630400000 none =
        beforeExpiry (startOfDayAfterMonths 1706630400000 k) none ∧
      1706630400000 < startOfDayAfterMonths 1706630400000 k ∧
      ∀ j : Nat, 1 ≤ j → 1706630400000 < startOfDayAfterMonths 1706630400000 j → k ≤ j := by
  obtain ⟨hboundaries, hsearch⟩ := anchored_boundaries_do_not_drift 1706630400000 (by decide +kernel)
  refine ⟨?_, ?_⟩
  · rw [(hboundaries 2 (by decide +kernel)).1.day]
    decide +kernel
  · obtain ⟨k, hk, hnext, -, hlater, hfirst⟩ := hsearch 1706630400000 none (by decide +kernel)
    exact ⟨k, hk, hnext, hlater, hfirst⟩

theorem resetDay_boundary (user : User) (reference : Int) (k : Nat) :
    OnDay (billingMonthlyBoundary reference user.resetDay k) (billingMonth reference + k) user.resetDay ∧
      (billingCalendarParts (billingMonthlyBoundary reference user.resetDay k)).day = user.resetDay := by
  have hday : min (max 1 (if user.resetDay = 0 then 1 else user.resetDay)) 28 = user.resetDay := by
    unfold User.resetDay
    omega
  have honDay := onDay_boundary reference user.resetDay k
  rw [hday] at honDay
  refine ⟨honDay, ?_⟩
  have hlength := (daysInMonth_bounds (billingMonth (billingMonthlyBoundary reference user.resetDay k))).1
  rw [honDay.day, billingDaysInMonth_eq, monthIndex_parts]
  unfold User.resetDay at *
  omega

/-- The search for the next reset of a user with a reset day finds the first boundary, from the month of the reference
on, that is later than the start of the subscription and than what was settled. -/
theorem next_configured_is_first (user : User) (startedAt reference : Int) (lastTrafficResetAt expiresAt : Option Int)
    (hreference : DateYear (billingCalendarParts reference).year)
    (hlast : DateYear (billingCalendarParts (max startedAt (lastTrafficResetAt.getD startedAt))).year) : ∃ k : Nat,
      nextConfiguredSubscriptionTrafficReset user startedAt lastTrafficResetAt reference expiresAt =
        beforeExpiry (billingMonthlyBoundary reference user.resetDay k) expiresAt ∧
      (∀ j : Nat, j < k ↔ billingMonthlyBoundary reference user.resetDay j ≤ max startedAt (lastTrafficResetAt.getD startedAt)) ∧
      ∀ j ≤ k, RecentDate (billingMonthlyBoundary reference user.resetDay j) ∧
        billingMonth (billingMonthlyBoundary reference user.resetDay j) = billingMonth reference + j ∧
        (billingCalendarParts (billingMonthlyBoundary reference user.resetDay j)).day = user.resetDay := by
  rw [year_parts, dateYear_iff] at hreference hlast
  generalize hhandled : max startedAt (lastTrafficResetAt.getD startedAt) = handledThrough at hlast ⊢
  generalize hfuel : (billingMonth handledThrough + 1 - billingMonth reference).toNat = fuel
  generalize hfound : Search.firstAbove (fun k : Nat => billingMonthlyBoundary reference user.resetDay k) handledThrough
    fuel 0 = found
  have hlater : handledThrough < billingMonthlyBoundary reference user.resetDay found := by
    rw [← hfound]
    apply Search.lt_firstAbove (fun k : Nat => billingMonthlyBoundary reference user.resetDay k) handledThrough fuel
      (by omega) (by omega)
    have hmonth := (billingMonth_spec handledThrough).2
    have hnext := (boundary_bounds reference user.resetDay fuel).1
    have hmono := monthBegin_mono (show billingMonth handledThrough + 1 ≤ billingMonth reference + fuel by omega)
    omega
  have hmonth : ∀ j : Nat, billingMonth (billingMonthlyBoundary reference user.resetDay j) = billingMonth reference + j :=
    fun j => (resetDay_boundary user reference j).1.month
  have hpassed : ∀ j < found, billingMonthlyBoundary reference user.resetDay j ≤ handledThrough := by
    intro j hj
    exact Search.le_of_lt_firstAbove (fun k : Nat => billingMonthlyBoundary reference user.resetDay k) handledThrough fuel
      (Nat.zero_le j) (hfound ▸ hj)
  -- the boundary before the one found lies no later than in the last month that was handled
  have hnear : found ≠ 0 → billingMonth reference + found ≤ billingMonth handledThrough + 1 := by
    intro hne
    have hle := hpassed (found - 1) (by omega)
    have hbegin := (boundary_bounds reference user.resetDay (found - 1 : Nat)).1
    have hend := (billingMonth_spec handledThrough).2
    by_contra hgt
    have hmono := monthBegin_mono
      (show billingMonth handledThrough + 1 ≤ billingMonth reference + (found - 1 : Nat) by omega)
    omega
  refine ⟨found, ?_, fun j => ⟨hpassed j, fun hle => ?_⟩, fun j hj => ⟨?_, hmonth j, (resetDay_boundary user reference j).2⟩⟩
  · unfold nextConfiguredSubscriptionTrafficReset
    dsimp only
    rw [hhandled, hfuel, hfound, boundTrafficResetAt_some]
  · by_contra hge
    rcases Nat.eq_or_lt_of_le (Nat.not_lt.mp hge) with rfl | hlt
    · omega
    · -- a later boundary than one that is late enough
      have hlt' := lt_of_months (resetDay_boundary user reference found).1 (resetDay_boundary user reference j).1 (by omega)
      omega
  · apply recentDate_of_month
    · rw [hmonth]
      omega
    · rw [hmonth]
      by_cases hzero : found = 0
      · omega
      · have := hnear hzero
        omega

/-- The same subscription of a user with the 15th as reset day, looked at in May. -/
theorem next_configured_in_may : ∃ k : Nat,
    nextConfiguredSubscriptionTrafficReset ⟨1, true, 15, 0, 0, none, none⟩ 1706630400000 (some 1715702400000) 1715000000000
        none = beforeExpiry (billingMonthlyBoundary 1715000000000 15 k) none ∧
    (∀ j : Nat, j < k ↔ billingMonthlyBoundary 1715000000000 15 j ≤ 1715702400000) ∧
    ∀ j ≤ k, RecentDate (billingMonthlyBoundary 1715000000000 15 j) ∧
      billingMonth (billingMonthlyBoundary 1715000000000 15 j) = billingMonth 1715000000000 + j ∧
      (billingCalendarParts (billingMonthlyBoundary 1715000000000 15 j)).day = 15 :=
  next_configured_is_first ⟨1, true, 15, 0, 0, none, none⟩ 1706630400000 1715000000000 (some 1715702400000) none
    (by decide +kernel) (by decide +kernel)

end ForwardX.Panel
