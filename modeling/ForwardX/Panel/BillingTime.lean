import ForwardX.Lib.Calendar

/- Billing time (`shared/billingTime.ts`). Instants are milliseconds since 1970 UTC, as in a
   `Date`. The billing zone is Asia/Shanghai. It has been eight hours ahead of UTC since
   September 1991, and the dates of the panel's clock are all later; before that it had summer
   time and other offsets, which are left out. The loop of `billingDateTime` makes no use of
   a fixed offset. -/
namespace ForwardX.Panel
open Calendar

/-- `Date.UTC`, of a month from 0. Out of range months and days carry over. -/
def dateUTC (year month day hour minute second millisecond : Int) : Int :=
  (monthStart (year * 12 + month) + day - 1) * 86400000 +
    hour * 3600000 + minute * 60000 + second * 1000 + millisecond

def billingOffset : Int := 28800000

def billingDay (t : Int) : Int := (t + billingOffset) / 86400000

def billingMonth (t : Int) : Int := monthOf (billingDay t)

/-- `new Date(Date.UTC(year, month, 0)).getUTCDate()`. -/
def billingDaysInMonth (year month : Int) : Int :=
  dayOfMonth (dateUTC year month 0 0 0 0 0 / 86400000)

theorem billingDaysInMonth_eq (year month : Int) :
    billingDaysInMonth year month = daysInMonth (year * 12 + month - 1) := by
  have hday : dateUTC year month 0 0 0 0 0 / 86400000 = monthStart (year * 12 + month) - 1 := by
    unfold dateUTC
    omega
  have hlen := monthStart_succ (year * 12 + month - 1)
  have hbounds := daysInMonth_bounds (year * 12 + month - 1)
  rw [Int.sub_add_cancel] at hlen
  have hmonth : monthOf (monthStart (year * 12 + month) - 1) = year * 12 + month - 1 := by
    apply monthOf_unique
    · omega
    · rw [Int.sub_add_cancel]
      omega
  unfold billingDaysInMonth dayOfMonth
  rw [hday, hmonth]
  omega

/-- A date of the calendar. The range checks of `billingDateTime` are its fields. -/
structure BillingDate where
  year : Int
  month : Int
  day : Int
  month_range : 1 ≤ month ∧ month ≤ 12
  day_range : 1 ≤ day ∧ day ≤ billingDaysInMonth year month

structure BillingCalendarParts extends BillingDate where
  hour : Int
  minute : Int
  second : Int
  hour_range : 0 ≤ hour ∧ hour ≤ 23
  minute_range : 0 ≤ minute ∧ minute ≤ 59
  second_range : 0 ≤ second ∧ second ≤ 59

/-- The day `day` of the month `monthIndex`, or the last one of a shorter month. -/
def BillingDate.ofMonthIndex (monthIndex day : Int) (h : 1 ≤ day) : BillingDate :=
  let year := monthIndex / 12
  let month := monthIndex - year * 12 + 1
  { year := year
    month := month
    day := min day (billingDaysInMonth year month)
    month_range := by omega
    day_range := by
      have hlen := (daysInMonth_bounds (year * 12 + month - 1)).1
      rw [billingDaysInMonth_eq]
      omega }

def BillingDate.monthIndex (d : BillingDate) : Int := d.year * 12 + (d.month - 1)

def BillingDate.toDay (d : BillingDate) : Int := monthStart d.monthIndex + d.day - 1

/-- `billingCalendarParts`: what the formatter of the billing zone prints of an instant from 1992
on. -/
def billingCalendarParts (value : Int) : BillingCalendarParts :=
  let date := billingDay value
  let time := (value + billingOffset) % 86400000
  { year := monthOf date / 12
    month := monthOf date % 12 + 1
    day := dayOfMonth date
    hour := time / 3600000
    minute := time % 3600000 / 60000
    second := time % 60000 / 1000
    month_range := by omega
    day_range := by
      have hmonth : monthOf date / 12 * 12 + (monthOf date % 12 + 1) - 1 = monthOf date := by omega
      rw [billingDaysInMonth_eq, hmonth]
      exact dayOfMonth_bounds date
    hour_range := by omega
    minute_range := by omega
    second_range := by omega }

/-- The loop of `billingDateTime`: move the candidate by as much as it is rendered off. -/
def adjustCandidate (targetWallClockMs millisecond : Int) : Nat → Int → Int
  | 0, candidateMs => candidateMs
  | attempts + 1, candidateMs =>
    let rendered := billingCalendarParts candidateMs
    let renderedWallClockMs := dateUTC rendered.year (rendered.month - 1) rendered.day rendered.hour
      rendered.minute rendered.second millisecond
    let adjustmentMs := targetWallClockMs - renderedWallClockMs
    if adjustmentMs = 0 then candidateMs + adjustmentMs
    else adjustCandidate targetWallClockMs millisecond attempts (candidateMs + adjustmentMs)

def billingDateTime (parts : BillingCalendarParts) (millisecond : Int) : Int :=
  let targetWallClockMs := dateUTC parts.year (parts.month - 1) parts.day parts.hour parts.minute
    parts.second millisecond
  adjustCandidate targetWallClockMs millisecond 4 targetWallClockMs

def billingStartOfDay (date : BillingDate) : Int :=
  billingDateTime { date with
    hour         := 0
    minute       := 0
    second       := 0
    hour_range   := by decide
    minute_range := by decide
    second_range := by decide } 0

def billingStartOfCalendarDay (value : Int) : Int :=
  billingStartOfDay (billingCalendarParts value).toBillingDate

def billingAddMonthsClamped (value months : Int) : Int :=
  let current := billingCalendarParts value
  let monthIndex := current.year * 12 + current.month - 1 + months
  billingDateTime { current with
    toBillingDate := BillingDate.ofMonthIndex monthIndex current.day current.day_range.1 } (value % 1000)

/-- `billingMonthlyBoundary`, with its default of 28 for the last day allowed. -/
def billingMonthlyBoundary (reference resetDay monthOffset : Int) : Int :=
  let current := billingCalendarParts reference
  let monthIndex := current.year * 12 + current.month - 1 + monthOffset
  let requested := max 1 (if resetDay = 0 then 1 else resetDay)
  billingStartOfDay (BillingDate.ofMonthIndex monthIndex (min requested 28) (by omega))

/-! ## What the functions compute -/

def dayStart (d : Int) : Int := d * 86400000 - billingOffset

def monthBegin (m : Int) : Int := dayStart (monthStart m)

theorem dayStart_billingDay (t : Int) :
    dayStart (billingDay t) ≤ t ∧ t < dayStart (billingDay t + 1) := by
  unfold dayStart billingDay
  constructor <;> omega

theorem dayStart_mono {d d' : Int} (h : d ≤ d') : dayStart d ≤ dayStart d' := by
  unfold dayStart
  omega

@[simp] theorem billingDay_dayStart (d : Int) : billingDay (dayStart d) = d := by
  unfold dayStart billingDay
  omega

theorem dayStart_second (d : Int) : dayStart d % 1000 = 0 := by
  unfold dayStart billingOffset
  omega

theorem monthBegin_mono {m m' : Int} (h : m ≤ m') : monthBegin m ≤ monthBegin m' :=
  dayStart_mono (monthStart_mono h)

theorem billingMonth_spec (t : Int) :
    monthBegin (billingMonth t) ≤ t ∧ t < monthBegin (billingMonth t + 1) := by
  obtain ⟨hle, hlt⟩ := monthOf_spec (billingDay t)
  obtain ⟨hle', hlt'⟩ := dayStart_billingDay t
  have h₁ := dayStart_mono hle
  have h₂ := dayStart_mono (Int.add_one_le_of_lt hlt)
  unfold monthBegin billingMonth
  constructor <;> omega

theorem BillingDate.toDay_ofMonthIndex (m day : Int) (h : 1 ≤ day) :
    (BillingDate.ofMonthIndex m day h).toDay = monthStart m + min day (daysInMonth m) - 1 := by
  have hindex : m / 12 * 12 + (m - m / 12 * 12 + 1 - 1) = m := by omega
  have hlen : m / 12 * 12 + (m - m / 12 * 12 + 1) - 1 = m := by omega
  unfold toDay monthIndex ofMonthIndex
  dsimp only
  rw [hindex, billingDaysInMonth_eq, hlen]

theorem BillingDate.toDay_parts (t : Int) : (billingCalendarParts t).toDay = billingDay t := by
  have hindex : monthOf (billingDay t) / 12 * 12 + (monthOf (billingDay t) % 12 + 1 - 1) =
      monthOf (billingDay t) := by omega
  unfold toDay monthIndex billingCalendarParts
  dsimp only
  rw [hindex, monthStart_add_dayOfMonth]

theorem monthIndex_parts (t : Int) :
    (billingCalendarParts t).year * 12 + (billingCalendarParts t).month - 1 = billingMonth t := by
  unfold billingCalendarParts billingMonth
  dsimp only
  omega

theorem dateUTC_eq (d : BillingDate) (hour minute second millisecond : Int) :
    dateUTC d.year (d.month - 1) d.day hour minute second millisecond =
      d.toDay * 86400000 + hour * 3600000 + minute * 60000 + second * 1000 + millisecond := rfl

/-- An instant is rendered eight hours ahead, without its milliseconds. -/
theorem rendered_eq (t millisecond : Int) :
    dateUTC (billingCalendarParts t).year ((billingCalendarParts t).month - 1)
        (billingCalendarParts t).day (billingCalendarParts t).hour (billingCalendarParts t).minute
        (billingCalendarParts t).second millisecond =
      t + billingOffset - t % 1000 + millisecond := by
  rw [dateUTC_eq, BillingDate.toDay_parts]
  unfold billingCalendarParts billingDay billingOffset
  dsimp only
  omega

theorem billingDateTime_eq (parts : BillingCalendarParts) {millisecond : Int}
    (h : 0 ≤ millisecond ∧ millisecond < 1000) :
    billingDateTime parts millisecond = dayStart parts.toDay + parts.hour * 3600000 +
      parts.minute * 60000 + parts.second * 1000 + millisecond := by
  have hoff : billingOffset % 1000 = 0 := by decide
  have hne : billingOffset ≠ 0 := by decide
  unfold billingDateTime
  rw [dateUTC_eq]
  generalize htarget : parts.toDay * 86400000 + parts.hour * 3600000 + parts.minute * 60000 +
    parts.second * 1000 + millisecond = target
  have hms : target % 1000 = millisecond := by omega
  have hms' : (target - billingOffset) % 1000 = millisecond := by omega
  -- the first attempt is eight hours off, the second is right
  have hfirst : target - (target + billingOffset - target % 1000 + millisecond) = -billingOffset := by
    omega
  have hsecond : target - (target + -billingOffset + billingOffset -
      (target + -billingOffset) % 1000 + millisecond) = 0 := by
    omega
  simp only [adjustCandidate, rendered_eq, hfirst, hsecond, if_true]
  rw [if_neg (by omega)]
  unfold dayStart
  omega

@[simp] theorem billingStartOfDay_eq (date : BillingDate) :
    billingStartOfDay date = dayStart date.toDay := by
  unfold billingStartOfDay
  rw [billingDateTime_eq _ (by decide)]
  simp

@[simp] theorem billingStartOfCalendarDay_eq (t : Int) :
    billingStartOfCalendarDay t = dayStart (billingDay t) := by
  unfold billingStartOfCalendarDay
  rw [billingStartOfDay_eq, BillingDate.toDay_parts]

/-- Adding months keeps the day of the month, or takes the last one of a shorter month. -/
theorem billingDay_addMonthsClamped (t months : Int) :
    billingDay (billingAddMonthsClamped t months) =
      monthStart (billingMonth t + months) +
        min (dayOfMonth (billingDay t)) (daysInMonth (billingMonth t + months)) - 1 := by
  unfold billingAddMonthsClamped
  have hmonth := monthIndex_parts t
  have hday : (billingCalendarParts t).day = dayOfMonth (billingDay t) := rfl
  have hhour := (billingCalendarParts t).hour_range
  have hminute := (billingCalendarParts t).minute_range
  have hsecond := (billingCalendarParts t).second_range
  rw [billingDateTime_eq _ ⟨by omega, by omega⟩]
  dsimp only
  rw [BillingDate.toDay_ofMonthIndex, hmonth, hday]
  unfold billingDay dayStart
  omega

/-- The day that a number of months is added to lies that many months later. -/
theorem monthly_bounds (t months : Int) :
    monthBegin (billingMonth t + months) ≤
        billingStartOfCalendarDay (billingAddMonthsClamped t months) ∧
      billingStartOfCalendarDay (billingAddMonthsClamped t months) <
        monthBegin (billingMonth t + months + 1) := by
  have hlen := daysInMonth_bounds (billingMonth t + months)
  have hpos := (dayOfMonth_bounds (billingDay t)).1
  have hnext := monthStart_succ (billingMonth t + months)
  rw [billingStartOfCalendarDay_eq, billingDay_addMonthsClamped]
  unfold monthBegin dayStart
  constructor <;> omega

theorem boundary_bounds (t resetDay offset : Int) :
    monthBegin (billingMonth t + offset) ≤ billingMonthlyBoundary t resetDay offset ∧
      billingMonthlyBoundary t resetDay offset < monthBegin (billingMonth t + offset + 1) := by
  have hlen := daysInMonth_bounds (billingMonth t + offset)
  have hnext := monthStart_succ (billingMonth t + offset)
  unfold billingMonthlyBoundary
  rw [billingStartOfDay_eq, BillingDate.toDay_ofMonthIndex, monthIndex_parts]
  unfold monthBegin dayStart
  constructor <;> omega

/-- The boundary of a month does not depend on the instant it is asked for. -/
theorem boundary_eq (t resetDay offset : Int) :
    billingMonthlyBoundary t resetDay offset =
      dayStart (monthStart (billingMonth t + offset) +
        min (min (max 1 (if resetDay = 0 then 1 else resetDay)) 28)
          (daysInMonth (billingMonth t + offset)) - 1) := by
  unfold billingMonthlyBoundary
  rw [billingStartOfDay_eq, BillingDate.toDay_ofMonthIndex, monthIndex_parts]

theorem boundary_second (t resetDay offset : Int) :
    billingMonthlyBoundary t resetDay offset % 1000 = 0 := by
  rw [boundary_eq]
  exact dayStart_second _

theorem monthly_second (t : Int) : billingStartOfCalendarDay t % 1000 = 0 := by
  rw [billingStartOfCalendarDay_eq]
  exact dayStart_second _

end ForwardX.Panel
