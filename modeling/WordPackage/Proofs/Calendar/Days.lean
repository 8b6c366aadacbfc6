import Mathlib.Tactic.IntervalCases
import WordPackage.Calendar

/-!
# Counting days

The number of a day is found by counting: the days of the years before its year, those
of the months before its month, and those before it in its month. Dates are computed from
day numbers by a different road, over cycles of 400 years that start in March. Both agree
for every day, and the numbers of two dates are in the order of the dates.
-/

namespace WordPackage.CivilDate

/-- Number of days of a year. -/
def daysInYear (year : Int) : Nat :=
  if isLeapYear year then 366 else 365

/-- Days from the start of year 0 to the start of a year; negative before year 0. -/
def daysBeforeYear (year : Int) : Int :=
  ((List.range year.toNat).map fun passed : Nat => (daysInYear passed : Int)).sum
    - ((List.range (-year).toNat).map fun coming : Nat => (daysInYear (-coming - 1) : Int)).sum

/-- Days of a year before one of its months. -/
def daysBeforeMonth (year : Int) (month : Nat) : Nat :=
  ((List.range' 1 (month - 1)).map (daysInMonth year)).sum

/-- Days from the start of 1970 to a date; negative before 1970. -/
def dayNumber (date : CivilDate) : Int :=
  daysBeforeYear date.year - daysBeforeYear 1970
    + daysBeforeMonth date.year date.month + (date.day - 1)

/-- Whether a date is one of the calendar. -/
structure IsReal (date : CivilDate) : Prop where
  one_le_month : 1 ≤ date.month
  month_le : date.month ≤ 12
  one_le_day : 1 ≤ date.day
  day_le : date.day ≤ daysInMonth date.year date.month

/-- Whether a date comes before another: by year, then by month, then by day. -/
def Precedes (earlier later : CivilDate) : Prop :=
  earlier.year < later.year ∨ earlier.year = later.year ∧
    (earlier.month < later.month ∨ earlier.month = later.month ∧ earlier.day < later.day)

/-- A year is followed by the next after as many days as it has. -/
theorem daysBeforeYear_add_one (year : Int) :
    daysBeforeYear (year + 1) = daysBeforeYear year + daysInYear year := by
  rcases lt_or_ge year 0 with before | since
  · have none : year.toNat = 0 ∧ (year + 1).toNat = 0 := by omega
    have fewer : (-year).toNat = (-(year + 1)).toNat + 1 := by omega
    have last : -((-(year + 1)).toNat : Int) - 1 = year := by omega
    rw [daysBeforeYear, daysBeforeYear, none.1, none.2, fewer, List.range_succ, List.map_append,
      List.sum_append, List.map_singleton, List.sum_singleton, last]
    omega
  · have none : (-year).toNat = 0 ∧ (-(year + 1)).toNat = 0 := by omega
    have more : (year + 1).toNat = year.toNat + 1 := by omega
    have last : (year.toNat : Int) = year := by omega
    rw [daysBeforeYear, daysBeforeYear, none.1, none.2, more, List.range_succ, List.map_append,
      List.sum_append, List.map_singleton, List.sum_singleton, last]
    omega

theorem isLeapYear_iff (year : Int) :
    isLeapYear year = true ↔ year % 4 = 0 ∧ (year % 100 ≠ 0 ∨ year % 400 = 0) := by
  simp [isLeapYear]

theorem daysInYear_eq (year : Int) :
    daysInYear year
      = if year % 4 = 0 ∧ (year % 100 ≠ 0 ∨ year % 400 = 0) then 366 else 365 := by
  simp only [daysInYear, isLeapYear_iff]

/-- Every fourth year counts one day more, save three in 400 years. -/
theorem daysBeforeYear_eq (year : Int) :
    daysBeforeYear year
      = 365 * year + (year + 3) / 4 - (year + 99) / 100 + (year + 399) / 400 := by
  -- One year adds the same on both sides, so the years are counted away from 0 both ways.
  have step : ∀ year : Int, (daysInYear year : Int)
      = 365 + ((year + 4) / 4 - (year + 3) / 4) - ((year + 100) / 100 - (year + 99) / 100)
        + ((year + 400) / 400 - (year + 399) / 400) := by
    intro year
    have fourth : (year + 4) / 4 - (year + 3) / 4 = if year % 4 = 0 then 1 else 0 := by omega
    have hundredth : (year + 100) / 100 - (year + 99) / 100
        = if year % 100 = 0 then 1 else 0 := by omega
    have last : (year + 400) / 400 - (year + 399) / 400
        = if year % 400 = 0 then 1 else 0 := by omega
    rw [fourth, hundredth, last, daysInYear_eq]
    split <;> omega
  induction year using Int.induction_on with
  | zero => rfl
  | succ year ih =>
      have next := daysBeforeYear_add_one year
      have added := step year
      omega
  | pred year ih =>
      have next := daysBeforeYear_add_one (-year - 1)
      have added := step (-year - 1)
      rw [Int.sub_add_cancel] at next
      omega

theorem daysBeforeYear_1970 : daysBeforeYear 1970 = 719528 := by
  rw [daysBeforeYear_eq]
  rfl

theorem dayNumber_newYear (year : Int) :
    dayNumber ⟨year, 1, 1⟩ = daysBeforeYear year - 719528 := by
  rw [dayNumber, daysBeforeYear_1970]
  simp [daysBeforeMonth]

theorem daysBeforeYear_add_daysInYear_le {earlier later : Int} (before : earlier < later) :
    daysBeforeYear earlier + daysInYear earlier ≤ daysBeforeYear later := by
  rw [← daysBeforeYear_add_one, daysBeforeYear_eq, daysBeforeYear_eq]
  omega

theorem daysBeforeMonth_add_one (year : Int) {month : Nat} (first : 1 ≤ month) :
    daysBeforeMonth year (month + 1) = daysBeforeMonth year month + daysInMonth year month := by
  have more : month + 1 - 1 = month - 1 + 1 := by omega
  have last : 1 + (month - 1) = month := by omega
  rw [daysBeforeMonth, daysBeforeMonth, more, List.range'_1_concat, List.map_append,
    List.sum_append, List.map_singleton, List.sum_singleton, last]

theorem daysBeforeMonth_add_daysInMonth_le (year : Int) {earlier later : Nat}
    (first : 1 ≤ earlier) (before : earlier < later) :
    daysBeforeMonth year earlier + daysInMonth year earlier ≤ daysBeforeMonth year later := by
  induction before with
  | refl => rw [daysBeforeMonth_add_one year first]
  | step before ih =>
      rw [daysBeforeMonth_add_one year (Nat.le_trans (Nat.le_succ_of_le first) before)]
      exact ih.trans (Nat.le_add_right _ _)

theorem daysBeforeMonth_thirteen (year : Int) : daysBeforeMonth year 13 = daysInYear year := by
  unfold daysBeforeMonth daysInYear
  cases leap : isLeapYear year <;>
    simp [List.range', daysInMonth, leap]

/-- From March on, the months of a year begin on days of a straight line. The last ten months
have 306 days. -/
theorem daysBeforeMonth_add (year : Int) {month : Nat} (march : 3 ≤ month) (last : month ≤ 12) :
    daysBeforeMonth year month + 306 = daysInYear year + (153 * (month - 3) + 2) / 5 := by
  unfold daysBeforeMonth daysInYear
  cases leap : isLeapYear year <;> interval_cases month <;>
    simp [List.range', daysInMonth, leap]

theorem precedes_or_eq_or_precedes (left right : CivilDate) :
    left.Precedes right ∨ left = right ∨ right.Precedes left := by
  obtain ⟨year, month, day⟩ := left
  obtain ⟨year', month', day'⟩ := right
  simp only [Precedes, CivilDate.mk.injEq]
  omega

/-- Earlier dates have smaller numbers. -/
theorem dayNumber_lt_of_precedes {earlier later : CivilDate} (real : earlier.IsReal)
    (real' : later.IsReal) (precedes : earlier.Precedes later) :
    earlier.dayNumber < later.dayNumber := by
  have withinMonth := real.day_le
  have started := real'.one_le_day
  unfold dayNumber
  rcases precedes with years | ⟨years, months | ⟨months, days⟩⟩
  · have year := daysBeforeYear_add_daysInYear_le years
    have month := daysBeforeMonth_add_daysInMonth_le earlier.year real.one_le_month
      (Nat.lt_succ_of_le real.month_le)
    rw [daysBeforeMonth_thirteen] at month
    omega
  · have month := daysBeforeMonth_add_daysInMonth_le earlier.year real.one_le_month months
    rw [← years]
    omega
  · rw [← years, ← months]
    omega

/-- The numbers of two dates are in the order of the dates. -/
theorem dayNumber_lt_dayNumber_iff {left right : CivilDate} (real : left.IsReal)
    (real' : right.IsReal) : left.dayNumber < right.dayNumber ↔ left.Precedes right := by
  constructor
  · intro less
    rcases precedes_or_eq_or_precedes left right with before | rfl | after
    · exact before
    · omega
    · have greater := dayNumber_lt_of_precedes real' real after
      omega
  · exact dayNumber_lt_of_precedes real real'

/-- A date that is counted from March: the year that began with March, the month from March as
month 0, and the day. January and February lie in the next year. -/
def ofMarch (year : Int) (monthFromMarch day : Nat) : CivilDate :=
  let month := if monthFromMarch < 10 then monthFromMarch + 3 else monthFromMarch - 9
  { year := if month ≤ 2 then year + 1 else year, month, day }

/-- The number of a date that is counted from March. -/
theorem dayNumber_ofMarch (year : Int) {month : Nat} (months : month < 12) (day : Nat) :
    (ofMarch year month day).dayNumber
      = 365 * year + year / 4 - year / 100 + year / 400 + ((153 * month + 2) / 5 : Nat)
        + (day - 1) - daysBefore1970 := by
  have next := daysBeforeYear_eq (year + 1)
  rcases Nat.lt_or_ge month 10 with sameYear | nextYear
  · have days := daysBeforeMonth_add year (Nat.le_add_left 3 month) (by omega)
    have added := daysBeforeYear_add_one year
    have date : ofMarch year month day = ⟨year, month + 3, day⟩ := by
      simp [ofMarch, sameYear]
    rw [date, dayNumber, daysBeforeYear_1970, daysBefore1970]
    dsimp only
    omega
  · have days : daysBeforeMonth (year + 1) (month - 9) = (153 * month + 2) / 5 - 306 := by
      interval_cases month <;> rfl
    have date : ofMarch year month day = ⟨year + 1, month - 9, day⟩ := by
      have early : month ≤ 2 + 9 := by omega
      simp [ofMarch, nextYear.not_gt, early]
    rw [date, dayNumber, daysBeforeYear_1970, daysBefore1970]
    dsimp only
    rw [days]
    omega

/-- A day of a year that begins with March has a real date, the last one if the year after it
is a leap year. -/
theorem isReal_ofMarch (year : Int) {month dayOfYear : Nat} (within : dayOfYear ≤ 365)
    (isMonth : month = (5 * dayOfYear + 2) / 153)
    (leaps : dayOfYear = 365 → isLeapYear (year + 1) = true) :
    (ofMarch year month (dayOfYear - (153 * month + 2) / 5 + 1)).IsReal := by
  have months : month < 12 := by omega
  rcases Nat.lt_or_ge month 11 with early | february
  · constructor
    all_goals
      interval_cases month <;> simp [ofMarch, daysInMonth] <;> omega
  · obtain rfl : month = 11 := by omega
    have day : dayOfYear - (153 * 11 + 2) / 5 + 1 = dayOfYear - 336 := by omega
    have date : ofMarch year 11 (dayOfYear - 336) = ⟨year + 1, 2, dayOfYear - 336⟩ := rfl
    rw [day, date]
    refine ⟨by simp, by simp, Nat.le_sub_of_add_le (by omega), ?_⟩
    dsimp only [daysInMonth]
    by_cases last : dayOfYear = 365
    · simp [leaps last, last]
    · rw [if_pos rfl]
      split <;> omega

/-- A cycle has 400 years that begin with March, and each of its days lies in one of them. -/
theorem yearOfCycle_spec {day year : Nat} (within : day < 146097)
    (isYear : year = (day - day / 1460 + day / 36524 - day / 146096) / 365) :
    year < 400 ∧ year / 100 = day / 36524 - day / 146096 ∧
      365 * year + year / 4 - year / 100 ≤ day ∧
      day - (365 * year + year / 4 - year / 100) ≤ 365 := by
  -- In each century what is left is linear.
  obtain ⟨century, isCentury⟩ : ∃ century, century = day / 36524 := ⟨_, rfl⟩
  have centuries : century < 5 := by omega
  rw [← isCentury] at isYear
  interval_cases century
  all_goals
    have hundreds : year / 100 = day / 36524 - day / 146096 := by omega
    omega

/-- A year of the cycle has a 366th day only if the year after it is a leap year. -/
theorem yearOfCycle_leap {day year : Nat} (within : day < 146097)
    (isYear : year = (day - day / 1460 + day / 36524 - day / 146096) / 365)
    (last : day - (365 * year + year / 4 - year / 100) = 365) :
    (year + 1) % 4 = 0 ∧ ((year + 1) % 100 ≠ 0 ∨ (year + 1) % 400 = 0) := by
  obtain ⟨-, hundreds, begun, -⟩ := yearOfCycle_spec within isYear
  -- The day is the last of four years, so the year is the last of four.
  have fourths : 1460 * (year / 4) + 1460 ≤ day := by omega
  have whole : day = 365 * year + 365 + year / 4 - year / 100 := by omega
  have fourth : year % 4 = 3 := by omega
  clear isYear
  omega

/-- The date of a day is one of the calendar, and its number is that of the day. -/
theorem isReal_and_dayNumber_ofDays (days : Int) :
    (ofDays days).IsReal ∧ (ofDays days).dayNumber = days := by
  -- The intermediate values of the definition are named, for the arithmetic to treat them as
  -- unknowns.
  obtain ⟨cycle, isCycle⟩ : ∃ cycle, cycle = (days + daysBefore1970) / 146097 := ⟨_, rfl⟩
  obtain ⟨dayOfCycle, isDay⟩ : ∃ day, day = ((days + daysBefore1970) % 146097).toNat := ⟨_, rfl⟩
  obtain ⟨year, isYear⟩ : ∃ year, year
      = (dayOfCycle - dayOfCycle / 1460 + dayOfCycle / 36524 - dayOfCycle / 146096) / 365 :=
    ⟨_, rfl⟩
  obtain ⟨dayOfYear, isDayOfYear⟩ : ∃ day, day
      = dayOfCycle - (365 * year + year / 4 - year / 100) := ⟨_, rfl⟩
  obtain ⟨month, isMonth⟩ : ∃ month, month = (5 * dayOfYear + 2) / 153 := ⟨_, rfl⟩
  have date : ofDays days = ofMarch (cycle * 400 + year) month
      (dayOfYear - (153 * month + 2) / 5 + 1) := by
    subst isMonth isDayOfYear isYear isDay isCycle
    rfl
  have within : dayOfCycle < 146097 := by omega
  obtain ⟨years, -, begun, ended⟩ := yearOfCycle_spec within isYear
  rw [← isDayOfYear] at ended
  rw [date]
  constructor
  · refine isReal_ofMarch _ ended isMonth fun last => ?_
    -- Years start in March here, so that a leap day is the last day of its year.
    have leap := yearOfCycle_leap within isYear (isDayOfYear ▸ last)
    rw [isLeapYear_iff]
    omega
  · have fourths : (cycle * 400 + year) / 4 = cycle * 100 + (year / 4 : Nat) := by omega
    have hundreds : (cycle * 400 + year) / 100 = cycle * 4 + (year / 100 : Nat) := by omega
    have whole : (cycle * 400 + year) / 400 = cycle := by omega
    rw [dayNumber_ofMarch _ (by omega), fourths, hundreds, whole]
    clear isYear
    omega

end WordPackage.CivilDate
