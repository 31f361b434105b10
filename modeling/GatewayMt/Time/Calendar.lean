import Mathlib.Tactic.IntervalCases
import Mathlib.Order.Monotone.Basic

/-!
# The proleptic Gregorian calendar of Go's `time` package

`absDate` is the computation behind `Time.Format`'s date fields: it cuts a day
count into 400-, 100- and 4-year cycles and single years, as `time.absDate`
does, and then finds the month from the day of the year.  `Date.dayNumber`
says what a date means independently of that computation.  The two are
inverse, and `dayNumber` is strictly monotone in the order of dates, so the
dates `absDate` gives are ordered as the day counts are.
-/

namespace GatewayMt.Time

/-- `time.isLeap`. -/
def isLeap (year : Int) : Bool :=
  year % 4 == 0 && (year % 100 != 0 || year % 400 == 0)

def leapDays (year : Int) : Nat := if isLeap year then 1 else 0

/-- `daysBefore[m]`: the days before month `m + 1` starts, in a non-leap year. -/
def daysBefore : Nat → Nat
  | 0 => 0
  | 1 => 31
  | 2 => 59
  | 3 => 90
  | 4 => 120
  | 5 => 151
  | 6 => 181
  | 7 => 212
  | 8 => 243
  | 9 => 273
  | 10 => 304
  | 11 => 334
  | _ + 12 => 365

structure Date where
  year : Int
  month : Nat
  day : Nat
  deriving DecidableEq, Repr

/-- The year within a 400-year cycle, counted from 0, and the day of that year,
for the `d`-th day of the cycle: the cuts into 100-year, 4-year and single-year
cycles of `time.absDate`. -/
def yearInCycle (d : Nat) : Nat × Nat :=
  -- the fourth century of a cycle is a day longer: `n -= n >> 2`
  let n := d / 36524 - d / 36524 / 4
  let y := 100 * n
  let d := d - 36524 * n
  let n := d / 1461
  let y := y + 4 * n
  let d := d - 1461 * n
  -- the fourth year of a 4-year cycle is the leap year
  let n := d / 365 - d / 365 / 4
  (y + n, d - 365 * n)

/-- The year and the day of the year `time.absDate` computes, with `days`
counted from 0001-01-01, where a 400-year cycle starts. -/
def absYear (days : Int) : Int × Nat :=
  let n := days / 146097
  let (y, yday) := yearInCycle (days - 146097 * n).toNat
  (400 * n + y + 1, yday)

/-- The month and day `time.absDate` finds for a day of a non-leap year: the
estimate `day / 31` is at most one month too low. -/
def monthOfDay (day : Nat) : Nat × Nat :=
  let month := day / 31
  let stop := daysBefore (month + 1)
  if day ≥ stop then (month + 2, day - stop + 1)
  else (month + 1, day - daysBefore month + 1)

/-- The month and day of the day of the year `yday`: a leap year's 29 February
is set apart, and later days are looked up one day earlier. -/
def monthDay (year : Int) (yday : Nat) : Nat × Nat :=
  if isLeap year ∧ yday = 31 + 29 - 1 then (2, 29)
  else monthOfDay (if isLeap year ∧ yday > 31 + 29 - 1 then yday - 1 else yday)

/-- `time.absDate(abs, true)`, with `days` counted from 0001-01-01. -/
def absDate (days : Int) : Date :=
  let (year, yday) := absYear days
  let (month, day) := monthDay year yday
  ⟨year, month, day⟩

/-! ## What a date means -/

/-- The days from 0001-01-01 to the first day of `year`. -/
def yearStart (year : Int) : Int :=
  365 * (year - 1) + (year - 1) / 4 - (year - 1) / 100 + (year - 1) / 400

/-- The days of `year` before `month` starts. -/
def monthStart (year : Int) (month : Nat) : Nat :=
  daysBefore (month - 1) + if 3 ≤ month then leapDays year else 0

def daysIn (year : Int) (month : Nat) : Nat :=
  daysBefore month - daysBefore (month - 1) + if month = 2 then leapDays year else 0

def Date.Valid (date : Date) : Prop :=
  1 ≤ date.month ∧ date.month ≤ 12 ∧ 1 ≤ date.day ∧ date.day ≤ daysIn date.year date.month

/-- The days from 0001-01-01 to `date`. -/
def Date.dayNumber (date : Date) : Int :=
  yearStart date.year + monthStart date.year date.month + date.day - 1

/-- `date` comes before `date'` in the calendar. -/
def Date.Before (date date' : Date) : Prop :=
  date.year < date'.year ∨ date.year = date'.year ∧
    (date.month < date'.month ∨ date.month = date'.month ∧ date.day < date'.day)

theorem isLeap_iff (year : Int) :
    isLeap year = true ↔ year % 4 = 0 ∧ (year % 100 ≠ 0 ∨ year % 400 = 0) := by
  simp [isLeap]

theorem leapDays_le_one (year : Int) : leapDays year ≤ 1 := by
  unfold leapDays
  split <;> omega

/-! ## The cycles of `absYear` -/

private theorem centuries {d : Nat} (within : d < 146097) :
    d / 36524 - d / 36524 / 4 ≤ 3 ∧ 36524 * (d / 36524 - d / 36524 / 4) ≤ d ∧
      d - 36524 * (d / 36524 - d / 36524 / 4) ≤ 36524 ∧
      (d - 36524 * (d / 36524 - d / 36524 / 4) = 36524 → d / 36524 - d / 36524 / 4 = 3) := by
  omega

private theorem quadrennia {d : Nat} (within : d ≤ 36524) :
    d / 1461 ≤ 24 ∧ 1461 * (d / 1461) ≤ d ∧ d - 1461 * (d / 1461) < 1461 ∧
      (d - 1461 * (d / 1461) = 1460 → d / 1461 = 24 → d = 36524) := by
  omega

private theorem singleYears {d : Nat} (within : d < 1461) :
    d / 365 - d / 365 / 4 ≤ 3 ∧ 365 * (d / 365 - d / 365 / 4) ≤ d ∧
      d - 365 * (d / 365 - d / 365 / 4) ≤ 365 ∧
      (d - 365 * (d / 365 - d / 365 / 4) = 365 → d = 1460 ∧ d / 365 - d / 365 / 4 = 3) := by
  omega

theorem yearStart_add_cycles (cycles year : Int) :
    yearStart (400 * cycles + year) = 146097 * cycles + yearStart year := by
  unfold yearStart
  omega

theorem leapDays_add_cycles (cycles year : Int) :
    leapDays (400 * cycles + year) = leapDays year := by
  have same : isLeap (400 * cycles + year) = isLeap year := by
    rw [Bool.eq_iff_iff, isLeap_iff, isLeap_iff]
    exact ⟨fun leap => by omega, fun leap => by omega⟩
  rw [leapDays, leapDays, same]

theorem yearStart_inCycle {centuries quadrennia years : Nat} (centuries_le : centuries ≤ 3)
    (quadrennia_le : quadrennia ≤ 24) (years_le : years ≤ 3) :
    yearStart ((100 * centuries + 4 * quadrennia + years + 1 : Nat) : Int) =
      36524 * centuries + 1461 * quadrennia + 365 * years := by
  unfold yearStart
  omega

theorem isLeap_inCycle {centuries quadrennia years : Nat} (centuries_le : centuries ≤ 3)
    (quadrennia_le : quadrennia ≤ 24) (years_le : years ≤ 3) :
    isLeap ((100 * centuries + 4 * quadrennia + years + 1 : Nat) : Int) = true ↔
      years = 3 ∧ (quadrennia ≠ 24 ∨ centuries = 3) := by
  rw [isLeap_iff]
  omega

/-- `yearInCycle` splits a day of a cycle into the first day of a year and a day
of that year. -/
theorem yearInCycle_spec {d : Nat} (within : d < 146097) :
    yearStart ((yearInCycle d).1 + 1 : Nat) + (yearInCycle d).2 = d ∧
      (yearInCycle d).2 < 365 + leapDays ((yearInCycle d).1 + 1 : Nat) := by
  simp only [yearInCycle]
  obtain ⟨centuries_le, _, d1_le, d1_full⟩ := centuries within
  generalize d / 36524 - d / 36524 / 4 = centuries at *
  generalize afterCenturies : d - 36524 * centuries = d1 at *
  obtain ⟨quadrennia_le, _, d2_lt, d2_full⟩ := quadrennia d1_le
  generalize d1 / 1461 = quadrennia at *
  generalize afterQuadrennia : d1 - 1461 * quadrennia = d2 at *
  obtain ⟨years_le, _, yday_le, yday_full⟩ := singleYears d2_lt
  generalize d2 / 365 - d2 / 365 / 4 = years at *
  rw [yearStart_inCycle centuries_le quadrennia_le years_le]
  refine ⟨by omega, ?_⟩
  unfold leapDays
  split
  · omega
  · rename_i notLeap
    rw [isLeap_inCycle centuries_le quadrennia_le years_le] at notLeap
    omega

/-- `absYear` splits `days` into the first day of a year and a day of that year. -/
theorem absYear_spec (days : Int) :
    yearStart (absYear days).1 + (absYear days).2 = days ∧
      (absYear days).2 < 365 + leapDays (absYear days).1 := by
  have split : days = 146097 * (days / 146097) + (days - 146097 * (days / 146097)).toNat ∧
      (days - 146097 * (days / 146097)).toNat < 146097 := by
    omega
  obtain ⟨starts, within⟩ := yearInCycle_spec split.2
  simp only [absYear, add_assoc, yearStart_add_cycles, leapDays_add_cycles]
  push_cast at starts within
  exact ⟨by omega, within⟩

/-! ## Months -/

theorem daysBefore_mono : Monotone daysBefore := by
  refine monotone_nat_of_le_succ fun month => ?_
  rcases month with _ | _ | _ | _ | _ | _ | _ | _ | _ | _ | _ | _ | _ <;> simp [daysBefore]

/-- The facts of the table behind the estimate `day / 31`: it is never too high,
and at most one month too low. -/
theorem daysBefore_estimate : ∀ month ≤ 11, daysBefore month ≤ 31 * month ∧
    (month ≤ 10 → 31 * (month + 1) ≤ daysBefore (month + 2)) ∧
    (month = 11 → daysBefore (month + 1) = 365) := by
  decide

/-- `monthOfDay` finds the month a day of a non-leap year falls in. -/
theorem monthOfDay_spec {day : Nat} (within : day ≤ 364) :
    1 ≤ (monthOfDay day).1 ∧ (monthOfDay day).1 ≤ 12 ∧ 1 ≤ (monthOfDay day).2 ∧
      (monthOfDay day).2 ≤ daysBefore (monthOfDay day).1 - daysBefore ((monthOfDay day).1 - 1) ∧
      daysBefore ((monthOfDay day).1 - 1) + (monthOfDay day).2 - 1 = day := by
  obtain ⟨notHigh, oneLow, last⟩ := daysBefore_estimate (day / 31) (by omega)
  have estimate : 31 * (day / 31) ≤ day ∧ day < 31 * (day / 31 + 1) := by omega
  unfold monthOfDay
  dsimp only
  generalize day / 31 = month at *
  split <;> dsimp only
  · rw [show month + 2 - 1 = month + 1 by omega]
    omega
  · rw [Nat.add_sub_cancel]
    omega

theorem monthDay_spec {year : Int} {yday : Nat} (within : yday < 365 + leapDays year) :
    1 ≤ (monthDay year yday).1 ∧ (monthDay year yday).1 ≤ 12 ∧ 1 ≤ (monthDay year yday).2 ∧
      (monthDay year yday).2 ≤ daysIn year (monthDay year yday).1 ∧
      monthStart year (monthDay year yday).1 + (monthDay year yday).2 - 1 = yday := by
  unfold monthDay daysIn monthStart leapDays at *
  cases leap : isLeap year
  · simp only [leap, Bool.false_eq_true, false_and, if_false, ite_self, add_zero] at within ⊢
    exact monthOfDay_spec (by omega)
  · simp only [leap, true_and, if_true] at within ⊢
    split
    · rename_i leapDay
      subst leapDay
      decide
    · split
      · have found := monthOfDay_spec (show yday - 1 ≤ 364 by omega)
        have later : 3 ≤ (monthOfDay (yday - 1)).1 := by
          by_contra early
          have before : daysBefore (monthOfDay (yday - 1)).1 ≤ 59 :=
            daysBefore_mono (show (monthOfDay (yday - 1)).1 ≤ 2 by omega)
          omega
        simp only [later, if_true, show (monthOfDay (yday - 1)).1 ≠ 2 by omega, if_false]
        omega
      · have found := monthOfDay_spec (show yday ≤ 364 by omega)
        have early : (monthOfDay yday).1 ≤ 2 := by
          by_contra late
          have after : 59 ≤ daysBefore ((monthOfDay yday).1 - 1) :=
            daysBefore_mono (show 2 ≤ (monthOfDay yday).1 - 1 by omega)
          omega
        simp only [show ¬ 3 ≤ (monthOfDay yday).1 by omega, if_false]
        split <;> omega

/-! ## `absDate` and the order of dates -/

theorem absDate_eq (days : Int) :
    absDate days =
      ⟨(absYear days).1, (monthDay (absYear days).1 (absYear days).2).1,
        (monthDay (absYear days).1 (absYear days).2).2⟩ := rfl

theorem absDate_valid (days : Int) : (absDate days).Valid := by
  obtain ⟨_, within⟩ := absYear_spec days
  obtain ⟨month_pos, month_le, day_pos, day_le, _⟩ := monthDay_spec within
  rw [absDate_eq]
  exact ⟨month_pos, month_le, day_pos, day_le⟩

/-- `dayNumber` undoes `absDate`. -/
theorem dayNumber_absDate (days : Int) : (absDate days).dayNumber = days := by
  obtain ⟨starts, within⟩ := absYear_spec days
  obtain ⟨_, _, day_pos, _, inYear⟩ := monthDay_spec within
  simp only [absDate_eq, Date.dayNumber]
  omega

theorem absDate_injective : Function.Injective absDate := fun days days' same => by
  rw [← dayNumber_absDate days, ← dayNumber_absDate days', same]

theorem yearStart_succ (year : Int) :
    yearStart (year + 1) = yearStart year + 365 + leapDays year := by
  unfold yearStart leapDays
  split
  · rename_i leap
    rw [isLeap_iff] at leap
    omega
  · rename_i notLeap
    rw [isLeap_iff] at notLeap
    omega

theorem yearStart_mono {year year' : Int} (le : year ≤ year') :
    yearStart year ≤ yearStart year' := by
  unfold yearStart
  omega

theorem monthStart_add_daysIn (year : Int) {month : Nat} (month_pos : 1 ≤ month)
    (month_le : month ≤ 12) :
    monthStart year month + daysIn year month = monthStart year (month + 1) := by
  unfold monthStart daysIn
  rcases Nat.le_one_iff_eq_zero_or_eq_one.mp (leapDays_le_one year) with leap | leap <;>
    rw [leap] <;> interval_cases month <;> decide

theorem daysIn_le_31 (year : Int) {month : Nat} (month_le : month ≤ 12) :
    daysIn year month ≤ 31 := by
  unfold daysIn
  have := leapDays_le_one year
  interval_cases month <;> simp [daysBefore]
  omega

theorem monthStart_mono (year : Int) {month month' : Nat} (le : month ≤ month') :
    monthStart year month ≤ monthStart year month' := by
  unfold monthStart
  have := daysBefore_mono (Nat.sub_le_sub_right le 1)
  split <;> split <;> omega

/-- A valid date's day number stays within its year. -/
theorem dayNumber_lt_yearStart_succ {date : Date} (valid : date.Valid) :
    date.dayNumber < yearStart (date.year + 1) := by
  obtain ⟨month_pos, month_le, _, day_le⟩ := valid
  have monthEnd := monthStart_add_daysIn date.year month_pos month_le
  have yearEnd := monthStart_mono date.year (show date.month + 1 ≤ 13 by omega)
  have lastMonth : monthStart date.year 13 = 365 + leapDays date.year := by
    simp [monthStart, daysBefore, Nat.add_comm]
  rw [yearStart_succ, Date.dayNumber]
  omega

/-- `dayNumber` is strictly monotone in the order of valid dates. -/
theorem dayNumber_lt_dayNumber {date date' : Date} (valid : date.Valid) (valid' : date'.Valid)
    (before : date.Before date') : date.dayNumber < date'.dayNumber := by
  obtain ⟨month_pos, month_le, _, day_le⟩ := valid
  obtain ⟨_, _, day_pos', _⟩ := valid'
  have monthEnd := monthStart_add_daysIn date.year month_pos month_le
  rcases before with earlier | ⟨sameYear, earlier | ⟨sameMonth, earlier⟩⟩
  · have yearEnd := dayNumber_lt_yearStart_succ ⟨month_pos, month_le, by omega, day_le⟩
    have := yearStart_mono (show date.year + 1 ≤ date'.year by omega)
    unfold Date.dayNumber at *
    omega
  · have := monthStart_mono date.year (show date.month + 1 ≤ date'.month by omega)
    unfold Date.dayNumber
    rw [← sameYear]
    omega
  · unfold Date.dayNumber
    rw [← sameYear, ← sameMonth]
    omega

theorem Date.before_trichotomy (date date' : Date) :
    date.Before date' ∨ date = date' ∨ date'.Before date := by
  rcases date with ⟨year, month, day⟩
  rcases date' with ⟨year', month', day'⟩
  simp only [Date.Before, Date.mk.injEq]
  omega

/-- Later day counts give later dates. -/
theorem absDate_before {days days' : Int} (earlier : days < days') :
    (absDate days).Before (absDate days') := by
  rcases Date.before_trichotomy (absDate days) (absDate days') with before | same | after
  · exact before
  · exact absurd (absDate_injective same) (by omega)
  · have := dayNumber_lt_dayNumber (absDate_valid days') (absDate_valid days) after
    rw [dayNumber_absDate, dayNumber_absDate] at this
    omega

/-- Every valid date is the date of its day number. -/
theorem absDate_dayNumber {date : Date} (valid : date.Valid) : absDate date.dayNumber = date := by
  have back := dayNumber_absDate date.dayNumber
  rcases Date.before_trichotomy (absDate date.dayNumber) date with before | same | after
  · have := dayNumber_lt_dayNumber (absDate_valid _) valid before
    omega
  · exact same
  · have := dayNumber_lt_dayNumber valid (absDate_valid _) after
    omega

/-- Go's cycle-cutting `absDate` is a bijection from day counts onto the valid
dates of the proleptic Gregorian calendar, and it keeps their order. -/
theorem absDate_order_bijection (days days' : Int) :
    (absDate days).Valid ∧ (absDate days).dayNumber = days ∧
      (days < days' ↔ (absDate days).Before (absDate days')) ∧
      ∀ date : Date, date.Valid → absDate date.dayNumber = date := by
  refine ⟨absDate_valid days, dayNumber_absDate days, ⟨absDate_before, fun before => ?_⟩,
    fun _ valid => absDate_dayNumber valid⟩
  have := dayNumber_lt_dayNumber (absDate_valid days) (absDate_valid days') before
  rwa [dayNumber_absDate, dayNumber_absDate] at this

end GatewayMt.Time
