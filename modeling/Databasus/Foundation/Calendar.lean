import Mathlib.Logic.Basic

/-
  The calendar on day numbers.

  Day zero is 1 January 1970.  Months are counted from January
  of year zero, so a month is one number and adding months to
  a date is adding numbers.  Within the definitions a year
  begins in March, which puts the leap day at its end.

  Main declarations:
    * `monthStart`
    * `monthOf`, `monthOf_spec`
    * `Date`, `dateOf`
    * `weekdayOf`, `mondayOf`
    * `isoWeekOf`
-/

------------------------------------------------------------
-- Months
------------------------------------------------------------

namespace Foundation

namespace Calendar

/- The days between 1 March of year zero and of the year. -/
def yearStart (year : Int) : Int :=
  365 * year + year / 4 - year / 100 + year / 400

/- The days between 1 March and the first of the month. -/
def monthOffset (month : Int) : Int :=
  (153 * month + 2) / 5

/- The day number of 1 March of year zero, negated. -/
def marchEpoch : Int := 719468

/- The first day of a month. -/
def monthStart (month : Int) : Int :=
  yearStart ((month - 2) / 12) +
      monthOffset ((month - 2) % 12) -
    marchEpoch

def monthLength (month : Int) : Int :=
  monthStart (month + 1) - monthStart month

/- A month has at least 28 and at most 31 days. -/
theorem monthStart_succ
    (month : Int) :
    monthStart month + 28 ≤ monthStart (month + 1) ∧
      monthStart (month + 1) ≤ monthStart month + 31 := by
  unfold monthStart yearStart monthOffset
  by_cases hLast : (month - 2) % 12 = 11
  · have hYear :
        (month + 1 - 2) / 12 = (month - 2) / 12 + 1 := by
      omega
    have hMonth : (month + 1 - 2) % 12 = 0 := by omega
    rw [hYear, hMonth, hLast]
    omega
  · have hYear : (month + 1 - 2) / 12 = (month - 2) / 12 := by
      omega
    have hMonth :
        (month + 1 - 2) % 12 = (month - 2) % 12 + 1 := by
      omega
    rw [hYear, hMonth]
    omega

/- Later months start at least 28 days later for each one. -/
theorem monthStart_add
    (month : Int)
    (count : Nat) :
    monthStart month + 28 * count ≤
      monthStart (month + count) := by
  induction count with
  | zero => simp
  | succ count ih =>
      have hNext := (monthStart_succ (month + count)).1
      push_cast
      rw [← Int.add_assoc month]
      omega

theorem monthStart_le
    {first second : Int}
    (hLe : first ≤ second) :
    monthStart first + 28 * (second - first) ≤
      monthStart second := by
  have hSteps := monthStart_add first (second - first).toNat
  have hCount : ((second - first).toNat : Int) = second - first :=
    Int.toNat_of_nonneg (by omega)
  rw [hCount] at hSteps
  have hEnd : first + (second - first) = second := by omega
  rw [hEnd] at hSteps
  exact hSteps

/- The year, beginning in March, that a day is in. -/
def marchYearOf (dayFromMarch : Int) : Int :=
  let guess := dayFromMarch * 400 / 146097
  if yearStart (guess + 1) ≤ dayFromMarch then guess + 1
  else if dayFromMarch < yearStart guess then guess - 1
  else guess

theorem marchYearOf_spec
    (dayFromMarch : Int) :
    yearStart (marchYearOf dayFromMarch) ≤ dayFromMarch ∧
      dayFromMarch <
        yearStart (marchYearOf dayFromMarch + 1) := by
  unfold marchYearOf
  dsimp only
  have hGuess :
      ∀ guess,
        guess * 146097 ≤ dayFromMarch * 400 →
          dayFromMarch * 400 < (guess + 1) * 146097 →
            yearStart (guess - 1) ≤ dayFromMarch ∧
              dayFromMarch < yearStart (guess + 2) := by
    intro guess hLow hHigh
    unfold yearStart
    omega
  rcases
      hGuess (dayFromMarch * 400 / 146097) (by omega)
        (by omega) with
    ⟨hLow, hHigh⟩
  split
  · next hNext =>
      refine ⟨hNext, ?_⟩
      rw [Int.add_assoc]
      exact hHigh
  · next hNext =>
      split
      · next hBefore =>
          refine ⟨hLow, ?_⟩
          rw [Int.sub_add_cancel]
          exact hBefore
      · next hBefore =>
          exact ⟨Int.not_lt.mp hBefore, Int.not_le.mp hNext⟩

/- The month that a day is in. -/
def monthOf (day : Int) : Int :=
  let dayFromMarch := day + marchEpoch
  let year := marchYearOf dayFromMarch
  12 * year +
      (5 * (dayFromMarch - yearStart year) + 2) / 153 + 2

/- A month of a year, counted from March. -/
theorem monthStart_march
    (year : Int)
    {month : Int}
    (hFirst : 0 ≤ month)
    (hLast : month < 12) :
    monthStart (12 * year + month + 2) =
      yearStart year + monthOffset month - marchEpoch := by
  unfold monthStart
  have hYear : (12 * year + month + 2 - 2) / 12 = year := by
    omega
  have hMonth : (12 * year + month + 2 - 2) % 12 = month := by
    omega
  rw [hYear, hMonth]

theorem monthOf_spec
    (day : Int) :
    monthStart (monthOf day) ≤ day ∧
      day < monthStart (monthOf day + 1) := by
  rcases marchYearOf_spec (day + marchEpoch) with
    ⟨hLow, hHigh⟩
  unfold monthOf
  dsimp only
  generalize marchYearOf (day + marchEpoch) = year at *
  have hLength :
      yearStart (year + 1) ≤ yearStart year + 366 := by
    unfold yearStart
    omega
  obtain ⟨dayOfYear, hDay⟩ :
      ∃ dayOfYear,
        day + marchEpoch = yearStart year + dayOfYear :=
    ⟨day + marchEpoch - yearStart year, by omega⟩
  have hOfYear :
      day + marchEpoch - yearStart year = dayOfYear := by
    omega
  rw [hOfYear]
  obtain ⟨month, hMonth⟩ :
      ∃ month, month = (5 * dayOfYear + 2) / 153 :=
    ⟨_, rfl⟩
  rw [← hMonth]
  have hStart :
      monthStart (12 * year + month + 2) =
        yearStart year + monthOffset month - marchEpoch :=
    monthStart_march year (by omega) (by omega)
  constructor
  · rw [hStart]
    unfold monthOffset
    omega
  · by_cases hFebruary : month = 11
    · have hNext :
          12 * year + month + 2 + 1 =
            12 * (year + 1) + 0 + 2 := by
        omega
      rw [hNext,
        monthStart_march (year + 1) (by omega) (by omega)]
      have hOffset : monthOffset 0 = 0 := rfl
      rw [hOffset]
      omega
    · have hNext :
          12 * year + month + 2 + 1 =
            12 * year + (month + 1) + 2 := by
        omega
      rw [hNext,
        monthStart_march year (by omega) (by omega)]
      unfold monthOffset
      omega

/- A day is in no other month. -/
theorem monthOf_eq
    {day month : Int}
    (hStart : monthStart month ≤ day)
    (hEnd : day < monthStart (month + 1)) :
    monthOf day = month := by
  rcases monthOf_spec day with ⟨hLow, hHigh⟩
  rcases Int.lt_trichotomy (monthOf day) month with
    hBefore | hSame | hAfter
  · have hLe := monthStart_le (Int.add_one_le_of_lt hBefore)
    omega
  · exact hSame
  · have hLe := monthStart_le (Int.add_one_le_of_lt hAfter)
    omega

------------------------------------------------------------
-- Dates
------------------------------------------------------------

/- Months and days of dates count from one. -/
structure Date where
  year : Int
  month : Int
  day : Int
deriving DecidableEq, Repr

/- The month of the date, counted from January of year zero. -/
def Date.monthNumber (date : Date) : Int :=
  12 * date.year + date.month - 1

def dateOf (day : Int) : Date :=
  let month := monthOf day
  { year := month / 12
    month := month % 12 + 1
    day := day - monthStart month + 1 }

@[simp]
theorem monthNumber_dateOf
    (day : Int) :
    (dateOf day).monthNumber = monthOf day := by
  unfold Date.monthNumber dateOf
  dsimp only
  omega

/- A date names the day that it was made from. -/
theorem monthStart_dateOf
    (day : Int) :
    monthStart (dateOf day).monthNumber +
        ((dateOf day).day - 1) =
      day := by
  rw [monthNumber_dateOf]
  unfold dateOf
  dsimp only
  omega

/- Sunday is zero. -/
def weekdayOf (day : Int) : Int :=
  (day + 4) % 7

/- The Monday of the week from Monday to Sunday. -/
def mondayOf (day : Int) : Int :=
  day - (day + 3) % 7

/- The year and the number of the week, by its Thursday. -/
def isoWeekOf (day : Int) : Int × Int :=
  let thursday := mondayOf day + 3
  let year := (dateOf thursday).year
  (year, (thursday - monthStart (12 * year)) / 7 + 1)

example : dateOf 19782 = ⟨2024, 2, 29⟩ := by decide

end Calendar

end Foundation
