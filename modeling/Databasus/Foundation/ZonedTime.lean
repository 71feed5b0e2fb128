import Mathlib.Algebra.Group.Int.Defs
import Databasus.Foundation.Calendar

/-
  Instants read in a time zone.

  An instant counts nanoseconds.  A location tells the offset
  of its clocks, in seconds, and the period in which they keep
  it.  A date in a location becomes an instant by a lookup at
  the date as if it were universal time, corrected by a second
  lookup where that instant is in another period.

  Main declarations:
    * `Location`, `Location.utc`
    * `Location.date`
    * `Location.addDate`
    * `Location.addDate_months`
    * `Location.addDate_lt`
-/

------------------------------------------------------------
-- Locations
------------------------------------------------------------

namespace Foundation

/- Seconds at which an offset starts and ends to hold. -/
structure ZonePeriod where
  offset : Int
  startsAt : Int
  endsAt : Int
deriving DecidableEq, Repr

/- Offsets are between -24:59:59 and 25:59:59. -/
structure Location where
  lookup : Int → ZonePeriod
  offset_bounds :
    ∀ second,
      -89999 ≤ (lookup second).offset ∧
        (lookup second).offset ≤ 93599

def nanosPerSecond : Int := 1000000000

def secondsPerDay : Int := 86400

namespace Location

open Calendar

def utc : Location where
  lookup _ :=
    { offset := 0
      startsAt := -2 ^ 63
      endsAt := 2 ^ 63 - 1 }
  offset_bounds _ := by decide

variable (location : Location)

/- What the clocks show, in seconds. -/
def localSecond (t : Int) : Int :=
  t / nanosPerSecond +
    (location.lookup (t / nanosPerSecond)).offset

def localDay (t : Int) : Int :=
  location.localSecond t / secondsPerDay

/- The seconds since the clocks showed midnight. -/
def secondOfDay (t : Int) : Int :=
  location.localSecond t % secondsPerDay

def hourOf (t : Int) : Int :=
  location.secondOfDay t / 3600

def dateAt (t : Int) : Date :=
  dateOf (location.localDay t)

/- The second at which the clocks show the given one. -/
def ofLocal (shown : Int) : Int :=
  let zone := location.lookup shown
  if zone.offset = 0 then shown
  else
    let second := shown - zone.offset
    if second < zone.startsAt ∨ zone.endsAt ≤ second then
      shown - (location.lookup second).offset
    else
      second

/- The instant of a date whose parts may be out of range. -/
def date
    (year month day hour minute second nanos : Int) : Int :=
  let shown :=
    (monthStart (12 * year + month - 1) + (day - 1)) *
          secondsPerDay +
        hour * 3600 + minute * 60 + second +
      nanos / nanosPerSecond
  location.ofLocal shown * nanosPerSecond +
    nanos % nanosPerSecond

/- The same time of day on another date. -/
def addDate (t years months days : Int) : Int :=
  let shown := location.dateAt t
  location.date (shown.year + years) (shown.month + months)
    (shown.day + days) 0 0 (location.secondOfDay t)
    (t % nanosPerSecond)

theorem ofLocal_bounds
    (shown : Int) :
    shown - 93599 ≤ location.ofLocal shown ∧
      location.ofLocal shown ≤ shown + 89999 := by
  have hFirst := location.offset_bounds shown
  unfold ofLocal
  dsimp only
  split
  · omega
  · split
    · have hSecond :=
        location.offset_bounds
          (shown - (location.lookup shown).offset)
      omega
    · omega

/- What clocks show on the same day of an earlier month. -/
def shownMonthsBefore (t months : Int) : Int :=
  (monthStart (monthOf (location.localDay t) - months) +
        ((dateOf (location.localDay t)).day - 1)) *
      secondsPerDay +
    location.secondOfDay t

/- Years and months are both months. -/
theorem addDate_months
    (t years months : Int) :
    location.addDate t (-years) (-months) 0 =
      location.ofLocal
          (location.shownMonthsBefore t
            (12 * years + months)) *
          nanosPerSecond +
        t % nanosPerSecond := by
  have hNumber :
      12 * ((location.dateAt t).year + -years) +
            ((location.dateAt t).month + -months) - 1 =
        monthOf (location.localDay t) -
          (12 * years + months) := by
    rw [← monthNumber_dateOf]
    unfold Date.monthNumber dateAt
    omega
  have hNanos :
      t % nanosPerSecond / nanosPerSecond = 0 ∧
        t % nanosPerSecond % nanosPerSecond =
          t % nanosPerSecond := by
    unfold nanosPerSecond
    omega
  unfold addDate date
  dsimp only
  rw [hNumber, hNanos.1, hNanos.2]
  unfold shownMonthsBefore dateAt
  simp only [Int.add_zero, Int.zero_mul]

/- A month before, the clocks showed a much earlier second. -/
theorem shownMonthsBefore_le
    (t : Int)
    {months later : Int}
    (hLe : months ≤ later) :
    location.shownMonthsBefore t later +
        2419200 * (later - months) ≤
      location.shownMonthsBefore t months := by
  have hStart :=
    monthStart_le
      (Int.sub_le_sub_left hLe
        (monthOf (location.localDay t)))
  unfold shownMonthsBefore secondsPerDay
  omega

theorem shownMonthsBefore_zero
    (t : Int) :
    location.shownMonthsBefore t 0 =
      location.localSecond t := by
  have hDate := monthStart_dateOf (location.localDay t)
  rw [monthNumber_dateOf] at hDate
  unfold shownMonthsBefore
  rw [Int.sub_zero, hDate]
  unfold localDay secondOfDay secondsPerDay
  omega

/- More months back is not later. -/
theorem addDate_le
    (t : Int)
    {years months years' months' : Int}
    (hLe :
      12 * years + months ≤ 12 * years' + months') :
    location.addDate t (-years') (-months') 0 ≤
      location.addDate t (-years) (-months) 0 := by
  rw [addDate_months, addDate_months]
  rcases Int.lt_or_eq_of_le hLe with hLt | hSame
  · have hShown :=
      location.shownMonthsBefore_le t
        (Int.le_of_lt hLt)
    have hFirst :=
      location.ofLocal_bounds
        (location.shownMonthsBefore t (12 * years + months))
    have hSecond :=
      location.ofLocal_bounds
        (location.shownMonthsBefore t
          (12 * years' + months'))
    unfold nanosPerSecond
    omega
  · exact Int.le_of_eq (by rw [hSame])

/- Any months back is earlier. -/
theorem addDate_lt
    (t : Int)
    {years months : Int}
    (hPositive : 0 < 12 * years + months) :
    location.addDate t (-years) (-months) 0 < t := by
  rw [addDate_months]
  have hShown :=
    location.shownMonthsBefore_le t
      (Int.le_of_lt hPositive)
  rw [location.shownMonthsBefore_zero] at hShown
  have hOffset := location.offset_bounds (t / nanosPerSecond)
  have hSecond :=
    location.ofLocal_bounds
      (location.shownMonthsBefore t (12 * years + months))
  unfold localSecond at hShown
  unfold nanosPerSecond at *
  omega

end Location

end Foundation
