import Databasus.Scheduling.Schedule

/-
  The slots of a schedule, in universal time, and the runs that
  they cause.

  A run is due exactly when a slot has passed since the last
  run; a weekly or monthly slot counts in its own week or
  month only.  So every run of a sequence of passes has a
  slot, and no slot has two runs.

  Main declarations:
    * `Schedule.IsSlot`, `Schedule.InSamePeriod`
    * `isDue_iff`
    * `runPasses`
    * `slots_and_runs_correspond`
-/

------------------------------------------------------------
-- Universal Time
------------------------------------------------------------

namespace Databasus

namespace Scheduling

open Foundation Calendar

variable {second : Int}

/- The instant of a second of a day. -/
def instantOf (day second : Int) : Time :=
  (day * secondsPerDay + second) * nanosPerSecond

theorem localSecond_utc
    (t : Time) :
    Location.utc.localSecond t = t / nanosPerSecond := by
  unfold Location.localSecond Location.utc
  dsimp only
  exact Int.add_zero _

theorem localDay_instantOf
    (day : Int)
    (hFirst : 0 ≤ second)
    (hLast : second < 86400) :
    Location.utc.localDay (instantOf day second) = day := by
  unfold Location.localDay instantOf
  rw [localSecond_utc]
  unfold nanosPerSecond secondsPerDay
  omega

theorem secondOfDay_instantOf
    (day : Int)
    (hFirst : 0 ≤ second)
    (hLast : second < 86400) :
    Location.utc.secondOfDay (instantOf day second) =
      second := by
  unfold Location.secondOfDay instantOf
  rw [localSecond_utc]
  unfold nanosPerSecond secondsPerDay
  omega

/- An instant lies in its own day. -/
theorem instantOf_localDay
    (t : Time) :
    instantOf (Location.utc.localDay t) 0 ≤ t ∧
      t < instantOf (Location.utc.localDay t + 1) 0 := by
  unfold Location.localDay instantOf
  rw [localSecond_utc]
  unfold nanosPerSecond secondsPerDay Time
  omega

theorem date_utc
    (year month day hour minute : Int) :
    Location.utc.date year month day hour minute 0 0 =
      instantOf
        (monthStart (12 * year + month - 1) + (day - 1))
        (hour * 3600 + minute * 60) := by
  unfold Location.date Location.ofLocal Location.utc instantOf
  simp only [if_true]
  unfold nanosPerSecond
  omega

/- A date in the month of a day. -/
theorem date_utc_dateOf
    (day dayOfMonth hour minute : Int) :
    Location.utc.date (dateOf day).year (dateOf day).month
        dayOfMonth hour minute 0 0 =
      instantOf
        (monthStart (monthOf day) + (dayOfMonth - 1))
        (hour * 3600 + minute * 60) := by
  rw [date_utc]
  have hMonth := monthNumber_dateOf day
  unfold Date.monthNumber at hMonth
  rw [hMonth]

/- A time on the day itself. -/
theorem date_utc_self
    (day hour minute : Int) :
    Location.utc.date (dateOf day).year (dateOf day).month
        (dateOf day).day hour minute 0 0 =
      instantOf day (hour * 3600 + minute * 60) := by
  have hDay := monthStart_dateOf day
  rw [monthNumber_dateOf] at hDay
  rw [date_utc_dateOf, hDay]

/- The same time on another day, by months and by days. -/
theorem addDate_utc
    (day : Int)
    (hFirst : 0 ≤ second)
    (hLast : second < 86400)
    (months days : Int) :
    Location.utc.addDate (instantOf day second) 0 months
        days =
      instantOf
        (monthStart (monthOf day + months) +
          ((dateOf day).day + days - 1))
        second := by
  unfold Location.addDate Location.dateAt
  dsimp only
  rw [localDay_instantOf day hFirst hLast,
    secondOfDay_instantOf day hFirst hLast]
  have hNanos : instantOf day second % nanosPerSecond = 0 :=
    Int.mul_emod_left _ _
  have hMonth := monthNumber_dateOf day
  unfold Date.monthNumber at hMonth
  have hNumber :
      12 * ((dateOf day).year + 0) +
            ((dateOf day).month + months) - 1 =
        monthOf day + months := by
    omega
  rw [hNanos]
  unfold Location.date Location.ofLocal Location.utc instantOf
  simp only [if_true]
  rw [hNumber]
  unfold nanosPerSecond
  omega

end Scheduling

end Databasus

------------------------------------------------------------
-- Slots
------------------------------------------------------------

namespace Databasus

namespace Scheduling

open Foundation Calendar

def TimeOfDay.second (timeOfDay : TimeOfDay) : Int :=
  timeOfDay.hour * 3600 + timeOfDay.minute * 60

namespace Schedule

/-
  A weekly schedule has its weekday, where 7 is a Sunday too.
  A monthly one has its day, or the last one of the month.
-/
def IsSlotDay
    (schedule : Schedule)
    (day : Int) : Prop :=
  match schedule.type with
  | .daily => True
  | .weekly =>
      ∃ weekday,
        schedule.weekday = some weekday ∧
          weekdayOf day = weekday % 7
  | .monthly =>
      ∃ dayOfMonth,
        schedule.dayOfMonth = some dayOfMonth ∧
          (dateOf day).day =
            min dayOfMonth (monthLength (monthOf day))
  | _ => False

/- The schedule's time of day on one of its days. -/
def IsSlot
    (schedule : Schedule)
    (slot : Time) : Prop :=
  ∃ timeOfDay day,
    schedule.timeOfDay.bind parseTimeOfDay =
        some timeOfDay ∧
      slot = instantOf day timeOfDay.second ∧
        schedule.IsSlotDay day

/- Weeks are from Monday to Sunday. -/
def InSamePeriod
    (schedule : Schedule)
    (slot now : Time) : Prop :=
  match schedule.type with
  | .weekly =>
      mondayOf (Location.utc.localDay slot) =
        mondayOf (Location.utc.localDay now)
  | .monthly =>
      monthOf (Location.utc.localDay slot) =
        monthOf (Location.utc.localDay now)
  | _ => True

/- The kinds of schedules that have slots. -/
def HasSlots (schedule : Schedule) : Prop :=
  schedule.type = .daily ∨ schedule.type = .weekly ∨
    schedule.type = .monthly

end Schedule

end Scheduling

end Databasus

------------------------------------------------------------
-- Accepted Schedules
------------------------------------------------------------

namespace Databasus

namespace Scheduling

open Foundation Calendar

variable {cron : Cron}
variable {schedule : Schedule}
variable {timeOfDay : TimeOfDay}

theorem digit_bounds
    {c : Char}
    (hDigit : c.isDigit = true) :
    0 ≤ digit c ∧ digit c ≤ 9 := by
  simp only [Char.isDigit, Bool.and_eq_true,
    decide_eq_true_eq] at hDigit
  rcases hDigit with ⟨hLow, hHigh⟩
  have hLowNat : 48 ≤ c.toNat := UInt32.le_iff_toNat_le.mp hLow
  have hHighNat : c.toNat ≤ 57 :=
    UInt32.le_iff_toNat_le.mp hHigh
  have hZero : '0'.toNat = 48 := rfl
  unfold digit
  omega

theorem getNum_nonneg
    {isFixed : Bool}
    {chars rest : List Char}
    {number : Int}
    (hNumber : getNum isFixed chars = some (number, rest)) :
    0 ≤ number := by
  unfold getNum at hNumber
  split at hNumber
  · next first second rest =>
      split at hNumber
      · next hFirst =>
          have hTens := digit_bounds hFirst
          split at hNumber
          · next hSecond =>
              have hOnes := digit_bounds hSecond
              cases hNumber
              omega
          · split at hNumber
            · cases hNumber
            · cases hNumber
              exact hTens.1
      · cases hNumber
  · next first =>
      split at hNumber
      · next hFirst =>
          simp only [Bool.and_eq_true] at hFirst
          cases hNumber
          exact (digit_bounds hFirst.1).1
      · cases hNumber
  · cases hNumber

/- A parsed time of day lies within a day. -/
theorem parseTimeOfDay_bounds
    {text : String}
    (hParse : parseTimeOfDay text = some timeOfDay) :
    0 ≤ timeOfDay.second ∧ timeOfDay.second < 86400 := by
  unfold parseTimeOfDay at hParse
  split at hParse
  · next hour rest hHour =>
      split at hParse
      · cases hParse
      · next hBelow =>
          split at hParse
          · next minute hMinute =>
              split at hParse
              · cases hParse
              · next hWithin =>
                  cases hParse
                  have hHours := getNum_nonneg hHour
                  have hMinutes := getNum_nonneg hMinute
                  unfold TimeOfDay.second
                  dsimp only
                  omega
          · cases hParse
  · cases hParse

/- What validation has checked of a schedule with slots. -/
structure IsAccepted
    (schedule : Schedule)
    (timeOfDay : TimeOfDay) : Prop where
  timeOfDay :
    schedule.timeOfDay.bind parseTimeOfDay = some timeOfDay
  weekday :
    schedule.type = .weekly →
      ∃ weekday,
        schedule.weekday = some weekday ∧
          0 ≤ weekday ∧ weekday ≤ 7
  dayOfMonth :
    schedule.type = .monthly →
      ∃ dayOfMonth,
        schedule.dayOfMonth = some dayOfMonth ∧
          1 ≤ dayOfMonth ∧ dayOfMonth ≤ 31

theorem IsAccepted.bounds
    (hAccepted : IsAccepted schedule timeOfDay) :
    0 ≤ timeOfDay.second ∧ timeOfDay.second < 86400 := by
  rcases Option.bind_eq_some_iff.mp hAccepted.timeOfDay with
    ⟨text, _, hParse⟩
  exact parseTimeOfDay_bounds hParse

/- Checks in a row have passed when all of them have. -/
theorem ok_of_bind
    {check : Except ScheduleError Unit}
    {rest : Unit → Except ScheduleError Unit}
    (hChecks : (check >>= rest) = .ok ()) :
    check = .ok () ∧ rest () = .ok () := by
  cases check with
  | error error => cases hChecks
  | ok checked => exact ⟨rfl, hChecks⟩

theorem validate_ok
    (hValid : schedule.validate cron = .ok ()) :
    schedule.validateTimeOfDay = .ok () ∧
      schedule.validateWeekday = .ok () ∧
        schedule.validateDayOfMonth = .ok () := by
  unfold Schedule.validate at hValid
  split at hValid
  · cases hValid
  · rcases ok_of_bind hValid with ⟨hTime, hRest⟩
    rcases ok_of_bind hRest with ⟨hWeekday, hRest⟩
    rcases ok_of_bind hRest with ⟨hDay, _⟩
    exact ⟨hTime, hWeekday, hDay⟩

theorem isAccepted_of_validate
    (hValid : schedule.validate cron = .ok ())
    (hSlots : schedule.HasSlots) :
    ∃ timeOfDay, IsAccepted schedule timeOfDay := by
  rcases validate_ok hValid with ⟨hTime, hWeekday, hDay⟩
  have hParsed :
      ∃ timeOfDay,
        schedule.timeOfDay.bind parseTimeOfDay =
          some timeOfDay := by
    unfold Schedule.HasSlots at hSlots
    unfold Schedule.validateTimeOfDay at hTime
    rw [if_pos hSlots] at hTime
    split at hTime
    · cases hTime
    · next text hText =>
        split at hTime
        · cases hTime
        · next hParse =>
            rw [hText]
            exact
              Option.ne_none_iff_exists'.mp
                (by simpa using hParse)
  rcases hParsed with ⟨timeOfDay, hParsed⟩
  refine
    ⟨timeOfDay,
      { timeOfDay := hParsed
        weekday := ?_
        dayOfMonth := ?_ }⟩
  · intro hType
    unfold Schedule.validateWeekday at hWeekday
    rw [if_pos hType] at hWeekday
    split at hWeekday
    · cases hWeekday
    · next weekday hSome =>
        split at hWeekday
        · cases hWeekday
        · next hRange =>
            exact ⟨weekday, hSome, by omega, by omega⟩
  · intro hType
    unfold Schedule.validateDayOfMonth at hDay
    rw [if_pos hType] at hDay
    split at hDay
    · cases hDay
    · next dayOfMonth hSome =>
        split at hDay
        · cases hDay
        · next hRange =>
            exact ⟨dayOfMonth, hSome, by omega, by omega⟩

------------------------------------------------------------
-- Due Runs and Slots
------------------------------------------------------------

variable {second : Int}

/- The time of day of a slot on the day of an instant. -/
theorem atTimeOfDay_instantOf
    (hAccepted : IsAccepted schedule timeOfDay)
    (day : Int)
    (hFirst : 0 ≤ second)
    (hLast : second < 86400) :
    schedule.atTimeOfDay Location.utc
        (instantOf day second) =
      instantOf day timeOfDay.second := by
  unfold Schedule.atTimeOfDay
  rw [hAccepted.timeOfDay]
  dsimp only
  unfold Location.dateAt
  rw [localDay_instantOf day hFirst hLast, date_utc_self]
  rfl

theorem addDate_utc_days
    (day : Int)
    (hFirst : 0 ≤ second)
    (hLast : second < 86400)
    (days : Int) :
    Location.utc.addDate (instantOf day second) 0 0 days =
      instantOf (day + days) second := by
  have hDay := monthStart_dateOf day
  rw [monthNumber_dateOf] at hDay
  rw [addDate_utc day hFirst hLast, Int.add_zero]
  congr 1
  omega

/- The latest slot that has passed is today's or yesterday's. -/
theorem isDailyDue_iff
    (hAccepted : IsAccepted schedule timeOfDay)
    (now lastRun : Time) :
    schedule.isDailyDue Location.utc now lastRun = true ↔
      ∃ day,
        lastRun < instantOf day timeOfDay.second ∧
          instantOf day timeOfDay.second ≤ now := by
  rcases hAccepted.bounds with ⟨hFirst, hLast⟩
  rcases Option.bind_eq_some_iff.mp hAccepted.timeOfDay with
    ⟨text, hText, hParse⟩
  have hNow := instantOf_localDay now
  unfold Schedule.isDailyDue
  rw [hText]
  dsimp only
  rw [hParse]
  dsimp only
  unfold Location.dateAt
  rw [date_utc_self]
  have hSecond :
      timeOfDay.hour * 3600 + timeOfDay.minute * 60 =
        timeOfDay.second := rfl
  rw [hSecond, addDate_utc_days _ hFirst hLast,
    Bool.and_eq_true, decide_eq_true_eq, decide_eq_true_eq]
  generalize Location.utc.localDay now = today at hNow ⊢
  generalize timeOfDay.second = second at hFirst hLast ⊢
  unfold instantOf nanosPerSecond secondsPerDay Time at *
  split
  · next hBefore =>
      constructor
      · rintro ⟨hPassed, hSince⟩
        exact ⟨today + -1, hSince, hPassed⟩
      · rintro ⟨day, hSince, hPassed⟩
        omega
  · next hAfter =>
      constructor
      · rintro ⟨hPassed, hSince⟩
        exact ⟨today, hSince, hPassed⟩
      · rintro ⟨day, hSince, hPassed⟩
        omega

/- Midnight of the Monday of the week. -/
theorem getStartOfWeek_utc
    (now : Time) :
    getStartOfWeek Location.utc now =
      instantOf (mondayOf (Location.utc.localDay now)) 0 := by
  have hDay := monthStart_dateOf (Location.utc.localDay now)
  rw [monthNumber_dateOf] at hDay
  unfold getStartOfWeek Location.dateAt
  dsimp only
  rw [date_utc_dateOf]
  congr 1
  unfold mondayOf weekdayOf
  split
  · omega
  · omega

/- This week's slot has passed, and no run since then. -/
theorem isWeeklyDue_iff
    (hAccepted : IsAccepted schedule timeOfDay)
    {weekday : Int}
    (hWeekday : schedule.weekday = some weekday)
    (hLow : 0 ≤ weekday)
    (hHigh : weekday ≤ 7)
    (now lastRun : Time) :
    schedule.isWeeklyDue Location.utc now lastRun = true ↔
      ∃ day,
        (weekdayOf day = weekday % 7 ∧
          mondayOf day =
            mondayOf (Location.utc.localDay now)) ∧
          lastRun < instantOf day timeOfDay.second ∧
            instantOf day timeOfDay.second ≤ now := by
  rcases hAccepted.bounds with ⟨hFirst, hLast⟩
  have hMidnight : (0 : Int) < 86400 := by decide
  unfold Schedule.isWeeklyDue
  rw [hWeekday]
  dsimp only
  rw [getStartOfWeek_utc,
    addDate_utc_days _ (Int.le_refl 0) hMidnight,
    atTimeOfDay_instantOf hAccepted _ (Int.le_refl 0)
      hMidnight,
    Bool.and_eq_true, decide_eq_true_eq, decide_eq_true_eq]
  have hDay :
      ∀ day,
        weekdayOf day = weekday % 7 ∧
            mondayOf day =
              mondayOf (Location.utc.localDay now) ↔
          day =
            mondayOf (Location.utc.localDay now) +
              if weekday.tmod 7 = 0 then 6
              else weekday - 1 := by
    intro day
    rw [Int.tmod_eq_emod_of_nonneg hLow]
    generalize Location.utc.localDay now = today
    unfold mondayOf weekdayOf
    split
    · omega
    · omega
  constructor
  · rintro ⟨hPassed, hSince⟩
    exact ⟨_, (hDay _).mpr rfl, hSince, hPassed⟩
  · rintro ⟨day, hIs, hSince, hPassed⟩
    rw [(hDay day).mp hIs] at hSince hPassed
    exact ⟨hPassed, hSince⟩

/- The last day of the month, counted from one. -/
theorem getDaysInMonth_utc
    (now : Time) :
    getDaysInMonth Location.utc now =
      monthLength (monthOf (Location.utc.localDay now)) := by
  have hMidnight : (0 : Int) < 86400 := by decide
  have hStart :
      getStartOfMonth Location.utc now =
        instantOf
          (monthStart (monthOf (Location.utc.localDay now)))
          0 := by
    unfold getStartOfMonth Location.dateAt
    dsimp only
    rw [date_utc_dateOf]
    congr 1
    omega
  generalize monthOf (Location.utc.localDay now) = month at *
  have hNext := (monthStart_succ month).1
  have hMonth : monthOf (monthStart month) = month :=
    monthOf_eq (Int.le_refl _) (by omega)
  have hFirstDay : (dateOf (monthStart month)).day = 1 := by
    unfold dateOf
    dsimp only
    rw [hMonth]
    omega
  have hLastDay :
      monthOf (monthStart (month + 1) - 1) = month :=
    monthOf_eq (by omega) (by omega)
  unfold getDaysInMonth Location.dateAt
  rw [hStart, addDate_utc _ (Int.le_refl 0) hMidnight, hMonth,
    hFirstDay, localDay_instantOf _ (Int.le_refl 0) hMidnight]
  have hDay :
      monthStart (month + 1) + (1 + -1 - 1) =
        monthStart (month + 1) - 1 := by
    omega
  rw [hDay]
  unfold dateOf monthLength
  dsimp only
  rw [hLastDay]
  omega

/- This month's slot has passed, and no run since then. -/
theorem isMonthlyDue_iff
    (hAccepted : IsAccepted schedule timeOfDay)
    {dayOfMonth : Int}
    (hDayOfMonth : schedule.dayOfMonth = some dayOfMonth)
    (hLow : 1 ≤ dayOfMonth)
    (now lastRun : Time) :
    schedule.isMonthlyDue Location.utc now lastRun = true ↔
      ∃ day,
        ((dateOf day).day =
            min dayOfMonth (monthLength (monthOf day)) ∧
          monthOf day =
            monthOf (Location.utc.localDay now)) ∧
          lastRun < instantOf day timeOfDay.second ∧
            instantOf day timeOfDay.second ≤ now := by
  have hMidnight : (0 : Int) < 86400 := by decide
  unfold Schedule.isMonthlyDue
  rw [hDayOfMonth]
  dsimp only
  unfold Location.dateAt
  rw [date_utc_dateOf, getDaysInMonth_utc]
  have hZero : (0 : Int) * 3600 + 0 * 60 = 0 := rfl
  rw [hZero,
    atTimeOfDay_instantOf hAccepted _ (Int.le_refl 0)
      hMidnight,
    Bool.and_eq_true, decide_eq_true_eq, decide_eq_true_eq]
  generalize monthOf (Location.utc.localDay now) = month
  have hDay :
      ∀ day,
        (dateOf day).day =
              min dayOfMonth (monthLength (monthOf day)) ∧
            monthOf day = month ↔
          day =
            monthStart month +
              (min dayOfMonth (monthLength month) - 1) := by
    intro day
    have hLength := (monthStart_succ month).1
    constructor
    · rintro ⟨hDate, rfl⟩
      rw [← hDate]
      have hSelf := monthStart_dateOf day
      rw [monthNumber_dateOf] at hSelf
      exact hSelf.symm
    · rintro hIs
      have hMonth : monthOf day = month := by
        apply monthOf_eq
        · unfold monthLength at hIs
          omega
        · unfold monthLength at hIs
          omega
      refine ⟨?_, hMonth⟩
      rw [hMonth]
      have hSelf := monthStart_dateOf day
      rw [monthNumber_dateOf, hMonth] at hSelf
      omega
  constructor
  · rintro ⟨hPassed, hSince⟩
    exact ⟨_, (hDay _).mpr rfl, hSince, hPassed⟩
  · rintro ⟨day, hIs, hSince, hPassed⟩
    rw [(hDay day).mp hIs] at hSince hPassed
    exact ⟨hPassed, hSince⟩

------------------------------------------------------------
-- Sequences of Passes
------------------------------------------------------------

/- A run is due when a slot has passed in its own period. -/
theorem isDue_iff
    (hValid : schedule.validate cron = .ok ())
    (hSlots : schedule.HasSlots)
    (now lastRun : Time) :
    schedule.isDue Location.utc cron now (some lastRun) =
        true ↔
      ∃ slot,
        schedule.IsSlot slot ∧ lastRun < slot ∧
          slot ≤ now ∧ schedule.InSamePeriod slot now := by
  rcases isAccepted_of_validate hValid hSlots with
    ⟨timeOfDay, hAccepted⟩
  rcases hAccepted.bounds with ⟨hFirst, hLast⟩
  have hNoCron :
      schedule.isCronWithoutRunDate cron = false := by
    unfold Schedule.isCronWithoutRunDate
    rcases hSlots with hType | hType | hType <;>
      simp [hType]
  -- A slot is the time of day on a day that has one.
  have hSlot :
      (∃ slot,
          schedule.IsSlot slot ∧ lastRun < slot ∧
            slot ≤ now ∧ schedule.InSamePeriod slot now) ↔
        ∃ day,
          (schedule.IsSlotDay day ∧
            schedule.InSamePeriod
              (instantOf day timeOfDay.second) now) ∧
            lastRun < instantOf day timeOfDay.second ∧
              instantOf day timeOfDay.second ≤ now := by
    constructor
    · rintro ⟨_, ⟨other, day, hOther, rfl, hDay⟩, hSince,
        hPassed, hPeriod⟩
      have hSame : other = timeOfDay := by
        rw [hAccepted.timeOfDay] at hOther
        cases hOther
        rfl
      rw [hSame] at hSince hPassed hPeriod
      exact ⟨day, ⟨hDay, hPeriod⟩, hSince, hPassed⟩
    · rintro ⟨day, ⟨hDay, hPeriod⟩, hSince, hPassed⟩
      exact
        ⟨_, ⟨timeOfDay, day, hAccepted.timeOfDay, rfl, hDay⟩,
          hSince, hPassed, hPeriod⟩
  rw [hSlot]
  unfold Schedule.isDue
  rw [hNoCron]
  simp only [Bool.false_eq_true, if_false]
  unfold Schedule.IsSlotDay Schedule.InSamePeriod
  rcases hSlots with hType | hType | hType
  · simp only [hType, true_and]
    exact isDailyDue_iff hAccepted now lastRun
  · rcases hAccepted.weekday hType with
      ⟨weekday, hWeekday, hLow, hHigh⟩
    simp only [hType, hWeekday, Option.some.injEq,
      exists_eq_left', localDay_instantOf _ hFirst hLast]
    exact
      isWeeklyDue_iff hAccepted hWeekday hLow hHigh now
        lastRun
  · rcases hAccepted.dayOfMonth hType with
      ⟨dayOfMonth, hDayOfMonth, hLow, _⟩
    simp only [hType, hDayOfMonth, Option.some.injEq,
      exists_eq_left', localDay_instantOf _ hFirst hLast]
    exact
      isMonthlyDue_iff hAccepted hDayOfMonth hLow now lastRun

/- A run and the one before it. -/
structure DueRun where
  lastRun : Time
  startedAt : Time
deriving DecidableEq, Repr

/- A pass that finds a run due starts it. -/
def runPasses
    (isDue : Time → Time → Bool)
    (lastRun : Time) : List Time → List DueRun
  | [] => []
  | now :: later =>
      if isDue now lastRun then
        { lastRun := lastRun, startedAt := now } ::
          runPasses isDue now later
      else
        runPasses isDue lastRun later

def Schedule.runs
    (schedule : Schedule)
    (cron : Cron)
    (lastRun : Time)
    (passes : List Time) : List DueRun :=
  runPasses
    (fun now lastRun =>
      schedule.isDue Location.utc cron now (some lastRun))
    lastRun passes

/- The slot has passed since the last run, in its period. -/
def Schedule.Causes
    (schedule : Schedule)
    (slot : Time)
    (run : DueRun) : Prop :=
  schedule.IsSlot slot ∧ run.lastRun < slot ∧
    slot ≤ run.startedAt ∧
      schedule.InSamePeriod slot run.startedAt

theorem monthOf_le
    {day day' : Int}
    (hLe : day ≤ day') :
    monthOf day ≤ monthOf day' := by
  apply Int.not_lt.mp
  intro hLess
  have hMonths := monthStart_le (Int.add_one_le_of_lt hLess)
  have hSpec := monthOf_spec day
  have hSpec' := monthOf_spec day'
  omega

theorem localDay_utc_le
    {t t' : Time}
    (hLe : t ≤ t') :
    Location.utc.localDay t ≤ Location.utc.localDay t' := by
  unfold Location.localDay
  rw [localSecond_utc, localSecond_utc]
  unfold nanosPerSecond secondsPerDay
  unfold Time at *
  omega

/- What lies between a slot and its period is in it as well. -/
theorem inSamePeriod_between
    {slot between now : Time}
    (hFirst : slot ≤ between)
    (hLast : between ≤ now)
    (hPeriod : schedule.InSamePeriod slot now) :
    schedule.InSamePeriod slot between := by
  have hDays := localDay_utc_le hFirst
  have hDays' := localDay_utc_le hLast
  unfold Schedule.InSamePeriod at *
  split
  · next hType =>
      simp only [hType] at hPeriod
      unfold mondayOf at *
      omega
  · next hType =>
      simp only [hType] at hPeriod
      have hMonths := monthOf_le hDays
      have hMonths' := monthOf_le hDays'
      omega
  · trivial

variable (hValid : schedule.validate cron = .ok ())
variable (hSlots : schedule.HasSlots)

include hValid hSlots

/- No run without a slot, and none before the last run. -/
theorem runs_caused
    (passes : List Time)
    (lastRun : Time) :
    ∀ run ∈ schedule.runs cron lastRun passes,
      lastRun ≤ run.lastRun ∧
        ∃ slot, schedule.Causes slot run := by
  unfold Schedule.runs
  induction passes generalizing lastRun with
  | nil =>
      intro run hRun
      exact absurd hRun List.not_mem_nil
  | cons now later ih =>
      intro run hRun
      rw [runPasses] at hRun
      split at hRun
      · next hDue =>
          rcases
              (isDue_iff hValid hSlots now lastRun).mp hDue
            with ⟨slot, hSlot, hSince, hPassed, hPeriod⟩
          rcases List.mem_cons.mp hRun with rfl | hLater
          · exact
              ⟨Int.le_refl _, slot, hSlot, hSince, hPassed,
                hPeriod⟩
          · rcases ih now run hLater with ⟨hAfter, hCaused⟩
            refine ⟨?_, hCaused⟩
            exact
              Int.le_trans
                (Int.le_of_lt (Int.lt_of_lt_of_le hSince hPassed))
                hAfter
      · exact ih lastRun run hRun

/- A slot causes one run at most. -/
theorem runs_apart
    (passes : List Time)
    (lastRun : Time) :
    (schedule.runs cron lastRun passes).Pairwise
      fun first second =>
        ∀ slot,
          schedule.Causes slot first →
            ¬schedule.Causes slot second := by
  induction passes generalizing lastRun with
  | nil => exact List.Pairwise.nil
  | cons now later ih =>
      unfold Schedule.runs at ih ⊢
      rw [runPasses]
      split
      · refine List.Pairwise.cons ?_ (ih now)
        intro run hRun slot hFirst hSecond
        have hAfter :=
          (runs_caused hValid hSlots later now run hRun).1
        have hBefore : slot ≤ now := hFirst.2.2.1
        exact
          absurd hSecond.2.1
            (Int.not_lt.mpr (Int.le_trans hBefore hAfter))
      · exact ih lastRun

/- A slot that a pass follows in its period has its run. -/
theorem slot_not_skipped
    (passes : List Time)
    (hOrder : passes.Pairwise (· ≤ ·))
    (lastRun : Time)
    {slot : Time}
    (hSlot : schedule.IsSlot slot)
    (hSince : lastRun < slot)
    {pass : Time}
    (hPass : pass ∈ passes)
    (hPassed : slot ≤ pass)
    (hPeriod : schedule.InSamePeriod slot pass) :
    ∃ run ∈ schedule.runs cron lastRun passes,
      schedule.Causes slot run ∧ run.startedAt ≤ pass := by
  induction passes generalizing lastRun with
  | nil => exact absurd hPass List.not_mem_nil
  | cons now later ih =>
      rw [List.pairwise_cons] at hOrder
      have hNow : now ≤ pass := by
        rcases List.mem_cons.mp hPass with rfl | hLater
        · exact Int.le_refl _
        · exact hOrder.1 pass hLater
      by_cases hReached : slot ≤ now
      · have hHere :=
          inSamePeriod_between hReached hNow hPeriod
        have hDue :=
          (isDue_iff hValid hSlots now lastRun).mpr
            ⟨slot, hSlot, hSince, hReached, hHere⟩
        unfold Schedule.runs
        rw [runPasses, if_pos hDue]
        exact
          ⟨_, List.mem_cons_self,
            ⟨hSlot, hSince, hReached, hHere⟩, hNow⟩
      · have hLater : pass ∈ later := by
          rcases List.mem_cons.mp hPass with rfl | hLater
          · exact absurd hPassed hReached
          · exact hLater
        unfold Schedule.runs at ih ⊢
        rw [runPasses]
        split
        · rcases ih hOrder.2 now (Int.not_le.mp hReached) hLater
            with ⟨run, hRun, hCauses⟩
          exact ⟨run, List.mem_cons_of_mem _ hRun, hCauses⟩
        · exact ih hOrder.2 lastRun hSince hLater

end Scheduling

end Databasus

------------------------------------------------------------
-- Slots and Runs
------------------------------------------------------------

namespace Databasus

namespace Scheduling

open Foundation

/-
  A run is due exactly when a slot has passed in its period.
  So every run has a slot, no slot has two runs, and a slot
  that a pass follows in its period has one by then.
-/
theorem slots_and_runs_correspond
    (cron : Cron)
    (schedule : Schedule)
    (hValid : schedule.validate cron = .ok ())
    (hSlots : schedule.HasSlots) :
    (∀ now lastRun : Time,
      schedule.isDue Location.utc cron now (some lastRun) =
          true ↔
        ∃ slot,
          schedule.IsSlot slot ∧ lastRun < slot ∧
            slot ≤ now ∧
              schedule.InSamePeriod slot now) ∧
      ∀ (lastRun : Time) (passes : List Time),
        passes.Pairwise (· ≤ ·) →
          (∀ run ∈ schedule.runs cron lastRun passes,
            ∃ slot, schedule.Causes slot run) ∧
          (schedule.runs cron lastRun passes).Pairwise
            (fun first second =>
              ∀ slot,
                schedule.Causes slot first →
                  ¬schedule.Causes slot second) ∧
          ∀ slot,
            schedule.IsSlot slot → lastRun < slot →
              ∀ pass ∈ passes,
                slot ≤ pass →
                  schedule.InSamePeriod slot pass →
                    ∃ run ∈
                        schedule.runs cron lastRun passes,
                      schedule.Causes slot run ∧
                        run.startedAt ≤ pass := by
  refine ⟨isDue_iff hValid hSlots, ?_⟩
  intro lastRun passes hOrder
  refine ⟨?_, runs_apart hValid hSlots passes lastRun, ?_⟩
  · intro run hRun
    exact (runs_caused hValid hSlots passes lastRun run hRun).2
  · intro slot hSlot hSince pass hPass hPassed hPeriod
    exact
      slot_not_skipped hValid hSlots passes hOrder lastRun
        hSlot hSince hPass hPassed hPeriod

/- The last day of every month, at 9:30. -/
def monthEndSchedule : Schedule :=
  { type := .monthly
    timeOfDay := some "9:30"
    dayOfMonth := some 31 }

theorem slots_and_runs_correspond_monthEnd :
    (∀ now lastRun : Time,
      monthEndSchedule.isDue Location.utc
            { parse := fun _ => none } now (some lastRun) =
          true ↔
        ∃ slot,
          monthEndSchedule.IsSlot slot ∧ lastRun < slot ∧
            slot ≤ now ∧
              monthEndSchedule.InSamePeriod slot now) ∧
      ∀ (lastRun : Time) (passes : List Time),
        passes.Pairwise (· ≤ ·) →
          (∀ run ∈
              monthEndSchedule.runs
                { parse := fun _ => none } lastRun passes,
            ∃ slot, monthEndSchedule.Causes slot run) ∧
          (monthEndSchedule.runs { parse := fun _ => none }
                lastRun passes).Pairwise
            (fun first second =>
              ∀ slot,
                monthEndSchedule.Causes slot first →
                  ¬monthEndSchedule.Causes slot second) ∧
          ∀ slot,
            monthEndSchedule.IsSlot slot → lastRun < slot →
              ∀ pass ∈ passes,
                slot ≤ pass →
                  monthEndSchedule.InSamePeriod slot pass →
                    ∃ run ∈
                        monthEndSchedule.runs
                          { parse := fun _ => none } lastRun
                          passes,
                      monthEndSchedule.Causes slot run ∧
                        run.startedAt ≤ pass :=
  slots_and_runs_correspond { parse := fun _ => none }
    monthEndSchedule rfl (Or.inr (Or.inr rfl))

/- The slot of 29 February 2024, and the pass after it. -/
example :
    monthEndSchedule.runs { parse := fun _ => none } 0
        [instantOf 19782 34199, instantOf 19782 34200,
          instantOf 19782 86399] =
      [⟨0, instantOf 19782 34200⟩] := by
  decide +kernel

end Scheduling

end Databasus
