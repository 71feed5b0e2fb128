import Databasus.Common
import Databasus.Foundation.ZonedTime

/-
  When a recurring run is due.

  Cron expressions are read by a library, which is a parameter:
  it refuses an expression or tells the next run after an
  instant, if there is one.

  Main declarations:
    * `Schedule`
    * `parseTimeOfDay`
    * `Schedule.validate`
    * `Schedule.isDue`
-/

------------------------------------------------------------
-- Schedules
------------------------------------------------------------

namespace Databasus

namespace Scheduling

inductive ScheduleType
  | hourly
  | daily
  | weekly
  | monthly
  | cron
  | other (name : String)
deriving DecidableEq, Repr

/- The fields that a type does not need may be missing. -/
structure Schedule where
  type : ScheduleType
  timeOfDay : Option String := none
  weekday : Option Int := none
  dayOfMonth : Option Int := none
  cronExpression : Option String := none
deriving DecidableEq, Repr

inductive ScheduleError
  | invalidType (type : ScheduleType)
  | timeOfDayRequired
  | invalidTimeOfDay
  | weekdayRequired
  | weekdayOutOfRange
  | dayOfMonthRequired
  | dayOfMonthOutOfRange
  | cronExpressionMissing
  | invalidCronExpression
deriving DecidableEq, Repr

/- The library of cron expressions. -/
structure Cron where
  parse : String → Option (Time → Option Time)

structure TimeOfDay where
  hour : Int
  minute : Int
deriving DecidableEq, Repr

def digit (c : Char) : Int :=
  c.toNat - '0'.toNat

/- One digit or two, or exactly two. -/
def getNum
    (isFixed : Bool) : List Char → Option (Int × List Char)
  | first :: second :: rest =>
      if first.isDigit then
        if second.isDigit then
          some (digit first * 10 + digit second, rest)
        else if isFixed then
          none
        else
          some (digit first, second :: rest)
      else
        none
  | [first] =>
      if first.isDigit && !isFixed then
        some (digit first, [])
      else
        none
  | [] => none

/- The layout `15:04`: the hour may have one digit. -/
def parseTimeOfDay (text : String) : Option TimeOfDay :=
  match getNum false text.toList with
  | some (hour, ':' :: rest) =>
      if 24 ≤ hour then none
      else
        match getNum true rest with
        | some (minute, []) =>
            if 60 ≤ minute then none
            else some { hour := hour, minute := minute }
        | _ => none
  | _ => none

namespace Schedule

variable (cron : Cron)

/- It is looked for from a fixed leap year on. -/
def isCronWithoutRunDate (schedule : Schedule) : Bool :=
  if schedule.type = .cron then
    match schedule.cronExpression.bind cron.parse with
    | none => false
    | some next =>
        (next
          (Foundation.Location.utc.date 2024 1 1 0 0 0
            0)).isNone
  else
    false

def validateTimeOfDay
    (schedule : Schedule) : Except ScheduleError Unit :=
  if
    schedule.type = .daily ∨ schedule.type = .weekly ∨
      schedule.type = .monthly
  then
    match schedule.timeOfDay with
    | none => .error .timeOfDayRequired
    | some text =>
        if (parseTimeOfDay text).isNone then
          .error .invalidTimeOfDay
        else
          .ok ()
  else
    .ok ()

def validateWeekday
    (schedule : Schedule) : Except ScheduleError Unit :=
  if schedule.type = .weekly then
    match schedule.weekday with
    | none => .error .weekdayRequired
    | some weekday =>
        if weekday < 0 ∨ 7 < weekday then
          .error .weekdayOutOfRange
        else
          .ok ()
  else
    .ok ()

def validateDayOfMonth
    (schedule : Schedule) : Except ScheduleError Unit :=
  if schedule.type = .monthly then
    match schedule.dayOfMonth with
    | none => .error .dayOfMonthRequired
    | some dayOfMonth =>
        if dayOfMonth < 1 ∨ 31 < dayOfMonth then
          .error .dayOfMonthOutOfRange
        else
          .ok ()
  else
    .ok ()

def validateCron
    (schedule : Schedule) : Except ScheduleError Unit :=
  if schedule.type = .cron then
    match schedule.cronExpression with
    | none => .error .cronExpressionMissing
    | some expression =>
        if expression = "" then
          .error .cronExpressionMissing
        else if (cron.parse expression).isNone then
          .error .invalidCronExpression
        else if schedule.isCronWithoutRunDate cron then
          .error .invalidCronExpression
        else
          .ok ()
  else
    .ok ()

def validate
    (schedule : Schedule) : Except ScheduleError Unit :=
  match schedule.type with
  | .other name => .error (.invalidType (.other name))
  | _ => do
      schedule.validateTimeOfDay
      schedule.validateWeekday
      schedule.validateDayOfMonth
      schedule.validateCron cron

/- A coarse cadence, zero where none can be told. -/
def getApproxPeriod (schedule : Schedule) : Duration :=
  match schedule.type with
  | .hourly => Duration.hour
  | .daily => 24 * Duration.hour
  | .weekly => 7 * 24 * Duration.hour
  | .monthly => 30 * 24 * Duration.hour
  | .cron => 0
  | .other _ => 0

end Schedule

------------------------------------------------------------
-- Due Runs
------------------------------------------------------------

open Foundation

variable (location : Location)

def getStartOfWeek (moment : Time) : Time :=
  let date := location.dateAt moment
  let weekday :=
    Calendar.weekdayOf (location.localDay moment)
  let daysSinceSunday := if weekday = 0 then 7 else weekday
  location.date date.year date.month
    (date.day - daysSinceSunday + 1) 0 0 0 0

def getStartOfMonth (moment : Time) : Time :=
  let date := location.dateAt moment
  location.date date.year date.month 1 0 0 0 0

def getDaysInMonth (moment : Time) : Int :=
  (location.dateAt
    (location.addDate (getStartOfMonth location moment) 0 1
      (-1))).day

namespace Schedule

/- A day without a time of day is its own slot. -/
def atTimeOfDay
    (schedule : Schedule)
    (day : Time) : Time :=
  match schedule.timeOfDay.bind parseTimeOfDay with
  | none => day
  | some timeOfDay =>
      let date := location.dateAt day
      location.date date.year date.month date.day
        timeOfDay.hour timeOfDay.minute 0 0

def isDailyDue
    (schedule : Schedule)
    (now lastRun : Time) : Bool :=
  match schedule.timeOfDay with
  | none => location.dateAt lastRun ≠ location.dateAt now
  | some text =>
      match parseTimeOfDay text with
      | none => false
      | some timeOfDay =>
          let date := location.dateAt now
          let todaySlot :=
            location.date date.year date.month date.day
              timeOfDay.hour timeOfDay.minute 0 0
          let lastSlot :=
            if now < todaySlot then
              location.addDate todaySlot 0 0 (-1)
            else
              todaySlot
          lastSlot ≤ now && lastRun < lastSlot

def isWeeklyDue
    (schedule : Schedule)
    (now lastRun : Time) : Bool :=
  match schedule.weekday with
  | none => 7 * 24 * Duration.hour ≤ now - lastRun
  | some weekday =>
      let daysFromMonday :=
        if weekday.tmod 7 = 0 then 6 else weekday - 1
      let thisWeekSlot :=
        schedule.atTimeOfDay location
          (location.addDate (getStartOfWeek location now) 0 0
            daysFromMonday)
      thisWeekSlot ≤ now && lastRun < thisWeekSlot

def isMonthlyDue
    (schedule : Schedule)
    (now lastRun : Time) : Bool :=
  match schedule.dayOfMonth with
  | none => lastRun < getStartOfMonth location now
  | some dayOfMonth =>
      let slotDay :=
        min dayOfMonth (getDaysInMonth location now)
      let date := location.dateAt now
      let thisMonthSlot :=
        schedule.atTimeOfDay location
          (location.date date.year date.month slotDay 0 0 0 0)
      thisMonthSlot ≤ now && lastRun < thisMonthSlot

def isCronDue
    (cron : Cron)
    (schedule : Schedule)
    (now lastRun : Time) : Bool :=
  match schedule.cronExpression with
  | none => false
  | some expression =>
      if expression = "" then false
      else
        match cron.parse expression with
        | none => false
        | some next =>
            match next lastRun with
            -- The library answers with the zero instant.
            | none => true
            | some nextRun => nextRun ≤ now

/- A schedule that never ran is due at once. -/
def isDue
    (cron : Cron)
    (schedule : Schedule)
    (now : Time)
    (lastRun : Option Time) : Bool :=
  if schedule.isCronWithoutRunDate cron then false
  else
    match lastRun with
    | none => true
    | some lastRun =>
        match schedule.type with
        | .hourly => Duration.hour ≤ now - lastRun
        | .daily => schedule.isDailyDue location now lastRun
        | .weekly => schedule.isWeeklyDue location now lastRun
        | .monthly =>
            schedule.isMonthlyDue location now lastRun
        | .cron => schedule.isCronDue cron now lastRun
        | .other _ => false

end Schedule

end Scheduling

end Databasus
