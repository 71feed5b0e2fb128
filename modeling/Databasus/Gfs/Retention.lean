import Mathlib.Algebra.Group.Nat.Defs
import Mathlib.Data.List.Sort
import Databasus.Common
import Databasus.Foundation.Buckets
import Databasus.Foundation.ZonedTime

/-
  The items that a grandfather-father-son retention keeps.

  Every tier keeps the newest item of each of its periods, as
  many of them as its count and no further back than its
  window.  Windows of hours, days and weeks are durations of
  64 bits, which wrap.

  Main declarations:
    * `Item`, `Tier`, `GfsRetention`
    * `GfsRetention.cutoff`
    * `sortNewestFirst`
    * `getItemsToRetain`
-/

------------------------------------------------------------
-- Items and Tiers
------------------------------------------------------------

namespace Databasus

namespace Gfs

structure Item where
  id : Uuid
  createdAt : Time
deriving DecidableEq, Repr

inductive Tier
  | hourly
  | daily
  | weekly
  | monthly
  | yearly
deriving DecidableEq, Repr

/- In the order in which an item collects them. -/
def Tier.all : List Tier :=
  [.hourly, .daily, .weekly, .monthly, .yearly]

/- How many periods each tier keeps. -/
structure GfsRetention where
  hours : Int
  days : Int
  weeks : Int
  months : Int
  years : Int
deriving DecidableEq, Repr

namespace GfsRetention

def count (retention : GfsRetention) : Tier → Int
  | .hourly => retention.hours
  | .daily => retention.days
  | .weekly => retention.weeks
  | .monthly => retention.months
  | .yearly => retention.years

/- Validation admits any counts of which one is positive. -/
def hasAnyPeriod (retention : GfsRetention) : Bool :=
  0 < retention.hours || 0 < retention.days ||
    0 < retention.weeks || 0 < retention.months ||
      0 < retention.years

end GfsRetention

------------------------------------------------------------
-- Windows
------------------------------------------------------------

open Foundation

/- A product of durations, in 64 bits. -/
def mulDuration (first second : Duration) : Duration :=
  (first * second).bmod (2 ^ 64)

def laterOf (first second : Time) : Time :=
  if second < first then first else second

namespace GfsRetention

variable (location : Location)
variable (retention : GfsRetention)

def hourlyWindow : Duration :=
  mulDuration (-retention.hours) Duration.hour

def dailyWindow : Duration :=
  mulDuration (mulDuration (-retention.days) 24) Duration.hour

def weeklyWindow : Duration :=
  mulDuration
    (mulDuration (mulDuration (-retention.weeks) 7) 24)
    Duration.hour

/-
  A window goes no further back than that of the next coarser
  tier that keeps anything.
-/
def yearlyCutoff (ref : Time) : Time :=
  location.addDate ref (-retention.years) 0 0

def monthlyCutoff (ref : Time) : Time :=
  let raw := location.addDate ref 0 (-retention.months) 0
  if 0 < retention.years then
    laterOf raw (retention.yearlyCutoff location ref)
  else
    raw

def weeklyCutoff (ref : Time) : Time :=
  let raw := ref + retention.weeklyWindow
  if 0 < retention.months then
    laterOf raw (retention.monthlyCutoff location ref)
  else if 0 < retention.years then
    laterOf raw (retention.yearlyCutoff location ref)
  else
    raw

def dailyCutoff (ref : Time) : Time :=
  let raw := ref + retention.dailyWindow
  if 0 < retention.weeks then
    laterOf raw (retention.weeklyCutoff location ref)
  else if 0 < retention.months then
    laterOf raw (retention.monthlyCutoff location ref)
  else if 0 < retention.years then
    laterOf raw (retention.yearlyCutoff location ref)
  else
    raw

def hourlyCutoff (ref : Time) : Time :=
  let raw := ref + retention.hourlyWindow
  if 0 < retention.days then
    laterOf raw (retention.dailyCutoff location ref)
  else if 0 < retention.weeks then
    laterOf raw (retention.weeklyCutoff location ref)
  else if 0 < retention.months then
    laterOf raw (retention.monthlyCutoff location ref)
  else if 0 < retention.years then
    laterOf raw (retention.yearlyCutoff location ref)
  else
    raw

def cutoff (ref : Time) : Tier → Time
  | .hourly => retention.hourlyCutoff location ref
  | .daily => retention.dailyCutoff location ref
  | .weekly => retention.weeklyCutoff location ref
  | .monthly => retention.monthlyCutoff location ref
  | .yearly => retention.yearlyCutoff location ref

end GfsRetention

------------------------------------------------------------
-- Retained Items
------------------------------------------------------------

/- The parts that the text of a period's key is made of. -/
abbrev PeriodKey := List Int

variable (location : Location)

def hourKey (t : Time) : PeriodKey :=
  let date := location.dateAt t
  [date.year, date.month, date.day, location.hourOf t]

def dayKey (t : Time) : PeriodKey :=
  let date := location.dateAt t
  [date.year, date.month, date.day]

def weekKey (t : Time) : PeriodKey :=
  let (weekYear, week) :=
    Calendar.isoWeekOf (location.localDay t)
  [weekYear, week]

def monthKey (t : Time) : PeriodKey :=
  let date := location.dateAt t
  [date.year, date.month]

def yearKey (t : Time) : PeriodKey :=
  [(location.dateAt t).year]

def Tier.key (t : Time) : Tier → PeriodKey
  | .hourly => hourKey location t
  | .daily => dayKey location t
  | .weekly => weekKey location t
  | .monthly => monthKey location t
  | .yearly => yearKey location t

/- Newest first; ids break ties. -/
def Item.Precedes (first second : Item) : Prop :=
  second.createdAt < first.createdAt ∨
    first.createdAt = second.createdAt ∧
      first.id ≤ second.id

instance instDecidableRelPrecedes :
    DecidableRel Item.Precedes :=
  fun _ _ => inferInstanceAs (Decidable (_ ∨ _))

def sortNewestFirst (items : List Item) : List Item :=
  items.insertionSort Item.Precedes

/- What a tier takes, seen from the newest item's instant. -/
def tierRule
    (retention : GfsRetention)
    (ref : Time)
    (tier : Tier) : BucketRule Item PeriodKey where
  limit := retention.count tier
  key item := tier.key location item.createdAt
  isInside item :=
    retention.cutoff location ref tier < item.createdAt

/- The periods taken, and the tiers collected under an id. -/
structure RetentionState where
  progress : Tier → BucketProgress PeriodKey := fun _ => {}
  keep : Uuid → List Tier := fun _ => []

def visit
    (rules : Tier → BucketRule Item PeriodKey)
    (s : RetentionState)
    (item : Item) : RetentionState :=
  let claimed :=
    Tier.all.filter fun tier =>
      (rules tier).claims (s.progress tier) item
  { progress := fun tier =>
      (rules tier).advance (s.progress tier) item
    keep := fun id =>
      if id = item.id then s.keep id ++ claimed
      else s.keep id }

/- The tiers that retain each item. -/
def getItemsToRetain
    (items : List Item)
    (retention : GfsRetention) : Uuid → List Tier :=
  match sortNewestFirst items with
  | [] => fun _ => []
  | newest :: older =>
      let rules := tierRule location retention newest.createdAt
      ((newest :: older).foldl (visit rules) {}).keep

end Gfs

end Databasus
