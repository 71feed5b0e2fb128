import Mathlib.Algebra.Order.Ring.Unbundled.Rat
import Databasus.Chains.RestoreSet
import Databasus.Config.PhysicalConfig

/-
  The retention pass over the physical backups.

  For each enabled configuration the cleaner lists the chains
  that cannot be extended, the last ended first, and deletes
  those that no policy keeps and that are old enough.  A full
  that is kept alone sheds its incrementals and its segments.

  Main declarations:
    * `nonExtendableChainsNewestEndFirst`
    * `isChainWithinGrace`
    * `getRetainedTiersByFullBackupID`
    * `cleanByChains`, `cleanByFulls`, `cleanByCombined`
    * `cleanByRetentionPolicy`
-/

------------------------------------------------------------
-- Chains that may be Deleted
------------------------------------------------------------

namespace Databasus

namespace Retention

open Catalog
open Chains
open Walmath (LSN)

/-
  Which queries the database answers, which deletions the
  storages accept, and the clock when a chain is looked at.
-/
structure CleanerAnswers where
  listsFulls : Bool
  listsChains : Bool
  loadsEnd : Uuid → Bool
  sizesBudget : Uuid → Bool
  acceptsDeletion : Uuid → Bool
  now : Uuid → Time

inductive CleanerError
  | queryFailed
  | view (error : ViewError)
deriving DecidableEq, Repr

structure ChainCandidate where
  view : ChainView
  endAt : Time
deriving DecidableEq

/- The chain by the id of its full. -/
def ChainCandidate.rootID (candidate : ChainCandidate) : Uuid :=
  candidate.view.rootFull.id

/-
  A sort by the ends, the latest first.  Chains that end at
  the same instant come in any order.
-/
structure EndOrder where
  sort : List ChainCandidate → List ChainCandidate
  perm : ∀ candidates, (sort candidates).Perm candidates
  sorted :
    ∀ candidates,
      (sort candidates).Pairwise fun first second =>
        second.endAt ≤ first.endAt

def getLatestReceivedAtInChainSpan
    (segments : List WalSegment)
    (databaseID : Uuid)
    (timelineID : Nat)
    (startLSN endLSN : LSN) : Option Time :=
  ((findByChainSpan segments databaseID timelineID startLSN
    endLSN).map WalSegment.receivedAt).max?

/- The last completion or segment of the chain. -/
def getChainEndTimestamp
    (segments : List WalSegment)
    (view : ChainView) : Time :=
  let latest :=
    (view.incrementals.filterMap
      Backup.completedAt).foldl max
        (derefTime view.rootFull.completedAt)
  match
    getLatestReceivedAtInChainSpan segments
      view.rootFull.databaseID view.rootFull.timelineID
      view.span.start view.span.endLSN
  with
  | none => latest
  | some latestWalReceivedAt => max latest latestWalReceivedAt

/- A chain whose end does not load is no candidate. -/
def chainCandidates
    (answers : CleanerAnswers)
    (segments : List WalSegment)
    (views : List ChainView) : List ChainCandidate :=
  (views.filter fun view =>
    answers.loadsEnd view.rootFull.id).map fun view =>
      { view := view
        endAt := getChainEndTimestamp segments view }

def nonExtendableChainsNewestEndFirst
    (order : EndOrder)
    (answers : CleanerAnswers)
    (s : CatalogState)
    (databaseID : Uuid) :
    Except CleanerError (List ChainCandidate) :=
  if answers.listsChains then
    match
      findNonExtendableChainsByDatabase s.backups databaseID
    with
    | .error error => .error (.view error)
    | .ok views =>
        .ok
          (order.sort
            (chainCandidates answers s.segments views))
  else
    .error .queryFailed

------------------------------------------------------------
-- Grace
------------------------------------------------------------

open Config (PhysicalBackupConfig)
open Scheduling (Schedule)

def chainGraceIntervalMultiplier : Int := 2

def recentBackupGracePeriod : Duration := Duration.hour

/- A day, where no cadence can be told. -/
def approxScheduleDuration
    (cadence : Option Schedule) : Duration :=
  match cadence with
  | none => 24 * Duration.hour
  | some cadence =>
      if 0 < cadence.getApproxPeriod then
        cadence.getApproxPeriod
      else
        24 * Duration.hour

/-
  The chain is too young to be deleted.  The difference of
  two instants saturates, which compares in the same way.
-/
def isChainWithinGrace
    (now : Time)
    (config : PhysicalBackupConfig)
    (chainEndTs : Time) : Bool :=
  let grace :=
    max
      (approxScheduleDuration
        (some config.fullBackupSchedule))
      (approxScheduleDuration
        config.incrementalBackupSchedule) *
        chainGraceIntervalMultiplier
  let grace := max grace recentBackupGracePeriod
  now - chainEndTs < grace

------------------------------------------------------------
-- Fulls that are Kept
------------------------------------------------------------

open Foundation (Location)
open Catalog (Backup)
open Config (PhysicalRetention)
open Gfs (Tier getItemsToRetain)

/-
  The tiers that keep each full.  There is no result at all
  when the policy has no effective configuration.
-/
def getRetainedTiersByFullBackupID
    (location : Location)
    (retention : PhysicalRetention)
    (completedFullsNewestFirst : List Backup) :
    Option (Uuid → Option (List Tier)) :=
  let fullBackups := retention.fullBackups
  match fullBackups.policy with
  | .lastN =>
      if fullBackups.count ≤ 0 then
        none
      else
        let kept :=
          completedFullsNewestFirst.take
            fullBackups.count.toNat
        some fun id =>
          if kept.any fun full => full.id = id then
            some []
          else
            none
  | .gfs =>
      if
        fullBackups.gfs.hours ≤ 0 ∧
          fullBackups.gfs.days ≤ 0 ∧
            fullBackups.gfs.weeks ≤ 0 ∧
              fullBackups.gfs.months ≤ 0 ∧
                fullBackups.gfs.years ≤ 0
      then
        none
      else
        let items :=
          completedFullsNewestFirst.map fun full =>
            { id := full.id
              createdAt := full.createdAt }
        let tiers :=
          getItemsToRetain location items fullBackups.gfs
        some fun id =>
          if tiers id = [] then none else some (tiers id)
  | .other _ => none

------------------------------------------------------------
-- Deletions
------------------------------------------------------------

/-
  The catalog after a part of the pass, the chains that were
  asked to be deleted, and those that were asked to be shed.
-/
structure Cleaning where
  catalog : CatalogState
  deleted : List Uuid := []
  shed : List Uuid := []

variable (order : EndOrder)
variable (location : Location)
variable (answers : CleanerAnswers)
variable (config : PhysicalBackupConfig)

end Retention

end Databasus
