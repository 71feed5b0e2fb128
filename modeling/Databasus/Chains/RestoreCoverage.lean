import Databasus.Foundation.ClosedRange
import Databasus.Foundation.Search
import Databasus.Chains.RestoreSet

/-
  The coverage of restores that is shown for a database.

  Every backup of the newest chain opens a range at its
  completion, which ends where the log after it ends.

  Main declarations:
    * `RestoreAnchor`
    * `findContiguousRunEnds`
    * `findRestorableRanges`
    * `getRestoreCoverage`
-/

------------------------------------------------------------
-- Ranges of Anchors
------------------------------------------------------------

namespace Databasus

namespace Chains

open Foundation
open Catalog
open Walmath (LSN)

/- From the lower bound to the upper one, both included. -/
abbrev TimeRange := ClosedRange Time

structure RestoreAnchor where
  stopLSN : LSN
  completedAt : Time
deriving DecidableEq, Repr

/- The backups that a restore can start from. -/
def getRestoreAnchors
    (reach : RestoreReach) : List RestoreAnchor :=
  { stopLSN := reach.chain.rootFull.stopLSN.getD 0
    completedAt :=
      derefTime reach.chain.rootFull.completedAt } ::
    reach.incrementals.map fun incremental =>
      { stopLSN := incremental.stopLSN.getD 0
        completedAt :=
          incremental.completedAt.getD zeroTime }

/-
  For each segment the index of the last one of the unbroken
  run that it starts, computed from the last segment down.
-/
def findContiguousRunEndsFrom
    (index : Nat) : List WalSegment → List Nat
  | [] => []
  | segment :: rest =>
      let runEnds := findContiguousRunEndsFrom (index + 1) rest
      match rest, runEnds with
      | next :: _, runEnd :: _ =>
          if next.startLSN ≤ segment.endLSN then
            runEnd :: runEnds
          else
            index :: runEnds
      | _, _ => index :: runEnds

def findContiguousRunEnds
    (segments : List WalSegment) : List Nat :=
  findContiguousRunEndsFrom 0 segments

def committedSegments
    (segments : List WalSegment) : List WalSegment :=
  segments.filter fun segment => segment.fileName.isSome

/- When the run ends that holds the anchor's position. -/
def anchorReachedAt
    (committed : List WalSegment)
    (runEnds : List Nat)
    (anchor : RestoreAnchor) : Time :=
  let firstAfterAnchor :=
    Search.searchList
      (fun segment : WalSegment =>
        anchor.stopLSN < segment.endLSN)
      committed
  match committed[firstAfterAnchor]? with
  | none => anchor.completedAt
  | some segment =>
      if segment.startLSN ≤ anchor.stopLSN then
        match
          (runEnds[firstAfterAnchor]?).bind fun runEnd =>
            committed[runEnd]?
        with
        | none => anchor.completedAt
        | some last => last.receivedAt
      else
        anchor.completedAt

/- The range of an anchor never ends before it begins. -/
def anchorRange
    (committed : List WalSegment)
    (runEnds : List Nat)
    (anchor : RestoreAnchor) : TimeRange :=
  let reachedAt := anchorReachedAt committed runEnds anchor
  { lower := anchor.completedAt
    upper :=
      if reachedAt < anchor.completedAt then
        anchor.completedAt
      else
        reachedAt }

def findRestorableRanges
    (anchors : List RestoreAnchor)
    (segments : List WalSegment) : List TimeRange :=
  let committed := committedSegments segments
  let runEnds := findContiguousRunEnds committed
  ClosedRange.merge
    (anchors.map (anchorRange committed runEnds))

------------------------------------------------------------
-- Coverage
------------------------------------------------------------

structure RestoreCoverage where
  latestRestorableAt : Option Time := none
  restorableRanges : List TimeRange := []
  blockingGaps : List LSNRange := []
deriving DecidableEq

def findGapsBetweenSegments :
    List WalSegment → List LSNRange
  | previous :: current :: rest =>
      let gaps := findGapsBetweenSegments (current :: rest)
      if previous.endLSN < current.startLSN then
        { start := previous.endLSN
          endLSN := current.startLSN } :: gaps
      else
        gaps
  | _ => []

/- Without a completed full the coverage is empty. -/
def getRestoreCoverage
    (s : CatalogState)
    (databaseID : Uuid) :
    Except RestoreError RestoreCoverage :=
  match resolveRestoreReach s databaseID none with
  | .error .noChainForRestore => .ok {}
  | .error error => .error error
  | .ok reach =>
      .ok
        { latestRestorableAt :=
            some reach.walRun.reachableTime
          restorableRanges :=
            findRestorableRanges (getRestoreAnchors reach)
              reach.walSegments
          blockingGaps :=
            (findGapsBetweenSegments
              reach.walSegments).filter fun gap =>
                reach.lastStopLSN < gap.endLSN }

end Chains

end Databasus
