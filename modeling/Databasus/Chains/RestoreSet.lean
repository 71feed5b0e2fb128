import Databasus.Chains.View

/-
  What a restore of a database to an instant consists of.

  The newest chain whose full is completed by then is taken,
  with its incrementals completed by then, and the segments
  that follow the last of them without a hole.

  Main declarations:
    * `selectRestoreChain`
    * `includedIncrementals`
    * `contiguousWalRun`
    * `resolveRestoreReach`
    * `resolveRestoreSet`
    * `resolveRestoreSetForBackup`
-/

------------------------------------------------------------
-- Chains and Incrementals
------------------------------------------------------------

namespace Databasus

namespace Chains

open Catalog
open Walmath (LSN)

inductive RestoreError
  | noChainForRestore
  | targetBeforeEarliest
  | walGapBeforeTarget (latestRestorableLSN : LSN)
  | view (error : ViewError)
deriving DecidableEq, Repr

/- The zero value of an instant: the start of year one. -/
def zeroTime : Time := -62135596800 * Duration.second

def derefTime
    (time : Option Time) : Time :=
  time.getD zeroTime

/- The full is completed at the target or before it. -/
def isCompletedBy
    (target : Time)
    (backup : Backup) : Bool :=
  backup.completedAt.any fun completedAt =>
    completedAt ≤ target

def selectRestoreChain
    (candidates : List ChainView) :
    Option Time → Except RestoreError ChainView
  | none =>
      match candidates with
      | [] => .error .noChainForRestore
      | newest :: _ => .ok newest
  | some target =>
      if candidates = [] then
        .error .noChainForRestore
      else
        match
          candidates.find? fun candidate =>
            isCompletedBy target candidate.rootFull
        with
        | none => .error .targetBeforeEarliest
        | some candidate => .ok candidate

structure IncludedBackups where
  incrementals : List Backup
  lastStopLSN : LSN
  lastBackupTime : Time
deriving DecidableEq

/- Include incrementals up to the target, in their order. -/
def includeIncrementals
    (target : Option Time) :
    List Backup → IncludedBackups → IncludedBackups
  | [], included => included
  | incremental :: rest, included =>
      match
        incremental.status, incremental.stopLSN,
        incremental.completedAt
      with
      | .completed, some stopLSN, some completedAt =>
          if target.any fun target => target < completedAt then
            includeIncrementals target rest included
          else
            includeIncrementals target rest
              { incrementals :=
                  included.incrementals ++ [incremental]
                lastStopLSN := stopLSN
                lastBackupTime := completedAt }
      | _, _, _ => includeIncrementals target rest included

/- The full's own end is where the inclusion begins. -/
def includedIncrementals
    (chain : ChainView)
    (fullStopLSN : LSN)
    (target : Option Time) : IncludedBackups :=
  includeIncrementals target chain.incrementals
    { incrementals := []
      lastStopLSN := fullStopLSN
      lastBackupTime :=
        derefTime chain.rootFull.completedAt }

------------------------------------------------------------
-- The Log after the Last Backup
------------------------------------------------------------

structure WalRun where
  segments : List WalSegment
  reachableLSN : LSN
  reachableTime : Time
deriving DecidableEq

/- Walk the segments while none starts past the cursor. -/
def walkWalRun
    (lastStopLSN : LSN) :
    List WalSegment → WalRun → WalRun
  | [], run => run
  | segment :: rest, run =>
      if
        segment.fileName = none ∨
          segment.endLSN ≤ lastStopLSN
      then
        walkWalRun lastStopLSN rest run
      else if run.reachableLSN < segment.startLSN then
        run
      else
        walkWalRun lastStopLSN rest
          { segments := run.segments ++ [segment]
            reachableLSN := segment.endLSN
            reachableTime := segment.receivedAt }

def contiguousWalRun
    (segments : List WalSegment)
    (lastStopLSN : LSN)
    (lastBackupTime : Time) : WalRun :=
  walkWalRun lastStopLSN segments
    { segments := []
      reachableLSN := lastStopLSN
      reachableTime := lastBackupTime }

structure RestoreReach where
  chain : ChainView
  incrementals : List Backup
  lastStopLSN : LSN
  walSegments : List WalSegment
  walRun : WalRun
deriving DecidableEq

/- The segments of a chain's timeline from its start on. -/
def chainSegments
    (segments : List WalSegment)
    (databaseID : Uuid)
    (chain : ChainView) : List WalSegment :=
  findByChainSpan segments databaseID
    chain.rootFull.timelineID chain.span.start LSN.max

/- What a restore to a target, or to the latest, reaches. -/
def resolveRestoreReach
    (s : CatalogState)
    (databaseID : Uuid)
    (target : Option Time) :
    Except RestoreError RestoreReach :=
  match orderedRestoreCandidates s.backups databaseID with
  | .error error => .error (.view error)
  | .ok candidates =>
      match selectRestoreChain candidates target with
      | .error error => .error error
      | .ok chain =>
          match chain.rootFull.stopLSN with
          | none => .error .noChainForRestore
          | some fullStopLSN =>
              let included :=
                includedIncrementals chain fullStopLSN target
              let walSegments :=
                chainSegments s.segments databaseID chain
              .ok
                { chain := chain
                  incrementals := included.incrementals
                  lastStopLSN := included.lastStopLSN
                  walSegments := walSegments
                  walRun :=
                    contiguousWalRun walSegments
                      included.lastStopLSN
                      included.lastBackupTime }

------------------------------------------------------------
-- Restore Sets
------------------------------------------------------------

structure RestoreSet where
  rootFull : Backup
  incrementals : List Backup
  walSegments : List WalSegment
  historyFiles : List WalHistoryFile
  lastIncludedStopLSN : LSN
  maxReplayableLSN : LSN
deriving DecidableEq

/- The order of `timeline_id ASC`. -/
def timelineNoLater
    (first second : WalHistoryFile) : Prop :=
  first.timelineID ≤ second.timelineID

instance instDecidableTimelineNoLater :
    DecidableRel timelineNoLater :=
  fun _ _ => inferInstanceAs (Decidable (_ ≤ _))

def findAllHistoryByDatabase
    (historyFiles : List WalHistoryFile)
    (databaseID : Uuid) : List WalHistoryFile :=
  (historyFiles.filter fun file =>
    file.databaseID = databaseID).insertionSort
      timelineNoLater

/- A target past the end of the walked log is refused. -/
def resolveRestoreSet
    (s : CatalogState)
    (databaseID : Uuid)
    (target : Option Time) :
    Except RestoreError RestoreSet :=
  match resolveRestoreReach s databaseID target with
  | .error error => .error error
  | .ok reach =>
      if
        target.any fun target =>
          reach.walRun.reachableTime < target
      then
        .error
          (.walGapBeforeTarget reach.walRun.reachableLSN)
      else
        .ok
          { rootFull := reach.chain.rootFull
            incrementals := reach.incrementals
            walSegments := reach.walRun.segments
            historyFiles :=
              findAllHistoryByDatabase s.historyFiles
                databaseID
            lastIncludedStopLSN := reach.lastStopLSN
            maxReplayableLSN := reach.walRun.reachableLSN }

------------------------------------------------------------
-- The Restore of One Backup
------------------------------------------------------------

def restoreSetForFull
    (full : Backup) : Except RestoreError RestoreSet :=
  match full.status, full.stopLSN with
  | .completed, some stopLSN =>
      .ok
        { rootFull := full
          incrementals := []
          walSegments := []
          historyFiles := []
          lastIncludedStopLSN := stopLSN
          maxReplayableLSN := stopLSN }
  | _, _ => .error .noChainForRestore

/- A completed candidate that starts by the target's start. -/
def isIncludedBefore
    (targetStartLSN : LSN)
    (candidate : Backup) : Bool :=
  candidate.status = .completed &&
    candidate.startLSN.any (fun start =>
        start ≤ targetStartLSN) &&
      candidate.stopLSN.isSome

/- Where the last of the included backups ends. -/
def lastStopLSNOf
    (fullStopLSN : LSN)
    (included : List Backup) : LSN :=
  (included.getLast?.bind Backup.stopLSN).getD fullStopLSN

/-
  The ancestors of the target, itself with them.  The check of
  the table keeps an incremental's root from being null.
-/
def restoreSetForIncremental
    (s : CatalogState)
    (target : Backup) : Except RestoreError RestoreSet :=
  match
    target.status, target.startLSN, target.stopLSN,
    target.rootFullBackupID
  with
  | .completed, some startLSN, some _, some rootID =>
      match
        Foundation.Table.lookup Backup.id rootID s.backups
      with
      | none => .error .noChainForRestore
      | some full =>
          match full.stopLSN with
          | none => .error .noChainForRestore
          | some fullStopLSN =>
              let included :=
                (findAllByRootFull s.backups rootID).filter
                  (isIncludedBefore startLSN)
              let lastStopLSN :=
                lastStopLSNOf fullStopLSN included
              .ok
                { rootFull := full
                  incrementals := included
                  walSegments := []
                  historyFiles := []
                  lastIncludedStopLSN := lastStopLSN
                  maxReplayableLSN := lastStopLSN }
  | _, _, _, _ => .error .noChainForRestore

/- A chosen backup is restored without any of the log. -/
def resolveRestoreSetForBackup
    (s : CatalogState)
    (databaseID backupID : Uuid) :
    Except RestoreError RestoreSet :=
  match
    Foundation.Table.lookup Backup.id backupID s.backups
  with
  | none => .error .noChainForRestore
  | some backup =>
      if backup.databaseID ≠ databaseID then
        .error .noChainForRestore
      else if backup.kind = .full then
        restoreSetForFull backup
      else
        restoreSetForIncremental s backup

end Chains

end Databasus
