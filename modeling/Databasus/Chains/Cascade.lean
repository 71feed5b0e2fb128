import Mathlib.Data.Rat.Defs
import Databasus.Catalog.Lookups

/-
  Deletion of chains.

  A full goes with the segments of its span, the incrementals
  that grow from it and, when it is its timeline's last full,
  the timeline's history files.  Each deletion of a row
  requests the deletion of the files that the row names.

  Main declarations:
    * `CatalogState`
    * `MeetsConstraints`
    * `deleteWalInSpanBudgeted`
    * `reverseTopoOrderIncrementals`
    * `cascadeDelete`
    * `deleteFullCompletely`
    * `deleteIncrementalCascade`
    * `deleteOrphanWalSegmentsInSpan`
-/

------------------------------------------------------------
-- The Catalog
------------------------------------------------------------

namespace Databasus

namespace Chains

open Foundation
open Catalog
open Storages (StoredFileReference)
open Walmath (LSN)

/- The tables a cascade changes, and the files requested. -/
structure CatalogState where
  backups : List Backup
  segments : List WalSegment
  historyFiles : List WalHistoryFile
  requested : List StoredFileReference
deriving DecidableEq

/-
  What the tables enforce: primary keys, the chain key of
  segments, and the checks on the columns of a backup.
-/
structure MeetsConstraints
    (s : CatalogState) : Prop where
  backupIDs : Table.UniqueBy Backup.id s.backups
  segmentIDs : Table.UniqueBy WalSegment.id s.segments
  chainKeys : Table.UniqueBy WalSegment.chainKey s.segments
  completedColumns :
    ∀ backup ∈ s.backups,
      backup.status = .completed →
        backup.HasCompletedColumns

instance instDecidableMeetsConstraints
    (s : CatalogState) : Decidable (MeetsConstraints s) :=
  decidable_of_iff
    (Table.UniqueBy Backup.id s.backups ∧
      Table.UniqueBy WalSegment.id s.segments ∧
        Table.UniqueBy WalSegment.chainKey s.segments ∧
          ∀ backup ∈ s.backups,
            backup.status = .completed →
              backup.HasCompletedColumns)
    ⟨fun ⟨hBackups, hSegments, hKeys, hColumns⟩ =>
        ⟨hBackups, hSegments, hKeys, hColumns⟩,
      fun ⟨hBackups, hSegments, hKeys, hColumns⟩ =>
        ⟨hBackups, hSegments, hKeys, hColumns⟩⟩

/- A failed statement rolls its transaction back. -/
inductive ChainError
  | requestFailed
  | foreignKeyViolated
  | noStartLSN
deriving DecidableEq, Repr

/- Record that files have to go, if the storages accept. -/
def CatalogState.requestFileDeletions
    (s : CatalogState)
    (isAccepted : Bool)
    (storageID : Uuid)
    (fileNames : List String) :
    Except ChainError CatalogState :=
  if isAccepted then
    .ok
      { s with
        requested :=
          s.requested ++
            fileNames.map fun fileName =>
              { storageID := storageID
                fileName := fileName } }
  else
    .error .requestFailed

/- A backup that others name as parent or root has to stay. -/
def isReferenced
    (backups : List Backup)
    (id : Uuid) : Bool :=
  backups.any fun backup =>
    backup.id ≠ id &&
      (backup.parentBackupID = some id ||
        backup.rootFullBackupID = some id)

def CatalogState.deleteBackupByID
    (s : CatalogState)
    (id : Uuid) : Except ChainError CatalogState :=
  if isReferenced s.backups id then
    .error .foreignKeyViolated
  else
    .ok
      { s with
        backups :=
          Table.deleteWhere (fun backup => backup.id = id)
            s.backups }

def CatalogState.deleteSegmentByID
    (s : CatalogState)
    (id : Uuid) : CatalogState :=
  { s with
    segments :=
      Table.deleteWhere (fun segment => segment.id = id)
        s.segments }

def CatalogState.deleteHistoryFileByID
    (s : CatalogState)
    (id : Uuid) : CatalogState :=
  { s with
    historyFiles :=
      Table.deleteWhere (fun file => file.id = id)
        s.historyFiles }

------------------------------------------------------------
-- Segments
------------------------------------------------------------

/- How many rows one query for segments returns at most. -/
def maxWalDeleteBatchRows : Nat := 50

/- The budget of a deletion that a user asks for. -/
def unboundedWalBudgetMB : Rat := 10 ^ 18

structure WalDeletion where
  catalog : CatalogState
  deletedRows : Nat := 0
  deletedMB : Rat := 0
  isBudgetHit : Bool := false
deriving DecidableEq

/- A claim names no file, and only its row is deleted. -/
def deleteSegment
    (isAccepted : Bool)
    (s : CatalogState)
    (segment : WalSegment) :
    Except ChainError CatalogState :=
  match segment.fileName with
  | none => .ok (s.deleteSegmentByID segment.id)
  | some fileName =>
      match
        s.requestFileDeletions isAccepted segment.storageID
          [fileName, fileName ++ metadataSuffix]
      with
      | .error error => .error error
      | .ok s => .ok (s.deleteSegmentByID segment.id)

/- Delete the rows of a query until the budget is reached. -/
def deleteWalBatch
    (isAccepted : Bool)
    (walByteBudgetMB : Rat) :
    List WalSegment → WalDeletion →
      Except ChainError WalDeletion
  | [], progress => .ok progress
  | segment :: rest, progress =>
      match
        deleteSegment isAccepted progress.catalog segment
      with
      | .error error => .error error
      | .ok catalog =>
          let deletedMB :=
            progress.deletedMB + segment.compressedSizeMb
          let progress :=
            { catalog := catalog
              deletedRows := progress.deletedRows + 1
              deletedMB := deletedMB
              isBudgetHit := walByteBudgetMB ≤ deletedMB }
          if walByteBudgetMB ≤ deletedMB then
            .ok progress
          else
            deleteWalBatch isAccepted walByteBudgetMB rest
              progress

/- Query and delete again until a query comes back short. -/
def deleteWalBatches
    (isAccepted : Bool)
    (walByteBudgetMB : Rat)
    (query : ContainedWalQuery) :
    Nat → WalDeletion → Except ChainError WalDeletion
  | 0, progress => .ok progress
  | fuel + 1, progress =>
      let segments :=
        findContained progress.catalog.segments query
      if segments = [] then
        .ok progress
      else
        match
          deleteWalBatch isAccepted walByteBudgetMB segments
            progress
        with
        | .error error => .error error
        | .ok progress =>
            if progress.isBudgetHit then
              .ok progress
            else if
              segments.length < maxWalDeleteBatchRows
            then
              .ok progress
            else
              deleteWalBatches isAccepted walByteBudgetMB
                query fuel progress

def deleteWalInSpanBudgeted
    (isAccepted : Bool)
    (s : CatalogState)
    (databaseID : Uuid)
    (timelineID : Nat)
    (span : LSNRange)
    (walByteBudgetMB : Rat) :
    Except ChainError WalDeletion :=
  deleteWalBatches isAccepted walByteBudgetMB
    { databaseID := databaseID
      timelineID := timelineID
      span := span
      limit := maxWalDeleteBatchRows }
    (s.segments.length + 1) { catalog := s }

------------------------------------------------------------
-- Incrementals
------------------------------------------------------------

/- The parent of an incremental, if it is in the set. -/
def presentParent
    (incrementals : List Backup)
    (incremental : Backup) : Option Uuid :=
  incremental.parentBackupID.filter fun parentID =>
    incrementals.any fun other => other.id = parentID

/- How many of the set name each backup as their parent. -/
def countChildren
    (incrementals : List Backup)
    (id : Uuid) : Int :=
  incrementals.countP fun incremental =>
    presentParent incrementals incremental = some id

structure OrderingRound where
  ordered : List Backup
  stillBlocked : List Backup
  childCount : Uuid → Int

/-
  Emit the backups without children left; an emitted backup
  may free its parent later in the same round.
-/
def orderRound
    (incrementals : List Backup) :
    List Backup → (Uuid → Int) → OrderingRound
  | [], childCount =>
      { ordered := []
        stillBlocked := []
        childCount := childCount }
  | incremental :: rest, childCount =>
      if 0 < childCount incremental.id then
        let round := orderRound incrementals rest childCount
        { round with
          stillBlocked := incremental :: round.stillBlocked }
      else
        let freed : Uuid → Int := fun id =>
          if
            presentParent incrementals incremental = some id
          then
            childCount id - 1
          else
            childCount id
        let round := orderRound incrementals rest freed
        { round with
          ordered := incremental :: round.ordered }

/- Rounds until none is left, or a round emits nothing. -/
def orderRounds
    (incrementals : List Backup) :
    Nat → List Backup → (Uuid → Int) → List Backup
  | 0, remaining, _ => remaining
  | fuel + 1, remaining, childCount =>
      if remaining = [] then
        []
      else
        let round :=
          orderRound incrementals remaining childCount
        if round.ordered = [] then
          round.stillBlocked
        else
          round.ordered ++
            orderRounds incrementals fuel round.stillBlocked
              round.childCount

/- Leaves first: every child comes before its parent. -/
def reverseTopoOrderIncrementals
    (incrementals : List Backup) : List Backup :=
  orderRounds incrementals (incrementals.length + 1)
    incrementals (countChildren incrementals)

/- A backup without a file name has no files to request. -/
def deleteBackupArtifactAndRow
    (isAccepted : Bool)
    (s : CatalogState)
    (backup : Backup) : Except ChainError CatalogState :=
  match backup.fileName with
  | none => s.deleteBackupByID backup.id
  | some fileName =>
      match
        s.requestFileDeletions isAccepted backup.storageID
          [fileName, fileName ++ metadataSuffix,
            backup.getManifestFileName]
      with
      | .error error => .error error
      | .ok s => s.deleteBackupByID backup.id

structure IncrementalDeletion where
  catalog : CatalogState
  deleted : Nat := 0
  deletedMB : Rat := 0
deriving DecidableEq

/- Delete incrementals in the order they come in. -/
def deleteIncrementalSet
    (isAccepted : Bool) :
    List Backup → IncrementalDeletion →
      Except ChainError IncrementalDeletion
  | [], progress => .ok progress
  | incremental :: rest, progress =>
      match
        deleteBackupArtifactAndRow isAccepted
          progress.catalog incremental
      with
      | .error error => .error error
      | .ok catalog =>
          deleteIncrementalSet isAccepted rest
            { catalog := catalog
              deleted := progress.deleted + 1
              deletedMB :=
                progress.deletedMB +
                  incremental.backupSizeMb.getD 0 }

def deleteIncrementals
    (isAccepted : Bool)
    (s : CatalogState)
    (rootFullBackupID : Uuid) :
    Except ChainError IncrementalDeletion :=
  deleteIncrementalSet isAccepted
    (reverseTopoOrderIncrementals
      (findAllByRootFull s.backups rootFullBackupID))
    { catalog := s }

------------------------------------------------------------
-- History Files
------------------------------------------------------------

def deleteHistoryFiles
    (isAccepted : Bool) :
    List WalHistoryFile → CatalogState × Nat →
      Except ChainError (CatalogState × Nat)
  | [], progress => .ok progress
  | file :: rest, (s, deleted) =>
      match
        s.requestFileDeletions isAccepted file.storageID
          [file.fileName, file.fileName ++ metadataSuffix]
      with
      | .error error => .error error
      | .ok s =>
          deleteHistoryFiles isAccepted rest
            (s.deleteHistoryFileByID file.id, deleted + 1)

/- The history anchors a chain while any full is left. -/
def deleteOrphanedHistoryFiles
    (isAccepted : Bool)
    (s : CatalogState)
    (full : Backup) :
    Except ChainError (CatalogState × Nat) :=
  if hasSurvivingCompletedFullOnTimeline s.backups full then
    .ok (s, 0)
  else
    deleteHistoryFiles isAccepted
      (findAllByDatabaseTimeline s.historyFiles
        full.databaseID full.timelineID)
      (s, 0)

------------------------------------------------------------
-- The Cascade
------------------------------------------------------------

structure DeletedSummary where
  rootFullBackupID : Uuid
  walSegments : Nat := 0
  incrementals : Nat := 0
  historyFiles : Nat := 0
  bytesDeletedMB : Rat := 0
  isChainFullyDeleted : Bool := false
deriving DecidableEq

structure FullRemovalWalPlan where
  span : Option LSNRange := none
  hasRunningFull : Bool := false
deriving DecidableEq

/-
  The segments to delete with a full.  An earlier full can
  replay them too, and a running full may come to need them.
-/
def getFullRemovalWalPlan
    (backups : List Backup)
    (full : Backup) : FullRemovalWalPlan :=
  if hasRunningFullBackup backups full.databaseID then
    { hasRunningFull := true }
  else
    match full.startLSN with
    | none => {}
    | some startLSN =>
        if hasCompletedFullBefore backups full startLSN then
          {}
        else
          { span :=
              some (getOwnershipSpan backups full startLSN) }

/- The plan of a cascade, which may keep the full itself. -/
def getWalPlan
    (backups : List Backup)
    (full : Backup)
    (keepFull : Bool) :
    Except ChainError FullRemovalWalPlan :=
  if keepFull then
    if hasRunningFullBackup backups full.databaseID then
      .ok { hasRunningFull := true }
    else
      match full.startLSN with
      | none => .error .noStartLSN
      | some startLSN =>
          .ok
            { span :=
                some
                  (getOwnershipSpan backups full startLSN) }
  else
    .ok (getFullRemovalWalPlan backups full)

/- What is left of a cascade once its segments are gone. -/
def deleteChainBackups
    (isAccepted keepFull hasRunningFull : Bool)
    (full : Backup)
    (s : CatalogState)
    (summary : DeletedSummary) :
    Except ChainError (CatalogState × DeletedSummary) :=
  match deleteIncrementals isAccepted s full.id with
  | .error error => .error error
  | .ok incrementals =>
      let summary :=
        { summary with
          incrementals := incrementals.deleted }
      if keepFull then
        .ok (incrementals.catalog, summary)
      else
        match
          if hasRunningFull then
            .ok (incrementals.catalog, 0)
          else
            deleteOrphanedHistoryFiles isAccepted
              incrementals.catalog full
        with
        | .error error => .error error
        | .ok (s, historyFiles) =>
            match
              deleteBackupArtifactAndRow isAccepted s full
            with
            | .error error => .error error
            | .ok s =>
                .ok
                  (s,
                    { summary with
                      historyFiles := historyFiles
                      isChainFullyDeleted := true })

/- One transaction, under the lock of the database. -/
def cascadeDelete
    (isAccepted : Bool)
    (s : CatalogState)
    (rootFullBackupID : Uuid)
    (walByteBudgetMB : Rat)
    (keepFull : Bool) :
    Except ChainError (CatalogState × DeletedSummary) :=
  let summary : DeletedSummary :=
    { rootFullBackupID := rootFullBackupID }
  match
    Foundation.Table.lookup Backup.id rootFullBackupID
      s.backups
  with
  | none => .ok (s, summary)
  | some full =>
      match getWalPlan s.backups full keepFull with
      | .error error => .error error
      | .ok { span := none, hasRunningFull } =>
          deleteChainBackups isAccepted keepFull
            hasRunningFull full s summary
      | .ok { span := some span, hasRunningFull } =>
          match
            deleteWalInSpanBudgeted isAccepted s
              full.databaseID full.timelineID span
              walByteBudgetMB
          with
          | .error error => .error error
          | .ok wal =>
              let summary :=
                { summary with
                  walSegments := wal.deletedRows
                  bytesDeletedMB := wal.deletedMB }
              if wal.isBudgetHit then
                .ok (wal.catalog, summary)
              else
                deleteChainBackups isAccepted keepFull
                  hasRunningFull full wal.catalog summary

def deleteFull
    (isAccepted : Bool)
    (s : CatalogState)
    (rootFullBackupID : Uuid)
    (walByteBudgetMB : Rat) :
    Except ChainError (CatalogState × DeletedSummary) :=
  cascadeDelete isAccepted s rootFullBackupID
    walByteBudgetMB false

def deleteChainDependentsKeepFull
    (isAccepted : Bool)
    (s : CatalogState)
    (rootFullBackupID : Uuid)
    (walByteBudgetMB : Rat) :
    Except ChainError (CatalogState × DeletedSummary) :=
  cascadeDelete isAccepted s rootFullBackupID
    walByteBudgetMB true

def childrenOf
    (chain : List Backup)
    (parentID : Uuid) : List Backup :=
  chain.filter fun incremental =>
    incremental.parentBackupID = some parentID

/- Breadth first, each queued parent adds its children. -/
def collectDescendants
    (chain : List Backup) : Nat → List Uuid → List Backup
  | 0, _ => []
  | _ + 1, [] => []
  | fuel + 1, parentID :: queue =>
      let children := childrenOf chain parentID
      children ++
        collectDescendants chain fuel
          (queue ++ children.map Backup.id)

/-
  The target and all that descends from it.  Foreign keys rule
  cycles out, so that each backup is queued once at most.
-/
def collectIncrementalSubtree
    (chain : List Backup)
    (targetID : Uuid) : List Backup :=
  match Foundation.Table.lookup Backup.id targetID chain with
  | none => []
  | some target =>
      target ::
        collectDescendants chain (chain.length + 1)
          [targetID]

/-
  One transaction, under the lock of the root's row.  A full
  names no root, and callers pass incrementals only.
-/
def deleteIncrementalCascade
    (isAccepted : Bool)
    (s : CatalogState)
    (incrementalID : Uuid) :
    Except ChainError IncrementalDeletion :=
  match
    (Foundation.Table.lookup Backup.id incrementalID
      s.backups).bind Backup.rootFullBackupID
  with
  | none => .ok { catalog := s }
  | some rootFullBackupID =>
      deleteIncrementalSet isAccepted
        (reverseTopoOrderIncrementals
          (collectIncrementalSubtree
            (findAllByRootFull s.backups rootFullBackupID)
            incrementalID))
        { catalog := s }

------------------------------------------------------------
-- Orphans
------------------------------------------------------------

structure DeleteOrphanWalSegmentsSpec where
  databaseID : Uuid
  timelineID : Nat
  span : LSNRange
  walByteBudgetMB : Rat
deriving DecidableEq

/- Nothing is deleted that some full may need by now. -/
def deleteOrphanWalSegmentsInSpan
    (isAccepted : Bool)
    (s : CatalogState)
    (spec : DeleteOrphanWalSegmentsSpec) :
    Except ChainError WalDeletion :=
  if hasRunningFullBackup s.backups spec.databaseID then
    .ok { catalog := s }
  else if
    hasCompletedFullBackupCoveringWal s.backups
      spec.databaseID spec.timelineID spec.span.endLSN
  then
    .ok { catalog := s }
  else
    deleteWalInSpanBudgeted isAccepted s spec.databaseID
      spec.timelineID spec.span spec.walByteBudgetMB

/- The spans a sweep of a database goes through. -/
def orphanSpecs
    (s : CatalogState)
    (databaseID : Uuid)
    (walByteBudgetMB : Rat) :
    List DeleteOrphanWalSegmentsSpec :=
  (findOrphans s.backups s.segments databaseID).map
    fun segment =>
      { databaseID := databaseID
        timelineID := segment.timelineID
        span :=
          { start := segment.startLSN
            endLSN := segment.endLSN }
        walByteBudgetMB := walByteBudgetMB }

end Chains

end Databasus
