import Mathlib.Algebra.Ring.Rat
import Mathlib.Data.Prod.Lex
import Databasus.Foundation.KeysetPaging
import Databasus.Catalog.WalSegment

/-
  The query behind the list of a database's physical backups.

  Backups and committed segments are merged, filtered and put
  in the order of time.  Segments that follow one another there
  on one timeline form a group, and the part of a group without
  holes in the log is listed as one range.  Each definition is
  one query of the source's `WITH`, less the columns that
  nothing later reads; an LSN is listed as the number that its
  text names, and as none where the text is empty.

  Main declarations:
    * `BackupListFilter.buildClause`
    * `committedWal`
    * `grouped`
    * `walRanges`
    * `backupListItemsQuery`
    * `listBackups`
    * `listPages`
-/

------------------------------------------------------------
-- Merged Rows
------------------------------------------------------------

namespace Databasus

namespace Catalog

open Foundation.Window
open Walmath (LSN)

def BackupKind.text : BackupKind → String
  | .full => "FULL"
  | .incremental => "INCREMENTAL"

def BackupStatus.text : BackupStatus → String
  | .inProgress => "IN_PROGRESS"
  | .completed => "COMPLETED"
  | .error => "ERROR"
  | .chainBroken => "CHAIN_BROKEN"
  | .canceled => "CANCELED"

def backupTypeWal : String := "WAL"

theorem BackupKind.text_ne_wal
    (kind : BackupKind) :
    kind.text ≠ backupTypeWal := by
  cases kind <;> decide

/- A row of `committed_wal`. -/
structure CommittedWal where
  segment : WalSegment
  isGapStart : Bool
deriving DecidableEq

/- The segment before it is known, and ends elsewhere. -/
def startsAfterGap
    (previous : Option WalSegment)
    (segment : WalSegment) : Bool :=
  (previous.map fun before =>
    decide (before.endLSN ≠ segment.startLSN)).getD false

/- A segment of the database whose bytes are stored. -/
def isCommittedFor
    (databaseID : Uuid)
    (segment : WalSegment) : Bool :=
  segment.databaseID = databaseID && segment.fileName.isSome

def committedWal
    (segments : List WalSegment)
    (databaseID : Uuid) : List CommittedWal :=
  overParts WalSegment.timelineID WalSegment.startLSN
    (fun ordered =>
      (lag ordered).map fun (segment, previous) =>
        { segment := segment
          isGapStart := startsAfterGap previous segment })
    (segments.filter (isCommittedFor databaseID))

/- A row of `merged`: of one side of the union or the other. -/
inductive MergedRow
  | backup (backup : Backup)
  | wal (wal : CommittedWal)
deriving DecidableEq

namespace MergedRow

def id : MergedRow → Uuid
  | backup row => row.id
  | wal row => row.segment.id

def type : MergedRow → String
  | backup row => row.kind.text
  | wal _ => backupTypeWal

def status : MergedRow → String
  | backup row => row.status.text
  | wal _ => BackupStatus.completed.text

def timelineID : MergedRow → Nat
  | backup row => row.timelineID
  | wal row => row.segment.timelineID

def createdAt : MergedRow → Time
  | backup row => row.createdAt
  | wal row => row.segment.receivedAt

/- The order of `created_at, id`. -/
def position
    (row : MergedRow) : Time ×ₗ Uuid :=
  toLex (row.createdAt, row.id)

end MergedRow

def merged
    (backups : List Backup)
    (segments : List WalSegment)
    (databaseID : Uuid) : List MergedRow :=
  (backups.filter fun backup : Backup =>
      backup.databaseID = databaseID).map MergedRow.backup ++
    (committedWal segments databaseID).map MergedRow.wal

/- Which rows are listed; an empty list asks for nothing. -/
structure BackupListFilter where
  id : Option Uuid := none
  types : List String := []
  statuses : List String := []
  beforeDate : Option Time := none

/- The conditions that the filter sets. -/
def BackupListFilter.buildClause
    (filter : BackupListFilter) : List (MergedRow → Bool) :=
  (filter.id.toList.map fun id (row : MergedRow) =>
    decide (row.id = id)) ++
  (if filter.types.length > 0 then
    [fun row : MergedRow => filter.types.contains row.type]
  else
    []) ++
  (if filter.statuses.length > 0 then
    [fun row : MergedRow =>
      filter.statuses.contains row.status]
  else
    []) ++
  (filter.beforeDate.toList.map fun date (row : MergedRow) =>
    decide (row.createdAt < date))

def BackupListFilter.passes
    (filter : BackupListFilter)
    (row : MergedRow) : Bool :=
  filter.buildClause.all fun condition => condition row

def filtered
    (backups : List Backup)
    (segments : List WalSegment)
    (databaseID : Uuid)
    (filter : BackupListFilter) : List MergedRow :=
  (merged backups segments databaseID).filter filter.passes

------------------------------------------------------------
-- Groups
------------------------------------------------------------

structure OrderedRow where
  row : MergedRow
  previousType : Option String
  previousTimelineID : Option Nat
deriving DecidableEq

def ordered
    (rows : List MergedRow) : List OrderedRow :=
  (lag (orderBy MergedRow.position rows)).map
    fun (row, previous) =>
      { row := row
        previousType := previous.map MergedRow.type
        previousTimelineID :=
          previous.map MergedRow.timelineID }

def OrderedRow.position
    (row : OrderedRow) : Time ×ₗ Uuid :=
  row.row.position

/- A row is a group's first unless WAL of its line leads it. -/
def OrderedRow.startsGroup
    (row : OrderedRow) : Bool :=
  row.row.type ≠ backupTypeWal ||
    row.previousType ≠ some backupTypeWal ||
      row.previousTimelineID.any fun timelineID =>
        timelineID ≠ row.row.timelineID

structure GroupedRow where
  row : MergedRow
  groupID : Nat
deriving DecidableEq

def grouped
    (rows : List OrderedRow) : List GroupedRow :=
  (runningSum
      (fun row : OrderedRow =>
        if row.startsGroup then 1 else 0)
      (orderBy OrderedRow.position rows)).map
    fun (row, groupID) =>
      { row := row.row
        groupID := groupID }

------------------------------------------------------------
-- Ranges
------------------------------------------------------------

/- A grouped row whose type is WAL. -/
structure GroupedWal where
  wal : CommittedWal
  groupID : Nat
deriving DecidableEq

def GroupedWal.startLSN
    (row : GroupedWal) : LSN :=
  row.wal.segment.startLSN

def whereWal
    (rows : List GroupedRow) : List GroupedWal :=
  rows.filterMap fun row =>
    match row.row with
    | .backup _ => none
    | .wal wal =>
        some
          { wal := wal
            groupID := row.groupID }

structure WalOrderedRow extends GroupedWal where
  previousStopLSN : Option LSN
deriving DecidableEq

def walOrdered
    (rows : List GroupedRow) : List WalOrderedRow :=
  overParts GroupedWal.groupID GroupedWal.startLSN
    (fun ordered =>
      (lag ordered).map fun (row, previous) =>
        { toGroupedWal := row
          previousStopLSN :=
            previous.map fun before =>
              before.wal.segment.endLSN })
    (whereWal rows)

/- No segment of the group ends where the row starts. -/
def WalOrderedRow.startsRange
    (row : WalOrderedRow) : Bool :=
  row.previousStopLSN ≠ some row.startLSN

structure WalRangeRow extends WalOrderedRow where
  walRangeID : Nat
deriving DecidableEq

def walRanges
    (rows : List WalOrderedRow) : List WalRangeRow :=
  overParts (fun row : WalOrderedRow => row.groupID)
    (fun row : WalOrderedRow => row.startLSN)
    (fun ordered =>
      (runningSum
          (fun row : WalOrderedRow =>
            if row.startsRange then 1 else 0)
          ordered).map
        fun (row, walRangeID) =>
          { toWalOrderedRow := row
            walRangeID := walRangeID })
    rows

------------------------------------------------------------
-- Items
------------------------------------------------------------

structure BackupListRow where
  id : Uuid
  type : String
  status : String
  timelineID : Nat
  startLSN : Option LSN
  stopLSN : Option LSN
  rootFullBackupID : Option Uuid
  parentIncrementalBackupID : Option Uuid
  fromWalFilename : Option String
  toWalFilename : Option String
  walSegmentsCount : Option Nat
  hasGapBefore : Bool
  sizeMb : Rat
  failMessage : Option String
  createdAt : Time
  completedAt : Option Time
  sortTime : Time
deriving DecidableEq

/- `NULLIF`: the value, unless it is the other one. -/
def nullIf
    (value other : Option Uuid) : Option Uuid :=
  if value = other then none else value

def backupItem
    (backup : Backup) : BackupListRow :=
  { id := backup.id
    type := backup.kind.text
    status := backup.status.text
    timelineID := backup.timelineID
    startLSN := backup.startLSN
    stopLSN := backup.stopLSN
    rootFullBackupID := backup.rootFullBackupID
    parentIncrementalBackupID :=
      nullIf backup.parentBackupID backup.rootFullBackupID
    fromWalFilename := none
    toWalFilename := none
    walSegmentsCount := none
    hasGapBefore := false
    sizeMb := backup.backupSizeMb.getD 0
    failMessage := backup.failMessage
    createdAt := backup.createdAt
    completedAt := backup.completedAt
    sortTime := backup.createdAt }

/- The grouped rows whose type is not WAL. -/
def backupItems
    (rows : List GroupedRow) : List BackupListRow :=
  rows.filterMap fun row =>
    match row.row with
    | .backup backup => some (backupItem backup)
    | .wal _ => none

/-
  One range's aggregates.  They are null only without rows, and
  a group of a `GROUP BY` has rows.
-/
def walRangeItem
    (rows : List WalRangeRow) : Option BackupListRow := do
  let segments := rows.map fun row => row.wal.segment
  let first ←
    (orderBy (fun row => row.startLSN) rows).head?
  let last ←
    (orderByDesc (fun row => row.startLSN) rows).head?
  let timelineID ←
    (segments.map WalSegment.timelineID).min?
  let startLSN ← (segments.map WalSegment.startLSN).min?
  let stopLSN ← (segments.map WalSegment.endLSN).max?
  let createdAt ← (segments.map WalSegment.receivedAt).min?
  let newest ← (segments.map WalSegment.receivedAt).max?
  return {
    id := first.wal.segment.id
    type := backupTypeWal
    status := BackupStatus.completed.text
    timelineID := timelineID
    startLSN := some startLSN
    stopLSN := some stopLSN
    rootFullBackupID := none
    parentIncrementalBackupID := none
    fromWalFilename := some first.wal.segment.walFilename
    toWalFilename := some last.wal.segment.walFilename
    walSegmentsCount := some rows.length
    hasGapBefore := first.wal.isGapStart
    sizeMb := (segments.map WalSegment.compressedSizeMb).sum
    failMessage := none
    createdAt := createdAt
    completedAt := some newest
    sortTime := newest }

/- `GROUP BY group_id, wal_range_id`. -/
def WalRangeRow.range
    (row : WalRangeRow) : Nat × Nat :=
  (row.groupID, row.walRangeID)

def walRangeItems
    (rows : List WalRangeRow) : List BackupListRow :=
  (partitions WalRangeRow.range rows).filterMap walRangeItem

def backupListItemsQuery
    (backups : List Backup)
    (segments : List WalSegment)
    (databaseID : Uuid)
    (filter : BackupListFilter) : List BackupListRow :=
  let rows :=
    grouped
      (ordered
        (filtered backups segments databaseID filter))
  backupItems rows ++
    walRangeItems (walRanges (walOrdered rows))

------------------------------------------------------------
-- Pages
------------------------------------------------------------

open Foundation

/- The sort time and the id of the last row held. -/
structure BackupListPosition where
  sortTime : Time
  id : Uuid
deriving DecidableEq, Repr

/- The order of `sort_time, id`. -/
def BackupListPosition.key
    (position : BackupListPosition) : Time ×ₗ Uuid :=
  toLex (position.sortTime, position.id)

def BackupListRow.position
    (row : BackupListRow) : BackupListPosition :=
  { sortTime := row.sortTime
    id := row.id }

def BackupListRow.sortKey
    (row : BackupListRow) : Time ×ₗ Uuid :=
  row.position.key

structure BackupListQuery where
  databaseID : Uuid
  filter : BackupListFilter := {}
  after : Option BackupListPosition := none
  limit : Nat

def listBackups
    (backups : List Backup)
    (segments : List WalSegment)
    (query : BackupListQuery) : List BackupListRow :=
  Paging.pageAfter BackupListRow.sortKey
    (backupListItemsQuery backups segments query.databaseID
      query.filter)
    (query.after.map BackupListPosition.key)
    query.limit

/- The position that follows a page, if the page has rows. -/
def positionAfter
    (after : Option BackupListPosition)
    (page : List BackupListRow) :
    Option BackupListPosition :=
  match page.getLast? with
  | some row => some row.position
  | none => after

/- What a caller reads who asks for page after page. -/
def listPages
    (backups : List Backup)
    (segments : List WalSegment)
    (databaseID : Uuid)
    (filter : BackupListFilter) :
    Option BackupListPosition → List Nat →
      List BackupListRow
  | _, [] => []
  | after, limit :: limits =>
      let page :=
        listBackups backups segments
          { databaseID := databaseID
            filter := filter
            after := after
            limit := limit }
      page ++
        listPages backups segments databaseID filter
          (positionAfter after page) limits

end Catalog

end Databasus
