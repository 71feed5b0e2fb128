import Mathlib.Algebra.Order.Ring.Rat
import Mathlib.Algebra.BigOperators.Group.List.Basic
import Databasus.Catalog.ListedRanges

/-
  What the items of the backup list say.

  Each passing backup is an item of its own.  The item of a
  range covers the segments of the range and no other stored
  segment, and sums them up.

  Main declarations:
    * `BackupListRow.covers`
    * `Summarizes`
    * `PhysicalCatalog.backupItems_perm`
    * `PhysicalCatalog.exists_walRangeItem`
    * `PhysicalCatalog.covers_iff`
-/

------------------------------------------------------------
-- Summaries
------------------------------------------------------------

namespace Databasus

namespace Catalog

open Foundation
open Foundation.Window

/- A range's item spans the segment on its timeline. -/
def BackupListRow.covers
    (item : BackupListRow)
    (segment : WalSegment) : Bool :=
  item.type = backupTypeWal &&
    item.timelineID = segment.timelineID &&
      item.startLSN.any (fun start =>
        start ≤ segment.startLSN) &&
        item.stopLSN.any fun stop => segment.endLSN ≤ stop

/-
  The item tells the extent, the number, the size and the
  receive times of segments that follow one another.
-/
structure Summarizes
    (item : BackupListRow)
    (segments : List WalSegment) : Prop where
  type : item.type = backupTypeWal
  status : item.status = BackupStatus.completed.text
  timeline :
    ∀ segment ∈ segments,
      segment.timelineID = item.timelineID
  contiguous :
    segments.IsChain fun earlier later =>
      earlier.endLSN = later.startLSN
  first :
    ∃ segment,
      segments.head? = some segment ∧
        item.id = segment.id ∧
          item.startLSN = some segment.startLSN ∧
            item.fromWalFilename = some segment.walFilename
  last :
    ∃ segment,
      segments.getLast? = some segment ∧
        item.stopLSN = some segment.endLSN ∧
          item.toWalFilename = some segment.walFilename
  count : item.walSegmentsCount = some segments.length
  size :
    item.sizeMb =
      (segments.map WalSegment.compressedSizeMb).sum
  oldest :
    (segments.map WalSegment.receivedAt).min? =
      some item.createdAt
  newest :
    (segments.map WalSegment.receivedAt).max? =
      some item.sortTime
  completed : item.completedAt = some item.sortTime

variable {item : BackupListRow}
variable {segments : List WalSegment}
variable {segment : WalSegment}

/- The run of the segments goes from the item's start on. -/
theorem Summarizes.covers_of_mem
    (hItem : Summarizes item segments)
    (hRun :
      Touching.IsRun WalSegment.startLSN WalSegment.endLSN
        segments)
    (hSegment : segment ∈ segments) :
    item.covers segment = true := by
  rcases hItem.first with ⟨first, hFirst, _, hStart, _⟩
  rcases hItem.last with ⟨last, hLast, hStop, _⟩
  cases segments with
  | nil => cases hFirst
  | cons head rest =>
      rcases Option.some.inj hFirst with rfl
      unfold BackupListRow.covers
      simp [hItem.type, hItem.timeline segment hSegment,
        hStart, hStop, hRun.head_le hSegment,
        hRun.le_last hLast hSegment]

/- What the item's extent reaches into lies in the run. -/
theorem Summarizes.exists_overlap_of_covers
    (hItem : Summarizes item segments)
    (hRun :
      Touching.IsRun WalSegment.startLSN WalSegment.endLSN
        segments)
    (hHolds : segment.startLSN < segment.endLSN)
    (hCovers : item.covers segment = true) :
    ∃ listed ∈ segments,
      listed.timelineID = segment.timelineID ∧
        listed.startLSN ≤ segment.startLSN ∧
          segment.startLSN < listed.endLSN := by
  rcases hItem.first with ⟨first, hFirst, _, hStart, _⟩
  rcases hItem.last with ⟨last, hLast, hStop, _⟩
  unfold BackupListRow.covers at hCovers
  simp only [hStart, hStop, Option.any_some,
    Bool.and_eq_true, decide_eq_true_eq] at hCovers
  rcases hCovers with ⟨⟨⟨_, hTimeline⟩, hFrom⟩, hUpTo⟩
  cases segments with
  | nil => cases hFirst
  | cons head rest =>
      rcases Option.some.inj hFirst with rfl
      rcases hRun.exists_covers hLast hFrom
          (Nat.lt_of_lt_of_le hHolds hUpTo) with
        ⟨listed, hListed, hBelow, hAbove⟩
      exact ⟨listed, hListed,
        (hItem.timeline listed hListed).trans hTimeline,
        hBelow, hAbove⟩

------------------------------------------------------------
-- Items of Backups
------------------------------------------------------------

/- The item of a row that is a backup. -/
def MergedRow.asBackupItem : MergedRow → Option BackupListRow
  | .backup row => some (backupItem row)
  | .wal _ => none

namespace PhysicalCatalog

variable {databaseID : Uuid}
variable {catalog : PhysicalCatalog databaseID}
variable {filter : BackupListFilter}

def items
    (catalog : PhysicalCatalog databaseID)
    (filter : BackupListFilter) : List BackupListRow :=
  backupListItemsQuery catalog.backups catalog.walSegments
    databaseID filter

theorem items_eq
    (catalog : PhysicalCatalog databaseID)
    (filter : BackupListFilter) :
    catalog.items filter =
      backupItems (catalog.groupedRows filter) ++
        walRangeItems (catalog.walRangeRows filter) :=
  rfl

theorem backupItem_type_ne
    (backup : Backup) :
    (backupItem backup).type ≠ backupTypeWal :=
  backup.kind.text_ne_wal

/- Each passing backup is an item as it is, once. -/
theorem backupItems_perm
    (catalog : PhysicalCatalog databaseID)
    (filter : BackupListFilter) :
    (backupItems (catalog.groupedRows filter)).Perm
      ((catalog.passingBackups filter).map backupItem) := by
  have hRows :
      backupItems (catalog.groupedRows filter) =
        ((catalog.groupedRows filter).map
          GroupedRow.row).filterMap MergedRow.asBackupItem := by
    unfold backupItems
    rw [List.filterMap_map]
    rfl
  have hPassing :
      (catalog.passing filter).filterMap
          MergedRow.asBackupItem =
        (catalog.passingBackups filter).map backupItem := by
    unfold passing filtered merged passingBackups
    rw [List.filter_append, List.filterMap_append,
      List.filter_map, List.filter_map,
      List.filterMap_map, List.filterMap_map,
      List.filter_filter]
    simp [Function.comp_def, MergedRow.asBackupItem,
      Bool.and_comm]
  rw [hRows, ← hPassing]
  exact (grouped_perm passing_positions_nodup).filterMap _

------------------------------------------------------------
-- Items of Ranges
------------------------------------------------------------

variable {row listed : WalRangeRow}

/- The segments of a row's range, in the log's order. -/
def memberSegments
    (catalog : PhysicalCatalog databaseID)
    (filter : BackupListFilter)
    (row : WalRangeRow) : List WalSegment :=
  (catalog.members filter row).map WalRangeRow.segment

theorem memberSegments_isRun
    (catalog : PhysicalCatalog databaseID)
    (filter : BackupListFilter)
    (row : WalRangeRow) :
    Touching.IsRun WalSegment.startLSN WalSegment.endLSN
      (catalog.memberSegments filter row) := by
  have hRun := catalog.members_isRun filter row
  refine ⟨?_, ?_⟩
  · intro segment hSegment
    rcases List.mem_map.mp hSegment with
      ⟨listed, hListed, rfl⟩
    exact hRun.holds listed hListed
  · unfold memberSegments
    rw [List.isChain_map]
    exact hRun.touches

theorem members_timeline
    (hRow : row ∈ catalog.walRangeRows filter)
    (hListed : listed ∈ catalog.members filter row) :
    listed.segment.timelineID = row.segment.timelineID := by
  rcases mem_members_iff.mp hListed with
    ⟨hMember, hGroup, _⟩
  exact timeline_eq_of_groupID_eq
    (walRangeRow_mem_walRows hMember)
    (walRangeRow_mem_walRows hRow) hGroup

/-
  The aggregates of rows on one timeline whose segments follow
  one another.
-/
theorem walRangeItem_summarizes
    {rows : List WalRangeRow}
    {timelineID : Nat}
    (hRows : rows ≠ [])
    (hStarts :
      (rows.map fun row : WalRangeRow =>
        row.startLSN).Nodup)
    (hTimeline :
      ∀ row ∈ rows, row.segment.timelineID = timelineID)
    (hRun :
      Touching.IsRun WalSegment.startLSN WalSegment.endLSN
        ((orderBy (fun row : WalRangeRow => row.startLSN)
          rows).map WalRangeRow.segment)) :
    ∃ item first,
      walRangeItem rows = some item ∧
        (orderBy (fun row : WalRangeRow => row.startLSN)
          rows).head? = some first ∧
        item.hasGapBefore = first.wal.isGapStart ∧
        Summarizes item
          ((orderBy (fun row : WalRangeRow => row.startLSN)
            rows).map WalRangeRow.segment) := by
  have hDesc := orderByDesc_eq_reverse hStarts
  have hPerm :
      (orderBy (fun row : WalRangeRow => row.startLSN)
        rows).Perm rows :=
    orderBy_perm
  generalize hOrdered :
    orderBy (fun row : WalRangeRow => row.startLSN) rows =
      ordered at *
  cases ordered with
  | nil => exact absurd hPerm.symm.eq_nil hRows
  | cons first rest =>
      have hSegments := hPerm.symm.map WalRangeRow.segment
      have hLengths := hPerm.length_eq
      rcases List.getLast?_isSome.mpr
          (List.cons_ne_nil first rest) |>
            Option.isSome_iff_exists.mp with
        ⟨last, hLast⟩
      have hNonempty : rows.map WalRangeRow.segment ≠ [] := by
        simpa using hRows
      have hFirstMember :
          first.segment ∈ rows.map WalRangeRow.segment :=
        hSegments.mem_iff.mpr
          (List.mem_map_of_mem List.mem_cons_self)
      have hLastMember :
          last.segment ∈ rows.map WalRangeRow.segment :=
        hSegments.mem_iff.mpr
          (List.mem_map_of_mem
            (List.mem_of_getLast? hLast))
      have hLastSegment :
          (first.segment :: rest.map
            WalRangeRow.segment).getLast? =
              some last.segment := by
        rw [← List.map_cons, List.getLast?_map, hLast]
        rfl
      have hTimelines :
          ∀ segment ∈ rows.map WalRangeRow.segment,
            segment.timelineID = timelineID := by
        intro segment hSegment
        rcases List.mem_map.mp hSegment with ⟨row, hRow, rfl⟩
        exact hTimeline row hRow
      have hMinTimeline :=
        min?_map_eq WalSegment.timelineID hFirstMember
          fun other hOther =>
            le_of_eq
              ((hTimelines _ hFirstMember).trans
                (hTimelines other hOther).symm)
      have hMinStart :=
        min?_map_eq WalSegment.startLSN hFirstMember
          fun other hOther =>
            hRun.head_le (hSegments.mem_iff.mp hOther)
      have hMaxStop :=
        max?_map_eq WalSegment.endLSN hLastMember
          fun other hOther =>
            hRun.le_last hLastSegment
              (hSegments.mem_iff.mp hOther)
      rcases exists_min?_map WalSegment.receivedAt
          hNonempty hSegments with
        ⟨oldest, hOldest, hOldestOrdered⟩
      rcases exists_max?_map WalSegment.receivedAt
          hNonempty hSegments with
        ⟨newest, hNewest, hNewestOrdered⟩
      have hRowSegments :
          (rows.map fun row => row.wal.segment) =
            rows.map WalRangeRow.segment :=
        rfl
      have hSum :=
        (hSegments.map WalSegment.compressedSizeMb).sum_eq
      have hItem :
          walRangeItem rows =
            some
              { id := first.segment.id
                type := backupTypeWal
                status := BackupStatus.completed.text
                timelineID := first.segment.timelineID
                startLSN := some first.segment.startLSN
                stopLSN := some last.segment.endLSN
                rootFullBackupID := none
                parentIncrementalBackupID := none
                fromWalFilename :=
                  some first.segment.walFilename
                toWalFilename := some last.segment.walFilename
                walSegmentsCount := some rows.length
                hasGapBefore := first.wal.isGapStart
                sizeMb :=
                  ((rows.map WalRangeRow.segment).map
                    WalSegment.compressedSizeMb).sum
                failMessage := none
                createdAt := oldest
                completedAt := some newest
                sortTime := newest } := by
        unfold walRangeItem
        simp only [hRowSegments, hOrdered, hDesc,
          hMinTimeline, hMinStart, hMaxStop, hOldest,
          hNewest, hLast, List.head?_cons,
          List.head?_reverse]
        rfl
      refine ⟨_, first, hItem, rfl, rfl, ?_⟩
      exact
        { type := rfl
          status := rfl
          timeline := fun segment hSegment =>
            (hTimelines segment
              (hSegments.mem_iff.mpr hSegment)).trans
                (hTimelines _ hFirstMember).symm
          contiguous := hRun.touches
          first := ⟨first.segment, rfl, rfl, rfl, rfl⟩
          last := ⟨last.segment, hLastSegment, rfl, rfl⟩
          count := by rw [List.length_map, hLengths]
          size := hSum
          oldest := hOldestOrdered
          newest := hNewestOrdered
          completed := rfl }

theorem partOf_range_starts_nodup
    (catalog : PhysicalCatalog databaseID)
    (filter : BackupListFilter)
    (row : WalRangeRow) :
    ((partOf WalRangeRow.range (catalog.walRangeRows filter)
      row).map fun listed => listed.startLSN).Nodup := by
  have hOrdered := catalog.isOrdered_members filter row
  have hMembers :
      ((catalog.members filter row).map fun listed =>
        listed.startLSN).Nodup :=
    List.pairwise_map.mpr (hOrdered.imp fun hLt => ne_of_lt hLt)
  exact (orderBy_perm.map _).nodup_iff.mp hMembers

/- A range's rows have an item, which sums them up. -/
theorem exists_walRangeItem
    (hRow : row ∈ catalog.walRangeRows filter) :
    ∃ item first,
      walRangeItem
          (partOf WalRangeRow.range
            (catalog.walRangeRows filter) row) =
        some item ∧
      (catalog.members filter row).head? = some first ∧
      item.hasGapBefore = first.wal.isGapStart ∧
      Summarizes item
        (catalog.memberSegments filter row) := by
  have hSelf :
      row ∈
        partOf WalRangeRow.range
          (catalog.walRangeRows filter) row :=
    mem_partOf_iff.mpr ⟨hRow, rfl⟩
  have hTimeline :
      ∀ listed ∈
          partOf WalRangeRow.range
            (catalog.walRangeRows filter) row,
        listed.segment.timelineID =
          row.segment.timelineID := by
    intro listed hListed
    exact members_timeline hRow (mem_orderBy.mpr hListed)
  exact walRangeItem_summarizes (List.ne_nil_of_mem hSelf)
    (catalog.partOf_range_starts_nodup filter row) hTimeline
    (catalog.memberSegments_isRun filter row)

theorem mem_memberSegments_iff :
    segment ∈ catalog.memberSegments filter row ↔
      ∃ listed ∈ catalog.members filter row,
        listed.segment = segment :=
  List.mem_map

theorem segment_mem_committed_of_row
    (hRow : row ∈ catalog.walRangeRows filter) :
    row.segment ∈ catalog.committed :=
  segment_mem_committed_of_walRow
    (walRangeRow_mem_walRows hRow)

/- A range's item covers the range's segments and no other. -/
theorem covers_iff
    {item : BackupListRow}
    (hItem :
      Summarizes item (catalog.memberSegments filter row))
    (hSegment : segment ∈ catalog.committed) :
    item.covers segment = true ↔
      segment ∈ catalog.memberSegments filter row := by
  have hRun := catalog.memberSegments_isRun filter row
  constructor
  · intro hCovers
    rcases hItem.exists_overlap_of_covers hRun
        (lt_of_mem_committed hSegment) hCovers with
      ⟨listed, hListed, hTimeline, hBelow, hAbove⟩
    rcases mem_memberSegments_iff.mp hListed with
      ⟨source, hSource, rfl⟩
    have hCommitted :=
      segment_mem_committed_of_row
        (mem_members_iff.mp hSource).1
    have hSame :
        source.segment.startLSN = segment.startLSN := by
      by_contra hNe
      have hEnd :=
        end_le_start hCommitted hSegment hTimeline
          (lt_of_le_of_ne hBelow hNe)
      exact absurd hAbove (Nat.not_lt.mpr hEnd)
    rw [← eq_of_start_eq hCommitted hSegment hTimeline hSame]
    exact hListed
  · intro hMember
    exact hItem.covers_of_mem hRun hMember

/- The rows of a segment that passes the filter. -/
theorem exists_row_of_passing
    (hSegment : segment ∈ catalog.passingSegments filter) :
    ∃ row ∈ catalog.walRangeRows filter,
      row.segment = segment :=
  List.mem_map.mp (walRangeRows_perm.mem_iff.mpr hSegment)

theorem segment_passes
    (hRow : row ∈ catalog.walRangeRows filter) :
    row.segment ∈ catalog.passingSegments filter :=
  walRangeRows_perm.mem_iff.mp (List.mem_map_of_mem hRow)

/- Rows that share a range make up the same range. -/
theorem mem_memberSegments_row_iff
    (hListed : listed ∈ catalog.walRangeRows filter) :
    listed.segment ∈ catalog.memberSegments filter row ↔
      listed.range = row.range := by
  rw [mem_memberSegments_iff]
  constructor
  · rintro ⟨source, hSource, hSegment⟩
    rcases mem_members_iff.mp hSource with
      ⟨hMember, hGroup, hRange⟩
    have hEq : source = listed :=
      List.inj_on_of_nodup_map walRangeRows_nodup hMember
        hListed hSegment
    rw [← hEq]
    exact Prod.ext hGroup hRange
  · intro hRange
    rcases Prod.mk.inj hRange with ⟨hGroup, hNumber⟩
    exact ⟨listed,
      mem_members_iff.mpr ⟨hListed, hGroup, hNumber⟩, rfl⟩

------------------------------------------------------------
-- All Items
------------------------------------------------------------

/- An item of type WAL is the item of some row's range. -/
theorem exists_row_of_item
    (hItem : item ∈ catalog.items filter)
    (hType : item.type = backupTypeWal) :
    ∃ row ∈ catalog.walRangeRows filter,
      walRangeItem
          (partOf WalRangeRow.range
            (catalog.walRangeRows filter) row) =
        some item := by
  rw [items_eq] at hItem
  rcases List.mem_append.mp hItem with hBackup | hRange
  · rcases List.mem_map.mp
        ((catalog.backupItems_perm filter).mem_iff.mp hBackup)
      with ⟨backup, _, rfl⟩
    exact absurd hType (backupItem_type_ne backup)
  · rcases List.mem_filterMap.mp hRange with
      ⟨group, hGroup, hSome⟩
    rcases mem_partitions_iff.mp hGroup with
      ⟨row, hRow, hPart⟩
    rw [hPart] at hSome
    exact ⟨row, hRow, hSome⟩

/- Every row's range has its item in the list. -/
theorem mem_items_of_row
    (hRow : row ∈ catalog.walRangeRows filter)
    (hItem :
      walRangeItem
          (partOf WalRangeRow.range
            (catalog.walRangeRows filter) row) =
        some item) :
    item ∈ catalog.items filter := by
  rw [items_eq]
  apply List.mem_append_right
  exact List.mem_filterMap.mpr
    ⟨_, mem_partitions_iff.mpr ⟨row, hRow, rfl⟩, hItem⟩

/- An item of type WAL, with the row that it stands for. -/
theorem summarizes_of_item
    (hItem : item ∈ catalog.items filter)
    (hType : item.type = backupTypeWal) :
    ∃ row ∈ catalog.walRangeRows filter,
      ∃ first,
        walRangeItem
            (partOf WalRangeRow.range
              (catalog.walRangeRows filter) row) =
          some item ∧
        (catalog.members filter row).head? = some first ∧
        item.hasGapBefore = first.wal.isGapStart ∧
        Summarizes item
          (catalog.memberSegments filter row) := by
  rcases exists_row_of_item hItem hType with
    ⟨row, hRow, hSome⟩
  rcases exists_walRangeItem hRow with
    ⟨summary, first, hSummary, hFirst, hGap, hSummarizes⟩
  have hEq : summary = item :=
    Option.some.inj (hSummary.symm.trans hSome)
  rw [hEq] at hSummary hGap hSummarizes
  exact ⟨row, hRow, first, hSummary, hFirst, hGap,
    hSummarizes⟩

/- A range's item takes its id from one of its segments. -/
theorem exists_member_of_id
    (hRow : row ∈ catalog.walRangeRows filter)
    (hItem :
      walRangeItem
          (partOf WalRangeRow.range
            (catalog.walRangeRows filter) row) =
        some item) :
    ∃ listed ∈ catalog.members filter row,
      item.id = listed.segment.id := by
  rcases exists_walRangeItem hRow with
    ⟨summary, _, hSummary, _, _, hSummarizes⟩
  rcases Option.some.inj (hSummary.symm.trans hItem) with rfl
  rcases hSummarizes.first with ⟨segment, hFirst, hID, _⟩
  rcases mem_memberSegments_iff.mp
      (List.mem_of_head? hFirst) with
    ⟨listed, hListed, rfl⟩
  exact ⟨listed, hListed, hID⟩

theorem row_eq_of_id_eq
    {first second : WalRangeRow}
    (hFirst : first ∈ catalog.walRangeRows filter)
    (hSecond : second ∈ catalog.walRangeRows filter)
    (hID : first.segment.id = second.segment.id) :
    first = second := by
  have hSegment : first.segment = second.segment :=
    catalog.uniqueSegments.eq_of_key_eq
      (mem_committed_iff.mp
        (segment_mem_committed_of_row hFirst)).1
      (mem_committed_iff.mp
        (segment_mem_committed_of_row hSecond)).1 hID
  exact List.inj_on_of_nodup_map walRangeRows_nodup hFirst
    hSecond hSegment

/- No two ranges' items share an id. -/
theorem walRangeItems_ids_nodup :
    ((walRangeItems (catalog.walRangeRows filter)).map
      BackupListRow.id).Nodup := by
  unfold walRangeItems
  apply List.pairwise_map.mpr
  rw [List.pairwise_filterMap]
  apply pairwise_partitions
  intro first hFirst second hSecond hNe item hItem other
    hOther hID
  rcases exists_member_of_id hFirst hItem with
    ⟨listed, hListed, hListedID⟩
  rcases exists_member_of_id hSecond hOther with
    ⟨source, hSource, hSourceID⟩
  rcases mem_members_iff.mp hListed with
    ⟨hListedRow, hListedGroup, hListedRange⟩
  rcases mem_members_iff.mp hSource with
    ⟨hSourceRow, hSourceGroup, hSourceRange⟩
  have hEq : listed = source :=
    row_eq_of_id_eq hListedRow hSourceRow
      (hListedID.symm.trans (hID.trans hSourceID))
  rw [hEq] at hListedGroup hListedRange
  exact hNe
    (Prod.ext (hListedGroup.symm.trans hSourceGroup)
      (hListedRange.symm.trans hSourceRange))

/- No two items of the list share an id. -/
theorem items_ids_nodup
    (catalog : PhysicalCatalog databaseID)
    (filter : BackupListFilter) :
    ((catalog.items filter).map BackupListRow.id).Nodup := by
  have hBackups :
      ((backupItems (catalog.groupedRows filter)).map
          BackupListRow.id).Perm
        ((catalog.passingBackups filter).map Backup.id) := by
    have hPerm :=
      (catalog.backupItems_perm filter).map BackupListRow.id
    rw [List.map_map] at hPerm
    exact hPerm
  rw [items_eq, List.map_append, List.nodup_append]
  refine ⟨?_, walRangeItems_ids_nodup, ?_⟩
  · rw [hBackups.nodup_iff]
    exact catalog.uniqueBackups.sublist
      (List.filter_sublist.map Backup.id)
  · intro id hBackupID other hRangeID
    rcases List.mem_map.mp (hBackups.mem_iff.mp hBackupID)
      with ⟨backup, hBackup, rfl⟩
    rcases List.mem_map.mp hRangeID with
      ⟨item, hItem, rfl⟩
    rcases List.mem_filterMap.mp hItem with
      ⟨group, hGroup, hSome⟩
    rcases mem_partitions_iff.mp hGroup with
      ⟨row, hRow, hPart⟩
    rw [hPart] at hSome
    rcases exists_member_of_id hRow hSome with
      ⟨listed, hListed, hID⟩
    have hCommitted :=
      segment_mem_committed_of_row
        (mem_members_iff.mp hListed).1
    rw [hID]
    exact catalog.differentIDs backup
      (List.mem_of_mem_filter hBackup) listed.segment
      (mem_committed_iff.mp hCommitted).1

theorem items_sortKeys_nodup
    (catalog : PhysicalCatalog databaseID)
    (filter : BackupListFilter) :
    ((catalog.items filter).map
      BackupListRow.sortKey).Nodup := by
  apply List.Nodup.of_map fun key => (ofLex key).2
  rw [List.map_map]
  exact catalog.items_ids_nodup filter

end PhysicalCatalog

end Catalog

end Databasus
