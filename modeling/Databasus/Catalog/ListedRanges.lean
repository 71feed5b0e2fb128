import Databasus.Foundation.TouchingRuns
import Databasus.Catalog.ListedGroups

/-
  The ranges that the backup list cuts a group into.

  Along a group's log a range goes on while each segment starts
  where the one before it stops.  So the rows of a range are a
  run without holes, and touching rows of a group share one.

  Main declarations:
    * `PhysicalCatalog.walRows_groupID_eq_iff`
    * `PhysicalCatalog.walRangeID_eq_iff`
    * `PhysicalCatalog.members_isRun`
    * `PhysicalCatalog.range_eq_of_touches`
-/

------------------------------------------------------------
-- Windows of a Group
------------------------------------------------------------

namespace Databasus

namespace Catalog

open Foundation
open Foundation.Window
open Walmath (LSN)

variable {row : GroupedWal}

theorem walOrdered_perm
    (rows : List GroupedRow) :
    ((walOrdered rows).map
      WalOrderedRow.toGroupedWal).Perm (whereWal rows) := by
  unfold walOrdered
  apply map_overParts_perm
  intro group
  rw [List.map_map]
  exact map_fst_lag group

theorem walRanges_perm
    (rows : List WalOrderedRow) :
    ((walRanges rows).map
      WalRangeRow.toWalOrderedRow).Perm rows := by
  unfold walRanges
  apply map_overParts_perm
  intro group
  rw [List.map_map]
  exact map_fst_runningSum _ group

/- A row of the window knows where the row before it stops. -/
theorem exists_mem_lag_of_mem_walOrdered
    {rows : List GroupedRow}
    {row : WalOrderedRow}
    (hRow : row ∈ walOrdered rows) :
    ∃ previous,
      (row.toGroupedWal, previous) ∈
          lag
            (orderBy GroupedWal.startLSN
              (partOf GroupedWal.groupID (whereWal rows)
                row.toGroupedWal)) ∧
        row.previousStopLSN =
          previous.map fun before =>
            before.wal.segment.endLSN := by
  unfold walOrdered at hRow
  rcases mem_overParts_iff.mp hRow with ⟨source, _, hMapped⟩
  rcases List.mem_map.mp hMapped with
    ⟨⟨listed, previous⟩, hLag, rfl⟩
  have hListed := mem_orderBy.mp (fst_mem_of_mem_lag hLag)
  refine ⟨previous, ?_, rfl⟩
  rw [partOf_congr (mem_partOf_iff.mp hListed).2]
  exact hLag

theorem mem_runningSum_of_mem_walRanges
    {rows : List WalOrderedRow}
    {row : WalRangeRow}
    (hRow : row ∈ walRanges rows) :
    (row.toWalOrderedRow, row.walRangeID) ∈
      runningSum
        (fun source : WalOrderedRow =>
          if source.startsRange then 1 else 0)
        (orderBy
          (fun source : WalOrderedRow => source.startLSN)
          (partOf
            (fun source : WalOrderedRow => source.groupID)
            rows row.toWalOrderedRow)) := by
  unfold walRanges at hRow
  rcases mem_overParts_iff.mp hRow with ⟨source, _, hMapped⟩
  rcases List.mem_map.mp hMapped with
    ⟨⟨listed, total⟩, hSum, rfl⟩
  have hListed :=
    mem_orderBy.mp (fst_mem_of_mem_runningSum hSum)
  have hPart :
      partOf
          (fun source : WalOrderedRow => source.groupID)
          rows listed =
        partOf
          (fun source : WalOrderedRow => source.groupID)
          rows source :=
    partOf_congr (mem_partOf_iff.mp hListed).2
  rw [← hPart] at hSum
  exact hSum

namespace PhysicalCatalog

variable {databaseID : Uuid}
variable {catalog : PhysicalCatalog databaseID}
variable {filter : BackupListFilter}

def walRows
    (catalog : PhysicalCatalog databaseID)
    (filter : BackupListFilter) : List GroupedWal :=
  whereWal (catalog.groupedRows filter)

def walOrderedRows
    (catalog : PhysicalCatalog databaseID)
    (filter : BackupListFilter) : List WalOrderedRow :=
  walOrdered (catalog.groupedRows filter)

def walRangeRows
    (catalog : PhysicalCatalog databaseID)
    (filter : BackupListFilter) : List WalRangeRow :=
  walRanges (catalog.walOrderedRows filter)

/- The grouped WAL is the passing segments, each once. -/
theorem walRows_perm :
    ((catalog.walRows filter).map fun row =>
      row.wal.segment).Perm
        (catalog.passingSegments filter) := by
  have hSegments :
      ((catalog.walRows filter).map fun row =>
          row.wal.segment) =
        ((((catalog.groupedRows filter).map
          GroupedRow.row).filterMap MergedRow.toWal).map
            CommittedWal.segment) := by
    rw [← map_wal_whereWal, List.map_map]
    rfl
  rw [hSegments]
  exact (((grouped_perm passing_positions_nodup).filterMap
    _).map _).trans passing_segments_perm

theorem walRangeRows_perm :
    ((catalog.walRangeRows filter).map fun row =>
      row.wal.segment).Perm
        (catalog.passingSegments filter) := by
  have hOrdered :=
    (walRanges_perm (catalog.walOrderedRows filter)).map
      WalOrderedRow.toGroupedWal
  have hGrouped :=
    (hOrdered.trans (walOrdered_perm _)).map fun row =>
      row.wal.segment
  rw [List.map_map, List.map_map] at hGrouped
  exact hGrouped.trans walRows_perm

theorem passingSegments_nodup :
    (catalog.passingSegments filter).Nodup :=
  committed_nodup.filter _

theorem walRows_nodup :
    ((catalog.walRows filter).map fun row =>
      row.wal.segment).Nodup := by
  rw [walRows_perm.nodup_iff]
  exact passingSegments_nodup

theorem walRangeRows_nodup :
    ((catalog.walRangeRows filter).map fun row =>
      row.wal.segment).Nodup := by
  rw [walRangeRows_perm.nodup_iff]
  exact passingSegments_nodup

theorem mem_passingSegments_iff
    {segment : WalSegment} :
    segment ∈ catalog.passingSegments filter ↔
      segment ∈ catalog.committed ∧
        filter.passes
          (.wal
            { segment := segment
              isGapStart := false }) = true :=
  List.mem_filter

theorem wal_mem_passing
    (hRow : row ∈ catalog.walRows filter) :
    MergedRow.wal row.wal ∈ catalog.passing filter := by
  have hGrouped := mem_whereWal_iff.mp hRow
  exact (grouped_perm passing_positions_nodup).mem_iff.mp
    (List.mem_map_of_mem hGrouped)

theorem segment_mem_committed_of_walRow
    (hRow : row ∈ catalog.walRows filter) :
    row.wal.segment ∈ catalog.committed :=
  segment_mem_committed
    (mem_passing_wal_iff.mp (wal_mem_passing hRow)).1

variable {first second : GroupedWal}

/-
  Two segments share a group when they are of one timeline and
  all that passes between them in time is WAL of it.
-/
theorem walRows_groupID_eq_iff
    (hFirst : first ∈ catalog.walRows filter)
    (hSecond : second ∈ catalog.walRows filter)
    (hLe :
      (MergedRow.wal first.wal).position ≤
        (MergedRow.wal second.wal).position) :
    first.groupID = second.groupID ↔
      ∀ row ∈ catalog.passing filter,
        (MergedRow.wal first.wal).position ≤ row.position →
          row.position ≤
              (MergedRow.wal second.wal).position →
            row.IsWalOn first.wal.segment.timelineID := by
  have hFirstGrouped := mem_whereWal_iff.mp hFirst
  have hSecondGrouped := mem_whereWal_iff.mp hSecond
  exact groupID_eq_iff passing_positions_nodup
    hFirstGrouped hSecondGrouped hLe rfl

theorem timeline_eq_of_groupID_eq
    (hFirst : first ∈ catalog.walRows filter)
    (hSecond : second ∈ catalog.walRows filter)
    (hGroup : first.groupID = second.groupID) :
    first.wal.segment.timelineID =
      second.wal.segment.timelineID := by
  rcases le_total (MergedRow.wal first.wal).position
      (MergedRow.wal second.wal).position with
    hLe | hGe
  · have hAll :=
      (walRows_groupID_eq_iff hFirst hSecond hLe).mp hGroup
    exact (hAll _ (wal_mem_passing hSecond) hLe
      (le_refl _)).2.symm
  · have hAll :=
      (walRows_groupID_eq_iff hSecond hFirst hGe).mp
        hGroup.symm
    exact (hAll _ (wal_mem_passing hFirst) hGe
      (le_refl _)).2

/- A group has one row for each start. -/
theorem walRow_eq_of_start_eq
    (hFirst : first ∈ catalog.walRows filter)
    (hSecond : second ∈ catalog.walRows filter)
    (hGroup : first.groupID = second.groupID)
    (hStart : first.startLSN = second.startLSN) :
    first = second := by
  have hSegment :=
    eq_of_start_eq
      (segment_mem_committed_of_walRow hFirst)
      (segment_mem_committed_of_walRow hSecond)
      (timeline_eq_of_groupID_eq hFirst hSecond hGroup)
      hStart
  exact List.inj_on_of_nodup_map walRows_nodup hFirst
    hSecond hSegment

end PhysicalCatalog

end Catalog

end Databasus

------------------------------------------------------------
-- Ranges of a Group
------------------------------------------------------------

namespace Databasus

namespace Catalog

open Foundation
open Foundation.Window
open Walmath (LSN)

namespace PhysicalCatalog

variable {databaseID : Uuid}
variable {catalog : PhysicalCatalog databaseID}
variable {filter : BackupListFilter}
variable {row : WalRangeRow}

theorem walOrderedRow_mem_walRows
    {row : WalOrderedRow}
    (hRow : row ∈ catalog.walOrderedRows filter) :
    row.toGroupedWal ∈ catalog.walRows filter :=
  (walOrdered_perm _).mem_iff.mp (List.mem_map_of_mem hRow)

theorem walRangeRow_mem_walOrderedRows
    (hRow : row ∈ catalog.walRangeRows filter) :
    row.toWalOrderedRow ∈ catalog.walOrderedRows filter :=
  (walRanges_perm _).mem_iff.mp (List.mem_map_of_mem hRow)

theorem walRangeRow_mem_walRows
    (hRow : row ∈ catalog.walRangeRows filter) :
    row.toGroupedWal ∈ catalog.walRows filter :=
  walOrderedRow_mem_walRows
    (walRangeRow_mem_walOrderedRows hRow)

theorem exists_walRangeRow
    {row : GroupedWal}
    (hRow : row ∈ catalog.walRows filter) :
    ∃ listed ∈ catalog.walRangeRows filter,
      listed.toGroupedWal = row := by
  rcases List.mem_map.mp
      ((walOrdered_perm _).mem_iff.mpr hRow) with
    ⟨source, hSource, rfl⟩
  rcases List.mem_map.mp
      ((walRanges_perm _).mem_iff.mpr hSource) with
    ⟨listed, hListed, rfl⟩
  exact ⟨listed, hListed, rfl⟩

theorem isOrdered_walRows
    (catalog : PhysicalCatalog databaseID)
    (filter : BackupListFilter)
    (row : GroupedWal) :
    IsOrdered GroupedWal.startLSN
      (orderBy GroupedWal.startLSN
        (partOf GroupedWal.groupID (catalog.walRows filter)
          row)) := by
  apply isOrdered_orderBy
  have hNodup : (catalog.walRows filter).Nodup :=
    List.Nodup.of_map _ walRows_nodup
  refine List.Nodup.map_on ?_ (hNodup.filter _)
  intro first hFirst second hSecond hStart
  rcases mem_partOf_iff.mp hFirst with
    ⟨hFirstMember, hFirstGroup⟩
  rcases mem_partOf_iff.mp hSecond with
    ⟨hSecondMember, hSecondGroup⟩
  exact walRow_eq_of_start_eq hFirstMember hSecondMember
    (hFirstGroup.trans hSecondGroup.symm) hStart

theorem isOrdered_walOrderedRows
    (catalog : PhysicalCatalog databaseID)
    (filter : BackupListFilter)
    (row : WalOrderedRow) :
    IsOrdered
      (fun source : WalOrderedRow => source.startLSN)
      (orderBy
        (fun source : WalOrderedRow => source.startLSN)
        (partOf
          (fun source : WalOrderedRow => source.groupID)
          (catalog.walOrderedRows filter) row)) := by
  apply isOrdered_orderBy
  have hRows :
      ((catalog.walOrderedRows filter).map
        WalOrderedRow.toGroupedWal).Nodup :=
    (walOrdered_perm
      (catalog.groupedRows filter)).nodup_iff.mpr
        (List.Nodup.of_map _ walRows_nodup)
  have hNodup := List.Nodup.of_map _ hRows
  refine List.Nodup.map_on ?_ (hNodup.filter _)
  intro first hFirst second hSecond hStart
  rcases mem_partOf_iff.mp hFirst with
    ⟨hFirstMember, hFirstGroup⟩
  rcases mem_partOf_iff.mp hSecond with
    ⟨hSecondMember, hSecondGroup⟩
  have hEq :=
    walRow_eq_of_start_eq
      (walOrderedRow_mem_walRows hFirstMember)
      (walOrderedRow_mem_walRows hSecondMember)
      (hFirstGroup.trans hSecondGroup.symm) hStart
  exact List.inj_on_of_nodup_map hRows hFirstMember
    hSecondMember hEq

variable {first second : WalRangeRow}

/- A row of the same group has its number from its window. -/
theorem mem_runningSum_of_group
    (hRow : row ∈ catalog.walRangeRows filter)
    (hGroup : row.groupID = first.groupID) :
    (row.toWalOrderedRow, row.walRangeID) ∈
      runningSum
        (fun source : WalOrderedRow =>
          if source.startsRange then 1 else 0)
        (orderBy
          (fun source : WalOrderedRow => source.startLSN)
          (partOf
            (fun source : WalOrderedRow => source.groupID)
            (catalog.walOrderedRows filter)
            first.toWalOrderedRow)) := by
  have hSum := mem_runningSum_of_mem_walRanges hRow
  have hPart :
      partOf
          (fun source : WalOrderedRow => source.groupID)
          (catalog.walOrderedRows filter)
          row.toWalOrderedRow =
        partOf
          (fun source : WalOrderedRow => source.groupID)
          (catalog.walOrderedRows filter)
          first.toWalOrderedRow :=
    partOf_congr hGroup
  rw [hPart] at hSum
  exact hSum

theorem walRangeID_mono
    (hFirst : first ∈ catalog.walRangeRows filter)
    (hSecond : second ∈ catalog.walRangeRows filter)
    (hGroup : first.groupID = second.groupID)
    (hLe : first.startLSN ≤ second.startLSN) :
    first.walRangeID ≤ second.walRangeID :=
  runningSum_mono
    (catalog.isOrdered_walOrderedRows filter
      second.toWalOrderedRow)
    (mem_runningSum_of_group hFirst hGroup)
    (mem_runningSum_of_group hSecond rfl) hLe

/-
  Two rows of a group share a range when each row after the
  first, up to the second, touches the row before it.
-/
theorem walRangeID_eq_iff
    (hFirst : first ∈ catalog.walRangeRows filter)
    (hSecond : second ∈ catalog.walRangeRows filter)
    (hGroup : first.groupID = second.groupID)
    (hLe : first.startLSN ≤ second.startLSN) :
    first.walRangeID = second.walRangeID ↔
      ∀ source ∈ catalog.walOrderedRows filter,
        source.groupID = second.groupID →
          first.startLSN < source.startLSN →
            source.startLSN ≤ second.startLSN →
              source.previousStopLSN =
                some source.startLSN := by
  rw [runningSum_eq_iff
    (catalog.isOrdered_walOrderedRows filter
      second.toWalOrderedRow)
    (mem_runningSum_of_group hFirst hGroup)
    (mem_runningSum_of_group hSecond rfl) hLe]
  constructor
  · intro hZero source hSource hSame hAfter hBefore
    have hPart :
        source ∈
          partOf
            (fun source : WalOrderedRow => source.groupID)
            (catalog.walOrderedRows filter)
            second.toWalOrderedRow :=
      mem_partOf_iff.mpr ⟨hSource, hSame⟩
    have hNone :=
      hZero source (mem_orderBy.mpr hPart) hAfter hBefore
    simpa [WalOrderedRow.startsRange] using hNone
  · intro hAll source hListed hAfter hBefore
    rcases mem_partOf_iff.mp (mem_orderBy.mp hListed) with
      ⟨hSource, hSame⟩
    have hStop := hAll source hSource hSame hAfter hBefore
    simp [WalOrderedRow.startsRange, hStop]

end PhysicalCatalog

------------------------------------------------------------
-- Rows of a Range
------------------------------------------------------------

def WalRangeRow.segment
    (row : WalRangeRow) : WalSegment :=
  row.wal.segment

namespace PhysicalCatalog

variable {databaseID : Uuid}
variable {catalog : PhysicalCatalog databaseID}
variable {filter : BackupListFilter}

/- The rows that share a row's range, in the log's order. -/
def members
    (catalog : PhysicalCatalog databaseID)
    (filter : BackupListFilter)
    (row : WalRangeRow) : List WalRangeRow :=
  orderBy (fun listed : WalRangeRow => listed.startLSN)
    (partOf WalRangeRow.range (catalog.walRangeRows filter)
      row)

variable {row listed first second : WalRangeRow}

theorem mem_members_iff :
    listed ∈ catalog.members filter row ↔
      listed ∈ catalog.walRangeRows filter ∧
        listed.groupID = row.groupID ∧
          listed.walRangeID = row.walRangeID := by
  unfold members
  rw [mem_orderBy, mem_partOf_iff]
  unfold WalRangeRow.range
  rw [Prod.mk.injEq]

theorem walRangeRow_eq_of_start_eq
    (hFirst : first ∈ catalog.walRangeRows filter)
    (hSecond : second ∈ catalog.walRangeRows filter)
    (hGroup : first.groupID = second.groupID)
    (hStart : first.startLSN = second.startLSN) :
    first = second := by
  have hEq :=
    walRow_eq_of_start_eq (walRangeRow_mem_walRows hFirst)
      (walRangeRow_mem_walRows hSecond) hGroup hStart
  have hSegment : first.segment = second.segment :=
    congrArg (fun source => source.wal.segment) hEq
  exact List.inj_on_of_nodup_map walRangeRows_nodup hFirst
    hSecond hSegment

theorem isOrdered_members
    (catalog : PhysicalCatalog databaseID)
    (filter : BackupListFilter)
    (row : WalRangeRow) :
    IsOrdered (fun listed : WalRangeRow => listed.startLSN)
      (catalog.members filter row) := by
  apply isOrdered_orderBy
  have hNodup : (catalog.walRangeRows filter).Nodup :=
    List.Nodup.of_map _ walRangeRows_nodup
  refine List.Nodup.map_on ?_ (hNodup.filter _)
  intro first hFirst second hSecond hStart
  rcases mem_partOf_iff.mp hFirst with
    ⟨hFirstMember, hFirstRange⟩
  rcases mem_partOf_iff.mp hSecond with
    ⟨hSecondMember, hSecondRange⟩
  have hRange := hFirstRange.trans hSecondRange.symm
  exact walRangeRow_eq_of_start_eq hFirstMember
    hSecondMember (Prod.mk.inj hRange).1 hStart

theorem segment_holds
    (hRow : row ∈ catalog.walRangeRows filter) :
    row.segment.startLSN < row.segment.endLSN :=
  lt_of_mem_committed
    (segment_mem_committed_of_walRow
      (walRangeRow_mem_walRows hRow))

/- The row before a row in its group, where it touches one. -/
theorem exists_touching_previous
    (hRow : row ∈ catalog.walRangeRows filter)
    (hStop : row.previousStopLSN = some row.startLSN) :
    ∃ previous ∈ catalog.walRangeRows filter,
      previous.groupID = row.groupID ∧
        previous.segment.endLSN = row.segment.startLSN ∧
          previous.startLSN < row.startLSN ∧
            ∀ other ∈ catalog.walRangeRows filter,
              other.groupID = row.groupID →
                other.startLSN < row.startLSN →
                  other.startLSN ≤ previous.startLSN := by
  rcases exists_mem_lag_of_mem_walOrdered
      (walRangeRow_mem_walOrderedRows hRow) with
    ⟨before, hLag, hBefore⟩
  rw [hBefore] at hStop
  rcases Option.map_eq_some_iff.mp hStop with
    ⟨previous, rfl, hEnd⟩
  have hOrdered :=
    catalog.isOrdered_walRows filter row.toGroupedWal
  rcases previous_of_mem_lag hOrdered hLag with
    ⟨hMember, hLt, hGreatest⟩
  rcases mem_partOf_iff.mp (mem_orderBy.mp hMember) with
    ⟨hPrevious, hGroup⟩
  rcases exists_walRangeRow hPrevious with
    ⟨listed, hListed, rfl⟩
  refine ⟨listed, hListed, hGroup, hEnd, hLt, ?_⟩
  intro other hOther hOtherGroup hOtherLt
  have hPart :
      other.toGroupedWal ∈
        partOf GroupedWal.groupID (catalog.walRows filter)
          row.toGroupedWal :=
    mem_partOf_iff.mpr
      ⟨walRangeRow_mem_walRows hOther, hOtherGroup⟩
  exact hGreatest other.toGroupedWal
    (mem_orderBy.mpr hPart) hOtherLt

/- The rows of a range follow one another without a hole. -/
theorem members_isRun
    (catalog : PhysicalCatalog databaseID)
    (filter : BackupListFilter)
    (row : WalRangeRow) :
    Touching.IsRun
      (fun listed : WalRangeRow => listed.segment.startLSN)
      (fun listed : WalRangeRow => listed.segment.endLSN)
      (catalog.members filter row) := by
  have hOrdered := catalog.isOrdered_members filter row
  refine ⟨?_, isChain_of_lag ?_⟩
  · intro listed hListed
    exact segment_holds (mem_members_iff.mp hListed).1
  · intro later earlier hLag
    have hLater := fst_mem_of_mem_lag hLag
    rcases previous_of_mem_lag hOrdered hLag with
      ⟨hEarlier, hLt, hGreatest⟩
    rcases mem_members_iff.mp hLater with
      ⟨hLaterRow, hLaterGroup, hLaterRange⟩
    rcases mem_members_iff.mp hEarlier with
      ⟨hEarlierRow, hEarlierGroup, hEarlierRange⟩
    have hGroup := hEarlierGroup.trans hLaterGroup.symm
    have hRange := hEarlierRange.trans hLaterRange.symm
    -- The later row touches a row, which lies in the range.
    have hStop :=
      (walRangeID_eq_iff hEarlierRow hLaterRow hGroup
        (le_of_lt hLt)).mp hRange later.toWalOrderedRow
        (walRangeRow_mem_walOrderedRows hLaterRow) rfl hLt
        (le_refl _)
    rcases exists_touching_previous hLaterRow hStop with
      ⟨previous, hPrevious, hPreviousGroup, hEnd,
        hPreviousLt, hPreviousGreatest⟩
    have hFrom :=
      hPreviousGreatest earlier hEarlierRow hGroup hLt
    have hSameGroup := hGroup.trans hPreviousGroup.symm
    have hLow :=
      walRangeID_mono hEarlierRow hPrevious hSameGroup hFrom
    have hHigh :=
      walRangeID_mono hPrevious hLaterRow hPreviousGroup
        (le_of_lt hPreviousLt)
    have hPreviousRange :
        previous.walRangeID = row.walRangeID := by
      omega
    have hMember : previous ∈ catalog.members filter row :=
      mem_members_iff.mpr
        ⟨hPrevious, hPreviousGroup.trans hLaterGroup,
          hPreviousRange⟩
    have hStart :=
      le_antisymm hFrom
        (hGreatest previous hMember hPreviousLt)
    rw [walRangeRow_eq_of_start_eq hEarlierRow hPrevious
      hSameGroup hStart]
    exact hEnd

/- Rows of a group that touch are in one range. -/
theorem range_eq_of_touches
    (hFirst : first ∈ catalog.walRangeRows filter)
    (hSecond : second ∈ catalog.walRangeRows filter)
    (hGroup : first.groupID = second.groupID)
    (hTouches :
      first.segment.endLSN = second.segment.startLSN) :
    first.walRangeID = second.walRangeID := by
  have hFirstWal := walRangeRow_mem_walRows hFirst
  have hHolds := segment_holds hFirst
  have hLt : first.startLSN < second.startLSN := by
    rw [hTouches] at hHolds
    exact hHolds
  rw [walRangeID_eq_iff hFirst hSecond hGroup (le_of_lt hLt)]
  intro source hSource hSame hAfter hBefore
  have hSourceWal := walOrderedRow_mem_walRows hSource
  have hSourceGroup : first.groupID = source.groupID :=
    hGroup.trans hSame.symm
  have hEndLe :=
    end_le_start (segment_mem_committed_of_walRow hFirstWal)
      (segment_mem_committed_of_walRow hSourceWal)
      (timeline_eq_of_groupID_eq hFirstWal hSourceWal
        hSourceGroup) hAfter
  rcases exists_mem_lag_of_mem_walOrdered hSource with
    ⟨before, hLag, hStop⟩
  have hOrdered :=
    catalog.isOrdered_walRows filter source.toGroupedWal
  have hPrevious := previous_of_mem_lag hOrdered hLag
  have hFirstListed :
      first.toGroupedWal ∈
        orderBy GroupedWal.startLSN
          (partOf GroupedWal.groupID (catalog.walRows filter)
            source.toGroupedWal) :=
    mem_orderBy.mpr
      (mem_partOf_iff.mpr ⟨hFirstWal, hSourceGroup⟩)
  cases before with
  | none =>
      exact absurd (hPrevious _ hFirstListed)
        (Nat.not_le.mpr hAfter)
  | some previous =>
      rcases hPrevious with ⟨hMember, hPreviousLt, hGreatest⟩
      rcases mem_partOf_iff.mp (mem_orderBy.mp hMember) with
        ⟨hPreviousWal, hPreviousGroup⟩
      have hFrom := hGreatest _ hFirstListed hAfter
      have hPair :
          first.toGroupedWal.groupID = previous.groupID :=
        hSourceGroup.trans hPreviousGroup.symm
      have hUpTo :
          previous.startLSN < first.segment.endLSN := by
        rw [hTouches]
        exact lt_of_lt_of_le hPreviousLt hBefore
      have hSameStart :
          first.toGroupedWal.startLSN = previous.startLSN := by
        by_contra hNe
        have hInside :=
          end_le_start
            (segment_mem_committed_of_walRow hFirstWal)
            (segment_mem_committed_of_walRow hPreviousWal)
            (timeline_eq_of_groupID_eq hFirstWal
              hPreviousWal hPair)
            (lt_of_le_of_ne hFrom hNe)
        exact absurd hUpTo (Nat.not_lt.mpr hInside)
      have hEq :=
        walRow_eq_of_start_eq hFirstWal hPreviousWal hPair
          hSameStart
      have hSourceStart :
          first.segment.endLSN = source.startLSN := by
        refine le_antisymm hEndLe ?_
        rw [hTouches]
        exact hBefore
      rw [hStop, ← hEq, ← hSourceStart]
      rfl

end PhysicalCatalog

end Catalog

end Databasus
