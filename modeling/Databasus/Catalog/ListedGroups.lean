import Databasus.Catalog.BackupList

/-
  The catalog that the backup list reads, and its groups.

  A segment's gap mark speaks of the whole catalog.  Rows of
  one group are the segments of one timeline with nothing else
  that passes the filter between them in time.

  Main declarations:
    * `PhysicalCatalog`
    * `PhysicalCatalog.isGapStart_iff`
    * `groupID_eq_iff`
    * `PhysicalCatalog.passing_segments_perm`
-/

------------------------------------------------------------
-- Catalogs
------------------------------------------------------------

namespace Databasus

namespace Catalog

open Foundation
open Foundation.Window

/-
  The two tables as one database sees them: ids are unique, and
  its stored segments hold bytes that no other one holds.
-/
structure PhysicalCatalog (databaseID : Uuid) where
  backups : List Backup
  walSegments : List WalSegment
  uniqueBackups : Table.UniqueBy Backup.id backups
  uniqueSegments : Table.UniqueBy WalSegment.id walSegments
  differentIDs :
    ∀ backup ∈ backups, ∀ segment ∈ walSegments,
      backup.id ≠ segment.id
  holdsBytes :
    ∀ segment ∈ walSegments,
      isCommittedFor databaseID segment = true →
        segment.startLSN < segment.endLSN
  noOverlap :
    ∀ first ∈ walSegments, ∀ second ∈ walSegments,
      isCommittedFor databaseID first = true →
        isCommittedFor databaseID second = true →
          first.timelineID = second.timelineID →
            first ≠ second →
              first.endLSN ≤ second.startLSN ∨
                second.endLSN ≤ first.startLSN

namespace PhysicalCatalog

variable {databaseID : Uuid}

def committed
    (catalog : PhysicalCatalog databaseID) :
    List WalSegment :=
  catalog.walSegments.filter (isCommittedFor databaseID)

def committedRows
    (catalog : PhysicalCatalog databaseID) :
    List CommittedWal :=
  committedWal catalog.walSegments databaseID

def passing
    (catalog : PhysicalCatalog databaseID)
    (filter : BackupListFilter) : List MergedRow :=
  filtered catalog.backups catalog.walSegments databaseID
    filter

def orderedRows
    (catalog : PhysicalCatalog databaseID)
    (filter : BackupListFilter) : List OrderedRow :=
  ordered (catalog.passing filter)

def groupedRows
    (catalog : PhysicalCatalog databaseID)
    (filter : BackupListFilter) : List GroupedRow :=
  grouped (catalog.orderedRows filter)

variable {catalog : PhysicalCatalog databaseID}
variable {filter : BackupListFilter}
variable {first second segment : WalSegment}

theorem mem_committed_iff :
    segment ∈ catalog.committed ↔
      segment ∈ catalog.walSegments ∧
        isCommittedFor databaseID segment = true :=
  List.mem_filter

theorem lt_of_mem_committed
    (hSegment : segment ∈ catalog.committed) :
    segment.startLSN < segment.endLSN := by
  rcases mem_committed_iff.mp hSegment with
    ⟨hMember, hCommitted⟩
  exact catalog.holdsBytes segment hMember hCommitted

/- Of two stored segments on a timeline one lies before. -/
theorem end_le_start
    (hFirst : first ∈ catalog.committed)
    (hSecond : second ∈ catalog.committed)
    (hTimeline : first.timelineID = second.timelineID)
    (hLt : first.startLSN < second.startLSN) :
    first.endLSN ≤ second.startLSN := by
  rcases mem_committed_iff.mp hFirst with
    ⟨hFirstMember, hFirstCommitted⟩
  rcases mem_committed_iff.mp hSecond with
    ⟨hSecondMember, hSecondCommitted⟩
  have hHolds := lt_of_mem_committed hSecond
  have hNe : first ≠ second := by
    rintro rfl
    exact absurd hLt (Nat.lt_irrefl _)
  rcases catalog.noOverlap first hFirstMember second
      hSecondMember hFirstCommitted hSecondCommitted
      hTimeline hNe with
    hBefore | hAfter
  · exact hBefore
  · exact absurd (hLt.trans hHolds) (Nat.not_lt.mpr hAfter)

/- A stored segment is known by its timeline and its start. -/
theorem eq_of_start_eq
    (hFirst : first ∈ catalog.committed)
    (hSecond : second ∈ catalog.committed)
    (hTimeline : first.timelineID = second.timelineID)
    (hStart : first.startLSN = second.startLSN) :
    first = second := by
  rcases mem_committed_iff.mp hFirst with
    ⟨hFirstMember, hFirstCommitted⟩
  rcases mem_committed_iff.mp hSecond with
    ⟨hSecondMember, hSecondCommitted⟩
  have hFirstHolds := lt_of_mem_committed hFirst
  have hSecondHolds := lt_of_mem_committed hSecond
  by_contra hNe
  rcases catalog.noOverlap first hFirstMember second
      hSecondMember hFirstCommitted hSecondCommitted
      hTimeline hNe with
    hBefore | hAfter
  · rw [← hStart] at hBefore
    exact absurd hFirstHolds (Nat.not_lt.mpr hBefore)
  · rw [hStart] at hAfter
    exact absurd hSecondHolds (Nat.not_lt.mpr hAfter)

theorem committed_nodup :
    catalog.committed.Nodup :=
  (List.Nodup.of_map WalSegment.id
    catalog.uniqueSegments).filter _

/- The segments of a timeline start at different places. -/
theorem timeline_starts_nodup
    (catalog : PhysicalCatalog databaseID)
    (segment : WalSegment) :
    ((partOf WalSegment.timelineID catalog.committed
      segment).map WalSegment.startLSN).Nodup := by
  refine List.Nodup.map_on ?_ (committed_nodup.filter _)
  intro first hFirst second hSecond hStart
  rcases mem_partOf_iff.mp hFirst with
    ⟨hFirstMember, hFirstTimeline⟩
  rcases mem_partOf_iff.mp hSecond with
    ⟨hSecondMember, hSecondTimeline⟩
  exact eq_of_start_eq hFirstMember hSecondMember
    (hFirstTimeline.trans hSecondTimeline.symm) hStart

------------------------------------------------------------
-- Gaps of the Whole Catalog
------------------------------------------------------------

variable {row : CommittedWal}

/- The stored segment before a segment on its timeline. -/
def IsPredecessor
    (catalog : PhysicalCatalog databaseID)
    (before : WalSegment)
    (segment : WalSegment) : Prop :=
  before ∈ catalog.committed ∧
    before.timelineID = segment.timelineID ∧
      before.startLSN < segment.startLSN ∧
        ∀ other ∈ catalog.committed,
          other.timelineID = segment.timelineID →
            other.startLSN < segment.startLSN →
              other.startLSN ≤ before.startLSN

theorem IsPredecessor.unique
    {first second : WalSegment}
    (hFirst : catalog.IsPredecessor first segment)
    (hSecond : catalog.IsPredecessor second segment) :
    first = second := by
  rcases hFirst with
    ⟨hFirstMember, hFirstTimeline, hFirstLt, hFirstMax⟩
  rcases hSecond with
    ⟨hSecondMember, hSecondTimeline, hSecondLt, hSecondMax⟩
  refine eq_of_start_eq hFirstMember hSecondMember
    (hFirstTimeline.trans hSecondTimeline.symm) ?_
  exact Nat.le_antisymm
    (hSecondMax first hFirstMember hFirstTimeline hFirstLt)
    (hFirstMax second hSecondMember hSecondTimeline
      hSecondLt)

/- The segments of the rows are the stored ones, each once. -/
theorem committedRows_perm
    (catalog : PhysicalCatalog databaseID) :
    (catalog.committedRows.map CommittedWal.segment).Perm
      catalog.committed := by
  unfold committedRows committedWal
  apply map_overParts_perm
  intro group
  rw [List.map_map]
  exact map_fst_lag group

theorem segment_mem_committed
    (hRow : row ∈ catalog.committedRows) :
    row.segment ∈ catalog.committed :=
  catalog.committedRows_perm.mem_iff.mp (List.mem_map_of_mem hRow)

/- What precedes a row in its window precedes it in the log. -/
theorem exists_previous
    (hRow : row ∈ catalog.committedRows) :
    ∃ previous,
      row.isGapStart =
          startsAfterGap previous row.segment ∧
        match previous with
        | some before =>
            catalog.IsPredecessor before row.segment
        | none =>
            ∀ before,
              ¬ catalog.IsPredecessor before
                row.segment := by
  unfold committedRows committedWal at hRow
  rcases mem_overParts_iff.mp hRow with ⟨segment, _, hMapped⟩
  rcases List.mem_map.mp hMapped with
    ⟨⟨listed, previous⟩, hLag, rfl⟩
  have hOrdered :=
    isOrdered_orderBy (catalog.timeline_starts_nodup segment)
  have hListed := mem_orderBy.mp (fst_mem_of_mem_lag hLag)
  have hTimeline := (mem_partOf_iff.mp hListed).2
  have hPrevious := previous_of_mem_lag hOrdered hLag
  refine ⟨previous, rfl, ?_⟩
  cases previous with
  | none =>
      rintro before ⟨hMember, hSame, hLt, _⟩
      have hBefore :
          before ∈
            orderBy WalSegment.startLSN
              (partOf WalSegment.timelineID
                catalog.committed segment) :=
        mem_orderBy.mpr
          (mem_partOf_iff.mpr
            ⟨hMember, hSame.trans hTimeline⟩)
      exact absurd (hPrevious before hBefore)
        (Nat.not_le.mpr hLt)
  | some before =>
      rcases hPrevious with ⟨hMember, hLt, hGreatest⟩
      rcases mem_partOf_iff.mp (mem_orderBy.mp hMember) with
        ⟨hCommitted, hSame⟩
      refine ⟨hCommitted, hSame.trans hTimeline.symm, hLt,
        ?_⟩
      intro other hOther hOtherTimeline hOtherLt
      refine hGreatest other ?_ hOtherLt
      exact mem_orderBy.mpr
        (mem_partOf_iff.mpr
          ⟨hOther, hOtherTimeline.trans hTimeline⟩)

/- A gap is marked where the predecessor ends elsewhere. -/
theorem isGapStart_iff
    (hRow : row ∈ catalog.committedRows) :
    row.isGapStart = true ↔
      ∃ before,
        catalog.IsPredecessor before row.segment ∧
          before.endLSN ≠ row.segment.startLSN := by
  rcases exists_previous hRow with
    ⟨previous, hMark, hPrevious⟩
  rw [hMark]
  cases previous with
  | none =>
      constructor
      · intro hGap
        cases hGap
      · rintro ⟨before, hBefore, _⟩
        exact absurd hBefore (hPrevious before)
  | some before =>
      simp only [startsAfterGap, Option.map_some,
        Option.getD_some, decide_eq_true_eq]
      constructor
      · intro hNe
        exact ⟨before, hPrevious, hNe⟩
      · rintro ⟨other, hOther, hNe⟩
        rw [hPrevious.unique hOther]
        exact hNe

end PhysicalCatalog

------------------------------------------------------------
-- Groups
------------------------------------------------------------

/- A row that continues a group of a timeline's segments. -/
def MergedRow.IsWalOn
    (timelineID : Nat)
    (row : MergedRow) : Prop :=
  row.type = backupTypeWal ∧ row.timelineID = timelineID

variable {rows : List MergedRow}

theorem map_row_ordered :
    (ordered rows).map OrderedRow.row =
      orderBy MergedRow.position rows := by
  unfold ordered
  rw [List.map_map]
  exact map_fst_lag _

theorem isOrdered_ordered
    (hDistinct : (rows.map MergedRow.position).Nodup) :
    IsOrdered OrderedRow.position (ordered rows) := by
  have hOrdered := isOrdered_orderBy hDistinct
  rw [← map_row_ordered] at hOrdered
  unfold IsOrdered at hOrdered
  rw [List.pairwise_map] at hOrdered
  exact hOrdered

/- A row that starts no group follows WAL of its timeline. -/
theorem startsGroup_eq_false_iff
    {row : MergedRow}
    {previous : Option MergedRow} :
    OrderedRow.startsGroup
        { row := row
          previousType := previous.map MergedRow.type
          previousTimelineID :=
            previous.map MergedRow.timelineID } = false ↔
      row.type = backupTypeWal ∧
        ∃ before,
          previous = some before ∧
            before.IsWalOn row.timelineID := by
  unfold OrderedRow.startsGroup MergedRow.IsWalOn
  cases previous with
  | none => simp
  | some before => simp [and_assoc]

theorem exists_ordered_of_mem_grouped
    {row : GroupedRow}
    (hDistinct : (rows.map MergedRow.position).Nodup)
    (hRow : row ∈ grouped (ordered rows)) :
    ∃ source : OrderedRow,
      source.row = row.row ∧
        (source, row.groupID) ∈
          runningSum
            (fun source : OrderedRow =>
              if source.startsGroup then 1 else 0)
            (ordered rows) := by
  unfold grouped at hRow
  rw [orderBy_eq_self (isOrdered_ordered hDistinct)] at hRow
  rcases List.mem_map.mp hRow with ⟨⟨source, total⟩, hSum, rfl⟩
  exact ⟨source, rfl, hSum⟩

/- The rows that are grouped are the rows given. -/
theorem grouped_perm
    (hDistinct : (rows.map MergedRow.position).Nodup) :
    ((grouped (ordered rows)).map GroupedRow.row).Perm
      rows := by
  have hRows :
      (grouped (ordered rows)).map GroupedRow.row =
        orderBy MergedRow.position rows := by
    unfold grouped
    rw [orderBy_eq_self (isOrdered_ordered hDistinct),
      List.map_map, ← map_row_ordered]
    conv_rhs =>
      rw [← map_fst_runningSum
        (fun source : OrderedRow =>
          if source.startsGroup then 1 else 0)
        (ordered rows), List.map_map]
    rfl
  rw [hRows]
  exact orderBy_perm

variable {first second : GroupedRow}

/- Rows from one to another that start no group. -/
theorem groupID_eq_iff_startsGroup
    (hDistinct : (rows.map MergedRow.position).Nodup)
    (hFirst : first ∈ grouped (ordered rows))
    (hSecond : second ∈ grouped (ordered rows))
    (hLe : first.row.position ≤ second.row.position) :
    first.groupID = second.groupID ↔
      ∀ source ∈ ordered rows,
        first.row.position < source.position →
          source.position ≤ second.row.position →
            source.startsGroup = false := by
  rcases exists_ordered_of_mem_grouped hDistinct hFirst with
    ⟨firstSource, hFirstRow, hFirstSum⟩
  rcases exists_ordered_of_mem_grouped hDistinct hSecond with
    ⟨secondSource, hSecondRow, hSecondSum⟩
  rw [← hFirstRow, ← hSecondRow] at hLe ⊢
  have hOrdered := isOrdered_ordered hDistinct
  rw [runningSum_eq_iff hOrdered hFirstSum hSecondSum hLe]
  simp only [ite_eq_right_iff, Nat.one_ne_zero, imp_false,
    Bool.not_eq_true]
  rfl

/-
  A segment and a later row share a group when all that lies
  in between, and the later row, is WAL of its timeline.
-/
theorem groupID_eq_iff
    (hDistinct : (rows.map MergedRow.position).Nodup)
    (hFirst : first ∈ grouped (ordered rows))
    (hSecond : second ∈ grouped (ordered rows))
    (hLe : first.row.position ≤ second.row.position)
    (hWal : first.row.type = backupTypeWal) :
    first.groupID = second.groupID ↔
      ∀ row ∈ rows,
        first.row.position ≤ row.position →
          row.position ≤ second.row.position →
            row.IsWalOn first.row.timelineID := by
  have hOrdered := isOrdered_orderBy hDistinct
  have hMember : first.row ∈ rows :=
    (grouped_perm hDistinct).mem_iff.mp
      (List.mem_map_of_mem hFirst)
  rw [groupID_eq_iff_startsGroup hDistinct hFirst hSecond hLe]
  constructor
  · intro hNone row hRow hAfter hBefore
    refine hOrdered.lag_induction
      (P := MergedRow.IsWalOn first.row.timelineID)
      (mem_orderBy.mpr hMember) ⟨hWal, rfl⟩ ?_ row
      (mem_orderBy.mpr hRow) hAfter hBefore
    intro next previous hLag hFrom hUpTo hPrevious
    have hLt := (previous_of_mem_lag hOrdered hLag).2.1
    have hSource :=
      hNone _ (List.mem_map_of_mem hLag)
        (lt_of_le_of_lt hFrom hLt) hUpTo
    rcases startsGroup_eq_false_iff.mp hSource with
      ⟨hType, before, hBeforeEq, hBeforeWal⟩
    rcases Option.some.inj hBeforeEq with rfl
    exact ⟨hType, hBeforeWal.2.symm.trans hPrevious.2⟩
  · intro hAll source hSource hAfter hBefore
    rcases List.mem_map.mp hSource with
      ⟨⟨row, previous⟩, hLag, rfl⟩
    have hRow := mem_orderBy.mp (fst_mem_of_mem_lag hLag)
    have hRowWal := hAll row hRow (le_of_lt hAfter) hBefore
    have hPrevious := previous_of_mem_lag hOrdered hLag
    rw [startsGroup_eq_false_iff]
    refine ⟨hRowWal.1, ?_⟩
    cases previous with
    | none =>
        exact absurd
          (hPrevious first.row (mem_orderBy.mpr hMember))
          (not_le.mpr hAfter)
    | some before =>
        rcases hPrevious with ⟨hIn, hLt, hGreatest⟩
        have hBeforeWal :=
          hAll before (mem_orderBy.mp hIn)
            (hGreatest first.row (mem_orderBy.mpr hMember)
              hAfter)
            (le_of_lt (lt_of_lt_of_le hLt hBefore))
        exact ⟨before, rfl, hBeforeWal.1,
          hBeforeWal.2.trans hRowWal.2.symm⟩

------------------------------------------------------------
-- Passing Rows
------------------------------------------------------------

variable {filter : BackupListFilter}

theorem passes_iff
    {row : MergedRow} :
    filter.passes row = true ↔
      (∀ id, filter.id = some id → row.id = id) ∧
        (filter.types = [] ∨ row.type ∈ filter.types) ∧
          (filter.statuses = [] ∨
            row.status ∈ filter.statuses) ∧
            ∀ date, filter.beforeDate = some date →
              row.createdAt < date := by
  rcases filter with ⟨id, types, statuses, beforeDate⟩
  unfold BackupListFilter.passes BackupListFilter.buildClause
  cases id <;> cases types <;> cases statuses <;>
    cases beforeDate <;>
      simp

/- A filter does not look at the gap mark of a segment. -/
theorem passes_wal
    (row : CommittedWal)
    (isGapStart : Bool) :
    filter.passes
        (.wal
          { segment := row.segment
            isGapStart := isGapStart }) =
      filter.passes (.wal row) := by
  rw [Bool.eq_iff_iff, passes_iff, passes_iff]
  rfl

def MergedRow.toWal : MergedRow → Option CommittedWal
  | .backup _ => none
  | .wal row => some row

theorem map_wal_whereWal
    (rows : List GroupedRow) :
    (whereWal rows).map GroupedWal.wal =
      (rows.map GroupedRow.row).filterMap
        MergedRow.toWal := by
  unfold whereWal
  rw [List.map_filterMap, List.filterMap_map]
  apply List.filterMap_congr
  intro row _
  rcases row with ⟨merged, groupID⟩
  cases merged <;> rfl

theorem mem_whereWal_iff
    {rows : List GroupedRow}
    {row : GroupedWal} :
    row ∈ whereWal rows ↔
      { row := .wal row.wal
        groupID := row.groupID : GroupedRow } ∈ rows := by
  unfold whereWal
  rw [List.mem_filterMap]
  constructor
  · rintro ⟨⟨merged, groupID⟩, hRow, hSome⟩
    cases merged with
    | backup backup => cases hSome
    | wal wal =>
        rcases Option.some.inj hSome with rfl
        exact hRow
  · intro hRow
    exact ⟨_, hRow, rfl⟩

namespace PhysicalCatalog

variable {databaseID : Uuid}
variable {catalog : PhysicalCatalog databaseID}

/- The stored segments that the filter lets through. -/
def passingSegments
    (catalog : PhysicalCatalog databaseID)
    (filter : BackupListFilter) : List WalSegment :=
  catalog.committed.filter fun segment =>
    filter.passes
      (.wal
        { segment := segment
          isGapStart := false })

/- The database's backups that the filter lets through. -/
def passingBackups
    (catalog : PhysicalCatalog databaseID)
    (filter : BackupListFilter) : List Backup :=
  catalog.backups.filter fun backup =>
    backup.databaseID = databaseID &&
      filter.passes (.backup backup)

theorem mem_passing_wal_iff
    {row : CommittedWal} :
    MergedRow.wal row ∈ catalog.passing filter ↔
      row ∈ catalog.committedRows ∧
        filter.passes (.wal row) = true := by
  unfold passing filtered merged committedRows
  rw [List.mem_filter, List.mem_append]
  simp

/- The segments among the passing rows, each once. -/
theorem passing_segments_perm :
    (((catalog.passing filter).filterMap
      MergedRow.toWal).map CommittedWal.segment).Perm
        (catalog.passingSegments filter) := by
  have hWal :
      (catalog.passing filter).filterMap MergedRow.toWal =
        catalog.committedRows.filter fun row =>
          filter.passes (.wal row) := by
    unfold passing filtered merged committedRows
    rw [List.filter_append, List.filterMap_append,
      List.filter_map, List.filter_map,
      List.filterMap_map, List.filterMap_map]
    simp [Function.comp_def, MergedRow.toWal]
  have hSegments :
      (catalog.committedRows.filter fun row =>
          filter.passes (.wal row)).map
            CommittedWal.segment =
        (catalog.committedRows.map
          CommittedWal.segment).filter fun segment =>
            filter.passes
              (.wal
                { segment := segment
                  isGapStart := false }) := by
    rw [List.filter_map]
    congr 1
    apply List.filter_congr
    intro row _
    exact (passes_wal row false).symm
  rw [hWal, hSegments]
  exact catalog.committedRows_perm.filter _

/- No two passing rows share an id. -/
theorem passing_ids_nodup :
    ((catalog.passing filter).map MergedRow.id).Nodup := by
  have hMerged :
      ((merged catalog.backups catalog.walSegments
        databaseID).map MergedRow.id).Nodup := by
    unfold merged
    rw [List.map_append, List.map_map, List.map_map,
      List.nodup_append]
    have hSegmentIDs :
        ((committedWal catalog.walSegments databaseID).map
            (MergedRow.id ∘ MergedRow.wal)).Perm
          (catalog.committed.map WalSegment.id) := by
      have hPerm := catalog.committedRows_perm.map WalSegment.id
      rw [List.map_map] at hPerm
      exact hPerm
    refine ⟨?_, ?_, ?_⟩
    · exact catalog.uniqueBackups.sublist
        (List.filter_sublist.map Backup.id)
    · rw [hSegmentIDs.nodup_iff]
      exact catalog.uniqueSegments.sublist
        (List.filter_sublist.map WalSegment.id)
    · intro first hFirst second hSecond
      rcases List.mem_map.mp hFirst with
        ⟨backup, hBackup, rfl⟩
      rcases List.mem_map.mp
          (hSegmentIDs.mem_iff.mp hSecond) with
        ⟨segment, hSegment, rfl⟩
      exact catalog.differentIDs backup
        (List.mem_of_mem_filter hBackup) segment
        (mem_committed_iff.mp hSegment).1
  exact hMerged.sublist (List.filter_sublist.map _)

theorem passing_positions_nodup :
    ((catalog.passing filter).map
      MergedRow.position).Nodup := by
  apply List.Nodup.of_map fun position => (ofLex position).2
  rw [List.map_map]
  exact passing_ids_nodup

end PhysicalCatalog

end Catalog

end Databasus
