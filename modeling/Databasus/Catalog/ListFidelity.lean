import Databasus.Catalog.ListedItems

/-
  The backup list is a faithful grouping of the catalog.

  Main declarations:
    * `PhysicalCatalog.IsFaithfulList`
    * `PhysicalCatalog.groupID_eq_iff_nothing_between`
    * `PhysicalCatalog.backup_list_is_faithful`
-/

------------------------------------------------------------
-- Faithful Lists
------------------------------------------------------------

namespace Databasus

namespace Catalog

open Foundation
open Foundation.Window

/- The order of receive time and id. -/
def WalSegment.position
    (segment : WalSegment) : Time ×ₗ Uuid :=
  toLex (segment.receivedAt, segment.id)

/- A backup, or WAL of another timeline. -/
def MergedRow.Separates
    (row : MergedRow)
    (timelineID : Nat) : Prop :=
  row.type ≠ backupTypeWal ∨ row.timelineID ≠ timelineID

def MergedRow.LiesBetween
    (row : MergedRow)
    (first second : WalSegment) : Prop :=
  (first.position < row.position ∧
      row.position < second.position) ∨
    (second.position < row.position ∧
      row.position < first.position)

namespace PhysicalCatalog

variable {databaseID : Uuid}

/- The passing segments that an item covers, in log order. -/
def segmentsIn
    (catalog : PhysicalCatalog databaseID)
    (filter : BackupListFilter)
    (item : BackupListRow) : List WalSegment :=
  orderBy WalSegment.startLSN
    ((catalog.passingSegments filter).filter item.covers)

/-
  The items are the passing backups and ranges of the passing
  segments.  A range has the segments it covers without holes,
  as much of the log as nothing else interrupts in time, and
  its gap mark speaks of the whole catalog.
-/
structure IsFaithfulList
    (catalog : PhysicalCatalog databaseID)
    (filter : BackupListFilter)
    (items : List BackupListRow) : Prop where
  distinct : (items.map BackupListRow.id).Nodup
  backups :
    (items.filter fun item => item.type ≠ backupTypeWal).Perm
      ((catalog.passingBackups filter).map backupItem)
  once :
    ∀ segment ∈ catalog.passingSegments filter,
      ∃! item, item ∈ items ∧ item.covers segment = true
  ranges :
    ∀ item ∈ items, item.type = backupTypeWal →
      Summarizes item (catalog.segmentsIn filter item)
  together :
    ∀ first ∈ catalog.passingSegments filter,
      ∀ second ∈ catalog.passingSegments filter,
        first.timelineID = second.timelineID →
          first.endLSN = second.startLSN →
            ((∃ item ∈ items,
                item.covers first = true ∧
                  item.covers second = true) ↔
              ¬ ∃ row ∈ catalog.passing filter,
                row.Separates first.timelineID ∧
                  row.LiesBetween first second)
  gaps :
    ∀ item ∈ items, item.type = backupTypeWal →
      (item.hasGapBefore = true ↔
        ∃ first before,
          (catalog.segmentsIn filter item).head? =
              some first ∧
            catalog.IsPredecessor before first ∧
              before.endLSN ≠ first.startLSN)

------------------------------------------------------------
-- Segments of an Item
------------------------------------------------------------

variable {catalog : PhysicalCatalog databaseID}
variable {filter : BackupListFilter}
variable {item : BackupListRow}
variable {row : WalRangeRow}
variable {segment : WalSegment}

theorem memberSegments_isOrdered
    (catalog : PhysicalCatalog databaseID)
    (filter : BackupListFilter)
    (row : WalRangeRow) :
    IsOrdered WalSegment.startLSN
      (catalog.memberSegments filter row) :=
  List.pairwise_map.mpr
    (catalog.isOrdered_members filter row)

/- What an item covers is the range that it stands for. -/
theorem segmentsIn_eq
    (hItem :
      Summarizes item (catalog.memberSegments filter row)) :
    catalog.segmentsIn filter item =
      catalog.memberSegments filter row := by
  have hOrdered := catalog.memberSegments_isOrdered filter row
  refine hOrdered.eq_orderBy ?_
  have hNodup : (catalog.memberSegments filter row).Nodup :=
    hOrdered.imp fun hLt hEq =>
      absurd hLt (by rw [hEq]; exact Nat.lt_irrefl _)
  rw [List.perm_ext_iff_of_nodup hNodup
    (passingSegments_nodup.filter _)]
  intro segment
  rw [List.mem_filter]
  constructor
  · intro hMember
    rcases mem_memberSegments_iff.mp hMember with
      ⟨listed, hListed, rfl⟩
    have hPasses :=
      segment_passes (mem_members_iff.mp hListed).1
    have hCommitted := (mem_passingSegments_iff.mp hPasses).1
    exact ⟨hPasses,
      (covers_iff hItem hCommitted).mpr hMember⟩
  · rintro ⟨hPasses, hCovers⟩
    have hCommitted := (mem_passingSegments_iff.mp hPasses).1
    exact (covers_iff hItem hCommitted).mp hCovers

theorem type_of_covers
    (hCovers : item.covers segment = true) :
    item.type = backupTypeWal := by
  unfold BackupListRow.covers at hCovers
  simp only [Bool.and_eq_true, decide_eq_true_eq] at hCovers
  exact hCovers.1.1.1

/- The item of a row's range covers the rows of that range. -/
theorem covers_row_iff
    {listed : WalRangeRow}
    (hListed : listed ∈ catalog.walRangeRows filter)
    (hItem :
      Summarizes item (catalog.memberSegments filter row)) :
    item.covers listed.segment = true ↔
      listed.range = row.range := by
  rw [covers_iff hItem (segment_mem_committed_of_row hListed),
    mem_memberSegments_row_iff hListed]

/- A segment that passes lies in one item of the list. -/
theorem existsUnique_item
    (hSegment : segment ∈ catalog.passingSegments filter) :
    ∃! item,
      item ∈ catalog.items filter ∧
        item.covers segment = true := by
  rcases exists_row_of_passing hSegment with
    ⟨row, hRow, rfl⟩
  rcases exists_walRangeItem hRow with
    ⟨item, _, hItem, _, _, hSummarizes⟩
  refine ⟨item,
    ⟨mem_items_of_row hRow hItem,
      (covers_row_iff hRow hSummarizes).mpr rfl⟩, ?_⟩
  rintro other ⟨hOther, hCovers⟩
  rcases summarizes_of_item hOther
      (type_of_covers hCovers) with
    ⟨source, _, _, hSome, _, _, hOtherSummarizes⟩
  have hRange :=
    (covers_row_iff hRow hOtherSummarizes).mp hCovers
  rw [← partOf_congr hRange, hItem] at hSome
  exact (Option.some.inj hSome).symm

/- Items cover two rows together where they share a range. -/
theorem exists_item_covers_iff
    {first second : WalRangeRow}
    (hFirst : first ∈ catalog.walRangeRows filter)
    (hSecond : second ∈ catalog.walRangeRows filter) :
    (∃ item ∈ catalog.items filter,
        item.covers first.segment = true ∧
          item.covers second.segment = true) ↔
      first.range = second.range := by
  constructor
  · rintro ⟨item, hItem, hFirstCovers, hSecondCovers⟩
    rcases summarizes_of_item hItem
        (type_of_covers hFirstCovers) with
      ⟨row, _, _, _, _, _, hSummarizes⟩
    exact ((covers_row_iff hFirst hSummarizes).mp
      hFirstCovers).trans
        ((covers_row_iff hSecond hSummarizes).mp
          hSecondCovers).symm
  · intro hRange
    rcases exists_walRangeItem hFirst with
      ⟨item, _, hItem, _, _, hSummarizes⟩
    exact ⟨item, mem_items_of_row hFirst hItem,
      (covers_row_iff hFirst hSummarizes).mpr rfl,
      (covers_row_iff hSecond hSummarizes).mpr hRange.symm⟩

/- The gap mark of an item is that of its first segment. -/
theorem hasGapBefore_iff
    (hItem : item ∈ catalog.items filter)
    (hType : item.type = backupTypeWal) :
    item.hasGapBefore = true ↔
      ∃ first before,
        (catalog.segmentsIn filter item).head? =
            some first ∧
          catalog.IsPredecessor before first ∧
            before.endLSN ≠ first.startLSN := by
  rcases summarizes_of_item hItem hType with
    ⟨row, _, first, _, hFirst, hGap, hSummarizes⟩
  have hMember := List.mem_of_head? hFirst
  have hRow :=
    walRangeRow_mem_walRows (mem_members_iff.mp hMember).1
  have hHead :
      (catalog.segmentsIn filter item).head? =
        some first.segment := by
    rw [segmentsIn_eq hSummarizes]
    unfold memberSegments
    rw [List.head?_map, hFirst]
    rfl
  rw [hGap,
    isGapStart_iff (mem_passing_wal_iff.mp
      (wal_mem_passing hRow)).1]
  constructor
  · rintro ⟨before, hBefore, hNe⟩
    exact ⟨first.segment, before, hHead, hBefore, hNe⟩
  · rintro ⟨listed, before, hListed, hBefore, hNe⟩
    rcases Option.some.inj (hHead.symm.trans hListed) with rfl
    exact ⟨before, hBefore, hNe⟩

------------------------------------------------------------
-- Touching Segments
------------------------------------------------------------

variable {first second : GroupedWal}

theorem eq_of_position_eq
    {row other : MergedRow}
    (hRow : row ∈ catalog.passing filter)
    (hOther : other ∈ catalog.passing filter)
    (hPosition : row.position = other.position) :
    row = other :=
  List.inj_on_of_nodup_map passing_positions_nodup hRow
    hOther hPosition

theorem not_separates_iff
    {row : MergedRow}
    {timelineID : Nat} :
    ¬ row.Separates timelineID ↔ row.IsWalOn timelineID := by
  unfold MergedRow.Separates MergedRow.IsWalOn
  rw [not_or, not_not, not_not]

/- Both ends are WAL already, so the rows between decide. -/
theorem groupID_eq_iff_between
    (hFirst : first ∈ catalog.walRows filter)
    (hSecond : second ∈ catalog.walRows filter)
    (hTimeline :
      first.wal.segment.timelineID =
        second.wal.segment.timelineID)
    (hLe :
      first.wal.segment.position ≤
        second.wal.segment.position) :
    first.groupID = second.groupID ↔
      ¬ ∃ row ∈ catalog.passing filter,
        row.Separates first.wal.segment.timelineID ∧
          first.wal.segment.position < row.position ∧
            row.position < second.wal.segment.position := by
  have hGroups := walRows_groupID_eq_iff hFirst hSecond hLe
  rw [hGroups]
  constructor
  · rintro hAll ⟨row, hRow, hSeparates, hAfter, hBefore⟩
    have hWal :=
      hAll row hRow (le_of_lt hAfter) (le_of_lt hBefore)
    exact not_separates_iff.mpr hWal hSeparates
  · intro hNone row hRow hAfter hBefore
    rcases eq_or_lt_of_le hAfter with hStart | hLater
    · rw [← eq_of_position_eq (wal_mem_passing hFirst) hRow
        hStart]
      exact ⟨rfl, rfl⟩
    · rcases eq_or_lt_of_le hBefore with hEnd | hEarlier
      · rw [eq_of_position_eq hRow (wal_mem_passing hSecond)
          hEnd]
        exact ⟨rfl, hTimeline.symm⟩
      · apply not_separates_iff.mp
        intro hSeparates
        exact hNone ⟨row, hRow, hSeparates, hLater, hEarlier⟩

/-
  Two segments of a timeline share a group when nothing that
  separates them passes the filter, whichever came first.
-/
theorem groupID_eq_iff_nothing_between
    (hFirst : first ∈ catalog.walRows filter)
    (hSecond : second ∈ catalog.walRows filter)
    (hTimeline :
      first.wal.segment.timelineID =
        second.wal.segment.timelineID) :
    first.groupID = second.groupID ↔
      ¬ ∃ row ∈ catalog.passing filter,
        row.Separates first.wal.segment.timelineID ∧
          row.LiesBetween first.wal.segment
            second.wal.segment := by
  rcases le_total first.wal.segment.position
      second.wal.segment.position with
    hLe | hGe
  · rw [groupID_eq_iff_between hFirst hSecond hTimeline hLe]
    refine not_congr (exists_congr fun row =>
      and_congr_right fun _ => and_congr_right fun _ => ?_)
    unfold MergedRow.LiesBetween
    constructor
    · exact Or.inl
    · rintro (hBetween | hBetween)
      · exact hBetween
      · exact absurd (hBetween.1.trans hBetween.2)
          (not_lt.mpr hLe)
  · rw [eq_comm,
      groupID_eq_iff_between hSecond hFirst hTimeline.symm
        hGe, ← hTimeline]
    refine not_congr (exists_congr fun row =>
      and_congr_right fun _ => and_congr_right fun _ => ?_)
    unfold MergedRow.LiesBetween
    constructor
    · exact Or.inr
    · rintro (hBetween | hBetween)
      · exact absurd (hBetween.1.trans hBetween.2)
          (not_lt.mpr hGe)
      · exact hBetween

/- Touching segments share an item where nothing separates. -/
theorem together_iff
    {earlier later : WalSegment}
    (hEarlier : earlier ∈ catalog.passingSegments filter)
    (hLater : later ∈ catalog.passingSegments filter)
    (hTimeline : earlier.timelineID = later.timelineID)
    (hTouches : earlier.endLSN = later.startLSN) :
    (∃ item ∈ catalog.items filter,
        item.covers earlier = true ∧
          item.covers later = true) ↔
      ¬ ∃ row ∈ catalog.passing filter,
        row.Separates earlier.timelineID ∧
          row.LiesBetween earlier later := by
  rcases exists_row_of_passing hEarlier with
    ⟨first, hFirst, rfl⟩
  rcases exists_row_of_passing hLater with
    ⟨second, hSecond, rfl⟩
  have hGroups :=
    groupID_eq_iff_nothing_between
      (walRangeRow_mem_walRows hFirst)
      (walRangeRow_mem_walRows hSecond) hTimeline
  rw [exists_item_covers_iff hFirst hSecond]
  refine Iff.trans ?_ hGroups
  constructor
  · intro hRange
    exact (Prod.mk.inj hRange).1
  · intro hGroup
    exact Prod.ext hGroup
      (range_eq_of_touches hFirst hSecond hGroup hTouches)

------------------------------------------------------------
-- Fidelity
------------------------------------------------------------

theorem items_faithful
    (catalog : PhysicalCatalog databaseID)
    (filter : BackupListFilter) :
    catalog.IsFaithfulList filter (catalog.items filter) :=
  { distinct := catalog.items_ids_nodup filter
    backups := by
      have hRanges :
          (walRangeItems (catalog.walRangeRows filter)).filter
              (fun item => item.type ≠ backupTypeWal) =
            [] := by
        rw [List.filter_eq_nil_iff]
        intro item hItem
        rcases List.mem_filterMap.mp hItem with
          ⟨group, hGroup, hSome⟩
        rcases mem_partitions_iff.mp hGroup with
          ⟨row, hRow, hPart⟩
        rw [hPart] at hSome
        rcases exists_walRangeItem hRow with
          ⟨summary, _, hSummary, _, _, hSummarizes⟩
        rw [← Option.some.inj (hSummary.symm.trans hSome)]
        simp [hSummarizes.type]
      have hBackups :
          ((catalog.passingBackups filter).map
              backupItem).filter
                (fun item => item.type ≠ backupTypeWal) =
            (catalog.passingBackups filter).map
              backupItem := by
        rw [List.filter_eq_self]
        intro item hItem
        rcases List.mem_map.mp hItem with ⟨backup, _, rfl⟩
        simp [backupItem_type_ne backup]
      rw [items_eq, List.filter_append, hRanges,
        List.append_nil, ← hBackups]
      exact (catalog.backupItems_perm filter).filter _
    once := fun _ hSegment => existsUnique_item hSegment
    ranges := by
      intro item hItem hType
      rcases summarizes_of_item hItem hType with
        ⟨row, _, _, _, _, _, hSummarizes⟩
      rw [segmentsIn_eq hSummarizes]
      exact hSummarizes
    together := fun _ hFirst _ hSecond hTimeline hTouches =>
      together_iff hFirst hSecond hTimeline hTouches
    gaps := fun _ hItem hType => hasGapBefore_iff hItem hType }

/- Asking page by page follows the keys of the list. -/
theorem listPages_eq_followPages
    (catalog : PhysicalCatalog databaseID)
    (filter : BackupListFilter)
    (limits : List Nat) :
    ∀ after : Option BackupListPosition,
      listPages catalog.backups catalog.walSegments
          databaseID filter after limits =
        Paging.followPages BackupListRow.sortKey
          (catalog.items filter)
          (after.map BackupListPosition.key) limits := by
  induction limits with
  | nil =>
      intro after
      rfl
  | cons limit limits ih =>
      intro after
      have hNext :
          ∀ page : List BackupListRow,
            (positionAfter after page).map
                BackupListPosition.key =
              Paging.nextAfter BackupListRow.sortKey
                (after.map BackupListPosition.key) page := by
        intro page
        unfold positionAfter Paging.nextAfter
        cases page.getLast? <;> rfl
      rw [listPages, Paging.followPages]
      simp only [ih, hNext]
      rfl

/-
  The items are a faithful grouping, and the pages of any
  limits list the newest of them first, each item once.
-/
theorem backup_list_is_faithful
    (catalog : PhysicalCatalog databaseID)
    (filter : BackupListFilter) :
    catalog.IsFaithfulList filter
        (backupListItemsQuery catalog.backups
          catalog.walSegments databaseID filter) ∧
      ∀ limits : List Nat,
        listPages catalog.backups catalog.walSegments
            databaseID filter none limits =
          (orderByDesc BackupListRow.sortKey
            (backupListItemsQuery catalog.backups
              catalog.walSegments databaseID filter)).take
                limits.sum ∧
        ((backupListItemsQuery catalog.backups
            catalog.walSegments databaseID filter).length ≤
              limits.sum →
          (listPages catalog.backups catalog.walSegments
            databaseID filter none limits).Perm
              (backupListItemsQuery catalog.backups
                catalog.walSegments databaseID filter)) := by
  refine ⟨catalog.items_faithful filter, ?_⟩
  intro limits
  have hKeys := catalog.items_sortKeys_nodup filter
  rw [listPages_eq_followPages]
  exact ⟨Paging.followPages_eq_take hKeys limits,
    Paging.followPages_perm hKeys⟩

------------------------------------------------------------
-- Uploads out of Order
------------------------------------------------------------

def storedSegment
    (id timelineID startLSN : Nat)
    (receivedAt : Time) : WalSegment :=
  { id := id
    databaseID := 1
    storageID := 1
    timelineID := timelineID
    fileName := some "segment"
    walFilename := "wal"
    startLSN := startLSN
    endLSN := startLSN + 16
    compressedSizeMb := 1
    receivedAt := receivedAt
    claimedAt := 0 }

/- A backup runs while the segment at 32 is still on its way. -/
def shuffledCatalog : PhysicalCatalog 1 :=
  { backups :=
      [{ id := 1
         databaseID := 1
         storageID := 1
         kind := .full
         timelineID := 1
         status := .completed
         createdAt := 5 }]
    walSegments :=
      [storedSegment 10 1 0 3, storedSegment 11 1 16 2,
        storedSegment 12 1 32 9, storedSegment 13 1 48 4,
        storedSegment 14 2 96 6, storedSegment 15 2 64 7]
    uniqueBackups := by decide
    uniqueSegments := by decide
    differentIDs := by decide
    holdsBytes := by decide
    noOverlap := by decide +kernel }

/- Only the segment at 96 starts where no segment has ended. -/
example :
    (backupListItemsQuery shuffledCatalog.backups
        shuffledCatalog.walSegments 1 {}).map
        (fun item =>
          (item.id, item.startLSN, item.walSegmentsCount,
            item.hasGapBefore)) =
      [(1, none, none, false), (10, some 0, some 2, false),
        (13, some 48, some 1, false),
        (15, some 64, some 1, false),
        (14, some 96, some 1, true),
        (12, some 32, some 1, false)] := by
  decide +kernel

end PhysicalCatalog

end Catalog

end Databasus
