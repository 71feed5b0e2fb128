import Databasus.Catalog.WalSegment

/-
  Queries of the physical catalog: a full's neighbours on its
  timeline, and the segments of a span of the log.

  Main declarations:
    * `LSNRange`
    * `hasCompletedFullBefore`
    * `findNextCompletedFull`
    * `getOwnershipSpan`
    * `findLatestCompletedByRootFull`
    * `findByChainSpan`
    * `findContained`
    * `findOrphans`
    * `findLatestCommittedBefore`
    * `findLatestCommittedSegment`
-/

------------------------------------------------------------
-- Full Backups
------------------------------------------------------------

namespace Databasus

namespace Catalog

open Walmath (LSN)

/- The positions from the start up to, not with, the end. -/
structure LSNRange where
  start : LSN
  endLSN : LSN
deriving DecidableEq, Repr

/- A full of a timeline that a chain can start from. -/
def isCompletedFullOn
    (databaseID : Uuid)
    (timelineID : Nat)
    (backup : Backup) : Bool :=
  backup.kind = .full && backup.databaseID = databaseID &&
    backup.timelineID = timelineID &&
      backup.status = .completed

/- The start is known, and lies below a position. -/
def startsBefore
    (position : LSN)
    (backup : Backup) : Bool :=
  backup.startLSN.any fun start => start < position

/- What starts below a position starts below later ones. -/
theorem startsBefore_mono
    {position later : LSN}
    {backup : Backup}
    (hLater : position ≤ later)
    (hStarts : startsBefore position backup = true) :
    startsBefore later backup = true := by
  unfold startsBefore at hStarts ⊢
  cases hLSN : backup.startLSN with
  | none => simp [hLSN] at hStarts
  | some start =>
      simp only [hLSN, Option.any_some,
        decide_eq_true_eq] at hStarts ⊢
      exact Nat.lt_of_lt_of_le hStarts hLater

def startsAfter
    (position : LSN)
    (backup : Backup) : Bool :=
  backup.startLSN.any fun start => position < start

def hasRunningFullBackup
    (backups : List Backup)
    (databaseID : Uuid) : Bool :=
  backups.any fun backup =>
    backup.databaseID = databaseID && backup.kind = .full &&
      backup.status = .inProgress

def hasCompletedFullBefore
    (backups : List Backup)
    (full : Backup)
    (startLSN : LSN) : Bool :=
  backups.any fun backup =>
    isCompletedFullOn full.databaseID full.timelineID
        backup &&
      startsBefore startLSN backup

def hasSurvivingCompletedFullOnTimeline
    (backups : List Backup)
    (full : Backup) : Bool :=
  backups.any fun backup =>
    isCompletedFullOn full.databaseID full.timelineID
        backup &&
      backup.id ≠ full.id

def hasCompletedFullBackupCoveringWal
    (backups : List Backup)
    (databaseID : Uuid)
    (timelineID : Nat)
    (walEndLSN : LSN) : Bool :=
  backups.any fun backup =>
    isCompletedFullOn databaseID timelineID backup &&
      startsBefore walEndLSN backup

/- The order of `start_lsn ASC`, where nulls come last. -/
def startsNoLater
    (first second : Backup) : Prop :=
  match first.startLSN, second.startLSN with
  | some firstLSN, some secondLSN => firstLSN ≤ secondLSN
  | _, none => True
  | none, some _ => False

instance instDecidableStartsNoLater :
    DecidableRel startsNoLater := by
  intro first second
  unfold startsNoLater
  split <;> infer_instance

instance instTotalStartsNoLater :
    Std.Total startsNoLater := by
  constructor
  intro first second
  unfold startsNoLater
  cases first.startLSN with
  | none => cases second.startLSN <;> simp
  | some firstLSN =>
      cases second.startLSN with
      | none => exact Or.inl trivial
      | some secondLSN => exact Nat.le_total _ _

instance instTransStartsNoLater :
    IsTrans Backup startsNoLater := by
  constructor
  intro first second third hFirst hSecond
  unfold startsNoLater at *
  cases hThird : third.startLSN with
  | none => cases first.startLSN <;> trivial
  | some thirdLSN =>
      rw [hThird] at hSecond
      cases hMiddle : second.startLSN with
      | none => simp [hMiddle] at hSecond
      | some secondLSN =>
          rw [hMiddle] at hFirst hSecond
          cases hLeast : first.startLSN with
          | none => simp [hLeast] at hFirst
          | some firstLSN =>
              rw [hLeast] at hFirst
              exact Nat.le_trans hFirst hSecond

def findNextCompletedFull
    (backups : List Backup)
    (full : Backup)
    (startLSN : LSN) : Option Backup :=
  ((backups.filter fun backup =>
    isCompletedFullOn full.databaseID full.timelineID
        backup &&
      startsAfter startLSN backup).insertionSort
        startsNoLater).head?

/- From the full's start to the next completed full's. -/
def getOwnershipSpan
    (backups : List Backup)
    (full : Backup)
    (startLSN : LSN) : LSNRange :=
  { start := startLSN
    endLSN :=
      match findNextCompletedFull backups full startLSN with
      | none => LSN.max
      | some successor =>
          successor.startLSN.getD LSN.max }

def findAllByRootFull
    (backups : List Backup)
    (rootFullBackupID : Uuid) : List Backup :=
  (backups.filter fun backup =>
    backup.rootFullBackupID =
      some rootFullBackupID).insertionSort startsNoLater

/- The order of `start_lsn DESC`, where nulls come first. -/
def startsNoEarlier
    (first second : Backup) : Prop :=
  startsNoLater second first

instance instDecidableStartsNoEarlier :
    DecidableRel startsNoEarlier :=
  fun first second =>
    instDecidableStartsNoLater second first

instance instTotalStartsNoEarlier :
    Std.Total startsNoEarlier :=
  ⟨fun first second =>
    instTotalStartsNoLater.total second first⟩

instance instTransStartsNoEarlier :
    IsTrans Backup startsNoEarlier :=
  ⟨fun first second third hFirst hSecond =>
    instTransStartsNoLater.trans third second first hSecond
      hFirst⟩

/- The incremental of a root that a next one grows from. -/
def findLatestCompletedByRootFull
    (backups : List Backup)
    (rootFullBackupID : Uuid) : Option Backup :=
  Foundation.Table.firstBy startsNoEarlier
    (fun backup =>
      backup.rootFullBackupID = some rootFullBackupID &&
        backup.status = .completed)
    backups

/- The next full is the first one after the start. -/
theorem getOwnershipSpan_end_le
    {backups : List Backup}
    {full other : Backup}
    {startLSN otherLSN : LSN}
    (hOther : other ∈ backups)
    (hCompleted :
      isCompletedFullOn full.databaseID full.timelineID
        other = true)
    (hStart : other.startLSN = some otherLSN)
    (hAfter : startLSN < otherLSN) :
    (getOwnershipSpan backups full startLSN).endLSN ≤
      otherLSN := by
  have hSelected :
      other ∈
        backups.filter fun backup =>
          isCompletedFullOn full.databaseID full.timelineID
              backup &&
            startsAfter startLSN backup := by
    rw [List.mem_filter]
    refine ⟨hOther, ?_⟩
    simp [hCompleted, startsAfter, hStart, hAfter]
  have hSorted :=
    (List.mem_insertionSort startsNoLater).mpr hSelected
  have hOrder :=
    List.pairwise_insertionSort startsNoLater
      (backups.filter fun backup =>
        isCompletedFullOn full.databaseID full.timelineID
            backup &&
          startsAfter startLSN backup)
  unfold getOwnershipSpan findNextCompletedFull
  cases hList :
    (backups.filter fun backup =>
      isCompletedFullOn full.databaseID full.timelineID
          backup &&
        startsAfter startLSN backup).insertionSort
          startsNoLater with
  | nil =>
      rw [hList] at hSorted
      cases hSorted
  | cons successor rest =>
      rw [hList] at hSorted hOrder
      have hLe : startsNoLater successor other := by
        rcases List.mem_cons.mp hSorted with rfl | hRest
        · have hSelf :
              startsNoLater other other ∨
                startsNoLater other other :=
            Std.Total.total _ _
          exact hSelf.elim id id
        · exact List.rel_of_pairwise_cons hOrder hRest
      unfold startsNoLater at hLe
      rw [hStart] at hLe
      cases hLSN : successor.startLSN with
      | none => simp [hLSN] at hLe
      | some lsn =>
          rw [hLSN] at hLe
          simpa [hLSN] using hLe

------------------------------------------------------------
-- Segments of a Span
------------------------------------------------------------

/- The order of `start_lsn ASC` of segments. -/
def segmentStartsNoLater
    (first second : WalSegment) : Prop :=
  first.startLSN ≤ second.startLSN

instance instDecidableSegmentStartsNoLater :
    DecidableRel segmentStartsNoLater :=
  fun _ _ => inferInstanceAs (Decidable (_ ≤ _))

instance instTotalSegmentStartsNoLater :
    Std.Total segmentStartsNoLater :=
  ⟨fun first second =>
    Nat.le_total first.startLSN second.startLSN⟩

instance instTransSegmentStartsNoLater :
    IsTrans WalSegment segmentStartsNoLater :=
  ⟨fun _ _ _ hFirst hSecond =>
    Nat.le_trans hFirst hSecond⟩

/- The start of the last segment that begins by a position. -/
def chainSpanBoundary
    (segments : List WalSegment)
    (databaseID : Uuid)
    (timelineID : Nat)
    (position : LSN) : LSN :=
  (((segments.filter fun segment =>
    segment.databaseID = databaseID &&
      segment.timelineID = timelineID &&
        segment.startLSN ≤ position).map
          WalSegment.startLSN).max?).getD 0

/-
  The segments that overlap a span: the one that holds its
  start bounds their index from below.
-/
def findByChainSpan
    (segments : List WalSegment)
    (databaseID : Uuid)
    (timelineID : Nat)
    (startLSN endLSN : LSN) : List WalSegment :=
  (segments.filter fun segment =>
    segment.databaseID = databaseID &&
      segment.timelineID = timelineID &&
        chainSpanBoundary segments databaseID timelineID
            startLSN ≤
          segment.startLSN &&
          segment.startLSN < endLSN &&
            startLSN < segment.endLSN).insertionSort
              segmentStartsNoLater

structure ContainedWalQuery where
  databaseID : Uuid
  timelineID : Nat
  span : LSNRange
  limit : Nat
deriving DecidableEq, Repr

/- The segment lies inside the span with both its ends. -/
def ContainedWalQuery.isContained
    (query : ContainedWalQuery)
    (segment : WalSegment) : Bool :=
  segment.databaseID = query.databaseID &&
    segment.timelineID = query.timelineID &&
      query.span.start ≤ segment.startLSN &&
        segment.endLSN ≤ query.span.endLSN

def findContained
    (segments : List WalSegment)
    (query : ContainedWalQuery) : List WalSegment :=
  ((segments.filter query.isContained).insertionSort
    segmentStartsNoLater).take query.limit

/- Segments that no completed full of the timeline needs. -/
def findOrphans
    (backups : List Backup)
    (segments : List WalSegment)
    (databaseID : Uuid) : List WalSegment :=
  (segments.filter fun segment =>
    segment.databaseID = databaseID &&
      !hasCompletedFullBackupCoveringWal backups
        segment.databaseID segment.timelineID
        segment.endLSN).insertionSort segmentStartsNoLater

/- What a query finds is in the table and in the span. -/
theorem mem_of_mem_findContained
    {segments : List WalSegment}
    {query : ContainedWalQuery}
    {segment : WalSegment}
    (hFound : segment ∈ findContained segments query) :
    segment ∈ segments ∧
      query.isContained segment = true := by
  have hSorted := List.mem_of_mem_take hFound
  rw [List.mem_insertionSort] at hSorted
  exact List.mem_filter.mp hSorted

/- The order of `start_lsn DESC` of segments. -/
def segmentStartsNoEarlier
    (first second : WalSegment) : Prop :=
  second.startLSN ≤ first.startLSN

instance instDecidableSegmentStartsNoEarlier :
    DecidableRel segmentStartsNoEarlier :=
  fun _ _ => inferInstanceAs (Decidable (_ ≤ _))

/- A durable segment of the key's timeline, below the key. -/
def isCommittedBefore
    (key : ChainKey)
    (segment : WalSegment) : Bool :=
  segment.databaseID = key.databaseID &&
    segment.timelineID = key.timelineID &&
      segment.startLSN < key.startLSN &&
        segment.fileName.isSome

/- The end of the last durable segment below the key. -/
def findLatestCommittedBefore
    (segments : List WalSegment)
    (key : ChainKey) : Option LSN :=
  (Foundation.Table.firstBy segmentStartsNoEarlier
    (isCommittedBefore key) segments).map WalSegment.endLSN

/- The order of `timeline_id DESC, start_lsn DESC`. -/
def walOrderNoEarlier
    (first second : WalSegment) : Prop :=
  second.timelineID < first.timelineID ∨
    second.timelineID = first.timelineID ∧
      second.startLSN ≤ first.startLSN

instance instDecidableWalOrderNoEarlier :
    DecidableRel walOrderNoEarlier :=
  fun _ _ => inferInstanceAs (Decidable (_ ∨ _))

/- The last durable segment of the newest timeline. -/
def findLatestCommittedSegment
    (segments : List WalSegment)
    (databaseID : Uuid) : Option WalSegment :=
  Foundation.Table.firstBy walOrderNoEarlier
    (fun segment =>
      segment.databaseID = databaseID &&
        segment.fileName.isSome)
    segments

------------------------------------------------------------
-- History Files
------------------------------------------------------------

/- A row of `backups_physical_wal_history_files`. -/
structure WalHistoryFile where
  id : Uuid
  databaseID : Uuid
  storageID : Uuid
  timelineID : Nat
  fileName : String
  historyFilename : String
  compressedSizeMb : Rat := 0
  createdAt : Time
deriving DecidableEq

def findAllByDatabaseTimeline
    (historyFiles : List WalHistoryFile)
    (databaseID : Uuid)
    (timelineID : Nat) : List WalHistoryFile :=
  historyFiles.filter fun file =>
    file.databaseID = databaseID &&
      file.timelineID = timelineID

end Catalog

end Databasus
