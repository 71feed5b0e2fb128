import Databasus.WalStreaming.GapProbe

/-
  How far the archive is free of gaps, and the verdict that
  is read from it.

  The lowest queued segment is remembered when the queue has
  been listed.  The progress point is its start, unless the
  newest committed segment ends before it.

  Main declarations:
    * `WalPosition`
    * `getArchiveProgressPoint`
    * `getWalChainBrokenReason`
    * `sortQueuedWalSegments`
-/

------------------------------------------------------------
-- Positions of the Log
------------------------------------------------------------

namespace Databasus

namespace WalStreaming

open Catalog
open Walmath (LSN)

structure WalPosition where
  timelineID : Nat
  lsn : LSN
deriving DecidableEq, Repr

/- The timeline decides, and then the position. -/
def compareWalOrder
    (firstTimelineID : Nat)
    (firstLSN : LSN)
    (secondTimelineID : Nat)
    (secondLSN : LSN) : Ordering :=
  (compare firstTimelineID secondTimelineID).then
    (compare firstLSN secondLSN)

def walOrderNoLater
    (first second : QueuedWalSegment) : Prop :=
  compareWalOrder first.timelineID first.startLSN
      second.timelineID second.startLSN ≠
    .gt

instance instDecidableWalOrderNoLater :
    DecidableRel walOrderNoLater :=
  fun _ _ => inferInstanceAs (Decidable (_ ≠ _))

def sortQueuedWalSegments
    (queuedSegments : List QueuedWalSegment) :
    List QueuedWalSegment :=
  queuedSegments.insertionSort walOrderNoLater

/- What `setLowestQueuedSegment` remembers of a listing. -/
def lowestQueuedOf
    (sortedSegments : List QueuedWalSegment) :
    Option WalPosition :=
  sortedSegments.head?.map fun lowest =>
    { timelineID := lowest.timelineID
      lsn := lowest.startLSN }

/- The end of the newest segment that is committed. -/
def getLastCommittedWal
    (segments : List WalSegment)
    (databaseID : Uuid) : Option WalPosition :=
  (findLatestCommittedSegment segments databaseID).map
    fun segment =>
      { timelineID := segment.timelineID
        lsn := segment.endLSN }

/- The position keeps its timeline no longer. -/
def getArchiveProgressPoint
    (lowestQueuedStart newestCommittedEnd :
      Option WalPosition) : LSN :=
  match lowestQueuedStart, newestCommittedEnd with
  | none, none => 0
  | none, some newest => newest.lsn
  | some lowest, none => lowest.lsn
  | some lowest, some newest =>
      if
        compareWalOrder lowest.timelineID lowest.lsn
            newest.timelineID newest.lsn =
          .lt
      then
        lowest.lsn
      else
        newest.lsn

------------------------------------------------------------
-- Samples and the Verdict
------------------------------------------------------------

/- What the verdict on the chain reads of a sample. -/
structure WalStreamSample where
  archiveProgressLSN : Option LSN
deriving DecidableEq, Repr

/- A sample has no progress point before any segment. -/
def buildWalStreamSample
    (archiveProgressLSN : LSN) : WalStreamSample :=
  { archiveProgressLSN :=
      if 0 < archiveProgressLSN then
        some archiveProgressLSN
      else
        none }

inductive ReasonLevel
  | broken
  | needsAttention
  | info
deriving DecidableEq, Repr

inductive ReasonCode
  | walChainBroken
deriving DecidableEq, Repr

structure Reason where
  code : ReasonCode
  level : ReasonLevel
deriving DecidableEq, Repr

/- A gap counts once the progress point has passed it. -/
def getWalChainBrokenReason
    (newestSample : Option WalStreamSample)
    (restoreBlockingGaps : List LSNRange) :
    Option Reason :=
  match
    newestSample.bind WalStreamSample.archiveProgressLSN
  with
  | none => none
  | some archiveProgressLSN =>
      if
        restoreBlockingGaps.any fun gap =>
          gap.endLSN ≤ archiveProgressLSN
      then
        some { code := .walChainBroken, level := .broken }
      else
        none

------------------------------------------------------------
-- The Order of the Log
------------------------------------------------------------

variable {firstTimelineID secondTimelineID : Nat}
variable {firstLSN secondLSN : Nat}
variable {queuedSegments : List QueuedWalSegment}

theorem compareWalOrder_lt_iff :
    compareWalOrder firstTimelineID firstLSN
          secondTimelineID secondLSN =
        .lt ↔
      firstTimelineID < secondTimelineID ∨
        firstTimelineID = secondTimelineID ∧
          firstLSN < secondLSN := by
  unfold compareWalOrder
  rw [Ordering.then_eq_lt]
  simp only [Nat.compare_eq_lt, Nat.compare_eq_eq]

theorem compareWalOrder_ne_gt_iff :
    compareWalOrder firstTimelineID firstLSN
          secondTimelineID secondLSN ≠
        .gt ↔
      firstTimelineID < secondTimelineID ∨
        firstTimelineID = secondTimelineID ∧
          firstLSN ≤ secondLSN := by
  unfold compareWalOrder
  rw [ne_eq, Ordering.then_eq_gt]
  simp only [Nat.compare_eq_gt, Nat.compare_eq_eq]
  omega

theorem walOrderNoLater_iff
    {first second : QueuedWalSegment} :
    walOrderNoLater first second ↔
      first.timelineID < second.timelineID ∨
        first.timelineID = second.timelineID ∧
          first.startLSN ≤ second.startLSN :=
  compareWalOrder_ne_gt_iff

instance instTotalWalOrderNoLater :
    Std.Total walOrderNoLater := by
  refine ⟨fun first second => ?_⟩
  rw [walOrderNoLater_iff, walOrderNoLater_iff]
  rcases
      Nat.lt_trichotomy first.timelineID
        second.timelineID with
    hBefore | hSame | hAfter
  · exact Or.inl (Or.inl hBefore)
  · rcases
        Nat.le_total first.startLSN second.startLSN with
      hBelow | hAbove
    · exact Or.inl (Or.inr ⟨hSame, hBelow⟩)
    · exact Or.inr (Or.inr ⟨hSame.symm, hAbove⟩)
  · exact Or.inr (Or.inl hAfter)

instance instTransWalOrderNoLater :
    IsTrans QueuedWalSegment walOrderNoLater := by
  refine ⟨fun first second third => ?_⟩
  rw [walOrderNoLater_iff, walOrderNoLater_iff,
    walOrderNoLater_iff]
  rintro (hBefore | ⟨hSame, hBelow⟩)
    (hNext | ⟨hNextSame, hNextBelow⟩)
  · exact Or.inl (hBefore.trans hNext)
  · exact Or.inl (hNextSame ▸ hBefore)
  · exact Or.inl (hSame ▸ hNext)
  · exact
      Or.inr
        ⟨hSame.trans hNextSame, hBelow.trans hNextBelow⟩

/- The remembered position is a listed segment's. -/
theorem mem_of_lowestQueuedOf
    {lowest : WalPosition}
    (hLowest :
      lowestQueuedOf
          (sortQueuedWalSegments queuedSegments) =
        some lowest) :
    ∃ queued ∈ queuedSegments,
      queued.timelineID = lowest.timelineID ∧
        queued.startLSN = lowest.lsn := by
  unfold lowestQueuedOf sortQueuedWalSegments at hLowest
  rcases Option.map_eq_some_iff.mp hLowest with
    ⟨queued, hHead, rfl⟩
  have hSorted := List.mem_of_head? hHead
  rw [List.mem_insertionSort] at hSorted
  exact ⟨queued, hSorted, rfl, rfl⟩

/- No listed segment comes before the remembered one. -/
theorem lowestQueuedOf_le
    {queued : QueuedWalSegment}
    (hQueued : queued ∈ queuedSegments) :
    ∃ lowest,
      lowestQueuedOf
          (sortQueuedWalSegments queuedSegments) =
        some lowest ∧
      (lowest.timelineID < queued.timelineID ∨
        lowest.timelineID = queued.timelineID ∧
          lowest.lsn ≤ queued.startLSN) := by
  have hSorted :
      queued ∈ sortQueuedWalSegments queuedSegments :=
    (List.mem_insertionSort walOrderNoLater).mpr hQueued
  have hOrder :=
    List.pairwise_insertionSort walOrderNoLater
      queuedSegments
  unfold sortQueuedWalSegments at hSorted ⊢
  cases hList :
      queuedSegments.insertionSort walOrderNoLater with
  | nil =>
      rw [hList] at hSorted
      cases hSorted
  | cons first rest =>
      rw [hList] at hSorted hOrder
      refine ⟨⟨first.timelineID, first.startLSN⟩, rfl, ?_⟩
      rcases List.mem_cons.mp hSorted with rfl | hRest
      · exact Or.inr ⟨rfl, Nat.le_refl _⟩
      · exact
          walOrderNoLater_iff.mp
            (List.rel_of_pairwise_cons hOrder hRest)

end WalStreaming

end Databasus
