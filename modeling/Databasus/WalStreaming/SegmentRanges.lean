import Databasus.Walmath.CanonicalNames
import Databasus.WalStreaming.Upload

/-
  The positions that a segment file holds.

  Its bounds are the first position and the one after the
  last.  The bounds of the segments abut, log after log; the
  last segment of all ends past the 64-bit positions, and its
  end is zero.

  Main declarations:
    * `HoldsExactly`
    * `segmentBounds_of_name`
    * `holdsExactly_iff`
-/

------------------------------------------------------------
-- Bounds
------------------------------------------------------------

namespace Databasus

namespace WalStreaming

open Walmath

variable {name : String}
variable {size timelineID segmentNo : Nat}

/- The half-open range is that of the segment's positions. -/
def HoldsExactly
    (size segmentNo : Nat)
    (startLSN endLSN : LSN) : Prop :=
  ∀ lsn, lsn ≤ LSN.max →
    (newWalSegmentNo lsn size = segmentNo ↔
      startLSN ≤ lsn ∧ lsn < endLSN)

/- The product does not overflow, the sum may. -/
theorem segmentBounds_of_name
    (hRead :
      parseWALFilename name size =
        .ok (timelineID, segmentNo)) :
    segmentBounds name size =
      .ok
        (timelineID, segmentNo * size,
          (segmentNo * size + size) % 2 ^ 64) := by
  have hBound := (parseWALFilename_canonical hRead).2.1
  unfold segmentBounds
  rw [hRead]
  simp only
  rw [Nat.mod_eq_of_lt hBound]

theorem newWalSegmentNo_eq_iff
    (hSize : 0 < size)
    (lsn : Nat) :
    newWalSegmentNo lsn size = segmentNo ↔
      segmentNo * size ≤ lsn ∧
        lsn < segmentNo * size + size := by
  unfold newWalSegmentNo
  rw [← Nat.succ_mul, ← Nat.le_div_iff_mul_le hSize,
    ← Nat.div_lt_iff_lt_mul hSize]
  omega

/- Segments that start among the positions end there too. -/
theorem add_le_of_dvd
    {whole : Nat}
    (hWhole : size ∣ whole)
    (hBound : segmentNo * size < whole) :
    segmentNo * size + size ≤ whole := by
  rcases hWhole with ⟨count, rfl⟩
  rw [Nat.mul_comm size count, ← Nat.succ_mul] at *
  exact
    Nat.mul_le_mul_right size
      (Nat.lt_of_mul_lt_mul_right hBound)

/- The range is exact while the segment's end is a position. -/
theorem holdsExactly_iff
    (hSize : 0 < size)
    (hWhole : size ∣ 2 ^ 64)
    (hBound : segmentNo * size < 2 ^ 64) :
    HoldsExactly size segmentNo (segmentNo * size)
        ((segmentNo * size + size) % 2 ^ 64) ↔
      segmentNo * size + size < 2 ^ 64 := by
  constructor
  · intro hExact
    by_contra hLast
    -- the segments fill the positions, so this one is the last
    have hEnd : segmentNo * size + size = 2 ^ 64 :=
      Nat.le_antisymm (add_le_of_dvd hWhole hBound)
        (Nat.not_lt.mp hLast)
    have hFirst :=
      (hExact (segmentNo * size)
          (Nat.le_pred_of_lt hBound)).mp
        ((newWalSegmentNo_eq_iff hSize _).mpr
          ⟨Nat.le_refl _, Nat.lt_add_of_pos_right hSize⟩)
    rw [hEnd, Nat.mod_self] at hFirst
    exact Nat.not_lt_zero _ hFirst.2
  · intro hEnd lsn _
    rw [Nat.mod_eq_of_lt hEnd]
    exact newWalSegmentNo_eq_iff hSize lsn

/-
  Names and segments correspond, bounds abut, and the bounds
  of a segment hold its positions unless it is the last one.
-/
theorem segments_are_named_and_bounded
    (size : Nat)
    (hDivides : size ∣ 2 ^ 32) :
    (∀ timelineID segmentNo,
        timelineID < 2 ^ 32 →
          segmentNo * size < 2 ^ 64 →
            parseWALFilename
                (getFilename segmentNo timelineID size) size =
              .ok (timelineID, segmentNo)) ∧
      (∀ name timelineID segmentNo,
        parseWALFilename name size =
            .ok (timelineID, segmentNo) →
          upperCase name =
              upperCase
                (getFilename segmentNo timelineID size) ∧
            ∃ startLSN endLSN,
              segmentBounds name size =
                  .ok (timelineID, startLSN, endLSN) ∧
                (HoldsExactly size segmentNo startLSN endLSN ↔
                  segmentNo * size + size < 2 ^ 64)) ∧
      ∀ timelineID segmentNo,
        timelineID < 2 ^ 32 →
          (segmentNo + 1) * size < 2 ^ 64 →
            ∃ startLSN middleLSN endLSN,
              segmentBounds
                    (getFilename segmentNo timelineID size)
                    size =
                  .ok (timelineID, startLSN, middleLSN) ∧
                segmentBounds
                      (getFilename (segmentNo + 1) timelineID
                        size)
                      size =
                    .ok (timelineID, middleLSN, endLSN) ∧
                  middleLSN = startLSN + size := by
  have hSize : 0 < size :=
    Nat.pos_of_dvd_of_pos hDivides (by decide)
  have hWhole : size ∣ 2 ^ 64 :=
    hDivides.trans (by decide)
  refine ⟨?_, ?_, ?_⟩
  · intro timelineID segmentNo hTimeline hNumber
    exact
      parseWALFilename_getFilename hDivides hTimeline hNumber
  · intro name timelineID segmentNo hRead
    rcases parseWALFilename_canonical hRead with
      ⟨_, hBound, hName⟩
    exact
      ⟨hName, _, _, segmentBounds_of_name hRead,
        holdsExactly_iff hSize hWhole hBound⟩
  · intro timelineID segmentNo hTimeline hNext
    have hStart : segmentNo * size + size < 2 ^ 64 := by
      rw [← Nat.succ_mul]
      exact hNext
    have hNumber : segmentNo * size < 2 ^ 64 :=
      Nat.lt_of_le_of_lt (Nat.le_add_right _ _) hStart
    have hFirst :=
      segmentBounds_of_name
        (parseWALFilename_getFilename hDivides hTimeline
          hNumber)
    have hSecond :=
      segmentBounds_of_name
        (parseWALFilename_getFilename hDivides hTimeline hNext)
    rw [Nat.mod_eq_of_lt hStart] at hFirst
    rw [Nat.succ_mul] at hSecond
    exact ⟨_, _, _, hFirst, hSecond, rfl⟩

/- The last segment of a log of 16 MiB ones, and the next. -/
theorem segments_of_sixteen_mebibytes :
    parseWALFilename
          (getFilename 511 1 defaultSegmentSizeBytes)
          defaultSegmentSizeBytes =
        .ok (1, 511) ∧
      ∃ startLSN middleLSN endLSN,
        segmentBounds
              (getFilename 511 1 defaultSegmentSizeBytes)
              defaultSegmentSizeBytes =
            .ok (1, startLSN, middleLSN) ∧
          segmentBounds
                (getFilename 512 1 defaultSegmentSizeBytes)
                defaultSegmentSizeBytes =
              .ok (1, middleLSN, endLSN) ∧
            middleLSN = startLSN + defaultSegmentSizeBytes := by
  have hAll :=
    segments_are_named_and_bounded defaultSegmentSizeBytes
      (by decide)
  exact
    ⟨hAll.1 1 511 (by decide) (by decide),
      hAll.2.2 1 511 (by decide) (by decide)⟩

/- The last segment's range is empty, as its end is zero. -/
theorem last_segment_is_not_held :
    segmentBounds "00000001FFFFFFFF000000FF"
          defaultSegmentSizeBytes =
        .ok (1, 2 ^ 64 - 2 ^ 24, 0) ∧
      newWalSegmentNo LSN.max defaultSegmentSizeBytes =
          2 ^ 40 - 1 ∧
        parseWALFilename "00000001FFFFFFFF000000FF"
            defaultSegmentSizeBytes =
          .ok (1, 2 ^ 40 - 1) ∧
          ¬ HoldsExactly defaultSegmentSizeBytes (2 ^ 40 - 1)
              (2 ^ 64 - 2 ^ 24) 0 := by
  refine ⟨by decide +kernel, by decide, by decide +kernel, ?_⟩
  intro hExact
  have hLast :=
    (hExact LSN.max (Nat.le_refl _)).mp (by decide)
  exact Nat.not_lt_zero _ hLast.2

end WalStreaming

end Databasus
