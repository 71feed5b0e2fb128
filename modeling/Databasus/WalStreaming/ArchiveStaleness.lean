import Databasus.Chains.RestoreSet
import Databasus.Foundation.Stalls
import Databasus.WalStreaming.ArchiveProgress

/-
  The alert that the archive fell behind the source.

  The tracker compares a sample with what it kept of those
  before it.  It starts a clock when the source writes and the
  archive does not progress, and reports once when the clock
  has run for the threshold.

  Main declarations:
    * `WalArchiveSample`
    * `recordSampleAndDetectStaleness`
    * `isReportedAt`
    * `Tracks`
    * `isReportedAt_iff_due`
-/

------------------------------------------------------------
-- The Tracker
------------------------------------------------------------

namespace Databasus

namespace WalStreaming

open Chains (zeroTime)
open Walmath (LSN)

/- A clock reads no time as early as the zero value. -/
structure WalArchiveSample where
  sourceCurrentLSN : LSN
  archiveProgressPoint : LSN
  observedAt : Time
  stalenessThreshold : Duration
  isClockTime : zeroTime < observedAt
deriving DecidableEq, Repr

structure WalArchiveStalenessTracker where
  previousSourceCurrentLSN : LSN
  archiveProgressPoint : LSN
  hasSample : Bool
  fallingBehindSince : Time
  isStaleReported : Bool
deriving DecidableEq, Repr

namespace WalArchiveStalenessTracker

/- A tracker that has seen no sample. -/
def empty : WalArchiveStalenessTracker :=
  { previousSourceCurrentLSN := 0
    archiveProgressPoint := 0
    hasSample := false
    fallingBehindSince := zeroTime
    isStaleReported := false }

end WalArchiveStalenessTracker

/- The tracker after the sample, and whether it reports. -/
def recordSampleAndDetectStaleness
    (t : WalArchiveStalenessTracker)
    (sample : WalArchiveSample) :
    WalArchiveStalenessTracker × Bool :=
  if sample.stalenessThreshold ≤ 0 then
    (.empty, false)
  else
    let isSourceWriting :=
      t.hasSample ∧
        t.previousSourceCurrentLSN < sample.sourceCurrentLSN
    let isArchiveProgressing :=
      t.archiveProgressPoint < sample.archiveProgressPoint
    let seen : WalArchiveStalenessTracker :=
      { t with
        previousSourceCurrentLSN := sample.sourceCurrentLSN
        archiveProgressPoint :=
          max t.archiveProgressPoint
            sample.archiveProgressPoint
        hasSample := true }
    if isArchiveProgressing then
      ({ seen with
          fallingBehindSince := zeroTime
          isStaleReported := false },
        false)
    else if seen.fallingBehindSince = zeroTime then
      if isSourceWriting then
        ({ seen with
            fallingBehindSince := sample.observedAt },
          false)
      else
        (seen, false)
    -- `Sub` stops at the greatest duration, below no threshold
    else if
      seen.isStaleReported ∨
        sample.observedAt - seen.fallingBehindSince <
          sample.stalenessThreshold
    then
      (seen, false)
    else
      ({ seen with isStaleReported := true }, true)

/- The tracker before the sample of the given number. -/
def trackerBefore
    (samples : Nat → WalArchiveSample) :
    Nat → WalArchiveStalenessTracker
  | 0 => .empty
  | n + 1 =>
      (recordSampleAndDetectStaleness
          (trackerBefore samples n) (samples n)).1

def isReportedAt
    (samples : Nat → WalArchiveSample)
    (n : Nat) : Bool :=
  (recordSampleAndDetectStaleness
      (trackerBefore samples n) (samples n)).2

------------------------------------------------------------
-- What One Sample Does
------------------------------------------------------------

variable (t : WalArchiveStalenessTracker)
variable {sample : WalArchiveSample}

/- The sample is kept whatever else it does. -/
theorem recordSample_keeps
    (hThreshold : 0 < sample.stalenessThreshold) :
    (recordSampleAndDetectStaleness t sample).1.hasSample ∧
      (recordSampleAndDetectStaleness
            t sample).1.previousSourceCurrentLSN =
        sample.sourceCurrentLSN ∧
      (recordSampleAndDetectStaleness
            t sample).1.archiveProgressPoint =
        max t.archiveProgressPoint
          sample.archiveProgressPoint := by
  unfold recordSampleAndDetectStaleness
  rw [if_neg (Int.not_le.mpr hThreshold)]
  simp only
  split_ifs <;> exact ⟨rfl, rfl, rfl⟩

/- A sample that raises the archive ends the stall. -/
theorem recordSample_raise
    (hThreshold : 0 < sample.stalenessThreshold)
    (hRaise :
      t.archiveProgressPoint < sample.archiveProgressPoint) :
    (recordSampleAndDetectStaleness
            t sample).1.fallingBehindSince =
        zeroTime ∧
      (recordSampleAndDetectStaleness
            t sample).1.isStaleReported =
        false ∧
      (recordSampleAndDetectStaleness t sample).2 =
        false := by
  unfold recordSampleAndDetectStaleness
  rw [if_neg (Int.not_le.mpr hThreshold), if_pos hRaise]
  exact ⟨rfl, rfl, rfl⟩

/- Outside a stall only a write starts the clock. -/
theorem recordSample_idle
    (hThreshold : 0 < sample.stalenessThreshold)
    (hNoRaise :
      ¬ t.archiveProgressPoint < sample.archiveProgressPoint)
    (hIdle : t.fallingBehindSince = zeroTime) :
    (recordSampleAndDetectStaleness
            t sample).1.fallingBehindSince =
        (if
          t.hasSample ∧
            t.previousSourceCurrentLSN <
              sample.sourceCurrentLSN
        then
          sample.observedAt
        else
          zeroTime) ∧
      (recordSampleAndDetectStaleness
            t sample).1.isStaleReported =
        t.isStaleReported ∧
      (recordSampleAndDetectStaleness t sample).2 =
        false := by
  unfold recordSampleAndDetectStaleness
  rw [if_neg (Int.not_le.mpr hThreshold), if_neg hNoRaise]
  simp only
  rw [if_pos hIdle]
  split_ifs
  · exact ⟨rfl, rfl, rfl⟩
  · exact ⟨hIdle, rfl, rfl⟩

/- In a stall the clock runs on, and may have run out. -/
theorem recordSample_stalled
    (hThreshold : 0 < sample.stalenessThreshold)
    (hNoRaise :
      ¬ t.archiveProgressPoint < sample.archiveProgressPoint)
    (hStalled : t.fallingBehindSince ≠ zeroTime) :
    (recordSampleAndDetectStaleness
            t sample).1.fallingBehindSince =
        t.fallingBehindSince ∧
      ((recordSampleAndDetectStaleness
            t sample).1.isStaleReported ↔
        t.isStaleReported ∨
          (recordSampleAndDetectStaleness t sample).2) ∧
      ((recordSampleAndDetectStaleness t sample).2 ↔
        ¬ t.isStaleReported ∧
          sample.stalenessThreshold ≤
            sample.observedAt - t.fallingBehindSince) := by
  unfold recordSampleAndDetectStaleness
  rw [if_neg (Int.not_le.mpr hThreshold), if_neg hNoRaise]
  simp only
  rw [if_neg hStalled, ← Int.not_lt]
  split_ifs with hSilent
  · refine ⟨rfl, ?_, ?_⟩
    · simp only [or_false]
    · rw [← not_or]
      simp only [hSilent, not_true]
  · refine ⟨rfl, ?_, ?_⟩
    · simp only [or_true]
    · rw [← not_or]
      simp only [hSilent, not_false_iff]

------------------------------------------------------------
-- What the Tracker Knows
------------------------------------------------------------

open Foundation

variable (samples : Nat → WalArchiveSample)

def sourceAt
    (n : Nat) : LSN :=
  (samples n).sourceCurrentLSN

def archiveAt
    (n : Nat) : LSN :=
  (samples n).archiveProgressPoint

def observedAt
    (n : Nat) : Time :=
  (samples n).observedAt

/- The tracker has seen the samples up to the given one. -/
structure Tracks
    (n : Nat)
    (t : WalArchiveStalenessTracker) : Prop where
  sampled : t.hasSample = true
  previous : t.previousSourceCurrentLSN = sourceAt samples n
  progress :
    t.archiveProgressPoint =
      Stalls.highest (archiveAt samples) n
  since :
    ∀ start,
      Stalls.BeganAt (sourceAt samples) (archiveAt samples)
          n start →
        t.fallingBehindSince = observedAt samples start
  idle :
    (∀ start,
        ¬ Stalls.BeganAt (sourceAt samples)
            (archiveAt samples) n start) →
      t.fallingBehindSince = zeroTime
  silent :
    (∀ start,
        ¬ Stalls.BeganAt (sourceAt samples)
            (archiveAt samples) n start) →
      t.isStaleReported = false
  reported :
    ∀ start,
      Stalls.BeganAt (sourceAt samples) (archiveAt samples)
          n start →
        (t.isStaleReported = true ↔
          ∃ k,
            start < k ∧ k ≤ n ∧ isReportedAt samples k = true)

------------------------------------------------------------
-- The Tracker Over a Run
------------------------------------------------------------

variable {samples}
variable {threshold : Duration}
variable {n : Nat}
variable {t}

theorem Tracks.raises_iff
    (hTracks : Tracks samples n t) :
    Stalls.Raises (archiveAt samples) (n + 1) ↔
      t.archiveProgressPoint <
        (samples (n + 1)).archiveProgressPoint := by
  rw [Stalls.raises_succ_iff, hTracks.progress]
  rfl

theorem Tracks.writes_iff
    (hTracks : Tracks samples n t) :
    Stalls.Writes (sourceAt samples) (n + 1) ↔
      t.hasSample ∧
        t.previousSourceCurrentLSN <
          (samples (n + 1)).sourceCurrentLSN := by
  rw [hTracks.previous]
  exact (and_iff_right hTracks.sampled).symm

/- The clock runs exactly in a stall. -/
theorem Tracks.exists_began_iff
    (hTracks : Tracks samples n t) :
    (∃ start,
        Stalls.BeganAt (sourceAt samples) (archiveAt samples)
          n start) ↔
      t.fallingBehindSince ≠ zeroTime := by
  constructor
  · rintro ⟨start, hBegan⟩
    rw [hTracks.since start hBegan]
    exact (samples start).isClockTime.ne'
  · intro hStalled
    by_contra hNone
    exact hStalled (hTracks.idle (not_exists.mp hNone))

/- What the first sample leaves. -/
theorem tracks_first
    (hThreshold : 0 < (samples 0).stalenessThreshold) :
    Tracks samples 0
      (recordSampleAndDetectStaleness .empty
        (samples 0)).1 := by
  rcases recordSample_keeps .empty hThreshold with
    ⟨hSampled, hPrevious, hProgress⟩
  have hNone :
      ∀ start,
        ¬ Stalls.BeganAt (sourceAt samples)
            (archiveAt samples) 0 start :=
    fun _ => Stalls.not_beganAt_zero
  have hQuiet :
      (recordSampleAndDetectStaleness .empty
              (samples 0)).1.fallingBehindSince =
          zeroTime ∧
        (recordSampleAndDetectStaleness .empty
              (samples 0)).1.isStaleReported =
          false := by
    by_cases hRaise : 0 < (samples 0).archiveProgressPoint
    · rcases recordSample_raise .empty hThreshold hRaise with
        ⟨hSince, hReported, _⟩
      exact ⟨hSince, hReported⟩
    · rcases
        recordSample_idle .empty hThreshold hRaise rfl with
        ⟨hSince, hReported, _⟩
      refine ⟨hSince.trans (if_neg ?_), hReported⟩
      rintro ⟨hHasSample, _⟩
      exact Bool.false_ne_true hHasSample
  exact
    { sampled := hSampled
      previous := hPrevious
      progress := hProgress.trans (Nat.zero_max _)
      since := fun start hBegan => absurd hBegan (hNone start)
      idle := fun _ => hQuiet.1
      silent := fun _ => hQuiet.2
      reported := fun start hBegan =>
        absurd hBegan (hNone start) }

/- A sample that raises the archive. -/
theorem Tracks.step_raise
    (hThreshold : 0 < (samples (n + 1)).stalenessThreshold)
    (hTracks : Tracks samples n t)
    (hRaise : Stalls.Raises (archiveAt samples) (n + 1)) :
    Tracks samples (n + 1)
      (recordSampleAndDetectStaleness t
        (samples (n + 1))).1 := by
  rcases recordSample_keeps t hThreshold with
    ⟨hSampled, hPrevious, hProgress⟩
  rw [hTracks.progress] at hProgress
  rcases
    recordSample_raise t hThreshold
      (hTracks.raises_iff.mp hRaise) with
    ⟨hSince, hSilent, _⟩
  have hNone :
      ∀ start,
        ¬ Stalls.BeganAt (sourceAt samples)
            (archiveAt samples) (n + 1) start :=
    fun _ => Stalls.not_beganAt_of_raises hRaise
  exact
    { sampled := hSampled
      previous := hPrevious
      progress := hProgress
      since := fun start hBegan => absurd hBegan (hNone start)
      idle := fun _ => hSince
      silent := fun _ => hSilent
      reported := fun start hBegan =>
        absurd hBegan (hNone start) }

/- A sample outside a stall, which may begin one. -/
theorem Tracks.step_idle
    (hThreshold : 0 < (samples (n + 1)).stalenessThreshold)
    (hTracks : Tracks samples n t)
    (hNoRaise : ¬ Stalls.Raises (archiveAt samples) (n + 1))
    (hNone :
      ∀ start,
        ¬ Stalls.BeganAt (sourceAt samples)
            (archiveAt samples) n start) :
    Tracks samples (n + 1)
      (recordSampleAndDetectStaleness t
        (samples (n + 1))).1 := by
  rcases recordSample_keeps t hThreshold with
    ⟨hSampled, hPrevious, hProgress⟩
  rw [hTracks.progress] at hProgress
  rcases
    recordSample_idle t hThreshold
      (mt hTracks.raises_iff.mpr hNoRaise)
      (hTracks.idle hNone) with
    ⟨hSince, hReported, _⟩
  rw [hTracks.silent hNone] at hReported
  have hBeganIff :
      ∀ start,
        Stalls.BeganAt (sourceAt samples)
            (archiveAt samples) (n + 1) start ↔
          start = n + 1 ∧
            Stalls.Writes (sourceAt samples) (n + 1) := by
    intro start
    rw [Stalls.beganAt_succ_iff hNoRaise]
    simp only [hNone, false_or, not_false_iff, implies_true,
      true_and]
  refine
    { sampled := hSampled
      previous := hPrevious
      progress := hProgress
      since := ?_
      idle := ?_
      silent := fun _ => hReported
      reported := ?_ }
  · intro start hBegan
    rcases (hBeganIff start).mp hBegan with ⟨rfl, hWrites⟩
    rw [hSince, if_pos (hTracks.writes_iff.mp hWrites)]
    rfl
  · intro hStillNone
    rw [hSince, if_neg]
    intro hWriting
    apply hStillNone (n + 1)
    rw [hBeganIff, hTracks.writes_iff]
    exact ⟨rfl, hWriting⟩
  · intro start hBegan
    rcases (hBeganIff start).mp hBegan with ⟨rfl, _⟩
    rw [hReported]
    constructor
    · intro hFalse
      exact absurd hFalse Bool.false_ne_true
    · rintro ⟨k, hFrom, hTo, _⟩
      exact absurd hFrom (Nat.not_lt_of_ge hTo)

/- A sample in a stall, which may be reported there. -/
theorem Tracks.step_stalled
    {n start : Nat}
    (hThreshold : 0 < (samples (n + 1)).stalenessThreshold)
    (hTracks :
      Tracks samples n (trackerBefore samples (n + 1)))
    (hNoRaise : ¬ Stalls.Raises (archiveAt samples) (n + 1))
    (hBegan :
      Stalls.BeganAt (sourceAt samples) (archiveAt samples)
        n start) :
    Tracks samples (n + 1)
      (trackerBefore samples (n + 2)) := by
  rcases
    recordSample_keeps (trackerBefore samples (n + 1))
      hThreshold with
    ⟨hSampled, hPrevious, hProgress⟩
  rw [hTracks.progress] at hProgress
  rcases
    recordSample_stalled _ hThreshold
      (mt hTracks.raises_iff.mpr hNoRaise)
      (hTracks.exists_began_iff.mp ⟨start, hBegan⟩) with
    ⟨hSince, hReported, _⟩
  have hBeganIff :
      ∀ other,
        Stalls.BeganAt (sourceAt samples)
            (archiveAt samples) (n + 1) other ↔
          other = start := by
    intro other
    rw [Stalls.beganAt_succ_iff hNoRaise]
    constructor
    · rintro (hOther | ⟨hNone, _⟩)
      · exact hOther.unique hBegan
      · exact absurd hBegan (hNone start)
    · rintro rfl
      exact Or.inl hBegan
  refine
    { sampled := hSampled
      previous := hPrevious
      progress := hProgress
      since := ?_
      idle := fun hNone =>
        absurd ((hBeganIff start).mpr rfl) (hNone start)
      silent := fun hNone =>
        absurd ((hBeganIff start).mpr rfl) (hNone start)
      reported := ?_ }
  · intro other hOther
    rcases (hBeganIff other).mp hOther with rfl
    exact hSince.trans (hTracks.since other hBegan)
  · intro other hOther
    rcases (hBeganIff other).mp hOther with rfl
    refine hReported.trans ?_
    rw [hTracks.reported other hBegan]
    constructor
    · rintro (⟨k, hFrom, hTo, hMade⟩ | hMade)
      · exact ⟨k, hFrom, Nat.le_succ_of_le hTo, hMade⟩
      · exact
          ⟨n + 1, Nat.lt_succ_of_le hBegan.1.1,
            Nat.le_refl _, hMade⟩
    · rintro ⟨k, hFrom, hTo, hMade⟩
      rcases Nat.le_succ_iff.mp hTo with hEarlier | rfl
      · exact Or.inl ⟨k, hFrom, hEarlier, hMade⟩
      · exact Or.inr hMade

/- The tracker has always seen the samples before. -/
theorem tracks_trackerBefore
    (hThreshold :
      ∀ n, 0 < (samples n).stalenessThreshold)
    (n : Nat) :
    Tracks samples n (trackerBefore samples (n + 1)) := by
  induction n with
  | zero => exact tracks_first (hThreshold 0)
  | succ n ih =>
      by_cases hRaise :
          Stalls.Raises (archiveAt samples) (n + 1)
      · exact ih.step_raise (hThreshold (n + 1)) hRaise
      · by_cases hStalled :
            ∃ start,
              Stalls.BeganAt (sourceAt samples)
                (archiveAt samples) n start
        · rcases hStalled with ⟨start, hBegan⟩
          exact
            ih.step_stalled (hThreshold (n + 1)) hRaise hBegan
        · exact
            ih.step_idle (hThreshold (n + 1)) hRaise
              (not_exists.mp hStalled)

/- A sample that raises the archive is not reported. -/
theorem Tracks.not_isReportedAt_of_raises
    (hThreshold : 0 < (samples (n + 1)).stalenessThreshold)
    (hTracks :
      Tracks samples n (trackerBefore samples (n + 1)))
    (hRaise : Stalls.Raises (archiveAt samples) (n + 1)) :
    isReportedAt samples (n + 1) = false :=
  (recordSample_raise _ hThreshold
    (hTracks.raises_iff.mp hRaise)).2.2

/- Nor is one that no stall came before. -/
theorem Tracks.not_isReportedAt_of_idle
    (hThreshold : 0 < (samples (n + 1)).stalenessThreshold)
    (hTracks :
      Tracks samples n (trackerBefore samples (n + 1)))
    (hNoRaise : ¬ Stalls.Raises (archiveAt samples) (n + 1))
    (hNone :
      ∀ start,
        ¬ Stalls.BeganAt (sourceAt samples)
            (archiveAt samples) n start) :
    isReportedAt samples (n + 1) = false :=
  (recordSample_idle _ hThreshold
    (mt hTracks.raises_iff.mpr hNoRaise)
    (hTracks.idle hNone)).2.2

/- In a stall the clock and the earlier reports decide. -/
theorem Tracks.isReportedAt_iff
    {n start : Nat}
    (hThreshold : 0 < (samples (n + 1)).stalenessThreshold)
    (hTracks :
      Tracks samples n (trackerBefore samples (n + 1)))
    (hNoRaise : ¬ Stalls.Raises (archiveAt samples) (n + 1))
    (hBegan :
      Stalls.BeganAt (sourceAt samples) (archiveAt samples)
        n start) :
    isReportedAt samples (n + 1) = true ↔
      (samples (n + 1)).stalenessThreshold ≤
          observedAt samples (n + 1) -
            observedAt samples start ∧
        ∀ k, start < k → k < n + 1 →
          ¬ isReportedAt samples k = true := by
  have hReport :
      isReportedAt samples (n + 1) = true ↔
        ¬ (trackerBefore samples
              (n + 1)).isStaleReported = true ∧
          (samples (n + 1)).stalenessThreshold ≤
            (samples (n + 1)).observedAt -
              (trackerBefore samples
                (n + 1)).fallingBehindSince :=
    (recordSample_stalled _ hThreshold
      (mt hTracks.raises_iff.mpr hNoRaise)
      (hTracks.exists_began_iff.mp ⟨start, hBegan⟩)).2.2
  rw [hReport, hTracks.reported start hBegan,
    hTracks.since start hBegan, and_comm]
  apply and_congr Iff.rfl
  constructor
  · intro hNone k hFrom hTo hMade
    exact hNone ⟨k, hFrom, Nat.le_of_lt_succ hTo, hMade⟩
  · rintro hNone ⟨k, hFrom, hTo, hMade⟩
    exact hNone k hFrom (Nat.lt_succ_of_le hTo) hMade

/- The first sample has no stall to report. -/
theorem not_isReportedAt_zero
    (hThreshold : 0 < (samples 0).stalenessThreshold) :
    isReportedAt samples 0 = false := by
  by_cases hRaise :
      WalArchiveStalenessTracker.empty.archiveProgressPoint <
        (samples 0).archiveProgressPoint
  · exact (recordSample_raise .empty hThreshold hRaise).2.2
  · exact (recordSample_idle .empty hThreshold hRaise rfl).2.2

/- A report is made when one is due. -/
theorem isReportedAt_iff_due
    (hPositive : 0 < threshold)
    (hThreshold :
      ∀ n, (samples n).stalenessThreshold = threshold)
    (n : Nat) :
    isReportedAt samples n = true ↔
      Stalls.IsDue (sourceAt samples) (archiveAt samples)
        (observedAt samples) threshold
        (fun k => isReportedAt samples k = true) n := by
  have hEach : ∀ k, 0 < (samples k).stalenessThreshold := by
    intro k
    rw [hThreshold]
    exact hPositive
  cases n with
  | zero =>
      rw [not_isReportedAt_zero (hEach 0)]
      apply iff_of_false Bool.false_ne_true
      exact Stalls.not_isDue fun _ _ => Stalls.not_beganAt_zero
  | succ n =>
      have hTracks := tracks_trackerBefore hEach n
      by_cases hRaise :
          Stalls.Raises (archiveAt samples) (n + 1)
      · rw [hTracks.not_isReportedAt_of_raises
          (hEach (n + 1)) hRaise]
        apply iff_of_false Bool.false_ne_true
        exact
          Stalls.not_isDue fun _ _ =>
            Stalls.not_beganAt_of_raises hRaise
      · by_cases hStalled :
            ∃ start,
              Stalls.BeganAt (sourceAt samples)
                (archiveAt samples) n start
        · rcases hStalled with ⟨start, hBegan⟩
          rw [hTracks.isReportedAt_iff (hEach (n + 1)) hRaise
              hBegan,
            hThreshold,
            Stalls.isDue_iff
              ((Stalls.beganAt_succ_iff hRaise start).mpr
                (Or.inl hBegan))
              (Nat.lt_succ_of_le hBegan.1.1)]
        · have hNone := not_exists.mp hStalled
          rw [hTracks.not_isReportedAt_of_idle
            (hEach (n + 1)) hRaise hNone]
          apply iff_of_false Bool.false_ne_true
          apply Stalls.not_isDue
          intro start hLess hBegan
          rcases
            (Stalls.beganAt_succ_iff hRaise start).mp
              hBegan with
            hOld | ⟨_, rfl, _⟩
          · exact hNone start hOld
          · exact Nat.lt_irrefl _ hLess

/-
  A stall that lasts for the threshold is reported, once, and
  nothing else is.
-/
theorem stalls_are_reported_once
    (samples : Nat → WalArchiveSample)
    (threshold : Duration)
    (hPositive : 0 < threshold)
    (hThreshold :
      ∀ n, (samples n).stalenessThreshold = threshold) :
    (∀ n,
        isReportedAt samples n = true ↔
          ∃ start,
            Stalls.BeganAt (sourceAt samples)
                (archiveAt samples) n start ∧
              start < n ∧
              threshold ≤
                (samples n).observedAt -
                  (samples start).observedAt ∧
              ∀ k, start < k → k < n →
                isReportedAt samples k = false) ∧
      (∀ n k start,
        isReportedAt samples n = true →
          isReportedAt samples k = true →
            Stalls.BeganAt (sourceAt samples)
                (archiveAt samples) n start →
              Stalls.BeganAt (sourceAt samples)
                  (archiveAt samples) k start →
                n = k) ∧
      ∀ n start,
        Stalls.BeganAt (sourceAt samples) (archiveAt samples)
            n start →
          start < n →
            threshold ≤
                (samples n).observedAt -
                  (samples start).observedAt →
              ∃ k,
                start < k ∧ k ≤ n ∧
                  isReportedAt samples k = true ∧
                  Stalls.BeganAt (sourceAt samples)
                    (archiveAt samples) k start := by
  have hDue := isReportedAt_iff_due hPositive hThreshold
  refine ⟨?_, ?_, ?_⟩
  · intro n
    rw [hDue]
    unfold Stalls.IsDue
    simp only [Bool.not_eq_true]
    rfl
  · intro n k start
    exact Stalls.eq_of_due fun i => (hDue i).mp
  · intro n start
    exact Stalls.exists_due fun i => (hDue i).mpr

/- A source that writes on while nothing is archived. -/
def stalledArchive
    (n : Nat) : WalArchiveSample :=
  { sourceCurrentLSN := n
    archiveProgressPoint := 0
    observedAt := n * Duration.minute
    stalenessThreshold := Duration.minute
    isClockTime := by
      change
        (-62135596800 * 1000000000 : Int) <
          n * (60 * 1000000000)
      omega }

theorem stalledArchive_reported_once :
    isReportedAt stalledArchive 2 = true ∧
      ∀ k,
        isReportedAt stalledArchive k = true →
          Stalls.BeganAt (sourceAt stalledArchive)
              (archiveAt stalledArchive) k 1 →
            2 = k := by
  have hReports :=
    stalls_are_reported_once stalledArchive Duration.minute
      (by decide) (fun _ => rfl)
  have hReported : isReportedAt stalledArchive 2 = true := by
    decide
  rcases (hReports.1 2).mp hReported with
    ⟨start, hBegan, hLess, _⟩
  have hStart : start = 1 := by
    have hWrites := hBegan.2.1
    cases start with
    | zero => exact absurd hWrites id
    | succ start =>
        exact Nat.le_antisymm (Nat.le_of_lt_succ hLess)
          (Nat.succ_le_succ (Nat.zero_le start))
  subst hStart
  exact
    ⟨hReported, fun k hMade hOther =>
      hReports.2.1 2 k 1 hReported hMade hBegan hOther⟩

end WalStreaming

end Databasus
