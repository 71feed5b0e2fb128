import Databasus.Foundation.ConsecutivePairs
import Databasus.Foundation.Streaks
import Databasus.WalStreaming.SlotBreak

/-
  When a slot is rebuilt for its lag, over whole histories.

  The window keeps two running sums and the last sample.  The
  rule is about the samples themselves: over the pairs of
  neighbours in one run of the receiver, since the lag was
  last judged, how long it ran and how much the lag fell.  A
  sample of a slot that another consumer holds is no part of
  this.

  Main declarations:
    * `recordTick`, `recordTicks`
    * `openSamples`
    * `TracksLag`
    * `lag_rebuild_iff_unreduced`
-/

------------------------------------------------------------
-- Histories
------------------------------------------------------------

namespace Databasus

namespace WalStreaming

open Foundation

/- A look that finds no slot asks for nothing. -/
def recordTick
    (c : SlotBreakClassifier) :
    Option SlotBreakSample →
      SlotBreakClassifier × SlotBreakAction
  | none => (c, .none)
  | some sample => c.recordSampleAndClassifyBreak sample

def recordTicks
    (ticks : List (Option SlotBreakSample)) :
    SlotBreakClassifier :=
  ticks.foldl (fun c tick => (recordTick c tick).1) {}

/- Another consumer streams from the slot. -/
def SlotBreakSample.isForeign
    (sample : SlotBreakSample) : Bool :=
  sample.state.isActive &&
    !isOwnedReceiverBackend sample.state

/- The samples of which the status and the lag are looked at. -/
def ownSamples
    (ticks : List (Option SlotBreakSample)) :
    List SlotBreakSample :=
  ticks.filterMap fun tick =>
    tick.filter fun sample => !sample.isForeign

/- A lag above the threshold, which is switched on. -/
def SlotBreakSample.isAboveThreshold
    (sample : SlotBreakSample) : Bool :=
  0 < sample.walLagThresholdBytes &&
    sample.walLagThresholdBytes < sample.position.lagBytes

/- Above the threshold, with a status that is no warning. -/
def SlotBreakSample.isLagging
    (sample : SlotBreakSample) : Bool :=
  sample.isAboveThreshold &&
    !(sample.state.walStatus == "lost" ||
      SlotBreakClassifier.isWarningStatus
        sample.state.walStatus)

/- Both were taken while one run of the receiver lasted. -/
def isSameRun
    (first second : SlotBreakSample) : Bool :=
  first.receiverRunStartedAt.isSome &&
    first.receiverRunStartedAt == second.receiverRunStartedAt

def runningTime
    (samples : List SlotBreakSample) : Duration :=
  ConsecutivePairs.sumOver isSameRun
    (fun first second =>
      second.observedAt - first.observedAt) samples

def lagChange
    (samples : List SlotBreakSample) : Int :=
  ConsecutivePairs.sumOver isSameRun
    (fun first second =>
      second.position.lagBytes - first.position.lagBytes)
    samples

/- The receiver has run for as long as the hold. -/
def IsHeld
    (samples : List SlotBreakSample) : Prop :=
  warningSlotStatusHoldPeriod ≤ runningTime samples

/- The lag fell by less than the share of the threshold. -/
def IsUnreduced
    (samples : List SlotBreakSample)
    (thresholdBytes : Int) : Prop :=
  -lagChange samples <
    SlotLagWindow.minDrainBytes thresholdBytes

instance instDecidableIsHeld
    (samples : List SlotBreakSample) :
    Decidable (IsHeld samples) :=
  inferInstanceAs (Decidable (_ ≤ _))

instance instDecidableIsUnreduced
    (samples : List SlotBreakSample)
    (thresholdBytes : Int) :
    Decidable (IsUnreduced samples thresholdBytes) :=
  inferInstanceAs (Decidable (_ < _))

/-
  The samples that one more sample leaves open.  A lag that
  is judged and found falling opens the next stretch with the
  sample that showed it.
-/
def openAfter
    (samples : List SlotBreakSample)
    (sample : SlotBreakSample) : List SlotBreakSample :=
  if sample.isLagging = false then
    []
  else if ¬ IsHeld (samples ++ [sample]) then
    samples ++ [sample]
  else if
    IsUnreduced (samples ++ [sample])
      sample.walLagThresholdBytes
  then
    []
  else
    [sample]

/- The samples since the lag was last judged, or was none. -/
def openSamples
    (samples : List SlotBreakSample) :
    List SlotBreakSample :=
  samples.foldl openAfter []

theorem openSamples_concat
    (samples : List SlotBreakSample)
    (sample : SlotBreakSample) :
    openSamples (samples ++ [sample]) =
      openAfter (openSamples samples) sample :=
  List.foldl_concat openAfter [] sample samples

/- Since the last sample that was none, all lag. -/
theorem openSamples_suffix
    (samples : List SlotBreakSample) :
    openSamples samples <:+
      Streak.streak SlotBreakSample.isLagging samples := by
  induction samples using List.reverseRecOn with
  | nil => exact List.suffix_rfl
  | append_singleton samples sample ih =>
      rw [openSamples_concat]
      unfold openAfter
      split
      · exact List.nil_suffix
      · rename_i hLagging
        rw [Bool.not_eq_false] at hLagging
        rw [Streak.streak_concat hLagging]
        split
        · exact List.suffix_append_self_iff.mpr ih
        · split
          · exact List.nil_suffix
          · exact List.suffix_append _ _

------------------------------------------------------------
-- The Window of a Stretch
------------------------------------------------------------

variable {w : SlotLagWindow}
variable {samples : List SlotBreakSample}
variable {sample : SlotBreakSample}
variable {runStartedAt : Time}

/- What the window remembers of a running receiver's sample. -/
def SlotBreakSample.asPrevious
    (sample : SlotBreakSample) : Option PreviousLag :=
  sample.receiverRunStartedAt.map fun runStartedAt =>
    { runStartedAt := runStartedAt
      observedAt := sample.observedAt
      lagBytes := sample.position.lagBytes }

/- The window holds the sums of an open stretch. -/
structure TracksLag
    (w : SlotLagWindow)
    (samples : List SlotBreakSample) : Prop where
  time : w.runningTime = runningTime samples
  change : w.lagChangeBytes = lagChange samples
  previous :
    w.previous =
      samples.getLast?.bind SlotBreakSample.asPrevious
  waiting : ¬ IsHeld samples

theorem hold_positive :
    0 < warningSlotStatusHoldPeriod := by
  decide

theorem tracksLag_nil :
    TracksLag {} [] :=
  { time := rfl
    change := rfl
    previous := rfl
    waiting := not_le.mpr hold_positive }

theorem tracksLag_singleton
    (hRun : sample.receiverRunStartedAt = some runStartedAt) :
    TracksLag
      (SlotLagWindow.rememberPreviousSample {} sample
        runStartedAt)
      [sample] := by
  refine ⟨rfl, rfl, ?_, not_le.mpr hold_positive⟩
  simp [SlotLagWindow.rememberPreviousSample,
    SlotBreakSample.asPrevious, hRun]

/- A sample of a stopped receiver closes no pair. -/
theorem sums_of_stopped
    (samples : List SlotBreakSample)
    (hStopped : sample.receiverRunStartedAt = none) :
    runningTime (samples ++ [sample]) = runningTime samples ∧
      lagChange (samples ++ [sample]) = lagChange samples := by
  have hOther :
      ∀ last : SlotBreakSample,
        isSameRun last sample = false := by
    intro last
    unfold isSameRun
    cases hRun : last.receiverRunStartedAt with
    | none => rfl
    | some runStartedAt => simp [hStopped]
  unfold runningTime lagChange
  rw [ConsecutivePairs.sumOver_concat,
    ConsecutivePairs.sumOver_concat]
  cases samples.getLast? with
  | none => exact ⟨add_zero _, add_zero _⟩
  | some last => simp [hOther]

/- The window accumulates the pair that a sample closes. -/
theorem TracksLag.accumulate
    (hTracks : TracksLag w samples)
    (hRun : sample.receiverRunStartedAt = some runStartedAt) :
    (w.accumulate sample runStartedAt).runningTime =
        runningTime (samples ++ [sample]) ∧
      (w.accumulate sample runStartedAt).lagChangeBytes =
        lagChange (samples ++ [sample]) := by
  have hPrevious := hTracks.previous
  unfold SlotLagWindow.accumulate runningTime lagChange
  rw [ConsecutivePairs.sumOver_concat,
    ConsecutivePairs.sumOver_concat, hPrevious,
    ← WalStreaming.runningTime, ← WalStreaming.lagChange,
    ← hTracks.time, ← hTracks.change]
  cases samples.getLast? with
  | none => exact ⟨(add_zero _).symm, (add_zero _).symm⟩
  | some last =>
      cases hLast : last.receiverRunStartedAt with
      | none =>
          simp [SlotBreakSample.asPrevious, isSameRun, hLast]
      | some lastRunStartedAt =>
          by_cases hSame : lastRunStartedAt = runStartedAt
          · simp [SlotBreakSample.asPrevious, isSameRun,
              hLast, hRun, hSame]
          · simp [SlotBreakSample.asPrevious, isSameRun,
              hLast, hRun, hSame]

/- What the lag of a sample does to the window. -/
theorem TracksLag.record
    (hTracks : TracksLag w samples)
    (hStatus :
      sample.isLagging = sample.isAboveThreshold) :
    TracksLag (w.recordSampleAndDetectUnreducedLag sample).1
        (openAfter samples sample) ∧
      ((w.recordSampleAndDetectUnreducedLag sample).2 = true ↔
        sample.isLagging = true ∧
          IsHeld (samples ++ [sample]) ∧
            IsUnreduced (samples ++ [sample])
              sample.walLagThresholdBytes) := by
  unfold SlotLagWindow.recordSampleAndDetectUnreducedLag
    openAfter
  rw [hStatus]
  cases hAbove : sample.isAboveThreshold with
  | false =>
      have hBelow :
          sample.walLagThresholdBytes ≤ 0 ∨
            sample.position.lagBytes ≤
              sample.walLagThresholdBytes := by
        simpa [SlotBreakSample.isAboveThreshold,
          or_iff_not_imp_left] using hAbove
      rw [if_pos hBelow, if_pos rfl]
      exact ⟨tracksLag_nil, by simp⟩
  | true =>
      have hNotBelow :
          ¬ (sample.walLagThresholdBytes ≤ 0 ∨
            sample.position.lagBytes ≤
              sample.walLagThresholdBytes) := by
        simpa [SlotBreakSample.isAboveThreshold] using hAbove
      rw [if_neg hNotBelow, if_neg Bool.noConfusion]
      cases hRun : sample.receiverRunStartedAt with
      | none =>
          rcases sums_of_stopped samples hRun with
            ⟨hTime, hChange⟩
          have hWaiting : ¬ IsHeld (samples ++ [sample]) := by
            unfold IsHeld
            rw [hTime]
            exact hTracks.waiting
          rw [if_pos hWaiting]
          refine ⟨⟨?_, ?_, ?_, hWaiting⟩, ?_⟩
          · exact hTracks.time.trans hTime.symm
          · exact hTracks.change.trans hChange.symm
          · simp [SlotBreakSample.asPrevious, hRun]
          · simp [hWaiting]
      | some runStartedAt =>
          rcases hTracks.accumulate hRun with ⟨hTime, hChange⟩
          have hHeld :
              ¬ IsHeld (samples ++ [sample]) ↔
                (w.accumulate sample runStartedAt).runningTime <
                  warningSlotStatusHoldPeriod := by
            unfold IsHeld
            rw [hTime, not_le]
          have hUnreduced :
              IsUnreduced (samples ++ [sample])
                  sample.walLagThresholdBytes ↔
                -(w.accumulate sample runStartedAt).lagChangeBytes <
                  SlotLagWindow.minDrainBytes
                    sample.walLagThresholdBytes := by
            unfold IsUnreduced
            rw [hChange]
          dsimp only [SlotLagWindow.rememberPreviousSample]
          by_cases hShort :
              (w.accumulate sample runStartedAt).runningTime <
                warningSlotStatusHoldPeriod
          · have hWaiting := hHeld.mpr hShort
            rw [if_pos hShort, if_pos hWaiting]
            refine ⟨⟨hTime, hChange, ?_, hWaiting⟩, ?_⟩
            · simp [SlotBreakSample.asPrevious, hRun]
            · simp [hWaiting]
          · have hLong := not_not.mp (mt hHeld.mp hShort)
            rw [if_neg hShort, if_neg (not_not.mpr hLong)]
            by_cases hStill :
                IsUnreduced (samples ++ [sample])
                  sample.walLagThresholdBytes
            · rw [if_pos (hUnreduced.mp hStill), if_pos hStill]
              exact ⟨tracksLag_nil, by simp [hLong, hStill]⟩
            · rw [if_neg (mt hUnreduced.mpr hStill),
                if_neg hStill]
              exact ⟨tracksLag_singleton hRun, by simp [hStill]⟩

------------------------------------------------------------
-- The Rule over a History
------------------------------------------------------------

variable {c : SlotBreakClassifier}

/- The lag of a tick is unreduced after an open stretch. -/
def ShowsUnreducedLag
    (samples : List SlotBreakSample)
    (tick : Option SlotBreakSample) : Prop :=
  ∃ sample, tick = some sample ∧
    sample.isForeign = false ∧
    sample.isLagging = true ∧
    IsHeld (samples ++ [sample]) ∧
    IsUnreduced (samples ++ [sample])
      sample.walLagThresholdBytes

theorem showsUnreducedLag_some :
    ShowsUnreducedLag samples (some sample) ↔
      sample.isForeign = false ∧
        sample.isLagging = true ∧
          IsHeld (samples ++ [sample]) ∧
            IsUnreduced (samples ++ [sample])
              sample.walLagThresholdBytes := by
  simp [ShowsUnreducedLag]

theorem openAfter_of_not_lagging
    (hNone : sample.isLagging = false) :
    openAfter samples sample = [] := by
  unfold openAfter
  rw [if_pos hNone]

/- A sample of a slot that no other consumer holds. -/
theorem recordSample_spec
    (hTracks : TracksLag c.lagWindow samples)
    (hOwn : sample.isForeign = false) :
    TracksLag (c.recordSampleAndClassifyBreak sample).1.lagWindow
        (openAfter samples sample) ∧
      ((c.recordSampleAndClassifyBreak sample).2 =
          .rebuild .walLag ↔
        ShowsUnreducedLag samples (some sample)) := by
  rw [showsUnreducedLag_some]
  unfold SlotBreakClassifier.recordSampleAndClassifyBreak
  have hNotForeign :
      ¬ (sample.state.isActive &&
        !isOwnedReceiverBackend sample.state) = true := by
    intro hForeign
    rw [SlotBreakSample.isForeign, hForeign] at hOwn
    cases hOwn
  rw [if_neg hNotForeign]
  split
  · rename_i hLost
    have hNone : sample.isLagging = false := by
      simp [SlotBreakSample.isLagging, hLost]
    rw [openAfter_of_not_lagging hNone]
    exact ⟨tracksLag_nil, by simp [hNone]⟩
  · rename_i hKept
    split
    · rename_i hWarning
      have hNone : sample.isLagging = false := by
        simp [SlotBreakSample.isLagging, hWarning]
      rw [openAfter_of_not_lagging hNone]
      dsimp only
      split
      · exact ⟨tracksLag_nil, by simp [hNone]⟩
      · exact ⟨tracksLag_nil, by simp [hNone]⟩
    · rename_i hCalm
      have hStatus :
          sample.isLagging = sample.isAboveThreshold := by
        simp [SlotBreakSample.isLagging, hKept, hCalm]
      rcases hTracks.record hStatus with ⟨hAfter, hVerdict⟩
      dsimp only
      split
      · rename_i hUnreduced
        exact
          ⟨hAfter, iff_of_true rfl
            ⟨hOwn, hVerdict.mp hUnreduced⟩⟩
      · rename_i hReduced
        refine ⟨hAfter, ?_⟩
        simp only [reduceCtorEq, false_iff]
        rintro ⟨_, hShows⟩
        exact hReduced (hVerdict.mpr hShows)

/- One tick, whoever holds the slot. -/
theorem recordTick_spec
    (hTracks : TracksLag c.lagWindow samples)
    (tick : Option SlotBreakSample) :
    TracksLag (recordTick c tick).1.lagWindow
        ((ownSamples [tick]).foldl openAfter samples) ∧
      ((recordTick c tick).2 = .rebuild .walLag ↔
        ShowsUnreducedLag samples tick) := by
  cases tick with
  | none =>
      refine ⟨hTracks, ?_⟩
      simp [recordTick, ShowsUnreducedLag]
  | some sample =>
      change
        TracksLag (c.recordSampleAndClassifyBreak sample).1.lagWindow
            _ ∧
          ((c.recordSampleAndClassifyBreak sample).2 = _ ↔ _)
      cases hForeign : sample.isForeign with
      | true =>
          have hSkipped : ownSamples [some sample] = [] := by
            simp [ownSamples, Option.filter, hForeign]
          have hStolen :
              c.recordSampleAndClassifyBreak sample =
                (c, .rebuild .slotStolen) := by
            unfold
              SlotBreakClassifier.recordSampleAndClassifyBreak
            exact if_pos hForeign
          rw [hSkipped, hStolen, showsUnreducedLag_some,
            hForeign]
          exact ⟨hTracks, by simp⟩
      | false =>
          have hTaken :
              ownSamples [some sample] = [sample] := by
            simp [ownSamples, Option.filter, hForeign]
          rw [hTaken]
          exact recordSample_spec hTracks hForeign

/- The window always holds the sums of the open stretch. -/
theorem tracksLag_recordTicks
    (ticks : List (Option SlotBreakSample)) :
    TracksLag (recordTicks ticks).lagWindow
      (openSamples (ownSamples ticks)) := by
  induction ticks using List.reverseRecOn with
  | nil => exact tracksLag_nil
  | append_singleton ticks tick ih =>
      have hAfter := (recordTick_spec ih tick).1
      unfold recordTicks at hAfter ⊢
      rw [List.foldl_concat]
      have hOwn :
          ownSamples (ticks ++ [tick]) =
            ownSamples ticks ++ ownSamples [tick] :=
        List.filterMap_append
      rw [hOwn, openSamples, List.foldl_append]
      exact hAfter

/-
  After any history, a tick is answered with a rebuild for
  lag exactly if it shows an unreduced lag, over samples that
  all lag.
-/
theorem lag_rebuild_iff_unreduced
    (ticks : List (Option SlotBreakSample))
    (tick : Option SlotBreakSample) :
    openSamples (ownSamples ticks) <:+
        Streak.streak SlotBreakSample.isLagging
          (ownSamples ticks) ∧
      ((recordTick (recordTicks ticks) tick).2 =
          .rebuild .walLag ↔
        ShowsUnreducedLag (openSamples (ownSamples ticks))
          tick) :=
  ⟨openSamples_suffix (ownSamples ticks),
    (recordTick_spec (tracksLag_recordTicks ticks) tick).2⟩

/- A look at a slot whose receiver started at the epoch. -/
def lagSample
    (seconds thresholdBytes lagBytes : Int)
    (applicationName : String) : SlotBreakSample :=
  { state :=
      { slotType := "physical"
        isActive := true
        activePID := some 17
        applicationName := applicationName
        walStatus := "reserved"
        position := none }
    position := { currentLSN := 0, lagBytes := lagBytes }
    walLagThresholdBytes := thresholdBytes
    receiverRunStartedAt := some 0
    observedAt := seconds * Duration.second }

def ownReceiver : String :=
  "databasus_wal_receiver_1"

/-
  A foreign consumer's sample at the threshold starts no new
  stretch, and a threshold of zero asks for no rebuild.
-/
theorem foreign_sample_keeps_window :
    (let before :=
        [lagSample 0 100 200 ownReceiver,
          lagSample 240 100 200 ownReceiver,
          lagSample 270 100 50 "other"]
      let last := lagSample 300 100 200 ownReceiver
      (recordTick (recordTicks (before.map some))
          (some last)).2 = .rebuild .walLag ∧
        Streak.streak SlotBreakSample.isLagging
            (before ++ [last]) = [last] ∧
        ¬ IsHeld [last]) ∧
    (let off :=
        [lagSample 0 0 200 ownReceiver]
      let last := lagSample 300 0 300 ownReceiver
      (recordTick (recordTicks (off.map some))
          (some last)).2 = .none ∧
        IsHeld (off ++ [last]) ∧
        IsUnreduced (off ++ [last]) 0) := by
  decide +kernel

end WalStreaming

end Databasus
