import Databasus.WalStreaming.UploadDispatcher

/-
  The recovery of the upload queue at startup.

  The recovery passes over the queued segments again and again
  with the slots that uploads give back, until nothing is in
  flight.  It then waits for its goroutines.

  Main declarations:
    * `QueueRecovery`
    * `queueRecovery`
    * `RecoversQueue`
    * `RecoveryInvariant`
    * `uploads_apart_and_recovered_once`
-/

------------------------------------------------------------
-- The Recovery
------------------------------------------------------------

namespace Databasus

namespace WalStreaming

open Foundation

inductive RecoveryStage
  | checking (notStarted : List QueuedWalSegment)
  | starting (rest : List QueuedWalSegment)
  | receiving (notStarted : List QueuedWalSegment)
  | draining
  | done
deriving DecidableEq, Repr

/- The segments that the recovery still has to start. -/
def RecoveryStage.pending :
    RecoveryStage → List QueuedWalSegment
  | .checking notStarted => notStarted
  | .starting rest => rest
  | .receiving notStarted => notStarted
  | .draining => []
  | .done => []

structure QueueRecovery where
  isCancelled : Bool
  dispatcher : SegmentUploadDispatcher
  stage : RecoveryStage
deriving DecidableEq, Repr

inductive RecoveryAction
  | check
  | startNext
  | receive
  | drain
  | cancel
  | worker (event : WorkerEvent)
deriving DecidableEq, Repr

namespace QueueRecovery

variable (s : QueueRecovery)

/- The return of `startUploads`, and the count behind it. -/
def startNext
    (rest : List QueuedWalSegment) : QueueRecovery :=
  match
    startUploadsStep s.isCancelled s.dispatcher rest with
  | .goesOn dispatcher later =>
      { s with dispatcher, stage := .starting later }
  | .returns notStarted =>
      if s.dispatcher.getRunningBackupCount = 0 then
        { s with stage := .draining }
      else
        { s with stage := .receiving notStarted }

/- `recoverQueuedWalSegments`, one statement after another. -/
def step : RecoveryAction → Option QueueRecovery
  | .check =>
      match s.stage with
      | .checking notStarted =>
          if s.isCancelled then
            some { s with stage := .draining }
          else
            some { s with stage := .starting notStarted }
      | _ => none
  | .startNext =>
      match s.stage with
      | .starting rest => some (s.startNext rest)
      | _ => none
  | .receive =>
      match s.stage with
      | .receiving notStarted =>
          s.dispatcher.receiveFinished.map fun dispatcher =>
            { s with
              dispatcher, stage := .checking notStarted }
      | _ => none
  | .drain =>
      match s.stage with
      | .draining =>
          if s.dispatcher.isIdle then
            some { s with stage := .done }
          else
            none
      | _ => none
  | .cancel =>
      if s.isCancelled then
        none
      else
        some { s with isCancelled := true }
  | .worker event =>
      (s.dispatcher.workerStep event).map fun dispatcher =>
        { s with dispatcher }

end QueueRecovery

def startRecovery
    (segments : List QueuedWalSegment) : QueueRecovery :=
  { isCancelled := false
    dispatcher := newSegmentUploadDispatcher
    stage := .checking segments }

def queueRecovery
    (segments : List QueuedWalSegment) :
    TransitionSystem QueueRecovery RecoveryAction where
  initial s := s = startRecovery segments
  step := QueueRecovery.step

/-
  What holds of a recovery of these segments at any moment.
  It can always go on until it is done, and each of the
  segments was uploaded once then, unless it was cancelled.
-/
structure RecoversQueue
    (segments : List QueuedWalSegment)
    (s : QueueRecovery) : Prop where
  apart : RunsApart s.dispatcher
  once : s.dispatcher.started.Nodup
  queued :
    ∀ walFilename ∈ s.dispatcher.started,
      ∃ segment ∈ segments,
        segment.walFilename = walFilename
  complete :
    s.stage = .done → s.isCancelled = false →
      ∀ segment ∈ segments,
        s.dispatcher.started.count segment.walFilename = 1
  idle : s.stage = .done → s.dispatcher.isIdle = true
  goesOn :
    s.stage ≠ .done →
      ∃ action, action ≠ .cancel ∧
        ∃ next, s.step action = some next

------------------------------------------------------------
-- What a Step Can Do
------------------------------------------------------------

open SegmentUploadDispatcher (Accounted)

variable {dispatcher : SegmentUploadDispatcher}
variable {notStarted : List QueuedWalSegment}

/- All that a return of `startUploads` leads to. -/
theorem startNext_cases
    (s : QueueRecovery)
    (rest : List QueuedWalSegment) :
    rest = [] ∧
        (s.startNext rest = { s with stage := .draining } ∨
          s.dispatcher.inFlightFilenames ≠ [] ∧
            s.startNext rest =
              { s with stage := .receiving [] }) ∨
      rest ≠ [] ∧
        (s.isCancelled = true ∧
            s.startNext rest = { s with stage := .draining } ∨
          s.dispatcher.inFlightFilenames ≠ [] ∧
            s.startNext rest =
              { s with
                stage :=
                  .receiving
                    (s.dispatcher.dropInFlight rest) }) ∨
      ∃ segment later,
        rest = segment :: later ∧
          (segment.walFilename ∈
                s.dispatcher.inFlightFilenames ∧
              s.startNext rest =
                { s with stage := .starting later } ∨
            segment.walFilename ∉
                s.dispatcher.inFlightFilenames ∧
              s.dispatcher.inFlightFilenames.length <
                maxConcurrentSegmentUploads ∧
              s.startNext rest =
                { s with
                  dispatcher :=
                    s.dispatcher.startUpload
                      segment.walFilename
                  stage := .starting later }) := by
  unfold QueueRecovery.startNext
  have hCount :
      s.dispatcher.getRunningBackupCount = 0 ↔
        s.dispatcher.inFlightFilenames = [] :=
    List.length_eq_zero_iff
  rcases
    startUploadsStep_cases s.isCancelled s.dispatcher rest
    with ⟨hNone, hReturns⟩ | ⟨segment, later, hRest,
      ⟨hFlying, hGoes⟩ | ⟨hFull, hReturns⟩ |
      ⟨hNew, hRoom, hGoes⟩⟩
  · left
    refine ⟨hNone, ?_⟩
    simp only [hReturns, hCount]
    by_cases hEmpty : s.dispatcher.inFlightFilenames = []
    · exact Or.inl (if_pos hEmpty)
    · exact Or.inr ⟨hEmpty, if_neg hEmpty⟩
  · right
    right
    refine ⟨segment, later, hRest, Or.inl ⟨hFlying, ?_⟩⟩
    simp only [hGoes]
  · right
    left
    refine ⟨by rw [hRest]; exact List.cons_ne_nil _ _, ?_⟩
    simp only [hReturns, hCount]
    by_cases hEmpty : s.dispatcher.inFlightFilenames = []
    · refine Or.inl ⟨?_, if_pos hEmpty⟩
      rcases hFull with hMany | hCancelled
      · rw [hEmpty] at hMany
        exact absurd hMany (by decide)
      · exact hCancelled
    · exact Or.inr ⟨hEmpty, if_neg hEmpty⟩
  · right
    right
    refine ⟨segment, later, hRest, Or.inr ⟨hNew, hRoom, ?_⟩⟩
    simp only [hGoes]

/- What every recovery keeps. -/
structure RecoveryInvariant
    (segments : List QueuedWalSegment)
    (s : QueueRecovery) : Prop where
  accounted : Accounted s.dispatcher
  once : s.dispatcher.started.Nodup
  flown :
    ∀ walFilename ∈ s.dispatcher.inFlightFilenames,
      walFilename ∈ s.dispatcher.started
  queued :
    ∀ walFilename ∈ s.dispatcher.started,
      ∃ segment ∈ segments,
        segment.walFilename = walFilename
  pending : ∀ segment ∈ s.stage.pending, segment ∈ segments
  covered :
    s.isCancelled = false →
      ∀ segment ∈ segments,
        segment.walFilename ∈ s.dispatcher.started ∨
          ∃ other ∈ s.stage.pending,
            other.walFilename = segment.walFilename
  -- A started segment that a pass meets again is in flight.
  fresh :
    ∀ segment ∈ s.stage.pending,
      segment.walFilename ∈ s.dispatcher.started →
        (∃ rest, s.stage = .starting rest) ∧
          segment.walFilename ∈
            s.dispatcher.inFlightFilenames
  flying :
    ∀ notStarted, s.stage = .receiving notStarted →
      s.dispatcher.inFlightFilenames ≠ []
  idle : s.stage = .done → s.dispatcher.isIdle = true

variable {segments : List QueuedWalSegment}
variable {s next : QueueRecovery}

theorem recoveryInvariant_start
    (segments : List QueuedWalSegment) :
    RecoveryInvariant segments (startRecovery segments) where
  accounted := SegmentUploadDispatcher.accounted_new
  once := List.nodup_nil
  flown := fun _ hNone => absurd hNone List.not_mem_nil
  queued := fun _ hNone => absurd hNone List.not_mem_nil
  pending := fun _ hPending => hPending
  covered := fun _ segment hSegment =>
    Or.inr ⟨segment, hSegment, rfl⟩
  fresh := fun _ _ hNone => absurd hNone List.not_mem_nil
  flying := fun _ hStage => nomatch hStage
  idle := fun hStage => nomatch hStage

/- A stage that drops nothing and comes after no start. -/
theorem RecoveryInvariant.toDraining
    (hInvariant : RecoveryInvariant segments s)
    (hNothing : s.isCancelled = false → s.stage.pending = []) :
    RecoveryInvariant segments
      { s with stage := .draining } where
  accounted := hInvariant.accounted
  once := hInvariant.once
  flown := hInvariant.flown
  queued := hInvariant.queued
  pending := fun _ hPending => absurd hPending List.not_mem_nil
  covered := by
    intro hLive segment hSegment
    rcases hInvariant.covered hLive segment hSegment with
      hStarted | ⟨other, hOther, hName⟩
    · exact Or.inl hStarted
    · rw [hNothing hLive] at hOther
      exact absurd hOther List.not_mem_nil
  fresh := fun _ hPending => absurd hPending List.not_mem_nil
  flying := fun _ hStage => nomatch hStage
  idle := fun hStage => nomatch hStage

/- Segments in flight leave the pass, the others stay. -/
theorem RecoveryInvariant.toReceiving
    {rest notStarted : List QueuedWalSegment}
    (hInvariant : RecoveryInvariant segments s)
    (hStage : s.stage = .starting rest)
    (hLeft :
      notStarted = s.dispatcher.dropInFlight rest)
    (hFlying : s.dispatcher.inFlightFilenames ≠ []) :
    RecoveryInvariant segments
      { s with stage := .receiving notStarted } := by
  have hMember :
      ∀ segment,
        segment ∈ notStarted ↔
          segment ∈ s.stage.pending ∧
            segment.walFilename ∉
              s.dispatcher.inFlightFilenames := by
    intro segment
    rw [hLeft, hStage]
    simp [SegmentUploadDispatcher.dropInFlight,
      SegmentUploadDispatcher.isInFlight,
      RecoveryStage.pending]
  refine ⟨hInvariant.accounted, hInvariant.once,
    hInvariant.flown, hInvariant.queued, ?_, ?_, ?_,
    fun _ _ => hFlying, fun hNever => nomatch hNever⟩
  · intro segment hSegment
    exact hInvariant.pending segment
      ((hMember segment).mp hSegment).1
  · intro hLive segment hSegment
    rcases hInvariant.covered hLive segment hSegment with
      hStarted | ⟨other, hOther, hName⟩
    · exact Or.inl hStarted
    · by_cases hInFlight :
          other.walFilename ∈ s.dispatcher.inFlightFilenames
      · rw [← hName]
        exact Or.inl (hInvariant.flown _ hInFlight)
      · exact Or.inr
          ⟨other, (hMember other).mpr ⟨hOther, hInFlight⟩,
            hName⟩
  · intro segment hSegment hStarted
    have hWas := (hMember segment).mp hSegment
    exact absurd
      (hInvariant.fresh segment hWas.1 hStarted).2 hWas.2

theorem recoveryInvariant_startNext
    {rest : List QueuedWalSegment}
    (hInvariant : RecoveryInvariant segments s)
    (hStage : s.stage = .starting rest) :
    RecoveryInvariant segments (s.startNext rest) := by
  have hPending : s.stage.pending = rest := by
    rw [hStage, RecoveryStage.pending]
  rcases startNext_cases s rest with
    ⟨hNone, hDrains | ⟨hFlying, hReceives⟩⟩ |
    ⟨hSome, ⟨hCancelled, hDrains⟩ |
      ⟨hFlying, hReceives⟩⟩ |
    ⟨segment, later, hRest,
      ⟨hFlying, hSkips⟩ | ⟨hNew, hRoom, hStarts⟩⟩
  · rw [hDrains]
    apply hInvariant.toDraining
    intro hLive
    rw [hPending, hNone]
  · rw [hReceives]
    apply hInvariant.toReceiving hStage _ hFlying
    rw [hNone, SegmentUploadDispatcher.dropInFlight,
      List.filter_nil]
  · rw [hDrains]
    apply hInvariant.toDraining
    intro hLive
    rw [hCancelled] at hLive
    cases hLive
  · rw [hReceives]
    exact hInvariant.toReceiving hStage rfl hFlying
  · -- The segment is in flight, so the pass goes on.
    rw [hSkips]
    rw [hRest] at hPending
    refine ⟨hInvariant.accounted, hInvariant.once,
      hInvariant.flown, hInvariant.queued, ?_, ?_, ?_,
      (fun _ hNever => nomatch hNever),
      (fun hNever => nomatch hNever)⟩
    · intro other hOther
      apply hInvariant.pending
      rw [hPending]
      exact List.mem_cons_of_mem segment hOther
    · intro hLive other hOther
      rcases hInvariant.covered hLive other hOther with
        hStarted | ⟨found, hFound, hName⟩
      · exact Or.inl hStarted
      · rw [hPending] at hFound
        rcases List.mem_cons.mp hFound with hHead | hLater
        · rw [hHead] at hName
          rw [← hName]
          exact Or.inl (hInvariant.flown _ hFlying)
        · exact Or.inr ⟨found, hLater, hName⟩
    · intro other hOther hStarted
      refine ⟨⟨later, rfl⟩, ?_⟩
      apply (hInvariant.fresh other _ hStarted).2
      rw [hPending]
      exact List.mem_cons_of_mem segment hOther
  · -- The segment is started, and in flight from now on.
    rw [hStarts]
    rw [hRest] at hPending
    have hUnstarted :
        segment.walFilename ∉ s.dispatcher.started := by
      intro hStarted
      apply hNew
      apply (hInvariant.fresh segment _ hStarted).2
      rw [hPending]
      exact List.mem_cons_self
    have hQueued : segment ∈ segments := by
      apply hInvariant.pending
      rw [hPending]
      exact List.mem_cons_self
    have hMember :
        ∀ (names : List String) (name : String),
          name ∈ names ++ [segment.walFilename] ↔
            name ∈ names ∨ name = segment.walFilename := by
      simp
    refine ⟨?_, ?_, ?_, ?_, ?_, ?_, ?_,
      (fun _ hNever => nomatch hNever),
      (fun hNever => nomatch hNever)⟩
    · apply hInvariant.accounted.startUpload _ hRoom
      rw [← SegmentUploadDispatcher.isInFlight_iff] at hNew
      exact eq_false_of_ne_true hNew
    · change
        (s.dispatcher.started ++
          [segment.walFilename]).Nodup
      rw [List.nodup_append]
      refine ⟨hInvariant.once, List.nodup_singleton _, ?_⟩
      rintro name hName other hOther rfl
      rw [List.mem_singleton.mp hOther] at hName
      exact hUnstarted hName
    · intro name hName
      rcases (hMember _ _).mp hName with hOld | hSame
      · exact (hMember _ _).mpr
          (Or.inl (hInvariant.flown name hOld))
      · exact (hMember _ _).mpr (Or.inr hSame)
    · intro name hName
      rcases (hMember _ _).mp hName with hOld | hSame
      · exact hInvariant.queued name hOld
      · exact ⟨segment, hQueued, hSame.symm⟩
    · intro other hOther
      apply hInvariant.pending
      rw [hPending]
      exact List.mem_cons_of_mem segment hOther
    · intro hLive other hOther
      rcases hInvariant.covered hLive other hOther with
        hStarted | ⟨found, hFound, hName⟩
      · exact Or.inl ((hMember _ _).mpr (Or.inl hStarted))
      · rw [hPending] at hFound
        rcases List.mem_cons.mp hFound with hHead | hLater
        · rw [hHead] at hName
          exact Or.inl
            ((hMember _ _).mpr (Or.inr hName.symm))
        · exact Or.inr ⟨found, hLater, hName⟩
    · intro other hOther hStarted
      refine ⟨⟨later, rfl⟩, (hMember _ _).mpr ?_⟩
      rcases (hMember _ _).mp hStarted with hOld | hSame
      · left
        apply (hInvariant.fresh other _ hOld).2
        rw [hPending]
        exact List.mem_cons_of_mem segment hOther
      · exact Or.inr hSame

/- Stages with the same segments to start, and no pass. -/
theorem RecoveryInvariant.toChecking
    (hInvariant : RecoveryInvariant segments s)
    (hStage : s.stage = .receiving notStarted)
    (hReceived :
      s.dispatcher.receiveFinished = some dispatcher) :
    RecoveryInvariant segments
      { s with
        dispatcher, stage := .checking notStarted } := by
  have hPending : s.stage.pending = notStarted := by
    rw [hStage, RecoveryStage.pending]
  rcases hInvariant.accounted.receiveFinished hReceived with
    ⟨hAccounted, hStarted, hFewer⟩
  have hFlown :
      ∀ name ∈ dispatcher.inFlightFilenames,
        name ∈ s.dispatcher.inFlightFilenames := by
    unfold SegmentUploadDispatcher.receiveFinished
      at hReceived
    split at hReceived
    · cases hReceived
    · cases hReceived
      exact fun name hName => List.mem_of_mem_erase hName
  have hUnstarted :
      ∀ segment ∈ notStarted,
        segment.walFilename ∉ s.dispatcher.started := by
    intro segment hSegment hOld
    rw [← hPending] at hSegment
    rcases (hInvariant.fresh segment hSegment hOld).1 with
      ⟨rest, hNever⟩
    rw [hStage] at hNever
    cases hNever
  refine ⟨hAccounted, ?_, ?_, ?_, ?_, ?_, ?_,
    (fun _ hNever => nomatch hNever),
    (fun hNever => nomatch hNever)⟩
  · rw [hStarted]
    exact hInvariant.once
  · intro name hName
    rw [hStarted]
    exact hInvariant.flown name (hFlown name hName)
  · rw [hStarted]
    exact hInvariant.queued
  · rw [← hPending]
    exact hInvariant.pending
  · rw [hStarted, ← hPending]
    exact hInvariant.covered
  · intro segment hSegment hOld
    rw [hStarted] at hOld
    exact absurd hOld (hUnstarted segment hSegment)

theorem RecoveryInvariant.toStarting
    (hInvariant : RecoveryInvariant segments s)
    (hStage : s.stage = .checking notStarted) :
    RecoveryInvariant segments
      { s with stage := .starting notStarted } := by
  have hPending : s.stage.pending = notStarted := by
    rw [hStage, RecoveryStage.pending]
  refine ⟨hInvariant.accounted, hInvariant.once,
    hInvariant.flown, hInvariant.queued, ?_, ?_, ?_,
    (fun _ hNever => nomatch hNever),
    (fun hNever => nomatch hNever)⟩
  · rw [← hPending]
    exact hInvariant.pending
  · rw [← hPending]
    exact hInvariant.covered
  · intro segment hSegment hOld
    rw [← hPending] at hSegment
    exact ⟨⟨notStarted, rfl⟩,
      (hInvariant.fresh segment hSegment hOld).2⟩

theorem RecoveryInvariant.toDone
    (hInvariant : RecoveryInvariant segments s)
    (hStage : s.stage = .draining)
    (hIdle : s.dispatcher.isIdle = true) :
    RecoveryInvariant segments { s with stage := .done } where
  accounted := hInvariant.accounted
  once := hInvariant.once
  flown := hInvariant.flown
  queued := hInvariant.queued
  pending := fun _ hPending => absurd hPending List.not_mem_nil
  covered := by
    have hCovered := hInvariant.covered
    rw [hStage] at hCovered
    exact hCovered
  fresh := fun _ hPending => absurd hPending List.not_mem_nil
  flying := fun _ hNever => nomatch hNever
  idle := fun _ => hIdle

theorem RecoveryInvariant.afterWorker
    {event : WorkerEvent}
    (hInvariant : RecoveryInvariant segments s)
    (hWorked :
      s.dispatcher.workerStep event = some dispatcher) :
    RecoveryInvariant segments { s with dispatcher } := by
  rcases hInvariant.accounted.workerStep hWorked with
    ⟨hAccounted, hFlying, hStarted⟩
  refine ⟨hAccounted, ?_, ?_, ?_, hInvariant.pending, ?_,
    ?_, ?_, ?_⟩
  · rw [hStarted]
    exact hInvariant.once
  · rw [hFlying, hStarted]
    exact hInvariant.flown
  · rw [hStarted]
    exact hInvariant.queued
  · rw [hStarted]
    exact hInvariant.covered
  · rw [hFlying, hStarted]
    exact hInvariant.fresh
  · rw [hFlying]
    exact hInvariant.flying
  · -- When all goroutines are gone, none of them moves.
    intro hDone
    have hIdle := hInvariant.idle hDone
    simp only [SegmentUploadDispatcher.isIdle,
      Bool.and_eq_true, List.isEmpty_iff] at hIdle
    cases event <;>
      simp [SegmentUploadDispatcher.workerStep, hIdle.1,
        hIdle.2] at hWorked

theorem recoveryInvariant_step
    {action : RecoveryAction}
    (hInvariant : RecoveryInvariant segments s)
    (hStep : s.step action = some next) :
    RecoveryInvariant segments next := by
  cases action with
  | check =>
      simp only [QueueRecovery.step] at hStep
      split at hStep
      next notStarted hStage =>
        split at hStep
        next hCancelled =>
          cases hStep
          apply hInvariant.toDraining
          intro hLive
          rw [hCancelled] at hLive
          cases hLive
        · cases hStep
          exact hInvariant.toStarting hStage
      · cases hStep
  | startNext =>
      simp only [QueueRecovery.step] at hStep
      split at hStep
      next rest hStage =>
        cases hStep
        exact recoveryInvariant_startNext hInvariant hStage
      · cases hStep
  | receive =>
      simp only [QueueRecovery.step] at hStep
      split at hStep
      next notStarted hStage =>
        rcases Option.map_eq_some_iff.mp hStep with
          ⟨dispatcher, hReceived, hNext⟩
        subst hNext
        exact hInvariant.toChecking hStage hReceived
      · cases hStep
  | drain =>
      simp only [QueueRecovery.step] at hStep
      split at hStep
      next hStage =>
        split at hStep
        next hIdle =>
          cases hStep
          exact hInvariant.toDone hStage hIdle
        · cases hStep
      · cases hStep
  | cancel =>
      simp only [QueueRecovery.step] at hStep
      split at hStep
      · cases hStep
      · cases hStep
        exact
          { hInvariant with
            covered := fun hLive => nomatch hLive }
  | worker event =>
      rcases Option.map_eq_some_iff.mp hStep with
        ⟨dispatcher, hWorked, hNext⟩
      subst hNext
      exact hInvariant.afterWorker hWorked

/- A goroutine that is left can move. -/
theorem worker_moves
    (hInvariant : RecoveryInvariant segments s)
    (hBusy : s.dispatcher.isIdle = false) :
    ∃ action, action ≠ .cancel ∧
      ∃ next, s.step action = some next := by
  cases hUploading : s.dispatcher.uploading with
  | cons walFilename others =>
      refine ⟨.worker (.uploadEnds walFilename .succeeded),
        by simp, ?_⟩
      simp [QueueRecovery.step,
        SegmentUploadDispatcher.workerStep, hUploading]
  | nil =>
      cases hReporting : s.dispatcher.reporting with
      | cons walFilename others =>
          have hMember :
              walFilename ∈ s.dispatcher.reporting := by
            rw [hReporting]
            exact List.mem_cons_self
          have hRoom := hInvariant.accounted.room hMember
          refine ⟨.worker (.reports walFilename), by simp, ?_⟩
          simp [QueueRecovery.step,
            SegmentUploadDispatcher.workerStep, hMember,
            hRoom]
      | nil =>
          simp [SegmentUploadDispatcher.isIdle, hUploading,
            hReporting] at hBusy

/- No recovery is stuck before it is done. -/
theorem recovery_goesOn
    (hInvariant : RecoveryInvariant segments s)
    (hStage : s.stage ≠ .done) :
    ∃ action, action ≠ .cancel ∧
      ∃ next, s.step action = some next := by
  cases hNow : s.stage with
  | checking notStarted =>
      refine ⟨.check, by simp, ?_⟩
      by_cases hCancelled : s.isCancelled = true <;>
        simp [QueueRecovery.step, hNow, hCancelled]
  | starting rest =>
      refine ⟨.startNext, by simp, ?_⟩
      simp [QueueRecovery.step, hNow]
  | receiving notStarted =>
      cases hFinished : s.dispatcher.finishedUploads with
      | cons walFilename later =>
          refine ⟨.receive, by simp, ?_⟩
          simp [QueueRecovery.step, hNow,
            SegmentUploadDispatcher.receiveFinished,
            hFinished]
      | nil =>
          -- What is in flight has a goroutine of its own.
          apply worker_moves hInvariant
          apply eq_false_of_ne_true
          intro hIdle
          simp only [SegmentUploadDispatcher.isIdle,
            Bool.and_eq_true, List.isEmpty_iff] at hIdle
          have hPerm := hInvariant.accounted.perm
          rw [hIdle.1, hIdle.2, hFinished] at hPerm
          exact hInvariant.flying notStarted hNow
            hPerm.symm.eq_nil
  | draining =>
      by_cases hIdle : s.dispatcher.isIdle = true
      · refine ⟨.drain, by simp, ?_⟩
        simp [QueueRecovery.step, hNow, hIdle]
      · exact worker_moves hInvariant
          (eq_false_of_ne_true hIdle)
  | done => exact absurd hNow hStage

------------------------------------------------------------
-- The End of a Recovery
------------------------------------------------------------

def RecoveryStage.rank : RecoveryStage → Nat
  | .checking notStarted => 4 + 6 * notStarted.length
  | .starting rest => 3 + 6 * rest.length
  | .receiving notStarted => 2 + 6 * notStarted.length
  | .draining => 1
  | .done => 0

/- The steps that a recovery has left, at the most. -/
def QueueRecovery.stepsLeft
    (s : QueueRecovery) : Nat :=
  s.stage.rank + 5 * s.dispatcher.uploading.length +
    4 * s.dispatcher.reporting.length +
    3 * s.dispatcher.finishedUploads.length +
    (if s.isCancelled then 0 else 1)

theorem stepsLeft_startNext
    {rest : List QueuedWalSegment}
    (hStage : s.stage = .starting rest) :
    (s.startNext rest).stepsLeft < s.stepsLeft := by
  have hDropped :
      (s.dispatcher.dropInFlight rest).length ≤
        rest.length :=
    List.length_filter_le _ _
  unfold QueueRecovery.stepsLeft
  rw [hStage]
  rcases startNext_cases s rest with
    ⟨hNone, hDrains | ⟨hFlying, hReceives⟩⟩ |
    ⟨hSome, ⟨hCancelled, hDrains⟩ |
      ⟨hFlying, hReceives⟩⟩ |
    ⟨segment, later, hRest,
      ⟨hFlying, hSkips⟩ | ⟨hNew, hRoom, hStarts⟩⟩
  · rw [hDrains]
    simp only [RecoveryStage.rank]
    omega
  · rw [hReceives, hNone]
    simp only [RecoveryStage.rank, List.length_nil]
    omega
  · rw [hDrains]
    simp only [RecoveryStage.rank]
    omega
  · rw [hReceives]
    simp only [RecoveryStage.rank]
    omega
  · rw [hSkips, hRest]
    simp only [RecoveryStage.rank, List.length_cons]
    omega
  · rw [hStarts, hRest]
    simp only [RecoveryStage.rank, List.length_cons,
      SegmentUploadDispatcher.startUpload,
      List.length_append, List.length_nil]
    omega

theorem stepsLeft_step
    {action : RecoveryAction}
    (hStep : s.step action = some next) :
    next.stepsLeft < s.stepsLeft := by
  cases action with
  | check =>
      simp only [QueueRecovery.step] at hStep
      split at hStep
      next notStarted hStage =>
        unfold QueueRecovery.stepsLeft
        rw [hStage]
        split at hStep <;> cases hStep <;>
          simp only [RecoveryStage.rank] <;> omega
      · cases hStep
  | startNext =>
      simp only [QueueRecovery.step] at hStep
      split at hStep
      next rest hStage =>
        cases hStep
        exact stepsLeft_startNext hStage
      · cases hStep
  | receive =>
      simp only [QueueRecovery.step] at hStep
      split at hStep
      next notStarted hStage =>
        rcases Option.map_eq_some_iff.mp hStep with
          ⟨dispatcher, hReceived, hNext⟩
        subst hNext
        unfold SegmentUploadDispatcher.receiveFinished
          at hReceived
        split at hReceived
        · cases hReceived
        next walFilename later hFinished =>
        cases hReceived
        unfold QueueRecovery.stepsLeft
        rw [hStage, hFinished]
        simp only [RecoveryStage.rank, List.length_cons,
          SegmentUploadDispatcher.markFinished]
        omega
      · cases hStep
  | drain =>
      simp only [QueueRecovery.step] at hStep
      split at hStep
      next hStage =>
        split at hStep
        · cases hStep
          unfold QueueRecovery.stepsLeft
          rw [hStage]
          simp only [RecoveryStage.rank]
          omega
        · cases hStep
      · cases hStep
  | cancel =>
      simp only [QueueRecovery.step] at hStep
      split at hStep
      · cases hStep
      next hLive =>
        cases hStep
        unfold QueueRecovery.stepsLeft
        simp only [if_neg hLive, if_true]
        omega
  | worker event =>
      rcases Option.map_eq_some_iff.mp hStep with
        ⟨dispatcher, hWorked, hNext⟩
      subst hNext
      unfold QueueRecovery.stepsLeft
      cases event with
      | uploadEnds walFilename outcome =>
          simp only [SegmentUploadDispatcher.workerStep]
            at hWorked
          split at hWorked
          next hUploading =>
            cases hWorked
            have hSome := List.length_pos_of_mem hUploading
            simp only [List.length_erase_of_mem hUploading,
              List.length_append, List.length_cons,
              List.length_nil]
            omega
          · cases hWorked
      | reports walFilename =>
          simp only [SegmentUploadDispatcher.workerStep]
            at hWorked
          split at hWorked
          next hReporting =>
            cases hWorked
            have hSome := List.length_pos_of_mem hReporting.1
            simp only
              [List.length_erase_of_mem hReporting.1,
              List.length_append, List.length_cons,
              List.length_nil]
            omega
          · cases hWorked

/- Every step takes one of those left. -/
theorem length_le_stepsLeft
    (actions : List RecoveryAction)
    (hPerform :
      (queueRecovery segments).perform s actions =
        some next) :
    actions.length + next.stepsLeft ≤ s.stepsLeft := by
  induction actions generalizing s with
  | nil =>
      simp only [TransitionSystem.perform,
        Option.some.injEq] at hPerform
      subst hPerform
      exact Nat.le_of_eq (Nat.zero_add _)
  | cons action actions ih =>
      cases hTaken :
          (queueRecovery segments).step s action with
      | none =>
          simp [TransitionSystem.perform, hTaken] at hPerform
      | some middle =>
          simp only [TransitionSystem.perform, hTaken]
            at hPerform
          have hRest := ih hPerform
          have hOne : middle.stepsLeft < s.stepsLeft :=
            stepsLeft_step hTaken
          rw [List.length_cons]
          omega

theorem recoversQueue_of_reachable
    (hReachable : (queueRecovery segments).Reachable s) :
    RecoversQueue segments s := by
  have hInvariant : RecoveryInvariant segments s := by
    apply hReachable.invariant
    · intro start hStart
      rw [show start = startRecovery segments from hStart]
      exact recoveryInvariant_start segments
    · intro before action after hBefore _ hStep
      exact recoveryInvariant_step hBefore hStep
  refine ⟨hInvariant.accounted.runsApart, hInvariant.once,
    hInvariant.queued, ?_, hInvariant.idle,
    recovery_goesOn hInvariant⟩
  intro hDone hLive segment hSegment
  apply List.count_eq_one_of_mem hInvariant.once
  rcases hInvariant.covered hLive segment hSegment with
    hStarted | ⟨other, hOther, hName⟩
  · exact hStarted
  · rw [hDone] at hOther
    exact absurd hOther List.not_mem_nil

/-
  The dispatcher's uploads run apart, whatever is listed and
  whatever order they end in.  A recovery uploads every queued
  segment once, and ends after so many steps at the most.
-/
theorem uploads_apart_and_recovered_once :
    (∀ s, uploaderLoop.Reachable s →
      RunsApart s.dispatcher) ∧
      ∀ segments : List QueuedWalSegment,
        (∀ s, (queueRecovery segments).Reachable s →
          RecoversQueue segments s) ∧
        ∀ actions s,
          (queueRecovery segments).perform
              (startRecovery segments) actions = some s →
            actions.length ≤ 6 * segments.length + 5 := by
  refine ⟨?_, ?_⟩
  · intro s hReachable
    exact (accounted_uploaderLoop hReachable).runsApart
  · intro segments
    refine ⟨fun s => recoversQueue_of_reachable, ?_⟩
    intro actions s hPerform
    have hBound := length_le_stepsLeft actions hPerform
    have hStart :
        (startRecovery segments).stepsLeft =
          6 * segments.length + 5 := by
      simp [QueueRecovery.stepsLeft, startRecovery,
        newSegmentUploadDispatcher, RecoveryStage.rank]
      omega
    omega

/- A segment that waits in both directories of the queue. -/
def doubledSegment
    (directory : String) : QueuedWalSegment :=
  { walFilename := "000000010000000000000002"
    localPath := joinPath directory "000000010000000000000002"
    timelineID := 1
    startLSN := 2 * 16777216
    endLSN := 3 * 16777216
    isComplete := true }

def doubledQueue : List QueuedWalSegment :=
  [doubledSegment "wal", doubledSegment "wal/pending-upload"]

def doubledRecovery : List RecoveryAction :=
  [.check, .startNext,
    .worker (.uploadEnds "000000010000000000000002" .failed),
    .startNext, .startNext,
    .worker (.reports "000000010000000000000002"),
    .receive, .check, .startNext, .drain]

/-
  The recovery uploads it once, even though the upload fails,
  and the loop does not start it a second time in flight.
-/
theorem doubled_segment_is_recovered_once :
    RecoversQueue doubledQueue
        ((queueRecovery doubledQueue).outcome
          (startRecovery doubledQueue) doubledRecovery) ∧
      ((queueRecovery doubledQueue).outcome
        (startRecovery doubledQueue)
          doubledRecovery).stage = .done ∧
      RunsApart
        (uploaderLoop.outcome (startUploaderLoop false)
          [.list doubledQueue, .startNext,
            .startNext]).dispatcher :=
  ⟨(uploads_apart_and_recovered_once.2 doubledQueue).1 _
      (TransitionSystem.reachable_outcome doubledRecovery rfl),
    by decide,
    uploads_apart_and_recovered_once.1 _
      (TransitionSystem.reachable_outcome _ ⟨false, rfl⟩)⟩

end WalStreaming

end Databasus
