import Databasus.WalStreaming.LocalQueue

/-
  The dispatcher of segment uploads.

  A pass over the queue starts an upload in a goroutine of its
  own for every segment that is not in flight, up to a limit.
  An upload that ended sends its filename to a channel, and is
  in flight until the dispatcher has received it.  A pass and
  the uploads interleave segment by segment.

  Main declarations:
    * `SegmentUploadDispatcher`
    * `startUploadsStep`
    * `UploaderLoop`
    * `RunsApart`
    * `accounted_uploaderLoop`
-/

------------------------------------------------------------
-- The Dispatcher
------------------------------------------------------------

namespace Databasus

namespace WalStreaming

def maxConcurrentSegmentUploads : Nat := 4

/-
  The filenames of the uploads that are running, and of those
  that are about to report their end, are the goroutines.  No
  code reads `started`, all uploads in their order.
-/
structure SegmentUploadDispatcher where
  inFlightFilenames : List String
  finishedUploads : List String
  uploading : List String
  reporting : List String
  concurrentUploads : List Nat
  started : List String
deriving DecidableEq, Repr

def newSegmentUploadDispatcher : SegmentUploadDispatcher :=
  { inFlightFilenames := []
    finishedUploads := []
    uploading := []
    reporting := []
    concurrentUploads := []
    started := [] }

/- An error is logged, and a panic recovered. -/
inductive UploadOutcome
  | succeeded
  | failed
  | panicked
deriving DecidableEq, Repr

inductive WorkerEvent
  | uploadEnds (walFilename : String) (outcome : UploadOutcome)
  | reports (walFilename : String)
deriving DecidableEq, Repr

namespace SegmentUploadDispatcher

variable (d : SegmentUploadDispatcher)

def isInFlight (walFilename : String) : Bool :=
  d.inFlightFilenames.contains walFilename

def getRunningBackupCount : Nat :=
  d.inFlightFilenames.length

def dropInFlight
    (segments : List QueuedWalSegment) :
    List QueuedWalSegment :=
  segments.filter fun segment =>
    !d.isInFlight segment.walFilename

/- The upload is in flight before its goroutine runs. -/
def startUpload
    (walFilename : String) : SegmentUploadDispatcher :=
  let inFlightFilenames :=
    d.inFlightFilenames ++ [walFilename]
  { d with
    inFlightFilenames
    concurrentUploads :=
      d.concurrentUploads ++ [inFlightFilenames.length]
    uploading := d.uploading ++ [walFilename]
    started := d.started ++ [walFilename] }

def markFinished
    (walFilename : String) : SegmentUploadDispatcher :=
  { d with
    inFlightFilenames :=
      d.inFlightFilenames.erase walFilename }

/- Take a filename from the channel, which blocks if empty. -/
def receiveFinished : Option SegmentUploadDispatcher :=
  match d.finishedUploads with
  | [] => none
  | walFilename :: later =>
      some
        (markFinished { d with finishedUploads := later }
          walFilename)

/- Sending blocks while the channel is full. -/
def workerStep :
    WorkerEvent → Option SegmentUploadDispatcher
  | .uploadEnds walFilename _ =>
      if walFilename ∈ d.uploading then
        some
          { d with
            uploading := d.uploading.erase walFilename
            reporting := d.reporting ++ [walFilename] }
      else
        none
  | .reports walFilename =>
      if walFilename ∈ d.reporting ∧
          d.finishedUploads.length <
            maxConcurrentSegmentUploads then
        some
          { d with
            reporting := d.reporting.erase walFilename
            finishedUploads :=
              d.finishedUploads ++ [walFilename] }
      else
        none

/- Nothing is left for `waitForUploads` to wait for. -/
def isIdle : Bool :=
  d.uploading.isEmpty && d.reporting.isEmpty

end SegmentUploadDispatcher

/- How the loop of `startUploads` goes on. -/
inductive PassProgress
  | goesOn
      (d : SegmentUploadDispatcher)
      (rest : List QueuedWalSegment)
  | returns (notStarted : List QueuedWalSegment)

/- One segment of the loop, and its end. -/
def startUploadsStep
    (isCancelled : Bool)
    (d : SegmentUploadDispatcher) :
    List QueuedWalSegment → PassProgress
  | [] => .returns []
  | segment :: rest =>
      if d.isInFlight segment.walFilename then
        .goesOn d rest
      else if
          maxConcurrentSegmentUploads ≤
              d.inFlightFilenames.length ∨
            isCancelled = true then
        .returns (d.dropInFlight (segment :: rest))
      else
        .goesOn (d.startUpload segment.walFilename) rest

------------------------------------------------------------
-- The Uploader Loop
------------------------------------------------------------

open Foundation

inductive LoopStage
  | listing
  | starting (rest : List QueuedWalSegment)
  | selecting
  | draining
  | stopped
deriving DecidableEq, Repr

structure UploaderLoop where
  isCancelled : Bool
  dispatcher : SegmentUploadDispatcher
  stage : LoopStage
deriving DecidableEq, Repr

/- A listing finds whatever the directory has by then. -/
inductive LoopAction
  | list (segments : List QueuedWalSegment)
  | startNext
  | tick
  | receive
  | leave
  | drain
  | cancel
  | worker (event : WorkerEvent)
deriving DecidableEq, Repr

namespace UploaderLoop

variable (s : UploaderLoop)

def startNext
    (rest : List QueuedWalSegment) : UploaderLoop :=
  match
    startUploadsStep s.isCancelled s.dispatcher rest with
  | .goesOn dispatcher later =>
      { s with dispatcher, stage := .starting later }
  | .returns _ => { s with stage := .selecting }

/- `runUploaderLoop`, one statement after another. -/
def step : LoopAction → Option UploaderLoop
  | .list segments =>
      match s.stage with
      | .listing => some { s with stage := .starting segments }
      | _ => none
  | .startNext =>
      match s.stage with
      | .starting rest => some (s.startNext rest)
      | _ => none
  | .tick =>
      match s.stage with
      | .selecting => some { s with stage := .listing }
      | _ => none
  | .receive =>
      match s.stage with
      | .selecting =>
          s.dispatcher.receiveFinished.map fun dispatcher =>
            { s with dispatcher, stage := .listing }
      | _ => none
  | .leave =>
      match s.stage with
      | .selecting =>
          if s.isCancelled then
            some { s with stage := .draining }
          else
            none
      | _ => none
  | .drain =>
      match s.stage with
      | .draining =>
          if s.dispatcher.isIdle then
            some { s with stage := .stopped }
          else
            none
      | _ => none
  | .cancel => some { s with isCancelled := true }
  | .worker event =>
      (s.dispatcher.workerStep event).map fun dispatcher =>
        { s with dispatcher }

end UploaderLoop

def startUploaderLoop
    (isCancelled : Bool) : UploaderLoop :=
  { isCancelled
    dispatcher := newSegmentUploadDispatcher
    stage := .listing }

def uploaderLoop :
    TransitionSystem UploaderLoop LoopAction where
  initial s := ∃ isCancelled, s = startUploaderLoop isCancelled
  step := UploaderLoop.step

------------------------------------------------------------
-- Uploads in Flight
------------------------------------------------------------

variable {d next : SegmentUploadDispatcher}
variable {walFilename : String}

/- At most so many uploads run, each of a file of its own. -/
structure RunsApart
    (d : SegmentUploadDispatcher) : Prop where
  within : d.uploading.length ≤ maxConcurrentSegmentUploads
  apart : d.uploading.Nodup

namespace SegmentUploadDispatcher

/-
  What is in flight is being uploaded, about to report, or in
  the channel.
-/
structure Accounted
    (d : SegmentUploadDispatcher) : Prop where
  nodup : d.inFlightFilenames.Nodup
  within :
    d.inFlightFilenames.length ≤ maxConcurrentSegmentUploads
  perm :
    (d.uploading ++ d.reporting ++ d.finishedUploads).Perm
      d.inFlightFilenames

theorem accounted_new :
    Accounted newSegmentUploadDispatcher :=
  ⟨List.nodup_nil, Nat.zero_le _, List.Perm.nil⟩

theorem Accounted.runsApart
    (hAccounted : Accounted d) : RunsApart d := by
  have hSublist :
      d.uploading.Sublist
        (d.uploading ++ d.reporting ++ d.finishedUploads) := by
    rw [List.append_assoc]
    exact List.sublist_append_left _ _
  constructor
  · have hLength := hSublist.length_le
    rw [hAccounted.perm.length_eq] at hLength
    exact Nat.le_trans hLength hAccounted.within
  · exact hSublist.nodup
      (hAccounted.perm.nodup_iff.mpr hAccounted.nodup)

theorem isInFlight_iff
    (d : SegmentUploadDispatcher)
    (walFilename : String) :
    d.isInFlight walFilename = true ↔
      walFilename ∈ d.inFlightFilenames :=
  List.contains_iff_mem

theorem Accounted.startUpload
    (hAccounted : Accounted d)
    (hNew : d.isInFlight walFilename = false)
    (hRoom :
      d.inFlightFilenames.length <
        maxConcurrentSegmentUploads) :
    Accounted (d.startUpload walFilename) := by
  have hAbsent : walFilename ∉ d.inFlightFilenames := by
    rw [← isInFlight_iff, hNew]
    exact Bool.false_ne_true
  refine ⟨?_, ?_, ?_⟩
  · exact List.nodup_append.mpr
      ⟨hAccounted.nodup, List.nodup_singleton _,
        fun _ hOld _ hName hSame =>
          hAbsent (List.mem_singleton.mp hName ▸ hSame ▸ hOld)⟩
  · change (d.inFlightFilenames ++ [walFilename]).length ≤ _
    rw [List.length_append, List.length_singleton]
    exact hRoom
  · change
      (d.uploading ++ [walFilename] ++ d.reporting ++
        d.finishedUploads).Perm
          (d.inFlightFilenames ++ [walFilename])
    have hFront :
        (d.uploading ++ [walFilename] ++ d.reporting ++
          d.finishedUploads).Perm
            (d.uploading ++ d.reporting ++
              d.finishedUploads ++ [walFilename]) := by
      simp only [List.append_assoc]
      apply List.Perm.append_left
      rw [← List.append_assoc d.reporting]
      exact List.perm_append_comm
    exact hFront.trans (hAccounted.perm.append_right _)

/- An upload that ends, or reports, stays in flight. -/
theorem Accounted.workerStep
    {event : WorkerEvent}
    (hAccounted : Accounted d)
    (hStep : d.workerStep event = some next) :
    Accounted next ∧
      next.inFlightFilenames = d.inFlightFilenames ∧
      next.started = d.started := by
  cases event with
  | uploadEnds walFilename outcome =>
      simp only [SegmentUploadDispatcher.workerStep] at hStep
      split at hStep
      next hUploading =>
        cases hStep
        refine ⟨⟨hAccounted.nodup, hAccounted.within, ?_⟩,
          rfl, rfl⟩
        apply List.Perm.trans _ hAccounted.perm
        change
          (d.uploading.erase walFilename ++
              (d.reporting ++ [walFilename]) ++
            d.finishedUploads).Perm _
        have hMoved := (List.perm_cons_erase hUploading).symm
        apply List.Perm.append_right
        rw [← List.append_assoc]
        apply List.perm_append_comm.trans
        apply List.Perm.append_right d.reporting hMoved
      · cases hStep
  | reports walFilename =>
      simp only [SegmentUploadDispatcher.workerStep] at hStep
      split at hStep
      next hReporting =>
        cases hStep
        refine ⟨⟨hAccounted.nodup, hAccounted.within, ?_⟩,
          rfl, rfl⟩
        apply List.Perm.trans _ hAccounted.perm
        change
          (d.uploading ++ d.reporting.erase walFilename ++
            (d.finishedUploads ++ [walFilename])).Perm _
        have hMoved := (List.perm_cons_erase hReporting.1).symm
        simp only [List.append_assoc]
        apply List.Perm.append_left
        rw [← List.append_assoc]
        apply List.perm_append_comm.trans
        apply List.Perm.append_right d.finishedUploads hMoved
      · cases hStep

theorem Accounted.receiveFinished
    (hAccounted : Accounted d)
    (hStep : d.receiveFinished = some next) :
    Accounted next ∧
      next.started = d.started ∧
      next.inFlightFilenames.length + 1 =
        d.inFlightFilenames.length := by
  unfold SegmentUploadDispatcher.receiveFinished at hStep
  split at hStep
  · cases hStep
  next walFilename later hFinished =>
  injection hStep with hNext
  subst hNext
  have hPerm := hAccounted.perm
  rw [hFinished] at hPerm
  have hFlying : walFilename ∈ d.inFlightFilenames := by
    apply hPerm.subset
    simp
  refine ⟨⟨hAccounted.nodup.erase _, ?_, ?_⟩, rfl, ?_⟩
  · exact Nat.le_trans List.length_erase_le hAccounted.within
  · have hMiddle :
        (walFilename ::
          (d.uploading ++ d.reporting ++ later)).Perm
            (d.uploading ++ d.reporting ++
              walFilename :: later) :=
      List.perm_middle.symm
    have hErased := (hMiddle.trans hPerm).erase walFilename
    rw [List.erase_cons_head] at hErased
    exact hErased
  · change (d.inFlightFilenames.erase _).length + 1 = _
    rw [List.length_erase_of_mem hFlying]
    have hSome := List.length_pos_of_mem hFlying
    omega

/- A full channel would be all that is in flight. -/
theorem Accounted.room
    (hAccounted : Accounted d)
    (hReporting : walFilename ∈ d.reporting) :
    d.finishedUploads.length <
      maxConcurrentSegmentUploads := by
  have hLength := hAccounted.perm.length_eq
  have hWithin := hAccounted.within
  have hSome := List.length_pos_of_mem hReporting
  simp only [List.length_append] at hLength
  omega

end SegmentUploadDispatcher

open SegmentUploadDispatcher (Accounted)

/- All that one segment of a pass does. -/
theorem startUploadsStep_cases
    (isCancelled : Bool)
    (d : SegmentUploadDispatcher)
    (segments : List QueuedWalSegment) :
    (segments = [] ∧
        startUploadsStep isCancelled d segments =
          .returns []) ∨
      ∃ segment rest,
        segments = segment :: rest ∧
          (segment.walFilename ∈ d.inFlightFilenames ∧
              startUploadsStep isCancelled d segments =
                .goesOn d rest ∨
            (maxConcurrentSegmentUploads ≤
                  d.inFlightFilenames.length ∨
                isCancelled = true) ∧
              startUploadsStep isCancelled d segments =
                .returns (d.dropInFlight segments) ∨
            segment.walFilename ∉ d.inFlightFilenames ∧
              d.inFlightFilenames.length <
                maxConcurrentSegmentUploads ∧
              startUploadsStep isCancelled d segments =
                .goesOn (d.startUpload segment.walFilename)
                  rest) := by
  cases segments with
  | nil => exact Or.inl ⟨rfl, rfl⟩
  | cons segment rest =>
      refine Or.inr ⟨segment, rest, rfl, ?_⟩
      rw [← SegmentUploadDispatcher.isInFlight_iff]
      by_cases hFlying :
          d.isInFlight segment.walFilename = true
      · left
        exact ⟨hFlying, by rw [startUploadsStep, if_pos hFlying]⟩
      right
      by_cases hFull :
          maxConcurrentSegmentUploads ≤
              d.inFlightFilenames.length ∨
            isCancelled = true
      · left
        refine ⟨hFull, ?_⟩
        rw [startUploadsStep, if_neg hFlying, if_pos hFull]
      · right
        refine ⟨hFlying, Nat.lt_of_not_le ?_, ?_⟩
        · exact fun hMany => hFull (Or.inl hMany)
        · rw [startUploadsStep, if_neg hFlying, if_neg hFull]

theorem accounted_of_goesOn
    {isCancelled : Bool}
    {segments rest : List QueuedWalSegment}
    (hAccounted : Accounted d)
    (hStep :
      startUploadsStep isCancelled d segments =
        .goesOn next rest) :
    Accounted next := by
  rcases startUploadsStep_cases isCancelled d segments with
    ⟨hNone, hReturns⟩ | ⟨segment, later, hSegments,
      ⟨hFlying, hGoes⟩ | ⟨hFull, hReturns⟩ |
      ⟨hNew, hRoom, hGoes⟩⟩
  · rw [hReturns] at hStep
    cases hStep
  · rw [hGoes] at hStep
    cases hStep
    exact hAccounted
  · rw [hReturns] at hStep
    cases hStep
  · rw [hGoes] at hStep
    cases hStep
    apply hAccounted.startUpload _ hRoom
    rw [← SegmentUploadDispatcher.isInFlight_iff] at hNew
    exact eq_false_of_ne_true hNew

theorem accounted_step
    {s after : UploaderLoop}
    {action : LoopAction}
    (hAccounted : Accounted s.dispatcher)
    (hStep : s.step action = some after) :
    Accounted after.dispatcher := by
  cases action with
  | list segments =>
      simp only [UploaderLoop.step] at hStep
      split at hStep <;> cases hStep
      exact hAccounted
  | startNext =>
      simp only [UploaderLoop.step] at hStep
      split at hStep
      · cases hStep
        unfold UploaderLoop.startNext
        split
        · next dispatcher later hGoes =>
            exact accounted_of_goesOn hAccounted hGoes
        · exact hAccounted
      · cases hStep
  | tick =>
      simp only [UploaderLoop.step] at hStep
      split at hStep <;> cases hStep
      exact hAccounted
  | receive =>
      simp only [UploaderLoop.step] at hStep
      split at hStep
      · rcases Option.map_eq_some_iff.mp hStep with
          ⟨dispatcher, hReceived, hAfter⟩
        subst hAfter
        exact (hAccounted.receiveFinished hReceived).1
      · cases hStep
  | leave =>
      simp only [UploaderLoop.step] at hStep
      split at hStep
      · split at hStep <;> cases hStep
        exact hAccounted
      · cases hStep
  | drain =>
      simp only [UploaderLoop.step] at hStep
      split at hStep
      · split at hStep <;> cases hStep
        exact hAccounted
      · cases hStep
  | cancel =>
      cases hStep
      exact hAccounted
  | worker event =>
      rcases Option.map_eq_some_iff.mp hStep with
        ⟨dispatcher, hWorked, hAfter⟩
      subst hAfter
      exact (hAccounted.workerStep hWorked).1

/- Whatever is listed, and in whatever order uploads end. -/
theorem accounted_uploaderLoop
    {s : UploaderLoop}
    (hReachable : uploaderLoop.Reachable s) :
    Accounted s.dispatcher := by
  apply hReachable.invariant
  · rintro start ⟨isCancelled, hStart⟩
    subst hStart
    exact SegmentUploadDispatcher.accounted_new
  · intro before action after hAccounted _ hStep
    exact accounted_step hAccounted hStep

end WalStreaming

end Databasus
