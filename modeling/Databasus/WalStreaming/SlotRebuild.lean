import Databasus.Foundation.Runs
import Databasus.WalStreaming.SlotCalls

/-
  The slot of a streamed database over restarts and rebuilds.

  A streamer creates its slot when it starts.  While it runs,
  the lag monitor and the supervision of the receiver rebuild
  the slot, one of them at a time: they wait until the slot is
  released, drop it, create it and request a full backup.

  Main declarations:
    * `Rebuild`, `StreamLoops`, `SlotState`
    * `RebuildStage.advance`
    * `SlotAction`, `slotSystem`
-/

------------------------------------------------------------
-- Streamers
------------------------------------------------------------

namespace Databasus

namespace WalStreaming

open Foundation
open Walmath (LSN)

def slotRebuildMaxAttemptsPerHour : Nat := 3

def rebuildReceiverStopTimeout : Duration :=
  30 * Duration.second

structure SlotSpec where
  slotName : String
  walLagThresholdBytes : Int
deriving DecidableEq, Repr

inductive RebuildCaller
  | lagMonitor
  | supervision
deriving DecidableEq, Repr

/- The call of `rebuildSlot` that comes next. -/
inductive RebuildStage
  | waiting (deadline : Time) (isTerminated : Bool)
  | inspectingBackend
  | terminatingBackend
  | dropping (call : DropCall)
  | creating (call : CreateCall)
  | realigning
  | requestingFull
deriving DecidableEq, Repr

/- A rebuild, which holds the mutex of its streamer. -/
structure Rebuild where
  caller : RebuildCaller
  reason : WalBreakReason
  stage : RebuildStage
deriving DecidableEq, Repr

/-
  The loops of a running streamer.  Each of the two callers
  may wait for the mutex with a reason of its own.
-/
structure StreamLoops where
  rebuildTimestamps : List Time := []
  rebuild : Option Rebuild := none
  monitorWaits : Option WalBreakReason := none
  isSupervisionWaiting : Bool := false
  isSupervising : Bool := true
  classifier : SlotBreakClassifier := {}
  mismatchEscalator : ResumeMismatchEscalator := {}
  failureEscalator : RapidFailureEscalator := {}
  receiverRunStartedAt : Option Time := none
deriving DecidableEq, Repr

inductive StreamerPhase
  | starting (call : CreateCall)
  | running (loops : StreamLoops)
deriving DecidableEq, Repr

/- The storage generation is the one its claim was checked at. -/
structure SlotStreamer where
  storageGeneration : Nat
  isContextDone : Bool
  phase : StreamerPhase
deriving DecidableEq, Repr

structure SlotState where
  source : Source
  isDatabaseDeleted : Bool
  storageGeneration : Nat
  now : Time
  streamer : Option SlotStreamer
deriving DecidableEq, Repr

/- Whether the caller is in the middle of a rebuild. -/
def StreamLoops.isRebuildingFor
    (loops : StreamLoops)
    (caller : RebuildCaller) : Bool :=
  loops.rebuild.any fun rebuild => rebuild.caller == caller

def SlotState.rebuildStage
    (s : SlotState) : Option RebuildStage :=
  match s.streamer with
  | none => none
  | some streamer =>
      match streamer.phase with
      | .starting _ => none
      | .running loops => loops.rebuild.map Rebuild.stage

/- Attempts older than an hour are forgotten. -/
def recordRebuildAttemptWithinCap
    (rebuildTimestamps : List Time)
    (now : Time) : List Time × Bool :=
  let kept :=
    rebuildTimestamps.filter fun ts =>
      decide (now - Duration.hour < ts)
  if slotRebuildMaxAttemptsPerHour ≤ kept.length then
    (kept, false)
  else (kept ++ [now], true)

------------------------------------------------------------
-- The Stages of a Rebuild
------------------------------------------------------------

inductive StageResult
  | next (stage : RebuildStage)
  | completed
  | failed
deriving DecidableEq, Repr

/- What the streamer knows when a stage of a rebuild ends. -/
structure StageContext where
  slotName : String
  isDatabaseDeleted : Bool
  isStorageCurrent : Bool
  isContextDone : Bool
  now : Time
deriving DecidableEq, Repr

/- Whether the slot is active, when the source can tell. -/
def isSlotActive
    (source : Source)
    (reply : Reply) : Option Bool :=
  if reply ≠ .delivered then none
  else
    match source.slot with
    | none => some false
    | some record =>
        if record.state.position.isNone then none
        else some record.state.isActive

/- One poll of `waitForSlotReleased`. -/
def pollSlotReleased
    (ctx : StageContext)
    (source : Source)
    (reply : Reply)
    (deadline : Time)
    (isTerminated : Bool) : StageResult :=
  if isSlotActive source reply = some false then
    .next (.dropping .inspecting)
  else if deadline < ctx.now then
    if isTerminated then .failed else .next .inspectingBackend
  else if ctx.isContextDone then .failed
  else .next (.waiting deadline isTerminated)

/- A slot held by a consumer that is not ours is refused. -/
def inspectBackend
    (ctx : StageContext)
    (source : Source)
    (reply : Reply) : StageResult :=
  let released : StageResult :=
    .next (.waiting (ctx.now + rebuildReceiverStopTimeout) true)
  if reply ≠ .delivered then .failed
  else
    match source.slot with
    | none => released
    | some record =>
        if record.state.position.isNone then .failed
        else if !record.state.isActive then released
        else if !isOwnedReceiverBackend record.state then
          .failed
        else .next .terminatingBackend

/-
  The transaction of the request first checks that the
  storage is the one the streamer was started for.
-/
def requestFull
    (ctx : StageContext)
    (source : Source)
    (reply : Reply) : Source × StageResult :=
  if ctx.isStorageCurrent then
    match reply with
    | .failed => (source, .failed)
    | .lost => (source.withFullRequested, .failed)
    | .delivered => (source.withFullRequested, .completed)
  else (source, .failed)

def dropStage : CallResult DropCall → StageResult
  | .calling next => .next (.dropping next)
  | .done => .next (.creating (.verifying .inspecting))
  | .failed _ => .failed

def createStage : CallResult CreateCall → StageResult
  | .calling next => .next (.creating next)
  | .done => .next .realigning
  | .failed _ => .failed

/-
  Whether a terminated backend was there is the source's
  answer, like the reply itself.
-/
def RebuildStage.advance
    (ctx : StageContext)
    (source : Source)
    (reply : Reply)
    (isBackendTerminated : Bool) :
    RebuildStage → Source × StageResult
  | .waiting deadline isTerminated =>
      (source,
        pollSlotReleased ctx source reply deadline isTerminated)
  | .inspectingBackend =>
      (source, inspectBackend ctx source reply)
  | .terminatingBackend =>
      (source,
        if reply = .delivered ∧ isBackendTerminated = true then
          .next
            (.waiting (ctx.now + rebuildReceiverStopTimeout)
              true)
        else .failed)
  | .dropping call =>
      let answer := call.advance ctx.slotName source reply
      (answer.1, dropStage answer.2)
  | .creating call =>
      let answer :=
        call.advance ctx.slotName ctx.isDatabaseDeleted source
          reply
      (answer.1, createStage answer.2)
  | .realigning => (source, .next .requestingFull)
  | .requestingFull => requestFull ctx source reply

------------------------------------------------------------
-- The Steps of a Streamer
------------------------------------------------------------

namespace StreamLoops

/-
  A tick looks at the slot and may ask for a rebuild.  A slot
  that is missing or cannot be inspected asks for nothing.
-/
def monitorTick
    (loops : StreamLoops)
    (spec : SlotSpec)
    (source : Source)
    (now : Time)
    (reply : Reply) : StreamLoops :=
  match source.slot with
  | none => loops
  | some record =>
      match record.state.position with
      | none => loops
      | some position =>
          if reply ≠ .delivered then loops
          else
            let sample : SlotBreakSample :=
              { state := record.state
                position := position
                walLagThresholdBytes :=
                  spec.walLagThresholdBytes
                receiverRunStartedAt :=
                  loops.receiverRunStartedAt
                observedAt := now }
            let verdict :=
              loops.classifier.recordSampleAndClassifyBreak
                sample
            { loops with
              classifier := verdict.1
              monitorWaits :=
                match verdict.2 with
                | .rebuild reason => some reason
                | _ => none }

/- What the supervision does when its receiver has ended. -/
def receiverExited
    (loops : StreamLoops)
    (exit : ReceiverExit)
    (ranFor : Duration)
    (isBastionReachable : Bool) : StreamLoops :=
  let loops := { loops with receiverRunStartedAt := none }
  match demoteFatalExitWhenBastionUnreachable exit
      isBastionReachable with
  | .ctxCancelled | .fatal =>
      { loops with isSupervising := false }
  | .internalRestart =>
      { loops with
        mismatchEscalator := {}
        failureEscalator := {} }
  | .resumeMismatch =>
      let escalation :=
        loops.mismatchEscalator.recordMismatchAndDecideEscalation
      { loops with
        mismatchEscalator := escalation.1
        isSupervisionWaiting := escalation.2 }
  | .retryable =>
      let decision :=
        loops.failureEscalator.recordExitAndDecideRetry ranFor
          isBastionReachable
      { loops with
        mismatchEscalator := {}
        failureEscalator := decision.1
        isSupervising := !decision.2 }

/- The reason with which a caller waits for the mutex. -/
def waitingReason
    (loops : StreamLoops) :
    RebuildCaller → Option WalBreakReason
  | .lagMonitor => loops.monitorWaits
  | .supervision =>
      if loops.isSupervisionWaiting then some .slotLost
      else none

def stopWaiting
    (loops : StreamLoops) : RebuildCaller → StreamLoops
  | .lagMonitor => { loops with monitorWaits := none }
  | .supervision =>
      { loops with isSupervisionWaiting := false }

/- A failed rebuild ends the supervision that asked for it. -/
def rebuildEnded
    (loops : StreamLoops)
    (caller : RebuildCaller)
    (isCompleted : Bool) : StreamLoops :=
  { loops with
    rebuild := none
    isSupervising :=
      loops.isSupervising &&
        (isCompleted || caller != .supervision) }

/- The caller has the mutex and is within the hourly cap. -/
def enterRebuild
    (loops : StreamLoops)
    (caller : RebuildCaller)
    (reason : WalBreakReason)
    (now : Time) : StreamLoops :=
  let attempt :=
    recordRebuildAttemptWithinCap loops.rebuildTimestamps now
  let loops :=
    { loops.stopWaiting caller with
      rebuildTimestamps := attempt.1 }
  if attempt.2 then
    { loops with
      rebuild :=
        some
          { caller := caller
            reason := reason
            stage :=
              .waiting (now + rebuildReceiverStopTimeout)
                false } }
  else loops.rebuildEnded caller false

end StreamLoops

namespace SlotState

def withLoops
    (s : SlotState)
    (streamer : SlotStreamer)
    (loops : StreamLoops) : SlotState :=
  { s with
    streamer := some { streamer with phase := .running loops } }

/- A failed start ends the streamer. -/
def startCalled
    (s : SlotState)
    (spec : SlotSpec)
    (streamer : SlotStreamer)
    (call : CreateCall)
    (reply : Reply) : SlotState :=
  let answer :=
    call.advance spec.slotName s.isDatabaseDeleted s.source
      reply
  { s with
    source := answer.1
    streamer :=
      match answer.2 with
      | .calling next =>
          some { streamer with phase := .starting next }
      | .done => some { streamer with phase := .running {} }
      | .failed _ => none }

/- The end of the supervision ends the context of all loops. -/
def stageContext
    (s : SlotState)
    (spec : SlotSpec)
    (streamer : SlotStreamer)
    (loops : StreamLoops) : StageContext :=
  { slotName := spec.slotName
    isDatabaseDeleted := s.isDatabaseDeleted
    isStorageCurrent :=
      decide (streamer.storageGeneration = s.storageGeneration)
    isContextDone :=
      streamer.isContextDone || !loops.isSupervising
    now := s.now }

def rebuildCalled
    (s : SlotState)
    (spec : SlotSpec)
    (streamer : SlotStreamer)
    (loops : StreamLoops)
    (rebuild : Rebuild)
    (reply : Reply)
    (isBackendTerminated : Bool) : SlotState :=
  let answer :=
    rebuild.stage.advance (s.stageContext spec streamer loops)
      s.source reply isBackendTerminated
  { s with source := answer.1 }.withLoops streamer
    (match answer.2 with
      | .next stage =>
          { loops with
            rebuild := some { rebuild with stage := stage } }
      | .completed => loops.rebuildEnded rebuild.caller true
      | .failed => loops.rebuildEnded rebuild.caller false)

end SlotState

------------------------------------------------------------
-- The System
------------------------------------------------------------

/-
  Everything that can happen to the slot of a database and to
  the streamer of it.
-/
inductive SlotAction
  | pass (later : Time)
  | changeSlot (state : Slot)
  | advanceSource (currentLSN : Option LSN)
  | removeSlot
  | deleteDatabase
  | switchStorage
  | requestFullBackup
  | startStreamer
  | startCall (reply : Reply)
  | monitorTick (reply : Reply)
  | receiverStarts
  | receiverExits
      (exit : ReceiverExit)
      (ranFor : Duration)
      (isBastionReachable : Bool)
  | enterRebuild (caller : RebuildCaller)
  | rebuildCall (reply : Reply) (isBackendTerminated : Bool)
  | cancelStreamer
  | supervisionStops
  | streamerEnds
  | processCrashes
deriving DecidableEq, Repr

namespace SlotState

/- What happens outside of the streamer's loops. -/
def stepOutside
    (s : SlotState) : SlotAction → Option SlotState
  | .pass later =>
      if s.now ≤ later then some { s with now := later }
      else none
  | .changeSlot state =>
      s.source.slot.map fun record =>
        { s with
          source :=
            { s.source with
              slot := some { record with state := state } } }
  | .advanceSource currentLSN =>
      some
        { s with
          source := { s.source with currentLSN := currentLSN } }
  | .removeSlot =>
      s.source.slot.map fun _ =>
        { s with source := s.source.withoutSlot }
  | .deleteDatabase => some { s with isDatabaseDeleted := true }
  | .switchStorage =>
      some
        { s with storageGeneration := s.storageGeneration + 1 }
  | .requestFullBackup =>
      some { s with source := s.source.withFullRequested }
  | .startStreamer =>
      if s.streamer.isNone then
        some
          { s with
            streamer :=
              some
                { storageGeneration := s.storageGeneration
                  isContextDone := false
                  phase := .starting (.verifying .inspecting) } }
      else none
  | .cancelStreamer =>
      s.streamer.map fun streamer =>
        { s with
          streamer :=
            some { streamer with isContextDone := true } }
  | .processCrashes => some { s with streamer := none }
  | _ => none

/- What the loops of a running streamer do. -/
def stepRunning
    (s : SlotState)
    (spec : SlotSpec)
    (streamer : SlotStreamer)
    (loops : StreamLoops) : SlotAction → Option SlotState
  | .monitorTick reply =>
      if loops.monitorWaits.isNone ∧
          loops.isRebuildingFor .lagMonitor = false then
        some
          (s.withLoops streamer
            (loops.monitorTick spec s.source s.now reply))
      else none
  | .receiverStarts =>
      if loops.isSupervising ∧ loops.rebuild.isNone ∧
          loops.isSupervisionWaiting = false ∧
          loops.receiverRunStartedAt.isNone then
        some
          (s.withLoops streamer
            { loops with receiverRunStartedAt := some s.now })
      else none
  | .receiverExits exit ranFor isBastionReachable =>
      if loops.receiverRunStartedAt.isSome then
        some
          (s.withLoops streamer
            (loops.receiverExited exit ranFor
              isBastionReachable))
      else none
  | .enterRebuild caller =>
      match loops.rebuild, loops.waitingReason caller with
      | none, some reason =>
          some
            (s.withLoops streamer
              (loops.enterRebuild caller reason s.now))
      | _, _ => none
  | .rebuildCall reply isBackendTerminated =>
      loops.rebuild.map fun rebuild =>
        s.rebuildCalled spec streamer loops rebuild reply
          isBackendTerminated
  | .supervisionStops =>
      if streamer.isContextDone ∧
          loops.receiverRunStartedAt.isNone ∧
          loops.isSupervisionWaiting = false ∧
          loops.isRebuildingFor .supervision = false then
        some
          (s.withLoops streamer
            { loops with isSupervising := false })
      else none
  | .streamerEnds =>
      if loops.isSupervising = false ∧
          loops.monitorWaits.isNone ∧
          loops.rebuild.isNone then
        some { s with streamer := none }
      else none
  | _ => none

/- What a streamer does, while it starts and afterwards. -/
def stepStreamer
    (s : SlotState)
    (spec : SlotSpec)
    (action : SlotAction) : Option SlotState :=
  match s.streamer with
  | none => none
  | some streamer =>
      match streamer.phase with
      | .running loops =>
          s.stepRunning spec streamer loops action
      | .starting call =>
          match action with
          | .startCall reply =>
              some (s.startCalled spec streamer call reply)
          | _ => none

def step
    (spec : SlotSpec)
    (s : SlotState)
    (action : SlotAction) : Option SlotState :=
  (s.stepOutside action).or (s.stepStreamer spec action)

end SlotState

/- Before the first streamer no slot has been dropped yet. -/
def slotSystem
    (spec : SlotSpec) :
    TransitionSystem SlotState SlotAction where
  initial := fun s =>
    s.streamer = none ∧ s.source.hasBeenDropped = false ∧
      ∀ record ∈ s.source.slot, record.isRecreated = false
  step := SlotState.step spec

end WalStreaming

end Databasus
