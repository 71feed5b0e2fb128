import Databasus.WalStreaming.SlotRebuild

/-
  Whether a slot that follows a dropped one gets an anchor.

  A rebuild requests the full backup as its last step.  A
  rebuild that fails after it has created the slot, and a
  start that finds its slot missing, leave a new slot behind
  for which nobody requests anything.

  Main declarations:
    * `Source.owesAnchor`, `NewSlotAnchored`
    * `KeepsAnchor`
    * `step_anchored_iff`
    * `new_slot_anchored`
    * `anchor_arrives`
-/

------------------------------------------------------------
-- Slots That Owe an Anchor
------------------------------------------------------------

namespace Databasus

namespace WalStreaming

open Foundation

namespace Source

/- The slot follows a dropped one and no full was requested. -/
def owesAnchor
    (source : Source) : Bool :=
  source.slot.any fun record =>
    record.isRecreated && !record.isFullRequested

@[simp]
theorem owesAnchor_withFreshSlot
    (source : Source) :
    source.withFreshSlot.owesAnchor =
      source.hasBeenDropped := by
  simp [owesAnchor, withFreshSlot]

@[simp]
theorem owesAnchor_withFullRequested
    (source : Source) :
    source.withFullRequested.owesAnchor = false := by
  cases hSlot : source.slot with
  | none => simp [owesAnchor, withFullRequested, hSlot]
  | some record => simp [owesAnchor, withFullRequested, hSlot]

end Source

theorem SlotChange.owesAnchor
    {before after : Source}
    (hChange : SlotChange before after)
    (hBefore : before.owesAnchor = false) :
    after.owesAnchor = false := by
  cases hChange with
  | same => exact hBefore
  | dropped => rfl

/- The slot exists anew and the request is still to come. -/
def RebuildStage.isAnchoring : RebuildStage → Bool
  | .creating .checkingDatabase => true
  | .realigning => true
  | .requestingFull => true
  | _ => false

/-
  A slot that owes an anchor is the work of a rebuild which
  has yet to request the full backup.
-/
def Anchored
    (isDatabaseDeleted : Bool)
    (source : Source)
    (stage : Option RebuildStage) : Prop :=
  isDatabaseDeleted = false → source.owesAnchor = true →
    stage.any RebuildStage.isAnchoring = true

instance
    (isDatabaseDeleted : Bool)
    (source : Source)
    (stage : Option RebuildStage) :
    Decidable (Anchored isDatabaseDeleted source stage) := by
  unfold Anchored
  infer_instance

def NewSlotAnchored
    (s : SlotState) : Prop :=
  Anchored s.isDatabaseDeleted s.source s.rebuildStage

instance
    (s : SlotState) :
    Decidable (NewSlotAnchored s) := by
  unfold NewSlotAnchored
  infer_instance

/-
  Once the slot has been created, the check of the database
  is answered and the request takes effect.
-/
def RebuildStage.KeepsAnchor
    (isStorageCurrent : Bool)
    (source : Source)
    (reply : Reply) : RebuildStage → Prop
  | .creating (.verifying .creating) =>
      source.slot = none → source.hasBeenDropped = true →
        reply ≠ .lost
  | .creating .checkingDatabase =>
      source.owesAnchor = true → reply = .delivered
  | .requestingFull =>
      source.owesAnchor = true →
        isStorageCurrent = true ∧ reply ≠ .failed
  | _ => True

instance
    (isStorageCurrent : Bool)
    (source : Source)
    (reply : Reply)
    (stage : RebuildStage) :
    Decidable
      (stage.KeepsAnchor isStorageCurrent source reply) := by
  unfold RebuildStage.KeepsAnchor
  split <;> infer_instance

theorem anchored_of_not_owes
    {isDatabaseDeleted : Bool}
    {source : Source}
    {stage : Option RebuildStage}
    (hOwes :
      isDatabaseDeleted = false → source.owesAnchor = false) :
    Anchored isDatabaseDeleted source stage := by
  intro hPresent hOwed
  rw [hOwes hPresent] at hOwed
  cases hOwed

theorem anchored_of_anchoring
    {isDatabaseDeleted : Bool}
    {source : Source}
    {stage : RebuildStage}
    (hAnchoring : stage.isAnchoring = true) :
    Anchored isDatabaseDeleted source (some stage) :=
  fun _ _ => hAnchoring

/- Without a rebuild on its way nothing may be owed. -/
theorem anchored_iff_not_owes
    {isDatabaseDeleted : Bool}
    {source : Source}
    {stage : Option RebuildStage}
    (hStage :
      stage.any RebuildStage.isAnchoring = false) :
    Anchored isDatabaseDeleted source stage ↔
      (isDatabaseDeleted = false →
        source.owesAnchor = false) := by
  refine ⟨?_, anchored_of_not_owes⟩
  intro hAnchored hPresent
  rw [← Bool.not_eq_true]
  intro hOwed
  rw [hAnchored hPresent hOwed] at hStage
  cases hStage

def StageResult.stage : StageResult → Option RebuildStage
  | .next stage => some stage
  | .completed => none
  | .failed => none

------------------------------------------------------------
-- A Stage and Its Anchor
------------------------------------------------------------

variable {ctx : StageContext}
variable {source : Source}
variable {reply : Reply}
variable {isBackendTerminated : Bool}

/- Dropping the slot of a rebuild never owes an anchor. -/
theorem dropping_anchored
    {call : DropCall}
    (hOwes :
      ctx.isDatabaseDeleted = false →
        source.owesAnchor = false) :
    Anchored ctx.isDatabaseDeleted
      ((RebuildStage.dropping call).advance ctx source reply
        isBackendTerminated).1
      ((RebuildStage.dropping call).advance ctx source reply
        isBackendTerminated).2.stage :=
  anchored_of_not_owes fun hPresent =>
    (DropCall.advance_change ctx.slotName source reply
      call).owesAnchor (hOwes hPresent)

/- A creation whose reply is lost leaves its slot behind. -/
theorem creates_anchored_iff
    {call : CreateCall}
    (hCreates : call.Creates source reply) :
    Anchored ctx.isDatabaseDeleted
        ((RebuildStage.creating call).advance ctx source reply
          isBackendTerminated).1
        ((RebuildStage.creating call).advance ctx source reply
          isBackendTerminated).2.stage ↔
      (ctx.isDatabaseDeleted = false →
        (RebuildStage.creating call).KeepsAnchor
          ctx.isStorageCurrent source reply) := by
  simp only [RebuildStage.advance,
    CreateCall.advance_creates hCreates]
  rcases hCreates with ⟨rfl, hReply, hSlot⟩
  cases reply with
  | failed => exact absurd rfl hReply
  | lost =>
      rw [anchored_iff_not_owes rfl]
      simp [RebuildStage.KeepsAnchor, hSlot]
  | delivered =>
      simp [RebuildStage.KeepsAnchor, createStage,
        StageResult.stage, Anchored, RebuildStage.isAnchoring]

theorem checkingDatabase_anchored_iff :
    Anchored ctx.isDatabaseDeleted
        ((RebuildStage.creating .checkingDatabase).advance ctx
          source reply isBackendTerminated).1
        ((RebuildStage.creating .checkingDatabase).advance ctx
          source reply isBackendTerminated).2.stage ↔
      (ctx.isDatabaseDeleted = false →
        (RebuildStage.creating .checkingDatabase).KeepsAnchor
          ctx.isStorageCurrent source reply) := by
  by_cases hReply : reply = .delivered
  · subst hReply
    simp [RebuildStage.advance, CreateCall.advance,
      CreateCall.checkDatabase, RebuildStage.KeepsAnchor,
      Anchored]
    intro hPresent _
    simp [hPresent, createStage, StageResult.stage,
      RebuildStage.isAnchoring]
  · simp [RebuildStage.advance, CreateCall.advance,
      CreateCall.checkDatabase, RebuildStage.KeepsAnchor,
      hReply, Anchored, createStage, StageResult.stage]

theorem requestingFull_anchored_iff :
    Anchored ctx.isDatabaseDeleted
        (RebuildStage.requestingFull.advance ctx source reply
          isBackendTerminated).1
        (RebuildStage.requestingFull.advance ctx source reply
          isBackendTerminated).2.stage ↔
      (ctx.isDatabaseDeleted = false →
        RebuildStage.requestingFull.KeepsAnchor
          ctx.isStorageCurrent source reply) := by
  by_cases hCurrent : ctx.isStorageCurrent = true
  · cases reply <;>
      simp [RebuildStage.advance, requestFull, hCurrent,
        RebuildStage.KeepsAnchor, Anchored, StageResult.stage]
  · simp [RebuildStage.advance, requestFull, hCurrent,
      RebuildStage.KeepsAnchor, Anchored, StageResult.stage]

variable (ctx) in
/-
  One call of a rebuild keeps the slot anchored exactly when
  it meets its condition.
-/
theorem advance_anchored_iff
    {stage : RebuildStage}
    (hAnchored :
      Anchored ctx.isDatabaseDeleted source (some stage))
    (hDeleted :
      ∀ call, stage = .creating (.droppingSlot call) →
        ctx.isDatabaseDeleted = true) :
    Anchored ctx.isDatabaseDeleted
        (stage.advance ctx source reply
          isBackendTerminated).1
        (stage.advance ctx source reply
          isBackendTerminated).2.stage ↔
      (ctx.isDatabaseDeleted = false →
        stage.KeepsAnchor ctx.isStorageCurrent source
          reply) := by
  have hFree
      (hStage : stage.isAnchoring = false) :
      ctx.isDatabaseDeleted = false →
        source.owesAnchor = false := by
    have hNone :
        (some stage).any RebuildStage.isAnchoring = false :=
      hStage
    exact (anchored_iff_not_owes hNone).mp hAnchored
  cases stage with
  | waiting deadline isTerminated =>
      exact iff_of_true (anchored_of_not_owes (hFree rfl))
        fun _ => trivial
  | inspectingBackend =>
      exact iff_of_true (anchored_of_not_owes (hFree rfl))
        fun _ => trivial
  | terminatingBackend =>
      exact iff_of_true (anchored_of_not_owes (hFree rfl))
        fun _ => trivial
  | dropping call =>
      exact iff_of_true (dropping_anchored (hFree rfl))
        fun _ => trivial
  | realigning =>
      exact iff_of_true (anchored_of_anchoring rfl)
        fun _ => trivial
  | requestingFull => exact requestingFull_anchored_iff
  | creating call =>
      by_cases hCreates : call.Creates source reply
      · exact creates_anchored_iff hCreates
      · have hChange :=
          CreateCall.advance_change ctx.slotName
            ctx.isDatabaseDeleted hCreates
        cases call with
        | checkingDatabase =>
            exact checkingDatabase_anchored_iff
        | droppingSlot call =>
            have hGone := hDeleted call rfl
            refine iff_of_true ?_ fun _ => trivial
            intro hPresent
            rw [hGone] at hPresent
            cases hPresent
        | verifying call =>
            refine iff_of_true
              (anchored_of_not_owes fun hPresent =>
                hChange.owesAnchor (hFree rfl hPresent)) ?_
            intro _
            cases call with
            | inspecting => trivial
            | creating =>
                intro hSlot _ hLost
                subst hLost
                exact hCreates ⟨rfl, nofun, hSlot⟩

------------------------------------------------------------
-- Steps
------------------------------------------------------------

namespace SlotState

variable {s : SlotState}
variable {streamer : SlotStreamer}

def startingCall
    (s : SlotState) : Option CreateCall :=
  match s.streamer with
  | none => none
  | some streamer =>
      match streamer.phase with
      | .starting call => some call
      | .running _ => none

def isStorageCurrent
    (s : SlotState) : Bool :=
  s.streamer.any fun streamer =>
    decide (streamer.storageGeneration = s.storageGeneration)

theorem rebuildStage_of_running
    {loops : StreamLoops}
    (hStreamer : s.streamer = some streamer)
    (hPhase : streamer.phase = .running loops) :
    s.rebuildStage = loops.rebuild.map Rebuild.stage := by
  simp [rebuildStage, hStreamer, hPhase]

theorem rebuildStage_of_starting
    {call : CreateCall}
    (hStreamer : s.streamer = some streamer)
    (hPhase : streamer.phase = .starting call) :
    s.rebuildStage = none ∧ s.startingCall = some call := by
  simp [rebuildStage, startingCall, hStreamer, hPhase]

@[simp]
theorem rebuildStage_withLoops
    (s : SlotState)
    (streamer : SlotStreamer)
    (loops : StreamLoops) :
    (s.withLoops streamer loops).rebuildStage =
      loops.rebuild.map Rebuild.stage := rfl

end SlotState

/-
  No start recreates a slot that had been dropped, no call of
  a rebuild misses its condition, and no process dies while a
  slot still owes its anchor.
-/
def KeepsAnchor
    (s : SlotState) : SlotAction → Prop
  | .startCall reply =>
      s.isDatabaseDeleted = false →
        ∀ call ∈ s.startingCall,
          call.Creates s.source reply →
            s.source.hasBeenDropped = false
  | .rebuildCall reply _ =>
      s.isDatabaseDeleted = false →
        ∀ stage ∈ s.rebuildStage,
          stage.KeepsAnchor s.isStorageCurrent s.source reply
  | .processCrashes =>
      s.isDatabaseDeleted = false →
        s.source.owesAnchor = false
  | _ => True

instance
    (s : SlotState)
    (action : SlotAction) :
    Decidable (KeepsAnchor s action) := by
  unfold KeepsAnchor
  split <;> infer_instance

/- A step that creates no slot and ends no rebuild. -/
structure QuietStep
    (s s' : SlotState) : Prop where
  deleted :
    s.isDatabaseDeleted = true → s'.isDatabaseDeleted = true
  owes :
    s.source.owesAnchor = false →
      s'.source.owesAnchor = false
  stage :
    s'.rebuildStage = s.rebuildStage ∨
      s.rebuildStage = none ∧
        ∃ deadline isTerminated,
          s'.rebuildStage =
            some (.waiting deadline isTerminated)

namespace QuietStep

variable {s s' : SlotState}

theorem anchored
    (hQuiet : QuietStep s s')
    (hAnchored : NewSlotAnchored s) :
    NewSlotAnchored s' := by
  have hPresent
      (hPresent' : s'.isDatabaseDeleted = false) :
      s.isDatabaseDeleted = false := by
    rw [← Bool.not_eq_true] at hPresent' ⊢
    exact fun hGone => hPresent' (hQuiet.deleted hGone)
  have hOwed
      (hOwed' : s'.source.owesAnchor = true) :
      s.source.owesAnchor = true := by
    rw [← Bool.not_eq_false] at hOwed' ⊢
    exact fun hFree => hOwed' (hQuiet.owes hFree)
  intro hPresent' hOwed'
  have hWay := hAnchored (hPresent hPresent') (hOwed hOwed')
  rcases hQuiet.stage with hSame | ⟨hNone, _⟩
  · rw [hSame]
    exact hWay
  · rw [hNone] at hWay
    cases hWay

theorem dropping
    (hQuiet : QuietStep s s')
    (hDropping :
      ∀ call,
        s.rebuildStage =
            some (.creating (.droppingSlot call)) →
          s.isDatabaseDeleted = true)
    (call : DropCall)
    (hStage :
      s'.rebuildStage =
        some (.creating (.droppingSlot call))) :
    s'.isDatabaseDeleted = true := by
  rcases hQuiet.stage with hSame | ⟨_, deadline, _, hWaiting⟩
  · rw [hSame] at hStage
    exact hQuiet.deleted (hDropping call hStage)
  · rw [hWaiting] at hStage
    cases hStage

end QuietStep

/- A step of the loops that leaves source and rebuild alone. -/
theorem quiet_withLoops
    {s : SlotState}
    {streamer : SlotStreamer}
    {loops loops' : StreamLoops}
    (hStreamer : s.streamer = some streamer)
    (hPhase : streamer.phase = .running loops)
    (hRebuild : loops'.rebuild = loops.rebuild) :
    QuietStep s (s.withLoops streamer loops') := by
  refine
    { deleted := id
      owes := id
      stage := Or.inl ?_ }
  rw [SlotState.rebuildStage_withLoops, hRebuild,
    SlotState.rebuildStage_of_running hStreamer hPhase]

theorem monitorTick_rebuild
    (loops : StreamLoops)
    (spec : SlotSpec)
    (source : Source)
    (now : Time)
    (reply : Reply) :
    (loops.monitorTick spec source now reply).rebuild =
      loops.rebuild := by
  unfold StreamLoops.monitorTick
  split
  · rfl
  · split
    · rfl
    · split <;> rfl

theorem receiverExited_rebuild
    (loops : StreamLoops)
    (exit : ReceiverExit)
    (ranFor : Duration)
    (isBastionReachable : Bool) :
    (loops.receiverExited exit ranFor
        isBastionReachable).rebuild = loops.rebuild := by
  unfold StreamLoops.receiverExited
  dsimp only
  split <;> rfl

/- The mutex is entered at the first stage, or not at all. -/
theorem enterRebuild_rebuild
    (loops : StreamLoops)
    (caller : RebuildCaller)
    (reason : WalBreakReason)
    (now : Time) :
    (loops.enterRebuild caller reason now).rebuild = none ∨
      (loops.enterRebuild caller reason now).rebuild =
        some
          { caller := caller
            reason := reason
            stage :=
              .waiting (now + rebuildReceiverStopTimeout)
                false } := by
  unfold StreamLoops.enterRebuild
  dsimp only
  split
  · exact Or.inr rfl
  · exact Or.inl rfl

------------------------------------------------------------
-- What a Step Does
------------------------------------------------------------

inductive SlotStep
    (spec : SlotSpec)
    (s : SlotState) : SlotAction → SlotState → Prop
  | quiet {action : SlotAction} {s' : SlotState} :
      KeepsAnchor s action →
      QuietStep s s' →
      SlotStep spec s action s'
  | crashed :
      SlotStep spec s .processCrashes
        { s with streamer := none }
  | startCalled
      {streamer : SlotStreamer}
      {call : CreateCall}
      {reply : Reply} :
      s.streamer = some streamer →
      streamer.phase = .starting call →
      SlotStep spec s (.startCall reply)
        (s.startCalled spec streamer call reply)
  | rebuildCalled
      {streamer : SlotStreamer}
      {loops : StreamLoops}
      {rebuild : Rebuild}
      {reply : Reply}
      {isBackendTerminated : Bool} :
      s.streamer = some streamer →
      streamer.phase = .running loops →
      loops.rebuild = some rebuild →
      SlotStep spec s (.rebuildCall reply isBackendTerminated)
        (s.rebuildCalled spec streamer loops rebuild reply
          isBackendTerminated)

variable {spec : SlotSpec}
variable {s s' : SlotState}
variable {action : SlotAction}

/- A step whose streamer stays what it is, or stays away. -/
theorem quiet_of_source
    (hOwes :
      s.source.owesAnchor = false →
        source.owesAnchor = false) :
    QuietStep s { s with source := source } :=
  { deleted := id
    owes := hOwes
    stage := Or.inl rfl }

theorem slotStep_outside
    (hStep : s.stepOutside action = some s') :
    SlotStep spec s action s' := by
  cases action with
  | pass later =>
      simp only [SlotState.stepOutside] at hStep
      split at hStep
      · cases hStep
        exact .quiet trivial ⟨id, id, Or.inl rfl⟩
      · cases hStep
  | changeSlot state =>
      simp only [SlotState.stepOutside,
        Option.map_eq_some_iff] at hStep
      rcases hStep with ⟨record, hSlot, rfl⟩
      refine .quiet trivial (quiet_of_source ?_)
      intro hOwes
      simp only [Source.owesAnchor, hSlot] at hOwes
      exact hOwes
  | advanceSource currentLSN =>
      cases hStep
      exact .quiet trivial (quiet_of_source id)
  | removeSlot =>
      simp only [SlotState.stepOutside,
        Option.map_eq_some_iff] at hStep
      rcases hStep with ⟨record, _, rfl⟩
      exact .quiet trivial (quiet_of_source fun _ => rfl)
  | deleteDatabase =>
      cases hStep
      exact .quiet trivial ⟨fun _ => rfl, id, Or.inl rfl⟩
  | switchStorage =>
      cases hStep
      exact .quiet trivial ⟨id, id, Or.inl rfl⟩
  | requestFullBackup =>
      cases hStep
      exact .quiet trivial
        (quiet_of_source fun _ =>
          s.source.owesAnchor_withFullRequested)
  | startStreamer =>
      simp only [SlotState.stepOutside,
        Option.isNone_iff_eq_none] at hStep
      split at hStep
      · rename_i hNone
        cases hStep
        refine .quiet trivial ⟨id, id, Or.inl ?_⟩
        simp [SlotState.rebuildStage, hNone]
      · cases hStep
  | cancelStreamer =>
      simp only [SlotState.stepOutside,
        Option.map_eq_some_iff] at hStep
      rcases hStep with ⟨streamer, hStreamer, rfl⟩
      refine .quiet trivial ⟨id, id, Or.inl ?_⟩
      simp [SlotState.rebuildStage, hStreamer]
  | processCrashes =>
      cases hStep
      exact .crashed
  | _ => cases hStep

theorem slotStep_running
    {streamer : SlotStreamer}
    {loops : StreamLoops}
    (hStreamer : s.streamer = some streamer)
    (hPhase : streamer.phase = .running loops)
    (hStep :
      s.stepRunning spec streamer loops action = some s') :
    SlotStep spec s action s' := by
  have hStage :=
    SlotState.rebuildStage_of_running hStreamer hPhase
  cases action with
  | monitorTick reply =>
      simp only [SlotState.stepRunning] at hStep
      split at hStep
      · cases hStep
        exact .quiet trivial
          (quiet_withLoops hStreamer hPhase
            (monitorTick_rebuild loops spec s.source s.now
              reply))
      · cases hStep
  | receiverStarts =>
      simp only [SlotState.stepRunning] at hStep
      split at hStep
      · cases hStep
        exact .quiet trivial
          (quiet_withLoops hStreamer hPhase rfl)
      · cases hStep
  | receiverExits exit ranFor isBastionReachable =>
      simp only [SlotState.stepRunning] at hStep
      split at hStep
      · cases hStep
        exact .quiet trivial
          (quiet_withLoops hStreamer hPhase
            (receiverExited_rebuild loops exit ranFor
              isBastionReachable))
      · cases hStep
  | enterRebuild caller =>
      simp only [SlotState.stepRunning] at hStep
      split at hStep
      · rename_i reason hNone _
        cases hStep
        refine .quiet trivial ⟨id, id, ?_⟩
        rw [SlotState.rebuildStage_withLoops, hStage, hNone]
        rcases enterRebuild_rebuild loops caller reason s.now
          with hRefused | hEntered
        · rw [hRefused]
          exact Or.inl rfl
        · rw [hEntered]
          exact Or.inr ⟨rfl, _, _, rfl⟩
      · cases hStep
  | rebuildCall reply isBackendTerminated =>
      simp only [SlotState.stepRunning,
        Option.map_eq_some_iff] at hStep
      rcases hStep with ⟨rebuild, hRebuild, rfl⟩
      exact .rebuildCalled hStreamer hPhase hRebuild
  | supervisionStops =>
      simp only [SlotState.stepRunning] at hStep
      split at hStep
      · cases hStep
        exact .quiet trivial
          (quiet_withLoops hStreamer hPhase rfl)
      · cases hStep
  | streamerEnds =>
      simp only [SlotState.stepRunning,
        Option.isNone_iff_eq_none] at hStep
      split at hStep
      · rename_i hEnded
        cases hStep
        refine .quiet trivial ⟨id, id, Or.inl ?_⟩
        rw [hStage, hEnded.2.2]
        rfl
      · cases hStep
  | _ => cases hStep

theorem slotStep_of_step
    (hStep : SlotState.step spec s action = some s') :
    SlotStep spec s action s' := by
  rw [SlotState.step, Option.or_eq_some_iff] at hStep
  rcases hStep with hOutside | ⟨_, hInside⟩
  · exact slotStep_outside hOutside
  · unfold SlotState.stepStreamer at hInside
    split at hInside
    · cases hInside
    · rename_i streamer hStreamer
      split at hInside
      · rename_i loops hPhase
        exact slotStep_running hStreamer hPhase hInside
      · rename_i call hPhase
        split at hInside
        · cases hInside
          exact .startCalled hStreamer hPhase
        · cases hInside

------------------------------------------------------------
-- Runs
------------------------------------------------------------

variable {streamer : SlotStreamer}

/- Only a deleted database has its new slot dropped again. -/
structure SlotInvariant
    (s : SlotState) : Prop where
  anchored : NewSlotAnchored s
  dropping :
    ∀ call,
      s.rebuildStage =
          some (.creating (.droppingSlot call)) →
        s.isDatabaseDeleted = true

variable {spec : SlotSpec}
variable {s s' : SlotState}
variable {action : SlotAction}

@[simp]
theorem rebuildStage_startCalled
    (streamer : SlotStreamer)
    (call : CreateCall)
    (reply : Reply) :
    (s.startCalled spec streamer call reply).rebuildStage =
      none := by
  unfold SlotState.startCalled SlotState.rebuildStage
  dsimp only
  cases (call.advance spec.slotName s.isDatabaseDeleted
    s.source reply).2 <;> rfl

@[simp]
theorem rebuildStage_rebuildCalled
    (streamer : SlotStreamer)
    (loops : StreamLoops)
    (rebuild : Rebuild)
    (reply : Reply)
    (isBackendTerminated : Bool) :
    (s.rebuildCalled spec streamer loops rebuild reply
        isBackendTerminated).rebuildStage =
      (rebuild.stage.advance
        (s.stageContext spec streamer loops) s.source reply
        isBackendTerminated).2.stage := by
  unfold SlotState.rebuildCalled
  dsimp only
  rw [SlotState.rebuildStage_withLoops]
  cases (rebuild.stage.advance
    (s.stageContext spec streamer loops) s.source reply
    isBackendTerminated).2 <;> rfl

/- A start may create the slot only for the first time. -/
theorem startCalled_anchored_iff
    {call : CreateCall}
    (hStreamer : s.streamer = some streamer)
    (hPhase : streamer.phase = .starting call)
    (hAnchored : NewSlotAnchored s) :
    NewSlotAnchored (s.startCalled spec streamer call reply) ↔
      KeepsAnchor s (.startCall reply) := by
  rcases SlotState.rebuildStage_of_starting hStreamer hPhase
    with ⟨hStage, hCall⟩
  unfold NewSlotAnchored at hAnchored ⊢
  rw [hStage, anchored_iff_not_owes rfl] at hAnchored
  rw [rebuildStage_startCalled, anchored_iff_not_owes rfl]
  simp only [KeepsAnchor, hCall, Option.mem_def,
    Option.some.injEq, forall_eq']
  by_cases hCreates : call.Creates s.source reply
  · have hSource :
        (s.startCalled spec streamer call reply).source =
          s.source.withFreshSlot := by
      simp [SlotState.startCalled,
        CreateCall.advance_creates hCreates]
    rw [hSource, Source.owesAnchor_withFreshSlot]
    exact
      ⟨fun hFree hPresent _ => hFree hPresent,
        fun hKeeps hPresent => hKeeps hPresent hCreates⟩
  · have hChange :=
      CreateCall.advance_change spec.slotName
        s.isDatabaseDeleted hCreates
    refine iff_of_true ?_ fun _ hCreated =>
      absurd hCreated hCreates
    intro hPresent
    exact hChange.owesAnchor (hAnchored hPresent)

theorem rebuildCalled_anchored_iff
    {loops : StreamLoops}
    {rebuild : Rebuild}
    (hStreamer : s.streamer = some streamer)
    (hPhase : streamer.phase = .running loops)
    (hRebuild : loops.rebuild = some rebuild)
    (hInvariant : SlotInvariant s) :
    NewSlotAnchored
        (s.rebuildCalled spec streamer loops rebuild reply
          isBackendTerminated) ↔
      KeepsAnchor s
        (.rebuildCall reply isBackendTerminated) := by
  have hStage : s.rebuildStage = some rebuild.stage := by
    rw [SlotState.rebuildStage_of_running hStreamer hPhase,
      hRebuild]
    rfl
  have hCurrent :
      s.isStorageCurrent =
        decide
          (streamer.storageGeneration =
            s.storageGeneration) := by
    simp [SlotState.isStorageCurrent, hStreamer]
  have hAnchored := hInvariant.anchored
  have hDropping := hInvariant.dropping
  unfold NewSlotAnchored at hAnchored ⊢
  rw [hStage] at hAnchored hDropping
  rw [rebuildStage_rebuildCalled]
  simp only [KeepsAnchor, hStage, Option.mem_def,
    Option.some.injEq, forall_eq', hCurrent]
  exact
    advance_anchored_iff
      (s.stageContext spec streamer loops) hAnchored
      fun call hCall => hDropping call (congrArg some hCall)

/-
  Where the slot is anchored, a step keeps it so exactly when
  it meets its condition.
-/
theorem step_anchored_iff
    (hInvariant : SlotInvariant s)
    (hStep : SlotState.step spec s action = some s') :
    NewSlotAnchored s' ↔ KeepsAnchor s action := by
  cases slotStep_of_step hStep with
  | quiet hKeeps hQuiet =>
      exact
        iff_of_true (hQuiet.anchored hInvariant.anchored) hKeeps
  | crashed => exact anchored_iff_not_owes rfl
  | startCalled hStreamer hPhase =>
      exact
        startCalled_anchored_iff hStreamer hPhase
          hInvariant.anchored
  | rebuildCalled hStreamer hPhase hRebuild =>
      exact
        rebuildCalled_anchored_iff hStreamer hPhase hRebuild
          hInvariant

/- The stage after the check of a database that is present. -/
theorem advance_droppingSlot
    (ctx : StageContext)
    {stage : RebuildStage}
    {dropCall : DropCall}
    (hDropping :
      ∀ call, stage = .creating (.droppingSlot call) →
        ctx.isDatabaseDeleted = true)
    (hStage :
      (stage.advance ctx source reply
          isBackendTerminated).2.stage =
        some (.creating (.droppingSlot dropCall))) :
    ctx.isDatabaseDeleted = true := by
  cases stage with
  | waiting deadline isTerminated =>
      simp only [RebuildStage.advance, pollSlotReleased]
        at hStage
      split at hStage
      · cases hStage
      · split at hStage
        · split at hStage <;> cases hStage
        · split at hStage <;> cases hStage
  | inspectingBackend =>
      simp only [RebuildStage.advance, inspectBackend]
        at hStage
      split at hStage
      · cases hStage
      · split at hStage
        · cases hStage
        · split at hStage
          · cases hStage
          · split at hStage
            · cases hStage
            · split at hStage <;> cases hStage
  | terminatingBackend =>
      simp only [RebuildStage.advance] at hStage
      split at hStage <;> cases hStage
  | dropping call =>
      simp only [RebuildStage.advance, dropStage] at hStage
      split at hStage <;> cases hStage
  | realigning => cases hStage
  | requestingFull =>
      simp only [RebuildStage.advance, requestFull] at hStage
      split at hStage
      · cases reply <;> cases hStage
      · cases hStage
  | creating call =>
      simp only [RebuildStage.advance, createStage] at hStage
      split at hStage
      · rename_i next hNext
        cases hStage
        rcases CreateCall.advance_droppingSlot hNext with
          hGone | ⟨earlier, rfl⟩
        · exact hGone
        · exact hDropping earlier rfl
      · cases hStage
      · cases hStage

theorem slotInvariant_step
    (hInvariant : SlotInvariant s)
    (hKeeps : KeepsAnchor s action)
    (hStep : SlotState.step spec s action = some s') :
    SlotInvariant s' := by
  refine
    { anchored :=
        (step_anchored_iff hInvariant hStep).mpr hKeeps
      dropping := ?_ }
  cases slotStep_of_step hStep with
  | quiet _ hQuiet => exact hQuiet.dropping hInvariant.dropping
  | crashed =>
      intro call hStage
      cases hStage
  | startCalled _ _ =>
      intro call hStage
      rw [rebuildStage_startCalled] at hStage
      cases hStage
  | rebuildCalled hStreamer hPhase hRebuild =>
      intro call hStage
      rw [rebuildStage_rebuildCalled] at hStage
      refine
        advance_droppingSlot
          (s.stageContext spec _ _) ?_ hStage
      intro earlier hEarlier
      refine hInvariant.dropping earlier ?_
      rw [SlotState.rebuildStage_of_running hStreamer hPhase,
        hRebuild]
      exact congrArg some hEarlier

theorem slotInvariant_initial
    (hInitial : (slotSystem spec).initial s) :
    SlotInvariant s := by
  rcases hInitial with ⟨hStreamer, _, hFirst⟩
  have hStage : s.rebuildStage = none := by
    simp [SlotState.rebuildStage, hStreamer]
  refine { anchored := ?_, dropping := ?_ }
  · refine anchored_of_not_owes fun _ => ?_
    cases hSlot : s.source.slot with
    | none => simp [Source.owesAnchor, hSlot]
    | some record =>
        simp [Source.owesAnchor, hSlot, hFirst record hSlot]
  · intro call hDropping
    rw [hStage] at hDropping
    cases hDropping

theorem slotInvariant_reachable
    (hReachable :
      (slotSystem spec).ReachableWhile KeepsAnchor s) :
    SlotInvariant s :=
  hReachable.invariant
    (fun _ => slotInvariant_initial)
    (fun _ _ _ hInvariant hKeeps hStep =>
      slotInvariant_step hInvariant hKeeps hStep)

------------------------------------------------------------
-- Anchors Arrive
------------------------------------------------------------

variable (spec)

/- A rebuild under way goes on when its call is answered. -/
theorem rebuildCall_answered
    {stage : RebuildStage}
    (hStage : s.rebuildStage = some stage) :
    ∃ ctx s',
      (slotSystem spec).step s (.rebuildCall .delivered true) =
          some s' ∧
        ctx.isDatabaseDeleted = s.isDatabaseDeleted ∧
        ctx.isStorageCurrent = s.isStorageCurrent ∧
        s'.isDatabaseDeleted = s.isDatabaseDeleted ∧
        s'.isStorageCurrent = s.isStorageCurrent ∧
        s'.source =
          (stage.advance ctx s.source .delivered true).1 ∧
        s'.rebuildStage =
          (stage.advance ctx s.source .delivered
            true).2.stage := by
  cases hStreamer : s.streamer with
  | none => simp [SlotState.rebuildStage, hStreamer] at hStage
  | some streamer =>
      cases hPhase : streamer.phase with
      | starting call =>
          simp [SlotState.rebuildStage, hStreamer, hPhase]
            at hStage
      | running loops =>
          simp only [SlotState.rebuildStage, hStreamer, hPhase,
            Option.map_eq_some_iff] at hStage
          rcases hStage with ⟨rebuild, hRebuild, rfl⟩
          refine
            ⟨s.stageContext spec streamer loops,
              s.rebuildCalled spec streamer loops rebuild
                .delivered true,
              ?_, rfl, ?_, rfl, ?_, rfl,
              rebuildStage_rebuildCalled ..⟩
          · simp [slotSystem, SlotState.step,
              SlotState.stepOutside, SlotState.stepStreamer,
              SlotState.stepRunning, hStreamer, hPhase,
              hRebuild]
          · simp [SlotState.isStorageCurrent, hStreamer,
              SlotState.stageContext]
          · simp only [SlotState.isStorageCurrent, hStreamer,
              SlotState.rebuildCalled, SlotState.withLoops]
            rfl

theorem requestingFull_arrives
    (hStage : s.rebuildStage = some .requestingFull)
    (hCurrent : s.isStorageCurrent = true) :
    ∃ s',
      (slotSystem spec).perform s
          [.rebuildCall .delivered true] = some s' ∧
        s'.source.owesAnchor = false := by
  rcases rebuildCall_answered spec hStage with
    ⟨ctx, s', hStep, _, hSame, _, _, hSource, _⟩
  refine ⟨s', by simp [TransitionSystem.perform, hStep], ?_⟩
  rw [hSource]
  simp [RebuildStage.advance, requestFull, hSame, hCurrent]

theorem realigning_arrives
    (hStage : s.rebuildStage = some .realigning)
    (hCurrent : s.isStorageCurrent = true) :
    ∃ s',
      (slotSystem spec).perform s
          (List.replicate 2 (.rebuildCall .delivered true)) =
            some s' ∧
        s'.source.owesAnchor = false := by
  rcases rebuildCall_answered spec hStage with
    ⟨ctx, middle, hStep, _, _, _, hKept, _, hNext⟩
  rcases
      requestingFull_arrives spec hNext
        (hKept.trans hCurrent) with
    ⟨s', hPerform, hFree⟩
  refine ⟨s', ?_, hFree⟩
  rw [List.replicate_succ, TransitionSystem.perform, hStep]
  exact hPerform

/-
  A slot that owes an anchor gets it from the next calls of
  its rebuild, as soon as these are answered.
-/
theorem anchor_arrives
    (hAnchored : NewSlotAnchored s)
    (hPresent : s.isDatabaseDeleted = false)
    (hOwes : s.source.owesAnchor = true)
    (hCurrent : s.isStorageCurrent = true) :
    ∃ calls ≤ 3, ∃ s',
      (slotSystem spec).perform s
          (List.replicate calls
            (.rebuildCall .delivered true)) = some s' ∧
        s'.source.owesAnchor = false := by
  have hWay := hAnchored hPresent hOwes
  cases hStage : s.rebuildStage with
  | none => simp [hStage] at hWay
  | some stage =>
      simp only [hStage, Option.any_some] at hWay
      unfold RebuildStage.isAnchoring at hWay
      split at hWay
      · rcases rebuildCall_answered spec hStage with
          ⟨ctx, middle, hStep, hDeleted, _, _, hKept, _,
            hNext⟩
        have hRealigning :
            middle.rebuildStage = some .realigning := by
          rw [hNext]
          simp [RebuildStage.advance, CreateCall.advance,
            CreateCall.checkDatabase, hDeleted, hPresent,
            createStage, StageResult.stage]
        rcases
            realigning_arrives spec hRealigning
              (hKept.trans hCurrent) with
          ⟨s', hPerform, hFree⟩
        refine ⟨3, le_refl 3, s', ?_, hFree⟩
        rw [List.replicate_succ, TransitionSystem.perform,
          hStep]
        exact hPerform
      · exact
          ⟨2, by decide, realigning_arrives spec hStage hCurrent⟩
      · exact
          ⟨1, by decide, requestingFull_arrives spec hStage hCurrent⟩
      · cases hWay

------------------------------------------------------------
-- New Slots Are Anchored
------------------------------------------------------------

/-
  As long as every step meets its condition, a slot that was
  dropped and exists again has had a full backup requested, or
  the answers to at most three calls of its rebuild request
  it.  The first step that misses its condition leaves a new
  slot without an anchor.
-/
theorem new_slot_anchored
    {spec : SlotSpec}
    {s : SlotState}
    (hReachable :
      (slotSystem spec).ReachableWhile KeepsAnchor s) :
    NewSlotAnchored s ∧
      (s.isDatabaseDeleted = false →
        s.source.owesAnchor = true →
        s.isStorageCurrent = true →
          ∃ calls ≤ 3, ∃ s',
            (slotSystem spec).perform s
                (List.replicate calls
                  (.rebuildCall .delivered true)) = some s' ∧
              s'.source.owesAnchor = false) ∧
      ∀ action s',
        (slotSystem spec).step s action = some s' →
          (NewSlotAnchored s' ↔ KeepsAnchor s action) := by
  have hInvariant := slotInvariant_reachable hReachable
  refine ⟨hInvariant.anchored, ?_, ?_⟩
  · exact anchor_arrives spec hInvariant.anchored
  · intro action s' hStep
    exact step_anchored_iff hInvariant hStep

/- A source without the slot, and no streamer yet. -/
def emptySource : SlotState :=
  { source :=
      { slot := none
        hasBeenDropped := false
        currentLSN := some 16777216 }
    isDatabaseDeleted := false
    storageGeneration := 0
    now := 0
    streamer := none }

def lagSpec : SlotSpec :=
  { slotName := "databasus_slot_1"
    walLagThresholdBytes := 1073741824 }

def startsWithSlot : List SlotAction :=
  [.startStreamer, .startCall .delivered,
    .startCall .delivered, .startCall .delivered]

def lostSlot : Slot :=
  { freshSlot (some 33554432) with walStatus := "lost" }

/- A lost slot is seen, and its rebuild drops it. -/
def dropsLostSlot : List SlotAction :=
  [.changeSlot lostSlot, .monitorTick .delivered,
    .enterRebuild .lagMonitor, .rebuildCall .delivered false,
    .rebuildCall .delivered false,
    .rebuildCall .delivered false]

def recreatesSlot : List SlotAction :=
  List.replicate 5 (.rebuildCall .delivered false)

theorem initial_emptySource :
    (slotSystem lagSpec).initial emptySource := by
  simp [slotSystem, emptySource]

theorem new_slot_anchored_rebuilt :
    NewSlotAnchored
      ((slotSystem lagSpec).outcome emptySource
        (startsWithSlot ++ dropsLostSlot ++ recreatesSlot)) := by
  have hReachable :
      (slotSystem lagSpec).ReachableWhile KeepsAnchor
        ((slotSystem lagSpec).outcome emptySource
          (startsWithSlot ++ dropsLostSlot ++
            recreatesSlot)) :=
    TransitionSystem.reachableWhile_outcome
      initial_emptySource (by decide +kernel)
  exact (new_slot_anchored hReachable).1

/-
  The source does not answer when the slot is created anew.
  The streamer stops, and the next one creates the slot.
-/
def restartsAfterDrop : List SlotAction :=
  [.rebuildCall .failed false, .cancelStreamer,
    .supervisionStops, .streamerEnds] ++ startsWithSlot

/-
  The next streamer runs on a new slot.  Its ticks find the
  slot healthy, change nothing and request nothing.
-/
theorem restart_leaves_slot_unanchored :
    ∃ s,
      (slotSystem lagSpec).Reachable s ∧
        s.isDatabaseDeleted = false ∧
        s.source.owesAnchor = true ∧
        s.rebuildStage = none ∧
        (slotSystem lagSpec).step s
            (.monitorTick .delivered) = some s :=
  ⟨(slotSystem lagSpec).outcome emptySource
      (startsWithSlot ++ dropsLostSlot ++ restartsAfterDrop),
    TransitionSystem.reachable_outcome _ initial_emptySource,
    by decide +kernel, by decide +kernel, by decide +kernel,
    by decide +kernel⟩

end WalStreaming

end Databasus
