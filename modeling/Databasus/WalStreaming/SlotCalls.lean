import Databasus.Foundation.Exchange
import Databasus.WalStreaming.SlotBreak

/-
  Creating and dropping a slot over a connection that may fail.

  Every call reads or changes the source at one moment, and
  its reply may be lost.

  Main declarations:
    * `Source`, `CallResult`
    * `DropCall.advance`, `VerifyCall.advance`
    * `CreateCall.advance`
    * `SlotChange`, `DropCall.advance_change`
    * `CreateCall.advance_change`
-/

------------------------------------------------------------
-- The Source
------------------------------------------------------------

namespace Databasus

namespace WalStreaming

open Foundation
open Walmath (LSN)

/-
  A slot on the source.  No code reads its history: whether an
  earlier slot of the same name had been dropped when it was
  created, and whether a full backup was requested since.
-/
structure SlotRecord where
  state : Slot
  isRecreated : Bool
  isFullRequested : Bool
deriving DecidableEq, Repr

structure Source where
  slot : Option SlotRecord
  hasBeenDropped : Bool
  currentLSN : Option LSN
deriving DecidableEq, Repr

/- A slot that reserves WAL from the moment it is created. -/
def freshSlot
    (currentLSN : Option LSN) : Slot :=
  { slotType := "physical"
    isActive := false
    activePID := none
    applicationName := ""
    walStatus := "reserved"
    position :=
      currentLSN.map fun lsn =>
        { currentLSN := lsn, lagBytes := 0 } }

namespace Source

def withoutSlot
    (source : Source) : Source :=
  { source with slot := none, hasBeenDropped := true }

def withFreshSlot
    (source : Source) : Source :=
  { source with
    slot :=
      some
        { state := freshSlot source.currentLSN
          isRecreated := source.hasBeenDropped
          isFullRequested := false } }

inductive DropAnswer
  | dropped
  | objectMissing
  | objectInUse
deriving DecidableEq, Repr

/- The source refuses to drop a slot that is in use. -/
def dropReplicationSlot
    (source : Source) : Source × DropAnswer :=
  match source.slot with
  | none => (source, .objectMissing)
  | some record =>
      if record.state.isActive then (source, .objectInUse)
      else (source.withoutSlot, .dropped)

/- Creating a slot under a taken name changes nothing. -/
def createPhysicalReplicationSlot
    (source : Source) : Source :=
  match source.slot with
  | none => source.withFreshSlot
  | some _ => source

/- The source has a full backup requested for its slot. -/
def withFullRequested
    (source : Source) : Source :=
  { source with
    slot :=
      source.slot.map fun record =>
        { record with isFullRequested := true } }

end Source

------------------------------------------------------------
-- Calls
------------------------------------------------------------

inductive SlotError
  | slotNameEmpty
  | readSlot
  | wrongType (slotType : String)
  | slotActive
  | createSlot
  | dropSlot
  | checkDatabase
  | streamedDatabaseDeleted
deriving DecidableEq, Repr

/- What remains of a procedure after one of its calls. -/
inductive CallResult (κ : Type)
  | calling (next : κ)
  | done
  | failed (error : SlotError)
deriving DecidableEq, Repr

def CallResult.map
    {κ κ' : Type}
    (wrap : κ → κ') : CallResult κ → CallResult κ'
  | .calling next => .calling (wrap next)
  | .done => .done
  | .failed error => .failed error

/- `DropSlot`: a missing slot is as good as a dropped one. -/
inductive DropCall
  | inspecting
  | dropping
deriving DecidableEq, Repr

def DropCall.inspect
    (slotName : String)
    (source : Source)
    (reply : Reply) : CallResult DropCall :=
  if slotName = "" then .failed .slotNameEmpty
  else if reply ≠ .delivered then .failed .readSlot
  else
    match source.slot with
    | none => .done
    | some record =>
        if record.state.slotType ≠ "physical" then
          .failed (.wrongType record.state.slotType)
        else if record.state.isActive then .failed .slotActive
        else .calling .dropping

def DropCall.advance
    (slotName : String)
    (source : Source)
    (reply : Reply) :
    DropCall → Source × CallResult DropCall
  | .inspecting =>
      (source, DropCall.inspect slotName source reply)
  | .dropping =>
      match reply with
      | .failed => (source, .failed .dropSlot)
      | .lost =>
          (source.dropReplicationSlot.1, .failed .dropSlot)
      | .delivered =>
          match source.dropReplicationSlot with
          | (source', .objectInUse) =>
              (source', .failed .dropSlot)
          | (source', _) => (source', .done)

/- `VerifySlot`: an existing physical slot is left alone. -/
inductive VerifyCall
  | inspecting
  | creating
deriving DecidableEq, Repr

def VerifyCall.inspect
    (slotName : String)
    (source : Source)
    (reply : Reply) : CallResult VerifyCall :=
  if slotName = "" then .failed .slotNameEmpty
  else if reply ≠ .delivered then .failed .readSlot
  else
    match source.slot with
    | none => .calling .creating
    | some record =>
        if record.state.slotType ≠ "physical" then
          .failed (.wrongType record.state.slotType)
        else .done

def VerifyCall.advance
    (slotName : String)
    (source : Source)
    (reply : Reply) :
    VerifyCall → Source × CallResult VerifyCall
  | .inspecting =>
      (source, VerifyCall.inspect slotName source reply)
  | .creating =>
      match reply with
      | .failed => (source, .failed .createSlot)
      | .lost =>
          (source.createPhysicalReplicationSlot,
            .failed .createSlot)
      | .delivered =>
          (source.createPhysicalReplicationSlot, .done)

/- `createSlotUnlessDatabaseDeleted`. -/
inductive CreateCall
  | verifying (call : VerifyCall)
  | checkingDatabase
  | droppingSlot (call : DropCall)
deriving DecidableEq, Repr

def CreateCall.checkDatabase
    (isDatabaseDeleted : Bool)
    (reply : Reply) : CallResult CreateCall :=
  if reply ≠ .delivered then .failed .checkDatabase
  else if isDatabaseDeleted then
    .calling (.droppingSlot .inspecting)
  else .done

def CreateCall.advance
    (slotName : String)
    (isDatabaseDeleted : Bool)
    (source : Source)
    (reply : Reply) :
    CreateCall → Source × CallResult CreateCall
  | .verifying call =>
      match call.advance slotName source reply with
      | (source', .done) =>
          (source', .calling .checkingDatabase)
      | (source', result) => (source', result.map .verifying)
  | .checkingDatabase =>
      (source, CreateCall.checkDatabase isDatabaseDeleted reply)
  | .droppingSlot call =>
      match call.advance slotName source reply with
      | (source', .done) =>
          (source', .failed .streamedDatabaseDeleted)
      | (source', result) => (source', result.map .droppingSlot)

------------------------------------------------------------
-- What a Call Changes
------------------------------------------------------------

variable {slotName : String}
variable {isDatabaseDeleted : Bool}
variable {reply : Reply}

/- The only changes that a call makes to the source. -/
inductive SlotChange
    (before : Source) : Source → Prop
  | same : SlotChange before before
  | dropped : SlotChange before before.withoutSlot

theorem Source.dropReplicationSlot_change
    (source : Source) :
    SlotChange source source.dropReplicationSlot.1 := by
  unfold Source.dropReplicationSlot
  cases source.slot with
  | none => exact .same
  | some record =>
      by_cases hActive : record.state.isActive = true
      · simp only [hActive, if_true]
        exact .same
      · simp only [hActive]
        exact .dropped

theorem DropCall.advance_change
    (slotName : String)
    (source : Source)
    (reply : Reply)
    (call : DropCall) :
    SlotChange source
      (call.advance slotName source reply).1 := by
  have hDrop := source.dropReplicationSlot_change
  cases call with
  | inspecting => exact .same
  | dropping =>
      cases reply with
      | failed => exact .same
      | lost => exact hDrop
      | delivered =>
          simp only [DropCall.advance]
          split
          · rename_i hAnswer
            rw [hAnswer] at hDrop
            exact hDrop
          · rename_i hAnswer
            rw [hAnswer] at hDrop
            exact hDrop

/- A call creates the slot exactly when this holds. -/
def CreateCall.Creates
    (call : CreateCall)
    (source : Source)
    (reply : Reply) : Prop :=
  call = .verifying .creating ∧
    reply ≠ .failed ∧ source.slot = none

instance
    (call : CreateCall)
    (source : Source)
    (reply : Reply) :
    Decidable (call.Creates source reply) := by
  unfold CreateCall.Creates
  infer_instance

theorem CreateCall.advance_creates
    {source : Source}
    {call : CreateCall}
    (hCreates : call.Creates source reply) :
    call.advance slotName isDatabaseDeleted source reply =
      (source.withFreshSlot,
        if reply = .lost then .failed .createSlot
        else .calling .checkingDatabase) := by
  rcases hCreates with ⟨rfl, hReply, hSlot⟩
  cases reply with
  | failed => exact absurd rfl hReply
  | lost =>
      simp [CreateCall.advance, VerifyCall.advance,
        Source.createPhysicalReplicationSlot, hSlot,
        CallResult.map]
  | delivered =>
      simp [CreateCall.advance, VerifyCall.advance,
        Source.createPhysicalReplicationSlot, hSlot]

/- A verification that creates nothing changes nothing. -/
theorem VerifyCall.advance_source
    (slotName : String)
    {source : Source}
    {call : VerifyCall}
    (hCreates :
      ¬ (CreateCall.verifying call).Creates source reply) :
    (call.advance slotName source reply).1 = source := by
  have hTaken
      (hCreating : call = .creating)
      (hReply : reply ≠ .failed) :
      source.createPhysicalReplicationSlot = source := by
    subst hCreating
    unfold Source.createPhysicalReplicationSlot
    cases hSlot : source.slot with
    | none => exact absurd ⟨rfl, hReply, hSlot⟩ hCreates
    | some record => rfl
  cases call with
  | inspecting => rfl
  | creating =>
      cases reply with
      | failed => rfl
      | lost => exact hTaken rfl nofun
      | delivered => exact hTaken rfl nofun

theorem CreateCall.advance_change
    (slotName : String)
    (isDatabaseDeleted : Bool)
    {source : Source}
    {call : CreateCall}
    (hCreates : ¬ call.Creates source reply) :
    SlotChange source
      (call.advance slotName isDatabaseDeleted source
        reply).1 := by
  cases call with
  | verifying call =>
      have hSame := VerifyCall.advance_source slotName hCreates
      have hSource :
          (CreateCall.advance slotName isDatabaseDeleted
            source reply (.verifying call)).1 = source := by
        simp only [CreateCall.advance]
        split
        · rename_i hResult
          rw [hResult] at hSame
          exact hSame
        · rename_i hResult
          rw [hResult] at hSame
          exact hSame
      rw [hSource]
      exact .same
  | checkingDatabase => exact .same
  | droppingSlot call =>
      have hDrop :=
        DropCall.advance_change slotName source reply call
      simp only [CreateCall.advance]
      split
      · rename_i hResult
        rw [hResult] at hDrop
        exact hDrop
      · rename_i hResult
        rw [hResult] at hDrop
        exact hDrop

/- Only a deleted database has its new slot dropped again. -/
theorem CreateCall.advance_droppingSlot
    {source : Source}
    {call : CreateCall}
    {dropCall : DropCall}
    (hDropping :
      (call.advance slotName isDatabaseDeleted source
        reply).2 = .calling (.droppingSlot dropCall)) :
    isDatabaseDeleted = true ∨
      ∃ earlier, call = .droppingSlot earlier := by
  cases call with
  | verifying call =>
      simp only [CreateCall.advance] at hDropping
      split at hDropping
      · cases hDropping
      · rename_i result hNotDone hResult
        cases result <;> cases hDropping
  | checkingDatabase =>
      simp only [CreateCall.advance,
        CreateCall.checkDatabase] at hDropping
      split at hDropping
      · cases hDropping
      · split at hDropping
        · rename_i hDeleted
          exact Or.inl hDeleted
        · cases hDropping
  | droppingSlot call => exact Or.inr ⟨call, rfl⟩

end WalStreaming

end Databasus
