import Databasus.Common
import Databasus.Walmath.WalSegmentNo

/-
  When a sample of the replication slot asks for a rebuild.

  A slot held by a foreign consumer and a lost slot ask on the
  first sample.  A lag above the threshold asks only when the
  running receiver has not reduced it over the hold period.

  Main declarations:
    * `Slot`, `isOwnedReceiverBackend`
    * `SlotLagWindow.recordSampleAndDetectUnreducedLag`
    * `SlotBreakClassifier.recordSampleAndClassifyBreak`
    * `ResumeMismatchEscalator`, `RapidFailureEscalator`
-/

------------------------------------------------------------
-- Replication Slots
------------------------------------------------------------

namespace Databasus

namespace WalStreaming

open Walmath (LSN)

/- Absent while the source is in recovery. -/
structure SlotPosition where
  currentLSN : LSN
  lagBytes : Int
deriving DecidableEq, Repr

/- What the source tells about a replication slot. -/
structure Slot where
  slotType : String
  isActive : Bool
  activePID : Option Nat
  applicationName : String
  walStatus : String
  position : Option SlotPosition
deriving DecidableEq, Repr

def walReceiverApplicationNamePrefix : String :=
  "databasus_wal_receiver_"

def isOwnedReceiverBackend
    (state : Slot) : Bool :=
  state.activePID.isSome &&
    walReceiverApplicationNamePrefix.toList.isPrefixOf
      state.applicationName.toList

------------------------------------------------------------
-- The Lag of a Running Receiver
------------------------------------------------------------

def warningSlotStatusHoldPeriod : Duration :=
  5 * Duration.minute

def slotLagMinDrainPercentOfThreshold : Int := 5

/-
  One look at a slot whose position is known.  A receiver that
  is not running has no start.
-/
structure SlotBreakSample where
  state : Slot
  position : SlotPosition
  walLagThresholdBytes : Int
  receiverRunStartedAt : Option Time
  observedAt : Time
deriving DecidableEq, Repr

structure PreviousLag where
  runStartedAt : Time
  observedAt : Time
  lagBytes : Int
deriving DecidableEq, Repr

structure SlotLagWindow where
  runningTime : Duration := 0
  lagChangeBytes : Int := 0
  previous : Option PreviousLag := none
deriving DecidableEq, Repr

namespace SlotLagWindow

/- Add what passed since the last sample of the same run. -/
def accumulate
    (w : SlotLagWindow)
    (sample : SlotBreakSample)
    (runStartedAt : Time) : SlotLagWindow :=
  match w.previous with
  | none => w
  | some previous =>
      if previous.runStartedAt = runStartedAt then
        { w with
          runningTime :=
            w.runningTime +
              (sample.observedAt - previous.observedAt)
          lagChangeBytes :=
            w.lagChangeBytes +
              (sample.position.lagBytes - previous.lagBytes) }
      else w

def rememberPreviousSample
    (w : SlotLagWindow)
    (sample : SlotBreakSample)
    (runStartedAt : Time) : SlotLagWindow :=
  { w with
    previous :=
      some
        { runStartedAt := runStartedAt
          observedAt := sample.observedAt
          lagBytes := sample.position.lagBytes } }

def minDrainBytes
    (thresholdBytes : Int) : Int :=
  thresholdBytes * slotLagMinDrainPercentOfThreshold / 100

def recordSampleAndDetectUnreducedLag
    (w : SlotLagWindow)
    (sample : SlotBreakSample) : SlotLagWindow × Bool :=
  if sample.walLagThresholdBytes ≤ 0 ∨
      sample.position.lagBytes ≤
        sample.walLagThresholdBytes then
    ({}, false)
  else
    match sample.receiverRunStartedAt with
    | none => ({ w with previous := none }, false)
    | some runStartedAt =>
        let w :=
          (w.accumulate sample runStartedAt).rememberPreviousSample
            sample runStartedAt
        if w.runningTime < warningSlotStatusHoldPeriod then
          (w, false)
        else if -w.lagChangeBytes <
            minDrainBytes sample.walLagThresholdBytes then
          ({}, true)
        else
          ({ w with runningTime := 0, lagChangeBytes := 0 },
            false)

end SlotLagWindow

------------------------------------------------------------
-- The Verdict of a Sample
------------------------------------------------------------

inductive WalBreakReason
  | slotLost
  | walLag
  | slotStolen
  | slotRetention
deriving DecidableEq, Repr

inductive SlotBreakAction
  | none
  | alert (reason : WalBreakReason)
  | rebuild (reason : WalBreakReason)
deriving DecidableEq, Repr

structure SlotBreakClassifier where
  warningStatusSince : Option Time := none
  lagWindow : SlotLagWindow := {}
deriving DecidableEq, Repr

namespace SlotBreakClassifier

/- A status that retains more WAL than the source promises. -/
def isWarningStatus
    (walStatus : String) : Bool :=
  walStatus == "extended" || walStatus == "unreserved"

def recordSampleAndClassifyBreak
    (c : SlotBreakClassifier)
    (sample : SlotBreakSample) :
    SlotBreakClassifier × SlotBreakAction :=
  if sample.state.isActive &&
      !isOwnedReceiverBackend sample.state then
    (c, .rebuild .slotStolen)
  else if sample.state.walStatus = "lost" then
    ({}, .rebuild .slotLost)
  else if isWarningStatus sample.state.walStatus then
    let since :=
      c.warningStatusSince.getD sample.observedAt
    let c : SlotBreakClassifier :=
      { warningStatusSince := some since, lagWindow := {} }
    if warningSlotStatusHoldPeriod <
        sample.observedAt - since then
      (c, .alert .slotRetention)
    else (c, .none)
  else
    let window :=
      c.lagWindow.recordSampleAndDetectUnreducedLag sample
    let c : SlotBreakClassifier :=
      { warningStatusSince := none, lagWindow := window.1 }
    if window.2 then (c, .rebuild .walLag) else (c, .none)

end SlotBreakClassifier

------------------------------------------------------------
-- Exits of the Receiver
------------------------------------------------------------

def receivewalMaxResumeMismatches : Nat := 2

def receivewalMaxRapidFailures : Nat := 5

def receivewalMinHealthyUptime : Duration :=
  15 * Duration.second

structure ResumeMismatchEscalator where
  mismatchCount : Nat := 0
deriving DecidableEq, Repr

/- Whether the mismatch calls for a rebuild of the slot. -/
def ResumeMismatchEscalator.recordMismatchAndDecideEscalation
    (e : ResumeMismatchEscalator) :
    ResumeMismatchEscalator × Bool :=
  if receivewalMaxResumeMismatches ≤ e.mismatchCount + 1 then
    ({}, true)
  else
    ({ mismatchCount := e.mismatchCount + 1 }, false)

structure RapidFailureEscalator where
  rapidFailureCount : Nat := 0
deriving DecidableEq, Repr

/- Whether the exit ends the supervision of the receiver. -/
def RapidFailureEscalator.recordExitAndDecideRetry
    (e : RapidFailureEscalator)
    (ranFor : Duration)
    (isBastionReachable : Bool) :
    RapidFailureEscalator × Bool :=
  if !isBastionReachable then
    (e, false)
  else if receivewalMinHealthyUptime ≤ ranFor then
    ({}, false)
  else
    ({ rapidFailureCount := e.rapidFailureCount + 1 },
      decide
        (receivewalMaxRapidFailures ≤ e.rapidFailureCount + 1))

/- How one run of the receiver ends. -/
inductive ReceiverExit
  | ctxCancelled
  | retryable
  | fatal
  | internalRestart
  | resumeMismatch
deriving DecidableEq, Repr

/- A bastion that is down makes every failure a transient one. -/
def demoteFatalExitWhenBastionUnreachable
    (exit : ReceiverExit)
    (isBastionReachable : Bool) : ReceiverExit :=
  if exit = .fatal ∧ isBastionReachable = false then
    .retryable
  else exit

end WalStreaming

end Databasus
