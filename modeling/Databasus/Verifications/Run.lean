import Databasus.Common

/-
  Verification runs: the row of `verification_runs`, the
  reports an agent sends, and the retry rules that decide
  whether a failed run is tried again.

  Main declarations:
    * `Verification`
    * `ReportRequest`
    * `FailureReason`
    * `shouldRequeueAgentSide`
    * `classifyAgentReport`
    * `failureMessageFor`
-/

------------------------------------------------------------
-- Rows
------------------------------------------------------------

namespace Databasus

namespace Verifications

inductive VerificationStatus
  | pending
  | running
  | completed
  | failed
  | canceled
deriving DecidableEq, Repr

namespace VerificationStatus

/- A run that is waiting for an agent or owned by one. -/
def IsActive
    (status : VerificationStatus) : Prop :=
  status = .pending ∨ status = .running

instance instDecidableIsActive
    (status : VerificationStatus) :
    Decidable status.IsActive :=
  inferInstanceAs (Decidable (_ ∨ _))

/- A run that has ended. -/
def IsTerminal
    (status : VerificationStatus) : Prop :=
  status = .completed ∨
    status = .failed ∨
      status = .canceled

instance instDecidableIsTerminal
    (status : VerificationStatus) :
    Decidable status.IsTerminal :=
  inferInstanceAs (Decidable (_ ∨ _))

theorem not_isActive_of_isTerminal
    {status : VerificationStatus}
    (hTerminal : status.IsTerminal) :
    ¬ status.IsActive := by
  intro hActive
  rcases hTerminal with rfl | rfl | rfl <;>
    rcases hActive with hStatus | hStatus <;>
      exact VerificationStatus.noConfusion hStatus

end VerificationStatus

inductive VerificationTrigger
  | manual
  | scheduled
  | afterBackup
deriving DecidableEq, Repr

/- A row of the statistics that a successful report carries. -/
structure TableStat where
  schemaName : String
  name : String
  rowCount : Int
deriving DecidableEq, Repr

/- A row of `verification_runs`, with its statistics rows. -/
structure Verification where
  id : Uuid
  databaseID : Uuid
  backupID : Uuid
  agentID : Option Uuid
  trigger : VerificationTrigger
  status : VerificationStatus
  attemptCount : Nat
  createdAt : Time
  startedAt : Option Time
  finishedAt : Option Time
  restoreDurationMs : Option Int
  verifyDurationMs : Option Int
  pgRestoreExitCode : Option Int
  restoredDatabaseSizeBytes : Option Int
  tableCount : Option Int
  schemaCount : Option Int
  failMessage : Option String
  failureDiagnosticOutput : Option String
  isFailureDiagnosticTruncated : Bool
  tableStats : List TableStat
deriving DecidableEq, Repr

------------------------------------------------------------
-- Reports
------------------------------------------------------------

structure FailureDiagnostic where
  output : String
  isTruncated : Bool
deriving DecidableEq, Repr

/- What an agent reports about the run it executed. -/
structure ReportRequest where
  status : VerificationStatus
  pgRestoreExitCode : Option Int
  failureKind : Option String
  restoreDurationMs : Option Int
  verifyDurationMs : Option Int
  restoredDatabaseSizeBytes : Option Int
  tableCount : Option Int
  schemaCount : Option Int
  tableStats : List TableStat
  failMessage : Option String
  failureDiagnostic : Option FailureDiagnostic
deriving DecidableEq, Repr

------------------------------------------------------------
-- Constants
------------------------------------------------------------

def maxAgentSideAttempts : Nat := 3

def minRestoredSizeRatio : Rat := 1 / 5

def staleAgentThreshold : Duration := 5 * Duration.minute

def agentJobReclaimGrace : Duration := 90 * Duration.second

def maxPendingDuration : Duration := 24 * Duration.hour

def cancelMessageByUser : String :=
  "verification canceled by user"

def cancelMessageScheduleDisabled : String :=
  "verification canceled: its verification schedule " ++
    "was disabled"

def cancelMessageSupersededByBackup : String :=
  "verification canceled: superseded by a newer backup's " ++
    "scheduled verification"

------------------------------------------------------------
-- Retry Rules
------------------------------------------------------------

inductive FailureReason
  | agentLostContact
  | agentRemoved
  | agentSetupFailed
  | agentDroppedJob
  | backupRejected
  | diskLimitExceeded
  | restoredTooSmall
  | unclaimedTooLong
deriving DecidableEq, Repr

/- The text a failure kind has on the wire. -/
def FailureReason.text : FailureReason → String
  | .agentLostContact => "AGENT_LOST_CONTACT"
  | .agentRemoved => "AGENT_REMOVED"
  | .agentSetupFailed => "AGENT_SETUP_FAILED"
  | .agentDroppedJob => "AGENT_DROPPED_JOB"
  | .backupRejected => "BACKUP_REJECTED"
  | .diskLimitExceeded => "DISK_LIMIT_EXCEEDED"
  | .restoredTooSmall => "RESTORED_TOO_SMALL"
  | .unclaimedTooLong => "UNCLAIMED_TOO_LONG"

def isAgentSideFailure
    (reason : FailureReason) : Bool :=
  reason = .agentLostContact ||
    reason = .agentRemoved ||
      reason = .agentSetupFailed ||
        reason = .agentDroppedJob

def shouldRequeueAgentSide
    (reason : FailureReason)
    (attemptCount : Nat) : Bool :=
  isAgentSideFailure reason &&
    attemptCount < maxAgentSideAttempts

def classifyAgentReport
    (req : ReportRequest) : FailureReason :=
  if req.failureKind =
      some FailureReason.diskLimitExceeded.text then
    .diskLimitExceeded
  else if req.pgRestoreExitCode.isSome then
    .backupRejected
  else
    .agentSetupFailed

/- The agent's own text, unless it is missing or empty. -/
def agentMessageOr
    (agentMessage : Option String)
    (fallback : String) : String :=
  match agentMessage with
  | none => fallback
  | some message =>
      if message = "" then fallback else message

def failureMessageFor
    (reason : FailureReason)
    (agentMessage : Option String) : String :=
  match reason with
  | .agentSetupFailed =>
      agentMessageOr agentMessage
        ("agent failed before pg_restore ran (download, " ++
          "container, or OOM) without diagnostic detail")
  | .backupRejected =>
      agentMessageOr agentMessage
        ("pg_restore rejected the backup without " ++
          "diagnostic detail")
  | .diskLimitExceeded =>
      agentMessageOr agentMessage
        "restore exceeded the per-job disk budget"
  | .restoredTooSmall =>
      agentMessageOr agentMessage
        ("restored database is smaller than expected vs " ++
          "the original raw size")
  | .agentLostContact =>
      "verification stalled: agent went silent"
  | .agentRemoved =>
      "verification failed: the owning agent was removed " ++
        "before the run finished"
  | .agentDroppedJob =>
      "verification was dropped by its still-online agent " ++
        "before it reported a result (likely a " ++
          "report-delivery failure or an agent restart " ++
            "mid-run)"
  | .unclaimedTooLong =>
      "verification was not picked up by any agent in time"

/- A requeue needs an attempt below the maximum. -/
theorem attemptCount_lt_of_shouldRequeueAgentSide
    {reason : FailureReason}
    {attemptCount : Nat}
    (hRequeue :
      shouldRequeueAgentSide reason attemptCount = true) :
    attemptCount < maxAgentSideAttempts := by
  simp only [shouldRequeueAgentSide, Bool.and_eq_true,
    decide_eq_true_eq] at hRequeue
  exact hRequeue.2

end Verifications

end Databasus
