import Databasus.Foundation.Table
import Databasus.Verifications.Run

/-
  Statements of the verification repository.

  Each write answers with the changed store or with the error
  that rolls its transaction back.

  Main declarations:
    * `VerificationError`
    * `Store`
    * `create`
    * `updateClaim`
    * `writeSuccessReport`
    * `requeue`
    * `markTerminal`
-/

------------------------------------------------------------
-- Errors
------------------------------------------------------------

namespace Databasus

namespace Verifications

/- The answers that are not a success. -/
inductive VerificationError
  | verificationGone
  | verificationNotFound
  | backupNotFound
  | backupNotCompleted
  | alreadyRunning
  | notRunning
  | claimConflict
  | duplicateKey
  | invalidFields (field detail : String)
deriving DecidableEq, Repr

------------------------------------------------------------
-- Queries
------------------------------------------------------------

/- The table that the verification repository owns. -/
structure Store where
  runs : List Verification
deriving DecidableEq, Repr

/- The run with an id, also as a lock on its row reads it. -/
def getVerification
    (store : Store)
    (id : Uuid) : Option Verification :=
  Foundation.Table.lookup Verification.id id store.runs

/- The run is being executed by the agent. -/
def IsRunningFor
    (agentID : Uuid)
    (run : Verification) : Prop :=
  run.agentID = some agentID ∧ run.status = .running

instance instDecidableIsRunningFor
    (agentID : Uuid)
    (run : Verification) :
    Decidable (IsRunningFor agentID run) :=
  inferInstanceAs (Decidable (_ ∧ _))

def listRunningBackupIDsByAgentID
    (store : Store)
    (agentID : Uuid) : List Uuid :=
  (store.runs.filter fun run =>
    IsRunningFor agentID run).map Verification.backupID

/-
  The oldest pending runs.  Rows that another transaction has
  locked are skipped, not waited for.
-/
def lockOldestPendingTop100
    (store : Store)
    (lockedByOthers : List Uuid) : List Verification :=
  ((store.runs.filter fun run =>
      run.status = .pending &&
        !lockedByOthers.contains run.id).insertionSort
    fun first second =>
      first.createdAt ≤ second.createdAt).take 100

def getActiveForDatabase
    (store : Store)
    (databaseID : Uuid) : List Verification :=
  store.runs.filter fun run =>
    run.databaseID = databaseID && run.status.IsActive

def getLatestFinishedAt
    (store : Store)
    (databaseID : Uuid) : Option Time :=
  ((store.runs.filter fun run =>
      run.databaseID = databaseID &&
        run.status.IsTerminal).filterMap
    Verification.finishedAt).max?

theorem mem_getActiveForDatabase_iff
    (store : Store)
    (databaseID : Uuid)
    (run : Verification) :
    run ∈ getActiveForDatabase store databaseID ↔
      run ∈ store.runs ∧
        run.databaseID = databaseID ∧
          run.status.IsActive := by
  simp [getActiveForDatabase]

theorem pending_of_mem_lockOldestPendingTop100
    {store : Store}
    {lockedByOthers : List Uuid}
    {run : Verification}
    (hMember :
      run ∈ lockOldestPendingTop100 store lockedByOthers) :
    run ∈ store.runs ∧ run.status = .pending := by
  have hSorted := List.mem_of_mem_take hMember
  rw [List.mem_insertionSort, List.mem_filter] at hSorted
  rcases hSorted with ⟨hRun, hSelected⟩
  simp only [Bool.and_eq_true, decide_eq_true_eq]
    at hSelected
  exact ⟨hRun, hSelected.1⟩

------------------------------------------------------------
-- Writes
------------------------------------------------------------

open Foundation

/- The primary key of the table is the run's id. -/
def create
    (store : Store)
    (verification : Verification) :
    Except VerificationError Store :=
  if (getVerification store verification.id).isSome then
    .error .duplicateKey
  else
    .ok
      { store with
        runs := store.runs ++ [verification] }

/- Update the selected runs, or fail when there is none. -/
def updateRuns
    (store : Store)
    (selects : Verification → Bool)
    (change : Verification → Verification)
    (whenMissing : VerificationError) :
    Except VerificationError Store :=
  if Table.affected selects store.runs = 0 then
    .error whenMissing
  else
    .ok
      { store with
        runs :=
          Table.updateWhere selects change store.runs }

structure ClaimUpdate where
  verificationID : Uuid
  agentID : Uuid
  startedAt : Time
deriving DecidableEq, Repr

def updateClaim
    (store : Store)
    (claim : ClaimUpdate) :
    Except VerificationError Store :=
  updateRuns store
    (fun run =>
      run.id = claim.verificationID &&
        run.status = .pending && run.agentID = none)
    (fun run =>
      { run with
        status := .running
        agentID := some claim.agentID
        startedAt := some claim.startedAt })
    .claimConflict

structure SuccessReport where
  verificationID : Uuid
  agentID : Uuid
  report : ReportRequest
  finishedAt : Time
deriving DecidableEq, Repr

/- The row that a successful report leaves behind. -/
def SuccessReport.applyTo
    (success : SuccessReport)
    (run : Verification) : Verification :=
  { run with
    status := .completed
    finishedAt := some success.finishedAt
    pgRestoreExitCode := success.report.pgRestoreExitCode
    restoreDurationMs := success.report.restoreDurationMs
    verifyDurationMs := success.report.verifyDurationMs
    restoredDatabaseSizeBytes :=
      success.report.restoredDatabaseSizeBytes
    tableCount := success.report.tableCount
    schemaCount := success.report.schemaCount
    failMessage := none
    failureDiagnosticOutput := none
    isFailureDiagnosticTruncated := false
    tableStats := run.tableStats ++ success.report.tableStats }

def writeSuccessReport
    (store : Store)
    (success : SuccessReport) :
    Except VerificationError Store :=
  updateRuns store
    (fun run =>
      run.id = success.verificationID &&
        run.agentID = some success.agentID &&
          run.status = .running)
    success.applyTo .verificationGone

/- The row that waits again for an agent. -/
def requeued
    (now : Time)
    (run : Verification) : Verification :=
  { run with
    status := .pending
    agentID := none
    startedAt := none
    finishedAt := none
    createdAt := now
    attemptCount := run.attemptCount + 1
    failMessage := none
    failureDiagnosticOutput := none
    isFailureDiagnosticTruncated := false }

def requeue
    (store : Store)
    (verificationID : Uuid)
    (now : Time) :
    Except VerificationError Store :=
  updateRuns store
    (fun run => run.id = verificationID)
    (requeued now) .verificationGone

/- The status a run can be ended with other than success. -/
inductive TerminalStatus
  | failed
  | canceled
deriving DecidableEq, Repr

def TerminalStatus.toStatus :
    TerminalStatus → VerificationStatus
  | .failed => .failed
  | .canceled => .canceled

structure TerminalUpdate where
  verificationID : Uuid
  status : TerminalStatus
  failMessage : String
  failureDiagnosticOutput : Option String := none
  isFailureDiagnosticTruncated : Bool := false
  finishedAt : Time
deriving DecidableEq, Repr

def TerminalUpdate.applyTo
    (terminal : TerminalUpdate)
    (run : Verification) : Verification :=
  { run with
    status := terminal.status.toStatus
    failMessage := some terminal.failMessage
    failureDiagnosticOutput :=
      terminal.failureDiagnosticOutput
    isFailureDiagnosticTruncated :=
      terminal.isFailureDiagnosticTruncated
    finishedAt := some terminal.finishedAt }

/- Only a cancellation checks the status it overwrites. -/
def markTerminal
    (store : Store)
    (terminal : TerminalUpdate) :
    Except VerificationError Store :=
  updateRuns store
    (fun run =>
      run.id = terminal.verificationID &&
        (terminal.status = .failed || run.status.IsActive))
    terminal.applyTo
    (if terminal.status = .canceled then
      .notRunning
    else
      .verificationGone)

end Verifications

end Databasus
