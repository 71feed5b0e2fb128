import Databasus.Verifications.Capacity
import Databasus.Verifications.Repository

/-
  The verification service: creating runs, claiming them,
  taking reports, and retrying or ending them.

  A function answers with the store its transaction commits,
  or with the error that rolls the transaction back.  The
  entry points that lock a row before they call an inner
  function of the same name stand in the namespace `Service`.

  Main declarations:
    * `requeueOrFail`
    * `Service.requeueOrFail`
    * `submitReport`
    * `claimVerification`
    * `startVerification`
    * `createScheduledRun`
    * `scheduleVerificationForCompletedBackup`
-/

------------------------------------------------------------
-- Agents and Configurations
------------------------------------------------------------

namespace Databasus

namespace Verifications

/- A registered agent, as the scheduler and a claim read it. -/
structure Agent where
  id : Uuid
  lastSeenAt : Option Time
  deletedAt : Option Time
deriving DecidableEq, Repr

def Agent.isDeleted
    (agent : Agent) : Bool :=
  agent.deletedAt.isSome

def hasFreshAcceptedHeartbeat
    (agent : Agent)
    (now : Time) : Bool :=
  match agent.lastSeenAt with
  | none => false
  | some lastSeenAt =>
      !(lastSeenAt < now - staleAgentThreshold : Bool)

inductive VerificationScheduleType
  | interval
  | afterBackup
deriving DecidableEq, Repr

/- The schedule is the test of whether a run is due. -/
structure Config where
  databaseID : Uuid
  isAutomaticVerificationEnabled : Bool
  scheduleType : VerificationScheduleType
  isDue : Time → Option Time → Bool

inductive DatabaseType
  | postgresqlLogical
  | postgresqlPhysical
deriving DecidableEq, Repr

/- A database, with its version when that can be read. -/
structure VerifiableDatabase where
  id : Uuid
  type : DatabaseType
  version : String
deriving DecidableEq, Repr

------------------------------------------------------------
-- Retries
------------------------------------------------------------

structure VerificationFailure where
  verification : Verification
  reason : FailureReason
  message : Option String
  diagnostic : Option FailureDiagnostic
deriving DecidableEq, Repr

/- Requeue a run or fail it; the caller holds its row lock. -/
def requeueOrFail
    (store : Store)
    (now : Time)
    (failure : VerificationFailure) :
    Except VerificationError Store :=
  let row := failure.verification
  if shouldRequeueAgentSide failure.reason
      row.attemptCount then
    requeue store row.id now
  else
    markTerminal store
      { verificationID := row.id
        status := .failed
        failMessage :=
          failureMessageFor failure.reason failure.message
        failureDiagnosticOutput :=
          failure.diagnostic.map FailureDiagnostic.output
        isFailureDiagnosticTruncated :=
          match failure.diagnostic with
          | none => false
          | some diagnostic => diagnostic.isTruncated
        finishedAt := now }

namespace Service

/-
  The row may have been read long before.  The locked row has
  to agree with it on status, attempt and owner.
-/
def requeueOrFail
    (store : Store)
    (now : Time)
    (failure : VerificationFailure) :
    Except VerificationError Store :=
  match getVerification store failure.verification.id with
  | none => .error .verificationGone
  | some current =>
      if current.status ≠ failure.verification.status ∨
          current.attemptCount ≠
            failure.verification.attemptCount ∨
          current.agentID ≠
            failure.verification.agentID then
        .error .verificationGone
      else
        Verifications.requeueOrFail store now
          { failure with verification := current }

end Service

------------------------------------------------------------
-- Reports
------------------------------------------------------------

open Logical (LogicalBackup)

/- The bytes behind a size in megabytes, truncated. -/
def rawDbSizeBytes
    (backup : LogicalBackup) : Int :=
  ⌊backup.backupRawDbSizeMb * 1024 * 1024⌋

def restoredTooSmallMessage
    (restoredBytes rawBytes : Int) : String :=
  "restored database is " ++ toString restoredBytes ++
    " bytes, which is less than 20% of the original " ++
      "size (" ++ toString rawBytes ++ " bytes)"

/- The message, when the restored database is too small. -/
def isRestoredTooSmall
    (backups : List LogicalBackup)
    (verification : Verification)
    (req : ReportRequest) : Option String :=
  match req.restoredDatabaseSizeBytes with
  | none => none
  | some restoredBytes =>
      match Logical.listByIDs backups
          [verification.backupID] with
      | [] => none
      | backup :: _ =>
          if backup.backupRawDbSizeMb ≤ 0 then
            none
          else
            let minAcceptableBytes : Int :=
              ⌊(rawDbSizeBytes backup : Rat) *
                minRestoredSizeRatio⌋
            if minAcceptableBytes ≤ restoredBytes then
              none
            else
              some
                (restoredTooSmallMessage restoredBytes
                  (rawDbSizeBytes backup))

/- The report is recognised by run, status and owner. -/
def submitReport
    (store : Store)
    (backups : List LogicalBackup)
    (now : Time)
    (agentID : Uuid)
    (verificationID : Uuid)
    (req : ReportRequest) :
    Except VerificationError Store :=
  match getVerification store verificationID with
  | none => .error .verificationGone
  | some verification =>
      if verification.status ≠ .running ∨
          verification.agentID ≠ some agentID then
        .error .verificationGone
      else if req.status = .failed then
        requeueOrFail store now
          { verification := verification
            reason := classifyAgentReport req
            message := req.failMessage
            diagnostic := req.failureDiagnostic }
      else
        match isRestoredTooSmall backups verification req with
        | some sizeMessage =>
            requeueOrFail store now
              { verification := verification
                reason := .restoredTooSmall
                message := some sizeMessage
                diagnostic := none }
        | none =>
            writeSuccessReport store
              { verificationID := verificationID
                agentID := agentID
                report := req
                finishedAt := now }

namespace Service

/- The report's failure texts arrive sanitized. -/
def submitReport
    (store : Store)
    (backups : List LogicalBackup)
    (now : Time)
    (agentID : Uuid)
    (verificationID : Uuid)
    (report : ReportRequest) :
    Except VerificationError Store :=
  if report.status ≠ .completed ∧
      report.status ≠ .failed then
    .error
      (.invalidFields "status"
        "must be COMPLETED or FAILED")
  else if report.tableStats.any fun table =>
      table.schemaName = "" || table.name = "" then
    .error
      (.invalidFields "tableStats"
        "schemaName and name are required")
  else
    Verifications.submitReport store backups now agentID
      verificationID report

end Service

------------------------------------------------------------
-- Claims
------------------------------------------------------------

structure ClaimCandidate where
  verification : Verification
  backup : LogicalBackup
deriving DecidableEq

structure VerificationAssignment where
  verificationID : Uuid
  backupID : Uuid
  backupSizeMb : Rat
  maxContainerDiskMb : Int
  databaseType : DatabaseType
  version : String
  timescaledbVersion : String
deriving DecidableEq

/- Runs whose backup is gone are no candidates. -/
def pairWithBackups
    (backups : List LogicalBackup)
    (verifications : List Verification) :
    List ClaimCandidate :=
  let foundBackups :=
    Logical.listByIDs backups
      (verifications.map Verification.backupID)
  verifications.filterMap fun verification =>
    (Foundation.Table.lookup LogicalBackup.id
      verification.backupID foundBackups).map
        fun backup =>
          { verification := verification
            backup := backup }

/- The load a claim is checked against, read before it. -/
def readRunningBackups
    (store : Store)
    (backups : List LogicalBackup)
    (agentID : Uuid) : List LogicalBackup :=
  Logical.listByIDs backups
    (listRunningBackupIDsByAgentID store agentID)

/- What an agent's claim carries into its transaction. -/
structure ClaimRequest where
  agentID : Uuid
  capacity : AgentCapacity
  runningBackups : List LogicalBackup
deriving DecidableEq

/- Claim the first candidate that fits and has a version. -/
def claimFirstFit
    (store : Store)
    (now : Time)
    (request : ClaimRequest)
    (databases : List VerifiableDatabase) :
    List ClaimCandidate →
      Except VerificationError
        (Store × Option VerificationAssignment)
  | [] => .ok (store, none)
  | candidate :: rest =>
      if (evaluateDiskAdmission request.capacity
          request.runningBackups
            candidate.backup).isFit = false then
        claimFirstFit store now request databases rest
      else
        match
          Foundation.Table.lookup VerifiableDatabase.id
            candidate.verification.databaseID databases
        with
        | none =>
            claimFirstFit store now request databases rest
        | some database =>
            if database.version = "" then
              claimFirstFit store now request databases rest
            else
              match
                updateClaim store
                  { verificationID :=
                      candidate.verification.id
                    agentID := request.agentID
                    startedAt := now }
              with
              | .error error => .error error
              | .ok claimed =>
                  .ok
                    (claimed,
                      some
                        { verificationID :=
                            candidate.verification.id
                          backupID := candidate.backup.id
                          backupSizeMb :=
                            candidate.backup.backupSizeMb
                          maxContainerDiskMb :=
                            estimateRequiredForRestoreDiskMb
                              candidate.backup
                          databaseType := database.type
                          version := database.version
                          timescaledbVersion :=
                            candidate.backup.timescaledbVersion })

/- The transaction of a claim, after the load was read. -/
def claimVerification
    (store : Store)
    (backups : List LogicalBackup)
    (now : Time)
    (request : ClaimRequest)
    (lockedByOthers : List Uuid)
    (databases : List VerifiableDatabase) :
    Except VerificationError
      (Store × Option VerificationAssignment) :=
  let pending :=
    lockOldestPendingTop100 store lockedByOthers
  claimFirstFit store now request databases
    (pairWithBackups backups pending)

/- Whether a claim request gets as far as reading its load. -/
def mayClaim
    (agent : Agent)
    (capacity : AgentCapacity)
    (now : Time) : Except VerificationError Bool :=
  if capacity.maxCPU < 0 ∨ capacity.maxRAMMb < 0 ∨
      capacity.maxDiskGb < 0 ∨
      capacity.maxConcurrentJobs < 0 then
    .error (.invalidFields "capacity" "must be nonnegative")
  else
    .ok (hasFreshAcceptedHeartbeat agent now)

------------------------------------------------------------
-- Creating Runs
------------------------------------------------------------

open Logical (LogicalBackup LogicalBackupStatus)

def newPending
    (id : Uuid)
    (now : Time)
    (backup : LogicalBackup)
    (trigger : VerificationTrigger) : Verification :=
  { id := id
    databaseID := backup.databaseID
    backupID := backup.id
    agentID := none
    trigger := trigger
    status := .pending
    attemptCount := 1
    createdAt := now
    startedAt := none
    finishedAt := none
    restoreDurationMs := none
    verifyDurationMs := none
    pgRestoreExitCode := none
    restoredDatabaseSizeBytes := none
    tableCount := none
    schemaCount := none
    failMessage := none
    failureDiagnosticOutput := none
    isFailureDiagnosticTruncated := false
    tableStats := [] }

/- A user asks for one backup to be verified. -/
def startVerification
    (store : Store)
    (backups : List LogicalBackup)
    (now : Time)
    (id : Uuid)
    (backupID : Uuid) :
    Except VerificationError Store :=
  match Logical.listByIDs backups [backupID] with
  | [] => .error .backupNotFound
  | backup :: _ =>
      if backup.status ≠ .completed then
        .error .backupNotCompleted
      else if
          (getActiveForDatabase store
            backup.databaseID).any fun verification =>
              verification.trigger = .manual then
        .error .alreadyRunning
      else
        create store (newPending id now backup .manual)

/- The backup is the latest completed one of the database. -/
def createScheduledRun
    (store : Store)
    (now : Time)
    (id : Uuid)
    (config : Config)
    (backup : LogicalBackup) :
    Except VerificationError Store :=
  if config.scheduleType = .afterBackup then
    .ok store
  else if
      (getActiveForDatabase store
        config.databaseID).any fun verification =>
          verification.trigger = .scheduled then
    .ok store
  else if config.isDue now
      (getLatestFinishedAt store config.databaseID) then
    create store (newPending id now backup .scheduled)
  else
    .ok store

/- Cancel the given runs one after another. -/
def cancelEach
    (now : Time)
    (failMessage : String) :
    Store → List Verification →
      Except VerificationError Store
  | store, [] => .ok store
  | store, row :: rest =>
      match
        markTerminal store
          { verificationID := row.id
            status := .canceled
            failMessage := failMessage
            finishedAt := now }
      with
      | .error error => .error error
      | .ok canceled =>
          cancelEach now failMessage canceled rest

def cancelPendingAutoScheduledVerificationsByDatabaseID
    (store : Store)
    (now : Time)
    (databaseID : Uuid) :
    Except VerificationError Store :=
  cancelEach now cancelMessageSupersededByBackup store
    ((getActiveForDatabase store databaseID).filter
      fun row =>
        row.trigger ≠ .manual && row.status = .pending)

/- A backup of the database has just completed. -/
def scheduleVerificationForCompletedBackup
    (store : Store)
    (now : Time)
    (id : Uuid)
    (config : Config)
    (verifiableBackup : Option LogicalBackup)
    (database : VerifiableDatabase) :
    Except VerificationError Store :=
  if config.isAutomaticVerificationEnabled = false ∨
      config.scheduleType ≠ .afterBackup then
    .ok store
  else
    match verifiableBackup with
    | none => .ok store
    | some backup =>
        if database.version = "" then
          .ok store
        else
          match
            cancelPendingAutoScheduledVerificationsByDatabaseID
              store now config.databaseID
          with
          | .error error => .error error
          | .ok canceled =>
              create canceled
                { newPending id now backup .afterBackup with
                  databaseID := config.databaseID }

------------------------------------------------------------
-- Canceling and Reaping
------------------------------------------------------------

/- The user's cancellation, from the row it has read. -/
def cancelVerification
    (store : Store)
    (now : Time)
    (verification : Verification) :
    Except VerificationError Store :=
  if ¬ verification.status.IsActive then
    .error .notRunning
  else
    markTerminal store
      { verificationID := verification.id
        status := .canceled
        failMessage := cancelMessageByUser
        finishedAt := now }

/- One row of the pass over disabled schedules. -/
def cancelAutomaticVerification
    (store : Store)
    (now : Time)
    (row : Verification) :
    Except VerificationError Store :=
  markTerminal store
    { verificationID := row.id
      status := .canceled
      failMessage := cancelMessageScheduleDisabled
      finishedAt := now }

/- One row that `reapStaleRuns` has read as running. -/
def reapStaleRunning
    (store : Store)
    (now : Time)
    (readAt : Time)
    (row : Verification)
    (owner : Option Agent) :
    Except VerificationError Store :=
  if row.agentID = none then
    .ok store
  else
    match owner with
    | none =>
        Service.requeueOrFail store now
          { verification := row
            reason := .agentRemoved
            message := none
            diagnostic := none }
    | some agent =>
        if agent.isDeleted then
          Service.requeueOrFail store now
            { verification := row
              reason := .agentRemoved
              message := none
              diagnostic := none }
        else if hasFreshAcceptedHeartbeat agent readAt then
          .ok store
        else
          Service.requeueOrFail store now
            { verification := row
              reason := .agentLostContact
              message := none
              diagnostic := none }

/- One row that `reapStaleRuns` has read as pending too long. -/
def reapStalePending
    (store : Store)
    (now : Time)
    (row : Verification) :
    Except VerificationError Store :=
  Service.requeueOrFail store now
    { verification := row
      reason := .unclaimedTooLong
      message := none
      diagnostic := none }

/- One row of the agent that its heartbeat may have dropped. -/
def reclaimDroppedRunningJob
    (store : Store)
    (now : Time)
    (readAt : Time)
    (reported : List Uuid)
    (row : Verification) :
    Except VerificationError Store :=
  if reported.contains row.id then
    .ok store
  else
    match row.startedAt with
    | none => .ok store
    | some startedAt =>
        if startedAt < readAt - agentJobReclaimGrace then
          Service.requeueOrFail store now
            { verification := row
              reason := .agentDroppedJob
              message := none
              diagnostic := none }
        else
          .ok store

end Verifications

end Databasus
