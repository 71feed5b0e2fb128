import Databasus.Foundation.Runs
import Databasus.Verifications.Service

/-
  The verification module as a transition system.

  Requests, passes and heartbeats interleave.  A transaction
  is one step; what an actor has read before its transaction
  is kept in the state until the actor comes back with it.

  Main declarations:
    * `Environment`
    * `State`
    * `Action`
    * `step`
    * `system`
    * `sampleEnvironment`
-/

------------------------------------------------------------
-- States and Actions
------------------------------------------------------------

namespace Databasus

namespace Verifications

open Logical (LogicalBackup)

/- What does not change while verifications come and go. -/
structure Environment where
  backups : List LogicalBackup
  uniqueBackups :
    Foundation.Table.UniqueBy LogicalBackup.id backups
  capacityOf : Uuid → AgentCapacity

/- An agent's execution of one attempt of a run. -/
structure Execution where
  verificationID : Uuid
  agentID : Uuid
  attempt : Nat
deriving DecidableEq, Repr

/-
  `seen` holds the rows that passes and heartbeats have read
  and may still act on, and `claims` the claim requests that
  have read their load.  `executions` records every attempt
  an agent was given; no function of the source reads it.
-/
structure State where
  store : Store
  now : Time
  seen : List Verification
  claims : List ClaimRequest
  executions : List Execution
deriving DecidableEq

/-
  The requests and passes.  An identifier that a request
  generates, and what it reads from other modules, are part of
  its action.
-/
inductive Action
  | tick (later : Time)
  | observe (verificationID : Uuid)
  | startVerification (id backupID : Uuid)
  | scheduleForCompletedBackup
      (id : Uuid)
      (config : Config)
      (verifiableBackup : Option LogicalBackup)
      (database : VerifiableDatabase)
  | createScheduledRun
      (id : Uuid)
      (config : Config)
      (backup : LogicalBackup)
  | beginClaim (agent : Agent)
  | finishClaim
      (agentID : Uuid)
      (lockedByOthers : List Uuid)
      (databases : List VerifiableDatabase)
  | abandonClaim (agentID : Uuid)
  | submitReport
      (execution : Execution)
      (report : ReportRequest)
  | reclaimDroppedRunningJob
      (readAt : Time)
      (agentID : Uuid)
      (reported : List Uuid)
      (row : Verification)
  | reapStaleRunning
      (readAt : Time)
      (row : Verification)
      (owner : Option Agent)
  | reapStalePending
      (readAt : Time)
      (row : Verification)
  | cancelVerification (row : Verification)
  | cancelAutomaticVerification (row : Verification)

------------------------------------------------------------
-- Steps
------------------------------------------------------------

/- Commit the transaction, or keep the store it rolled back. -/
def commit
    (s : State)
    (outcome : Except VerificationError Store) : State :=
  match outcome with
  | .error _ => s
  | .ok store => { s with store := store }

/- The execution that an assignment starts. -/
def executionOf
    (store : Store)
    (agentID : Uuid)
    (assignment : VerificationAssignment) :
    List Execution :=
  match getVerification store assignment.verificationID with
  | none => []
  | some run =>
      [{ verificationID := assignment.verificationID
         agentID := agentID
         attempt := run.attemptCount }]

def beginClaim
    (env : Environment)
    (s : State)
    (agent : Agent) : Option State :=
  if s.claims.any fun claim => claim.agentID = agent.id then
    none
  else
    match mayClaim agent (env.capacityOf agent.id) s.now with
    | .error _ => some s
    | .ok false => some s
    | .ok true =>
        some
          { s with
            claims :=
              { agentID := agent.id
                capacity := env.capacityOf agent.id
                runningBackups :=
                  readRunningBackups s.store env.backups
                    agent.id } :: s.claims }

def dropClaim
    (s : State)
    (agentID : Uuid) : State :=
  { s with
    claims :=
      s.claims.filter fun claim => claim.agentID ≠ agentID }

def finishClaim
    (env : Environment)
    (s : State)
    (agentID : Uuid)
    (lockedByOthers : List Uuid)
    (databases : List VerifiableDatabase) : Option State :=
  match
    s.claims.find? fun claim => claim.agentID = agentID
  with
  | none => none
  | some request =>
      match
        claimVerification s.store env.backups s.now request
          lockedByOthers databases
      with
      | .error _ => some (dropClaim s agentID)
      | .ok (store, none) =>
          some { dropClaim s agentID with store := store }
      | .ok (store, some assignment) =>
          some
            { dropClaim s agentID with
              store := store
              executions :=
                executionOf store agentID assignment ++
                  s.executions }

def step
    (env : Environment)
    (s : State) : Action → Option State
  | .tick later =>
      if s.now ≤ later then
        some { s with now := later }
      else
        none
  | .observe verificationID =>
      (getVerification s.store verificationID).map
        fun row => { s with seen := row :: s.seen }
  | .startVerification id backupID =>
      some
        (commit s
          (startVerification s.store env.backups s.now id
            backupID))
  | .scheduleForCompletedBackup id config backup database =>
      some
        (commit s
          (scheduleVerificationForCompletedBackup s.store
            s.now id config backup database))
  | .createScheduledRun id config backup =>
      if backup ∈ env.backups ∧
          backup.databaseID = config.databaseID ∧
            backup.status = .completed then
        some
          (commit s
            (createScheduledRun s.store s.now id config
              backup))
      else
        none
  | .beginClaim agent => beginClaim env s agent
  | .finishClaim agentID lockedByOthers databases =>
      finishClaim env s agentID lockedByOthers databases
  | .abandonClaim agentID => some (dropClaim s agentID)
  | .submitReport execution report =>
      some
        (commit s
          (Service.submitReport s.store env.backups s.now
            execution.agentID execution.verificationID
              report))
  | .reclaimDroppedRunningJob readAt agentID reported row =>
      if row ∈ s.seen ∧ readAt ≤ s.now ∧
          row.status = .running ∧
            row.agentID = some agentID then
        some
          (commit s
            (reclaimDroppedRunningJob s.store s.now readAt
              reported row))
      else
        none
  | .reapStaleRunning readAt row owner =>
      if row ∈ s.seen ∧ readAt ≤ s.now ∧
          row.status = .running then
        some
          (commit s
            (reapStaleRunning s.store s.now readAt row
              owner))
      else
        none
  | .reapStalePending readAt row =>
      if row ∈ s.seen ∧ readAt ≤ s.now ∧
          row.status = .pending ∧
            row.createdAt < readAt - maxPendingDuration then
        some (commit s (reapStalePending s.store s.now row))
      else
        none
  | .cancelVerification row =>
      if row ∈ s.seen then
        some (commit s (cancelVerification s.store s.now row))
      else
        none
  | .cancelAutomaticVerification row =>
      if row ∈ s.seen ∧ row.status.IsActive ∧
          row.trigger ≠ .manual then
        some
          (commit s
            (cancelAutomaticVerification s.store s.now row))
      else
        none

/- The module starts with an empty table and nothing read. -/
def system
    (env : Environment) :
    Foundation.TransitionSystem State Action where
  initial s :=
    s.store.runs = [] ∧ s.seen = [] ∧ s.claims = [] ∧ s.executions = []
  step := step env

------------------------------------------------------------
-- A Small Deployment
------------------------------------------------------------

/- Nothing has been created or read yet. -/
def initialState
    (now : Time) : State :=
  { store := { runs := [] }
    now := now
    seen := []
    claims := []
    executions := [] }

theorem initial_initialState
    (env : Environment)
    (now : Time) :
    (system env).initial (initialState now) :=
  ⟨rfl, rfl, rfl, rfl⟩

/- A completed backup whose restore needs 4608 megabytes. -/
def sampleBackup : LogicalBackup :=
  { id := 1
    databaseID := 1
    storageID := 1
    fileName := "shop"
    status := .completed
    backupSizeMb := 1024
    backupRawDbSizeMb := 2048
    createdAt := 0 }

/- One backup, and agents with a budget of 10240 megabytes. -/
def sampleEnvironment : Environment :=
  { backups := [sampleBackup]
    uniqueBackups := by decide
    capacityOf := fun _ =>
      { maxCPU := 4
        maxRAMMb := 8192
        maxDiskGb := 10
        maxConcurrentJobs := 4 } }

def sampleAgent : Agent :=
  { id := 7
    lastSeenAt := some 0
    deletedAt := none }

def sampleDatabase : VerifiableDatabase :=
  { id := 1
    type := .postgresqlLogical
    version := "17" }

/- The agent asks for work and is given what fits. -/
def sampleClaim : List Action :=
  [.beginClaim sampleAgent,
    .finishClaim sampleAgent.id [] [sampleDatabase]]

/- A report that the restore went well. -/
def sampleSuccess : ReportRequest :=
  { status := .completed
    pgRestoreExitCode := some 0
    failureKind := none
    restoreDurationMs := some 5000
    verifyDurationMs := some 100
    restoredDatabaseSizeBytes := none
    tableCount := some 1
    schemaCount := some 1
    tableStats := []
    failMessage := none
    failureDiagnostic := none }

/- A report that the agent could not set the restore up. -/
def sampleSetupFailure : ReportRequest :=
  { sampleSuccess with
    status := .failed
    pgRestoreExitCode := none }

end Verifications

end Databasus
