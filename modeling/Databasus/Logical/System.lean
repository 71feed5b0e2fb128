import Databasus.Logical.Backup
import Databasus.Storages.Files.Effects

/-
  Logical backups over the stored files, transaction by
  transaction.

  A started backup has a row and a run.  The run writes the
  backup file and the sidecar, then publishes both, or fails
  or cancels the backup.  Recovery, retention, deletions and
  the calls of the storage layer interleave with it.

  Main declarations:
    * `RunStage`
    * `State`
    * `publishBackup`
    * `endBackupAndDiscardFiles`
    * `deleteBackupsWithFiles`
    * `transact`
    * `system`
-/

------------------------------------------------------------
-- Runs of Backups
------------------------------------------------------------

namespace Databasus

namespace Logical

open Storages (StoredFileReference)
open Storages.Files (WriteReceipt)

structure EncryptionHeader where
  salt : String
  nonce : String
deriving DecidableEq, Repr

/- What the pipeline returns for a backup that it stored. -/
structure BackupResult where
  receipt : WriteReceipt
  storedSizeMb : Rat
  rawDatabaseSizeMb : Rat
  timescaledbVersion : String
  encryptionHeader : Option EncryptionHeader
deriving DecidableEq

/- What a run does next. -/
inductive RunStage
  | dumping
  | writingMetadata
      (completion : Completion)
      (receipt : WriteReceipt)
  | publishing
      (completion : Completion)
      (receipts : List WriteReceipt)
  | failing (failMessage : String)
  | cancelling
deriving DecidableEq

/- A run keeps the row as it was when it started. -/
structure Run where
  backup : LogicalBackup
  startedAt : Time
  stage : RunStage
deriving DecidableEq

/- A transaction: the rows around it, and what it requests. -/
structure Commit where
  before : List LogicalBackup
  after : List LogicalBackup
  requested : List StoredFileReference
deriving DecidableEq

/-
  The table, the runs and the storage layer.  The history adds
  the backups started, by their ids, and the transactions.
-/
structure State where
  files : Storages.Files.State
  backups : List LogicalBackup := []
  runs : List Run := []
  started : List Uuid := []
  history : List Commit := []
deriving DecidableEq

structure Environment where
  files : Storages.Files.Environment
  format : NameFormat

def State.setStage
    (s : State)
    (run : Run)
    (stage : RunStage) : State :=
  { s with
    runs :=
      Foundation.Table.updateWhere
        (fun other => other.backup.id = run.backup.id)
        (fun _ => { run with stage := stage }) s.runs }

def State.endRun
    (s : State)
    (run : Run) : State :=
  { s with
    runs :=
      Foundation.Table.deleteWhere
        (fun other => other.backup.id = run.backup.id)
        s.runs }

/- How long ago the run started, in milliseconds. -/
def getDurationMs
    (s : State)
    (run : Run) : Int :=
  (s.files.now - run.startedAt) / 1000000

def completionOf
    (run : Run)
    (result : BackupResult)
    (durationMs : Int) : Completion :=
  { backupID := run.backup.id
    sizeMb := result.storedSizeMb
    rawDatabaseSizeMb := result.rawDatabaseSizeMb
    durationMs := durationMs
    encryption :=
      if result.encryptionHeader.isSome then
        .encrypted
      else
        run.backup.encryption
    encryptionSalt :=
      match result.encryptionHeader with
      | some header => some header.salt
      | none => run.backup.encryptionSalt
    encryptionIV :=
      match result.encryptionHeader with
      | some header => some header.nonce
      | none => run.backup.encryptionIV
    timescaledbVersion := result.timescaledbVersion }

------------------------------------------------------------
-- Transactions
------------------------------------------------------------

open Foundation Storages
open Storages.Files (RequestedDeletion WriteReceipt)

/- A state, and the files it has requested the deletion of. -/
abbrev Requested := State × List StoredFileReference

/- New obligations get ids from the given one on. -/
def numberRequests
    (firstID : Uuid) :
    List StoredFileReference → List RequestedDeletion
  | [] => []
  | reference :: references =>
      { reference := reference, newID := firstID } ::
        numberRequests (firstID + 1) references

def requestFileDeletions
    (env : Environment)
    (s : State)
    (firstID : Uuid)
    (removedBackups : List LogicalBackup) :
    Option Requested :=
  let references :=
    removedBackups.flatMap LogicalBackup.getStoredFiles
  match
    Storages.Files.step env.files s.files
      (.requestFileDeletions s.files.now
        (numberRequests firstID references))
  with
  | none => none
  | some files => some ({ s with files := files }, references)

/-
  Spend the receipts, complete the row, and record the success
  on the database; any of them may refuse, which rolls all of
  them back.
-/
def publishBackup
    (env : Environment)
    (s : State)
    (completion : Completion)
    (receipts : List WriteReceipt)
    (isRecorded : Bool) : Option State :=
  match
    Storages.Files.step env.files s.files
      (.confirmFileWrites receipts)
  with
  | none => none
  | some files =>
      let (backups, isCompleted) :=
        complete s.backups completion
      if isCompleted ∧ isRecorded then
        some { s with files := files, backups := backups }
      else
        none

/- A backup that is no longer running keeps its files. -/
def endBackupAndDiscardFiles
    (env : Environment)
    (s : State)
    (backup : LogicalBackup)
    (firstID : Uuid)
    (terminal : List LogicalBackup × Bool) :
    Option Requested :=
  if terminal.2 then
    requestFileDeletions env { s with backups := terminal.1 }
      firstID [backup]
  else
    some (s, [])

def deleteBackupsWithFiles
    (env : Environment)
    (s : State)
    (firstID : Uuid)
    (backupIDs : List Uuid) : Option Requested :=
  let (backups, removed) := deleteByIDs s.backups backupIDs
  requestFileDeletions env { s with backups := backups }
    firstID removed

inductive RemovalRefusal
  | backupNotFound
  | runningBackupDeletion
  | backupReadByRestore
  | backupRunning
  | restoreRunning
deriving DecidableEq, Repr

/-
  The checks that deleting a backup makes on its locked row.
  Retention makes the same ones and leaves the backup alone.
-/
def checkRemoval
    (s : State)
    (backupID : Uuid)
    (isReadByRestore : Bool) : Except RemovalRefusal Unit :=
  match getForUpdate s.backups backupID with
  | none => .error .backupNotFound
  | some lockedBackup =>
      if lockedBackup.status = .inProgress then
        .error .runningBackupDeletion
      else if isReadByRestore then
        .error .backupReadByRestore
      else
        .ok ()

/- What refuses to remove the backups of a database. -/
def checkDatabaseRemoval
    (s : State)
    (databaseID : Uuid)
    (isRestoreRunning : Bool) : Except RemovalRefusal Unit :=
  if isInProgressForDatabase s.backups databaseID then
    .error .backupRunning
  else if isRestoreRunning then
    .error .restoreRunning
  else
    .ok ()

/- A refusal rolls the transaction back. -/
def unlessRefused
    (s : State)
    (checked : Except RemovalRefusal Unit)
    (removal : Option Requested) : Option Requested :=
  match checked with
  | .error _ => some (s, [])
  | .ok () => removal

def deleteBackup
    (env : Environment)
    (s : State)
    (backupID : Uuid)
    (isReadByRestore : Bool)
    (firstID : Uuid) : Option Requested :=
  unlessRefused s (checkRemoval s backupID isReadByRestore)
    (deleteBackupsWithFiles env s firstID [backupID])

/- Retention leaves out what it may not remove. -/
def removeExpiredBackup
    (env : Environment)
    (s : State)
    (backupID : Uuid)
    (isReadByRestore : Bool)
    (firstID : Uuid) : Option Requested :=
  unlessRefused s (checkRemoval s backupID isReadByRestore)
    (deleteBackupsWithFiles env s firstID [backupID])

def onDatabaseDeleting
    (env : Environment)
    (s : State)
    (databaseID : Uuid)
    (isRestoreRunning : Bool)
    (firstID : Uuid) : Option Requested :=
  unlessRefused s
    (checkDatabaseRemoval s databaseID isRestoreRunning)
    (deleteBackupsWithFiles env s firstID
      (lockAndListBackupIDsOfDatabase s.backups databaseID))

/- A config save that names another storage does the same. -/
def removeBackupsForStorageChange
    (env : Environment)
    (s : State)
    (databaseID : Uuid)
    (isRestoreRunning : Bool)
    (firstID : Uuid) : Option Requested :=
  unlessRefused s
    (checkDatabaseRemoval s databaseID isRestoreRunning)
    (deleteBackupsWithFiles env s firstID
      (lockAndListBackupIDsOfDatabase s.backups databaseID))

def restartFailMessage : String :=
  "Backup failed due to application restart"

/- The backups that the previous run left in progress. -/
def recoverAtStartup
    (env : Environment)
    (s : State)
    (firstID : Uuid) : Option Requested :=
  let (backups, failed) :=
    failAllInProgress s.backups restartFailMessage
  requestFileDeletions env { s with backups := backups }
    firstID failed

structure BackupStart where
  databaseID : Uuid
  databaseName : String
  storageID : Uuid
  backupID : Uuid
deriving DecidableEq, Repr

def newBackup
    (env : Environment)
    (s : State)
    (start : BackupStart) : LogicalBackup :=
  { id := start.backupID
    databaseID := start.databaseID
    storageID := start.storageID
    fileName :=
      newFileName env.format start.databaseName
        start.backupID s.files.now
    status := .inProgress
    createdAt := s.files.now }

/-
  One running backup per database, under a new identifier.
  The run is launched when the insert is known to have
  committed.
-/
def startBackup
    (env : Environment)
    (s : State)
    (start : BackupStart)
    (answer : Files.Answer) : Option State :=
  if
    isInProgressForDatabase s.backups start.databaseID =
        false ∧
      answer.isApplied = true ∧
        ∀ id ∈ s.started,
          env.format.uuidText id ≠
            env.format.uuidText start.backupID
  then
    let backup := newBackup env s start
    some
      { s with
        backups := s.backups ++ [backup]
        started := start.backupID :: s.started
        runs :=
          if answer = .answered then
            s.runs ++
              [{ backup := backup
                 startedAt := s.files.now
                 stage := .dumping }]
          else
            s.runs }
  else
    none

------------------------------------------------------------
-- Steps of a Run
------------------------------------------------------------

open Storages

inductive RunEvent
  | pipelineFailed (failMessage : String)
  | pipelineCancelled
  | pipelineEnded (result : BackupResult)
  | metadataFailed (failMessage : String)
  | metadataWritten (receipt : WriteReceipt)
  | publish
      (isRecorded : Bool)
      (answer : Files.Answer)
      (failMessage : String)
  | fail (answer : Files.Answer) (firstID : Uuid)
  | cancel (answer : Files.Answer) (firstID : Uuid)
deriving DecidableEq

/- A receipt that the storage layer gave for the file. -/
def State.hasReceipt
    (s : State)
    (receipt : WriteReceipt)
    (reference : StoredFileReference) : Prop :=
  receipt ∈ s.files.delivered ∧ receipt.reference = reference

instance instDecidableHasReceipt
    (s : State)
    (receipt : WriteReceipt)
    (reference : StoredFileReference) :
    Decidable (s.hasReceipt receipt reference) :=
  inferInstanceAs (Decidable (_ ∧ _))

def backupReference
    (backup : LogicalBackup) : StoredFileReference :=
  { storageID := backup.storageID
    fileName := backup.fileName }

def metadataReference
    (backup : LogicalBackup) : StoredFileReference :=
  { storageID := backup.storageID
    fileName := backup.fileName ++ metadataSuffix }

/- A publication that is not known to be kept fails. -/
def endPublication
    (env : Environment)
    (s : State)
    (run : Run)
    (completion : Completion)
    (receipts : List WriteReceipt)
    (isRecorded : Bool)
    (answer : Files.Answer)
    (failMessage : String) : State :=
  if answer.isApplied then
    match
      publishBackup env s completion receipts isRecorded
    with
    | none => s.setStage run (.failing failMessage)
    | some s' =>
        if answer = .answered then
          s'.endRun run
        else
          s'.setStage run (.failing failMessage)
  else
    s.setStage run (.failing failMessage)

/- The run is over, whatever becomes of the transaction. -/
def endRunWith
    (run : Run)
    (s : State)
    (answer : Files.Answer)
    (transaction : Option Requested) : Option Requested :=
  if answer.isApplied then
    transaction.map fun committed =>
      (committed.1.endRun run, committed.2)
  else
    some (s.endRun run, [])

def advanceRun
    (env : Environment)
    (s : State)
    (run : Run) :
    RunStage → RunEvent → Option Requested
  | .dumping, .pipelineFailed failMessage =>
      some (s.setStage run (.failing failMessage), [])
  | .dumping, .pipelineCancelled =>
      some (s.setStage run .cancelling, [])
  | .dumping, .pipelineEnded result =>
      if
        s.hasReceipt result.receipt (backupReference run.backup)
      then
        some
          (s.setStage run
            (.writingMetadata
              (completionOf run result (getDurationMs s run))
              result.receipt), [])
      else
        none
  | .writingMetadata _ _, .metadataFailed failMessage =>
      some (s.setStage run (.failing failMessage), [])
  | .writingMetadata completion receipt,
      .metadataWritten metadataReceipt =>
      if
        s.hasReceipt metadataReceipt
          (metadataReference run.backup)
      then
        some
          (s.setStage run
            (.publishing completion
              [receipt, metadataReceipt]), [])
      else
        none
  | .publishing completion receipts,
      .publish isRecorded answer failMessage =>
      some
        (endPublication env s run completion receipts
          isRecorded answer failMessage, [])
  | .failing failMessage, .fail answer firstID =>
      endRunWith run s answer
        (endBackupAndDiscardFiles env s run.backup firstID
          (fail s.backups run.backup.id failMessage
            (getDurationMs s run)))
  | .cancelling, .cancel answer firstID =>
      endRunWith run s answer
        (endBackupAndDiscardFiles env s run.backup firstID
          (cancel s.backups run.backup.id
            (getDurationMs s run)))
  | _, _ => none

------------------------------------------------------------
-- The System
------------------------------------------------------------

inductive Action
  | files (action : Storages.Files.Action)
  | startBackup (start : BackupStart) (answer : Files.Answer)
  | recordProgress
      (backupID : Uuid)
      (sizeMb : Rat)
      (durationMs : Int)
  | run (backupID : Uuid) (event : RunEvent)
  | deleteBackup
      (backupID : Uuid)
      (isReadByRestore : Bool)
      (firstID : Uuid)
  | removeExpiredBackup
      (backupID : Uuid)
      (isReadByRestore : Bool)
      (firstID : Uuid)
  | onDatabaseDeleting
      (databaseID : Uuid)
      (isRestoreRunning : Bool)
      (firstID : Uuid)
  | removeBackupsForStorageChange
      (databaseID : Uuid)
      (isRestoreRunning : Bool)
      (firstID : Uuid)
  | recoverAtStartup (firstID : Uuid)
  | crash
deriving DecidableEq

/- Calls of the storage layer that no transaction makes. -/
def isOwnCall : Storages.Files.Action → Bool
  | .confirmFileWrites _ => false
  | .requestFileDeletions _ _ => false
  | _ => true

def advanceFiles
    (env : Environment)
    (s : State)
    (action : Storages.Files.Action) : Option State :=
  if isOwnCall action then
    (Storages.Files.step env.files s.files action).map
      fun files => { s with files := files }
  else
    none

/- What an action changes, and the files that it requests. -/
def transact
    (env : Environment)
    (s : State) : Action → Option Requested
  | .files action =>
      (advanceFiles env s action).map fun s' => (s', [])
  | .startBackup start answer =>
      (startBackup env s start answer).map fun s' => (s', [])
  | .recordProgress backupID sizeMb durationMs =>
      some
        ({ s with
          backups :=
            (updateProgress s.backups backupID sizeMb
              durationMs).1 }, [])
  | .run backupID event =>
      match
        s.runs.find? fun run => run.backup.id = backupID
      with
      | none => none
      | some run => advanceRun env s run run.stage event
  | .deleteBackup backupID isReadByRestore firstID =>
      deleteBackup env s backupID isReadByRestore firstID
  | .removeExpiredBackup backupID isReadByRestore firstID =>
      removeExpiredBackup env s backupID isReadByRestore
        firstID
  | .onDatabaseDeleting databaseID isRestoreRunning firstID =>
      onDatabaseDeleting env s databaseID isRestoreRunning
        firstID
  | .removeBackupsForStorageChange databaseID
      isRestoreRunning firstID =>
      removeBackupsForStorageChange env s databaseID
        isRestoreRunning firstID
  | .recoverAtStartup firstID =>
      recoverAtStartup env s firstID
  | .crash => some ({ s with runs := [] }, [])

/- Every transaction goes down in the history. -/
def record
    (s : State)
    (committed : Requested) : State :=
  { committed.1 with
    history :=
      { before := s.backups
        after := committed.1.backups
        requested := committed.2 } :: s.history }

def step
    (env : Environment)
    (s : State)
    (action : Action) : Option State :=
  (transact env s action).map (record s)

/- No backup is started and no file is stored at first. -/
def initialState (now : Time) : State :=
  { files := Storages.Files.initialState now }

def system
    (env : Environment) : TransitionSystem State Action where
  initial s := ∃ now, s = initialState now
  step := step env

end Logical

end Databasus
