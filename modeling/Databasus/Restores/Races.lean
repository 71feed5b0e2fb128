import Databasus.Foundation.RowLocks
import Databasus.Foundation.Runs
import Databasus.Logical.Backup
import Databasus.Restores.Restore

/-
  Restores that start while backups are removed.

  Each statement of a transaction is a step of its own.  It
  sees what is committed, and takes the row locks it needs or
  waits for them.  What a transaction writes becomes visible
  when it commits, and a transaction may fail at any step.

  Main declarations:
    * `RemovalCause`
    * `Stage`, `Transaction`
    * `RaceState`
    * `insertRestore`
    * `lockRow`, `checkBackups`, `checkRestores`
    * `commit`
    * `raceSystem`
-/

------------------------------------------------------------
-- Removals
------------------------------------------------------------

namespace Databasus

namespace Restores

open Logical

/- What asks for the removal of backups. -/
inductive RemovalCause
  | deleteBackup (backupID : Uuid)
  | removeExpiredBackup (backupID : Uuid)
  | onDatabaseDeleting (databaseID : Uuid)
  | removeBackupsForStorageChange (databaseID : Uuid)
deriving DecidableEq, Repr

/- One backup, or every backup of a database. -/
inductive RemovalScope
  | backup (backupID : Uuid)
  | database (databaseID : Uuid)
deriving DecidableEq, Repr

def RemovalCause.scope : RemovalCause → RemovalScope
  | .deleteBackup backupID => .backup backupID
  | .removeExpiredBackup backupID => .backup backupID
  | .onDatabaseDeleting databaseID => .database databaseID
  | .removeBackupsForStorageChange databaseID =>
      .database databaseID

def RemovalScope.covers
    (backup : LogicalBackup) : RemovalScope → Bool
  | .backup backupID => backup.id = backupID
  | .database databaseID => backup.databaseID = databaseID

/- The rows that the locking statement finds. -/
def RemovalScope.listIDs
    (backups : List LogicalBackup)
    (scope : RemovalScope) : List Uuid :=
  (backups.filter fun backup => scope.covers backup).map
    LogicalBackup.id

/- A backup that is gone or runs, or one of the database. -/
def RemovalScope.isRefusedByBackups
    (backups : List LogicalBackup) : RemovalScope → Bool
  | .backup backupID =>
      match getForUpdate backups backupID with
      | none => true
      | some lockedBackup =>
          lockedBackup.status = .inProgress
  | .database databaseID =>
      isInProgressForDatabase backups databaseID

/- A restore that reads the backup, or one of the database. -/
def RemovalScope.isRefusedByRestores
    (restores : List Restore) : RemovalScope → Bool
  | .backup backupID =>
      isRunningForBackups restores [backupID]
  | .database databaseID =>
      isRunningForDatabase restores databaseID

------------------------------------------------------------
-- Transactions
------------------------------------------------------------

open Foundation
open Storages (StoredFileReference)

/-
  How far a transaction is.  A restore reads its backup before
  its transaction begins; a removal locks row after row.
-/
inductive Stage
  | backupRead (backup : LogicalBackup)
  | restoreInserted (restore : Restore)
  | locking
      (cause : RemovalCause)
      (waiting locked : List Uuid)
  | backupsChecked
      (cause : RemovalCause)
      (backupIDs : List Uuid)
  | restoresChecked (backupIDs : List Uuid)
  | recordsDeleted
      (backupIDs : List Uuid)
      (removed : List LogicalBackup)
deriving DecidableEq

structure Transaction where
  id : Uuid
  stage : Stage
deriving DecidableEq

/-
  What is committed, the requests for deletion with it, the
  row locks on backups, and the transactions under way.  The
  ids of all backups started so far are history.
-/
structure RaceState where
  backups : List LogicalBackup := []
  restores : List Restore := []
  requested : List StoredFileReference := []
  started : List Uuid := []
  locks : List (RowLock Uuid Uuid) := []
  transactions : List Transaction := []
deriving DecidableEq

def RaceState.begin
    (s : RaceState)
    (tx : Uuid)
    (stage : Stage) : RaceState :=
  { s with
    transactions :=
      s.transactions ++ [{ id := tx, stage := stage }] }

def RaceState.setStage
    (s : RaceState)
    (tx : Uuid)
    (stage : Stage) : RaceState :=
  { s with
    transactions :=
      Table.updateWhere (fun other => other.id = tx)
        (fun _ => { id := tx, stage := stage })
        s.transactions }

/- The end of a transaction, which releases its locks. -/
def RaceState.finish
    (s : RaceState)
    (tx : Uuid) : RaceState :=
  { s with
    transactions :=
      Table.deleteWhere (fun other => other.id = tx)
        s.transactions
    locks := RowLock.release s.locks tx }

/- What the read before a restore accepts. -/
def readBackup
    (s : RaceState)
    (tx backupID : Uuid) : Option RaceState :=
  match
    Table.lookup LogicalBackup.id backupID s.backups
  with
  | none => none
  | some backup =>
      if backup.status = .completed then
        some (s.begin tx (.backupRead backup))
      else
        none

def newRestore
    (restoreID : Uuid)
    (backup : LogicalBackup)
    (createdAt : Time) : Restore :=
  { id := restoreID
    backupID := backup.id
    databaseID := backup.databaseID
    status := .inProgress
    createdAt := createdAt }

/- The indexes admit one of two restores. -/
def collides
    (restore row : Restore) : Bool :=
  row.id = restore.id ||
    isRunningOf restore.databaseID row

/- A restore that another transaction has inserted so far. -/
def Transaction.insertedRestore
    (transaction : Transaction) : Option Restore :=
  match transaction.stage with
  | .restoreInserted restore => some restore
  | _ => none

/-
  The insertion fails on a restore that is in its way, and
  waits for one that may yet be committed.  The reference to
  the backup locks the backup's row, and fails without it.
-/
def insertRestore
    (s : RaceState)
    (tx restoreID : Uuid)
    (createdAt : Time)
    (backup : LogicalBackup) : Option RaceState :=
  let restore := newRestore restoreID backup createdAt
  if s.restores.any (collides restore) then
    some (s.finish tx)
  else if
    s.transactions.any fun other =>
      other.insertedRestore.any (collides restore)
  then
    none
  else
    match
      RowLock.acquire s.locks tx backup.id .keyShare
    with
    | none => none
    | some locks =>
        if
          s.backups.any fun row =>
            row.id = backup.id &&
              row.databaseID = backup.databaseID
        then
          some
            ({ s with locks := locks }.setStage tx
              (.restoreInserted restore))
        else
          some (s.finish tx)

def beginRemoval
    (s : RaceState)
    (tx : Uuid)
    (cause : RemovalCause) : RaceState :=
  s.begin tx
    (.locking cause (cause.scope.listIDs s.backups) [])

/- A row that has been deleted meanwhile is not locked. -/
def lockRow
    (s : RaceState)
    (tx backupID : Uuid)
    (cause : RemovalCause)
    (waiting locked : List Uuid) : Option RaceState :=
  if backupID ∈ waiting then
    match RowLock.acquire s.locks tx backupID .update with
    | none => none
    | some locks =>
        if s.backups.any fun row => row.id = backupID then
          some
            ({ s with locks := locks }.setStage tx
              (.locking cause (waiting.erase backupID)
                (backupID :: locked)))
        else
          some
            (s.setStage tx
              (.locking cause (waiting.erase backupID)
                locked))
  else
    none

/- A refusal fails the transaction. -/
def checkBackups
    (s : RaceState)
    (tx : Uuid)
    (cause : RemovalCause)
    (locked : List Uuid) : RaceState :=
  if cause.scope.isRefusedByBackups s.backups then
    s.finish tx
  else
    s.setStage tx (.backupsChecked cause locked)

def checkRestores
    (s : RaceState)
    (tx : Uuid)
    (cause : RemovalCause)
    (backupIDs : List Uuid) : RaceState :=
  if cause.scope.isRefusedByRestores s.restores then
    s.finish tx
  else
    s.setStage tx (.restoresChecked backupIDs)

def deleteBackupRecords
    (s : RaceState)
    (tx : Uuid)
    (backupIDs : List Uuid) : RaceState :=
  s.setStage tx
    (.recordsDeleted backupIDs
      (listByIDs s.backups backupIDs))

/- The restores of a deleted backup are deleted with it. -/
def commitRemoval
    (s : RaceState)
    (tx : Uuid)
    (backupIDs : List Uuid)
    (removed : List LogicalBackup) : RaceState :=
  { s with
    backups := (deleteByIDs s.backups backupIDs).1
    restores :=
      Table.deleteWhere
        (fun restore =>
          backupIDs.contains restore.backupID)
        s.restores
    requested :=
      s.requested ++
        removed.flatMap LogicalBackup.getStoredFiles }.finish
      tx

def commitRestore
    (s : RaceState)
    (tx : Uuid)
    (restore : Restore) : RaceState :=
  { s with restores := s.restores ++ [restore] }.finish tx

------------------------------------------------------------
-- Runs of Backups
------------------------------------------------------------

/- What the runs of backups do to rows, each at its commit. -/
inductive BackupEvent
  | recordProgress
      (backupID : Uuid)
      (sizeMb : Rat)
      (durationMs : Int)
  | complete (completion : Completion)
  | fail
      (backupID : Uuid)
      (failMessage : String)
      (durationMs : Int)
  | cancel (backupID : Uuid) (durationMs : Int)
  | recoverAtStartup (failMessage : String)
deriving DecidableEq

/- The rows that the event's statement looks for. -/
def BackupEvent.selects
    (backup : LogicalBackup) : BackupEvent → Bool
  | .recordProgress backupID _ _ =>
      Logical.isInProgress backupID backup
  | .complete completion =>
      Logical.isInProgress completion.backupID backup
  | .fail backupID _ _ =>
      Logical.isInProgress backupID backup
  | .cancel backupID _ =>
      Logical.isInProgress backupID backup
  | .recoverAtStartup _ => backup.status = .inProgress

/- The rows after the event. -/
def BackupEvent.rows
    (backups : List LogicalBackup) :
    BackupEvent → List LogicalBackup
  | .recordProgress backupID sizeMb durationMs =>
      (updateProgress backups backupID sizeMb durationMs).1
  | .complete completion =>
      (Logical.complete backups completion).1
  | .fail backupID failMessage durationMs =>
      (Logical.fail backups backupID failMessage
        durationMs).1
  | .cancel backupID durationMs =>
      (Logical.cancel backups backupID durationMs).1
  | .recoverAtStartup failMessage =>
      (Logical.failAllInProgress backups failMessage).1

/- A failed or canceled backup has its files discarded. -/
def BackupEvent.discards : BackupEvent → Bool
  | .recordProgress .. => false
  | .complete _ => false
  | .fail .. => true
  | .cancel .. => true
  | .recoverAtStartup _ => true

/- An update waits for the locks of the rows it changes. -/
def applyEvent
    (s : RaceState)
    (tx : Uuid)
    (event : BackupEvent) : Option RaceState :=
  let changed :=
    s.backups.filter fun backup => event.selects backup
  if
    changed.all fun backup =>
      RowLock.isFree s.locks tx backup.id .noKeyUpdate
  then
    some
      { s with
        backups := event.rows s.backups
        requested :=
          if event.discards then
            s.requested ++
              changed.flatMap LogicalBackup.getStoredFiles
          else
            s.requested }
  else
    none

structure BackupStart where
  databaseID : Uuid
  databaseName : String
  storageID : Uuid
  backupID : Uuid
  now : Time
deriving DecidableEq

/- One running backup of a database, with an id of its own. -/
def startBackup
    (format : NameFormat)
    (s : RaceState)
    (start : BackupStart) : Option RaceState :=
  if
    isInProgressForDatabase s.backups start.databaseID =
        false ∧
      ∀ id ∈ s.started,
        format.uuidText id ≠ format.uuidText start.backupID
  then
    some
      { s with
        backups :=
          s.backups ++
            [{ id := start.backupID
               databaseID := start.databaseID
               storageID := start.storageID
               fileName :=
                 newFileName format start.databaseName
                   start.backupID start.now
               status := .inProgress
               createdAt := start.now }]
        started := start.backupID :: s.started }
  else
    none

------------------------------------------------------------
-- The System
------------------------------------------------------------

inductive RaceAction
  | readBackup (tx backupID : Uuid)
  | insertRestore
      (tx restoreID : Uuid)
      (createdAt : Time)
  | beginRemoval (tx : Uuid) (cause : RemovalCause)
  | lockRow (tx backupID : Uuid)
  | proceed (tx : Uuid)
  | rollback (tx : Uuid)
  | endRestore (restoreID : Uuid) (ending : RestoreEnd)
  | failRestoresLeft
  | startBackup (start : BackupStart)
  | applyEvent (tx : Uuid) (event : BackupEvent)
deriving DecidableEq

def RaceState.isOpen
    (s : RaceState)
    (tx : Uuid) : Bool :=
  s.transactions.any fun other => other.id = tx

/- The next statement of a transaction, or its commit. -/
def proceed
    (s : RaceState)
    (tx : Uuid) : Stage → Option RaceState
  | .backupRead _ => none
  | .restoreInserted restore =>
      some (commitRestore s tx restore)
  | .locking cause [] locked =>
      some (checkBackups s tx cause locked)
  | .locking _ _ _ => none
  | .backupsChecked cause backupIDs =>
      some (checkRestores s tx cause backupIDs)
  | .restoresChecked backupIDs =>
      some (deleteBackupRecords s tx backupIDs)
  | .recordsDeleted backupIDs removed =>
      some (commitRemoval s tx backupIDs removed)

def RaceState.stageOf
    (s : RaceState)
    (tx : Uuid) : Option Stage :=
  (Table.lookup Transaction.id tx s.transactions).map
    Transaction.stage

def raceStep
    (format : NameFormat)
    (s : RaceState) : RaceAction → Option RaceState
  | .readBackup tx backupID =>
      if s.isOpen tx then
        none
      else
        readBackup s tx backupID
  | .insertRestore tx restoreID createdAt =>
      match s.stageOf tx with
      | some (.backupRead backup) =>
          insertRestore s tx restoreID createdAt backup
      | _ => none
  | .beginRemoval tx cause =>
      if s.isOpen tx then
        none
      else
        some (beginRemoval s tx cause)
  | .lockRow tx backupID =>
      match s.stageOf tx with
      | some (.locking cause waiting locked) =>
          lockRow s tx backupID cause waiting locked
      | _ => none
  | .proceed tx =>
      match s.stageOf tx with
      | none => none
      | some stage => proceed s tx stage
  | .rollback tx => some (s.finish tx)
  | .endRestore restoreID ending =>
      some
        { s with
          restores :=
            endRestore s.restores restoreID ending }
  | .failRestoresLeft =>
      some
        { s with
          restores :=
            failAllInProgress s.restores
              restartFailMessage }
  | .startBackup start => startBackup format s start
  | .applyEvent tx event =>
      if s.isOpen tx then
        none
      else
        applyEvent s tx event

/- Nothing is stored and no transaction is open at first. -/
def raceSystem
    (format : NameFormat) :
    TransitionSystem RaceState RaceAction where
  initial s := s = {}
  step := raceStep format

end Restores

end Databasus
