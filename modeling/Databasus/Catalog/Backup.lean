import Databasus.Storages.Reference
import Databasus.Walmath.WalFilename

/-
  Rows of the physical backups table and the stored files
  they name.

  Main declarations:
    * `Backup`
    * `Backup.getManifestFileName`
    * `backupFileReferences`
-/

------------------------------------------------------------
-- Columns
------------------------------------------------------------

namespace Databasus

namespace Catalog

open Walmath (LSN)

inductive BackupKind
  | full
  | incremental
deriving DecidableEq, Repr

inductive BackupStatus
  | inProgress
  | completed
  | error
  | chainBroken
  | canceled
deriving DecidableEq, Repr

inductive BackupErrorReason
  | pgBasebackupFailed
  | storageUploadFailed
  | networkFailure
  | networkStallTimeout
  | applicationRestart
  | systemIdentifierMismatch
  | timelineRegression
  | timelineSwitchDetected
  | failoverDuringBackup
  | manifestCorrupted
  | startLsnOutsideTimeline
  | canceledByUser
  | summariesExpired
  | summarizerOff
  | parentManifestMissing
  | summarizerFallingBehind
deriving DecidableEq, Repr

inductive BackupEncryption
  | none
  | encrypted
deriving DecidableEq, Repr

inductive BackupCompression
  | zstd
  | gzip
  | none
deriving DecidableEq, Repr

/- A row of `backups_physical`. -/
structure Backup where
  id : Uuid
  databaseID : Uuid
  storageID : Uuid
  storageGeneration : Int := 0
  kind : BackupKind
  parentBackupID : Option Uuid := none
  rootFullBackupID : Option Uuid := none
  timelineID : Nat
  status : BackupStatus
  errorReason : Option BackupErrorReason := none
  failMessage : Option String := none
  fileName : Option String := none
  startLSN : Option LSN := none
  stopLSN : Option LSN := none
  backupSizeMb : Option Rat := none
  rawSizeMb : Option Rat := none
  backupDurationMs : Option Int := none
  encryption : BackupEncryption := .none
  encryptionSalt : Option String := none
  encryptionIV : Option String := none
  compression : BackupCompression := .zstd
  manifestFileName : Option String := none
  manifestEncryptionSalt : Option String := none
  manifestEncryptionIV : Option String := none
  createdAt : Time
  completedAt : Option Time := none
deriving DecidableEq

/- What the table's check asks of a completed backup. -/
def Backup.HasCompletedColumns
    (backup : Backup) : Prop :=
  backup.fileName.isSome ∧ backup.startLSN.isSome ∧
    backup.stopLSN.isSome ∧ backup.completedAt.isSome

instance instDecidableHasCompletedColumns
    (backup : Backup) :
    Decidable backup.HasCompletedColumns :=
  inferInstanceAs (Decidable (_ ∧ _ ∧ _ ∧ _))

------------------------------------------------------------
-- Stored Files of a Backup
------------------------------------------------------------

open Storages (StoredFileReference)

def metadataSuffix : String := ".metadata"

def manifestSuffix : String := ".manifest"

/- A column that is null reads as the empty name. -/
def getFileName
    (name : Option String) : String :=
  name.getD ""

/- A set name that is not empty. -/
def namedFile
    (name : Option String) : Option String :=
  name.filter fun text => text ≠ ""

/- The manifest's own name, or one derived from the file's. -/
def Backup.getManifestFileName
    (backup : Backup) : String :=
  match namedFile backup.manifestFileName with
  | some name => name
  | none =>
      match namedFile backup.fileName with
      | some name => name ++ manifestSuffix
      | none => ""

/- The artifact, its metadata sidecar and its manifest. -/
def artifactReferences
    (storageID : Uuid)
    (fileName manifestFileName : String) :
    List StoredFileReference :=
  ([fileName, fileName ++ metadataSuffix,
      manifestFileName].filter fun name =>
        name ≠ "" && name ≠ metadataSuffix).map
    fun name =>
      { storageID := storageID
        fileName := name }

def backupFileReferences
    (backup : Backup) : List StoredFileReference :=
  artifactReferences backup.storageID
    (getFileName backup.fileName)
    backup.getManifestFileName

end Catalog

end Databasus
