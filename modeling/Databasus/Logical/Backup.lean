import Mathlib.Algebra.Group.Nat.Defs
import Databasus.Foundation.Table
import Databasus.Storages.Reference

/-
  Rows of the logical backups table, the files that they name,
  and the statements that change them.  Sizes are megabytes;
  the rounding of the floating point columns is not modelled.

  Main declarations:
    * `LogicalBackup`
    * `listByIDs`
    * `newFileName`
    * `storedFiles_apart`
    * `updateInProgress`
    * `failAllInProgress`
    * `deleteByIDs`
-/

------------------------------------------------------------
-- Rows
------------------------------------------------------------

namespace Databasus

namespace Logical

open Storages (StoredFileReference)

inductive LogicalBackupStatus
  | inProgress
  | completed
  | failed
  | canceled
deriving DecidableEq, Repr

inductive Encryption
  | none
  | encrypted
deriving DecidableEq, Repr

inductive VerificationStatus
  | notVerified
  | verifiedSuccessful
  | verificationFailed
deriving DecidableEq, Repr

/- A row of `backups_logical`. -/
structure LogicalBackup where
  id : Uuid
  databaseID : Uuid
  storageID : Uuid
  fileName : String
  status : LogicalBackupStatus
  failMessage : Option String := none
  backupSizeMb : Rat := 0
  backupRawDbSizeMb : Rat := 0
  backupDurationMs : Int := 0
  encryption : Encryption := .none
  encryptionSalt : Option String := none
  encryptionIV : Option String := none
  timescaledbVersion : String := ""
  restoreVerificationStatus : VerificationStatus :=
    .notVerified
  createdAt : Time
deriving DecidableEq

/- The rows with one of the ids: `id IN ?` lists a row once. -/
def listByIDs
    (backups : List LogicalBackup)
    (backupIDs : List Uuid) : List LogicalBackup :=
  backups.filter fun backup =>
    backupIDs.contains backup.id

def metadataSuffix : String := ".metadata"

/- The backup file and its metadata sidecar. -/
def LogicalBackup.getStoredFiles
    (backup : LogicalBackup) : List StoredFileReference :=
  [{ storageID := backup.storageID
     fileName := backup.fileName },
    { storageID := backup.storageID
      fileName := backup.fileName ++ metadataSuffix }]

------------------------------------------------------------
-- File Names
------------------------------------------------------------

/-
  How identifiers and instants are written.  The text of an
  identifier has 36 characters, which are hexadecimal digits
  and hyphens.
-/
structure NameFormat where
  uuidText : Uuid → String
  timestamp : Time → String
  length_uuidText :
    ∀ id, (uuidText id).toList.length = 36
  noDot_uuidText : ∀ id, '.' ∉ (uuidText id).toList

def replaceUnsafe (c : Char) : Char :=
  if c = ' ' then
    '_'
  else if c ∈ ['/', '\\', ':', '*', '?', '\"', '<', '>', '|']
  then
    '-'
  else
    c

def sanitizeFilename (name : String) : String :=
  String.ofList (name.toList.map replaceUnsafe)

/- The name of the stored file of one backup attempt. -/
def newFileName
    (format : NameFormat)
    (databaseName : String)
    (backupID : Uuid)
    (startedAt : Time) : String :=
  sanitizeFilename databaseName ++ "-" ++
      format.timestamp startedAt ++ "-" ++
    format.uuidText backupID

/- The name of the row's file ends in the text of its id. -/
def LogicalBackup.IsNamed
    (format : NameFormat)
    (backup : LogicalBackup) : Prop :=
  ∃ lead,
    backup.fileName = lead ++ format.uuidText backup.id

variable {format : NameFormat}

/- Names that end in different identifiers are different. -/
theorem named_ne
    {first second : Uuid}
    (hIDs : format.uuidText first ≠ format.uuidText second)
    (lead lead' : String) :
    lead ++ format.uuidText first ≠
      lead' ++ format.uuidText second := by
  intro hSame
  have hLists := congrArg String.toList hSame
  rw [String.toList_append, String.toList_append] at hLists
  have hLengths :=
    (format.length_uuidText first).trans
      (format.length_uuidText second).symm
  exact
    hIDs
      (String.toList_injective
        (List.append_inj' hLists hLengths).2)

/- No backup file is named like a sidecar. -/
theorem named_ne_metadata
    (id : Uuid)
    (lead name : String) :
    lead ++ format.uuidText id ≠ name ++ metadataSuffix := by
  intro hSame
  have hLists := congrArg String.toList hSame
  rw [String.toList_append, String.toList_append] at hLists
  have hText :
      (format.uuidText id).toList <:+
        lead.toList ++ (format.uuidText id).toList :=
    List.suffix_append _ _
  have hSuffix :
      metadataSuffix.toList <:+
        lead.toList ++ (format.uuidText id).toList := by
    rw [hLists]
    exact List.suffix_append _ _
  have hShorter :
      metadataSuffix.toList.length ≤
        (format.uuidText id).toList.length := by
    rw [format.length_uuidText]
    decide
  have hWithin :=
    List.suffix_of_suffix_length_le hSuffix hText hShorter
  exact
    format.noDot_uuidText id
      (hWithin.subset (by decide))

/- Backups with different identifiers share no file. -/
theorem storedFiles_apart
    {first second : LogicalBackup}
    (hFirst : first.IsNamed format)
    (hSecond : second.IsNamed format)
    (hIDs :
      format.uuidText first.id ≠ format.uuidText second.id) :
    ∀ reference ∈ first.getStoredFiles,
      reference ∉ second.getStoredFiles := by
  rcases hFirst with ⟨lead, hName⟩
  rcases hSecond with ⟨lead', hName'⟩
  have hNames : first.fileName ≠ second.fileName := by
    rw [hName, hName']
    exact named_ne hIDs lead lead'
  have hSidecars :
      first.fileName ++ metadataSuffix ≠
        second.fileName ++ metadataSuffix := by
    intro hSame
    have hLists := congrArg String.toList hSame
    rw [String.toList_append, String.toList_append] at hLists
    exact
      hNames
        (String.toList_injective
          (List.append_cancel_right hLists))
  have hMixed :
      first.fileName ≠ second.fileName ++ metadataSuffix := by
    rw [hName]
    exact named_ne_metadata _ _ _
  have hMixed' :
      second.fileName ≠ first.fileName ++ metadataSuffix := by
    rw [hName']
    exact named_ne_metadata _ _ _
  intro reference hReference hOther
  simp only [LogicalBackup.getStoredFiles, List.mem_cons,
    List.not_mem_nil, or_false] at hReference hOther
  rcases hReference with rfl | rfl
  · rcases hOther with hSame | hSame
    · exact hNames (congrArg (·.fileName) hSame)
    · exact hMixed (congrArg (·.fileName) hSame)
  · rcases hOther with hSame | hSame
    · exact hMixed' (congrArg (·.fileName) hSame).symm
    · exact hSidecars (congrArg (·.fileName) hSame)

------------------------------------------------------------
-- Rows of One Backup
------------------------------------------------------------

def LogicalBackup.IsDiscarded
    (backup : LogicalBackup) : Prop :=
  backup.status = .failed ∨ backup.status = .canceled

theorem LogicalBackup.IsDiscarded.not_running
    {backup : LogicalBackup}
    (hDiscarded : backup.IsDiscarded) :
    backup.status ≠ .inProgress := by
  rcases hDiscarded with hFailed | hCanceled
  · simp [hFailed]
  · simp [hCanceled]

theorem LogicalBackup.IsDiscarded.not_completed
    {backup : LogicalBackup}
    (hDiscarded : backup.IsDiscarded) :
    backup.status ≠ .completed := by
  rcases hDiscarded with hFailed | hCanceled
  · simp [hFailed]
  · simp [hCanceled]

/- Rows of one backup, which name the same files. -/
structure SameFiles
    (first second : LogicalBackup) : Prop where
  id_eq : first.id = second.id
  storageID_eq : first.storageID = second.storageID
  fileName_eq : first.fileName = second.fileName

theorem SameFiles.getStoredFiles_eq
    {first second : LogicalBackup}
    (hSame : SameFiles first second) :
    first.getStoredFiles = second.getStoredFiles := by
  rw [LogicalBackup.getStoredFiles,
    LogicalBackup.getStoredFiles, hSame.storageID_eq,
    hSame.fileName_eq]

theorem SameFiles.isNamed
    {first second : LogicalBackup}
    (hSame : SameFiles first second)
    (hNamed : first.IsNamed format) :
    second.IsNamed format := by
  rcases hNamed with ⟨lead, hName⟩
  refine ⟨lead, ?_⟩
  rw [← hSame.fileName_eq, ← hSame.id_eq, hName]

/- So many hexadecimal digits of a number. -/
def hexDigits : Nat → Nat → List Char
  | 0, _ => []
  | count + 1, n =>
      hexDigits count (n / 16) ++ [Nat.digitChar (n % 16)]

theorem length_hexDigits
    (count n : Nat) :
    (hexDigits count n).length = count := by
  induction count generalizing n with
  | zero => rfl
  | succ count ih => simp [hexDigits, ih]

theorem noDot_hexDigits
    (count n : Nat) :
    '.' ∉ hexDigits count n := by
  induction count generalizing n with
  | zero => exact List.not_mem_nil
  | succ count ih =>
      have hDigit : ∀ d < 16, '.' ≠ Nat.digitChar d := by
        decide
      intro hMember
      rcases List.mem_append.mp hMember with hOld | hLast
      · exact ih _ hOld
      · exact
          hDigit (n % 16) (Nat.mod_lt _ (by decide))
            (List.mem_singleton.mp hLast)

/- The usual text of an identifier, at the first second. -/
def sampleFormat : NameFormat where
  uuidText id :=
    String.ofList
      (hexDigits 8 (id / 16 ^ 24) ++ '-' ::
        hexDigits 4 (id / 16 ^ 20) ++ '-' ::
        hexDigits 4 (id / 16 ^ 16) ++ '-' ::
        hexDigits 4 (id / 16 ^ 12) ++ '-' ::
        hexDigits 12 id)
  timestamp _ := "19700101-000000"
  length_uuidText id := by
    simp [length_hexDigits]
  noDot_uuidText id := by
    simp [noDot_hexDigits]

------------------------------------------------------------
-- Statements
------------------------------------------------------------

open Foundation

variable {backup : LogicalBackup}
variable {assignments : LogicalBackup → LogicalBackup}

/- What a published backup records besides its status. -/
structure Completion where
  backupID : Uuid
  sizeMb : Rat
  rawDatabaseSizeMb : Rat
  durationMs : Int
  encryption : Encryption
  encryptionSalt : Option String
  encryptionIV : Option String
  timescaledbVersion : String
deriving DecidableEq

def isInProgress
    (backupID : Uuid)
    (backup : LogicalBackup) : Bool :=
  backup.id = backupID && backup.status = .inProgress

/- Change the row if it is running, and tell whether it was. -/
def updateInProgress
    (backups : List LogicalBackup)
    (backupID : Uuid)
    (assignments : LogicalBackup → LogicalBackup) :
    List LogicalBackup × Bool :=
  (Table.updateWhere (isInProgress backupID) assignments
      backups,
    0 < Table.affected (isInProgress backupID) backups)

def updateProgress
    (backups : List LogicalBackup)
    (backupID : Uuid)
    (sizeMb : Rat)
    (durationMs : Int) : List LogicalBackup × Bool :=
  updateInProgress backups backupID fun backup =>
    { backup with
      backupSizeMb := sizeMb
      backupDurationMs := durationMs }

def complete
    (backups : List LogicalBackup)
    (completion : Completion) : List LogicalBackup × Bool :=
  updateInProgress backups completion.backupID fun backup =>
    { backup with
      status := .completed
      backupSizeMb := completion.sizeMb
      backupRawDbSizeMb := completion.rawDatabaseSizeMb
      backupDurationMs := completion.durationMs
      encryption := completion.encryption
      encryptionSalt := completion.encryptionSalt
      encryptionIV := completion.encryptionIV
      timescaledbVersion := completion.timescaledbVersion }

def fail
    (backups : List LogicalBackup)
    (backupID : Uuid)
    (failMessage : String)
    (durationMs : Int) : List LogicalBackup × Bool :=
  updateInProgress backups backupID fun backup =>
    { backup with
      status := .failed
      failMessage := some failMessage
      backupSizeMb := 0
      backupDurationMs := durationMs }

def cancel
    (backups : List LogicalBackup)
    (backupID : Uuid)
    (durationMs : Int) : List LogicalBackup × Bool :=
  updateInProgress backups backupID fun backup =>
    { backup with
      status := .canceled
      backupSizeMb := 0
      backupDurationMs := durationMs }

def failRunning
    (failMessage : String)
    (backup : LogicalBackup) : LogicalBackup :=
  { backup with
    status := .failed
    failMessage := some failMessage
    backupSizeMb := 0 }

/- Fail every running backup, and return the failed rows. -/
def failAllInProgress
    (backups : List LogicalBackup)
    (failMessage : String) :
    List LogicalBackup × List LogicalBackup :=
  (Table.updateWhere (fun backup => backup.status = .inProgress)
      (failRunning failMessage) backups,
    (backups.filter fun backup =>
      backup.status = .inProgress).map
        (failRunning failMessage))

/- Remove the rows, and return what they were. -/
def deleteByIDs
    (backups : List LogicalBackup)
    (backupIDs : List Uuid) :
    List LogicalBackup × List LogicalBackup :=
  (Table.deleteWhere
      (fun backup => backupIDs.contains backup.id) backups,
    listByIDs backups backupIDs)

def getForUpdate
    (backups : List LogicalBackup)
    (backupID : Uuid) : Option LogicalBackup :=
  Table.lookup LogicalBackup.id backupID backups

/- The rows of the database, locked in one statement. -/
def lockAndListBackupIDsOfDatabase
    (backups : List LogicalBackup)
    (databaseID : Uuid) : List Uuid :=
  (backups.filter fun backup =>
    backup.databaseID = databaseID).map LogicalBackup.id

def isInProgressForDatabase
    (backups : List LogicalBackup)
    (databaseID : Uuid) : Bool :=
  backups.any fun backup =>
    backup.databaseID = databaseID &&
      backup.status = .inProgress

variable {backups : List LogicalBackup}
variable {backupID : Uuid}

theorem isInProgress_iff :
    isInProgress backupID backup = true ↔
      backup.id = backupID ∧ backup.status = .inProgress := by
  simp [isInProgress]

/- An update reports the row that it found running. -/
theorem updateInProgress_reports :
    (updateInProgress backups backupID assignments).2 = true ↔
      ∃ backup ∈ backups,
        backup.id = backupID ∧
          backup.status = .inProgress := by
  simp only [updateInProgress, decide_eq_true_eq,
    Table.affected, List.countP_pos_iff, isInProgress_iff]

/- A row that has ended stays as it is. -/
theorem mem_updateInProgress_of_ended
    (hMember : backup ∈ backups)
    (hEnded : backup.status ≠ .inProgress) :
    backup ∈
      (updateInProgress backups backupID assignments).1 := by
  apply Table.mem_updateWhere_of_not hMember
  simp [isInProgress, hEnded]

end Logical

end Databasus
