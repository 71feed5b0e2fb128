import Databasus.Foundation.Runs
import Databasus.Foundation.Table
import Databasus.Catalog.Backup

/-
  Lifecycle transitions of physical backups.

  A transition ends a running backup by a guarded update.
  Unless it publishes the backup, it then requests deletion of
  the files that its own copy of the backup names, also when
  the update met no running row.

  Main declarations:
    * `transition`
    * `Action`
    * `system`
    * `transition_cases`
-/

------------------------------------------------------------
-- Terminal Updates
------------------------------------------------------------

namespace Databasus

namespace Catalog

open Foundation

/- The rows that a terminal update selects. -/
def isRunningRowOf
    (backup row : Backup) : Bool :=
  row.id = backup.id && row.status = .inProgress

/- A row with its own columns and those every end writes. -/
def terminalRow
    (backup : Backup)
    (status : BackupStatus)
    (columns : Backup → Backup)
    (row : Backup) : Backup :=
  { columns row with
    id := row.id
    status := status
    errorReason := backup.errorReason
    failMessage := backup.failMessage
    completedAt := backup.completedAt }

/- The update of a running row, and whether it met one. -/
def markTerminal
    (rows : List Backup)
    (backup : Backup)
    (status : BackupStatus)
    (columns : Backup → Backup) :
    List Backup × Bool :=
  (Table.updateWhere (isRunningRowOf backup)
      (terminalRow backup status columns) rows,
    Table.affected (isRunningRowOf backup) rows = 1)

/- What a terminal update leaves under an id. -/
theorem lookup_markTerminal
    (rows : List Backup)
    (backup : Backup)
    (status : BackupStatus)
    (columns : Backup → Backup)
    (backupID : Uuid) :
    Table.lookup Backup.id backupID
        (markTerminal rows backup status columns).1 =
      (Table.lookup Backup.id backupID rows).map fun row =>
        if isRunningRowOf backup row then
          terminalRow backup status columns row
        else
          row := by
  have hKeeps :
      ∀ row : Backup,
        (terminalRow backup status columns row).id =
          row.id :=
    fun _ => rfl
  exact Table.lookup_updateWhere hKeeps backupID rows

def markCompleted
    (rows : List Backup)
    (backup : Backup) : List Backup × Bool :=
  markTerminal rows backup .completed fun row =>
    { row with
      fileName := backup.fileName
      timelineID := backup.timelineID
      startLSN := backup.startLSN
      stopLSN := backup.stopLSN
      backupSizeMb := backup.backupSizeMb
      rawSizeMb := backup.rawSizeMb
      backupDurationMs := backup.backupDurationMs
      encryption := backup.encryption
      encryptionSalt := backup.encryptionSalt
      encryptionIV := backup.encryptionIV
      compression := backup.compression
      manifestFileName := backup.manifestFileName
      manifestEncryptionSalt :=
        backup.manifestEncryptionSalt
      manifestEncryptionIV := backup.manifestEncryptionIV }

def markFailed
    (rows : List Backup)
    (backup : Backup) : List Backup × Bool :=
  markTerminal rows backup .error id

def markChainBroken
    (rows : List Backup)
    (backup : Backup) : List Backup × Bool :=
  markTerminal rows backup .chainBroken id

def markCanceled
    (rows : List Backup)
    (backup : Backup) : List Backup × Bool :=
  markTerminal rows backup .canceled id

------------------------------------------------------------
-- Transitions
------------------------------------------------------------

open Storages (StoredFileReference)

/- How the check that the storage is still current answers. -/
inductive PublicationAnswer
  | current
  | stale
  | failed
deriving DecidableEq, Repr

/- What a transition is answered by the other modules. -/
structure TransitionAnswers where
  publication : PublicationAnswer
  isSuccessRecorded : Bool
  areWritesConfirmed : Bool
  areDeletionsAccepted : Bool
deriving DecidableEq, Repr

inductive TransitionError
  | superseded
  | staleStoragePublication
  | notTerminal
  | failed
deriving DecidableEq, Repr

/- Another transition or a new storage came first. -/
def isBackupUnpublishable : TransitionError → Bool
  | .superseded => true
  | .staleStoragePublication => true
  | .notTerminal => false
  | .failed => false

structure BackupTransition where
  backup : Backup
  status : BackupStatus
deriving DecidableEq

/- What a committed transition has done. -/
structure TransitionOutcome where
  rows : List Backup
  isChanged : Bool
  requested : List StoredFileReference
deriving DecidableEq

/- The inner transaction that makes a backup completed. -/
def publish
    (rows : List Backup)
    (backup : Backup)
    (answers : TransitionAnswers) :
    Except TransitionError (List Backup) :=
  match answers.publication with
  | .failed => .error .failed
  | .stale => .error .staleStoragePublication
  | .current =>
      if answers.isSuccessRecorded = false then
        .error .failed
      else
        let (completed, isChanged) :=
          markCompleted rows backup
        if isChanged = false then
          .error .superseded
        else if ¬ backup.HasCompletedColumns then
          .error .failed
        else if answers.areWritesConfirmed = false then
          .error .failed
        else
          .ok completed

/- The last statement of a transition that did not publish. -/
def requestDeletions
    (rows : List Backup)
    (isChanged : Bool)
    (backup : Backup)
    (answers : TransitionAnswers) :
    Except TransitionError TransitionOutcome :=
  if answers.areDeletionsAccepted = false then
    .error .failed
  else
    .ok
      { rows := rows
        isChanged := isChanged
        requested := backupFileReferences backup }

def transition
    (rows : List Backup)
    (spec : BackupTransition)
    (answers : TransitionAnswers) :
    Except TransitionError TransitionOutcome :=
  match spec.status with
  | .completed =>
      match publish rows spec.backup answers with
      | .ok completed =>
          .ok
            { rows := completed
              isChanged := true
              requested := [] }
      | .error error =>
          if isBackupUnpublishable error then
            requestDeletions rows false spec.backup answers
          else
            .error error
  | .error =>
      let (marked, isChanged) := markFailed rows spec.backup
      requestDeletions marked isChanged spec.backup answers
  | .chainBroken =>
      let (marked, isChanged) :=
        markChainBroken rows spec.backup
      requestDeletions marked isChanged spec.backup answers
  | .canceled =>
      let (marked, isChanged) :=
        markCanceled rows spec.backup
      requestDeletions marked isChanged spec.backup answers
  | .inProgress => .error .notTerminal

/- The copy of the backup that a cancellation ends. -/
def canceledCopy
    (backup : Backup)
    (now : Time) : Backup :=
  { backup with
    errorReason := some .canceledByUser
    failMessage := some "context canceled"
    completedAt := some now }

/- The copy of a row that a restart found running. -/
def leftInProgressCopy
    (backup : Backup)
    (now : Time) : Backup :=
  { backup with
    errorReason := some .applicationRestart
    failMessage :=
      some
        ("Backup was interrupted by an application " ++
          "restart and marked failed. Trigger a new backup.")
    completedAt := some now }

------------------------------------------------------------
-- The Transitions as a System
------------------------------------------------------------

/- The table, and every deletion requested so far. -/
structure LifecycleState where
  rows : List Backup
  requested : List StoredFileReference
deriving DecidableEq

/-
  The transitions of any actors.  An actor passes its own copy
  of the backup, which may be older than the row or name files
  that the row does not have yet.
-/
inductive LifecycleAction
  | complete (backup : Backup) (answers : TransitionAnswers)
  | fail (backup : Backup) (answers : TransitionAnswers)
  | markChainBroken
      (backup : Backup)
      (answers : TransitionAnswers)
  | cancel
      (backup : Backup)
      (now : Time)
      (answers : TransitionAnswers)
  | cancelRunningBackup
      (backupID : Uuid)
      (now : Time)
      (answers : TransitionAnswers)
  | failLeftInProgress
      (backup : Backup)
      (now : Time)
      (answers : TransitionAnswers)
deriving DecidableEq

/-
  The transition an action asks for.  The canceller locks the
  row and asks for none unless the row is running.
-/
def transitionOf
    (s : LifecycleState) :
    LifecycleAction →
      Option (BackupTransition × TransitionAnswers)
  | .complete backup answers =>
      some ({ backup := backup, status := .completed },
        answers)
  | .fail backup answers =>
      some ({ backup := backup, status := .error }, answers)
  | .markChainBroken backup answers =>
      some ({ backup := backup, status := .chainBroken },
        answers)
  | .cancel backup now answers =>
      some
        ({ backup := canceledCopy backup now
           status := .canceled },
          answers)
  | .cancelRunningBackup backupID now answers =>
      match Table.lookup Backup.id backupID s.rows with
      | none => none
      | some current =>
          if current.status = .inProgress then
            some
              ({ backup := canceledCopy current now
                 status := .canceled },
                answers)
          else
            none
  | .failLeftInProgress backup now answers =>
      if backup.status = .inProgress then
        some
          ({ backup := leftInProgressCopy backup now
             status := .error },
            answers)
      else
        none

/- The outcome of the action's transaction, if it commits. -/
def outcomeOf
    (s : LifecycleState)
    (action : LifecycleAction) : Option TransitionOutcome :=
  match transitionOf s action with
  | none => none
  | some (spec, answers) =>
      match transition s.rows spec answers with
      | .error _ => none
      | .ok outcome => some outcome

def lifecycleStep
    (s : LifecycleState)
    (action : LifecycleAction) : Option LifecycleState :=
  match outcomeOf s action with
  | none => some s
  | some outcome =>
      some
        { rows := outcome.rows
          requested := s.requested ++ outcome.requested }

/- Any table with the primary key of `backups_physical`. -/
def lifecycleSystem :
    TransitionSystem LifecycleState LifecycleAction where
  initial s := Table.UniqueBy Backup.id s.rows
  step := lifecycleStep

------------------------------------------------------------
-- What a Transition Does
------------------------------------------------------------

variable {rows : List Backup}
variable {spec : BackupTransition}
variable {answers : TransitionAnswers}
variable {outcome : TransitionOutcome}
variable {backup : Backup}
variable {row : Backup}

/- A published backup has its columns, and is marked. -/
theorem publish_ok
    {completed : List Backup}
    (hPublish :
      publish rows backup answers = .ok completed) :
    backup.HasCompletedColumns ∧
      completed = (markCompleted rows backup).1 := by
  unfold publish at hPublish
  split at hPublish
  · cases hPublish
  · cases hPublish
  · split at hPublish
    · cases hPublish
    · cases hMark : markCompleted rows backup with
      | mk marked isChanged =>
          simp only [hMark] at hPublish
          split at hPublish
          · cases hPublish
          · split at hPublish
            · cases hPublish
            · next hColumns =>
                split at hPublish
                · cases hPublish
                · exact
                    ⟨not_not.mp hColumns,
                      (Except.ok.inj hPublish).symm⟩

private theorem requestDeletions_ok
    {marked : List Backup}
    {isChanged : Bool}
    (hRequest :
      requestDeletions marked isChanged backup answers =
        .ok outcome) :
    outcome.rows = marked ∧
      outcome.requested = backupFileReferences backup := by
  unfold requestDeletions at hRequest
  split at hRequest
  · cases hRequest
  · rw [← Except.ok.inj hRequest]
    exact ⟨rfl, rfl⟩

/- A committed transition published, or asked for deletion. -/
theorem transition_cases
    (hTransition :
      transition rows spec answers = .ok outcome) :
    (outcome.requested = [] ∧
        spec.status = .completed ∧
          spec.backup.HasCompletedColumns ∧
            outcome.rows =
              (markCompleted rows spec.backup).1) ∨
      (outcome.requested =
          backupFileReferences spec.backup ∧
        (outcome.rows = rows ∨
          ∃ status,
            status ≠ .inProgress ∧ status ≠ .completed ∧
              outcome.rows =
                (markTerminal rows spec.backup status
                  id).1)) := by
  unfold transition at hTransition
  cases hStatus : spec.status with
  | completed =>
      simp only [hStatus] at hTransition
      split at hTransition
      · next completed hPublish =>
          left
          rw [← Except.ok.inj hTransition]
          rcases publish_ok hPublish with
            ⟨hColumns, hRows⟩
          exact ⟨rfl, rfl, hColumns, hRows⟩
      · split at hTransition
        · rcases requestDeletions_ok hTransition with
            ⟨hRows, hRequested⟩
          exact Or.inr ⟨hRequested, Or.inl hRows⟩
        · cases hTransition
  | error =>
      simp only [hStatus] at hTransition
      rcases requestDeletions_ok hTransition with
        ⟨hRows, hRequested⟩
      exact
        Or.inr
          ⟨hRequested, Or.inr ⟨.error, by decide, by decide,
            hRows⟩⟩
  | chainBroken =>
      simp only [hStatus] at hTransition
      rcases requestDeletions_ok hTransition with
        ⟨hRows, hRequested⟩
      exact
        Or.inr
          ⟨hRequested, Or.inr ⟨.chainBroken, by decide,
            by decide, hRows⟩⟩
  | canceled =>
      simp only [hStatus] at hTransition
      rcases requestDeletions_ok hTransition with
        ⟨hRows, hRequested⟩
      exact
        Or.inr
          ⟨hRequested, Or.inr ⟨.canceled, by decide,
            by decide, hRows⟩⟩
  | inProgress => simp [hStatus] at hTransition

/- The update of the table that a committed transition makes. -/
theorem transition_rows
    (hTransition :
      transition rows spec answers = .ok outcome) :
    outcome.rows = rows ∨
      ∃ status columns,
        status ≠ .inProgress ∧
          outcome.rows =
            (markTerminal rows spec.backup status
              columns).1 := by
  rcases transition_cases hTransition with
    ⟨_, _, _, hRows⟩ |
      ⟨_, hRows | ⟨status, hEnds, _, hRows⟩⟩
  · exact Or.inr ⟨.completed, _, by decide, hRows⟩
  · exact Or.inl hRows
  · exact Or.inr ⟨status, id, hEnds, hRows⟩

/- Updates keep the primary key. -/
theorem transition_unique
    (hUnique : Table.UniqueBy Backup.id rows)
    (hTransition :
      transition rows spec answers = .ok outcome) :
    Table.UniqueBy Backup.id outcome.rows := by
  rcases transition_rows hTransition with
    hRows | ⟨status, columns, _, hRows⟩
  · rw [hRows]
    exact hUnique
  · rw [hRows]
    exact hUnique.updateWhere fun _ => rfl

/- The answers with which a transition asks for deletion. -/
def RequestsDeletions
    (spec : BackupTransition)
    (answers : TransitionAnswers) : Prop :=
  answers.areDeletionsAccepted = true ∧
    spec.status ≠ .inProgress ∧
      (spec.status = .completed →
        answers.publication = .stale ∨
          (answers.publication = .current ∧
            answers.isSuccessRecorded = true))

instance instDecidableRequestsDeletions
    (spec : BackupTransition)
    (answers : TransitionAnswers) :
    Decidable (RequestsDeletions spec answers) :=
  inferInstanceAs (Decidable (_ ∧ _ ∧ (_ → _)))

/- No running row has the id of a completed one. -/
private theorem markTerminal_of_completed
    (hUnique : Table.UniqueBy Backup.id rows)
    (hRow : row ∈ rows)
    (hID : row.id = backup.id)
    (hCompleted : row.status = .completed)
    (status : BackupStatus)
    (columns : Backup → Backup) :
    markTerminal rows backup status columns =
      (rows, false) := by
  have hNone :
      Table.affected (isRunningRowOf backup) rows = 0 := by
    rw [Table.affected_eq_zero_iff]
    intro other hOther
    by_contra hSelects
    simp only [isRunningRowOf, Bool.not_eq_false,
      Bool.and_eq_true, decide_eq_true_eq] at hSelects
    have hSame : other = row :=
      hUnique.eq_of_key_eq hOther hRow
        (hSelects.1.trans hID.symm)
    rw [hSame, hCompleted] at hSelects
    exact BackupStatus.noConfusion hSelects.2
  unfold markTerminal
  rw [Table.updateWhere_of_affected_eq_zero hNone, hNone]
  rfl

/-
  On a completed row a transition changes nothing, and asks
  for the deletion of the files its copy names.
-/
theorem transition_of_completed
    (hUnique : Table.UniqueBy Backup.id rows)
    (hRow : row ∈ rows)
    (hID : row.id = spec.backup.id)
    (hCompleted : row.status = .completed) :
    (RequestsDeletions spec answers →
      transition rows spec answers =
        .ok
          { rows := rows
            isChanged := false
            requested :=
              backupFileReferences spec.backup }) ∧
    (¬ RequestsDeletions spec answers →
      ∃ error,
        transition rows spec answers = .error error) := by
  have hMark :=
    markTerminal_of_completed hUnique hRow hID hCompleted
  have hRequest :
      (answers.areDeletionsAccepted = true →
        requestDeletions rows false spec.backup answers =
          .ok
            { rows := rows
              isChanged := false
              requested := backupFileReferences spec.backup }) ∧
      (¬ answers.areDeletionsAccepted = true →
        requestDeletions rows false spec.backup answers =
          .error .failed) := by
    unfold requestDeletions
    constructor
    · intro hAccepted
      simp [hAccepted]
    · intro hRefused
      simp [hRefused]
  unfold transition RequestsDeletions
  cases hStatus : spec.status with
  | inProgress => simp
  | error =>
      simp only [markFailed, hMark]
      refine ⟨fun hAsks => hRequest.1 hAsks.1, ?_⟩
      intro hNot
      refine ⟨_, hRequest.2 fun hAccepted => ?_⟩
      exact hNot ⟨hAccepted, by simp, by simp⟩
  | chainBroken =>
      simp only [markChainBroken, hMark]
      refine ⟨fun hAsks => hRequest.1 hAsks.1, ?_⟩
      intro hNot
      refine ⟨_, hRequest.2 fun hAccepted => ?_⟩
      exact hNot ⟨hAccepted, by simp, by simp⟩
  | canceled =>
      simp only [markCanceled, hMark]
      refine ⟨fun hAsks => hRequest.1 hAsks.1, ?_⟩
      intro hNot
      refine ⟨_, hRequest.2 fun hAccepted => ?_⟩
      exact hNot ⟨hAccepted, by simp, by simp⟩
  | completed =>
      -- The publication is refused as superseded, unless a
      -- check before it has answered first.
      unfold publish
      simp only [markCompleted, hMark]
      cases hPublication : answers.publication with
      | failed => simp [isBackupUnpublishable]
      | stale =>
          simp only [isBackupUnpublishable, if_true]
          refine ⟨fun hAsks => hRequest.1 hAsks.1, ?_⟩
          intro hNot
          refine ⟨_, hRequest.2 fun hAccepted => ?_⟩
          exact hNot ⟨hAccepted, by simp, by simp⟩
      | current =>
          by_cases hRecorded :
              answers.isSuccessRecorded = false
          · simp [hRecorded, isBackupUnpublishable]
          · simp only [hRecorded, if_true,
              isBackupUnpublishable]
            refine ⟨fun hAsks => hRequest.1 hAsks.1, ?_⟩
            intro hNot
            refine ⟨_, hRequest.2 fun hAccepted => ?_⟩
            exact
              hNot
                ⟨hAccepted, by simp, by simp⟩

end Catalog

end Databasus
