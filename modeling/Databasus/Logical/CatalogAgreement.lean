import Databasus.Logical.System

/-
  The catalog of logical backups and the storage layer agree.

  A completed backup keeps both of its files.  A backup that
  failed, was cancelled or was removed has had the deletion of
  both requested by the transaction that ended it.  A step
  either leaves the rows alone, starts a backup, or settles
  some of them together with their files; the invariant
  follows from that alone.

  Main declarations:
    * `CatalogAgrees`
    * `RowsSettled`
    * `StateSound`
    * `catalog_and_files_agree`
-/

------------------------------------------------------------
-- Agreement
------------------------------------------------------------

namespace Databasus

namespace Logical

open Foundation Storages

/- The transaction found the row running and ended it. -/
def Commit.Ends
    (commit : Commit)
    (backup : LogicalBackup) : Prop :=
  (∃ row ∈ commit.before,
      row.id = backup.id ∧ row.status = .inProgress) ∧
    ∃ row ∈ commit.after,
      row.id = backup.id ∧ row.status = backup.status

/- The transaction found the row and removed it. -/
def Commit.Removes
    (commit : Commit)
    (backup : LogicalBackup) : Prop :=
  backup ∈ commit.before ∧
    ∀ row ∈ commit.after, row.id ≠ backup.id

def Commit.Discards
    (commit : Commit)
    (backup : LogicalBackup) : Prop :=
  ∀ reference ∈ backup.getStoredFiles,
    reference ∈ commit.requested

/-
  Files of completed backups are confirmed and not requested
  for deletion.  Files of backups that ended otherwise are
  requested by the transaction that ended them.
-/
structure CatalogAgrees (s : State) : Prop where
  completed :
    ∀ backup ∈ s.backups, backup.status = .completed →
      ∀ reference ∈ backup.getStoredFiles,
        reference ∈ s.files.kept
  discarded :
    ∀ backup ∈ s.backups, backup.IsDiscarded →
      ∃ commit ∈ s.history,
        commit.Ends backup ∧ commit.Discards backup
  removed :
    ∀ id ∈ s.started,
      (∀ backup ∈ s.backups, backup.id ≠ id) →
        ∃ commit ∈ s.history, ∃ backup,
          backup.id = id ∧ commit.Removes backup ∧
            commit.Discards backup

/-
  What a transaction may do to the rows and their files.  It
  starts no backup.  A row in it is as before, or still runs,
  or is completed with its files kept, or is discarded with
  its files requested; a row that is gone has its files
  requested.
-/
structure RowsSettled
    (backups : List LogicalBackup)
    (kept : List StoredFileReference)
    (backups' : List LogicalBackup)
    (kept' : List StoredFileReference)
    (requested : List StoredFileReference) : Prop where
  unique :
    Table.UniqueBy LogicalBackup.id backups →
      Table.UniqueBy LogicalBackup.id backups'
  rows :
    ∀ backup ∈ backups', ∃ old ∈ backups,
      SameFiles old backup ∧
        (old = backup ∨
          old.status = .inProgress ∧
            (backup.status = .inProgress ∨
              backup.status = .completed ∧
                (∀ reference ∈ backup.getStoredFiles,
                  reference ∈ kept') ∨
              backup.IsDiscarded ∧
                ∀ reference ∈ backup.getStoredFiles,
                  reference ∈ requested))
  gone :
    ∀ old ∈ backups,
      (∃ backup ∈ backups', backup.id = old.id) ∨
        ∀ reference ∈ old.getStoredFiles,
          reference ∈ requested
  kept :
    ∀ reference ∈ kept, reference ∉ requested →
      reference ∈ kept'
  requests :
    ∀ reference ∈ requested, ∃ old ∈ backups,
      reference ∈ old.getStoredFiles ∧
        ∀ backup ∈ backups', backup.id = old.id →
          backup.status ≠ .completed

variable {backups backups' : List LogicalBackup}
variable {kept kept' : List StoredFileReference}
variable {requested : List StoredFileReference}

/- Nothing changes but other files. -/
theorem RowsSettled.refl
    (hKept : ∀ reference ∈ kept, reference ∈ kept') :
    RowsSettled backups kept backups kept' [] :=
  { unique := fun hUnique => hUnique
    rows := fun backup hMember =>
      ⟨backup, hMember, ⟨rfl, rfl, rfl⟩, Or.inl rfl⟩
    gone := fun old hMember => Or.inl ⟨old, hMember, rfl⟩
    kept := fun reference hKeptBefore _ =>
      hKept reference hKeptBefore
    requests := fun _ hRequested =>
      absurd hRequested List.not_mem_nil }

------------------------------------------------------------
-- Settling Rows
------------------------------------------------------------

open Storages.Files (WriteReceipt)

variable {env : Environment}
variable {s s' : State}
variable {firstID : Uuid}
variable {selects : LogicalBackup → Bool}
variable {change : LogicalBackup → LogicalBackup}
variable {backupIDs : List Uuid}

theorem map_reference_numberRequests
    (firstID : Uuid)
    (references : List StoredFileReference) :
    (numberRequests firstID references).map
        Storages.Files.RequestedDeletion.reference =
      references := by
  induction references generalizing firstID with
  | nil => rfl
  | cons reference references ih =>
      rw [numberRequests, List.map_cons, ih]

/- A request touches only what the storage layer keeps. -/
theorem requestFileDeletions_some
    {removed : List LogicalBackup}
    (hRequest :
      requestFileDeletions env s firstID removed =
        some (s', requested)) :
    requested =
        removed.flatMap LogicalBackup.getStoredFiles ∧
      s' = { s with files := s'.files } ∧
        ∀ reference,
          reference ∈ s'.files.kept ↔
            reference ∈ s.files.kept ∧
              reference ∉ requested := by
  unfold requestFileDeletions at hRequest
  simp only at hRequest
  split at hRequest
  · cases hRequest
  · next files hStep =>
      cases hRequest
      refine ⟨rfl, rfl, ?_⟩
      intro reference
      simp only [Storages.Files.step] at hStep
      split at hStep
      · cases hStep
        rw [Storages.Files.mem_kept_requestFileDeletions,
          Storages.Files.mem_map_deduplicateReferences,
          map_reference_numberRequests]
      · cases hStep

/- A change of running rows keeps every id in its place. -/
theorem unique_updateWhere
    (hSame : ∀ backup, SameFiles backup (change backup))
    {backups : List LogicalBackup}
    (hUnique : Table.UniqueBy LogicalBackup.id backups) :
    Table.UniqueBy LogicalBackup.id
      (Table.updateWhere selects change backups) :=
  hUnique.updateSelected fun backup _ =>
    (hSame backup).id_eq.symm

/-
  Running rows that are selected change together with their
  files, and the others stay.
-/
theorem RowsSettled.update
    {backups : List LogicalBackup}
    (hSelects :
      ∀ backup ∈ backups, selects backup = true →
        backup.status = .inProgress)
    (hSame : ∀ backup, SameFiles backup (change backup))
    (hOutcome :
      ∀ backup ∈ backups, selects backup = true →
        (change backup).status = .inProgress ∨
          (change backup).status = .completed ∧
            (∀ reference ∈ backup.getStoredFiles,
              reference ∈ kept') ∨
          (change backup).IsDiscarded ∧
            ∀ reference ∈ backup.getStoredFiles,
              reference ∈ requested)
    (hKept :
      ∀ reference ∈ kept, reference ∉ requested →
        reference ∈ kept')
    (hUnique : Table.UniqueBy LogicalBackup.id backups)
    (hRequests :
      ∀ reference ∈ requested, ∃ backup ∈ backups,
        selects backup = true ∧
          reference ∈ backup.getStoredFiles ∧
            (change backup).status ≠ .completed) :
    RowsSettled backups kept
      (Table.updateWhere selects change backups) kept'
      requested := by
  refine
    { unique := unique_updateWhere hSame
      rows := ?_
      gone := ?_
      kept := hKept
      requests := ?_ }
  · intro backup hMember
    rcases (Table.mem_updateWhere_iff _ _ _ _).mp hMember with
      ⟨old, hOld, rfl⟩
    refine ⟨old, hOld, ?_⟩
    split
    · next hSelected =>
        refine
          ⟨hSame old,
            Or.inr ⟨hSelects old hOld hSelected, ?_⟩⟩
        rw [← (hSame old).getStoredFiles_eq]
        exact hOutcome old hOld hSelected
    · exact ⟨⟨rfl, rfl, rfl⟩, Or.inl rfl⟩
  · intro old hOld
    left
    cases hSelected : selects old with
    | true =>
        exact
          ⟨change old,
            Table.mem_updateWhere_of_selects hOld hSelected,
            (hSame old).id_eq.symm⟩
    | false =>
        exact
          ⟨old, Table.mem_updateWhere_of_not hOld hSelected,
            rfl⟩
  · intro reference hRequested
    rcases hRequests reference hRequested with
      ⟨old, hOld, hSelected, hFile, hStatus⟩
    refine ⟨old, hOld, hFile, ?_⟩
    intro backup hMember hID
    have hChanged :
        change old ∈
          Table.updateWhere selects change backups :=
      Table.mem_updateWhere_of_selects hOld hSelected
    have hRow : backup = change old := by
      apply
        (unique_updateWhere hSame hUnique).eq_of_key_eq
          hMember hChanged
      rw [hID, (hSame old).id_eq]
    rw [hRow]
    exact hStatus

theorem settled_updateProgress
    (backupID : Uuid)
    (sizeMb : Rat)
    (durationMs : Int)
    (hUnique : Table.UniqueBy LogicalBackup.id s.backups) :
    RowsSettled s.backups s.files.kept
      (updateProgress s.backups backupID sizeMb durationMs).1
      s.files.kept [] := by
  apply RowsSettled.update
  · intro backup _ hSelected
    exact (isInProgress_iff.mp hSelected).2
  · intro backup
    exact ⟨rfl, rfl, rfl⟩
  · intro backup _ hSelected
    exact Or.inl (isInProgress_iff.mp hSelected).2
  · intro reference hKept _
    exact hKept
  · exact hUnique
  · intro reference hRequested
    exact absurd hRequested List.not_mem_nil

/- The receipts are for the files of the completed row. -/
theorem settled_publishBackup
    {completion : Completion}
    {receipts : List WriteReceipt}
    {isRecorded : Bool}
    (hUnique : Table.UniqueBy LogicalBackup.id s.backups)
    (hReceipts :
      ∀ row ∈ s.backups, row.id = completion.backupID →
        row.getStoredFiles =
          receipts.map WriteReceipt.reference)
    (hPublish :
      publishBackup env s completion receipts isRecorded =
        some s') :
    s' =
        { s with
          files := s'.files
          backups := s'.backups } ∧
      RowsSettled s.backups s.files.kept s'.backups
        s'.files.kept [] := by
  unfold publishBackup at hPublish
  split at hPublish
  · cases hPublish
  next files hStep =>
  simp only at hPublish
  split at hPublish
  · cases hPublish
    refine ⟨rfl, ?_⟩
    have hKept :
        ∀ reference,
          reference ∈ files.kept ↔
            reference ∈ receipts.map WriteReceipt.reference ∨
              reference ∈ s.files.kept := by
      simp only [Storages.Files.step] at hStep
      split at hStep
      · exact Storages.Files.mem_kept_confirmFileWrites hStep
      · cases hStep
    apply RowsSettled.update
    · intro backup _ hSelected
      exact (isInProgress_iff.mp hSelected).2
    · intro backup
      exact ⟨rfl, rfl, rfl⟩
    · intro backup hMember hSelected
      refine Or.inr (Or.inl ⟨rfl, ?_⟩)
      intro reference hFile
      rw [hReceipts backup hMember
        (isInProgress_iff.mp hSelected).1] at hFile
      exact (hKept reference).mpr (Or.inl hFile)
    · intro reference hBefore _
      exact (hKept reference).mpr (Or.inr hBefore)
    · exact hUnique
    · intro reference hRequested
      exact absurd hRequested List.not_mem_nil
  · cases hPublish

/- A backup that is ended has its files requested. -/
theorem settled_endBackupAndDiscardFiles
    {backup : LogicalBackup}
    {assignments : LogicalBackup → LogicalBackup}
    (hUnique : Table.UniqueBy LogicalBackup.id s.backups)
    (hSame : ∀ row, SameFiles row (assignments row))
    (hDiscards : ∀ row, (assignments row).IsDiscarded)
    (hFiles :
      ∀ row ∈ s.backups, row.id = backup.id →
        row.getStoredFiles = backup.getStoredFiles)
    (hEnd :
      endBackupAndDiscardFiles env s backup firstID
          (updateInProgress s.backups backup.id
            assignments) =
        some (s', requested)) :
    s' =
        { s with
          files := s'.files
          backups := s'.backups } ∧
      RowsSettled s.backups s.files.kept s'.backups
        s'.files.kept requested := by
  unfold endBackupAndDiscardFiles at hEnd
  split at hEnd
  · next hEnded =>
      rcases requestFileDeletions_some hEnd with
        ⟨hRequested, hState, hKept⟩
      have hReference :
          ∀ reference,
            reference ∈ requested ↔
              reference ∈ backup.getStoredFiles := by
        intro reference
        rw [hRequested]
        simp
      rw [hState]
      refine ⟨rfl, ?_⟩
      apply RowsSettled.update
      · intro row _ hSelected
        exact (isInProgress_iff.mp hSelected).2
      · exact hSame
      · intro row hMember hSelected
        refine Or.inr (Or.inr ⟨hDiscards row, ?_⟩)
        intro reference hFile
        rw [hReference, ← hFiles row hMember
          (isInProgress_iff.mp hSelected).1]
        exact hFile
      · intro reference hBefore hNot
        exact (hKept reference).mpr ⟨hBefore, hNot⟩
      · exact hUnique
      · intro reference hFile
        rcases updateInProgress_reports.mp hEnded with
          ⟨row, hMember, hID, hRunning⟩
        rw [hReference, ← hFiles row hMember hID] at hFile
        refine
          ⟨row, hMember, isInProgress_iff.mpr ⟨hID, hRunning⟩,
            hFile, ?_⟩
        exact (hDiscards row).not_completed
  · cases hEnd
    exact ⟨rfl, RowsSettled.refl fun _ hKept => hKept⟩

/- All running backups fail together. -/
theorem settled_recoverAtStartup
    (hUnique : Table.UniqueBy LogicalBackup.id s.backups)
    (hRecover :
      recoverAtStartup env s firstID =
        some (s', requested)) :
    s' =
        { s with
          files := s'.files
          backups := s'.backups } ∧
      RowsSettled s.backups s.files.kept s'.backups
        s'.files.kept requested := by
  rcases requestFileDeletions_some hRecover with
    ⟨hRequested, hState, hKept⟩
  have hReference :
      ∀ reference,
        reference ∈ requested ↔
          ∃ row ∈ s.backups,
            row.status = .inProgress ∧
              reference ∈ row.getStoredFiles := by
    intro reference
    rw [hRequested]
    simp only [List.mem_flatMap, List.mem_map,
      List.mem_filter, decide_eq_true_eq]
    constructor
    · rintro ⟨_, ⟨row, ⟨hMember, hRunning⟩, rfl⟩, hFile⟩
      exact ⟨row, hMember, hRunning, hFile⟩
    · rintro ⟨row, hMember, hRunning, hFile⟩
      exact ⟨_, ⟨row, ⟨hMember, hRunning⟩, rfl⟩, hFile⟩
  rw [hState]
  refine ⟨rfl, ?_⟩
  apply RowsSettled.update
  · intro row _ hSelected
    exact of_decide_eq_true hSelected
  · intro row
    exact ⟨rfl, rfl, rfl⟩
  · intro row hMember hSelected
    refine Or.inr (Or.inr ⟨Or.inl rfl, ?_⟩)
    intro reference hFile
    exact
      (hReference reference).mpr
        ⟨row, hMember, of_decide_eq_true hSelected, hFile⟩
  · intro reference hBefore hNot
    exact (hKept reference).mpr ⟨hBefore, hNot⟩
  · exact hUnique
  · intro reference hFile
    rcases (hReference reference).mp hFile with
      ⟨row, hMember, hRunning, hOwn⟩
    refine ⟨row, hMember, decide_eq_true hRunning, hOwn, ?_⟩
    simp [failRunning]

/- Removed rows have their files requested. -/
theorem settled_deleteBackupsWithFiles
    (hDelete :
      deleteBackupsWithFiles env s firstID backupIDs =
        some (s', requested)) :
    s' =
        { s with
          files := s'.files
          backups := s'.backups } ∧
      RowsSettled s.backups s.files.kept s'.backups
        s'.files.kept requested := by
  rcases requestFileDeletions_some hDelete with
    ⟨hRequested, hState, hKept⟩
  have hReference :
      ∀ reference,
        reference ∈ requested ↔
          ∃ row ∈ s.backups,
            backupIDs.contains row.id = true ∧
              reference ∈ row.getStoredFiles := by
    intro reference
    rw [hRequested]
    simp only [listByIDs, List.mem_flatMap,
      List.mem_filter, and_assoc]
  rw [hState]
  refine ⟨rfl, ?_⟩
  refine
    { unique := fun hUnique => hUnique.deleteWhere _
      rows := ?_
      gone := ?_
      kept := ?_
      requests := ?_ }
  · intro row hMember
    have hOld := ((Table.mem_deleteWhere_iff _ _ _).mp hMember).1
    exact ⟨row, hOld, ⟨rfl, rfl, rfl⟩, Or.inl rfl⟩
  · intro old hOld
    cases hListed : backupIDs.contains old.id with
    | true =>
        right
        intro reference hFile
        exact
          (hReference reference).mpr
            ⟨old, hOld, hListed, hFile⟩
    | false =>
        left
        exact
          ⟨old,
            (Table.mem_deleteWhere_iff _ _ _).mpr
              ⟨hOld, hListed⟩,
            rfl⟩
  · intro reference hBefore hNot
    exact (hKept reference).mpr ⟨hBefore, hNot⟩
  · intro reference hFile
    rcases (hReference reference).mp hFile with
      ⟨row, hMember, hListed, hOwn⟩
    refine ⟨row, hMember, hOwn, ?_⟩
    intro backup hRemaining hID
    have hNot :=
      ((Table.mem_deleteWhere_iff _ _ _).mp hRemaining).2
    rw [hID, hListed] at hNot
    cases hNot

/- A removal that is refused changes nothing. -/
theorem settled_unlessRefused
    {checked : Except RemovalRefusal Unit}
    (hRemoval :
      unlessRefused s checked
          (deleteBackupsWithFiles env s firstID backupIDs) =
        some (s', requested)) :
    s' =
        { s with
          files := s'.files
          backups := s'.backups } ∧
      RowsSettled s.backups s.files.kept s'.backups
        s'.files.kept requested := by
  unfold unlessRefused at hRemoval
  split at hRemoval
  · cases hRemoval
    exact ⟨rfl, RowsSettled.refl fun _ hKept => hKept⟩
  · exact settled_deleteBackupsWithFiles hRemoval

------------------------------------------------------------
-- What a Step Continues
------------------------------------------------------------

/- The receipts of a run are for the files of its backup. -/
def Run.IsSound (run : Run) : Prop :=
  match run.stage with
  | .writingMetadata completion receipt =>
      completion.backupID = run.backup.id ∧
        receipt.reference = backupReference run.backup
  | .publishing completion receipts =>
      completion.backupID = run.backup.id ∧
        receipts.map WriteReceipt.reference =
          run.backup.getStoredFiles
  | _ => True

structure StateSound
    (format : NameFormat)
    (s : State) : Prop where
  unique : Table.UniqueBy LogicalBackup.id s.backups
  apart : (s.started.map format.uuidText).Nodup
  started : ∀ backup ∈ s.backups, backup.id ∈ s.started
  named : ∀ backup ∈ s.backups, backup.IsNamed format
  runs : ∀ run ∈ s.runs, run.IsSound
  runStarted :
    ∀ run ∈ s.runs, run.backup.id ∈ s.started
  runFiles :
    ∀ run ∈ s.runs, ∀ row ∈ s.backups,
      row.id = run.backup.id →
        row.getStoredFiles = run.backup.getStoredFiles
  agrees : CatalogAgrees s

/- A step of the backups there are; it starts no other one. -/
structure Continues
    (s : State)
    (committed : Requested) : Prop where
  started : committed.1.started = s.started
  history : committed.1.history = s.history
  settled :
    RowsSettled s.backups s.files.kept committed.1.backups
      committed.1.files.kept committed.2
  runs :
    ∀ run ∈ committed.1.runs,
      run.IsSound ∧ ∃ old ∈ s.runs, old.backup = run.backup

variable {env : Environment}
variable {format : NameFormat}
variable {s : State}
variable {run : Run}
variable {committed : Requested}

theorem mem_setStage
    {other : Run}
    {stage : RunStage}
    (hOther : other ∈ (s.setStage run stage).runs) :
    other ∈ s.runs ∨ other = { run with stage := stage } := by
  rcases (Table.mem_updateWhere_iff _ _ _ _).mp hOther with
    ⟨old, hOld, rfl⟩
  split
  · exact Or.inr rfl
  · exact Or.inl hOld

/- The run goes on with a stage that is sound for it. -/
theorem runs_setStage
    (stage : RunStage)
    (hRuns : ∀ run ∈ s.runs, run.IsSound)
    (hRun : run ∈ s.runs)
    (hStage : ({ run with stage := stage } : Run).IsSound) :
    ∀ other ∈ (s.setStage run stage).runs,
      other.IsSound ∧
        ∃ old ∈ s.runs, old.backup = other.backup := by
  intro other hOther
  rcases mem_setStage hOther with hOld | rfl
  · exact ⟨hRuns other hOld, other, hOld, rfl⟩
  · exact ⟨hStage, run, hRun, rfl⟩

theorem runs_endRun
    (run : Run)
    (hRuns : ∀ run ∈ s.runs, run.IsSound) :
    ∀ other ∈ (s.endRun run).runs,
      other.IsSound ∧
        ∃ old ∈ s.runs, old.backup = other.backup := by
  intro other hOther
  have hOld := ((Table.mem_deleteWhere_iff _ _ _).mp hOther).1
  exact ⟨hRuns other hOld, other, hOld, rfl⟩

theorem continues_setStage
    (stage : RunStage)
    (hRuns : ∀ run ∈ s.runs, run.IsSound)
    (hRun : run ∈ s.runs)
    (hStage : ({ run with stage := stage } : Run).IsSound) :
    Continues s (s.setStage run stage, []) :=
  { started := rfl
    history := rfl
    settled := RowsSettled.refl fun _ hKept => hKept
    runs := runs_setStage stage hRuns hRun hStage }

/- A publication is kept, or the run goes on to fail. -/
theorem continues_endPublication
    (hSound : StateSound format s)
    (hRun : run ∈ s.runs)
    {completion : Completion}
    {receipts : List WriteReceipt}
    (hID : completion.backupID = run.backup.id)
    (hReceipts :
      receipts.map WriteReceipt.reference =
        run.backup.getStoredFiles)
    (isRecorded : Bool)
    (answer : Files.Answer)
    (failMessage : String) :
    Continues s
      (endPublication env s run completion receipts isRecorded
        answer failMessage, []) := by
  unfold endPublication
  split
  · split
    · exact continues_setStage _ hSound.runs hRun trivial
    · next s' hPublish =>
        have hRows :
            ∀ row ∈ s.backups, row.id = completion.backupID →
              row.getStoredFiles =
                receipts.map WriteReceipt.reference := by
          intro row hMember hSame
          rw [hReceipts]
          exact
            hSound.runFiles run hRun row hMember
              (hSame.trans hID)
        rcases settled_publishBackup hSound.unique hRows
            hPublish with
          ⟨hState, hSettled⟩
        have hRuns : s'.runs = s.runs := by rw [hState]
        split
        · exact
            { started := by rw [hState]; rfl
              history := by rw [hState]; rfl
              settled := hSettled
              runs := by
                have hSoundRuns := hSound.runs
                rw [← hRuns] at hSoundRuns
                have hLater := runs_endRun run hSoundRuns
                rw [hRuns] at hLater
                exact hLater }
        · exact
            { started := by rw [hState]; rfl
              history := by rw [hState]; rfl
              settled := hSettled
              runs := by
                have hSoundRuns := hSound.runs
                rw [← hRuns] at hSoundRuns
                have hLater :=
                  runs_setStage (.failing failMessage)
                    hSoundRuns (hRuns ▸ hRun) trivial
                rw [hRuns] at hLater
                exact hLater }
  · exact continues_setStage _ hSound.runs hRun trivial

/- The terminal state is written with the requests or not. -/
theorem continues_endRunWith
    (hSound : StateSound format s)
    (hRun : run ∈ s.runs)
    {assignments : LogicalBackup → LogicalBackup}
    (hSame : ∀ row, SameFiles row (assignments row))
    (hDiscards : ∀ row, (assignments row).IsDiscarded)
    {answer : Files.Answer}
    (hEnd :
      endRunWith run s answer
          (endBackupAndDiscardFiles env s run.backup firstID
            (updateInProgress s.backups run.backup.id
              assignments)) =
        some committed) :
    Continues s committed := by
  unfold endRunWith at hEnd
  split at hEnd
  · rcases Option.map_eq_some_iff.mp hEnd with
      ⟨⟨s', requested⟩, hTransaction, rfl⟩
    rcases settled_endBackupAndDiscardFiles hSound.unique
        hSame hDiscards (hSound.runFiles run hRun)
        hTransaction with
      ⟨hState, hSettled⟩
    have hRuns : s'.runs = s.runs := by rw [hState]
    exact
      { started := by rw [hState]; rfl
        history := by rw [hState]; rfl
        settled := hSettled
        runs := by
          have hSoundRuns := hSound.runs
          rw [← hRuns] at hSoundRuns
          have hLater := runs_endRun run hSoundRuns
          rw [hRuns] at hLater
          exact hLater }
  · cases hEnd
    exact
      { started := rfl
        history := rfl
        settled := RowsSettled.refl fun _ hKept => hKept
        runs := runs_endRun run hSound.runs }

/- The stages of a run, and the outcomes of each. -/
theorem continues_advanceRun
    (hSound : StateSound format s)
    (hRun : run ∈ s.runs)
    {event : RunEvent}
    (hAdvance :
      advanceRun env s run run.stage event =
        some committed) :
    Continues s committed := by
  have hRunSound := hSound.runs run hRun
  unfold Run.IsSound at hRunSound
  unfold advanceRun at hAdvance
  split at hAdvance
  · cases hAdvance
    exact continues_setStage _ hSound.runs hRun trivial
  · cases hAdvance
    exact continues_setStage _ hSound.runs hRun trivial
  · split at hAdvance
    · next hReceipt =>
        cases hAdvance
        exact
          continues_setStage _ hSound.runs hRun
            ⟨rfl, hReceipt.2⟩
    · cases hAdvance
  · cases hAdvance
    exact continues_setStage _ hSound.runs hRun trivial
  · next hStage =>
      rw [hStage] at hRunSound
      split at hAdvance
      · next hReceipt =>
          cases hAdvance
          refine
            continues_setStage _ hSound.runs hRun
              ⟨hRunSound.1, ?_⟩
          simp only [List.map_cons, List.map_nil]
          rw [hRunSound.2, hReceipt.2]
          rfl
      · cases hAdvance
  · next hStage =>
      rw [hStage] at hRunSound
      cases hAdvance
      exact
        continues_endPublication hSound hRun hRunSound.1
          hRunSound.2 _ _ _
  · refine
      continues_endRunWith hSound hRun ?_ ?_ hAdvance
    · intro row
      exact ⟨rfl, rfl, rfl⟩
    · intro row
      exact Or.inl rfl
  · refine
      continues_endRunWith hSound hRun ?_ ?_ hAdvance
    · intro row
      exact ⟨rfl, rfl, rfl⟩
    · intro row
      exact Or.inr rfl
  · cases hAdvance

/- The calls of the storage layer keep what it confirmed. -/
theorem kept_of_advanceFiles
    {s' : State}
    {action : Storages.Files.Action}
    (hAdvance : advanceFiles env s action = some s') :
    s' = { s with files := s'.files } ∧
      s'.files.kept = s.files.kept := by
  unfold advanceFiles at hAdvance
  split at hAdvance
  · next hOwn =>
      rcases Option.map_eq_some_iff.mp hAdvance with
        ⟨files, hStep, rfl⟩
      refine ⟨rfl, ?_⟩
      have hEffect := Storages.Files.effect_of_step hStep
      cases hEffect with
      | write _ _ _ _ hWrite =>
          exact Storages.Files.kept_of_writeEffect hWrite
      | attempt _ _ _ _ hAttempt =>
          exact Storages.Files.kept_of_attemptEffect hAttempt
      | confirmFileWrites => cases hOwn
      | requestFileDeletions => cases hOwn
      | _ => rfl
  · cases hAdvance

theorem continues_of_settled
    {s' : State}
    (hSound : StateSound format s)
    (hTransaction :
      s' =
          { s with
            files := s'.files
            backups := s'.backups } ∧
        RowsSettled s.backups s.files.kept s'.backups
          s'.files.kept requested) :
    Continues s (s', requested) := by
  rcases hTransaction with ⟨hState, hSettled⟩
  refine
    { started := by rw [hState]
      history := by rw [hState]
      settled := hSettled
      runs := ?_ }
  intro run hRun
  have hRuns : s'.runs = s.runs := by rw [hState]
  have hOld : run ∈ s.runs := by
    rw [← hRuns]
    exact hRun
  exact ⟨hSound.runs run hOld, run, hOld, rfl⟩

/- Every action but a start settles the rows there are. -/
theorem continues_of_transact
    {action : Action}
    (hSound : StateSound format s)
    (hNoStart :
      ∀ start answer, action ≠ .startBackup start answer)
    (hTransact : transact env s action = some committed) :
    Continues s committed := by
  cases action with
  | files action =>
      rcases Option.map_eq_some_iff.mp hTransact with
        ⟨s', hAdvance, rfl⟩
      rcases kept_of_advanceFiles hAdvance with
        ⟨hState, hKept⟩
      have hRows : s'.backups = s.backups := by rw [hState]
      apply continues_of_settled hSound
      refine ⟨by rw [hState], ?_⟩
      rw [hRows, hKept]
      exact RowsSettled.refl fun _ hBefore => hBefore
  | startBackup start answer =>
      exact absurd rfl (hNoStart start answer)
  | recordProgress backupID sizeMb durationMs =>
      cases hTransact
      apply continues_of_settled hSound
      exact
        ⟨rfl,
          settled_updateProgress backupID sizeMb durationMs
            hSound.unique⟩
  | run backupID event =>
      simp only [transact] at hTransact
      split at hTransact
      · cases hTransact
      · next run hFind =>
          exact
            continues_advanceRun hSound
              (List.mem_of_find?_eq_some hFind) hTransact
  | deleteBackup backupID isReadByRestore firstID =>
      exact
        continues_of_settled hSound
          (settled_unlessRefused hTransact)
  | removeExpiredBackup backupID isReadByRestore firstID =>
      exact
        continues_of_settled hSound
          (settled_unlessRefused hTransact)
  | onDatabaseDeleting databaseID isRestoreRunning firstID =>
      exact
        continues_of_settled hSound
          (settled_unlessRefused hTransact)
  | removeBackupsForStorageChange databaseID
      isRestoreRunning firstID =>
      exact
        continues_of_settled hSound
          (settled_unlessRefused hTransact)
  | recoverAtStartup firstID =>
      exact
        continues_of_settled hSound
          (settled_recoverAtStartup hSound.unique hTransact)
  | crash =>
      cases hTransact
      refine
        { started := rfl
          history := rfl
          settled := RowsSettled.refl fun _ hKept => hKept
          runs := ?_ }
      intro run hRun
      exact absurd hRun List.not_mem_nil

------------------------------------------------------------
-- Agreement in Every Run
------------------------------------------------------------

/- Files of different backups are different. -/
theorem StateSound.files_apart
    (hSound : StateSound format s)
    {first second : LogicalBackup}
    (hFirst : first ∈ s.backups)
    (hSecond : second ∈ s.backups)
    (hIDs : first.id ≠ second.id) :
    ∀ reference ∈ first.getStoredFiles,
      reference ∉ second.getStoredFiles := by
  apply
    storedFiles_apart (hSound.named first hFirst)
      (hSound.named second hSecond)
  intro hTexts
  exact
    hIDs
      (List.inj_on_of_nodup_map hSound.apart
        (hSound.started first hFirst)
        (hSound.started second hSecond) hTexts)

/- What the new transaction settled, and what older ones did. -/
theorem CatalogAgrees.record
    (hSound : StateSound format s)
    (hContinues : Continues s committed) :
    CatalogAgrees (record s committed) := by
  have hSettled := hContinues.settled
  refine
    { completed := ?_
      discarded := ?_
      removed := ?_ }
  · intro backup hMember hCompleted reference hFile
    rcases hSettled.rows backup hMember with
      ⟨old, hOld, hSame, hRow⟩
    rcases hRow with hUnchanged | ⟨_, hRow⟩
    · rw [hUnchanged] at hOld
      have hKept :=
        hSound.agrees.completed backup hOld hCompleted
          reference hFile
      apply hSettled.kept reference hKept
      intro hRequested
      rcases hSettled.requests reference hRequested with
        ⟨other, hOther, hOwn, hNot⟩
      by_cases hID : backup.id = other.id
      · exact hNot backup hMember hID hCompleted
      · exact
          hSound.files_apart hOld hOther hID reference hFile
            hOwn
    · rcases hRow with hRunning | hKept | hDiscarded
      · rw [hRunning] at hCompleted
        cases hCompleted
      · exact hKept.2 reference hFile
      · exact absurd hCompleted hDiscarded.1.not_completed
  · intro backup hMember hDiscarded
    rcases hSettled.rows backup hMember with
      ⟨old, hOld, hSame, hRow⟩
    rcases hRow with hUnchanged | ⟨hWasRunning, hRow⟩
    · rw [hUnchanged] at hOld
      rcases hSound.agrees.discarded backup hOld hDiscarded
        with ⟨commit, hCommit, hEnded⟩
      exact ⟨commit, List.mem_cons_of_mem _ hCommit, hEnded⟩
    · rcases hRow with hRunning | hCompleted | hRequested
      · exact absurd hRunning hDiscarded.not_running
      · exact absurd hCompleted.1 hDiscarded.not_completed
      · exact
          ⟨_, List.mem_cons_self,
            ⟨⟨old, hOld, hSame.id_eq, hWasRunning⟩,
              backup, hMember, rfl, rfl⟩,
            hRequested.2⟩
  · intro id hStarted hGone
    have hStartedBefore : id ∈ s.started := by
      rw [← hContinues.started]
      exact hStarted
    by_cases hRow : ∃ old ∈ s.backups, old.id = id
    · rcases hRow with ⟨old, hOld, rfl⟩
      rcases hSettled.gone old hOld with hStays | hRequested
      · rcases hStays with ⟨backup, hMember, hID⟩
        exact absurd hID (hGone backup hMember)
      · exact
          ⟨_, List.mem_cons_self, old, rfl,
            ⟨hOld, hGone⟩, hRequested⟩
    · push Not at hRow
      rcases hSound.agrees.removed id hStartedBefore hRow
        with ⟨commit, hCommit, hRemoved⟩
      exact ⟨commit, List.mem_cons_of_mem _ hCommit, hRemoved⟩

theorem StateSound.record
    (hSound : StateSound format s)
    (hContinues : Continues s committed) :
    StateSound format (record s committed) := by
  have hSettled := hContinues.settled
  refine
    { unique := hSettled.unique hSound.unique
      apart := ?_
      started := ?_
      named := ?_
      runs := fun run hRun => (hContinues.runs run hRun).1
      runStarted := ?_
      runFiles := ?_
      agrees := CatalogAgrees.record hSound hContinues }
  · have hStarted := hContinues.started
    unfold Logical.record
    rw [hStarted]
    exact hSound.apart
  · intro backup hMember
    rcases hSettled.rows backup hMember with
      ⟨old, hOld, hSame, _⟩
    have hStarted := hSound.started old hOld
    rw [hSame.id_eq, ← hContinues.started] at hStarted
    exact hStarted
  · intro backup hMember
    rcases hSettled.rows backup hMember with
      ⟨old, hOld, hSame, _⟩
    exact hSame.isNamed (hSound.named old hOld)
  · intro run hRun
    rcases (hContinues.runs run hRun).2 with
      ⟨old, hOld, hSame⟩
    have hStarted := hSound.runStarted old hOld
    rw [hSame, ← hContinues.started] at hStarted
    exact hStarted
  · intro run hRun row hMember hID
    rcases (hContinues.runs run hRun).2 with
      ⟨oldRun, hOldRun, hSameRun⟩
    rcases hSettled.rows row hMember with
      ⟨old, hOld, hSame, _⟩
    have hFiles :=
      hSound.runFiles oldRun hOldRun old hOld
        (by rw [hSame.id_eq, hID, hSameRun])
    rw [← hSame.getStoredFiles_eq, hFiles, hSameRun]

/- A started backup brings a row with files of its own. -/
theorem StateSound.startBackup
    {s' : State}
    {start : BackupStart}
    {answer : Storages.Files.Answer}
    (hSound : StateSound env.format s)
    (hStart : startBackup env s start answer = some s') :
    StateSound env.format (Logical.record s (s', [])) := by
  unfold Logical.startBackup at hStart
  split at hStart
  · next hAllowed =>
      rcases hAllowed with ⟨_, _, hFresh⟩
      have hNew : start.backupID ∉ s.started := by
        intro hOld
        exact hFresh _ hOld rfl
      have hRows :
          ∀ row ∈ s.backups, row.id ≠ start.backupID := by
        intro row hMember hID
        exact hNew (hID ▸ hSound.started row hMember)
      have hRuns :
          ∀ run ∈ s.runs, run.backup.id ≠ start.backupID := by
        intro run hRun hID
        exact hNew (hID ▸ hSound.runStarted run hRun)
      have hMemberRun :
          ∀ run ∈ s'.runs,
            run ∈ s.runs ∨
              run.backup = newBackup env s start ∧
                run.stage = .dumping := by
        intro run hRun
        cases hStart
        simp only at hRun
        split at hRun
        · rcases List.mem_append.mp hRun with hOld | hLast
          · exact Or.inl hOld
          · rw [List.mem_singleton.mp hLast]
            exact Or.inr ⟨rfl, rfl⟩
        · exact Or.inl hRun
      have hMemberRow :
          ∀ row ∈ s'.backups,
            row ∈ s.backups ∨ row = newBackup env s start := by
        intro row hRow
        cases hStart
        rcases List.mem_append.mp hRow with hOld | hLast
        · exact Or.inl hOld
        · exact Or.inr (List.mem_singleton.mp hLast)
      have hStarted :
          s'.started = start.backupID :: s.started := by
        cases hStart
        rfl
      have hAgrees :
          CatalogAgrees (Logical.record s (s', [])) := by
        refine
          { completed := ?_
            discarded := ?_
            removed := ?_ }
        · intro backup hMember hCompleted
          rcases hMemberRow backup hMember with hOld | rfl
          · cases hStart
            exact hSound.agrees.completed backup hOld hCompleted
          · cases hCompleted
        · intro backup hMember hDiscarded
          rcases hMemberRow backup hMember with hOld | rfl
          · rcases
              hSound.agrees.discarded backup hOld hDiscarded
              with ⟨commit, hCommit, hEnded⟩
            cases hStart
            exact
              ⟨commit, List.mem_cons_of_mem _ hCommit,
                hEnded⟩
          · exact absurd rfl hDiscarded.not_running
        · intro id hID hGone
          cases hStart
          rcases List.mem_cons.mp hID with rfl | hOld
          · exact
              absurd rfl
                (hGone (newBackup env s start)
                  (List.mem_append_right _
                    List.mem_cons_self))
          · have hGoneBefore :
                ∀ backup ∈ s.backups, backup.id ≠ id := by
              intro backup hMember
              exact
                hGone backup (List.mem_append_left _ hMember)
            rcases hSound.agrees.removed id hOld hGoneBefore
              with ⟨commit, hCommit, hRemoved⟩
            exact
              ⟨commit, List.mem_cons_of_mem _ hCommit,
                hRemoved⟩
      refine
        { unique := ?_
          apart := ?_
          started := ?_
          named := ?_
          runs := ?_
          runStarted := ?_
          runFiles := ?_
          agrees := hAgrees }
      · cases hStart
        exact hSound.unique.append hRows
      · cases hStart
        refine List.nodup_cons.mpr ⟨?_, hSound.apart⟩
        intro hOld
        rcases List.mem_map.mp hOld with ⟨id, hID, hText⟩
        exact hFresh id hID hText
      · intro row hMember
        have hIs : row.id ∈ start.backupID :: s.started := by
          rcases hMemberRow row hMember with hOld | rfl
          · exact
              List.mem_cons_of_mem _
                (hSound.started row hOld)
          · exact List.mem_cons_self
        rw [← hStarted] at hIs
        exact hIs
      · intro row hMember
        rcases hMemberRow row hMember with hOld | rfl
        · exact hSound.named row hOld
        · exact ⟨_, rfl⟩
      · intro run hRun
        rcases hMemberRun run hRun with hOld | ⟨_, hStage⟩
        · exact hSound.runs run hOld
        · unfold Run.IsSound
          rw [hStage]
          trivial
      · intro run hRun
        have hIs :
            run.backup.id ∈ start.backupID :: s.started := by
          rcases hMemberRun run hRun with hOld | ⟨hRow, _⟩
          · exact
              List.mem_cons_of_mem _
                (hSound.runStarted run hOld)
          · rw [hRow]
            exact List.mem_cons_self
        rw [← hStarted] at hIs
        exact hIs
      · intro run hRun row hMember hID
        rcases hMemberRun run hRun with hOldRun | ⟨hRow, _⟩
        · rcases hMemberRow row hMember with hOld | rfl
          · exact hSound.runFiles run hOldRun row hOld hID
          · exact absurd hID.symm (hRuns run hOldRun)
        · rcases hMemberRow row hMember with hOld | rfl
          · rw [hRow] at hID
            exact absurd hID (hRows row hOld)
          · rw [hRow]
  · cases hStart

theorem StateSound.initialState
    (format : NameFormat)
    (now : Time) :
    StateSound format (initialState now) := by
  refine
    { unique := List.nodup_nil
      apart := List.nodup_nil
      started := ?_
      named := ?_
      runs := ?_
      runStarted := ?_
      runFiles := ?_
      agrees :=
        { completed := ?_
          discarded := ?_
          removed := ?_ } }
  all_goals
    intro _ hNone
    exact absurd hNone List.not_mem_nil

theorem StateSound.step
    {s' : State}
    {action : Action}
    (hSound : StateSound env.format s)
    (hStep : step env s action = some s') :
    StateSound env.format s' := by
  rcases Option.map_eq_some_iff.mp hStep with
    ⟨committed, hTransact, rfl⟩
  by_cases hIsStart :
      ∃ start answer, action = .startBackup start answer
  · rcases hIsStart with ⟨start, answer, rfl⟩
    rcases Option.map_eq_some_iff.mp hTransact with
      ⟨s', hStart, rfl⟩
    exact hSound.startBackup hStart
  · push Not at hIsStart
    exact
      hSound.record
        (continues_of_transact hSound hIsStart hTransact)

theorem stateSound_of_reachable
    (hReachable : (system env).Reachable s) :
    StateSound env.format s := by
  apply hReachable.invariant
  · rintro _ ⟨now, rfl⟩
    exact StateSound.initialState _ now
  · intro s action s' hSound _ hStep
    exact hSound.step hStep

/- A progress update changes no row that has ended. -/
theorem progress_keeps_ended
    {s' : State}
    {backupID : Uuid}
    {sizeMb : Rat}
    {durationMs : Int}
    (hStep :
      step env s
          (.recordProgress backupID sizeMb durationMs) =
        some s')
    {backup : LogicalBackup}
    (hEnded : backup.status ≠ .inProgress) :
    backup ∈ s'.backups ↔ backup ∈ s.backups := by
  cases hStep
  constructor
  · intro hMember
    rcases (Table.mem_updateWhere_iff _ _ _ _).mp hMember with
      ⟨old, hOld, rfl⟩
    split at hEnded
    · next hSelected =>
        exact absurd (isInProgress_iff.mp hSelected).2 hEnded
    · next hNot =>
        rw [if_neg hNot]
        exact hOld
  · intro hMember
    exact mem_updateInProgress_of_ended hMember hEnded

/-
  In every reachable state the catalog and the files agree,
  and a progress update leaves the rows that have ended.
-/
theorem catalog_and_files_agree
    (env : Environment)
    (s : State)
    (hReachable : (system env).Reachable s) :
    CatalogAgrees s ∧
      ∀ backupID sizeMb durationMs s',
        step env s
            (.recordProgress backupID sizeMb durationMs) =
          some s' →
        ∀ backup : LogicalBackup,
          backup.status ≠ .inProgress →
            (backup ∈ s'.backups ↔ backup ∈ s.backups) := by
  refine ⟨(stateSound_of_reachable hReachable).agrees, ?_⟩
  intro backupID sizeMb durationMs s' hStep backup hEnded
  exact progress_keeps_ended hStep hEnded

def sampleEnvironment : Environment :=
  { files :=
      { timings :=
          { commitWindow := 100
            attemptLease := 10
            claimBatchSize := 50 }
        storages := [1] }
    format := sampleFormat }

def sampleFile
    (backupID : Uuid)
    (suffix : String) : StoredFileReference :=
  { storageID := 1
    fileName :=
      newFileName sampleFormat "app" backupID 0 ++ suffix }

/- A file is written, and its receipt is handed over. -/
def sampleWrite
    (pendingID : Uuid)
    (reference : StoredFileReference) : List Action :=
  [.files (.writeFile 3 pendingID reference [104, 105]),
    .files (.write pendingID (.protect true)),
    .files (.write pendingID (.insert 0 .answered)),
    .files (.write pendingID (.locate true)),
    .files (.write pendingID (.saveEnd true)),
    .files (.write pendingID (.keep 0 .answered)),
    .files (.write pendingID (.release true)),
    .files (.write pendingID .leave)]

/- The first backup is published, the second one fails. -/
def sampleRun : List Action :=
  [.startBackup ⟨1, "app", 1, 7⟩ .answered] ++
    sampleWrite 60 (sampleFile 7 "") ++
    [.run 7
      (.pipelineEnded
        ⟨⟨60, sampleFile 7 "", 0⟩, 3, 5, "", none⟩)] ++
    sampleWrite 61 (sampleFile 7 metadataSuffix) ++
    [.run 7
      (.metadataWritten
        ⟨61, sampleFile 7 metadataSuffix, 0⟩),
      .run 7 (.publish true .answered ""),
      .startBackup ⟨1, "app", 1, 8⟩ .answered,
      .recordProgress 8 2 1,
      .run 8 (.pipelineFailed "broken pipe"),
      .run 8 (.fail .answered 80)]

theorem published_and_failed_backups_agree :
    let s :=
      (system sampleEnvironment).outcome (initialState 0)
        sampleRun
    s.backups.map LogicalBackup.status =
        [.completed, .failed] ∧
      CatalogAgrees s := by
  refine ⟨by decide +kernel, ?_⟩
  exact
    (catalog_and_files_agree sampleEnvironment _
      (TransitionSystem.reachable_outcome _ ⟨0, rfl⟩)).1

end Logical

end Databasus
