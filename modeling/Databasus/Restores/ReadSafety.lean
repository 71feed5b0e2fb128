import Databasus.Restores.Races

/-
  A backup that a restore reads is not removed.

  A removal holds an update lock on each of its rows from
  before it looks for restores until it commits.  A restore
  holds a key share lock on its backup's row from its
  insertion on, so that of the two the later one sees the
  earlier one, or waits for it.

  Main declarations:
    * `StageHolds`
    * `ReadsSafe`
    * `RowsContinue`
    * `restores_read_kept_backups`
-/

------------------------------------------------------------
-- The Invariant
------------------------------------------------------------

namespace Databasus

namespace Restores

open Foundation
open Logical
open Storages (StoredFileReference)

/- The backup of the restore is there, and completed. -/
def ReadsCompleted
    (s : RaceState)
    (restore : Restore) : Prop :=
  ∃ backup ∈ s.backups,
    backup.id = restore.backupID ∧
      backup.databaseID = restore.databaseID ∧
        backup.status = .completed

/- No running restore reads one of the backups. -/
def Unread
    (s : RaceState)
    (backupIDs : List Uuid) : Prop :=
  ∀ restore ∈ s.restores,
    restore.status = .inProgress →
      restore.backupID ∉ backupIDs

/- The transaction has locked the rows for a removal. -/
def HoldsAll
    (s : RaceState)
    (tx : Uuid)
    (backupIDs : List Uuid) : Prop :=
  ∀ backupID ∈ backupIDs,
    RowLock.Holds s.locks tx backupID .update

/- Rows with one of the ids can only be those in the scope. -/
def InScope
    (s : RaceState)
    (scope : RemovalScope)
    (backupIDs : List Uuid) : Prop :=
  ∀ backupID ∈ backupIDs,
    backupID ∈ s.started ∧
      ∀ backup ∈ s.backups,
        backup.id = backupID → scope.covers backup = true

/- A backup that has been started, whether it is left or not. -/
structure WasStarted
    (format : NameFormat)
    (started : List Uuid)
    (backup : LogicalBackup) : Prop where
  known : backup.id ∈ started
  named : backup.IsNamed format

/- What a transaction may rely on at its stage. -/
def StageHolds
    (format : NameFormat)
    (s : RaceState)
    (tx : Uuid) : Stage → Prop
  | .backupRead backup =>
      backup.id ∈ s.started ∧
        ∀ row ∈ s.backups, row.id = backup.id →
          row.status = .completed
  | .restoreInserted restore =>
      restore.status = .inProgress ∧
        RowLock.Holds s.locks tx restore.backupID
            .keyShare ∧
          ReadsCompleted s restore
  | .locking cause waiting locked =>
      InScope s cause.scope waiting ∧
        InScope s cause.scope locked ∧
          HoldsAll s tx locked
  | .backupsChecked cause backupIDs =>
      InScope s cause.scope backupIDs ∧
        HoldsAll s tx backupIDs
  | .restoresChecked backupIDs =>
      HoldsAll s tx backupIDs ∧ Unread s backupIDs
  | .recordsDeleted backupIDs removed =>
      HoldsAll s tx backupIDs ∧ Unread s backupIDs ∧
        ∀ backup ∈ removed,
          backup.id ∈ backupIDs ∧
            WasStarted format s.started backup

/- The row is neither running nor completed any more. -/
def Obsolete
    (format : NameFormat)
    (s : RaceState)
    (file : StoredFileReference) : Prop :=
  ∃ backup : LogicalBackup,
    WasStarted format s.started backup ∧
      file ∈ backup.getStoredFiles ∧
        ∀ row ∈ s.backups,
          row.id = backup.id → row.IsDiscarded

/- Two restores of one database do not run at once. -/
def NotBothRunning
    (first second : Restore) : Prop :=
  first.status = .inProgress →
    second.status = .inProgress →
      first.databaseID ≠ second.databaseID

structure ReadsSafe
    (format : NameFormat)
    (s : RaceState) : Prop where
  compatible : RowLock.Compatible s.locks
  uniqueBackups :
    Table.UniqueBy LogicalBackup.id s.backups
  distinctTexts :
    ∀ first ∈ s.started, ∀ second ∈ s.started,
      format.uuidText first = format.uuidText second →
        first = second
  wasStarted :
    ∀ backup ∈ s.backups, WasStarted format s.started backup
  requests : ∀ file ∈ s.requested, Obsolete format s file
  reads :
    ∀ restore ∈ s.restores,
      restore.status = .inProgress →
        ReadsCompleted s restore
  apart : s.restores.Pairwise NotBothRunning
  stages :
    ∀ transaction ∈ s.transactions,
      StageHolds format s transaction.id transaction.stage
  insertedAlone :
    ∀ transaction ∈ s.transactions,
      ∀ restore ∈ transaction.insertedRestore,
        (∀ row ∈ s.restores,
          row.status = .inProgress →
            row.databaseID ≠ restore.databaseID) ∧
          ∀ other ∈ s.transactions,
            ∀ row ∈ other.insertedRestore,
              row.databaseID = restore.databaseID →
                other.id = transaction.id

------------------------------------------------------------
-- What Others Leave
------------------------------------------------------------

variable {format : NameFormat}
variable {s s' : RaceState}
variable {tx : Uuid}
variable {backupIDs : List Uuid}

/- A step that a transaction has no part in. -/
structure LeavesFor
    (s s' : RaceState)
    (tx : Uuid) : Prop where
  started : s.started ⊆ s'.started
  rows :
    ∀ row ∈ s'.backups, row.id ∈ s.started →
      ∃ old ∈ s.backups,
        old.id = row.id ∧ old.databaseID = row.databaseID ∧
          (old.status = .completed →
            row.status = .completed)
  locks :
    ∀ backupID mode,
      RowLock.Holds s.locks tx backupID mode →
        RowLock.Holds s'.locks tx backupID mode
  reads :
    ∀ restore : Restore,
      RowLock.Holds s.locks tx restore.backupID .keyShare →
        ReadsCompleted s restore →
          ReadsCompleted s' restore
  unread :
    ∀ restore ∈ s'.restores, restore.status = .inProgress →
      restore ∈ s.restores ∨
        ¬ RowLock.Holds s.locks tx restore.backupID .update

/- A step that changes no table. -/
theorem LeavesFor.of_tables
    (hBackups : s'.backups = s.backups)
    (hRestores : s'.restores = s.restores)
    (hStarted : s'.started = s.started)
    (hLocks :
      ∀ backupID mode,
        RowLock.Holds s.locks tx backupID mode →
          RowLock.Holds s'.locks tx backupID mode) :
    LeavesFor s s' tx := by
  refine ⟨?_, ?_, hLocks, ?_, ?_⟩
  · rw [hStarted]
    exact List.Subset.refl _
  · intro row hRow _
    rw [hBackups] at hRow
    exact ⟨row, hRow, rfl, rfl, id⟩
  · rintro restore _ ⟨backup, hBackup, hReads⟩
    rw [← hBackups] at hBackup
    exact ⟨backup, hBackup, hReads⟩
  · intro restore hRestore _
    rw [hRestores] at hRestore
    exact .inl hRestore

theorem WasStarted.leaves
    {backup : LogicalBackup}
    (hStarted : WasStarted format s.started backup)
    (hLeaves : s.started ⊆ s'.started) :
    WasStarted format s'.started backup :=
  ⟨hLeaves hStarted.known, hStarted.named⟩

theorem InScope.leaves
    {scope : RemovalScope}
    (hScope : InScope s scope backupIDs)
    (hLeaves : LeavesFor s s' tx) :
    InScope s' scope backupIDs := by
  intro backupID hIn
  rcases hScope backupID hIn with ⟨hKnown, hCovers⟩
  refine ⟨hLeaves.started hKnown, ?_⟩
  intro row hRow hID
  subst hID
  rcases hLeaves.rows row hRow hKnown with
    ⟨old, hOld, hID, hDatabase, _⟩
  have hCovered := hCovers old hOld hID
  unfold RemovalScope.covers at hCovered ⊢
  rw [← hID, ← hDatabase]
  exact hCovered

theorem HoldsAll.leaves
    (hHolds : HoldsAll s tx backupIDs)
    (hLeaves : LeavesFor s s' tx) :
    HoldsAll s' tx backupIDs :=
  fun backupID hIn =>
    hLeaves.locks backupID .update (hHolds backupID hIn)

/- New restores read no backup that is locked for removal. -/
theorem Unread.leaves
    (hUnread : Unread s backupIDs)
    (hHolds : HoldsAll s tx backupIDs)
    (hLeaves : LeavesFor s s' tx) :
    Unread s' backupIDs := by
  intro restore hRestore hRunning hIn
  rcases hLeaves.unread restore hRestore hRunning with
    hOld | hFree
  · exact hUnread restore hOld hRunning hIn
  · exact hFree (hHolds restore.backupID hIn)

theorem StageHolds.leaves
    {stage : Stage}
    (hStage : StageHolds format s tx stage)
    (hLeaves : LeavesFor s s' tx) :
    StageHolds format s' tx stage := by
  cases stage with
  | backupRead backup =>
      refine ⟨hLeaves.started hStage.1, ?_⟩
      intro row hRow hID
      have hKnown : row.id ∈ s.started := hID ▸ hStage.1
      rcases hLeaves.rows row hRow hKnown with
        ⟨old, hOld, hSame, _, hCompleted⟩
      exact hCompleted (hStage.2 old hOld (hSame.trans hID))
  | restoreInserted restore =>
      rcases hStage with ⟨hRunning, hHolds, hReads⟩
      exact
        ⟨hRunning, hLeaves.locks _ _ hHolds,
          hLeaves.reads restore hHolds hReads⟩
  | locking cause waiting locked =>
      rcases hStage with ⟨hWaiting, hLocked, hHolds⟩
      exact
        ⟨hWaiting.leaves hLeaves, hLocked.leaves hLeaves,
          hHolds.leaves hLeaves⟩
  | backupsChecked cause backupIDs =>
      exact ⟨hStage.1.leaves hLeaves, hStage.2.leaves hLeaves⟩
  | restoresChecked backupIDs =>
      exact
        ⟨hStage.1.leaves hLeaves,
          hStage.2.leaves hStage.1 hLeaves⟩
  | recordsDeleted backupIDs removed =>
      rcases hStage with ⟨hHolds, hUnread, hRemoved⟩
      refine
        ⟨hHolds.leaves hLeaves,
          hUnread.leaves hHolds hLeaves, ?_⟩
      intro backup hBackup
      rcases hRemoved backup hBackup with ⟨hIn, hStarted⟩
      exact ⟨hIn, hStarted.leaves hLeaves.started⟩

------------------------------------------------------------
-- Steps of a Transaction
------------------------------------------------------------

variable {stage : Stage}
variable {transaction : Transaction}

theorem mem_setStage
    (hMember :
      transaction ∈ (s.setStage tx stage).transactions) :
    transaction = { id := tx, stage := stage } ∨
      transaction ∈ s.transactions ∧
        transaction.id ≠ tx := by
  rcases (Table.mem_updateWhere_iff _ _ _ _).mp hMember with
    ⟨old, hOld, rfl⟩
  by_cases hSame : old.id = tx
  · exact .inl (by simp [hSame])
  · exact .inr (by simp [hSame, hOld])

theorem mem_finish
    (hMember : transaction ∈ (s.finish tx).transactions) :
    transaction ∈ s.transactions ∧
      transaction.id ≠ tx := by
  rcases (Table.mem_deleteWhere_iff _ _ _).mp hMember with
    ⟨hOld, hOther⟩
  exact ⟨hOld, of_decide_eq_false hOther⟩

theorem mem_begin
    (hMember :
      transaction ∈ (s.begin tx stage).transactions) :
    transaction ∈ s.transactions ∨
      transaction = { id := tx, stage := stage } := by
  simpa [RaceState.begin] using hMember

/- A restore that no running one and no other one is near. -/
def IsAlone
    (s : RaceState)
    (tx : Uuid)
    (restore : Restore) : Prop :=
  (∀ row ∈ s.restores,
    row.status = .inProgress →
      row.databaseID ≠ restore.databaseID) ∧
    ∀ other ∈ s.transactions,
      other.id ≠ tx →
        ∀ row ∈ other.insertedRestore,
          row.databaseID ≠ restore.databaseID

/- A transaction that gets on to a stage that holds. -/
theorem ReadsSafe.setStage
    (hSafe : ReadsSafe format s)
    (hStage : StageHolds format s tx stage)
    (hAlone :
      ∀ restore, stage = .restoreInserted restore →
        IsAlone s tx restore) :
    ReadsSafe format (s.setStage tx stage) := by
  have hInserted :
      ∀ {restore},
        restore ∈
            ({ id := tx, stage := stage } :
              Transaction).insertedRestore →
          stage = .restoreInserted restore := by
    intro restore hIn
    unfold Transaction.insertedRestore at hIn
    split at hIn
    · next inserted hStageIs =>
        rw [← Option.some.inj hIn]
        exact hStageIs
    · cases hIn
  refine
    { hSafe with
      stages := ?_
      insertedAlone := ?_ }
  · intro transaction hMember
    rcases mem_setStage hMember with rfl | ⟨hOld, _⟩
    · exact
        hStage.leaves
          (.of_tables rfl rfl rfl fun _ _ hHolds => hHolds)
    · exact
        (hSafe.stages transaction hOld).leaves
          (.of_tables rfl rfl rfl fun _ _ hHolds => hHolds)
  · intro transaction hMember restore hRestore
    rcases mem_setStage hMember with rfl | ⟨hOld, hOther⟩
    · have hIsAlone := hAlone restore (hInserted hRestore)
      refine ⟨hIsAlone.1, ?_⟩
      intro other hOtherMember row hRow hSame
      rcases mem_setStage hOtherMember with
        rfl | ⟨hOtherOld, hOtherID⟩
      · rfl
      · exact
          absurd hSame
            (hIsAlone.2 other hOtherOld hOtherID row hRow)
    · rcases
          hSafe.insertedAlone transaction hOld restore
            hRestore with
        ⟨hRows, hOthers⟩
      refine ⟨hRows, ?_⟩
      intro other hOtherMember row hRow hSame
      rcases mem_setStage hOtherMember with
        rfl | ⟨hOtherOld, _⟩
      · have hIsAlone := hAlone row (hInserted hRow)
        exact
          absurd hSame.symm
            (hIsAlone.2 transaction hOld hOther restore
              hRestore)
      · exact hOthers other hOtherOld row hRow hSame

theorem ReadsSafe.begin
    (hSafe : ReadsSafe format s)
    (hStage : StageHolds format s tx stage)
    (hNone :
      ∀ restore, stage ≠ .restoreInserted restore) :
    ReadsSafe format (s.begin tx stage) := by
  have hInserted :
      ({ id := tx, stage := stage } :
        Transaction).insertedRestore = none := by
    unfold Transaction.insertedRestore
    split
    · next restore hStageIs =>
        exact absurd hStageIs (hNone restore)
    · rfl
  refine
    { hSafe with
      stages := ?_
      insertedAlone := ?_ }
  · intro transaction hMember
    rcases mem_begin hMember with hOld | rfl
    · exact
        (hSafe.stages transaction hOld).leaves
          (.of_tables rfl rfl rfl fun _ _ hHolds => hHolds)
    · exact
        hStage.leaves
          (.of_tables rfl rfl rfl fun _ _ hHolds => hHolds)
  · intro transaction hMember restore hRestore
    rcases mem_begin hMember with hOld | rfl
    · rcases
          hSafe.insertedAlone transaction hOld restore
            hRestore with
        ⟨hRows, hOthers⟩
      refine ⟨hRows, ?_⟩
      intro other hOtherMember row hRow hSame
      rcases mem_begin hOtherMember with hOtherOld | rfl
      · exact hOthers other hOtherOld row hRow hSame
      · rw [hInserted] at hRow
        cases hRow
    · rw [hInserted] at hRestore
      cases hRestore

/- The end of a transaction, whatever it has committed. -/
theorem ReadsSafe.finish
    (hSafe : ReadsSafe format s)
    (tx : Uuid) : ReadsSafe format (s.finish tx) := by
  refine
    { hSafe with
      compatible := hSafe.compatible.release tx
      stages := ?_
      insertedAlone := ?_ }
  · intro transaction hMember
    rcases mem_finish hMember with ⟨hOld, hOther⟩
    exact
      (hSafe.stages transaction hOld).leaves
        (.of_tables rfl rfl rfl fun _ _ hHolds =>
          hHolds.release hOther)
  · intro transaction hMember restore hRestore
    rcases mem_finish hMember with ⟨hOld, _⟩
    rcases
        hSafe.insertedAlone transaction hOld restore
          hRestore with
      ⟨hRows, hOthers⟩
    refine ⟨hRows, ?_⟩
    intro other hOtherMember
    exact hOthers other (mem_finish hOtherMember).1

/- A lock that is granted takes none away. -/
theorem ReadsSafe.acquire
    (hSafe : ReadsSafe format s)
    {backupID : Uuid}
    {mode : RowLockMode}
    {locks : List (RowLock Uuid Uuid)}
    (hAcquire :
      RowLock.acquire s.locks tx backupID mode =
        some locks) :
    ReadsSafe format { s with locks := locks } := by
  refine
    { hSafe with
      compatible := hSafe.compatible.acquire hAcquire
      stages := ?_ }
  intro transaction hMember
  exact
    (hSafe.stages transaction hMember).leaves
      (.of_tables rfl rfl rfl fun _ _ hHolds =>
        hHolds.acquire hAcquire)

------------------------------------------------------------
-- Statements of Transactions
------------------------------------------------------------

variable {backupID : Uuid}
variable {restore : Restore}
variable {cause : RemovalCause}
variable {waiting locked : List Uuid}

theorem mem_of_stageOf
    {stage : Stage}
    (hStage : s.stageOf tx = some stage) :
    { id := tx, stage := stage } ∈ s.transactions := by
  unfold RaceState.stageOf at hStage
  rcases Option.map_eq_some_iff.mp hStage with
    ⟨transaction, hLookup, rfl⟩
  rcases Table.lookup_some hLookup with ⟨hMember, rfl⟩
  exact hMember

theorem ReadsSafe.readBackup
    (hSafe : ReadsSafe format s)
    (hRead : readBackup s tx backupID = some s') :
    ReadsSafe format s' := by
  unfold Restores.readBackup at hRead
  split at hRead
  · cases hRead
  · next backup hLookup =>
      split at hRead
      · next hCompleted =>
          cases hRead
          have hMember := (Table.lookup_some hLookup).1
          refine hSafe.begin ?_ (by simp)
          refine ⟨(hSafe.wasStarted backup hMember).known, ?_⟩
          intro row hRow hID
          have hSame : row = backup :=
            hSafe.uniqueBackups.eq_of_key_eq hRow hMember hID
          rw [hSame]
          exact hCompleted
      · cases hRead

/- An inserted restore still runs. -/
theorem ReadsSafe.running_of_inserted
    (hSafe : ReadsSafe format s)
    {transaction : Transaction}
    (hMember : transaction ∈ s.transactions)
    (hRestore : restore ∈ transaction.insertedRestore) :
    restore.status = .inProgress := by
  have hStage := hSafe.stages transaction hMember
  unfold Transaction.insertedRestore at hRestore
  split at hRestore
  · next inserted hStageIs =>
      rw [hStageIs] at hStage
      rw [← Option.some.inj hRestore]
      exact hStage.1
  · cases hRestore

/- What the indexes let in is alone in its database. -/
theorem ReadsSafe.isAlone
    (hSafe : ReadsSafe format s)
    (hRows : s.restores.any (collides restore) = false)
    (hOthers :
      (s.transactions.any fun other =>
        other.insertedRestore.any (collides restore)) =
        false) :
    IsAlone s tx restore := by
  have hApart :
      ∀ row,
        collides restore row = false →
          row.status = .inProgress →
            row.databaseID ≠ restore.databaseID := by
    intro row hFree hRunning hSame
    have hCollides : collides restore row = true := by
      simp [collides, isRunningOf, hSame, hRunning]
    rw [hFree] at hCollides
    cases hCollides
  rw [List.any_eq_false] at hRows hOthers
  refine ⟨?_, ?_⟩
  · intro row hRow hRunning
    exact hApart row (by simpa using hRows row hRow) hRunning
  · intro other hOther _ row hRow
    have hNone := hOthers other hOther
    rw [Option.mem_def.mp hRow, Option.any_some] at hNone
    exact
      hApart row (by simpa using hNone)
        (hSafe.running_of_inserted hOther hRow)

theorem ReadsSafe.insertRestore
    {restoreID : Uuid}
    {createdAt : Time}
    {backup : LogicalBackup}
    (hSafe : ReadsSafe format s)
    (hStage : s.stageOf tx = some (.backupRead backup))
    (hInsert :
      insertRestore s tx restoreID createdAt backup =
        some s') :
    ReadsSafe format s' := by
  have hRead := hSafe.stages _ (mem_of_stageOf hStage)
  unfold Restores.insertRestore at hInsert
  dsimp only at hInsert
  split at hInsert
  · cases hInsert
    exact hSafe.finish tx
  · next hRows =>
      split at hInsert
      · cases hInsert
      · next hOthers =>
          split at hInsert
          · cases hInsert
          · next locks hAcquire =>
              split at hInsert
              · next hFound =>
                  cases hInsert
                  have hAlone :
                      IsAlone s tx
                        (newRestore restoreID backup
                          createdAt) :=
                    hSafe.isAlone (by simpa using hRows)
                      (by simpa using hOthers)
                  apply (hSafe.acquire hAcquire).setStage
                  · refine
                      ⟨rfl, RowLock.Holds.acquired hAcquire,
                        ?_⟩
                    rcases List.any_eq_true.mp hFound with
                      ⟨row, hRow, hSame⟩
                    simp only [Bool.and_eq_true,
                      decide_eq_true_eq] at hSame
                    exact
                      ⟨row, hRow, hSame.1, hSame.2,
                        hRead.2 row hRow hSame.1⟩
                  · rintro restore hIs
                    cases hIs
                    exact hAlone
              · cases hInsert
                exact hSafe.finish tx

theorem ReadsSafe.beginRemoval
    (hSafe : ReadsSafe format s)
    (tx : Uuid)
    (cause : RemovalCause) :
    ReadsSafe format (beginRemoval s tx cause) := by
  refine hSafe.begin ?_ (by simp)
  refine ⟨?_, by simp [InScope], by simp [HoldsAll]⟩
  intro backupID hIn
  rcases List.mem_map.mp hIn with ⟨backup, hFound, rfl⟩
  rcases List.mem_filter.mp hFound with
    ⟨hMember, hCovers⟩
  refine ⟨(hSafe.wasStarted backup hMember).known, ?_⟩
  intro row hRow hID
  have hSame : row = backup :=
    hSafe.uniqueBackups.eq_of_key_eq hRow hMember hID
  rw [hSame]
  exact hCovers

theorem ReadsSafe.lockRow
    (hSafe : ReadsSafe format s)
    (hStage :
      s.stageOf tx = some (.locking cause waiting locked))
    (hLock :
      lockRow s tx backupID cause waiting locked =
        some s') :
    ReadsSafe format s' := by
  rcases hSafe.stages _ (mem_of_stageOf hStage) with
    ⟨hWaiting, hLocked, hHolds⟩
  unfold Restores.lockRow at hLock
  split at hLock
  · next hIn =>
      have hRest :
          InScope s cause.scope (waiting.erase backupID) :=
        fun other hOther =>
          hWaiting other (List.mem_of_mem_erase hOther)
      split at hLock
      · cases hLock
      · next locks hAcquire =>
          split at hLock
          · cases hLock
            refine
              (hSafe.acquire hAcquire).setStage ?_ (by simp)
            refine ⟨hRest, ?_, ?_⟩
            · intro other hOther
              rcases List.mem_cons.mp hOther with rfl | hOld
              · exact hWaiting other hIn
              · exact hLocked other hOld
            · intro other hOther
              rcases List.mem_cons.mp hOther with rfl | hOld
              · exact RowLock.Holds.acquired hAcquire
              · exact (hHolds other hOld).acquire hAcquire
          · cases hLock
            refine hSafe.setStage ?_ (by simp)
            exact ⟨hRest, hLocked, hHolds⟩
  · cases hLock

theorem ReadsSafe.checkBackups
    (hSafe : ReadsSafe format s)
    (hStage :
      s.stageOf tx = some (.locking cause waiting locked)) :
    ReadsSafe format (checkBackups s tx cause locked) := by
  rcases hSafe.stages _ (mem_of_stageOf hStage) with
    ⟨_, hLocked, hHolds⟩
  unfold Restores.checkBackups
  split
  · exact hSafe.finish tx
  · exact hSafe.setStage ⟨hLocked, hHolds⟩ (by simp)

/- The check sees every restore that reads a locked row. -/
theorem ReadsSafe.unread_of_unrefused
    (hSafe : ReadsSafe format s)
    {scope : RemovalScope}
    (hScope : InScope s scope backupIDs)
    (hUnrefused :
      scope.isRefusedByRestores s.restores = false) :
    Unread s backupIDs := by
  intro restore hRestore hRunning hIn
  rcases hSafe.reads restore hRestore hRunning with
    ⟨backup, hBackup, hID, hDatabase, _⟩
  have hCovers :=
    (hScope restore.backupID hIn).2 backup hBackup hID
  have hRefused :
      scope.isRefusedByRestores s.restores = true := by
    cases scope with
    | backup backupID =>
        have hIs : backup.id = backupID :=
          of_decide_eq_true hCovers
        unfold RemovalScope.isRefusedByRestores
          isRunningForBackups
        rw [List.any_eq_true]
        refine ⟨restore, hRestore, ?_⟩
        simp [← hID, hIs, hRunning]
    | database databaseID =>
        have hIs : backup.databaseID = databaseID :=
          of_decide_eq_true hCovers
        unfold RemovalScope.isRefusedByRestores
          isRunningForDatabase
        rw [List.any_eq_true]
        refine ⟨restore, hRestore, ?_⟩
        simp [isRunningOf, ← hDatabase, hIs, hRunning]
  rw [hUnrefused] at hRefused
  cases hRefused

theorem ReadsSafe.checkRestores
    (hSafe : ReadsSafe format s)
    (hStage :
      s.stageOf tx = some (.backupsChecked cause backupIDs)) :
    ReadsSafe format
      (checkRestores s tx cause backupIDs) := by
  rcases hSafe.stages _ (mem_of_stageOf hStage) with
    ⟨hScope, hHolds⟩
  unfold Restores.checkRestores
  split
  · exact hSafe.finish tx
  · next hUnrefused =>
      have hUnread :=
        hSafe.unread_of_unrefused hScope
          (by simpa using hUnrefused)
      exact hSafe.setStage ⟨hHolds, hUnread⟩ (by simp)

theorem ReadsSafe.deleteBackupRecords
    (hSafe : ReadsSafe format s)
    (hStage :
      s.stageOf tx = some (.restoresChecked backupIDs)) :
    ReadsSafe format
      (deleteBackupRecords s tx backupIDs) := by
  rcases hSafe.stages _ (mem_of_stageOf hStage) with
    ⟨hHolds, hUnread⟩
  refine hSafe.setStage ⟨hHolds, hUnread, ?_⟩ (by simp)
  intro backup hRemoved
  rcases List.mem_filter.mp hRemoved with ⟨hMember, hIn⟩
  exact ⟨by simpa using hIn, hSafe.wasStarted backup hMember⟩

------------------------------------------------------------
-- Commits
------------------------------------------------------------

variable {removed : List LogicalBackup}

/- Another transaction that locks the row in a mode. -/
def IsLockedByOthers
    (s : RaceState)
    (backupID : Uuid)
    (mode : RowLockMode) : Prop :=
  ∃ transaction ∈ s.transactions,
    RowLock.Holds s.locks transaction.id backupID mode

/- A lock keeps the conflicting ones of others away. -/
theorem ReadsSafe.not_lockedByOthers
    (hSafe : ReadsSafe format s)
    {backupID : Uuid}
    {held mode : RowLockMode}
    (hHolds : RowLock.Holds s.locks tx backupID held)
    (hConflicts : held.conflicts mode = true) :
    ¬ IsLockedByOthers (s.finish tx) backupID mode := by
  rintro ⟨transaction, hMember, hOther⟩
  have hID := (mem_finish hMember).2
  have hBefore :
      RowLock.Holds s.locks transaction.id backupID mode :=
    (List.mem_filter.mp hOther).1
  exact
    hID
      (hSafe.compatible.excludes hHolds hBefore
        hConflicts).symm

/- A restore becomes visible whose backup is not locked. -/
theorem ReadsSafe.addRestore
    (hSafe : ReadsSafe format s)
    (hReads : ReadsCompleted s restore)
    (hAlone : IsAlone s tx restore)
    (hClosed :
      ∀ transaction ∈ s.transactions, transaction.id ≠ tx)
    (hFree :
      ¬ IsLockedByOthers s restore.backupID .update) :
    ReadsSafe format
      { s with restores := s.restores ++ [restore] } := by
  refine
    { hSafe with
      reads := ?_
      apart := ?_
      stages := ?_
      insertedAlone := ?_ }
  · intro row hRow hRowRunning
    rcases List.mem_append.mp hRow with hOld | hNew
    · exact hSafe.reads row hOld hRowRunning
    · rw [List.mem_singleton.mp hNew]
      exact hReads
  · refine
      List.pairwise_append.mpr
        ⟨hSafe.apart, List.pairwise_singleton _ _, ?_⟩
    intro row hRow other hOther hRowRunning _
    rw [List.mem_singleton.mp hOther]
    exact hAlone.1 row hRow hRowRunning
  · intro transaction hMember
    apply (hSafe.stages transaction hMember).leaves
    refine
      ⟨List.Subset.refl _, ?_, fun _ _ hHolds => hHolds,
        fun _ _ hReads => hReads, ?_⟩
    · intro row hRow _
      exact ⟨row, hRow, rfl, rfl, id⟩
    · intro row hRow _
      rcases List.mem_append.mp hRow with hOld | hNew
      · exact .inl hOld
      · right
        intro hHolds
        rw [List.mem_singleton.mp hNew] at hHolds
        exact hFree ⟨transaction, hMember, hHolds⟩
  · intro transaction hMember inserted hInserted
    rcases
        hSafe.insertedAlone transaction hMember inserted
          hInserted with
      ⟨hRows, hOthers⟩
    refine ⟨?_, hOthers⟩
    intro row hRow hRowRunning
    rcases List.mem_append.mp hRow with hOld | hNew
    · exact hRows row hOld hRowRunning
    · rw [List.mem_singleton.mp hNew]
      exact
        (hAlone.2 transaction hMember
          (hClosed transaction hMember) inserted
          hInserted).symm

theorem ReadsSafe.commitRestore
    (hSafe : ReadsSafe format s)
    (hStage : s.stageOf tx = some (.restoreInserted restore)) :
    ReadsSafe format (commitRestore s tx restore) := by
  have hMember := mem_of_stageOf hStage
  rcases hSafe.stages _ hMember with ⟨_, hHolds, hReads⟩
  rcases hSafe.insertedAlone _ hMember restore rfl with
    ⟨hRows, hOthers⟩
  have hAlone : IsAlone (s.finish tx) tx restore := by
    refine ⟨hRows, ?_⟩
    intro other hOther hID row hRow hSame
    exact
      hID
        (hOthers other (mem_finish hOther).1 row hRow hSame)
  exact
    (hSafe.finish tx).addRestore hReads hAlone
      (fun _ hOther => (mem_finish hOther).2)
      (hSafe.not_lockedByOthers hHolds rfl)

/- Files of removed backups belong to no backup that is left. -/
theorem obsolete_of_removed
    {backup : LogicalBackup}
    {file : Storages.StoredFileReference}
    (hIn : backup.id ∈ backupIDs)
    (hStarted : WasStarted format s.started backup)
    (hFile : file ∈ backup.getStoredFiles)
    (hGone :
      ∀ row ∈ s.backups, row.id ∉ backupIDs) :
    Obsolete format s file := by
  refine ⟨backup, hStarted, hFile, ?_⟩
  intro row hRow hID
  exact absurd (hID ▸ hIn) (hGone row hRow)

/- What a removal that holds its locks commits. -/
def withoutBackups
    (s : RaceState)
    (backupIDs : List Uuid)
    (removed : List LogicalBackup) : RaceState :=
  { s with
    backups := (deleteByIDs s.backups backupIDs).1
    restores :=
      Table.deleteWhere
        (fun restore =>
          backupIDs.contains restore.backupID)
        s.restores
    requested :=
      s.requested ++
        removed.flatMap LogicalBackup.getStoredFiles }

theorem mem_withoutBackups
    {row : LogicalBackup} :
    row ∈ (withoutBackups s backupIDs removed).backups ↔
      row ∈ s.backups ∧ row.id ∉ backupIDs := by
  simp [withoutBackups, deleteByIDs]

/- A completed backup that is not removed can still be read. -/
theorem ReadsCompleted.withoutBackups
    (hReads : ReadsCompleted s restore)
    (hKept : restore.backupID ∉ backupIDs) :
    ReadsCompleted (withoutBackups s backupIDs removed)
      restore := by
  rcases hReads with ⟨backup, hBackup, hID, hRest⟩
  refine
    ⟨backup, mem_withoutBackups.mpr ⟨hBackup, ?_⟩, hID,
      hRest⟩
  rw [hID]
  exact hKept

theorem ReadsSafe.removeBackups
    (hSafe : ReadsSafe format s)
    (hUnread : Unread s backupIDs)
    (hRemoved :
      ∀ backup ∈ removed,
        backup.id ∈ backupIDs ∧
          WasStarted format s.started backup)
    (hFree :
      ∀ backupID ∈ backupIDs,
        ¬ IsLockedByOthers s backupID .keyShare) :
    ReadsSafe format
      (withoutBackups s backupIDs removed) := by
  have hRestores :
      ∀ restore ∈
          (withoutBackups s backupIDs removed).restores,
        restore ∈ s.restores :=
    fun restore hRestore =>
      ((Table.mem_deleteWhere_iff _ _ _).mp hRestore).1
  refine
    { hSafe with
      uniqueBackups := hSafe.uniqueBackups.deleteWhere _
      wasStarted := ?_
      requests := ?_
      reads := ?_
      apart := hSafe.apart.filter _
      stages := ?_
      insertedAlone := ?_ }
  · intro row hRow
    exact hSafe.wasStarted row (mem_withoutBackups.mp hRow).1
  · intro file hFile
    rcases List.mem_append.mp hFile with hOld | hNew
    · rcases hSafe.requests file hOld with
        ⟨backup, hStarted, hStored, hDiscarded⟩
      refine ⟨backup, hStarted, hStored, ?_⟩
      intro row hRow
      exact hDiscarded row (mem_withoutBackups.mp hRow).1
    · rcases List.mem_flatMap.mp hNew with
        ⟨backup, hBackup, hStored⟩
      rcases hRemoved backup hBackup with ⟨hIn, hStarted⟩
      exact
        obsolete_of_removed hIn hStarted hStored
          fun row hRow => (mem_withoutBackups.mp hRow).2
  · intro restore hRestore hRunning
    have hOld := hRestores restore hRestore
    exact
      (hSafe.reads restore hOld hRunning).withoutBackups
        (hUnread restore hOld hRunning)
  · intro transaction hMember
    apply (hSafe.stages transaction hMember).leaves
    refine
      ⟨List.Subset.refl _, ?_, fun _ _ hHolds => hHolds,
        ?_, ?_⟩
    · intro row hRow _
      exact ⟨row, (mem_withoutBackups.mp hRow).1, rfl, rfl, id⟩
    · intro restore hHolds hReads
      apply hReads.withoutBackups
      intro hIn
      exact
        hFree restore.backupID hIn
          ⟨transaction, hMember, hHolds⟩
    · intro restore hRestore _
      exact .inl (hRestores restore hRestore)
  · intro transaction hMember inserted hInserted
    rcases
        hSafe.insertedAlone transaction hMember inserted
          hInserted with
      ⟨hRows, hOthers⟩
    refine ⟨?_, hOthers⟩
    intro row hRow
    exact hRows row (hRestores row hRow)

theorem ReadsSafe.commitRemoval
    (hSafe : ReadsSafe format s)
    (hStage :
      s.stageOf tx =
        some (.recordsDeleted backupIDs removed)) :
    ReadsSafe format
      (commitRemoval s tx backupIDs removed) := by
  rcases hSafe.stages _ (mem_of_stageOf hStage) with
    ⟨hHolds, hUnread, hRemoved⟩
  apply (hSafe.finish tx).removeBackups hUnread hRemoved
  intro backupID hIn
  exact hSafe.not_lockedByOthers (hHolds backupID hIn) rfl

/- A removal leaves the running restores alone. -/
theorem ReadsSafe.running_of_commitRemoval
    (hSafe : ReadsSafe format s)
    (hStage :
      s.stageOf tx =
        some (.recordsDeleted backupIDs removed))
    {restore : Restore}
    (hRestore : restore ∈ s.restores)
    (hRunning : restore.status = .inProgress) :
    restore ∈
      (Restores.commitRemoval s tx backupIDs
        removed).restores := by
  rcases hSafe.stages _ (mem_of_stageOf hStage) with
    ⟨_, hUnread, _⟩
  refine (Table.mem_deleteWhere_iff _ _ _).mpr ⟨hRestore, ?_⟩
  simpa using hUnread restore hRestore hRunning

------------------------------------------------------------
-- Runs of Backups and Restores
------------------------------------------------------------

/- Restores that end read nothing any more. -/
theorem ReadsSafe.endRestores
    {after : List Restore}
    (hSafe : ReadsSafe format s)
    (hEnds : EndsRestores s.restores after) :
    ReadsSafe format { s with restores := after } := by
  refine
    { hSafe with
      reads := ?_
      apart := ?_
      stages := ?_
      insertedAlone := ?_ }
  · intro restore hRestore hRunning
    exact
      hSafe.reads restore (hEnds.mem hRestore hRunning)
        hRunning
  · rcases hEnds with ⟨change, rfl, hChange⟩
    refine List.pairwise_map.mpr (hSafe.apart.imp ?_)
    intro first second hApart hRuns hRuns'
    rcases hChange first with hSame | hEnded
    · rcases hChange second with hSame' | hEnded'
      · rw [hSame] at hRuns ⊢
        rw [hSame'] at hRuns' ⊢
        exact hApart hRuns hRuns'
      · exact absurd hRuns' hEnded'
    · exact absurd hRuns hEnded
  · intro transaction hMember
    apply (hSafe.stages transaction hMember).leaves
    refine
      ⟨List.Subset.refl _, ?_, fun _ _ hHolds => hHolds,
        fun _ _ hReads => hReads, ?_⟩
    · intro row hRow _
      exact ⟨row, hRow, rfl, rfl, id⟩
    · intro restore hRestore hRunning
      exact .inl (hEnds.mem hRestore hRunning)
  · intro transaction hMember inserted hInserted
    rcases
        hSafe.insertedAlone transaction hMember inserted
          hInserted with
      ⟨hRows, hOthers⟩
    refine ⟨?_, hOthers⟩
    intro row hRow hRunning
    exact hRows row (hEnds.mem hRow hRunning) hRunning

/- What becomes of a running row that an event selects. -/
structure ChangesRow
    (isDiscarding : Bool)
    (before after : LogicalBackup) : Prop where
  running : before.status = .inProgress
  same : SameFiles before after
  databaseID : after.databaseID = before.databaseID
  discarded :
    isDiscarding = true → after.IsDiscarded

/- The rows of an event: those selected change. -/
theorem BackupEvent.rows_eq
    (event : BackupEvent) :
    ∃ change : LogicalBackup → LogicalBackup,
      (∀ backups,
        event.rows backups =
          Table.updateWhere
            (fun backup => event.selects backup) change
            backups) ∧
        ∀ backup, event.selects backup = true →
          ChangesRow event.discards backup
            (change backup) := by
  cases event with
  | recordProgress backupID sizeMb durationMs =>
      refine ⟨_, fun _ => rfl, ?_⟩
      intro backup hSelected
      exact
        ⟨(isInProgress_iff.mp hSelected).2,
          ⟨rfl, rfl, rfl⟩, rfl, nofun⟩
  | complete completion =>
      refine ⟨_, fun _ => rfl, ?_⟩
      intro backup hSelected
      exact
        ⟨(isInProgress_iff.mp hSelected).2,
          ⟨rfl, rfl, rfl⟩, rfl, nofun⟩
  | fail backupID failMessage durationMs =>
      refine ⟨_, fun _ => rfl, ?_⟩
      intro backup hSelected
      exact
        ⟨(isInProgress_iff.mp hSelected).2,
          ⟨rfl, rfl, rfl⟩, rfl, fun _ => .inl rfl⟩
  | cancel backupID durationMs =>
      refine ⟨_, fun _ => rfl, ?_⟩
      intro backup hSelected
      exact
        ⟨(isInProgress_iff.mp hSelected).2,
          ⟨rfl, rfl, rfl⟩, rfl, fun _ => .inr rfl⟩
  | recoverAtStartup failMessage =>
      refine ⟨_, fun _ => rfl, ?_⟩
      intro backup hSelected
      exact
        ⟨of_decide_eq_true hSelected, ⟨rfl, rfl, rfl⟩, rfl,
          fun _ => .inl rfl⟩

/- A completed row is none that an event selects. -/
theorem mem_rows_of_completed
    (event : BackupEvent)
    {backup : LogicalBackup}
    (hMember : backup ∈ s.backups)
    (hCompleted : backup.status = .completed) :
    backup ∈ event.rows s.backups := by
  rcases event.rows_eq with ⟨change, hRows, hChanges⟩
  rw [hRows]
  apply Table.mem_updateWhere_of_not hMember
  by_contra hSelected
  have hRunning :=
    (hChanges backup (by simpa using hSelected)).running
  rw [hCompleted] at hRunning
  cases hRunning

/- Where a row comes from, and what was asked of its files. -/
theorem exists_before_of_mem_rows
    (event : BackupEvent)
    {row : LogicalBackup}
    (hRow : row ∈ event.rows s.backups) :
    ∃ old ∈ s.backups,
      SameFiles old row ∧
        row.databaseID = old.databaseID ∧
          (old.status ≠ .inProgress → row = old) ∧
            (event.selects old = true →
              event.discards = true → row.IsDiscarded) := by
  rcases event.rows_eq with ⟨change, hRows, hChanges⟩
  rw [hRows] at hRow
  rcases (Table.mem_updateWhere_iff _ _ _ _).mp hRow with
    ⟨old, hOld, rfl⟩
  refine ⟨old, hOld, ?_⟩
  by_cases hSelected : event.selects old = true
  · have hChanged := hChanges old hSelected
    rw [if_pos hSelected]
    exact
      ⟨hChanged.same, hChanged.databaseID,
        fun hEnded => absurd hChanged.running hEnded,
        fun _ hDiscards => hChanged.discarded hDiscards⟩
  · rw [if_neg hSelected]
    exact
      ⟨⟨rfl, rfl, rfl⟩, rfl, fun _ => rfl,
        fun hIs => absurd hIs hSelected⟩

------------------------------------------------------------
-- Events of Backups
------------------------------------------------------------

variable {event : BackupEvent}

/- Only files of rows that an event discards are requested. -/
theorem ReadsSafe.obsolete_after_event
    (hSafe : ReadsSafe format s)
    {requested : List Storages.StoredFileReference}
    {backup : LogicalBackup}
    {file : Storages.StoredFileReference}
    (hDiscards : event.discards = true)
    (hMember : backup ∈ s.backups)
    (hSelected : event.selects backup = true)
    (hFile : file ∈ backup.getStoredFiles) :
    Obsolete format
      { s with
        backups := event.rows s.backups
        requested := requested }
      file := by
  refine ⟨backup, hSafe.wasStarted backup hMember, hFile, ?_⟩
  intro row hRow hID
  rcases exists_before_of_mem_rows event hRow with
    ⟨old, hOld, hSame, _, _, hDiscarded⟩
  have hIs : old = backup :=
    hSafe.uniqueBackups.eq_of_key_eq hOld hMember
      (hSame.id_eq.trans hID)
  exact hDiscarded (hIs ▸ hSelected) hDiscards

theorem ReadsSafe.applyEvent
    {tx : Uuid}
    (hSafe : ReadsSafe format s)
    (hApply : applyEvent s tx event = some s') :
    ReadsSafe format s' := by
  unfold Restores.applyEvent at hApply
  dsimp only at hApply
  split at hApply
  · cases hApply
    have hReads :
        ∀ {restore requested},
          ReadsCompleted s restore →
            ReadsCompleted
              { s with
                backups := event.rows s.backups
                requested := requested }
              restore := by
      rintro restore requested
        ⟨backup, hBackup, hID, hDatabase, hCompleted⟩
      exact
        ⟨backup,
          mem_rows_of_completed event hBackup hCompleted,
          hID, hDatabase, hCompleted⟩
    refine
      { hSafe with
        uniqueBackups := ?_
        wasStarted := ?_
        requests := ?_
        reads := ?_
        stages := ?_ }
    · rcases event.rows_eq with ⟨change, hRows, hChanges⟩
      simp only [hRows]
      apply hSafe.uniqueBackups.updateSelected
      intro backup hSelected
      exact (hChanges backup hSelected).same.id_eq.symm
    · intro row hRow
      rcases exists_before_of_mem_rows event hRow with
        ⟨old, hOld, hSame, _⟩
      have hStarted := hSafe.wasStarted old hOld
      exact
        ⟨hSame.id_eq ▸ hStarted.known,
          hSame.isNamed hStarted.named⟩
    · intro file hFile
      have hOldOrNew :
          file ∈ s.requested ∨
            event.discards = true ∧
              ∃ backup ∈ s.backups,
                event.selects backup = true ∧
                  file ∈ backup.getStoredFiles := by
        simp only at hFile
        split at hFile
        · next hDiscards =>
            rcases List.mem_append.mp hFile with hOld | hNew
            · exact .inl hOld
            · rcases List.mem_flatMap.mp hNew with
                ⟨backup, hChanged, hStored⟩
              rcases List.mem_filter.mp hChanged with
                ⟨hMember, hSelected⟩
              exact
                .inr
                  ⟨hDiscards, backup, hMember, hSelected,
                    hStored⟩
        · exact .inl hFile
      rcases hOldOrNew with
        hOld | ⟨hDiscards, backup, hMember, hSelected,
          hStored⟩
      · rcases hSafe.requests file hOld with
          ⟨backup, hStarted, hStored, hDiscarded⟩
        refine ⟨backup, hStarted, hStored, ?_⟩
        intro row hRow hID
        rcases exists_before_of_mem_rows event hRow with
          ⟨old, hBefore, hSame, _, hStays, _⟩
        have hOldDiscarded :=
          hDiscarded old hBefore (hSame.id_eq.trans hID)
        rw [hStays hOldDiscarded.not_running]
        exact hOldDiscarded
      · exact
          hSafe.obsolete_after_event hDiscards hMember
            hSelected hStored
    · intro restore hRestore hRunning
      exact hReads (hSafe.reads restore hRestore hRunning)
    · intro transaction hMember
      apply (hSafe.stages transaction hMember).leaves
      refine
        ⟨List.Subset.refl _, ?_, fun _ _ hHolds => hHolds,
          fun _ _ hBefore => hReads hBefore,
          fun _ hRestore _ => .inl hRestore⟩
      intro row hRow _
      rcases exists_before_of_mem_rows event hRow with
        ⟨old, hOld, hSame, hDatabase, hStays, _⟩
      refine ⟨old, hOld, hSame.id_eq, hDatabase.symm, ?_⟩
      intro hCompleted
      rw [hStays (by simp [hCompleted])]
      exact hCompleted
  · cases hApply

theorem ReadsSafe.startBackup
    {start : BackupStart}
    (hSafe : ReadsSafe format s)
    (hStart : startBackup format s start = some s') :
    ReadsSafe format s' := by
  unfold Restores.startBackup at hStart
  split at hStart
  · next hFree =>
      cases hStart
      have hFresh : start.backupID ∉ s.started :=
        fun hIn => hFree.2 start.backupID hIn rfl
      have hGrows : s.started ⊆ start.backupID :: s.started :=
        List.subset_cons_self _ _
      refine
        { hSafe with
          uniqueBackups := ?_
          distinctTexts := ?_
          wasStarted := ?_
          requests := ?_
          reads := ?_
          stages := ?_ }
      · apply hSafe.uniqueBackups.append
        intro old hOld hSame
        apply hFresh
        rw [← show old.id = start.backupID from hSame]
        exact (hSafe.wasStarted old hOld).known
      · intro first hFirst second hSecond hTexts
        rcases List.mem_cons.mp hFirst with rfl | hOld
        · rcases List.mem_cons.mp hSecond with rfl | hOld'
          · rfl
          · exact absurd hTexts.symm (hFree.2 second hOld')
        · rcases List.mem_cons.mp hSecond with rfl | hOld'
          · exact absurd hTexts (hFree.2 first hOld)
          · exact
              hSafe.distinctTexts first hOld second hOld'
                hTexts
      · intro row hRow
        rcases List.mem_append.mp hRow with hOld | hNew
        · have hStarted := hSafe.wasStarted row hOld
          exact ⟨hGrows hStarted.known, hStarted.named⟩
        · rw [List.mem_singleton.mp hNew]
          exact ⟨List.mem_cons_self, _, rfl⟩
      · intro file hFile
        rcases hSafe.requests file hFile with
          ⟨backup, hStarted, hStored, hDiscarded⟩
        refine
          ⟨backup,
            ⟨hGrows hStarted.known, hStarted.named⟩, hStored,
            ?_⟩
        intro row hRow hID
        rcases List.mem_append.mp hRow with hOld | hNew
        · exact hDiscarded row hOld hID
        · rw [List.mem_singleton.mp hNew] at hID
          have hKnown : start.backupID ∈ s.started := by
            rw [show start.backupID = backup.id from hID]
            exact hStarted.known
          exact absurd hKnown hFresh
      · intro restore hRestore hRunning
        rcases hSafe.reads restore hRestore hRunning with
          ⟨backup, hBackup, hReads⟩
        exact ⟨backup, List.mem_append_left _ hBackup, hReads⟩
      · intro transaction hMember
        apply (hSafe.stages transaction hMember).leaves
        refine
          ⟨hGrows, ?_, fun _ _ hHolds => hHolds, ?_,
            fun _ hRestore _ => .inl hRestore⟩
        · intro row hRow hKnown
          rcases List.mem_append.mp hRow with hOld | hNew
          · exact ⟨row, hOld, rfl, rfl, id⟩
          · rw [List.mem_singleton.mp hNew] at hKnown
            exact absurd hKnown hFresh
        · rintro restore _ ⟨backup, hBackup, hReads⟩
          exact ⟨backup, List.mem_append_left _ hBackup, hReads⟩
  · cases hStart

------------------------------------------------------------
-- Every Interleaving
------------------------------------------------------------

variable {tx : Uuid}
variable {stage : Stage}

theorem readsSafe_initial
    (format : NameFormat) : ReadsSafe format {} where
  compatible := RowLock.Compatible.nil
  uniqueBackups := List.nodup_nil
  distinctTexts := by simp
  wasStarted := by simp
  requests := by simp
  reads := by simp
  apart := List.Pairwise.nil
  stages := by simp
  insertedAlone := by simp

theorem ReadsSafe.proceed
    (hSafe : ReadsSafe format s)
    (hStage : s.stageOf tx = some stage)
    (hProceed : proceed s tx stage = some s') :
    ReadsSafe format s' := by
  unfold Restores.proceed at hProceed
  split at hProceed
  · cases hProceed
  · cases hProceed
    exact hSafe.commitRestore hStage
  · cases hProceed
    exact hSafe.checkBackups hStage
  · cases hProceed
  · cases hProceed
    exact hSafe.checkRestores hStage
  · cases hProceed
    exact hSafe.deleteBackupRecords hStage
  · cases hProceed
    exact hSafe.commitRemoval hStage

/- What still runs is left by the statements of others. -/
theorem ReadsSafe.running_of_proceed
    (hSafe : ReadsSafe format s)
    (hStage : s.stageOf tx = some stage)
    (hProceed : Restores.proceed s tx stage = some s')
    {restore : Restore}
    (hRestore : restore ∈ s.restores)
    (hRunning : restore.status = .inProgress) :
    restore ∈ s'.restores := by
  unfold Restores.proceed at hProceed
  split at hProceed
  · cases hProceed
  · cases hProceed
    exact List.mem_append_left _ hRestore
  · cases hProceed
    unfold Restores.checkBackups
    split
    · exact hRestore
    · exact hRestore
  · cases hProceed
  · cases hProceed
    unfold Restores.checkRestores
    split
    · exact hRestore
    · exact hRestore
  · cases hProceed
    exact hRestore
  · cases hProceed
    exact
      hSafe.running_of_commitRemoval hStage hRestore hRunning

/- What every statement and commit keeps. -/
theorem ReadsSafe.step
    {action : RaceAction}
    (hSafe : ReadsSafe format s)
    (hStep : raceStep format s action = some s') :
    ReadsSafe format s' := by
  cases action with
  | readBackup tx backupID =>
      simp only [raceStep] at hStep
      split at hStep
      · cases hStep
      · exact hSafe.readBackup hStep
  | insertRestore tx restoreID createdAt =>
      simp only [raceStep] at hStep
      split at hStep
      · next backup hStage =>
          exact hSafe.insertRestore hStage hStep
      · cases hStep
  | beginRemoval tx cause =>
      simp only [raceStep] at hStep
      split at hStep
      · cases hStep
      · cases hStep
        exact hSafe.beginRemoval tx cause
  | lockRow tx backupID =>
      simp only [raceStep] at hStep
      split at hStep
      · next cause waiting locked hStage =>
          exact hSafe.lockRow hStage hStep
      · cases hStep
  | proceed tx =>
      simp only [raceStep] at hStep
      split at hStep
      · cases hStep
      · next stage hStage => exact hSafe.proceed hStage hStep
  | rollback tx =>
      cases hStep
      exact hSafe.finish tx
  | endRestore restoreID ending =>
      cases hStep
      exact
        hSafe.endRestores
          (endsRestores_endRestore s.restores restoreID
            ending)
  | failRestoresLeft =>
      cases hStep
      exact
        hSafe.endRestores
          (endsRestores_failAllInProgress s.restores
            restartFailMessage)
  | startBackup start => exact hSafe.startBackup hStep
  | applyEvent tx event =>
      simp only [raceStep] at hStep
      split at hStep
      · cases hStep
      · exact hSafe.applyEvent hStep

theorem readsSafe_of_reachable
    (hReachable : (raceSystem format).Reachable s) :
    ReadsSafe format s := by
  induction hReachable with
  | initial hEmpty =>
      rw [show _ = _ from hEmpty]
      exact readsSafe_initial format
  | step _ _ hStep ih => exact ih.step hStep

/- Running restores of one database are not two. -/
theorem ReadsSafe.running_length_le
    (hSafe : ReadsSafe format s)
    (databaseID : Uuid) :
    (s.restores.filter (isRunningOf databaseID)).length ≤
      1 := by
  have hApart := hSafe.apart.filter (isRunningOf databaseID)
  have hRunning :
      ∀ restore ∈
          s.restores.filter (isRunningOf databaseID),
        restore.databaseID = databaseID ∧
          restore.status = .inProgress := by
    intro restore hIn
    simpa [isRunningOf] using (List.mem_filter.mp hIn).2
  cases hList :
      s.restores.filter (isRunningOf databaseID) with
  | nil => simp
  | cons first rest =>
      cases rest with
      | nil => simp
      | cons second rest =>
          rw [hList] at hApart hRunning
          have hFirst := hRunning first (by simp)
          have hSecond := hRunning second (by simp)
          have hBoth :=
            List.rel_of_pairwise_cons hApart
              (List.mem_cons_self (l := rest) (a := second))
          exact
            absurd (hFirst.1.trans hSecond.1.symm)
              (hBoth hFirst.2 hSecond.2)

/- No file of a completed backup has been requested. -/
theorem ReadsSafe.not_requested
    (hSafe : ReadsSafe format s)
    {backup : LogicalBackup}
    (hMember : backup ∈ s.backups)
    (hCompleted : backup.status = .completed) :
    ∀ file ∈ backup.getStoredFiles,
      file ∉ s.requested := by
  intro file hFile hRequested
  rcases hSafe.requests file hRequested with
    ⟨other, hOther, hStored, hDiscarded⟩
  have hStarted := hSafe.wasStarted backup hMember
  by_cases hTexts :
      format.uuidText backup.id = format.uuidText other.id
  · have hSame : backup.id = other.id :=
      hSafe.distinctTexts backup.id hStarted.known other.id
        hOther.known hTexts
    exact
      (hDiscarded backup hMember hSame).not_completed
        hCompleted
  · exact
      storedFiles_apart hStarted.named hOther.named hTexts
        file hFile hStored

/-
  In any interleaving, a running restore has its backup and
  the backup's files, runs alone in its database, and is not
  taken away by what another transaction commits.
-/
theorem restores_read_kept_backups
    (format : NameFormat)
    {s : RaceState}
    (hReachable : (raceSystem format).Reachable s) :
    (∀ restore ∈ s.restores,
      restore.status = .inProgress →
        ∃ backup ∈ s.backups,
          backup.id = restore.backupID ∧
            backup.databaseID = restore.databaseID ∧
              backup.status = .completed ∧
                ∀ file ∈ backup.getStoredFiles,
                  file ∉ s.requested) ∧
      (∀ databaseID,
        (s.restores.filter
          (isRunningOf databaseID)).length ≤ 1) ∧
        ∀ tx s',
          raceStep format s (.proceed tx) = some s' →
            ∀ restore ∈ s.restores,
              restore.status = .inProgress →
                restore ∈ s'.restores := by
  have hSafe := readsSafe_of_reachable hReachable
  refine ⟨?_, hSafe.running_length_le, ?_⟩
  · intro restore hRestore hRunning
    rcases hSafe.reads restore hRestore hRunning with
      ⟨backup, hBackup, hID, hDatabase, hCompleted⟩
    exact
      ⟨backup, hBackup, hID, hDatabase, hCompleted,
        hSafe.not_requested hBackup hCompleted⟩
  · intro tx s' hStep restore hRestore hRunning
    simp only [raceStep] at hStep
    split at hStep
    · cases hStep
    · next stage hStage =>
        exact
          hSafe.running_of_proceed hStage hStep hRestore
            hRunning

def sampleStart : BackupStart :=
  { databaseID := 1
    databaseName := "app"
    storageID := 1
    backupID := 7
    now := 0 }

def sampleCompletion : Completion :=
  { backupID := 7
    sizeMb := 3
    rawDatabaseSizeMb := 5
    durationMs := 1
    encryption := .none
    encryptionSalt := none
    encryptionIV := none
    timescaledbVersion := "" }

/-
  A deletion locks the row of a backup that has been read, and
  fails.  The restore is inserted after the deletion of the
  database has begun, which then finds it and is refused.
-/
def sampleRace : List RaceAction :=
  [.startBackup sampleStart,
    .applyEvent 90 (.complete sampleCompletion),
    .readBackup 1 7,
    .beginRemoval 2 (.deleteBackup 7),
    .lockRow 2 7,
    .proceed 2,
    .rollback 2,
    .beginRemoval 3 (.onDatabaseDeleting 1),
    .insertRestore 1 50 10,
    .proceed 1,
    .lockRow 3 7,
    .proceed 3,
    .proceed 3]

theorem deletion_refused_by_restore :
    let s :=
      (raceSystem sampleFormat).outcome {} sampleRace
    s.restores.map Restore.status = [.inProgress] ∧
      s.transactions = [] ∧
        ((∀ restore ∈ s.restores,
          restore.status = .inProgress →
            ∃ backup ∈ s.backups,
              backup.id = restore.backupID ∧
                backup.databaseID = restore.databaseID ∧
                  backup.status = .completed ∧
                    ∀ file ∈ backup.getStoredFiles,
                      file ∉ s.requested) ∧
          (∀ databaseID,
            (s.restores.filter
              (isRunningOf databaseID)).length ≤ 1) ∧
            ∀ tx s',
              raceStep sampleFormat s (.proceed tx) =
                  some s' →
                ∀ restore ∈ s.restores,
                  restore.status = .inProgress →
                    restore ∈ s'.restores) := by
  refine ⟨by decide +kernel, by decide +kernel, ?_⟩
  exact
    restores_read_kept_backups sampleFormat
      (TransitionSystem.reachable_outcome sampleRace rfl)

end Restores

end Databasus
