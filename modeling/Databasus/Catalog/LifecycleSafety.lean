import Databasus.Catalog.BackupLifecycle

/-
  What any order of lifecycle transitions keeps.

  A row leaves the running state at most once.  The files of a
  completed row are safe exactly as long as no transition that
  meets the row completed carries a copy naming one of them.

  Main declarations:
    * `departures`
    * `SparesCompletedFiles`
    * `MeetsCompletedRowSafely`
    * `spares_completed_files_iff`
-/

------------------------------------------------------------
-- Leaving the Running State
------------------------------------------------------------

namespace Databasus

namespace Catalog

open Foundation

/- The status of the row with an id. -/
def statusOf
    (s : LifecycleState)
    (backupID : Uuid) : Option BackupStatus :=
  (Table.lookup Backup.id backupID s.rows).map Backup.status

/- How often a row stops running along the actions. -/
def departures
    (backupID : Uuid) :
    LifecycleState → List LifecycleAction → Nat
  | _, [] => 0
  | s, action :: rest =>
      match lifecycleStep s action with
      | none => 0
      | some s' =>
          (if statusOf s backupID = some .inProgress ∧
              statusOf s' backupID ≠ some .inProgress then
            1
          else
            0) +
            departures backupID s' rest

variable {s s' : LifecycleState}
variable {action : LifecycleAction}

/- The outcome that an action commits, if any. -/
theorem outcomeOf_eq_some
    {outcome : TransitionOutcome}
    (hOutcome : outcomeOf s action = some outcome) :
    ∃ spec answers,
      transitionOf s action = some (spec, answers) ∧
        transition s.rows spec answers = .ok outcome := by
  unfold outcomeOf at hOutcome
  split at hOutcome
  · cases hOutcome
  · next spec answers hAsked =>
      split at hOutcome
      · cases hOutcome
      · next committed hTransition =>
          have hSame := Option.some.inj hOutcome
          subst hSame
          exact ⟨spec, answers, hAsked, hTransition⟩

/- An action leaves the table alone or commits a transition. -/
theorem lifecycleStep_cases
    (hStep : lifecycleStep s action = some s') :
    s' = s ∨
      ∃ outcome, outcomeOf s action = some outcome ∧
        s'.rows = outcome.rows := by
  unfold lifecycleStep at hStep
  split at hStep
  · exact Or.inl (Option.some.inj hStep).symm
  · next outcome hOutcome =>
      right
      refine ⟨outcome, hOutcome, ?_⟩
      rw [← Option.some.inj hStep]

/- A row that is not running does not start to run. -/
theorem statusOf_step
    {backupID : Uuid}
    (hStopped : statusOf s backupID ≠ some .inProgress)
    (hStep : lifecycleStep s action = some s') :
    statusOf s' backupID ≠ some .inProgress := by
  rcases lifecycleStep_cases hStep with
    rfl | ⟨outcome, hOutcome, hRows⟩
  · exact hStopped
  · rcases outcomeOf_eq_some hOutcome with
      ⟨spec, answers, _, hTransition⟩
    unfold statusOf at hStopped ⊢
    rw [hRows]
    rcases transition_rows hTransition with
      hSame | ⟨status, columns, hEnds, hMarked⟩
    · rw [hSame]
      exact hStopped
    · rw [hMarked, lookup_markTerminal]
      cases hLookup :
          Table.lookup Backup.id backupID s.rows with
      | none => simp
      | some row =>
          rw [hLookup] at hStopped
          by_cases hSelects :
              isRunningRowOf spec.backup row = true
          · simp only [Option.map_some, hSelects, if_true]
            intro hRunning
            exact hEnds (Option.some.inj hRunning)
          · simpa [hSelects] using hStopped

/- Once stopped, a row never stops again. -/
private theorem departures_of_stopped
    (backupID : Uuid)
    (actions : List LifecycleAction) :
    ∀ s : LifecycleState,
      statusOf s backupID ≠ some .inProgress →
        departures backupID s actions = 0 := by
  induction actions with
  | nil =>
      intro s _
      rfl
  | cons action rest ih =>
      intro s hStopped
      unfold departures
      cases hStep : lifecycleStep s action with
      | none => rfl
      | some s' =>
          have hLater := statusOf_step hStopped hStep
          simp only [hStopped, false_and, if_false,
            Nat.zero_add]
          exact ih s' hLater

/- In any order of transitions a row stops at most once. -/
theorem departures_le_one
    (backupID : Uuid)
    (actions : List LifecycleAction) :
    ∀ s : LifecycleState,
      departures backupID s actions ≤ 1 := by
  induction actions with
  | nil =>
      intro s
      exact Nat.zero_le 1
  | cons action rest ih =>
      intro s
      unfold departures
      cases hStep : lifecycleStep s action with
      | none => exact Nat.zero_le 1
      | some s' =>
          by_cases hLeaves :
              statusOf s backupID = some .inProgress ∧
                statusOf s' backupID ≠ some .inProgress
          · have hRest :=
              departures_of_stopped backupID rest s'
                hLeaves.2
            simp only [if_pos hLeaves, hRest]
            omega
          · simp only [if_neg hLeaves, Nat.zero_add]
            exact ih s'

------------------------------------------------------------
-- Files of Completed Rows
------------------------------------------------------------

/-
  What an action's transaction requests for deletion is no
  file of the row it is about, if that row is completed.
-/
def SparesCompletedFiles
    (s : LifecycleState)
    (action : LifecycleAction) : Prop :=
  ∀ asked ∈ transitionOf s action,
    ∀ outcome ∈ outcomeOf s action,
      ∀ row ∈ outcome.rows,
        row.id = asked.1.backup.id →
          row.status = .completed →
            ∀ file ∈ outcome.requested,
              file ∉ backupFileReferences row

instance instDecidableSparesCompletedFiles
    (s : LifecycleState)
    (action : LifecycleAction) :
    Decidable (SparesCompletedFiles s action) :=
  inferInstanceAs
    (Decidable
      (∀ asked ∈ transitionOf s action,
        ∀ outcome ∈ outcomeOf s action,
          ∀ row ∈ outcome.rows, _ → _ → _))

/-
  A transition that requests deletions and meets its row
  completed carries a copy that names no file of the row.
-/
def MeetsCompletedRowSafely
    (s : LifecycleState)
    (action : LifecycleAction) : Prop :=
  ∀ asked ∈ transitionOf s action,
    RequestsDeletions asked.1 asked.2 →
      ∀ row ∈ s.rows,
        row.id = asked.1.backup.id →
          row.status = .completed →
            ∀ file ∈ backupFileReferences asked.1.backup,
              file ∉ backupFileReferences row

instance instDecidableMeetsCompletedRowSafely
    (s : LifecycleState)
    (action : LifecycleAction) :
    Decidable (MeetsCompletedRowSafely s action) :=
  inferInstanceAs
    (Decidable
      (∀ asked ∈ transitionOf s action,
        _ → ∀ row ∈ s.rows, _ → _ → _))

variable {s s' : LifecycleState}
variable {action : LifecycleAction}

/- A row that a transition leaves completed was not running. -/
private theorem completed_of_markTerminal
    {rows : List Backup}
    {backup : Backup}
    {status : BackupStatus}
    (hStatus : status ≠ .completed)
    {row : Backup}
    (hRow :
      row ∈ (markTerminal rows backup status id).1)
    (hCompleted : row.status = .completed) :
    row ∈ rows := by
  rcases (Table.mem_updateWhere_iff _ _ _ _).mp hRow with
    ⟨old, hOld, hChange⟩
  by_cases hSelects : isRunningRowOf backup old = true
  · rw [if_pos hSelects] at hChange
    subst hChange
    exact absurd hCompleted hStatus
  · rw [if_neg hSelects] at hChange
    subst hChange
    exact hOld

/- One transition spares the files exactly when it is safe. -/
theorem sparesCompletedFiles_iff
    (hUnique : Table.UniqueBy Backup.id s.rows)
    (action : LifecycleAction) :
    SparesCompletedFiles s action ↔
      MeetsCompletedRowSafely s action := by
  constructor
  · rintro hSpares ⟨spec, answers⟩ hAsked hRequests row hRow
      hID hCompleted file hFile
    have hTransition :=
      (transition_of_completed hUnique hRow hID
        hCompleted).1 hRequests
    have hOutcome :
        outcomeOf s action =
          some
            { rows := s.rows
              isChanged := false
              requested :=
                backupFileReferences spec.backup } := by
      unfold outcomeOf
      simp only [Option.mem_def.mp hAsked, hTransition]
    exact
      hSpares (spec, answers) hAsked _ hOutcome row hRow hID
        hCompleted file hFile
  · rintro hSafe ⟨spec, answers⟩ hAsked outcome hOutcome row
      hRow hID hCompleted file hFile
    rcases outcomeOf_eq_some hOutcome with
      ⟨spec', answers', hAsked', hTransition⟩
    have hSpec : (spec', answers') = (spec, answers) :=
      Option.some.inj (hAsked'.symm.trans hAsked)
    cases hSpec
    rcases transition_cases hTransition with
      ⟨hNothing, _⟩ | ⟨hRequested, hRows⟩
    · rw [hNothing] at hFile
      cases hFile
    · have hBefore : row ∈ s.rows := by
        rcases hRows with
          hSame | ⟨status, _, hStatus, hMarked⟩
        · rw [hSame] at hRow
          exact hRow
        · rw [hMarked] at hRow
          exact
            completed_of_markTerminal hStatus hRow hCompleted
      have hRequests : RequestsDeletions spec answers := by
        by_contra hNot
        rcases
            (transition_of_completed hUnique hBefore hID
              hCompleted).2 hNot with
          ⟨error, hError⟩
        rw [hError] at hTransition
        cases hTransition
      rw [hRequested] at hFile
      exact
        hSafe (spec, answers) hAsked hRequests row hBefore
          hID hCompleted file hFile

/- Every step keeps the primary key. -/
theorem lifecycleStep_unique
    (hUnique : Table.UniqueBy Backup.id s.rows)
    (hStep : lifecycleStep s action = some s') :
    Table.UniqueBy Backup.id s'.rows := by
  rcases lifecycleStep_cases hStep with
    rfl | ⟨outcome, hOutcome, hRows⟩
  · exact hUnique
  · rcases outcomeOf_eq_some hOutcome with
      ⟨spec, answers, _, hTransition⟩
    rw [hRows]
    exact transition_unique hUnique hTransition

------------------------------------------------------------
-- Transitions in Any Order
------------------------------------------------------------

/-
  Along any actions, each row stops running at most once, and
  no transition asks for the files of its completed row,
  exactly when every transition that meets its row completed
  carries a copy that names none of the row's files.
-/
theorem spares_completed_files_iff
    (s : LifecycleState)
    (hInitial : lifecycleSystem.initial s)
    (actions : List LifecycleAction) :
    ((∀ backupID, departures backupID s actions ≤ 1) ∧
        lifecycleSystem.MeetsAlong SparesCompletedFiles s
          actions) ↔
      lifecycleSystem.MeetsAlong MeetsCompletedRowSafely s
        actions := by
  have hKeeps :
      ∀ before action after,
        Table.UniqueBy Backup.id before.rows →
          lifecycleSystem.step before action = some after →
            Table.UniqueBy Backup.id after.rows :=
    fun _ _ _ hUnique hStep =>
      lifecycleStep_unique hUnique hStep
  have hAgree :
      ∀ before action,
        Table.UniqueBy Backup.id before.rows →
          (SparesCompletedFiles before action ↔
            MeetsCompletedRowSafely before action) :=
    fun _ action hUnique =>
      sparesCompletedFiles_iff hUnique action
  have hAlong :=
    TransitionSystem.meetsAlong_congr hKeeps hAgree actions
      hInitial
  constructor
  · intro hBoth
    exact hAlong.mp hBoth.2
  · intro hSafe
    refine ⟨?_, hAlong.mpr hSafe⟩
    intro backupID
    exact departures_le_one backupID actions s

/- A running full backup, as its row was inserted. -/
def sampleRunningRow : Backup :=
  { id := 1
    databaseID := 1
    storageID := 1
    kind := .full
    timelineID := 1
    status := .inProgress
    createdAt := 0 }

/- The runner's copy of the backup, once it is written. -/
def sampleFinishedCopy : Backup :=
  { sampleRunningRow with
    status := .completed
    fileName := some "backup-1"
    startLSN := some 16
    stopLSN := some 32
    completedAt := some 10 }

def sampleAnswers : TransitionAnswers :=
  { publication := .current
    isSuccessRecorded := true
    areWritesConfirmed := true
    areDeletionsAccepted := true }

def sampleRunningState : LifecycleState :=
  { rows := [sampleRunningRow]
    requested := [] }

theorem initial_sampleRunningState :
    lifecycleSystem.initial sampleRunningState := by
  change Table.UniqueBy Backup.id sampleRunningState.rows
  decide

/- A cancellation that comes after the backup completed. -/
theorem late_cancellation_spares_completed_files :
    (∀ backupID,
      departures backupID sampleRunningState
        [.complete sampleFinishedCopy sampleAnswers,
          .cancelRunningBackup 1 20 sampleAnswers] ≤ 1) ∧
      lifecycleSystem.MeetsAlong SparesCompletedFiles
        sampleRunningState
        [.complete sampleFinishedCopy sampleAnswers,
          .cancelRunningBackup 1 20 sampleAnswers] :=
  (spares_completed_files_iff sampleRunningState
    initial_sampleRunningState _).mpr (by decide +kernel)

/-
  The runner publishes the backup, then panics, and its
  recovery marks the same copy as failed.
-/
theorem failure_after_completion_requests_files :
    ¬ ∀ (s : LifecycleState)
        (actions : List LifecycleAction),
      lifecycleSystem.initial s →
        (∀ backupID, departures backupID s actions ≤ 1) ∧
          lifecycleSystem.MeetsAlong SparesCompletedFiles s
            actions := by
  intro hAlways
  have hSpares :=
    (hAlways sampleRunningState
      [.complete sampleFinishedCopy sampleAnswers,
        .fail sampleFinishedCopy sampleAnswers]
      initial_sampleRunningState).2
  revert hSpares
  decide +kernel

end Catalog

end Databasus
