import Databasus.Common
import Databasus.Foundation.Table

/-
  Rows of the restores of logical backups, and the statements
  that look at them and change them.

  Main declarations:
    * `Restore`
    * `isRunningForBackups`, `isRunningForDatabase`
    * `updateInProgress`, `failAllInProgress`
    * `EndsRestores`
-/

------------------------------------------------------------
-- Rows
------------------------------------------------------------

namespace Databasus

namespace Restores

inductive RestoreStatus
  | inProgress
  | completed
  | failed
  | canceled
deriving DecidableEq, Repr

/- A row of `backups_restores`. -/
structure Restore where
  id : Uuid
  backupID : Uuid
  databaseID : Uuid
  status : RestoreStatus
  failMessage : Option String := none
  restoreDurationMs : Int := 0
  createdAt : Time
deriving DecidableEq

def isRunningForBackups
    (restores : List Restore)
    (backupIDs : List Uuid) : Bool :=
  restores.any fun restore =>
    backupIDs.contains restore.backupID &&
      restore.status = .inProgress

/- A running restore of the database. -/
def isRunningOf
    (databaseID : Uuid)
    (restore : Restore) : Bool :=
  restore.databaseID = databaseID &&
    restore.status = .inProgress

def isRunningForDatabase
    (restores : List Restore)
    (databaseID : Uuid) : Bool :=
  restores.any (isRunningOf databaseID)

------------------------------------------------------------
-- Ends of Restores
------------------------------------------------------------

open Foundation

def isInProgress
    (restoreID : Uuid)
    (restore : Restore) : Bool :=
  restore.id = restoreID && restore.status = .inProgress

def updateInProgress
    (restores : List Restore)
    (restoreID : Uuid)
    (assignments : Restore → Restore) : List Restore :=
  Table.updateWhere (isInProgress restoreID) assignments
    restores

def complete
    (restores : List Restore)
    (restoreID : Uuid)
    (durationMs : Int) : List Restore :=
  updateInProgress restores restoreID fun restore =>
    { restore with
      status := .completed
      restoreDurationMs := durationMs }

def fail
    (restores : List Restore)
    (restoreID : Uuid)
    (failMessage : String)
    (durationMs : Int) : List Restore :=
  updateInProgress restores restoreID fun restore =>
    { restore with
      status := .failed
      failMessage := some failMessage
      restoreDurationMs := durationMs }

def cancel
    (restores : List Restore)
    (restoreID : Uuid)
    (durationMs : Int) : List Restore :=
  updateInProgress restores restoreID fun restore =>
    { restore with
      status := .canceled
      restoreDurationMs := durationMs }

def restartFailMessage : String :=
  "Restore failed due to application restart"

/- The restores that the previous run left in progress. -/
def failAllInProgress
    (restores : List Restore)
    (failMessage : String) : List Restore :=
  Table.updateWhere
    (fun restore => restore.status = .inProgress)
    (fun restore =>
      { restore with
        status := .failed
        failMessage := some failMessage })
    restores

/- Every restore is as it was, or has been ended. -/
def EndsRestores
    (before after : List Restore) : Prop :=
  ∃ change : Restore → Restore,
    after = before.map change ∧
      ∀ restore,
        change restore = restore ∨
          (change restore).status ≠ .inProgress

theorem EndsRestores.of_updateWhere
    {selects : Restore → Bool}
    {change : Restore → Restore}
    (hEnds :
      ∀ restore, (change restore).status ≠ .inProgress)
    (restores : List Restore) :
    EndsRestores restores
      (Table.updateWhere selects change restores) := by
  refine ⟨_, rfl, ?_⟩
  intro restore
  cases selects restore with
  | false => exact .inl rfl
  | true => exact .inr (hEnds restore)

/- What still runs has been running before. -/
theorem EndsRestores.mem
    {before after : List Restore}
    (hEnds : EndsRestores before after)
    {restore : Restore}
    (hRestore : restore ∈ after)
    (hRunning : restore.status = .inProgress) :
    restore ∈ before := by
  rcases hEnds with ⟨change, rfl, hChange⟩
  rcases List.mem_map.mp hRestore with ⟨old, hOld, rfl⟩
  rcases hChange old with hSame | hEnded
  · rw [hSame]
    exact hOld
  · exact absurd hRunning hEnded

/- How the run of a restore ends. -/
inductive RestoreEnd
  | complete (durationMs : Int)
  | fail (failMessage : String) (durationMs : Int)
  | cancel (durationMs : Int)
deriving DecidableEq, Repr

def endRestore
    (restores : List Restore)
    (restoreID : Uuid) : RestoreEnd → List Restore
  | .complete durationMs =>
      complete restores restoreID durationMs
  | .fail failMessage durationMs =>
      fail restores restoreID failMessage durationMs
  | .cancel durationMs =>
      cancel restores restoreID durationMs

theorem endsRestores_endRestore
    (restores : List Restore)
    (restoreID : Uuid)
    (ending : RestoreEnd) :
    EndsRestores restores
      (endRestore restores restoreID ending) := by
  cases ending with
  | complete durationMs =>
      apply EndsRestores.of_updateWhere
      intro restore
      simp
  | fail failMessage durationMs =>
      apply EndsRestores.of_updateWhere
      intro restore
      simp
  | cancel durationMs =>
      apply EndsRestores.of_updateWhere
      intro restore
      simp

theorem endsRestores_failAllInProgress
    (restores : List Restore)
    (failMessage : String) :
    EndsRestores restores
      (failAllInProgress restores failMessage) := by
  apply EndsRestores.of_updateWhere
  intro restore
  simp

end Restores

end Databasus
