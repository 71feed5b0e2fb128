import Databasus.Catalog.BackupLifecycle
import Databasus.Chains.CascadeRules
import Databasus.Chains.View

/-
  How the chains of a catalog grow and shrink.

  A claim places a new backup after the latest completed one
  of the chain that can grow, while no backup of the database
  runs.  Backups end by the transitions of their lifecycle,
  and deletions take whole chains, or subtrees of them.

  Main declarations:
    * `claimAndInsert`
    * `GrowthAction`
    * `growthSystem`
    * `IsBackupResult`
    * `MeetsEnvironment`
-/

------------------------------------------------------------
-- Claims
------------------------------------------------------------

namespace Databasus

namespace Chains

open Catalog

/- A claim's fresh id, what it reads of the config, its kind. -/
structure BackupClaim where
  backupID : Uuid
  databaseID : Uuid
  storageID : Uuid
  storageGeneration : Int
  kind : BackupKind
deriving DecidableEq

inductive BackupDecision
  | full
  | incremental
      (incrRootFullBackupID : Uuid)
      (incrParentIncrID : Option Uuid)
deriving DecidableEq

def resolveIncrParent
    (backups : List Backup)
    (rootFullBackupID : Uuid) : Option Uuid :=
  (findLatestCompletedByRootFull backups
    rootFullBackupID).map Backup.id

/-
  The place that is decided for a backup of a kind.  Which
  kind is due is up to the schedules, and any may be.
-/
def decideBackup
    (backups : List Backup)
    (databaseID : Uuid) :
    BackupKind → Option BackupDecision
  | .full => some .full
  | .incremental =>
      match
        findLastExtendableChainByDatabase backups databaseID
      with
      | .ok (some chain) =>
          some
            (.incremental chain.rootFull.id
              (resolveIncrParent backups chain.rootFull.id))
      | _ => none

/- The first incremental of a chain has the root as parent. -/
def claimedBackup
    (claim : BackupClaim)
    (now : Time)
    (decision : BackupDecision) : Backup :=
  let backup : Backup :=
    { id := claim.backupID
      databaseID := claim.databaseID
      storageID := claim.storageID
      storageGeneration := claim.storageGeneration
      kind := claim.kind
      timelineID := 0
      status := .inProgress
      createdAt := now }
  match decision with
  | .full => backup
  | .incremental rootID parentID =>
      { backup with
        rootFullBackupID := some rootID
        parentBackupID := some (parentID.getD rootID) }

/-
  The insertion conflicts with a row of the same id, and with
  a running backup of the database.
-/
def conflictsWith
    (backup row : Backup) : Bool :=
  row.id = backup.id ||
    row.databaseID = backup.databaseID &&
      row.status = .inProgress

def insertRunning
    (backups : List Backup)
    (backup : Backup) : List Backup × Bool :=
  if backups.any (conflictsWith backup) then
    (backups, false)
  else
    (backups ++ [backup], true)

/-
  One transaction, under the locks of the database.  The
  process has ended its last run of the database before it.
-/
def claimAndInsert
    (backups : List Backup)
    (claim : BackupClaim)
    (now : Time) : List Backup × Bool :=
  match
    decideBackup backups claim.databaseID claim.kind
  with
  | none => (backups, false)
  | some decision =>
      insertRunning backups
        (claimedBackup claim now decision)

------------------------------------------------------------
-- The System
------------------------------------------------------------

open Foundation

/- The catalog, and the last reading of the clock. -/
structure GrowthState where
  catalog : CatalogState
  now : Time
deriving DecidableEq

inductive GrowthAction
  | claimAndInsert (claim : BackupClaim)
  | transition (action : LifecycleAction)
  | deleteIncrementalCascade
      (isAccepted : Bool)
      (incrementalID : Uuid)
  | cascadeDelete
      (isAccepted : Bool)
      (rootFullBackupID : Uuid)
      (walByteBudgetMB : Rat)
      (keepFull : Bool)
deriving DecidableEq

structure ClockedAction where
  now : Time
  action : GrowthAction
deriving DecidableEq

/- The backups that a transition of the lifecycle leaves. -/
def transitionCatalog
    (s : CatalogState)
    (action : LifecycleAction) : CatalogState :=
  match
    outcomeOf
      { rows := s.backups
        requested := s.requested } action
  with
  | none => s
  | some outcome =>
      { s with
        backups := outcome.rows
        requested := s.requested ++ outcome.requested }

/- A transaction that fails leaves the catalog as it was. -/
def growCatalog
    (s : CatalogState)
    (now : Time) : GrowthAction → CatalogState
  | .claimAndInsert claim =>
      { s with
        backups := (claimAndInsert s.backups claim now).1 }
  | .transition action => transitionCatalog s action
  | .deleteIncrementalCascade isAccepted incrementalID =>
      match
        deleteIncrementalCascade isAccepted s incrementalID
      with
      | .error _ => s
      | .ok result => result.catalog
  | .cascadeDelete isAccepted rootFullBackupID
      walByteBudgetMB keepFull =>
      match
        cascadeDelete isAccepted s rootFullBackupID
          walByteBudgetMB keepFull
      with
      | .error _ => s
      | .ok result => result.1

def growthStep
    (s : GrowthState)
    (clocked : ClockedAction) : Option GrowthState :=
  some
    { catalog :=
        growCatalog s.catalog clocked.now clocked.action
      now := clocked.now }

/- Every run starts without a backup. -/
def growthSystem :
    TransitionSystem GrowthState ClockedAction where
  initial s := s.catalog.backups = []
  step := growthStep

------------------------------------------------------------
-- The Server and the Clock
------------------------------------------------------------

/-
  What the server reports of a finished backup.  It refuses an
  incremental that would start before its parent's manifest
  ends.  The clock is read while the backup is running.
-/
structure IsBackupResult
    (s : CatalogState)
    (now : Time)
    (result : Backup) : Prop where
  ends :
    ∀ start ∈ result.startLSN, ∀ stop ∈ result.stopLSN,
      start < stop
  follows :
    ∀ row ∈ s.backups, row.id = result.id →
      ∀ parent ∈ s.backups,
        row.parentBackupID = some parent.id →
          ∀ stop ∈ parent.stopLSN,
            ∀ start ∈ result.startLSN, stop ≤ start
  clocked :
    ∀ row ∈ s.backups, row.id = result.id →
      ∀ completedAt ∈ result.completedAt,
        row.createdAt ≤ completedAt ∧ completedAt ≤ now

instance instDecidableIsBackupResult
    (s : CatalogState)
    (now : Time)
    (result : Backup) :
    Decidable (IsBackupResult s now result) :=
  decidable_of_iff
    ((∀ start ∈ result.startLSN,
        ∀ stop ∈ result.stopLSN, start < stop) ∧
      (∀ row ∈ s.backups, row.id = result.id →
        ∀ parent ∈ s.backups,
          row.parentBackupID = some parent.id →
            ∀ stop ∈ parent.stopLSN,
              ∀ start ∈ result.startLSN, stop ≤ start) ∧
        ∀ row ∈ s.backups, row.id = result.id →
          ∀ completedAt ∈ result.completedAt,
            row.createdAt ≤ completedAt ∧
              completedAt ≤ now)
    ⟨fun ⟨hEnds, hFollows, hClocked⟩ =>
        ⟨hEnds, hFollows, hClocked⟩,
      fun ⟨hEnds, hFollows, hClocked⟩ =>
        ⟨hEnds, hFollows, hClocked⟩⟩

/- The backup that an action reports as finished. -/
def finishedBackup : GrowthAction → Option Backup
  | .transition (.complete backup _) => some backup
  | _ => none

/- The clock does not go back, and the server keeps its word. -/
def MeetsEnvironment
    (s : GrowthState)
    (clocked : ClockedAction) : Prop :=
  s.now ≤ clocked.now ∧
    ∀ result ∈ finishedBackup clocked.action,
      IsBackupResult s.catalog clocked.now result

instance instDecidableMeetsEnvironment
    (s : GrowthState)
    (clocked : ClockedAction) :
    Decidable (MeetsEnvironment s clocked) :=
  inferInstanceAs (Decidable (_ ∧ _))

end Chains

end Databasus
