import Databasus.Foundation.ParentPaths
import Databasus.Chains.CoverageDelivery
import Databasus.Chains.UnbrokenChains

/-
  Restore sets are unbroken paths.

  A selection of completed backups that takes with a backup
  all that precede it is a path from the root, and both the
  restore to an instant and that of one backup select so.

  Main declarations:
    * `RestoreSet.IsUnbroken`
    * `ChainsGrow.isPath`
    * `restoreSets_are_unbroken`
-/

------------------------------------------------------------
-- Selections of a Chain
------------------------------------------------------------

namespace Databasus

namespace Chains

open Foundation
open Catalog
open Walmath (LSN)

variable {backups : List Backup}
variable {now : Time}

/- The start that the backups of a chain are ordered by. -/
def startKey
    (backup : Backup) : LSN :=
  backup.startLSN.getD 0

theorem startKey_le
    {first second : Backup}
    {start : LSN}
    (hStart : second.startLSN = some start)
    (hOrder : startsNoLater first second) :
    startKey first ≤ startKey second := by
  unfold startsNoLater at hOrder
  unfold startKey
  rw [hStart] at hOrder ⊢
  cases hFirst : first.startLSN with
  | none => exact Nat.zero_le _
  | some firstStart =>
      rw [hFirst] at hOrder
      exact hOrder

/- A selection that holds what precedes its members. -/
structure IsClosedSelection
    (selects : Backup → Bool) : Prop where
  completed :
    ∀ backup,
      selects backup = true → backup.status = .completed
  closed :
    ∀ {now parent backup},
      IsFinished now parent →
        parent.status = .completed →
          selects backup = true →
            Precedes parent backup → selects parent = true

theorem ChainsGrow.isPath
    (hGrow : ChainsGrow backups now)
    {selects : Backup → Bool}
    (hSelects : IsClosedSelection selects)
    (rootID : Uuid) :
    IsPath Backup.id Backup.parentBackupID rootID
      ((findAllByRootFull backups rootID).filter
        selects) := by
  have hMember :
      ∀ {backup},
        backup ∈
            (findAllByRootFull backups rootID).filter
              selects ↔
          (backup ∈ backups ∧
              backup.rootFullBackupID = some rootID) ∧
            selects backup = true := by
    intro backup
    unfold findAllByRootFull
    rw [List.mem_filter, List.mem_insertionSort,
      List.mem_filter, decide_eq_true_eq]
  have hCompleted :
      ∀ {backup},
        backup ∈
            (findAllByRootFull backups rootID).filter
              selects →
          backup.status = .completed :=
    fun hIn => hSelects.completed _ (hMember.mp hIn).2
  have hStart :
      ∀ {backup},
        backup ∈
            (findAllByRootFull backups rootID).filter
              selects →
          ∃ start, backup.startLSN = some start := by
    intro backup hIn
    exact
      (hGrow.finished backup (hMember.mp hIn).1.1
        (hCompleted hIn)).exists_start
  have hNodup :
      ((findAllByRootFull backups rootID).filter
        selects).Nodup := by
    have hBackups : backups.Nodup :=
      List.Nodup.of_map Backup.id hGrow.uniqueIDs
    unfold findAllByRootFull
    apply List.Nodup.filter
    rw [(List.perm_insertionSort startsNoLater _).nodup_iff]
    exact hBackups.filter _
  have hOrdered :
      ((findAllByRootFull backups rootID).filter
        selects).Pairwise fun first second =>
          startKey first ≤ startKey second := by
    have hSorted :=
      (List.pairwise_insertionSort startsNoLater
        (backups.filter fun backup =>
          backup.rootFullBackupID = some rootID)).filter
            selects
    refine List.Pairwise.imp_of_mem ?_ hSorted
    intro first second _ hSecond hLe
    rcases hStart hSecond with ⟨start, hAt⟩
    exact startKey_le hAt hLe
  refine isPath_of_ordered hNodup hOrdered ?_ ?_
  · intro backup hIn
    rcases hMember.mp hIn with
      ⟨⟨hBackup, hRoot⟩, hSelected⟩
    rcases
        hGrow.grown backup hBackup (.inl (hCompleted hIn))
          rootID hRoot with
      hFromRoot | ⟨parent, hParent, hNames, hParentRoot,
        hParentCompleted, hPrecedes⟩
    · exact .inl hFromRoot
    · have hParentFinished :=
        hGrow.finished parent hParent hParentCompleted
      have hParentIn :
          parent ∈
            (findAllByRootFull backups rootID).filter
              selects :=
        hMember.mpr
          ⟨⟨hParent, hParentRoot⟩,
            hSelects.closed hParentFinished
              hParentCompleted hSelected hPrecedes⟩
      refine .inr ⟨parent, hParentIn, hNames, ?_⟩
      rcases hStart hParentIn with ⟨parentStart, hAt⟩
      rcases hStart hIn with ⟨start, hAt'⟩
      unfold startKey
      rw [hAt, hAt']
      exact
        hPrecedes.starts (hCompleted hIn) parentStart hAt
          start hAt'
  · intro first hFirst second hSecond hSame
    rcases hMember.mp hFirst with ⟨⟨hIn, hRoot⟩, _⟩
    rcases hMember.mp hSecond with ⟨⟨hIn', hRoot'⟩, _⟩
    exact
      hGrow.single first hIn second hIn'
        (.inl (hCompleted hFirst))
        (.inl (hCompleted hSecond)) rootID hRoot hRoot'
        hSame

------------------------------------------------------------
-- The Selections of Restores
------------------------------------------------------------

/- A restore to an instant takes what was completed by it. -/
theorem isClosedSelection_anchored
    (target : Option Time) :
    IsClosedSelection fun incremental =>
      (incrementalAnchor incremental).any
        (isAnchorBy target) := by
  have hAnchored :
      ∀ {backup},
        ((incrementalAnchor backup).any
            (isAnchorBy target)) =
          true ↔
          backup.status = .completed ∧
            backup.stopLSN.isSome ∧
              ∃ completedAt,
                backup.completedAt = some completedAt ∧
                  ∀ instant ∈ target,
                    completedAt ≤ instant := by
    intro backup
    unfold incrementalAnchor
    split
    · next stopLSN completedAt hStatus hStop hAt =>
        simp [hStatus, hStop, hAt, isAnchorBy]
        cases target with
        | none => simp
        | some instant => simp
    · next hOther =>
        simp only [Option.any_none, Bool.false_eq_true,
          false_iff]
        rintro ⟨hStatus, hStop, completedAt, hAt, _⟩
        rcases Option.isSome_iff_exists.mp hStop with
          ⟨stopLSN, hStop⟩
        exact hOther stopLSN completedAt hStatus hStop hAt
  refine ⟨?_, ?_⟩
  · intro backup hSelected
    exact (hAnchored.mp hSelected).1
  · intro now parent backup hFinished hCompleted hSelected
      hPrecedes
    rcases hAnchored.mp hSelected with
      ⟨hStatus, _, completedAt, hAt, hBy⟩
    rcases hFinished.columns with ⟨_, _, hStop, hEnd⟩
    rcases Option.isSome_iff_exists.mp hEnd with
      ⟨parentAt, hParentAt⟩
    refine
      hAnchored.mpr
        ⟨hCompleted, hStop, parentAt, hParentAt, ?_⟩
    intro instant hInstant
    exact
      le_trans
        (hPrecedes.finished hStatus parentAt hParentAt
          completedAt hAt)
        (hBy instant hInstant)

/- A restore of one backup takes what starts no later. -/
theorem isClosedSelection_includedBefore
    (targetStartLSN : LSN) :
    IsClosedSelection
      (isIncludedBefore targetStartLSN) := by
  have hIncluded :
      ∀ {backup},
        isIncludedBefore targetStartLSN backup = true ↔
          backup.status = .completed ∧
            (∃ start,
              backup.startLSN = some start ∧
                start ≤ targetStartLSN) ∧
              backup.stopLSN.isSome := by
    intro backup
    unfold isIncludedBefore
    simp [Option.any_eq_true, and_assoc]
  refine ⟨?_, ?_⟩
  · intro backup hSelected
    exact (hIncluded.mp hSelected).1
  · intro now parent backup hFinished hCompleted hSelected
      hPrecedes
    rcases hIncluded.mp hSelected with
      ⟨hStatus, ⟨start, hStart, hBy⟩, _⟩
    rcases hFinished.exists_start with
      ⟨parentStart, hParentStart⟩
    have hBefore :=
      hPrecedes.starts hStatus parentStart hParentStart start
        hStart
    exact
      hIncluded.mpr
        ⟨hCompleted,
          ⟨parentStart, hParentStart,
            le_trans (le_of_lt hBefore) hBy⟩,
          hFinished.columns.2.2.1⟩

------------------------------------------------------------
-- Restore Sets
------------------------------------------------------------

variable {target : Option Time}
variable {databaseID : Uuid}

/- From its root on, each incremental names the one before. -/
def RestoreSet.IsUnbroken
    (set : RestoreSet) : Prop :=
  IsPath Backup.id Backup.parentBackupID set.rootFull.id
      set.incrementals ∧
    ∀ incremental ∈ set.incrementals,
      incremental.status = .completed

variable {s : CatalogState}
variable {now : Time}
variable {set : RestoreSet}

/- A set that consists of a closed selection of its chain. -/
theorem ChainsGrow.isUnbroken
    (hGrow : ChainsGrow s.backups now)
    {selects : Backup → Bool}
    (hSelects : IsClosedSelection selects)
    (hIncrementals :
      set.incrementals =
        (findAllByRootFull s.backups
          set.rootFull.id).filter selects) :
    set.IsUnbroken := by
  unfold RestoreSet.IsUnbroken
  rw [hIncrementals]
  refine ⟨hGrow.isPath hSelects set.rootFull.id, ?_⟩
  intro incremental hIn
  exact
    hSelects.completed incremental
      (List.mem_filter.mp hIn).2

/- The chain that is selected is one of the candidates. -/
theorem mem_of_selectRestoreChain
    {candidates : List ChainView}
    {chain : ChainView}
    (hChain :
      selectRestoreChain candidates target = .ok chain) :
    chain ∈ candidates := by
  unfold selectRestoreChain at hChain
  split at hChain
  · split at hChain
    · cases hChain
    · cases hChain
      exact List.mem_cons_self
  · split at hChain
    · cases hChain
    · split at hChain
      · cases hChain
      · next found hFound =>
          cases hChain
          exact List.mem_of_find?_eq_some hFound

/- What the incrementals of a restore to a target are. -/
theorem incrementals_of_resolveRestoreReach
    {reach : RestoreReach}
    (hReach :
      resolveRestoreReach s databaseID target = .ok reach) :
    reach.incrementals =
      (findAllByRootFull s.backups
        reach.chain.rootFull.id).filter fun incremental =>
          (incrementalAnchor incremental).any
            (isAnchorBy target) := by
  unfold resolveRestoreReach at hReach
  split at hReach
  · cases hReach
  · next candidates hCandidates =>
      split at hReach
      · cases hReach
      · next chain hChain =>
          split at hReach
          · cases hReach
          · next fullStopLSN hStop =>
              cases hReach
              rw [orderedRestoreCandidates_eq]
                at hCandidates
              rcases
                  buildChainView_of_mem _ hCandidates chain
                    (mem_of_selectRestoreChain hChain) with
                ⟨full, _, hBuilt⟩
              rcases buildChainView_parts hBuilt with
                ⟨hRoot, hIncrementals⟩
              simp only
              rw [includedIncrementals_eq chain hStop target,
                hIncrementals, hRoot]

theorem ChainsGrow.resolveRestoreSet
    (hGrow : ChainsGrow s.backups now)
    (hSet :
      resolveRestoreSet s databaseID target = .ok set) :
    set.IsUnbroken := by
  unfold Chains.resolveRestoreSet at hSet
  split at hSet
  · cases hSet
  · next reach hReach =>
      split at hSet
      · cases hSet
      · cases hSet
        exact
          hGrow.isUnbroken
            (isClosedSelection_anchored target)
            (incrementals_of_resolveRestoreReach hReach)

theorem ChainsGrow.resolveRestoreSetForBackup
    (hGrow : ChainsGrow s.backups now)
    {databaseID backupID : Uuid}
    (hSet :
      resolveRestoreSetForBackup s databaseID backupID =
        .ok set) :
    set.IsUnbroken := by
  unfold Chains.resolveRestoreSetForBackup at hSet
  split at hSet
  · cases hSet
  · split at hSet
    · cases hSet
    · split at hSet
      · unfold restoreSetForFull at hSet
        split at hSet
        · cases hSet
          refine ⟨trivial, ?_⟩
          intro incremental hIn
          cases hIn
        · cases hSet
      · unfold restoreSetForIncremental at hSet
        split at hSet
        · next startLSN stopLSN rootID _ hStart _ hRootID =>
            split at hSet
            · cases hSet
            · next full hFull =>
                split at hSet
                · cases hSet
                · cases hSet
                  apply
                    hGrow.isUnbroken
                      (isClosedSelection_includedBefore
                        startLSN)
                  rw [(Table.lookup_some hFull).2]
        · cases hSet

/-
  Whatever has been scheduled, ended and deleted before, the
  incrementals of a restore are a path from their root.
-/
theorem restoreSets_are_unbroken
    {s : GrowthState}
    (hReachable :
      growthSystem.ReachableWhile MeetsEnvironment s)
    (databaseID : Uuid) :
    (∀ target set,
      resolveRestoreSet s.catalog databaseID target =
          .ok set →
        set.IsUnbroken) ∧
      ∀ backupID set,
        resolveRestoreSetForBackup s.catalog databaseID
            backupID =
          .ok set →
        set.IsUnbroken := by
  have hGrow := chainsGrow_of_reachable hReachable
  refine ⟨?_, ?_⟩
  · intro target set hSet
    exact hGrow.resolveRestoreSet hSet
  · intro backupID set hSet
    exact hGrow.resolveRestoreSetForBackup hSet

/- A backup of the sample database, claimed at an instant. -/
def sampleClaim
    (backupID : Uuid)
    (kind : BackupKind)
    (now : Time) : ClockedAction :=
  { now := now
    action :=
      .claimAndInsert
        { backupID := backupID
          databaseID := 10
          storageID := 1
          storageGeneration := 0
          kind := kind } }

/- The runner's copy of a backup from one LSN to another. -/
def sampleResult
    (backupID : Uuid)
    (startLSN stopLSN : LSN)
    (now : Time) : ClockedAction :=
  { now := now
    action :=
      .transition
        (.complete
          { id := backupID
            databaseID := 10
            storageID := 1
            kind := .full
            timelineID := 1
            status := .completed
            fileName := some "backup"
            startLSN := some startLSN
            stopLSN := some stopLSN
            createdAt := 0
            completedAt := some now }
          sampleAnswers) }

/- The third backup is deleted, and the fourth is canceled. -/
def sampleGrowth : List ClockedAction :=
  [sampleClaim 1 .full 10,
    sampleResult 1 100 200 11,
    sampleClaim 2 .incremental 20,
    sampleResult 2 300 310 21,
    sampleClaim 3 .incremental 30,
    sampleResult 3 400 410 31,
    { now := 32
      action := .deleteIncrementalCascade true 3 },
    sampleClaim 4 .incremental 40,
    { now := 41
      action :=
        .transition
          (.cancelRunningBackup 4 41 sampleAnswers) },
    sampleClaim 5 .incremental 50,
    sampleResult 5 500 510 51]

def sampleEmpty : GrowthState :=
  { catalog :=
      { backups := []
        segments := []
        historyFiles := []
        requested := [] }
    now := 0 }

theorem initial_sampleEmpty :
    growthSystem.initial sampleEmpty := by
  change sampleEmpty.catalog.backups = []
  rfl

def sampleGrown : GrowthState :=
  growthSystem.outcome sampleEmpty sampleGrowth

theorem restoreSets_are_unbroken_after_deletion :
    (resolveRestoreSet sampleGrown.catalog 10 none).map
          (fun set => set.incrementals.map Backup.id) =
        .ok [2, 5] ∧
      (∀ target set,
        resolveRestoreSet sampleGrown.catalog 10 target =
            .ok set →
          set.IsUnbroken) ∧
        ∀ backupID set,
          resolveRestoreSetForBackup sampleGrown.catalog 10
              backupID =
            .ok set →
          set.IsUnbroken :=
  ⟨by decide +kernel,
    restoreSets_are_unbroken
      (TransitionSystem.reachableWhile_outcome
        initial_sampleEmpty (by decide +kernel))
      10⟩

end Chains

end Databasus
