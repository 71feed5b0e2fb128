import Databasus.Catalog.LifecycleSafety
import Databasus.Chains.ChainGrowth

/-
  What the growth of chains keeps.

  A live backup, one that is completed or running, grows from
  its root or from a completed incremental of the same root,
  and no two live backups of a chain share a parent.  Updates
  end running backups, and deletions take no parent away.

  Main declarations:
    * `GrowsFrom`
    * `ChainsGrow`
    * `Prunes`
    * `ChainsGrow.growthStep`
-/

------------------------------------------------------------
-- The Invariant
------------------------------------------------------------

namespace Databasus

namespace Chains

open Foundation
open Catalog

variable {backup : Backup}

/- A backup that is, or may become, part of a restore. -/
def IsLive
    (backup : Backup) : Prop :=
  backup.status = .completed ∨ backup.status = .inProgress

/- A completed backup ended after it began, and by now. -/
structure IsFinished
    (now : Time)
    (backup : Backup) : Prop where
  columns : backup.HasCompletedColumns
  ends :
    ∀ start ∈ backup.startLSN, ∀ stop ∈ backup.stopLSN,
      start < stop
  known :
    ∀ completedAt ∈ backup.completedAt, completedAt ≤ now

/- The parent was finished before the child was begun. -/
structure Precedes
    (parent child : Backup) : Prop where
  begun :
    child.status = .inProgress →
      ∀ parentAt ∈ parent.completedAt,
        parentAt ≤ child.createdAt
  finished :
    child.status = .completed →
      ∀ parentAt ∈ parent.completedAt,
        ∀ childAt ∈ child.completedAt, parentAt ≤ childAt
  starts :
    child.status = .completed →
      ∀ parentStart ∈ parent.startLSN,
        ∀ childStart ∈ child.startLSN,
          parentStart < childStart

/- The child's parent is its root, or grows from the root. -/
def GrowsFrom
    (backups : List Backup)
    (rootID : Uuid)
    (child : Backup) : Prop :=
  child.parentBackupID = some rootID ∨
    ∃ parent ∈ backups,
      child.parentBackupID = some parent.id ∧
        parent.rootFullBackupID = some rootID ∧
          parent.status = .completed ∧ Precedes parent child

structure ChainsGrow
    (backups : List Backup)
    (now : Time) : Prop where
  uniqueIDs : Table.UniqueBy Backup.id backups
  singleRunning :
    ∀ first ∈ backups, ∀ second ∈ backups,
      first.status = .inProgress →
        second.status = .inProgress →
          first.databaseID = second.databaseID →
            first = second
  finished :
    ∀ backup ∈ backups,
      backup.status = .completed → IsFinished now backup
  fulls :
    ∀ backup ∈ backups,
      backup.kind = .full → backup.rootFullBackupID = none
  rooted :
    ∀ backup ∈ backups, ∀ rootID,
      backup.rootFullBackupID = some rootID →
        ∃ full ∈ backups,
          full.id = rootID ∧ full.kind = .full ∧
            full.databaseID = backup.databaseID
  grown :
    ∀ backup ∈ backups, IsLive backup →
      ∀ rootID, backup.rootFullBackupID = some rootID →
        GrowsFrom backups rootID backup
  single :
    ∀ first ∈ backups, ∀ second ∈ backups,
      IsLive first → IsLive second →
        ∀ rootID,
          first.rootFullBackupID = some rootID →
            second.rootFullBackupID = some rootID →
              first.parentBackupID =
                second.parentBackupID →
                first = second

variable {backups : List Backup}
variable {now later : Time}

theorem IsFinished.exists_start
    (hFinished : IsFinished now backup) :
    ∃ start, backup.startLSN = some start :=
  Option.isSome_iff_exists.mp hFinished.columns.2.1

theorem IsFinished.mono
    (hFinished : IsFinished now backup)
    (hLater : now ≤ later) :
    IsFinished later backup :=
  { hFinished with
    known := fun completedAt hAt =>
      le_trans (hFinished.known completedAt hAt) hLater }

theorem ChainsGrow.mono
    (hGrow : ChainsGrow backups now)
    (hLater : now ≤ later) :
    ChainsGrow backups later :=
  { hGrow with
    finished := fun backup hBackup hCompleted =>
      (hGrow.finished backup hBackup hCompleted).mono
        hLater }

theorem chainsGrow_nil
    (now : Time) : ChainsGrow [] now where
  uniqueIDs := List.nodup_nil
  singleRunning := by simp
  finished := by simp
  fulls := by simp
  rooted := by simp
  grown := by simp
  single := by simp

/- The parent of a chain's backup is not its root. -/
theorem ChainsGrow.root_ne
    (hGrow : ChainsGrow backups now)
    {backup parent : Backup}
    {rootID : Uuid}
    (hBackup : backup ∈ backups)
    (hRoot : backup.rootFullBackupID = some rootID)
    (hParent : parent ∈ backups)
    (hParentRoot : parent.rootFullBackupID = some rootID) :
    parent.id ≠ rootID := by
  intro hSame
  rcases hGrow.rooted backup hBackup rootID hRoot with
    ⟨full, hFull, hFullID, hKind, _⟩
  have hIsFull : parent = full :=
    hGrow.uniqueIDs.eq_of_key_eq hParent hFull
      (hSame.trans hFullID.symm)
  have hNone := hGrow.fulls full hFull hKind
  rw [← hIsFull, hParentRoot] at hNone
  cases hNone

------------------------------------------------------------
-- Deletions
------------------------------------------------------------

variable {s s' : CatalogState}

/- No row is new, and no row that another one names is lost. -/
structure Prunes
    (before after : CatalogState) : Prop where
  sublist : after.backups.Sublist before.backups
  closed :
    ∀ row ∈ after.backups, ∀ named ∈ before.backups,
      row.id ≠ named.id →
        (row.parentBackupID = some named.id ∨
            row.rootFullBackupID = some named.id) →
          named ∈ after.backups

theorem Prunes.of_backups_eq
    (hBackups : s'.backups = s.backups) :
    Prunes s s' := by
  refine ⟨?_, ?_⟩
  · rw [hBackups]
  · intro row _ named hNamed _ _
    rw [hBackups]
    exact hNamed

theorem Prunes.trans
    {s s' s'' : CatalogState}
    (hFirst : Prunes s s')
    (hSecond : Prunes s' s'') :
    Prunes s s'' := by
  refine ⟨hSecond.sublist.trans hFirst.sublist, ?_⟩
  intro row hRow named hNamed hOther hNames
  have hMiddle : named ∈ s'.backups :=
    hFirst.closed row (hSecond.sublist.subset hRow) named
      hNamed hOther hNames
  exact hSecond.closed row hRow named hMiddle hOther hNames

/- The foreign keys refuse to delete a row that is named. -/
theorem prunes_deleteBackupByID
    {id : Uuid}
    (hDelete : s.deleteBackupByID id = .ok s') :
    Prunes s s' := by
  unfold CatalogState.deleteBackupByID at hDelete
  split at hDelete
  · cases hDelete
  · next hFree =>
      cases hDelete
      refine ⟨List.filter_sublist, ?_⟩
      intro row hRow named hNamed hOther hNames
      rw [Table.mem_deleteWhere_iff] at hRow ⊢
      refine ⟨hNamed, decide_eq_false ?_⟩
      rintro rfl
      apply hFree
      unfold isReferenced
      rw [List.any_eq_true]
      refine ⟨row, hRow.1, ?_⟩
      rcases hNames with hParent | hRoot
      · simp [hOther, hParent]
      · simp [hOther, hRoot]

/- Every statement of a cascade prunes. -/
theorem prunes_rules : IsKeptByCascades Prunes where
  refl s := Prunes.of_backups_eq rfl
  trans := Prunes.trans
  request := by
    intro s s' _ _ _ hRequest
    unfold CatalogState.requestFileDeletions at hRequest
    split at hRequest
    · cases hRequest
      exact Prunes.of_backups_eq rfl
    · cases hRequest
  backup := prunes_deleteBackupByID
  historyFile s id := Prunes.of_backups_eq rfl
  segment s id := Prunes.of_backups_eq rfl

/- The parents of the backups that are left are left too. -/
theorem ChainsGrow.prune
    {now : Time}
    (hGrow : ChainsGrow s.backups now)
    (hPrunes : Prunes s s') :
    ChainsGrow s'.backups now := by
  have hBefore :
      ∀ {backup}, backup ∈ s'.backups →
        backup ∈ s.backups :=
    fun hBackup => hPrunes.sublist.subset hBackup
  refine ⟨?_, ?_, ?_, ?_, ?_, ?_, ?_⟩
  · exact
      List.Nodup.sublist (hPrunes.sublist.map Backup.id)
        hGrow.uniqueIDs
  · intro first hFirst second hSecond
    exact
      hGrow.singleRunning first (hBefore hFirst) second
        (hBefore hSecond)
  · intro backup hBackup
    exact hGrow.finished backup (hBefore hBackup)
  · intro backup hBackup
    exact hGrow.fulls backup (hBefore hBackup)
  · intro backup hBackup rootID hRoot
    rcases
        hGrow.rooted backup (hBefore hBackup) rootID
          hRoot with
      ⟨full, hFull, rfl, hKind, hDatabase⟩
    refine ⟨full, ?_, rfl, hKind, hDatabase⟩
    apply
      hPrunes.closed backup hBackup full hFull ?_
        (.inr hRoot)
    intro hSame
    have hIsFull : backup = full :=
      hGrow.uniqueIDs.eq_of_key_eq (hBefore hBackup) hFull
        hSame
    have hNone := hGrow.fulls full hFull hKind
    rw [← hIsFull, hRoot] at hNone
    cases hNone
  · intro backup hBackup hLive rootID hRoot
    rcases
        hGrow.grown backup (hBefore hBackup) hLive rootID
          hRoot with
      hFromRoot | ⟨parent, hParent, hNames, hParentRoot,
        hCompleted, hPrecedes⟩
    · exact .inl hFromRoot
    · refine
        .inr
          ⟨parent, ?_, hNames, hParentRoot, hCompleted,
            hPrecedes⟩
      apply
        hPrunes.closed backup hBackup parent hParent ?_
          (.inl hNames)
      intro hSame
      have hIsParent : backup = parent :=
        hGrow.uniqueIDs.eq_of_key_eq (hBefore hBackup)
          hParent hSame
      subst hIsParent
      -- A backup does not start before itself.
      rcases
          (hGrow.finished backup hParent
            hCompleted).exists_start with
        ⟨start, hStart⟩
      exact
        lt_irrefl start
          (hPrecedes.starts hCompleted start hStart start
            hStart)
  · intro first hFirst second hSecond
    exact
      hGrow.single first (hBefore hFirst) second
        (hBefore hSecond)

------------------------------------------------------------
-- Claims
------------------------------------------------------------

variable {rootID : Uuid}

/- The chain that can grow has a full of the database. -/
theorem mem_of_findLastExtendableChain
    {databaseID : Uuid}
    {chain : ChainView}
    (hChain :
      findLastExtendableChainByDatabase backups databaseID =
        .ok (some chain)) :
    chain.rootFull ∈ backups ∧
      chain.rootFull.kind = .full ∧
        chain.rootFull.databaseID = databaseID := by
  unfold findLastExtendableChainByDatabase at hChain
  split at hChain
  · cases hChain
  · next newest older hFulls =>
      have hNewest :
          newest ∈
            findCompletedFullNewestFirstByDatabase backups
              databaseID := by
        rw [hFulls]
        exact List.mem_cons_self
      unfold findCompletedFullNewestFirstByDatabase
        at hNewest
      rw [List.mem_insertionSort, List.mem_filter]
        at hNewest
      simp only [Bool.and_eq_true,
        decide_eq_true_eq] at hNewest
      unfold buildChainView at hChain
      cases hSpan : getChainSpanForFull backups newest with
      | error error => simp [hSpan] at hChain
      | ok span =>
          simp only [hSpan] at hChain
          split at hChain
          · cases hChain
            exact ⟨hNewest.1, hNewest.2.1.1, hNewest.2.1.2⟩
          · cases hChain

/- What the latest completed incremental of a root is. -/
theorem findLatestCompletedByRootFull_some
    {latest : Backup}
    (hLatest :
      findLatestCompletedByRootFull backups rootID =
        some latest) :
    latest ∈ backups ∧
      latest.rootFullBackupID = some rootID ∧
        latest.status = .completed ∧
          ∀ other ∈ backups,
            other.rootFullBackupID = some rootID →
              other.status = .completed →
                startsNoEarlier latest other := by
  have hMember := Table.mem_of_firstBy hLatest
  simp only [Bool.and_eq_true,
    decide_eq_true_eq] at hMember
  refine ⟨hMember.1, hMember.2.1, hMember.2.2, ?_⟩
  intro other hOther hRoot hCompleted
  apply Table.firstBy_precedes hLatest hOther
  simp [hRoot, hCompleted]

theorem findLatestCompletedByRootFull_none
    (hNone :
      findLatestCompletedByRootFull backups rootID = none)
    {other : Backup}
    (hOther : other ∈ backups)
    (hRoot : other.rootFullBackupID = some rootID) :
    other.status ≠ .completed := by
  intro hCompleted
  have hNot := Table.firstBy_eq_none_iff.mp hNone other hOther
  simp [hRoot, hCompleted] at hNot

/- The parent that a claim gives a chain's next incremental. -/
def nextParentID
    (backups : List Backup)
    (rootID : Uuid) : Uuid :=
  (resolveIncrParent backups rootID).getD rootID

/-
  No completed backup of the chain has the next parent for a
  parent: it would start after the latest of them.
-/
theorem ChainsGrow.nextParent_is_free
    (hGrow : ChainsGrow backups now)
    {other : Backup}
    (hOther : other ∈ backups)
    (hRoot : other.rootFullBackupID = some rootID)
    (hCompleted : other.status = .completed) :
    other.parentBackupID ≠
      some (nextParentID backups rootID) := by
  intro hParent
  unfold nextParentID resolveIncrParent at hParent
  cases hLatest :
      findLatestCompletedByRootFull backups rootID with
  | none =>
      exact
        findLatestCompletedByRootFull_none hLatest hOther
          hRoot hCompleted
  | some latest =>
      rcases findLatestCompletedByRootFull_some hLatest with
        ⟨hMember, hLatestRoot, _, hNewest⟩
      rw [hLatest] at hParent
      rcases
          hGrow.grown other hOther (.inl hCompleted) rootID
            hRoot with
        hFromRoot | ⟨parent, hIn, hNames, _,
          hParentCompleted, hPrecedes⟩
      · rw [hFromRoot] at hParent
        exact
          hGrow.root_ne hOther hRoot hMember hLatestRoot
            (Option.some.inj hParent).symm
      · rw [hNames] at hParent
        have hIsLatest : parent = latest :=
          hGrow.uniqueIDs.eq_of_key_eq hIn hMember
            (Option.some.inj hParent)
        subst hIsLatest
        have hLater := hNewest other hOther hRoot hCompleted
        rcases
            (hGrow.finished other hOther
              hCompleted).exists_start with
          ⟨otherStart, hOtherStart⟩
        rcases
            (hGrow.finished parent hMember
              hParentCompleted).exists_start with
          ⟨start, hStart⟩
        have hBefore :=
          hPrecedes.starts hCompleted start hStart
            otherStart hOtherStart
        unfold startsNoEarlier startsNoLater at hLater
        rw [hOtherStart, hStart] at hLater
        exact absurd hLater (Nat.not_le_of_lt hBefore)

/- A new backup that runs after the latest of its chain. -/
theorem ChainsGrow.growsFrom_nextParent
    (hGrow : ChainsGrow backups now)
    (hRunning : backup.status = .inProgress)
    (hParent :
      backup.parentBackupID =
        some (nextParentID backups rootID))
    (hCreated : backup.createdAt = now) :
    GrowsFrom backups rootID backup := by
  unfold nextParentID resolveIncrParent at hParent
  cases hLatest :
      findLatestCompletedByRootFull backups rootID with
  | none =>
      rw [hLatest] at hParent
      exact .inl hParent
  | some latest =>
      rcases findLatestCompletedByRootFull_some hLatest with
        ⟨hMember, hRoot, hCompleted, _⟩
      rw [hLatest] at hParent
      refine
        .inr
          ⟨latest, hMember, hParent, hRoot, hCompleted,
            ?_, ?_, ?_⟩
      · intro _ parentAt hAt
        rw [hCreated]
        exact
          (hGrow.finished latest hMember hCompleted).known
            parentAt hAt
      · intro hEnded
        rw [hRunning] at hEnded
        cases hEnded
      · intro hEnded
        rw [hRunning] at hEnded
        cases hEnded

/- What a new backup of a database has to look like. -/
structure IsNext
    (backups : List Backup)
    (now : Time)
    (backup : Backup) : Prop where
  free :
    ∀ row ∈ backups, conflictsWith backup row = false
  running : backup.status = .inProgress
  full :
    backup.kind = .full → backup.rootFullBackupID = none
  chained :
    ∀ rootID, backup.rootFullBackupID = some rootID →
      GrowsFrom backups rootID backup ∧
        (∀ other ∈ backups,
          other.rootFullBackupID = some rootID →
            other.status = .completed →
              other.parentBackupID ≠
                backup.parentBackupID) ∧
          ∃ full ∈ backups,
            full.id = rootID ∧ full.kind = .full ∧
              full.databaseID = backup.databaseID

theorem GrowsFrom.append
    (hGrows : GrowsFrom backups rootID backup)
    (more : List Backup) :
    GrowsFrom (backups ++ more) rootID backup := by
  rcases hGrows with hFromRoot | ⟨parent, hParent, hRest⟩
  · exact .inl hFromRoot
  · exact .inr ⟨parent, List.mem_append_left _ hParent, hRest⟩

/- A live backup of the new one's chain is completed. -/
theorem IsNext.completed_of_chain
    {backup other : Backup}
    (hNext : IsNext backups now backup)
    (hGrow : ChainsGrow backups now)
    (hRoot : backup.rootFullBackupID = some rootID)
    (hOther : other ∈ backups)
    (hOtherRoot : other.rootFullBackupID = some rootID)
    (hLive : IsLive other) :
    other.status = .completed := by
  rcases hLive with hCompleted | hRunning
  · exact hCompleted
  · exfalso
    rcases hNext.chained rootID hRoot with
      ⟨_, _, full, hFull, hFullID, _, hDatabase⟩
    rcases hGrow.rooted other hOther rootID hOtherRoot with
      ⟨full', hFull', hFullID', _, hDatabase'⟩
    have hSame : full' = full :=
      hGrow.uniqueIDs.eq_of_key_eq hFull' hFull
        (hFullID'.trans hFullID.symm)
    have hConflict : conflictsWith backup other = true := by
      simp [conflictsWith, hRunning, ← hDatabase',
        ← hDatabase, hSame]
    rw [hNext.free other hOther] at hConflict
    cases hConflict

theorem ChainsGrow.append
    (hGrow : ChainsGrow backups now)
    (hNext : IsNext backups now backup) :
    ChainsGrow (backups ++ [backup]) now := by
  have hCases :
      ∀ {row}, row ∈ backups ++ [backup] →
        row ∈ backups ∨ row = backup := by
    intro row hRow
    simpa using hRow
  have hApart :
      ∀ row ∈ backups,
        row.id ≠ backup.id ∧
          (row.status = .inProgress →
            row.databaseID ≠ backup.databaseID) := by
    intro row hRow
    have hFree := hNext.free row hRow
    simp only [conflictsWith, Bool.or_eq_false_iff,
      decide_eq_false_iff_not, Bool.and_eq_false_iff]
      at hFree
    refine ⟨hFree.1, ?_⟩
    intro hRunning hSame
    rcases hFree.2 with hOther | hEnded
    · exact hOther hSame
    · exact hEnded hRunning
  have hNotCompleted : backup.status ≠ .completed := by
    rw [hNext.running]
    decide
  refine ⟨?_, ?_, ?_, ?_, ?_, ?_, ?_⟩
  · exact
      hGrow.uniqueIDs.append fun row hRow => (hApart row hRow).1
  · intro first hFirst second hSecond hRuns hRuns' hSame
    rcases hCases hFirst with hOld | rfl
    · rcases hCases hSecond with hOld' | rfl
      · exact
          hGrow.singleRunning first hOld second hOld' hRuns
            hRuns' hSame
      · exact absurd hSame ((hApart first hOld).2 hRuns)
    · rcases hCases hSecond with hOld' | rfl
      · exact absurd hSame.symm ((hApart second hOld').2 hRuns')
      · rfl
  · intro row hRow hCompleted
    rcases hCases hRow with hOld | rfl
    · exact hGrow.finished row hOld hCompleted
    · exact absurd hCompleted hNotCompleted
  · intro row hRow hKind
    rcases hCases hRow with hOld | rfl
    · exact hGrow.fulls row hOld hKind
    · exact hNext.full hKind
  · intro row hRow rootID hRoot
    have hFull :
        ∃ full ∈ backups,
          full.id = rootID ∧ full.kind = .full ∧
            full.databaseID = row.databaseID := by
      rcases hCases hRow with hOld | rfl
      · exact hGrow.rooted row hOld rootID hRoot
      · exact (hNext.chained rootID hRoot).2.2
    rcases hFull with ⟨full, hIn, hRest⟩
    exact ⟨full, List.mem_append_left _ hIn, hRest⟩
  · intro row hRow hLive rootID hRoot
    rcases hCases hRow with hOld | rfl
    · exact (hGrow.grown row hOld hLive rootID hRoot).append _
    · exact (hNext.chained rootID hRoot).1.append _
  · intro first hFirst second hSecond hLive hLive' rootID
      hRoot hRoot' hParents
    rcases hCases hFirst with hOld | rfl
    · rcases hCases hSecond with hOld' | rfl
      · exact
          hGrow.single first hOld second hOld' hLive hLive'
            rootID hRoot hRoot' hParents
      · have hCompleted :=
          hNext.completed_of_chain hGrow hRoot' hOld hRoot
            hLive
        exact
          absurd hParents
            ((hNext.chained rootID hRoot').2.1 first hOld
              hRoot hCompleted)
    · rcases hCases hSecond with hOld' | rfl
      · have hCompleted :=
          hNext.completed_of_chain hGrow hRoot hOld' hRoot'
            hLive'
        exact
          absurd hParents.symm
            ((hNext.chained rootID hRoot).2.1 second hOld'
              hRoot' hCompleted)
      · rfl

/- A claim inserts the next backup of its chain, or none. -/
theorem ChainsGrow.claimAndInsert
    (hGrow : ChainsGrow backups now)
    (claim : BackupClaim) :
    ChainsGrow (claimAndInsert backups claim now).1 now := by
  unfold Chains.claimAndInsert
  split
  · exact hGrow
  · next decision hDecision =>
      unfold insertRunning
      split
      · exact hGrow
      · next hFree =>
          have hNone :
              ∀ row ∈ backups,
                conflictsWith
                    (claimedBackup claim now decision)
                    row =
                  false := by
            simpa using hFree
          apply hGrow.append
          cases hKind : claim.kind with
          | full =>
              simp only [decideBackup, hKind,
                Option.some.injEq] at hDecision
              subst hDecision
              refine ⟨hNone, rfl, fun _ => rfl, ?_⟩
              intro rootID hRoot
              cases hRoot
          | incremental =>
              simp only [decideBackup, hKind] at hDecision
              split at hDecision
              · next chain hChain =>
                  cases hDecision
                  rcases
                      mem_of_findLastExtendableChain
                        hChain with
                    ⟨hFull, hFullKind, hDatabase⟩
                  refine ⟨hNone, rfl, ?_, ?_⟩
                  · intro hIsFull
                    rw [show
                      (claimedBackup claim now _).kind =
                        claim.kind from rfl, hKind]
                      at hIsFull
                    cases hIsFull
                  · intro rootID hRoot
                    cases hRoot
                    refine ⟨?_, ?_, ?_⟩
                    · exact
                        hGrow.growsFrom_nextParent rfl rfl
                          rfl
                    · intro other hOther hOtherRoot
                        hCompleted
                      exact
                        hGrow.nextParent_is_free hOther
                          hOtherRoot hCompleted
                    · exact
                        ⟨chain.rootFull, hFull, rfl,
                          hFullKind, hDatabase⟩
              · cases hDecision

------------------------------------------------------------
-- Transitions
------------------------------------------------------------

variable {selects : Backup → Bool}
variable {change : Backup → Backup}
variable {s : CatalogState}
variable {action : LifecycleAction}

/- What an update may make of a row that it selects. -/
structure EndsBackup
    (backups : List Backup)
    (now : Time)
    (before after : Backup) : Prop where
  running : before.status = .inProgress
  ended : after.status ≠ .inProgress
  id : after.id = before.id
  databaseID : after.databaseID = before.databaseID
  kind : after.kind = before.kind
  parentBackupID :
    after.parentBackupID = before.parentBackupID
  rootFullBackupID :
    after.rootFullBackupID = before.rootFullBackupID
  finished :
    after.status = .completed →
      IsFinished now after ∧
        ∀ parent ∈ backups,
          before.parentBackupID = some parent.id →
            IsFinished now parent →
              Precedes parent before →
                Precedes parent after

/- The row itself, or what has become of a running one. -/
theorem endsBackup_or_eq
    (hEnds :
      ∀ row ∈ backups, selects row = true →
        EndsBackup backups now row (change row))
    {row : Backup}
    (hRow : row ∈ backups) :
    (if selects row then change row else row) = row ∨
      EndsBackup backups now row
        (if selects row then change row else row) := by
  by_cases hSelects : selects row = true
  · rw [if_pos hSelects]
    exact .inr (hEnds row hRow hSelects)
  · rw [if_neg hSelects]
    exact .inl rfl

theorem ChainsGrow.update
    (hGrow : ChainsGrow backups now)
    (hKeeps : ∀ row, (change row).id = row.id)
    (hEnds :
      ∀ row ∈ backups, selects row = true →
        EndsBackup backups now row (change row)) :
    ChainsGrow (Table.updateWhere selects change backups)
      now := by
  have hRows :
      ∀ {row},
        row ∈ Table.updateWhere selects change backups →
          ∃ old ∈ backups,
            row = old ∨ EndsBackup backups now old row := by
    intro row hRow
    rcases
        (Table.mem_updateWhere_iff _ _ _ _).mp hRow with
      ⟨old, hOld, rfl⟩
    exact ⟨old, hOld, endsBackup_or_eq hEnds hOld⟩
  -- A row that has ended stays as it was.
  have hStays :
      ∀ row ∈ backups, row.status ≠ .inProgress →
        row ∈ Table.updateWhere selects change backups := by
    intro row hRow hEnded
    apply Table.mem_updateWhere_of_not hRow
    by_contra hSelects
    exact
      hEnded
        (hEnds row hRow (by simpa using hSelects)).running
  refine ⟨?_, ?_, ?_, ?_, ?_, ?_, ?_⟩
  · exact hGrow.uniqueIDs.updateWhere hKeeps
  · intro first hFirst second hSecond hRuns hRuns' hSame
    rcases hRows hFirst with ⟨old, hOld, rfl | hEnded⟩
    · rcases hRows hSecond with ⟨old', hOld', rfl | hEnded⟩
      · exact
          hGrow.singleRunning first hOld second hOld' hRuns
            hRuns' hSame
      · exact absurd hRuns' hEnded.ended
    · exact absurd hRuns hEnded.ended
  · intro row hRow hCompleted
    rcases hRows hRow with ⟨old, hOld, rfl | hEnded⟩
    · exact hGrow.finished row hOld hCompleted
    · exact (hEnded.finished hCompleted).1
  · intro row hRow hKind
    rcases hRows hRow with ⟨old, hOld, rfl | hEnded⟩
    · exact hGrow.fulls row hOld hKind
    · rw [hEnded.rootFullBackupID]
      exact hGrow.fulls old hOld (hEnded.kind ▸ hKind)
  · intro row hRow rootID hRoot
    have hOldFull :
        ∃ full ∈ backups,
          full.id = rootID ∧ full.kind = .full ∧
            full.databaseID = row.databaseID := by
      rcases hRows hRow with ⟨old, hOld, rfl | hEnded⟩
      · exact hGrow.rooted row hOld rootID hRoot
      · rw [hEnded.databaseID]
        exact
          hGrow.rooted old hOld rootID
            (hEnded.rootFullBackupID ▸ hRoot)
    rcases hOldFull with
      ⟨full, hFull, hFullID, hKind, hDatabase⟩
    refine
      ⟨_,
        (Table.mem_updateWhere_iff _ _ _ _).mpr
          ⟨full, hFull, rfl⟩, ?_⟩
    rcases endsBackup_or_eq hEnds hFull with
      hSame | hEnded
    · rw [hSame]
      exact ⟨hFullID, hKind, hDatabase⟩
    · rw [hEnded.id, hEnded.kind, hEnded.databaseID]
      exact ⟨hFullID, hKind, hDatabase⟩
  · intro row hRow hLive rootID hRoot
    have hGrown : GrowsFrom backups rootID row := by
      rcases hRows hRow with ⟨old, hOld, rfl | hEnded⟩
      · exact hGrow.grown row hOld hLive rootID hRoot
      · have hCompleted : row.status = .completed :=
          hLive.resolve_right hEnded.ended
        rcases
            hGrow.grown old hOld (.inr hEnded.running)
              rootID (hEnded.rootFullBackupID ▸ hRoot) with
          hFromRoot | ⟨parent, hParent, hNames,
            hParentRoot, hParentCompleted, hPrecedes⟩
        · exact .inl (hEnded.parentBackupID ▸ hFromRoot)
        · refine
            .inr
              ⟨parent, hParent, ?_, hParentRoot,
                hParentCompleted, ?_⟩
          · rw [hEnded.parentBackupID]
            exact hNames
          · exact
              (hEnded.finished hCompleted).2 parent hParent
                hNames
                (hGrow.finished parent hParent
                  hParentCompleted)
                hPrecedes
    rcases hGrown with
      hFromRoot | ⟨parent, hParent, hNames, hParentRoot,
        hCompleted, hPrecedes⟩
    · exact .inl hFromRoot
    · refine
        .inr
          ⟨parent, hStays parent hParent ?_, hNames,
            hParentRoot, hCompleted, hPrecedes⟩
      rw [hCompleted]
      decide
  · intro first hFirst second hSecond hLive hLive' rootID
      hRoot hRoot' hParents
    have hBefore :
        ∀ {row old},
          IsLive row →
            (row = old ∨ EndsBackup backups now old row) →
              IsLive old ∧
                old.rootFullBackupID =
                    row.rootFullBackupID ∧
                  old.parentBackupID =
                    row.parentBackupID := by
      intro row old hRowLive hBecame
      rcases hBecame with rfl | hEnded
      · exact ⟨hRowLive, rfl, rfl⟩
      · exact
          ⟨.inr hEnded.running,
            hEnded.rootFullBackupID.symm,
            hEnded.parentBackupID.symm⟩
    rcases
        (Table.mem_updateWhere_iff _ _ _ _).mp hFirst with
      ⟨old, hOld, rfl⟩
    rcases
        (Table.mem_updateWhere_iff _ _ _ _).mp hSecond with
      ⟨old', hOld', rfl⟩
    rcases hBefore hLive (endsBackup_or_eq hEnds hOld) with
      ⟨hOldLive, hOldRoot, hOldParent⟩
    rcases
        hBefore hLive' (endsBackup_or_eq hEnds hOld') with
      ⟨hOldLive', hOldRoot', hOldParent'⟩
    have hSame : old = old' :=
      hGrow.single old hOld old' hOld' hOldLive hOldLive'
        rootID (hOldRoot.trans hRoot)
        (hOldRoot'.trans hRoot')
        ((hOldParent.trans hParents).trans hOldParent'.symm)
    rw [hSame]

/- The row of a failed backup keeps its place. -/
theorem endsBackup_of_failure
    {backup row : Backup}
    {status : BackupStatus}
    (hRunning : row.status = .inProgress)
    (hEnds : status ≠ .inProgress)
    (hFails : status ≠ .completed) :
    EndsBackup backups now row
      (terminalRow backup status id row) where
  running := hRunning
  ended := hEnds
  id := rfl
  databaseID := rfl
  kind := rfl
  parentBackupID := rfl
  rootFullBackupID := rfl
  finished := fun hCompleted => absurd hCompleted hFails

/- A completed row starts after its parent has ended. -/
theorem endsBackup_of_result
    {backup row : Backup}
    {columns : Backup → Backup}
    (hResult : IsBackupResult s now backup)
    (hColumns : backup.HasCompletedColumns)
    (hRow : row ∈ s.backups)
    (hSelects : isRunningRowOf backup row = true)
    (hRewrites :
      terminalRow backup .completed columns row =
        { columns row with
          id := row.id
          databaseID := row.databaseID
          kind := row.kind
          parentBackupID := row.parentBackupID
          rootFullBackupID := row.rootFullBackupID
          status := .completed
          errorReason := backup.errorReason
          failMessage := backup.failMessage
          fileName := backup.fileName
          startLSN := backup.startLSN
          stopLSN := backup.stopLSN
          completedAt := backup.completedAt }) :
    EndsBackup s.backups now row
      (terminalRow backup .completed columns row) := by
  unfold isRunningRowOf at hSelects
  simp only [Bool.and_eq_true,
    decide_eq_true_eq] at hSelects
  rcases hSelects with ⟨hID, hRunning⟩
  rw [hRewrites]
  refine ⟨hRunning, by simp, rfl, rfl, rfl, rfl, rfl, ?_⟩
  intro _
  refine ⟨⟨hColumns, hResult.ends, ?_⟩, ?_⟩
  · intro completedAt hAt
    exact (hResult.clocked row hRow hID completedAt hAt).2
  · intro parent hParent hNames hFinished hPrecedes
    refine ⟨?_, ?_, ?_⟩
    · intro hIsRunning
      cases hIsRunning
    · intro _ parentAt hParentAt completedAt hAt
      exact
        le_trans
          (hPrecedes.begun hRunning parentAt hParentAt)
          (hResult.clocked row hRow hID completedAt hAt).1
    · intro _ parentStart hParentStart start hStart
      rcases
          Option.isSome_iff_exists.mp
            hFinished.columns.2.2.1 with
        ⟨parentStop, hParentStop⟩
      have hSpan : parentStart < parentStop :=
        hFinished.ends parentStart hParentStart parentStop
          hParentStop
      have hFollows : parentStop ≤ start :=
        hResult.follows row hRow hID parent hParent hNames
          parentStop hParentStop start hStart
      exact Nat.lt_of_lt_of_le hSpan hFollows

/- Only a report of a finished backup asks to complete it. -/
theorem finishedBackup_of_transitionOf
    {s : LifecycleState}
    {spec : BackupTransition}
    {answers : TransitionAnswers}
    (hAsked : transitionOf s action = some (spec, answers))
    (hCompletes : spec.status = .completed) :
    finishedBackup (.transition action) =
      some spec.backup := by
  unfold transitionOf at hAsked
  split at hAsked
  · cases hAsked
    rfl
  · cases hAsked
    cases hCompletes
  · cases hAsked
    cases hCompletes
  · cases hAsked
    cases hCompletes
  · split at hAsked
    · cases hAsked
    · split at hAsked
      · cases hAsked
        cases hCompletes
      · cases hAsked
  · split at hAsked
    · cases hAsked
      cases hCompletes
    · cases hAsked

theorem ChainsGrow.transition
    (hGrow : ChainsGrow s.backups now)
    (hResult :
      ∀ result ∈ finishedBackup (.transition action),
        IsBackupResult s now result) :
    ChainsGrow (transitionCatalog s action).backups now := by
  unfold transitionCatalog
  cases hOutcome :
      outcomeOf
        { rows := s.backups
          requested := s.requested } action with
  | none => exact hGrow
  | some outcome =>
      rcases outcomeOf_eq_some hOutcome with
        ⟨spec, answers, hAsked, hTransition⟩
      simp only
      rcases transition_cases hTransition with
        ⟨_, hCompletes, hColumns, hRows⟩ |
          ⟨_, hRows | ⟨status, hEnds, hFails, hRows⟩⟩
      · have hReported :=
          hResult spec.backup
            (finishedBackup_of_transitionOf hAsked
              hCompletes)
        rw [hRows]
        unfold markCompleted markTerminal
        refine hGrow.update ?_ ?_
        · intro row
          rfl
        · intro row hRow hSelects
          exact
            endsBackup_of_result hReported hColumns hRow
              hSelects rfl
      · rw [hRows]
        exact hGrow
      · rw [hRows]
        unfold markTerminal
        refine hGrow.update ?_ ?_
        · intro row
          rfl
        · intro row _ hSelects
          unfold isRunningRowOf at hSelects
          simp only [Bool.and_eq_true,
            decide_eq_true_eq] at hSelects
          exact endsBackup_of_failure hSelects.2 hEnds hFails

------------------------------------------------------------
-- Every Step
------------------------------------------------------------

variable {s s' : GrowthState}
variable {clocked : ClockedAction}

/- What one step of the catalog keeps. -/
theorem ChainsGrow.growthStep
    (hGrow : ChainsGrow s.catalog.backups s.now)
    (hMeets : MeetsEnvironment s clocked)
    (hStep : growthStep s clocked = some s') :
    ChainsGrow s'.catalog.backups s'.now := by
  cases hStep
  have hNow : ChainsGrow s.catalog.backups clocked.now :=
    hGrow.mono hMeets.1
  have hResults := hMeets.2
  simp only
  cases hAction : clocked.action with
  | claimAndInsert claim => exact hNow.claimAndInsert claim
  | transition action =>
      rw [hAction] at hResults
      exact hNow.transition hResults
  | deleteIncrementalCascade isAccepted incrementalID =>
      simp only [growCatalog]
      split
      · exact hNow
      · next result hDelete =>
          exact
            hNow.prune
              (prunes_rules.deleteIncrementalCascade
                hDelete)
  | cascadeDelete isAccepted rootID budget keepFull =>
      simp only [growCatalog]
      split
      · exact hNow
      · next result hDelete =>
          exact hNow.prune (prunes_rules.cascadeDelete hDelete)

/- The invariant holds in every state of a run. -/
theorem chainsGrow_of_reachable
    (hReachable :
      growthSystem.ReachableWhile MeetsEnvironment s) :
    ChainsGrow s.catalog.backups s.now := by
  induction hReachable with
  | initial hEmpty =>
      rw [hEmpty]
      exact chainsGrow_nil _
  | step _ hMeets hStep ih => exact ih.growthStep hMeets hStep

end Chains

end Databasus
