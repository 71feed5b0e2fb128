import Databasus.Chains.Cascade

/-
  Rules for the deletions of chains.

  A cascade is made of few kinds of statements.  A relation of
  two states that each statement keeps is kept by the whole.

  Main declarations:
    * `IsKeptByDeletions`
    * `IsKeptByDeletions.deleteChainBackups`
    * `IsKeptByCascades`
    * `IsKeptByCascades.cascadeDelete`
-/

------------------------------------------------------------
-- Backups
------------------------------------------------------------

namespace Databasus

namespace Chains

open Catalog

/- The statements that delete backups and history files. -/
structure IsKeptByDeletions
    (keeps : CatalogState → CatalogState → Prop) : Prop where
  refl : ∀ s, keeps s s
  trans :
    ∀ {s s' s''}, keeps s s' → keeps s' s'' → keeps s s''
  request :
    ∀ {s s' : CatalogState} {isAccepted storageID fileNames},
      s.requestFileDeletions isAccepted storageID fileNames =
          .ok s' →
        keeps s s'
  backup :
    ∀ {s s' : CatalogState} {id},
      s.deleteBackupByID id = .ok s' → keeps s s'
  historyFile :
    ∀ (s : CatalogState) (id),
      keeps s (s.deleteHistoryFileByID id)

variable {keeps : CatalogState → CatalogState → Prop}
variable {s s' : CatalogState}
variable {isAccepted keepFull hasRunningFull : Bool}
variable {backup full : Backup}

namespace IsKeptByDeletions

theorem deleteBackupArtifactAndRow
    (hKeeps : IsKeptByDeletions keeps)
    (hDelete :
      Chains.deleteBackupArtifactAndRow isAccepted s backup =
        .ok s') :
    keeps s s' := by
  unfold Chains.deleteBackupArtifactAndRow at hDelete
  split at hDelete
  · exact hKeeps.backup hDelete
  · split at hDelete
    · cases hDelete
    · next requested hRequest =>
        exact
          hKeeps.trans (hKeeps.request hRequest)
            (hKeeps.backup hDelete)

theorem deleteIncrementalSet
    (hKeeps : IsKeptByDeletions keeps)
    (ordered : List Backup) :
    ∀ {progress result : IncrementalDeletion},
      Chains.deleteIncrementalSet isAccepted ordered
            progress =
          .ok result →
        keeps progress.catalog result.catalog := by
  induction ordered with
  | nil =>
      intro progress result hDelete
      cases hDelete
      exact hKeeps.refl _
  | cons incremental rest ih =>
      intro progress result hDelete
      unfold Chains.deleteIncrementalSet at hDelete
      split at hDelete
      · cases hDelete
      · next catalog hCatalog =>
          exact
            hKeeps.trans
              (hKeeps.deleteBackupArtifactAndRow hCatalog)
              (ih hDelete)

theorem deleteIncrementalCascade
    (hKeeps : IsKeptByDeletions keeps)
    {incrementalID : Uuid}
    {result : IncrementalDeletion}
    (hDelete :
      Chains.deleteIncrementalCascade isAccepted s
          incrementalID =
        .ok result) :
    keeps s result.catalog := by
  unfold Chains.deleteIncrementalCascade at hDelete
  split at hDelete
  · cases hDelete
    exact hKeeps.refl s
  · exact hKeeps.deleteIncrementalSet _ hDelete

theorem deleteHistoryFiles
    (hKeeps : IsKeptByDeletions keeps)
    (files : List WalHistoryFile) :
    ∀ {progress result : CatalogState × Nat},
      Chains.deleteHistoryFiles isAccepted files progress =
          .ok result →
        keeps progress.1 result.1 := by
  induction files with
  | nil =>
      intro progress result hDelete
      cases hDelete
      exact hKeeps.refl _
  | cons file rest ih =>
      rintro ⟨s, deleted⟩ result hDelete
      unfold Chains.deleteHistoryFiles at hDelete
      split at hDelete
      · cases hDelete
      · next requested hRequest =>
          exact
            hKeeps.trans (hKeeps.request hRequest)
              (hKeeps.trans (hKeeps.historyFile _ file.id)
                (ih hDelete))

theorem deleteOrphanedHistoryFiles
    (hKeeps : IsKeptByDeletions keeps)
    {result : CatalogState × Nat}
    (hDelete :
      Chains.deleteOrphanedHistoryFiles isAccepted s full =
        .ok result) :
    keeps s result.1 := by
  unfold Chains.deleteOrphanedHistoryFiles at hDelete
  split at hDelete
  · cases hDelete
    exact hKeeps.refl s
  · exact hKeeps.deleteHistoryFiles _ hDelete

/- After its segments a cascade deletes backups only. -/
theorem deleteChainBackups
    (hKeeps : IsKeptByDeletions keeps)
    {summary : DeletedSummary}
    {result : CatalogState × DeletedSummary}
    (hDelete :
      Chains.deleteChainBackups isAccepted keepFull
          hasRunningFull full s summary =
        .ok result) :
    keeps s result.1 := by
  unfold Chains.deleteChainBackups at hDelete
  split at hDelete
  · cases hDelete
  · next incrementals hIncrementals =>
      have hFirst : keeps s incrementals.catalog :=
        hKeeps.deleteIncrementalSet _ hIncrementals
      simp only at hDelete
      split at hDelete
      · cases hDelete
        exact hFirst
      · split at hDelete
        · cases hDelete
        · next middle historyFiles hHistory =>
            have hSecond :
                keeps incrementals.catalog middle := by
              split at hHistory
              · cases hHistory
                exact hKeeps.refl _
              · exact hKeeps.deleteOrphanedHistoryFiles hHistory
            split at hDelete
            · cases hDelete
            · next last hLast =>
                have hThird :=
                  hKeeps.deleteBackupArtifactAndRow hLast
                cases hDelete
                exact
                  hKeeps.trans (hKeeps.trans hFirst hSecond)
                    hThird

end IsKeptByDeletions

------------------------------------------------------------
-- Cascades
------------------------------------------------------------

variable {walByteBudgetMB : Rat}

/- The statements of a whole cascade, with its segments. -/
structure IsKeptByCascades
    (keeps : CatalogState → CatalogState → Prop) : Prop
    extends IsKeptByDeletions keeps where
  segment :
    ∀ (s : CatalogState) (id),
      keeps s (s.deleteSegmentByID id)

variable {keeps : CatalogState → CatalogState → Prop}
variable {s s' : CatalogState}
variable {isAccepted keepFull : Bool}

namespace IsKeptByCascades

theorem deleteSegment
    (hKeeps : IsKeptByCascades keeps)
    {segment : WalSegment}
    (hDelete :
      Chains.deleteSegment isAccepted s segment = .ok s') :
    keeps s s' := by
  unfold Chains.deleteSegment at hDelete
  split at hDelete
  · cases hDelete
    exact hKeeps.segment s segment.id
  · split at hDelete
    · cases hDelete
    · next requested hRequest =>
        cases hDelete
        exact
          hKeeps.trans (hKeeps.request hRequest)
            (hKeeps.segment requested segment.id)

theorem deleteWalBatch
    (hKeeps : IsKeptByCascades keeps)
    (segments : List WalSegment) :
    ∀ {progress result : WalDeletion},
      Chains.deleteWalBatch isAccepted walByteBudgetMB
            segments progress =
          .ok result →
        keeps progress.catalog result.catalog := by
  induction segments with
  | nil =>
      intro progress result hDelete
      cases hDelete
      exact hKeeps.refl _
  | cons segment rest ih =>
      intro progress result hDelete
      unfold Chains.deleteWalBatch at hDelete
      split at hDelete
      · cases hDelete
      · next catalog hCatalog =>
          have hFirst := hKeeps.deleteSegment hCatalog
          dsimp only at hDelete
          split at hDelete
          · cases hDelete
            exact hFirst
          · exact hKeeps.trans hFirst (ih hDelete)

theorem deleteWalBatches
    (hKeeps : IsKeptByCascades keeps)
    {query : ContainedWalQuery}
    (fuel : Nat) :
    ∀ {progress result : WalDeletion},
      Chains.deleteWalBatches isAccepted walByteBudgetMB
            query fuel progress =
          .ok result →
        keeps progress.catalog result.catalog := by
  induction fuel with
  | zero =>
      intro progress result hDelete
      cases hDelete
      exact hKeeps.refl _
  | succ fuel ih =>
      intro progress result hDelete
      unfold Chains.deleteWalBatches at hDelete
      dsimp only at hDelete
      split at hDelete
      · cases hDelete
        exact hKeeps.refl _
      · split at hDelete
        · cases hDelete
        · next batch hBatch =>
            have hFirst := hKeeps.deleteWalBatch _ hBatch
            split at hDelete
            · cases hDelete
              exact hFirst
            · split at hDelete
              · cases hDelete
                exact hFirst
              · exact hKeeps.trans hFirst (ih hDelete)

theorem cascadeDelete
    (hKeeps : IsKeptByCascades keeps)
    {rootFullBackupID : Uuid}
    {result : CatalogState × DeletedSummary}
    (hDelete :
      Chains.cascadeDelete isAccepted s rootFullBackupID
          walByteBudgetMB keepFull =
        .ok result) :
    keeps s result.1 := by
  unfold Chains.cascadeDelete at hDelete
  simp only at hDelete
  split at hDelete
  · cases hDelete
    exact hKeeps.refl s
  · split at hDelete
    · cases hDelete
    · exact hKeeps.deleteChainBackups hDelete
    · split at hDelete
      · cases hDelete
      · next wal hWal =>
          have hFirst : keeps s wal.catalog :=
            hKeeps.deleteWalBatches _ hWal
          split at hDelete
          · cases hDelete
            exact hFirst
          · exact
              hKeeps.trans hFirst
                (hKeeps.deleteChainBackups hDelete)

end IsKeptByCascades

end Chains

end Databasus
