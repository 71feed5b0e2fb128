import Databasus.Foundation.Runs
import Databasus.Chains.CascadeRules

/-
  Surviving fulls keep the segments they can replay.

  A deletion loses segments of one span only.  The span of a
  full that goes ends where the next full of the timeline
  starts, and is left alone while an earlier full is there.

  Main declarations:
    * `DeletesOnly`
    * `deletesOnly_cascadeDelete`
    * `system`
    * `StartsAlone`
    * `deletions_spare_replayable_wal`
    * `deleteFullCompletely_performs`
-/

------------------------------------------------------------
-- Segments that a Deletion Loses
------------------------------------------------------------

namespace Databasus

namespace Chains

open Foundation
open Catalog

variable {isAccepted : Bool}
variable {segment : WalSegment}
variable {walByteBudgetMB : Rat}

/- No backup is new, and only selected segments are lost. -/
structure DeletesOnly
    (selects : WalSegment → Bool)
    (before after : CatalogState) : Prop where
  backups : after.backups ⊆ before.backups
  segments : after.segments.Sublist before.segments
  lost :
    ∀ segment ∈ before.segments,
      segment ∉ after.segments → selects segment = true

variable {selects : WalSegment → Bool}
variable {s s' s'' : CatalogState}

theorem DeletesOnly.refl
    (selects : WalSegment → Bool)
    (s : CatalogState) : DeletesOnly selects s s :=
  ⟨List.Subset.refl _, List.Sublist.refl _,
    fun _ hSegment hLost => absurd hSegment hLost⟩

theorem DeletesOnly.trans
    (hFirst : DeletesOnly selects s s')
    (hSecond : DeletesOnly selects s' s'') :
    DeletesOnly selects s s'' := by
  refine ⟨?_, ?_, ?_⟩
  · exact List.Subset.trans hSecond.backups hFirst.backups
  · exact hSecond.segments.trans hFirst.segments
  · intro segment hSegment hLost
    by_cases hMiddle : segment ∈ s'.segments
    · exact hSecond.lost segment hMiddle hLost
    · exact hFirst.lost segment hSegment hMiddle

/- A step that leaves the segments alone. -/
theorem DeletesOnly.of_segments_eq
    (hBackups : s'.backups ⊆ s.backups)
    (hSegments : s'.segments = s.segments) :
    DeletesOnly selects s s' := by
  refine ⟨hBackups, ?_, ?_⟩
  · rw [hSegments]
  · intro segment hSegment hLost
    rw [hSegments] at hLost
    exact absurd hSegment hLost

/- The request for deletions changes no table. -/
theorem requestFileDeletions_tables
    {storageID : Uuid}
    {fileNames : List String}
    (hRequest :
      s.requestFileDeletions isAccepted storageID fileNames =
        .ok s') :
    s'.backups = s.backups ∧ s'.segments = s.segments := by
  unfold CatalogState.requestFileDeletions at hRequest
  split at hRequest
  · cases hRequest
    exact ⟨rfl, rfl⟩
  · cases hRequest

/- Deleting a segment takes its one row from the table. -/
theorem deleteSegment_tables
    (hDelete :
      deleteSegment isAccepted s segment = .ok s') :
    s'.backups = s.backups ∧
      s'.segments =
        Table.deleteWhere (fun row => row.id = segment.id)
          s.segments := by
  unfold deleteSegment at hDelete
  split at hDelete
  · cases hDelete
    exact ⟨rfl, rfl⟩
  · split at hDelete
    · cases hDelete
    · next requested hRequest =>
        rcases requestFileDeletions_tables hRequest with
          ⟨hBackups, hSegments⟩
        cases hDelete
        refine ⟨hBackups, ?_⟩
        unfold CatalogState.deleteSegmentByID
        rw [hSegments]

/- The row under the id of a selected segment is selected. -/
theorem deletesOnly_deleteSegment
    (hUnique : Table.UniqueBy WalSegment.id s.segments)
    (hSegment : segment ∈ s.segments)
    (hSelects : selects segment = true)
    (hBefore : DeletesOnly selects s s')
    (hDelete :
      deleteSegment isAccepted s' segment = .ok s'') :
    DeletesOnly selects s s'' := by
  rcases deleteSegment_tables hDelete with
    ⟨hBackups, hSegments⟩
  apply hBefore.trans
  refine ⟨?_, ?_, ?_⟩
  · rw [hBackups]
    exact List.Subset.refl _
  · rw [hSegments]
    exact List.filter_sublist
  · intro row hRow hLost
    have hSame : row.id = segment.id := by
      by_contra hOther
      apply hLost
      rw [hSegments, Table.mem_deleteWhere_iff]
      exact ⟨hRow, decide_eq_false hOther⟩
    have hRowBefore : row ∈ s.segments :=
      hBefore.segments.subset hRow
    rw [hUnique.eq_of_key_eq hRowBefore hSegment hSame]
    exact hSelects

/- A batch loses the segments it consists of. -/
theorem deletesOnly_deleteWalBatch
    (hUnique : Table.UniqueBy WalSegment.id s.segments)
    (batch : List WalSegment) :
    ∀ {progress result : WalDeletion},
      (∀ segment ∈ batch,
        segment ∈ s.segments ∧ selects segment = true) →
      DeletesOnly selects s progress.catalog →
      deleteWalBatch isAccepted walByteBudgetMB batch
          progress =
        .ok result →
      DeletesOnly selects s result.catalog := by
  induction batch with
  | nil =>
      intro progress result _ hBefore hDelete
      cases hDelete
      exact hBefore
  | cons segment rest ih =>
      intro progress result hBatch hBefore hDelete
      rcases hBatch segment List.mem_cons_self with
        ⟨hSegment, hSelects⟩
      unfold deleteWalBatch at hDelete
      split at hDelete
      · cases hDelete
      · next catalog hCatalog =>
          have hAfter :=
            deletesOnly_deleteSegment hUnique hSegment
              hSelects hBefore hCatalog
          simp only at hDelete
          split at hDelete
          · cases hDelete
            exact hAfter
          · refine ih ?_ ?_ hDelete
            · intro other hOther
              exact hBatch other (List.mem_cons_of_mem _ hOther)
            · exact hAfter

/- Each batch consists of segments that the query selects. -/
theorem deletesOnly_deleteWalBatches
    {query : ContainedWalQuery}
    (hUnique : Table.UniqueBy WalSegment.id s.segments)
    (fuel : Nat) :
    ∀ {progress result : WalDeletion},
      DeletesOnly query.isContained s progress.catalog →
      deleteWalBatches isAccepted walByteBudgetMB query fuel
          progress =
        .ok result →
      DeletesOnly query.isContained s result.catalog := by
  induction fuel with
  | zero =>
      intro progress result hBefore hDelete
      cases hDelete
      exact hBefore
  | succ fuel ih =>
      intro progress result hBefore hDelete
      have hBatch :
          ∀ segment ∈
              findContained progress.catalog.segments query,
            segment ∈ s.segments ∧
              query.isContained segment = true := by
        intro segment hFound
        rcases mem_of_mem_findContained hFound with
          ⟨hSegment, hContained⟩
        exact ⟨hBefore.segments.subset hSegment, hContained⟩
      unfold deleteWalBatches at hDelete
      simp only at hDelete
      split at hDelete
      · cases hDelete
        exact hBefore
      · split at hDelete
        · cases hDelete
        · next deleted hDeleted =>
            have hAfter :=
              deletesOnly_deleteWalBatch hUnique _ hBatch
                hBefore hDeleted
            split at hDelete
            · cases hDelete
              exact hAfter
            · split at hDelete
              · cases hDelete
                exact hAfter
              · exact ih hAfter hDelete

------------------------------------------------------------
-- Backups that a Cascade Deletes
------------------------------------------------------------

/- Backups may go, and the segments stay. -/
def KeepsSegments
    (before after : CatalogState) : Prop :=
  after.backups ⊆ before.backups ∧
    after.segments = before.segments

variable {s s' s'' : CatalogState}

theorem KeepsSegments.trans
    (hFirst : KeepsSegments s s')
    (hSecond : KeepsSegments s' s'') :
    KeepsSegments s s'' :=
  ⟨List.Subset.trans hSecond.1 hFirst.1,
    hSecond.2.trans hFirst.2⟩

/- A cascade's statements about backups keep segments. -/
theorem keepsSegments_rules :
    IsKeptByDeletions KeepsSegments where
  refl _ := ⟨List.Subset.refl _, rfl⟩
  trans := KeepsSegments.trans
  request := by
    intro s s' _ _ _ hRequest
    rcases requestFileDeletions_tables hRequest with
      ⟨hBackups, hSegments⟩
    refine ⟨?_, hSegments⟩
    rw [hBackups]
    exact List.Subset.refl _
  backup := by
    intro s s' _ hDelete
    unfold CatalogState.deleteBackupByID at hDelete
    split at hDelete
    · cases hDelete
    · cases hDelete
      exact ⟨List.filter_sublist.subset, rfl⟩
  historyFile _ _ := ⟨List.Subset.refl _, rfl⟩

------------------------------------------------------------
-- The Span that a Deletion Works on
------------------------------------------------------------

open Walmath (LSN)

variable {rootFullBackupID : Uuid}
variable {result : CatalogState × DeletedSummary}

/- The segments of a full that start and end in its span. -/
def isOwnedBy
    (backups : List Backup)
    (full : Backup)
    (startLSN : LSN)
    (segment : WalSegment) : Bool :=
  ContainedWalQuery.isContained
    { databaseID := full.databaseID
      timelineID := full.timelineID
      span := getOwnershipSpan backups full startLSN
      limit := maxWalDeleteBatchRows }
    segment

variable {s : CatalogState}

/- A full's plan has a span when it is its timeline's first. -/
theorem getFullRemovalWalPlan_span
    {backups : List Backup}
    {full : Backup}
    {span : LSNRange}
    {hasRunningFull : Bool}
    (hPlan :
      getFullRemovalWalPlan backups full =
        { span := some span
          hasRunningFull := hasRunningFull }) :
    hasRunningFullBackup backups full.databaseID = false ∧
      ∃ startLSN,
        full.startLSN = some startLSN ∧
          hasCompletedFullBefore backups full startLSN =
              false ∧
            span =
              getOwnershipSpan backups full startLSN := by
  unfold getFullRemovalWalPlan at hPlan
  split at hPlan
  · cases hPlan
  · next hRunning =>
      rw [Bool.not_eq_true] at hRunning
      refine ⟨hRunning, ?_⟩
      split at hPlan
      · cases hPlan
      · next startLSN hStart =>
          split at hPlan
          · cases hPlan
          · next hBefore =>
              rw [Bool.not_eq_true] at hBefore
              cases hPlan
              exact ⟨startLSN, hStart, hBefore, rfl⟩

/- Deleting a full loses no segment but those of its span. -/
theorem deletesOnly_deleteFull
    (hUnique : Table.UniqueBy WalSegment.id s.segments)
    (hDelete :
      deleteFull isAccepted s rootFullBackupID
          walByteBudgetMB =
        .ok result) :
    DeletesOnly (fun _ => false) s result.1 ∨
      ∃ full ∈ s.backups, ∃ startLSN,
        full.id = rootFullBackupID ∧
          full.startLSN = some startLSN ∧
            hasRunningFullBackup s.backups full.databaseID =
                false ∧
              hasCompletedFullBefore s.backups full
                  startLSN =
                false ∧
                DeletesOnly
                  (isOwnedBy s.backups full startLSN)
                  s result.1 := by
  unfold deleteFull cascadeDelete at hDelete
  simp only [getWalPlan, Bool.false_eq_true,
    if_false] at hDelete
  split at hDelete
  · cases hDelete
    exact Or.inl (DeletesOnly.refl _ s)
  · next full hFound =>
      rcases Table.lookup_some hFound with ⟨hFull, hID⟩
      split at hDelete
      · next hError => cases hError
      · next hasRunningFull hPlan =>
          have hKeeps :=
            keepsSegments_rules.deleteChainBackups hDelete
          exact
            Or.inl
              (DeletesOnly.of_segments_eq hKeeps.1 hKeeps.2)
      · next span hasRunningFull hPlan =>
          right
          rcases
              getFullRemovalWalPlan_span
                (Except.ok.inj hPlan) with
            ⟨hRunning, startLSN, hStart, hBefore, rfl⟩
          refine
            ⟨full, hFull, startLSN, hID, hStart, hRunning,
              hBefore, ?_⟩
          split at hDelete
          · cases hDelete
          · next wal hWal =>
              have hWalOnly :
                  DeletesOnly
                    (isOwnedBy s.backups full startLSN) s
                    wal.catalog :=
                deletesOnly_deleteWalBatches hUnique _
                  (DeletesOnly.refl _ s) hWal
              split at hDelete
              · cases hDelete
                exact hWalOnly
              · have hKeeps :=
                  keepsSegments_rules.deleteChainBackups hDelete
                exact
                  hWalOnly.trans
                    (DeletesOnly.of_segments_eq hKeeps.1
                      hKeeps.2)

/- Every cascade only takes segments away. -/
theorem sublist_cascadeDelete
    {isAccepted keepFull : Bool}
    (hUnique : Table.UniqueBy WalSegment.id s.segments)
    (hDelete :
      cascadeDelete isAccepted s rootFullBackupID
          walByteBudgetMB keepFull =
        .ok result) :
    result.1.segments.Sublist s.segments := by
  unfold cascadeDelete at hDelete
  simp only at hDelete
  split at hDelete
  · cases hDelete
    exact List.Sublist.refl _
  · split at hDelete
    · cases hDelete
    · have hKeeps := keepsSegments_rules.deleteChainBackups hDelete
      rw [hKeeps.2]
    · split at hDelete
      · cases hDelete
      · next wal hWal =>
          have hWalOnly :=
            deletesOnly_deleteWalBatches hUnique _
              (DeletesOnly.refl _ s) hWal
          split at hDelete
          · cases hDelete
            exact hWalOnly.segments
          · have hKeeps :=
              keepsSegments_rules.deleteChainBackups hDelete
            rw [hKeeps.2]
            exact hWalOnly.segments

/- A sweep works on a span that no completed full covers. -/
theorem deletesOnly_deleteOrphanWalSegmentsInSpan
    {spec : DeleteOrphanWalSegmentsSpec}
    {result : WalDeletion}
    (hUnique : Table.UniqueBy WalSegment.id s.segments)
    (hDelete :
      deleteOrphanWalSegmentsInSpan isAccepted s spec =
        .ok result) :
    DeletesOnly (fun _ => false) s result.catalog ∨
      hasCompletedFullBackupCoveringWal s.backups
            spec.databaseID spec.timelineID
            spec.span.endLSN =
          false ∧
        DeletesOnly
          (ContainedWalQuery.isContained
            { databaseID := spec.databaseID
              timelineID := spec.timelineID
              span := spec.span
              limit := maxWalDeleteBatchRows })
          s result.catalog := by
  unfold deleteOrphanWalSegmentsInSpan at hDelete
  split at hDelete
  · cases hDelete
    exact Or.inl (DeletesOnly.refl _ s)
  · split at hDelete
    · cases hDelete
      exact Or.inl (DeletesOnly.refl _ s)
    · next hCovering =>
        rw [Bool.not_eq_true] at hCovering
        refine Or.inr ⟨hCovering, ?_⟩
        exact
          deletesOnly_deleteWalBatches hUnique _
            (DeletesOnly.refl _ s) hDelete

------------------------------------------------------------
-- Deletions and Sweeps in any Order
------------------------------------------------------------

/-
  Transactions on the catalog.  The last stands for all that
  is neither a deletion nor a sweep: backups and uploads run
  between any two of them.
-/
inductive Action
  | deleteFull
      (isAccepted : Bool)
      (rootFullBackupID : Uuid)
      (walByteBudgetMB : Rat)
  | deleteChainDependentsKeepFull
      (isAccepted : Bool)
      (rootFullBackupID : Uuid)
      (walByteBudgetMB : Rat)
  | deleteOrphanWalSegmentsInSpan
      (isAccepted : Bool)
      (spec : DeleteOrphanWalSegmentsSpec)
  | others (catalog : CatalogState)
deriving DecidableEq

/- A transaction that fails leaves the catalog as it was. -/
def settle
    (s : CatalogState) :
    Except ChainError CatalogState → CatalogState
  | .ok catalog => catalog
  | .error _ => s

def step
    (s : CatalogState) : Action → Option CatalogState
  | .deleteFull isAccepted id walByteBudgetMB =>
      some
        (settle s
          ((deleteFull isAccepted s id walByteBudgetMB).map
            Prod.fst))
  | .deleteChainDependentsKeepFull isAccepted id
        walByteBudgetMB =>
      some
        (settle s
          ((deleteChainDependentsKeepFull isAccepted s id
            walByteBudgetMB).map Prod.fst))
  | .deleteOrphanWalSegmentsInSpan isAccepted spec =>
      some
        (settle s
          ((deleteOrphanWalSegmentsInSpan isAccepted s
            spec).map WalDeletion.catalog))
  | .others catalog =>
      if MeetsConstraints catalog then
        some catalog
      else
        none

def system : TransitionSystem CatalogState Action where
  initial := MeetsConstraints
  step := step

/- The full starts below the end of the segment. -/
def Replays
    (full : Backup)
    (segment : WalSegment) : Prop :=
  isCompletedFullOn segment.databaseID segment.timelineID
      full =
    true ∧ startsBefore segment.endLSN full = true

instance instDecidableReplays
    (full : Backup)
    (segment : WalSegment) :
    Decidable (Replays full segment) :=
  inferInstanceAs (Decidable (_ ∧ _))

/- No full that stays could replay a segment that went. -/
def LosesNoReplayableWal
    (isTarget : Backup → Bool)
    (before after : CatalogState) : Prop :=
  ∀ segment ∈ before.segments,
    segment ∉ after.segments →
      ∀ full ∈ after.backups,
        isTarget full = false → ¬ Replays full segment

instance instDecidableLosesNoReplayableWal
    (isTarget : Backup → Bool)
    (before after : CatalogState) :
    Decidable
      (LosesNoReplayableWal isTarget before after) :=
  inferInstanceAs
    (Decidable (∀ segment ∈ before.segments, _ → _))

/-
  A deletion of a full and a sweep spare what other fulls can
  replay.  To keep a full without its segments is to ask for
  their loss.
-/
def SparesReplayableWal
    (s : CatalogState)
    (action : Action) : Prop :=
  ∀ s' ∈ step s action,
    match action with
    | .deleteFull _ id _ =>
        LosesNoReplayableWal (fun full => full.id = id) s s'
    | .deleteOrphanWalSegmentsInSpan _ _ =>
        LosesNoReplayableWal (fun _ => false) s s'
    | .deleteChainDependentsKeepFull _ _ _ => True
    | .others _ => True

instance instDecidableSparesReplayableWal
    (s : CatalogState)
    (action : Action) :
    Decidable (SparesReplayableWal s action) := by
  unfold SparesReplayableWal
  cases action <;> infer_instance

/-
  No other completed full starts where the full does, or its
  deletion has no segment to delete.
-/
def StartsAlone
    (s : CatalogState)
    (full : Backup)
    (startLSN : LSN) : Prop :=
  (∀ twin ∈ s.backups,
      isCompletedFullOn full.databaseID full.timelineID
          twin =
        true →
      twin.id ≠ full.id → twin.startLSN ≠ some startLSN) ∨
    hasRunningFullBackup s.backups full.databaseID = true ∨
      hasCompletedFullBefore s.backups full startLSN = true ∨
        ∀ segment ∈ s.segments,
          isOwnedBy s.backups full startLSN segment = false

instance instDecidableStartsAlone
    (s : CatalogState)
    (full : Backup)
    (startLSN : LSN) :
    Decidable (StartsAlone s full startLSN) :=
  inferInstanceAs
    (Decidable ((∀ twin ∈ s.backups, _ → _ → _) ∨ _))

/- Only the deletion of a full has to meet a condition. -/
def DeletesLoneStart
    (s : CatalogState) : Action → Prop
  | .deleteFull _ id _ =>
      ∀ full ∈ s.backups,
        full.id = id →
          ∀ startLSN ∈ full.startLSN,
            StartsAlone s full startLSN
  | _ => True

instance instDecidableDeletesLoneStart
    (s : CatalogState)
    (action : Action) :
    Decidable (DeletesLoneStart s action) := by
  unfold DeletesLoneStart
  cases action <;> infer_instance

------------------------------------------------------------
-- Surviving Fulls Keep their Segments
------------------------------------------------------------

variable {isTarget : Backup → Bool}

theorem losesNoReplayableWal_of_keeps
    (hKeeps : DeletesOnly (fun _ => false) s s') :
    LosesNoReplayableWal isTarget s s' := by
  intro segment hSegment hLost
  exact
    absurd (hKeeps.lost segment hSegment hLost)
      Bool.false_ne_true

theorem losesNoReplayableWal_self :
    LosesNoReplayableWal isTarget s s :=
  losesNoReplayableWal_of_keeps (DeletesOnly.refl _ s)

/-
  A full that is not the target starts below the target, at
  its start, or after it.  Only the first two could replay
  the target's own segments.
-/
theorem not_replays_of_isOwnedBy
    {full other : Backup}
    {startLSN : LSN}
    {segment : WalSegment}
    (hOther : other ∈ s.backups)
    (hBefore :
      hasCompletedFullBefore s.backups full startLSN = false)
    (hTwin :
      isCompletedFullOn full.databaseID full.timelineID
          other =
        true → other.startLSN ≠ some startLSN)
    (hOwned :
      isOwnedBy s.backups full startLSN segment = true) :
    ¬ Replays other segment := by
  rintro ⟨hCompleted, hStarts⟩
  simp only [isOwnedBy, ContainedWalQuery.isContained,
    Bool.and_eq_true, decide_eq_true_eq] at hOwned
  rcases hOwned with
    ⟨⟨⟨hDatabase, hTimeline⟩, hStart⟩, hEnd⟩
  rw [hDatabase, hTimeline] at hCompleted
  unfold startsBefore at hStarts
  cases hLSN : other.startLSN with
  | none => simp [hLSN] at hStarts
  | some otherLSN =>
      simp only [hLSN, Option.any_some,
        decide_eq_true_eq] at hStarts
      rcases Nat.lt_trichotomy otherLSN startLSN with
        hBelow | hSame | hAbove
      · have hEarlier :
            hasCompletedFullBefore s.backups full startLSN =
              true := by
          unfold hasCompletedFullBefore
          rw [List.any_eq_true]
          refine ⟨other, hOther, ?_⟩
          simp [hCompleted, startsBefore, hLSN, hBelow]
        rw [hBefore] at hEarlier
        cases hEarlier
      · apply hTwin hCompleted
        rw [hLSN, hSame]
      · have hNext :=
          getOwnershipSpan_end_le hOther hCompleted hLSN
            hAbove
        have hBelow : otherLSN < otherLSN :=
          Nat.lt_of_lt_of_le hStarts
            (Nat.le_trans hEnd hNext)
        exact Nat.lt_irrefl _ hBelow

/- A deletion that meets its condition spares the others. -/
theorem sparesReplayableWal_deleteFull
    {id : Uuid}
    {walByteBudgetMB : Rat}
    (hUnique : Table.UniqueBy WalSegment.id s.segments)
    (hAlone :
      DeletesLoneStart s
        (.deleteFull isAccepted id walByteBudgetMB)) :
    SparesReplayableWal s
      (.deleteFull isAccepted id walByteBudgetMB) := by
  intro s' hStep
  rw [Option.mem_def] at hStep
  simp only [step, Option.some.injEq] at hStep
  subst hStep
  cases hDelete :
      deleteFull isAccepted s id walByteBudgetMB with
  | error error => exact losesNoReplayableWal_self
  | ok result =>
      change
        LosesNoReplayableWal (fun full => full.id = id) s
          result.1
      rcases deletesOnly_deleteFull hUnique hDelete with
        hKeeps |
          ⟨full, hFull, startLSN, hID, hStart, hRunning,
            hBefore, hOnly⟩
      · exact losesNoReplayableWal_of_keeps hKeeps
      · intro segment hSegment hLost other hOther hTarget
        have hOwned := hOnly.lost segment hSegment hLost
        have hOtherID : other.id ≠ full.id := by
          rw [hID]
          exact of_decide_eq_false hTarget
        apply
          not_replays_of_isOwnedBy (hOnly.backups hOther)
            hBefore _ hOwned
        intro hCompleted
        rcases hAlone full hFull hID startLSN hStart with
          hNoTwin | hRuns | hEarlier | hNone
        · exact
            hNoTwin other (hOnly.backups hOther) hCompleted
              hOtherID
        · rw [hRunning] at hRuns
          cases hRuns
        · rw [hBefore] at hEarlier
          cases hEarlier
        · rw [hNone segment hSegment] at hOwned
          cases hOwned

/- A sweep spares every completed full. -/
theorem sparesReplayableWal_deleteOrphanWalSegmentsInSpan
    {spec : DeleteOrphanWalSegmentsSpec}
    (hUnique : Table.UniqueBy WalSegment.id s.segments) :
    SparesReplayableWal s
      (.deleteOrphanWalSegmentsInSpan isAccepted spec) := by
  intro s' hStep
  rw [Option.mem_def] at hStep
  simp only [step, Option.some.injEq] at hStep
  subst hStep
  cases hDelete :
      deleteOrphanWalSegmentsInSpan isAccepted s spec with
  | error error => exact losesNoReplayableWal_self
  | ok result =>
      change
        LosesNoReplayableWal (fun _ => false) s
          result.catalog
      rcases
          deletesOnly_deleteOrphanWalSegmentsInSpan hUnique
            hDelete with
        hKeeps | ⟨hCovering, hOnly⟩
      · exact losesNoReplayableWal_of_keeps hKeeps
      · rintro segment hSegment hLost full hFull _
          ⟨hCompleted, hStarts⟩
        have hContained := hOnly.lost segment hSegment hLost
        simp only [ContainedWalQuery.isContained,
          Bool.and_eq_true,
          decide_eq_true_eq] at hContained
        rcases hContained with
          ⟨⟨⟨hDatabase, hTimeline⟩, _⟩, hEnd⟩
        have hCovers :
            hasCompletedFullBackupCoveringWal s.backups
                spec.databaseID spec.timelineID
                spec.span.endLSN =
              true := by
          unfold hasCompletedFullBackupCoveringWal
          rw [List.any_eq_true]
          refine ⟨full, hOnly.backups hFull, ?_⟩
          rw [Bool.and_eq_true]
          refine ⟨?_, startsBefore_mono hEnd hStarts⟩
          rw [← hDatabase, ← hTimeline]
          exact hCompleted
        rw [hCovering] at hCovers
        cases hCovers

/- Every transaction keeps the ids of segments unique. -/
theorem uniqueSegmentIDs_step
    (action : Action)
    (hUnique : Table.UniqueBy WalSegment.id s.segments)
    (hStep : step s action = some s') :
    Table.UniqueBy WalSegment.id s'.segments := by
  have hSublist :
      ∀ after : CatalogState,
        after.segments.Sublist s.segments →
          Table.UniqueBy WalSegment.id after.segments :=
    fun after hSegments =>
      List.Nodup.sublist (hSegments.map _) hUnique
  cases action with
  | deleteFull isAccepted id walByteBudgetMB =>
      simp only [step, Option.some.injEq] at hStep
      subst hStep
      apply hSublist
      cases hDelete :
          deleteFull isAccepted s id walByteBudgetMB with
      | error error => exact List.Sublist.refl _
      | ok result => exact sublist_cascadeDelete hUnique hDelete
  | deleteChainDependentsKeepFull isAccepted id
        walByteBudgetMB =>
      simp only [step, Option.some.injEq] at hStep
      subst hStep
      apply hSublist
      cases hDelete :
          deleteChainDependentsKeepFull isAccepted s id
            walByteBudgetMB with
      | error error => exact List.Sublist.refl _
      | ok result => exact sublist_cascadeDelete hUnique hDelete
  | deleteOrphanWalSegmentsInSpan isAccepted spec =>
      simp only [step, Option.some.injEq] at hStep
      subst hStep
      apply hSublist
      cases hDelete :
          deleteOrphanWalSegmentsInSpan isAccepted s spec with
      | error error => exact List.Sublist.refl _
      | ok result =>
          rcases
              deletesOnly_deleteOrphanWalSegmentsInSpan
                hUnique hDelete with
            hKeeps | ⟨_, hOnly⟩
          · exact hKeeps.segments
          · exact hOnly.segments
  | others catalog =>
      simp only [step] at hStep
      split at hStep
      · next hConstraints =>
          rw [← Option.some.inj hStep]
          exact hConstraints.segmentIDs
      · cases hStep

/-
  In every run whose deletions of fulls meet their condition,
  with anything else between them, no deletion and no sweep
  takes a segment that a full which stays could replay.
-/
theorem deletions_spare_replayable_wal
    {s : CatalogState}
    (hReachable : system.ReachableWhile DeletesLoneStart s)
    (action : Action)
    (hAlone : DeletesLoneStart s action) :
    SparesReplayableWal s action := by
  have hUnique : Table.UniqueBy WalSegment.id s.segments := by
    clear hAlone
    induction hReachable with
    | initial hStart => exact hStart.segmentIDs
    | step _ _ hTaken ih =>
        exact uniqueSegmentIDs_step _ ih hTaken
  cases action with
  | deleteFull isAccepted id walByteBudgetMB =>
      exact sparesReplayableWal_deleteFull hUnique hAlone
  | deleteChainDependentsKeepFull => exact fun _ _ => trivial
  | deleteOrphanWalSegmentsInSpan isAccepted spec =>
      exact
        sparesReplayableWal_deleteOrphanWalSegmentsInSpan
          hUnique
  | others catalog => exact fun _ _ => trivial

def sampleFull
    (id : Uuid)
    (startLSN : LSN) : Backup :=
  { id := id
    databaseID := 1
    storageID := 1
    kind := .full
    timelineID := 1
    status := .completed
    fileName := some "full"
    startLSN := some startLSN
    stopLSN := some (startLSN + 8)
    createdAt := 0
    completedAt := some 10 }

def sampleSegment
    (id : Uuid)
    (startLSN : LSN) : WalSegment :=
  { id := id
    databaseID := 1
    storageID := 1
    timelineID := 1
    fileName := some "segment"
    walFilename := "segment"
    startLSN := startLSN
    endLSN := startLSN + 16
    compressedSizeMb := 1
    receivedAt := 0
    claimedAt := 0 }

/- Two fulls, and a segment that only the first can replay. -/
def sampleCatalog : CatalogState :=
  { backups := [sampleFull 1 16, sampleFull 2 40]
    segments := [sampleSegment 1 16, sampleSegment 2 32]
    historyFiles := []
    requested := [] }

theorem sampleCatalog_initial :
    system.initial sampleCatalog := by
  change MeetsConstraints sampleCatalog
  decide

/- The first full goes with a segment, in two deletions. -/
theorem split_deletion_spares_next_full :
    SparesReplayableWal
      (system.outcome sampleCatalog
        [.deleteFull true 1 1])
      (.deleteFull true 1 1) :=
  deletions_spare_replayable_wal
    (TransitionSystem.reachableWhile_outcome
      sampleCatalog_initial (by decide +kernel))
    (.deleteFull true 1 1) (by decide +kernel)

/- Two fulls that start at the same position. -/
def sampleTwins : CatalogState :=
  { sampleCatalog with
    backups := [sampleFull 1 16, sampleFull 2 16] }

theorem twin_full_loses_segments :
    ¬ ∀ (s : CatalogState),
        system.Reachable s →
          ∀ action, SparesReplayableWal s action := by
  intro hAlways
  have hInitial : system.initial sampleTwins := by
    change MeetsConstraints sampleTwins
    decide
  have hSpares :=
    hAlways sampleTwins (.initial hInitial)
      (.deleteFull true 1 unboundedWalBudgetMB)
  revert hSpares
  decide +kernel

end Chains

end Databasus
