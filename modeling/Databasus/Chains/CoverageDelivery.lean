import Databasus.Chains.WalRun

/-
  When restores deliver the coverage that is shown.

  At each instant one backup is the one restores start from:
  the newest full by then, or the last incremental of its
  chain by then.  The coverage ranges over the newest chain's
  backups alone, each with its own run of segments.

  Main declarations:
    * `RestorePoint`
    * `restorePoints`
    * `resolveRestoreSet_ok_iff`
    * `AdvertisesWhatIsChosen`
    * `coverage_delivered_iff`
-/

------------------------------------------------------------
-- Backups a Restore Starts from
------------------------------------------------------------

namespace Databasus

namespace Chains

open Foundation
open Catalog
open Walmath (LSN)

/- An incremental to restore from has been completed. -/
def incrementalAnchor
    (incremental : Backup) : Option RestoreAnchor :=
  match
    incremental.status, incremental.stopLSN,
    incremental.completedAt
  with
  | .completed, some stopLSN, some completedAt =>
      some
        { stopLSN := stopLSN
          completedAt := completedAt }
  | _, _, _ => none

def fullAnchor
    (chain : ChainView) : RestoreAnchor :=
  { stopLSN := chain.rootFull.stopLSN.getD 0
    completedAt := derefTime chain.rootFull.completedAt }

def chainAnchors
    (chain : ChainView) : List RestoreAnchor :=
  fullAnchor chain ::
    chain.incrementals.filterMap incrementalAnchor

/- The anchor does not come after the target. -/
def isAnchorBy
    (target : Option Time)
    (anchor : RestoreAnchor) : Bool :=
  !target.any fun target => target < anchor.completedAt

/- The last of the anchors by the target, in their order. -/
def lastAnchorBy
    (target : Option Time)
    (anchors : List RestoreAnchor)
    (first : RestoreAnchor) : RestoreAnchor :=
  (anchors.filter (isAnchorBy target)).getLast?.getD first

theorem getLast?_cons_getD
    {α : Type}
    (first default : α)
    (rest : List α) :
    (first :: rest).getLast?.getD default =
      rest.getLast?.getD first := by
  cases rest with
  | nil => rfl
  | cons next rest =>
      rw [List.getLast?_cons_cons]
      cases hLast : (next :: rest).getLast? with
      | none => simp at hLast
      | some last => rfl

/- The inclusion ends at the last anchor by the target. -/
theorem includeIncrementals_eq
    (target : Option Time)
    (incrementals : List Backup) :
    ∀ included : IncludedBackups,
      includeIncrementals target incrementals included =
        let last :=
          lastAnchorBy target
            (incrementals.filterMap incrementalAnchor)
            { stopLSN := included.lastStopLSN
              completedAt := included.lastBackupTime }
        { incrementals :=
            included.incrementals ++
              incrementals.filter fun incremental =>
                (incrementalAnchor incremental).any
                  (isAnchorBy target)
          lastStopLSN := last.stopLSN
          lastBackupTime := last.completedAt } := by
  induction incrementals with
  | nil =>
      intro included
      simp [includeIncrementals, lastAnchorBy]
  | cons incremental rest ih =>
      intro included
      unfold includeIncrementals
      split
      · next stopLSN completedAt hStatus hStop hCompleted =>
          have hAnchor :
              incrementalAnchor incremental =
                some
                  { stopLSN := stopLSN
                    completedAt := completedAt } := by
            simp [incrementalAnchor, hStatus, hStop,
              hCompleted]
          split
          · next hLater =>
              have hNotBy :
                  isAnchorBy target
                      { stopLSN := stopLSN
                        completedAt := completedAt } =
                    false := by
                simp [isAnchorBy, hLater]
              rw [ih]
              simp [hAnchor, hNotBy, lastAnchorBy]
          · next hBy =>
              have hIsBy :
                  isAnchorBy target
                      { stopLSN := stopLSN
                        completedAt := completedAt } =
                    true := by
                simp [isAnchorBy, hBy]
              rw [ih]
              simp only [lastAnchorBy, hAnchor, hIsBy,
                List.filterMap_cons, List.filter_cons,
                Option.any_some, if_true,
                getLast?_cons_getD, List.append_assoc,
                List.singleton_append]
      · next hOther =>
          have hAnchor :
              incrementalAnchor incremental = none := by
            unfold incrementalAnchor
            split
            · next stopLSN completedAt hStatus hStop
                  hCompleted =>
                exact
                  absurd hCompleted
                    (hOther stopLSN completedAt hStatus hStop)
            · rfl
          rw [ih]
          simp [hAnchor]

/- The full's own anchor counts when no other is by then. -/
theorem includedIncrementals_eq
    (chain : ChainView)
    {fullStopLSN : LSN}
    (hStop : chain.rootFull.stopLSN = some fullStopLSN)
    (target : Option Time) :
    let last :=
      lastAnchorBy target
        (chain.incrementals.filterMap incrementalAnchor)
        (fullAnchor chain)
    includedIncrementals chain fullStopLSN target =
      { incrementals :=
          chain.incrementals.filter fun incremental =>
            (incrementalAnchor incremental).any
              (isAnchorBy target)
        lastStopLSN := last.stopLSN
        lastBackupTime := last.completedAt } := by
  unfold includedIncrementals
  rw [includeIncrementals_eq]
  simp [fullAnchor, hStop]

/- A latest restore includes every anchor of its chain. -/
theorem getRestoreAnchors_latest
    (chain : ChainView)
    (lastStopLSN : LSN)
    (walSegments : List WalSegment)
    (walRun : WalRun) :
    getRestoreAnchors
        { chain := chain
          incrementals :=
            chain.incrementals.filter fun incremental =>
              (incrementalAnchor incremental).any
                (isAnchorBy none)
          lastStopLSN := lastStopLSN
          walSegments := walSegments
          walRun := walRun } =
      chainAnchors chain := by
  unfold getRestoreAnchors chainAnchors fullAnchor
  simp only
  congr 1
  induction chain.incrementals with
  | nil => rfl
  | cons incremental rest ih =>
      cases hAnchor : incrementalAnchor incremental with
      | none => simpa [hAnchor] using ih
      | some anchor =>
          have hValues :
              ({ stopLSN := incremental.stopLSN.getD 0
                 completedAt :=
                   incremental.completedAt.getD zeroTime } :
                RestoreAnchor) =
                anchor := by
            unfold incrementalAnchor at hAnchor
            split at hAnchor
            · next hStop hCompleted =>
                rw [hStop, hCompleted]
                exact Option.some.inj hAnchor
            · cases hAnchor
          simpa [hAnchor, isAnchorBy, hValues] using ih

------------------------------------------------------------
-- Restore Points
------------------------------------------------------------

/-
  A backup, from when on restores start from it, which
  instants hand over to another one, and how far its log
  can be replayed.
-/
structure RestorePoint where
  since : Time
  takenOverAt : List Time
  replayableUntil : Time
deriving DecidableEq, Repr

/- Restores to the instant start from the point's backup. -/
def RestorePoint.IsChosenAt
    (point : RestorePoint)
    (target : Time) : Prop :=
  point.since ≤ target ∧
    ∀ takeover ∈ point.takenOverAt, target < takeover

/-
  Wherever the point is chosen between two instants, its log
  reaches: it reaches the second, or the point is taken over
  by the first instant past its reach.
-/
def RestorePoint.Covers
    (point : RestorePoint)
    (lower upper : Time) : Prop :=
  point.since ≤ upper →
    (∀ takeover ∈ point.takenOverAt,
      lower < takeover ∧ point.since < takeover) →
    upper ≤ point.replayableUntil ∨
      ∃ takeover ∈ point.takenOverAt,
        takeover ≤ point.replayableUntil + 1

instance instDecidableCovers
    (point : RestorePoint)
    (lower upper : Time) :
    Decidable (point.Covers lower upper) :=
  inferInstanceAs (Decidable (_ → _ → _))

/- An anchor gives way to newer fulls and later anchors. -/
def chainPoints
    (newerFulls : List Time)
    (fullCompletedAt : Time)
    (segments : List WalSegment) :
    List RestoreAnchor → List RestorePoint
  | [] => []
  | anchor :: later =>
      { since := max fullCompletedAt anchor.completedAt
        takenOverAt :=
          newerFulls ++ later.map RestoreAnchor.completedAt
        replayableUntil := replayableUntil segments anchor } ::
        chainPoints newerFulls fullCompletedAt segments later

/- The points of chains, of which the newest come first. -/
def restorePoints
    (segments : List WalSegment)
    (databaseID : Uuid)
    (newerFulls : List Time) :
    List ChainView → List RestorePoint
  | [] => []
  | chain :: older =>
      chainPoints newerFulls (fullAnchor chain).completedAt
          (chainSegments segments databaseID chain)
          (chainAnchors chain) ++
        restorePoints segments databaseID
          (newerFulls ++ [(fullAnchor chain).completedAt])
          older

/- The condition on a point, instant by instant. -/
theorem RestorePoint.covers_iff
    (point : RestorePoint)
    {lower upper : Time}
    (hOrder : lower ≤ upper) :
    point.Covers lower upper ↔
      ∀ target, lower ≤ target → target ≤ upper →
        point.IsChosenAt target →
          target ≤ point.replayableUntil := by
  constructor
  · rintro hCovers target hLower hUpper ⟨hSince, hBefore⟩
    have hReach :=
      hCovers (le_trans hSince hUpper)
        (fun takeover hTakeover =>
          ⟨lt_of_le_of_lt hLower
              (hBefore takeover hTakeover),
            lt_of_le_of_lt hSince
              (hBefore takeover hTakeover)⟩)
    rcases hReach with hReach | ⟨takeover, hTakeover, hEnd⟩
    · exact le_trans hUpper hReach
    · have hTarget := hBefore takeover hTakeover
      exact Int.lt_add_one_iff.mp (lt_of_lt_of_le hTarget hEnd)
  · intro hAll hSince hBefore
    by_contra hShort
    push Not at hShort
    rcases hShort with ⟨hUpper, hTakeovers⟩
    -- the first instant past the reach at which it is chosen
    have hPast :=
      hAll
        (max lower
          (max point.since (point.replayableUntil + 1)))
        (le_max_left _ _)
        (max_le hOrder
          (max_le hSince (Int.add_one_le_iff.mpr hUpper)))
        ⟨le_trans (le_max_left _ _) (le_max_right _ _), by
          intro takeover hTakeover
          rcases hBefore takeover hTakeover with
            ⟨hLower, hSinceBefore⟩
          exact
            max_lt hLower
              (max_lt hSinceBefore
                (hTakeovers takeover hTakeover))⟩
    have hReach :
        point.replayableUntil + 1 ≤ point.replayableUntil :=
      le_trans
        (le_trans (le_max_right _ _) (le_max_right _ _))
        hPast
    exact absurd (Int.add_one_le_iff.mp hReach) (lt_irrefl _)

------------------------------------------------------------
-- The Point Chosen at an Instant
------------------------------------------------------------

variable {segments : List WalSegment}
variable {databaseID : Uuid}
variable {newerFulls : List Time}
variable {fullCompletedAt target : Time}
variable {chain : ChainView}

theorem isAnchorBy_some_iff
    (anchor : RestoreAnchor) :
    isAnchorBy (some target) anchor = true ↔
      anchor.completedAt ≤ target := by
  simp [isAnchorBy]

/- A chosen point is of the last anchor by the instant. -/
theorem chainPoints_chosen
    (anchors : List RestoreAnchor) :
    ∀ point ∈
        chainPoints newerFulls fullCompletedAt segments
          anchors,
      point.IsChosenAt target →
        ∃ anchor,
          (anchors.filter
              (isAnchorBy (some target))).getLast? =
              some anchor ∧
            point.replayableUntil =
              replayableUntil segments anchor := by
  induction anchors with
  | nil =>
      intro point hPoint
      cases hPoint
  | cons anchor later ih =>
      intro point hPoint hChosen
      rcases List.mem_cons.mp hPoint with rfl | hLater
      · rcases hChosen with ⟨hSince, hBefore⟩
        have hBy : isAnchorBy (some target) anchor = true :=
          (isAnchorBy_some_iff anchor).mpr
            (le_trans (le_max_right _ _) hSince)
        have hNone :
            later.filter (isAnchorBy (some target)) = [] := by
          rw [List.filter_eq_nil_iff]
          intro other hOther hOtherBy
          have hTakeover :=
            hBefore other.completedAt
              (List.mem_append_right _
                (List.mem_map_of_mem hOther))
          exact
            absurd ((isAnchorBy_some_iff other).mp hOtherBy)
              (not_le_of_gt hTakeover)
        refine ⟨anchor, ?_, rfl⟩
        rw [List.filter_cons_of_pos hBy, hNone]
        rfl
      · rcases ih point hLater hChosen with
          ⟨last, hLast, hReach⟩
        refine ⟨last, ?_, hReach⟩
        rw [List.filter_cons]
        split
        · cases hRest :
            later.filter (isAnchorBy (some target)) with
          | nil => simp [hRest] at hLast
          | cons next rest =>
              rw [List.getLast?_cons_cons, ← hRest]
              exact hLast
        · exact hLast

/- The last anchor by an instant has a point chosen then. -/
theorem exists_chosen_chainPoint
    (hNewer : ∀ newer ∈ newerFulls, target < newer)
    (hFull : fullCompletedAt ≤ target)
    (anchors : List RestoreAnchor) :
    anchors.filter (isAnchorBy (some target)) ≠ [] →
      ∃ point ∈
          chainPoints newerFulls fullCompletedAt segments
            anchors,
        point.IsChosenAt target := by
  induction anchors with
  | nil =>
      intro hSome
      exact absurd rfl hSome
  | cons anchor later ih =>
      intro hSome
      by_cases hLater :
          later.filter (isAnchorBy (some target)) = []
      · have hBy : isAnchorBy (some target) anchor = true := by
          by_contra hNot
          apply hSome
          rw [List.filter_cons_of_neg hNot, hLater]
        refine ⟨_, List.mem_cons_self, ?_, ?_⟩
        · exact
            max_le hFull ((isAnchorBy_some_iff anchor).mp hBy)
        · intro takeover hTakeover
          rcases List.mem_append.mp hTakeover with
            hNewest | hAnchor
          · exact hNewer takeover hNewest
          · rcases List.mem_map.mp hAnchor with
              ⟨other, hOther, rfl⟩
            rw [List.filter_eq_nil_iff] at hLater
            have hNot := hLater other hOther
            rw [isAnchorBy_some_iff] at hNot
            exact lt_of_not_ge hNot
      · rcases ih hLater with ⟨point, hPoint, hChosen⟩
        exact ⟨point, List.mem_cons_of_mem _ hPoint, hChosen⟩

/- A point waits for its full, and gives way to newer ones. -/
theorem chainPoints_bounds
    (anchors : List RestoreAnchor) :
    ∀ point ∈
        chainPoints newerFulls fullCompletedAt segments
          anchors,
      fullCompletedAt ≤ point.since ∧
        newerFulls ⊆ point.takenOverAt := by
  induction anchors with
  | nil =>
      intro point hPoint
      cases hPoint
  | cons anchor later ih =>
      intro point hPoint
      rcases List.mem_cons.mp hPoint with rfl | hLater
      · exact ⟨le_max_left _ _, List.subset_append_left _ _⟩
      · exact ih point hLater

theorem restorePoints_takenOver
    (candidates : List ChainView) :
    ∀ newerFulls : List Time,
      ∀ point ∈
          restorePoints segments databaseID newerFulls
            candidates,
        newerFulls ⊆ point.takenOverAt := by
  induction candidates with
  | nil =>
      intro newerFulls point hPoint
      cases hPoint
  | cons chain older ih =>
      intro newerFulls point hPoint
      rcases List.mem_append.mp hPoint with hOwn | hOlder
      · exact (chainPoints_bounds _ point hOwn).2
      · exact
          List.Subset.trans
            (List.subset_append_left _ _)
            (ih _ point hOlder)

/- A chain's full is completed, and its end is known. -/
def HasCompletedRoot
    (chain : ChainView) : Prop :=
  chain.rootFull.stopLSN.isSome ∧
    chain.rootFull.completedAt.isSome

theorem isCompletedBy_iff
    (hRoot : HasCompletedRoot chain) :
    isCompletedBy target chain.rootFull = true ↔
      (fullAnchor chain).completedAt ≤ target := by
  rcases Option.isSome_iff_exists.mp hRoot.2 with
    ⟨completedAt, hCompleted⟩
  simp [isCompletedBy, fullAnchor, derefTime, hCompleted]

/- The anchor that a restore of the chain starts from. -/
def restoreAnchorAt
    (target : Time)
    (chain : ChainView) : RestoreAnchor :=
  lastAnchorBy (some target)
    (chain.incrementals.filterMap incrementalAnchor)
    (fullAnchor chain)

theorem getLast?_chainAnchors
    (hFull : (fullAnchor chain).completedAt ≤ target) :
    ((chainAnchors chain).filter
        (isAnchorBy (some target))).getLast? =
      some (restoreAnchorAt target chain) := by
  have hBy :
      isAnchorBy (some target) (fullAnchor chain) = true :=
    (isAnchorBy_some_iff _).mpr hFull
  unfold chainAnchors restoreAnchorAt lastAnchorBy
  rw [List.filter_cons_of_pos hBy]
  cases hRest :
      (chain.incrementals.filterMap incrementalAnchor).filter
        (isAnchorBy (some target)) with
  | nil => rfl
  | cons next rest =>
      rw [List.getLast?_cons_cons]
      cases hLast : (next :: rest).getLast? with
      | none => simp at hLast
      | some last => rfl

/-
  The point chosen at an instant belongs to the newest chain
  whose full is completed by then, and there is one.
-/
theorem chosen_of_find?_eq_some
    (candidates : List ChainView) :
    ∀ newerFulls : List Time,
      (∀ chain ∈ candidates, HasCompletedRoot chain) →
      (∀ newer ∈ newerFulls, target < newer) →
      candidates.find?
          (fun candidate =>
            isCompletedBy target candidate.rootFull) =
        some chain →
      (∀ point ∈
          restorePoints segments databaseID newerFulls
            candidates,
        point.IsChosenAt target →
          point.replayableUntil =
            replayableUntil
              (chainSegments segments databaseID chain)
              (restoreAnchorAt target chain)) ∧
        ∃ point ∈
            restorePoints segments databaseID newerFulls
              candidates,
          point.IsChosenAt target := by
  induction candidates with
  | nil =>
      intro newerFulls _ _ hFound
      cases hFound
  | cons first older ih =>
      intro newerFulls hRoots hNewer hFound
      have hRoot := hRoots first List.mem_cons_self
      rw [List.find?_cons] at hFound
      split at hFound
      · next hBy =>
          cases hFound
          have hFull := (isCompletedBy_iff hRoot).mp hBy
          have hLast := getLast?_chainAnchors hFull
          constructor
          · intro point hPoint hChosen
            rcases List.mem_append.mp hPoint with
              hOwn | hOlder
            · rcases
                  chainPoints_chosen _ point hOwn hChosen with
                ⟨anchor, hAnchor, hReach⟩
              rw [hLast] at hAnchor
              rw [hReach, Option.some.inj hAnchor]
            · have hOver :=
                restorePoints_takenOver _ _ point hOlder
                  (List.mem_append_right _
                    (List.mem_singleton_self _))
              exact
                absurd (hChosen.2 _ hOver)
                  (not_lt_of_ge hFull)
          · have hSome :
                (chainAnchors chain).filter
                    (isAnchorBy (some target)) ≠
                  [] := by
              intro hEmpty
              rw [hEmpty] at hLast
              cases hLast
            rcases
                exists_chosen_chainPoint hNewer hFull _
                  hSome with
              ⟨point, hPoint, hChosen⟩
            exact
              ⟨point, List.mem_append_left _ hPoint,
                hChosen⟩
      · next hNotBy =>
          have hLate :
              target < (fullAnchor first).completedAt := by
            by_contra hEarly
            rw [not_lt, ← isCompletedBy_iff hRoot] at hEarly
            rw [hEarly] at hNotBy
            cases hNotBy
          have hRest :=
            ih (newerFulls ++ [(fullAnchor first).completedAt])
              (fun other hOther =>
                hRoots other (List.mem_cons_of_mem _ hOther))
              (by
                intro newer hMember
                rcases List.mem_append.mp hMember with
                  hOld | hNew
                · exact hNewer newer hOld
                · rw [List.mem_singleton.mp hNew]
                  exact hLate)
              hFound
          constructor
          · intro point hPoint hChosen
            rcases List.mem_append.mp hPoint with
              hOwn | hOlder
            · have hFull :=
                (chainPoints_bounds _ point hOwn).1
              exact
                absurd (le_trans hFull hChosen.1)
                  (not_le_of_gt hLate)
            · exact hRest.1 point hOlder hChosen
          · rcases hRest.2 with ⟨point, hPoint, hChosen⟩
            exact
              ⟨point, List.mem_append_right _ hPoint,
                hChosen⟩

------------------------------------------------------------
-- Restores to an Instant
------------------------------------------------------------

variable {s : CatalogState}
variable {candidates : List ChainView}

/- A chain that is selected decides what a restore reaches. -/
theorem resolveRestoreReach_ok
    {target : Option Time}
    (hCandidates :
      orderedRestoreCandidates s.backups databaseID =
        .ok candidates)
    (hChain : selectRestoreChain candidates target = .ok chain)
    (hRoot : HasCompletedRoot chain) :
    resolveRestoreReach s databaseID target =
      let last :=
        lastAnchorBy target
          (chain.incrementals.filterMap incrementalAnchor)
          (fullAnchor chain)
      let walSegments :=
        chainSegments s.segments databaseID chain
      .ok
        { chain := chain
          incrementals :=
            chain.incrementals.filter fun incremental =>
              (incrementalAnchor incremental).any
                (isAnchorBy target)
          lastStopLSN := last.stopLSN
          walSegments := walSegments
          walRun :=
            contiguousWalRun walSegments last.stopLSN
              last.completedAt } := by
  rcases Option.isSome_iff_exists.mp hRoot.1 with
    ⟨fullStopLSN, hStop⟩
  unfold resolveRestoreReach
  simp only [hCandidates, hChain, hStop,
    includedIncrementals_eq chain hStop target]

/-
  A restore to an instant succeeds when the point chosen at
  the instant reaches it.
-/
theorem resolveRestoreSet_ok_iff
    (hCandidates :
      orderedRestoreCandidates s.backups databaseID =
        .ok candidates)
    (hRoots : ∀ chain ∈ candidates, HasCompletedRoot chain)
    (target : Time) :
    (∃ restoreSet,
        resolveRestoreSet s databaseID (some target) =
          .ok restoreSet) ↔
      (∃ chain ∈ candidates,
          (fullAnchor chain).completedAt ≤ target) ∧
        ∀ point ∈
            restorePoints s.segments databaseID []
              candidates,
          point.IsChosenAt target →
            target ≤ point.replayableUntil := by
  cases hFound :
      candidates.find? fun candidate =>
        isCompletedBy target candidate.rootFull with
  | none =>
      have hEarly :
          ¬ ∃ chain ∈ candidates,
              (fullAnchor chain).completedAt ≤ target := by
        rintro ⟨chain, hChain, hFull⟩
        rw [List.find?_eq_none] at hFound
        apply hFound chain hChain
        rw [isCompletedBy_iff (hRoots chain hChain)]
        exact hFull
      have hNone :
          ∀ reach,
            resolveRestoreReach s databaseID (some target) ≠
              .ok reach := by
        intro reach hReach
        unfold resolveRestoreReach at hReach
        by_cases hEmpty : candidates = []
        · simp [hCandidates, selectRestoreChain,
            hEmpty] at hReach
        · simp [hCandidates, selectRestoreChain, hEmpty,
            hFound] at hReach
      constructor
      · rintro ⟨restoreSet, hResolve⟩
        unfold resolveRestoreSet at hResolve
        split at hResolve
        · cases hResolve
        · next reach hReach => exact absurd hReach (hNone reach)
      · rintro ⟨hSome, _⟩
        exact absurd hSome hEarly
  | some chain =>
      have hMember := List.mem_of_find?_eq_some hFound
      have hRoot := hRoots chain hMember
      have hFull :
          (fullAnchor chain).completedAt ≤ target := by
        rw [← isCompletedBy_iff hRoot]
        simpa using List.find?_some hFound
      have hChain :
          selectRestoreChain candidates (some target) =
            .ok chain := by
        have hNonempty : candidates ≠ [] :=
          List.ne_nil_of_mem hMember
        simp [selectRestoreChain, hFound, hNonempty]
      have hReach :=
        resolveRestoreReach_ok hCandidates hChain hRoot
      rcases
          chosen_of_find?_eq_some candidates [] hRoots
            (fun _ hNone => absurd hNone List.not_mem_nil)
            hFound with
        ⟨hPoints, point, hPoint, hChosen⟩
      have hTime :
          (∃ restoreSet,
              resolveRestoreSet s databaseID (some target) =
                .ok restoreSet) ↔
            target ≤
              replayableUntil
                (chainSegments s.segments databaseID chain)
                (restoreAnchorAt target chain) := by
        have hWalk :=
          (contiguousWalRun_eq
            (chainSegments s.segments databaseID chain)
            (restoreAnchorAt target chain)).2
        unfold resolveRestoreSet
        rw [hReach]
        unfold restoreAnchorAt at hWalk ⊢
        simp only [hWalk, Option.any_some,
          decide_eq_true_eq]
        constructor
        · rintro ⟨restoreSet, hResolve⟩
          split at hResolve
          · cases hResolve
          · next hReached => exact not_lt.mp hReached
        · intro hReached
          rw [if_neg (not_lt.mpr hReached)]
          exact ⟨_, rfl⟩
      rw [hTime]
      constructor
      · intro hReached
        refine ⟨⟨chain, hMember, hFull⟩, ?_⟩
        intro other hOther hOtherChosen
        rw [hPoints other hOther hOtherChosen]
        exact hReached
      · rintro ⟨_, hAll⟩
        rw [← hPoints point hPoint hChosen]
        exact hAll point hPoint hChosen

------------------------------------------------------------
-- Delivered Coverage
------------------------------------------------------------

/-
  Segment files of a timeline are cut at fixed boundaries: no
  segment is empty, and no two of them overlap.
-/
structure SegmentsApart
    (segments : List WalSegment) : Prop where
  nonempty :
    ∀ segment ∈ segments, segment.startLSN < segment.endLSN
  apart :
    ∀ first ∈ segments, ∀ second ∈ segments,
      first.databaseID = second.databaseID →
        first.timelineID = second.timelineID →
          first.startLSN < second.startLSN →
            first.endLSN ≤ second.startLSN

instance instDecidableSegmentsApart
    (segments : List WalSegment) :
    Decidable (SegmentsApart segments) :=
  decidable_of_iff
    ((∀ segment ∈ segments,
        segment.startLSN < segment.endLSN) ∧
      ∀ first ∈ segments, ∀ second ∈ segments,
        first.databaseID = second.databaseID →
          first.timelineID = second.timelineID →
            first.startLSN < second.startLSN →
              first.endLSN ≤ second.startLSN)
    ⟨fun ⟨hNonempty, hApart⟩ => ⟨hNonempty, hApart⟩,
      fun ⟨hNonempty, hApart⟩ => ⟨hNonempty, hApart⟩⟩

/- Every instant of a shown range can be restored to. -/
def CoverageDelivered
    (s : CatalogState)
    (databaseID : Uuid) : Prop :=
  ∀ coverage,
    getRestoreCoverage s databaseID = .ok coverage →
      ∀ range ∈ coverage.restorableRanges,
        ∀ target, range.Contains target →
          ∃ restoreSet,
            resolveRestoreSet s databaseID (some target) =
              .ok restoreSet

/- The instant an anchor's own log ends, as it is shown. -/
def advertisedUntil
    (segments : List WalSegment)
    (anchor : RestoreAnchor) : Time :=
  max anchor.completedAt (replayableUntil segments anchor)

/-
  From each anchor's completion to the end of its own log,
  every point that restores choose in between reaches too,
  and some full is completed by then.
-/
def AdvertisesWhatIsChosen
    (s : CatalogState)
    (databaseID : Uuid) : Prop :=
  match orderedRestoreCandidates s.backups databaseID with
  | .ok (newest :: older) =>
      ∀ anchor ∈ chainAnchors newest,
        (∃ chain ∈ newest :: older,
            (fullAnchor chain).completedAt ≤
              anchor.completedAt) ∧
          ∀ point ∈
              restorePoints s.segments databaseID []
                (newest :: older),
            point.Covers anchor.completedAt
              (advertisedUntil
                (chainSegments s.segments databaseID newest)
                anchor)
  | _ => True

instance instDecidableAdvertisesWhatIsChosen
    (s : CatalogState)
    (databaseID : Uuid) :
    Decidable (AdvertisesWhatIsChosen s databaseID) := by
  unfold AdvertisesWhatIsChosen
  split <;> infer_instance

/- The segments of a timeline end in the order they start. -/
theorem endInOrder_chainSegments
    (hKeys : Table.UniqueBy WalSegment.chainKey segments)
    (hApart : SegmentsApart segments)
    (databaseID : Uuid)
    (chain : ChainView) :
    EndInOrder
      (committedSegments
        (chainSegments segments databaseID chain)) := by
  have hSorted :
      (chainSegments segments databaseID chain).Pairwise
        segmentStartsNoLater :=
    List.pairwise_insertionSort segmentStartsNoLater _
  have hMember :
      ∀ segment ∈ chainSegments segments databaseID chain,
        segment ∈ segments ∧
          segment.databaseID = databaseID ∧
            segment.timelineID =
              chain.rootFull.timelineID := by
    intro segment hSegment
    unfold chainSegments findByChainSpan at hSegment
    rw [List.mem_insertionSort, List.mem_filter] at hSegment
    simp only [Bool.and_eq_true,
      decide_eq_true_eq] at hSegment
    exact
      ⟨hSegment.1, hSegment.2.1.1.1.1,
        hSegment.2.1.1.1.2⟩
  have hEnds :
      EndInOrder (chainSegments segments databaseID chain) := by
    refine hSorted.imp_of_mem ?_
    intro first second hFirst hSecond hStarts
    rcases hMember first hFirst with
      ⟨hFirstRow, hFirstDatabase, hFirstTimeline⟩
    rcases hMember second hSecond with
      ⟨hSecondRow, hSecondDatabase, hSecondTimeline⟩
    have hDatabase := hFirstDatabase.trans hSecondDatabase.symm
    have hTimeline := hFirstTimeline.trans hSecondTimeline.symm
    rcases Nat.lt_or_eq_of_le hStarts with hBefore | hSame
    · have hAbut :=
        hApart.apart first hFirstRow second hSecondRow
          hDatabase hTimeline hBefore
      exact
        Nat.le_trans hAbut
          (Nat.le_of_lt (hApart.nonempty second hSecondRow))
    · have hKey : first.chainKey = second.chainKey := by
        unfold WalSegment.chainKey
        rw [hDatabase, hTimeline, hSame]
      rw [hKeys.eq_of_key_eq hFirstRow hSecondRow hKey]
  exact hEnds.sublist List.filter_sublist

/- The range shown for an anchor ends with its own log. -/
theorem anchorRange_eq
    (hOrder : EndInOrder (committedSegments segments))
    (anchor : RestoreAnchor) :
    anchorRange (committedSegments segments)
        (findContiguousRunEnds (committedSegments segments))
        anchor =
      { lower := anchor.completedAt
        upper := advertisedUntil segments anchor } := by
  unfold anchorRange advertisedUntil
  rw [anchorReachedAt_eq hOrder]
  simp only
  split
  · next hBefore => rw [max_eq_left (le_of_lt hBefore)]
  · next hAfter => rw [max_eq_right (not_lt.mp hAfter)]

/- The views of fulls have these fulls as their roots. -/
theorem rootFull_of_buildChainViews
    {backups : List Backup}
    (fulls : List Backup) :
    ∀ {views : List ChainView},
      buildChainViews backups fulls = .ok views →
        ∀ view ∈ views, view.rootFull ∈ fulls := by
  intro views hViews view hView
  rcases buildChainView_of_mem fulls hViews view hView with
    ⟨full, hFull, hBuilt⟩
  rw [(buildChainView_parts hBuilt).1]
  exact hFull

/- Completed fulls have views, each with a completed root. -/
theorem exists_candidates
    (hConstraints : MeetsConstraints s)
    (databaseID : Uuid) :
    ∃ candidates,
      orderedRestoreCandidates s.backups databaseID =
          .ok candidates ∧
        ∀ chain ∈ candidates, HasCompletedRoot chain := by
  have hColumns :
      ∀ full ∈
          findCompletedFullNewestFirstByDatabase s.backups
            databaseID,
        full.HasCompletedColumns := by
    intro full hFull
    unfold findCompletedFullNewestFirstByDatabase at hFull
    rw [List.mem_insertionSort, List.mem_filter] at hFull
    simp only [Bool.and_eq_true, decide_eq_true_eq] at hFull
    exact hConstraints.completedColumns full hFull.1 hFull.2.2
  rw [orderedRestoreCandidates_eq]
  rcases
      buildChainViews_ok _ (fun full hFull =>
        (hColumns full hFull).2.1) with
    ⟨views, hViews⟩
  refine ⟨views, hViews, ?_⟩
  intro chain hChain
  have hRoot :=
    hColumns _ (rootFull_of_buildChainViews _ hViews _ hChain)
  exact ⟨hRoot.2.2.1, hRoot.2.2.2⟩

/- What is shown, range by range, for the newest chain. -/
theorem coverageDelivered_iff_anchors
    {newest : ChainView}
    {older : List ChainView}
    (hCandidates :
      orderedRestoreCandidates s.backups databaseID =
        .ok (newest :: older))
    (hRoot : HasCompletedRoot newest)
    (hOrder :
      EndInOrder
        (committedSegments
          (chainSegments s.segments databaseID newest))) :
    CoverageDelivered s databaseID ↔
      ∀ anchor ∈ chainAnchors newest, ∀ target,
        anchor.completedAt ≤ target →
        target ≤
            advertisedUntil
              (chainSegments s.segments databaseID newest)
              anchor →
          ∃ restoreSet,
            resolveRestoreSet s databaseID (some target) =
              .ok restoreSet := by
  have hReach :=
    resolveRestoreReach_ok hCandidates
      (show
        selectRestoreChain (newest :: older) none =
          .ok newest from rfl)
      hRoot
  have hRanges :
      ∀ target,
        ClosedRange.Covers
            (findRestorableRanges (chainAnchors newest)
              (chainSegments s.segments databaseID newest))
            target ↔
          ∃ anchor ∈ chainAnchors newest,
            anchor.completedAt ≤ target ∧
              target ≤
                advertisedUntil
                  (chainSegments s.segments databaseID
                    newest)
                  anchor := by
    intro target
    unfold findRestorableRanges
    rw [ClosedRange.covers_merge_iff]
    unfold ClosedRange.Covers ClosedRange.Contains
    simp only [List.mem_map, exists_exists_and_eq_and,
      anchorRange_eq hOrder]
  unfold CoverageDelivered getRestoreCoverage
  rw [hReach]
  simp only [getRestoreAnchors_latest, Except.ok.injEq,
    forall_eq']
  constructor
  · intro hDelivered anchor hAnchor target hLower hUpper
    rcases
        (hRanges target).mpr
          ⟨anchor, hAnchor, hLower, hUpper⟩ with
      ⟨range, hRange, hContains⟩
    exact hDelivered range hRange target hContains
  · intro hAnchors range hRange target hContains
    rcases
        (hRanges target).mp ⟨range, hRange, hContains⟩ with
      ⟨anchor, hAnchor, hLower, hUpper⟩
    exact hAnchors anchor hAnchor target hLower hUpper

/-
  The coverage is delivered exactly when every point chosen
  inside a shown stretch reaches as far as the stretch.
-/
theorem coverage_delivered_iff
    (s : CatalogState)
    (databaseID : Uuid)
    (hConstraints : MeetsConstraints s)
    (hApart : SegmentsApart s.segments) :
    CoverageDelivered s databaseID ↔
      AdvertisesWhatIsChosen s databaseID := by
  rcases exists_candidates hConstraints databaseID with
    ⟨candidates, hCandidates, hRoots⟩
  unfold AdvertisesWhatIsChosen
  rw [hCandidates]
  cases candidates with
  | nil =>
      refine ⟨fun _ => trivial, ?_⟩
      intro _ coverage hCoverage range hRange
      unfold getRestoreCoverage resolveRestoreReach
        at hCoverage
      simp only [hCandidates, selectRestoreChain,
        Except.ok.injEq] at hCoverage
      rw [← hCoverage] at hRange
      cases hRange
  | cons newest older =>
      have hOrder :=
        endInOrder_chainSegments hConstraints.chainKeys
          hApart databaseID newest
      rw [coverageDelivered_iff_anchors hCandidates
        (hRoots newest List.mem_cons_self) hOrder]
      simp only [resolveRestoreSet_ok_iff hCandidates hRoots]
      constructor
      · intro hAll anchor hAnchor
        have hOrdered :
            anchor.completedAt ≤
              advertisedUntil
                (chainSegments s.segments databaseID newest)
                anchor :=
          le_max_left _ _
        refine
          ⟨(hAll anchor hAnchor _ (le_refl _) hOrdered).1,
            ?_⟩
        intro point hPoint
        rw [point.covers_iff hOrdered]
        intro target hLower hUpper
        exact
          (hAll anchor hAnchor target hLower hUpper).2 point
            hPoint
      · intro hAll anchor hAnchor target hLower hUpper
        rcases hAll anchor hAnchor with
          ⟨⟨chain, hChain, hFull⟩, hPoints⟩
        refine ⟨⟨chain, hChain, le_trans hFull hLower⟩, ?_⟩
        intro point hPoint
        exact
          (point.covers_iff (le_trans hLower hUpper)).mp
            (hPoints point hPoint) target hLower hUpper

def sampleRootFull : Backup :=
  { id := 1
    databaseID := 1
    storageID := 1
    kind := .full
    timelineID := 1
    status := .completed
    fileName := some "full"
    startLSN := some 4
    stopLSN := some 8
    createdAt := 5
    completedAt := some 10 }

def sampleIncremental : Backup :=
  { sampleRootFull with
    id := 2
    kind := .incremental
    parentBackupID := some 1
    rootFullBackupID := some 1
    fileName := some "incremental"
    startLSN := some 32
    stopLSN := some 40
    createdAt := 85
    completedAt := some 90 }

def sampleReceivedSegment
    (receivedAt : Time) : WalSegment :=
  { id := 3
    databaseID := 1
    storageID := 1
    timelineID := 1
    fileName := some "segment"
    walFilename := "segment"
    startLSN := 0
    endLSN := 16
    receivedAt := receivedAt
    claimedAt := 0 }

/- A hole parts the full's segment from the incremental. -/
def sampleCoverageCatalog
    (receivedAt : Time) : CatalogState :=
  { backups := [sampleRootFull, sampleIncremental]
    segments := [sampleReceivedSegment receivedAt]
    historyFiles := []
    requested := [] }

/- The segment arrives before the incremental completes. -/
theorem early_segment_coverage_delivered :
    CoverageDelivered (sampleCoverageCatalog 60) 1 :=
  (coverage_delivered_iff (sampleCoverageCatalog 60) 1
    (by decide +kernel) (by decide +kernel)).mpr
      (by decide +kernel)

/-
  The segment arrives after the incremental: an instant in
  between is shown for the full, and refused as it lies past
  what the incremental reaches.
-/
theorem late_segment_coverage_not_delivered :
    ¬ ∀ (s : CatalogState) (databaseID : Uuid),
        MeetsConstraints s →
          SegmentsApart s.segments →
            CoverageDelivered s databaseID := by
  intro hAlways
  have hDelivered :=
    hAlways (sampleCoverageCatalog 100) 1 (by decide +kernel)
      (by decide +kernel)
  have hRestore :=
    hDelivered
      { latestRestorableAt := some 90
        restorableRanges := [{ lower := 10, upper := 100 }]
        blockingGaps := [] }
      (by decide +kernel) { lower := 10, upper := 100 }
      (by decide) 95 ⟨by decide, by decide⟩
  rcases hRestore with ⟨restoreSet, hRestore⟩
  have hRefused :
      resolveRestoreSet (sampleCoverageCatalog 100) 1
          (some 95) =
        .error (.walGapBeforeTarget 40) := by
    decide +kernel
  rw [hRefused] at hRestore
  cases hRestore

end Chains

end Databasus
