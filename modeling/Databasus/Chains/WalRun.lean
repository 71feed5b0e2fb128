import Databasus.Chains.RestoreCoverage

/-
  The unbroken run of segments after a position.

  The walk of a restore and the search of the coverage both
  end at the last segment of the run, when the segments of a
  timeline do not overlap.

  Main declarations:
    * `unbrokenRun`
    * `replayableUntil`
    * `contiguousWalRun_eq`
    * `anchorReachedSegment_eq`
    * `anchorReachedAt_eq`
-/

------------------------------------------------------------
-- Runs
------------------------------------------------------------

namespace Databasus

namespace Chains

open Foundation
open Catalog
open Walmath (LSN)

/- Each segment starts by the end of the one before it. -/
def runFrom
    (cursor : LSN) : List WalSegment → List WalSegment
  | [] => []
  | segment :: rest =>
      if segment.startLSN ≤ cursor then
        segment :: runFrom segment.endLSN rest
      else
        []

/- The committed segments after a position, up to a hole. -/
def unbrokenRun
    (position : LSN)
    (segments : List WalSegment) : List WalSegment :=
  runFrom position
    ((committedSegments segments).filter fun segment =>
      position < segment.endLSN)

/-
  The instant up to which an anchor's log can be replayed:
  its last segment's receipt, or the anchor's own completion.
-/
def replayableUntil
    (segments : List WalSegment)
    (anchor : RestoreAnchor) : Time :=
  ((unbrokenRun anchor.stopLSN segments).getLast?.map
    WalSegment.receivedAt).getD anchor.completedAt

variable {segment : WalSegment}
variable {segments rest : List WalSegment}

theorem getLast?_cons_map_getD
    {β : Type}
    (f : WalSegment → β)
    (default : β) :
    ((segment :: rest).getLast?.map f).getD default =
      (rest.getLast?.map f).getD (f segment) := by
  cases rest with
  | nil => rfl
  | cons next rest =>
      rw [List.getLast?_cons_cons]
      cases hLast : (next :: rest).getLast? with
      | none => simp at hLast
      | some last => rfl

/- The walk adds the run from its cursor to what it has. -/
theorem walkWalRun_eq
    (lastStopLSN : LSN)
    (segments : List WalSegment) :
    ∀ run : WalRun,
      walkWalRun lastStopLSN segments run =
        let found :=
          runFrom run.reachableLSN
            ((committedSegments segments).filter
              fun segment => lastStopLSN < segment.endLSN)
        { segments := run.segments ++ found
          reachableLSN :=
            (found.getLast?.map WalSegment.endLSN).getD
              run.reachableLSN
          reachableTime :=
            (found.getLast?.map WalSegment.receivedAt).getD
              run.reachableTime } := by
  induction segments with
  | nil =>
      intro run
      simp [walkWalRun, committedSegments, runFrom]
  | cons segment rest ih =>
      intro run
      unfold walkWalRun
      by_cases hSkipped :
          segment.fileName = none ∨
            segment.endLSN ≤ lastStopLSN
      · rw [if_pos hSkipped, ih run]
        have hFilter :
            (committedSegments (segment :: rest)).filter
                (fun segment => lastStopLSN < segment.endLSN) =
              (committedSegments rest).filter fun segment =>
                lastStopLSN < segment.endLSN := by
          rcases hSkipped with hClaim | hFolded
          · simp [committedSegments, hClaim]
          · cases hName : segment.fileName with
            | none => simp [committedSegments, hName]
            | some name =>
                have hNot : ¬ lastStopLSN < segment.endLSN :=
                  Nat.not_lt.mpr hFolded
                simp [committedSegments, hName, hNot]
        rw [hFilter]
      · rw [if_neg hSkipped]
        push Not at hSkipped
        rcases hSkipped with ⟨hNamed, hLater⟩
        have hCommitted : segment.fileName.isSome :=
          Option.isSome_iff_ne_none.mpr hNamed
        have hFilter :
            (committedSegments (segment :: rest)).filter
                (fun segment => lastStopLSN < segment.endLSN) =
              segment ::
                (committedSegments rest).filter
                  fun segment =>
                    lastStopLSN < segment.endLSN := by
          simp [committedSegments, hCommitted, hLater]
        rw [hFilter]
        by_cases hHole :
            run.reachableLSN < segment.startLSN
        · rw [if_pos hHole]
          have hStop :
              ¬ segment.startLSN ≤ run.reachableLSN :=
            Nat.not_le.mpr hHole
          simp [runFrom, hStop]
        · rw [if_neg hHole, ih]
          have hGoOn : segment.startLSN ≤ run.reachableLSN :=
            Nat.not_lt.mp hHole
          simp only [runFrom, hGoOn, if_true,
            getLast?_cons_map_getD, List.append_assoc,
            List.singleton_append]

/- A restore replays the unbroken run of its last backup. -/
theorem contiguousWalRun_eq
    (segments : List WalSegment)
    (anchor : RestoreAnchor) :
    (contiguousWalRun segments anchor.stopLSN
        anchor.completedAt).segments =
        unbrokenRun anchor.stopLSN segments ∧
      (contiguousWalRun segments anchor.stopLSN
          anchor.completedAt).reachableTime =
        replayableUntil segments anchor := by
  unfold contiguousWalRun
  rw [walkWalRun_eq]
  exact ⟨rfl, rfl⟩

------------------------------------------------------------
-- Run Ends
------------------------------------------------------------

/- A run is a stretch of the list right after its start. -/
theorem runFrom_eq_take
    (segments : List WalSegment) :
    ∀ cursor : LSN,
      runFrom cursor segments =
        segments.take (runFrom cursor segments).length := by
  induction segments with
  | nil =>
      intro cursor
      rfl
  | cons segment rest ih =>
      intro cursor
      unfold runFrom
      by_cases hGoOn : segment.startLSN ≤ cursor
      · simp only [hGoOn, if_true, List.length_cons,
          List.take_succ_cons]
        rw [← ih segment.endLSN]
      · simp [hGoOn]

/- Each entry is found the same way from its place on. -/
theorem findContiguousRunEndsFrom_tail
    (start index : Nat)
    (first : WalSegment)
    (rest : List WalSegment) :
    (findContiguousRunEndsFrom start
        (first :: rest))[index + 1]? =
      (findContiguousRunEndsFrom (start + 1)
        rest)[index]? := by
  conv_lhs => unfold findContiguousRunEndsFrom
  generalize
    findContiguousRunEndsFrom (start + 1) rest = runEnds
  simp only
  split
  · split <;> rfl
  · rfl

/- The run end of a segment lies as far as its run is long. -/
theorem findContiguousRunEndsFrom_getElem?
    (segments : List WalSegment) :
    ∀ (start index : Nat) (segment : WalSegment),
      segments[index]? = some segment →
        (findContiguousRunEndsFrom start segments)[index]? =
          some
            (start + index +
              (runFrom segment.endLSN
                (segments.drop (index + 1))).length) := by
  induction segments with
  | nil =>
      intro start index segment hSegment
      simp at hSegment
  | cons first rest ih =>
      intro start index segment hSegment
      cases index with
      | zero =>
          simp only [List.getElem?_cons_zero,
            Option.some.injEq] at hSegment
          subst hSegment
          cases rest with
          | nil => simp [findContiguousRunEndsFrom, runFrom]
          | cons next rest =>
              have hNext :=
                ih (start + 1) 0 next
                  List.getElem?_cons_zero
              unfold findContiguousRunEndsFrom
              cases hEnds :
                  findContiguousRunEndsFrom (start + 1)
                    (next :: rest) with
              | nil => simp [hEnds] at hNext
              | cons runEnd runEnds =>
                  rw [hEnds] at hNext
                  simp only [List.getElem?_cons_zero,
                    Option.some.injEq, List.drop_succ_cons,
                    List.drop_zero] at hNext
                  simp only
                  by_cases hGoOn :
                      next.startLSN ≤ first.endLSN
                  · simp only [hGoOn, if_true, runFrom,
                      List.getElem?_cons_zero, hNext,
                      List.drop_succ_cons, List.drop_zero,
                      List.length_cons, Option.some.injEq]
                    omega
                  · simp [hGoOn, runFrom]
      | succ index =>
          have hRest : rest[index]? = some segment := by
            simpa using hSegment
          have hLater := ih (start + 1) index segment hRest
          rw [findContiguousRunEndsFrom_tail, hLater,
            List.drop_succ_cons]
          congr 1
          omega

------------------------------------------------------------
-- The Search of the Coverage
------------------------------------------------------------

variable {committed : List WalSegment}

/- The segments end in the order they stand in. -/
def EndInOrder
    (segments : List WalSegment) : Prop :=
  segments.Pairwise fun first second =>
    first.endLSN ≤ second.endLSN

/-
  The first segment that ends after a position is found by
  the search, and the run of the position starts with it.
-/
theorem filter_endsAfter_eq_drop
    (hOrder : EndInOrder committed)
    (position : LSN) :
    (committed.filter fun segment =>
        position < segment.endLSN) =
      committed.drop
        (Search.searchList
          (fun segment : WalSegment =>
            position < segment.endLSN)
          committed) := by
  apply Search.filter_eq_drop_search
  refine hOrder.imp ?_
  intro first second hEnds hFirst
  rw [decide_eq_true_eq] at hFirst ⊢
  exact Nat.lt_of_lt_of_le hFirst hEnds

/- The last segment of a run that starts at an index. -/
theorem getElem?_runEnd
    {index : Nat}
    (hSegment : committed[index]? = some segment) :
    committed[index +
        (runFrom segment.endLSN
          (committed.drop (index + 1))).length]? =
      (segment ::
        runFrom segment.endLSN
          (committed.drop (index + 1))).getLast? := by
  have hTake :=
    runFrom_eq_take (committed.drop (index + 1))
      segment.endLSN
  have hIndex : index < committed.length :=
    (List.getElem?_eq_some_iff.mp hSegment).1
  have hDrop :
      committed.drop index =
        segment :: committed.drop (index + 1) := by
    rw [List.drop_eq_getElem_cons hIndex]
    rw [List.getElem?_eq_getElem hIndex] at hSegment
    rw [Option.some.inj hSegment]
  have hBound :
      (runFrom segment.endLSN
          (committed.drop (index + 1))).length ≤
        (committed.drop (index + 1)).length := by
    conv_lhs => rw [hTake]
    exact List.length_take_le' _ _
  generalize hCount :
      (runFrom segment.endLSN
        (committed.drop (index + 1))).length = count
    at hTake hBound ⊢
  rw [hTake, ← List.take_succ_cons, ← hDrop,
    ← List.getElem?_drop, List.getLast?_take]
  have hEnough : count < (committed.drop index).length := by
    rw [hDrop, List.length_cons]
    omega
  simp [List.getElem?_eq_getElem hEnough]

/- The segment whose receipt ends the range of an anchor. -/
def anchorReachedSegment
    (committed : List WalSegment)
    (runEnds : List Nat)
    (anchor : RestoreAnchor) : Option WalSegment :=
  let firstAfterAnchor :=
    Search.searchList
      (fun segment : WalSegment =>
        anchor.stopLSN < segment.endLSN)
      committed
  match committed[firstAfterAnchor]? with
  | none => none
  | some segment =>
      if segment.startLSN ≤ anchor.stopLSN then
        (runEnds[firstAfterAnchor]?).bind fun runEnd =>
          committed[runEnd]?
      else
        none

theorem anchorReachedAt_eq_segment
    (committed : List WalSegment)
    (runEnds : List Nat)
    (anchor : RestoreAnchor) :
    anchorReachedAt committed runEnds anchor =
      ((anchorReachedSegment committed runEnds anchor).map
        WalSegment.receivedAt).getD anchor.completedAt := by
  unfold anchorReachedAt anchorReachedSegment
  generalize
    Search.searchList
      (fun segment : WalSegment =>
        anchor.stopLSN < segment.endLSN)
      committed = index
  simp only
  cases committed[index]? with
  | none => rfl
  | some segment =>
      by_cases hHolds : segment.startLSN ≤ anchor.stopLSN
      · simp only [hHolds, if_true]
        cases (runEnds[index]?).bind fun runEnd =>
            committed[runEnd]? with
        | none => rfl
        | some last => rfl
      · simp only [hHolds, if_false]
        rfl

/- The search ends with the last segment of the walk. -/
theorem anchorReachedSegment_eq
    {segments : List WalSegment}
    (hOrder : EndInOrder (committedSegments segments))
    (anchor : RestoreAnchor) :
    anchorReachedSegment (committedSegments segments)
        (findContiguousRunEnds (committedSegments segments))
        anchor =
      (unbrokenRun anchor.stopLSN segments).getLast? := by
  unfold anchorReachedSegment unbrokenRun
  rw [filter_endsAfter_eq_drop hOrder]
  generalize
    Search.searchList
      (fun segment : WalSegment =>
        anchor.stopLSN < segment.endLSN)
      (committedSegments segments) = index
  generalize committedSegments segments = committed
  simp only
  cases hSegment : committed[index]? with
  | none =>
      have hEnd : committed.length ≤ index :=
        List.getElem?_eq_none_iff.mp hSegment
      rw [List.drop_eq_nil_of_le hEnd]
      rfl
  | some segment =>
      have hIndex : index < committed.length :=
        (List.getElem?_eq_some_iff.mp hSegment).1
      have hDrop :
          committed.drop index =
            segment :: committed.drop (index + 1) := by
        rw [List.drop_eq_getElem_cons hIndex]
        rw [List.getElem?_eq_getElem hIndex] at hSegment
        rw [Option.some.inj hSegment]
      rw [hDrop]
      unfold runFrom
      by_cases hHolds : segment.startLSN ≤ anchor.stopLSN
      · have hRunEnd :=
          findContiguousRunEndsFrom_getElem? committed 0
            index segment hSegment
        unfold findContiguousRunEnds
        simp only [hHolds, if_true, hRunEnd, Nat.zero_add,
          Option.bind_some]
        exact getElem?_runEnd hSegment
      · simp [hHolds]

/- The search reaches what the walk of a restore reaches. -/
theorem anchorReachedAt_eq
    {segments : List WalSegment}
    (hOrder : EndInOrder (committedSegments segments))
    (anchor : RestoreAnchor) :
    anchorReachedAt (committedSegments segments)
        (findContiguousRunEnds (committedSegments segments))
        anchor =
      replayableUntil segments anchor := by
  rw [anchorReachedAt_eq_segment,
    anchorReachedSegment_eq hOrder]
  rfl

end Chains

end Databasus
