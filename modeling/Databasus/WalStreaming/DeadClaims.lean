import Databasus.WalStreaming.Durability

/-
  Claims that no upload works for any more.

  A claim that an upload has left behind keeps every later
  call for the segment waiting.  An upload leaves its claim
  when its commit fails, when it cannot release the claim, or
  when its process dies; no other step leaves one.

  Main declarations:
    * `workedClaim`, `abandonsClaim`
    * `AbandonsNone`
    * `Attended`, `attended_step`
    * `segment_never_left_blocked`
-/

------------------------------------------------------------
-- Claims that Are Worked For
------------------------------------------------------------

namespace Databasus

namespace WalStreaming

open Foundation
open Catalog

/- The claim that an upload is going to name or release. -/
def workedClaim : Stage → Option WalSegment
  | .discarding claim _ => some claim
  | .releasing claim => some claim
  | stage => heldClaim stage

/- The upload ends without a word on the claim of the row. -/
def endsWithout
    (upload : Upload)
    (answer : Answer)
    (row : WalSegment) : Bool :=
  match upload.stage with
  | .committing claim _ =>
      claim.id = row.id && answer ≠ .succeeded
  | .releasing claim =>
      claim.id = row.id && answer ≠ .succeeded
  | _ => false

/- The claims that an action leaves to nobody. -/
def abandonsClaim
    (s : State)
    (row : WalSegment) : Action → Bool
  | .advance runID answer =>
      (s.uploads.find? fun upload =>
        upload.runID = runID).any fun upload =>
          endsWithout upload answer row
  | .crash runID =>
      (s.uploads.find? fun upload =>
        upload.runID = runID).any fun upload =>
          (workedClaim upload.stage).any fun claim =>
            claim.id = row.id
  | _ => false

/- No claim of the segment is left behind by the action. -/
def AbandonsNone
    (key : ChainKey)
    (s : State)
    (action : Action) : Prop :=
  ∀ row ∈ s.segments,
    row.chainKey = key → row.isClaim = true →
      abandonsClaim s row action = false

instance instDecidableAbandonsNone
    (key : ChainKey)
    (s : State)
    (action : Action) :
    Decidable (AbandonsNone key s action) :=
  inferInstanceAs
    (Decidable (∀ row ∈ s.segments, _ → _ → _))

/- The row is that of the claim. -/
structure IsRowOf
    (claim row : WalSegment) : Prop where
  id : claim.id = row.id
  chainKey : claim.chainKey = row.chainKey

/- An upload under way works for the claim of the row. -/
def IsWorkedFor
    (uploads : List Upload)
    (row : WalSegment) : Prop :=
  ∃ upload ∈ uploads,
    ∃ claim ∈ workedClaim upload.stage, IsRowOf claim row

/- Every claim of the segment is worked for. -/
structure Attended
    (key : ChainKey)
    (s : State) : Prop where
  uniqueRuns : Table.UniqueBy Upload.runID s.uploads
  uniqueIDs : Table.UniqueBy WalSegment.id s.segments
  claims :
    ∀ row ∈ s.segments,
      row.chainKey = key → row.isClaim = true →
        IsWorkedFor s.uploads row

------------------------------------------------------------
-- Uploads that Go on and End
------------------------------------------------------------

variable {s : State}
variable {upload : Upload}
variable {row : WalSegment}
variable {stage : Stage}

/- Where the upload goes on with the claim, it is kept up. -/
theorem IsWorkedFor.setStage
    (hUnique : Table.UniqueBy Upload.runID s.uploads)
    (hUpload : upload ∈ s.uploads)
    (hWorked : IsWorkedFor s.uploads row)
    (hNext :
      ∀ claim ∈ workedClaim upload.stage,
        IsRowOf claim row →
          ∃ next ∈ workedClaim stage, IsRowOf next row) :
    IsWorkedFor (s.setStage upload stage).uploads row := by
  rcases hWorked with ⟨other, hOther, claim, hClaim, hID⟩
  by_cases hRun : other.runID = upload.runID
  · have hSame : other = upload :=
      hUnique.eq_of_key_eq hOther hUpload hRun
    subst hSame
    rcases hNext claim hClaim hID with ⟨next, hStage, hRow⟩
    refine
      ⟨{ other with stage := stage }, ?_, next, hStage, hRow⟩
    exact
      Table.mem_updateWhere_of_selects hOther
        (decide_eq_true rfl)
  · refine ⟨other, ?_, claim, hClaim, hID⟩
    exact
      Table.mem_updateWhere_of_not hOther
        (decide_eq_false hRun)

theorem IsWorkedFor.finish
    (hUnique : Table.UniqueBy Upload.runID s.uploads)
    (hUpload : upload ∈ s.uploads)
    (hWorked : IsWorkedFor s.uploads row)
    (hNone :
      ∀ claim ∈ workedClaim upload.stage,
        claim.id ≠ row.id) :
    IsWorkedFor (s.finish upload).uploads row := by
  rcases hWorked with ⟨other, hOther, claim, hClaim, hID⟩
  refine ⟨other, ?_, claim, hClaim, hID⟩
  apply (Table.mem_deleteWhere_iff _ _ _).mpr
  refine ⟨hOther, ?_⟩
  rw [decide_eq_false_iff_not]
  intro hRun
  have hSame : other = upload :=
    hUnique.eq_of_key_eq hOther hUpload hRun
  subst hSame
  exact hNone claim hClaim hID.id

variable {key : ChainKey}
variable {segments : List WalSegment}

/- The table may change, and the upload goes to a stage. -/
theorem Attended.toStage
    (hAttended : Attended key s)
    (hUpload : upload ∈ s.uploads)
    (hIDs : Table.UniqueBy WalSegment.id segments)
    (hRows :
      ∀ row ∈ segments,
        row.isClaim = true →
          row ∈ s.segments ∨
            ∃ next ∈ workedClaim stage, IsRowOf next row)
    (hNext :
      ∀ row ∈ segments,
        row.chainKey = key → row.isClaim = true →
          ∀ claim ∈ workedClaim upload.stage,
            IsRowOf claim row →
              ∃ next ∈ workedClaim stage, IsRowOf next row) :
    Attended key
      ({ s with segments := segments }.setStage upload
        stage) := by
  refine ⟨?_, hIDs, ?_⟩
  · apply hAttended.uniqueRuns.updateSelected
    · intro other hOther
      exact (of_decide_eq_true hOther).symm
  · intro row hRow hKey hClaim
    rcases hRows row hRow hClaim with hOld | ⟨next, hStage, hID⟩
    · exact
        (hAttended.claims row hOld hKey hClaim).setStage
          hAttended.uniqueRuns hUpload
          (hNext row hRow hKey hClaim)
    · refine
        ⟨{ upload with stage := stage }, ?_, next, hStage, hID⟩
      exact
        Table.mem_updateWhere_of_selects hUpload
          (decide_eq_true rfl)

/- The upload ends, and the table has no claim of it then. -/
theorem Attended.toEnd
    (hAttended : Attended key s)
    (hUpload : upload ∈ s.uploads)
    (hIDs : Table.UniqueBy WalSegment.id segments)
    (hRows : segments ⊆ s.segments)
    (hNone :
      ∀ row ∈ segments,
        row.chainKey = key → row.isClaim = true →
          ∀ claim ∈ workedClaim upload.stage,
            claim.id ≠ row.id) :
    Attended key
      ({ s with segments := segments }.finish upload) := by
  refine ⟨?_, hIDs, ?_⟩
  · exact hAttended.uniqueRuns.deleteWhere _
  · intro row hRow hKey hClaim
    exact
      (hAttended.claims row (hRows hRow) hKey hClaim).finish
        hAttended.uniqueRuns hUpload
        (hNone row hRow hKey hClaim)

------------------------------------------------------------
-- Calls of an Upload
------------------------------------------------------------

variable {claim : WalSegment}
variable {attempt : Attempt}
variable {answer : Answer}
variable {marking : WalSegmentUpload}

/- A call that changes no row, and goes on with the claim. -/
theorem Attended.goesOn
    (hAttended : Attended key s)
    (hUpload : upload ∈ s.uploads)
    (hNext :
      ∀ claim ∈ workedClaim upload.stage,
        claim ∈ workedClaim stage) :
    Attended key (s.setStage upload stage) := by
  refine
    hAttended.toStage hUpload hAttended.uniqueIDs
      (fun row hRow _ => Or.inl hRow) ?_
  intro row _ _ _ claim hClaim hID
  exact ⟨claim, hNext claim hClaim, hID⟩

theorem Attended.ends
    (hAttended : Attended key s)
    (hUpload : upload ∈ s.uploads)
    (hNone :
      ∀ row ∈ s.segments,
        row.chainKey = key → row.isClaim = true →
          ∀ claim ∈ workedClaim upload.stage,
            claim.id ≠ row.id) :
    Attended key (s.finish upload) :=
  hAttended.toEnd hUpload hAttended.uniqueIDs
    (List.Subset.refl _) hNone

theorem attended_claiming
    (hAttended : Attended key s)
    (hUpload : upload ∈ s.uploads)
    (hStage : upload.stage = .claiming claim) :
    Attended key (advanceClaiming s upload claim answer) := by
  have hNone : workedClaim upload.stage = none := by
    rw [hStage]
    rfl
  unfold advanceClaiming
  split
  · apply hAttended.ends hUpload
    intro row _ _ _ held hHeld
    rw [hNone] at hHeld
    cases hHeld
  · next segments hClaimed =>
      rcases claimSegment_claimed hClaimed with
        ⟨hFresh, _, hAppend⟩
      subst hAppend
      apply hAttended.toStage hUpload
      · exact hAttended.uniqueIDs.append hFresh
      · intro row hRow _
        rcases List.mem_append.mp hRow with hOld | hNew
        · exact Or.inl hOld
        · rw [List.mem_singleton.mp hNew]
          exact Or.inr ⟨claim, rfl, rfl, rfl⟩
      · intro row _ _ _ held hHeld
        rw [hNone] at hHeld
        cases hHeld
  · apply hAttended.goesOn hUpload
    intro held hHeld
    rw [hNone] at hHeld
    cases hHeld

theorem attended_probing
    (hAttended : Attended key s)
    (hUpload : upload ∈ s.uploads)
    (hStage : upload.stage = .probing claim) :
    Attended key (advanceProbing s upload claim answer) := by
  have hNone : workedClaim upload.stage = none := by
    rw [hStage]
    rfl
  have hEnds : Attended key (s.finish upload) := by
    apply hAttended.ends hUpload
    intro row _ _ _ held hHeld
    rw [hNone] at hHeld
    cases hHeld
  have hGoesOn :
      ∀ stage, Attended key (s.setStage upload stage) := by
    intro stage
    apply hAttended.goesOn hUpload
    intro held hHeld
    rw [hNone] at hHeld
    cases hHeld
  unfold advanceProbing
  split
  · simp only
    split
    · exact hGoesOn _
    · exact hGoesOn _
    · exact hEnds
  · exact hEnds

/- A named row is no claim any more. -/
theorem id_ne_of_markUploaded
    (hRow : row ∈ (markUploaded segments marking).1)
    (hClaim : row.isClaim = true) :
    row ∈ segments ∧ row.id ≠ marking.segmentID := by
  rcases (Table.mem_updateWhere_iff _ _ _ _).mp hRow with
    ⟨old, hOld, hChange⟩
  split at hChange
  · subst hChange
    cases hClaim
  · next hOther =>
      subst hChange
      refine ⟨hOld, ?_⟩
      intro hID
      apply hOther
      simp [isClaimWithID, hID, hClaim]

/- A commit that has met no claim has found none. -/
theorem id_ne_of_not_updated
    (hUnique : Table.UniqueBy WalSegment.id segments)
    (hLost : (markUploaded segments marking).2 = false)
    (hRow : row ∈ segments)
    (hClaim : row.isClaim = true) :
    row.id ≠ marking.segmentID := by
  intro hID
  have hSelects :
      isClaimWithID marking.segmentID row = true := by
    simp [isClaimWithID, hID, hClaim]
  have hOthers :
      ∀ other : WalSegment,
        isClaimWithID marking.segmentID other = true →
          other.id = row.id := by
    intro other hOther
    unfold isClaimWithID at hOther
    rw [Bool.and_eq_true, decide_eq_true_iff] at hOther
    rw [hOther.1, hID]
  have hOne := hUnique.affected_eq_one hRow hSelects hOthers
  simp [markUploaded, hOne] at hLost

/- What the guard says of an upload that may end. -/
def LeavesNone
    (key : ChainKey)
    (s : State)
    (upload : Upload)
    (answer : Answer) : Prop :=
  ∀ row ∈ s.segments,
    row.chainKey = key → row.isClaim = true →
      endsWithout upload answer row = false

theorem LeavesNone.committing
    (hLeaves : LeavesNone key s upload answer)
    (hStage : upload.stage = .committing claim attempt)
    (hAnswer : answer ≠ .succeeded)
    (hRow : row ∈ s.segments)
    (hKey : row.chainKey = key)
    (hClaim : row.isClaim = true) :
    claim.id ≠ row.id := by
  have hEnds := hLeaves row hRow hKey hClaim
  simpa [endsWithout, hStage, hAnswer] using hEnds

theorem attended_committing
    (hAttended : Attended key s)
    (hUpload : upload ∈ s.uploads)
    (hStage : upload.stage = .committing claim attempt)
    (hLeaves : LeavesNone key s upload answer) :
    Attended key
      (advanceCommitting s upload claim attempt answer) := by
  have hWorked : workedClaim upload.stage = some claim := by
    rw [hStage]
    rfl
  by_cases hAnswer : answer = .succeeded
  · subst hAnswer
    simp only [advanceCommitting, commitSegment]
    split
    · next hCommit => split at hCommit <;> cases hCommit
    · next hCommit =>
        split at hCommit
        · cases hCommit
          apply hAttended.toStage hUpload
          · exact hAttended.uniqueIDs.updateWhere fun _ => rfl
          · intro row hRow hClaim
            exact Or.inl (id_ne_of_markUploaded hRow hClaim).1
          · intro row hRow _ hClaim held hHeld hID
            rw [hWorked] at hHeld
            cases hHeld
            exact
              absurd hID.id.symm
                (id_ne_of_markUploaded hRow hClaim).2
        · cases hCommit
    · next hCommit =>
        split at hCommit
        · cases hCommit
        · next hLost =>
            rw [Bool.not_eq_true] at hLost
            refine
              hAttended.toStage hUpload hAttended.uniqueIDs
                (fun row hRow _ => Or.inl hRow) ?_
            intro row hRow _ hClaim held hHeld hID
            rw [hWorked] at hHeld
            cases hHeld
            exact
              absurd hID.id.symm
                (id_ne_of_not_updated hAttended.uniqueIDs
                  hLost hRow hClaim)
  · have hOthers :
        ∀ row ∈ s.segments,
          row.chainKey = key → row.isClaim = true →
            ∀ held ∈ workedClaim upload.stage,
              held.id ≠ row.id := by
      intro row hRow hKey hClaim held hHeld
      rw [hWorked] at hHeld
      cases hHeld
      exact hLeaves.committing hStage hAnswer hRow hKey hClaim
    have hUnchanged :
        ∀ segments isUpdated,
          commitSegment s.segments claim attempt answer =
              .ok (segments, isUpdated) →
            isUpdated = false := by
      intro segments isUpdated hCommit
      unfold commitSegment at hCommit
      cases answer with
      | succeeded => exact absurd rfl hAnswer
      | stalePublication =>
          cases hCommit
          rfl
      | databaseNotFound =>
          cases hCommit
          rfl
      | failed => cases hCommit
      | opened => cases hCommit
      | streamed => cases hCommit
    unfold advanceCommitting
    split
    · exact hAttended.ends hUpload hOthers
    · next hCommit => cases hUnchanged _ _ hCommit
    · refine
        hAttended.toStage hUpload hAttended.uniqueIDs
          (fun row hRow _ => Or.inl hRow) ?_
      intro row hRow hKey hClaim held hHeld hID
      exact
        absurd hID.id
          (hOthers row hRow hKey hClaim held hHeld)

theorem attended_releasing
    (hAttended : Attended key s)
    (hUpload : upload ∈ s.uploads)
    (hStage : upload.stage = .releasing claim)
    (hLeaves : LeavesNone key s upload answer) :
    Attended key (advanceReleasing s upload claim answer) := by
  have hWorked : workedClaim upload.stage = some claim := by
    rw [hStage]
    rfl
  unfold advanceReleasing
  split
  · apply hAttended.toEnd hUpload
    · exact hAttended.uniqueIDs.deleteWhere _
    · intro row hRow
      exact ((Table.mem_deleteWhere_iff _ _ _).mp hRow).1
    · intro row hRow _ hClaim held hHeld hID
      rw [hWorked] at hHeld
      cases hHeld
      have hKept :=
        ((Table.mem_deleteWhere_iff _ _ _).mp hRow).2
      simp [isClaimWithID, hID, hClaim] at hKept
  · next hFailed =>
      apply hAttended.ends hUpload
      intro row hRow hKey hClaim held hHeld
      rw [hWorked] at hHeld
      cases hHeld
      have hEnds := hLeaves row hRow hKey hClaim
      intro hID
      simp only [endsWithout, hStage, hID, decide_true,
        Bool.true_and, decide_eq_false_iff_not,
        not_not] at hEnds
      exact hFailed hEnds

theorem attended_advanceUpload
    (hAttended : Attended key s)
    (hUpload : upload ∈ s.uploads)
    (hLeaves : LeavesNone key s upload answer) :
    Attended key (advanceUpload s upload answer) := by
  have hGoesOn :
      ∀ {stage : Stage},
        (∀ claim ∈ workedClaim upload.stage,
          claim ∈ workedClaim stage) →
            Attended key (s.setStage upload stage) :=
    fun hNext => hAttended.goesOn hUpload hNext
  unfold advanceUpload
  cases hStage : upload.stage with
  | claiming claim =>
      exact attended_claiming hAttended hUpload hStage
  | probing claim =>
      exact attended_probing hAttended hUpload hStage
  | building claim =>
      rw [hStage] at hGoesOn
      simp only [advanceBuilding]
      split
      · exact hGoesOn fun _ hClaim => hClaim
      · exact hGoesOn fun _ hClaim => hClaim
  | writing claim attempt =>
      simp only [advanceWriting]
      split
      · have hStored :
            ∀ objects,
              Attended key { s with objects := objects } :=
          fun _ =>
            ⟨hAttended.uniqueRuns, hAttended.uniqueIDs,
              hAttended.claims⟩
        refine Attended.goesOn (hStored (_ :: s.objects)) ?_ ?_
        · exact hUpload
        · rw [hStage]
          exact fun _ hClaim => hClaim
      · rw [hStage] at hGoesOn
        exact hGoesOn fun _ hClaim => hClaim
  | waiting claim attempt =>
      rw [hStage] at hGoesOn
      simp only [advanceWaiting]
      split
      · exact hGoesOn fun _ hClaim => hClaim
      · exact hGoesOn fun _ hClaim => hClaim
  | writingSidecar claim attempt =>
      rw [hStage] at hGoesOn
      simp only [advanceWritingSidecar]
      split
      · exact hGoesOn fun _ hClaim => hClaim
      · exact hGoesOn fun _ hClaim => hClaim
  | committing claim attempt =>
      exact attended_committing hAttended hUpload hStage hLeaves
  | discarding claim attempt =>
      rw [hStage] at hGoesOn
      exact hGoesOn fun _ hClaim => hClaim
  | releasing claim =>
      exact attended_releasing hAttended hUpload hStage hLeaves
  | discardingUnpublished attempt =>
      rw [hStage] at hGoesOn
      exact hGoesOn fun _ hClaim => hClaim
  | removing =>
      have hEnds : Attended key (s.finish upload) := by
        apply hAttended.ends hUpload
        rw [hStage]
        intro row _ _ _ held hHeld
        cases hHeld
      simp only [advanceRemoving]
      split
      · exact ⟨hEnds.uniqueRuns, hEnds.uniqueIDs, hEnds.claims⟩
      · exact hEnds

------------------------------------------------------------
-- Steps of the System
------------------------------------------------------------

variable {segSizeOf : Uuid → Nat}
variable {s' : State}

/- A new upload takes nothing from the others. -/
theorem attended_beginUpload
    {runID claimID : Uuid}
    {deps : UploaderDeps}
    {file : LocalFile}
    {isRecovering : Bool}
    (hAttended : Attended key s)
    (hBegin :
      beginUpload segSizeOf s runID claimID deps file
          isRecovering =
        some s') :
    Attended key s' := by
  unfold beginUpload at hBegin
  split at hBegin
  · next hNew =>
      split at hBegin
      · cases hBegin
        exact hAttended
      · cases hBegin
        refine ⟨?_, hAttended.uniqueIDs, ?_⟩
        · unfold Table.UniqueBy
          rw [List.map_cons, List.nodup_cons]
          refine ⟨?_, hAttended.uniqueRuns⟩
          intro hTaken
          rcases List.mem_map.mp hTaken with
            ⟨other, hOther, hRun⟩
          exact hNew.2 other hOther hRun
        · intro row hRow hKey hClaim
          rcases hAttended.claims row hRow hKey hClaim with
            ⟨upload, hUpload, hWorked⟩
          exact
            ⟨upload, List.mem_cons_of_mem _ hUpload, hWorked⟩
  · cases hBegin

theorem attended_step
    (action : Action)
    (hAttended : Attended key s)
    (hAbandons : AbandonsNone key s action)
    (hStep : step segSizeOf s action = some s') :
    Attended key s' := by
  cases action with
  | tick later =>
      simp only [step] at hStep
      split at hStep
      · cases hStep
        exact
          ⟨hAttended.uniqueRuns, hAttended.uniqueIDs,
            hAttended.claims⟩
      · cases hStep
  | fileArrives file =>
      simp only [step] at hStep
      split at hStep
      · cases hStep
        exact
          ⟨hAttended.uniqueRuns, hAttended.uniqueIDs,
            hAttended.claims⟩
      · cases hStep
  | processSegment runID claimID deps file =>
      exact attended_beginUpload hAttended hStep
  | recoverSegment runID claimID deps file =>
      exact attended_beginUpload hAttended hStep
  | advance runID answer =>
      simp only [step, Option.map_eq_some_iff] at hStep
      rcases hStep with ⟨upload, hFound, rfl⟩
      apply attended_advanceUpload hAttended
      · exact List.mem_of_find?_eq_some hFound
      · intro row hRow hKey hClaim
        have hKept := hAbandons row hRow hKey hClaim
        simpa only [abandonsClaim, hFound, Option.any_some]
          using hKept
  | crash runID =>
      simp only [step, Option.map_eq_some_iff] at hStep
      rcases hStep with ⟨upload, hFound, rfl⟩
      apply hAttended.ends
      · exact List.mem_of_find?_eq_some hFound
      · intro row hRow hKey hClaim claim hWorked
        have hKept := hAbandons row hRow hKey hClaim
        simp only [abandonsClaim, hFound, Option.any_some]
          at hKept
        rw [Option.mem_def.mp hWorked, Option.any_some]
          at hKept
        exact of_decide_eq_false hKept
  | reapAbandonedWalClaims databaseID =>
      cases hStep
      refine
        ⟨hAttended.uniqueRuns,
          hAttended.uniqueIDs.deleteWhere _, ?_⟩
      intro row hRow hKey hClaim
      exact
        hAttended.claims row
          ((Table.mem_deleteWhere_iff _ _ _).mp hRow).1 hKey
          hClaim

/- A free key can be claimed. -/
theorem claimSegment_free
    {segments : List WalSegment}
    {claim : WalSegment}
    (hFresh : ∀ row ∈ segments, row.id ≠ claim.id)
    (hFree :
      ∀ row ∈ segments, row.chainKey ≠ claim.chainKey) :
    claimSegment segments claim .succeeded =
      .ok (segments ++ [claim], true) := by
  simp only [claimSegment, claimInsert]
  rw [if_neg, if_neg]
  · simpa using hFree
  · simpa using hFresh

/-
  In a run whose steps abandon no claim of a segment, each
  claim of it has an upload under way.  Once there is none,
  the segment is committed or the next call can claim it.
-/
theorem segment_never_left_blocked
    (segSizeOf : Uuid → Nat)
    (key : ChainKey)
    (start : State)
    (hStart : (system segSizeOf).initial start)
    (hClean :
      ∀ row ∈ start.segments,
        row.chainKey = key → row.isClaim = false)
    (actions : List Action)
    (s : State)
    (hRun :
      (system segSizeOf).perform start actions = some s)
    (hMeets :
      (system segSizeOf).MeetsAlong (AbandonsNone key) start
        actions) :
    (∀ row ∈ s.segments,
        row.chainKey = key → row.isClaim = true →
          IsWorkedFor s.uploads row) ∧
      ((∀ upload ∈ s.uploads,
          ∀ claim ∈ workedClaim upload.stage,
            claim.chainKey ≠ key) →
        (∃ row ∈ s.segments,
            row.chainKey = key ∧ row.isClaim = false) ∨
          ∀ claim : WalSegment,
            claim.chainKey = key →
              (∀ row ∈ s.segments, row.id ≠ claim.id) →
                claimSegment s.segments claim .succeeded =
                  .ok (s.segments ++ [claim], true)) := by
  have hStarted : Attended key start := by
    rcases hStart with ⟨hIDs, _, hNone⟩
    refine ⟨?_, hIDs, ?_⟩
    · rw [hNone]
      exact List.nodup_nil
    · intro row hRow hKey hClaim
      rw [hClean row hRow hKey] at hClaim
      cases hClaim
  have hKeeps :
      ∀ s action s',
        Attended key s → AbandonsNone key s action →
          (system segSizeOf).step s action = some s' →
            Attended key s' :=
    fun _ action _ hHolds hGuard hTaken =>
      attended_step action hHolds hGuard hTaken
  have hAttended : Attended key s :=
    TransitionSystem.perform_invariant_while hKeeps actions
      hStarted hMeets hRun
  refine ⟨hAttended.claims, ?_⟩
  intro hNobody
  by_cases hCommitted :
      ∃ row ∈ s.segments,
        row.chainKey = key ∧ row.isClaim = false
  · exact Or.inl hCommitted
  · refine Or.inr fun claim hKey hFresh => ?_
    apply claimSegment_free hFresh
    intro row hRow hSame
    rw [hKey] at hSame
    have hClaim : row.isClaim = true := by
      by_contra hNamed
      exact
        hCommitted ⟨row, hRow, hSame, by simpa using hNamed⟩
    rcases hAttended.claims row hRow hSame hClaim with
      ⟨upload, hUpload, worked, hWorked, hRowOf⟩
    exact
      hNobody upload hUpload worked hWorked
        (hRowOf.chainKey.trans hSame)

def sampleKey : ChainKey :=
  { databaseID := 1
    timelineID := 1
    startLSN := 16777216 }

/- The write fails, the claim is released, and taken anew. -/
def failedWrite : List Action :=
  [.processSegment 1 101 sampleDeps sampleFile,
    .advance 1 .succeeded, .advance 1 (.opened 7 "" ""),
    .advance 1 .failed, .advance 1 .succeeded,
    .advance 1 .succeeded,
    .processSegment 2 102 sampleDeps sampleFile,
    .advance 2 .succeeded]

theorem failed_write_not_blocking :
    ∃ s,
      (system sampleSegSizeOf).perform sampleState
          failedWrite =
          some s ∧
        ∀ row ∈ s.segments,
          row.chainKey = sampleKey → row.isClaim = true →
            IsWorkedFor s.uploads row := by
  have hSome :
      ((system sampleSegSizeOf).perform sampleState
        failedWrite).isSome := by
    decide +kernel
  rcases Option.isSome_iff_exists.mp hSome with ⟨s, hRun⟩
  exact
    ⟨s, hRun,
      (segment_never_left_blocked sampleSegSizeOf sampleKey
        sampleState initial_sampleState (by decide)
        failedWrite s hRun (by decide +kernel)).1⟩

/-
  The commit fails.  The next call finds the claim that was
  left, and waits for an upload that nobody makes.
-/
def failedCommit : List Action :=
  [.processSegment 1 101 sampleDeps sampleFile,
    .advance 1 .succeeded, .advance 1 (.opened 7 "" ""),
    .advance 1 .succeeded, .advance 1 (.streamed 1048576),
    .advance 1 .succeeded, .advance 1 .failed,
    .processSegment 2 102 sampleDeps sampleFile,
    .advance 2 .succeeded, .advance 2 .succeeded]

/- Nobody works for the claim, and the file is still there. -/
theorem failed_commit_blocks_segment :
    (system sampleSegSizeOf).initial sampleState ∧
      sampleState.segments = [] ∧
        ∃ s,
          (system sampleSegSizeOf).perform sampleState
              failedCommit =
              some s ∧
            s.uploads = [] ∧ sampleFile ∈ s.files ∧
              ∃ row ∈ s.segments,
                row.chainKey = sampleKey ∧
                  row.isClaim = true := by
  refine ⟨initial_sampleState, rfl, ?_⟩
  have hBlocked :
      (((system sampleSegSizeOf).perform sampleState
        failedCommit).any fun s =>
          s.uploads = [] ∧ sampleFile ∈ s.files ∧
            ∃ row ∈ s.segments,
              row.chainKey = sampleKey ∧
                row.isClaim = true) =
        true := by
    decide +kernel
  rcases (Option.any_eq_true _ _).mp hBlocked with
    ⟨s, hRun, hHolds⟩
  exact ⟨s, hRun, of_decide_eq_true hHolds⟩

end WalStreaming

end Databasus
