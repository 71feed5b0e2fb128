import Databasus.WalStreaming.Upload

/-
  A local segment file is removed only when it is archived.

  An upload that has reached the removal of its file relies on
  the row of its claim.  The row is there as long as nobody
  deletes a claim that an upload under way holds.

  Main declarations:
    * `Archived`
    * `KeepsHeldClaims`
    * `UploadInvariant`
    * `uploadInvariant_step`
    * `removed_files_are_archived`
-/

------------------------------------------------------------
-- Claims that Uploads Hold
------------------------------------------------------------

namespace Databasus

namespace WalStreaming

open Foundation
open Catalog

/- The claim an upload works for. -/
def claimOf : Stage → Option WalSegment
  | .claiming claim => some claim
  | .probing claim => some claim
  | .building claim => some claim
  | .writing claim _ => some claim
  | .waiting claim _ => some claim
  | .writingSidecar claim _ => some claim
  | .committing claim _ => some claim
  | .discarding claim _ => some claim
  | .releasing claim => some claim
  | .discardingUnpublished _ => none
  | .removing => none

/- The claim an upload holds until its commit answers. -/
def heldClaim : Stage → Option WalSegment
  | .building claim => some claim
  | .writing claim _ => some claim
  | .waiting claim _ => some claim
  | .writingSidecar claim _ => some claim
  | .committing claim _ => some claim
  | _ => none

/- The upload is about to remove its file. -/
def isRemovingStage : Stage → Bool
  | .discardingUnpublished _ => true
  | .removing => true
  | _ => false

/- The catalog names a stored file for the segment's key. -/
def Archived
    (segSizeOf : Uuid → Nat)
    (segments : List WalSegment)
    (file : LocalFile) : Prop :=
  ∃ row ∈ segments,
    file.chainKey (segSizeOf file.databaseID) =
        some row.chainKey ∧
      row.fileName.isSome

instance instDecidableArchived
    (segSizeOf : Uuid → Nat)
    (segments : List WalSegment)
    (file : LocalFile) :
    Decidable (Archived segSizeOf segments file) :=
  inferInstanceAs (Decidable (∃ row ∈ segments, _))

/- Every file that a step removes is archived. -/
def RemovesOnlyArchived
    (segSizeOf : Uuid → Nat)
    (s : State)
    (action : Action) : Prop :=
  ∀ s' ∈ step segSizeOf s action,
    ∀ file ∈ s.files,
      file ∉ s'.files →
        Archived segSizeOf s'.segments file

instance instDecidableRemovesOnlyArchived
    (segSizeOf : Uuid → Nat)
    (s : State)
    (action : Action) :
    Decidable (RemovesOnlyArchived segSizeOf s action) :=
  inferInstanceAs
    (Decidable
      (∀ s' ∈ step segSizeOf s action,
        ∀ file ∈ s.files, _ → _))

/-
  The storage and the database stay, and streaming stays
  enabled: no transaction finds its publication stale.
-/
def keepsStreaming : Action → Bool
  | .advance _ .stalePublication => false
  | .advance _ .databaseNotFound => false
  | _ => true

/- The claims that an action deletes. -/
def deletesClaim
    (s : State) : Action → WalSegment → Bool
  | .reapAbandonedWalClaims databaseID =>
      isAbandonedClaim databaseID
        (s.now - walClaimGracePeriod)
  | .advance runID .succeeded =>
      match
        s.uploads.find? fun upload => upload.runID = runID
      with
      | some { stage := .releasing claim, .. } =>
          isClaimWithID claim.id
      | _ => fun _ => false
  | _ => fun _ => false

/- No claim is deleted that an upload under way holds. -/
def KeepsHeldClaims
    (s : State)
    (action : Action) : Prop :=
  ∀ row ∈ s.segments,
    deletesClaim s action row = true →
      ∀ upload ∈ s.uploads,
        ∀ claim ∈ heldClaim upload.stage,
          claim.id ≠ row.id

instance instDecidableKeepsHeldClaims
    (s : State)
    (action : Action) :
    Decidable (KeepsHeldClaims s action) :=
  inferInstanceAs
    (Decidable
      (∀ row ∈ s.segments, _ →
        ∀ upload ∈ s.uploads,
          ∀ claim ∈ heldClaim upload.stage, _))

------------------------------------------------------------
-- Tables that Keep Rows
------------------------------------------------------------

/- The row is there, perhaps with a file name since then. -/
def Persists
    (row : WalSegment)
    (segments : List WalSegment) : Prop :=
  ∃ kept ∈ segments,
    kept.id = row.id ∧ kept.chainKey = row.chainKey ∧
      (row.fileName.isSome → kept.fileName.isSome)

variable {segments : List WalSegment}
variable {row : WalSegment}

theorem persists_of_mem
    (hRow : row ∈ segments) :
    Persists row segments :=
  ⟨row, hRow, rfl, rfl, id⟩

/- Naming files in rows removes no row and no name. -/
theorem persists_markUploaded
    (upload : WalSegmentUpload)
    (hRow : row ∈ segments) :
    Persists row (markUploaded segments upload).1 := by
  by_cases hSelects :
      isClaimWithID upload.segmentID row = true
  · refine ⟨upload.applyTo row, ?_, rfl, rfl, ?_⟩
    · exact Table.mem_updateWhere_of_selects hRow hSelects
    · intro _
      rfl
  · apply persists_of_mem
    exact
      Table.mem_updateWhere_of_not hRow
        (by simpa using hSelects)

/- A deletion spares the rows it does not select. -/
theorem persists_deleteWhere
    {selects : WalSegment → Bool}
    (hRow : row ∈ segments)
    (hSelects : selects row = false) :
    Persists row (Table.deleteWhere selects segments) :=
  persists_of_mem
    ((Table.mem_deleteWhere_iff _ _ _).mpr
      ⟨hRow, hSelects⟩)

/- Only claims are ever deleted. -/
theorem not_selected_of_archived
    (hArchived : row.fileName.isSome)
    (id databaseID : Uuid)
    (olderThan : Time) :
    isClaimWithID id row = false ∧
      isAbandonedClaim databaseID olderThan row = false := by
  have hNotClaim : row.isClaim = false := by
    unfold WalSegment.isClaim
    rw [decide_eq_false_iff_not]
    intro hNone
    rw [hNone] at hArchived
    exact Bool.false_ne_true hArchived
  simp [isClaimWithID, isAbandonedClaim, hNotClaim]

------------------------------------------------------------
-- The Invariant of Uploads
------------------------------------------------------------

variable {upload : Upload}
variable {s : State}
variable {stage : Stage}

/- What an upload relies on, wherever it stands. -/
structure UploadSound
    (segSizeOf : Uuid → Nat)
    (segments : List WalSegment)
    (upload : Upload) : Prop where
  key :
    ∀ claim ∈ claimOf upload.stage,
      upload.file.chainKey
          (segSizeOf upload.file.databaseID) =
        some claim.chainKey
  held :
    ∀ claim ∈ heldClaim upload.stage,
      ∃ row ∈ segments,
        row.id = claim.id ∧ row.chainKey = claim.chainKey
  archived :
    isRemovingStage upload.stage = true →
      Archived segSizeOf segments upload.file

structure UploadInvariant
    (segSizeOf : Uuid → Nat)
    (s : State) : Prop where
  uniqueIDs : Table.UniqueBy WalSegment.id s.segments
  uniqueKeys : Table.UniqueBy WalSegment.chainKey s.segments
  uploads :
    ∀ upload ∈ s.uploads,
      UploadSound segSizeOf s.segments upload

variable {segSizeOf : Uuid → Nat}
variable {segments segments' : List WalSegment}

theorem archived_of_persists
    {file : LocalFile}
    (hPersists :
      ∀ row ∈ segments, row.fileName.isSome →
        Persists row segments')
    (hArchived : Archived segSizeOf segments file) :
    Archived segSizeOf segments' file := by
  rcases hArchived with ⟨row, hRow, hKey, hName⟩
  rcases hPersists row hRow hName with
    ⟨kept, hKept, _, hKeptKey, hKeptName⟩
  refine ⟨kept, hKept, ?_, hKeptName hName⟩
  rw [hKey, hKeptKey]

/- An upload stays sound while its rows persist. -/
theorem UploadSound.persists
    (hSound : UploadSound segSizeOf segments upload)
    (hPersists :
      ∀ row ∈ segments,
        row.fileName.isSome ∨
            (∃ claim ∈ heldClaim upload.stage,
              row.id = claim.id) →
          Persists row segments') :
    UploadSound segSizeOf segments' upload := by
  refine ⟨hSound.key, ?_, ?_⟩
  · intro claim hClaim
    rcases hSound.held claim hClaim with
      ⟨row, hRow, hID, hKey⟩
    rcases
        hPersists row hRow (Or.inr ⟨claim, hClaim, hID⟩) with
      ⟨kept, hKept, hKeptID, hKeptKey, _⟩
    exact
      ⟨kept, hKept, hKeptID.trans hID,
        hKeptKey.trans hKey⟩
  · intro hRemoving
    apply archived_of_persists _ (hSound.archived hRemoving)
    intro row hRow hName
    exact hPersists row hRow (Or.inl hName)

/- The uploads after one of them has changed its stage. -/
theorem mem_setStage
    {upload other : Upload}
    (hOther : other ∈ (s.setStage upload stage).uploads) :
    other ∈ s.uploads ∨
      other = { upload with stage := stage } := by
  rcases (Table.mem_updateWhere_iff _ _ _ _).mp hOther with
    ⟨old, hOld, hChange⟩
  split at hChange
  · exact Or.inr hChange.symm
  · rw [← hChange]
    exact Or.inl hOld

/- A new stage has to be sound for the upload it is of. -/
theorem UploadInvariant.setStage
    (hHolds : UploadInvariant segSizeOf s)
    (hSound :
      UploadSound segSizeOf s.segments
        { upload with stage := stage }) :
    UploadInvariant segSizeOf (s.setStage upload stage) := by
  refine ⟨hHolds.uniqueIDs, hHolds.uniqueKeys, ?_⟩
  intro other hOther
  rcases mem_setStage hOther with hOld | rfl
  · exact hHolds.uploads other hOld
  · exact hSound

theorem UploadInvariant.finish
    (hHolds : UploadInvariant segSizeOf s)
    (upload : Upload) :
    UploadInvariant segSizeOf (s.finish upload) := by
  refine ⟨hHolds.uniqueIDs, hHolds.uniqueKeys, ?_⟩
  intro other hOther
  exact
    hHolds.uploads other
      ((Table.mem_deleteWhere_iff _ _ _).mp hOther).1

/- A change of the table that keeps what uploads rely on. -/
theorem UploadInvariant.withSegments
    (hHolds : UploadInvariant segSizeOf s)
    (hIDs : Table.UniqueBy WalSegment.id segments')
    (hKeys : Table.UniqueBy WalSegment.chainKey segments')
    (hPersists :
      ∀ row ∈ s.segments,
        row.fileName.isSome ∨
            (∃ upload ∈ s.uploads,
              ∃ claim ∈ heldClaim upload.stage,
                row.id = claim.id) →
          Persists row segments') :
    UploadInvariant segSizeOf
      { s with segments := segments' } := by
  refine ⟨hIDs, hKeys, ?_⟩
  intro upload hUpload
  apply (hHolds.uploads upload hUpload).persists
  intro row hRow hNeeded
  apply hPersists row hRow
  rcases hNeeded with hName | ⟨claim, hClaim, hID⟩
  · exact Or.inl hName
  · exact Or.inr ⟨upload, hUpload, claim, hClaim, hID⟩

------------------------------------------------------------
-- Transactions and the Invariant
------------------------------------------------------------

variable {claim : WalSegment}
variable {attempt : Attempt}
variable {answer : Answer}
variable {file : LocalFile}

/- A claim is inserted under an id and a key of its own. -/
theorem claimSegment_claimed
    (hClaimed :
      claimSegment segments claim answer =
        .ok (segments', true)) :
    (∀ row ∈ segments, row.id ≠ claim.id) ∧
      (∀ row ∈ segments, row.chainKey ≠ claim.chainKey) ∧
        segments' = segments ++ [claim] := by
  unfold claimSegment at hClaimed
  cases answer with
  | succeeded =>
      simp only at hClaimed
      split at hClaimed
      · cases hClaimed
      · next hFresh =>
          have hInsert := Except.ok.inj hClaimed
          rcases claimInsert_inserted hInsert with
            ⟨hKeys, hAppend⟩
          refine ⟨?_, hKeys, hAppend⟩
          intro row hRow hID
          apply hFresh
          rw [List.any_eq_true]
          exact ⟨row, hRow, decide_eq_true hID⟩
  | failed => cases hClaimed
  | opened => cases hClaimed
  | streamed => cases hClaimed
  | stalePublication => cases hClaimed
  | databaseNotFound => cases hClaimed

/- A row that is no claim names its file. -/
theorem fileName_isSome_of_not_selected
    (hID : row.id = claim.id)
    (hSelects : isClaimWithID claim.id row = false) :
    row.fileName.isSome := by
  have hNamed : row.fileName ≠ none := by
    simpa [isClaimWithID, WalSegment.isClaim, hID] using
      hSelects
  exact Option.isSome_iff_ne_none.mpr hNamed

/- After a commit the row of a held claim names a file. -/
theorem archived_of_committed
    (upload : WalSegmentUpload)
    (hUpload : upload.segmentID = claim.id)
    (hKey :
      file.chainKey (segSizeOf file.databaseID) =
        some claim.chainKey)
    (hHeld :
      ∃ row ∈ segments,
        row.id = claim.id ∧ row.chainKey = claim.chainKey) :
    Archived segSizeOf (markUploaded segments upload).1
      file := by
  rcases hHeld with ⟨row, hRow, hID, hRowKey⟩
  by_cases hSelects :
      isClaimWithID upload.segmentID row = true
  · refine ⟨upload.applyTo row, ?_, ?_, rfl⟩
    · exact Table.mem_updateWhere_of_selects hRow hSelects
    · rw [hKey, ← hRowKey]
      rfl
  · have hSpared :
        isClaimWithID upload.segmentID row = false := by
      simpa using hSelects
    refine ⟨row, ?_, ?_, ?_⟩
    · exact Table.mem_updateWhere_of_not hRow hSpared
    · rw [hKey, hRowKey]
    · rw [hUpload] at hSpared
      exact fileName_isSome_of_not_selected hID hSpared

/- A commit that finds no claim: its row names a file. -/
theorem archived_of_not_updated
    (upload : WalSegmentUpload)
    (hUpload : upload.segmentID = claim.id)
    (hUnique : Table.UniqueBy WalSegment.id segments)
    (hLost : (markUploaded segments upload).2 = false)
    (hKey :
      file.chainKey (segSizeOf file.databaseID) =
        some claim.chainKey)
    (hHeld :
      ∃ row ∈ segments,
        row.id = claim.id ∧ row.chainKey = claim.chainKey) :
    Archived segSizeOf segments file := by
  rcases hHeld with ⟨row, hRow, hID, hRowKey⟩
  have hSpared : isClaimWithID claim.id row = false := by
    by_contra hSelects
    rw [Bool.not_eq_false] at hSelects
    have hOthers :
        ∀ other : WalSegment,
          isClaimWithID claim.id other = true →
            other.id = row.id := by
      intro other hOther
      unfold isClaimWithID at hOther
      rw [Bool.and_eq_true, decide_eq_true_iff] at hOther
      rw [hOther.1, hID]
    have hOne := hUnique.affected_eq_one hRow hSelects hOthers
    simp [markUploaded, hUpload, hOne] at hLost
  refine ⟨row, hRow, ?_, ?_⟩
  · rw [hKey, hRowKey]
  · exact fileName_isSome_of_not_selected hID hSpared

/- What a commit leaves behind, apart from failing. -/
theorem commitSegment_ok
    {isUpdated : Bool}
    (hStreaming :
      answer ≠ .stalePublication ∧
        answer ≠ .databaseNotFound)
    (hCommit :
      commitSegment segments claim attempt answer =
        .ok (segments', isUpdated)) :
    ∃ upload : WalSegmentUpload,
      upload.segmentID = claim.id ∧
        (markUploaded segments upload).2 = isUpdated ∧
          segments' =
            if isUpdated then
              (markUploaded segments upload).1
            else
              segments := by
  unfold commitSegment at hCommit
  cases answer with
  | succeeded =>
      refine
        ⟨{ segmentID := claim.id
           fileName := attempt.objectName
           compressedSizeMb :=
             (attempt.compressedSizeBytes : Rat) /
               (1024 * 1024)
           encryptionSalt := nilIfEmpty attempt.salt
           encryptionIV := nilIfEmpty attempt.iv },
          rfl, ?_⟩
      simp only at hCommit
      split at hCommit
      · next hUpdated =>
          cases hCommit
          exact ⟨hUpdated, rfl⟩
      · next hLost =>
          cases hCommit
          exact ⟨by simpa using hLost, rfl⟩
  | failed => cases hCommit
  | opened => cases hCommit
  | streamed => cases hCommit
  | stalePublication => exact absurd rfl hStreaming.1
  | databaseNotFound => exact absurd rfl hStreaming.2

------------------------------------------------------------
-- The Calls of an Upload Keep the Invariant
------------------------------------------------------------

variable {s : State}
variable {upload : Upload}

/- A stage that asks for no more than the one before it. -/
theorem UploadSound.withStage
    {segments : List WalSegment}
    (hSound : UploadSound segSizeOf segments upload)
    (hKey :
      ∀ claim ∈ claimOf stage, claim ∈ claimOf upload.stage)
    (hHeld :
      ∀ claim ∈ heldClaim stage,
        claim ∈ heldClaim upload.stage)
    (hRemoving :
      isRemovingStage stage = true →
        isRemovingStage upload.stage = true) :
    UploadSound segSizeOf segments
      { upload with stage := stage } := by
  refine ⟨?_, ?_, ?_⟩
  · intro claim hClaim
    exact hSound.key claim (hKey claim hClaim)
  · intro claim hClaim
    exact hSound.held claim (hHeld claim hClaim)
  · intro hStage
    exact hSound.archived (hRemoving hStage)

/- An upload may go on to such a stage. -/
theorem UploadInvariant.toStage
    (hHolds : UploadInvariant segSizeOf s)
    (hUpload : upload ∈ s.uploads)
    (hKey :
      ∀ claim ∈ claimOf stage, claim ∈ claimOf upload.stage)
    (hHeld :
      ∀ claim ∈ heldClaim stage,
        claim ∈ heldClaim upload.stage)
    (hRemoving :
      isRemovingStage stage = true →
        isRemovingStage upload.stage = true) :
    UploadInvariant segSizeOf (s.setStage upload stage) :=
  hHolds.setStage
    ((hHolds.uploads upload hUpload).withStage hKey hHeld
      hRemoving)

/- An upload whose file is archived may remove it. -/
theorem UploadInvariant.toRemoval
    (hHolds : UploadInvariant segSizeOf s)
    (hStage : claimOf stage = none ∧ heldClaim stage = none)
    (hArchived :
      Archived segSizeOf s.segments upload.file) :
    UploadInvariant segSizeOf (s.setStage upload stage) := by
  apply hHolds.setStage
  refine ⟨?_, ?_, fun _ => hArchived⟩
  · intro claim hClaim
    simp [hStage.1] at hClaim
  · intro claim hClaim
    simp [hStage.2] at hClaim

theorem uploadInvariant_claiming
    (hHolds : UploadInvariant segSizeOf s)
    (hUpload : upload ∈ s.uploads)
    (hStage : upload.stage = .claiming claim)
    (answer : Answer) :
    UploadInvariant segSizeOf
      (advanceClaiming s upload claim answer) := by
  have hKey :=
    (hHolds.uploads upload hUpload).key claim
      (by simp [hStage, claimOf])
  unfold advanceClaiming
  split
  · exact hHolds.finish upload
  · next segments hClaimed =>
      rcases claimSegment_claimed hClaimed with
        ⟨hFreshID, hFreshKey, hAppend⟩
      have hClaimRow : claim ∈ segments := by
        rw [hAppend]
        exact List.mem_append_right _ (List.mem_singleton_self _)
      have hInserted :
          UploadInvariant segSizeOf
            { s with segments := segments } := by
        apply hHolds.withSegments
        · rw [hAppend]
          exact hHolds.uniqueIDs.append hFreshID
        · rw [hAppend]
          exact hHolds.uniqueKeys.append hFreshKey
        · intro row hRow _
          apply persists_of_mem
          rw [hAppend]
          exact List.mem_append_left _ hRow
      apply hInserted.setStage
      refine ⟨?_, ?_, ?_⟩
      · intro held hHeld
        cases hHeld
        exact hKey
      · intro held hHeld
        cases hHeld
        exact ⟨claim, hClaimRow, rfl, rfl⟩
      · intro hRemoving
        cases hRemoving
  · apply hHolds.toStage hUpload
    · intro held hHeld
      rw [hStage]
      exact hHeld
    · intro held hHeld
      cases hHeld
    · intro hRemoving
      cases hRemoving

/-
  The row under the key is archived, or is taken up as the
  claim of a recovery, or the upload ends.
-/
theorem uploadInvariant_probing
    (hHolds : UploadInvariant segSizeOf s)
    (hUpload : upload ∈ s.uploads)
    (hStage : upload.stage = .probing claim)
    (answer : Answer) :
    UploadInvariant segSizeOf
      (advanceProbing s upload claim answer) := by
  have hKey :=
    (hHolds.uploads upload hUpload).key claim
      (by simp [hStage, claimOf])
  unfold advanceProbing
  cases answer with
  | succeeded =>
      simp only
      split
      · next hDecision =>
          cases hRow :
            findByChainKey s.segments claim.chainKey with
          | none =>
              simp [hRow, decideExistingWalClaim] at hDecision
          | some row =>
              rcases Table.lookup_some hRow with
                ⟨hMember, hRowKey⟩
              apply hHolds.toRemoval ⟨rfl, rfl⟩
              refine ⟨row, hMember, ?_, ?_⟩
              · rw [hKey, hRowKey]
              · by_contra hNamed
                rw [Bool.not_eq_true] at hNamed
                simp only [hRow, decideExistingWalClaim,
                  hNamed, Bool.false_eq_true,
                  if_false] at hDecision
                split at hDecision <;> cases hDecision
      · next row _ hRow =>
          rcases Table.lookup_some hRow with
            ⟨hMember, hRowKey⟩
          apply hHolds.setStage
          refine ⟨?_, ?_, ?_⟩
          · intro held hHeld
            cases hHeld
            rw [hRowKey]
            exact hKey
          · intro held hHeld
            cases hHeld
            exact ⟨row, hMember, rfl, rfl⟩
          · intro hRemoving
            cases hRemoving
      · exact hHolds.finish upload
  | failed => exact hHolds.finish upload
  | opened => exact hHolds.finish upload
  | streamed => exact hHolds.finish upload
  | stalePublication => exact hHolds.finish upload
  | databaseNotFound => exact hHolds.finish upload

/-
  While it stores its artifact an upload keeps its claim, or
  gives it up to release it.
-/
theorem uploadInvariant_storing
    (hHolds : UploadInvariant segSizeOf s)
    (hUpload : upload ∈ s.uploads)
    (hHeld : heldClaim upload.stage = some claim)
    (hKey : claimOf upload.stage = some claim)
    (hNext :
      claimOf stage = some claim ∧
        (heldClaim stage = some claim ∨
          heldClaim stage = none) ∧
        isRemovingStage stage = false) :
    UploadInvariant segSizeOf (s.setStage upload stage) := by
  rcases hNext with ⟨hNextKey, hNextHeld, hNextRemoving⟩
  apply hHolds.toStage hUpload
  · intro held hMember
    rw [hNextKey] at hMember
    rw [hKey]
    exact hMember
  · intro held hMember
    rcases hNextHeld with hSome | hNone
    · rw [hSome] at hMember
      rw [hHeld]
      exact hMember
    · rw [hNone] at hMember
      cases hMember
  · intro hRemoving
    rw [hNextRemoving] at hRemoving
    cases hRemoving

theorem uploadInvariant_writing
    (hHolds : UploadInvariant segSizeOf s)
    (hUpload : upload ∈ s.uploads)
    (hStage : upload.stage = .writing claim attempt)
    (answer : Answer) :
    UploadInvariant segSizeOf
      (advanceWriting s upload claim attempt answer) := by
  have hHeld : heldClaim upload.stage = some claim := by
    rw [hStage]
    rfl
  have hKey : claimOf upload.stage = some claim := by
    rw [hStage]
    rfl
  unfold advanceWriting
  split
  · next =>
      have hStored : ∀ objects,
          UploadInvariant segSizeOf
            { s with objects := objects } :=
        fun _ =>
          ⟨hHolds.uniqueIDs, hHolds.uniqueKeys,
            hHolds.uploads⟩
      exact
        uploadInvariant_storing (hStored _) hUpload hHeld hKey
          ⟨rfl, Or.inl rfl, rfl⟩
  · exact
      uploadInvariant_storing hHolds hUpload hHeld hKey
        ⟨rfl, Or.inr rfl, rfl⟩

/- A commit that answers has the segment archived. -/
theorem uploadInvariant_committing
    (hHolds : UploadInvariant segSizeOf s)
    (hUpload : upload ∈ s.uploads)
    (hStage : upload.stage = .committing claim attempt)
    (hStreaming :
      answer ≠ .stalePublication ∧
        answer ≠ .databaseNotFound) :
    UploadInvariant segSizeOf
      (advanceCommitting s upload claim attempt answer) := by
  have hSound := hHolds.uploads upload hUpload
  have hKey := hSound.key claim (by simp [hStage, claimOf])
  have hHeld := hSound.held claim (by simp [hStage, heldClaim])
  unfold advanceCommitting
  split
  · exact hHolds.finish upload
  · next segments hCommit =>
      rcases commitSegment_ok hStreaming hCommit with
        ⟨marking, hMarking, _, hSegments⟩
      simp only [if_true] at hSegments
      subst hSegments
      have hMarked :
          UploadInvariant segSizeOf
            { s with
              segments :=
                (markUploaded s.segments marking).1 } := by
        apply hHolds.withSegments
        · exact hHolds.uniqueIDs.updateWhere fun _ => rfl
        · exact hHolds.uniqueKeys.updateWhere fun _ => rfl
        · intro row hRow _
          exact persists_markUploaded marking hRow
      apply hMarked.toRemoval ⟨rfl, rfl⟩
      exact archived_of_committed marking hMarking hKey hHeld
  · next hCommit =>
      rcases commitSegment_ok hStreaming hCommit with
        ⟨marking, hMarking, hLost, _⟩
      apply hHolds.toRemoval ⟨rfl, rfl⟩
      exact
        archived_of_not_updated marking hMarking
          hHolds.uniqueIDs hLost hKey hHeld

------------------------------------------------------------
-- Steps Keep the Invariant
------------------------------------------------------------

variable {s' : State}

/- Deleting claims that nobody holds keeps uploads sound. -/
theorem UploadInvariant.deleteClaims
    {deletes : WalSegment → Bool}
    (hHolds : UploadInvariant segSizeOf s)
    (hClaims :
      ∀ row : WalSegment,
        row.fileName.isSome → deletes row = false)
    (hSpares :
      ∀ row ∈ s.segments,
        deletes row = true →
          ∀ upload ∈ s.uploads,
            ∀ claim ∈ heldClaim upload.stage,
              claim.id ≠ row.id) :
    UploadInvariant segSizeOf
      { s with
        segments :=
          Table.deleteWhere deletes s.segments } := by
  apply hHolds.withSegments
  · exact hHolds.uniqueIDs.deleteWhere _
  · exact hHolds.uniqueKeys.deleteWhere _
  · intro row hRow hNeeded
    apply persists_deleteWhere hRow
    rcases hNeeded with
      hNamed | ⟨upload, hUpload, claim, hClaim, hID⟩
    · exact hClaims row hNamed
    · by_contra hDeletes
      rw [Bool.not_eq_false] at hDeletes
      exact
        hSpares row hRow hDeletes upload hUpload claim hClaim
          hID.symm

/- A new upload begins with the claim of its own file. -/
theorem uploadInvariant_beginUpload
    {runID claimID : Uuid}
    {deps : UploaderDeps}
    {file : LocalFile}
    {isRecovering : Bool}
    (hHolds : UploadInvariant segSizeOf s)
    (hBegin :
      beginUpload segSizeOf s runID claimID deps file
          isRecovering =
        some s') :
    UploadInvariant segSizeOf s' := by
  unfold beginUpload at hBegin
  split at hBegin
  · split at hBegin
    · rw [← Option.some.inj hBegin]
      exact hHolds
    · next claim hClaim =>
        rw [← Option.some.inj hBegin]
        refine ⟨hHolds.uniqueIDs, hHolds.uniqueKeys, ?_⟩
        intro upload hUpload
        rcases List.mem_cons.mp hUpload with rfl | hOld
        · refine ⟨?_, ?_, ?_⟩
          · intro held hHeld
            cases hHeld
            exact chainKey_of_newClaim hClaim
          · intro held hHeld
            cases hHeld
          · intro hRemoving
            cases hRemoving
        · exact hHolds.uploads upload hOld
  · cases hBegin

/- One call of an upload keeps the invariant. -/
theorem uploadInvariant_advanceUpload
    {upload : Upload}
    {answer : Answer}
    (hHolds : UploadInvariant segSizeOf s)
    (hUpload : upload ∈ s.uploads)
    (hStreaming :
      answer ≠ .stalePublication ∧
        answer ≠ .databaseNotFound)
    (hSpares :
      ∀ claim, upload.stage = .releasing claim →
        answer = .succeeded →
          ∀ row ∈ s.segments,
            isClaimWithID claim.id row = true →
              ∀ other ∈ s.uploads,
                ∀ held ∈ heldClaim other.stage,
                  held.id ≠ row.id) :
    UploadInvariant segSizeOf
      (advanceUpload s upload answer) := by
  unfold advanceUpload
  cases hStage : upload.stage with
  | claiming claim =>
      exact
        uploadInvariant_claiming hHolds hUpload hStage answer
  | probing claim =>
      exact uploadInvariant_probing hHolds hUpload hStage answer
  | building claim =>
      have hHeld : heldClaim upload.stage = some claim := by
        rw [hStage]
        rfl
      have hKey : claimOf upload.stage = some claim := by
        rw [hStage]
        rfl
      change
        UploadInvariant segSizeOf
          (advanceBuilding s upload claim answer)
      unfold advanceBuilding
      split
      · exact
          uploadInvariant_storing hHolds hUpload hHeld hKey
            ⟨rfl, Or.inl rfl, rfl⟩
      · exact
          uploadInvariant_storing hHolds hUpload hHeld hKey
            ⟨rfl, Or.inr rfl, rfl⟩
  | writing claim attempt =>
      exact uploadInvariant_writing hHolds hUpload hStage answer
  | waiting claim attempt =>
      have hHeld : heldClaim upload.stage = some claim := by
        rw [hStage]
        rfl
      have hKey : claimOf upload.stage = some claim := by
        rw [hStage]
        rfl
      change
        UploadInvariant segSizeOf
          (advanceWaiting s upload claim attempt answer)
      unfold advanceWaiting
      split
      · exact
          uploadInvariant_storing hHolds hUpload hHeld hKey
            ⟨rfl, Or.inl rfl, rfl⟩
      · exact
          uploadInvariant_storing hHolds hUpload hHeld hKey
            ⟨rfl, Or.inr rfl, rfl⟩
  | writingSidecar claim attempt =>
      have hHeld : heldClaim upload.stage = some claim := by
        rw [hStage]
        rfl
      have hKey : claimOf upload.stage = some claim := by
        rw [hStage]
        rfl
      change
        UploadInvariant segSizeOf
          (advanceWritingSidecar s upload claim attempt answer)
      unfold advanceWritingSidecar
      split
      · exact
          uploadInvariant_storing hHolds hUpload hHeld hKey
            ⟨rfl, Or.inl rfl, rfl⟩
      · exact
          uploadInvariant_storing hHolds hUpload hHeld hKey
            ⟨rfl, Or.inr rfl, rfl⟩
  | committing claim attempt =>
      exact
        uploadInvariant_committing hHolds hUpload hStage
          hStreaming
  | discarding claim attempt =>
      apply hHolds.toStage hUpload
      · intro held hMember
        rw [hStage]
        exact hMember
      · intro held hMember
        cases hMember
      · intro hRemoving
        cases hRemoving
  | releasing claim =>
      change
        UploadInvariant segSizeOf
          (advanceReleasing s upload claim answer)
      unfold advanceReleasing
      split
      · next =>
          apply UploadInvariant.finish
          apply hHolds.deleteClaims
          · intro row hNamed
            exact
              (not_selected_of_archived hNamed claim.id 0 0).1
          · exact hSpares claim hStage rfl
      · exact hHolds.finish upload
  | discardingUnpublished attempt =>
      apply hHolds.toRemoval ⟨rfl, rfl⟩
      apply (hHolds.uploads upload hUpload).archived
      rw [hStage]
      rfl
  | removing =>
      change
        UploadInvariant segSizeOf
          (advanceRemoving s upload answer)
      unfold advanceRemoving
      split
      · exact
          ⟨hHolds.uniqueIDs, hHolds.uniqueKeys,
            (hHolds.finish upload).uploads⟩
      · exact hHolds.finish upload

/- Every step that spares held claims keeps the invariant. -/
theorem uploadInvariant_step
    (action : Action)
    (hHolds : UploadInvariant segSizeOf s)
    (hStreaming : keepsStreaming action = true)
    (hSpares : KeepsHeldClaims s action)
    (hStep : step segSizeOf s action = some s') :
    UploadInvariant segSizeOf s' := by
  cases action with
  | tick later =>
      simp only [step] at hStep
      split at hStep
      · rw [← Option.some.inj hStep]
        exact
          ⟨hHolds.uniqueIDs, hHolds.uniqueKeys,
            hHolds.uploads⟩
      · cases hStep
  | fileArrives file =>
      simp only [step] at hStep
      split at hStep
      · rw [← Option.some.inj hStep]
        exact
          ⟨hHolds.uniqueIDs, hHolds.uniqueKeys,
            hHolds.uploads⟩
      · cases hStep
  | processSegment runID claimID deps file =>
      exact uploadInvariant_beginUpload hHolds hStep
  | recoverSegment runID claimID deps file =>
      exact uploadInvariant_beginUpload hHolds hStep
  | advance runID answer =>
      simp only [step, Option.map_eq_some_iff] at hStep
      rcases hStep with ⟨upload, hFound, rfl⟩
      apply uploadInvariant_advanceUpload hHolds
      · exact List.mem_of_find?_eq_some hFound
      · constructor
        · rintro rfl
          cases hStreaming
        · rintro rfl
          cases hStreaming
      · rintro claim hStage rfl row hRow hSelects
        apply hSpares row hRow
        simp only [deletesClaim, hFound]
        rcases upload with
          ⟨_, _, _, _, stage⟩
        cases hStage
        exact hSelects
  | crash runID =>
      simp only [step, Option.map_eq_some_iff] at hStep
      rcases hStep with ⟨upload, _, rfl⟩
      exact hHolds.finish upload
  | reapAbandonedWalClaims databaseID =>
      rw [← Option.some.inj hStep]
      apply hHolds.deleteClaims
      · intro row hNamed
        exact (not_selected_of_archived hNamed 0 databaseID _).2
      · exact hSpares

------------------------------------------------------------
-- Removed Files are Archived
------------------------------------------------------------

variable {upload : Upload}
variable {answer : Answer}
variable {file : LocalFile}

/- A call leaves the files, unless it removes its own. -/
theorem files_of_not_removing
    (hStage : upload.stage ≠ .removing) :
    (advanceUpload s upload answer).files = s.files := by
  unfold advanceUpload
  cases hNext : upload.stage with
  | claiming claim =>
      simp only [advanceClaiming]
      split <;> rfl
  | probing claim =>
      simp only [advanceProbing]
      split
      · split <;> rfl
      · rfl
  | building claim =>
      simp only [advanceBuilding]
      split <;> rfl
  | writing claim attempt =>
      simp only [advanceWriting]
      split <;> rfl
  | waiting claim attempt =>
      simp only [advanceWaiting]
      split <;> rfl
  | writingSidecar claim attempt =>
      simp only [advanceWritingSidecar]
      split <;> rfl
  | committing claim attempt =>
      simp only [advanceCommitting]
      split <;> rfl
  | discarding claim attempt => rfl
  | releasing claim =>
      simp only [advanceReleasing]
      split <;> rfl
  | discardingUnpublished attempt => rfl
  | removing => exact absurd hNext hStage

/- Only the removal of an upload's file takes files away. -/
theorem files_advanceUpload
    (hFile : file ∈ s.files)
    (hRemoved :
      file ∉ (advanceUpload s upload answer).files) :
    upload.stage = .removing ∧ file.SamePath upload.file ∧
      (advanceUpload s upload answer).segments =
        s.segments := by
  by_cases hStage : upload.stage = .removing
  · unfold advanceUpload at hRemoved ⊢
    simp only [hStage, advanceRemoving] at hRemoved ⊢
    refine ⟨trivial, ?_, ?_⟩
    · split at hRemoved
      · by_contra hOther
        apply hRemoved
        exact
          (Table.mem_deleteWhere_iff _ _ _).mpr
            ⟨hFile, decide_eq_false hOther⟩
      · exact absurd hFile hRemoved
    · split <;> rfl
  · rw [files_of_not_removing hStage] at hRemoved
    exact absurd hFile hRemoved

/- No call of an upload brings a file. -/
theorem mem_files_of_advanceUpload
    (hFile : file ∈ (advanceUpload s upload answer).files) :
    file ∈ s.files := by
  by_cases hStage : upload.stage = .removing
  · unfold advanceUpload at hFile
    simp only [hStage, advanceRemoving] at hFile
    split at hFile
    · exact ((Table.mem_deleteWhere_iff _ _ _).mp hFile).1
    · exact hFile
  · rw [files_of_not_removing hStage] at hFile
    exact hFile

theorem files_beginUpload
    {runID claimID : Uuid}
    {deps : UploaderDeps}
    {isRecovering : Bool}
    (hBegin :
      beginUpload segSizeOf s runID claimID deps file
          isRecovering =
        some s') :
    s'.files = s.files := by
  unfold beginUpload at hBegin
  split at hBegin
  · split at hBegin
    · rw [← Option.some.inj hBegin]
    · rw [← Option.some.inj hBegin]
  · cases hBegin

/- Files under one path stand for one segment. -/
theorem archived_of_samePath
    {segments : List WalSegment}
    {file other : LocalFile}
    (hPath : file.SamePath other)
    (hArchived : Archived segSizeOf segments other) :
    Archived segSizeOf segments file := by
  rcases hPath with ⟨hDatabase, _, hName⟩
  have hKey :
      file.chainKey (segSizeOf file.databaseID) =
        other.chainKey (segSizeOf other.databaseID) := by
    unfold LocalFile.chainKey
    rw [hDatabase, hName]
  unfold Archived
  rw [hKey]
  exact hArchived

/- A step from a sound state removes archived files only. -/
theorem removesOnlyArchived_of_invariant
    (action : Action)
    (hHolds : UploadInvariant segSizeOf s) :
    RemovesOnlyArchived segSizeOf s action := by
  intro s' hStep file hFile hRemoved
  rw [Option.mem_def] at hStep
  cases action with
  | tick later =>
      simp only [step] at hStep
      split at hStep
      · rw [← Option.some.inj hStep] at hRemoved
        exact absurd hFile hRemoved
      · cases hStep
  | fileArrives other =>
      simp only [step] at hStep
      split at hStep
      · rw [← Option.some.inj hStep] at hRemoved
        exact absurd (List.mem_cons_of_mem _ hFile) hRemoved
      · cases hStep
  | processSegment runID claimID deps other =>
      have hFiles := files_beginUpload hStep
      rw [hFiles] at hRemoved
      exact absurd hFile hRemoved
  | recoverSegment runID claimID deps other =>
      have hFiles := files_beginUpload hStep
      rw [hFiles] at hRemoved
      exact absurd hFile hRemoved
  | advance runID answer =>
      simp only [step, Option.map_eq_some_iff] at hStep
      rcases hStep with ⟨upload, hFound, rfl⟩
      rcases files_advanceUpload hFile hRemoved with
        ⟨hStage, hPath, hSegments⟩
      have hSound :=
        hHolds.uploads upload
          (List.mem_of_find?_eq_some hFound)
      rw [hSegments]
      apply archived_of_samePath hPath
      apply hSound.archived
      rw [hStage]
      rfl
  | crash runID =>
      simp only [step, Option.map_eq_some_iff] at hStep
      rcases hStep with ⟨upload, _, rfl⟩
      exact absurd hFile hRemoved
  | reapAbandonedWalClaims databaseID =>
      rw [← Option.some.inj hStep] at hRemoved
      exact absurd hFile hRemoved

/-
  In every run with the stream kept, in which nobody deletes
  a claim that an upload under way holds, a file that leaves
  the disk is archived.
-/
theorem removed_files_are_archived
    (segSizeOf : Uuid → Nat)
    {s : State}
    (hReachable :
      (system segSizeOf).ReachableWhile
        (fun s action =>
          keepsStreaming action = true ∧
            KeepsHeldClaims s action)
        s)
    (action : Action) :
    RemovesOnlyArchived segSizeOf s action := by
  apply removesOnlyArchived_of_invariant
  induction hReachable with
  | initial hStart =>
      rcases hStart with ⟨hIDs, hKeys, hNone⟩
      refine ⟨hIDs, hKeys, ?_⟩
      intro upload hUpload
      rw [hNone] at hUpload
      cases hUpload
  | step _ hGuard hTaken ih =>
      exact
        uploadInvariant_step _ ih hGuard.1 hGuard.2 hTaken

def sampleSegSizeOf (_ : Uuid) : Nat := 16777216

def sampleFile : LocalFile :=
  { databaseID := 1
    directory := "wal"
    walFilename := "000000010000000000000001"
    sizeBytes := 16777216 }

def sampleState : State :=
  { segments := []
    files := [sampleFile]
    uploads := []
    objects := []
    now := 0 }

def sampleDeps : UploaderDeps :=
  { storageID := 1
    encryption := .none }

/- The calls of an upload once it has its claim. -/
def sampleStoring (runID : Uuid) : List Action :=
  [.advance runID (.opened 7 "" ""),
    .advance runID .succeeded,
    .advance runID (.streamed 1048576),
    .advance runID .succeeded,
    .advance runID .succeeded]

theorem initial_sampleState :
    (system sampleSegSizeOf).initial sampleState := by
  change
    Table.UniqueBy WalSegment.id [] ∧
      Table.UniqueBy WalSegment.chainKey [] ∧
        sampleState.uploads = []
  decide

/- An upload without any trouble removes its file. -/
theorem stored_file_is_archived :
    RemovesOnlyArchived sampleSegSizeOf
      ((system sampleSegSizeOf).outcome sampleState
        ([.processSegment 1 101 sampleDeps sampleFile,
            .advance 1 .succeeded] ++
          sampleStoring 1))
      (.advance 1 .succeeded) :=
  removed_files_are_archived sampleSegSizeOf
    (TransitionSystem.reachableWhile_outcome
      initial_sampleState (by decide +kernel))
    (.advance 1 .succeeded)

/-
  A recovery takes up the claim of a process that crashed two
  hours before, and the claim is reaped under its upload.
-/
def sampleReapedRecovery : List Action :=
  [.processSegment 1 101 sampleDeps sampleFile,
      .advance 1 .succeeded,
      .crash 1,
      .tick (2 * Duration.hour),
      .recoverSegment 2 102 sampleDeps sampleFile,
      .advance 2 .succeeded,
      .advance 2 .succeeded,
      .reapAbandonedWalClaims 1] ++
    sampleStoring 2 ++
    [.advance 2 .succeeded]

theorem reaped_recovery_loses_file :
    ¬ ∀ (segSizeOf : Uuid → Nat) (s : State),
        (system segSizeOf).ReachableWhile
            (fun _ action => keepsStreaming action = true)
            s →
          ∀ action,
            RemovesOnlyArchived segSizeOf s action := by
  intro hAlways
  have hRemoves :=
    hAlways sampleSegSizeOf
      ((system sampleSegSizeOf).outcome sampleState
        sampleReapedRecovery)
      (TransitionSystem.reachableWhile_outcome
        initial_sampleState (by decide +kernel))
      (.advance 2 .succeeded)
  revert hRemoves
  decide +kernel

end WalStreaming

end Databasus
