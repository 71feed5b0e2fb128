import Databasus.WalStreaming.EncodedRows

/-
  Runs in which every row is true to its object.

  The row of a claim keeps the encryption that it was inserted
  with, and a commit adds the salt and the nonce of the upload
  that it completes.  Every row describes its object as long
  as no recovery takes up a claim of other settings.

  Main declarations:
    * `EncodedInvariant.advanceUpload`
    * `encodedInvariant_step`
    * `rows_describe_objects`
    * `changed_setting_hides_encryption`
-/

------------------------------------------------------------
-- New Claims, Uploads and Artifacts
------------------------------------------------------------

namespace Databasus

namespace WalStreaming

open Foundation
open Catalog

variable {env : EncodingEnvironment}
variable {s : EncodingState}
variable {upload : Upload}
variable {claim : WalSegment}

/- A claim has the settings of the process that makes it. -/
theorem settings_of_newClaim
    {segSizeBytes : Nat}
    {deps : UploaderDeps}
    {id : Uuid}
    {now : Time}
    {file : LocalFile}
    (hClaim :
      newClaim segSizeBytes deps id now file = some claim) :
    claim.fileName = none ∧
      claim.encryption = deps.encryption ∧
        claim.storageID = deps.storageID := by
  unfold newClaim at hClaim
  split at hClaim
  · cases hClaim
  · split at hClaim
    · cases hClaim
    · cases hClaim
      exact ⟨rfl, rfl, rfl⟩

theorem EncodedInvariant.withClaims
    {made : Option WalSegment}
    (hHolds : EncodedInvariant env s)
    (hUnnamed : ∀ claim ∈ made, claim.fileName = none)
    (hMade :
      ∀ claim ∈ made,
        claim.storageID = env.storageOf claim.databaseID ∧
          ∀ other ∈ s.claims, other.id ≠ claim.id) :
    EncodedInvariant env
      { s with claims := made.toList ++ s.claims } := by
  have hGrows :
      Grows s { s with claims := made.toList ++ s.claims } :=
    ⟨fun _ hClaim => List.mem_append_right _ hClaim,
      fun _ => id, rfl⟩
  refine ⟨hHolds.uniqueRuns, ?_, ?_, ?_, hHolds.names,
    hHolds.objects, ?_, ?_, hHolds.apart,
    hHolds.unpublished⟩
  · intro first hFirst second hSecond hID
    rcases List.mem_append.mp hFirst with hNew | hOld
    · rw [Option.mem_toList] at hNew
      rcases List.mem_append.mp hSecond with hSame | hOther
      · rw [Option.mem_toList] at hSame
        exact Option.mem_unique hNew hSame
      · exact
          absurd hID.symm ((hMade first hNew).2 second hOther)
    · rcases List.mem_append.mp hSecond with hNew | hOther
      · rw [Option.mem_toList] at hNew
        exact absurd hID ((hMade second hNew).2 first hOld)
      · exact hHolds.claimIDs first hOld second hOther hID
  · intro claim hClaim
    rcases List.mem_append.mp hClaim with hNew | hOld
    · exact hUnnamed claim (Option.mem_toList.mp hNew)
    · exact hHolds.unnamed claim hOld
  · intro claim hClaim
    rcases List.mem_append.mp hClaim with hNew | hOld
    · exact (hMade claim (Option.mem_toList.mp hNew)).1
    · exact hHolds.storages claim hOld
  · intro row hRow
    exact (hHolds.rows row hRow).grows hGrows
  · intro upload hUpload
    exact (hHolds.uploads upload hUpload).grows hGrows

theorem EncodedInvariant.begins
    (hHolds : EncodedInvariant env s)
    (hRun :
      ∀ other ∈ s.base.uploads, other.runID ≠ upload.runID)
    (hStage : upload.stage = .claiming claim)
    (hClaim : IsClaimFor env s upload claim) :
    EncodedInvariant env
      { s with
        base :=
          { s.base with
            uploads := upload :: s.base.uploads } } := by
  have hSame :
      Grows s
        { s with
          base :=
            { s.base with
              uploads := upload :: s.base.uploads } } :=
    ⟨fun _ => id, fun _ => id, rfl⟩
  have hNoAttempt : attemptOf upload.stage = none := by
    rw [hStage]
    rfl
  have hEncodes : UploadEncodes env s upload := by
    refine ⟨?_, ?_, ?_, ?_, ?_⟩
    · intro other hOther
      rw [hStage] at hOther
      cases hOther
      exact hClaim
    · rw [hNoAttempt]
      intro attempt hAttempt
      cases hAttempt
    · rw [hStage]
      intro other attempt hPublishes
      cases hPublishes
    · rw [hStage]
      intro attempt hAttempt
      cases hAttempt
    · rw [hStage]
      intro attempt hAttempt
      cases hAttempt
  refine ⟨?_, hHolds.claimIDs, hHolds.unnamed,
    hHolds.storages, hHolds.names, hHolds.objects, ?_, ?_,
    ?_, ?_⟩
  · refine List.nodup_cons.mpr ⟨?_, hHolds.uniqueRuns⟩
    intro hMember
    rcases List.mem_map.mp hMember with ⟨other, hOther, hID⟩
    exact hRun other hOther hID
  · intro row hRow
    exact (hHolds.rows row hRow).grows hSame
  · intro other hOther
    rcases List.mem_cons.mp hOther with rfl | hOld
    · exact hEncodes.grows hSame
    · exact (hHolds.uploads other hOld).grows hSame
  · intro first hFirst second hSecond hRuns attempt hAttempt
      other hOther
    rcases List.mem_cons.mp hFirst with rfl | hFirstOld
    · rw [hNoAttempt] at hAttempt
      cases hAttempt
    · rcases List.mem_cons.mp hSecond with rfl | hSecondOld
      · rw [hNoAttempt] at hOther
        cases hOther
      · exact
          hHolds.apart first hFirstOld second hSecondOld hRuns
            attempt hAttempt other hOther
  · intro row hRow other hOther attempt hAttempt
    rcases List.mem_cons.mp hOther with rfl | hOld
    · rw [hNoAttempt] at hAttempt
      cases hAttempt
    · exact
        hHolds.unpublished row hRow other hOld attempt
          hAttempt

theorem EncodedInvariant.withArtifact
    {artifact : BuiltArtifact}
    (hHolds : EncodedInvariant env s)
    (hFresh :
      ∀ old ∈ s.built, old.fileName ≠ artifact.fileName) :
    EncodedInvariant env
      { s with built := artifact :: s.built } := by
  have hGrows :
      Grows s { s with built := artifact :: s.built } :=
    ⟨fun _ => id, fun _ hOld => List.mem_cons_of_mem _ hOld,
      rfl⟩
  refine ⟨hHolds.uniqueRuns, hHolds.claimIDs,
    hHolds.unnamed, hHolds.storages, ?_, ?_, ?_, ?_,
    hHolds.apart, hHolds.unpublished⟩
  · intro first hFirst second hSecond hName
    rcases List.mem_cons.mp hFirst with rfl | hFirstOld
    · rcases List.mem_cons.mp hSecond with rfl | hSecondOld
      · rfl
      · exact absurd hName.symm (hFresh second hSecondOld)
    · rcases List.mem_cons.mp hSecond with rfl | hSecondOld
      · exact absurd hName (hFresh first hFirstOld)
      · exact
          hHolds.names first hFirstOld second hSecondOld hName
  · intro object hObject
    rcases hHolds.objects object hObject with
      ⟨old, hOld, hName⟩
    exact ⟨old, List.mem_cons_of_mem _ hOld, hName⟩
  · intro row hRow
    exact (hHolds.rows row hRow).grows hGrows
  · intro upload hUpload
    exact (hHolds.uploads upload hUpload).grows hGrows

------------------------------------------------------------
-- Artifacts that are Opened
------------------------------------------------------------

variable {attempt : Attempt}
variable {stage next : Stage}

/- A stage that holds no claim and publishes nothing. -/
theorem follows_of_quiet
    (hClaim : encodedClaim next = none)
    (hPublishes : publishes next = none)
    (hUnwritten : unwrittenAttempt next = none)
    (hWritten : writtenAttempt next = none)
    (hNamed :
      ∀ attempt ∈ attemptOf next,
        ∃ old ∈ attemptOf stage,
          attempt.objectName = old.objectName) :
    Follows stage next := by
  refine ⟨?_, hNamed, ?_, hUnwritten, ?_⟩
  · intro claim hMember
    rw [hClaim] at hMember
    cases hMember
  · intro claim attempt hSome
    rw [hPublishes] at hSome
    cases hSome
  · intro attempt hMember
    rw [hWritten] at hMember
    cases hMember

theorem follows_releasing
    (stage : Stage)
    (claim : WalSegment) :
    Follows stage (.releasing claim) := by
  apply follows_of_quiet rfl rfl rfl rfl
  intro attempt hAttempt
  cases hAttempt

theorem follows_removing
    (stage : Stage) :
    Follows stage .removing := by
  apply follows_of_quiet rfl rfl rfl rfl
  intro attempt hAttempt
  cases hAttempt

theorem follows_discarding
    (claim : WalSegment)
    (hAttempt : attempt ∈ attemptOf stage) :
    Follows stage (.discarding claim attempt) := by
  apply follows_of_quiet rfl rfl rfl rfl
  intro other hOther
  cases hOther
  exact ⟨attempt, hAttempt, rfl⟩

theorem follows_discardingUnpublished
    (hAttempt : attempt ∈ attemptOf stage) :
    Follows stage (.discardingUnpublished attempt) := by
  apply follows_of_quiet rfl rfl rfl rfl
  intro other hOther
  cases hOther
  exact ⟨attempt, hAttempt, rfl⟩

/- The texts that an attempt keeps are its artifact's. -/
theorem isArtifact_attempt
    {encryption : BackupEncryption}
    {keyID : Uuid}
    {content bytes : Bytes}
    {salt iv : String}
    (hArtifact :
      IsArtifact env.codec encryption keyID content bytes
        salt iv) :
    IsArtifact env.codec encryption keyID content bytes
      (if encryption = .encrypted then salt else "")
      (if encryption = .encrypted then iv else "") := by
  cases encryption with
  | none =>
      rcases built_plain hArtifact with ⟨_, hSalt, hIV⟩
      rw [hSalt, hIV] at hArtifact
      exact hArtifact
  | encrypted => exact hArtifact

/- An attempt is made for an artifact of a fresh name. -/
theorem EncodedInvariant.opens
    {artifact : BuiltArtifact}
    (hHolds : EncodedInvariant env s)
    (hUpload : upload ∈ s.base.uploads)
    (hStage : upload.stage = .building claim)
    (hFresh :
      ∀ old ∈ s.built, old.fileName ≠ artifact.fileName)
    (hName : attempt.objectName = artifact.fileName)
    (hArtifact :
      IsArtifact env.codec upload.deps.encryption claim.id
        (env.fileBytes upload.file) artifact.bytes
        attempt.salt attempt.iv) :
    EncodedInvariant env
      { s with
        base :=
          s.base.setStage upload (.writing claim attempt)
        built := artifact :: s.built } := by
  have hFor : IsClaimFor env s upload claim := by
    apply (hHolds.uploads upload hUpload).claim
    rw [hStage]
    rfl
  have hBytes :
      env.fileBytes upload.file =
        env.segmentBytes claim.chainKey := by
    unfold EncodingEnvironment.fileBytes
    rw [hFor.key]
  have hUnused :
      ∀ other ∈ s.base.uploads,
        ∀ second ∈ attemptOf other.stage,
          attempt.objectName ≠ second.objectName := by
    intro other hOther second hSecond hSame
    rcases (hHolds.uploads other hOther).named second
        hSecond with
      ⟨old, hOld, hOldName⟩
    apply hFresh old hOld
    rw [hOldName, ← hSame, hName]
  apply (hHolds.withArtifact hFresh).setStage
  · refine ⟨?_, ?_, ?_, ?_, ?_⟩
    · intro other hOther
      cases hOther
      exact
        ⟨hFor.made, hFor.key, hFor.encryption,
          hFor.storageID⟩
    · intro other hOther
      cases hOther
      exact ⟨artifact, List.mem_cons_self, hName.symm⟩
    · intro other second hPublishes
      cases hPublishes
      refine ⟨artifact, List.mem_cons_self, hName.symm, ?_⟩
      rw [hFor.encryption, ← hBytes]
      exact hArtifact
    · intro other hOther object hObject hSame
      cases hOther
      rcases hHolds.objects object hObject with
        ⟨old, hOld, hOldName⟩
      apply hFresh old hOld
      rw [hOldName, hSame, hName]
    · intro other hOther
      cases hOther
  · intro other hOther second hSecond _
    cases hOther
    exact hUnused second hSecond
  · intro other hOther row hRow hFileName
    cases hOther
    rcases (hHolds.rows row hRow).built _ hFileName with
      ⟨_, _, ⟨old, hOld, hOldName, _⟩, _⟩
    apply hFresh old hOld
    rw [hOldName, hName]

theorem encodedInvariant_build
    {s' : EncodingState}
    {attemptID : Uuid}
    {salt nonce : Option Bytes}
    (hHolds : EncodedInvariant env s)
    (hUpload : upload ∈ s.base.uploads)
    (hStage : upload.stage = .building claim)
    (hBuild :
      buildStep env s upload claim attemptID salt nonce =
        some s') :
    EncodedInvariant env s' := by
  unfold buildStep at hBuild
  simp only at hBuild
  split at hBuild
  · cases hBuild
    exact
      hHolds.goesOn hUpload
        (follows_releasing upload.stage claim)
  · next bytes saltText ivText hArtifact =>
      split at hBuild
      · next hFresh =>
          cases hBuild
          exact
            hHolds.opens hUpload hStage hFresh rfl
              (isArtifact_attempt ⟨salt, nonce, hArtifact⟩)
      · cases hBuild

------------------------------------------------------------
-- Answers to an Upload's Calls
------------------------------------------------------------

variable {answer : Answer}

/- An upload works on for a claim that it has. -/
theorem EncodedInvariant.worksFor
    {stage : Stage}
    (hHolds : EncodedInvariant env s)
    (hUpload : upload ∈ s.base.uploads)
    (hFor : IsClaimFor env s upload claim)
    (hClaim : ∀ other ∈ encodedClaim stage, other = claim)
    (hAttempt : attemptOf stage = none)
    (hPublishes : publishes stage = none)
    (hUnwritten : unwrittenAttempt stage = none)
    (hWritten : writtenAttempt stage = none) :
    EncodedInvariant env
      { s with base := s.base.setStage upload stage } := by
  apply hHolds.withStage stage hUpload
  · refine ⟨?_, ?_, ?_, ?_, ?_⟩
    · intro other hOther
      rw [hClaim other hOther]
      exact
        ⟨hFor.made, hFor.key, hFor.encryption,
          hFor.storageID⟩
    · intro other hOther
      rw [hAttempt] at hOther
      cases hOther
    · intro other second hSome
      rw [hPublishes] at hSome
      cases hSome
    · intro other hOther
      rw [hUnwritten] at hOther
      cases hOther
    · intro other hOther
      rw [hWritten] at hOther
      cases hOther
  · intro other hOther
    rw [hAttempt] at hOther
    cases hOther

theorem encodedInvariant_claiming
    (hHolds : EncodedInvariant env s)
    (hUpload : upload ∈ s.base.uploads)
    (hStage : upload.stage = .claiming claim) :
    EncodedInvariant env
      { s with
        base :=
          advanceClaiming s.base upload claim answer } := by
  have hFor : IsClaimFor env s upload claim := by
    apply (hHolds.uploads upload hUpload).claim
    rw [hStage]
    rfl
  have hSame : ∀ other ∈ some claim, other = claim := by
    intro other hOther
    exact (Option.mem_some_iff.mp hOther).symm
  unfold advanceClaiming
  split
  · exact hHolds.finish upload
  · next segments hClaimed =>
      rcases claimSegment_claimed hClaimed with
        ⟨_, _, hAppend⟩
      subst hAppend
      exact
        (hHolds.insertClaim hFor.made).worksFor hUpload
          ⟨hFor.made, hFor.key, hFor.encryption,
            hFor.storageID⟩
          hSame rfl rfl rfl rfl
  · exact hHolds.worksFor hUpload hFor hSame rfl rfl rfl rfl

/- Only a claim that names no file is taken up. -/
theorem fileName_of_recover
    {segment : WalSegment}
    {isRecovering : Bool}
    (hDecision :
      decideExistingWalClaim
          { segment := some segment
            isRecovering := isRecovering } =
        .recover) :
    segment.fileName = none := by
  unfold decideExistingWalClaim at hDecision
  simp only at hDecision
  split at hDecision
  · cases hDecision
  · next hUnnamed => simpa using hUnnamed

/- A recovery goes on with the claim of the same settings. -/
theorem encodedInvariant_probing
    {runID : Uuid}
    (hHolds : EncodedInvariant env s)
    (hFound :
      (s.base.uploads.find? fun upload =>
        upload.runID = runID) = some upload)
    (hStage : upload.stage = .probing claim)
    (hKeeps :
      KeepsSettings s (.base (.advance runID answer))) :
    EncodedInvariant env
      { s with
        base :=
          advanceProbing s.base upload claim answer } := by
  have hUpload := List.mem_of_find?_eq_some hFound
  have hFor : IsClaimFor env s upload claim := by
    apply (hHolds.uploads upload hUpload).claim
    rw [hStage]
    rfl
  unfold advanceProbing
  split
  · simp only
    split
    · exact
        hHolds.goesOn hUpload (follows_removing upload.stage)
    · next segment hDecision hExisting =>
        rw [hExisting] at hDecision
        have hSettings :
            segment.encryption = upload.deps.encryption := by
          apply hKeeps (segment, upload.deps)
          simp only [recoveredClaim, hFound, hStage,
            hExisting, hDecision]
          rfl
        rcases Table.lookup_some hExisting with
          ⟨hRow, hKey⟩
        have hUnnamed : segment.fileName = none :=
          fileName_of_recover hDecision
        have hMade : segment ∈ s.claims :=
          (hHolds.rows segment hRow).claimed hUnnamed
        have hDatabase :
            segment.databaseID = claim.databaseID :=
          congrArg ChainKey.databaseID hKey
        have hTaken : IsClaimFor env s upload segment := by
          refine ⟨hMade, ?_, hSettings, ?_⟩
          · rw [hFor.key, hKey]
          · rw [hHolds.storages segment hMade, hDatabase,
              ← hHolds.storages claim hFor.made,
              hFor.storageID]
        refine hHolds.worksFor hUpload hTaken ?_ rfl rfl rfl rfl
        intro other hOther
        exact (Option.mem_some_iff.mp hOther).symm
    · exact hHolds.finish upload
  · exact hHolds.finish upload

theorem encodedInvariant_building
    (hHolds : EncodedInvariant env s)
    (hUpload : upload ∈ s.base.uploads)
    (hAnswer :
      ∀ attemptID salt iv,
        answer ≠ .opened attemptID salt iv) :
    EncodedInvariant env
      { s with
        base :=
          advanceBuilding s.base upload claim answer } := by
  unfold advanceBuilding
  split
  · next attemptID salt iv =>
      exact absurd rfl (hAnswer attemptID salt iv)
  · exact
      hHolds.goesOn hUpload
        (follows_releasing upload.stage claim)

------------------------------------------------------------
-- Answers of the Storages
------------------------------------------------------------

/- What the objects become is of no use to anybody. -/
theorem EncodedInvariant.discards
    {stored : List StoredObject}
    (claim : WalSegment)
    (hHolds : EncodedInvariant env s)
    (hUpload : upload ∈ s.base.uploads)
    (hAttempt : attempt ∈ attemptOf upload.stage)
    (hNamed :
      ∀ object ∈ stored,
        ∃ artifact ∈ s.built,
          artifact.fileName = object.fileName)
    (hChanges :
      ChangesOnly attempt.objectName s.stored stored) :
    EncodedInvariant env
      { s with
        base :=
          s.base.setStage upload (.discarding claim attempt)
        stored := stored } := by
  have hDiscarding :=
    hHolds.goesOn hUpload
      (follows_discarding claim hAttempt)
  exact
    hDiscarding.changesObjects (mem_uploads_setStage hUpload)
      rfl rfl rfl hNamed hChanges

/- A write that succeeds stores what the row will describe. -/
theorem EncodedInvariant.writes
    (hHolds : EncodedInvariant env s)
    (hUpload : upload ∈ s.base.uploads)
    (hStage : upload.stage = .writing claim attempt) :
    EncodedInvariant env
      { s with
        base :=
          s.base.setStage upload (.waiting claim attempt)
        stored :=
          sentObjects s upload attempt id ++ s.stored } := by
  have hEncodes := hHolds.uploads upload hUpload
  have hAttempt : attempt ∈ attemptOf upload.stage := by
    rw [hStage]
    rfl
  have hUnwritten :
      attempt ∈ unwrittenAttempt upload.stage := by
    rw [hStage]
    rfl
  have hFor : IsClaimFor env s upload claim := by
    apply hEncodes.claim
    rw [hStage]
    rfl
  have hStored :
      IsStored
        { s with
          stored :=
            sentObjects s upload attempt id ++ s.stored }
        upload.deps.storageID attempt.objectName :=
    isStored_sentObjects (hEncodes.named attempt hAttempt)
      (hEncodes.unwritten attempt hUnwritten)
  -- The object is written while nobody relies on it.
  have hWritten :=
    hHolds.discards claim hUpload hAttempt
      (hHolds.named_sentObjects id)
      (changesOnly_sentObjects upload id)
  have hDone :=
    hWritten.withStage (.waiting claim attempt)
      (mem_uploads_setStage hUpload) ?_ ?_
  · rw [setStage_setStage] at hDone
    exact hDone
  · refine ⟨?_, ?_, ?_, ?_, ?_⟩
    · intro other hOther
      cases hOther
      exact
        ⟨hFor.made, hFor.key, hFor.encryption,
          hFor.storageID⟩
    · intro other hOther
      cases hOther
      exact hEncodes.named attempt hAttempt
    · intro other second hPublishes
      cases hPublishes
      apply hEncodes.built claim attempt
      rw [hStage]
      rfl
    · intro other hOther
      cases hOther
    · intro other hOther
      cases hOther
      exact ⟨hStored.there, hStored.whole⟩
  · intro other hOther
    cases hOther
    exact ⟨attempt, rfl, rfl⟩

theorem encodedInvariant_writing
    (hHolds : EncodedInvariant env s)
    (hUpload : upload ∈ s.base.uploads)
    (hStage : upload.stage = .writing claim attempt) :
    EncodedInvariant env
      { s with
        base :=
          advanceWriting s.base upload claim attempt answer
        stored := storedAfter s upload answer } := by
  have hAttempt : attempt ∈ attemptOf upload.stage := by
    rw [hStage]
    rfl
  have hFails :=
    hHolds.goesOn hUpload
      (follows_discarding claim hAttempt)
  simp only [storedAfter, hStage]
  cases answer with
  | succeeded =>
      exact (hHolds.writes hUpload hStage).withBase rfl rfl
  | streamed sentBytes =>
      exact
        hHolds.discards claim hUpload hAttempt
          (hHolds.named_sentObjects _)
          (changesOnly_sentObjects upload _)
  | failed => exact hFails
  | opened attemptID salt iv => exact hFails
  | stalePublication => exact hFails
  | databaseNotFound => exact hFails

theorem encodedInvariant_waiting
    (hHolds : EncodedInvariant env s)
    (hUpload : upload ∈ s.base.uploads)
    (hStage : upload.stage = .waiting claim attempt) :
    EncodedInvariant env
      { s with
        base :=
          advanceWaiting s.base upload claim attempt
            answer } := by
  unfold advanceWaiting
  split
  · apply hHolds.goesOn hUpload
    rw [hStage]
    refine ⟨?_, ?_, ?_, rfl, ?_⟩
    · intro other hOther
      exact hOther
    · intro other hOther
      cases hOther
      exact ⟨attempt, rfl, rfl⟩
    · intro other second hPublishes
      cases hPublishes
      exact ⟨attempt, rfl, rfl, rfl, rfl⟩
    · intro other hOther
      cases hOther
      exact ⟨attempt, rfl, rfl⟩
  · apply hHolds.goesOn hUpload
    apply follows_discarding
    rw [hStage]
    rfl

theorem encodedInvariant_writingSidecar
    (hHolds : EncodedInvariant env s)
    (hUpload : upload ∈ s.base.uploads)
    (hStage :
      upload.stage = .writingSidecar claim attempt) :
    EncodedInvariant env
      { s with
        base :=
          advanceWritingSidecar s.base upload claim attempt
            answer } := by
  unfold advanceWritingSidecar
  split
  · apply hHolds.goesOn hUpload
    rw [hStage]
    refine ⟨?_, ?_, ?_, rfl, ?_⟩
    · intro other hOther
      exact hOther
    · intro other hOther
      cases hOther
      exact ⟨attempt, rfl, rfl⟩
    · intro other second hPublishes
      cases hPublishes
      exact ⟨attempt, rfl, rfl, rfl, rfl⟩
    · intro other hOther
      cases hOther
      exact ⟨attempt, rfl, rfl⟩
  · apply hHolds.goesOn hUpload
    apply follows_discarding
    rw [hStage]
    rfl

/- The commit of an upload whose claim is still there. -/
theorem EncodedInvariant.commits
    (hHolds : EncodedInvariant env s)
    (hUpload : upload ∈ s.base.uploads)
    (hStage : upload.stage = .committing claim attempt) :
    EncodedInvariant env
      { s with
        base :=
          { s.base with
            segments :=
              (markUploaded s.base.segments
                (publicationOf claim attempt)).1 }.setStage
            upload .removing } := by
  have hEncodes := hHolds.uploads upload hUpload
  have hAttempt : attempt ∈ attemptOf upload.stage := by
    rw [hStage]
    rfl
  have hFor : IsClaimFor env s upload claim := by
    apply hEncodes.claim
    rw [hStage]
    rfl
  have hBuilt :
      IsBuiltAs env s claim.encryption claim.id
        claim.chainKey attempt.objectName attempt.salt
        attempt.iv := by
    apply hEncodes.built
    rw [hStage]
    rfl
  have hStored :
      IsStored s upload.deps.storageID
        attempt.objectName := by
    apply hEncodes.stored
    rw [hStage]
    rfl
  have hRemoving :=
    hHolds.goesOn hUpload (follows_removing upload.stage)
  refine hRemoving.commit hFor.made ?_ hBuilt ?_
  · rw [hFor.storageID]
    exact ⟨hStored.there, hStored.whole⟩
  · intro other hOther second hSecond
    rcases setStage_cases hOther with rfl | ⟨hOld, hRun⟩
    · cases hSecond
    · exact
        hHolds.apart upload hUpload other hOld hRun.symm
          attempt hAttempt second hSecond

theorem encodedInvariant_committing
    (hHolds : EncodedInvariant env s)
    (hUpload : upload ∈ s.base.uploads)
    (hStage : upload.stage = .committing claim attempt) :
    EncodedInvariant env
      { s with
        base :=
          advanceCommitting s.base upload claim attempt
            answer } := by
  unfold advanceCommitting
  split
  · exact hHolds.finish upload
  · next segments hCommit =>
      rw [commitSegment_committed hCommit]
      exact hHolds.commits hUpload hStage
  · apply hHolds.goesOn hUpload
    apply follows_discardingUnpublished
    rw [hStage]
    rfl

/- An upload deletes the object of its own attempt. -/
theorem EncodedInvariant.cleansUp
    {next : Stage}
    (hHolds : EncodedInvariant env s)
    (hUpload : upload ∈ s.base.uploads)
    (hAttempt : attempt ∈ attemptOf upload.stage)
    (hUnwritten : unwrittenAttempt upload.stage = none)
    (hWritten : writtenAttempt upload.stage = none)
    (hFollows : Follows upload.stage next)
    (hStored :
      storedAfter s upload answer = s.stored ∨
        storedAfter s upload answer =
          withoutAttempt s upload attempt) :
    EncodedInvariant env
      { s with
        base := s.base.setStage upload next
        stored := storedAfter s upload answer } := by
  rcases hStored with hKept | hDeleted
  · rw [hKept]
    exact hHolds.goesOn hUpload hFollows
  · rw [hDeleted]
    have hDiscarded :=
      hHolds.changesObjects hUpload hAttempt hUnwritten
        hWritten
        (hHolds.named_withoutAttempt upload attempt)
        changesOnly_withoutAttempt
    exact hDiscarded.goesOn hUpload hFollows

theorem encodedInvariant_discarding
    (hHolds : EncodedInvariant env s)
    (hUpload : upload ∈ s.base.uploads)
    (hStage : upload.stage = .discarding claim attempt) :
    EncodedInvariant env
      { s with
        base := s.base.setStage upload (.releasing claim)
        stored := storedAfter s upload answer } := by
  have hAttempt : attempt ∈ attemptOf upload.stage := by
    rw [hStage]
    rfl
  apply hHolds.cleansUp hUpload hAttempt
  · rw [hStage]
    rfl
  · rw [hStage]
    rfl
  · exact follows_releasing upload.stage claim
  · simp only [storedAfter, hStage]
    cases answer with
    | succeeded => exact Or.inr rfl
    | failed => exact Or.inl rfl
    | opened attemptID salt iv => exact Or.inl rfl
    | streamed sentBytes => exact Or.inl rfl
    | stalePublication => exact Or.inl rfl
    | databaseNotFound => exact Or.inl rfl

theorem encodedInvariant_discardingUnpublished
    (hHolds : EncodedInvariant env s)
    (hUpload : upload ∈ s.base.uploads)
    (hStage : upload.stage = .discardingUnpublished attempt) :
    EncodedInvariant env
      { s with
        base := s.base.setStage upload .removing
        stored := storedAfter s upload answer } := by
  have hAttempt : attempt ∈ attemptOf upload.stage := by
    rw [hStage]
    rfl
  apply hHolds.cleansUp hUpload hAttempt
  · rw [hStage]
    rfl
  · rw [hStage]
    rfl
  · exact follows_removing upload.stage
  · simp only [storedAfter, hStage]
    cases answer with
    | succeeded => exact Or.inr rfl
    | failed => exact Or.inl rfl
    | opened attemptID salt iv => exact Or.inl rfl
    | streamed sentBytes => exact Or.inl rfl
    | stalePublication => exact Or.inl rfl
    | databaseNotFound => exact Or.inl rfl

theorem encodedInvariant_releasing
    (hHolds : EncodedInvariant env s) :
    EncodedInvariant env
      { s with
        base :=
          advanceReleasing s.base upload claim answer } := by
  unfold advanceReleasing
  split
  · exact (hHolds.deleteSegments _).finish upload
  · exact hHolds.finish upload

theorem encodedInvariant_removing
    (hHolds : EncodedInvariant env s) :
    EncodedInvariant env
      { s with
        base := advanceRemoving s.base upload answer } := by
  unfold advanceRemoving
  split
  · have hRemoved :
        EncodedInvariant env
          { s with base := s.base.removeLocal upload.file } :=
      hHolds.withBase rfl rfl
    exact hRemoved.finish upload
  · exact hHolds.finish upload

/-
  An answer to any call.  The artifacts are built by steps of
  their own.
-/
theorem EncodedInvariant.advanceUpload
    {runID : Uuid}
    (hHolds : EncodedInvariant env s)
    (hFound :
      (s.base.uploads.find? fun upload =>
        upload.runID = runID) = some upload)
    (hAnswer :
      ∀ attemptID salt iv,
        answer ≠ .opened attemptID salt iv)
    (hKeeps :
      KeepsSettings s (.base (.advance runID answer))) :
    EncodedInvariant env
      { s with
        base := WalStreaming.advanceUpload s.base upload answer
        stored := storedAfter s upload answer } := by
  have hUpload := List.mem_of_find?_eq_some hFound
  unfold WalStreaming.advanceUpload
  cases hStage : upload.stage with
  | claiming claim =>
      rw [show storedAfter s upload answer = s.stored by
        simp only [storedAfter, hStage]]
      exact encodedInvariant_claiming hHolds hUpload hStage
  | probing claim =>
      rw [show storedAfter s upload answer = s.stored by
        simp only [storedAfter, hStage]]
      exact encodedInvariant_probing hHolds hFound hStage hKeeps
  | building claim =>
      rw [show storedAfter s upload answer = s.stored by
        simp only [storedAfter, hStage]]
      exact encodedInvariant_building hHolds hUpload hAnswer
  | writing claim attempt =>
      exact encodedInvariant_writing hHolds hUpload hStage
  | waiting claim attempt =>
      rw [show storedAfter s upload answer = s.stored by
        simp only [storedAfter, hStage]]
      exact encodedInvariant_waiting hHolds hUpload hStage
  | writingSidecar claim attempt =>
      rw [show storedAfter s upload answer = s.stored by
        simp only [storedAfter, hStage]]
      exact
        encodedInvariant_writingSidecar hHolds hUpload hStage
  | committing claim attempt =>
      rw [show storedAfter s upload answer = s.stored by
        simp only [storedAfter, hStage]]
      exact encodedInvariant_committing hHolds hUpload hStage
  | discarding claim attempt =>
      exact encodedInvariant_discarding hHolds hUpload hStage
  | releasing claim =>
      rw [show storedAfter s upload answer = s.stored by
        simp only [storedAfter, hStage]]
      exact encodedInvariant_releasing hHolds
  | discardingUnpublished attempt =>
      exact
        encodedInvariant_discardingUnpublished hHolds hUpload
          hStage
  | removing =>
      rw [show storedAfter s upload answer = s.stored by
        simp only [storedAfter, hStage]]
      exact encodedInvariant_removing hHolds

------------------------------------------------------------
-- Steps and Runs
------------------------------------------------------------

open Crypto

variable {s' : EncodingState}

theorem madeClaim_unnamed
    {action : Action} :
    ∀ claim ∈ madeClaim env.segSizeOf s.base action,
      claim.fileName = none := by
  intro claim hClaim
  cases action with
  | processSegment runID claimID deps file =>
      exact (settings_of_newClaim hClaim).1
  | recoverSegment runID claimID deps file =>
      exact (settings_of_newClaim hClaim).1
  | tick later => cases hClaim
  | fileArrives file => cases hClaim
  | advance runID answer => cases hClaim
  | crash runID => cases hClaim
  | reapAbandonedWalClaims databaseID => cases hClaim

/- A call begins with the claim that is recorded. -/
theorem encodedInvariant_begin
    {base : State}
    {runID claimID : Uuid}
    {deps : UploaderDeps}
    {file : LocalFile}
    {isRecovering : Bool}
    (hHolds : EncodedInvariant env s)
    (hMade :
      ∀ claim,
        newClaim (env.segSizeOf file.databaseID) deps claimID
              s.base.now file =
            some claim →
          claim ∈ s.claims)
    (hBegin :
      beginUpload env.segSizeOf s.base runID claimID deps file
          isRecovering =
        some base) :
    EncodedInvariant env { s with base := base } := by
  unfold beginUpload at hBegin
  split at hBegin
  · next hFree =>
      split at hBegin
      · cases hBegin
        exact hHolds
      · next claim hClaim =>
          cases hBegin
          have hSettings := settings_of_newClaim hClaim
          apply hHolds.begins hFree.2 rfl
          exact
            ⟨hMade claim hClaim, chainKey_of_newClaim hClaim,
              hSettings.2.1, hSettings.2.2⟩
  · cases hBegin

theorem encodedInvariant_step
    {action : EncodingAction}
    (hHolds : EncodedInvariant env s)
    (hKeeps : KeepsSettings s action)
    (hStep : encodingStep env s action = some s') :
    EncodedInvariant env s' := by
  cases action with
  | build runID attemptID salt nonce =>
      simp only [encodingStep] at hStep
      split at hStep
      · next upload hFound =>
          split at hStep
          · next claim hStage =>
              exact
                encodedInvariant_build hHolds
                  (List.mem_of_find?_eq_some hFound) hStage
                  hStep
          · cases hStep
      · cases hStep
  | base action =>
      simp only [encodingStep] at hStep
      split at hStep
      · cases hStep
      next hOpens =>
      split at hStep
      case isFalse => cases hStep
      next hMade =>
      rcases Option.map_eq_some_iff.mp hStep with
        ⟨base, hBase, rfl⟩
      have hClaimed := hHolds.withClaims madeClaim_unnamed hMade
      cases action with
      | tick later =>
          simp only [step] at hBase
          split at hBase
          · cases hBase
            exact hHolds.withBase rfl rfl
          · cases hBase
      | fileArrives file =>
          simp only [step] at hBase
          split at hBase
          · cases hBase
            exact hHolds.withBase rfl rfl
          · cases hBase
      | processSegment runID claimID deps file =>
          apply encodedInvariant_begin hClaimed _ hBase
          intro claim hClaim
          apply List.mem_append_left
          exact Option.mem_toList.mpr hClaim
      | recoverSegment runID claimID deps file =>
          apply encodedInvariant_begin hClaimed _ hBase
          intro claim hClaim
          apply List.mem_append_left
          exact Option.mem_toList.mpr hClaim
      | advance runID answer =>
          rcases Option.map_eq_some_iff.mp hBase with
            ⟨upload, hFound, rfl⟩
          simp only [hFound]
          apply hHolds.advanceUpload hFound _ hKeeps
          rintro attemptID salt iv rfl
          exact hOpens rfl
      | crash runID =>
          rcases Option.map_eq_some_iff.mp hBase with
            ⟨upload, _, rfl⟩
          exact hHolds.finish upload
      | reapAbandonedWalClaims databaseID =>
          cases hBase
          exact hHolds.deleteSegments _

theorem encodedInvariant_initial
    (hInitial : (encodingSystem env).initial s) :
    EncodedInvariant env s := by
  rcases hInitial with
    ⟨hSegments, hUploads, hClaims, hBuilt, hStored⟩
  refine ⟨?_, ?_, ?_, ?_, ?_, ?_, ?_, ?_, ?_, ?_⟩
  · rw [hUploads]
    exact List.nodup_nil
  · simp [hClaims]
  · simp [hClaims]
  · simp [hClaims]
  · simp [hBuilt]
  · simp [hStored]
  · simp [hSegments]
  · simp [hUploads]
  · simp [hUploads]
  · simp [hSegments]

/-
  In a run whose recoveries keep to the settings of the claims
  they take up, every committed row describes its object, and
  a restore decodes it to the segment's bytes.
-/
theorem rows_describe_objects
    (hSound : env.codec.Sound)
    (hReachable :
      (encodingSystem env).ReachableWhile KeepsSettings s) :
    DescribesObjects env s := by
  apply describesObjects_of_invariant hSound
  exact
    hReachable.invariant
      (fun _ hInitial => encodedInvariant_initial hInitial)
      (fun _ _ _ hHolds hKeeps hStep =>
        encodedInvariant_step hHolds hKeeps hStep)

/- A cipher with a tag of the nonce and the key. -/
def sampleAead (key : Bytes) : Aead where
  overhead := 16
  seals nonce chunk :=
    chunk ++ (copyInto 12 nonce ++ copyInto 4 key)
  opens nonce sealedChunk :=
    if copyInto 12 nonce ++ copyInto 4 key <:+ sealedChunk then
      some (sealedChunk.take (sealedChunk.length - 16))
    else
      none

/- A compressor that writes four magic bytes first. -/
def sampleCodec : SegmentCodec where
  primitives :=
    { uuidText := fun fileID => toString fileID
      pbkdf2Key := fun material salt _ size =>
        copyInto size (material.toUTF8.toList ++ salt)
      newGCM := sampleAead }
  masterKey := some ⟨"secret"⟩
  compress content := [[40, 181, 47, 253], content]
  decompress bytes :=
    if bytes.take 4 = [40, 181, 47, 253] then
      some (bytes.drop 4)
    else
      none

theorem sampleCodec_sound : sampleCodec.Sound := by
  refine ⟨?_, ?_⟩
  · intro key log
    have hTag :
        ∀ nonce,
          (copyInto 12 nonce ++ copyInto 4 key).length =
            16 := by
      intro nonce
      simp [length_copyInto]
    refine ⟨rfl, ?_, ?_⟩
    · intro nonce chunk
      simp only [sampleCodec, sampleAead,
        List.length_append, length_copyInto]
    · intro entry _
      simp only [sampleCodec, sampleAead]
      rw [if_pos (List.suffix_append _ _),
        List.length_append, hTag, Nat.add_sub_cancel,
        List.take_left]
  · intro content
    simp [sampleCodec]

def sampleEncoding : EncodingEnvironment where
  segSizeOf := sampleSegSizeOf
  storageOf _ := 1
  codec := sampleCodec
  segmentBytes _ := [1, 2, 3]

def sampleEncodingState : EncodingState where
  base := sampleState
  claims := []
  built := []
  stored := []

theorem initial_sampleEncodingState :
    (encodingSystem sampleEncoding).initial
      sampleEncodingState :=
  ⟨rfl, rfl, rfl, rfl, rfl⟩

def sampleSettings
    (encryption : BackupEncryption) : UploaderDeps where
  storageID := 1
  encryption := encryption

/-
  A process crashes with a claim, the setting is changed, and
  the next process recovers the segment.
-/
def sampleRecoveredUpload
    (before after : BackupEncryption) : EncodingState :=
  (encodingSystem sampleEncoding).outcome sampleEncodingState
    [.base
        (.processSegment 1 101 (sampleSettings before)
          sampleFile),
      .base (.advance 1 .succeeded),
      .base (.crash 1),
      .base
        (.recoverSegment 2 102 (sampleSettings after)
          sampleFile),
      .base (.advance 2 .succeeded),
      .base (.advance 2 .succeeded),
      .build 2 7 (some (List.replicate 32 1))
        (some (List.replicate 12 2)),
      .base (.advance 2 .succeeded),
      .base (.advance 2 (.streamed 7)),
      .base (.advance 2 .succeeded),
      .base (.advance 2 .succeeded),
      .base (.advance 2 .succeeded)]

/- Under the same setting the object is decoded. -/
theorem same_setting_describes_object :
    DescribesObjects sampleEncoding
        (sampleRecoveredUpload .encrypted .encrypted) ∧
      ∃ row ∈
          (sampleRecoveredUpload .encrypted
            .encrypted).base.segments,
        row.encryption = .encrypted ∧
          row.fileName.isSome := by
  refine ⟨?_, by decide +kernel⟩
  exact
    rows_describe_objects sampleCodec_sound
      (TransitionSystem.reachableWhile_outcome
        initial_sampleEncodingState (by decide +kernel))

/-
  The row keeps the setting of the claim, and says that its
  object is plain, while the object was sealed.
-/
theorem changed_setting_hides_encryption :
    ¬ ∀ (env : EncodingEnvironment) (s : EncodingState),
        env.codec.Sound →
          (encodingSystem env).Reachable s →
            DescribesObjects env s := by
  intro hAlways
  have hDescribes :=
    hAlways sampleEncoding
      (sampleRecoveredUpload .none .encrypted)
      sampleCodec_sound
      (TransitionSystem.reachable_outcome _
        initial_sampleEncodingState)
  have hRow :
      ∃ row ∈
          (sampleRecoveredUpload .none
            .encrypted).base.segments,
        row.fileName =
            some
              ("1-WAL-tl1-000000010000000000000001-7.zst") ∧
          row.encryption = .none ∧ row.storageID = 1 := by
    decide +kernel
  rcases hRow with
    ⟨row, hMember, hFileName, hPlain, hStorage⟩
  rcases (hDescribes row hMember _ hFileName).encoded with
    ⟨openFile, object, salt, iv, hOpens, hObject,
      hArtifact, _⟩
  rw [hPlain] at hArtifact
  have hBytes := (built_plain hArtifact).1
  have hFound :
      openFile "1-WAL-tl1-000000010000000000000001-7.zst" ≠
        some [40, 181, 47, 253, 1, 2, 3] := by
    cases hOpens
    rw [hStorage]
    decide +kernel
  apply hFound
  rw [hObject, hBytes]
  rfl

end WalStreaming

end Databasus
