import Databasus.WalStreaming.GapProbe

/-
  Segments that are durable or wait in the queue.

  What waits becomes durable, and files arrive in the order
  of the log.  Below a durable segment the expected segments
  therefore stay the same, whatever uploads do.

  Main declarations:
    * `Durable`
    * `Expected`
    * `rows_of_step`
    * `uploads_of_step`
    * `QueueSound`
    * `keepsBelow_of_step`
-/

------------------------------------------------------------
-- Segments of the Queue
------------------------------------------------------------

namespace Databasus

namespace WalStreaming

open Catalog

/- The file waits as a complete segment of the queue. -/
def IsWaiting
    (env : StreamEnvironment)
    (file : LocalFile) : Prop :=
  (queuedSegmentOf env file).any
    fun queued => queued.isComplete

instance instDecidableIsWaiting
    (env : StreamEnvironment)
    (file : LocalFile) :
    Decidable (IsWaiting env file) :=
  inferInstanceAs (Decidable (_ = true))

def LocalFile.keyIn
    (env : StreamEnvironment)
    (file : LocalFile) : Option ChainKey :=
  file.chainKey (env.segSizeOf file.databaseID)

def SameTimeline
    (first second : ChainKey) : Prop :=
  first.databaseID = second.databaseID ∧
    first.timelineID = second.timelineID

instance instDecidableSameTimeline
    (first second : ChainKey) :
    Decidable (SameTimeline first second) :=
  inferInstanceAs (Decidable (_ ∧ _))

/- A durable segment has the key. -/
def Durable
    (segments : List WalSegment)
    (key : ChainKey) : Prop :=
  ∃ row ∈ segments,
    row.fileName.isSome ∧ row.chainKey = key

instance instDecidableDurable
    (segments : List WalSegment)
    (key : ChainKey) :
    Decidable (Durable segments key) :=
  inferInstanceAs (Decidable (∃ row ∈ segments, _))

/- No durable segment of its timeline lies above the file. -/
def ArrivesInOrder
    (env : StreamEnvironment)
    (segments : List WalSegment)
    (file : LocalFile) : Prop :=
  ∀ key ∈ file.keyIn env,
    ∀ row ∈ segments,
      row.fileName.isSome →
        SameTimeline row.chainKey key →
          row.startLSN ≤ key.startLSN

instance instDecidableArrivesInOrder
    (env : StreamEnvironment)
    (segments : List WalSegment)
    (file : LocalFile) :
    Decidable (ArrivesInOrder env segments file) :=
  inferInstanceAs
    (Decidable
      (∀ key ∈ file.keyIn env, ∀ row ∈ segments, _ → _ → _))

------------------------------------------------------------
-- What a Step Changes
------------------------------------------------------------

open Foundation

variable {segSizeOf : Uuid → Nat}
variable {s s' : State}
variable {upload : Upload}
variable {claim : WalSegment}
variable {runID : Uuid}
variable {answer : Answer}
variable {action : Action}
variable {stage : Stage}
variable {segments : List WalSegment}
variable {objects : List StoredArtifact}
variable {files : List LocalFile}

/-
  A row of the table was there, is the claim of an upload, or
  is an old row that the commit of an upload has named.
-/
def RowComesFrom
    (s : State)
    (action : Action)
    (row : WalSegment) : Prop :=
  row ∈ s.segments ∨
    (∃ upload ∈ s.uploads,
      upload.stage = .claiming row) ∨
    ∃ claim ∈ committedClaim s action,
      ∃ old ∈ s.segments,
        old.id = claim.id ∧ row.chainKey = old.chainKey ∧
          row.endLSN = old.endLSN

theorem rows_claiming
    (hUpload : upload ∈ s.uploads)
    (hStage : upload.stage = .claiming claim)
    (action : Action)
    (answer : Answer) :
    ∀ row ∈ (advanceClaiming s upload claim answer).segments,
      RowComesFrom s action row := by
  intro row hRow
  unfold advanceClaiming at hRow
  split at hRow
  · exact Or.inl hRow
  · next segments hClaimed =>
      rcases claimSegment_claimed hClaimed with
        ⟨_, _, hAppend⟩
      have hMember : row ∈ segments := hRow
      rw [hAppend] at hMember
      rcases List.mem_append.mp hMember with hOld | hNew
      · exact Or.inl hOld
      · rw [List.mem_singleton.mp hNew]
        exact Or.inr (Or.inl ⟨upload, hUpload, hStage⟩)
  · exact Or.inl hRow

theorem rows_committing
    {attempt : Attempt}
    (hFound :
      (s.uploads.find? fun upload =>
        upload.runID = runID) = some upload)
    (hStage : upload.stage = .committing claim attempt) :
    ∀ row ∈
        (advanceCommitting s upload claim attempt
          answer).segments,
      RowComesFrom s (.advance runID answer) row := by
  intro row hRow
  unfold advanceCommitting at hRow
  split at hRow
  · exact Or.inl hRow
  · next segments hCommit =>
      have hCommitted :
          claim ∈
            committedClaim s (.advance runID answer) := by
        rcases upload with ⟨_, _, _, _, stage⟩
        cases hStage
        simp only [committedClaim, hFound, hCommit]
        rfl
      have hMember : row ∈ segments := hRow
      unfold commitSegment at hCommit
      split at hCommit
      · simp only at hCommit
        split at hCommit
        · cases hCommit
          rcases (Table.mem_updateWhere_iff _ _ _ _).mp
              hMember with
            ⟨old, hOld, rfl⟩
          split
          · next hSelected =>
              right
              right
              refine
                ⟨claim, hCommitted, old, hOld, ?_, rfl, rfl⟩
              simp only [isClaimWithID, Bool.and_eq_true,
                decide_eq_true_eq] at hSelected
              exact hSelected.1
          · exact Or.inl hOld
        · cases hCommit
      · cases hCommit
      · cases hCommit
      · cases hCommit
  · exact Or.inl hRow

theorem rows_advanceUpload
    (hFound :
      (s.uploads.find? fun upload =>
        upload.runID = runID) = some upload) :
    ∀ row ∈ (advanceUpload s upload answer).segments,
      RowComesFrom s (.advance runID answer) row := by
  have hUpload := List.mem_of_find?_eq_some hFound
  intro row hRow
  unfold advanceUpload at hRow
  cases hStage : upload.stage with
  | claiming claim =>
      rw [hStage] at hRow
      exact rows_claiming hUpload hStage _ answer row hRow
  | committing claim attempt =>
      rw [hStage] at hRow
      exact rows_committing hFound hStage row hRow
  | releasing claim =>
      left
      simp only [hStage, advanceReleasing] at hRow
      split at hRow
      · exact ((Table.mem_deleteWhere_iff _ _ _).mp hRow).1
      · exact hRow
  | probing claim =>
      left
      simp only [hStage, advanceProbing] at hRow
      split at hRow
      · split at hRow <;> exact hRow
      · exact hRow
  | building claim =>
      left
      simp only [hStage, advanceBuilding] at hRow
      split at hRow <;> exact hRow
  | writing claim attempt =>
      left
      simp only [hStage, advanceWriting] at hRow
      split at hRow <;> exact hRow
  | waiting claim attempt =>
      left
      simp only [hStage, advanceWaiting] at hRow
      split at hRow <;> exact hRow
  | writingSidecar claim attempt =>
      left
      simp only [hStage, advanceWritingSidecar] at hRow
      split at hRow <;> exact hRow
  | discarding claim attempt =>
      left
      simp only [hStage] at hRow
      exact hRow
  | discardingUnpublished attempt =>
      left
      simp only [hStage] at hRow
      exact hRow
  | removing =>
      left
      simp only [hStage, advanceRemoving] at hRow
      split at hRow <;> exact hRow

/- The table's rows after a step. -/
theorem rows_of_step
    (hStep : step segSizeOf s action = some s') :
    ∀ row ∈ s'.segments, RowComesFrom s action row := by
  intro row hRow
  cases action with
  | tick later =>
      simp only [step] at hStep
      split at hStep
      · cases hStep
        exact Or.inl hRow
      · cases hStep
  | fileArrives file =>
      simp only [step] at hStep
      split at hStep
      · cases hStep
        exact Or.inl hRow
      · cases hStep
  | processSegment runID claimID deps file =>
      left
      simp only [step, beginUpload] at hStep
      split at hStep
      · split at hStep <;> cases hStep <;> exact hRow
      · cases hStep
  | recoverSegment runID claimID deps file =>
      left
      simp only [step, beginUpload] at hStep
      split at hStep
      · split at hStep <;> cases hStep <;> exact hRow
      · cases hStep
  | advance runID answer =>
      rcases Option.map_eq_some_iff.mp hStep with
        ⟨upload, hFound, rfl⟩
      exact rows_advanceUpload hFound row hRow
  | crash runID =>
      rcases Option.map_eq_some_iff.mp hStep with
        ⟨upload, hFound, rfl⟩
      exact Or.inl hRow
  | reapAbandonedWalClaims databaseID =>
      cases hStep
      exact Or.inl ((Table.mem_deleteWhere_iff _ _ _).mp hRow).1

/- A stage that goes on with a claim there was. -/
def StageFollows
    (s : State)
    (upload : Upload)
    (stage : Stage) : Prop :=
  (∀ claim, stage ≠ .claiming claim) ∧
    ∀ claim ∈ claimOf stage,
      claim ∈ claimOf upload.stage ∨ claim ∈ s.segments

/- Uploads go on with such a stage, or stay as they are. -/
def UploadsFollow
    (s : State)
    (upload : Upload)
    (s' : State) : Prop :=
  ∀ other ∈ s'.uploads,
    other ∈ s.uploads ∨ StageFollows s upload other.stage

theorem uploadsFollow_setStage
    (hFollows : StageFollows s upload stage) :
    UploadsFollow s upload
      ({ s with
        segments := segments
        objects := objects }.setStage upload stage) := by
  intro other hOther
  rcases mem_setStage hOther with hOld | rfl
  · exact Or.inl hOld
  · exact Or.inr hFollows

theorem uploadsFollow_finish :
    UploadsFollow s upload
      ({ s with
        segments := segments
        files := files }.finish upload) := by
  intro other hOther
  exact Or.inl ((Table.mem_deleteWhere_iff _ _ _).mp hOther).1

/- A stage with the claim of the one before follows it. -/
theorem stageFollows_of_claim
    (hNew : ∀ claim, stage ≠ .claiming claim)
    (hClaim : claimOf stage = claimOf upload.stage) :
    StageFollows s upload stage := by
  refine ⟨hNew, ?_⟩
  intro claim hMember
  left
  rw [← hClaim]
  exact hMember

theorem stageFollows_of_none
    (hClaim : claimOf stage = none) :
    StageFollows s upload stage := by
  constructor
  · rintro claim rfl
    cases hClaim
  · intro claim hMember
    rw [hClaim] at hMember
    cases hMember

theorem uploadsFollow_probing
    (answer : Answer) :
    UploadsFollow s upload
      (advanceProbing s upload claim answer) := by
  unfold advanceProbing
  split
  · simp only
    split
    · exact uploadsFollow_setStage (stageFollows_of_none rfl)
    · next segment hFound =>
        apply uploadsFollow_setStage
        refine ⟨by simp, ?_⟩
        intro other hOther
        cases hOther
        exact Or.inr (Table.lookup_some hFound).1
    · exact uploadsFollow_finish
  · exact uploadsFollow_finish

theorem uploadsFollow_advanceUpload
    (upload : Upload)
    (answer : Answer) :
    UploadsFollow s upload
      (advanceUpload s upload answer) := by
  unfold advanceUpload
  split
  · next claim hStage =>
      have hClaim : claimOf upload.stage = some claim := by
        rw [hStage]
        rfl
      unfold advanceClaiming
      split
      · exact uploadsFollow_finish
      · apply uploadsFollow_setStage
        exact stageFollows_of_claim (by simp) hClaim.symm
      · apply uploadsFollow_setStage
        exact stageFollows_of_claim (by simp) hClaim.symm
  · exact uploadsFollow_probing answer
  · next claim hStage =>
      have hClaim : claimOf upload.stage = some claim := by
        rw [hStage]
        rfl
      unfold advanceBuilding
      split
      · apply uploadsFollow_setStage
        exact stageFollows_of_claim (by simp) hClaim.symm
      · apply uploadsFollow_setStage
        exact stageFollows_of_claim (by simp) hClaim.symm
  · next claim attempt hStage =>
      have hClaim : claimOf upload.stage = some claim := by
        rw [hStage]
        rfl
      unfold advanceWriting
      split
      · apply uploadsFollow_setStage
        exact stageFollows_of_claim (by simp) hClaim.symm
      · apply uploadsFollow_setStage
        exact stageFollows_of_claim (by simp) hClaim.symm
  · next claim attempt hStage =>
      have hClaim : claimOf upload.stage = some claim := by
        rw [hStage]
        rfl
      unfold advanceWaiting
      split
      · apply uploadsFollow_setStage
        exact stageFollows_of_claim (by simp) hClaim.symm
      · apply uploadsFollow_setStage
        exact stageFollows_of_claim (by simp) hClaim.symm
  · next claim attempt hStage =>
      have hClaim : claimOf upload.stage = some claim := by
        rw [hStage]
        rfl
      unfold advanceWritingSidecar
      split
      · apply uploadsFollow_setStage
        exact stageFollows_of_claim (by simp) hClaim.symm
      · apply uploadsFollow_setStage
        exact stageFollows_of_claim (by simp) hClaim.symm
  · unfold advanceCommitting
    split
    · exact uploadsFollow_finish
    · exact uploadsFollow_setStage (stageFollows_of_none rfl)
    · exact uploadsFollow_setStage (stageFollows_of_none rfl)
  · next claim attempt hStage =>
      have hClaim : claimOf upload.stage = some claim := by
        rw [hStage]
        rfl
      apply uploadsFollow_setStage
      exact stageFollows_of_claim (by simp) hClaim.symm
  · unfold advanceReleasing
    split
    · exact uploadsFollow_finish
    · exact uploadsFollow_finish
  · exact uploadsFollow_setStage (stageFollows_of_none rfl)
  · unfold advanceRemoving
    split
    · exact uploadsFollow_finish
    · exact uploadsFollow_finish

/- An upload that goes on keeps its file. -/
def KeepsUploadFile
    (s : State)
    (upload : Upload)
    (s' : State) : Prop :=
  ∀ other ∈ s'.uploads,
    other ∈ s.uploads ∨ other.file = upload.file

theorem keepsUploadFile_setStage :
    KeepsUploadFile s upload
      ({ s with
        segments := segments
        objects := objects }.setStage upload stage) := by
  intro other hOther
  rcases mem_setStage hOther with hOld | rfl
  · exact Or.inl hOld
  · exact Or.inr rfl

theorem keepsUploadFile_finish :
    KeepsUploadFile s upload
      ({ s with
        segments := segments
        files := files }.finish upload) := by
  intro other hOther
  exact Or.inl ((Table.mem_deleteWhere_iff _ _ _).mp hOther).1

theorem keepsUploadFile_advanceUpload
    (upload : Upload)
    (answer : Answer) :
    KeepsUploadFile s upload
      (advanceUpload s upload answer) := by
  unfold advanceUpload
  split
  · unfold advanceClaiming
    split
    · exact keepsUploadFile_finish
    · exact keepsUploadFile_setStage
    · exact keepsUploadFile_setStage
  · unfold advanceProbing
    split
    · simp only
      split
      · exact keepsUploadFile_setStage
      · exact keepsUploadFile_setStage
      · exact keepsUploadFile_finish
    · exact keepsUploadFile_finish
  · unfold advanceBuilding
    split
    · exact keepsUploadFile_setStage
    · exact keepsUploadFile_setStage
  · unfold advanceWriting
    split
    · exact keepsUploadFile_setStage
    · exact keepsUploadFile_setStage
  · unfold advanceWaiting
    split
    · exact keepsUploadFile_setStage
    · exact keepsUploadFile_setStage
  · unfold advanceWritingSidecar
    split
    · exact keepsUploadFile_setStage
    · exact keepsUploadFile_setStage
  · unfold advanceCommitting
    split
    · exact keepsUploadFile_finish
    · exact keepsUploadFile_setStage
    · exact keepsUploadFile_setStage
  · exact keepsUploadFile_setStage
  · unfold advanceReleasing
    split
    · exact keepsUploadFile_finish
    · exact keepsUploadFile_finish
  · exact keepsUploadFile_setStage
  · unfold advanceRemoving
    split
    · exact keepsUploadFile_finish
    · exact keepsUploadFile_finish

/- The file that an action begins an upload of. -/
def begunFile : Action → Option LocalFile
  | .processSegment _ _ _ file => some file
  | .recoverSegment _ _ _ file => some file
  | _ => none

/- An upload that begins with the claim of its file. -/
def BeginsWith
    (segSizeOf : Uuid → Nat)
    (s : State)
    (file : LocalFile)
    (stage : Stage) : Prop :=
  file ∈ s.files ∧
    ∃ deps id claim,
      newClaim (segSizeOf file.databaseID) deps id s.now
          file =
        some claim ∧
      stage = .claiming claim

theorem uploads_beginUpload
    {runID claimID : Uuid}
    {deps : UploaderDeps}
    {file : LocalFile}
    {isRecovering : Bool}
    (hBegin :
      beginUpload segSizeOf s runID claimID deps file
          isRecovering =
        some s') :
    ∀ other ∈ s'.uploads,
      other ∈ s.uploads ∨
        BeginsWith segSizeOf s file other.stage := by
  intro other hOther
  unfold beginUpload at hBegin
  split at hBegin
  · next hAllowed =>
      split at hBegin
      · cases hBegin
        exact Or.inl hOther
      · next claim hClaim =>
          cases hBegin
          rcases List.mem_cons.mp hOther with rfl | hOld
          · exact
              Or.inr
                ⟨hAllowed.1, deps, claimID, claim, hClaim,
                  rfl⟩
          · exact Or.inl hOld
  · cases hBegin

/- The uploads after a step. -/
theorem uploads_of_step
    (hStep : step segSizeOf s action = some s') :
    ∀ other ∈ s'.uploads,
      other ∈ s.uploads ∨
        (∃ upload ∈ s.uploads,
          StageFollows s upload other.stage) ∨
        ∃ file ∈ begunFile action,
          BeginsWith segSizeOf s file other.stage := by
  intro other hOther
  cases action with
  | tick later =>
      simp only [step] at hStep
      split at hStep
      · cases hStep
        exact Or.inl hOther
      · cases hStep
  | fileArrives file =>
      simp only [step] at hStep
      split at hStep
      · cases hStep
        exact Or.inl hOther
      · cases hStep
  | processSegment runID claimID deps file =>
      rcases uploads_beginUpload hStep other hOther with
        hOld | hBegins
      · exact Or.inl hOld
      · exact Or.inr (Or.inr ⟨file, rfl, hBegins⟩)
  | recoverSegment runID claimID deps file =>
      rcases uploads_beginUpload hStep other hOther with
        hOld | hBegins
      · exact Or.inl hOld
      · exact Or.inr (Or.inr ⟨file, rfl, hBegins⟩)
  | advance runID answer =>
      rcases Option.map_eq_some_iff.mp hStep with
        ⟨upload, hFound, rfl⟩
      rcases
          uploadsFollow_advanceUpload upload answer other
            hOther with
        hOld | hFollows
      · exact Or.inl hOld
      · exact
          Or.inr
            (Or.inl
              ⟨upload, List.mem_of_find?_eq_some hFound,
                hFollows⟩)
  | crash runID =>
      rcases Option.map_eq_some_iff.mp hStep with
        ⟨upload, hFound, rfl⟩
      exact
        Or.inl
          ((Table.mem_deleteWhere_iff _ _ _).mp hOther).1
  | reapAbandonedWalClaims databaseID =>
      cases hStep
      exact Or.inl hOther

/- The files that uploads are of after a step. -/
theorem uploadFiles_of_step
    (hStep : step segSizeOf s action = some s') :
    ∀ other ∈ s'.uploads,
      (∃ upload ∈ s.uploads, other.file = upload.file) ∨
        begunFile action = some other.file := by
  intro other hOther
  have hOld :
      other ∈ s.uploads →
        (∃ upload ∈ s.uploads, other.file = upload.file) ∨
          begunFile action = some other.file :=
    fun hMember => Or.inl ⟨other, hMember, rfl⟩
  cases action with
  | tick later =>
      simp only [step] at hStep
      split at hStep
      · cases hStep
        exact hOld hOther
      · cases hStep
  | fileArrives file =>
      simp only [step] at hStep
      split at hStep
      · cases hStep
        exact hOld hOther
      · cases hStep
  | processSegment runID claimID deps file =>
      simp only [step, beginUpload] at hStep
      split at hStep
      · split at hStep
        · cases hStep
          exact hOld hOther
        · cases hStep
          rcases List.mem_cons.mp hOther with rfl | hMember
          · exact Or.inr rfl
          · exact hOld hMember
      · cases hStep
  | recoverSegment runID claimID deps file =>
      simp only [step, beginUpload] at hStep
      split at hStep
      · split at hStep
        · cases hStep
          exact hOld hOther
        · cases hStep
          rcases List.mem_cons.mp hOther with rfl | hMember
          · exact Or.inr rfl
          · exact hOld hMember
      · cases hStep
  | advance runID answer =>
      rcases Option.map_eq_some_iff.mp hStep with
        ⟨upload, hFound, rfl⟩
      rcases
          keepsUploadFile_advanceUpload upload answer other
            hOther with
        hMember | hFile
      · exact hOld hMember
      · exact
          Or.inl
            ⟨upload, List.mem_of_find?_eq_some hFound, hFile⟩
  | crash runID =>
      rcases Option.map_eq_some_iff.mp hStep with
        ⟨upload, hFound, rfl⟩
      exact hOld ((Table.mem_deleteWhere_iff _ _ _).mp hOther).1
  | reapAbandonedWalClaims databaseID =>
      cases hStep
      exact hOld hOther

/- Files come by arriving only. -/
theorem files_of_step
    (hStep : step segSizeOf s action = some s') :
    ∀ file ∈ s'.files,
      file ∈ s.files ∨ action = .fileArrives file := by
  intro file hFile
  cases action with
  | tick later =>
      simp only [step] at hStep
      split at hStep
      · cases hStep
        exact Or.inl hFile
      · cases hStep
  | fileArrives other =>
      simp only [step] at hStep
      split at hStep
      · cases hStep
        rcases List.mem_cons.mp hFile with rfl | hOld
        · exact Or.inr rfl
        · exact Or.inl hOld
      · cases hStep
  | processSegment runID claimID deps other =>
      rw [files_beginUpload hStep] at hFile
      exact Or.inl hFile
  | recoverSegment runID claimID deps other =>
      rw [files_beginUpload hStep] at hFile
      exact Or.inl hFile
  | advance runID answer =>
      rcases Option.map_eq_some_iff.mp hStep with
        ⟨upload, hFound, rfl⟩
      left
      exact mem_files_of_advanceUpload hFile
  | crash runID =>
      rcases Option.map_eq_some_iff.mp hStep with
        ⟨upload, hFound, rfl⟩
      exact Or.inl hFile
  | reapAbandonedWalClaims databaseID =>
      cases hStep
      exact Or.inl hFile

------------------------------------------------------------
-- Bounds of Segments
------------------------------------------------------------

open Walmath

/- The bounds of a segment file of the database's cluster. -/
structure SegmentBounds
    (size start endLSN : Nat) : Prop where
  positive : 0 < size
  whole : size ∣ 2 ^ 64
  aligned : size ∣ start
  bounded : start < 2 ^ 64
  ends : endLSN = (start + size) % 2 ^ 64

def RowSound
    (env : StreamEnvironment)
    (row : WalSegment) : Prop :=
  SegmentBounds (env.segSizeOf row.databaseID) row.startLSN
    row.endLSN

variable {env : StreamEnvironment}
variable {file : LocalFile}

theorem segmentBounds_of_parse
    {name : String}
    {size timelineID segmentNo : Nat}
    (hRead :
      parseWALFilename name size =
        .ok (timelineID, segmentNo)) :
    SegmentBounds size (segmentNo * size % 2 ^ 64)
      ((segmentNo * size % 2 ^ 64 + size) % 2 ^ 64) := by
  rcases dvd_of_parseWALFilename hRead with
    ⟨hPositive, hDivides⟩
  have hWhole : size ∣ 2 ^ 64 := hDivides.trans (by decide)
  exact
    { positive := hPositive
      whole := hWhole
      aligned :=
        (Nat.dvd_mod_iff hWhole).mpr
          (Nat.dvd_mul_left size segmentNo)
      bounded := Nat.mod_lt _ (by decide)
      ends := rfl }

/- What a new claim says of its file. -/
theorem newClaim_some
    {deps : UploaderDeps}
    {id : Uuid}
    {now : Time}
    (hClaim :
      newClaim (env.segSizeOf file.databaseID) deps id now
          file =
        some claim) :
    RowSound env claim ∧ claim.fileName = none ∧
      file.sizeBytes = env.segSizeOf file.databaseID ∧
        file.keyIn env = some claim.chainKey := by
  have hKey := chainKey_of_newClaim hClaim
  unfold newClaim segmentBounds at hClaim
  split at hClaim
  · cases hClaim
  · next timelineID startLSN endLSN hBounds =>
      split at hClaim
      · cases hClaim
      · next hSize =>
          split at hBounds
          · cases hBounds
          · next hRead =>
              cases hBounds
              cases hClaim
              exact
                ⟨segmentBounds_of_parse hRead, rfl,
                  not_not.mp hSize, hKey⟩

/- What the queue lists of a file. -/
theorem queuedSegmentOf_some
    {queued : QueuedWalSegment}
    (hQueued : queuedSegmentOf env file = some queued) :
    SegmentBounds (env.segSizeOf file.databaseID)
        queued.startLSN queued.endLSN ∧
      file.keyIn env =
          some
            { databaseID := file.databaseID
              timelineID := queued.timelineID
              startLSN := queued.startLSN } ∧
        queued.isComplete =
          decide
            (file.sizeBytes =
              env.segSizeOf file.databaseID) := by
  unfold queuedSegmentOf at hQueued
  split at hQueued
  · split at hQueued
    · cases hQueued
    · next segment hSegment =>
        split at hQueued
        · cases hQueued
          unfold walSegmentFileOf at hSegment
          split at hSegment
          · cases hSegment
          · split at hSegment
            · cases hSegment
            · next timelineID segmentNo hRead =>
                simp only [LocalFile.entry] at hRead hSegment
                cases hSegment
                refine ⟨segmentBounds_of_parse hRead, ?_, rfl⟩
                unfold LocalFile.keyIn LocalFile.chainKey
                unfold segmentBounds
                rw [hRead]
                rfl
        · cases hQueued
  · cases hQueued

/- Multiples of a size are at least the size apart. -/
theorem add_size_le
    {size first second : Nat}
    (hFirst : size ∣ first)
    (hSecond : size ∣ second)
    (hOrder : first < second) :
    first + size ≤ second := by
  rcases hFirst with ⟨m, rfl⟩
  rcases hSecond with ⟨n, rfl⟩
  have hLess : m < n := Nat.lt_of_mul_lt_mul_left hOrder
  calc
    size * m + size = size * (m + 1) := by ring
    _ ≤ size * n := Nat.mul_le_mul_left size hLess

/- A segment below another one ends by that one's start. -/
theorem SegmentBounds.end_le
    {size start endLSN later laterEnd : Nat}
    (hBounds : SegmentBounds size start endLSN)
    (hLater : SegmentBounds size later laterEnd)
    (hBelow : start < later) :
    start + size ≤ later ∧ endLSN = start + size := by
  have hNext : start + size ≤ later :=
    add_size_le hBounds.aligned hLater.aligned hBelow
  refine ⟨hNext, ?_⟩
  rw [hBounds.ends]
  exact
    Nat.mod_eq_of_lt
      (Nat.lt_of_le_of_lt hNext hLater.bounded)

------------------------------------------------------------
-- Expected Segments
------------------------------------------------------------

open Walmath (LSN)

variable {key : ChainKey}

/- A segment that is durable or waits in the queue. -/
def Expected
    (env : StreamEnvironment)
    (s : State)
    (key : ChainKey) : Prop :=
  Durable s.segments key ∨
    ∃ file ∈ s.files,
      IsWaiting env file ∧ file.keyIn env = some key

def Below
    (env : StreamEnvironment)
    (s : State)
    (key lower : ChainKey) : Prop :=
  Expected env s lower ∧ SameTimeline lower key ∧
    lower.startLSN < key.startLSN

/- The first position after the segment of a key. -/
def endOf
    (env : StreamEnvironment)
    (key : ChainKey) : LSN :=
  key.startLSN + env.segSizeOf key.databaseID

/-
  What expected segments have in common over a step: below a
  durable one they stay the same, and durable ones stay.
-/
structure KeepsBelow
    (env : StreamEnvironment)
    (s s' : State) : Prop where
  durable :
    ∀ key, Durable s.segments key → Durable s'.segments key
  below :
    ∀ key, Durable s.segments key →
      ∀ lower, Below env s' key lower ↔ Below env s key lower

variable {env : StreamEnvironment}
variable {s s' : State}

/- Rows that persist keep a segment durable. -/
theorem durable_of_persists
    {segments segments' : List WalSegment}
    (hPersists :
      ∀ row ∈ segments, row.fileName.isSome →
        Persists row segments')
    (hDurable : Durable segments key) :
    Durable segments' key := by
  rcases hDurable with ⟨row, hRow, hName, hKey⟩
  rcases hPersists row hRow hName with
    ⟨kept, hKept, _, hKeptKey, hKeptName⟩
  exact ⟨kept, hKept, hKeptName hName, hKeptKey.trans hKey⟩

theorem durable_claiming
    (hDurable : Durable s.segments key) :
    Durable (advanceClaiming s upload claim answer).segments
      key := by
  unfold advanceClaiming
  split
  · exact hDurable
  · next segments hClaimed =>
      rcases claimSegment_claimed hClaimed with
        ⟨_, _, hAppend⟩
      change Durable segments key
      rw [hAppend]
      apply durable_of_persists _ hDurable
      intro row hRow _
      exact persists_of_mem (List.mem_append_left _ hRow)
  · exact hDurable

theorem durable_committing
    {attempt : Attempt}
    (hDurable : Durable s.segments key) :
    Durable
      (advanceCommitting s upload claim attempt
        answer).segments
      key := by
  unfold advanceCommitting
  split
  · exact hDurable
  · next segments hCommit =>
      change Durable segments key
      unfold commitSegment at hCommit
      split at hCommit
      · simp only at hCommit
        split at hCommit
        · cases hCommit
          apply durable_of_persists _ hDurable
          intro row hRow _
          exact persists_markUploaded _ hRow
        · cases hCommit
      · cases hCommit
      · cases hCommit
      · cases hCommit
  · exact hDurable

/- Only claims are deleted. -/
theorem durable_releasing
    (hDurable : Durable s.segments key) :
    Durable
      (advanceReleasing s upload claim answer).segments
      key := by
  unfold advanceReleasing
  split
  · apply durable_of_persists _ hDurable
    intro row hRow hName
    exact
      persists_deleteWhere hRow
        (not_selected_of_archived hName claim.id 0 0).1
  · exact hDurable

theorem durable_advanceUpload
    (hDurable : Durable s.segments key) :
    Durable (advanceUpload s upload answer).segments key := by
  unfold advanceUpload
  split
  · exact durable_claiming hDurable
  · unfold advanceProbing
    split
    · simp only
      split <;> exact hDurable
    · exact hDurable
  · unfold advanceBuilding
    split <;> exact hDurable
  · unfold advanceWriting
    split <;> exact hDurable
  · unfold advanceWaiting
    split <;> exact hDurable
  · unfold advanceWritingSidecar
    split <;> exact hDurable
  · exact durable_committing hDurable
  · exact hDurable
  · exact durable_releasing hDurable
  · exact hDurable
  · unfold advanceRemoving
    split <;> exact hDurable

/- What is durable stays so. -/
theorem durable_of_step
    (hStep : step env.segSizeOf s action = some s')
    (hDurable : Durable s.segments key) :
    Durable s'.segments key := by
  cases action with
  | tick later =>
      simp only [step] at hStep
      split at hStep
      · cases hStep
        exact hDurable
      · cases hStep
  | fileArrives file =>
      simp only [step] at hStep
      split at hStep
      · cases hStep
        exact hDurable
      · cases hStep
  | processSegment runID claimID deps file =>
      simp only [step, beginUpload] at hStep
      split at hStep
      · split at hStep <;> cases hStep <;> exact hDurable
      · cases hStep
  | recoverSegment runID claimID deps file =>
      simp only [step, beginUpload] at hStep
      split at hStep
      · split at hStep <;> cases hStep <;> exact hDurable
      · cases hStep
  | advance runID answer =>
      rcases Option.map_eq_some_iff.mp hStep with
        ⟨upload, hFound, rfl⟩
      exact durable_advanceUpload hDurable
  | crash runID =>
      rcases Option.map_eq_some_iff.mp hStep with
        ⟨upload, hFound, rfl⟩
      exact hDurable
  | reapAbandonedWalClaims databaseID =>
      cases hStep
      apply durable_of_persists _ hDurable
      intro row hRow hName
      exact
        persists_deleteWhere hRow
          (not_selected_of_archived hName 0 databaseID _).2

------------------------------------------------------------
-- The Queue and the Table
------------------------------------------------------------

/- What uploads and their claims rely on. -/
structure QueueSound
    (env : StreamEnvironment)
    (s : State) : Prop where
  uploads : UploadInvariant env.segSizeOf s
  rows : ∀ row ∈ s.segments, RowSound env row
  rowsExpected :
    ∀ row ∈ s.segments, Expected env s row.chainKey
  claims :
    ∀ upload ∈ s.uploads,
      ∀ claim ∈ claimOf upload.stage,
        RowSound env claim ∧
          Expected env s claim.chainKey
  unnamed :
    ∀ upload ∈ s.uploads,
      ∀ claim, upload.stage = .claiming claim →
        claim.fileName = none

variable {env : StreamEnvironment}
variable {s s' : State}
variable {action : Action}

/- An archived file of the queue has a durable segment. -/
theorem durable_of_archived
    (hKey : file.keyIn env = some key)
    (hArchived :
      Archived env.segSizeOf s.segments file) :
    Durable s.segments key := by
  rcases hArchived with ⟨row, hRow, hRowKey, hName⟩
  refine ⟨row, hRow, hName, ?_⟩
  have hSame : some row.chainKey = some key := by
    rw [← hRowKey]
    exact hKey
  exact Option.some.inj hSame

/- What is expected stays expected. -/
theorem expected_of_step
    (hSound : QueueSound env s)
    (hStep : step env.segSizeOf s action = some s')
    (hExpected : Expected env s key) :
    Expected env s' key := by
  rcases hExpected with hDurable | ⟨file, hFile, hWaits, hKey⟩
  · exact Or.inl (durable_of_step hStep hDurable)
  · by_cases hStays : file ∈ s'.files
    · exact Or.inr ⟨file, hStays, hWaits, hKey⟩
    · left
      have hRemoves :=
        removesOnlyArchived_of_invariant action
          hSound.uploads
      exact
        durable_of_archived hKey
          (hRemoves s' hStep file hFile hStays)

/- The row of a committed claim has the claim's key. -/
theorem committedClaim_some
    (hClaim : claim ∈ committedClaim s action) :
    ∃ upload ∈ s.uploads,
      claim ∈ claimOf upload.stage ∧
        claim ∈ heldClaim upload.stage := by
  unfold committedClaim at hClaim
  split at hClaim
  · split at hClaim
    · next hFound =>
        split at hClaim
        · cases hClaim
          exact ⟨_, List.mem_of_find?_eq_some hFound, rfl, rfl⟩
        · cases hClaim
    · cases hClaim
  · cases hClaim

/- A file that an upload begins with waits in the queue. -/
theorem isWaiting_of_begins
    (hListed : isListedBy env action = true)
    (hBegun : file ∈ begunFile action)
    (hBegins : BeginsWith env.segSizeOf s file stage) :
    IsWaiting env file := by
  rcases hBegins with
    ⟨_, deps, id, claim, hClaim, _⟩
  rcases newClaim_some hClaim with ⟨_, _, hSize, _⟩
  have hSome : (queuedSegmentOf env file).isSome := by
    unfold begunFile at hBegun
    split at hBegun
    · cases hBegun
      exact hListed
    · cases hBegun
      exact hListed
    · cases hBegun
  rcases Option.isSome_iff_exists.mp hSome with
    ⟨queued, hQueued⟩
  unfold IsWaiting
  rw [hQueued, Option.any_some,
    (queuedSegmentOf_some hQueued).2.2, hSize]
  exact decide_eq_true rfl

theorem queueSound_step
    (hSound : QueueSound env s)
    (hListed : isListedBy env action = true)
    (hStreaming : keepsStreaming action = true)
    (hSpares : KeepsHeldClaims s action)
    (hStep : step env.segSizeOf s action = some s') :
    QueueSound env s' := by
  have hRow :
      ∀ row ∈ s'.segments,
        RowSound env row ∧
          Expected env s row.chainKey := by
    intro row hMember
    rcases rows_of_step hStep row hMember with
      hOld | ⟨upload, hUpload, hStage⟩ |
        ⟨claim, _, old, hOld, _, hKey, hEnd⟩
    · exact ⟨hSound.rows row hOld, hSound.rowsExpected row hOld⟩
    · apply hSound.claims upload hUpload
      rw [hStage]
      rfl
    · have hBounds := hSound.rows old hOld
      rw [hKey]
      refine ⟨?_, hSound.rowsExpected old hOld⟩
      have hDatabase := congrArg ChainKey.databaseID hKey
      have hStart := congrArg ChainKey.startLSN hKey
      simp only [WalSegment.chainKey] at hDatabase hStart
      unfold RowSound
      rw [hDatabase, hStart, hEnd]
      exact hBounds
  refine
    { uploads :=
        uploadInvariant_step action hSound.uploads hStreaming
          hSpares hStep
      rows := fun row hMember => (hRow row hMember).1
      rowsExpected := fun row hMember =>
        expected_of_step hSound hStep (hRow row hMember).2
      claims := ?_
      unnamed := ?_ }
  · intro other hOther claim hClaim
    rcases uploads_of_step hStep other hOther with
      hOld | ⟨upload, hUpload, hFollows⟩ |
        ⟨file, hBegun, hBegins⟩
    · rcases hSound.claims other hOld claim hClaim with
        ⟨hBounds, hExpected⟩
      exact ⟨hBounds, expected_of_step hSound hStep hExpected⟩
    · rcases hFollows.2 claim hClaim with hOwn | hRowClaim
      · rcases hSound.claims upload hUpload claim hOwn with
          ⟨hBounds, hExpected⟩
        exact ⟨hBounds, expected_of_step hSound hStep hExpected⟩
      · exact
          ⟨hSound.rows claim hRowClaim,
            expected_of_step hSound hStep
              (hSound.rowsExpected claim hRowClaim)⟩
    · have hWaits :=
        isWaiting_of_begins hListed hBegun hBegins
      rcases hBegins with
        ⟨hFile, deps, id, begun, hNew, hStage⟩
      rw [hStage] at hClaim
      cases hClaim
      rcases newClaim_some hNew with ⟨hBounds, _, _, hKey⟩
      refine ⟨hBounds, ?_⟩
      apply expected_of_step hSound hStep
      exact Or.inr ⟨file, hFile, hWaits, hKey⟩
  · intro other hOther claim hStage
    rcases uploads_of_step hStep other hOther with
      hOld | ⟨upload, hUpload, hFollows⟩ |
        ⟨file, hBegun, hBegins⟩
    · exact hSound.unnamed other hOld claim hStage
    · exact absurd hStage (hFollows.1 claim)
    · rcases hBegins with
        ⟨_, deps, id, begun, hNew, hBegunStage⟩
      rw [hBegunStage] at hStage
      cases hStage
      exact (newClaim_some hNew).2.1

/- What becomes durable was expected or is committed now. -/
theorem durable_before
    (hSound : QueueSound env s)
    (hStep : step env.segSizeOf s action = some s')
    (hDurable : Durable s'.segments key) :
    Durable s.segments key ∨
      Expected env s key ∧
        ∃ claim ∈ committedClaim s action,
          claim.chainKey = key := by
  rcases hDurable with ⟨row, hRow, hName, hKey⟩
  rcases rows_of_step hStep row hRow with
    hOld | ⟨upload, hUpload, hStage⟩ |
      ⟨claim, hClaim, old, hOld, hID, hRowKey, _⟩
  · exact Or.inl ⟨row, hOld, hName, hKey⟩
  · have hNone := hSound.unnamed upload hUpload row hStage
    rw [hNone] at hName
    cases hName
  · right
    have hExpected := hSound.rowsExpected old hOld
    rw [← hRowKey, hKey] at hExpected
    refine ⟨hExpected, claim, hClaim, ?_⟩
    rcases committedClaim_some hClaim with
      ⟨upload, hUpload, _, hHeld⟩
    rcases
        (hSound.uploads.uploads upload hUpload).held claim
          hHeld with
      ⟨held, hHeldRow, hHeldID, hHeldKey⟩
    have hSame : held = old :=
      hSound.uploads.uniqueIDs.eq_of_key_eq hHeldRow hOld
        (hHeldID.trans hID.symm)
    rw [← hHeldKey, hSame, ← hRowKey, hKey]

/- Below a durable segment nothing is added or lost. -/
theorem keepsBelow_of_step
    (hSound : QueueSound env s)
    (hOrder :
      ∀ file, action = .fileArrives file →
        ArrivesInOrder env s.segments file)
    (hStep : step env.segSizeOf s action = some s') :
    KeepsBelow env s s' := by
  refine
    { durable := fun key => durable_of_step hStep
      below := ?_ }
  intro key hKeyDurable lower
  constructor
  · rintro ⟨hExpected, hTimeline, hLower⟩
    refine ⟨?_, hTimeline, hLower⟩
    rcases hExpected with
      hDurable | ⟨file, hFile, hWaits, hKey⟩
    · rcases durable_before hSound hStep hDurable with
        hOld | hNew
      · exact Or.inl hOld
      · exact hNew.1
    · rcases files_of_step hStep file hFile with
        hOld | hArrives
      · exact Or.inr ⟨file, hOld, hWaits, hKey⟩
      · exfalso
        rcases hKeyDurable with ⟨row, hRow, hName, rfl⟩
        have hAbove :=
          hOrder file hArrives lower hKey row hRow hName
            ⟨hTimeline.1.symm, hTimeline.2.symm⟩
        exact Nat.not_lt_of_le hAbove hLower
  · rintro ⟨hExpected, hTimeline, hLower⟩
    exact
      ⟨expected_of_step hSound hStep hExpected, hTimeline,
        hLower⟩

end WalStreaming

end Databasus
