import Databasus.WalStreaming.EncodedSegments

/-
  Committed rows and the objects under their names.

  An object is encoded with the settings of its upload, and
  its row says what the claim was made with.  What uploads and
  rows say of the objects is an invariant, and a restore
  decodes the objects of such rows to their segments.

  Main declarations:
    * `DescribesObject`, `DescribesObjects`
    * `UploadEncodes`, `RowEncodes`
    * `EncodedInvariant`, `describesObjects_of_invariant`
    * `EncodedInvariant.goesOn`, `EncodedInvariant.commit`
    * `EncodedInvariant.changesObjects`
-/

------------------------------------------------------------
-- Rows that Describe their Objects
------------------------------------------------------------

namespace Databasus

namespace WalStreaming

open Catalog
open Restorestream (writeWalSegment)

/-
  The row says how the object under its name was encoded, and
  a restore reads the segment's bytes from it.
-/
structure DescribesObject
    (env : EncodingEnvironment)
    (stored : List StoredObject)
    (row : WalSegment)
    (fileName : String) : Prop where
  encoded :
    ∃ openFile object salt iv,
      storageReaders stored row.storageID = some openFile ∧
        openFile fileName = some object ∧
        IsArtifact env.codec row.encryption row.id
          (env.segmentBytes row.chainKey) object salt iv ∧
        row.encryptionSalt = nilIfEmpty salt ∧
        row.encryptionIV = nilIfEmpty iv
  decodes :
    ∀ gunzip unzstd,
      ∃ body,
        writeWalSegment env.codec.primitives gunzip unzstd
            (storageReaders stored) env.codec.masterKey row =
          .ok
            { name := "wal/" ++ row.walFilename ++ ".zst"
              body := body } ∧
          env.codec.decompress body =
            some (env.segmentBytes row.chainKey)

/- Every committed row does. -/
def DescribesObjects
    (env : EncodingEnvironment)
    (s : EncodingState) : Prop :=
  ∀ row ∈ s.base.segments,
    ∀ fileName, row.fileName = some fileName →
      DescribesObject env s.stored row fileName

------------------------------------------------------------
-- The Invariant
------------------------------------------------------------

open Foundation

variable {stage : Stage}
variable {attempt : Attempt}

/- The claim that an upload encodes or is about to encode. -/
def encodedClaim : Stage → Option WalSegment
  | .claiming claim => some claim
  | .probing claim => some claim
  | stage => heldClaim stage

/- The attempt that an upload publishes or discards. -/
def attemptOf : Stage → Option Attempt
  | .writing _ attempt => some attempt
  | .waiting _ attempt => some attempt
  | .writingSidecar _ attempt => some attempt
  | .committing _ attempt => some attempt
  | .discarding _ attempt => some attempt
  | .discardingUnpublished attempt => some attempt
  | _ => none

/- The attempt that is to be published, with its claim. -/
def publishes : Stage → Option (WalSegment × Attempt)
  | .writing claim attempt => some (claim, attempt)
  | .waiting claim attempt => some (claim, attempt)
  | .writingSidecar claim attempt => some (claim, attempt)
  | .committing claim attempt => some (claim, attempt)
  | _ => none

/- The attempt whose object is stored by now. -/
def writtenAttempt : Stage → Option Attempt
  | .waiting _ attempt => some attempt
  | .writingSidecar _ attempt => some attempt
  | .committing _ attempt => some attempt
  | _ => none

/- The attempt whose object nobody has written yet. -/
def unwrittenAttempt : Stage → Option Attempt
  | .writing _ attempt => some attempt
  | _ => none

theorem mem_attemptOf_of_unwritten
    (hUnwritten : attempt ∈ unwrittenAttempt stage) :
    attempt ∈ attemptOf stage := by
  unfold unwrittenAttempt at hUnwritten
  split at hUnwritten
  · exact hUnwritten
  · cases hUnwritten

theorem mem_attemptOf_of_written
    (hWritten : attempt ∈ writtenAttempt stage) :
    attempt ∈ attemptOf stage := by
  unfold writtenAttempt at hWritten
  split at hWritten
  · exact hWritten
  · exact hWritten
  · exact hWritten
  · cases hWritten

/- The claim was made for the file, under the same settings. -/
structure IsClaimFor
    (env : EncodingEnvironment)
    (s : EncodingState)
    (upload : Upload)
    (claim : WalSegment) : Prop where
  made : claim ∈ s.claims
  key :
    upload.file.chainKey
        (env.segSizeOf upload.file.databaseID) =
      some claim.chainKey
  encryption : claim.encryption = upload.deps.encryption
  storageID : claim.storageID = upload.deps.storageID

/- An artifact under the name, encoded as it is told. -/
def IsBuiltAs
    (env : EncodingEnvironment)
    (s : EncodingState)
    (encryption : BackupEncryption)
    (keyID : Uuid)
    (key : ChainKey)
    (fileName salt iv : String) : Prop :=
  ∃ artifact ∈ s.built,
    artifact.fileName = fileName ∧
      IsArtifact env.codec encryption keyID
        (env.segmentBytes key) artifact.bytes salt iv

/- The storage has the whole artifact of the name. -/
structure IsStored
    (s : EncodingState)
    (storageID : Uuid)
    (fileName : String) : Prop where
  there :
    ∃ object ∈ s.stored,
      object.storageID = storageID ∧
        object.fileName = fileName
  whole :
    ∀ object ∈ s.stored,
      object.fileName = fileName →
        ∃ artifact ∈ s.built,
          artifact.fileName = fileName ∧
            artifact.bytes = object.bytes

structure UploadEncodes
    (env : EncodingEnvironment)
    (s : EncodingState)
    (upload : Upload) : Prop where
  claim :
    ∀ claim ∈ encodedClaim upload.stage,
      IsClaimFor env s upload claim
  named :
    ∀ attempt ∈ attemptOf upload.stage,
      ∃ artifact ∈ s.built,
        artifact.fileName = attempt.objectName
  built :
    ∀ claim attempt,
      publishes upload.stage = some (claim, attempt) →
        IsBuiltAs env s claim.encryption claim.id
          claim.chainKey attempt.objectName attempt.salt
          attempt.iv
  unwritten :
    ∀ attempt ∈ unwrittenAttempt upload.stage,
      ∀ object ∈ s.stored,
        object.fileName ≠ attempt.objectName
  stored :
    ∀ attempt ∈ writtenAttempt upload.stage,
      IsStored s upload.deps.storageID attempt.objectName

structure RowEncodes
    (env : EncodingEnvironment)
    (s : EncodingState)
    (row : WalSegment) : Prop where
  claimed : row.fileName = none → row ∈ s.claims
  stored :
    ∀ fileName, row.fileName = some fileName →
      IsStored s row.storageID fileName
  built :
    ∀ fileName, row.fileName = some fileName →
      ∃ salt iv,
        IsBuiltAs env s row.encryption row.id row.chainKey
            fileName salt iv ∧
          row.encryptionSalt = nilIfEmpty salt ∧
          row.encryptionIV = nilIfEmpty iv

/-
  Attempts have names of their own, so that nobody writes or
  deletes an object which a row names.
-/
structure EncodedInvariant
    (env : EncodingEnvironment)
    (s : EncodingState) : Prop where
  uniqueRuns : Table.UniqueBy Upload.runID s.base.uploads
  claimIDs :
    ∀ claim ∈ s.claims, ∀ other ∈ s.claims,
      claim.id = other.id → claim = other
  unnamed : ∀ claim ∈ s.claims, claim.fileName = none
  storages :
    ∀ claim ∈ s.claims,
      claim.storageID = env.storageOf claim.databaseID
  names :
    ∀ artifact ∈ s.built, ∀ other ∈ s.built,
      artifact.fileName = other.fileName → artifact = other
  objects :
    ∀ object ∈ s.stored,
      ∃ artifact ∈ s.built,
        artifact.fileName = object.fileName
  rows : ∀ row ∈ s.base.segments, RowEncodes env s row
  uploads :
    ∀ upload ∈ s.base.uploads, UploadEncodes env s upload
  apart :
    ∀ upload ∈ s.base.uploads, ∀ other ∈ s.base.uploads,
      upload.runID ≠ other.runID →
        ∀ attempt ∈ attemptOf upload.stage,
          ∀ second ∈ attemptOf other.stage,
            attempt.objectName ≠ second.objectName
  unpublished :
    ∀ row ∈ s.base.segments,
      ∀ upload ∈ s.base.uploads,
        ∀ attempt ∈ attemptOf upload.stage,
          row.fileName ≠ some attempt.objectName

------------------------------------------------------------
-- Rows of the Invariant Restore their Segments
------------------------------------------------------------

open Restorestream (writeWalSegment_of_artifact)

variable {env : EncodingEnvironment}
variable {s : EncodingState}

/- The object that a storage finds has the built bytes. -/
theorem EncodedInvariant.storageReaders_eq
    (hHolds : EncodedInvariant env s)
    {storageID : Uuid}
    {artifact : BuiltArtifact}
    (hBuilt : artifact ∈ s.built)
    (hStored : IsStored s storageID artifact.fileName) :
    ∃ openFile,
      storageReaders s.stored storageID = some openFile ∧
        openFile artifact.fileName = some artifact.bytes := by
  refine ⟨_, rfl, ?_⟩
  rcases hStored.there with ⟨object, hObject, hStorage, hName⟩
  cases hFound :
    s.stored.find? fun object =>
      object.storageID = storageID &&
        object.fileName = artifact.fileName with
  | none =>
      have hNone := List.find?_eq_none.mp hFound object hObject
      simp [hStorage, hName] at hNone
  | some found =>
      have hMember := List.mem_of_find?_eq_some hFound
      have hMatches := List.find?_some hFound
      simp only [Bool.and_eq_true,
        decide_eq_true_eq] at hMatches
      rcases hStored.whole found hMember hMatches.2 with
        ⟨other, hOther, hOtherName, hOtherBytes⟩
      have hSame : other = artifact :=
        hHolds.names other hOther artifact hBuilt hOtherName
      rw [Option.map_some, ← hOtherBytes, hSame]

theorem describesObjects_of_invariant
    (hSound : env.codec.Sound)
    (hHolds : EncodedInvariant env s) :
    DescribesObjects env s := by
  intro row hRow fileName hFileName
  have hEncodes := hHolds.rows row hRow
  rcases hEncodes.built fileName hFileName with
    ⟨salt, iv, ⟨artifact, hBuilt, hName, hArtifact⟩, hSalt,
      hIV⟩
  subst hName
  rcases
      hHolds.storageReaders_eq hBuilt
        (hEncodes.stored _ hFileName) with
    ⟨openFile, hOpens, hObject⟩
  refine ⟨?_, ?_⟩
  · exact
      ⟨openFile, artifact.bytes, salt, iv, hOpens, hObject,
        hArtifact, hSalt, hIV⟩
  · intro gunzip unzstd
    refine ⟨_, ?_, hSound.decompresses _⟩
    exact
      writeWalSegment_of_artifact hSound hArtifact hFileName
        hSalt hIV hOpens hObject

------------------------------------------------------------
-- What Grows Keeps Encodings
------------------------------------------------------------

variable {s' : EncodingState}
variable {upload : Upload}

/- More claims and artifacts, and the same objects. -/
structure Grows
    (s s' : EncodingState) : Prop where
  claims : ∀ claim ∈ s.claims, claim ∈ s'.claims
  built : ∀ artifact ∈ s.built, artifact ∈ s'.built
  stored : s'.stored = s.stored

theorem IsBuiltAs.grows
    {encryption : BackupEncryption}
    {keyID : Uuid}
    {key : ChainKey}
    {fileName salt iv : String}
    (hBuilt :
      IsBuiltAs env s encryption keyID key fileName salt iv)
    (hGrows : Grows s s') :
    IsBuiltAs env s' encryption keyID key fileName salt
      iv := by
  rcases hBuilt with ⟨artifact, hArtifact, hEncoded⟩
  exact ⟨artifact, hGrows.built artifact hArtifact, hEncoded⟩

theorem IsStored.grows
    {storageID : Uuid}
    {fileName : String}
    (hStored : IsStored s storageID fileName)
    (hGrows : Grows s s') :
    IsStored s' storageID fileName := by
  refine ⟨?_, ?_⟩
  · rw [hGrows.stored]
    exact hStored.there
  · intro object hObject hName
    rw [hGrows.stored] at hObject
    rcases hStored.whole object hObject hName with
      ⟨artifact, hArtifact, hSame⟩
    exact ⟨artifact, hGrows.built artifact hArtifact, hSame⟩

theorem RowEncodes.grows
    {row : WalSegment}
    (hRow : RowEncodes env s row)
    (hGrows : Grows s s') :
    RowEncodes env s' row := by
  refine ⟨?_, ?_, ?_⟩
  · intro hNone
    exact hGrows.claims row (hRow.claimed hNone)
  · intro fileName hFileName
    exact (hRow.stored fileName hFileName).grows hGrows
  · intro fileName hFileName
    rcases hRow.built fileName hFileName with
      ⟨salt, iv, hBuilt, hTexts⟩
    exact ⟨salt, iv, hBuilt.grows hGrows, hTexts⟩

theorem IsClaimFor.grows
    {claim : WalSegment}
    (hFor : IsClaimFor env s upload claim)
    (hGrows : Grows s s') :
    IsClaimFor env s' upload claim :=
  ⟨hGrows.claims claim hFor.made, hFor.key, hFor.encryption,
    hFor.storageID⟩

theorem UploadEncodes.grows
    (hUpload : UploadEncodes env s upload)
    (hGrows : Grows s s') :
    UploadEncodes env s' upload := by
  refine ⟨?_, ?_, ?_, ?_, ?_⟩
  · intro claim hClaim
    exact (hUpload.claim claim hClaim).grows hGrows
  · intro attempt hAttempt
    rcases hUpload.named attempt hAttempt with
      ⟨artifact, hArtifact, hName⟩
    exact ⟨artifact, hGrows.built artifact hArtifact, hName⟩
  · intro claim attempt hPublishes
    exact (hUpload.built claim attempt hPublishes).grows hGrows
  · rw [hGrows.stored]
    exact hUpload.unwritten
  · intro attempt hAttempt
    exact (hUpload.stored attempt hAttempt).grows hGrows

------------------------------------------------------------
-- Uploads that Go on and End
------------------------------------------------------------

variable {base : State}

/- The upload itself, or another with an id of its own. -/
theorem setStage_cases
    {other : Upload}
    (hOther : other ∈ (base.setStage upload stage).uploads) :
    other = { upload with stage := stage } ∨
      other ∈ base.uploads ∧ other.runID ≠ upload.runID := by
  rcases (Table.mem_updateWhere_iff _ _ _ _).mp hOther with
    ⟨old, hOld, hChange⟩
  split at hChange
  · exact Or.inl hChange.symm
  · next hRun =>
      rw [← hChange]
      refine Or.inr ⟨hOld, ?_⟩
      simpa using hRun

theorem mem_uploads_setStage
    (hUpload : upload ∈ base.uploads) :
    { upload with stage := stage } ∈
      (base.setStage upload stage).uploads :=
  Table.mem_updateWhere_of_selects hUpload
    (decide_eq_true rfl)

/- Of two stages in a row the second remains. -/
theorem setStage_setStage
    (base : State)
    (upload : Upload)
    (first second : Stage) :
    (base.setStage upload first).setStage
        { upload with stage := first } second =
      base.setStage upload second := by
  unfold State.setStage Table.updateWhere
  simp only [List.map_map, State.mk.injEq, true_and,
    and_true]
  apply List.map_congr_left
  intro other _
  simp only [Function.comp_apply, decide_eq_true_eq]
  split
  · simp only [if_true]
  · rfl

theorem uniqueRuns_setStage
    (hUnique : Table.UniqueBy Upload.runID base.uploads) :
    Table.UniqueBy Upload.runID
      (base.setStage upload stage).uploads := by
  apply hUnique.updateSelected
  intro old hRun
  exact (of_decide_eq_true hRun).symm

/-
  The attempt of a new stage is that of the old one, or has a
  name that nobody uses.
-/
theorem EncodedInvariant.setStage
    (hHolds : EncodedInvariant env s)
    (hEncodes :
      UploadEncodes env s { upload with stage := stage })
    (hOthers :
      ∀ attempt ∈ attemptOf stage,
        ∀ other ∈ s.base.uploads,
          other.runID ≠ upload.runID →
            ∀ second ∈ attemptOf other.stage,
              attempt.objectName ≠ second.objectName)
    (hRows :
      ∀ attempt ∈ attemptOf stage,
        ∀ row ∈ s.base.segments,
          row.fileName ≠ some attempt.objectName) :
    EncodedInvariant env
      { s with base := s.base.setStage upload stage } where
  uniqueRuns := uniqueRuns_setStage hHolds.uniqueRuns
  claimIDs := hHolds.claimIDs
  unnamed := hHolds.unnamed
  storages := hHolds.storages
  names := hHolds.names
  objects := hHolds.objects
  rows := by
    intro row hRow
    exact
      (hHolds.rows row hRow).grows
        ⟨fun _ => id, fun _ => id, rfl⟩
  uploads := by
    have hSame :
        Grows s
          { s with base := s.base.setStage upload stage } :=
      ⟨fun _ => id, fun _ => id, rfl⟩
    intro other hOther
    rcases setStage_cases hOther with rfl | ⟨hOld, _⟩
    · exact hEncodes.grows hSame
    · exact (hHolds.uploads other hOld).grows hSame
  apart := by
    intro first hFirst second hSecond hRuns attempt hAttempt
      other hOther
    rcases setStage_cases hFirst with
      rfl | ⟨hFirstOld, hFirstRun⟩
    · rcases setStage_cases hSecond with
        rfl | ⟨hSecondOld, hSecondRun⟩
      · exact absurd rfl hRuns
      · exact
          hOthers attempt hAttempt second hSecondOld
            hSecondRun other hOther
    · rcases setStage_cases hSecond with
        rfl | ⟨hSecondOld, _⟩
      · exact
          (hOthers other hOther first hFirstOld hFirstRun
            attempt hAttempt).symm
      · exact
          hHolds.apart first hFirstOld second hSecondOld hRuns
            attempt hAttempt other hOther
  unpublished := by
    intro row hRow other hOther attempt hAttempt
    rcases setStage_cases hOther with rfl | ⟨hOld, _⟩
    · exact hRows attempt hAttempt row hRow
    · exact
        hHolds.unpublished row hRow other hOld attempt
          hAttempt

/- A stage of the same attempt, or without any. -/
theorem EncodedInvariant.withStage
    (stage : Stage)
    (hHolds : EncodedInvariant env s)
    (hUpload : upload ∈ s.base.uploads)
    (hEncodes :
      UploadEncodes env s { upload with stage := stage })
    (hNames :
      ∀ attempt ∈ attemptOf stage,
        ∃ old ∈ attemptOf upload.stage,
          attempt.objectName = old.objectName) :
    EncodedInvariant env
      { s with base := s.base.setStage upload stage } := by
  apply hHolds.setStage hEncodes
  · intro attempt hAttempt other hOther hRun second hSecond
    rcases hNames attempt hAttempt with ⟨old, hOld, hName⟩
    rw [hName]
    exact
      hHolds.apart upload hUpload other hOther hRun.symm old
        hOld second hSecond
  · intro attempt hAttempt row hRow
    rcases hNames attempt hAttempt with ⟨old, hOld, hName⟩
    rw [hName]
    exact hHolds.unpublished row hRow upload hUpload old hOld

/- The next stage asks for nothing that this one does not. -/
structure Follows
    (stage next : Stage) : Prop where
  claim :
    ∀ claim ∈ encodedClaim next, claim ∈ encodedClaim stage
  named :
    ∀ attempt ∈ attemptOf next,
      ∃ old ∈ attemptOf stage,
        attempt.objectName = old.objectName
  published :
    ∀ claim attempt,
      publishes next = some (claim, attempt) →
        ∃ old,
          publishes stage = some (claim, old) ∧
            attempt.objectName = old.objectName ∧
              attempt.salt = old.salt ∧ attempt.iv = old.iv
  unwritten : unwrittenAttempt next = none
  written :
    ∀ attempt ∈ writtenAttempt next,
      ∃ old ∈ writtenAttempt stage,
        attempt.objectName = old.objectName

theorem UploadEncodes.follows
    (hEncodes : UploadEncodes env s upload)
    (hFollows : Follows upload.stage stage) :
    UploadEncodes env s { upload with stage := stage } := by
  refine ⟨?_, ?_, ?_, ?_, ?_⟩
  · intro claim hClaim
    have hFor :=
      hEncodes.claim claim (hFollows.claim claim hClaim)
    exact ⟨hFor.made, hFor.key, hFor.encryption, hFor.storageID⟩
  · intro attempt hAttempt
    rcases hFollows.named attempt hAttempt with
      ⟨old, hOld, hName⟩
    rw [hName]
    exact hEncodes.named old hOld
  · intro claim attempt hPublishes
    rcases hFollows.published claim attempt hPublishes with
      ⟨old, hOld, hName, hSalt, hIV⟩
    rw [hName, hSalt, hIV]
    exact hEncodes.built claim old hOld
  · intro attempt hAttempt
    rw [hFollows.unwritten] at hAttempt
    cases hAttempt
  · intro attempt hAttempt
    rcases hFollows.written attempt hAttempt with
      ⟨old, hOld, hName⟩
    rw [hName]
    exact hEncodes.stored old hOld

theorem EncodedInvariant.goesOn
    (hHolds : EncodedInvariant env s)
    (hUpload : upload ∈ s.base.uploads)
    (hFollows : Follows upload.stage stage) :
    EncodedInvariant env
      { s with base := s.base.setStage upload stage } :=
  hHolds.withStage stage hUpload
    ((hHolds.uploads upload hUpload).follows hFollows)
    hFollows.named

theorem EncodedInvariant.finish
    (hHolds : EncodedInvariant env s)
    (upload : Upload) :
    EncodedInvariant env
      { s with base := s.base.finish upload } := by
  have hOld :
      ∀ other ∈ (s.base.finish upload).uploads,
        other ∈ s.base.uploads := by
    intro other hOther
    exact ((Table.mem_deleteWhere_iff _ _ _).mp hOther).1
  have hSame :
      Grows s { s with base := s.base.finish upload } :=
    ⟨fun _ => id, fun _ => id, rfl⟩
  refine ⟨hHolds.uniqueRuns.deleteWhere _, hHolds.claimIDs,
    hHolds.unnamed, hHolds.storages, hHolds.names,
    hHolds.objects, ?_, ?_, ?_, ?_⟩
  · intro row hRow
    exact (hHolds.rows row hRow).grows hSame
  · intro other hOther
    exact (hHolds.uploads other (hOld other hOther)).grows hSame
  · intro first hFirst second hSecond
    exact
      hHolds.apart first (hOld first hFirst) second
        (hOld second hSecond)
  · intro row hRow other hOther
    exact hHolds.unpublished row hRow other (hOld other hOther)

------------------------------------------------------------
-- Changes of the Rows
------------------------------------------------------------

variable {claim : WalSegment}
variable {attempt : Attempt}

/- The clock and the local files do not matter. -/
theorem EncodedInvariant.withBase
    (hHolds : EncodedInvariant env s)
    (hSegments : base.segments = s.base.segments)
    (hUploads : base.uploads = s.base.uploads) :
    EncodedInvariant env { s with base := base } := by
  have hSame : Grows s { s with base := base } :=
    ⟨fun _ => id, fun _ => id, rfl⟩
  refine ⟨?_, hHolds.claimIDs, hHolds.unnamed,
    hHolds.storages, hHolds.names, hHolds.objects, ?_, ?_,
    ?_, ?_⟩
  · rw [hUploads]
    exact hHolds.uniqueRuns
  · rw [hSegments]
    intro row hRow
    exact (hHolds.rows row hRow).grows hSame
  · rw [hUploads]
    intro upload hUpload
    exact (hHolds.uploads upload hUpload).grows hSame
  · rw [hUploads]
    exact hHolds.apart
  · rw [hSegments, hUploads]
    exact hHolds.unpublished

theorem RowEncodes.of_claim
    (hClaim : claim ∈ s.claims)
    (hUnnamed : claim.fileName = none) :
    RowEncodes env s claim := by
  refine ⟨fun _ => hClaim, ?_, ?_⟩
  · intro fileName hFileName
    rw [hUnnamed] at hFileName
    cases hFileName
  · intro fileName hFileName
    rw [hUnnamed] at hFileName
    cases hFileName

/- Rows that are sound and that nobody is to publish. -/
theorem EncodedInvariant.withSegments
    {segments : List WalSegment}
    (hHolds : EncodedInvariant env s)
    (hRows :
      ∀ row ∈ segments,
        row ∈ s.base.segments ∨
          RowEncodes env s row ∧
            ∀ upload ∈ s.base.uploads,
              ∀ attempt ∈ attemptOf upload.stage,
                row.fileName ≠ some attempt.objectName) :
    EncodedInvariant env
      { s with
        base := { s.base with segments := segments } } := by
  have hSame :
      Grows s
        { s with
          base := { s.base with segments := segments } } :=
    ⟨fun _ => id, fun _ => id, rfl⟩
  refine ⟨hHolds.uniqueRuns, hHolds.claimIDs,
    hHolds.unnamed, hHolds.storages, hHolds.names,
    hHolds.objects, ?_, ?_, hHolds.apart, ?_⟩
  · intro row hRow
    rcases hRows row hRow with hOld | ⟨hEncodes, _⟩
    · exact (hHolds.rows row hOld).grows hSame
    · exact hEncodes.grows hSame
  · intro upload hUpload
    exact (hHolds.uploads upload hUpload).grows hSame
  · intro row hRow
    rcases hRows row hRow with hOld | ⟨_, hUnpublished⟩
    · exact hHolds.unpublished row hOld
    · exact hUnpublished

theorem EncodedInvariant.deleteSegments
    (hHolds : EncodedInvariant env s)
    (selects : WalSegment → Bool) :
    EncodedInvariant env
      { s with
        base :=
          { s.base with
            segments :=
              Table.deleteWhere selects
                s.base.segments } } := by
  apply hHolds.withSegments
  intro row hRow
  exact Or.inl ((Table.mem_deleteWhere_iff _ _ _).mp hRow).1

theorem EncodedInvariant.insertClaim
    (hHolds : EncodedInvariant env s)
    (hClaim : claim ∈ s.claims) :
    EncodedInvariant env
      { s with
        base :=
          { s.base with
            segments := s.base.segments ++ [claim] } } := by
  apply hHolds.withSegments
  intro row hRow
  rcases List.mem_append.mp hRow with hOld | hNew
  · exact Or.inl hOld
  · rw [List.mem_singleton] at hNew
    subst hNew
    have hUnnamed := hHolds.unnamed row hClaim
    refine Or.inr ⟨RowEncodes.of_claim hClaim hUnnamed, ?_⟩
    intro upload _ attempt _
    rw [hUnnamed]
    exact (Option.some_ne_none _).symm

/- What a commit writes into the row of its claim. -/
def publicationOf
    (claim : WalSegment)
    (attempt : Attempt) : WalSegmentUpload :=
  { segmentID := claim.id
    fileName := attempt.objectName
    compressedSizeMb :=
      (attempt.compressedSizeBytes : Rat) / (1024 * 1024)
    encryptionSalt := nilIfEmpty attempt.salt
    encryptionIV := nilIfEmpty attempt.iv }

theorem commitSegment_committed
    {segments segments' : List WalSegment}
    {answer : Answer}
    (hCommit :
      commitSegment segments claim attempt answer =
        .ok (segments', true)) :
    segments' =
      (markUploaded segments
        (publicationOf claim attempt)).1 := by
  unfold commitSegment at hCommit
  split at hCommit
  · simp only at hCommit
    split at hCommit
    · cases hCommit
      rfl
    · cases hCommit
  · cases hCommit
  · cases hCommit
  · cases hCommit

/-
  A row that is still a claim is the one made under its id,
  so the commit completes what the object was encoded for.
-/
theorem EncodedInvariant.commit
    (hHolds : EncodedInvariant env s)
    (hMade : claim ∈ s.claims)
    (hStored :
      IsStored s claim.storageID attempt.objectName)
    (hBuilt :
      IsBuiltAs env s claim.encryption claim.id
        claim.chainKey attempt.objectName attempt.salt
        attempt.iv)
    (hFree :
      ∀ upload ∈ s.base.uploads,
        ∀ second ∈ attemptOf upload.stage,
          attempt.objectName ≠ second.objectName) :
    EncodedInvariant env
      { s with
        base :=
          { s.base with
            segments :=
              (markUploaded s.base.segments
                (publicationOf claim attempt)).1 } } := by
  apply hHolds.withSegments
  intro row hRow
  rcases (Table.mem_updateWhere_iff _ _ _ _).mp hRow with
    ⟨old, hOld, hChange⟩
  split at hChange
  · next hSelected =>
      simp only [isClaimWithID, WalSegment.isClaim,
        Bool.and_eq_true, decide_eq_true_eq] at hSelected
      have hClaim : old = claim :=
        hHolds.claimIDs old
          ((hHolds.rows old hOld).claimed hSelected.2) claim
          hMade hSelected.1
      subst hClaim
      subst hChange
      refine Or.inr ⟨⟨?_, ?_, ?_⟩, ?_⟩
      · intro hNone
        cases hNone
      · intro fileName hFileName
        cases hFileName
        exact hStored
      · intro fileName hFileName
        cases hFileName
        exact ⟨attempt.salt, attempt.iv, hBuilt, rfl, rfl⟩
      · intro upload hUpload second hSecond hSame
        exact
          hFree upload hUpload second hSecond
            (Option.some.inj hSame)
  · rw [← hChange]
    exact Or.inl hOld

------------------------------------------------------------
-- Changes of the Storages
------------------------------------------------------------

variable {stored : List StoredObject}

/- Objects of other names stay as they are. -/
def ChangesOnly
    (fileName : String)
    (before after : List StoredObject) : Prop :=
  ∀ object,
    object.fileName ≠ fileName →
      (object ∈ after ↔ object ∈ before)

theorem IsStored.changes
    {storageID : Uuid}
    {fileName changed : String}
    (hStored : IsStored s storageID fileName)
    (hName : fileName ≠ changed)
    (hChanges : ChangesOnly changed s.stored stored) :
    IsStored { s with stored := stored } storageID
      fileName := by
  refine ⟨?_, ?_⟩
  · rcases hStored.there with
      ⟨object, hObject, hStorage, hSame⟩
    refine ⟨object, ?_, hStorage, hSame⟩
    apply (hChanges object _).mpr hObject
    rw [hSame]
    exact hName
  · intro object hObject hSame
    apply hStored.whole object _ hSame
    apply (hChanges object _).mp hObject
    rw [hSame]
    exact hName

/-
  The object of an attempt that is being discarded is neither
  a row's nor another attempt's.
-/
theorem EncodedInvariant.changesObjects
    (hHolds : EncodedInvariant env s)
    (hUpload : upload ∈ s.base.uploads)
    (hAttempt : attempt ∈ attemptOf upload.stage)
    (hUnwritten : unwrittenAttempt upload.stage = none)
    (hWritten : writtenAttempt upload.stage = none)
    (hNamed :
      ∀ object ∈ stored,
        ∃ artifact ∈ s.built,
          artifact.fileName = object.fileName)
    (hChanges :
      ChangesOnly attempt.objectName s.stored stored) :
    EncodedInvariant env { s with stored := stored } := by
  have hOthers :
      ∀ other ∈ s.base.uploads,
        ∀ second ∈ attemptOf other.stage,
          second ∈ writtenAttempt other.stage ∨
              second ∈ unwrittenAttempt other.stage →
            second.objectName ≠ attempt.objectName := by
    intro other hOther second hSecond hStage
    by_cases hRun : other.runID = upload.runID
    · have hSame : other = upload :=
        hHolds.uniqueRuns.eq_of_key_eq hOther hUpload hRun
      rw [hSame, hWritten, hUnwritten] at hStage
      rcases hStage with hNone | hNone
      · cases hNone
      · cases hNone
    · exact
        hHolds.apart other hOther upload hUpload hRun second
          hSecond attempt hAttempt
  refine ⟨hHolds.uniqueRuns, hHolds.claimIDs,
    hHolds.unnamed, hHolds.storages, hHolds.names, hNamed,
    ?_, ?_, hHolds.apart, hHolds.unpublished⟩
  · intro row hRow
    have hEncodes := hHolds.rows row hRow
    refine ⟨hEncodes.claimed, ?_, hEncodes.built⟩
    intro fileName hFileName
    apply
      (hEncodes.stored fileName hFileName).changes _ hChanges
    intro hSame
    apply
      hHolds.unpublished row hRow upload hUpload attempt
        hAttempt
    rw [hFileName, hSame]
  · intro other hOther
    have hEncodes := hHolds.uploads other hOther
    refine ⟨?_, hEncodes.named, hEncodes.built, ?_, ?_⟩
    · intro claim hClaim
      have hFor := hEncodes.claim claim hClaim
      exact
        ⟨hFor.made, hFor.key, hFor.encryption,
          hFor.storageID⟩
    · intro second hSecond object hObject hSame
      have hName :=
        hOthers other hOther second
          (mem_attemptOf_of_unwritten hSecond)
          (Or.inr hSecond)
      apply hEncodes.unwritten second hSecond object _ hSame
      apply (hChanges object _).mp hObject
      rw [hSame]
      exact hName
    · intro second hSecond
      apply (hEncodes.stored second hSecond).changes _ hChanges
      exact
        hOthers other hOther second
          (mem_attemptOf_of_written hSecond)
          (Or.inl hSecond)

/- The objects of an attempt are under its name. -/
theorem mem_sentObjects
    {sent : Bytes → Bytes}
    {object : StoredObject}
    (hObject : object ∈ sentObjects s upload attempt sent) :
    object.fileName = attempt.objectName ∧
      ∃ artifact ∈ s.built,
        artifact.fileName = attempt.objectName ∧
          object.bytes = sent artifact.bytes := by
  rcases List.mem_map.mp hObject with
    ⟨artifact, hArtifact, rfl⟩
  rcases List.mem_filter.mp hArtifact with ⟨hBuilt, hName⟩
  exact
    ⟨of_decide_eq_true hName, artifact, hBuilt,
      of_decide_eq_true hName, rfl⟩

theorem changesOnly_sentObjects
    (upload : Upload)
    (sent : Bytes → Bytes) :
    ChangesOnly attempt.objectName s.stored
      (sentObjects s upload attempt sent ++ s.stored) := by
  intro object hName
  refine ⟨?_, fun hOld => List.mem_append_right _ hOld⟩
  intro hObject
  rcases List.mem_append.mp hObject with hNew | hOld
  · exact absurd (mem_sentObjects hNew).1 hName
  · exact hOld

theorem changesOnly_withoutAttempt :
    ChangesOnly attempt.objectName s.stored
      (withoutAttempt s upload attempt) := by
  intro object hName
  unfold withoutAttempt
  rw [Table.mem_deleteWhere_iff]
  refine ⟨fun hKept => hKept.1, fun hOld => ⟨hOld, ?_⟩⟩
  simp [hName]

theorem EncodedInvariant.named_sentObjects
    (hHolds : EncodedInvariant env s)
    (sent : Bytes → Bytes) :
    ∀ object ∈
        sentObjects s upload attempt sent ++ s.stored,
      ∃ artifact ∈ s.built,
        artifact.fileName = object.fileName := by
  intro object hObject
  rcases List.mem_append.mp hObject with hNew | hOld
  · rcases mem_sentObjects hNew with
      ⟨hName, artifact, hArtifact, hSame, _⟩
    exact ⟨artifact, hArtifact, hSame.trans hName.symm⟩
  · exact hHolds.objects object hOld

theorem EncodedInvariant.named_withoutAttempt
    (upload : Upload)
    (attempt : Attempt)
    (hHolds : EncodedInvariant env s) :
    ∀ object ∈ withoutAttempt s upload attempt,
      ∃ artifact ∈ s.built,
        artifact.fileName = object.fileName := by
  intro object hObject
  exact
    hHolds.objects object
      ((Table.mem_deleteWhere_iff _ _ _).mp hObject).1

/- A first write that succeeds stores the whole artifact. -/
theorem isStored_sentObjects
    (hNamed :
      ∃ artifact ∈ s.built,
        artifact.fileName = attempt.objectName)
    (hUnwritten :
      ∀ object ∈ s.stored,
        object.fileName ≠ attempt.objectName) :
    IsStored
      { s with
        stored :=
          sentObjects s upload attempt id ++ s.stored }
      upload.deps.storageID attempt.objectName := by
  refine ⟨?_, ?_⟩
  · rcases hNamed with ⟨artifact, hArtifact, hName⟩
    refine
      ⟨_, List.mem_append_left _
        (List.mem_map.mpr
          ⟨artifact,
            List.mem_filter.mpr
              ⟨hArtifact, decide_eq_true hName⟩,
            rfl⟩), rfl, hName⟩
  · intro object hObject hName
    rcases List.mem_append.mp hObject with hNew | hOld
    · rcases mem_sentObjects hNew with
        ⟨_, artifact, hArtifact, hSame, hBytes⟩
      exact ⟨artifact, hArtifact, hSame, hBytes.symm⟩
    · exact absurd hName (hUnwritten object hOld)

end WalStreaming

end Databasus
