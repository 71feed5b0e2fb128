import Databasus.Foundation.Runs
import Databasus.Catalog.WalSegment

/-
  Uploads of WAL segments, call by call.

  An upload claims its segment with a row that names no file,
  writes the artifact and its sidecar, and names the file in
  the row.  Uploads of several processes interleave between
  any two calls, and with the reaping of old claims.

  Main declarations:
    * `segmentBounds`
    * `decideExistingWalClaim`
    * `Stage`
    * `commitSegment`
    * `advanceUpload`
    * `system`
-/

------------------------------------------------------------
-- Segments and Local Files
------------------------------------------------------------

namespace Databasus

namespace WalStreaming

open Catalog
open Walmath (LSN WalFilenameError parseWALFilename)

/- Timeline, first position and end of a segment file. -/
def segmentBounds
    (walFilename : String)
    (segSizeBytes : Nat) :
    Except WalFilenameError (Nat × LSN × LSN) :=
  match parseWALFilename walFilename segSizeBytes with
  | .error error => .error error
  | .ok (timelineID, segmentNo) =>
      let start := segmentNo * segSizeBytes % 2 ^ 64
      .ok
        (timelineID, start,
          (start + segSizeBytes) % 2 ^ 64)

/- A file in one of the directories of a database's stream. -/
structure LocalFile where
  databaseID : Uuid
  directory : String
  walFilename : String
  sizeBytes : Nat
deriving DecidableEq, Repr

/- Two files that stand under one path. -/
def LocalFile.SamePath
    (first second : LocalFile) : Prop :=
  first.databaseID = second.databaseID ∧
    first.directory = second.directory ∧
      first.walFilename = second.walFilename

instance instDecidableSamePath
    (first second : LocalFile) :
    Decidable (first.SamePath second) :=
  inferInstanceAs (Decidable (_ ∧ _ ∧ _))

/- The chain key of a segment file, if its name has one. -/
def LocalFile.chainKey
    (segSizeBytes : Nat)
    (file : LocalFile) : Option ChainKey :=
  match segmentBounds file.walFilename segSizeBytes with
  | .error _ => none
  | .ok (timelineID, startLSN, _) =>
      some
        { databaseID := file.databaseID
          timelineID := timelineID
          startLSN := startLSN }

/- What an uploader is configured with. -/
structure UploaderDeps where
  storageID : Uuid
  encryption : BackupEncryption
deriving DecidableEq, Repr

/- The claim of a complete segment file with a valid name. -/
def newClaim
    (segSizeBytes : Nat)
    (deps : UploaderDeps)
    (id : Uuid)
    (now : Time)
    (file : LocalFile) : Option WalSegment :=
  match segmentBounds file.walFilename segSizeBytes with
  | .error _ => none
  | .ok (timelineID, startLSN, endLSN) =>
      if file.sizeBytes ≠ segSizeBytes then
        none
      else
        some
          { id := id
            databaseID := file.databaseID
            storageID := deps.storageID
            timelineID := timelineID
            walFilename := file.walFilename
            startLSN := startLSN
            endLSN := endLSN
            encryption := deps.encryption
            receivedAt := now
            claimedAt := now }

/- A claim is made under the key of its file. -/
theorem chainKey_of_newClaim
    {segSizeBytes : Nat}
    {deps : UploaderDeps}
    {id : Uuid}
    {now : Time}
    {file : LocalFile}
    {claim : WalSegment}
    (hClaim :
      newClaim segSizeBytes deps id now file = some claim) :
    file.chainKey segSizeBytes = some claim.chainKey := by
  unfold newClaim at hClaim
  unfold LocalFile.chainKey
  split at hClaim
  · cases hClaim
  · split at hClaim
    · cases hClaim
    · rw [← Option.some.inj hClaim]
      rfl

------------------------------------------------------------
-- Claims that Exist Already
------------------------------------------------------------

inductive WalClaimAction
  | wait
  | removeLocal
  | recover
deriving DecidableEq, Repr

structure ExistingWalClaim where
  segment : Option WalSegment
  isRecovering : Bool
deriving DecidableEq

def decideExistingWalClaim
    (claim : ExistingWalClaim) : WalClaimAction :=
  match claim.segment with
  | none => .wait
  | some segment =>
      if segment.fileName.isSome then
        .removeLocal
      else if claim.isRecovering then
        .recover
      else
        .wait

------------------------------------------------------------
-- Uploads under Way
------------------------------------------------------------

/- One attempt to store a segment, under a name of its own. -/
structure Attempt where
  objectName : String
  encryption : BackupEncryption
  salt : String
  iv : String
  compressedSizeBytes : Nat
deriving DecidableEq, Repr

def walSegmentObjectName
    (databaseID : Uuid)
    (timelineID : Nat)
    (walFilename : String)
    (attemptID : Uuid) : String :=
  toString databaseID ++ "-WAL-tl" ++ toString timelineID ++
    "-" ++ walFilename ++ "-" ++ toString attemptID ++ ".zst"

/- The call that an upload makes next. -/
inductive Stage
  | claiming (claim : WalSegment)
  | probing (claim : WalSegment)
  | building (claim : WalSegment)
  | writing (claim : WalSegment) (attempt : Attempt)
  | waiting (claim : WalSegment) (attempt : Attempt)
  | writingSidecar (claim : WalSegment) (attempt : Attempt)
  | committing (claim : WalSegment) (attempt : Attempt)
  | discarding (claim : WalSegment) (attempt : Attempt)
  | releasing (claim : WalSegment)
  | discardingUnpublished (attempt : Attempt)
  | removing
deriving DecidableEq

/- A call of `ProcessSegment` or `RecoverSegment`. -/
structure Upload where
  runID : Uuid
  deps : UploaderDeps
  file : LocalFile
  isRecovering : Bool
  stage : Stage
deriving DecidableEq

/- How the call that an upload makes is answered. -/
inductive Answer
  | succeeded
  | failed
  | opened (attemptID : Uuid) (salt iv : String)
  | streamed (compressedSizeBytes : Nat)
  | stalePublication
  | databaseNotFound
deriving DecidableEq, Repr

/- An object that an attempt has written to its storage. -/
structure StoredArtifact where
  storageID : Uuid
  fileName : String
  keyID : Uuid
  encryption : BackupEncryption
  salt : String
  iv : String
deriving DecidableEq, Repr

structure State where
  segments : List WalSegment
  files : List LocalFile
  uploads : List Upload
  objects : List StoredArtifact
  now : Time
deriving DecidableEq

/- The upload goes on with another call. -/
def State.setStage
    (s : State)
    (upload : Upload)
    (stage : Stage) : State :=
  { s with
    uploads :=
      Foundation.Table.updateWhere
        (fun other => other.runID = upload.runID)
        (fun _ => { upload with stage := stage }) s.uploads }

/- The upload has returned. -/
def State.finish
    (s : State)
    (upload : Upload) : State :=
  { s with
    uploads :=
      Foundation.Table.deleteWhere
        (fun other => other.runID = upload.runID)
        s.uploads }

/- Remove whatever stands under the upload's path. -/
def State.removeLocal
    (s : State)
    (file : LocalFile) : State :=
  { s with
    files :=
      Foundation.Table.deleteWhere
        (fun other => other.SamePath file) s.files }

------------------------------------------------------------
-- The Transactions of an Upload
------------------------------------------------------------

inductive UploadError
  | claimLost
  | stalePublication
  | databaseNotFound
  | failed
deriving DecidableEq, Repr

/- Insert the claim, unless a check before it fails. -/
def claimSegment
    (segments : List WalSegment)
    (claim : WalSegment)
    (answer : Answer) :
    Except UploadError (List WalSegment × Bool) :=
  match answer with
  | .succeeded =>
      if segments.any fun row => row.id = claim.id then
        .error .failed
      else
        .ok (claimInsert segments claim)
  | .stalePublication => .error .stalePublication
  | _ => .error .failed

def nilIfEmpty
    (text : String) : Option String :=
  if text = "" then none else some text

/-
  Name the stored file in the claim's row.  The outcome is
  false when the claim, the storage or the database is gone,
  and nothing has changed then.
-/
def commitSegment
    (segments : List WalSegment)
    (claim : WalSegment)
    (attempt : Attempt)
    (answer : Answer) :
    Except UploadError (List WalSegment × Bool) :=
  match answer with
  | .succeeded =>
      let (marked, isUpdated) :=
        markUploaded segments
          { segmentID := claim.id
            fileName := attempt.objectName
            compressedSizeMb :=
              (attempt.compressedSizeBytes : Rat) /
                (1024 * 1024)
            encryptionSalt := nilIfEmpty attempt.salt
            encryptionIV := nilIfEmpty attempt.iv }
      if isUpdated then
        .ok (marked, true)
      else
        .ok (segments, false)
  | .stalePublication => .ok (segments, false)
  | .databaseNotFound => .ok (segments, false)
  | _ => .error .failed

------------------------------------------------------------
-- Calls of an Upload
------------------------------------------------------------

/- The claim's transaction has answered. -/
def advanceClaiming
    (s : State)
    (upload : Upload)
    (claim : WalSegment)
    (answer : Answer) : State :=
  match claimSegment s.segments claim answer with
  | .error _ => s.finish upload
  | .ok (segments, true) =>
      { s with segments := segments }.setStage upload
        (.building claim)
  | .ok (_, false) => s.setStage upload (.probing claim)

/- The row that holds the key has been read. -/
def advanceProbing
    (s : State)
    (upload : Upload)
    (claim : WalSegment)
    (answer : Answer) : State :=
  match answer with
  | .succeeded =>
      let existing :=
        findByChainKey s.segments claim.chainKey
      match
        decideExistingWalClaim
          { segment := existing
            isRecovering := upload.isRecovering },
        existing
      with
      | .removeLocal, _ => s.setStage upload .removing
      | .recover, some segment =>
          s.setStage upload (.building segment)
      | _, _ => s.finish upload
  | _ => s.finish upload

/- The artifact's reader has been opened, or has failed to. -/
def advanceBuilding
    (s : State)
    (upload : Upload)
    (claim : WalSegment)
    (answer : Answer) : State :=
  match answer with
  | .opened attemptID salt iv =>
      s.setStage upload
        (.writing claim
          { objectName :=
              walSegmentObjectName claim.databaseID
                claim.timelineID claim.walFilename attemptID
            encryption := upload.deps.encryption
            salt :=
              if upload.deps.encryption = .encrypted then
                salt
              else
                ""
            iv :=
              if upload.deps.encryption = .encrypted then
                iv
              else
                ""
            compressedSizeBytes := 0 })
  | _ => s.setStage upload (.releasing claim)

/- The object has been written; a failure may leave part. -/
def advanceWriting
    (s : State)
    (upload : Upload)
    (claim : WalSegment)
    (attempt : Attempt)
    (answer : Answer) : State :=
  match answer with
  | .succeeded =>
      { s with
        objects :=
          { storageID := upload.deps.storageID
            fileName := attempt.objectName
            keyID := claim.id
            encryption := attempt.encryption
            salt := attempt.salt
            iv := attempt.iv } :: s.objects }.setStage upload
        (.waiting claim attempt)
  | _ => s.setStage upload (.discarding claim attempt)

/- The artifact's producer has ended. -/
def advanceWaiting
    (s : State)
    (upload : Upload)
    (claim : WalSegment)
    (attempt : Attempt)
    (answer : Answer) : State :=
  match answer with
  | .streamed compressedSizeBytes =>
      s.setStage upload
        (.writingSidecar claim
          { attempt with
            compressedSizeBytes := compressedSizeBytes })
  | _ => s.setStage upload (.discarding claim attempt)

def advanceWritingSidecar
    (s : State)
    (upload : Upload)
    (claim : WalSegment)
    (attempt : Attempt)
    (answer : Answer) : State :=
  match answer with
  | .succeeded =>
      s.setStage upload (.committing claim attempt)
  | _ => s.setStage upload (.discarding claim attempt)

/-
  The commit has answered.  A failed commit returns at once,
  and leaves the claim and the local file.
-/
def advanceCommitting
    (s : State)
    (upload : Upload)
    (claim : WalSegment)
    (attempt : Attempt)
    (answer : Answer) : State :=
  match commitSegment s.segments claim attempt answer with
  | .error _ => s.finish upload
  | .ok (segments, true) =>
      { s with segments := segments }.setStage upload .removing
  | .ok (_, false) =>
      s.setStage upload (.discardingUnpublished attempt)

/- The release of the claim is the last call of a failure. -/
def advanceReleasing
    (s : State)
    (upload : Upload)
    (claim : WalSegment)
    (answer : Answer) : State :=
  match answer with
  | .succeeded =>
      { s with
        segments := deleteClaim s.segments claim.id }.finish
          upload
  | _ => s.finish upload

/- The removal of the file is the last call of a success. -/
def advanceRemoving
    (s : State)
    (upload : Upload)
    (answer : Answer) : State :=
  match answer with
  | .succeeded => (s.removeLocal upload.file).finish upload
  | _ => s.finish upload

/- One call of an upload is answered. -/
def advanceUpload
    (s : State)
    (upload : Upload)
    (answer : Answer) : State :=
  match upload.stage with
  | .claiming claim => advanceClaiming s upload claim answer
  | .probing claim => advanceProbing s upload claim answer
  | .building claim => advanceBuilding s upload claim answer
  | .writing claim attempt =>
      advanceWriting s upload claim attempt answer
  | .waiting claim attempt =>
      advanceWaiting s upload claim attempt answer
  | .writingSidecar claim attempt =>
      advanceWritingSidecar s upload claim attempt answer
  | .committing claim attempt =>
      advanceCommitting s upload claim attempt answer
  | .discarding claim _ =>
      s.setStage upload (.releasing claim)
  | .releasing claim =>
      advanceReleasing s upload claim answer
  | .discardingUnpublished _ =>
      s.setStage upload .removing
  | .removing => advanceRemoving s upload answer

------------------------------------------------------------
-- The System of Uploads
------------------------------------------------------------

open Foundation

def walClaimGracePeriod : Duration := Duration.hour

inductive Action
  | tick (later : Time)
  | fileArrives (file : LocalFile)
  | processSegment
      (runID claimID : Uuid)
      (deps : UploaderDeps)
      (file : LocalFile)
  | recoverSegment
      (runID claimID : Uuid)
      (deps : UploaderDeps)
      (file : LocalFile)
  | advance (runID : Uuid) (answer : Answer)
  | crash (runID : Uuid)
  | reapAbandonedWalClaims (databaseID : Uuid)
deriving DecidableEq

/- A call begins with a claim for a file that it finds. -/
def beginUpload
    (segSizeOf : Uuid → Nat)
    (s : State)
    (runID claimID : Uuid)
    (deps : UploaderDeps)
    (file : LocalFile)
    (isRecovering : Bool) : Option State :=
  if file ∈ s.files ∧
      ∀ upload ∈ s.uploads, upload.runID ≠ runID then
    match
      newClaim (segSizeOf file.databaseID) deps claimID s.now
        file
    with
    | none => some s
    | some claim =>
        some
          { s with
            uploads :=
              { runID := runID
                deps := deps
                file := file
                isRecovering := isRecovering
                stage := .claiming claim } :: s.uploads }
  else
    none

def step
    (segSizeOf : Uuid → Nat)
    (s : State) : Action → Option State
  | .tick later =>
      if s.now ≤ later then
        some { s with now := later }
      else
        none
  | .fileArrives file =>
      if ∀ other ∈ s.files, ¬ other.SamePath file then
        some { s with files := file :: s.files }
      else
        none
  | .processSegment runID claimID deps file =>
      beginUpload segSizeOf s runID claimID deps file false
  | .recoverSegment runID claimID deps file =>
      beginUpload segSizeOf s runID claimID deps file true
  | .advance runID answer =>
      (s.uploads.find? fun upload =>
        upload.runID = runID).map
          fun upload => advanceUpload s upload answer
  | .crash runID =>
      (s.uploads.find? fun upload =>
        upload.runID = runID).map fun upload =>
          s.finish upload
  | .reapAbandonedWalClaims databaseID =>
      some
        { s with
          segments :=
            deleteAbandonedClaims s.segments databaseID
              (s.now - walClaimGracePeriod) }

/-
  No upload is under way at first.  The segments obey the
  table's primary key and its unique chain key.
-/
def system
    (segSizeOf : Uuid → Nat) :
    TransitionSystem State Action where
  initial s :=
    Table.UniqueBy WalSegment.id s.segments ∧
      Table.UniqueBy WalSegment.chainKey s.segments ∧
        s.uploads = []
  step := step segSizeOf

end WalStreaming

end Databasus
