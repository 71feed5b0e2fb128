import Databasus.Restorestream.Artifact
import Databasus.WalStreaming.ExpectedSegments

/-
  Uploads of WAL segments with the bytes that they store.

  The system of uploads, with the artifact that an upload
  opens, the object that it writes and the discarding of what
  was not published.  Identifiers are drawn once.  A database
  keeps its storage.  Its encryption setting may change, and
  an upload has the setting of the process it runs in, so it
  may differ from that of the claim it takes up.

  Main declarations:
    * `EncodingState`
    * `encodingStep`
    * `encodingSystem`
    * `recoveredClaim`
    * `KeepsSettings`
-/

------------------------------------------------------------
-- Artifacts and Objects
------------------------------------------------------------

namespace Databasus

namespace WalStreaming

open Foundation
open Catalog
open Restorestream (StorageReaders)

/- What an attempt's reader gives, and whose upload it is. -/
structure BuiltArtifact where
  runID : Uuid
  fileName : String
  bytes : Bytes
deriving DecidableEq

structure StoredObject where
  storageID : Uuid
  fileName : String
  bytes : Bytes
deriving DecidableEq

/-
  The claims made and the artifacts opened so far are kept,
  because an identifier is never drawn twice.
-/
structure EncodingState where
  base : State
  claims : List WalSegment
  built : List BuiltArtifact
  stored : List StoredObject
deriving DecidableEq

/- The objects of a storage by their names. -/
def storageReaders
    (stored : List StoredObject) : StorageReaders :=
  fun storageID =>
    some fun fileName =>
      (stored.find? fun object =>
        object.storageID = storageID &&
          object.fileName = fileName).map
        StoredObject.bytes

/-
  The segment sizes and the storages of the databases, the
  libraries, and the bytes of the log.
-/
structure EncodingEnvironment where
  segSizeOf : Uuid → Nat
  storageOf : Uuid → Uuid
  codec : SegmentCodec
  segmentBytes : ChainKey → Bytes

/- A complete segment file holds the bytes of its segment. -/
def EncodingEnvironment.fileBytes
    (env : EncodingEnvironment)
    (file : LocalFile) : Bytes :=
  match
    file.chainKey (env.segSizeOf file.databaseID) with
  | none => []
  | some key => env.segmentBytes key

------------------------------------------------------------
-- Steps
------------------------------------------------------------

/- The claim that an action makes. -/
def madeClaim
    (segSizeOf : Uuid → Nat)
    (s : State) : Action → Option WalSegment
  | .processSegment _ claimID deps file =>
      newClaim (segSizeOf file.databaseID) deps claimID s.now
        file
  | .recoverSegment _ claimID deps file =>
      newClaim (segSizeOf file.databaseID) deps claimID s.now
        file
  | _ => none

/- The object of an attempt, with the bytes that were sent. -/
def sentObjects
    (s : EncodingState)
    (upload : Upload)
    (attempt : Attempt)
    (sent : Bytes → Bytes) : List StoredObject :=
  (s.built.filter fun artifact =>
    artifact.fileName = attempt.objectName).map
      fun artifact =>
        { storageID := upload.deps.storageID
          fileName := artifact.fileName
          bytes := sent artifact.bytes }

/- The objects without that of the attempt. -/
def withoutAttempt
    (s : EncodingState)
    (upload : Upload)
    (attempt : Attempt) : List StoredObject :=
  Table.deleteWhere
    (fun object =>
      object.storageID = upload.deps.storageID &&
        object.fileName = attempt.objectName) s.stored

/-
  The objects after a call of an upload is answered.  A write
  that ends early leaves the bytes that it had streamed.
-/
def storedAfter
    (s : EncodingState)
    (upload : Upload)
    (answer : Answer) : List StoredObject :=
  match upload.stage, answer with
  | .writing _ attempt, .succeeded =>
      sentObjects s upload attempt id ++ s.stored
  | .writing _ attempt, .streamed sentBytes =>
      sentObjects s upload attempt (List.take sentBytes) ++
        s.stored
  | .discarding _ attempt, .succeeded =>
      withoutAttempt s upload attempt
  | .discardingUnpublished attempt, .succeeded =>
      withoutAttempt s upload attempt
  | _, _ => s.stored

inductive EncodingAction
  | base (action : Action)
  | build
      (runID attemptID : Uuid)
      (salt nonce : Option Bytes)
deriving DecidableEq

/- An upload builds its artifact by an action of its own. -/
def opensArtifact : Action → Bool
  | .advance _ (.opened _ _ _) => true
  | _ => false

/- An artifact is opened under a name that is new. -/
def buildStep
    (env : EncodingEnvironment)
    (s : EncodingState)
    (upload : Upload)
    (claim : WalSegment)
    (attemptID : Uuid)
    (salt nonce : Option Bytes) : Option EncodingState :=
  let objectName :=
    walSegmentObjectName claim.databaseID claim.timelineID
      claim.walFilename attemptID
  match
    buildWalSegmentArtifactReader env.codec
      upload.deps.encryption claim.id salt nonce
      (env.fileBytes upload.file) with
  | .error _ =>
      some
        { s with
          base := advanceBuilding s.base upload claim .failed }
  | .ok (bytes, saltText, ivText) =>
      if ∀ artifact ∈ s.built,
          artifact.fileName ≠ objectName then
        some
          { s with
            base :=
              advanceBuilding s.base upload claim
                (.opened attemptID saltText ivText)
            built :=
              { runID := upload.runID
                fileName := objectName
                bytes := bytes } :: s.built }
      else
        none

def encodingStep
    (env : EncodingEnvironment)
    (s : EncodingState) :
    EncodingAction → Option EncodingState
  | .base action =>
      if opensArtifact action then
        none
      else
        let made := madeClaim env.segSizeOf s.base action
        if ∀ claim ∈ made,
            claim.storageID =
                env.storageOf claim.databaseID ∧
              ∀ other ∈ s.claims, other.id ≠ claim.id then
          let stored :=
            match action with
            | .advance runID answer =>
                match
                  s.base.uploads.find? fun upload =>
                    upload.runID = runID with
                | some upload => storedAfter s upload answer
                | none => s.stored
            | _ => s.stored
          (step env.segSizeOf s.base action).map fun base =>
            { s with
              base
              claims := made.toList ++ s.claims
              stored }
        else
          none
  | .build runID attemptID salt nonce =>
      match
        s.base.uploads.find? fun upload =>
          upload.runID = runID with
      | some upload =>
          match upload.stage with
          | .building claim =>
              buildStep env s upload claim attemptID salt
                nonce
          | _ => none
      | none => none

/- Nothing is stored at first, and no segment is claimed. -/
def encodingSystem
    (env : EncodingEnvironment) :
    TransitionSystem EncodingState EncodingAction where
  initial s :=
    s.base.segments = [] ∧ s.base.uploads = [] ∧
      s.claims = [] ∧ s.built = [] ∧ s.stored = []
  step := encodingStep env

------------------------------------------------------------
-- Claims Taken Up
------------------------------------------------------------

/-
  The claim that a recovery takes up with this action, and
  the settings it goes on with.
-/
def recoveredClaim
    (s : State) : Action → Option (WalSegment × UploaderDeps)
  | .advance runID .succeeded =>
      match
        s.uploads.find? fun upload => upload.runID = runID
      with
      | some upload =>
          match upload.stage with
          | .probing claim =>
              let existing :=
                findByChainKey s.segments claim.chainKey
              match
                decideExistingWalClaim
                  { segment := existing
                    isRecovering := upload.isRecovering },
                existing
              with
              | .recover, some segment =>
                  some (segment, upload.deps)
              | _, _ => none
          | _ => none
      | none => none
  | _ => none

/-
  No recovery takes up a claim that was made under another
  encryption setting.
-/
def KeepsSettings
    (s : EncodingState) : EncodingAction → Prop
  | .base action =>
      ∀ taken ∈ recoveredClaim s.base action,
        taken.1.encryption = taken.2.encryption
  | .build _ _ _ _ => True

instance instDecidableKeepsSettings
    (s : EncodingState)
    (action : EncodingAction) :
    Decidable (KeepsSettings s action) :=
  match action with
  | .base action =>
      inferInstanceAs
        (Decidable
          (∀ taken ∈ recoveredClaim s.base action, _))
  | .build _ _ _ _ => isTrue trivial

end WalStreaming

end Databasus
