import Databasus.Iox.Source
import Databasus.Storages.S3.Bucket
import Databasus.Storages.S3.ChunkedManifest

/-
  Saving a file to the bucket.

  A stream that fits in one inner part becomes a plain object.
  A longer one is split across numbered objects, each a
  multipart upload of at most so many inner parts, and the
  manifest of the objects is written last.

  Main declarations:
    * `PartLayout`
    * `SaveError`
    * `fillObject`
    * `uploadChunked`
    * `saveFile`
-/

------------------------------------------------------------
-- Requests
------------------------------------------------------------

namespace Databasus

namespace Storages

namespace S3

open Foundation Iox

/- How a file is split into objects. -/
structure PartLayout where
  innerPartSize : Nat
  maxPartsPerObject : Nat
  innerPartSize_pos : 0 < innerPartSize
  maxPartsPerObject_pos : 0 < maxPartsPerObject

def defaultPartLayout : PartLayout :=
  { innerPartSize := 16 * 1024 * 1024
    maxPartsPerObject := 1000
    innerPartSize_pos := by decide
    maxPartsPerObject_pos := by decide }

inductive SaveError
  | cancelledBeforeStart
  | clientFailed
  | readFailed (cause : SourceError)
  | uploadFailed
  | initiateFailed (objectKey : String)
  | cancelled
  | partFailed (partNumber : Nat) (objectKey : String)
  | completeFailed (objectKey : String)
  | abortFailed
  | removeFailed (objectKey : String)
  | manifestFailed
deriving DecidableEq, Repr

abbrev S3Call := Exchange Bucket SaveError

def getClient
    {ε : Type}
    (error : ε) : Exchange Bucket ε Unit :=
  Exchange.request (fun bucket => some (bucket, ()))
    fun _ => error

def putObject
    (error : SaveError)
    (objectKey : String)
    (data : Bytes) : S3Call Unit :=
  Exchange.request
    (fun bucket => some (bucket.put objectKey data, ()))
    fun _ => error

def newMultipartUpload
    (objectKey : String) : S3Call Nat :=
  Exchange.request
    (fun bucket =>
      some (bucket.initiate objectKey, bucket.nextUploadID))
    fun _ => .initiateFailed objectKey

/- A part is only taken for an upload that is open. -/
def putObjectPart
    (objectKey : String)
    (uploadID partNumber : Nat)
    (partData : Bytes) : S3Call Unit :=
  Exchange.request
    (fun bucket =>
      (bucket.findUpload objectKey uploadID).map fun _ =>
        (bucket.putPart objectKey uploadID partNumber partData,
          ()))
    fun isCancelled =>
      if isCancelled then
        .cancelled
      else
        .partFailed partNumber objectKey

/- The object appears when its upload closes. -/
def completeMultipartUpload
    (objectKey : String)
    (uploadID : Nat)
    (parts : List Nat) : S3Call Unit :=
  Exchange.request
    (fun bucket => do
      let upload ← bucket.findUpload objectKey uploadID
      let content ← upload.assemble parts
      some ((bucket.put objectKey content).abort objectKey
        uploadID, ()))
    fun _ => .completeFailed objectKey

def abortMultipartUpload
    {ε : Type}
    (error : ε)
    (objectKey : String)
    (uploadID : Nat) : Exchange Bucket ε Unit :=
  Exchange.request
    (fun bucket =>
      (bucket.findUpload objectKey uploadID).map fun _ =>
        (bucket.abort objectKey uploadID, ()))
    fun _ => error

/- Every key is tried, and the first failure is reported. -/
def removeObjects
    {ε : Type}
    (error : String → ε) :
    List String → Exchange Bucket ε Unit
  | [] => pure ()
  | key :: keys => do
      Exchange.onFailure
        (Exchange.request
          (fun bucket => some (bucket.remove key, ()))
          fun _ => error key)
        (removeObjects error keys)
      removeObjects error keys

------------------------------------------------------------
-- One Object of a Chunked File
------------------------------------------------------------

/- An object while its parts are uploaded. -/
structure ObjectFill where
  source : Source
  parts : List Nat
  hashed : Bytes
  objectSize : Int
  sourceEnded : Bool
deriving DecidableEq, Repr

/- A file while its objects are uploaded. -/
structure ChunkedUpload where
  source : Source
  objectIndex : Nat
  objectSpans : List ObjectSpan
  uploadedKeys : List String
  totalSize : Int
  sourceEnded : Bool
deriving DecidableEq, Repr

/- The next object before any of its parts. -/
def ChunkedUpload.newFill
    (upload : ChunkedUpload) : ObjectFill :=
  { source := upload.source
    parts := []
    hashed := []
    objectSize := 0
    sourceEnded := upload.sourceEnded }

/-
  Undo a failed upload: abort the multipart upload in flight
  and delete the objects that are complete already.
-/
def abandon
    (uploadedKeys : List String) :
    Option (String × Nat) → S3Call Unit
  | some (objectKey, uploadID) => do
      Exchange.ignoreFailure
        (abortMultipartUpload SaveError.abortFailed objectKey
          uploadID)
      Exchange.ignoreFailure
        (removeObjects SaveError.removeFailed uploadedKeys)
  | none =>
      Exchange.ignoreFailure
        (removeObjects SaveError.removeFailed uploadedKeys)

def putInnerPart
    (objectKey : String)
    (uploadID partNumber : Nat)
    (partData : Bytes)
    (fill : ObjectFill) : S3Call ObjectFill := do
  putObjectPart objectKey uploadID partNumber partData
  pure
    { fill with
      hashed := fill.hashed ++ partData
      parts := fill.parts ++ [partNumber] }

/-
  Upload inner parts, from the given number on, until the
  object has no room or the source has ended.
-/
def fillObject
    (innerPartSize : Nat)
    (objectKey : String)
    (uploadID : Nat) :
    Nat → Nat → ObjectFill → S3Call ObjectFill
  | 0, _, fill => pure fill
  | room + 1, partNumber, fill => do
      Exchange.checkCancelled .cancelled
      let (partData, readErr, source) :=
        fill.source.readFull innerPartSize
      let fill := { fill with source := source }
      if readErr = some .other then
        Exchange.fail (.readFailed .other)
      else if partData = [] ∧ readErr = some .eof then
        pure { fill with sourceEnded := true }
      else do
        let fill ←
          putInnerPart objectKey uploadID partNumber partData
            fill
        let fill :=
          { fill with
            objectSize := fill.objectSize + partData.length }
        if readErr = some .eof ∨
            readErr = some .unexpectedEOF then
          pure { fill with sourceEnded := true }
        else
          fillObject innerPartSize objectKey uploadID room
            (partNumber + 1) fill

/- An object whose multipart upload got all of its parts. -/
def completeObject
    (sha256 : Bytes → String)
    (objectKey : String)
    (uploadID : Nat)
    (fill : ObjectFill)
    (upload : ChunkedUpload) : S3Call ChunkedUpload := do
  Exchange.onFailure
    (completeMultipartUpload objectKey uploadID fill.parts)
    (abandon upload.uploadedKeys (some (objectKey, uploadID)))
  pure
    { source := fill.source
      objectIndex := upload.objectIndex + 1
      objectSpans :=
        upload.objectSpans ++
          [{ key := objectKey
             size := fill.objectSize
             sha256 := sha256 fill.hashed }]
      uploadedKeys := upload.uploadedKeys ++ [objectKey]
      totalSize := upload.totalSize + fill.objectSize
      sourceEnded := fill.sourceEnded }

/-
  Upload the next object.  When the source ended exactly on
  the boundary of the previous one, this one gets no data and
  is given up.
-/
def uploadObject
    (layout : PartLayout)
    (sha256 : Bytes → String)
    (baseKey : String)
    (upload : ChunkedUpload) : S3Call ChunkedUpload := do
  let objectKey := partObjectKey baseKey upload.objectIndex
  let uploadID ←
    Exchange.onFailure (newMultipartUpload objectKey)
      (abandon upload.uploadedKeys none)
  let fill ←
    Exchange.onFailure
      (fillObject layout.innerPartSize objectKey uploadID
        layout.maxPartsPerObject 1 upload.newFill)
      (abandon upload.uploadedKeys (some (objectKey, uploadID)))
  if fill.parts = [] then do
    Exchange.ignoreFailure
      (abortMultipartUpload SaveError.abortFailed objectKey
        uploadID)
    pure
      { upload with source := fill.source, sourceEnded := true }
  else
    completeObject sha256 objectKey uploadID fill upload

------------------------------------------------------------
-- Files
------------------------------------------------------------

/- Upload objects while the source has not ended. -/
def uploadObjects
    (layout : PartLayout)
    (sha256 : Bytes → String)
    (baseKey : String) :
    Nat → ChunkedUpload → S3Call ChunkedUpload
  | 0, upload =>
      if upload.sourceEnded then
        pure upload
      else
        Exchange.diverge
  | fuel + 1, upload =>
      if upload.sourceEnded then
        pure upload
      else do
        let upload ←
          uploadObject layout sha256 baseKey upload
        uploadObjects layout sha256 baseKey fuel upload

def writeManifest
    (baseKey : String)
    (manifest : ChunkedManifest) : S3Call Unit :=
  putObject .manifestFailed (manifestObjectKey baseKey)
    (marshalManifest manifest)

def uploadChunked
    (layout : PartLayout)
    (sha256 : Bytes → String)
    (baseKey : String)
    (source : Source) : S3Call Unit := do
  -- Every object but the last takes at least one byte.
  let upload ←
    uploadObjects layout sha256 baseKey
      (source.rest.length + 1)
      { source := source
        objectIndex := 1
        objectSpans := []
        uploadedKeys := []
        totalSize := 0
        sourceEnded := false }
  Exchange.onFailure
    (writeManifest baseKey
      { version := manifestVersion
        totalSize := upload.totalSize
        parts := upload.objectSpans })
    (abandon upload.uploadedKeys none)

def uploadSingleObject
    (objectKey : String)
    (data : Bytes) : S3Call Unit :=
  putObject .uploadFailed objectKey data

/-
  Save what the source gives: look ahead by one inner part to
  choose between one object and several.
-/
def saveFileContent
    (layout : PartLayout)
    (sha256 : Bytes → String)
    (baseKey : String)
    (file : Source) : S3Call Unit :=
  let (firstPart, readErr, file) :=
    file.readFull layout.innerPartSize
  match readErr with
  | some .other => Exchange.fail (.readFailed .other)
  | some .eof => uploadSingleObject baseKey firstPart
  | some .unexpectedEOF => uploadSingleObject baseKey firstPart
  | none =>
      -- One more byte tells a full part from a longer stream.
      let (peek, peekErr, file) := file.readFull 1
      match peekErr with
      | some .other => Exchange.fail (.readFailed .other)
      | some .unexpectedEOF =>
          Exchange.fail (.readFailed .unexpectedEOF)
      | _ =>
          if peek = [] then
            uploadSingleObject baseKey firstPart
          else
            uploadChunked layout sha256 baseKey
              (file.prepend (firstPart ++ peek))

def saveFile
    (layout : PartLayout)
    (sha256 : Bytes → String)
    (keyPrefix fileName : String)
    (file : Source) : S3Call Unit := do
  Exchange.checkCancelled .cancelledBeforeStart
  getClient .clientFailed
  saveFileContent layout sha256
    (buildObjectKey keyPrefix fileName) file

/-
  What a save does, by the length of the stream and the error
  that ends it.  An unexpected end counts as an end, except
  right after a full first part.
-/
theorem saveFileContent_eq
    (layout : PartLayout)
    (sha256 : Bytes → String)
    (baseKey : String)
    (file : Source) :
    saveFileContent layout sha256 baseKey file =
      if file.rest.length < layout.innerPartSize then
        if file.ending = .other then
          Exchange.fail (.readFailed .other)
        else
          uploadSingleObject baseKey file.rest
      else if file.rest.length = layout.innerPartSize then
        if file.ending = .eof then
          uploadSingleObject baseKey file.rest
        else
          Exchange.fail (.readFailed file.ending)
      else
        uploadChunked layout sha256 baseKey file := by
  obtain ⟨rest, ending⟩ := file
  unfold saveFileContent
  by_cases hFew : rest.length < layout.innerPartSize
  · rw [Source.readFull_of_few hFew]
    simp only [hFew, if_true]
    cases ending with
    | eof =>
        by_cases hNone : rest = []
        · simp [hNone]
        · simp [hNone]
    | unexpectedEOF => simp
    | other => simp
  · have hEnough : layout.innerPartSize ≤ rest.length := by
      omega
    rw [Source.readFull_of_enough hEnough]
    simp only [hFew, if_false]
    by_cases hFull : rest.length = layout.innerPartSize
    · have hNoMore : rest.drop layout.innerPartSize = [] := by
        rw [← hFull, List.drop_length]
      have hPart : rest.take layout.innerPartSize = rest := by
        rw [← hFull, List.take_length]
      rw [Source.readFull_of_few
        (by simp only [hNoMore]; decide)]
      simp only [hNoMore, hPart, hFull, if_true]
      cases ending with
      | eof => simp
      | unexpectedEOF => simp
      | other => simp
    · have hMore :
          1 ≤ (rest.drop layout.innerPartSize).length := by
        rw [List.length_drop]
        omega
      have hPeek :
          (rest.drop layout.innerPartSize).take 1 ≠ [] := by
        intro hNone
        have hLength := congrArg List.length hNone
        rw [List.length_take_of_le hMore] at hLength
        cases hLength
      have hWhole :
          rest.take layout.innerPartSize ++
                (rest.drop layout.innerPartSize).take 1 ++
              (rest.drop layout.innerPartSize).drop 1 =
            rest := by
        rw [List.append_assoc, List.take_append_drop,
          List.take_append_drop]
      rw [Source.readFull_of_enough hMore]
      simp only [hPeek, hFull, if_false, Source.prepend,
        hWhole]

end S3

end Storages

end Databasus
