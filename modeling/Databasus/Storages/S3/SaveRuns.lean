import Databasus.Storages.S3.SavedObjects

/-
  Every run of a save, also one that fails or crashes.

  A property of the bucket that the requests for numbered
  objects keep is kept by a whole upload, wherever it stops.
  An upload never loops for ever, and it succeeds when its
  requests are answered and its source does not fail.

  Main declarations:
    * `KeptByUploads`
    * `uploadObjects_keeps`
    * `saveFile_finishes`
    * `saveFile_succeeds`
-/

------------------------------------------------------------
-- What Uploads Keep
------------------------------------------------------------

namespace Databasus

namespace Storages

namespace S3

open Foundation Iox

variable {ε : Type}
variable {upload : ChunkedUpload}

/-
  The requests for the numbered objects with allowed numbers
  keep the property, and so does every removal.
-/
structure KeptByUploads
    (baseKey : String)
    (isAllowed : Nat → Prop)
    (holds : Bucket → Prop) : Prop where
  initiate :
    ∀ bucket index, isAllowed index → holds bucket →
      holds (bucket.initiate (partObjectKey baseKey index))
  putPart :
    ∀ bucket key uploadID number content, holds bucket →
      holds (bucket.putPart key uploadID number content)
  put :
    ∀ bucket index content, isAllowed index → holds bucket →
      holds (bucket.put (partObjectKey baseKey index) content)
  remove :
    ∀ bucket key, holds bucket → holds (bucket.remove key)
  abort :
    ∀ bucket key uploadID, holds bucket →
      holds (bucket.abort key uploadID)

variable {layout : PartLayout}
variable {sha256 : Bytes → String}
variable {baseKey : String}
variable {isAllowed : Nat → Prop}
variable {holds : Bucket → Prop}

theorem removeObjects_keeps
    (error : String → ε)
    (hRemove :
      ∀ bucket key, holds bucket → holds (bucket.remove key))
    (keys : List String) :
    Exchange.Keeps holds (removeObjects error keys) := by
  induction keys with
  | nil => exact Exchange.keeps_pure ()
  | cons key keys ih =>
      refine Exchange.keeps_bind ?_ ?_
      · refine Exchange.keeps_onFailure ?_ ih
        apply Exchange.keeps_request
        intro bucket bucket' _ hHolds hEffect
        simp only [Option.some.injEq, Prod.mk.injEq]
          at hEffect
        rw [← hEffect.1]
        exact hRemove bucket key hHolds
      · intro _
        exact ih

theorem abortMultipartUpload_keeps
    (error : ε)
    (hAbort :
      ∀ bucket key uploadID, holds bucket →
        holds (bucket.abort key uploadID))
    (objectKey : String)
    (uploadID : Nat) :
    Exchange.Keeps holds
      (abortMultipartUpload error objectKey uploadID) := by
  apply Exchange.keeps_request
  intro bucket bucket' _ hHolds hEffect
  simp only [Option.map_eq_some_iff, Prod.mk.injEq]
    at hEffect
  rcases hEffect with ⟨_, _, rfl, _⟩
  exact hAbort bucket objectKey uploadID hHolds

theorem abandon_keeps
    (hKept : KeptByUploads baseKey isAllowed holds)
    (uploadedKeys : List String)
    (inFlight : Option (String × Nat)) :
    Exchange.Keeps holds (abandon uploadedKeys inFlight) := by
  have hRemove :
      Exchange.Keeps holds
        (Exchange.ignoreFailure
          (removeObjects SaveError.removeFailed
            uploadedKeys)) :=
    Exchange.keeps_ignoreFailure
      (removeObjects_keeps _ hKept.remove uploadedKeys)
  cases inFlight with
  | none => exact hRemove
  | some upload =>
      obtain ⟨objectKey, uploadID⟩ := upload
      refine Exchange.keeps_bind ?_ ?_
      · exact
          Exchange.keeps_ignoreFailure
            (abortMultipartUpload_keeps _ hKept.abort objectKey
              uploadID)
      · intro _
        exact hRemove

theorem fillObject_keeps
    (hKept : KeptByUploads baseKey isAllowed holds)
    (innerPartSize : Nat)
    (objectKey : String)
    (uploadID room partNumber : Nat)
    (fill : ObjectFill) :
    Exchange.Keeps holds
      (fillObject innerPartSize objectKey uploadID room
        partNumber fill) := by
  induction room generalizing partNumber fill with
  | zero => exact Exchange.keeps_pure fill
  | succ room ih =>
      rw [fillObject]
      refine
        Exchange.keeps_bind (Exchange.keeps_checkCancelled _)
          ?_
      intro _
      rcases fill.source.readFull innerPartSize with
        ⟨partData, readErr, source⟩
      simp only
      split
      · exact Exchange.keeps_fail _
      split
      · exact Exchange.keeps_pure _
      refine Exchange.keeps_bind ?_ ?_
      · refine Exchange.keeps_bind ?_ ?_
        · apply Exchange.keeps_request
          intro bucket bucket' _ hHolds hEffect
          simp only [Option.map_eq_some_iff, Prod.mk.injEq]
            at hEffect
          rcases hEffect with ⟨_, _, rfl, _⟩
          exact
            hKept.putPart bucket objectKey uploadID partNumber
              partData hHolds
        · intro _
          exact Exchange.keeps_pure _
      intro put
      split
      · exact Exchange.keeps_pure _
      · exact ih (partNumber + 1) _

theorem uploadObject_keeps
    (hKept : KeptByUploads baseKey isAllowed holds)
    (hAllowed : isAllowed upload.objectIndex) :
    Exchange.Keeps holds
      (uploadObject layout sha256 baseKey upload) := by
  refine Exchange.keeps_bind ?_ ?_
  · refine
      Exchange.keeps_onFailure ?_ (abandon_keeps hKept _ _)
    apply Exchange.keeps_request
    intro bucket bucket' _ hHolds hEffect
    simp only [Option.some.injEq, Prod.mk.injEq] at hEffect
    rw [← hEffect.1]
    exact hKept.initiate bucket _ hAllowed hHolds
  intro uploadID
  refine Exchange.keeps_bind ?_ ?_
  · exact
      Exchange.keeps_onFailure
        (fillObject_keeps hKept _ _ _ _ _ _)
        (abandon_keeps hKept _ _)
  intro fill
  split
  · refine Exchange.keeps_bind ?_ ?_
    · exact
        Exchange.keeps_ignoreFailure
          (abortMultipartUpload_keeps _ hKept.abort _ _)
    · intro _
      exact Exchange.keeps_pure _
  · refine Exchange.keeps_bind ?_ ?_
    · refine
        Exchange.keeps_onFailure ?_ (abandon_keeps hKept _ _)
      apply Exchange.keeps_request
      intro bucket bucket' _ hHolds hEffect
      simp only [Option.bind_eq_bind,
        Option.bind_eq_some_iff, Option.some.injEq,
        Prod.mk.injEq] at hEffect
      rcases hEffect with ⟨_, _, content, _, rfl, _⟩
      exact
        hKept.abort _ _ _
          (hKept.put bucket _ content hAllowed hHolds)
    · intro _
      exact Exchange.keeps_pure _

/-
  An upload keeps the property when it allows the number of
  every object that is full before the source ends, and of
  the one after it.
-/
theorem uploadObjects_keeps
    (hKept : KeptByUploads baseKey isAllowed holds)
    {fuel : Nat}
    (hAllowed :
      ∀ count,
        count *
            (layout.maxPartsPerObject *
              layout.innerPartSize) ≤
          upload.source.rest.length →
        isAllowed (upload.objectIndex + count)) :
    Exchange.Keeps holds
      (uploadObjects layout sha256 baseKey fuel upload) := by
  induction fuel generalizing upload with
  | zero =>
      rw [uploadObjects]
      split
      · exact Exchange.keeps_pure upload
      · exact Exchange.keeps_diverge
  | succ fuel ih =>
      rw [uploadObjects]
      split
      · exact Exchange.keeps_pure upload
      next hRunning =>
      apply Exchange.keeps_bind_of_done
      · apply uploadObject_keeps hKept
        exact hAllowed 0 (by omega)
      intro session next session' hDone
      rcases uploadObject_done (by simpa using hRunning)
          hDone with
        ⟨data, hTakes, _⟩
      cases hEnded : next.sourceEnded with
      | true =>
          rw [uploadObjects_of_ended fuel hEnded]
          exact Exchange.keeps_pure next
      | false =>
          apply ih
          intro count hCount
          have hLengths := congrArg List.length hTakes.rest_eq
          rw [List.length_append, hTakes.full hEnded]
            at hLengths
          rw [hTakes.index_eq hEnded, Nat.add_right_comm,
            Nat.add_assoc]
          apply hAllowed
          rw [Nat.succ_mul]
          omega

------------------------------------------------------------
-- Uploads End
------------------------------------------------------------

open Exchange (Finishes finishes_bind
  finishes_checkCancelled finishes_fail
  finishes_ignoreFailure finishes_onFailure finishes_pure
  finishes_request)

theorem removeObjects_finishes
    (error : String → ε)
    (keys : List String) :
    Finishes (removeObjects error keys) := by
  induction keys with
  | nil => exact finishes_pure ()
  | cons key keys ih =>
      apply finishes_bind
      · exact
          finishes_onFailure
            (finishes_request _ _) ih
      · intro _ _ session _
        exact ih session

theorem abandon_finishes
    (uploadedKeys : List String)
    (inFlight : Option (String × Nat)) :
    Finishes (abandon uploadedKeys inFlight) := by
  have hRemove :=
    finishes_ignoreFailure
      (removeObjects_finishes SaveError.removeFailed
        uploadedKeys)
  cases inFlight with
  | none => exact hRemove
  | some upload =>
      apply finishes_bind
      · exact finishes_ignoreFailure (finishes_request _ _)
      · intro _ _ session _
        exact hRemove session

theorem fillObject_finishes
    (innerPartSize : Nat)
    (objectKey : String)
    (uploadID room partNumber : Nat)
    (fill : ObjectFill) :
    Finishes
      (fillObject innerPartSize objectKey uploadID room
        partNumber fill) := by
  induction room generalizing partNumber fill with
  | zero => exact finishes_pure fill
  | succ room ih =>
      rw [fillObject]
      refine finishes_bind (finishes_checkCancelled _) ?_
      intro _ _ checked _
      rcases fill.source.readFull innerPartSize with
        ⟨partData, readErr, source⟩
      simp only
      split
      · exact finishes_fail _ checked
      split
      · exact finishes_pure _ checked
      refine finishes_bind ?_ ?_ checked
      · apply finishes_bind (finishes_request _ _)
        intro _ _ after _
        exact finishes_pure _ after
      intro _ put after _
      split
      · exact finishes_pure _ after
      · exact ih (partNumber + 1) _ after

theorem uploadObject_finishes
    (upload : ChunkedUpload) :
    Finishes
      (uploadObject layout sha256 baseKey upload) := by
  refine finishes_bind ?_ ?_
  · exact
      finishes_onFailure (finishes_request _ _)
        (abandon_finishes _ _)
  intro _ uploadID started _
  refine finishes_bind ?_ ?_ started
  · exact
      finishes_onFailure (fillObject_finishes _ _ _ _ _ _)
        (abandon_finishes _ _)
  intro _ fill filled _
  split
  · refine finishes_bind ?_ ?_ filled
    · exact finishes_ignoreFailure (finishes_request _ _)
    · intro _ _ after _
      exact finishes_pure _ after
  · refine finishes_bind ?_ ?_ filled
    · exact
        finishes_onFailure (finishes_request _ _)
          (abandon_finishes _ _)
    · intro _ _ after _
      exact finishes_pure _ after

/- An object that does not end the source takes a byte. -/
theorem ObjectTakes.rest_lt
    {upload upload' : ChunkedUpload}
    {data : Bytes}
    (hTakes : ObjectTakes layout upload upload' data)
    (hRunning : upload'.sourceEnded = false) :
    upload'.source.rest.length <
      upload.source.rest.length := by
  have hLengths := congrArg List.length hTakes.rest_eq
  rw [List.length_append, hTakes.full hRunning] at hLengths
  have hPositive :=
    Nat.mul_pos layout.maxPartsPerObject_pos
      layout.innerPartSize_pos
  omega

theorem uploadObjects_finishes
    {fuel : Nat}
    (hFuel : upload.source.rest.length < fuel) :
    Finishes
      (uploadObjects layout sha256 baseKey fuel upload) := by
  induction fuel generalizing upload with
  | zero => exact absurd hFuel (Nat.not_lt_zero _)
  | succ fuel ih =>
      rw [uploadObjects]
      split
      · exact finishes_pure upload
      next hRunning =>
      refine finishes_bind (uploadObject_finishes upload) ?_
      intro session next after hDone
      cases hEnded : next.sourceEnded with
      | true =>
          rw [uploadObjects_of_ended fuel hEnded]
          exact finishes_pure next after
      | false =>
          rcases uploadObject_done (by simpa using hRunning)
              hDone with
            ⟨data, hTakes, _⟩
          have hLess := hTakes.rest_lt hEnded
          exact ih (by omega) after

theorem uploadChunked_finishes
    (source : Source) :
    Finishes
      (uploadChunked layout sha256 baseKey source) := by
  refine
    finishes_bind
      (uploadObjects_finishes (Nat.lt_succ_self _)) ?_
  intro _ upload uploaded _
  refine finishes_onFailure ?_ (abandon_finishes _ _) uploaded
  exact finishes_request _ _

/- A save returns, or crashes with the process. -/
theorem saveFile_finishes
    (layout : PartLayout)
    (sha256 : Bytes → String)
    (keyPrefix fileName : String)
    (file : Source) :
    Finishes
      (saveFile layout sha256 keyPrefix fileName file) := by
  refine finishes_bind (finishes_checkCancelled _) ?_
  intro _ _ checked _
  refine finishes_bind (finishes_request _ _) ?_ checked
  intro _ _ connected _
  rw [saveFileContent_eq]
  split
  · split
    · exact finishes_fail _ connected
    · exact finishes_request _ _ connected
  split
  · split
    · exact finishes_request _ _ connected
    · exact finishes_fail _ connected
  · exact uploadChunked_finishes file connected

------------------------------------------------------------
-- Uploads Can Succeed
------------------------------------------------------------

variable {objectKey : String}
variable {uploadID partNumber innerPartSize room : Nat}
variable {bucket : Bucket}
variable {source : Source}
variable {fill : ObjectFill}

/- An end that is not a failure reads as an end. -/
theorem readFull_ne_other
    (size : Nat)
    (hEnding : source.ending ≠ .other) :
    (source.readFull size).2.1 ≠ some .other := by
  intro hOther
  rcases (Source.readFull_short hOther).2 with
    hSame | ⟨_, hSame⟩
  · exact hEnding hSame.symm
  · cases hSame

theorem fillObject_succeeds
    (innerPartSize room : Nat)
    (hSound :
      FillSound bucket objectKey uploadID partNumber fill)
    (hEnding : fill.source.ending ≠ .other) :
    ∃ fill' bucket',
      Exchange.Succeeds
        (fillObject innerPartSize objectKey uploadID room
          partNumber fill)
        bucket fill' bucket' := by
  induction room generalizing partNumber fill bucket with
  | zero =>
      exact ⟨fill, bucket, Exchange.succeeds_pure fill bucket⟩
  | succ room ih =>
      have hReadable := readFull_ne_other innerPartSize hEnding
      have hSame :=
        Source.readFull_ending fill.source innerPartSize
      rw [fillObject]
      rcases hRead : fill.source.readFull innerPartSize with
        ⟨partData, readErr, source⟩
      rw [hRead] at hReadable hSame
      simp only at hReadable hSame
      by_cases hEnd : partData = [] ∧ readErr = some .eof
      · refine
          ⟨{ fill with source := source, sourceEnded := true },
            bucket, Exchange.succeeds_bind
              (Exchange.succeeds_checkCancelled _ bucket) ?_⟩
        simp only [hEnd, if_true, and_self]
        exact Exchange.succeeds_pure _ bucket
      rcases hSound.assembled with ⟨upload, hUpload, _⟩
      have hPart :
          Exchange.Succeeds
            (putObjectPart objectKey uploadID partNumber
              partData)
            bucket ()
            (bucket.putPart objectKey uploadID partNumber
              partData) := by
        apply Exchange.succeeds_request
        rw [hUpload]
        rfl
      have hPut :
          Exchange.Succeeds
            (putInnerPart objectKey uploadID partNumber
              partData { fill with source := source })
            bucket
            { fill with
              source := source
              hashed := fill.hashed ++ partData
              parts := fill.parts ++ [partNumber] }
            (bucket.putPart objectKey uploadID partNumber
              partData) :=
        Exchange.succeeds_bind hPart
          (Exchange.succeeds_pure _ _)
      by_cases hShort :
        readErr = some .eof ∨ readErr = some .unexpectedEOF
      · refine
          ⟨{ fill with
              source := source
              hashed := fill.hashed ++ partData
              parts := fill.parts ++ [partNumber]
              objectSize := fill.objectSize + partData.length
              sourceEnded := true },
            bucket.putPart objectKey uploadID partNumber
              partData,
            Exchange.succeeds_bind
              (Exchange.succeeds_checkCancelled _ bucket) ?_⟩
        simp only [hReadable, hEnd, if_false]
        refine Exchange.succeeds_bind hPut ?_
        simp only [hShort, if_true]
        exact Exchange.succeeds_pure _ _
      · have hNext := hSound.put partData
        have hFill :
            FillSound
              (bucket.putPart objectKey uploadID partNumber
                partData)
              objectKey uploadID (partNumber + 1)
              { fill with
                source := source
                hashed := fill.hashed ++ partData
                parts := fill.parts ++ [partNumber]
                objectSize :=
                  fill.objectSize + partData.length } :=
          ⟨hNext.assembled, hNext.numbered, hNext.size_eq⟩
        have hLater : source.ending ≠ .other := by
          rw [hSame]
          exact hEnding
        rcases ih hFill hLater with ⟨fill', bucket', hRest⟩
        refine ⟨fill', bucket',
          Exchange.succeeds_bind
            (Exchange.succeeds_checkCancelled _ bucket) ?_⟩
        simp only [hReadable, hEnd, if_false]
        refine Exchange.succeeds_bind hPut ?_
        simp only [hShort, if_false]
        exact hRest

/- A program that succeeds has a run that is done. -/
theorem done_of_succeeds
    {ε α : Type}
    {program : Exchange Bucket ε α}
    {value : α}
    {bucket' : Bucket}
    (hSucceeds :
      Exchange.Succeeds program bucket value bucket') :
    ∃ session session' : Session Bucket,
      session.world = bucket ∧ session'.world = bucket' ∧
        program session = (.done value, session') := by
  rcases hSucceeds with ⟨count, hCount⟩
  exact ⟨_, _, rfl, rfl, hCount []⟩

theorem putObject_succeeds
    (error : SaveError)
    (data : Bytes) :
    Exchange.Succeeds (putObject error objectKey data) bucket
      () (bucket.put objectKey data) :=
  Exchange.succeeds_request rfl

theorem completeObject_succeeds
    (sha256 : Bytes → String)
    {next : Nat}
    (hFill : FillSound bucket objectKey uploadID next fill)
    (upload : ChunkedUpload) :
    ∃ upload' bucket',
      Exchange.Succeeds
        (completeObject sha256 objectKey uploadID fill upload)
        bucket upload' bucket' := by
  rcases hFill.assembled with ⟨found, hFound, hAssembled⟩
  have hComplete :
      Exchange.Succeeds
        (completeMultipartUpload objectKey uploadID fill.parts)
        bucket ()
        ((bucket.put objectKey fill.hashed).abort objectKey
          uploadID) := by
    apply Exchange.succeeds_request
    simp [hFound, hAssembled]
  exact
    ⟨_, _, Exchange.succeeds_bind
      (Exchange.succeeds_onFailure hComplete)
      (Exchange.succeeds_pure _ _)⟩

theorem uploadObject_succeeds
    (layout : PartLayout)
    (sha256 : Bytes → String)
    (baseKey : String)
    (bucket : Bucket)
    {upload : ChunkedUpload}
    (hRunning : upload.sourceEnded = false)
    (hEnding : upload.source.ending ≠ .other) :
    ∃ upload' bucket',
      Exchange.Succeeds
        (uploadObject layout sha256 baseKey upload) bucket
        upload' bucket' := by
  have hFresh :=
    fillSound_initiate bucket
      (partObjectKey baseKey upload.objectIndex) upload
  rcases fillObject_succeeds layout.innerPartSize
      layout.maxPartsPerObject hFresh hEnding with
    ⟨fill, filled, hFill⟩
  rcases done_of_succeeds hFill with
    ⟨session, session', hStart, rfl, hDone⟩
  rw [← hStart] at hFresh
  rcases (fillObject_done hFresh hRunning hDone).1 with
    ⟨next, hFilled⟩
  rcases hFilled.assembled with ⟨found, hFound, _⟩
  have hInitiate :
      Exchange.Succeeds
        (Exchange.onFailure
          (newMultipartUpload
            (partObjectKey baseKey upload.objectIndex))
          (abandon upload.uploadedKeys none))
        bucket bucket.nextUploadID
        (bucket.initiate
          (partObjectKey baseKey upload.objectIndex)) :=
    Exchange.succeeds_onFailure (Exchange.succeeds_request rfl)
  by_cases hEmpty : fill.parts = []
  · have hAbort :
        Exchange.Succeeds
          (abortMultipartUpload SaveError.abortFailed
            (partObjectKey baseKey upload.objectIndex)
            bucket.nextUploadID)
          session'.world ()
          (session'.world.abort
            (partObjectKey baseKey upload.objectIndex)
            bucket.nextUploadID) := by
      apply Exchange.succeeds_request
      rw [hFound]
      rfl
    refine
      ⟨{ upload with
          source := fill.source
          sourceEnded := true },
        session'.world.abort
          (partObjectKey baseKey upload.objectIndex)
          bucket.nextUploadID,
        Exchange.succeeds_bind hInitiate
          (Exchange.succeeds_bind
            (Exchange.succeeds_onFailure hFill) ?_)⟩
    simp only [hEmpty, if_true]
    exact
      Exchange.succeeds_bind
        (Exchange.succeeds_ignoreFailure hAbort)
        (Exchange.succeeds_pure _ _)
  · rcases completeObject_succeeds sha256 hFilled upload with
      ⟨upload', bucket', hComplete⟩
    refine
      ⟨upload', bucket',
        Exchange.succeeds_bind hInitiate
          (Exchange.succeeds_bind
            (Exchange.succeeds_onFailure hFill) ?_)⟩
    simp only [hEmpty, if_false]
    exact hComplete

theorem uploadObjects_succeeds
    (layout : PartLayout)
    (sha256 : Bytes → String)
    (baseKey : String)
    (bucket : Bucket)
    {fuel : Nat}
    (upload : ChunkedUpload)
    (hFuel : upload.source.rest.length < fuel)
    (hEnding : upload.source.ending ≠ .other) :
    ∃ upload' bucket',
      Exchange.Succeeds
        (uploadObjects layout sha256 baseKey fuel upload)
        bucket upload' bucket' := by
  induction fuel generalizing upload bucket with
  | zero => exact absurd hFuel (Nat.not_lt_zero _)
  | succ fuel ih =>
      cases hEnded : upload.sourceEnded with
      | true =>
          rw [uploadObjects, if_pos hEnded]
          exact
            ⟨upload, bucket,
              Exchange.succeeds_pure upload bucket⟩
      | false =>
          rcases uploadObject_succeeds layout sha256 baseKey
              bucket hEnded hEnding with
            ⟨next, between, hObject⟩
          rcases done_of_succeeds hObject with
            ⟨session, session', _, _, hDone⟩
          rcases uploadObject_done hEnded hDone with
            ⟨data, hTakes, _⟩
          have hRest :
              ∃ upload' bucket',
                Exchange.Succeeds
                  (uploadObjects layout sha256 baseKey fuel
                    next)
                  between upload' bucket' := by
            cases hLast : next.sourceEnded with
            | true =>
                refine ⟨next, between, ?_⟩
                rw [uploadObjects_of_ended fuel hLast]
                exact Exchange.succeeds_pure next between
            | false =>
                have hLess := hTakes.rest_lt hLast
                apply ih between next (by omega)
                rw [hTakes.ending_eq]
                exact hEnding
          rcases hRest with ⟨upload', bucket', hRest⟩
          refine ⟨upload', bucket', ?_⟩
          rw [uploadObjects, if_neg (by simp [hEnded])]
          exact Exchange.succeeds_bind hObject hRest

/- An upload of a source that does not fail can succeed. -/
theorem uploadChunked_succeeds
    (hEnding : source.ending ≠ .other) :
    ∃ bucket',
      Exchange.Succeeds
        (uploadChunked layout sha256 baseKey source) bucket ()
        bucket' := by
  rcases uploadObjects_succeeds layout sha256 baseKey bucket
      { source := source
        objectIndex := 1
        objectSpans := []
        uploadedKeys := []
        totalSize := 0
        sourceEnded := false }
      (Nat.lt_succ_self _) hEnding with
    ⟨upload, uploaded, hObjects⟩
  exact
    ⟨_, Exchange.succeeds_bind hObjects
      (Exchange.succeeds_onFailure
        (putObject_succeeds .manifestFailed _))⟩

/-
  A save can succeed when its source ends, or fails with the
  error that reads like an end anywhere but right after a full
  first part.
-/
theorem saveFile_succeeds
    (layout : PartLayout)
    (sha256 : Bytes → String)
    (keyPrefix fileName : String)
    (bucket : Bucket)
    {file : Source}
    (hEnding :
      file.ending = .eof ∨
        file.ending = .unexpectedEOF ∧
          file.rest.length ≠ layout.innerPartSize) :
    ∃ bucket',
      Exchange.Succeeds
        (saveFile layout sha256 keyPrefix fileName file)
        bucket () bucket' := by
  have hOther : file.ending ≠ .other := by
    rcases hEnding with hEof | ⟨hUnexpected, _⟩
    · rw [hEof]
      simp
    · rw [hUnexpected]
      simp
  have hClient :
      Exchange.Succeeds (getClient SaveError.clientFailed)
        bucket () bucket :=
    Exchange.succeeds_request rfl
  have hRest :
      ∃ bucket',
        Exchange.Succeeds
          (saveFileContent layout sha256
            (buildObjectKey keyPrefix fileName) file)
          bucket () bucket' := by
    rw [saveFileContent_eq]
    by_cases hFew : file.rest.length < layout.innerPartSize
    · simp only [hFew, hOther, if_true, if_false]
      exact ⟨_, putObject_succeeds .uploadFailed file.rest⟩
    by_cases hFull : file.rest.length = layout.innerPartSize
    · have hEof : file.ending = .eof := by
        rcases hEnding with hEof | ⟨_, hNotFull⟩
        · exact hEof
        · exact absurd hFull hNotFull
      rw [if_neg hFew, if_pos hFull, if_pos hEof]
      exact ⟨_, putObject_succeeds .uploadFailed file.rest⟩
    · simp only [hFew, hFull, if_false]
      exact uploadChunked_succeeds hOther
  rcases hRest with ⟨bucket', hRest⟩
  exact
    ⟨bucket', Exchange.succeeds_bind
      (Exchange.succeeds_checkCancelled _ bucket)
      (Exchange.succeeds_bind hClient hRest)⟩

end S3

end Storages

end Databasus
