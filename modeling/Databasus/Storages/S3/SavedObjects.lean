import Databasus.Storages.S3.SaveFile

/-
  What a save that succeeds leaves in the bucket.

  The bytes that the source gave lie in the plain object, or
  in the objects of the manifest one after another.  The proof
  carries two invariants: the open upload assembles to what
  was hashed, and the completed objects spell what was read
  before.

  Main declarations:
    * `HoldsSpan`
    * `SpelledBy`
    * `FillSound`
    * `fillObject_done`
    * `UploadSound`
    * `saveFile_done`
-/

------------------------------------------------------------
-- Spelled Content
------------------------------------------------------------

namespace Databasus

namespace Storages

namespace S3

open Foundation Iox

variable {spans : List ObjectSpan}
variable {span : ObjectSpan}
variable {content : Bytes}

/- The object of the span is stored, and is what it says. -/
structure HoldsSpan
    (bucket : Bucket)
    (sha256 : Bytes → String)
    (isChecked : Bool)
    (span : ObjectSpan)
    (content : Bytes) : Prop where
  stored : bucket.find span.key = some content
  size_eq : span.size = content.length
  checksum_eq :
    isChecked = true → span.sha256 = sha256 content

/- The objects of the spans, one after another. -/
inductive SpelledBy
    (bucket : Bucket)
    (sha256 : Bytes → String)
    (isChecked : Bool) : List ObjectSpan → Bytes → Prop
  | nil : SpelledBy bucket sha256 isChecked [] []
  | cons
      {span : ObjectSpan}
      {spans : List ObjectSpan}
      {own later : Bytes} :
      HoldsSpan bucket sha256 isChecked span own →
      SpelledBy bucket sha256 isChecked spans later →
      SpelledBy bucket sha256 isChecked (span :: spans)
        (own ++ later)

variable {bucket bucket' : Bucket}
variable {sha256 : Bytes → String}
variable {isChecked : Bool}

theorem SpelledBy.snoc
    {content own : Bytes}
    (hSpans :
      SpelledBy bucket sha256 isChecked spans content)
    (hSpan : HoldsSpan bucket sha256 isChecked span own) :
    SpelledBy bucket sha256 isChecked (spans ++ [span])
      (content ++ own) := by
  induction hSpans with
  | nil =>
      have hLast := SpelledBy.cons hSpan SpelledBy.nil
      simpa using hLast
  | cons hFirst _ ih =>
      rw [List.append_assoc]
      exact SpelledBy.cons hFirst ih

/- Objects under other keys do not matter. -/
theorem SpelledBy.congr
    (hSpans :
      SpelledBy bucket sha256 isChecked spans content)
    (hSame :
      ∀ span ∈ spans,
        bucket'.find span.key = bucket.find span.key) :
    SpelledBy bucket' sha256 isChecked spans content := by
  induction hSpans with
  | nil => exact SpelledBy.nil
  | @cons span spans own later hFirst _ ih =>
      have hStored : bucket'.find span.key = some own := by
        rw [hSame span List.mem_cons_self]
        exact hFirst.stored
      refine SpelledBy.cons ⟨hStored, hFirst.size_eq,
        hFirst.checksum_eq⟩ ?_
      apply ih
      intro other hOther
      exact hSame other (List.mem_cons_of_mem span hOther)

theorem SpelledBy.find_ne_none
    (hSpans :
      SpelledBy bucket sha256 isChecked spans content)
    (hMember : span ∈ spans) :
    bucket.find span.key ≠ none := by
  induction hSpans with
  | nil => exact absurd hMember List.not_mem_nil
  | cons hFirst _ ih =>
      rcases List.mem_cons.mp hMember with rfl | hLater
      · rw [hFirst.stored]
        simp
      · exact ih hLater

------------------------------------------------------------
-- Filling an Object
------------------------------------------------------------

variable {partData : Bytes}

/- The open upload assembles to what was hashed. -/
structure FillSound
    (bucket : Bucket)
    (objectKey : String)
    (uploadID partNumber : Nat)
    (fill : ObjectFill) : Prop where
  assembled :
    ∃ upload,
      bucket.findUpload objectKey uploadID = some upload ∧
        upload.assemble fill.parts = some fill.hashed
  numbered : ∀ number ∈ fill.parts, number < partNumber
  size_eq : fill.objectSize = fill.hashed.length

/- What filling an object takes from the source. -/
structure FillTakes
    (innerPartSize room : Nat)
    (fill fill' : ObjectFill)
    (data : Bytes) : Prop where
  rest_eq : fill.source.rest = data ++ fill'.source.rest
  hashed_eq : fill'.hashed = fill.hashed ++ data
  ending_eq : fill'.source.ending = fill.source.ending
  ended :
    fill'.sourceEnded = true →
      fill'.source.rest = [] ∧ fill.source.ending ≠ .other
  full :
    fill'.sourceEnded = false →
      data.length = room * innerPartSize

variable {objectKey : String}
variable {uploadID partNumber innerPartSize room : Nat}
variable {fill fill' : ObjectFill}
variable {session session' : Session Bucket}

/- A new upload has no parts, and nothing was hashed. -/
theorem fillSound_initiate
    (bucket : Bucket)
    (objectKey : String)
    (upload : ChunkedUpload) :
    FillSound (bucket.initiate objectKey) objectKey
      bucket.nextUploadID 1 upload.newFill := by
  refine
    ⟨⟨_, Bucket.findUpload_initiate objectKey, rfl⟩, ?_, rfl⟩
  intro number hMember
  exact absurd hMember List.not_mem_nil

theorem putObjectPart_done
    (hDone :
      putObjectPart objectKey uploadID partNumber partData
          session =
        (.done (), session')) :
    session'.world =
      session.world.putPart objectKey uploadID partNumber
        partData := by
  rcases Exchange.request_done.mp hDone with ⟨_, hEffect⟩
  simp only [Option.map_eq_some_iff, Prod.mk.injEq,
    and_true] at hEffect
  rcases hEffect with ⟨_, _, hWorld⟩
  exact hWorld.symm

theorem putInnerPart_done :
    putInnerPart objectKey uploadID partNumber partData fill
          session =
        (.done fill', session') ↔
      putObjectPart objectKey uploadID partNumber partData
            session =
          (.done (), session') ∧
        fill' =
          { fill with
            hashed := fill.hashed ++ partData
            parts := fill.parts ++ [partNumber] } := by
  simp only [putInnerPart, Exchange.bind_done,
    Exchange.pure_done]
  constructor
  · rintro ⟨_, _, hPut, rfl, rfl⟩
    exact ⟨hPut, rfl⟩
  · rintro ⟨hPut, rfl⟩
    exact ⟨(), session', hPut, rfl, rfl⟩

/- A part that was put is part of what is assembled. -/
theorem FillSound.put
    {bucket : Bucket}
    (partData : Bytes)
    (hSound :
      FillSound bucket objectKey uploadID partNumber fill) :
    FillSound
      (bucket.putPart objectKey uploadID partNumber partData)
      objectKey uploadID (partNumber + 1)
      { fill with
        hashed := fill.hashed ++ partData
        parts := fill.parts ++ [partNumber]
        objectSize :=
          fill.objectSize + partData.length } := by
  have hNew : partNumber ∉ fill.parts := by
    intro hMember
    exact absurd (hSound.numbered partNumber hMember)
      (Nat.lt_irrefl partNumber)
  rcases hSound.assembled with ⟨upload, hUpload, hAssembled⟩
  refine ⟨⟨upload.putPart partNumber partData,
    Bucket.findUpload_putPart partNumber partData hUpload,
    ?_⟩, ?_, ?_⟩
  · apply MultipartUpload.assemble_append
    · rw [MultipartUpload.assemble_putPart_of_notMem
        partData hNew]
      exact hAssembled
    · exact
        MultipartUpload.assemble_putPart_self partNumber
          partData
  · intro number hMember
    rcases List.mem_append.mp hMember with hOld | hLast
    · exact Nat.lt_succ_of_lt (hSound.numbered number hOld)
    · rw [List.mem_singleton.mp hLast]
      exact Nat.lt_succ_self partNumber
  · have hSize := hSound.size_eq
    simp only [List.length_append]
    omega

/- How a round that has room for a part goes on. -/
theorem fillObject_succ_done
    (hDone :
      fillObject innerPartSize objectKey uploadID (room + 1)
          partNumber fill session =
        (.done fill', session')) :
    ∃ between : Session Bucket,
      between.world = session.world ∧
      ∃ partData readErr source,
        fill.source.readFull innerPartSize =
            (partData, readErr, source) ∧
          readErr ≠ some .other ∧
          (partData = [] ∧ readErr = some .eof ∧
              fill' =
                { fill with
                  source := source
                  sourceEnded := true } ∧
              between = session' ∨
            ∃ after,
              putObjectPart objectKey uploadID partNumber
                    partData between =
                  (.done (), after) ∧
                (readErr ≠ none ∧ after = session' ∧
                    fill' =
                      { fill with
                        source := source
                        hashed := fill.hashed ++ partData
                        parts := fill.parts ++ [partNumber]
                        objectSize :=
                          fill.objectSize + partData.length
                        sourceEnded := true } ∨
                  readErr = none ∧
                    fillObject innerPartSize objectKey
                        uploadID room (partNumber + 1)
                        { fill with
                          source := source
                          hashed := fill.hashed ++ partData
                          parts :=
                            fill.parts ++ [partNumber]
                          objectSize :=
                            fill.objectSize +
                              partData.length }
                        after =
                      (.done fill', session'))) := by
  rw [fillObject, Exchange.bind_done] at hDone
  rcases hDone with ⟨_, between, hCheck, hDone⟩
  have hWorld := Exchange.checkCancelled_done hCheck
  rcases hRead : fill.source.readFull innerPartSize with
    ⟨partData, readErr, source⟩
  rw [hRead] at hDone
  refine ⟨between, hWorld, partData, readErr, source, rfl, ?_⟩
  simp only at hDone
  split at hDone
  · exact absurd hDone Exchange.fail_done
  · next hReadable =>
      refine ⟨hReadable, ?_⟩
      split at hDone
      · next hEnd =>
          rcases Exchange.pure_done.mp hDone with ⟨hFill, hSame⟩
          exact Or.inl ⟨hEnd.1, hEnd.2, hFill.symm, hSame⟩
      · rcases Exchange.bind_done.mp hDone with
          ⟨put, after, hPut, hDone⟩
        rcases putInnerPart_done.mp hPut with ⟨hPart, rfl⟩
        refine Or.inr ⟨after, hPart, ?_⟩
        split at hDone
        · next hShort =>
            rcases Exchange.pure_done.mp hDone with
              ⟨hFill, hSame⟩
            refine Or.inl ⟨?_, hSame, hFill.symm⟩
            rintro rfl
            simp at hShort
        · next hLong =>
            refine Or.inr ⟨?_, hDone⟩
            match readErr with
            | none => rfl
            | some .eof => simp at hLong
            | some .unexpectedEOF => simp at hLong
            | some .other => exact absurd rfl hReadable

/-
  The parts of the object are what the source gave meanwhile.
-/
theorem fillObject_done
    (hSound :
      FillSound session.world objectKey uploadID partNumber
        fill)
    (hRunning : fill.sourceEnded = false)
    (hDone :
      fillObject innerPartSize objectKey uploadID room
          partNumber fill session =
        (.done fill', session')) :
    (∃ next,
        FillSound session'.world objectKey uploadID next
          fill') ∧
      (∃ data,
        FillTakes innerPartSize room fill fill' data) ∧
      ∀ key,
        session'.world.find key = session.world.find key := by
  induction room generalizing partNumber fill session with
  | zero =>
      rcases Exchange.pure_done.mp hDone with ⟨rfl, rfl⟩
      refine ⟨⟨partNumber, hSound⟩, ⟨[], ?_⟩, fun _ => rfl⟩
      exact
        { rest_eq := rfl
          hashed_eq := (List.append_nil _).symm
          ending_eq := rfl
          ended := by simp [hRunning]
          full := by simp }
  | succ room ih =>
      rcases fillObject_succ_done hDone with
        ⟨between, hWorld, partData, readErr, source, hRead,
          hReadable, hRest⟩
      have hTaken :=
        Source.readFull_append fill.source innerPartSize
      have hEnding :=
        Source.readFull_ending fill.source innerPartSize
      rw [hRead] at hTaken hEnding
      simp only at hTaken hEnding
      have hShort :
          readErr ≠ none →
            source.rest = [] ∧ fill.source.ending ≠ .other := by
        intro hSome
        rcases Option.ne_none_iff_exists'.mp hSome with
          ⟨cause, rfl⟩
        have hCause :
            (fill.source.readFull innerPartSize).2.1 =
              some cause := by
          rw [hRead]
        have hEnd := Source.readFull_short hCause
        rw [hRead] at hEnd
        refine ⟨hEnd.1, ?_⟩
        rintro hOther
        rcases hEnd.2 with hSame | ⟨hEof, _⟩
        · exact hReadable (by rw [hSame, hOther])
        · rw [hOther] at hEof
          cases hEof
      rw [← hWorld] at hSound
      rcases hRest with
        ⟨rfl, hEof, rfl, rfl⟩ | ⟨after, hPut, hRest⟩
      · refine ⟨⟨partNumber, ?_⟩, ⟨[], ?_⟩, ?_⟩
        · exact
            ⟨hSound.assembled, hSound.numbered,
              hSound.size_eq⟩
        · have hEnd := hShort (by rw [hEof]; simp)
          exact
            { rest_eq := hTaken.symm
              hashed_eq := (List.append_nil _).symm
              ending_eq := hEnding
              ended := fun _ => hEnd
              full := by simp }
        · intro key
          rw [hWorld]
      · have hAfter := putObjectPart_done hPut
        have hNext := hSound.put partData
        rw [← hAfter] at hNext
        have hFind :
            ∀ key,
              after.world.find key =
                session.world.find key := by
          intro key
          rw [hAfter, Bucket.find_putPart, hWorld]
        rcases hRest with
          ⟨hEnded, rfl, rfl⟩ | ⟨hFull, hDone⟩
        · refine ⟨⟨partNumber + 1, ?_⟩, ⟨partData, ?_⟩, hFind⟩
          · exact
              ⟨hNext.assembled, hNext.numbered,
                hNext.size_eq⟩
          · exact
              { rest_eq := hTaken.symm
                hashed_eq := rfl
                ending_eq := hEnding
                ended := fun _ => hShort hEnded
                full := by simp }
        · have hFill :
              FillSound after.world objectKey uploadID
                (partNumber + 1)
                { fill with
                  source := source
                  hashed := fill.hashed ++ partData
                  parts := fill.parts ++ [partNumber]
                  objectSize :=
                    fill.objectSize + partData.length } :=
            ⟨hNext.assembled, hNext.numbered, hNext.size_eq⟩
          rcases ih hFill hRunning hDone with
            ⟨hSound', ⟨data, hTakes⟩, hSame⟩
          refine ⟨hSound', ⟨partData ++ data, ?_⟩, ?_⟩
          · have hRestEq := hTakes.rest_eq
            have hHashed := hTakes.hashed_eq
            have hEnds := hTakes.ending_eq
            simp only at hRestEq hHashed hEnds
            refine
              { rest_eq := ?_
                hashed_eq := ?_
                ending_eq := ?_
                ended := ?_
                full := ?_ }
            · rw [← hTaken, hRestEq, List.append_assoc]
            · rw [hHashed, List.append_assoc]
            · rw [hEnds, hEnding]
            · intro hEnded
              have hEnd := hTakes.ended hEnded
              simp only [hEnding] at hEnd
              exact hEnd
            · intro hOpen
              have hFilled :
                  (fill.source.readFull innerPartSize).2.1 =
                    none := by
                rw [hRead, hFull]
              have hPart := Source.readFull_full hFilled
              rw [hRead] at hPart
              simp only at hPart
              rw [List.length_append, hPart,
                hTakes.full hOpen, Nat.succ_mul, Nat.add_comm]
          · intro key
            rw [hSame key, hFind key]

/- An object without parts found the source at its end. -/
theorem FillTakes.ends_of_no_parts
    {bucket : Bucket}
    {data : Bytes}
    (hTakes :
      FillTakes innerPartSize room fill fill' data)
    (hFilled :
      FillSound bucket objectKey uploadID partNumber fill')
    (hFresh : fill.hashed = [])
    (hEmpty : fill'.parts = [])
    (hRoom : 0 < room * innerPartSize) :
    data = [] ∧ fill'.sourceEnded = true := by
  rcases hFilled.assembled with ⟨_, _, hAssembled⟩
  rw [hEmpty, hTakes.hashed_eq, hFresh,
    List.nil_append] at hAssembled
  have hNone : data = [] := (Option.some.inj hAssembled).symm
  refine ⟨hNone, ?_⟩
  by_contra hOpen
  have hFull := hTakes.full (by simpa using hOpen)
  rw [hNone, List.length_nil] at hFull
  omega

------------------------------------------------------------
-- Chunked Files
------------------------------------------------------------

variable {layout : PartLayout}
variable {baseKey : String}
variable {upload upload' : ChunkedUpload}
variable {written : Bytes}

/- The completed objects spell what was written so far. -/
structure UploadSound
    (bucket : Bucket)
    (sha256 : Bytes → String)
    (baseKey : String)
    (upload : ChunkedUpload)
    (written : Bytes) : Prop where
  spelled :
    SpelledBy bucket sha256 true upload.objectSpans written
  numbered :
    ∀ span ∈ upload.objectSpans,
      ∃ index < upload.objectIndex,
        span.key = partObjectKey baseKey index

theorem completeMultipartUpload_done
    {uploadID : Nat}
    {parts : List Nat}
    (hDone :
      completeMultipartUpload objectKey uploadID parts
          session =
        (.done (), session')) :
    ∃ upload content,
      session.world.findUpload objectKey uploadID =
          some upload ∧
        upload.assemble parts = some content ∧
        session'.world =
          (session.world.put objectKey content).abort
            objectKey uploadID := by
  rcases Exchange.request_done.mp hDone with ⟨_, hEffect⟩
  simp only [Option.bind_eq_bind, Option.bind_eq_some_iff,
    Option.some.injEq, Prod.mk.injEq, and_true] at hEffect
  rcases hEffect with
    ⟨upload, hUpload, content, hContent, hWorld⟩
  exact ⟨upload, content, hUpload, hContent, hWorld.symm⟩

/- Giving up an upload touches no object. -/
theorem find_after_abort
    (objectKey : String)
    (uploadID : Nat)
    (key : String)
    (content : Option Bytes) :
    Exchange.Keeps
      (fun world : Bucket => world.find key = content)
      (abortMultipartUpload SaveError.abortFailed objectKey
        uploadID) := by
  apply Exchange.keeps_request
  intro world world' _ hSame hEffect
  simp only [Option.map_eq_some_iff, Prod.mk.injEq] at hEffect
  rcases hEffect with ⟨_, _, rfl, _⟩
  rw [Bucket.find_abort, hSame]

/- Where the next object goes on after this one. -/
theorem completeObject_next
    {uploadID : Nat}
    {fill : ObjectFill}
    (hDone :
      completeObject sha256 objectKey uploadID fill upload
          session =
        (.done upload', session')) :
    upload'.source = fill.source ∧
      upload'.sourceEnded = fill.sourceEnded ∧
      upload'.objectIndex = upload.objectIndex + 1 := by
  simp only [completeObject, Exchange.bind_done,
    Exchange.pure_done] at hDone
  rcases hDone with ⟨_, _, _, rfl, _⟩
  exact ⟨rfl, rfl, rfl⟩

/- The object of the round joins the ones before it. -/
theorem UploadSound.complete
    {uploadID next : Nat}
    {fill : ObjectFill}
    (hSound :
      UploadSound session.world sha256 baseKey upload written)
    (hFill :
      FillSound session.world
        (partObjectKey baseKey upload.objectIndex) uploadID
        next fill)
    (hDone :
      completeObject sha256
          (partObjectKey baseKey upload.objectIndex) uploadID
          fill upload session =
        (.done upload', session')) :
    UploadSound session'.world sha256 baseKey upload'
      (written ++ fill.hashed) := by
  simp only [completeObject, Exchange.bind_done,
    Exchange.onFailure_done, Exchange.pure_done] at hDone
  rcases hDone with ⟨_, after, hComplete, rfl, rfl⟩
  rcases completeMultipartUpload_done hComplete with
    ⟨open', content, hOpen, hContent, hWorld⟩
  rcases hFill.assembled with ⟨found, hFound, hAssembled⟩
  have hHashed : content = fill.hashed := by
    rw [hOpen] at hFound
    cases hFound
    rw [hContent] at hAssembled
    exact Option.some.inj hAssembled
  subst hHashed
  have hOthers :
      ∀ span ∈ upload.objectSpans,
        after.world.find span.key =
          session.world.find span.key := by
    intro span hMember
    rcases hSound.numbered span hMember with
      ⟨index, hIndex, hKey⟩
    rw [hWorld, Bucket.find_abort]
    apply Bucket.find_put_of_ne
    rw [hKey]
    intro hSame
    have hIndices := partObjectKey_injective baseKey hSame
    omega
  refine ⟨?_, ?_⟩
  · apply (hSound.spelled.congr hOthers).snoc
    exact
      { stored := by
          rw [hWorld, Bucket.find_abort, Bucket.find_put_self]
        size_eq := hFill.size_eq
        checksum_eq := fun _ => rfl }
  · intro span hMember
    rcases List.mem_append.mp hMember with hOld | hLast
    · rcases hSound.numbered span hOld with
        ⟨index, hIndex, hKey⟩
      exact ⟨index, Nat.lt_succ_of_lt hIndex, hKey⟩
    · rw [List.mem_singleton.mp hLast]
      exact ⟨upload.objectIndex, Nat.lt_succ_self _, rfl⟩

/- What the upload of an object takes from the source. -/
structure ObjectTakes
    (layout : PartLayout)
    (upload upload' : ChunkedUpload)
    (data : Bytes) : Prop where
  rest_eq : upload.source.rest = data ++ upload'.source.rest
  ending_eq : upload'.source.ending = upload.source.ending
  ended :
    upload'.sourceEnded = true →
      upload'.source.rest = [] ∧
        upload.source.ending ≠ .other
  full :
    upload'.sourceEnded = false →
      data.length =
        layout.maxPartsPerObject * layout.innerPartSize
  index_eq :
    upload'.sourceEnded = false →
      upload'.objectIndex = upload.objectIndex + 1

/- One more object spells what the source gave for it. -/
theorem uploadObject_done
    (hRunning : upload.sourceEnded = false)
    (hDone :
      uploadObject layout sha256 baseKey upload session =
        (.done upload', session')) :
    ∃ data, ObjectTakes layout upload upload' data ∧
      ∀ written,
        UploadSound session.world sha256 baseKey upload
            written →
          UploadSound session'.world sha256 baseKey upload'
            (written ++ data) := by
  simp only [uploadObject, Exchange.bind_done,
    Exchange.onFailure_done] at hDone
  rcases hDone with
    ⟨uploadID, started, hStart, fill, filled, hFill, hDone⟩
  rcases Exchange.request_done.mp hStart with ⟨_, hEffect⟩
  simp only [Option.some.injEq, Prod.mk.injEq] at hEffect
  rcases hEffect with ⟨hStarted, rfl⟩
  have hFresh :=
    fillSound_initiate session.world
      (partObjectKey baseKey upload.objectIndex) upload
  rw [hStarted] at hFresh
  rcases fillObject_done hFresh hRunning hFill with
    ⟨⟨next, hFilled⟩, ⟨data, hTakes⟩, hFind⟩
  have hHashed : fill.hashed = data := hTakes.hashed_eq
  have hFindSession :
      ∀ key,
        filled.world.find key = session.world.find key := by
    intro key
    rw [hFind key, ← hStarted, Bucket.find_initiate]
  have hBefore :
      ∀ written,
        UploadSound session.world sha256 baseKey upload
            written →
          UploadSound filled.world sha256 baseKey upload
            written :=
    fun written hSound =>
      ⟨hSound.spelled.congr fun span _ =>
        hFindSession span.key, hSound.numbered⟩
  split at hDone
  · next hEmpty =>
      -- No part was put: the source ended on the boundary.
      simp only [Exchange.bind_done,
        Exchange.pure_done] at hDone
      rcases hDone with ⟨_, after, hAbort, rfl, rfl⟩
      rcases hTakes.ends_of_no_parts hFilled rfl hEmpty
          (Nat.mul_pos layout.maxPartsPerObject_pos
            layout.innerPartSize_pos) with
        ⟨hNone, hEnded⟩
      have hAfter :
          ∀ key,
            after.world.find key =
              filled.world.find key := by
        intro key
        have hKept :=
          Exchange.keeps_ignoreFailure
            (find_after_abort
              (partObjectKey baseKey upload.objectIndex)
              session.world.nextUploadID key
              (filled.world.find key))
            filled rfl
        rw [hAbort] at hKept
        exact hKept
      refine ⟨data, ?_, ?_⟩
      · exact
          { rest_eq := hTakes.rest_eq
            ending_eq := hTakes.ending_eq
            ended := fun _ => hTakes.ended hEnded
            full := fun hOpen => by cases hOpen
            index_eq := fun hOpen => by cases hOpen }
      · intro written hSound
        have hFilledSound := hBefore written hSound
        rw [hNone, List.append_nil]
        exact
          ⟨hFilledSound.spelled.congr fun span _ =>
            hAfter span.key, hFilledSound.numbered⟩
  · rcases completeObject_next hDone with
      ⟨hSource, hEnded, hIndex⟩
    refine ⟨data, ?_, ?_⟩
    · exact
        { rest_eq := by
            rw [hSource]
            exact hTakes.rest_eq
          ending_eq := by
            rw [hSource]
            exact hTakes.ending_eq
          ended := fun hLast => by
            rw [hEnded] at hLast
            rw [hSource]
            exact hTakes.ended hLast
          full := fun hOpen => by
            rw [hEnded] at hOpen
            exact hTakes.full hOpen
          index_eq := fun _ => hIndex }
    · intro written hSound
      have hJoined :=
        (hBefore written hSound).complete hFilled hDone
      rw [hHashed] at hJoined
      exact hJoined

theorem uploadObjects_of_ended
    (fuel : Nat)
    (hEnded : upload.sourceEnded = true) :
    uploadObjects layout sha256 baseKey fuel upload =
      pure upload := by
  cases fuel with
  | zero => rw [uploadObjects, if_pos hEnded]
  | succ fuel => rw [uploadObjects, if_pos hEnded]

/-
  When the loop ends, the objects spell the whole source, and
  the source did not fail.
-/
theorem uploadObjects_done
    {fuel : Nat}
    (hSound :
      UploadSound session.world sha256 baseKey upload written)
    (hEnded :
      upload.sourceEnded = true →
        upload.source.rest = [] ∧
          upload.source.ending ≠ .other)
    (hDone :
      uploadObjects layout sha256 baseKey fuel upload session =
        (.done upload', session')) :
    UploadSound session'.world sha256 baseKey upload'
        (written ++ upload.source.rest) ∧
      upload.source.ending ≠ .other := by
  induction fuel generalizing upload session written with
  | zero =>
      rw [uploadObjects] at hDone
      split at hDone
      · next hOver =>
          rcases Exchange.pure_done.mp hDone with ⟨rfl, rfl⟩
          rcases hEnded hOver with ⟨hRest, hEnding⟩
          rw [hRest, List.append_nil]
          exact ⟨hSound, hEnding⟩
      · exact absurd hDone Exchange.diverge_done
  | succ fuel ih =>
      rw [uploadObjects] at hDone
      split at hDone
      · next hOver =>
          rcases Exchange.pure_done.mp hDone with ⟨rfl, rfl⟩
          rcases hEnded hOver with ⟨hRest, hEnding⟩
          rw [hRest, List.append_nil]
          exact ⟨hSound, hEnding⟩
      · next hRunning =>
          rcases Exchange.bind_done.mp hDone with
            ⟨next, between, hObject, hDone⟩
          rcases uploadObject_done
              (by simpa using hRunning) hObject with
            ⟨data, hTakes, hNext⟩
          have hLater :
              next.sourceEnded = true →
                next.source.rest = [] ∧
                  next.source.ending ≠ .other := by
            intro hOver
            rw [hTakes.ending_eq]
            exact hTakes.ended hOver
          rcases ih (hNext written hSound) hLater hDone with
            ⟨hAll, hOther⟩
          rw [hTakes.rest_eq, ← List.append_assoc]
          rw [hTakes.ending_eq] at hOther
          exact ⟨hAll, hOther⟩

theorem putObject_done
    {error : SaveError}
    {data : Bytes}
    (hDone :
      putObject error objectKey data session =
        (.done (), session')) :
    session'.world = session.world.put objectKey data := by
  rcases Exchange.request_done.mp hDone with ⟨_, hEffect⟩
  simp only [Option.some.injEq, Prod.mk.injEq,
    and_true] at hEffect
  exact hEffect.symm

/- A chunked file is the one that its manifest describes. -/
theorem uploadChunked_done
    {source : Source}
    (hDone :
      uploadChunked layout sha256 baseKey source session =
        (.done (), session')) :
    (∃ manifest,
        session'.world.find (manifestObjectKey baseKey) =
            some (marshalManifest manifest) ∧
          SpelledBy session'.world sha256 true manifest.parts
            source.rest) ∧
      source.ending ≠ .other := by
  simp only [uploadChunked, Exchange.bind_done,
    Exchange.onFailure_done, writeManifest] at hDone
  rcases hDone with ⟨upload, uploaded, hObjects, hManifest⟩
  have hStart :
      UploadSound session.world sha256 baseKey
        { source := source
          objectIndex := 1
          objectSpans := []
          uploadedKeys := []
          totalSize := 0
          sourceEnded := false } [] :=
    ⟨SpelledBy.nil, fun _ hMember =>
      absurd hMember List.not_mem_nil⟩
  rcases uploadObjects_done hStart (by simp) hObjects with
    ⟨hSound, hEnding⟩
  have hWorld := putObject_done hManifest
  have hSpelled := hSound.spelled
  simp only [List.nil_append] at hSpelled
  refine
    ⟨⟨{ version := manifestVersion
        totalSize := upload.totalSize
        parts := upload.objectSpans },
      ?_, hSpelled.congr ?_⟩, hEnding⟩
  · rw [hWorld, Bucket.find_put_self]
  · intro span hMember
    rcases hSound.numbered span hMember with ⟨index, _, hKey⟩
    rw [hWorld, hKey]
    apply Bucket.find_put_of_ne
    exact
      partObjectKey_ne_manifestObjectKey baseKey baseKey index

------------------------------------------------------------
-- Saved Files
------------------------------------------------------------

variable {keyPrefix fileName : String}
variable {file : Source}

/- No object is stored for the file yet. -/
structure Bucket.IsUnused
    (bucket : Bucket)
    (baseKey : String) : Prop where
  plain : bucket.find baseKey = none
  manifest : bucket.find (manifestObjectKey baseKey) = none
  parts :
    ∀ index, bucket.find (partObjectKey baseKey index) = none

/- Where the content of a file lies. -/
inductive StoresFile
    (bucket : Bucket)
    (sha256 : Bytes → String)
    (baseKey : String)
    (content : Bytes) : Prop
  | plain :
      bucket.find baseKey = some content →
      bucket.find (manifestObjectKey baseKey) = none →
      StoresFile bucket sha256 baseKey content
  | chunked
      (manifest : ChunkedManifest) :
      bucket.find (manifestObjectKey baseKey) =
        some (marshalManifest manifest) →
      SpelledBy bucket sha256 true manifest.parts content →
      StoresFile bucket sha256 baseKey content

theorem manifestObjectKey_ne
    (baseKey : String) :
    manifestObjectKey baseKey ≠ baseKey := by
  intro hSame
  have hLengths := congrArg (fun key => key.toList.length) hSame
  simp [manifestObjectKey, manifestSuffix] at hLengths

/- A plain object does not touch the manifest. -/
theorem storesFile_of_putObject
    {error : SaveError}
    {data : Bytes}
    (hUnused :
      session.world.find (manifestObjectKey baseKey) = none)
    (hDone :
      putObject error baseKey data session =
        (.done (), session')) :
    StoresFile session'.world sha256 baseKey data := by
  have hWorld := putObject_done hDone
  rw [hWorld]
  apply StoresFile.plain
  · exact Bucket.find_put_self baseKey data
  · rw [Bucket.find_put_of_ne data
      (manifestObjectKey_ne baseKey)]
    exact hUnused

theorem getClient_done
    {ε : Type}
    {error : ε}
    (hDone : getClient error session = (.done (), session')) :
    session'.world = session.world := by
  rcases Exchange.request_done.mp hDone with ⟨_, hEffect⟩
  simp only [Option.some.injEq, Prod.mk.injEq,
    and_true] at hEffect
  exact hEffect.symm

/-
  How a save that succeeds went: as one object, or in chunks.
-/
theorem saveFile_cases
    (hDone :
      saveFile layout sha256 keyPrefix fileName file session =
        (.done (), session')) :
    ∃ connected : Session Bucket,
      connected.world = session.world ∧
        (uploadSingleObject
                (buildObjectKey keyPrefix fileName) file.rest
                connected =
              (.done (), session') ∧
            (file.rest.length < layout.innerPartSize ∧
                file.ending ≠ .other ∨
              file.rest.length = layout.innerPartSize ∧
                file.ending = .eof) ∨
          layout.innerPartSize < file.rest.length ∧
            uploadChunked layout sha256
                (buildObjectKey keyPrefix fileName) file
                connected =
              (.done (), session')) := by
  simp only [saveFile, Exchange.bind_done] at hDone
  rcases hDone with
    ⟨_, checked, hCheck, _, connected, hClient, hDone⟩
  refine ⟨connected, (getClient_done hClient).trans
    (Exchange.checkCancelled_done hCheck), ?_⟩
  rw [saveFileContent_eq] at hDone
  split at hDone
  · next hFew =>
      split at hDone
      · exact absurd hDone Exchange.fail_done
      · next hOther =>
          exact Or.inl ⟨hDone, Or.inl ⟨hFew, hOther⟩⟩
  next hEnough =>
  split at hDone
  · next hFull =>
      split at hDone
      · next hEof => exact Or.inl ⟨hDone, Or.inr ⟨hFull, hEof⟩⟩
      · exact absurd hDone Exchange.fail_done
  · next hLonger => exact Or.inr ⟨by omega, hDone⟩

/-
  A save that succeeds stores what the source gave.  The
  source ended: at its end, or with the error that reads like
  one, though not right after a full first part.
-/
theorem saveFile_done
    (hUnused :
      session.world.IsUnused
        (buildObjectKey keyPrefix fileName))
    (hDone :
      saveFile layout sha256 keyPrefix fileName file session =
        (.done (), session')) :
    StoresFile session'.world sha256
        (buildObjectKey keyPrefix fileName) file.rest ∧
      file.ending ≠ .other ∧
      (file.ending = .unexpectedEOF →
        file.rest.length ≠ layout.innerPartSize) := by
  rcases saveFile_cases hDone with
    ⟨connected, hWorld, ⟨hSingle, hEnding⟩ | ⟨hLong, hChunked⟩⟩
  · have hManifest := hUnused.manifest
    rw [← hWorld] at hManifest
    refine ⟨storesFile_of_putObject hManifest hSingle, ?_⟩
    rcases hEnding with ⟨hShort, hOther⟩ | ⟨_, hEof⟩
    · exact ⟨hOther, fun _ => Nat.ne_of_lt hShort⟩
    · rw [hEof]
      simp
  · rcases uploadChunked_done hChunked with
      ⟨⟨manifest, hManifest, hSpelled⟩, hOther⟩
    exact
      ⟨StoresFile.chunked manifest hManifest hSpelled, hOther,
        fun _ => Nat.ne_of_gt hLong⟩

end S3

end Storages

end Databasus
