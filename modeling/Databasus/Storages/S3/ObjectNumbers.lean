import Databasus.Storages.S3.SaveRuns

/-
  Which numbered objects an upload writes.

  Every object but the last one is full, so the length of the
  stream determines how many objects there are.

  Main declarations:
    * `lastObjectIndex`
    * `uploadObjects_keys`
-/

------------------------------------------------------------
-- One Object
------------------------------------------------------------

namespace Databasus

namespace Storages

namespace S3

open Foundation Iox

/- The number of the last object that a save starts. -/
def lastObjectIndex
    (layout : PartLayout)
    (file : Source) : Nat :=
  if file.rest.length ≤ layout.innerPartSize then
    0
  else
    1 +
      file.rest.length /
        (layout.maxPartsPerObject * layout.innerPartSize)

variable {layout : PartLayout}
variable {sha256 : Bytes → String}
variable {baseKey objectKey : String}
variable {uploadID partNumber innerPartSize room : Nat}
variable {fill fill' : ObjectFill}
variable {upload upload' : ChunkedUpload}
variable {session session' : Session Bucket}

/- An object has room for so many bytes. -/
theorem fillObject_length_le
    (hDone :
      fillObject innerPartSize objectKey uploadID room
          partNumber fill session =
        (.done fill', session')) :
    fill.source.rest.length ≤
      fill'.source.rest.length + room * innerPartSize := by
  induction room generalizing partNumber fill session with
  | zero =>
      rcases Exchange.pure_done.mp hDone with ⟨rfl, _⟩
      omega
  | succ room ih =>
      rcases fillObject_succ_done hDone with
        ⟨_, _, partData, readErr, source, hRead, _, hRest⟩
      have hTaken :=
        Source.readFull_append fill.source innerPartSize
      have hPart :=
        Source.readFull_length_le fill.source innerPartSize
      rw [hRead] at hTaken hPart
      have hLengths := congrArg List.length hTaken
      rw [List.length_append] at hLengths
      simp only at hPart hLengths
      rw [Nat.succ_mul]
      rcases hRest with
        ⟨_, _, rfl, _⟩ | ⟨after, _, ⟨_, _, rfl⟩ | ⟨_, hLater⟩⟩
      · simp only
        omega
      · simp only
        omega
      · have hLess := ih hLater
        simp only at hLess
        omega

/- An object takes no more than its room from the source. -/
theorem uploadObject_length_le
    (hDone :
      uploadObject layout sha256 baseKey upload session =
        (.done upload', session')) :
    upload.source.rest.length ≤
      upload'.source.rest.length +
        layout.maxPartsPerObject * layout.innerPartSize := by
  simp only [uploadObject, Exchange.bind_done,
    Exchange.onFailure_done] at hDone
  rcases hDone with
    ⟨uploadID, started, _, fill, filled, hFill, hDone⟩
  have hLess := fillObject_length_le hFill
  split at hDone
  · simp only [Exchange.bind_done,
      Exchange.pure_done] at hDone
    rcases hDone with ⟨_, _, _, rfl, _⟩
    exact hLess
  · rw [(completeObject_next hDone).1]
    exact hLess

/-
  A round writes the object of its number, unless the source
  has nothing left.
-/
theorem uploadObject_keys
    (hRunning : upload.sourceEnded = false)
    (hDone :
      uploadObject layout sha256 baseKey upload session =
        (.done upload', session')) :
    upload.source.rest = [] ∧
        upload'.objectSpans = upload.objectSpans ∨
      upload'.objectSpans.map ObjectSpan.key =
        upload.objectSpans.map ObjectSpan.key ++
          [partObjectKey baseKey upload.objectIndex] := by
  simp only [uploadObject, Exchange.bind_done,
    Exchange.onFailure_done] at hDone
  rcases hDone with
    ⟨uploadID, started, hStart, fill, filled, hFill, hDone⟩
  split at hDone
  · next hEmpty =>
      left
      rcases Exchange.request_done.mp hStart with ⟨_, hEffect⟩
      simp only [Option.some.injEq, Prod.mk.injEq] at hEffect
      rcases hEffect with ⟨hStarted, rfl⟩
      have hFresh :=
        fillSound_initiate session.world
          (partObjectKey baseKey upload.objectIndex) upload
      rw [hStarted] at hFresh
      rcases fillObject_done hFresh hRunning hFill with
        ⟨⟨next, hFilled⟩, ⟨data, hTakes⟩, _⟩
      simp only [Exchange.bind_done,
        Exchange.pure_done] at hDone
      rcases hDone with ⟨_, _, _, rfl, _⟩
      rcases hTakes.ends_of_no_parts hFilled rfl hEmpty
          (Nat.mul_pos layout.maxPartsPerObject_pos
            layout.innerPartSize_pos) with
        ⟨hNone, hEnded⟩
      have hRest := hTakes.rest_eq
      rw [hNone, (hTakes.ended hEnded).1] at hRest
      exact ⟨hRest, rfl⟩
  · right
    simp only [completeObject, Exchange.bind_done,
      Exchange.pure_done] at hDone
    rcases hDone with ⟨_, _, _, rfl, _⟩
    simp only [List.map_append, List.map_cons, List.map_nil]

------------------------------------------------------------
-- All Objects
------------------------------------------------------------

/- The keys of so many objects, from the given number on. -/
def partObjectKeys
    (baseKey : String)
    (objectIndex count : Nat) : List String :=
  (List.range count).map fun offset =>
    partObjectKey baseKey (objectIndex + offset)

theorem partObjectKeys_succ
    (baseKey : String)
    (objectIndex count : Nat) :
    partObjectKeys baseKey objectIndex (count + 1) =
      partObjectKey baseKey objectIndex ::
        partObjectKeys baseKey (objectIndex + 1) count := by
  rw [partObjectKeys, List.range_succ_eq_map, List.map_cons,
    List.map_map]
  refine congrArg (partObjectKey baseKey objectIndex :: ·) ?_
  apply List.map_congr_left
  intro offset _
  exact congrArg (partObjectKey baseKey) (by omega)

/-
  The objects of a chunked file are numbered one after
  another.  There are as many as the bytes of the stream fill
  or begin to fill.
-/
theorem uploadObjects_keys
    {fuel : Nat}
    (hRunning : upload.sourceEnded = false)
    (hDone :
      uploadObjects layout sha256 baseKey fuel upload session =
        (.done upload', session')) :
    ∃ count,
      upload'.objectSpans.map ObjectSpan.key =
          upload.objectSpans.map ObjectSpan.key ++
            partObjectKeys baseKey upload.objectIndex count ∧
        (∀ offset < count,
          offset *
              (layout.maxPartsPerObject *
                layout.innerPartSize) ≤
            upload.source.rest.length) ∧
        upload.source.rest.length ≤
          count *
            (layout.maxPartsPerObject *
              layout.innerPartSize) := by
  induction fuel generalizing upload session with
  | zero =>
      rw [uploadObjects, if_neg (by simp [hRunning])] at hDone
      exact absurd hDone Exchange.diverge_done
  | succ fuel ih =>
      rw [uploadObjects, if_neg (by simp [hRunning]),
        Exchange.bind_done] at hDone
      rcases hDone with ⟨next, between, hObject, hDone⟩
      rcases uploadObject_done hRunning hObject with
        ⟨data, hTakes, _⟩
      have hRoom := uploadObject_length_le hObject
      have hKeys := uploadObject_keys hRunning hObject
      cases hEnded : next.sourceEnded with
      | true =>
          rw [uploadObjects_of_ended fuel hEnded] at hDone
          rcases Exchange.pure_done.mp hDone with ⟨rfl, _⟩
          rw [(hTakes.ended hEnded).1] at hRoom
          rcases hKeys with ⟨hNone, hSame⟩ | hKeys
          · refine ⟨0, ?_, ?_, ?_⟩
            · rw [hSame]
              exact (List.append_nil _).symm
            · intro offset hOffset
              exact absurd hOffset (Nat.not_lt_zero _)
            · rw [hNone]
              exact Nat.zero_le _
          · refine ⟨1, hKeys, ?_, ?_⟩
            · intro offset hOffset
              rw [Nat.lt_one_iff.mp hOffset, Nat.zero_mul]
              exact Nat.zero_le _
            · rw [Nat.one_mul]
              simpa using hRoom
      | false =>
          have hLengths := congrArg List.length hTakes.rest_eq
          rw [List.length_append, hTakes.full hEnded]
            at hLengths
          have hPositive :=
            Nat.mul_pos layout.maxPartsPerObject_pos
              layout.innerPartSize_pos
          rcases hKeys with ⟨hNone, _⟩ | hKeys
          · rw [hNone, List.length_nil] at hLengths
            omega
          rcases ih hEnded hDone with
            ⟨count, hLater, hFull, hEnough⟩
          refine ⟨count + 1, ?_, ?_, ?_⟩
          · rw [hLater, hKeys, hTakes.index_eq hEnded,
              partObjectKeys_succ, List.append_assoc,
              List.singleton_append]
          · intro offset hOffset
            cases offset with
            | zero =>
                rw [Nat.zero_mul]
                exact Nat.zero_le _
            | succ offset =>
                have hLess := hFull offset (by omega)
                rw [Nat.succ_mul]
                omega
          · rw [Nat.succ_mul]
            omega

end S3

end Storages

end Databasus
