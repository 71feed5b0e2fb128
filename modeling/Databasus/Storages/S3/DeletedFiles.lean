import Databasus.Foundation.Runs
import Databasus.Storages.S3.DeleteFile
import Databasus.Storages.S3.FailingSource
import Databasus.Storages.S3.ObjectNumbers

/-
  Deletions in a bucket that many files share.

  Saves and deletions run one after another and may stop at
  any request.  A deletion that succeeds leaves nothing of its
  file and touches no other one, as long as no save gets to an
  object whose number has more digits than a listing expects.

  Main declarations:
    * `bucketSystem`
    * `BucketSound`
    * `DeletedExactly`
    * `deletion_exact_iff`
-/

------------------------------------------------------------
-- Runs of a Bucket
------------------------------------------------------------

namespace Databasus

namespace Storages

namespace S3

open Foundation Iox

inductive BucketAction
  | save
      (fileName : String)
      (file : Source)
      (answers : List Answer)
  | delete (fileName : String) (answers : List Answer)
deriving DecidableEq, Repr

def emptyBucket : Bucket :=
  { objects := [], uploads := [], nextUploadID := 1 }

/- What the bucket holds after the calls, however they end. -/
def bucketSystem
    (layout : PartLayout)
    (sha256 : Bytes → String)
    (keyPrefix : String) :
    TransitionSystem Bucket BucketAction where
  initial bucket := bucket = emptyBucket
  step bucket
    | .save fileName file answers =>
        some
          (saveFile layout sha256 keyPrefix fileName file
            { world := bucket, answers := answers }).2.world
    | .delete fileName answers =>
        some
          (deleteFile keyPrefix fileName
            { world := bucket, answers := answers }).2.world

/- No name is a key that is derived from another one. -/
structure NamesApart (names : String → Prop) : Prop where
  manifest :
    ∀ first second, names first → names second →
      first ≠ manifestObjectKey second
  part :
    ∀ first second, names first → names second →
      isPartObjectKey second first = false

/- Only these names, and no object with such a number. -/
def StartsBelow
    (layout : PartLayout)
    (names : String → Prop)
    (limit : Nat)
    (_ : Bucket) : BucketAction → Prop
  | .save fileName file _ =>
      names fileName ∧ lastObjectIndex layout file < limit
  | .delete fileName _ => names fileName

/- A key that saves of the file may write. -/
def IsObjectOf
    (limit : Nat)
    (baseKey key : String) : Prop :=
  key = baseKey ∨ key = manifestObjectKey baseKey ∨
    ∃ index < limit, key = partObjectKey baseKey index

/- Nothing of the file is left, and all of the others. -/
structure DeletedExactly
    (keyPrefix : String)
    (names : String → Prop)
    (limit : Nat)
    (fileName : String)
    (before after : Bucket) : Prop where
  gone :
    ∀ key,
      IsObjectOf limit (buildObjectKey keyPrefix fileName)
          key →
        after.find key = none
  aborted :
    ∀ upload ∈ after.uploads,
      ¬ IsObjectOf limit (buildObjectKey keyPrefix fileName)
        upload.key
  others :
    ∀ other, names other → other ≠ fileName →
      ∀ key,
        IsObjectOf limit (buildObjectKey keyPrefix other)
            key →
          after.find key = before.find key

/-
  Deletions are exact in every bucket that saves and deletions
  lead to, when the saves start only objects that are numbered
  below the limit.
-/
def DeletionExact (limit : Nat) : Prop :=
  ∀ (layout : PartLayout)
    (sha256 : Bytes → String)
    (keyPrefix : String)
    (names : String → Prop),
    NamesApart names →
      ∀ session : Session Bucket,
        (bucketSystem layout sha256
              keyPrefix).ReachableWhile
            (StartsBelow layout names limit)
            session.world →
          ∀ fileName, names fileName →
            ∀ session',
              deleteFile keyPrefix fileName session =
                  (.done (), session') →
                DeletedExactly keyPrefix names limit fileName
                  session.world session'.world

------------------------------------------------------------
-- What Every Request Keeps
------------------------------------------------------------

/-
  Manifests list objects of their own files, only numbered
  objects are uploaded in parts, and no two uploads share a
  number.
-/
structure BucketSound
    (keyPrefix : String)
    (names : String → Prop)
    (limit : Nat)
    (bucket : Bucket) : Prop where
  manifests :
    ∀ name, names name →
      ∀ body,
        bucket.find
              (manifestObjectKey
                (buildObjectKey keyPrefix name)) =
            some body →
          ∃ manifest, unmarshalManifest body = some manifest ∧
            ∀ key ∈ manifest.parts.map ObjectSpan.key,
              ∃ index < limit,
                key =
                  partObjectKey
                    (buildObjectKey keyPrefix name) index
  uploadKeys :
    ∀ upload ∈ bucket.uploads,
      ∃ baseKey index,
        upload.key = partObjectKey baseKey index
  uploadIDs :
    ∀ upload ∈ bucket.uploads,
      upload.uploadID < bucket.nextUploadID
  unique :
    Table.UniqueBy MultipartUpload.uploadID bucket.uploads

variable {layout : PartLayout}
variable {sha256 : Bytes → String}
variable {keyPrefix : String}
variable {names : String → Prop}
variable {limit : Nat}
variable {bucket : Bucket}

/- A bucket whose manifests and uploads are no others. -/
theorem BucketSound.of_fewer
    {bucket' : Bucket}
    (hSound : BucketSound keyPrefix names limit bucket)
    (hManifests :
      ∀ name, names name →
        ∀ body,
          bucket'.find
                (manifestObjectKey
                  (buildObjectKey keyPrefix name)) =
              some body →
            bucket.find
                (manifestObjectKey
                  (buildObjectKey keyPrefix name)) =
              some body)
    (hUploads : bucket'.uploads = bucket.uploads)
    (hNext : bucket'.nextUploadID = bucket.nextUploadID) :
    BucketSound keyPrefix names limit bucket' :=
  { manifests := fun name hName body hBody =>
      hSound.manifests name hName body
        (hManifests name hName body hBody)
    uploadKeys := by
      rw [hUploads]
      exact hSound.uploadKeys
    uploadIDs := by
      rw [hUploads, hNext]
      exact hSound.uploadIDs
    unique := by
      rw [hUploads]
      exact hSound.unique }

theorem BucketSound.initiate
    (hSound : BucketSound keyPrefix names limit bucket)
    (baseKey : String)
    (index : Nat) :
    BucketSound keyPrefix names limit
      (bucket.initiate (partObjectKey baseKey index)) := by
  refine
    { manifests := hSound.manifests
      uploadKeys := ?_
      uploadIDs := ?_
      unique := ?_ }
  · intro upload hOpen
    rcases List.mem_cons.mp hOpen with rfl | hOld
    · exact ⟨baseKey, index, rfl⟩
    · exact hSound.uploadKeys upload hOld
  · intro upload hOpen
    rcases List.mem_cons.mp hOpen with rfl | hOld
    · exact Nat.lt_succ_self _
    · exact Nat.lt_succ_of_lt (hSound.uploadIDs upload hOld)
  · refine List.nodup_cons.mpr ⟨?_, hSound.unique⟩
    intro hMember
    rcases List.mem_map.mp hMember with
      ⟨upload, hOpen, hSame⟩
    have hLess := hSound.uploadIDs upload hOpen
    simp only at hSame
    omega

theorem BucketSound.putPart
    (hSound : BucketSound keyPrefix names limit bucket)
    (key : String)
    (uploadID number : Nat)
    (content : Bytes) :
    BucketSound keyPrefix names limit
      (bucket.putPart key uploadID number content) := by
  have hOld :
      ∀ upload ∈
          (bucket.putPart key uploadID number content).uploads,
        ∃ old ∈ bucket.uploads,
          upload.key = old.key ∧
            upload.uploadID = old.uploadID := by
    intro upload hOpen
    rcases (Table.mem_updateWhere_iff _ _ _ _).mp hOpen
      with ⟨old, hMember, rfl⟩
    refine ⟨old, hMember, ?_⟩
    split
    · exact ⟨rfl, rfl⟩
    · exact ⟨rfl, rfl⟩
  refine
    { manifests := hSound.manifests
      uploadKeys := ?_
      uploadIDs := ?_
      unique := hSound.unique.updateSelected fun _ _ => rfl }
  · intro upload hOpen
    rcases hOld upload hOpen with ⟨old, hMember, hKey, _⟩
    rw [hKey]
    exact hSound.uploadKeys old hMember
  · intro upload hOpen
    rcases hOld upload hOpen with ⟨old, hMember, _, hID⟩
    rw [hID]
    exact hSound.uploadIDs old hMember

theorem BucketSound.abort
    (hSound : BucketSound keyPrefix names limit bucket)
    (key : String)
    (uploadID : Nat) :
    BucketSound keyPrefix names limit
      (bucket.abort key uploadID) := by
  have hOld :
      ∀ upload ∈ (bucket.abort key uploadID).uploads,
        upload ∈ bucket.uploads :=
    fun _ hOpen =>
      ((Table.mem_deleteWhere_iff _ _ _).mp hOpen).1
  exact
    { manifests := hSound.manifests
      uploadKeys := fun upload hOpen =>
        hSound.uploadKeys upload (hOld upload hOpen)
      uploadIDs := fun upload hOpen =>
        hSound.uploadIDs upload (hOld upload hOpen)
      unique := hSound.unique.deleteWhere _ }

theorem BucketSound.remove
    (hSound : BucketSound keyPrefix names limit bucket)
    (key : String) :
    BucketSound keyPrefix names limit (bucket.remove key) := by
  refine hSound.of_fewer ?_ rfl rfl
  intro name _ body hBody
  by_cases hSame :
    manifestObjectKey (buildObjectKey keyPrefix name) = key
  · rw [hSame, Bucket.find_remove_self] at hBody
    cases hBody
  · rwa [Bucket.find_remove_of_ne hSame] at hBody

/- An object that is no manifest does not matter. -/
theorem BucketSound.put
    (hSound : BucketSound keyPrefix names limit bucket)
    {key : String}
    (content : Bytes)
    (hOther :
      ∀ name, names name →
        manifestObjectKey (buildObjectKey keyPrefix name) ≠
          key) :
    BucketSound keyPrefix names limit
      (bucket.put key content) := by
  refine hSound.of_fewer ?_ rfl rfl
  intro name hName body hBody
  rwa [Bucket.find_put_of_ne content (hOther name hName)]
    at hBody

theorem bucketSound_kept
    (baseKey : String) :
    KeptByUploads baseKey (fun _ => True)
      (BucketSound keyPrefix names limit) :=
  { initiate := fun _ index _ hSound =>
      hSound.initiate baseKey index
    putPart := fun _ key uploadID number content hSound =>
      hSound.putPart key uploadID number content
    put := fun _ index content _ hSound =>
      hSound.put content fun _ _ =>
        (partObjectKey_ne_manifestObjectKey baseKey _
          index).symm
    remove := fun _ key hSound => hSound.remove key
    abort := fun _ key uploadID hSound =>
      hSound.abort key uploadID }

------------------------------------------------------------
-- Saves and Deletions Keep the Bucket Sound
------------------------------------------------------------

variable {fileName : String}
variable {file : Source}
variable {holds : Bucket → Prop}

/- The manifest of a file is written with its own objects. -/
theorem uploadChunked_keeps_sound
    (hLong : layout.innerPartSize < file.rest.length)
    (hLimit : lastObjectIndex layout file < limit) :
    Exchange.Keeps (BucketSound keyPrefix names limit)
      (uploadChunked layout sha256
        (buildObjectKey keyPrefix fileName) file) := by
  apply Exchange.keeps_bind_of_done
  · exact
      uploadObjects_keeps (bucketSound_kept _)
        fun _ _ => trivial
  intro session upload session' hDone
  refine
    Exchange.keeps_onFailure ?_
      (abandon_keeps (bucketSound_kept
        (buildObjectKey keyPrefix fileName)) _ _)
  apply Exchange.keeps_request
  intro bucket bucket' _ hSound hEffect
  simp only [Option.some.injEq, Prod.mk.injEq] at hEffect
  rw [← hEffect.1]
  rcases uploadObjects_keys rfl hDone with
    ⟨count, hKeys, hFull, _⟩
  refine
    { manifests := ?_
      uploadKeys := hSound.uploadKeys
      uploadIDs := hSound.uploadIDs
      unique := hSound.unique }
  intro name hName body hBody
  by_cases hSame : name = fileName
  · rw [hSame, Bucket.find_put_self] at hBody
    cases hBody
    refine ⟨_, unmarshal_marshalManifest _, ?_⟩
    intro key hKey
    simp only [hKeys, List.map_nil, List.nil_append,
      partObjectKeys, List.mem_map, List.mem_range] at hKey
    rcases hKey with ⟨offset, hOffset, rfl⟩
    refine ⟨1 + offset, ?_, by rw [hSame]⟩
    have hRoom :=
      Nat.mul_pos layout.maxPartsPerObject_pos
        layout.innerPartSize_pos
    have hStarted :=
      (Nat.le_div_iff_mul_le hRoom).mpr (hFull offset hOffset)
    rw [lastObjectIndex, if_neg (by omega)] at hLimit
    simp only at hStarted
    omega
  · apply hSound.manifests name hName
    rw [← hBody, Bucket.find_put_of_ne]
    intro hKeys
    exact
      hSame
        (buildObjectKey_injective keyPrefix
          (manifestObjectKey_injective hKeys))

theorem saveFile_keeps_sound
    (hApart : NamesApart names)
    (hName : names fileName)
    (hLimit : lastObjectIndex layout file < limit) :
    Exchange.Keeps (BucketSound keyPrefix names limit)
      (saveFile layout sha256 keyPrefix fileName file) := by
  have hSingle :
      Exchange.Keeps (BucketSound keyPrefix names limit)
        (uploadSingleObject
          (buildObjectKey keyPrefix fileName) file.rest) := by
    apply Exchange.keeps_request
    intro bucket bucket' _ hSound hEffect
    simp only [Option.some.injEq, Prod.mk.injEq] at hEffect
    rw [← hEffect.1]
    apply hSound.put
    intro other hOther hSame
    exact
      hApart.manifest fileName other hName hOther
        (buildObjectKey_eq_manifestObjectKey hSame.symm)
  refine
    Exchange.keeps_bind (Exchange.keeps_checkCancelled _) ?_
  intro _
  refine Exchange.keeps_bind ?_ ?_
  · apply Exchange.keeps_request
    intro bucket bucket' _ hSound hEffect
    simp only [Option.some.injEq, Prod.mk.injEq] at hEffect
    rw [← hEffect.1]
    exact hSound
  intro _
  rw [saveFileContent_eq]
  split
  · split
    · exact Exchange.keeps_fail _
    · exact hSingle
  split
  · split
    · exact hSingle
    · exact Exchange.keeps_fail _
  · exact uploadChunked_keeps_sound (by omega) hLimit

/- Looking for the objects of a file changes nothing. -/
theorem derivedObjectKeys_keeps
    (baseKey : String) :
    Exchange.Keeps holds (derivedObjectKeys baseKey) := by
  refine Exchange.keeps_bind ?_ ?_
  · refine Exchange.keeps_bind ?_ ?_
    · apply Exchange.keeps_request
      intro bucket bucket' _ hHolds hEffect
      simp only [Option.some.injEq, Prod.mk.injEq] at hEffect
      rw [← hEffect.1]
      exact hHolds
    · intro info
      cases info with
      | none => exact Exchange.keeps_pure none
      | some size =>
          refine Exchange.keeps_bind ?_ ?_
          · apply Exchange.keeps_request
            intro bucket bucket' _ hHolds hEffect
            simp only [Option.map_eq_some_iff, Prod.mk.injEq]
              at hEffect
            rcases hEffect with ⟨_, _, rfl, _⟩
            exact hHolds
          · intro body
            refine Exchange.keeps_bind ?_ ?_
            · cases unmarshalManifest body with
              | none => exact Exchange.keeps_fail _
              | some manifest =>
                  exact Exchange.keeps_pure manifest
            · intro manifest
              exact Exchange.keeps_pure (some manifest)
  · intro found
    refine Exchange.keeps_bind ?_ ?_
    · apply Exchange.keeps_request
      intro bucket bucket' _ hHolds hEffect
      simp only [Option.some.injEq, Prod.mk.injEq] at hEffect
      rw [← hEffect.1]
      exact hHolds
    · intro listed
      exact Exchange.keeps_pure _

theorem abortUploads_keeps
    (hAbort :
      ∀ bucket key uploadID, holds bucket →
        holds (bucket.abort key uploadID))
    (baseKey : String)
    (uploads : List MultipartUpload) :
    Exchange.Keeps holds (abortUploads baseKey uploads) := by
  induction uploads with
  | nil => exact Exchange.keeps_pure ()
  | cons upload uploads ih =>
      rw [abortUploads]
      split
      · refine Exchange.keeps_bind ?_ ?_
        · exact
            abortMultipartUpload_keeps _ hAbort upload.key
              upload.uploadID
        · intro _
          exact ih
      · exact ih

theorem deleteFile_keeps_sound
    (keyPrefix' fileName : String) :
    Exchange.Keeps (BucketSound keyPrefix names limit)
      (deleteFile keyPrefix' fileName) := by
  refine Exchange.keeps_bind ?_ ?_
  · apply Exchange.keeps_request
    intro bucket bucket' _ hSound hEffect
    simp only [Option.some.injEq, Prod.mk.injEq] at hEffect
    rw [← hEffect.1]
    exact hSound
  intro _
  refine Exchange.keeps_bind (derivedObjectKeys_keeps _) ?_
  intro keys
  refine Exchange.keeps_bind ?_ ?_
  · exact
      removeObjects_keeps _
        (fun _ key hSound => hSound.remove key) keys
  intro _
  refine Exchange.keeps_bind ?_ ?_
  · apply Exchange.keeps_request
    intro bucket bucket' _ hSound hEffect
    simp only [Option.some.injEq, Prod.mk.injEq] at hEffect
    rw [← hEffect.1]
    exact hSound
  · intro uploads
    exact
      abortUploads_keeps
        (fun _ key uploadID hSound =>
          hSound.abort key uploadID) _ uploads

/- Every bucket that a run leads to is sound. -/
theorem reachable_sound
    (hApart : NamesApart names)
    {bucket : Bucket}
    (hReachable :
      (bucketSystem layout sha256 keyPrefix).ReachableWhile
        (StartsBelow layout names limit) bucket) :
    BucketSound keyPrefix names limit bucket := by
  refine
    TransitionSystem.ReachableWhile.invariant ?_ ?_ hReachable
  · rintro _ rfl
    exact
      { manifests := fun _ _ _ hBody => by cases hBody
        uploadKeys := fun _ hOpen =>
          absurd hOpen List.not_mem_nil
        uploadIDs := fun _ hOpen =>
          absurd hOpen List.not_mem_nil
        unique := List.nodup_nil }
  · intro before action after hSound hGuard hStep
    cases action with
    | save fileName file answers =>
        cases hStep
        exact
          saveFile_keeps_sound hApart hGuard.1 hGuard.2
            { world := before, answers := answers } hSound
    | delete fileName answers =>
        cases hStep
        exact
          deleteFile_keeps_sound keyPrefix fileName
            { world := before, answers := answers } hSound

------------------------------------------------------------
-- Exact Deletions
------------------------------------------------------------

variable {bucket : Bucket}
variable {key : String}

theorem isPartObjectKey_of_lt
    (baseKey : String)
    {index : Nat}
    (hLimit : limit ≤ 1000000)
    (hIndex : index < limit) :
    isPartObjectKey baseKey (partObjectKey baseKey index) =
      true := by
  rw [isPartObjectKey_partObjectKey]
  have hDigits : 10 ^ partIndexDigits = 1000000 := by decide
  omega

/- A derived key is a fixed one or one that a listing knows. -/
theorem IsDerivedKey.cases
    (hSound : BucketSound keyPrefix names limit bucket)
    (hLimit : limit ≤ 1000000)
    (hName : names fileName)
    (hDerived :
      IsDerivedKey bucket (buildObjectKey keyPrefix fileName)
        key) :
    key = buildObjectKey keyPrefix fileName ∨
      key =
          manifestObjectKey
            (buildObjectKey keyPrefix fileName) ∨
        isPartObjectKey (buildObjectKey keyPrefix fileName)
            key =
          true := by
  rcases hDerived with
    hBase | hManifest | ⟨hPart, _⟩ |
      ⟨body, manifest, hBody, hParse, hListed⟩
  · exact Or.inl hBase
  · exact Or.inr (Or.inl hManifest)
  · exact Or.inr (Or.inr hPart)
  · rcases hSound.manifests fileName hName body hBody with
      ⟨own, hOwn, hNumbered⟩
    rw [hParse] at hOwn
    cases hOwn
    rcases hNumbered key hListed with ⟨index, hIndex, rfl⟩
    exact
      Or.inr (Or.inr (isPartObjectKey_of_lt _ hLimit hIndex))

/- No object of a file is derived from another name. -/
theorem not_isDerivedKey_of_other
    (hSound : BucketSound keyPrefix names limit bucket)
    (hApart : NamesApart names)
    (hLimit : limit ≤ 1000000)
    {other : String}
    (hName : names fileName)
    (hOther : names other)
    (hDifferent : other ≠ fileName)
    (hObject :
      IsObjectOf limit (buildObjectKey keyPrefix other) key) :
    ¬ IsDerivedKey bucket (buildObjectKey keyPrefix fileName)
      key := by
  intro hDerived
  have hKey := hDerived.cases hSound hLimit hName
  rcases hObject with rfl | rfl | ⟨index, hIndex, rfl⟩
  · rcases hKey with hSame | hManifest | hPart
    · exact
        hDifferent (buildObjectKey_injective keyPrefix hSame)
    · exact
        hApart.manifest other fileName hOther hName
          (buildObjectKey_eq_manifestObjectKey hManifest)
    · have hNot := hApart.part other fileName hOther hName
      rw [isPartObjectKey_buildObjectKey hPart] at hNot
      cases hNot
  · rcases hKey with hBase | hSame | hPart
    · exact
        hApart.manifest fileName other hName hOther
          (buildObjectKey_eq_manifestObjectKey hBase.symm)
    · exact
        hDifferent
          (buildObjectKey_injective keyPrefix
            (manifestObjectKey_injective hSame))
    · rw [isPartObjectKey_manifestObjectKey] at hPart
      cases hPart
  · have hOwn :=
      isPartObjectKey_of_lt (buildObjectKey keyPrefix other)
        hLimit hIndex
    rcases hKey with hBase | hManifest | hPart
    · rw [hBase] at hOwn
      have hNot := hApart.part fileName other hName hOther
      rw [isPartObjectKey_buildObjectKey hOwn] at hNot
      cases hNot
    · exact partObjectKey_ne_manifestObjectKey _ _ _ hManifest
    · exact
        hDifferent
          (buildObjectKey_injective keyPrefix
            (eq_of_isPartObjectKey hOwn hPart))

/- In a sound bucket a deletion is exact. -/
theorem deletedExactly_of_sound
    {session session' : Session Bucket}
    (hSound :
      BucketSound keyPrefix names limit session.world)
    (hApart : NamesApart names)
    (hLimit : limit ≤ 1000000)
    (hName : names fileName)
    (hDone :
      deleteFile keyPrefix fileName session =
        (.done (), session')) :
    DeletedExactly keyPrefix names limit fileName
      session.world session'.world := by
  rcases deleteFile_done hDone with ⟨hKeys, hUploads⟩
  refine
    { gone := ?_
      aborted := ?_
      others := ?_ }
  · intro key hObject
    rcases hKeys key with ⟨hRemoved, hKept⟩
    by_cases hDerived :
      IsDerivedKey session.world
        (buildObjectKey keyPrefix fileName) key
    · exact hRemoved hDerived
    · rw [hKept hDerived]
      by_contra hStored
      apply hDerived
      rcases hObject with hBase | hManifest |
        ⟨index, hIndex, rfl⟩
      · exact Or.inl hBase
      · exact Or.inr (Or.inl hManifest)
      · exact
          Or.inr (Or.inr (Or.inl
            ⟨isPartObjectKey_of_lt _ hLimit hIndex, hStored⟩))
  · intro upload hOpen hObject
    rcases hUploads upload hOpen with ⟨hBefore, hNotDerived⟩
    simp only [isDerivedUpload, Bool.or_eq_false_iff,
      decide_eq_false_iff_not] at hNotDerived
    rcases hObject with hBase | hManifest |
      ⟨index, hIndex, hPart⟩
    · exact hNotDerived.1 hBase
    · rcases hSound.uploadKeys upload hBefore with
        ⟨baseKey, index, hKey⟩
      rw [hKey] at hManifest
      exact partObjectKey_ne_manifestObjectKey _ _ _ hManifest
    · have hOwn :=
        isPartObjectKey_of_lt
          (buildObjectKey keyPrefix fileName) hLimit hIndex
      rw [← hPart, hNotDerived.2] at hOwn
      cases hOwn
  · intro other hOther hDifferent key hObject
    exact
      (hKeys key).2
        (not_isDerivedKey_of_other hSound hApart hLimit hName
          hOther hDifferent hObject)

------------------------------------------------------------
-- A Save that Crashes Before Its Manifest
------------------------------------------------------------

/-
  A save that crashes right before its manifest leaves all of
  its objects.
-/
theorem saveFile_crashes_before_manifest
    (layout : PartLayout)
    (sha256 : Bytes → String)
    (keyPrefix fileName : String)
    (hLong : layout.innerPartSize < file.rest.length)
    (hEnding : file.ending ≠ .other)
    (bucket : Bucket)
    (hUnused :
      HasNoFile (buildObjectKey keyPrefix fileName) bucket) :
    ∃ answers after,
      saveFile layout sha256 keyPrefix fileName file
            { world := bucket, answers := answers } =
          (.crashed, after) ∧
        HasNoFile (buildObjectKey keyPrefix fileName)
          after.world ∧
        ∀ offset,
          offset *
                (layout.maxPartsPerObject *
                  layout.innerPartSize) <
              file.rest.length →
            after.world.find
                (partObjectKey
                  (buildObjectKey keyPrefix fileName)
                  (1 + offset)) ≠
              none := by
  rcases uploadObjects_succeeds layout sha256
      (buildObjectKey keyPrefix fileName) bucket
      { source := file
        objectIndex := 1
        objectSpans := []
        uploadedKeys := []
        totalSize := 0
        sourceEnded := false }
      (Nat.lt_succ_self _) hEnding with
    ⟨upload, bucket', count, hCount⟩
  have hObjects := hCount []
  rw [List.append_nil] at hObjects
  have hKeeps :
      Exchange.Keeps
        (HasNoFile (buildObjectKey keyPrefix fileName))
        (uploadObjects layout sha256
          (buildObjectKey keyPrefix fileName)
          (file.rest.length + 1)
          { source := file
            objectIndex := 1
            objectSpans := []
            uploadedKeys := []
            totalSize := 0
            sourceEnded := false }) :=
    uploadObjects_keeps (hasNoFile_kept _) fun _ _ => trivial
  refine
    ⟨.succeeded :: .succeeded ::
        List.replicate count .succeeded,
      { world := bucket', answers := [] }, ?_, ?_, ?_⟩
  · have hCheck :
        Exchange.checkCancelled SaveError.cancelledBeforeStart
            { world := bucket
              answers :=
                .succeeded :: .succeeded ::
                  List.replicate count .succeeded } =
          (.done (),
            { world := bucket
              answers :=
                .succeeded ::
                  List.replicate count .succeeded }) :=
      rfl
    have hClient :
        getClient SaveError.clientFailed
            { world := bucket
              answers :=
                .succeeded ::
                  List.replicate count .succeeded } =
          (.done (),
            { world := bucket
              answers := List.replicate count .succeeded }) :=
      rfl
    unfold saveFile
    rw [Exchange.bind_of_done hCheck,
      Exchange.bind_of_done hClient, saveFileContent_eq,
      if_neg (by omega), if_neg (by omega)]
    unfold uploadChunked
    rw [Exchange.bind_of_done hObjects]
    rfl
  · have hKept :=
      hKeeps
        { world := bucket
          answers := List.replicate count .succeeded }
        hUnused
    rw [hObjects] at hKept
    exact hKept
  · intro offset hOffset
    have hStart :
        UploadSound bucket sha256
          (buildObjectKey keyPrefix fileName)
          { source := file
            objectIndex := 1
            objectSpans := []
            uploadedKeys := []
            totalSize := 0
            sourceEnded := false } [] :=
      ⟨SpelledBy.nil, fun _ hMember =>
        absurd hMember List.not_mem_nil⟩
    have hSpelled :=
      (uploadObjects_done hStart (by simp) hObjects).1.spelled
    rcases uploadObjects_keys rfl hObjects with
      ⟨objects, hKeys, _, hEnough⟩
    have hCounted : offset < objects := by
      by_contra hFew
      have hLess :=
        Nat.mul_le_mul_right
          (layout.maxPartsPerObject * layout.innerPartSize)
          (Nat.le_of_not_lt hFew)
      simp only at hEnough
      omega
    have hListed :
        partObjectKey (buildObjectKey keyPrefix fileName)
            (1 + offset) ∈
          upload.objectSpans.map ObjectSpan.key := by
      rw [hKeys]
      exact
        List.mem_append_right _
          (List.mem_map_of_mem (List.mem_range.mpr hCounted))
    rcases List.mem_map.mp hListed with ⟨span, hSpan, hKey⟩
    rw [← hKey]
    exact hSpelled.find_ne_none hSpan

/- A stream of full objects but the last, of a single byte. -/
def sourceOfObjects
    (layout : PartLayout)
    (count : Nat) : Source :=
  { rest :=
      List.replicate
        ((count - 1) *
            (layout.maxPartsPerObject *
              layout.innerPartSize) +
          1)
        0
    ending := .eof }

theorem lastObjectIndex_sourceOfObjects
    {count : Nat}
    (hMany : 1 < count)
    (hLarge :
      1 < layout.maxPartsPerObject * layout.innerPartSize) :
    lastObjectIndex layout (sourceOfObjects layout count) =
      count := by
  have hObject :
      layout.innerPartSize ≤
        layout.maxPartsPerObject * layout.innerPartSize :=
    Nat.le_mul_of_pos_left _ layout.maxPartsPerObject_pos
  have hFirst :
      1 * (layout.maxPartsPerObject * layout.innerPartSize) ≤
        (count - 1) *
          (layout.maxPartsPerObject * layout.innerPartSize) :=
    Nat.mul_le_mul_right _ (by omega)
  rw [lastObjectIndex, sourceOfObjects,
    List.length_replicate, if_neg (by omega), Nat.add_comm _ 1,
    Nat.add_mul_div_right _ _ (by omega),
    Nat.div_eq_of_lt hLarge]
  omega

/- A listing does not know the millionth object. -/
theorem not_deletionExact
    (hMany : 1000000 < limit) :
    ¬ DeletionExact limit := by
  intro hExact
  have hApart : NamesApart (fun name => name = "backup") :=
    { manifest := by
        rintro first second rfl rfl
        exact (manifestObjectKey_ne "backup").symm
      part := by
        rintro first second rfl rfl
        decide +kernel }
  have hLarge :
      1 <
        defaultPartLayout.maxPartsPerObject *
          defaultPartLayout.innerPartSize := by
    decide
  have hStarts :
      lastObjectIndex defaultPartLayout
          (sourceOfObjects defaultPartLayout 1000000) <
        limit := by
    rw [lastObjectIndex_sourceOfObjects (by omega) hLarge]
    exact hMany
  have hLength :
      (sourceOfObjects defaultPartLayout
            1000000).rest.length =
        999999 *
            (defaultPartLayout.maxPartsPerObject *
              defaultPartLayout.innerPartSize) +
          1 :=
    List.length_replicate
  have hLong :
      defaultPartLayout.innerPartSize <
        (sourceOfObjects defaultPartLayout
          1000000).rest.length := by
    rw [hLength]
    decide
  rcases saveFile_crashes_before_manifest defaultPartLayout
      (fun _ => "") "" "backup" hLong (by
        rw [sourceOfObjects]
        simp)
      emptyBucket ⟨rfl, rfl⟩ with
    ⟨answers, after, hSave, hNoFile, hObjects⟩
  have hReachable :
      (bucketSystem defaultPartLayout (fun _ => "")
            "").ReachableWhile
          (StartsBelow defaultPartLayout
            (fun name => name = "backup") limit)
          after.world := by
    refine
      .step
        (a := .save "backup"
          (sourceOfObjects defaultPartLayout 1000000) answers)
        (.initial rfl) ⟨rfl, hStarts⟩ ?_
    simp only [bucketSystem, hSave]
  have hSound := reachable_sound hApart hReachable
  rcases deleteFile_succeeds "" "backup"
      (fun body hBody => by
        rw [hNoFile.2] at hBody
        cases hBody)
      hSound.unique with
    ⟨bucket', hDelete⟩
  rcases done_of_succeeds hDelete with
    ⟨session, session', hStart, _, hDone⟩
  rw [← hStart] at hReachable hNoFile hObjects
  have hGone :=
    (hExact defaultPartLayout (fun _ => "") ""
        (fun name => name = "backup") hApart session
        hReachable "backup" rfl session' hDone).gone
      (partObjectKey (buildObjectKey "" "backup") 1000000)
      (Or.inr (Or.inr ⟨1000000, hMany, rfl⟩))
  have hNotDerived :
      ¬ IsDerivedKey session.world
        (buildObjectKey "" "backup")
        (partObjectKey (buildObjectKey "" "backup")
          1000000) := by
    rintro (hBase | hManifest | ⟨hPart, _⟩ |
      ⟨body, _, hBody, _⟩)
    · exact partObjectKey_ne _ _ hBase
    · exact partObjectKey_ne_manifestObjectKey _ _ _ hManifest
    · rw [isPartObjectKey_partObjectKey] at hPart
      exact absurd hPart (by decide)
    · rw [hNoFile.2] at hBody
      cases hBody
  rw [((deleteFile_done hDone).1 _).2 hNotDerived] at hGone
  apply hObjects 999999 _ hGone
  rw [hLength]
  exact Nat.lt_succ_self _

/-
  Deletions are exact exactly as long as no save starts an
  object whose number has more than six digits.
-/
theorem deletion_exact_iff
    (limit : Nat) :
    DeletionExact limit ↔ limit ≤ 1000000 := by
  constructor
  · intro hExact
    by_contra hMany
    exact not_deletionExact (by omega) hExact
  · intro hLimit layout sha256 keyPrefix names hApart session
      hReachable fileName hName session' hDone
    exact
      deletedExactly_of_sound
        (reachable_sound hApart hReachable) hApart hLimit
        hName hDone

/- A save of a million objects leaves the last one behind. -/
theorem millionth_object_survives :
    ¬ ∀ limit, DeletionExact limit := by
  intro hClaim
  exact not_deletionExact (by decide) (hClaim 1000001)

end S3

end Storages

end Databasus
