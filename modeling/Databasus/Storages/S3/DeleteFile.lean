import Databasus.Storages.S3.OpenFile
import Databasus.Storages.S3.SaveRuns

/-
  Deleting a stored file.

  The objects of a file are found from its manifest, when it
  has one, and by listing: a save may complete numbered
  objects before it writes a manifest.  Uploads that were not
  completed are aborted.

  Main declarations:
    * `derivedObjectKeys`
    * `deleteFile`
    * `deleteFile_done`
    * `deleteFile_succeeds`
-/

------------------------------------------------------------
-- Deleting
------------------------------------------------------------

namespace Databasus

namespace Storages

namespace S3

open Foundation Iox

inductive DeleteError
  | clientFailed
  | manifestFailed (cause : ManifestError)
  | listFailed
  | removeFailed (objectKey : String)
  | listUploadsFailed
  | abortFailed (objectKey : String)
deriving DecidableEq, Repr

/- The keys that are not seen yet join at the end. -/
def appendNew
    (keys : List String) : List String → List String
  | [] => keys
  | key :: more =>
      if key ∈ keys then
        appendNew keys more
      else
        appendNew (keys ++ [key]) more

def listObjects
    {ε : Type}
    (error : ε)
    (keyPrefix : String) :
    Exchange Bucket ε (List String) :=
  Exchange.request
    (fun bucket =>
      some (bucket,
        (bucket.objects.map StoredObject.key).filter fun key =>
          keyPrefix.toList.isPrefixOf key.toList))
    fun _ => error

def listIncompleteUploads
    {ε : Type}
    (error : ε)
    (keyPrefix : String) :
    Exchange Bucket ε (List MultipartUpload) :=
  Exchange.request
    (fun bucket =>
      some (bucket,
        bucket.uploads.filter fun upload =>
          keyPrefix.toList.isPrefixOf upload.key.toList))
    fun _ => error

def derivedObjectKeys
    (baseKey : String) :
    Exchange Bucket DeleteError (List String) := do
  let keys := [baseKey, manifestObjectKey baseKey]
  let found ← readManifest .manifestFailed baseKey
  let keys :=
    match found with
    | some manifest =>
        appendNew keys (manifest.parts.map ObjectSpan.key)
    | none => keys
  let listed ← listObjects .listFailed (baseKey ++ partSuffix)
  pure (appendNew keys (listed.filter (isPartObjectKey baseKey)))

/- An upload for a file is one for its key or for an object. -/
def isDerivedUpload
    (baseKey : String)
    (upload : MultipartUpload) : Bool :=
  upload.key = baseKey || isPartObjectKey baseKey upload.key

/- Abort the listed uploads of the file, up to a failure. -/
def abortUploads
    (baseKey : String) :
    List MultipartUpload → Exchange Bucket DeleteError Unit
  | [] => pure ()
  | upload :: uploads =>
      if isDerivedUpload baseKey upload then do
        abortMultipartUpload (.abortFailed upload.key)
          upload.key upload.uploadID
        abortUploads baseKey uploads
      else
        abortUploads baseKey uploads

def abortDerivedMultipartUploads
    (baseKey : String) : Exchange Bucket DeleteError Unit := do
  let uploads ←
    listIncompleteUploads .listUploadsFailed baseKey
  abortUploads baseKey uploads

def deleteFile
    (keyPrefix fileName : String) :
    Exchange Bucket DeleteError Unit := do
  getClient .clientFailed
  let baseKey := buildObjectKey keyPrefix fileName
  let keys ← derivedObjectKeys baseKey
  removeObjects .removeFailed keys
  abortDerivedMultipartUploads baseKey

variable {baseKey key : String}
variable {keys more : List String}

theorem mem_appendNew_iff :
    key ∈ appendNew keys more ↔ key ∈ keys ∨ key ∈ more := by
  induction more generalizing keys with
  | nil => simp [appendNew]
  | cons next more ih =>
      rw [appendNew]
      split
      · next hSeen =>
          rw [ih, List.mem_cons]
          constructor
          · rintro (hOld | hLater)
            · exact Or.inl hOld
            · exact Or.inr (Or.inr hLater)
          · rintro (hOld | rfl | hLater)
            · exact Or.inl hOld
            · exact Or.inl hSeen
            · exact Or.inr hLater
      · rw [ih, List.mem_append, List.mem_singleton,
          List.mem_cons, or_assoc]

------------------------------------------------------------
-- What a Deletion Removes
------------------------------------------------------------

variable {bucket : Bucket}
variable {session session' : Session Bucket}
variable {ε : Type}

/- The key of a listed part, of the manifest, or of the file. -/
def IsDerivedKey
    (bucket : Bucket)
    (baseKey key : String) : Prop :=
  key = baseKey ∨ key = manifestObjectKey baseKey ∨
    isPartObjectKey baseKey key = true ∧
      bucket.find key ≠ none ∨
    ∃ body manifest,
      bucket.find (manifestObjectKey baseKey) = some body ∧
        unmarshalManifest body = some manifest ∧
        key ∈ manifest.parts.map ObjectSpan.key

theorem find_ne_none_iff :
    bucket.find key ≠ none ↔
      key ∈ bucket.objects.map StoredObject.key := by
  rw [Bucket.find, ne_eq, Option.map_eq_none_iff,
    Table.lookup_eq_none_iff]
  simp

theorem isPrefixOf_of_isPartObjectKey
    (hPart : isPartObjectKey baseKey key = true) :
    (baseKey ++ partSuffix).toList.isPrefixOf key.toList =
      true := by
  simp only [isPartObjectKey, Bool.and_eq_true] at hPart
  exact hPart.1.1

theorem listObjects_done
    {error : ε}
    {keyPrefix : String}
    {listed : List String}
    (hDone :
      listObjects error keyPrefix session =
        (.done listed, session')) :
    session'.world = session.world ∧
      ∀ key,
        key ∈ listed ↔
          session.world.find key ≠ none ∧
            keyPrefix.toList.isPrefixOf key.toList = true := by
  rcases Exchange.request_done.mp hDone with ⟨_, hEffect⟩
  simp only [Option.some.injEq, Prod.mk.injEq] at hEffect
  refine ⟨hEffect.1.symm, ?_⟩
  intro key
  rw [← hEffect.2, List.mem_filter, find_ne_none_iff]

/- The keys that are found are the derived ones. -/
theorem derivedObjectKeys_done
    (hDone :
      derivedObjectKeys baseKey session =
        (.done keys, session')) :
    session'.world = session.world ∧
      ∀ key,
        key ∈ keys ↔
          IsDerivedKey session.world baseKey key := by
  simp only [derivedObjectKeys, Exchange.bind_done,
    Exchange.pure_done] at hDone
  rcases hDone with
    ⟨found, read, hManifest, listed, _, hList, rfl, rfl⟩
  rcases readManifest_done hManifest with ⟨hRead, hFound⟩
  rcases listObjects_done hList with ⟨hListed, hMembers⟩
  rw [hRead] at hListed hMembers
  refine ⟨hListed, ?_⟩
  intro key
  have hListing :
      key ∈ listed.filter (isPartObjectKey baseKey) ↔
        isPartObjectKey baseKey key = true ∧
          session.world.find key ≠ none := by
    rw [List.mem_filter, hMembers]
    constructor
    · rintro ⟨⟨hStored, _⟩, hPart⟩
      exact ⟨hPart, hStored⟩
    · rintro ⟨hPart, hStored⟩
      exact
        ⟨⟨hStored, isPrefixOf_of_isPartObjectKey hPart⟩,
          hPart⟩
  rw [mem_appendNew_iff, hListing]
  unfold IsDerivedKey
  cases hBody :
    session.world.find (manifestObjectKey baseKey) with
  | none =>
      rw [hBody] at hFound
      rw [hFound]
      simp only [List.mem_cons, List.not_mem_nil, or_false,
        reduceCtorEq, false_and, exists_false]
      exact or_assoc
  | some body =>
      rw [hBody] at hFound
      rcases hFound with ⟨manifest, hParse, rfl⟩
      have hParts :
          (∃ body' manifest',
            some body = some body' ∧
              unmarshalManifest body' = some manifest' ∧
              key ∈ manifest'.parts.map ObjectSpan.key) ↔
            key ∈ manifest.parts.map ObjectSpan.key := by
        constructor
        · rintro ⟨_, _, hSame, hParse', hMember⟩
          cases hSame
          rw [hParse] at hParse'
          cases hParse'
          exact hMember
        · intro hMember
          exact ⟨body, manifest, rfl, hParse, hMember⟩
      rw [hParts, mem_appendNew_iff]
      simp only [List.mem_cons, List.not_mem_nil, or_false]
      constructor
      · rintro (((hBase | hManifestKey) | hListed) | hStored)
        · exact Or.inl hBase
        · exact Or.inr (Or.inl hManifestKey)
        · exact Or.inr (Or.inr (Or.inr hListed))
        · exact Or.inr (Or.inr (Or.inl hStored))
      · rintro (hBase | hManifestKey | hStored | hListed)
        · exact Or.inl (Or.inl (Or.inl hBase))
        · exact Or.inl (Or.inl (Or.inr hManifestKey))
        · exact Or.inr hStored
        · exact Or.inl (Or.inr hListed)

theorem removeObjects_done
    {error : String → ε}
    (hDone :
      removeObjects error keys session =
        (.done (), session')) :
    session'.world.uploads = session.world.uploads ∧
      ∀ key,
        (key ∈ keys → session'.world.find key = none) ∧
          (key ∉ keys →
            session'.world.find key =
              session.world.find key) := by
  induction keys generalizing session with
  | nil =>
      rcases Exchange.pure_done.mp hDone with ⟨_, rfl⟩
      exact
        ⟨rfl, fun _ =>
          ⟨fun hMember => absurd hMember List.not_mem_nil,
            fun _ => rfl⟩⟩
  | cons removed keys ih =>
      rw [removeObjects, Exchange.bind_done] at hDone
      rcases hDone with ⟨_, between, hFirst, hRest⟩
      rw [Exchange.onFailure_done] at hFirst
      rcases Exchange.request_done.mp hFirst with ⟨_, hEffect⟩
      simp only [Option.some.injEq, Prod.mk.injEq,
        and_true] at hEffect
      rcases ih hRest with ⟨hUploads, hKeys⟩
      rw [← hEffect] at hUploads hKeys
      refine ⟨hUploads, ?_⟩
      intro key
      rcases hKeys key with ⟨hGone, hKept⟩
      by_cases hLater : key ∈ keys
      · refine ⟨fun _ => hGone hLater, ?_⟩
        intro hNever
        exact
          absurd (List.mem_cons_of_mem removed hLater) hNever
      · rw [List.mem_cons]
        refine ⟨?_, ?_⟩
        · rintro (rfl | hMember)
          · rw [hKept hLater, Bucket.find_remove_self]
          · exact absurd hMember hLater
        · intro hNever
          push Not at hNever
          rw [hKept hLater,
            Bucket.find_remove_of_ne hNever.1]

/- Aborted uploads are gone, and the others stay. -/
theorem abortUploads_done
    {uploads : List MultipartUpload}
    (hDone :
      abortUploads baseKey uploads session =
        (.done (), session')) :
    session'.world.objects = session.world.objects ∧
      ∀ upload ∈ session'.world.uploads,
        upload ∈ session.world.uploads ∧
          (upload ∈ uploads →
            isDerivedUpload baseKey upload = false) := by
  induction uploads generalizing session with
  | nil =>
      rcases Exchange.pure_done.mp hDone with ⟨_, rfl⟩
      exact
        ⟨rfl, fun _ hOpen =>
          ⟨hOpen, fun hMember =>
            absurd hMember List.not_mem_nil⟩⟩
  | cons aborted uploads ih =>
      rw [abortUploads] at hDone
      split at hDone
      · rcases Exchange.bind_done.mp hDone with
          ⟨_, between, hAbort, hRest⟩
        rcases Exchange.request_done.mp hAbort with
          ⟨_, hEffect⟩
        simp only [Option.map_eq_some_iff, Prod.mk.injEq,
          and_true] at hEffect
        rcases hEffect with ⟨_, _, hWorld⟩
        rcases ih hRest with ⟨hObjects, hUploads⟩
        rw [← hWorld] at hObjects hUploads
        refine ⟨hObjects, ?_⟩
        intro upload hOpen
        rcases hUploads upload hOpen with ⟨hBefore, hListed⟩
        simp only [Bucket.abort, Table.mem_deleteWhere_iff]
          at hBefore
        refine ⟨hBefore.1, ?_⟩
        intro hMember
        rcases List.mem_cons.mp hMember with rfl | hLater
        · simp [Bucket.isUpload] at hBefore
        · exact hListed hLater
      · next hOther =>
          rcases ih hDone with ⟨hObjects, hUploads⟩
          refine ⟨hObjects, ?_⟩
          intro upload hOpen
          rcases hUploads upload hOpen with ⟨hBefore, hListed⟩
          refine ⟨hBefore, ?_⟩
          intro hMember
          rcases List.mem_cons.mp hMember with rfl | hLater
          · simpa using hOther
          · exact hListed hLater

theorem isPrefixOf_of_isDerivedUpload
    {upload : MultipartUpload}
    (hDerived : isDerivedUpload baseKey upload = true) :
    baseKey.toList.isPrefixOf upload.key.toList = true := by
  rw [List.isPrefixOf_iff_prefix]
  simp only [isDerivedUpload, Bool.or_eq_true,
    decide_eq_true_eq] at hDerived
  rcases hDerived with hSame | hPart
  · exact ⟨[], by rw [hSame, List.append_nil]⟩
  · have hLonger := isPrefixOf_of_isPartObjectKey hPart
    rw [List.isPrefixOf_iff_prefix,
      String.toList_append] at hLonger
    exact (List.prefix_append _ _).trans hLonger

/-
  A deletion that succeeds removes the derived keys and the
  uploads of the file, and nothing else.
-/
theorem deleteFile_done
    {keyPrefix fileName : String}
    (hDone :
      deleteFile keyPrefix fileName session =
        (.done (), session')) :
    (∀ key,
        (IsDerivedKey session.world
            (buildObjectKey keyPrefix fileName) key →
          session'.world.find key = none) ∧
        (¬ IsDerivedKey session.world
            (buildObjectKey keyPrefix fileName) key →
          session'.world.find key =
            session.world.find key)) ∧
      ∀ upload ∈ session'.world.uploads,
        upload ∈ session.world.uploads ∧
          isDerivedUpload
              (buildObjectKey keyPrefix fileName) upload =
            false := by
  simp only [deleteFile, abortDerivedMultipartUploads,
    Exchange.bind_done] at hDone
  rcases hDone with
    ⟨_, connected, hClient, keys, found, hKeys, _, removed,
      hRemove, uploads, listed, hList, hAbort⟩
  have hConnected := getClient_done hClient
  rcases derivedObjectKeys_done hKeys with ⟨hFound, hDerived⟩
  rw [hConnected] at hFound hDerived
  rcases removeObjects_done hRemove with
    ⟨hUploads, hRemoved⟩
  rw [hFound] at hUploads hRemoved
  rcases Exchange.request_done.mp hList with ⟨_, hEffect⟩
  simp only [Option.some.injEq, Prod.mk.injEq] at hEffect
  rcases hEffect with ⟨hListed, hListing⟩
  rcases abortUploads_done hAbort with
    ⟨hObjects, hAborted⟩
  rw [← hListed] at hObjects hAborted
  have hFind :
      ∀ key,
        session'.world.find key = removed.world.find key := by
    intro key
    unfold Bucket.find
    rw [hObjects]
  constructor
  · intro key
    rw [hFind key, ← hDerived key]
    exact hRemoved key
  · intro upload hOpen
    rcases hAborted upload hOpen with ⟨hBefore, hNot⟩
    have hSession : upload ∈ session.world.uploads := by
      rw [← hUploads]
      exact hBefore
    refine ⟨hSession, ?_⟩
    by_contra hDerivedUpload
    have hIsDerived :
        isDerivedUpload (buildObjectKey keyPrefix fileName)
            upload =
          true := by
      simpa using hDerivedUpload
    have hMember : upload ∈ uploads := by
      rw [← hListing, List.mem_filter]
      exact ⟨hBefore, isPrefixOf_of_isDerivedUpload hIsDerived⟩
    rw [hNot hMember] at hIsDerived
    cases hIsDerived

------------------------------------------------------------
-- Deletions Can Succeed
------------------------------------------------------------

theorem removeObjects_succeeds
    (error : String → ε)
    (keys : List String)
    (bucket : Bucket) :
    ∃ bucket',
      Exchange.Succeeds (removeObjects error keys) bucket ()
          bucket' ∧
        bucket'.uploads = bucket.uploads := by
  induction keys generalizing bucket with
  | nil => exact ⟨bucket, Exchange.succeeds_pure () bucket, rfl⟩
  | cons key keys ih =>
      rcases ih (bucket.remove key) with
        ⟨bucket', hRest, hUploads⟩
      have hRemove :
          Exchange.Succeeds
            (Exchange.request
              (fun bucket : Bucket =>
                some (bucket.remove key, ()))
              fun _ => error key)
            bucket () (bucket.remove key) :=
        Exchange.succeeds_request rfl
      exact
        ⟨bucket',
          Exchange.succeeds_bind
            (Exchange.succeeds_onFailure hRemove) hRest,
          hUploads⟩

theorem findUpload_of_mem
    {upload : MultipartUpload}
    (hOpen : upload ∈ bucket.uploads) :
    ∃ found,
      bucket.findUpload upload.key upload.uploadID =
        some found := by
  cases hFind :
    bucket.findUpload upload.key upload.uploadID with
  | some found => exact ⟨found, rfl⟩
  | none =>
      have hOther := List.find?_eq_none.mp hFind upload hOpen
      simp [Bucket.isUpload] at hOther

/- Aborting one upload leaves the others open. -/
theorem mem_uploads_abort
    {upload aborted : MultipartUpload}
    (hOpen : upload ∈ bucket.uploads)
    (hOther : upload.uploadID ≠ aborted.uploadID) :
    upload ∈
      (bucket.abort aborted.key aborted.uploadID).uploads := by
  rw [Bucket.abort, Table.mem_deleteWhere_iff]
  refine ⟨hOpen, ?_⟩
  simp [Bucket.isUpload, hOther]

/- Uploads that are told apart by their numbers can go. -/
theorem abortUploads_succeeds
    (baseKey : String)
    {uploads : List MultipartUpload}
    (hUnique :
      Table.UniqueBy MultipartUpload.uploadID uploads)
    (hOpen : ∀ upload ∈ uploads, upload ∈ bucket.uploads) :
    ∃ bucket',
      Exchange.Succeeds (abortUploads baseKey uploads) bucket
        () bucket' := by
  induction uploads generalizing bucket with
  | nil => exact ⟨bucket, Exchange.succeeds_pure () bucket⟩
  | cons aborted uploads ih =>
      rcases List.nodup_cons.mp hUnique with ⟨hNew, hRest⟩
      have hLater :
          ∀ upload ∈ uploads, upload ∈ bucket.uploads :=
        fun upload hMember =>
          hOpen upload (List.mem_cons_of_mem aborted hMember)
      rw [abortUploads]
      split
      · have hAbort :
            Exchange.Succeeds
              (abortMultipartUpload
                (DeleteError.abortFailed aborted.key)
                aborted.key aborted.uploadID)
              bucket ()
              (bucket.abort aborted.key aborted.uploadID) := by
          rcases findUpload_of_mem
              (hOpen aborted List.mem_cons_self) with
            ⟨found, hFound⟩
          apply Exchange.succeeds_request
          rw [hFound]
          rfl
        have hStill :
            ∀ upload ∈ uploads,
              upload ∈
                (bucket.abort aborted.key
                  aborted.uploadID).uploads := by
          intro upload hMember
          apply mem_uploads_abort (hLater upload hMember)
          intro hSame
          apply hNew
          rw [← hSame]
          exact List.mem_map_of_mem hMember
        rcases ih hRest hStill with ⟨bucket', hSucceeds⟩
        exact ⟨bucket', Exchange.succeeds_bind hAbort hSucceeds⟩
      · exact ih hRest hLater

/-
  A deletion whose requests are answered succeeds, unless the
  manifest cannot be read.
-/
theorem deleteFile_succeeds
    (keyPrefix fileName : String)
    (hManifest :
      ∀ body,
        bucket.find
              (manifestObjectKey
                (buildObjectKey keyPrefix fileName)) =
            some body →
          ∃ manifest, unmarshalManifest body = some manifest)
    (hUnique :
      Table.UniqueBy MultipartUpload.uploadID
        bucket.uploads) :
    ∃ bucket',
      Exchange.Succeeds (deleteFile keyPrefix fileName) bucket
        () bucket' := by
  have hRead :
      ∃ found,
        Exchange.Succeeds
          (readManifest DeleteError.manifestFailed
            (buildObjectKey keyPrefix fileName))
          bucket found bucket := by
    cases hFind :
      bucket.find
        (manifestObjectKey
          (buildObjectKey keyPrefix fileName)) with
    | none =>
        refine ⟨none, readManifest_succeeds _ ?_⟩
        rw [hFind]
    | some body =>
        rcases hManifest body hFind with ⟨manifest, hParse⟩
        refine ⟨some manifest, readManifest_succeeds _ ?_⟩
        rw [hFind]
        exact ⟨manifest, hParse, rfl⟩
  have hKeys :
      ∃ keys,
        Exchange.Succeeds
          (derivedObjectKeys
            (buildObjectKey keyPrefix fileName))
          bucket keys bucket := by
    rcases hRead with ⟨found, hRead⟩
    exact
      ⟨_, Exchange.succeeds_bind hRead
        (Exchange.succeeds_bind
          (Exchange.succeeds_request rfl)
          (Exchange.succeeds_pure _ bucket))⟩
  rcases hKeys with ⟨keys, hKeys⟩
  rcases removeObjects_succeeds DeleteError.removeFailed keys
      bucket with
    ⟨removed, hRemove, hUploads⟩
  have hListed :
      Table.UniqueBy MultipartUpload.uploadID
        (removed.uploads.filter fun upload =>
          (buildObjectKey keyPrefix
            fileName).toList.isPrefixOf
              upload.key.toList) := by
    rw [hUploads]
    exact hUnique.sublist (List.filter_sublist.map _)
  rcases abortUploads_succeeds
      (buildObjectKey keyPrefix fileName) hListed
      (fun _ hMember => (List.mem_filter.mp hMember).1) with
    ⟨bucket', hAbort⟩
  exact
    ⟨bucket',
      Exchange.succeeds_bind (Exchange.succeeds_request rfl)
        (Exchange.succeeds_bind hKeys
          (Exchange.succeeds_bind hRemove
            (Exchange.succeeds_bind
              (Exchange.succeeds_request rfl) hAbort)))⟩

end S3

end Storages

end Databasus
