import Databasus.Storages.S3.SaveRuns

/-
  Sources that fail.

  A source that fails must not become a stored file: its save
  ends in an error, whatever the server does, and leaves
  neither a plain object nor a manifest.  An error is told
  from an end by its value, and the value of an unexpected end
  is also what a short read is reported with, so a source that
  fails with that value is stored as if it had ended.

  Main declarations:
    * `NeverStored`
    * `never_stored_iff`
-/

------------------------------------------------------------
-- Failing Sources
------------------------------------------------------------

namespace Databasus

namespace Storages

namespace S3

open Foundation Iox

/- There is neither a plain object nor a manifest. -/
def HasNoFile
    (baseKey : String)
    (bucket : Bucket) : Prop :=
  bucket.find baseKey = none ∧
    bucket.find (manifestObjectKey baseKey) = none

/-
  Saving the source under an unused name ends in an error and
  leaves nothing to open, whatever becomes of the requests.
-/
def NeverStored
    (layout : PartLayout)
    (sha256 : Bytes → String)
    (keyPrefix fileName : String)
    (file : Source) : Prop :=
  ∀ session : Session Bucket,
    session.world.IsUnused
        (buildObjectKey keyPrefix fileName) →
      (saveFile layout sha256 keyPrefix fileName file
            session).1 ≠
          .done () ∧
        HasNoFile (buildObjectKey keyPrefix fileName)
          (saveFile layout sha256 keyPrefix fileName file
            session).2.world

theorem partObjectKey_ne
    (baseKey : String)
    (index : Nat) :
    partObjectKey baseKey index ≠ baseKey := by
  intro hSame
  have hLengths := congrArg (fun key => key.toList.length) hSame
  simp [partObjectKey, partSuffix] at hLengths

/- Numbered objects are no file by themselves. -/
theorem hasNoFile_kept
    (baseKey : String) :
    KeptByUploads baseKey (fun _ => True)
      (HasNoFile baseKey) := by
  have hNumbered :
      ∀ (bucket : Bucket) index content,
        HasNoFile baseKey bucket →
          HasNoFile baseKey
            (bucket.put (partObjectKey baseKey index)
              content) := by
    rintro bucket index content ⟨hPlain, hManifest⟩
    constructor
    · rw [Bucket.find_put_of_ne content
        (partObjectKey_ne baseKey index).symm]
      exact hPlain
    · rw [Bucket.find_put_of_ne content
        (partObjectKey_ne_manifestObjectKey baseKey baseKey
          index).symm]
      exact hManifest
  have hRemoved :
      ∀ (bucket : Bucket) key wanted,
        bucket.find wanted = none →
          (bucket.remove key).find wanted = none := by
    intro bucket key wanted hNone
    by_cases hSame : wanted = key
    · rw [hSame]
      exact Bucket.find_remove_self key
    · rw [Bucket.find_remove_of_ne hSame]
      exact hNone
  exact
    { initiate := fun _ _ _ hNone => hNone
      putPart := fun _ _ _ _ _ hNone => hNone
      put := fun bucket index content _ hNone =>
        hNumbered bucket index content hNone
      remove := fun bucket key hNone =>
        ⟨hRemoved bucket key _ hNone.1,
          hRemoved bucket key _ hNone.2⟩
      abort := fun _ _ _ hNone => hNone }

variable {layout : PartLayout}
variable {sha256 : Bytes → String}
variable {file : Source}

/- An upload whose source fails never gets to the manifest. -/
theorem uploadChunked_keeps_hasNoFile
    (baseKey : String)
    (hFails : file.ending = .other) :
    Exchange.Keeps (HasNoFile baseKey)
      (uploadChunked layout sha256 baseKey file) := by
  apply Exchange.keeps_bind_of_done
  · exact
      uploadObjects_keeps (hasNoFile_kept baseKey)
        fun _ _ => trivial
  intro session upload session' hDone
  have hStart :
      UploadSound session.world sha256 baseKey
        { source := file
          objectIndex := 1
          objectSpans := []
          uploadedKeys := []
          totalSize := 0
          sourceEnded := false } [] :=
    ⟨SpelledBy.nil, fun _ hMember =>
      absurd hMember List.not_mem_nil⟩
  exact
    absurd hFails
      (uploadObjects_done hStart (by simp) hDone).2

theorem saveFile_keeps_hasNoFile
    (keyPrefix fileName : String)
    (hFails :
      file.ending = .other ∨
        file.ending = .unexpectedEOF ∧
          file.rest.length = layout.innerPartSize) :
    Exchange.Keeps
      (HasNoFile (buildObjectKey keyPrefix fileName))
      (saveFile layout sha256 keyPrefix fileName file) := by
  refine
    Exchange.keeps_bind (Exchange.keeps_checkCancelled _) ?_
  intro _
  refine Exchange.keeps_bind ?_ ?_
  · apply Exchange.keeps_request
    intro bucket bucket' _ hNone hEffect
    simp only [Option.some.injEq, Prod.mk.injEq] at hEffect
    rw [← hEffect.1]
    exact hNone
  intro _
  rw [saveFileContent_eq]
  rcases hFails with hOther | ⟨hUnexpected, hFull⟩
  · have hNotEof : file.ending ≠ .eof := by
      rw [hOther]
      simp
    split
    · exact Exchange.keeps_fail _
    split
    · exact Exchange.keeps_fail _
    · exact uploadChunked_keeps_hasNoFile _ hOther
  · have hNotEof : file.ending ≠ .eof := by
      rw [hUnexpected]
      simp
    rw [if_neg (by omega), if_pos hFull, if_neg hNotEof]
    exact Exchange.keeps_fail _

/-
  A failing source is never stored exactly when its error does
  not read like an end where it strikes.
-/
theorem never_stored_iff
    (layout : PartLayout)
    (sha256 : Bytes → String)
    (keyPrefix fileName : String)
    (file : Source)
    (hFails : file.ending ≠ .eof) :
    NeverStored layout sha256 keyPrefix fileName file ↔
      file.ending ≠ .unexpectedEOF ∨
        file.rest.length = layout.innerPartSize := by
  constructor
  · intro hNever
    by_contra hReads
    push Not at hReads
    rcases saveFile_succeeds layout sha256 keyPrefix fileName
        { objects := [], uploads := [], nextUploadID := 1 }
        (Or.inr hReads) with
      ⟨bucket', hSucceeds⟩
    rcases done_of_succeeds hSucceeds with
      ⟨session, session', hStart, _, hDone⟩
    have hUnused :
        session.world.IsUnused
          (buildObjectKey keyPrefix fileName) := by
      rw [hStart]
      exact ⟨rfl, rfl, fun _ => rfl⟩
    apply (hNever session hUnused).1
    rw [hDone]
  · intro hReads session hUnused
    have hEnding :
        file.ending = .other ∨
          file.ending = .unexpectedEOF ∧
            file.rest.length = layout.innerPartSize := by
      cases hCase : file.ending with
      | eof => exact absurd hCase hFails
      | other => exact Or.inl rfl
      | unexpectedEOF =>
          rcases hReads with hOther | hFull
          · exact absurd hCase hOther
          · exact Or.inr ⟨rfl, hFull⟩
    refine ⟨?_, ?_⟩
    · intro hDone
      rcases hRun :
          saveFile layout sha256 keyPrefix fileName file
            session with
        ⟨outcome, session'⟩
      rw [hRun] at hDone
      simp only at hDone
      rw [hDone] at hRun
      rcases saveFile_done hUnused hRun with
        ⟨_, hOther, hUnexpected⟩
      rcases hEnding with hCase | ⟨hCase, hFull⟩
      · exact hOther hCase
      · exact hUnexpected hCase hFull
    · exact
        saveFile_keeps_hasNoFile keyPrefix fileName hEnding
          session ⟨hUnused.plain, hUnused.manifest⟩

/- An error of the source is seen after one byte. -/
theorem never_stored_after_one_byte :
    NeverStored defaultPartLayout (fun _ => "") "" "wal"
      { rest := [1], ending := .other } :=
  (never_stored_iff defaultPartLayout (fun _ => "") "" "wal"
    { rest := [1], ending := .other } (by decide)).mpr
      (Or.inl (by decide))

/-
  A dump that breaks off with an unexpected end is stored as a
  whole file.
-/
theorem broken_source_is_stored :
    ¬ ∀ (layout : PartLayout)
        (sha256 : Bytes → String)
        (keyPrefix fileName : String)
        (file : Source),
      file.ending ≠ .eof →
        NeverStored layout sha256 keyPrefix fileName file := by
  intro hClaim
  have hNever :=
    hClaim defaultPartLayout (fun _ => "") "" "wal"
      { rest := [1, 2, 3], ending := .unexpectedEOF }
      (by decide)
      { world :=
          { objects := [], uploads := [], nextUploadID := 1 }
        answers := List.replicate 3 .succeeded }
      ⟨rfl, rfl, fun _ => rfl⟩
  exact absurd (by decide +kernel) hNever.1

end S3

end Storages

end Databasus
