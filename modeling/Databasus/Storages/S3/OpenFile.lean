import Databasus.Storages.S3.ReaderSoundness

/-
  Opening a stored file, and the round trip from saving it.

  A manifest is looked for first; without one the file is a
  plain object.  What a save stored is delivered again, up to
  the end or up to a failure that the reader may not repair: a
  spent retry budget, or a reply to a resumed read that does
  not show where it starts.

  Main declarations:
    * `readManifest`
    * `openFile`
    * `openFile_done`
    * `FailsOnlyConnections`
    * `opened_file_delivers_saved_bytes`
-/

------------------------------------------------------------
-- Opening
------------------------------------------------------------

namespace Databasus

namespace Storages

namespace S3

open Foundation Iox

variable {ε : Type}
variable {error : ε}
variable {key : String}
variable {body : Bytes}
variable {baseKey : String}
variable {found : Option ChunkedManifest}
variable {bucket : Bucket}

inductive ManifestError
  | statFailed
  | readFailed
  | parseFailed
deriving DecidableEq, Repr

inductive OpenError
  | clientFailed
  | manifestFailed (cause : ManifestError)
  | fileMissing
  | statFailed
deriving DecidableEq, Repr

/- The size of an object, if there is one. -/
def statObject
    {ε : Type}
    (error : ε)
    (key : String) : Exchange Bucket ε (Option Nat) :=
  Exchange.request
    (fun bucket =>
      some (bucket, (bucket.find key).map List.length))
    fun _ => error

def getObject
    {ε : Type}
    (error : ε)
    (key : String) : Exchange Bucket ε Bytes :=
  Exchange.request
    (fun bucket =>
      (bucket.find key).map fun content => (bucket, content))
    fun _ => error

def readManifest
    {ε : Type}
    (error : ManifestError → ε)
    (baseKey : String) :
    Exchange Bucket ε (Option ChunkedManifest) := do
  let manifestKey := manifestObjectKey baseKey
  let info ← statObject (error .statFailed) manifestKey
  match info with
  | none => pure none
  | some _ => do
      let body ← getObject (error .readFailed) manifestKey
      let manifest ←
        Exchange.ofOption (error .parseFailed)
          (unmarshalManifest body)
      pure (some manifest)

def openFile
    (keyPrefix fileName : String) :
    Exchange Bucket OpenError Reader := do
  getClient .clientFailed
  let baseKey := buildObjectKey keyPrefix fileName
  let found ← readManifest .manifestFailed baseKey
  match found with
  | some manifest =>
      pure (newReassemblingReader manifest.parts true 0)
  | none => do
      let info ← statObject .statFailed baseKey
      let size ← Exchange.ofOption .fileMissing info
      pure
        (newReassemblingReader
          [{ key := baseKey, size := size, sha256 := "" }]
          false 0)

variable {sha256 : Bytes → String}
variable {keyPrefix fileName : String}
variable {content : Bytes}
variable {session session' : Session Bucket}

theorem statObject_done
    {info : Option Nat}
    (hDone :
      statObject error key session = (.done info, session')) :
    info = (session.world.find key).map List.length ∧
      session'.world = session.world := by
  rcases Exchange.request_done.mp hDone with ⟨_, hEffect⟩
  simp only [Option.some.injEq, Prod.mk.injEq] at hEffect
  exact ⟨hEffect.2.symm, hEffect.1.symm⟩

theorem getObject_done
    (hDone :
      getObject error key session = (.done body, session')) :
    session.world.find key = some body ∧
      session'.world = session.world := by
  rcases Exchange.request_done.mp hDone with ⟨_, hEffect⟩
  simp only [Option.map_eq_some_iff, Prod.mk.injEq]
    at hEffect
  rcases hEffect with ⟨_, hFind, hWorld, rfl⟩
  exact ⟨hFind, hWorld.symm⟩

/- A manifest is found exactly when its object is stored. -/
theorem readManifest_done
    {error : ManifestError → ε}
    (hDone :
      readManifest error baseKey session =
        (.done found, session')) :
    session'.world = session.world ∧
      match session.world.find (manifestObjectKey baseKey) with
      | none => found = none
      | some body =>
          ∃ manifest, unmarshalManifest body = some manifest ∧
            found = some manifest := by
  simp only [readManifest, Exchange.bind_done] at hDone
  rcases hDone with ⟨info, between, hStat, hDone⟩
  rcases statObject_done hStat with ⟨hInfo, hWorld⟩
  cases hFind :
    session.world.find (manifestObjectKey baseKey) with
  | none =>
      rw [hFind] at hInfo
      rw [hInfo] at hDone
      rcases Exchange.pure_done.mp hDone with ⟨rfl, rfl⟩
      exact ⟨hWorld, rfl⟩
  | some body =>
      rw [hFind] at hInfo
      rw [hInfo] at hDone
      simp only [Option.map_some, Exchange.bind_done,
        Exchange.ofOption_done, Exchange.pure_done] at hDone
      rcases hDone with
        ⟨stored, after, hGet, manifest, _, ⟨hParse, rfl⟩,
          rfl, rfl⟩
      rcases getObject_done hGet with ⟨hStored, hAfter⟩
      rw [hWorld, hFind] at hStored
      cases hStored
      exact ⟨hAfter.trans hWorld, manifest, hParse, rfl⟩

theorem statObject_succeeds
    (error : ε)
    (key : String)
    (bucket : Bucket) :
    Exchange.Succeeds (statObject error key) bucket
      ((bucket.find key).map List.length) bucket :=
  Exchange.succeeds_request rfl

theorem getObject_succeeds
    (error : ε)
    (hFind : bucket.find key = some body) :
    Exchange.Succeeds (getObject error key) bucket body
      bucket := by
  apply Exchange.succeeds_request
  rw [hFind]
  rfl

/- Only a manifest that does not parse cannot be read. -/
theorem readManifest_succeeds
    (error : ManifestError → ε)
    (hFound :
      match bucket.find (manifestObjectKey baseKey) with
      | none => found = none
      | some body =>
          ∃ manifest, unmarshalManifest body = some manifest ∧
            found = some manifest) :
    Exchange.Succeeds (readManifest error baseKey) bucket
      found bucket := by
  have hStat :=
    statObject_succeeds (error .statFailed)
      (manifestObjectKey baseKey) bucket
  refine Exchange.succeeds_bind hStat ?_
  cases hFind : bucket.find (manifestObjectKey baseKey) with
  | none =>
      rw [hFind] at hFound
      rw [hFound]
      exact Exchange.succeeds_pure none bucket
  | some body =>
      rw [hFind] at hFound
      rcases hFound with ⟨manifest, hParse, rfl⟩
      refine
        Exchange.succeeds_bind
          (getObject_succeeds (error .readFailed) hFind) ?_
      rw [hParse]
      exact
        Exchange.succeeds_bind
          (Exchange.succeeds_pure manifest bucket)
          (Exchange.succeeds_pure (some manifest) bucket)

/- The reader of an opened file starts with all of it. -/
theorem openFile_done
    (session : Session Bucket)
    {r : Reader}
    (hStored :
      StoresFile session.world sha256
        (buildObjectKey keyPrefix fileName) content)
    (hDone :
      openFile keyPrefix fileName session =
        (.done r, session')) :
    ReaderSound session.world sha256 content.length r
      content := by
  simp only [openFile, Exchange.bind_done] at hDone
  rcases hDone with
    ⟨_, connected, hClient, found, between, hManifest, hDone⟩
  have hConnected := getClient_done hClient
  rcases readManifest_done hManifest with ⟨hWorld, hFound⟩
  rw [hConnected] at hFound hWorld
  cases hStored with
  | plain hPlain hNone =>
      rw [hNone] at hFound
      rw [hFound] at hDone
      simp only [Exchange.bind_done, Exchange.ofOption_done,
        Exchange.pure_done] at hDone
      rcases hDone with
        ⟨info, _, hStat, size, _, ⟨hInfo, rfl⟩, rfl, rfl⟩
      have hSize := (statObject_done hStat).1
      rw [hWorld, hPlain, hInfo] at hSize
      cases hSize
      apply newReassemblingReader_sound
      have hHeld :
          HoldsSpan session.world sha256 false
            { key := buildObjectKey keyPrefix fileName
              size := content.length
              sha256 := "" }
            content :=
        ⟨hPlain, rfl, fun hChecked => by cases hChecked⟩
      have hSpelled := SpelledBy.cons hHeld SpelledBy.nil
      rw [List.append_nil] at hSpelled
      exact hSpelled
  | chunked manifest hBody hSpelled =>
      rw [hBody] at hFound
      rcases hFound with ⟨parsed, hParse, rfl⟩
      rw [unmarshal_marshalManifest] at hParse
      cases hParse
      simp only [Exchange.pure_done] at hDone
      rw [← hDone.1]
      exact newReassemblingReader_sound hSpelled 0

/- A stored file opens when the requests are answered. -/
theorem openFile_succeeds
    (hStored :
      StoresFile session.world sha256
        (buildObjectKey keyPrefix fileName) content) :
    ∃ r,
      Exchange.Succeeds (openFile keyPrefix fileName)
        session.world r session.world := by
  cases hStored with
  | plain hPlain hNone =>
      refine ⟨newReassemblingReader
        [{ key := buildObjectKey keyPrefix fileName
           size := content.length
           sha256 := "" }] false 0, ?_⟩
      have hManifest :
          Exchange.Succeeds
            (readManifest OpenError.manifestFailed
              (buildObjectKey keyPrefix fileName))
            session.world none session.world := by
        apply readManifest_succeeds
        rw [hNone]
      have hStat :=
        statObject_succeeds OpenError.statFailed
          (buildObjectKey keyPrefix fileName) session.world
      rw [hPlain] at hStat
      exact
        Exchange.succeeds_bind (Exchange.succeeds_request rfl)
          (Exchange.succeeds_bind hManifest
            (Exchange.succeeds_bind hStat
              (Exchange.succeeds_bind
                (Exchange.succeeds_pure content.length
                  session.world)
                (Exchange.succeeds_pure _ session.world))))
  | chunked manifest hBody _ =>
      refine ⟨newReassemblingReader manifest.parts true 0, ?_⟩
      have hManifest :
          Exchange.Succeeds
            (readManifest OpenError.manifestFailed
              (buildObjectKey keyPrefix fileName))
            session.world (some manifest) session.world := by
        apply readManifest_succeeds
        rw [hBody]
        exact
          ⟨manifest, unmarshal_marshalManifest manifest, rfl⟩
      exact
        Exchange.succeeds_bind (Exchange.succeeds_request rfl)
          (Exchange.succeeds_bind hManifest
            (Exchange.succeeds_pure _ session.world))

------------------------------------------------------------
-- Round Trip
------------------------------------------------------------

/-
  Nothing but connections fail: nobody cancels the stream, and
  an open that is replied to with an error may be retried.
-/
def FailsOnlyConnections
    (script : Nat → Moment) : Prop :=
  ∀ turn,
    (script turn).isCancelled = false ∧
      (script turn).isCancelledAfterFailure = false ∧
      (script turn).isCancelledWhileWaiting = false ∧
      ∀ statusCode,
        (script turn).opening = .errorResponse statusCode →
          isRetryableStatus statusCode = true

/- The retry budget did not survive. -/
def Delivery.RanOutOfRetries (delivery : Delivery) : Prop :=
  ∃ key offset cause,
    delivery.ending =
      some (.readRetryBudgetExhausted key offset cause)

/-
  The last turn resumed a part, and the reply did not show
  that it starts where the part was left.
-/
def Delivery.WasRefusedResumption
    (delivery : Delivery)
    (script : Nat → Moment)
    (total : Nat) : Prop :=
  ∃ key offset reply,
    delivery.ending =
        some (.refused (.rangeNotHonoured key offset)) ∧
      0 < offset ∧
      (script (delivery.turns - 1)).opening =
        .answered reply ∧
      ¬ reply.ProvesStart total

/- Connection failures end reads in two ways only. -/
theorem ending_of_failsOnlyConnections
    {script : Nat → Moment}
    {remaining : Bytes}
    {total : Nat}
    {delivery : Delivery}
    {cause : ReadError}
    {turn : Nat}
    (hScript : FailsOnlyConnections script)
    (hEnding : delivery.ending = some cause)
    (hTurn : turn + 1 = delivery.turns)
    (hExplained :
      cause.IsExplained (script turn) total remaining) :
    delivery.ending = some .eof ∧ remaining = [] ∨
      delivery.RanOutOfRetries ∨
      delivery.WasRefusedResumption script total := by
  rcases hScript turn with
    ⟨hStart, hAfter, hWaiting, hStatus⟩
  cases cause with
  | eof => exact Or.inl ⟨hEnding, hExplained⟩
  | readerClosed => exact absurd hExplained id
  | cancelled =>
      rcases hExplained with hAny | hAny | hAny
      · rw [hStart] at hAny
        cases hAny
      · rw [hAfter] at hAny
        cases hAny
      · rw [hWaiting] at hAny
        cases hAny
  | readRetryBudgetExhausted key offset failure =>
      exact Or.inr (Or.inl ⟨key, offset, failure, hEnding⟩)
  | unfinished => exact absurd hExplained id
  | refused failure =>
      cases failure with
      | openFailed key statusCode =>
          cases statusCode with
          | none => exact absurd hExplained id
          | some statusCode =>
              have hRetryable := hStatus statusCode hExplained.1
              rw [hExplained.2] at hRetryable
              cases hRetryable
      | readFailed key => exact absurd hExplained id
      | rangeNotHonoured key offset =>
          rcases hExplained with
            ⟨hOffset, reply, hReply, hProves⟩
          refine
            Or.inr
              (Or.inr
                ⟨key, offset, reply, hEnding, hOffset, ?_,
                  hProves⟩)
          rw [← hTurn]
          exact hReply
      | chunkSizeMismatch key => exact absurd hExplained id
      | chunkChecksumMismatch key => exact absurd hExplained id

/-
  What was saved under an unused name opens again, and its
  reads deliver a prefix of it, all of it before the end.
  When only connections fail, reads with room enough come to
  the end, unless the retry budget is spent or the reply to a
  resumed read does not show where it starts.
-/
theorem opened_file_delivers_saved_bytes
    (layout : PartLayout)
    (sha256 : Bytes → String)
    (keyPrefix fileName : String)
    (content : Bytes)
    (session : Session Bucket)
    (hUnused :
      session.world.IsUnused
        (buildObjectKey keyPrefix fileName))
    (hSaved :
      (saveFile layout sha256 keyPrefix fileName
        { rest := content, ending := .eof } session).1 =
      .done ()) :
    let bucket :=
      (saveFile layout sha256 keyPrefix fileName
        { rest := content, ending := .eof } session).2.world
    (∃ r,
      Exchange.Succeeds (openFile keyPrefix fileName) bucket
        r bucket) ∧
      ∀ answers r,
        (openFile keyPrefix fileName
            { world := bucket, answers := answers }).1 =
          .done r →
        ∀ script sizes,
          let delivery :=
            r.deliver bucket sha256 script sizes 0
          delivery.bytes <+: content ∧
            (delivery.ending = some .eof →
              delivery.bytes = content) ∧
            (FailsOnlyConnections script →
              content.length < sizes.countP (0 < ·) →
              delivery.ending = some .eof ∧
                  delivery.bytes = content ∨
                delivery.RanOutOfRetries ∨
                delivery.WasRefusedResumption script
                  content.length) := by
  rcases hRun :
      saveFile layout sha256 keyPrefix fileName
        { rest := content, ending := .eof } session with
    ⟨outcome, after⟩
  rw [hRun] at hSaved
  simp only at hSaved
  rw [hSaved] at hRun
  have hStored := (saveFile_done hUnused hRun).1
  refine ⟨openFile_succeeds hStored, ?_⟩
  intro answers r hOpened script sizes
  rcases hOpen :
      openFile keyPrefix fileName
        { world := after.world, answers := answers } with
    ⟨opened, later⟩
  rw [hOpen] at hOpened
  simp only at hOpened
  rw [hOpened] at hOpen
  have hSound :=
    openFile_done { world := after.world, answers := answers }
      hStored hOpen
  rcases deliver_sound script sizes 0 hSound with
    ⟨remaining, hSplit, hEnded, hLive⟩
  simp only at hSplit
  have hWhole :
      remaining = [] →
        (r.deliver after.world sha256 script sizes 0).bytes =
          content := by
    rintro rfl
    rw [List.append_nil] at hSplit
    exact hSplit.symm
  refine ⟨⟨remaining, hSplit.symm⟩, ?_, ?_⟩
  · intro hEof
    rcases hEnded .eof hEof with ⟨turn, _, hRemaining⟩
    exact hWhole hRemaining
  · intro hScript hEnough
    rcases Option.ne_none_iff_exists'.mp (hLive hEnough) with
      ⟨cause, hEnding⟩
    rcases hEnded cause hEnding with
      ⟨turn, hTurn, hExplained⟩
    rcases ending_of_failsOnlyConnections hScript hEnding
        hTurn hExplained with
      ⟨hEof, hRemaining⟩ | hOther
    · exact Or.inl ⟨hEof, hWhole hRemaining⟩
    · exact Or.inr hOther

/- Three bytes in objects of two, with their digests. -/
theorem opened_file_delivers_saved_bytes_chunked :
    ∃ (layout : PartLayout)
        (sha256 : Bytes → String)
        (bucket : Bucket)
        (r : Reader),
      sha256 [1, 2] =
          "a12871fee210fb8619291eaea194581cbd2531e4b23759d225f6806923f63222" ∧
        sha256 [3] =
          "084fed08b978af4d7d196a7446a86b58009e636b611db16211b65a9aadff29c5" ∧
        layout.innerPartSize = 1 ∧
        layout.maxPartsPerObject = 2 ∧
        Exchange.Succeeds (openFile "/backups" "wal") bucket r
          bucket := by
  let layout : PartLayout :=
    { innerPartSize := 1
      maxPartsPerObject := 2
      innerPartSize_pos := by decide
      maxPartsPerObject_pos := by decide }
  let sha256 : Bytes → String := fun bytes =>
    if bytes = [1, 2] then
      "a12871fee210fb8619291eaea194581cbd2531e4b23759d225f6806923f63222"
    else
      "084fed08b978af4d7d196a7446a86b58009e636b611db16211b65a9aadff29c5"
  let session : Session Bucket :=
    { world :=
        { objects := [], uploads := [], nextUploadID := 1 }
      answers := List.replicate 14 .succeeded }
  have hUnused :
      session.world.IsUnused
        (buildObjectKey "/backups" "wal") :=
    ⟨rfl, rfl, fun _ => rfl⟩
  have hSaved :
      (saveFile layout sha256 "/backups" "wal"
        { rest := [1, 2, 3], ending := .eof } session).1 =
        .done () := by
    decide +kernel
  have hRoundTrip :=
    opened_file_delivers_saved_bytes layout sha256 "/backups"
      "wal" [1, 2, 3] session hUnused hSaved
  rcases hRoundTrip.1 with ⟨r, hOpens⟩
  exact
    ⟨layout, sha256, _, r, by decide, by decide, rfl, rfl,
      hOpens⟩

/-
  The first connection breaks after one byte, and the server
  answers the resumed read with the whole object.
-/
theorem ignored_range_ends_the_read :
    ¬ ∀ (layout : PartLayout)
        (sha256 : Bytes → String)
        (keyPrefix fileName : String)
        (content : Bytes)
        (session : Session Bucket)
        (answers : List Answer)
        (r : Reader)
        (script : Nat → Moment)
        (sizes : List Nat),
      let saved :=
        saveFile layout sha256 keyPrefix fileName
          { rest := content, ending := .eof } session
      let delivery :=
        r.deliver saved.2.world sha256 script sizes 0
      session.world.IsUnused
          (buildObjectKey keyPrefix fileName) →
        saved.1 = .done () →
        (openFile keyPrefix fileName
            { world := saved.2.world
              answers := answers }).1 =
          .done r →
        FailsOnlyConnections script →
        content.length < sizes.countP (0 < ·) →
        ¬ delivery.RanOutOfRetries →
          delivery.ending = some .eof ∧
            delivery.bytes = content := by
  intro hClaim
  let script : Nat → Moment := fun turn =>
    { isCancelled := false
      isCancelledAfterFailure := false
      isCancelledWhileWaiting := false
      opening :=
        .answered
          { isRangeIgnored := true
            isContentRangeSent := false
            isLengthDeclared := true }
      body := .breaks 1 }
  let r :=
    newReassemblingReader
      [{ key := "wal", size := 3, sha256 := "" }] false 0
  let bucket : Bucket :=
    { objects := [{ key := "wal", content := [1, 2, 3] }]
      uploads := []
      nextUploadID := 1 }
  have hDelivery :
      r.deliver bucket (fun _ => "") script [4, 4, 4, 4] 0 =
        { bytes := [1]
          ending :=
            some (.refused (.rangeNotHonoured "wal" 1))
          turns := 2 } := by
    decide +kernel
  have hAll :=
    hClaim defaultPartLayout (fun _ => "") "" "wal" [1, 2, 3]
      { world :=
          { objects := [], uploads := [], nextUploadID := 1 }
        answers := List.replicate 3 .succeeded }
      (List.replicate 3 .succeeded) r script [4, 4, 4, 4]
      ⟨rfl, rfl, fun _ => rfl⟩ (by decide +kernel)
      (by decide +kernel)
      (fun _ =>
        ⟨rfl, rfl, rfl, fun _ hError => by cases hError⟩)
      (by decide)
  have hBucket :
      (saveFile defaultPartLayout (fun _ => "") "" "wal"
          { rest := [1, 2, 3], ending := .eof }
          { world :=
              { objects := []
                uploads := []
                nextUploadID := 1 }
            answers := List.replicate 3 .succeeded }).2.world =
        bucket := by
    decide +kernel
  rw [hBucket, hDelivery] at hAll
  have hEnding :=
    (hAll fun hRetries => by
      rcases hRetries with ⟨_, _, _, hSpent⟩
      cases hSpent).1
  cases hEnding

end S3

end Storages

end Databasus
