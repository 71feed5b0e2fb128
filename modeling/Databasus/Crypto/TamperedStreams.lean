import Databasus.Crypto.SealedStreams
import Mathlib.Data.List.Nodup

/-
  Streams that were changed after they were sealed.

  With an ideal cipher a reader opens the chunks of its
  stream in their order and nothing else, so what it serves
  is a prefix of the plain bytes.  It reports a clean end at
  the end of a chunk, and also where the input ends right
  behind a chunk's length.

  Main declarations:
    * `OpenedSoFar`
    * `opened_keeps`
    * `EndsBehindPrefix`
    * `StreamPromise`
    * `streamPromise_iff`
-/

------------------------------------------------------------
-- Nonces
------------------------------------------------------------

namespace Databasus

namespace Crypto

variable {streamNonce : Bytes}
variable {chunks : List Bytes}

/- The index of a chunk is known by its nonce. -/
theorem index_eq_of_nonce
    {left right : Nat}
    (hLeft : left < 2 ^ 64)
    (hRight : right < 2 ^ 64)
    (hSame :
      getChunkNonce streamNonce (UInt64.ofNat left) =
        getChunkNonce streamNonce (UInt64.ofNat right)) :
    left = right := by
  have hIndex := congrArg UInt64.toNat (getChunkNonce_inj hSame)
  rw [UInt64.toNat_ofNat_of_lt' hLeft,
    UInt64.toNat_ofNat_of_lt' hRight] at hIndex
  exact hIndex

/- The counter of the chunks starts over after these. -/
def maxStreamChunks : Nat := 2 ^ 64

theorem nonces_nodup_iff
    (streamNonce : Bytes)
    (chunks : List Bytes) :
    ((sealLog streamNonce chunks).map Prod.fst).Nodup ↔
      chunks.length ≤ maxStreamChunks := by
  have hLength :
      ((sealLog streamNonce chunks).map Prod.fst).length =
        chunks.length := by
    rw [List.length_map, length_sealLog]
  have hAt :
      ∀ index
        (hIndex :
          index <
            ((sealLog streamNonce chunks).map
              Prod.fst).length),
        ((sealLog streamNonce chunks).map
            Prod.fst)[index] =
          getChunkNonce streamNonce (UInt64.ofNat index) := by
    intro index hIndex
    have hChunk : index < chunks.length := by
      rw [← hLength]
      exact hIndex
    rw [List.getElem_map, getElem_sealLog _ hChunk]
  constructor
  · intro hNodup
    by_contra hMany
    have hLast : maxStreamChunks < chunks.length :=
      Nat.lt_of_not_le hMany
    have hZero : 0 < chunks.length := by omega
    rw [← hLength] at hLast hZero
    have hSame :
        ((sealLog streamNonce chunks).map Prod.fst)[0] =
          ((sealLog streamNonce chunks).map
            Prod.fst)[maxStreamChunks] := by
      rw [hAt 0 hZero, hAt maxStreamChunks hLast]
      rfl
    have hIndex := (List.Nodup.getElem_inj_iff hNodup).mp hSame
    exact absurd hIndex (by decide)
  · intro hFew
    rw [List.nodup_iff_injective_getElem]
    rintro ⟨left, hLeft⟩ ⟨right, hRight⟩ hSame
    have hNonce :=
      (hAt left hLeft).symm.trans
        (hSame.trans (hAt right hRight))
    rw [hLength] at hLeft hRight
    apply Fin.ext
    exact index_eq_of_nonce
      (Nat.lt_of_lt_of_le hLeft hFew)
      (Nat.lt_of_lt_of_le hRight hFew) hNonce

------------------------------------------------------------
-- Where a Stream Ends
------------------------------------------------------------

/- The body of a stream that was cut at the end of a chunk. -/
def EndsAtChunk
    (frames : List Bytes)
    (body : Bytes) : Prop :=
  ∃ count, body = (frames.take count).flatten

/- A body that was cut right behind the length of a chunk. -/
def EndsBehindPrefix
    (aead : Aead)
    (frames : List Bytes)
    (body : Bytes) : Prop :=
  ∃ count lone,
    DecryptingReader.IsLonePrefix aead lone ∧
      body = (frames.take count).flatten ++ lone

/-
  After as many chunks as the counter can number, the first
  one again.
-/
def StartsOver
    (frames : List Bytes)
    (body : Bytes) : Prop :=
  frames.length = maxStreamChunks ∧
    ∃ first rest,
      frames.head? = some first ∧
        body = frames.flatten ++ first ++ rest

------------------------------------------------------------
-- What a Reader Has Opened
------------------------------------------------------------

variable {aead : Aead}
variable {body taken : Bytes}

/-
  A reader that opened the first `count` chunks; the bytes
  taken from it and those in its buffer are theirs.
-/
structure OpenedCount
    (aead : Aead)
    (streamNonce : Bytes)
    (chunks : List Bytes)
    (body taken : Bytes)
    (count : Nat)
    (r : DecryptingReader) : Prop where
  cipher_eq : r.cipher = aead
  streamNonce_eq : r.streamNonce = streamNonce
  ending_eq : r.input.ending = .eof
  count_le : count ≤ chunks.length
  buffered : taken ++ r.buffer = (chunks.take count).flatten
  unread :
    r.isEOF = false →
      r.chunkIndex = UInt64.ofNat count ∧
        body =
          ((streamFrames aead streamNonce chunks).take
            count).flatten ++ r.input.rest
  atEnd :
    r.isEOF = true →
      EndsAtChunk (streamFrames aead streamNonce chunks)
          body ∨
        EndsBehindPrefix aead
          (streamFrames aead streamNonce chunks) body

def OpenedSoFar
    (aead : Aead)
    (streamNonce : Bytes)
    (chunks : List Bytes)
    (body taken : Bytes)
    (r : DecryptingReader) : Prop :=
  ∃ count,
    OpenedCount aead streamNonce chunks body taken count r

/-
  An ideal cipher opens the next chunk only.  The counter of
  a stream of `maxStreamChunks` chunks is at its start again
  after the last one.
-/
theorem next_of_opened
    {r next : DecryptingReader}
    {sealedChunk chunk : Bytes}
    {count : Nat}
    (hIdeal : aead.IdealFor (sealLog streamNonce chunks))
    (hFew : chunks.length ≤ maxStreamChunks)
    (hOnce :
      ¬ StartsOver (streamFrames aead streamNonce chunks)
        body)
    (hCount :
      OpenedCount aead streamNonce chunks body taken count r)
    (hOpen : r.isEOF = false)
    (hOpened :
      DecryptingReader.OpenedChunk r next sealedChunk
        chunk) :
    ∃ hNext : count < chunks.length,
      chunk = chunks[count] ∧
        sealedChunk =
          aead.seals
            (getChunkNonce streamNonce
              (UInt64.ofNat count)) chunk := by
  rcases hCount.unread hOpen with ⟨hChunkIndex, hBody⟩
  have hOpens := hOpened.opened
  rw [hCount.cipher_eq, hCount.streamNonce_eq, hChunkIndex]
    at hOpens
  rcases hIdeal.sealed_of_opens _ _ _ hOpens with
    ⟨hLogged, hSealed⟩
  rcases mem_sealLog_iff.mp hLogged with
    ⟨index, hIndex, hNonce, hChunk⟩
  have hIndexFits : index < 2 ^ 64 :=
    Nat.lt_of_lt_of_le hIndex hFew
  rcases Nat.lt_or_ge count maxStreamChunks with
    hCountFits | hFull
  · have hSame :=
      index_eq_of_nonce hCountFits hIndexFits hNonce
    subst hSame
    exact ⟨hIndex, hChunk, hSealed⟩
  · -- All chunks are behind, and the first one came again.
    have hAll : count = chunks.length :=
      Nat.le_antisymm hCount.count_le
        (Nat.le_trans hFew hFull)
    have hLength : chunks.length = maxStreamChunks :=
      Nat.le_antisymm hFew (hAll ▸ hFull)
    have hCounter : UInt64.ofNat count = UInt64.ofNat 0 := by
      rw [hAll, hLength]
      rfl
    rw [hCounter] at hNonce hSealed
    have hFirst : 0 = index :=
      index_eq_of_nonce (by decide) hIndexFits hNonce
    subst hFirst
    have hFirstChunk : chunk = chunks[0] := hChunk
    exfalso
    apply hOnce
    refine ⟨?_, chunkFrame sealedChunk, next.input.rest, ?_,
      ?_⟩
    · rw [length_streamFrames]
      exact hLength
    · have hHead :
          0 < (streamFrames aead streamNonce
            chunks).length := by
        rw [length_streamFrames]
        exact hIndex
      rw [List.head?_eq_getElem?,
        List.getElem?_eq_getElem hHead,
        getElem_streamFrames aead streamNonce hIndex,
        hSealed, hFirstChunk]
    · rw [hBody, hOpened.input_eq, List.take_of_length_le,
        List.append_assoc]
      rw [length_streamFrames, hAll]

theorem opened_keeps
    (hIdeal : aead.IdealFor (sealLog streamNonce chunks))
    (hFew : chunks.length ≤ maxStreamChunks)
    (hOnce :
      ¬ StartsOver (streamFrames aead streamNonce chunks)
        body) :
    DecryptingReader.Keeps
      (OpenedSoFar aead streamNonce chunks body taken) := by
  constructor
  · rintro r next sealedChunk chunk ⟨count, hCount⟩ hOpen
      hOpened
    rcases hCount.unread hOpen with ⟨hChunkIndex, hBody⟩
    rcases
      next_of_opened hIdeal hFew hOnce hCount hOpen hOpened
      with ⟨hNext, hChunk, hSealed⟩
    have hSame := hOpened.sameStream
    refine ⟨count + 1, ?_⟩
    constructor
    · exact hSame.cipher_eq.trans hCount.cipher_eq
    · exact hSame.streamNonce_eq.trans hCount.streamNonce_eq
    · exact hSame.ending_eq.trans hCount.ending_eq
    · exact hNext
    · rw [hOpened.buffer_eq, ← List.append_assoc,
        hCount.buffered, flatten_take_succ hNext, hChunk]
    · intro hStillOpen
      have hFrame :
          count <
            (streamFrames aead streamNonce
              chunks).length := by
        rw [length_streamFrames]
        exact hNext
      constructor
      · rw [hOpened.chunkIndex_eq, hChunkIndex]
        exact (UInt64.ofNat_add count 1).symm
      · rw [flatten_take_succ hFrame,
          getElem_streamFrames aead streamNonce hNext,
          ← hChunk, ← hSealed, List.append_assoc,
          ← hOpened.input_eq]
        exact hBody
    · intro hEOF
      rw [hOpened.isEOF_eq, hOpen] at hEOF
      cases hEOF
  · rintro r next ⟨count, hCount⟩ hOpen hFailed hEnd
    have hSame := hFailed.sameStream
    have hBody := (hCount.unread hOpen).2
    refine ⟨count, ?_⟩
    constructor
    · exact hSame.cipher_eq.trans hCount.cipher_eq
    · exact hSame.streamNonce_eq.trans hCount.streamNonce_eq
    · exact hSame.ending_eq.trans hCount.ending_eq
    · exact hCount.count_le
    · change taken ++ next.buffer = _
      rw [hFailed.buffer_eq]
      exact hCount.buffered
    · intro hNever
      cases hNever
    · intro hMarked
      rcases hEnd hCount.ending_eq with hNothing | hLone
      · left
        refine ⟨count, ?_⟩
        rw [hNothing, List.append_nil] at hBody
        exact hBody
      · right
        rw [hCount.cipher_eq] at hLone
        exact ⟨count, r.input.rest, hLone, hBody⟩

/- What is served goes on in the plain bytes. -/
theorem serve_opened
    {r : DecryptingReader}
    (hIdeal : aead.IdealFor (sealLog streamNonce chunks))
    (hFew : chunks.length ≤ maxStreamChunks)
    (hOnce :
      ¬ StartsOver (streamFrames aead streamNonce chunks)
        body)
    (hOpened :
      OpenedSoFar aead streamNonce chunks body taken r)
    (sizes : List Nat) :
    taken ++ (r.serve sizes).1 <+: chunks.flatten ∧
      ((∀ size ∈ sizes, 0 < size) →
        (r.serve sizes).2 = some (.sentinel .eof) →
          EndsAtChunk (streamFrames aead streamNonce chunks)
              body ∨
            EndsBehindPrefix aead
              (streamFrames aead streamNonce chunks)
              body) := by
  have hBuffered :
      ∀ taken r,
        OpenedSoFar aead streamNonce chunks body taken r →
          taken ++ r.buffer <+: chunks.flatten := by
    rintro taken r ⟨count, hCount⟩
    rw [hCount.buffered]
    have hSplit :=
      congrArg List.flatten
        (List.take_append_drop count chunks)
    rw [List.flatten_append] at hSplit
    exact ⟨(chunks.drop count).flatten, hSplit⟩
  have hTaken :
      ∀ taken r,
        OpenedSoFar aead streamNonce chunks body taken r →
          taken ++ [] <+: chunks.flatten := by
    intro taken r hSoFar
    rw [List.append_nil]
    exact (List.prefix_append taken r.buffer).trans
      (hBuffered taken r hSoFar)
  induction sizes generalizing taken r with
  | nil =>
      refine ⟨hTaken taken r hOpened, ?_⟩
      intro hAsked hNever
      cases hNever
  | cons size sizes ih =>
      have hOutcome :=
        DecryptingReader.read_cases
          (opened_keeps hIdeal hFew hOnce) hOpened size
      unfold DecryptingReader.serve
      cases hRead : r.read size with
      | mk data rest =>
      rw [hRead] at hOutcome
      cases hOutcome with
      | failed hErr =>
          refine ⟨hTaken taken r hOpened, ?_⟩
          intro hAsked hEOF
          injection hEOF with hSame
          rw [hSame] at hErr
          cases hErr
      | ended hFilled hEmpty hEOF =>
          refine ⟨hTaken taken r hOpened, ?_⟩
          intro hAsked hReported
          rcases hFilled with ⟨count, hCount⟩
          exact hCount.atEnd
            (hEOF (hAsked size List.mem_cons_self))
      | @served filled hFilled hSome =>
          have hNext :
              OpenedSoFar aead streamNonce chunks body
                (taken ++ filled.buffer.take size)
                { filled with
                  buffer := filled.buffer.drop size } := by
            rcases hFilled with ⟨count, hCount⟩
            refine ⟨count, hCount.cipher_eq,
              hCount.streamNonce_eq, hCount.ending_eq,
              hCount.count_le, ?_, hCount.unread,
              hCount.atEnd⟩
            rw [List.append_assoc, List.take_append_drop]
            exact hCount.buffered
          have hLater := ih hNext
          constructor
          · rw [← List.append_assoc]
            exact hLater.1
          · intro hAsked hReported
            exact hLater.2
              (fun other hOther =>
                hAsked other (List.mem_cons_of_mem _ hOther))
              hReported

------------------------------------------------------------
-- Ends That No Cut at a Chunk Makes
------------------------------------------------------------

theorem length_of_mem_streamFrames
    {frame : Bytes}
    (hIdeal : aead.IdealFor (sealLog streamNonce chunks))
    (hFrame :
      frame ∈ streamFrames aead streamNonce chunks) :
    streamChunkLengthLen < frame.length := by
  unfold streamFrames at hFrame
  rcases List.mem_map.mp hFrame with ⟨entry, hEntry, hSame⟩
  have hLength := hIdeal.length_seals entry.1 entry.2
  rw [← hSame, DecryptingReader.length_chunkFrame, hLength,
    hIdeal.overhead_eq]
  omega

/- A lone length is shorter than any frame. -/
theorem not_endsAtChunk_of_behindPrefix
    (hIdeal : aead.IdealFor (sealLog streamNonce chunks))
    (hBehind :
      EndsBehindPrefix aead
        (streamFrames aead streamNonce chunks) body) :
    ¬ EndsAtChunk (streamFrames aead streamNonce chunks)
      body := by
  rintro ⟨whole, hWhole⟩
  rcases hBehind with ⟨count, lone, hLone, hBody⟩
  rw [hBody] at hWhole
  rcases Nat.le_total count whole with hMore | hFewer
  · -- The lone length would be what lies between the cuts.
    have hSplit :=
      congrArg List.flatten
        (List.take_append_drop count
          ((streamFrames aead streamNonce chunks).take
            whole))
    rw [List.flatten_append, List.take_take,
      Nat.min_eq_left hMore, ← hWhole] at hSplit
    have hBetween := List.append_cancel_left hSplit
    have hLength := hLone.1
    rw [← hBetween] at hLength
    cases hFrames :
        ((streamFrames aead streamNonce chunks).take
          whole).drop count with
    | nil =>
        rw [hFrames] at hLength
        cases hLength
    | cons frame frames =>
        have hMember :
            frame ∈ streamFrames aead streamNonce chunks := by
          apply List.mem_of_mem_take (i := whole)
          apply List.mem_of_mem_drop (i := count)
          rw [hFrames]
          exact List.mem_cons_self
        have hLong := length_of_mem_streamFrames hIdeal hMember
        rw [hFrames, List.flatten_cons,
          List.length_append] at hLength
        omega
  · have hSplit :=
      congrArg List.flatten
        (List.take_append_drop whole
          ((streamFrames aead streamNonce chunks).take
            count))
    rw [List.flatten_append, List.take_take,
      Nat.min_eq_left hFewer, ← hWhole] at hSplit
    have hTotal := congrArg List.length hSplit
    have hLength := hLone.1
    have hPositive : 0 < streamChunkLengthLen := by decide
    simp only [List.length_append] at hTotal
    omega

/- The first chunk, opened again behind the last one. -/
theorem serve_startsOver
    (hIdeal : aead.IdealFor (sealLog streamNonce chunks))
    (hChunks :
      ∀ chunk ∈ chunks,
        chunk ≠ [] ∧ chunk.length ≤ streamChunkSize)
    (hOver :
      StartsOver (streamFrames aead streamNonce chunks)
        body) :
    ¬ ((readerAt aead streamNonce [] 0 body).serve
        [chunks.flatten.length + 1]).1 <+:
      chunks.flatten := by
  rcases hOver with ⟨hLength, first, rest, hFirst, hBody⟩
  rw [length_streamFrames] at hLength
  have hZero : 0 < chunks.length := by
    rw [hLength]
    decide
  have hHead :
      0 < (streamFrames aead streamNonce chunks).length := by
    rw [length_streamFrames]
    exact hZero
  have hFirstFrame :
      first =
        chunkFrame (aead.seals
          (getChunkNonce streamNonce
            (UInt64.ofNat 0)) chunks[0]) := by
    rw [List.head?_eq_getElem?,
      List.getElem?_eq_getElem hHead,
      getElem_streamFrames aead streamNonce hZero] at hFirst
    exact (Option.some.inj hFirst).symm
  have hShort :
      ∀ chunk ∈ chunks, chunk.length ≤ streamChunkSize :=
    fun chunk hChunk => (hChunks chunk hChunk).2
  have hFirstChunk := hChunks _ (List.getElem_mem hZero)
  have hFirstSome : 0 < chunks[0].length :=
    List.length_pos_iff.mpr hFirstChunk.1
  -- The counter is at its start again behind the chunks.
  have hCounter :
      ∀ buffer tail,
        readerAt aead streamNonce buffer chunks.length tail =
          readerAt aead streamNonce buffer 0 tail := by
    intro buffer tail
    unfold readerAt
    rw [hLength]
    rfl
  have hPasses :
      ∃ extra, body.length + 1 =
        chunks.length + (extra + 2) := by
    have hMany :=
      le_length_flatten_frames aead streamNonce chunks
        chunks.length
    have hPositive : 0 < streamChunkLengthLen := by decide
    rw [Nat.min_self, List.take_of_length_le
      (Nat.le_of_eq (length_streamFrames _ _ _))] at hMany
    refine ⟨body.length - chunks.length - 1, ?_⟩
    rw [hBody, hFirstFrame]
    simp only [List.length_append,
      DecryptingReader.length_chunkFrame]
    omega
  rcases hPasses with ⟨extra, hExtra⟩
  have hFrames :=
    fillBuffer_frames hIdeal.toOpens hShort (first ++ rest)
      (extra + 2) (chunks.flatten.length + 1)
      chunks.length 0 [] (by rw [Nat.zero_add])
      (by
        rw [List.drop_zero, List.take_length,
          List.nil_append]
        exact Nat.lt_succ_self _)
  have hAll :
      (streamFrames aead streamNonce chunks).take
          chunks.length =
        streamFrames aead streamNonce chunks :=
    List.take_of_length_le
      (Nat.le_of_eq (length_streamFrames _ _ _))
  rw [List.drop_zero, List.drop_zero, List.take_length, hAll,
    List.nil_append, Nat.zero_add, hCounter,
    ← List.append_assoc, ← hBody, ← hExtra, hFirstFrame]
    at hFrames
  have hAgain :=
    readAndOpenChunk_frame hIdeal.toOpens hZero
      (hShort _ (List.getElem_mem hZero)) chunks.flatten rest
  have hFilled :
      DecryptingReader.fillBuffer (body.length + 1)
          (readerAt aead streamNonce [] 0 body)
          (chunks.flatten.length + 1) =
        (none,
          readerAt aead streamNonce
            (chunks.flatten ++ chunks[0]) 1 rest) := by
    have hEnough :
        ¬ ((chunks.flatten ++ chunks[0]).length <
            chunks.flatten.length + 1 ∧
          (readerAt aead streamNonce
            (chunks.flatten ++ chunks[0]) 1 rest).isEOF =
            false) := by
      rintro ⟨hFew, hOpen⟩
      rw [List.length_append] at hFew
      omega
    rw [hFrames, DecryptingReader.fillBuffer,
      if_pos ⟨Nat.lt_succ_self _, rfl⟩, hAgain]
    simp only
    rw [DecryptingReader.fillBuffer]
    exact if_neg hEnough
  have hInput :
      (readerAt aead streamNonce [] 0 body).input.rest =
        body := rfl
  have hSome :
      (readerAt aead streamNonce
        (chunks.flatten ++ chunks[0]) 1 rest).buffer ≠
          [] := by
    intro hNone
    have hNothing := congrArg List.length hNone
    change (chunks.flatten ++ chunks[0]).length = 0 at hNothing
    rw [List.length_append] at hNothing
    omega
  unfold DecryptingReader.serve DecryptingReader.read
  rw [hInput, hFilled]
  simp only [if_neg hSome, DecryptingReader.serve,
    List.append_nil]
  intro hPrefix
  have hBound := hPrefix.length_le
  change
    ((chunks.flatten ++ chunks[0]).take
      (chunks.flatten.length + 1)).length ≤ _ at hBound
  rw [List.length_take, List.length_append] at hBound
  omega

------------------------------------------------------------
-- The Promise of a Reader
------------------------------------------------------------

/-
  What a reader of a stream, sealed and then changed, does
  for every sequence of reads of the `asked` sizes.
-/
structure StreamPromise
    (primitives : Primitives)
    (masterKey : Option MasterKey)
    (fileID : Uuid)
    (header : StreamHeader)
    (aead : Aead)
    (plaintext : Bytes)
    (asked : Nat → Prop)
    (stream : Bytes) : Prop where
  noncesDiffer :
    ((sealLog header.nonce
      (streamChunks plaintext)).map Prod.fst).Nodup
  servesPrefix :
    ∀ sizes : List Nat,
      (∀ size ∈ sizes, asked size) →
        (decryptStream primitives stream masterKey fileID
          header sizes).1 <+: plaintext
  endsAtChunk :
    ∀ sizes : List Nat,
      (∀ size ∈ sizes, asked size) →
        (decryptStream primitives stream masterKey fileID
            header sizes).2 = some (.sentinel .eof) →
          EndsAtChunk
            (streamFrames aead header.nonce
              (streamChunks plaintext))
            (stream.drop streamHeaderLen)

/-
  A stream that a reader is not misled by: it is not cut
  right behind the length of a chunk, and does not go on
  with its first chunk when the counter starts over.
-/
structure Unmisleading
    (header : StreamHeader)
    (aead : Aead)
    (plaintext : Bytes)
    (stream : Bytes) : Prop where
  numbered :
    (streamChunks plaintext).length ≤ maxStreamChunks
  notBehindPrefix :
    StartsWithHeader header stream →
      ¬ EndsBehindPrefix aead
        (streamFrames aead header.nonce
          (streamChunks plaintext))
        (stream.drop streamHeaderLen)
  notStartingOver :
    StartsWithHeader header stream →
      ¬ StartsOver
        (streamFrames aead header.nonce
          (streamChunks plaintext))
        (stream.drop streamHeaderLen)

variable {primitives : Primitives}
variable {masterKey : Option MasterKey}
variable {fileID : Uuid}
variable {header : StreamHeader}
variable {aead : Aead}
variable {plaintext stream : Bytes}
variable {asked : Nat → Prop}

/- A refused header is never reported as a clean end. -/
theorem readAndCheckStreamHeader_error
    {err : StreamError}
    {input : Iox.Source}
    (hRefused :
      readAndCheckStreamHeader input header = .error err) :
    err ≠ .sentinel .eof := by
  unfold readAndCheckStreamHeader at hRefused
  split at hRefused
  · injection hRefused with hErr
    rw [← hErr]
    exact fun hNever => nomatch hNever
  next rawHeader rest hRead =>
  split at hRefused
  · next cause hStored =>
      injection hRefused with hErr
      rw [← hErr]
      unfold unmarshalStreamHeader at hStored
      simp only at hStored
      split at hStored
      · injection hStored with hCause
        rw [← hCause]
        exact fun hNever => nomatch hNever
      · cases hStored
  split at hRefused
  · injection hRefused with hErr
    rw [← hErr]
    exact fun hNever => nomatch hNever
  split at hRefused
  · injection hRefused with hErr
    rw [← hErr]
    exact fun hNever => nomatch hNever
  · cases hRefused

/- The reader of a stream, or the refusal of its header. -/
theorem decryptStream_cases
    (hLengths : header.HasLengths)
    (hCipher :
      newStreamCipher primitives masterKey fileID
        header.salt = .ok aead)
    (stream : Bytes) :
    StartsWithHeader header stream ∧
        (∀ sizes,
          decryptStream primitives stream masterKey fileID
              header sizes =
            (readerAt aead header.nonce [] 0
              (stream.drop streamHeaderLen)).serve sizes) ∨
      ¬ StartsWithHeader header stream ∧
        ∃ err : StreamError,
          err ≠ .sentinel .eof ∧
            ∀ sizes,
              decryptStream primitives stream masterKey
                fileID header sizes = ([], some err) := by
  unfold decryptStream
  cases hReader :
      newDecryptingReader primitives
        { rest := stream, ending := .eof } masterKey fileID
        header with
  | ok r =>
      left
      rcases
        (newDecryptingReader_ok_iff hLengths hCipher).mp
          hReader with ⟨hHeader, hSame⟩
      subst hSame
      exact ⟨hHeader, fun sizes => rfl⟩
  | error err =>
      right
      constructor
      · intro hHeader
        have hOk :=
          (newDecryptingReader_ok_iff hLengths hCipher).mpr
            ⟨hHeader, rfl⟩
        rw [hReader] at hOk
        cases hOk
      · refine ⟨err, ?_, fun sizes => rfl⟩
        unfold newDecryptingReader at hReader
        rw [(StreamHeader.validateLengths_ok_iff header).mpr
          hLengths, hCipher] at hReader
        simp only at hReader
        split at hReader
        · next cause hRefused =>
            injection hReader with hErr
            rw [← hErr]
            exact readAndCheckStreamHeader_error hRefused
        · cases hReader

/- A new reader opened no chunk. -/
theorem openedSoFar_readerAt
    (aead : Aead)
    (streamNonce : Bytes)
    (chunks : List Bytes)
    (body : Bytes) :
    OpenedSoFar aead streamNonce chunks body []
      (readerAt aead streamNonce [] 0 body) :=
  ⟨0, rfl, rfl, rfl, Nat.zero_le _, rfl,
    fun _ => ⟨rfl, rfl⟩, fun hNever => nomatch hNever⟩

/- What the reads of an unmisleading stream are promised. -/
theorem decryptStream_of_unmisleading
    (hLengths : header.HasLengths)
    (hCipher :
      newStreamCipher primitives masterKey fileID
        header.salt = .ok aead)
    (hIdeal :
      aead.IdealFor
        (sealLog header.nonce (streamChunks plaintext)))
    (hClear :
      Unmisleading header aead plaintext stream)
    (sizes : List Nat) :
    (decryptStream primitives stream masterKey fileID header
        sizes).1 <+: plaintext ∧
      ((∀ size ∈ sizes, 0 < size) →
        (decryptStream primitives stream masterKey fileID
            header sizes).2 = some (.sentinel .eof) →
          EndsAtChunk
            (streamFrames aead header.nonce
              (streamChunks plaintext))
            (stream.drop streamHeaderLen)) := by
  rcases decryptStream_cases hLengths hCipher stream with
    ⟨hHeader, hReader⟩ | ⟨hRefused, err, hNotEOF, hReader⟩
  · rw [hReader]
    have hServed :=
      serve_opened hIdeal hClear.numbered
        (hClear.notStartingOver hHeader)
        (openedSoFar_readerAt aead header.nonce
          (streamChunks plaintext)
          (stream.drop streamHeaderLen)) sizes
    rw [flatten_streamChunks, List.nil_append] at hServed
    refine ⟨hServed.1, ?_⟩
    intro hAsked hEOF
    rcases hServed.2 hAsked hEOF with hWhole | hBehind
    · exact hWhole
    · exact absurd hBehind (hClear.notBehindPrefix hHeader)
  · rw [hReader]
    refine ⟨List.nil_prefix, ?_⟩
    intro hAsked hEOF
    exact absurd (Option.some.inj hEOF) hNotEOF

/- Two reads show what a misleading stream does. -/
theorem unmisleading_of_promise
    (hLengths : header.HasLengths)
    (hCipher :
      newStreamCipher primitives masterKey fileID
        header.salt = .ok aead)
    (hIdeal :
      aead.IdealFor
        (sealLog header.nonce (streamChunks plaintext)))
    (hPromise :
      StreamPromise primitives masterKey fileID header aead
        plaintext (0 < ·) stream) :
    Unmisleading header aead plaintext stream := by
  have hChunks := size_of_mem_streamChunks plaintext
  have hShort :
      ∀ chunk ∈ streamChunks plaintext,
        chunk.length ≤ streamChunkSize :=
    fun chunk hChunk => (hChunks chunk hChunk).2
  have hReader :
      StartsWithHeader header stream →
        ∀ sizes,
          decryptStream primitives stream masterKey fileID
              header sizes =
            (readerAt aead header.nonce [] 0
              (stream.drop streamHeaderLen)).serve
                sizes := by
    intro hHeader
    rcases decryptStream_cases hLengths hCipher stream with
      ⟨hAgain, hReader⟩ | ⟨hRefused, hRest⟩
    · exact hReader
    · exact absurd hHeader hRefused
  constructor
  · exact (nonces_nodup_iff header.nonce _).mp
      hPromise.noncesDiffer
  · intro hHeader hBehind
    have hNotWhole :=
      not_endsAtChunk_of_behindPrefix hIdeal hBehind
    rcases hBehind with ⟨count, lone, hLone, hBody⟩
    apply hNotWhole
    -- A cut behind all frames is a cut behind the last one.
    have hLast :
        (streamFrames aead header.nonce
            (streamChunks plaintext)).take count =
          (streamFrames aead header.nonce
            (streamChunks plaintext)).take
              (min count
                (streamChunks plaintext).length) := by
      rw [← length_streamFrames aead header.nonce,
        ← List.take_take, List.take_length]
    rw [hLast] at hBody
    have hServed :=
      serve_frames hIdeal.toOpens hShort (Nat.min_le_right count _)
        (Or.inr hLone)
    rw [← hBody, ← hReader hHeader] at hServed
    apply hPromise.endsAtChunk _ _
      (congrArg Prod.snd hServed)
    intro size hSize
    rcases List.mem_cons.mp hSize with hFirst | hSecond
    · rw [hFirst]
      exact Nat.succ_pos _
    · rw [List.mem_singleton.mp hSecond]
      exact Nat.one_pos
  · intro hHeader hOver
    apply serve_startsOver hIdeal hChunks hOver
    rw [← hReader hHeader, flatten_streamChunks]
    apply hPromise.servesPrefix
    intro size hSize
    rw [List.mem_singleton.mp hSize]
    exact Nat.succ_pos _

theorem not_startsOver_of_endsAtChunk
    {streamNonce body : Bytes}
    (hIdeal : aead.IdealFor (sealLog streamNonce chunks))
    (hWhole :
      EndsAtChunk (streamFrames aead streamNonce chunks)
        body) :
    ¬ StartsOver (streamFrames aead streamNonce chunks)
      body := by
  rcases hWhole with ⟨count, hBody⟩
  rintro ⟨hLength, first, rest, hFirst, hAgain⟩
  have hMember := List.mem_of_mem_head? hFirst
  have hLong := length_of_mem_streamFrames hIdeal hMember
  have hSplit :=
    congrArg (List.length ∘ List.flatten)
      (List.take_append_drop count
        (streamFrames aead streamNonce chunks))
  have hTotal := congrArg List.length hAgain
  rw [hBody] at hTotal
  simp only [Function.comp_apply, List.flatten_append,
    List.length_append] at hSplit hTotal
  omega

/-
  The promise holds exactly for the streams that do not
  mislead a reader that is asked for a byte by every read.
  A read of nothing is told the end of any stream, so with
  such reads it holds for the streams cut at a chunk only.
-/
theorem streamPromise_iff
    {salt nonce : Option Bytes}
    {output : Sink}
    {parts : List Bytes}
    {w done : EncryptingWriter}
    (stream : Bytes)
    (hNew :
      newEncryptingWriter primitives salt nonce output
        masterKey fileID = .ok (w, header))
    (hDone : w.encryptStream parts = (none, done))
    (hIdeal :
      w.cipher.IdealFor
        (sealLog header.nonce
          (streamChunks parts.flatten))) :
    done.output.written =
        output.written ++ header.marshal ++
          (streamFrames w.cipher header.nonce
            (streamChunks parts.flatten)).flatten ∧
      (StreamPromise primitives masterKey fileID header
          w.cipher parts.flatten (0 < ·) stream ↔
        Unmisleading header w.cipher parts.flatten
          stream) ∧
      (StreamPromise primitives masterKey fileID header
          w.cipher parts.flatten (fun _ => True) stream ↔
        (streamChunks parts.flatten).length ≤
            maxStreamChunks ∧
          (StartsWithHeader header stream →
            EndsAtChunk
              (streamFrames w.cipher header.nonce
                (streamChunks parts.flatten))
              (stream.drop streamHeaderLen))) := by
  have hFresh := EncryptingWriter.fresh_of_new hNew
  have hLengths := hFresh.1
  have hCipher := hFresh.2.1
  refine ⟨encryptStream_written hNew hDone, ?_, ?_⟩
  · constructor
    · exact unmisleading_of_promise hLengths hCipher hIdeal
    · intro hClear
      have hServed :=
        decryptStream_of_unmisleading hLengths hCipher
          hIdeal hClear
      constructor
      · exact (nonces_nodup_iff header.nonce _).mpr
          hClear.numbered
      · intro sizes hAsked
        exact (hServed sizes).1
      · intro sizes hAsked hEOF
        exact (hServed sizes).2 hAsked hEOF
  · constructor
    · intro hPromise
      refine ⟨(nonces_nodup_iff header.nonce _).mp
        hPromise.noncesDiffer, ?_⟩
      intro hHeader
      rcases decryptStream_cases hLengths hCipher stream
        with ⟨hAgain, hReader⟩ | ⟨hRefused, hRest⟩
      · apply hPromise.endsAtChunk [0]
          (fun size hSize => trivial)
        rw [hReader]
        rfl
      · exact absurd hHeader hRefused
    · rintro ⟨hNumbered, hWhole⟩
      have hClear :
          Unmisleading header w.cipher parts.flatten
            stream := by
        refine ⟨hNumbered, ?_, ?_⟩
        · intro hHeader hBehind
          exact not_endsAtChunk_of_behindPrefix hIdeal
            hBehind (hWhole hHeader)
        · intro hHeader
          exact not_startsOver_of_endsAtChunk hIdeal
            (hWhole hHeader)
      have hServed :=
        decryptStream_of_unmisleading hLengths hCipher
          hIdeal hClear
      constructor
      · exact (nonces_nodup_iff header.nonce _).mpr hNumbered
      · intro sizes hAsked
        exact (hServed sizes).1
      · intro sizes hAsked hEOF
        rcases decryptStream_cases hLengths hCipher stream
          with ⟨hHeader, hReader⟩ |
            ⟨hRefused, err, hNotEOF, hReader⟩
        · exact hWhole hHeader
        · rw [hReader] at hEOF
          exact absurd (Option.some.inj hEOF) hNotEOF

/- A cipher that was used once, and opens that chunk. -/
def usedOnce
    (entry : Bytes × Bytes)
    (key : Bytes) : Aead where
  overhead := 16
  seals nonce chunk :=
    chunk ++ copyInto 12 nonce ++ copyInto 4 key
  opens nonce sealedChunk :=
    if nonce = entry.1 ∧
        sealedChunk =
          entry.2 ++ copyInto 12 nonce ++ copyInto 4 key then
      some entry.2
    else
      none

theorem usedOnce_ideal
    (entry : Bytes × Bytes)
    (key : Bytes) :
    (usedOnce entry key).IdealFor [entry] := by
  refine ⟨⟨rfl, ?_, ?_⟩, ?_⟩
  · intro nonce chunk
    simp [usedOnce, length_copyInto]
  · intro other hOther
    rw [List.mem_singleton.mp hOther]
    exact if_pos ⟨rfl, rfl⟩
  · intro nonce sealedChunk chunk hOpens
    unfold usedOnce at hOpens
    simp only at hOpens
    split at hOpens
    · next hSame =>
        injection hOpens with hChunk
        subst hChunk
        rcases hSame with ⟨hNonce, hSealed⟩
        subst hNonce
        exact ⟨List.mem_singleton.mpr rfl, hSealed⟩
    · cases hOpens

/- Three plain bytes, sealed as one chunk. -/
def samplePrimitives : Primitives where
  uuidText fileID := toString fileID
  pbkdf2Key material salt _ size :=
    copyInto size (material.toUTF8.toList ++ salt)
  newGCM :=
    usedOnce
      (getChunkNonce (List.replicate 12 2) 0, [10, 20, 30])

def sampleKey : Option MasterKey := some ⟨"secret"⟩

def sampleHeader : StreamHeader where
  salt := List.replicate 32 1
  nonce := List.replicate 12 2

def sampleWriter : EncryptingWriter where
  output := { written := [], room := none }
  cipher :=
    samplePrimitives.newGCM
      (samplePrimitives.pbkdf2Key "secret5"
        sampleHeader.salt streamPBKDF2Iterations streamKeyLen)
  header := sampleHeader
  buffer := []
  chunkIndex := 0
  isHeaderWritten := false

/- The bytes of the sample, written in two parts. -/
def sampleStream : Bytes :=
  (sampleWriter.encryptStream [[10, 20], [30]]).2.output.written

/- The header and the first length, and nothing behind it. -/
def sampleCut : Bytes :=
  sampleStream.take (streamHeaderLen + streamChunkLengthLen)

theorem sampleWriter_new :
    newEncryptingWriter samplePrimitives
        (some (List.replicate 32 1))
        (some (List.replicate 12 2))
        { written := [], room := none } sampleKey 5 =
      .ok (sampleWriter, sampleHeader) := by
  rfl

theorem sampleWriter_ideal :
    sampleWriter.cipher.IdealFor
      (sealLog sampleHeader.nonce
        (streamChunks [[10, 20], [30]].flatten)) :=
  usedOnce_ideal _ _

/- A stream that nobody changed keeps the promise. -/
theorem whole_stream_keeps_promise :
    StreamPromise samplePrimitives sampleKey 5 sampleHeader
      sampleWriter.cipher [10, 20, 30] (fun _ => True)
      sampleStream := by
  have hDone :
      sampleWriter.encryptStream [[10, 20], [30]] =
        (none,
          (sampleWriter.encryptStream
            [[10, 20], [30]]).2) := by
    rfl
  have hIff :=
    streamPromise_iff sampleStream sampleWriter_new hDone
      sampleWriter_ideal
  apply hIff.2.2.mpr
  constructor
  · decide +kernel
  · intro hHeader
    exact ⟨1, by decide +kernel⟩

/- Cut behind its first length, a stream seems complete. -/
theorem cut_behind_length_is_reported_as_end :
    ¬ StreamPromise samplePrimitives sampleKey 5 sampleHeader
      sampleWriter.cipher [10, 20, 30] (0 < ·)
      sampleCut := by
  intro hPromise
  have hReported :
      (decryptStream samplePrimitives sampleCut sampleKey 5
          sampleHeader [4]).2 = some (.sentinel .eof) := by
    decide +kernel
  have hBehind :
      EndsBehindPrefix sampleWriter.cipher
        (streamFrames sampleWriter.cipher sampleHeader.nonce
          (streamChunks [10, 20, 30]))
        (sampleCut.drop streamHeaderLen) :=
    ⟨0, sampleCut.drop streamHeaderLen,
      by decide +kernel, rfl⟩
  apply not_endsAtChunk_of_behindPrefix sampleWriter_ideal
    hBehind
  exact hPromise.endsAtChunk [4] (by decide) hReported

end Crypto

end Databasus
