import Databasus.Crypto.StreamFormat

/-
  The reader that opens a sealed stream.

  Every chunk is authenticated before any of its bytes goes
  out.  `Read` fills its buffer chunk by chunk, and takes an
  end of the input for the end of the stream.

  Main declarations:
    * `DecryptingReader.readAndOpenChunk`
    * `DecryptingReader.read`
    * `DecryptingReader.serve`
    * `DecryptingReader.opened_of_done`
    * `DecryptingReader.rest_of_eof`
    * `DecryptingReader.read_cases`
-/

------------------------------------------------------------
-- The Reader
------------------------------------------------------------

namespace Databasus

namespace Crypto

structure DecryptingReader where
  input : Iox.Source
  cipher : Aead
  streamNonce : Bytes
  buffer : Bytes
  chunkIndex : UInt64
  isEOF : Bool

/- The header stands in the first bytes of the input. -/
def readAndCheckStreamHeader
    (input : Iox.Source)
    (expectedHeader : StreamHeader) :
    Except StreamError Iox.Source :=
  match input.readFull streamHeaderLen with
  | (_, some cause, _) =>
      .error (.wrapped "read the stream header"
        (sourceError cause))
  | (rawHeader, none, rest) =>
      match unmarshalStreamHeader rawHeader with
      | .error err => .error err
      | .ok storedHeader =>
          if storedHeader.salt ≠ expectedHeader.salt then
            .error (.wrapped "salt"
              (.sentinel .streamHeaderMismatch))
          else if
              storedHeader.nonce ≠ expectedHeader.nonce then
            .error (.wrapped "nonce"
              (.sentinel .streamHeaderMismatch))
          else
            .ok rest

def newDecryptingReader
    (primitives : Primitives)
    (input : Iox.Source)
    (masterKey : Option MasterKey)
    (fileID : Uuid)
    (header : StreamHeader) :
    Except StreamError DecryptingReader :=
  match header.validateLengths with
  | .error err => .error err
  | .ok () =>
      match
        newStreamCipher primitives masterKey fileID
          header.salt with
      | .error err => .error err
      | .ok aead =>
          match readAndCheckStreamHeader input header with
          | .error err => .error err
          | .ok rest =>
              .ok
                { input := rest
                  cipher := aead
                  streamNonce := header.nonce
                  buffer := []
                  chunkIndex := 0
                  isEOF := false }

namespace DecryptingReader

/- A sealed chunk has at least a byte, and at most these. -/
def isChunkLength
    (aead : Aead)
    (sealedChunkLen : UInt32) : Bool :=
  sealedChunkLen != 0 &&
    sealedChunkLen ≤
      UInt32.ofNat streamChunkSize +
        UInt32.ofNat aead.overhead

def readAndOpenChunk
    (r : DecryptingReader) :
    Option StreamError × DecryptingReader :=
  match r.input.readFull streamChunkLengthLen with
  | (_, some cause, input) =>
      (some (sourceError cause), { r with input })
  | (lengthPrefix, none, input) =>
      let sealedChunkLen := getUint32 lengthPrefix
      if !isChunkLength r.cipher sealedChunkLen then
        (some (.wrapped
          ("chunk length " ++ toString sealedChunkLen.toNat)
          (.sentinel .invalidStreamChunkLength)),
          { r with input })
      else
        match input.readFull sealedChunkLen.toNat with
        | (_, some cause, input) =>
            (some (.wrapped "read the encrypted chunk"
              (sourceError cause)), { r with input })
        | (sealedChunk, none, input) =>
            match
              r.cipher.opens
                (getChunkNonce r.streamNonce r.chunkIndex)
                sealedChunk with
            | none =>
                (some (.joined
                  ("decrypt chunk " ++
                    toString r.chunkIndex.toNat)
                  (.sentinel .streamChunkAuthentication)
                  (.sentinel .openFailed)), { r with input })
            | some chunk =>
                (none,
                  { r with
                    input
                    buffer := r.buffer ++ chunk
                    chunkIndex := r.chunkIndex + 1 })

/-
  The loop of `Read`.  Each pass takes bytes from the input,
  or is the last, so one pass more than the input has bytes
  is enough.
-/
def fillBuffer :
    Nat → DecryptingReader → Nat →
      Option StreamError × DecryptingReader
  | 0, r, _ => (none, r)
  | passes + 1, r, size =>
      if r.buffer.length < size ∧ r.isEOF = false then
        match r.readAndOpenChunk with
        | (some err, next) =>
            if err.is .eof then
              (none, { next with isEOF := true })
            else
              (some err, next)
        | (none, next) => fillBuffer passes next size
      else
        (none, r)

/- What is put into a buffer of `size` bytes. -/
def read
    (r : DecryptingReader)
    (size : Nat) :
    Bytes × Option StreamError × DecryptingReader :=
  match
    fillBuffer (r.input.rest.length + 1) r size with
  | (some err, next) => ([], some err, next)
  | (none, next) =>
      if next.buffer = [] then
        ([], some (.sentinel .eof), next)
      else
        (next.buffer.take size, none,
          { next with buffer := next.buffer.drop size })

/- Reads into buffers of these sizes, to the first error. -/
def serve :
    DecryptingReader → List Nat →
      Bytes × Option StreamError
  | _, [] => ([], none)
  | r, size :: sizes =>
      match r.read size with
      | (data, some err, _) => (data, some err)
      | (data, none, next) =>
          let later := next.serve sizes
          (data ++ later.1, later.2)

------------------------------------------------------------
-- What a Chunk Was Read From
------------------------------------------------------------

variable {r next : DecryptingReader}
variable {err : StreamError}

/- The parts that no step of a reader changes. -/
structure SameStream
    (r next : DecryptingReader) : Prop where
  cipher_eq : next.cipher = r.cipher
  streamNonce_eq : next.streamNonce = r.streamNonce
  ending_eq : next.input.ending = r.input.ending

/- A chunk that was opened, and where it stood. -/
structure OpenedChunk
    (r next : DecryptingReader)
    (sealedChunk chunk : Bytes) : Prop where
  sameStream : SameStream r next
  opened :
    r.cipher.opens
      (getChunkNonce r.streamNonce r.chunkIndex)
      sealedChunk = some chunk
  input_eq :
    r.input.rest = chunkFrame sealedChunk ++ next.input.rest
  buffer_eq : next.buffer = r.buffer ++ chunk
  chunkIndex_eq : next.chunkIndex = r.chunkIndex + 1
  isEOF_eq : next.isEOF = r.isEOF

/- A chunk that could not be read or opened. -/
structure FailedChunk
    (r next : DecryptingReader) : Prop where
  sameStream : SameStream r next
  buffer_eq : next.buffer = r.buffer
  isEOF_eq : next.isEOF = r.isEOF

/-
  A length that may be a chunk's, and no byte behind it: the
  input ends where the chunk was to begin.
-/
def IsLonePrefix
    (aead : Aead)
    (rest : Bytes) : Prop :=
  rest.length = streamChunkLengthLen ∧
    isChunkLength aead (getUint32 rest) = true

instance
    (aead : Aead)
    (rest : Bytes) :
    Decidable (IsLonePrefix aead rest) :=
  inferInstanceAs (Decidable (_ ∧ _))

/- The frame of a chunk is its length and the chunk. -/
theorem chunkFrame_of_parts
    {lengthPrefix sealedChunk : Bytes}
    (hPrefix : lengthPrefix.length = streamChunkLengthLen)
    (hChunk :
      sealedChunk.length =
        (getUint32 lengthPrefix).toNat) :
    chunkFrame sealedChunk = lengthPrefix ++ sealedChunk := by
  unfold chunkFrame
  rw [hChunk, UInt32.ofNat_toNat, putUint32_getUint32 hPrefix]

/- An opened chunk stood behind its length. -/
theorem opened_of_done
    (hDone : r.readAndOpenChunk = (none, next)) :
    ∃ sealedChunk chunk,
      OpenedChunk r next sealedChunk chunk := by
  unfold readAndOpenChunk at hDone
  split at hDone
  · cases hDone
  next lengthPrefix afterPrefix hPrefix =>
  simp only at hDone
  split at hDone
  · cases hDone
  split at hDone
  · cases hDone
  next sealedChunk afterChunk hChunk =>
  split at hDone
  · cases hDone
  next chunk hOpened =>
  injection hDone with hSame hNext
  subst hNext
  rcases Iox.Source.of_readFull_done hPrefix with
    ⟨hPrefixLength, hPrefixRest, hPrefixEnding⟩
  rcases Iox.Source.of_readFull_done hChunk with
    ⟨hChunkLength, hChunkRest, hChunkEnding⟩
  refine ⟨sealedChunk, chunk, ?_⟩
  refine ⟨⟨rfl, rfl, hChunkEnding.trans hPrefixEnding⟩,
    hOpened, ?_, rfl, rfl, rfl⟩
  rw [chunkFrame_of_parts hPrefixLength hChunkLength,
    List.append_assoc, ← hChunkRest]
  exact hPrefixRest

theorem failed_of_error
    (hFailed : r.readAndOpenChunk = (some err, next)) :
    FailedChunk r next := by
  unfold readAndOpenChunk at hFailed
  split at hFailed
  · next cause afterPrefix hPrefix =>
      have hEnding :=
        (Iox.Source.of_readFull_failed hPrefix).2.1
      injection hFailed with hErr hNext
      subst hNext
      exact ⟨⟨rfl, rfl, hEnding⟩, rfl, rfl⟩
  next lengthPrefix afterPrefix hPrefix =>
  have hPrefixEnding :=
    (Iox.Source.of_readFull_done hPrefix).2.2
  simp only at hFailed
  split at hFailed
  · injection hFailed with hErr hNext
    subst hNext
    exact ⟨⟨rfl, rfl, hPrefixEnding⟩, rfl, rfl⟩
  split at hFailed
  · next cause afterChunk hChunk =>
      have hEnding := (Iox.Source.of_readFull_failed hChunk).2.1
      injection hFailed with hErr hNext
      subst hNext
      exact ⟨⟨rfl, rfl, hEnding.trans hPrefixEnding⟩,
        rfl, rfl⟩
  next sealedChunk afterChunk hChunk =>
  have hEnding := (Iox.Source.of_readFull_done hChunk).2.2
  split at hFailed
  · injection hFailed with hErr hNext
    subst hNext
    exact ⟨⟨rfl, rfl, hEnding.trans hPrefixEnding⟩,
      rfl, rfl⟩
  · cases hFailed

/- An end of the input inside the bytes is another error. -/
theorem rest_of_short_eof
    {source after : Iox.Source}
    {size : Nat}
    {data : Bytes}
    {cause : Iox.SourceError}
    (hEnding : source.ending = .eof)
    (hShort :
      source.readFull size = (data, some cause, after))
    (hEOF : (sourceError cause).is .eof = true) :
    source.rest = [] := by
  have hFailed := Iox.Source.of_readFull_failed hShort
  have hCause := (sourceError_is_eof cause).mp hEOF
  exact (hFailed.2.2 hEnding).mp hCause

/-
  What `Read` takes for the end of the stream is the end of
  the input before a chunk's length, and also the end right
  behind it.
-/
theorem rest_of_eof
    (hEnding : r.input.ending = .eof)
    (hFailed : r.readAndOpenChunk = (some err, next))
    (hEOF : err.is .eof = true) :
    r.input.rest = [] ∨
      IsLonePrefix r.cipher r.input.rest := by
  unfold readAndOpenChunk at hFailed
  split at hFailed
  · next cause afterPrefix hPrefix =>
      injection hFailed with hErr hNext
      injection hErr with hSame
      rw [← hSame] at hEOF
      exact Or.inl (rest_of_short_eof hEnding hPrefix hEOF)
  next lengthPrefix afterPrefix hPrefix =>
  simp only at hFailed
  split at hFailed
  · injection hFailed with hErr hNext
    injection hErr with hSame
    rw [← hSame] at hEOF
    cases hEOF
  next hLength =>
  split at hFailed
  · next cause afterChunk hChunk =>
      injection hFailed with hErr hNext
      injection hErr with hSame
      rw [← hSame] at hEOF
      rcases Iox.Source.of_readFull_done hPrefix with
        ⟨hPrefixLength, hPrefixRest, hPrefixEnding⟩
      have hNothing : afterPrefix.rest = [] :=
        rest_of_short_eof (hPrefixEnding.trans hEnding)
          hChunk hEOF
      rw [hNothing, List.append_nil] at hPrefixRest
      rw [hPrefixRest]
      exact Or.inr ⟨hPrefixLength, by simpa using hLength⟩
  split at hFailed
  · injection hFailed with hErr hNext
    injection hErr with hSame
    rw [← hSame] at hEOF
    cases hEOF
  · cases hFailed

------------------------------------------------------------
-- What a Read Can Do
------------------------------------------------------------

variable {motive : DecryptingReader → Prop}
variable {passes size : Nat}

/- A frame has the four bytes of its length at least. -/
theorem length_chunkFrame
    (sealedChunk : Bytes) :
    (chunkFrame sealedChunk).length =
      streamChunkLengthLen + sealedChunk.length := by
  unfold chunkFrame
  rw [List.length_append, length_putUint32]

theorem OpenedChunk.shorter
    {sealedChunk chunk : Bytes}
    (hOpened : OpenedChunk r next sealedChunk chunk) :
    next.input.rest.length < r.input.rest.length := by
  have hPositive : 0 < streamChunkLengthLen := by decide
  rw [hOpened.input_eq, List.length_append,
    length_chunkFrame]
  omega

/-
  A property of readers that opening a chunk keeps, and that
  marking the end keeps where the chunk ended the input.
-/
structure Keeps
    (motive : DecryptingReader → Prop) : Prop where
  opened :
    ∀ r next sealedChunk chunk,
      motive r → r.isEOF = false →
        OpenedChunk r next sealedChunk chunk →
        motive next
  ended :
    ∀ r next,
      motive r → r.isEOF = false → FailedChunk r next →
        (r.input.ending = .eof →
          r.input.rest = [] ∨
            IsLonePrefix r.cipher r.input.rest) →
        motive { next with isEOF := true }

/- The loop ends with a full buffer, or with the input. -/
theorem fillBuffer_cases
    (hKeeps : Keeps motive)
    (hStart : motive r)
    (hPasses : r.input.rest.length < passes)
    (hDone : fillBuffer passes r size = (none, next)) :
    motive next ∧
      (size ≤ next.buffer.length ∨ next.isEOF = true) := by
  induction passes generalizing r with
  | zero => exact absurd hPasses (Nat.not_lt_zero _)
  | succ passes ih =>
      unfold fillBuffer at hDone
      by_cases hMore :
          r.buffer.length < size ∧ r.isEOF = false
      · rw [if_pos hMore] at hDone
        split at hDone
        · next err after hFailed =>
            by_cases hEOF : err.is .eof = true
            · rw [if_pos hEOF] at hDone
              injection hDone with hSame hNext
              subst hNext
              refine ⟨?_, Or.inr rfl⟩
              exact hKeeps.ended r after hStart hMore.2
                (failed_of_error hFailed)
                fun hEnding => rest_of_eof hEnding hFailed hEOF
            · rw [if_neg hEOF] at hDone
              cases hDone
        · next after hAfter =>
            rcases opened_of_done hAfter with
              ⟨sealedChunk, chunk, hOpened⟩
            have hShorter := hOpened.shorter
            exact ih
              (hKeeps.opened r after sealedChunk chunk
                hStart hMore.2 hOpened)
              (by omega) hDone
      · rw [if_neg hMore] at hDone
        injection hDone with hSame hNext
        subst hNext
        refine ⟨hStart, ?_⟩
        by_cases hFull : size ≤ r.buffer.length
        · exact Or.inl hFull
        · right
          by_contra hOpen
          exact hMore
            ⟨Nat.lt_of_not_le hFull,
              Bool.eq_false_of_not_eq_true hOpen⟩

/- The outcomes of a `Read`, each with the filled reader. -/
inductive ReadOutcome
    (motive : DecryptingReader → Prop)
    (size : Nat) :
    Bytes × Option StreamError × DecryptingReader → Prop
  | failed
      {err : StreamError}
      {next : DecryptingReader}
      (hErr : err.is .eof = false) :
      ReadOutcome motive size ([], some err, next)
  | ended
      {filled : DecryptingReader}
      (hFilled : motive filled)
      (hEmpty : filled.buffer = [])
      (hEOF : 0 < size → filled.isEOF = true) :
      ReadOutcome motive size
        ([], some (.sentinel .eof), filled)
  | served
      {filled : DecryptingReader}
      (hFilled : motive filled)
      (hSome : filled.buffer ≠ []) :
      ReadOutcome motive size
        (filled.buffer.take size, none,
          { filled with buffer := filled.buffer.drop size })

theorem fillBuffer_error
    (hFailed : fillBuffer passes r size = (some err, next)) :
    err.is .eof = false := by
  induction passes generalizing r with
  | zero => cases hFailed
  | succ passes ih =>
      unfold fillBuffer at hFailed
      split at hFailed
      · split at hFailed
        · next cause after hCause =>
            by_cases hEOF : cause.is .eof = true
            · rw [if_pos hEOF] at hFailed
              cases hFailed
            · rw [if_neg hEOF] at hFailed
              injection hFailed with hErr hNext
              injection hErr with hSame
              rw [← hSame]
              exact Bool.eq_false_of_not_eq_true hEOF
        · exact ih hFailed
      · cases hFailed

theorem read_cases
    {r : DecryptingReader}
    (hKeeps : Keeps motive)
    (hStart : motive r)
    (size : Nat) :
    ReadOutcome motive size (r.read size) := by
  unfold read
  split
  · next err next hFailed =>
      exact .failed (fillBuffer_error hFailed)
  next filled hFilled =>
  rcases
    fillBuffer_cases hKeeps hStart (Nat.lt_succ_self _)
      hFilled with ⟨hMotive, hStop⟩
  by_cases hEmpty : filled.buffer = []
  · rw [if_pos hEmpty]
    refine .ended hMotive hEmpty ?_
    intro hAsked
    rcases hStop with hFull | hEOF
    · rw [hEmpty, List.length_nil] at hFull
      omega
    · exact hEOF
  · rw [if_neg hEmpty]
    exact .served hMotive hEmpty

end DecryptingReader

end Crypto

end Databasus
