import Databasus.Crypto.StreamFormat

/-
  The writer that seals a stream.

  What is written is held back until it fills a chunk; the
  last chunk is sealed by `Close`.  However the bytes were
  divided among the writes, the stream is the header and the
  frames of the plain bytes cut into chunks.

  Main declarations:
    * `EncryptingWriter.write`
    * `EncryptingWriter.close`
    * `streamChunks`
    * `streamFrames`
    * `encryptStream_ok`
-/

------------------------------------------------------------
-- The Writer
------------------------------------------------------------

namespace Databasus

namespace Crypto

/- An `io.Writer` that may take so many bytes more only. -/
structure Sink where
  written : Bytes
  room : Option Nat
deriving DecidableEq, Repr

/- Whether the write went wrong, and the sink after it. -/
def Sink.write
    (sink : Sink)
    (data : Bytes) : Bool × Sink :=
  match sink.room with
  | none =>
      (false, { sink with written := sink.written ++ data })
  | some room =>
      (decide (room < data.length),
        { written := sink.written ++ data.take room
          room := some (room - data.length) })

structure EncryptingWriter where
  output : Sink
  cipher : Aead
  header : StreamHeader
  buffer : Bytes
  chunkIndex : UInt64
  isHeaderWritten : Bool

/- The salt and the nonce are what was drawn for them. -/
def newEncryptingWriter
    (primitives : Primitives)
    (salt nonce : Option Bytes)
    (output : Sink)
    (masterKey : Option MasterKey)
    (fileID : Uuid) :
    Except StreamError (EncryptingWriter × StreamHeader) :=
  match newRandomStreamHeader salt nonce with
  | .error err => .error err
  | .ok header =>
      match
        newStreamCipher primitives masterKey fileID
          header.salt with
      | .error err => .error err
      | .ok aead =>
          .ok
            ({ output
               cipher := aead
               header
               buffer := []
               chunkIndex := 0
               isHeaderWritten := false }, header)

namespace EncryptingWriter

def writeHeaderOnce
    (w : EncryptingWriter) :
    Option StreamError × EncryptingWriter :=
  if w.isHeaderWritten then
    (none, w)
  else
    match w.output.write w.header.marshal with
    | (true, output) =>
        (some (.wrapped "write the stream header"
          (.sentinel .outputFailed)), { w with output })
    | (false, output) =>
        (none, { w with output, isHeaderWritten := true })

def sealAndWriteChunk
    (w : EncryptingWriter)
    (chunk : Bytes) :
    Option StreamError × EncryptingWriter :=
  let sealedChunk :=
    w.cipher.seals
      (getChunkNonce w.header.nonce w.chunkIndex) chunk
  let lengthPrefix :=
    putUint32 (UInt32.ofNat sealedChunk.length)
  match w.output.write lengthPrefix with
  | (true, output) =>
      (some (.wrapped "write the chunk length"
        (.sentinel .outputFailed)), { w with output })
  | (false, output) =>
      match output.write sealedChunk with
      | (true, output) =>
          (some (.wrapped "write the encrypted chunk"
            (.sentinel .outputFailed)), { w with output })
      | (false, output) =>
          (none,
            { w with output, chunkIndex := w.chunkIndex + 1 })

/-
  The loop of `Write` over whole chunks.  Each pass takes a
  chunk from the buffer, so as many passes as the buffer has
  bytes are enough.
-/
def sealWholeChunks :
    Nat → EncryptingWriter →
      Option StreamError × EncryptingWriter
  | 0, w => (none, w)
  | passes + 1, w =>
      if w.buffer.length < streamChunkSize then
        (none, w)
      else
        match
          w.sealAndWriteChunk
            (w.buffer.take streamChunkSize) with
        | (some err, next) => (some err, next)
        | (none, next) =>
            sealWholeChunks passes
              { next with
                buffer := w.buffer.drop streamChunkSize }

/- The number of bytes taken, the error, the writer. -/
def write
    (w : EncryptingWriter)
    (data : Bytes) :
    Nat × Option StreamError × EncryptingWriter :=
  match w.writeHeaderOnce with
  | (some err, w) => (0, some err, w)
  | (none, w) =>
      let buffered := { w with buffer := w.buffer ++ data }
      match
        sealWholeChunks buffered.buffer.length buffered with
      | (some err, w) => (0, some err, w)
      | (none, w) => (data.length, none, w)

def close
    (w : EncryptingWriter) :
    Option StreamError × EncryptingWriter :=
  match w.writeHeaderOnce with
  | (some err, w) => (some err, w)
  | (none, w) =>
      if w.buffer = [] then
        (none, w)
      else
        match w.sealAndWriteChunk w.buffer with
        | (err, w) => (err, { w with buffer := [] })

/- The writes of a caller that stops at the first error. -/
def writeAll :
    EncryptingWriter → List Bytes →
      Option StreamError × EncryptingWriter
  | w, [] => (none, w)
  | w, part :: parts =>
      match w.write part with
      | (_, some err, w) => (some err, w)
      | (_, none, w) => writeAll w parts

/- Writes, and then the `Close`. -/
def encryptStream
    (w : EncryptingWriter)
    (parts : List Bytes) :
    Option StreamError × EncryptingWriter :=
  match w.writeAll parts with
  | (some err, w) => (some err, w)
  | (none, w) => w.close

end EncryptingWriter

------------------------------------------------------------
-- The Stream of the Plain Bytes
------------------------------------------------------------

/- The chunks that plain bytes are cut into. -/
def streamChunks
    (plaintext : Bytes) : List Bytes :=
  blocks streamChunkSize plaintext

theorem flatten_streamChunks
    (plaintext : Bytes) :
    (streamChunks plaintext).flatten = plaintext :=
  (blocks_flatten_and_size (by decide) plaintext).1

theorem size_of_mem_streamChunks
    (plaintext : Bytes) :
    ∀ chunk ∈ streamChunks plaintext,
      chunk ≠ [] ∧ chunk.length ≤ streamChunkSize :=
  (blocks_flatten_and_size (by decide) plaintext).2

/- The nonce and the plain bytes of every chunk sealed. -/
def sealLog
    (streamNonce : Bytes)
    (chunks : List Bytes) : List (Bytes × Bytes) :=
  chunks.mapIdx fun index chunk =>
    (getChunkNonce streamNonce (UInt64.ofNat index), chunk)

/- What is written for every chunk. -/
def streamFrames
    (aead : Aead)
    (streamNonce : Bytes)
    (chunks : List Bytes) : List Bytes :=
  (sealLog streamNonce chunks).map fun entry =>
    chunkFrame (aead.seals entry.1 entry.2)

variable {aead : Aead}
variable {streamNonce : Bytes}

theorem sealLog_concat
    (streamNonce : Bytes)
    (chunks : List Bytes)
    (chunk : Bytes) :
    sealLog streamNonce (chunks ++ [chunk]) =
      sealLog streamNonce chunks ++
        [(getChunkNonce streamNonce
          (UInt64.ofNat chunks.length), chunk)] := by
  unfold sealLog
  exact List.mapIdx_concat

theorem streamFrames_concat
    (aead : Aead)
    (streamNonce : Bytes)
    (chunks : List Bytes)
    (chunk : Bytes) :
    streamFrames aead streamNonce (chunks ++ [chunk]) =
      streamFrames aead streamNonce chunks ++
        [chunkFrame (aead.seals
          (getChunkNonce streamNonce
            (UInt64.ofNat chunks.length)) chunk)] := by
  unfold streamFrames
  rw [sealLog_concat, List.map_append]
  rfl

------------------------------------------------------------
-- What a Writer Has Written
------------------------------------------------------------

variable {header : StreamHeader}
variable {start : Bytes}
variable {data : Bytes}
variable {primitives : Primitives}
variable {salt nonce : Option Bytes}
variable {masterKey : Option MasterKey}
variable {fileID : Uuid}
variable {w next : EncryptingWriter}
variable {chunks : List Bytes}
variable {parts : List Bytes}

theorem Sink.written_of_write
    {sink next : Sink}
    (hWrite : sink.write data = (false, next)) :
    next.written = sink.written ++ data := by
  unfold Sink.write at hWrite
  split at hWrite
  · injection hWrite with hSame hNext
    rw [← hNext]
  · injection hWrite with hEnough hNext
    rw [← hNext, List.take_of_length_le]
    exact Nat.le_of_not_lt (of_decide_eq_false hEnough)

namespace EncryptingWriter

/- A writer whose first write is still to come. -/
structure Fresh
    (aead : Aead)
    (header : StreamHeader)
    (start : Bytes)
    (w : EncryptingWriter) : Prop where
  cipher_eq : w.cipher = aead
  header_eq : w.header = header
  written : w.output.written = start
  buffer : w.buffer = []
  chunkIndex : w.chunkIndex = 0
  noHeader : w.isHeaderWritten = false

/- A writer that wrote the header and these chunks. -/
structure Sealed
    (aead : Aead)
    (header : StreamHeader)
    (start : Bytes)
    (chunks : List Bytes)
    (w : EncryptingWriter) : Prop where
  cipher_eq : w.cipher = aead
  header_eq : w.header = header
  isHeaderWritten : w.isHeaderWritten = true
  chunkIndex : w.chunkIndex = UInt64.ofNat chunks.length
  written :
    w.output.written =
      start ++ header.marshal ++
        (streamFrames aead header.nonce chunks).flatten

/- The bytes taken are in whole chunks and in the buffer. -/
structure Holds
    (aead : Aead)
    (header : StreamHeader)
    (start : Bytes)
    (data : Bytes)
    (chunks : List Bytes)
    (w : EncryptingWriter) : Prop where
  sealedChunks : Sealed aead header start chunks w
  whole :
    ∀ chunk ∈ chunks, chunk.length = streamChunkSize
  taken : chunks.flatten ++ w.buffer = data
  short : w.buffer.length < streamChunkSize

/- A fresh writer has taken nothing. -/
def Took
    (aead : Aead)
    (header : StreamHeader)
    (start : Bytes)
    (data : Bytes)
    (w : EncryptingWriter) : Prop :=
  data = [] ∧ Fresh aead header start w ∨
    ∃ chunks, Holds aead header start data chunks w

theorem fresh_of_new
    {output : Sink}
    {w : EncryptingWriter}
    (hNew :
      newEncryptingWriter primitives salt nonce output
        masterKey fileID = .ok (w, header)) :
    header.HasLengths ∧
      newStreamCipher primitives masterKey fileID
        header.salt = .ok w.cipher ∧
      Fresh w.cipher header output.written w := by
  unfold newEncryptingWriter at hNew
  split at hNew
  · cases hNew
  next drawn hDrawn =>
  split at hNew
  · cases hNew
  next cipher hCipher =>
  injection hNew with hPair
  injection hPair with hWriter hHeader
  subst hHeader
  subst hWriter
  refine ⟨?_, hCipher, rfl, rfl, rfl, rfl, rfl, rfl⟩
  exact StreamHeader.hasLengths_of_random hDrawn

theorem writeHeaderOnce_took
    (hTook : Took aead header start data w)
    (hDone : w.writeHeaderOnce = (none, next)) :
    ∃ chunks, Holds aead header start data chunks next := by
  rcases hTook with ⟨hData, hFresh⟩ | ⟨chunks, hHolds⟩
  · unfold writeHeaderOnce at hDone
    rw [if_neg (by simp [hFresh.noHeader])] at hDone
    split at hDone
    · cases hDone
    next output hOutput =>
    injection hDone with hSame hNext
    subst hNext
    have hWritten := Sink.written_of_write hOutput
    rw [hFresh.written, hFresh.header_eq] at hWritten
    refine ⟨[], ⟨?_, ?_, ?_, ?_⟩⟩
    · refine ⟨hFresh.cipher_eq, hFresh.header_eq, rfl,
        hFresh.chunkIndex, ?_⟩
      rw [hWritten]
      exact (List.append_nil _).symm
    · exact fun chunk hChunk => nomatch hChunk
    · rw [hData, hFresh.buffer]
      rfl
    · rw [hFresh.buffer]
      decide
  · unfold writeHeaderOnce at hDone
    rw [if_pos hHolds.sealedChunks.isHeaderWritten] at hDone
    injection hDone with hSame hNext
    subst hNext
    exact ⟨chunks, hHolds⟩

theorem sealAndWriteChunk_sealed
    {chunk : Bytes}
    (hSealed : Sealed aead header start chunks w)
    (hDone : w.sealAndWriteChunk chunk = (none, next)) :
    Sealed aead header start (chunks ++ [chunk]) next := by
  unfold sealAndWriteChunk at hDone
  simp only at hDone
  split at hDone
  · cases hDone
  next afterLength hLength =>
  split at hDone
  · cases hDone
  next afterChunk hChunk =>
  injection hDone with hSame hNext
  subst hNext
  have hFirst := Sink.written_of_write hLength
  have hSecond := Sink.written_of_write hChunk
  refine ⟨hSealed.cipher_eq, hSealed.header_eq,
    hSealed.isHeaderWritten, ?_, ?_⟩
  · change w.chunkIndex + 1 = _
    rw [hSealed.chunkIndex, List.length_append]
    exact (UInt64.ofNat_add chunks.length 1).symm
  · change afterChunk.written = _
    rw [hSecond, hFirst, hSealed.written, hSealed.cipher_eq,
      hSealed.header_eq, hSealed.chunkIndex,
      streamFrames_concat, List.flatten_append,
      List.flatten_singleton]
    unfold chunkFrame
    simp only [List.append_assoc]

theorem sealWholeChunks_sealed
    {passes : Nat}
    (hSealed : Sealed aead header start chunks w)
    (hPasses : w.buffer.length ≤ passes)
    (hDone : sealWholeChunks passes w = (none, next)) :
    ∃ more,
      Sealed aead header start (chunks ++ more) next ∧
        (∀ chunk ∈ more, chunk.length = streamChunkSize) ∧
        more.flatten ++ next.buffer = w.buffer ∧
        next.buffer.length < streamChunkSize := by
  induction passes generalizing chunks w with
  | zero =>
      injection hDone with hSame hNext
      subst hNext
      refine ⟨[], ?_, (fun chunk hChunk => nomatch hChunk),
        rfl, ?_⟩
      · rw [List.append_nil]
        exact hSealed
      · exact Nat.lt_of_le_of_lt hPasses (by decide)
  | succ passes ih =>
      unfold sealWholeChunks at hDone
      by_cases hShort : w.buffer.length < streamChunkSize
      · rw [if_pos hShort] at hDone
        injection hDone with hSame hNext
        subst hNext
        refine ⟨[], ?_, (fun chunk hChunk => nomatch hChunk),
          rfl, hShort⟩
        rw [List.append_nil]
        exact hSealed
      · rw [if_neg hShort] at hDone
        split at hDone
        · cases hDone
        next after hAfter =>
        have hOne := sealAndWriteChunk_sealed hSealed hAfter
        have hFirstLength :
            (w.buffer.take streamChunkSize).length =
              streamChunkSize :=
          List.length_take_of_le (Nat.le_of_not_lt hShort)
        have hFewer :
            (w.buffer.drop streamChunkSize).length ≤
              passes := by
          have hPositive : 0 < streamChunkSize := by decide
          rw [List.length_drop]
          omega
        have hRest :
            Sealed aead header start
              (chunks ++ [w.buffer.take streamChunkSize])
              { after with
                buffer := w.buffer.drop streamChunkSize } :=
          ⟨hOne.cipher_eq, hOne.header_eq, hOne.isHeaderWritten,
            hOne.chunkIndex, hOne.written⟩
        rcases ih hRest hFewer hDone with
          ⟨more, hMore, hWhole, hTaken, hLeft⟩
        refine ⟨w.buffer.take streamChunkSize :: more, ?_,
          ?_, ?_, hLeft⟩
        · rw [List.append_assoc] at hMore
          exact hMore
        · intro chunk hChunk
          rcases List.mem_cons.mp hChunk with
            hFirst | hLater
          · rw [hFirst]
            exact hFirstLength
          · exact hWhole chunk hLater
        · rw [List.flatten_cons, List.append_assoc, hTaken]
          exact List.take_append_drop _ _

/- A write adds its bytes to those taken. -/
theorem write_took
    {taken data : Bytes}
    {count : Nat}
    (hTook : Took aead header start taken w)
    (hDone : w.write data = (count, none, next)) :
    count = data.length ∧
      Took aead header start (taken ++ data) next := by
  unfold write at hDone
  split at hDone
  · cases hDone
  next afterHeader hHeader =>
  rcases writeHeaderOnce_took hTook hHeader with
    ⟨chunks, hHolds⟩
  simp only at hDone
  split at hDone
  · cases hDone
  next after hAfter =>
  injection hDone with hCount hRest
  injection hRest with hSame hNext
  subst hNext
  refine ⟨hCount.symm, Or.inr ?_⟩
  have hSealed := hHolds.sealedChunks
  have hBuffered :
      Sealed aead header start chunks
        { afterHeader with
          buffer := afterHeader.buffer ++ data } :=
    ⟨hSealed.cipher_eq, hSealed.header_eq,
      hSealed.isHeaderWritten, hSealed.chunkIndex,
      hSealed.written⟩
  rcases
    sealWholeChunks_sealed hBuffered (Nat.le_refl _) hAfter
    with ⟨more, hMore, hWhole, hTaken, hLeft⟩
  refine ⟨chunks ++ more, hMore, ?_, ?_, hLeft⟩
  · intro chunk hChunk
    rcases List.mem_append.mp hChunk with hOld | hNew
    · exact hHolds.whole chunk hOld
    · exact hWhole chunk hNew
  · rw [List.flatten_append, List.append_assoc, hTaken,
      ← List.append_assoc, hHolds.taken]

theorem writeAll_took
    {taken : Bytes}
    (hTook : Took aead header start taken w)
    (hDone : w.writeAll parts = (none, next)) :
    Took aead header start (taken ++ parts.flatten)
      next := by
  induction parts generalizing taken w with
  | nil =>
      injection hDone with hSame hNext
      subst hNext
      rw [List.flatten_nil, List.append_nil]
      exact hTook
  | cons part parts ih =>
      unfold writeAll at hDone
      split at hDone
      · cases hDone
      next count after hWrite =>
      have hOne := (write_took hTook hWrite).2
      have hRest := ih hOne hDone
      rw [List.append_assoc] at hRest
      exact hRest

/- `Close` seals what is left, if anything is. -/
theorem close_written
    (hTook : Took aead header start data w)
    (hDone : w.close = (none, next)) :
    next.output.written =
      start ++ header.marshal ++
        (streamFrames aead header.nonce
          (streamChunks data)).flatten := by
  unfold close at hDone
  split at hDone
  · cases hDone
  next afterHeader hHeader =>
  rcases writeHeaderOnce_took hTook hHeader with
    ⟨chunks, hHolds⟩
  have hCut :
      streamChunks data =
        chunks ++
          (if afterHeader.buffer = [] then []
          else [afterHeader.buffer]) := by
    unfold streamChunks
    rw [← hHolds.taken]
    exact blocks_of_full (by decide) hHolds.whole
      hHolds.short
  by_cases hEmpty : afterHeader.buffer = []
  · rw [if_pos hEmpty] at hDone hCut
    injection hDone with hSame hNext
    subst hNext
    rw [hCut, List.append_nil]
    exact hHolds.sealedChunks.written
  · rw [if_neg hEmpty] at hDone hCut
    cases hLast :
        afterHeader.sealAndWriteChunk afterHeader.buffer with
    | mk err last =>
        rw [hLast] at hDone
        injection hDone with hErr hNext
        subst hErr
        subst hNext
        rw [hCut]
        exact (sealAndWriteChunk_sealed
          hHolds.sealedChunks hLast).written

end EncryptingWriter

/-
  The stream does not depend on how its bytes were divided
  among the writes.
-/
theorem encryptStream_written
    {output : Sink}
    {w done : EncryptingWriter}
    (hNew :
      newEncryptingWriter primitives salt nonce output
        masterKey fileID = .ok (w, header))
    (hDone : w.encryptStream parts = (none, done)) :
    done.output.written =
      output.written ++ header.marshal ++
        (streamFrames w.cipher header.nonce
          (streamChunks parts.flatten)).flatten := by
  have hFresh := (EncryptingWriter.fresh_of_new hNew).2.2
  unfold EncryptingWriter.encryptStream at hDone
  split at hDone
  · cases hDone
  next last hLast =>
  have hTook :=
    EncryptingWriter.writeAll_took
      (Or.inl ⟨rfl, hFresh⟩) hLast
  exact EncryptingWriter.close_written hTook hDone

------------------------------------------------------------
-- Writers That Do Not Fail
------------------------------------------------------------

namespace EncryptingWriter

/- A step that goes well on a sink that takes everything. -/
def GoesWell
    (outcome : Option StreamError × EncryptingWriter) :
    Prop :=
  outcome.1 = none ∧ outcome.2.output.room = none

theorem writeHeaderOnce_goesWell
    (hRoom : w.output.room = none) :
    GoesWell w.writeHeaderOnce := by
  unfold writeHeaderOnce Sink.write
  rw [hRoom]
  split
  · exact ⟨rfl, hRoom⟩
  · exact ⟨rfl, rfl⟩

theorem sealAndWriteChunk_goesWell
    (chunk : Bytes)
    (hRoom : w.output.room = none) :
    GoesWell (w.sealAndWriteChunk chunk) := by
  unfold sealAndWriteChunk Sink.write
  simp only [hRoom]
  exact ⟨rfl, rfl⟩

theorem sealWholeChunks_goesWell
    (passes : Nat)
    (hRoom : w.output.room = none) :
    GoesWell (sealWholeChunks passes w) := by
  induction passes generalizing w with
  | zero => exact ⟨rfl, hRoom⟩
  | succ passes ih =>
      unfold sealWholeChunks
      split
      · exact ⟨rfl, hRoom⟩
      · have hChunk :=
          sealAndWriteChunk_goesWell
            (w.buffer.take streamChunkSize) hRoom
        split
        · next err after hFailed =>
            rw [hFailed] at hChunk
            cases hChunk.1
        · next after hAfter =>
            rw [hAfter] at hChunk
            exact ih hChunk.2

theorem write_goesWell
    (data : Bytes)
    (hRoom : w.output.room = none) :
    GoesWell (w.write data).2 := by
  have hHeader := writeHeaderOnce_goesWell hRoom
  unfold write
  split
  · next err after hFailed =>
      rw [hFailed] at hHeader
      cases hHeader.1
  next after hAfter =>
  rw [hAfter] at hHeader
  simp only
  have hLoop :=
    sealWholeChunks_goesWell
      (w := { after with buffer := after.buffer ++ data })
      (after.buffer ++ data).length hHeader.2
  split
  · next err last hFailed =>
      rw [hFailed] at hLoop
      cases hLoop.1
  · next last hLast =>
      rw [hLast] at hLoop
      exact hLoop

theorem writeAll_goesWell
    (parts : List Bytes)
    (hRoom : w.output.room = none) :
    GoesWell (w.writeAll parts) := by
  induction parts generalizing w with
  | nil => exact ⟨rfl, hRoom⟩
  | cons part parts ih =>
      have hWrite := write_goesWell part hRoom
      unfold writeAll
      split
      · next count err after hFailed =>
          rw [hFailed] at hWrite
          cases hWrite.1
      · next count after hAfter =>
          rw [hAfter] at hWrite
          exact ih hWrite.2

/- An output that takes everything gets the whole stream. -/
theorem encryptStream_goesWell
    (parts : List Bytes)
    (hRoom : w.output.room = none) :
    GoesWell (w.encryptStream parts) := by
  have hWrites := writeAll_goesWell parts hRoom
  unfold encryptStream
  split
  · next err after hFailed =>
      rw [hFailed] at hWrites
      cases hWrites.1
  next after hAfter =>
  rw [hAfter] at hWrites
  have hHeader := writeHeaderOnce_goesWell hWrites.2
  unfold close
  split
  · next err last hFailed =>
      rw [hFailed] at hHeader
      cases hHeader.1
  next last hLast =>
  rw [hLast] at hHeader
  split
  · exact hHeader
  · exact sealAndWriteChunk_goesWell last.buffer hHeader.2

end EncryptingWriter

end Crypto

end Databasus
