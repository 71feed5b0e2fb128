import Databasus.Crypto.TamperedStreams

/-
  A stream that is sealed and opened again.

  The reader opens a chunk only when a read asks for bytes
  that it does not hold, so where it stands in the stream is
  given by the bytes that it has returned.  It returns the
  plain bytes to reads of any sizes, but a read of nothing is
  told the end of the stream wherever the buffer is empty.

  Main declarations:
    * `DecryptingReader.readEach`
    * `ReturnsPlaintext`
    * `EmptyReadsInsideChunk`
    * `read_positioned`
    * `returns_plaintext_iff`
-/

------------------------------------------------------------
-- The Answers to Reads
------------------------------------------------------------

namespace Databasus

namespace Crypto

/- Every read of these sizes, also those after an error. -/
def DecryptingReader.readEach :
    DecryptingReader → List Nat →
      List (Bytes × Option StreamError)
  | _, [] => []
  | r, size :: sizes =>
      match r.read size with
      | (data, err, next) =>
          (data, err) :: next.readEach sizes

/- The answers of the reader that opens a stored stream. -/
def decryptEach
    (primitives : Primitives)
    (stream : Bytes)
    (masterKey : Option MasterKey)
    (fileID : Uuid)
    (header : StreamHeader)
    (sizes : List Nat) :
    Except StreamError (List (Bytes × Option StreamError)) :=
  match
    newDecryptingReader primitives
      { rest := stream, ending := .eof } masterKey fileID
      header with
  | .error err => .error err
  | .ok r => .ok (r.readEach sizes)

/-
  Reads of these sizes return the plain bytes, as many as
  they ask for.  A read is told the end when all of them were
  returned before it, and no error otherwise.
-/
structure ReturnsPlaintext
    (plaintext : Bytes)
    (sizes : List Nat)
    (answers : List (Bytes × Option StreamError)) :
    Prop where
  returned :
    (answers.map Prod.fst).flatten =
      plaintext.take sizes.sum
  ended :
    ∀ earlier data err later,
      answers = earlier ++ (data, err) :: later →
        err =
          if (earlier.map Prod.fst).flatten = plaintext then
            some (.sentinel .eof)
          else
            none

/-
  A read of nothing comes after the last byte, or where the
  bytes that were asked for before it end inside a chunk.
-/
def EmptyReadsInsideChunk
    (length : Nat) : Nat → List Nat → Prop
  | _, [] => True
  | asked, size :: sizes =>
      (size = 0 →
        asked < length → asked % streamChunkSize ≠ 0) ∧
        EmptyReadsInsideChunk length (asked + size) sizes

instance instDecidableEmptyReadsInsideChunk
    (length : Nat) :
    ∀ asked sizes,
      Decidable (EmptyReadsInsideChunk length asked sizes)
  | _, [] => isTrue trivial
  | asked, size :: sizes =>
      have : Decidable
          (EmptyReadsInsideChunk length (asked + size)
            sizes) :=
        instDecidableEmptyReadsInsideChunk length _ sizes
      inferInstanceAs (Decidable (_ ∧ _))

theorem returnsPlaintext_nil
    (plaintext : Bytes) :
    ReturnsPlaintext plaintext [] [] := by
  constructor
  · rw [List.sum_nil, List.take_zero, List.map_nil,
      List.flatten_nil]
  · intro earlier data err later hAnswers
    exact absurd hAnswers.symm (by simp)

/- The first read, and the reads of what it leaves. -/
theorem returnsPlaintext_cons_iff
    {plaintext : Bytes}
    {size : Nat}
    {sizes : List Nat}
    {err : Option StreamError}
    {answers : List (Bytes × Option StreamError)} :
    ReturnsPlaintext plaintext (size :: sizes)
        ((plaintext.take size, err) :: answers) ↔
      err =
          (if plaintext = [] then
            some (.sentinel .eof)
          else
            none) ∧
        ReturnsPlaintext (plaintext.drop size) sizes
          answers := by
  have hSplit :
      plaintext.take size ++ plaintext.drop size =
        plaintext :=
    List.take_append_drop size plaintext
  have hSame :
      ∀ returned : Bytes,
        plaintext.take size ++ returned = plaintext ↔
          returned = plaintext.drop size := by
    intro returned
    constructor
    · intro hAll
      exact List.append_cancel_left (hAll.trans hSplit.symm)
    · intro hRest
      rw [hRest, hSplit]
  constructor
  · intro hAll
    refine ⟨?_, ?_, ?_⟩
    · have hFirst :=
        hAll.ended [] (plaintext.take size) err answers
          (List.nil_append _).symm
      simpa [eq_comm] using hFirst
    · have hBytes := hAll.returned
      rw [List.map_cons, List.flatten_cons, List.sum_cons,
        List.take_add] at hBytes
      exact List.append_cancel_left hBytes
    · intro earlier data otherErr later hAnswers
      have hLater :=
        hAll.ended ((plaintext.take size, err) :: earlier)
          data otherErr later
          (by rw [hAnswers, List.cons_append])
      simpa only [List.map_cons, List.flatten_cons,
        hSame] using hLater
  · rintro ⟨hFirst, hRest⟩
    constructor
    · rw [List.map_cons, List.flatten_cons, List.sum_cons,
        List.take_add, hRest.returned]
    · intro earlier data otherErr later hAnswers
      cases earlier with
      | nil =>
          injection hAnswers with hHead hTail
          injection hHead with hData hErr
          rw [← hErr, hFirst]
          simp [eq_comm]
      | cons head earlier =>
          injection hAnswers with hHead hTail
          have hLater :=
            hRest.ended earlier data otherErr later hTail
          rw [← hHead]
          simpa only [List.map_cons, List.flatten_cons,
            hSame] using hLater

------------------------------------------------------------
-- Where a Reader Stands
------------------------------------------------------------

open DecryptingReader (fillBuffer)

variable {aead : Aead}
variable {streamNonce : Bytes}
variable {plaintext : Bytes}

/-
  A reader that returned `served` plain bytes.  Its buffer has
  the rest of the chunks that it opened, the last of which was
  needed for the bytes before `asked`.
-/
def Positioned
    (aead : Aead)
    (streamNonce : Bytes)
    (plaintext : Bytes)
    (served asked : Nat)
    (r : DecryptingReader) : Prop :=
  ∃ count,
    count ≤ (streamChunks plaintext).length ∧
      (served ≤ count * streamChunkSize ∧
        served ≤ plaintext.length) ∧
      count * streamChunkSize < asked + streamChunkSize ∧
      r.buffer =
        (plaintext.take (count * streamChunkSize)).drop
          served ∧
      (r =
          readerAt aead streamNonce r.buffer count
            ((streamFrames aead streamNonce
              (streamChunks plaintext)).drop count).flatten ∨
        plaintext.length ≤ count * streamChunkSize ∧
          r = endedReader aead streamNonce r.buffer count)

theorem positioned_readerAt
    (aead : Aead)
    (streamNonce : Bytes)
    (plaintext : Bytes) :
    Positioned aead streamNonce plaintext 0 0
      (readerAt aead streamNonce [] 0
        (streamFrames aead streamNonce
          (streamChunks plaintext)).flatten) := by
  refine ⟨0, Nat.zero_le _, ⟨Nat.zero_le _, Nat.zero_le _⟩,
    ?_, ?_, Or.inl ?_⟩
  · have hPositive : 0 < streamChunkSize := by decide
    omega
  · simp [readerAt]
  · simp [readerAt]

/-
  The loop stops when the buffer has the bytes asked for, or
  all that are left, and opens no chunk more than that takes.
-/
theorem fillBuffer_positioned
    (hOpens :
      aead.Opens
        (sealLog streamNonce (streamChunks plaintext)))
    {served size passes : Nat}
    {r : DecryptingReader}
    (hServed :
      Positioned aead streamNonce plaintext served
        (min (served + size) plaintext.length) r)
    (hPasses : r.input.rest.length < passes) :
    ∃ next,
      fillBuffer passes r size = (none, next) ∧
        Positioned aead streamNonce plaintext served
          (min (served + size) plaintext.length) next ∧
        next.buffer.take size =
          (plaintext.drop served).take size ∧
        (size ≤ next.buffer.length ∨
          next.buffer = plaintext.drop served) := by
  induction passes generalizing r with
  | zero => exact absurd hPasses (Nat.not_lt_zero _)
  | succ passes ih =>
      have hStart := hServed
      rcases hServed with
        ⟨count, hCount, hBounds, hNeeded, hBuffer, hReader⟩
      have hLength :
          r.buffer.length =
            min (count * streamChunkSize)
              plaintext.length - served := by
        rw [hBuffer, List.length_drop, List.length_take]
      -- What the buffer has are the next bytes in any case.
      have hHeld :
          size ≤ r.buffer.length →
            r.buffer.take size =
              (plaintext.drop served).take size := by
        intro hFull
        rw [hBuffer, List.drop_take, List.take_take,
          Nat.min_eq_left]
        generalize count * streamChunkSize = opened at *
        omega
      have hAll :
          plaintext.length ≤ count * streamChunkSize →
            r.buffer = plaintext.drop served := by
        intro hWhole
        rw [hBuffer, List.take_of_length_le hWhole]
      by_cases hFull : size ≤ r.buffer.length
      · refine ⟨r, ?_, hStart, hHeld hFull, Or.inl hFull⟩
        rw [fillBuffer, if_neg]
        exact fun hMore => Nat.not_lt_of_le hFull hMore.1
      have hAsked : r.buffer.length < size :=
        Nat.lt_of_not_le hFull
      rcases hReader with hReader | ⟨hWhole, hReader⟩
      · by_cases hNext :
            count < (streamChunks plaintext).length
        · -- The next frame is opened, and the loop goes on.
          have hFrame :
              count <
                (streamFrames aead streamNonce
                  (streamChunks plaintext)).length := by
            rw [length_streamFrames]
            exact hNext
          have hInside :
              count * streamChunkSize < plaintext.length :=
            (lt_length_blocks_iff (by decide) plaintext
              count).mp hNext
          have hSplit :=
            congrArg List.flatten
              (List.drop_eq_getElem_cons hFrame)
          rw [List.flatten_cons,
            getElem_streamFrames aead streamNonce hNext]
            at hSplit
          rw [hSplit] at hReader
          have hOpened :=
            readAndOpenChunk_frame hOpens hNext
              (size_of_mem_streamChunks plaintext _
                (List.getElem_mem hNext)).2 r.buffer
              ((streamFrames aead streamNonce
                (streamChunks plaintext)).drop
                  (count + 1)).flatten
          rw [← hReader] at hOpened
          have hShorter :
              ((streamFrames aead streamNonce
                (streamChunks plaintext)).drop
                  (count + 1)).flatten.length < passes := by
            have hPositive : 0 < streamChunkLengthLen := by
              decide
            rw [hReader] at hPasses
            change (_ ++ _ : Bytes).length < _ at hPasses
            rw [List.length_append,
              DecryptingReader.length_chunkFrame] at hPasses
            omega
          have hOpen : r.isEOF = false := by
            rw [hReader]
            simp [readerAt]
          have hAfter :
              Positioned aead streamNonce plaintext served
                (min (served + size) plaintext.length)
                (readerAt aead streamNonce
                  (r.buffer ++ (streamChunks plaintext)[count])
                  (count + 1)
                  ((streamFrames aead streamNonce
                    (streamChunks plaintext)).drop
                      (count + 1)).flatten) := by
            refine ⟨count + 1, hNext, ⟨?_, hBounds.2⟩, ?_,
              ?_, Or.inl ?_⟩
            · rw [Nat.succ_mul]
              exact Nat.le_add_right_of_le hBounds.1
            · rw [Nat.succ_mul]
              apply Nat.add_lt_add_right
              generalize count * streamChunkSize = opened at *
              omega
            · have hMore :=
                take_append_getElem_blocks hNext
              change r.buffer ++ _ = _
              rw [← hMore, hBuffer,
                List.drop_append_of_le_length]
              · exact congrArg _ rfl
              · rw [List.length_take]
                exact Nat.le_min.mpr hBounds
            · simp [readerAt]
          rcases ih hAfter hShorter with
            ⟨next, hFilled, hRest⟩
          refine ⟨next, ?_, hRest⟩
          rw [fillBuffer, if_pos ⟨hAsked, hOpen⟩, hOpened]
          exact hFilled
        · -- All frames are open, and the input is at its end.
          have hWhole :
              plaintext.length ≤ count * streamChunkSize := by
            have hOutside :=
              mt (lt_length_blocks_iff (by decide) plaintext
                count).mpr hNext
            exact Nat.le_of_not_lt hOutside
          have hNoFrame :
              ((streamFrames aead streamNonce
                (streamChunks plaintext)).drop
                  count).flatten = [] := by
            rw [List.drop_of_length_le, List.flatten_nil]
            rw [length_streamFrames]
            exact Nat.le_of_not_lt hNext
          rw [hNoFrame] at hReader
          have hEnd :=
            fillBuffer_end (Or.inl rfl : IsEnd aead [])
              hAsked streamNonce passes count
          rw [← hReader] at hEnd
          refine ⟨_, hEnd,
            ⟨count, hCount, hBounds, hNeeded, hBuffer,
              Or.inr ⟨hWhole, ?_⟩⟩, ?_, Or.inr ?_⟩
          · simp [endedReader, readerAt]
          · simp [endedReader, readerAt, hAll hWhole]
          · simp [endedReader, readerAt, hAll hWhole]
      · have hEnded : r.isEOF = true := by
          rw [hReader]
          simp [endedReader]
        refine ⟨r, ?_, hStart, ?_, Or.inr (hAll hWhole)⟩
        · rw [fillBuffer, if_neg]
          rintro ⟨hMore, hOpen⟩
          rw [hEnded] at hOpen
          cases hOpen
        · rw [hAll hWhole]

------------------------------------------------------------
-- Reads of a Stream That Nobody Touched
------------------------------------------------------------

variable {r : DecryptingReader}

theorem eq_of_next_multiple
    {size count served : Nat}
    (hMultiple : served % size = 0)
    (hLow : served ≤ count * size)
    (hHigh : count * size < served + size) :
    served = count * size := by
  rcases Nat.dvd_of_mod_eq_zero hMultiple with
    ⟨before, hBefore⟩
  rw [Nat.mul_comm] at hBefore
  have hStep : served + size = (before + 1) * size := by
    rw [hBefore, Nat.succ_mul]
  rw [hStep] at hHigh
  have hCount : count ≤ before :=
    Nat.le_of_lt_succ (Nat.lt_of_mul_lt_mul_right hHigh)
  apply Nat.le_antisymm hLow
  rw [hBefore]
  exact Nat.mul_le_mul_right size hCount

/- Nothing is held back behind a whole number of chunks. -/
theorem Positioned.buffer_eq_nil_iff
    {served : Nat}
    (hServed :
      Positioned aead streamNonce plaintext served served
        r) :
    r.buffer = [] ↔
      plaintext.drop served = [] ∨
        served % streamChunkSize = 0 := by
  rcases hServed with
    ⟨count, hCount, hBounds, hNeeded, hBuffer, hReader⟩
  have hLength :
      r.buffer = [] ↔
        min (count * streamChunkSize) plaintext.length ≤
          served := by
    rw [hBuffer, List.drop_eq_nil_iff, List.length_take]
  rw [hLength, List.drop_eq_nil_iff, min_le_iff]
  constructor
  · rintro (hOpened | hAll)
    · right
      rw [Nat.le_antisymm hBounds.1 hOpened]
      exact Nat.mul_mod_left _ _
    · exact Or.inl hAll
  · rintro (hAll | hMultiple)
    · exact Or.inr hAll
    · left
      exact Nat.le_of_eq
        (eq_of_next_multiple hMultiple hBounds.1
          hNeeded).symm

/- What a read takes from the buffer was asked for. -/
theorem Positioned.drop
    {served size : Nat}
    (hServed :
      Positioned aead streamNonce plaintext served
        (min (served + size) plaintext.length) r)
    (hFilled :
      size ≤ r.buffer.length ∨
        r.buffer = plaintext.drop served) :
    Positioned aead streamNonce plaintext
      (min (served + size) plaintext.length)
      (min (served + size) plaintext.length)
      { r with buffer := r.buffer.drop size } := by
  rcases hServed with
    ⟨count, hCount, hBounds, hNeeded, hBuffer, hReader⟩
  have hLength :
      r.buffer.length =
        min (count * streamChunkSize) plaintext.length -
          served := by
    rw [hBuffer, List.length_drop, List.length_take]
  have hReached :
      min (served + size) plaintext.length ≤
        count * streamChunkSize := by
    have hAll :
        r.buffer = plaintext.drop served →
          r.buffer.length = plaintext.length - served := by
      intro hRest
      rw [hRest, List.length_drop]
    have hWhich := hFilled.imp id hAll
    generalize count * streamChunkSize = opened at *
    omega
  refine ⟨count, hCount, ⟨hReached, Nat.min_le_right _ _⟩,
    hNeeded, ?_, ?_⟩
  · change r.buffer.drop size = _
    rw [hBuffer, List.drop_drop]
    by_cases hInside : served + size ≤ plaintext.length
    · rw [Nat.min_eq_left hInside]
    · have hOutside := Nat.le_of_not_le hInside
      rw [Nat.min_eq_right hOutside,
        List.drop_of_length_le, List.drop_of_length_le]
      · exact List.length_take_le' _ _
      · exact Nat.le_trans (List.length_take_le' _ _)
          hOutside
  · rcases hReader with hReader | ⟨hWhole, hReader⟩
    · left
      rw [hReader]
      simp [readerAt]
    · right
      refine ⟨hWhole, ?_⟩
      rw [hReader]
      simp [endedReader, readerAt]

/-
  A read returns the next bytes.  It is told the end when
  nothing is left, or when it asks for nothing between two
  chunks.
-/
theorem read_positioned
    (hOpens :
      aead.Opens
        (sealLog streamNonce (streamChunks plaintext)))
    {served : Nat}
    (size : Nat)
    {r : DecryptingReader}
    (hServed :
      Positioned aead streamNonce plaintext served served
        r) :
    ∃ next,
      r.read size =
          ((plaintext.drop served).take size,
            if plaintext.drop served = [] ∨
                size = 0 ∧ served % streamChunkSize = 0 then
              some (.sentinel .eof)
            else
              none,
            next) ∧
        Positioned aead streamNonce plaintext
          (min (served + size) plaintext.length)
          (min (served + size) plaintext.length) next := by
  have hAsked :
      Positioned aead streamNonce plaintext served
        (min (served + size) plaintext.length) r := by
    rcases hServed with
      ⟨count, hCount, hBounds, hNeeded, hRest⟩
    refine ⟨count, hCount, hBounds, ?_, hRest⟩
    apply Nat.lt_of_lt_of_le hNeeded
    apply Nat.add_le_add_right
    exact Nat.le_min.mpr
      ⟨Nat.le_add_right _ _, hBounds.2⟩
  rcases
    fillBuffer_positioned hOpens hAsked
      (Nat.lt_succ_self _) with
    ⟨filled, hFilled, hStill, hTaken, hStop⟩
  have hNext := hStill.drop hStop
  have hEmpty :
      filled.buffer = [] ↔
        plaintext.drop served = [] ∨
          size = 0 ∧ served % streamChunkSize = 0 := by
    by_cases hNothing : size = 0
    · -- Nothing was asked for, so no chunk was opened.
      have hPlace : served ≤ plaintext.length := by
        rcases hServed with ⟨count, hCount, hBounds, hRest⟩
        exact hBounds.2
      rw [hNothing, Nat.add_zero, Nat.min_eq_left hPlace]
        at hStill
      rw [hStill.buffer_eq_nil_iff]
      simp [hNothing]
    · rcases hStop with hFull | hAll
      · have hSome : filled.buffer ≠ [] := by
          apply List.ne_nil_of_length_pos
          omega
        have hLeft : plaintext.drop served ≠ [] := by
          intro hNone
          rw [hNone, List.take_nil,
            List.take_eq_nil_iff] at hTaken
          exact hTaken.elim hNothing hSome
        simp [hSome, hLeft, hNothing]
      · rw [hAll]
        simp [hNothing]
  refine ⟨_, ?_, hNext⟩
  unfold DecryptingReader.read
  rw [hFilled]
  by_cases hNone : filled.buffer = []
  · have hSame :
        { filled with buffer := filled.buffer.drop size } =
          filled := by
      rw [hNone, List.drop_nil, ← hNone]
    rw [hNone, List.take_nil] at hTaken
    rw [if_pos (hEmpty.mp hNone), hSame]
    simp only [if_pos hNone, ← hTaken]
  · rw [if_neg (mt hEmpty.mpr hNone)]
    simp only [if_neg hNone, hTaken]

/- Reads that go on behind `asked` bytes. -/
theorem returnsPlaintext_readEach_iff
    (hOpens :
      aead.Opens
        (sealLog streamNonce (streamChunks plaintext)))
    (sizes : List Nat)
    {asked : Nat}
    {r : DecryptingReader}
    (hServed :
      Positioned aead streamNonce plaintext
        (min asked plaintext.length)
        (min asked plaintext.length) r) :
    ReturnsPlaintext (plaintext.drop asked) sizes
        (r.readEach sizes) ↔
      EmptyReadsInsideChunk plaintext.length asked
        sizes := by
  induction sizes generalizing asked r with
  | nil => exact iff_of_true (returnsPlaintext_nil _) trivial
  | cons size sizes ih =>
      have hPlace :
          plaintext.drop (min asked plaintext.length) =
            plaintext.drop asked := by
        by_cases hInside : asked ≤ plaintext.length
        · rw [Nat.min_eq_left hInside]
        · have hOutside := Nat.le_of_not_le hInside
          rw [Nat.min_eq_right hOutside, List.drop_length,
            List.drop_of_length_le hOutside]
      have hSum :
          min (min asked plaintext.length + size)
              plaintext.length =
            min (asked + size) plaintext.length := by
        omega
      rcases read_positioned hOpens size hServed with
        ⟨next, hRead, hNext⟩
      rw [hPlace] at hRead
      rw [hSum] at hNext
      have hRest := ih hNext
      rw [DecryptingReader.readEach, hRead]
      simp only
      rw [returnsPlaintext_cons_iff, List.drop_drop, hRest,
        EmptyReadsInsideChunk]
      apply and_congr_left'
      by_cases hLeft : asked < plaintext.length
      · rw [Nat.min_eq_left (Nat.le_of_lt hLeft)]
        have hSome : plaintext.drop asked ≠ [] := by
          rw [Ne, List.drop_eq_nil_iff]
          exact Nat.not_le_of_lt hLeft
        simp [hSome, hLeft]
      · have hNone : plaintext.drop asked = [] :=
          List.drop_of_length_le (Nat.le_of_not_lt hLeft)
        simp [hNone, hLeft]

------------------------------------------------------------
-- The Round Trip
------------------------------------------------------------

variable {primitives : Primitives}
variable {masterKey : Option MasterKey}
variable {fileID : Uuid}
variable {header : StreamHeader}

/-
  What was written, in any parts, is returned to reads of any
  sizes, exactly when no read of nothing comes before the end
  of the bytes where those asked for end with a chunk.
-/
theorem returns_plaintext_iff
    {salt nonce : Option Bytes}
    {room : Option Nat}
    {parts : List Bytes}
    {w done : EncryptingWriter}
    (sizes : List Nat)
    (hNew :
      newEncryptingWriter primitives salt nonce
        { written := [], room } masterKey fileID =
          .ok (w, header))
    (hDone : w.encryptStream parts = (none, done))
    (hOpens :
      w.cipher.Opens
        (sealLog header.nonce
          (streamChunks parts.flatten))) :
    (∃ answers,
      decryptEach primitives done.output.written masterKey
          fileID header sizes = .ok answers ∧
        ReturnsPlaintext parts.flatten sizes answers) ↔
      EmptyReadsInsideChunk parts.flatten.length 0
        sizes := by
  have hFresh := EncryptingWriter.fresh_of_new hNew
  have hLengths := hFresh.1
  have hWritten := encryptStream_written hNew hDone
  rw [List.nil_append] at hWritten
  have hHeader :
      StartsWithHeader header done.output.written := by
    have hSize := StreamHeader.length_marshal hLengths
    constructor
    · rw [hWritten, List.length_append, hSize]
      exact Nat.le_add_right _ _
    · rw [hWritten, List.take_left' hSize]
      exact unmarshalStreamHeader_marshal hLengths
  have hReader :=
    (newDecryptingReader_ok_iff hLengths hFresh.2.1).mpr
      ⟨hHeader, rfl⟩
  rw [hWritten,
    List.drop_left' (StreamHeader.length_marshal hLengths)]
    at hReader
  have hStart :
      Positioned w.cipher header.nonce parts.flatten
        (min 0 parts.flatten.length)
        (min 0 parts.flatten.length)
        (readerAt w.cipher header.nonce [] 0
          (streamFrames w.cipher header.nonce
            (streamChunks parts.flatten)).flatten) := by
    rw [Nat.zero_min]
    exact positioned_readerAt _ _ _
  have hReads :=
    returnsPlaintext_readEach_iff hOpens sizes hStart
  rw [List.drop_zero] at hReads
  unfold decryptEach
  rw [hWritten, hReader]
  simp only [Except.ok.injEq, exists_eq_left', hReads]

/- An empty write, and an empty read inside the chunk. -/
theorem written_parts_are_returned :
    ∃ answers,
      decryptEach samplePrimitives
          (sampleWriter.encryptStream
            [[10, 20], [], [30]]).2.output.written
          sampleKey 5 sampleHeader [2, 0, 4, 0] =
            .ok answers ∧
        ReturnsPlaintext [10, 20, 30] [2, 0, 4, 0]
          answers := by
  have hDone :
      sampleWriter.encryptStream [[10, 20], [], [30]] =
        (none,
          (sampleWriter.encryptStream
            [[10, 20], [], [30]]).2) := by
    rfl
  apply
    (returns_plaintext_iff [2, 0, 4, 0] sampleWriter_new
      hDone sampleWriter_ideal.toOpens).mpr
  decide

/- A first read of nothing is told the end of the stream. -/
theorem empty_read_reports_end :
    ¬ ∃ answers,
      decryptEach samplePrimitives sampleStream sampleKey 5
          sampleHeader [0, 4] = .ok answers ∧
        ReturnsPlaintext [10, 20, 30] [0, 4] answers := by
  rintro ⟨answers, hAnswers, hReturns⟩
  have hActual :
      decryptEach samplePrimitives sampleStream sampleKey 5
          sampleHeader [0, 4] =
        .ok
          [([], some (.sentinel .eof)),
            ([10, 20, 30], none)] := by
    decide +kernel
  rw [hActual] at hAnswers
  injection hAnswers with hAnswers
  have hFirst :=
    hReturns.ended [] [] (some (.sentinel .eof))
      [([10, 20, 30], none)] hAnswers.symm
  simp at hFirst

end Crypto

end Databasus
