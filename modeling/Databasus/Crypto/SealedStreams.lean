import Databasus.Crypto.DecryptingReader
import Databasus.Crypto.EncryptingWriter

/-
  A sealed stream, read from its start.

  The frames of a stream are numbered by their chunks.  A
  reader with the stream's own cipher opens one after the
  other, so a stream that nobody touched is read back as the
  plain bytes.

  Main declarations:
    * `getElem_streamFrames`
    * `readerAt`
    * `fillBuffer_frames`
    * `serve_frames`
    * `newDecryptingReader_ok_iff`
-/

------------------------------------------------------------
-- Frames
------------------------------------------------------------

namespace Databasus

namespace Crypto

variable {aead : Aead}
variable {streamNonce : Bytes}
variable {chunks : List Bytes}
variable {index : Nat}

@[simp]
theorem length_sealLog
    (streamNonce : Bytes)
    (chunks : List Bytes) :
    (sealLog streamNonce chunks).length = chunks.length :=
  List.length_mapIdx

@[simp]
theorem length_streamFrames
    (aead : Aead)
    (streamNonce : Bytes)
    (chunks : List Bytes) :
    (streamFrames aead streamNonce chunks).length =
      chunks.length := by
  unfold streamFrames
  rw [List.length_map, length_sealLog]

theorem getElem_sealLog
    (streamNonce : Bytes)
    (hIndex : index < chunks.length)
    {hEntry : index < (sealLog streamNonce chunks).length} :
    (sealLog streamNonce chunks)[index] =
      (getChunkNonce streamNonce (UInt64.ofNat index),
        chunks[index]) :=
  List.getElem_mapIdx

theorem getElem_streamFrames
    (aead : Aead)
    (streamNonce : Bytes)
    (hIndex : index < chunks.length)
    {hFrame :
      index <
        (streamFrames aead streamNonce chunks).length} :
    (streamFrames aead streamNonce chunks)[index] =
      chunkFrame (aead.seals
        (getChunkNonce streamNonce (UInt64.ofNat index))
        (chunks[index])) := by
  simp only [streamFrames, List.getElem_map,
    getElem_sealLog streamNonce hIndex]

theorem mem_sealLog_iff
    {entry : Bytes × Bytes} :
    entry ∈ sealLog streamNonce chunks ↔
      ∃ index, ∃ hIndex : index < chunks.length,
        entry.1 =
          getChunkNonce streamNonce (UInt64.ofNat index) ∧
        entry.2 = chunks[index] := by
  unfold sealLog
  rw [List.mem_mapIdx]
  constructor
  · rintro ⟨index, hIndex, hEntry⟩
    subst hEntry
    exact ⟨index, hIndex, rfl, rfl⟩
  · rintro ⟨index, hIndex, hNonce, hChunk⟩
    exact ⟨index, hIndex, Prod.ext hNonce.symm hChunk.symm⟩

/- One more frame, or one more chunk. -/
theorem flatten_take_succ
    {parts : List Bytes}
    (hIndex : index < parts.length) :
    (parts.take (index + 1)).flatten =
      (parts.take index).flatten ++ parts[index] := by
  rw [List.take_succ_eq_append_getElem hIndex,
    List.flatten_append, List.flatten_singleton]

------------------------------------------------------------
-- Opening Frames in Their Order
------------------------------------------------------------

open DecryptingReader (fillBuffer isChunkLength IsLonePrefix)

/- A reader that opened `count` chunks. -/
def readerAt
    (aead : Aead)
    (streamNonce : Bytes)
    (buffer : Bytes)
    (count : Nat)
    (rest : Bytes) : DecryptingReader :=
  { input := { rest, ending := .eof }
    cipher := aead
    streamNonce
    buffer
    chunkIndex := UInt64.ofNat count
    isEOF := false }

/- The same reader, after it found the end. -/
def endedReader
    (aead : Aead)
    (streamNonce : Bytes)
    (buffer : Bytes)
    (count : Nat) : DecryptingReader :=
  { readerAt aead streamNonce buffer count [] with
    isEOF := true }

/- A sealed chunk has a length that the reader takes. -/
theorem isChunkLength_seals
    {log : List (Bytes × Bytes)}
    (hOpens : aead.Opens log)
    (nonce : Bytes)
    {chunk : Bytes}
    (hShort : chunk.length ≤ streamChunkSize) :
    let sealedChunk := aead.seals nonce chunk
    (UInt32.ofNat sealedChunk.length).toNat =
        sealedChunk.length ∧
      isChunkLength aead
        (UInt32.ofNat sealedChunk.length) = true := by
  intro sealedChunk
  have hLength : sealedChunk.length = chunk.length + 16 := by
    rw [← hOpens.overhead_eq]
    exact hOpens.length_seals nonce chunk
  have hSize : streamChunkSize = 1048576 := by decide
  have hWidth : UInt32.size = 4294967296 := rfl
  have hFits :
      (UInt32.ofNat sealedChunk.length).toNat =
        sealedChunk.length :=
    UInt32.toNat_ofNat_of_lt' (by omega)
  refine ⟨hFits, ?_⟩
  have hMost :
      (UInt32.ofNat streamChunkSize +
        UInt32.ofNat aead.overhead).toNat = 1048592 := by
    rw [hOpens.overhead_eq]
    decide
  unfold isChunkLength
  rw [Bool.and_eq_true, bne_iff_ne, decide_eq_true_eq]
  constructor
  · intro hZero
    rw [hZero] at hFits
    have hNone : (0 : UInt32).toNat = 0 := rfl
    omega
  · rw [UInt32.le_iff_toNat_le, hMost, hFits]
    omega

theorem readAndOpenChunk_frame
    (hOpens : aead.Opens (sealLog streamNonce chunks))
    {count : Nat}
    (hCount : count < chunks.length)
    (hShort : chunks[count].length ≤ streamChunkSize)
    (buffer tail : Bytes) :
    (readerAt aead streamNonce buffer count
        (chunkFrame (aead.seals
          (getChunkNonce streamNonce (UInt64.ofNat count))
          chunks[count]) ++ tail)).readAndOpenChunk =
      (none,
        readerAt aead streamNonce (buffer ++ chunks[count])
          (count + 1) tail) := by
  have hLengths :=
    isChunkLength_seals hOpens
      (getChunkNonce streamNonce (UInt64.ofNat count)) hShort
  have hOpened :=
    hOpens.opens_seals
      (getChunkNonce streamNonce (UInt64.ofNat count),
        chunks[count])
      (mem_sealLog_iff.mpr ⟨count, hCount, rfl, rfl⟩)
  generalize hSealed :
    aead.seals
      (getChunkNonce streamNonce (UInt64.ofNat count))
      chunks[count] = sealedChunk at hLengths hOpened ⊢
  have hPrefix :=
    Iox.Source.readFull_append_left
      (putUint32 (UInt32.ofNat sealedChunk.length))
      (sealedChunk ++ tail) .eof
  have hChunk :=
    Iox.Source.readFull_append_left sealedChunk tail .eof
  rw [length_putUint32, ← List.append_assoc] at hPrefix
  change
    Iox.Source.readFull
        { rest := chunkFrame sealedChunk ++ tail
          ending := .eof } streamChunkLengthLen = _ at hPrefix
  have hNext :
      UInt64.ofNat count + 1 = UInt64.ofNat (count + 1) :=
    (UInt64.ofNat_add count 1).symm
  unfold DecryptingReader.readAndOpenChunk readerAt
  simp only [hPrefix, getUint32_putUint32, hLengths.2,
    Bool.not_true, Bool.false_eq_true, if_false, hLengths.1,
    hChunk, hOpened, hNext]

/- A run of frames goes into the buffer as its chunks. -/
theorem fillBuffer_frames
    (hOpens : aead.Opens (sealLog streamNonce chunks))
    (hShort :
      ∀ chunk ∈ chunks, chunk.length ≤ streamChunkSize)
    (tail : Bytes)
    (passes size : Nat)
    (more count : Nat)
    (buffer : Bytes)
    (hMore : count + more ≤ chunks.length)
    (hAsked :
      (buffer ++
        ((chunks.drop count).take more).flatten).length <
          size) :
    fillBuffer (more + passes)
        (readerAt aead streamNonce buffer count
          ((((streamFrames aead streamNonce chunks).drop
            count).take more).flatten ++ tail)) size =
      fillBuffer passes
        (readerAt aead streamNonce
          (buffer ++
            ((chunks.drop count).take more).flatten)
          (count + more) tail) size := by
  induction more generalizing count buffer with
  | zero =>
      simp only [Nat.zero_add, List.take_zero,
        List.flatten_nil, List.nil_append, List.append_nil,
        Nat.add_zero]
  | succ more ih =>
      have hCount : count < chunks.length := by omega
      have hFrame :
          count <
            (streamFrames aead streamNonce
              chunks).length := by
        rw [length_streamFrames]
        exact hCount
      rw [List.drop_eq_getElem_cons hCount,
        List.take_succ_cons, List.flatten_cons,
        ← List.append_assoc] at hAsked ⊢
      rw [List.drop_eq_getElem_cons hFrame,
        List.take_succ_cons, List.flatten_cons,
        List.append_assoc,
        getElem_streamFrames aead streamNonce hCount,
        Nat.add_right_comm, fillBuffer]
      have hRoom : buffer.length < size := by
        simp only [List.length_append] at hAsked
        omega
      rw [if_pos ⟨hRoom, rfl⟩,
        readAndOpenChunk_frame hOpens hCount
          (hShort _ (List.getElem_mem hCount))]
      have hRest :=
        ih (count + 1) (buffer ++ chunks[count]) (by omega)
          hAsked
      simp only
      rw [hRest, Nat.add_assoc, Nat.add_comm 1 more]

/- Nothing left, or a length with nothing behind it. -/
def IsEnd
    (aead : Aead)
    (tail : Bytes) : Prop :=
  tail = [] ∨ IsLonePrefix aead tail

theorem readAndOpenChunk_end
    {tail : Bytes}
    (hEnd : IsEnd aead tail)
    (streamNonce buffer : Bytes)
    (count : Nat) :
    ∃ err : StreamError,
      err.is .eof = true ∧
        (readerAt aead streamNonce buffer count
            tail).readAndOpenChunk =
          (some err,
            readerAt aead streamNonce buffer count []) := by
  rcases hEnd with hNothing | hLone
  · subst hNothing
    exact ⟨.sentinel .eof, rfl, rfl⟩
  · have hPrefix :=
      Iox.Source.readFull_append_left tail [] .eof
    rw [hLone.1, List.append_nil] at hPrefix
    have hPositive : 0 < (getUint32 tail).toNat := by
      have hLength := hLone.2
      unfold isChunkLength at hLength
      rw [Bool.and_eq_true, bne_iff_ne] at hLength
      apply Nat.pos_of_ne_zero
      intro hZero
      exact hLength.1 (UInt32.toNat_inj.mp hZero)
    have hChunk :
        Iox.Source.readFull { rest := [], ending := .eof }
            (getUint32 tail).toNat = _ :=
      Iox.Source.readFull_of_few hPositive
    refine ⟨.wrapped "read the encrypted chunk"
      (.sentinel .eof), rfl, ?_⟩
    unfold DecryptingReader.readAndOpenChunk readerAt
    simp only [hPrefix, hLone.2, Bool.not_true,
      Bool.false_eq_true, if_false, hChunk]
    rfl

theorem fillBuffer_end
    {tail buffer : Bytes}
    {size : Nat}
    (hEnd : IsEnd aead tail)
    (hAsked : buffer.length < size)
    (streamNonce : Bytes)
    (passes count : Nat) :
    fillBuffer (passes + 1)
        (readerAt aead streamNonce buffer count tail)
        size =
      (none,
        endedReader aead streamNonce buffer count) := by
  rcases
    readAndOpenChunk_end hEnd streamNonce buffer count
    with ⟨err, hEOF, hFailed⟩
  rw [fillBuffer, if_pos ⟨hAsked, rfl⟩, hFailed]
  simp only [hEOF, if_true]
  rfl

/- A frame is longer than nothing. -/
theorem le_length_flatten_frames
    (aead : Aead)
    (streamNonce : Bytes)
    (chunks : List Bytes)
    (count : Nat) :
    min count chunks.length ≤
      ((streamFrames aead streamNonce chunks).take
        count).flatten.length := by
  induction count with
  | zero => exact Nat.zero_le _
  | succ count ih =>
      by_cases hCount : count < chunks.length
      · have hFrame :
            count <
              (streamFrames aead streamNonce
                chunks).length := by
          rw [length_streamFrames]
          exact hCount
        have hPositive : 0 < streamChunkLengthLen := by
          decide
        rw [flatten_take_succ hFrame, List.length_append,
          getElem_streamFrames aead streamNonce hCount,
          DecryptingReader.length_chunkFrame]
        omega
      · have hGrows :
            ((streamFrames aead streamNonce chunks).take
              count).flatten.length ≤
            ((streamFrames aead streamNonce chunks).take
              (count + 1)).flatten.length := by
          rw [List.take_of_length_le, List.take_of_length_le]
          · rw [length_streamFrames]
            omega
          · rw [length_streamFrames]
            omega
        omega

/- One large read, and one more, take it to its end. -/
theorem serve_frames
    (hOpens : aead.Opens (sealLog streamNonce chunks))
    (hShort :
      ∀ chunk ∈ chunks, chunk.length ≤ streamChunkSize)
    {count : Nat}
    {tail : Bytes}
    (hCount : count ≤ chunks.length)
    (hEnd : IsEnd aead tail) :
    (readerAt aead streamNonce [] 0
        (((streamFrames aead streamNonce chunks).take
          count).flatten ++ tail)).serve
        [(chunks.take count).flatten.length + 1, 1] =
      ((chunks.take count).flatten,
        some (.sentinel .eof)) := by
  have hPasses :
      count ≤
        (((streamFrames aead streamNonce chunks).take
          count).flatten ++ tail).length := by
    have hMany :=
      le_length_flatten_frames aead streamNonce chunks count
    rw [Nat.min_eq_left hCount] at hMany
    rw [List.length_append]
    omega
  generalize hPlain : (chunks.take count).flatten = plain
  have hFill :
      fillBuffer
          ((((streamFrames aead streamNonce chunks).take
            count).flatten ++ tail).length + 1)
          (readerAt aead streamNonce [] 0
            (((streamFrames aead streamNonce chunks).take
              count).flatten ++ tail))
          (plain.length + 1) =
        (none,
          endedReader aead streamNonce plain count) := by
    rcases Nat.exists_eq_add_of_le hPasses with
      ⟨extra, hExtra⟩
    have hFrames :=
      fillBuffer_frames hOpens hShort tail (extra + 1)
        (plain.length + 1) count 0 []
        (by rw [Nat.zero_add]; exact hCount)
        (by
          rw [List.drop_zero, hPlain, List.nil_append]
          exact Nat.lt_succ_self _)
    rw [List.drop_zero, List.drop_zero, hPlain,
      List.nil_append, Nat.zero_add] at hFrames
    rw [hExtra, Nat.add_assoc, hFrames]
    exact fillBuffer_end hEnd (Nat.lt_succ_self _) _ _ _
  have hLast :
      (endedReader aead streamNonce [] count).read 1 =
        ([], some (.sentinel .eof),
          endedReader aead streamNonce [] count) := rfl
  unfold DecryptingReader.serve DecryptingReader.read
  have hInput :
      (readerAt aead streamNonce [] 0
        (((streamFrames aead streamNonce chunks).take
          count).flatten ++ tail)).input.rest =
        ((streamFrames aead streamNonce chunks).take
          count).flatten ++ tail := rfl
  rw [hInput, hFill]
  by_cases hNone : plain = []
  · subst hNone
    rfl
  · have hSome :
        (endedReader aead streamNonce plain count).buffer ≠
          [] := hNone
    have hDrained :
        ({ endedReader aead streamNonce plain count with
          buffer :=
            (endedReader aead streamNonce plain
              count).buffer.drop (plain.length + 1) } :
          DecryptingReader) =
            endedReader aead streamNonce [] count := by
      have hDropped : plain.drop (plain.length + 1) = [] :=
        List.drop_of_length_le (Nat.le_succ _)
      unfold endedReader readerAt
      simp only [hDropped]
    have hTaken :
        (endedReader aead streamNonce plain
          count).buffer.take (plain.length + 1) = plain :=
      List.take_of_length_le (Nat.le_succ _)
    simp only [if_neg hSome, hDrained, hTaken]
    unfold DecryptingReader.serve
    rw [hLast]
    simp

------------------------------------------------------------
-- Streams That Nobody Touched
------------------------------------------------------------

open DecryptingReader (fillBuffer)

/- A reader of a whole stream that still has to serve `left`. -/
def Intact
    (aead : Aead)
    (streamNonce : Bytes)
    (chunks : List Bytes)
    (left : Bytes)
    (r : DecryptingReader) : Prop :=
  ∃ count,
    count ≤ chunks.length ∧
      left = r.buffer ++ (chunks.drop count).flatten ∧
      (r =
          readerAt aead streamNonce r.buffer count
            ((streamFrames aead streamNonce chunks).drop
              count).flatten ∨
        count = chunks.length ∧
          r =
            endedReader aead streamNonce r.buffer count)

theorem intact_readerAt
    (aead : Aead)
    (streamNonce : Bytes)
    (chunks : List Bytes) :
    Intact aead streamNonce chunks chunks.flatten
      (readerAt aead streamNonce [] 0
        (streamFrames aead streamNonce chunks).flatten) :=
  ⟨0, Nat.zero_le _, rfl, Or.inl rfl⟩

/- The loop fills the buffer, or empties the stream into it. -/
theorem fillBuffer_intact
    (hOpens : aead.Opens (sealLog streamNonce chunks))
    (hShort :
      ∀ chunk ∈ chunks, chunk.length ≤ streamChunkSize)
    (size : Nat)
    {passes : Nat}
    {left : Bytes}
    {r : DecryptingReader}
    (hIntact : Intact aead streamNonce chunks left r)
    (hPasses : r.input.rest.length < passes) :
    ∃ next,
      fillBuffer passes r size = (none, next) ∧
        Intact aead streamNonce chunks left next ∧
          (size ≤ next.buffer.length ∨
            next.buffer = left) := by
  induction passes generalizing r with
  | zero => exact absurd hPasses (Nat.not_lt_zero _)
  | succ passes ih =>
      rcases hIntact with ⟨count, hCount, hLeft, hReader⟩
      rcases hReader with hReader | ⟨hAll, hReader⟩
      · by_cases hFull : size ≤ r.buffer.length
        · have hStops :
              ¬ (r.buffer.length < size ∧
                r.isEOF = false) :=
            fun hMore => Nat.not_lt_of_le hFull hMore.1
          refine ⟨r, ?_, ⟨count, hCount, hLeft,
            Or.inl hReader⟩, Or.inl hFull⟩
          rw [fillBuffer, if_neg hStops]
        have hAsked : r.buffer.length < size :=
          Nat.lt_of_not_le hFull
        rcases Nat.lt_or_eq_of_le hCount with hNext | hLast
        · -- The next frame is opened, and the loop goes on.
          have hFrame :
              count <
                (streamFrames aead streamNonce
                  chunks).length := by
            rw [length_streamFrames]
            exact hNext
          have hSplit :=
            congrArg List.flatten
              (List.drop_eq_getElem_cons hFrame)
          rw [List.flatten_cons,
            getElem_streamFrames aead streamNonce hNext]
            at hSplit
          rw [hSplit] at hReader
          have hOpened :=
            readAndOpenChunk_frame hOpens hNext
              (hShort _ (List.getElem_mem hNext)) r.buffer
              ((streamFrames aead streamNonce chunks).drop
                (count + 1)).flatten
          rw [← hReader] at hOpened
          have hPositive : 0 < streamChunkLengthLen := by
            decide
          have hShorter :
              ((streamFrames aead streamNonce chunks).drop
                (count + 1)).flatten.length < passes := by
            rw [hReader] at hPasses
            change (_ ++ _ : Bytes).length < _ at hPasses
            rw [List.length_append,
              DecryptingReader.length_chunkFrame] at hPasses
            omega
          have hOpen : r.isEOF = false := by
            rw [hReader]
            rfl
          have hAfter :
              Intact aead streamNonce chunks left
                (readerAt aead streamNonce
                  (r.buffer ++ chunks[count]) (count + 1)
                  ((streamFrames aead streamNonce
                    chunks).drop (count + 1)).flatten) := by
            refine ⟨count + 1, hNext, ?_, Or.inl rfl⟩
            rw [hLeft, List.drop_eq_getElem_cons hNext,
              List.flatten_cons, ← List.append_assoc]
            rfl
          rcases ih hAfter hShorter with
            ⟨next, hFilled, hRest⟩
          refine ⟨next, ?_, hRest⟩
          rw [fillBuffer, if_pos ⟨hAsked, hOpen⟩, hOpened]
          exact hFilled
        · -- All frames are open, and the input is at its end.
          have hNoFrame :
              ((streamFrames aead streamNonce chunks).drop
                count).flatten = [] := by
            rw [List.drop_of_length_le]
            · rfl
            · rw [length_streamFrames, hLast]
          have hNoChunk :
              (chunks.drop count).flatten = [] := by
            rw [hLast, List.drop_length]
            rfl
          rw [hNoChunk, List.append_nil] at hLeft
          rw [hNoFrame] at hReader
          have hEnd :=
            fillBuffer_end (Or.inl rfl : IsEnd aead [])
              hAsked streamNonce passes count
          rw [← hReader] at hEnd
          refine ⟨_, hEnd, ⟨count, hCount, ?_,
            Or.inr ⟨hLast, rfl⟩⟩, Or.inr hLeft.symm⟩
          rw [hNoChunk, List.append_nil]
          exact hLeft
      · have hEnded : r.isEOF = true := by
          rw [hReader]
          rfl
        have hStops :
            ¬ (r.buffer.length < size ∧ r.isEOF = false) := by
          rintro ⟨hAsked, hOpen⟩
          rw [hEnded] at hOpen
          cases hOpen
        refine ⟨r, ?_, ⟨count, hCount, hLeft,
          Or.inr ⟨hAll, hReader⟩⟩, Or.inr ?_⟩
        · rw [fillBuffer, if_neg hStops]
        · rw [hLeft, hAll, List.drop_length]
          exact (List.append_nil _).symm

theorem Intact.drop
    {left : Bytes}
    {r : DecryptingReader}
    (size : Nat)
    (hIntact : Intact aead streamNonce chunks left r)
    (hFilled : size ≤ r.buffer.length ∨ r.buffer = left) :
    r.buffer.take size = left.take size ∧
      Intact aead streamNonce chunks (left.drop size)
        { r with buffer := r.buffer.drop size } := by
  rcases hIntact with ⟨count, hCount, hLeft, hReader⟩
  have hParts :
      r.buffer.take size = left.take size ∧
        left.drop size =
          r.buffer.drop size ++
            (chunks.drop count).flatten := by
    rcases hFilled with hFull | hAll
    · rw [hLeft, List.take_append_of_le_length hFull,
        List.drop_append_of_le_length hFull]
      exact ⟨rfl, rfl⟩
    · have hNone : (chunks.drop count).flatten = [] := by
        rw [hAll] at hLeft
        exact List.self_eq_append_right.mp hLeft
      rw [hAll, hNone, List.append_nil]
      exact ⟨rfl, rfl⟩
  refine ⟨hParts.1, count, hCount, hParts.2, ?_⟩
  rcases hReader with hReader | ⟨hLast, hReader⟩
  · left
    rw [hReader]
    rfl
  · right
    refine ⟨hLast, ?_⟩
    rw [hReader]
    rfl

/- A read takes the next bytes of the plain bytes. -/
theorem read_intact
    (hOpens : aead.Opens (sealLog streamNonce chunks))
    (hShort :
      ∀ chunk ∈ chunks, chunk.length ≤ streamChunkSize)
    {size : Nat}
    {left : Bytes}
    {r : DecryptingReader}
    (hAsked : 0 < size)
    (hIntact : Intact aead streamNonce chunks left r) :
    ∃ next,
      Intact aead streamNonce chunks (left.drop size) next ∧
        r.read size =
          if left = [] then
            ([], some (.sentinel .eof), next)
          else
            (left.take size, none, next) := by
  rcases
    fillBuffer_intact hOpens hShort size hIntact
      (Nat.lt_succ_self _) with
    ⟨filled, hFilled, hStill, hStop⟩
  have hDrop := hStill.drop size hStop
  by_cases hNone : left = []
  · have hEmpty : filled.buffer = [] := by
      rcases hStill with ⟨count, hCount, hLeft, hReader⟩
      rw [hNone] at hLeft
      exact (List.append_eq_nil_iff.mp hLeft.symm).1
    refine ⟨filled, ?_, ?_⟩
    · rw [hNone, List.drop_nil]
      rw [hNone] at hStill
      exact hStill
    · unfold DecryptingReader.read
      rw [hFilled, if_pos hNone]
      simp only [if_pos hEmpty]
  · have hSome : filled.buffer ≠ [] := by
      rcases hStop with hFull | hAll
      · intro hEmpty
        rw [hEmpty, List.length_nil] at hFull
        omega
      · rw [hAll]
        exact hNone
    refine ⟨_, hDrop.2, ?_⟩
    unfold DecryptingReader.read
    rw [hFilled, if_neg hNone, ← hDrop.1]
    simp only [if_neg hSome]

------------------------------------------------------------
-- Whole Streams
------------------------------------------------------------

variable {header : StreamHeader}
variable {stream : Bytes}

/- A stream that starts with this header. -/
def StartsWithHeader
    (header : StreamHeader)
    (stream : Bytes) : Prop :=
  streamHeaderLen ≤ stream.length ∧
    unmarshalStreamHeader (stream.take streamHeaderLen) =
      .ok header

theorem readAndCheckStreamHeader_ok_iff
    {rest : Iox.Source} :
    readAndCheckStreamHeader
        { rest := stream, ending := .eof } header = .ok rest ↔
      StartsWithHeader header stream ∧
        rest =
          { rest := stream.drop streamHeaderLen
            ending := .eof } := by
  unfold readAndCheckStreamHeader StartsWithHeader
  rcases Nat.lt_or_ge stream.length streamHeaderLen with
    hFew | hEnough
  · rw [Iox.Source.readFull_of_few hFew]
    constructor
    · intro hNever
      cases hNever
    · rintro ⟨⟨hEnough, hStored⟩, hRest⟩
      omega
  · rw [Iox.Source.readFull_of_enough hEnough]
    simp only
    cases hStored :
        unmarshalStreamHeader
          (stream.take streamHeaderLen) with
    | error err =>
        constructor
        · intro hNever
          cases hNever
        · rintro ⟨⟨hLong, hNever⟩, hRest⟩
          cases hNever
    | ok storedHeader =>
        simp only
        by_cases hSalt : storedHeader.salt = header.salt
        · rw [if_neg (not_not_intro hSalt)]
          by_cases hNonce :
              storedHeader.nonce = header.nonce
          · rw [if_neg (not_not_intro hNonce)]
            have hSame : storedHeader = header := by
              cases storedHeader
              cases header
              simp_all
            constructor
            · intro hRest
              injection hRest with hRest
              exact ⟨⟨hEnough, congrArg Except.ok hSame⟩,
                hRest.symm⟩
            · rintro ⟨hHeader, hRest⟩
              rw [hRest]
          · rw [if_pos hNonce]
            constructor
            · intro hNever
              cases hNever
            · rintro ⟨⟨hLong, hHeader⟩, hRest⟩
              injection hHeader with hHeader
              exact absurd
                (congrArg StreamHeader.nonce hHeader) hNonce
        · rw [if_pos hSalt]
          constructor
          · intro hNever
            cases hNever
          · rintro ⟨⟨hLong, hHeader⟩, hRest⟩
            injection hHeader with hHeader
            exact absurd
              (congrArg StreamHeader.salt hHeader) hSalt

theorem newDecryptingReader_ok_iff
    {primitives : Primitives}
    {masterKey : Option MasterKey}
    {fileID : Uuid}
    {r : DecryptingReader}
    (hLengths : header.HasLengths)
    (hCipher :
      newStreamCipher primitives masterKey fileID
        header.salt = .ok aead) :
    newDecryptingReader primitives
        { rest := stream, ending := .eof } masterKey fileID
        header = .ok r ↔
      StartsWithHeader header stream ∧
        r =
          readerAt aead header.nonce [] 0
            (stream.drop streamHeaderLen) := by
  unfold newDecryptingReader
  rw [(StreamHeader.validateLengths_ok_iff header).mpr
    hLengths, hCipher]
  simp only
  cases hCheck :
      readAndCheckStreamHeader
        { rest := stream, ending := .eof } header with
  | error err =>
      constructor
      · intro hNever
        cases hNever
      · rintro ⟨hHeader, hReader⟩
        have hOk :=
          readAndCheckStreamHeader_ok_iff.mpr
            ⟨hHeader, rfl⟩
        rw [hCheck] at hOk
        cases hOk
  | ok rest =>
      rcases readAndCheckStreamHeader_ok_iff.mp hCheck with
        ⟨hHeader, hRest⟩
      subst hRest
      constructor
      · intro hReader
        injection hReader with hReader
        exact ⟨hHeader, hReader.symm⟩
      · rintro ⟨hAgain, hReader⟩
        rw [hReader]
        rfl

/- What a stream's reader serves to reads of these sizes. -/
def decryptStream
    (primitives : Primitives)
    (stream : Bytes)
    (masterKey : Option MasterKey)
    (fileID : Uuid)
    (header : StreamHeader)
    (sizes : List Nat) : Bytes × Option StreamError :=
  match
    newDecryptingReader primitives
      { rest := stream, ending := .eof } masterKey fileID
      header with
  | .error err => ([], some err)
  | .ok r => r.serve sizes

end Crypto

end Databasus
