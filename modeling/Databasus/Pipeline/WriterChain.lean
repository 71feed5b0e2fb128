import Databasus.Foundation.Base64
import Databasus.Crypto.EncryptingWriter

/-
  The writers between a dump and the pipe of its storage.

  A dump may be compressed, what is stored is counted, and it
  may be sealed before it reaches the pipe.  The compressor
  hands its blocks on in its own time, and keeps the first
  error of its output until it is closed.

  Main declarations:
    * `BackupError`
    * `describeBackupInterruption`
    * `StoredOutput`
    * `WriterChain`
    * `IsStoredFile`
    * `StoredOutput.Took`
-/

------------------------------------------------------------
-- Errors
------------------------------------------------------------

namespace Databasus

namespace Pipeline

open Crypto (Sentinel StreamError)

inductive BackupError
  | eof
  | closedPipe
  | contextCanceled
  | backupShutdown
  | backupTimeout
  | backupCancelled
  | cancelRequested
  | runEnded
  | backgroundWriteStopped
  | panicked (value : String)
  | other (text : String)
  | sentinel (error : Sentinel)
  | wrapped (text : String) (cause : BackupError)
  | joined (text : String) (first second : BackupError)
deriving DecidableEq, Repr

/- The error of a sealing writer whose output failed so. -/
def ofStreamError
    (outputError : BackupError) : StreamError → BackupError
  | .sentinel .outputFailed => outputError
  | .sentinel error => .sentinel error
  | .wrapped text cause =>
      .wrapped text (ofStreamError outputError cause)
  | .joined text first second =>
      .joined text (ofStreamError outputError first)
        (ofStreamError outputError second)

/- Why the context of a run has ended. -/
inductive RunEnd
  | shutdown
  | timeout
  | cancelRequested
  | runEnded
deriving DecidableEq, Repr

def RunEnd.cause : RunEnd → BackupError
  | .shutdown => .backupShutdown
  | .timeout => .backupTimeout
  | .cancelRequested => .cancelRequested
  | .runEnded => .runEnded

/- What a backup reports whose own context ended so. -/
def describeBackupInterruption
    (runEnd : Option RunEnd)
    (backupCause : BackupError) : BackupError :=
  match runEnd with
  | none => .wrapped "save to storage" backupCause
  | some .shutdown => .backupShutdown
  | some .timeout => .backupTimeout
  | some _ => .backupCancelled

theorem cause_ne_eof
    (reason : RunEnd) :
    reason.cause ≠ .eof := by
  cases reason <;> exact nofun

------------------------------------------------------------
-- The Compressor
------------------------------------------------------------

/-
  The compressor's library.  A write and the end hand blocks
  to the output.
-/
structure ZstdCodec where
  State : Type
  newWriter : Nat → State
  write : State → Bytes → State × List Bytes
  finish : State → List Bytes

namespace ZstdCodec

variable (codec : ZstdCodec)

/- The state after some writes, and the blocks until then. -/
def run
    (level : Nat)
    (writes : List Bytes) : codec.State × List Bytes :=
  writes.foldl
    (fun done data =>
      let next := codec.write done.1 data
      (next.1, done.2 ++ next.2))
    (codec.newWriter level, [])

/- The blocks of the writes and of the end. -/
def compressed
    (level : Nat)
    (writes : List Bytes) : List Bytes :=
  (codec.run level writes).2 ++
    codec.finish (codec.run level writes).1

theorem run_concat
    (level : Nat)
    (writes : List Bytes)
    (data : Bytes) :
    codec.run level (writes ++ [data]) =
      ((codec.write (codec.run level writes).1 data).1,
        (codec.run level writes).2 ++
          (codec.write (codec.run level writes).1 data).2) := by
  unfold run
  rw [List.foldl_append]
  rfl

end ZstdCodec

/- The encoder: what its output has not taken, and its error. -/
structure ZstdEncoder (codec : ZstdCodec) where
  state : codec.State
  blocks : List Bytes
  error : Option BackupError
  isClosed : Bool

namespace ZstdEncoder

variable {codec : ZstdCodec}

def new
    (codec : ZstdCodec)
    (level : Nat) : ZstdEncoder codec where
  state := codec.newWriter level
  blocks := []
  error := none
  isClosed := false

/- A write after an error of the output is refused. -/
def write
    (encoder : ZstdEncoder codec)
    (data : Bytes) : ZstdEncoder codec :=
  if encoder.error.isSome then
    encoder
  else
    let next := codec.write encoder.state data
    { encoder with
      state := next.1
      blocks := encoder.blocks ++ next.2 }

/- The end is handed over once. -/
def beginClose
    (encoder : ZstdEncoder codec) : ZstdEncoder codec :=
  if encoder.isClosed then
    encoder
  else
    { encoder with
      blocks :=
        encoder.blocks ++ codec.finish encoder.state
      isClosed := true }

end ZstdEncoder

------------------------------------------------------------
-- The Output
------------------------------------------------------------

open Crypto (Aead EncryptingWriter MasterKey Primitives Sink
  StreamError StreamHeader newEncryptingWriter newStreamCipher
  streamChunks streamFrames)

/-
  Where the stored bytes go.  The sink is the pipe as it was
  seen by the writes: what it took, and what it will take.
-/
inductive StoredOutput
  | plain (sink : Sink)
  | encrypting (w : EncryptingWriter)

namespace StoredOutput

def sink : StoredOutput → Sink
  | .plain sink => sink
  | .encrypting w => w.output

def withRoom
    (room : Option Nat) : StoredOutput → StoredOutput
  | .plain sink => .plain { sink with room := room }
  | .encrypting w =>
      .encrypting
        { w with output := { w.output with room := room } }

/- The number of bytes taken, the error, and the output. -/
def write
    (data : Bytes) :
    StoredOutput → Nat × Option StreamError × StoredOutput
  | .plain sink =>
      match sink.write data with
      | (true, after) =>
          (after.written.length - sink.written.length,
            some (.sentinel .outputFailed), .plain after)
      | (false, after) => (data.length, none, .plain after)
  | .encrypting w =>
      match w.write data with
      | (count, error, after) =>
          (count, error, .encrypting after)

def close : StoredOutput → Option StreamError × StoredOutput
  | .plain sink => (none, .plain sink)
  | .encrypting w =>
      match w.close with
      | (error, after) => (error, .encrypting after)

end StoredOutput

/- A call of the output that the pipe holds up. -/
inductive ChainCall
  | write (data : Bytes)
  | close
deriving DecidableEq, Repr

namespace ChainCall

/- The bytes counted, the error, and the output. -/
def run
    (output : StoredOutput) :
    ChainCall → Nat × Option StreamError × StoredOutput
  | .write data => output.write data
  | .close => (0, output.close)

/- What the call writes into a pipe that takes everything. -/
def emits
    (output : StoredOutput)
    (call : ChainCall) : Bytes :=
  (call.run (output.withRoom none)).2.2.sink.written.drop
    output.sink.written.length

/- The call on a pipe that takes so many bytes, and fails. -/
def runCut
    (output : StoredOutput)
    (accepted : Nat)
    (call : ChainCall) :
    Nat × Option StreamError × StoredOutput :=
  call.run (output.withRoom (some accepted))

/- The stored bytes that the call carries. -/
def data : ChainCall → Bytes
  | .write data => data
  | .close => []

end ChainCall

/-
  `hasWriteFailed` is the storage pipe's: a write into the
  pipe has failed.
-/
structure WriterChain (codec : ZstdCodec) where
  zstdEncoder : Option (ZstdEncoder codec)
  storedBytes : Nat
  output : StoredOutput
  hasWriteFailed : Bool

structure EncryptionHeader where
  salt : String
  nonce : String
deriving DecidableEq, Repr

/- The libraries and the master key. -/
structure PipelineDeps where
  primitives : Primitives
  masterKey : Option MasterKey
  codec : ZstdCodec

structure StreamSpec where
  backupID : Uuid
  isEncrypted : Bool
  isZstd : Bool
  zstdLevel : Nat
deriving DecidableEq, Repr

def encodeHeader
    (header : StreamHeader) : EncryptionHeader where
  salt := Foundation.Base64.encodeToString header.salt
  nonce := Foundation.Base64.encodeToString header.nonce

/-
  The salt and the nonce are what was drawn for them.  The
  compressor may refuse its options.
-/
def buildWriterChain
    (deps : PipelineDeps)
    (spec : StreamSpec)
    (salt nonce : Option Bytes)
    (zstdError : Option BackupError) :
    Except BackupError
      (WriterChain deps.codec × Option EncryptionHeader) :=
  let sink : Sink := { written := [], room := none }
  let encrypted :
      Except BackupError
        (StoredOutput × Option EncryptionHeader) :=
    if spec.isEncrypted then
      match
        newEncryptingWriter deps.primitives salt nonce sink
          deps.masterKey spec.backupID
      with
      | .error error =>
          .error (ofStreamError .closedPipe error)
      | .ok (w, header) =>
          .ok (.encrypting w, some (encodeHeader header))
    else
      .ok (.plain sink, none)
  match encrypted with
  | .error error => .error error
  | .ok (output, header) =>
      if spec.isZstd then
        match zstdError with
        | some error =>
            .error
              (.wrapped "failed to create zstd writer" error)
        | none =>
            .ok
              ({ zstdEncoder :=
                   some (.new deps.codec spec.zstdLevel)
                 storedBytes := 0
                 output := output
                 hasWriteFailed := false }, header)
      else
        .ok
          ({ zstdEncoder := none
             storedBytes := 0
             output := output
             hasWriteFailed := false }, header)

/- What is stored of a dump, before it is sealed. -/
def storedParts
    (deps : PipelineDeps)
    (spec : StreamSpec)
    (dumpWrites : List Bytes) : List Bytes :=
  if spec.isZstd then
    deps.codec.compressed spec.zstdLevel dumpWrites
  else
    dumpWrites

/- The file of the stored bytes, sealed or as they are. -/
def IsStoredFile
    (deps : PipelineDeps)
    (spec : StreamSpec)
    (header : Option EncryptionHeader)
    (stored file : Bytes) : Prop :=
  if spec.isEncrypted then
    ∃ (drawn : StreamHeader) (aead : Aead),
      header = some (encodeHeader drawn) ∧
        newStreamCipher deps.primitives deps.masterKey
            spec.backupID drawn.salt =
          .ok aead ∧
          file =
            drawn.marshal ++
              (streamFrames aead drawn.nonce
                (streamChunks stored)).flatten
  else
    header = none ∧ file = stored

end Pipeline

------------------------------------------------------------
-- What an Output Took
------------------------------------------------------------

namespace Crypto

/- A write adds to a sink. -/
theorem Sink.written_prefix
    (sink : Sink)
    (data : Bytes) :
    sink.written <+: (sink.write data).2.written := by
  unfold Sink.write
  split
  · exact List.prefix_append _ _
  · exact List.prefix_append _ _

namespace EncryptingWriter

variable (w : EncryptingWriter)

theorem written_prefix_writeHeaderOnce :
    w.output.written <+:
      w.writeHeaderOnce.2.output.written := by
  have hSink := w.output.written_prefix w.header.marshal
  unfold writeHeaderOnce
  split
  · exact List.prefix_refl _
  · split
    · next after hWrite =>
        rw [hWrite] at hSink
        exact hSink
    · next after hWrite =>
        rw [hWrite] at hSink
        exact hSink

theorem written_prefix_sealAndWriteChunk
    (chunk : Bytes) :
    w.output.written <+:
      (w.sealAndWriteChunk chunk).2.output.written := by
  have hFirst :=
    w.output.written_prefix
      (putUint32
        (UInt32.ofNat
          (w.cipher.seals
            (getChunkNonce w.header.nonce w.chunkIndex)
            chunk).length))
  unfold sealAndWriteChunk
  simp only
  split
  · next after hWrite =>
      rw [hWrite] at hFirst
      exact hFirst
  · next middle hWrite =>
      rw [hWrite] at hFirst
      have hSecond :=
        middle.written_prefix
          (w.cipher.seals
            (getChunkNonce w.header.nonce w.chunkIndex)
            chunk)
      split
      · next after hLast =>
          rw [hLast] at hSecond
          exact hFirst.trans hSecond
      · next after hLast =>
          rw [hLast] at hSecond
          exact hFirst.trans hSecond

theorem written_prefix_sealWholeChunks
    (passes : Nat) :
    ∀ w : EncryptingWriter,
      w.output.written <+:
        (sealWholeChunks passes w).2.output.written := by
  induction passes with
  | zero => exact fun w => List.prefix_refl _
  | succ passes ih =>
      intro w
      unfold sealWholeChunks
      split
      · exact List.prefix_refl _
      · have hChunk :=
          w.written_prefix_sealAndWriteChunk
            (w.buffer.take streamChunkSize)
        split
        · next error after hSeal =>
            rw [hSeal] at hChunk
            exact hChunk
        · next after hSeal =>
            rw [hSeal] at hChunk
            have hRest :=
              ih
                { after with
                  buffer := w.buffer.drop streamChunkSize }
            exact hChunk.trans hRest

theorem written_prefix_write
    (data : Bytes) :
    w.output.written <+:
      (w.write data).2.2.output.written := by
  have hHeader := w.written_prefix_writeHeaderOnce
  unfold write
  split
  · next error after hFailed =>
      rw [hFailed] at hHeader
      exact hHeader
  · next after hAfter =>
      rw [hAfter] at hHeader
      have hLoop :=
        written_prefix_sealWholeChunks
          (after.buffer ++ data).length
          { after with buffer := after.buffer ++ data }
      simp only
      split
      · next error last hLast =>
          rw [hLast] at hLoop
          exact hHeader.trans hLoop
      · next last hLast =>
          rw [hLast] at hLoop
          exact hHeader.trans hLoop

theorem written_prefix_close :
    w.output.written <+: w.close.2.output.written := by
  have hHeader := w.written_prefix_writeHeaderOnce
  unfold close
  split
  · next error after hFailed =>
      rw [hFailed] at hHeader
      exact hHeader
  · next after hAfter =>
      rw [hAfter] at hHeader
      split
      · exact hHeader
      · exact
          hHeader.trans
            (after.written_prefix_sealAndWriteChunk
              after.buffer)

end EncryptingWriter

end Crypto

end Databasus

namespace Databasus

namespace Pipeline

open Crypto (Aead EncryptingWriter StreamHeader
  newEncryptingWriter newStreamCipher)

variable {deps : PipelineDeps}
variable {spec : StreamSpec}
variable {header : Option EncryptionHeader}
variable {taken : Bytes}
variable {output : StoredOutput}

namespace StoredOutput

/- An output that took these stored bytes, and no others. -/
def Took
    (deps : PipelineDeps)
    (spec : StreamSpec)
    (header : Option EncryptionHeader)
    (taken : Bytes) : StoredOutput → Prop
  | .plain sink =>
      spec.isEncrypted = false ∧
        header = none ∧ sink.written = taken
  | .encrypting w =>
      spec.isEncrypted = true ∧
        ∃ (drawn : StreamHeader) (aead : Aead),
          header = some (encodeHeader drawn) ∧
            newStreamCipher deps.primitives deps.masterKey
                spec.backupID drawn.salt =
              .ok aead ∧
              EncryptingWriter.Took aead drawn [] taken w

theorem withRoom_of_open
    (hRoom : output.sink.room = none) :
    output.withRoom none = output := by
  cases output with
  | plain sink =>
      cases sink
      cases hRoom
      rfl
  | encrypting w =>
      cases w with
      | mk sink cipher header buffer index isWritten =>
          cases sink
          cases hRoom
          rfl

theorem written_prefix_run
    (call : ChainCall) :
    output.sink.written <+:
      (call.run output).2.2.sink.written := by
  cases output with
  | plain sink =>
      cases call with
      | write data =>
          have hSink := sink.written_prefix data
          simp only [ChainCall.run, write]
          split
          · next after hWrite =>
              rw [hWrite] at hSink
              exact hSink
          · next after hWrite =>
              rw [hWrite] at hSink
              exact hSink
      | close => exact List.prefix_refl _
  | encrypting w =>
      cases call with
      | write data => exact w.written_prefix_write data
      | close => exact w.written_prefix_close

/- The pipe gets what the sink of the call holds after it. -/
theorem written_append_emits
    (call : ChainCall)
    (hRoom : output.sink.room = none) :
    output.sink.written ++ call.emits output =
      (call.run output).2.2.sink.written := by
  unfold ChainCall.emits
  rw [withRoom_of_open hRoom]
  exact
    List.prefix_iff_eq_append.mp
      (written_prefix_run call)

/- A write that the pipe takes adds its bytes. -/
theorem Took.write
    (hTook : Took deps spec header taken output)
    (hRoom : output.sink.room = none)
    (data : Bytes) :
    ∃ after,
      output.write data = (data.length, none, after) ∧
        Took deps spec header (taken ++ data) after ∧
          after.sink.room = none := by
  cases output with
  | plain sink =>
      rcases hTook with ⟨hPlain, hHeader, hWritten⟩
      change sink.room = none at hRoom
      have hWrite :
          sink.write data =
            (false,
              { sink with written := sink.written ++ data }) := by
        unfold Crypto.Sink.write
        rw [hRoom]
      refine
        ⟨.plain
            { sink with written := sink.written ++ data },
          ?_, ⟨hPlain, hHeader, ?_⟩, hRoom⟩
      · simp only [StoredOutput.write, hWrite]
      · rw [← hWritten]
  | encrypting w =>
      rcases hTook with
        ⟨hSealed, drawn, aead, hHeader, hCipher, hWriter⟩
      have hWell := EncryptingWriter.write_goesWell data hRoom
      rcases hWrite : w.write data with ⟨count, error, after⟩
      rw [hWrite] at hWell
      rcases hWell with ⟨hNone, hOpen⟩
      change error = none at hNone
      subst hNone
      rcases EncryptingWriter.write_took hWriter hWrite with
        ⟨rfl, hAfter⟩
      refine
        ⟨.encrypting after, ?_,
          ⟨hSealed, drawn, aead, hHeader, hCipher, hAfter⟩,
          hOpen⟩
      simp only [StoredOutput.write, hWrite]

/- The close of an output leaves the whole file. -/
theorem Took.close
    (hTook : Took deps spec header taken output)
    (hRoom : output.sink.room = none) :
    ∃ after,
      output.close = (none, after) ∧
        IsStoredFile deps spec header taken
          after.sink.written := by
  cases output with
  | plain sink =>
      rcases hTook with ⟨hPlain, hHeader, hWritten⟩
      refine ⟨_, rfl, ?_⟩
      unfold IsStoredFile
      rw [if_neg (by simp [hPlain])]
      exact ⟨hHeader, hWritten⟩
  | encrypting w =>
      rcases hTook with
        ⟨hSealed, drawn, aead, hHeader, hCipher, hWriter⟩
      have hWell :=
        EncryptingWriter.encryptStream_goesWell [] hRoom
      change EncryptingWriter.GoesWell w.close at hWell
      rcases hClose : w.close with ⟨error, after⟩
      rw [hClose] at hWell
      rcases hWell with ⟨hNone, _⟩
      change error = none at hNone
      subst hNone
      have hWritten :=
        EncryptingWriter.close_written hWriter hClose
      refine ⟨.encrypting after, ?_, ?_⟩
      · simp only [StoredOutput.close, hClose]
      · unfold IsStoredFile
        rw [if_pos hSealed]
        refine ⟨drawn, aead, hHeader, hCipher, ?_⟩
        rw [List.nil_append] at hWritten
        exact hWritten

end StoredOutput

/- A chain that has just been built took nothing. -/
theorem built_took
    {salt nonce : Option Bytes}
    {zstdError : Option BackupError}
    {chain : WriterChain deps.codec}
    (hBuilt :
      buildWriterChain deps spec salt nonce zstdError =
        .ok (chain, header)) :
    chain.output.Took deps spec header [] ∧
      chain.output.sink = { written := [], room := none } ∧
      chain.storedBytes = 0 ∧
      chain.hasWriteFailed = false ∧
      chain.zstdEncoder =
        if spec.isZstd then
          some (.new deps.codec spec.zstdLevel)
        else
          none := by
  unfold buildWriterChain at hBuilt
  simp only at hBuilt
  split at hBuilt
  · cases hBuilt
  · next output outputHeader hOutput =>
      have hTook :
          output.Took deps spec outputHeader [] ∧
            output.sink = { written := [], room := none } := by
        split at hOutput
        · next hSealed =>
            split at hOutput
            · cases hOutput
            · next w drawn hNew =>
                have hFresh :=
                  EncryptingWriter.fresh_of_new hNew
                cases hOutput
                refine
                  ⟨⟨hSealed, drawn, w.cipher, rfl, hFresh.2.1,
                    Or.inl ⟨rfl, hFresh.2.2⟩⟩, ?_⟩
                unfold newEncryptingWriter at hNew
                split at hNew
                · cases hNew
                · split at hNew
                  · cases hNew
                  · cases hNew
                    rfl
        · next hPlain =>
            cases hOutput
            exact
              ⟨⟨Bool.eq_false_iff.mpr hPlain, rfl, rfl⟩, rfl⟩
      split at hBuilt
      · next hZstd =>
          split at hBuilt
          · cases hBuilt
          · cases hBuilt
            exact
              ⟨hTook.1, hTook.2, rfl, rfl, (if_pos hZstd).symm⟩
      · next hNone =>
          cases hBuilt
          exact
            ⟨hTook.1, hTook.2, rfl, rfl, (if_neg hNone).symm⟩

end Pipeline

end Databasus
