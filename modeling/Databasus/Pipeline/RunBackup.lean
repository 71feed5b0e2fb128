import Databasus.Foundation.Pipe
import Databasus.Pipeline.WriterChain
import Databasus.Storages.Files.System

/-
  A backup of a dump into a storage, step by step.

  The dump, the compressor, the storage's upload and the
  contexts go on beside the goroutine that finishes the
  backup.  A storage says that it saved a file only after it
  has read its source to the end.

  Main declarations:
    * `Phase`
    * `Upload`
    * `BackupRun`
    * `backupStep`
    * `backupSystem`
    * `WholeBackup`
-/

------------------------------------------------------------
-- The State of a Run
------------------------------------------------------------

namespace Databasus

namespace Pipeline

open Foundation
open Storages.Files (WriteReceipt)

structure BackupResult where
  encryptionHeader : Option EncryptionHeader
  storedBytes : Nat
  receipt : WriteReceipt
deriving DecidableEq, Repr

/- Where the goroutine of `RunBackup` is. -/
inductive Phase
  | opening
  | dumping
  | finishing
  | awaitingFailedWrite
  | checkingContext
  | abandoned
  | closingEncoder
  | closingEncryption
  | closingPipe
  | closeFailed (error : BackupError)
  | awaitingStorage (error : BackupError)
  | awaitingSave
  | picking (error : BackupError)
  | publishing
  | unwinding (outcome : Except BackupError BackupResult)
  | answering (error : BackupError)
  | returned (outcome : Except BackupError BackupResult)

/- What the goroutine of the upload does next. -/
inductive UploadStage
  | notStarted
  | reading
  | closingSource (error : BackupError)
  | callingOnFailure (error : BackupError)
  | sendingReceipt
      (receipt : WriteReceipt)
      (error : Option BackupError)
  | sendingError
      (receipt : WriteReceipt)
      (error : Option BackupError)
  | done
deriving DecidableEq, Repr

/-
  The background write and its channels.  No code reads
  `outcome`, how the storage's write ended.
-/
structure Upload where
  stage : UploadStage
  sawEOF : Bool
  outcome : Option (Except BackupError WriteReceipt)
  receipts : Option WriteReceipt
  errors : Option (Option BackupError)

def Upload.new : Upload where
  stage := .notStarted
  sawEOF := false
  outcome := none
  receipts := none
  errors := none

/- The receipt of a write that gave none. -/
def emptyReceipt : WriteReceipt where
  pendingDeletionID := 0
  reference :=
    { storageID := 0
      fileName := "" }
  generation := 0

/-
  No code reads `dumpWrites`, what the dump has written so
  far, and `isChainClosed`.
-/
structure BackupRun (codec : ZstdCodec) where
  phase : Phase
  runEnd : Option RunEnd
  backupCause : Option BackupError
  isClosingPipe : Bool
  pipe : Pipe UInt8 BackupError
  chain : WriterChain codec
  header : Option EncryptionHeader
  call : Option ChainCall
  upload : Upload
  dumpResult : Option (Except BackupError Unit)
  dumpWrites : List Bytes
  isChainClosed : Bool

inductive BackupAction
  | endRun (reason : RunEnd)
  | propagate
  | closePipe
  | failOpening (error : BackupError)
  | panicOpening (value : String)
  | open
      (salt nonce : Option Bytes)
      (zstdError : Option BackupError)
  | dumpWrite (data : Bytes)
  | flushBlock
  | finishCall
  | failCall
  | endDump (result : Except BackupError Unit)
  | panicDump (value : String)
  | readPipe (count : Nat)
  | readEnd
  | closeSource (error : BackupError)
  | endUpload (outcome : Except BackupError WriteReceipt)
  | panicUpload
  | deliver
  | advance
  | panicProgress (value : String)

------------------------------------------------------------
-- The Calls of the Chain
------------------------------------------------------------

variable {codec : ZstdCodec}

namespace BackupRun

/- A call begins with all of its bytes before the pipe. -/
def beginCall
    (s : BackupRun codec)
    (call : ChainCall) : Option (BackupRun codec) :=
  match s.call with
  | some _ => none
  | none =>
      (s.pipe.beginWrite (call.emits s.chain.output)).map
        fun pipe =>
          { s with
            pipe := pipe
            call := some call }

/- The pipe has taken all of a call. -/
def finishCall
    (s : BackupRun codec) : Option (BackupRun codec) :=
  match s.call, s.pipe.finishWrite with
  | some call, some pipe =>
      let ended := call.run s.chain.output
      let s' :=
        { s with
          pipe := pipe
          call := none
          chain :=
            { s.chain with
              storedBytes := s.chain.storedBytes + ended.1
              output := ended.2.2 } }
      match call with
      | .write _ => some s'
      | .close => some { s' with phase := .closingPipe }
  | _, _ => none

/- The pipe was closed before it took all of a call. -/
def failCall
    (s : BackupRun codec) : Option (BackupRun codec) :=
  match s.call, s.pipe.failWrite with
  | some call, some (rest, pipe) =>
      let accepted :=
        (call.emits s.chain.output).length - rest.length
      let ended := call.runCut s.chain.output accepted
      let pipeError := s.pipe.writeError .closedPipe
      let error :=
        (ended.2.1.map (ofStreamError pipeError)).getD
          pipeError
      let s' :=
        { s with
          pipe := pipe
          call := none
          chain :=
            { s.chain with
              storedBytes := s.chain.storedBytes + ended.1
              output := ended.2.2
              hasWriteFailed := true } }
      match call with
      | .close =>
          some
            { s' with
              phase :=
                .closeFailed
                  (.wrapped
                    "failed to close encryption writer"
                    error) }
      | .write _ =>
          match s.chain.zstdEncoder with
          | none => some s'
          | some encoder =>
              some
                { s' with
                  chain :=
                    { s'.chain with
                      zstdEncoder :=
                        some
                          { encoder with
                            error :=
                              encoder.error <|>
                                some error } } }
  | _, _ => none

/- The dump's write waits for the pipe, or for nothing. -/
def dumpWrite
    (s : BackupRun codec)
    (data : Bytes) : Option (BackupRun codec) :=
  let logged :=
    { s with dumpWrites := s.dumpWrites ++ [data] }
  match s.chain.zstdEncoder with
  | none => logged.beginCall (.write data)
  | some encoder =>
      some
        { logged with
          chain :=
            { s.chain with
              zstdEncoder := some (encoder.write data) } }

/- The compressor hands its next block to the output. -/
def flushBlock
    (s : BackupRun codec) : Option (BackupRun codec) :=
  match s.chain.zstdEncoder with
  | none => none
  | some encoder =>
      if encoder.error.isSome then
        none
      else
        match encoder.blocks with
        | [] => none
        | block :: rest =>
            { s with
              chain :=
                { s.chain with
                  zstdEncoder :=
                    some { encoder with blocks := rest } }
            }.beginCall (.write block)

/- Without a compressor the dump itself waits for the pipe. -/
def isDumpBusy
    (s : BackupRun codec) : Bool :=
  s.chain.zstdEncoder.isNone && s.call.isSome

def beginCloseEncoder
    (s : BackupRun codec) : BackupRun codec :=
  { s with
    chain :=
      { s.chain with
        zstdEncoder :=
          s.chain.zstdEncoder.map ZstdEncoder.beginClose } }

/-
  What the close of the compressor answers, once its output
  has all blocks or has failed.
-/
def encoderResult
    (s : BackupRun codec) : Option (Option BackupError) :=
  if s.call.isSome then
    none
  else
    match s.chain.zstdEncoder with
    | none => some none
    | some encoder =>
        match encoder.error with
        | some error => some (some error)
        | none =>
            if encoder.blocks = [] then some none else none

/- The deferred calls of `streamDumpToStorage`. -/
def unwind
    (s : BackupRun codec) : BackupRun codec :=
  { s with
    isClosingPipe := false
    backupCause := s.backupCause <|> some .contextCanceled }

------------------------------------------------------------
-- Steps
------------------------------------------------------------

/- The deferred delivery of `StartBackgroundWrite`. -/
def deliver
    (s : BackupRun codec) : Option (BackupRun codec) :=
  match s.upload.stage with
  | .notStarted => none
  | .reading => none
  | .closingSource error =>
      some
        { s with
          pipe := s.pipe.closeRead error
          upload :=
            { s.upload with stage := .callingOnFailure error } }
  | .callingOnFailure error =>
      some
        { s with
          backupCause := s.backupCause <|> some error
          upload :=
            { s.upload with
              stage :=
                .sendingReceipt emptyReceipt (some error) } }
  | .sendingReceipt receipt error =>
      some
        { s with
          upload :=
            { s.upload with
              stage := .sendingError receipt error
              receipts := some receipt } }
  | .sendingError _ error =>
      some
        { s with
          upload :=
            { s.upload with
              stage := .done
              errors := some error } }
  | .done => none

def endUpload
    (s : BackupRun codec)
    (outcome : Except BackupError WriteReceipt) :
    BackupRun codec :=
  { s with
    upload :=
      { s.upload with
        outcome := some outcome
        stage :=
          match outcome with
          | .ok receipt => .sendingReceipt receipt none
          | .error error => .closingSource error } }

/- `pickInterruptionOr` -/
def pickInterruptionOr
    (s : BackupRun codec)
    (error : BackupError) : BackupError :=
  match s.backupCause with
  | some cause => describeBackupInterruption s.runEnd cause
  | none => error

/- The dump's error comes before the storage's. -/
def afterSave
    (s : BackupRun codec)
    (saveError : Option BackupError) : Phase :=
  match s.dumpResult, saveError with
  | some (.error dumpError), _ => .picking dumpError
  | _, some error =>
      .picking (.wrapped "save to storage" error)
  | _, none => .publishing

/- The next step of the goroutine that finishes the backup. -/
def advance
    (s : BackupRun codec) : Option (BackupRun codec) :=
  match s.phase with
  | .opening => none
  | .dumping => none
  | .finishing =>
      if s.chain.hasWriteFailed then
        some { s with phase := .awaitingFailedWrite }
      else
        some { s with phase := .checkingContext }
  | .awaitingFailedWrite =>
      s.upload.errors.map fun _ =>
        { s with phase := .checkingContext }
  | .checkingContext =>
      if s.backupCause.isSome then
        some { s.beginCloseEncoder with phase := .abandoned }
      else
        some
          { s.beginCloseEncoder with phase := .closingEncoder }
  | .abandoned =>
      match s.encoderResult, s.upload.errors, s.backupCause with
      | some _, some _, some cause =>
          some
            { s with
              phase :=
                .unwinding
                  (.error
                    (describeBackupInterruption s.runEnd
                      cause)) }
      | _, _, _ => none
  | .closingEncoder =>
      match s.encoderResult with
      | none => none
      | some (some error) =>
          some
            { s with
              phase :=
                .closeFailed
                  (.wrapped "failed to close zstd writer"
                    error) }
      | some none =>
          match s.chain.output with
          | .plain _ => some { s with phase := .closingPipe }
          | .encrypting _ =>
              { s with phase := .closingEncryption }.beginCall
                .close
  | .closingEncryption => none
  | .closingPipe =>
      some
        { s with
          pipe := s.pipe.closeWrite .eof
          isChainClosed := true
          phase := .awaitingSave }
  | .closeFailed error =>
      some
        { s with
          pipe := s.pipe.closeWrite error
          phase := .awaitingStorage error }
  | .awaitingStorage error =>
      s.upload.errors.map fun _ =>
        { s with phase := .picking error }
  | .awaitingSave =>
      s.upload.errors.map fun saveError =>
        { s with phase := s.afterSave saveError }
  | .picking error =>
      some
        { s with
          phase :=
            .unwinding (.error (s.pickInterruptionOr error)) }
  | .publishing =>
      s.upload.receipts.map fun receipt =>
        { s with
          phase :=
            .unwinding
              (.ok
                { encryptionHeader := s.header
                  storedBytes := s.chain.storedBytes
                  receipt := receipt }) }
  | .unwinding outcome =>
      some
        { s.unwind with
          phase :=
            match outcome with
            | .error error => .answering error
            | .ok result => .returned (.ok result) }
  | .answering error =>
      some
        { s with
          phase :=
            .returned
              (.error
                (match s.runEnd with
                | some reason =>
                    describeBackupInterruption s.runEnd
                      reason.cause
                | none => error)) }
  | .returned _ => none

end BackupRun

/-
  A context keeps its first cause.  The backup's context is a
  child of the run's and ends after it, and the pipe is closed
  some time after the backup's context has ended.
-/
def backupStep
    (deps : PipelineDeps)
    (spec : StreamSpec)
    (s : BackupRun deps.codec) :
    BackupAction → Option (BackupRun deps.codec)
  | .endRun reason =>
      some { s with runEnd := s.runEnd <|> some reason }
  | .propagate =>
      match s.phase, s.runEnd with
      | .opening, _ => none
      | _, none => none
      | _, some reason =>
          some
            { s with
              backupCause :=
                s.backupCause <|> some reason.cause }
  | .closePipe =>
      match s.backupCause with
      | none => none
      | some cause =>
          if s.isClosingPipe then
            some
              { s with
                isClosingPipe := false
                pipe := s.pipe.closeWrite cause }
          else
            none
  | .failOpening error =>
      match s.phase with
      | .opening => some { s with phase := .answering error }
      | _ => none
  | .panicOpening value =>
      match s.phase with
      | .opening =>
          some
            { s with
              phase := .returned (.error (.panicked value)) }
      | _ => none
  | .open salt nonce zstdError =>
      match s.phase with
      | .opening =>
          match buildWriterChain deps spec salt nonce zstdError
          with
          | .error error =>
              some
                { s with phase := .unwinding (.error error) }
          | .ok (chain, header) =>
              some
                { s with
                  phase := .dumping
                  backupCause := s.runEnd.map RunEnd.cause
                  isClosingPipe := true
                  chain := chain
                  header := header
                  upload :=
                    { s.upload with stage := .reading } }
      | _ => none
  | .dumpWrite data =>
      match s.phase with
      | .dumping => s.dumpWrite data
      | _ => none
  | .flushBlock => s.flushBlock
  | .finishCall => s.finishCall
  | .failCall => s.failCall
  | .endDump result =>
      match s.phase with
      | .dumping =>
          if s.isDumpBusy then
            none
          else
            some
              { s with
                dumpResult := some result
                phase := .finishing }
      | _ => none
  | .panicDump value =>
      match s.phase with
      | .dumping =>
          if s.isDumpBusy then
            none
          else
            some
              { s.unwind with
                phase := .returned (.error (.panicked value)) }
      | _ => none
  | .readPipe count =>
      if s.upload.stage = .reading then
        (s.pipe.read count).map fun pipe =>
          { s with pipe := pipe }
      else
        none
  | .readEnd =>
      if s.upload.stage = .reading ∧
          s.pipe.readError .closedPipe = some .eof then
        some { s with upload := { s.upload with sawEOF := true } }
      else
        none
  | .closeSource error =>
      if s.upload.stage = .reading then
        some { s with pipe := s.pipe.closeRead error }
      else
        none
  | .endUpload outcome =>
      if s.upload.stage = .reading then
        match outcome with
        | .error _ => some (s.endUpload outcome)
        | .ok _ =>
            if s.upload.sawEOF then
              some (s.endUpload outcome)
            else
              none
      else
        none
  | .panicUpload =>
      if s.upload.stage = .reading then
        some (s.endUpload (.error .backgroundWriteStopped))
      else
        none
  | .deliver => s.deliver
  | .advance => s.advance
  | .panicProgress value =>
      match s.phase with
      | .publishing =>
          some
            { s.unwind with
              phase := .returned (.error (.panicked value)) }
      | _ => none

/- A call of `RunBackup`, of which nothing has happened. -/
def backupSystem
    (deps : PipelineDeps)
    (spec : StreamSpec) :
    TransitionSystem (BackupRun deps.codec) BackupAction where
  initial s :=
    s.phase = .opening ∧ s.backupCause = none ∧
      s.isClosingPipe = false ∧ s.pipe = Pipe.new ∧
      s.call = none ∧ s.chain.zstdEncoder = none ∧
      s.upload = Upload.new ∧
      s.dumpResult = none ∧ s.dumpWrites = [] ∧
      s.isChainClosed = false
  step := backupStep deps spec

/-
  The dump ended without an error, and the storage's write has
  read the file of all that the dump wrote to its end and gave
  the receipt of the result.
-/
structure WholeBackup
    (deps : PipelineDeps)
    (spec : StreamSpec)
    (s : BackupRun deps.codec)
    (result : BackupResult) : Prop where
  dumped : s.dumpResult = some (.ok ())
  stored :
    IsStoredFile deps spec result.encryptionHeader
      (storedParts deps spec s.dumpWrites).flatten
      s.pipe.taken
  size :
    result.storedBytes =
      (storedParts deps spec s.dumpWrites).flatten.length
  ended : s.upload.sawEOF = true
  saved : s.upload.outcome = some (.ok result.receipt)

end Pipeline

end Databasus
