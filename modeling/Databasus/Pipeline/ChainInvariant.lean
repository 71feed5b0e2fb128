import Databasus.Pipeline.UploadSound

/-
  What the chain of a dump holds in every phase of a backup.

  While no write has failed, the dump's bytes are in the pipe,
  in the call that waits, or with the compressor.  Steps of the
  upload and of the contexts leave that as it is.

  Main declarations:
    * `ChainHolds`
    * `ChainWhole`
    * `Writing`
    * `PhaseHolds`
    * `RunInvariant`
    * `RunInvariant.of_keepsChain`
-/

------------------------------------------------------------
-- The Chain
------------------------------------------------------------

namespace Databasus

namespace Pipeline

open Foundation
open Storages.Files (WriteReceipt)

variable {deps : PipelineDeps}
variable {spec : StreamSpec}
variable {s s' : BackupRun deps.codec}
variable {taken : Bytes}

namespace BackupRun

/- What the compressor has not handed on. -/
def blocks
    (s : BackupRun deps.codec) : List Bytes :=
  s.chain.zstdEncoder.elim [] ZstdEncoder.blocks

def callData
    (s : BackupRun deps.codec) : Bytes :=
  s.call.elim [] ChainCall.data

/- What a compressor that is closed or not has handed on. -/
def handed
    (spec : StreamSpec)
    (s : BackupRun deps.codec) : List Bytes :=
  match s.chain.zstdEncoder with
  | none => s.dumpWrites
  | some encoder =>
      (deps.codec.run spec.zstdLevel s.dumpWrites).2 ++
        if encoder.isClosed then
          deps.codec.finish
            (deps.codec.run spec.zstdLevel s.dumpWrites).1
        else
          []

end BackupRun

/- The bytes of a call are in the pipe, and the rest waits. -/
def CallPiped
    (s : BackupRun deps.codec) : Prop :=
  match s.call with
  | none =>
      s.pipe.waiting = none ∧
        s.pipe.taken = s.chain.output.sink.written
  | some call =>
      ∃ rest,
        s.pipe.waiting = some rest ∧
          s.pipe.taken ++ rest =
            (call.run s.chain.output).2.2.sink.written

/-
  No write has failed: the output took some bytes, a call
  carries the next ones, and the compressor has the rest.
-/
structure ChainHolds
    (spec : StreamSpec)
    (s : BackupRun deps.codec)
    (taken : Bytes) : Prop where
  took : s.chain.output.Took deps spec s.header taken
  room : s.chain.output.sink.room = none
  count : s.chain.storedBytes = taken.length
  encoder :
    ∀ encoder, s.chain.zstdEncoder = some encoder →
      encoder.error = none ∧
        encoder.state =
          (deps.codec.run spec.zstdLevel s.dumpWrites).1
  isZstd : s.chain.zstdEncoder.isSome = spec.isZstd
  handed :
    taken ++ (s.callData ++ s.blocks.flatten) =
      (s.handed spec).flatten
  piped : CallPiped s

/- The chain is closed, and its pipe took the whole file. -/
structure ChainWhole
    (spec : StreamSpec)
    (s : BackupRun deps.codec) : Prop where
  noCall : s.call = none
  noBlocks : s.blocks = []
  waiting : s.pipe.waiting = none
  stored :
    IsStoredFile deps spec s.header
      (storedParts deps spec s.dumpWrites).flatten
      s.pipe.taken
  size :
    s.chain.storedBytes =
      (storedParts deps spec s.dumpWrites).flatten.length

/- A compressor keeps a failure of its output. -/
def EncoderKeeps
    (s : BackupRun deps.codec) : Prop :=
  ∀ encoder, s.chain.zstdEncoder = some encoder →
    s.chain.hasWriteFailed = true →
      encoder.error.isSome = true

structure Writing
    (spec : StreamSpec)
    (s : BackupRun deps.codec) : Prop where
  holds :
    s.chain.hasWriteFailed = false →
      ∃ taken, ChainHolds spec s taken
  keeps : EncoderKeeps s

/- A call that begins puts all that it emits before the pipe. -/
theorem beginCall_some
    {call : ChainCall}
    (hBegin : s.beginCall call = some s') :
    s.call = none ∧ s.pipe.waiting = none ∧
      s' =
        { s with
          pipe :=
            { s.pipe with
              waiting := some (call.emits s.chain.output) }
          call := some call } := by
  unfold BackupRun.beginCall at hBegin
  split at hBegin
  · cases hBegin
  · next hIdle =>
      rcases Option.map_eq_some_iff.mp hBegin with
        ⟨pipe, hPipe, rfl⟩
      rcases Pipe.beginWrite_some hPipe with ⟨hWaiting, rfl⟩
      exact ⟨hIdle, hWaiting, rfl⟩

/- The pipe of a call that begins gets what its sink will hold. -/
theorem callPiped_begin
    (call : ChainCall)
    (hIdle : s.call = none)
    (hPiped : CallPiped s)
    (hRoom : s.chain.output.sink.room = none) :
    s.pipe.taken ++ call.emits s.chain.output =
      (call.run s.chain.output).2.2.sink.written := by
  unfold CallPiped at hPiped
  rw [hIdle] at hPiped
  rw [hPiped.2]
  exact StoredOutput.written_append_emits call hRoom

/- What the compressor got, the output will get. -/
theorem handed_push
    {encoder : ZstdEncoder deps.codec}
    {dumpWrites : List Bytes}
    (data : Bytes)
    (hState :
      encoder.state =
        (deps.codec.run spec.zstdLevel dumpWrites).1) :
    (deps.codec.run spec.zstdLevel (dumpWrites ++ [data])) =
      ((deps.codec.write encoder.state data).1,
        (deps.codec.run spec.zstdLevel dumpWrites).2 ++
          (deps.codec.write encoder.state data).2) := by
  rw [ZstdCodec.run_concat, hState]

/- The dump's bytes go to the compressor, or into a call. -/
theorem Writing.dumpWrite
    {data : Bytes}
    (hWriting : Writing spec s)
    (hOpen :
      ∀ encoder, s.chain.zstdEncoder = some encoder →
        encoder.isClosed = false)
    (hTaken : s.dumpWrite data = some s') :
    Writing spec s' := by
  unfold BackupRun.dumpWrite at hTaken
  simp only at hTaken
  split at hTaken
  · next hPlain =>
      rcases beginCall_some hTaken with ⟨hIdle, _, rfl⟩
      change s.call = none at hIdle
      refine
        { holds := ?_
          keeps := ?_ }
      · intro hHealthy
        rcases hWriting.holds hHealthy with ⟨taken, hHolds⟩
        have hHanded := hHolds.handed
        have hTarget :=
          callPiped_begin (.write data) hIdle hHolds.piped
            hHolds.room
        unfold BackupRun.callData BackupRun.blocks
          BackupRun.handed at hHanded
        rw [hIdle, hPlain] at hHanded
        refine
          ⟨taken,
            { took := hHolds.took
              room := hHolds.room
              count := hHolds.count
              encoder := ?_
              isZstd := hHolds.isZstd
              handed := ?_
              piped := ?_ }⟩
        · intro encoder hEncoder
          rw [hPlain] at hEncoder
          cases hEncoder
        · unfold BackupRun.callData BackupRun.blocks
            BackupRun.handed
          simp only [hPlain]
          simp only [Option.elim, List.flatten_nil,
            List.append_nil] at hHanded
          rw [hHanded, List.flatten_append]
          simp [ChainCall.data]
        · exact ⟨_, rfl, hTarget⟩
      · intro encoder hEncoder
        rw [hPlain] at hEncoder
        cases hEncoder
  · next encoder hEncoder =>
      cases hTaken
      refine
        { holds := ?_
          keeps := ?_ }
      · intro hHealthy
        rcases hWriting.holds hHealthy with ⟨taken, hHolds⟩
        rcases hHolds.encoder encoder hEncoder with
          ⟨hError, hState⟩
        have hPush := handed_push data hState
        have hHanded := hHolds.handed
        have hNext :
            encoder.write data =
              { encoder with
                state := (deps.codec.write encoder.state data).1
                blocks :=
                  encoder.blocks ++
                    (deps.codec.write encoder.state data).2 } := by
          unfold ZstdEncoder.write
          rw [hError]
          rfl
        unfold BackupRun.callData BackupRun.blocks
          BackupRun.handed at hHanded
        simp only [hEncoder, hOpen encoder hEncoder,
          Option.elim] at hHanded
        refine
          ⟨taken,
            { took := hHolds.took
              room := hHolds.room
              count := hHolds.count
              encoder := ?_
              isZstd := ?_
              handed := ?_
              piped := hHolds.piped }⟩
        · intro other hOther
          cases hOther
          rw [hNext, hPush]
          exact ⟨hError, rfl⟩
        · rw [← hHolds.isZstd, hEncoder]
          rfl
        · unfold BackupRun.callData BackupRun.blocks
            BackupRun.handed
          simp only [hNext, hPush, hOpen encoder hEncoder,
            Option.elim]
          simp only [Bool.false_eq_true, if_false,
            List.append_nil] at hHanded ⊢
          rw [List.flatten_append, List.flatten_append,
            ← hHanded]
          simp only [List.append_assoc]
      · intro other hOther hFailed
        cases hOther
        have hError := hWriting.keeps encoder hEncoder hFailed
        unfold ZstdEncoder.write
        rw [if_pos hError]
        exact hError

/- A block of the compressor goes into a call. -/
theorem Writing.flushBlock
    (hWriting : Writing spec s)
    (hTaken : s.flushBlock = some s') :
    Writing spec s' := by
  unfold BackupRun.flushBlock at hTaken
  split at hTaken
  · cases hTaken
  next encoder hEncoder =>
  split at hTaken
  · cases hTaken
  next hNoError =>
  split at hTaken
  · cases hTaken
  next block rest hBlocks =>
  rcases beginCall_some hTaken with ⟨hIdle, _, rfl⟩
  change s.call = none at hIdle
  refine
    { holds := ?_
      keeps := ?_ }
  · intro hHealthy
    rcases hWriting.holds hHealthy with ⟨taken, hHolds⟩
    have hHanded := hHolds.handed
    have hTarget :=
      callPiped_begin (.write block) hIdle hHolds.piped
        hHolds.room
    unfold BackupRun.callData BackupRun.blocks
      BackupRun.handed at hHanded
    simp only [hEncoder, hIdle, hBlocks, Option.elim]
      at hHanded
    refine
      ⟨taken,
        { took := hHolds.took
          room := hHolds.room
          count := hHolds.count
          encoder := ?_
          isZstd := ?_
          handed := ?_
          piped := ⟨_, rfl, hTarget⟩ }⟩
    · intro other hOther
      cases hOther
      exact hHolds.encoder encoder hEncoder
    · rw [← hHolds.isZstd, hEncoder]
      rfl
    · unfold BackupRun.callData BackupRun.blocks
        BackupRun.handed
      simp only [Option.elim, ChainCall.data]
      rw [← hHanded]
      rfl
  · intro other hOther hFailed
    cases hOther
    exact absurd (hWriting.keeps encoder hEncoder hFailed)
      hNoError

/- A write that the pipe took is over. -/
theorem Writing.finishCall
    {data : Bytes}
    (hWriting : Writing spec s)
    (hCall : s.call = some (.write data))
    (hTaken : s.finishCall = some s') :
    Writing spec s' := by
  unfold BackupRun.finishCall at hTaken
  rw [hCall] at hTaken
  split at hTaken
  · next call pipe hSame hPipe =>
      cases hSame
      cases hTaken
      rcases Pipe.finishWrite_some hPipe with
        ⟨hWaiting, rfl⟩
      refine
        { holds := ?_
          keeps := hWriting.keeps }
      intro hHealthy
      rcases hWriting.holds hHealthy with ⟨taken, hHolds⟩
      rcases hHolds.took.write hHolds.room data with
        ⟨after, hWrite, hTook, hRoom⟩
      have hHanded := hHolds.handed
      have hPiped := hHolds.piped
      unfold BackupRun.callData at hHanded
      unfold CallPiped at hPiped
      rw [hCall] at hHanded hPiped
      rcases hPiped with ⟨rest, hRest, hTarget⟩
      rw [hWaiting] at hRest
      cases hRest
      simp only [ChainCall.run, hWrite] at hTarget
      refine
        ⟨taken ++ data,
          { took := ?_
            room := ?_
            count := ?_
            encoder := hHolds.encoder
            isZstd := hHolds.isZstd
            handed := ?_
            piped := ?_ }⟩
      · simp only [ChainCall.run, hWrite]
        exact hTook
      · simp only [ChainCall.run, hWrite]
        exact hRoom
      · simp only [ChainCall.run, hWrite]
        rw [hHolds.count, List.length_append]
      · rw [List.append_assoc]
        exact hHanded
      · refine ⟨rfl, ?_⟩
        simp only [ChainCall.run, hWrite]
        rw [← hTarget, List.append_nil]
  · cases hTaken

/- A write that a closed pipe ended has failed. -/
theorem Writing.failCall
    {data : Bytes}
    (hCall : s.call = some (.write data))
    (hTaken : s.failCall = some s') :
    Writing spec s' ∧ s'.chain.hasWriteFailed = true := by
  unfold BackupRun.failCall at hTaken
  rw [hCall] at hTaken
  split at hTaken
  · next call rest pipe hSame hPipe =>
      cases hSame
      simp only at hTaken
      split at hTaken
      · next hPlain =>
          cases hTaken
          refine
            ⟨{ holds := fun hHealthy => nomatch hHealthy
               keeps := ?_ }, rfl⟩
          intro encoder hEncoder
          rw [hPlain] at hEncoder
          cases hEncoder
      · next encoder hEncoder =>
          cases hTaken
          refine
            ⟨{ holds := fun hHealthy => nomatch hHealthy
               keeps := ?_ }, rfl⟩
          intro other hOther _
          cases hOther
          change (encoder.error <|> some _).isSome = true
          cases encoder.error <;> rfl
  · cases hTaken

------------------------------------------------------------
-- The Invariant
------------------------------------------------------------

/- The phases after the pipe was closed by the chain. -/
def Phase.isLate : Phase → Bool
  | .awaitingSave => true
  | .picking _ => true
  | .publishing => true
  | .unwinding _ => true
  | .answering _ => true
  | .returned _ => true
  | _ => false

/- The phases of a dump that has returned. -/
def Phase.isAfterDump : Phase → Bool
  | .finishing => true
  | .awaitingFailedWrite => true
  | .checkingContext => true
  | .closingEncoder => true
  | .closingEncryption => true
  | .closingPipe => true
  | .awaitingSave => true
  | _ => false

structure Unopened
    (s : BackupRun deps.codec) : Prop where
  backupCause : s.backupCause = none
  pipe : s.pipe = Pipe.new
  stage : s.upload.stage = .notStarted
  encoder : s.chain.zstdEncoder = none
  call : s.call = none
  dumpWrites : s.dumpWrites = []

structure Succeeded
    (spec : StreamSpec)
    (s : BackupRun deps.codec)
    (result : BackupResult) : Prop where
  chain : ChainWhole spec s
  backup : WholeBackup deps spec s result
  errors : s.upload.errors = some none

/- What holds while the goroutine is there. -/
def PhaseHolds
    (spec : StreamSpec)
    (s : BackupRun deps.codec) : Phase → Prop
  | .opening => Unopened s
  | .dumping =>
      Writing spec s ∧
        ∀ encoder, s.chain.zstdEncoder = some encoder →
          encoder.isClosed = false
  | .finishing => Writing spec s ∧ s.isDumpBusy = false
  | .awaitingFailedWrite =>
      Writing spec s ∧ s.isDumpBusy = false
  | .checkingContext =>
      Writing spec s ∧ s.isDumpBusy = false ∧
        (s.backupCause = none →
          s.chain.zstdEncoder = none →
            s.chain.hasWriteFailed = false)
  | .closingEncoder =>
      Writing spec s ∧ s.isDumpBusy = false ∧
        (s.chain.zstdEncoder = none →
          s.chain.hasWriteFailed = false) ∧
          ∀ encoder, s.chain.zstdEncoder = some encoder →
            encoder.isClosed = true
  | .closingEncryption =>
      s.call = some .close ∧ s.blocks = [] ∧
        ChainHolds spec s
          (storedParts deps spec s.dumpWrites).flatten
  | .closingPipe => ChainWhole spec s
  | .closeFailed error => error ≠ .eof
  | .awaitingSave => ChainWhole spec s
  | .publishing =>
      ChainWhole spec s ∧ s.dumpResult = some (.ok ()) ∧
        s.upload.errors = some none
  | .unwinding (.ok result) => Succeeded spec s result
  | .returned (.ok result) => Succeeded spec s result
  | _ => True

structure RunInvariant
    (spec : StreamSpec)
    (s : BackupRun deps.codec) : Prop where
  upload : UploadSound s
  late : s.isChainClosed = true → s.phase.isLate = true
  closing :
    s.call = some .close → s.phase = .closingEncryption
  dumped :
    s.phase.isAfterDump = true → s.dumpResult.isSome = true
  phase : PhaseHolds spec s s.phase

/- What the pipe has not handed over stays in it. -/
def PipeKeeps
    (p p' : Pipe UInt8 BackupError) : Prop :=
  (p'.waiting = p.waiting ∧ p'.taken = p.taken) ∨
    ∃ rest rest',
      p.waiting = some rest ∧ p'.waiting = some rest' ∧
        p'.taken ++ rest' = p.taken ++ rest

/- The steps of the upload and of the contexts. -/
structure KeepsChain
    (s s' : BackupRun deps.codec) : Prop where
  chain : s'.chain = s.chain
  header : s'.header = s.header
  call : s'.call = s.call
  dumpWrites : s'.dumpWrites = s.dumpWrites
  dumpResult : s'.dumpResult = s.dumpResult
  isChainClosed : s'.isChainClosed = s.isChainClosed
  cause :
    s'.backupCause = none → s.backupCause = none
  pipe : PipeKeeps s.pipe s'.pipe
  upload :
    ∀ error, s.upload.errors = some error →
      s'.upload = s.upload
  unopened :
    s.phase = .opening → Unopened s → Unopened s'

theorem KeepsChain.callPiped
    (hKeeps : KeepsChain s s')
    (hPiped : CallPiped s) :
    CallPiped s' := by
  unfold CallPiped at hPiped ⊢
  rw [hKeeps.call, hKeeps.chain]
  cases hCall : s.call with
  | none =>
      rw [hCall] at hPiped
      rcases hKeeps.pipe with ⟨hWaiting, hTaken⟩ |
        ⟨rest, rest', hRest, _⟩
      · exact ⟨hWaiting.trans hPiped.1, hTaken.trans hPiped.2⟩
      · rw [hPiped.1] at hRest
        cases hRest
  | some call =>
      rw [hCall] at hPiped
      rcases hPiped with ⟨waiting, hPending, hTarget⟩
      rcases hKeeps.pipe with ⟨hWaiting, hTaken⟩ |
        ⟨rest, rest', hRest, hRest', hMoved⟩
      · refine ⟨waiting, hWaiting.trans hPending, ?_⟩
        rw [hTaken]
        exact hTarget
      · rw [hPending] at hRest
        cases hRest
        exact ⟨rest', hRest', hMoved.trans hTarget⟩

theorem KeepsChain.chainHolds
    (hKeeps : KeepsChain s s')
    (hHolds : ChainHolds spec s taken) :
    ChainHolds spec s' taken := by
  have hHanded := hHolds.handed
  refine
    { took := ?_
      room := ?_
      count := ?_
      encoder := ?_
      isZstd := ?_
      handed := ?_
      piped := hKeeps.callPiped hHolds.piped }
  · rw [hKeeps.chain, hKeeps.header]
    exact hHolds.took
  · rw [hKeeps.chain]
    exact hHolds.room
  · rw [hKeeps.chain]
    exact hHolds.count
  · rw [hKeeps.chain, hKeeps.dumpWrites]
    exact hHolds.encoder
  · rw [hKeeps.chain]
    exact hHolds.isZstd
  · unfold BackupRun.callData BackupRun.blocks
      BackupRun.handed at hHanded ⊢
    rw [hKeeps.chain, hKeeps.call, hKeeps.dumpWrites]
    exact hHanded

theorem KeepsChain.writing
    (hKeeps : KeepsChain s s')
    (hWriting : Writing spec s) :
    Writing spec s' := by
  refine
    { holds := ?_
      keeps := ?_ }
  · rw [hKeeps.chain]
    intro hHealthy
    rcases hWriting.holds hHealthy with ⟨taken, hHolds⟩
    exact ⟨taken, hKeeps.chainHolds hHolds⟩
  · unfold EncoderKeeps
    rw [hKeeps.chain]
    exact hWriting.keeps

theorem KeepsChain.taken_of_idle
    (hKeeps : KeepsChain s s')
    (hWaiting : s.pipe.waiting = none) :
    s'.pipe.waiting = none ∧ s'.pipe.taken = s.pipe.taken := by
  rcases hKeeps.pipe with ⟨hSame, hTaken⟩ |
    ⟨rest, rest', hRest, _⟩
  · exact ⟨hSame.trans hWaiting, hTaken⟩
  · rw [hWaiting] at hRest
    cases hRest

theorem KeepsChain.chainWhole
    (hKeeps : KeepsChain s s')
    (hWhole : ChainWhole spec s) :
    ChainWhole spec s' := by
  have hPipe := hKeeps.taken_of_idle hWhole.waiting
  refine
    { noCall := hKeeps.call.trans hWhole.noCall
      noBlocks := ?_
      waiting := hPipe.1
      stored := ?_
      size := ?_ }
  · unfold BackupRun.blocks
    rw [hKeeps.chain]
    exact hWhole.noBlocks
  · rw [hKeeps.header, hKeeps.dumpWrites, hPipe.2]
    exact hWhole.stored
  · rw [hKeeps.chain, hKeeps.dumpWrites]
    exact hWhole.size

theorem KeepsChain.succeeded
    {result : BackupResult}
    (hKeeps : KeepsChain s s')
    (hSucceeded : Succeeded spec s result) :
    Succeeded spec s' result := by
  have hPipe := hKeeps.taken_of_idle hSucceeded.chain.waiting
  have hUpload := hKeeps.upload none hSucceeded.errors
  have hBackup := hSucceeded.backup
  refine
    { chain := hKeeps.chainWhole hSucceeded.chain
      backup :=
        { dumped := hKeeps.dumpResult.trans hBackup.dumped
          stored := ?_
          size := ?_
          ended := ?_
          saved := ?_ }
      errors := ?_ }
  · rw [hKeeps.dumpWrites, hPipe.2]
    exact hBackup.stored
  · rw [hKeeps.dumpWrites]
    exact hBackup.size
  · rw [hUpload]
    exact hBackup.ended
  · rw [hUpload]
    exact hBackup.saved
  · rw [hUpload]
    exact hSucceeded.errors

/- Other goroutines leave what a phase is about. -/
theorem KeepsChain.phaseHolds
    {phase : Phase}
    (hKeeps : KeepsChain s s')
    (hAt : s.phase = phase)
    (hPhase : PhaseHolds spec s phase) :
    PhaseHolds spec s' phase := by
  have hBusy : s'.isDumpBusy = s.isDumpBusy := by
    unfold BackupRun.isDumpBusy
    rw [hKeeps.chain, hKeeps.call]
  unfold PhaseHolds at hPhase ⊢
  split at hPhase
  · exact hKeeps.unopened hAt hPhase
  · rw [hKeeps.chain]
    exact ⟨hKeeps.writing hPhase.1, hPhase.2⟩
  · rw [hBusy]
    exact ⟨hKeeps.writing hPhase.1, hPhase.2⟩
  · rw [hBusy]
    exact ⟨hKeeps.writing hPhase.1, hPhase.2⟩
  · rw [hBusy, hKeeps.chain]
    exact
      ⟨hKeeps.writing hPhase.1, hPhase.2.1,
        fun hCause => hPhase.2.2 (hKeeps.cause hCause)⟩
  · rw [hBusy, hKeeps.chain]
    exact ⟨hKeeps.writing hPhase.1, hPhase.2⟩
  · refine ⟨hKeeps.call.trans hPhase.1, ?_, ?_⟩
    · unfold BackupRun.blocks
      rw [hKeeps.chain]
      exact hPhase.2.1
    · rw [hKeeps.dumpWrites]
      exact hKeeps.chainHolds hPhase.2.2
  · exact hKeeps.chainWhole hPhase
  · exact hPhase
  · exact hKeeps.chainWhole hPhase
  · refine
      ⟨hKeeps.chainWhole hPhase.1,
        hKeeps.dumpResult.trans hPhase.2.1, ?_⟩
    rw [hKeeps.upload none hPhase.2.2]
    exact hPhase.2.2
  · exact hKeeps.succeeded hPhase
  · exact hKeeps.succeeded hPhase
  · trivial

/- Steps of others keep the invariant if the upload is sound. -/
theorem RunInvariant.of_keepsChain
    (hHolds : RunInvariant spec s)
    (hKeeps : KeepsChain s s')
    (hAt : s'.phase = s.phase)
    (hUpload : UploadSound s') :
    RunInvariant spec s' := by
  refine
    { upload := hUpload
      late := ?_
      closing := ?_
      dumped := ?_
      phase := ?_ }
  · rw [hKeeps.isChainClosed, hAt]
    exact hHolds.late
  · rw [hKeeps.call, hAt]
    exact hHolds.closing
  · rw [hAt, hKeeps.dumpResult]
    exact hHolds.dumped
  · rw [hAt]
    exact hKeeps.phaseHolds rfl hHolds.phase

end Pipeline

end Databasus
