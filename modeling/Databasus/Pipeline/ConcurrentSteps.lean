import Databasus.Pipeline.ChainInvariant

/-
  The steps beside the goroutine that finishes a backup.

  Main declarations:
    * `runInvariant_deliver`
    * `runInvariant_closePipe`
    * `runInvariant_flushBlock`
    * `runInvariant_finishCall`
    * `runInvariant_failCall`
-/

------------------------------------------------------------
-- Steps of the Upload and of the Contexts
------------------------------------------------------------

namespace Databasus

namespace Pipeline

open Foundation
open Storages.Files (WriteReceipt)

variable {deps : PipelineDeps}
variable {spec : StreamSpec}
variable {s s' : BackupRun deps.codec}
variable {pipe : Pipe UInt8 BackupError}

/- A step of an upload that has started and not answered. -/
theorem keepsChain_upload
    {upload : Upload}
    {backupCause : Option BackupError}
    (hStarted : s.upload.stage ≠ .notStarted)
    (hErrors : s.upload.errors = none)
    (hCause : backupCause = none → s.backupCause = none)
    (hPipe : PipeKeeps s.pipe pipe) :
    KeepsChain s
      { s with
        upload := upload
        backupCause := backupCause
        pipe := pipe } where
  chain := rfl
  header := rfl
  call := rfl
  dumpWrites := rfl
  dumpResult := rfl
  isChainClosed := rfl
  cause := hCause
  pipe := hPipe
  upload := by
    intro error hSome
    rw [hErrors] at hSome
    cases hSome
  unopened := fun _ hUnopened => absurd hUnopened.stage hStarted

theorem errors_of_not_done
    (hSound : UploadSound s)
    (hStage : s.upload.stage ≠ .done) :
    s.upload.errors = none := by
  cases hErrors : s.upload.errors with
  | none => rfl
  | some error =>
      exact absurd (hSound.done_of_errors hErrors) hStage

theorem runInvariant_endRun
    (reason : RunEnd)
    (hHolds : RunInvariant spec s) :
    RunInvariant spec
      { s with runEnd := s.runEnd <|> some reason } := by
  refine hHolds.of_keepsChain ?_ rfl ?_
  · exact
      { chain := rfl
        header := rfl
        call := rfl
        dumpWrites := rfl
        dumpResult := rfl
        isChainClosed := rfl
        cause := id
        pipe := Or.inl ⟨rfl, rfl⟩
        upload := fun _ _ => rfl
        unopened := fun _ hUnopened =>
          { backupCause := hUnopened.backupCause
            pipe := hUnopened.pipe
            stage := hUnopened.stage
            encoder := hUnopened.encoder
            call := hUnopened.call
            dumpWrites := hUnopened.dumpWrites } }
  · exact hHolds.upload.frame rfl id (fun _ => rfl) id Or.inl

theorem runInvariant_propagate
    {reason : RunEnd}
    (hHolds : RunInvariant spec s)
    (hPhase : s.phase ≠ .opening) :
    RunInvariant spec
      { s with
        backupCause := s.backupCause <|> some reason.cause } := by
  refine hHolds.of_keepsChain ?_ rfl ?_
  · exact
      { chain := rfl
        header := rfl
        call := rfl
        dumpWrites := rfl
        dumpResult := rfl
        isChainClosed := rfl
        cause := fun hNone => by
          cases hCause : s.backupCause with
          | none => rfl
          | some cause =>
              change (s.backupCause <|> _) = none at hNone
              rw [hCause] at hNone
              exact hNone
        pipe := Or.inl ⟨rfl, rfl⟩
        upload := fun _ _ => rfl
        unopened := fun hOpening => absurd hOpening hPhase }
  · refine hHolds.upload.frame rfl id ?_ ?_ Or.inl
    · intro hSome
      change (s.backupCause <|> _) = s.backupCause
      cases hCause : s.backupCause with
      | none =>
          rw [hCause] at hSome
          cases hSome
      | some cause => rfl
    · intro hEof
      change (s.backupCause <|> _) = some BackupError.eof
        at hEof
      cases hCause : s.backupCause with
      | none =>
          rw [hCause] at hEof
          exact
            absurd (Option.some.inj hEof)
              (cause_ne_eof reason)
      | some cause =>
          rw [hCause] at hEof
          exact hEof

theorem runInvariant_closePipe
    {cause : BackupError}
    (hHolds : RunInvariant spec s)
    (hCause : s.backupCause = some cause) :
    RunInvariant spec
      { s with
        isClosingPipe := false
        pipe := s.pipe.closeWrite cause } := by
  refine hHolds.of_keepsChain ?_ rfl ?_
  · exact
      { chain := rfl
        header := rfl
        call := rfl
        dumpWrites := rfl
        dumpResult := rfl
        isChainClosed := rfl
        cause := id
        pipe := Or.inl ⟨rfl, rfl⟩
        upload := fun _ _ => rfl
        unopened := fun _ hUnopened => by
          rw [hUnopened.backupCause] at hCause
          cases hCause }
  · refine
      hHolds.upload.frame rfl id (fun _ => rfl) id ?_
    intro hEof
    rcases Pipe.closeWrite_writeEnd hEof with hOld | rfl
    · exact Or.inl hOld
    · exact Or.inr (Or.inr (hHolds.upload.cause hCause))

theorem runInvariant_readPipe
    {count : Nat}
    (hHolds : RunInvariant spec s)
    (hReading : s.upload.stage = .reading)
    (hRead : s.pipe.read count = some pipe) :
    RunInvariant spec { s with pipe := pipe } := by
  rcases Pipe.read_some hRead with
    ⟨_, rest, rest', hRest, hRest', hMoved, hWriteEnd, _⟩
  refine hHolds.of_keepsChain ?_ rfl ?_
  · apply keepsChain_upload
    · rw [hReading]
      exact nofun
    · exact (hHolds.upload.outcome_of_reading hReading).2
    · exact id
    · exact Or.inr ⟨rest, rest', hRest, hRest', hMoved⟩
  · refine
      hHolds.upload.frame rfl id (fun _ => rfl) id ?_
    intro hEof
    rw [hWriteEnd] at hEof
    exact Or.inl hEof

theorem runInvariant_readEnd
    (hHolds : RunInvariant spec s)
    (hReading : s.upload.stage = .reading)
    (hEnd : s.pipe.readError .closedPipe = some .eof) :
    RunInvariant spec
      { s with upload := { s.upload with sawEOF := true } } := by
  refine hHolds.of_keepsChain ?_ rfl ?_
  · apply keepsChain_upload
    · rw [hReading]
      exact nofun
    · exact (hHolds.upload.outcome_of_reading hReading).2
    · exact id
    · exact Or.inl ⟨rfl, rfl⟩
  · exact hHolds.upload.readEnd hReading hEnd

theorem runInvariant_closeSource
    (error : BackupError)
    (hHolds : RunInvariant spec s)
    (hReading : s.upload.stage = .reading) :
    RunInvariant spec
      { s with pipe := s.pipe.closeRead error } := by
  refine hHolds.of_keepsChain ?_ rfl ?_
  · apply keepsChain_upload
    · rw [hReading]
      exact nofun
    · exact (hHolds.upload.outcome_of_reading hReading).2
    · exact id
    · exact Or.inl ⟨rfl, rfl⟩
  · exact hHolds.upload.frame rfl id (fun _ => rfl) id Or.inl

theorem runInvariant_endUpload
    {outcome : Except BackupError WriteReceipt}
    (hHolds : RunInvariant spec s)
    (hReading : s.upload.stage = .reading)
    (hSaw :
      ∀ receipt, outcome = .ok receipt →
        s.upload.sawEOF = true) :
    RunInvariant spec (s.endUpload outcome) := by
  refine hHolds.of_keepsChain ?_ rfl ?_
  · apply keepsChain_upload
    · rw [hReading]
      exact nofun
    · exact (hHolds.upload.outcome_of_reading hReading).2
    · exact id
    · exact Or.inl ⟨rfl, rfl⟩
  · exact hHolds.upload.endUpload hReading hSaw

/- What a delivery changes. -/
theorem deliver_some
    (hTaken : s.deliver = some s') :
    s.upload.stage ≠ .notStarted ∧
      s.upload.stage ≠ .done ∧
      ∃ upload backupCause pipe,
        s' =
            { s with
              upload := upload
              backupCause := backupCause
              pipe := pipe } ∧
          (backupCause = none → s.backupCause = none) ∧
            PipeKeeps s.pipe pipe := by
  unfold BackupRun.deliver at hTaken
  split at hTaken
  · cases hTaken
  · cases hTaken
  · next error hStage =>
      cases hTaken
      rw [hStage]
      exact
        ⟨nofun, nofun, _, _, _, rfl, id,
          Or.inl ⟨rfl, rfl⟩⟩
  · next error hStage =>
      cases hTaken
      rw [hStage]
      refine
        ⟨nofun, nofun, _, _, _, rfl, ?_,
          Or.inl ⟨rfl, rfl⟩⟩
      intro hNone
      cases hCause : s.backupCause with
      | none => rfl
      | some cause =>
          rw [hCause] at hNone
          exact hNone
  · next receipt error hStage =>
      cases hTaken
      rw [hStage]
      exact
        ⟨nofun, nofun, _, _, _, rfl, id,
          Or.inl ⟨rfl, rfl⟩⟩
  · next receipt error hStage =>
      cases hTaken
      rw [hStage]
      exact
        ⟨nofun, nofun, _, _, _, rfl, id,
          Or.inl ⟨rfl, rfl⟩⟩
  · cases hTaken

theorem runInvariant_deliver
    (hHolds : RunInvariant spec s)
    (hTaken : s.deliver = some s') :
    RunInvariant spec s' := by
  have hUpload := hHolds.upload.deliver hTaken
  rcases deliver_some hTaken with
    ⟨hStarted, hDone, upload, backupCause, pipe, rfl,
      hCause, hPipe⟩
  refine hHolds.of_keepsChain ?_ rfl ?_
  · exact
      keepsChain_upload hStarted
        (errors_of_not_done hHolds.upload hDone) hCause hPipe
  · exact hUpload

------------------------------------------------------------
-- Steps of the Chain
------------------------------------------------------------

variable {encoder : ZstdEncoder deps.codec}
variable {phase : Phase}
variable {data : Bytes}

/- A step of the chain that leaves everything around it. -/
structure KeepsOutside
    (s s' : BackupRun deps.codec) : Prop where
  upload : s'.upload = s.upload
  backupCause : s'.backupCause = s.backupCause
  writeEnd : s'.pipe.writeEnd = s.pipe.writeEnd
  isChainClosed : s'.isChainClosed = s.isChainClosed
  dumpResult : s'.dumpResult = s.dumpResult

theorem KeepsOutside.uploadSound
    (hKeeps : KeepsOutside s s')
    (hSound : UploadSound s) :
    UploadSound s' := by
  refine hSound.frame hKeeps.upload ?_ ?_ ?_ ?_
  · rw [hKeeps.isChainClosed]
    exact id
  · exact fun _ => hKeeps.backupCause
  · rw [hKeeps.backupCause]
    exact id
  · rw [hKeeps.writeEnd]
    exact Or.inl

/- A step of the chain in a phase that stays. -/
theorem RunInvariant.of_keepsOutside
    (hHolds : RunInvariant spec s)
    (hKeeps : KeepsOutside s s')
    (hAt : s'.phase = s.phase)
    (hCall : s'.call ≠ some .close)
    (hPhase : PhaseHolds spec s' s.phase) :
    RunInvariant spec s' := by
  refine
    { upload := hKeeps.uploadSound hHolds.upload
      late := ?_
      closing := fun hClose => absurd hClose hCall
      dumped := ?_
      phase := ?_ }
  · rw [hKeeps.isChainClosed, hAt]
    exact hHolds.late
  · rw [hKeeps.dumpResult, hAt]
    exact hHolds.dumped
  · rw [hAt]
    exact hPhase

theorem isDumpBusy_of_encoder
    (hEncoder : s.chain.zstdEncoder = some encoder) :
    s.isDumpBusy = false := by
  unfold BackupRun.isDumpBusy
  rw [hEncoder]
  rfl

theorem flushBlock_some
    (hTaken : s.flushBlock = some s') :
    ∃ encoder block rest,
      s.chain.zstdEncoder = some encoder ∧
        encoder.blocks = block :: rest ∧
        s.call = none ∧
        s' =
          { s with
            pipe :=
              { s.pipe with
                waiting :=
                  some
                    ((ChainCall.write block).emits
                      s.chain.output) }
            call := some (.write block)
            chain :=
              { s.chain with
                zstdEncoder :=
                  some { encoder with blocks := rest } } } := by
  unfold BackupRun.flushBlock at hTaken
  split at hTaken
  · cases hTaken
  next encoder hEncoder =>
  split at hTaken
  · cases hTaken
  split at hTaken
  · cases hTaken
  next block rest hBlocks =>
  rcases beginCall_some hTaken with ⟨hIdle, _, rfl⟩
  exact ⟨encoder, block, rest, hEncoder, hBlocks, hIdle, rfl⟩

theorem ChainWhole.no_block
    {block : Bytes}
    {rest : List Bytes}
    (hWhole : ChainWhole spec s)
    (hEncoder : s.chain.zstdEncoder = some encoder)
    (hBlocks : encoder.blocks = block :: rest) :
    False := by
  have hNone := hWhole.noBlocks
  unfold BackupRun.blocks at hNone
  rw [hEncoder] at hNone
  change encoder.blocks = [] at hNone
  rw [hBlocks] at hNone
  cases hNone

/- A phase that waits for blocks goes on after one. -/
theorem phaseHolds_flushBlock
    (hTaken : s.flushBlock = some s')
    (hPhase : PhaseHolds spec s phase) :
    PhaseHolds spec s' phase := by
  have hWriting : Writing spec s → Writing spec s' :=
    fun hOld => hOld.flushBlock hTaken
  rcases flushBlock_some hTaken with
    ⟨encoder, block, rest, hEncoder, hBlocks, hIdle, rfl⟩
  unfold PhaseHolds at hPhase ⊢
  split at hPhase
  · rw [hPhase.encoder] at hEncoder
    cases hEncoder
  · refine ⟨hWriting hPhase.1, ?_⟩
    intro other hOther
    cases hOther
    exact hPhase.2 encoder hEncoder
  · exact ⟨hWriting hPhase.1, isDumpBusy_of_encoder rfl⟩
  · exact ⟨hWriting hPhase.1, isDumpBusy_of_encoder rfl⟩
  · exact
      ⟨hWriting hPhase.1, isDumpBusy_of_encoder rfl,
        fun _ hNone => nomatch hNone⟩
  · refine
      ⟨hWriting hPhase.1, isDumpBusy_of_encoder rfl,
        (fun hNone => nomatch hNone), ?_⟩
    intro other hOther
    cases hOther
    exact hPhase.2.2.2 encoder hEncoder
  · rw [hIdle] at hPhase
    cases hPhase.1
  · exact (hPhase.no_block hEncoder hBlocks).elim
  · exact hPhase
  · exact (hPhase.no_block hEncoder hBlocks).elim
  · exact (hPhase.1.no_block hEncoder hBlocks).elim
  · exact (hPhase.chain.no_block hEncoder hBlocks).elim
  · exact (hPhase.chain.no_block hEncoder hBlocks).elim
  · trivial

theorem runInvariant_flushBlock
    (hHolds : RunInvariant spec s)
    (hTaken : s.flushBlock = some s') :
    RunInvariant spec s' := by
  have hPhase := phaseHolds_flushBlock hTaken hHolds.phase
  rcases flushBlock_some hTaken with
    ⟨encoder, block, rest, hEncoder, hBlocks, hIdle, rfl⟩
  refine hHolds.of_keepsOutside ?_ rfl ?_ hPhase
  · exact ⟨rfl, rfl, rfl, rfl, rfl⟩
  · exact nofun

theorem finishCall_write
    (hCall : s.call = some (.write data))
    (hTaken : s.finishCall = some s') :
    s' =
      { s with
        pipe := { s.pipe with waiting := none }
        call := none
        chain :=
          { s.chain with
            storedBytes :=
              s.chain.storedBytes +
                (s.chain.output.write data).1
            output := (s.chain.output.write data).2.2 } } := by
  unfold BackupRun.finishCall at hTaken
  rw [hCall] at hTaken
  split at hTaken
  · next call pipe hSame hPipe =>
      cases hSame
      cases hTaken
      rw [(Pipe.finishWrite_some hPipe).2]
      rfl
  · cases hTaken

theorem ChainWhole.no_call
    {call : ChainCall}
    (hWhole : ChainWhole spec s)
    (hCall : s.call = some call) :
    False := by
  rw [hWhole.noCall] at hCall
  cases hCall

/- A write that the pipe took leaves the phase as it was. -/
theorem phaseHolds_finishCall
    (hCall : s.call = some (.write data))
    (hTaken : s.finishCall = some s')
    (hPhase : PhaseHolds spec s phase) :
    PhaseHolds spec s' phase := by
  have hWriting : Writing spec s → Writing spec s' :=
    fun hOld => hOld.finishCall hCall hTaken
  rw [finishCall_write hCall hTaken] at hWriting ⊢
  have hIdle :
      ∀ {chain : WriterChain deps.codec}
        {pipe : Pipe UInt8 BackupError},
        BackupRun.isDumpBusy
            { s with
              pipe := pipe
              call := none
              chain := chain } =
          false := by
    intro chain pipe
    unfold BackupRun.isDumpBusy
    exact Bool.and_false _
  unfold PhaseHolds at hPhase ⊢
  split at hPhase
  · rw [hPhase.call] at hCall
    cases hCall
  · exact ⟨hWriting hPhase.1, hPhase.2⟩
  · exact ⟨hWriting hPhase.1, hIdle⟩
  · exact ⟨hWriting hPhase.1, hIdle⟩
  · exact ⟨hWriting hPhase.1, hIdle, hPhase.2.2⟩
  · exact ⟨hWriting hPhase.1, hIdle, hPhase.2.2⟩
  · rw [hPhase.1] at hCall
    cases hCall
  · exact (hPhase.no_call hCall).elim
  · exact hPhase
  · exact (hPhase.no_call hCall).elim
  · exact (hPhase.1.no_call hCall).elim
  · exact (hPhase.chain.no_call hCall).elim
  · exact (hPhase.chain.no_call hCall).elim
  · trivial

/- The close of the sealing writer leaves a whole chain. -/
theorem chainWhole_finishCall
    (hCall : s.call = some .close)
    (hBlocks : s.blocks = [])
    (hHolds :
      ChainHolds spec s
        (storedParts deps spec s.dumpWrites).flatten)
    (hTaken : s.finishCall = some s') :
    ChainWhole spec s' ∧ s'.phase = .closingPipe ∧
      KeepsOutside s s' := by
  unfold BackupRun.finishCall at hTaken
  rw [hCall] at hTaken
  split at hTaken
  · next call pipe hSame hPipe =>
      cases hSame
      cases hTaken
      rcases Pipe.finishWrite_some hPipe with
        ⟨hWaiting, rfl⟩
      rcases hHolds.took.close hHolds.room with
        ⟨after, hClose, hFile⟩
      have hPiped := hHolds.piped
      unfold CallPiped at hPiped
      rw [hCall] at hPiped
      rcases hPiped with ⟨rest, hRest, hTarget⟩
      rw [hWaiting] at hRest
      cases hRest
      simp only [ChainCall.run, hClose, List.append_nil]
        at hTarget
      refine
        ⟨{ noCall := rfl
           noBlocks := hBlocks
           waiting := rfl
           stored := ?_
           size := ?_ }, rfl, ⟨rfl, rfl, rfl, rfl, rfl⟩⟩
      · rw [← hTarget] at hFile
        exact hFile
      · exact hHolds.count
  · cases hTaken

theorem runInvariant_finishCall
    (hHolds : RunInvariant spec s)
    (hTaken : s.finishCall = some s') :
    RunInvariant spec s' := by
  rcases hCall : s.call with _ | call
  · unfold BackupRun.finishCall at hTaken
    rw [hCall] at hTaken
    cases hTaken
  · cases call with
    | write data =>
        have hPhase :=
          phaseHolds_finishCall hCall hTaken hHolds.phase
        rw [finishCall_write hCall hTaken] at hPhase ⊢
        refine hHolds.of_keepsOutside ?_ rfl ?_ hPhase
        · exact ⟨rfl, rfl, rfl, rfl, rfl⟩
        · exact nofun
    | close =>
        have hAt := hHolds.closing hCall
        have hPhase := hHolds.phase
        rw [hAt] at hPhase
        rcases
            chainWhole_finishCall hCall hPhase.2.1
              hPhase.2.2 hTaken with
          ⟨hWhole, hNext, hKeeps⟩
        have hDumped := hHolds.dumped
        rw [hAt] at hDumped
        refine
          { upload := hKeeps.uploadSound hHolds.upload
            late := ?_
            closing := ?_
            dumped := ?_
            phase := ?_ }
        · rw [hKeeps.isChainClosed]
          intro hClosed
          have hLate := hHolds.late hClosed
          rw [hAt] at hLate
          cases hLate
        · rw [hWhole.noCall]
          exact nofun
        · intro _
          rw [hKeeps.dumpResult]
          exact hDumped rfl
        · rw [hNext]
          exact hWhole

/- A write that fails leaves its error with the compressor. -/
theorem failCall_write
    (hCall : s.call = some (.write data))
    (hTaken : s.failCall = some s') :
    ∃ pipe chain,
      s' =
          { s with
            pipe := pipe
            call := none
            chain := chain } ∧
        pipe.writeEnd = s.pipe.writeEnd ∧
          chain.zstdEncoder.map ZstdEncoder.isClosed =
            s.chain.zstdEncoder.map ZstdEncoder.isClosed := by
  unfold BackupRun.failCall at hTaken
  rw [hCall] at hTaken
  split at hTaken
  · next call rest pipe hSame hPipe =>
      cases hSame
      have hEnds : pipe.writeEnd = s.pipe.writeEnd := by
        rw [(Pipe.failWrite_some hPipe).2]
      simp only at hTaken
      split at hTaken
      · next hPlain =>
          cases hTaken
          refine ⟨_, _, rfl, hEnds, ?_⟩
          rw [hPlain]
      · next encoder hEncoder =>
          cases hTaken
          refine ⟨_, _, rfl, hEnds, ?_⟩
          rw [hEncoder]
          rfl
  · cases hTaken

/- A write fails in a phase that still waits for writes. -/
theorem phaseHolds_failCall
    (hCall : s.call = some (.write data))
    (hTaken : s.failCall = some s')
    (hPhase : PhaseHolds spec s phase) :
    PhaseHolds spec s' phase := by
  have hWriting : Writing spec s' :=
    (Writing.failCall hCall hTaken).1
  rcases failCall_write hCall hTaken with
    ⟨pipe, chain, rfl, _, hEncoder⟩
  have hIdle :
      BackupRun.isDumpBusy
          { s with
            pipe := pipe
            call := none
            chain := chain } =
        false :=
    Bool.and_false _
  have hCompressed :
      s.isDumpBusy = false → chain.zstdEncoder ≠ none := by
    intro hBusy hNone
    unfold BackupRun.isDumpBusy at hBusy
    rw [hNone] at hEncoder
    rw [Option.map_eq_none_iff.mp hEncoder.symm, hCall]
      at hBusy
    cases hBusy
  have hClosed :
      ∀ isClosed,
        (∀ encoder, s.chain.zstdEncoder = some encoder →
          encoder.isClosed = isClosed) →
        ∀ encoder, chain.zstdEncoder = some encoder →
          encoder.isClosed = isClosed := by
    intro isClosed hOld encoder hNew
    rw [hNew] at hEncoder
    rcases Option.map_eq_some_iff.mp hEncoder.symm with
      ⟨before, hBefore, hSame⟩
    exact hSame.symm.trans (hOld before hBefore)
  unfold PhaseHolds at hPhase ⊢
  split at hPhase
  · rw [hPhase.call] at hCall
    cases hCall
  · exact ⟨hWriting, hClosed false hPhase.2⟩
  · exact ⟨hWriting, hIdle⟩
  · exact ⟨hWriting, hIdle⟩
  · exact
      ⟨hWriting, hIdle,
        fun _ hNone => absurd hNone (hCompressed hPhase.2.1)⟩
  · exact
      ⟨hWriting, hIdle,
        (fun hNone => absurd hNone (hCompressed hPhase.2.1)),
        hClosed true hPhase.2.2.2⟩
  · rw [hPhase.1] at hCall
    cases hCall
  · exact (hPhase.no_call hCall).elim
  · exact hPhase
  · exact (hPhase.no_call hCall).elim
  · exact (hPhase.1.no_call hCall).elim
  · exact (hPhase.chain.no_call hCall).elim
  · exact (hPhase.chain.no_call hCall).elim
  · trivial

/- A close that fails ends the chain with an error. -/
theorem failCall_close
    (hCall : s.call = some .close)
    (hTaken : s.failCall = some s') :
    ∃ error,
      s'.phase =
          .closeFailed
            (.wrapped "failed to close encryption writer"
              error) ∧
        s'.call = none ∧ KeepsOutside s s' := by
  unfold BackupRun.failCall at hTaken
  rw [hCall] at hTaken
  split at hTaken
  · next call rest pipe hSame hPipe =>
      cases hSame
      cases hTaken
      have hEnds : pipe.writeEnd = s.pipe.writeEnd := by
        rw [(Pipe.failWrite_some hPipe).2]
      exact ⟨_, rfl, rfl, ⟨rfl, rfl, hEnds, rfl, rfl⟩⟩
  · cases hTaken

theorem runInvariant_failCall
    (hHolds : RunInvariant spec s)
    (hTaken : s.failCall = some s') :
    RunInvariant spec s' := by
  rcases hCall : s.call with _ | call
  · unfold BackupRun.failCall at hTaken
    rw [hCall] at hTaken
    cases hTaken
  · cases call with
    | write data =>
        have hPhase :=
          phaseHolds_failCall hCall hTaken hHolds.phase
        rcases failCall_write hCall hTaken with
          ⟨pipe, chain, rfl, hEnds, _⟩
        refine hHolds.of_keepsOutside ?_ rfl ?_ hPhase
        · exact ⟨rfl, rfl, hEnds, rfl, rfl⟩
        · exact nofun
    | close =>
        have hAt := hHolds.closing hCall
        rcases failCall_close hCall hTaken with
          ⟨error, hNext, hIdle, hKeeps⟩
        refine
          { upload := hKeeps.uploadSound hHolds.upload
            late := ?_
            closing := ?_
            dumped := ?_
            phase := ?_ }
        · rw [hKeeps.isChainClosed]
          intro hClosed
          have hLate := hHolds.late hClosed
          rw [hAt] at hLate
          cases hLate
        · rw [hIdle]
          exact nofun
        · rw [hNext]
          exact nofun
        · rw [hNext]
          exact nofun

end Pipeline

end Databasus
