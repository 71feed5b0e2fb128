import Databasus.Pipeline.ConcurrentSteps

/-
  A backup that succeeds is whole.

  The storage can see the end of the file only after the chain
  was closed, and the chain is closed only when every write
  before it went well.

  Main declarations:
    * `runInvariant_advance`
    * `runInvariant_step`
    * `run_backup_whole`
-/

------------------------------------------------------------
-- Steps of the Goroutine
------------------------------------------------------------

namespace Databasus

namespace Pipeline

open Foundation
open Storages.Files (WriteReceipt)

variable {deps : PipelineDeps}
variable {spec : StreamSpec}
variable {s s' : BackupRun deps.codec}
variable {data : Bytes}
variable {error : BackupError}
variable {salt nonce : Option Bytes}
variable {zstdError : Option BackupError}

/- What a phase is about stays when only the phase changes. -/
theorem keepsChain_goto
    (phase : Phase)
    (hStarted : s.phase ≠ .opening) :
    KeepsChain s { s with phase := phase } where
  chain := rfl
  header := rfl
  call := rfl
  dumpWrites := rfl
  dumpResult := rfl
  isChainClosed := rfl
  cause := id
  pipe := Or.inl ⟨rfl, rfl⟩
  upload := fun _ _ => rfl
  unopened := fun hOpening => absurd hOpening hStarted

theorem RunInvariant.goto
    {phase : Phase}
    (hHolds : RunInvariant spec s)
    (hCall : s.call ≠ some .close)
    (hLate :
      s.isChainClosed = true → phase.isLate = true)
    (hDumped :
      phase.isAfterDump = true → s.dumpResult.isSome = true)
    (hPhase :
      PhaseHolds spec { s with phase := phase } phase) :
    RunInvariant spec { s with phase := phase } where
  upload :=
    hHolds.upload.frame rfl id (fun _ => rfl) id Or.inl
  late := hLate
  closing := fun hClose => absurd hClose hCall
  dumped := hDumped
  phase := hPhase

/- A chain that has not been closed does not say so. -/
theorem RunInvariant.not_closed
    (hHolds : RunInvariant spec s)
    (hEarly : s.phase.isLate = false) :
    s.isChainClosed = false := by
  rw [← Bool.not_eq_true]
  intro hClosed
  rw [hHolds.late hClosed] at hEarly
  cases hEarly

theorem RunInvariant.no_close
    (hHolds : RunInvariant spec s)
    (hAt : s.phase ≠ .closingEncryption) :
    s.call ≠ some .close :=
  fun hClose => hAt (hHolds.closing hClose)

/- What a dump's write changes. -/
theorem dumpWrite_keeps
    (hOpen :
      ∀ encoder, s.chain.zstdEncoder = some encoder →
        encoder.isClosed = false)
    (hTaken : s.dumpWrite data = some s') :
    KeepsOutside s s' ∧ s'.phase = s.phase ∧
      (s.call ≠ some .close → s'.call ≠ some .close) ∧
      ∀ encoder, s'.chain.zstdEncoder = some encoder →
        encoder.isClosed = false := by
  unfold BackupRun.dumpWrite at hTaken
  simp only at hTaken
  split at hTaken
  · next hPlain =>
      rcases beginCall_some hTaken with ⟨_, _, rfl⟩
      refine
        ⟨⟨rfl, rfl, rfl, rfl, rfl⟩, rfl, fun _ => nofun, ?_⟩
      exact hOpen
  · next encoder hEncoder =>
      cases hTaken
      refine ⟨⟨rfl, rfl, rfl, rfl, rfl⟩, rfl, id, ?_⟩
      intro other hOther
      cases hOther
      unfold ZstdEncoder.write
      split
      · exact hOpen encoder hEncoder
      · exact hOpen encoder hEncoder

theorem runInvariant_dumpWrite
    (hHolds : RunInvariant spec s)
    (hAt : s.phase = .dumping)
    (hTaken : s.dumpWrite data = some s') :
    RunInvariant spec s' := by
  have hPhase := hHolds.phase
  rw [hAt] at hPhase
  rcases dumpWrite_keeps hPhase.2 hTaken with
    ⟨hKeeps, hSame, hCall, hOpen⟩
  have hNoClose : s.call ≠ some .close := by
    apply hHolds.no_close
    rw [hAt]
    exact nofun
  refine hHolds.of_keepsOutside hKeeps hSame (hCall hNoClose) ?_
  rw [hAt]
  exact ⟨hPhase.1.dumpWrite hPhase.2 hTaken, hOpen⟩

theorem runInvariant_endDump
    {result : Except BackupError Unit}
    (hHolds : RunInvariant spec s)
    (hAt : s.phase = .dumping)
    (hIdle : s.isDumpBusy = false) :
    RunInvariant spec
      { s with
        dumpResult := some result
        phase := .finishing } := by
  have hPhase := hHolds.phase
  have hOpen := hHolds.not_closed (by rw [hAt]; rfl)
  have hNoClose := hHolds.no_close (by rw [hAt]; exact nofun)
  rw [hAt] at hPhase
  refine
    { upload :=
        hHolds.upload.frame rfl id (fun _ => rfl) id Or.inl
      late := ?_
      closing := fun hClose => absurd hClose hNoClose
      dumped := fun _ => rfl
      phase := ⟨?_, hIdle⟩ }
  · intro hClosed
    change s.isChainClosed = true at hClosed
    rw [hOpen] at hClosed
    cases hClosed
  · exact
      { holds := fun hHealthy => by
          rcases hPhase.1.holds hHealthy with ⟨taken, hOld⟩
          exact
            ⟨taken,
              { took := hOld.took
                room := hOld.room
                count := hOld.count
                encoder := hOld.encoder
                isZstd := hOld.isZstd
                handed := hOld.handed
                piped := hOld.piped }⟩
        keeps := hPhase.1.keeps }

/- A run that ends with an error is about nothing more. -/
theorem RunInvariant.fail
    {isClosingPipe : Bool}
    {backupCause : Option BackupError}
    (hHolds : RunInvariant spec s)
    (hCall : s.call ≠ some .close)
    (hCause :
      backupCause = s.backupCause ∨
        s.backupCause = none ∧
          backupCause = some .contextCanceled) :
    RunInvariant spec
      { s with
        isClosingPipe := isClosingPipe
        backupCause := backupCause
        phase := .returned (.error error) } := by
  refine
    { upload := ?_
      late := fun _ => rfl
      closing := fun hClose => absurd hClose hCall
      dumped := fun hAfter => nomatch hAfter
      phase := trivial }
  refine hHolds.upload.frame rfl id ?_ ?_ Or.inl
  · intro hSome
    rcases hCause with hSame | ⟨hNone, _⟩
    · exact hSame
    · rw [hNone] at hSome
      cases hSome
  · intro hEof
    rcases hCause with hSame | ⟨_, hCanceled⟩
    · exact hSame ▸ hEof
    · change backupCause = some .eof at hEof
      rw [hCanceled] at hEof
      cases hEof

theorem unwind_cause
    (s : BackupRun deps.codec) :
    s.unwind.backupCause = s.backupCause ∨
      s.backupCause = none ∧
        s.unwind.backupCause = some .contextCanceled := by
  unfold BackupRun.unwind
  cases hCause : s.backupCause with
  | none => exact Or.inr ⟨rfl, rfl⟩
  | some cause => exact Or.inl rfl

/- A chain that has just been built has nothing to hand on. -/
theorem chainHolds_built
    (hBuilt :
      buildWriterChain deps spec salt nonce zstdError =
        .ok (s.chain, s.header))
    (hCall : s.call = none)
    (hPipe : s.pipe = Pipe.new)
    (hWrites : s.dumpWrites = []) :
    ChainHolds spec s [] ∧
      ∀ encoder, s.chain.zstdEncoder = some encoder →
        encoder.isClosed = false := by
  rcases built_took hBuilt with
    ⟨hTook, hSink, hCount, _, hEncoder⟩
  refine
    ⟨{ took := hTook
       room := ?_
       count := hCount
       encoder := ?_
       isZstd := ?_
       handed := ?_
       piped := ?_ }, ?_⟩
  · rw [hSink]
  · intro encoder hSome
    rw [hEncoder] at hSome
    split at hSome
    · cases hSome
      rw [hWrites]
      exact ⟨rfl, rfl⟩
    · cases hSome
  · rw [hEncoder]
    cases spec.isZstd <;> rfl
  · unfold BackupRun.callData BackupRun.blocks
      BackupRun.handed
    rw [hCall, hWrites, hEncoder]
    cases spec.isZstd <;> rfl
  · unfold CallPiped
    rw [hCall, hPipe, hSink]
    exact ⟨rfl, rfl⟩
  · intro encoder hSome
    rw [hEncoder] at hSome
    split at hSome
    · cases hSome
      rfl
    · cases hSome

theorem runInvariant_open
    {chain : WriterChain deps.codec}
    {header : Option EncryptionHeader}
    (hHolds : RunInvariant spec s)
    (hAt : s.phase = .opening)
    (hBuilt :
      buildWriterChain deps spec salt nonce zstdError =
        .ok (chain, header)) :
    RunInvariant spec
      { s with
        phase := .dumping
        backupCause := s.runEnd.map RunEnd.cause
        isClosingPipe := true
        chain := chain
        header := header
        upload := { s.upload with stage := .reading } } := by
  have hClosed := hHolds.not_closed (by rw [hAt]; rfl)
  have hUpload := hHolds.upload
  have hUnopened := hHolds.phase
  rw [hAt] at hUnopened
  have hStage := hUpload.stage
  unfold StageSound at hStage
  rw [hUnopened.stage] at hStage
  have hChain :=
    chainHolds_built
      (s :=
        { s with
          phase := .dumping
          backupCause := s.runEnd.map RunEnd.cause
          isClosingPipe := true
          chain := chain
          header := header
          upload := { s.upload with stage := .reading } })
      hBuilt hUnopened.call hUnopened.pipe
      hUnopened.dumpWrites
  refine
    { upload :=
        { cause := ?_
          writeEnd := ?_
          sawEOF := hUpload.sawEOF
          saved := hUpload.saved
          stage := hStage }
      late := ?_
      closing := ?_
      dumped := fun hAfter => nomatch hAfter
      phase := ⟨⟨fun _ => ⟨[], hChain.1⟩, ?_⟩, hChain.2⟩ }
  · intro hEof
    change s.runEnd.map RunEnd.cause = some .eof at hEof
    rcases Option.map_eq_some_iff.mp hEof with
      ⟨reason, _, hSame⟩
    exact absurd hSame (cause_ne_eof reason)
  · intro hEof
    change s.pipe.writeEnd = some .eof at hEof
    rw [hUnopened.pipe] at hEof
    cases hEof
  · intro hClosing
    change s.isChainClosed = true at hClosing
    rw [hClosed] at hClosing
    cases hClosing
  · intro hClose
    change s.call = some .close at hClose
    rw [hUnopened.call] at hClose
    cases hClose
  · intro encoder _ hFailed
    rw [(built_took hBuilt).2.2.2.1] at hFailed
    cases hFailed

/- The compressor that is closed hands its end on. -/
theorem Writing.beginCloseEncoder
    (hWriting : Writing spec s) :
    Writing spec s.beginCloseEncoder := by
  refine
    { holds := ?_
      keeps := ?_ }
  · intro hHealthy
    rcases hWriting.holds hHealthy with ⟨taken, hHolds⟩
    have hHanded := hHolds.handed
    refine
      ⟨taken,
        { took := hHolds.took
          room := hHolds.room
          count := hHolds.count
          encoder := ?_
          isZstd := ?_
          handed := ?_
          piped := hHolds.piped }⟩
    · intro encoder hEncoder
      rcases Option.map_eq_some_iff.mp hEncoder with
        ⟨before, hBefore, rfl⟩
      unfold ZstdEncoder.beginClose
      split
      · exact hHolds.encoder before hBefore
      · exact hHolds.encoder before hBefore
    · rw [← hHolds.isZstd]
      exact Option.isSome_map
    · unfold BackupRun.callData BackupRun.blocks
        BackupRun.handed at hHanded ⊢
      cases hEncoder : s.chain.zstdEncoder with
      | none =>
          rw [hEncoder] at hHanded
          simp only [BackupRun.beginCloseEncoder, hEncoder,
            Option.map_none]
          exact hHanded
      | some encoder =>
          rw [hEncoder] at hHanded
          simp only [BackupRun.beginCloseEncoder, hEncoder,
            Option.map_some]
          cases hClosed : encoder.isClosed with
          | true =>
              simp only [hClosed, if_true] at hHanded
              simp only [ZstdEncoder.beginClose, hClosed,
                if_true]
              exact hHanded
          | false =>
              simp only [Option.elim, hClosed,
                Bool.false_eq_true, if_false,
                List.append_nil] at hHanded
              simp only [ZstdEncoder.beginClose, hClosed,
                Option.elim, Bool.false_eq_true, if_false,
                if_true]
              rw [(hHolds.encoder encoder hEncoder).2,
                List.flatten_append, List.flatten_append,
                ← hHanded]
              simp only [List.append_assoc]
  · intro encoder hEncoder hFailed
    rcases Option.map_eq_some_iff.mp hEncoder with
      ⟨before, hBefore, rfl⟩
    have hError := hWriting.keeps before hBefore hFailed
    unfold ZstdEncoder.beginClose
    split
    · exact hError
    · exact hError

theorem isClosed_beginCloseEncoder
    {encoder : ZstdEncoder deps.codec}
    (hEncoder :
      s.beginCloseEncoder.chain.zstdEncoder = some encoder) :
    encoder.isClosed = true := by
  rcases Option.map_eq_some_iff.mp hEncoder with
    ⟨before, _, rfl⟩
  unfold ZstdEncoder.beginClose
  split
  · next hClosed => exact hClosed
  · rfl

/-
  A compressor that was closed without an error has handed all
  on, and no write has failed.
-/
theorem chainHolds_of_encoderResult
    (hPhase : PhaseHolds spec s .closingEncoder)
    (hResult : s.encoderResult = some none) :
    s.call = none ∧ s.blocks = [] ∧
      ChainHolds spec s
        (storedParts deps spec s.dumpWrites).flatten := by
  rcases hPhase with ⟨hWriting, _, hPlain, hClosed⟩
  have hIdle : s.call = none := by
    unfold BackupRun.encoderResult at hResult
    cases hCall : s.call with
    | none => rfl
    | some call =>
        rw [hCall] at hResult
        cases hResult
  unfold BackupRun.encoderResult at hResult
  rw [hIdle] at hResult
  cases hEncoder : s.chain.zstdEncoder with
  | none =>
      rcases hWriting.holds (hPlain hEncoder) with
        ⟨taken, hHolds⟩
      have hHanded := hHolds.handed
      have hZstd := hHolds.isZstd
      unfold BackupRun.callData BackupRun.blocks
        BackupRun.handed at hHanded
      rw [hIdle, hEncoder] at hHanded
      rw [hEncoder] at hZstd
      simp only [Option.elim, List.flatten_nil,
        List.append_nil] at hHanded
      refine ⟨hIdle, ?_, ?_⟩
      · unfold BackupRun.blocks
        rw [hEncoder]
        rfl
      · unfold storedParts
        rw [if_neg (by rw [← hZstd]; exact nofun), ← hHanded]
        exact hHolds
  | some encoder =>
      rw [hEncoder] at hResult
      cases hError : encoder.error with
      | some error => simp [hError] at hResult
      | none =>
          have hEmpty : encoder.blocks = [] := by
            simpa [hError] using hResult
          have hHealthy : s.chain.hasWriteFailed = false := by
            rw [← Bool.not_eq_true]
            intro hFailed
            have hKept :=
              hWriting.keeps encoder hEncoder hFailed
            rw [hError] at hKept
            cases hKept
          rcases hWriting.holds hHealthy with
            ⟨taken, hHolds⟩
          have hHanded := hHolds.handed
          have hZstd : spec.isZstd = true := by
            rw [← hHolds.isZstd, hEncoder]
            rfl
          unfold BackupRun.callData BackupRun.blocks
            BackupRun.handed at hHanded
          rw [hIdle, hEncoder] at hHanded
          simp only [Option.elim, hEmpty, List.flatten_nil,
            List.append_nil, hClosed encoder hEncoder,
            if_true] at hHanded
          refine ⟨hIdle, ?_, ?_⟩
          · unfold BackupRun.blocks
            rw [hEncoder]
            exact hEmpty
          · unfold storedParts ZstdCodec.compressed
            rw [if_pos hZstd, ← hHanded]
            exact hHolds

theorem advance_finishing
    (hHolds : RunInvariant spec s)
    (hAt : s.phase = .finishing)
    (hTaken : s.advance = some s') :
    RunInvariant spec s' := by
  have hPhase := hHolds.phase
  have hClosed := hHolds.not_closed (by rw [hAt]; rfl)
  have hCall := hHolds.no_close (by rw [hAt]; exact nofun)
  have hDumped := hHolds.dumped (by rw [hAt]; rfl)
  have hKeeps :=
    fun phase =>
      keepsChain_goto phase (s := s) (by rw [hAt]; exact nofun)
  rw [hAt] at hPhase
  unfold BackupRun.advance at hTaken
  rw [hAt] at hTaken
  simp only at hTaken
  split at hTaken
  · cases hTaken
    refine
      hHolds.goto hCall (fun hLate => ?_) (fun _ => hDumped)
        ⟨(hKeeps _).writing hPhase.1, hPhase.2⟩
    rw [hClosed] at hLate
    cases hLate
  · next hHealthy =>
      cases hTaken
      refine
        hHolds.goto hCall (fun hLate => ?_)
          (fun _ => hDumped)
          ⟨(hKeeps _).writing hPhase.1, hPhase.2,
            fun _ _ => Bool.eq_false_iff.mpr hHealthy⟩
      rw [hClosed] at hLate
      cases hLate

/- A failed upload has ended the backup before it answers. -/
theorem advance_awaitingFailedWrite
    (hHolds : RunInvariant spec s)
    (hAt : s.phase = .awaitingFailedWrite)
    (hTaken : s.advance = some s') :
    RunInvariant spec s' := by
  have hPhase := hHolds.phase
  have hClosed := hHolds.not_closed (by rw [hAt]; rfl)
  have hCall := hHolds.no_close (by rw [hAt]; exact nofun)
  have hDumped := hHolds.dumped (by rw [hAt]; rfl)
  have hKeeps :=
    keepsChain_goto .checkingContext (s := s)
      (by rw [hAt]; exact nofun)
  rw [hAt] at hPhase
  unfold BackupRun.advance at hTaken
  rw [hAt] at hTaken
  rcases Option.map_eq_some_iff.mp hTaken with
    ⟨error, hErrors, rfl⟩
  refine
    hHolds.goto hCall (fun hLate => ?_) (fun _ => hDumped)
      ⟨hKeeps.writing hPhase.1, hPhase.2,
        fun hCause _ => ?_⟩
  · rw [hClosed] at hLate
    cases hLate
  · change s.backupCause = none at hCause
    cases error with
    | none =>
        rw [hHolds.upload.closed_of_saved hErrors] at hClosed
        cases hClosed
    | some told =>
        rcases hHolds.upload.ended hErrors with
          ⟨receipt, hEnded, _⟩
        have hSome := hEnded.2
        rw [hCause] at hSome
        cases hSome

theorem advance_checkingContext
    (hHolds : RunInvariant spec s)
    (hAt : s.phase = .checkingContext)
    (hTaken : s.advance = some s') :
    RunInvariant spec s' := by
  have hPhase := hHolds.phase
  have hClosed := hHolds.not_closed (by rw [hAt]; rfl)
  have hCall := hHolds.no_close (by rw [hAt]; exact nofun)
  have hDumped := hHolds.dumped (by rw [hAt]; rfl)
  rw [hAt] at hPhase
  have hUpload : UploadSound s.beginCloseEncoder :=
    hHolds.upload.frame rfl id (fun _ => rfl) id Or.inl
  have hLate :
      ∀ {phase : Phase},
        s.isChainClosed = true → phase.isLate = true := by
    intro phase hLate
    rw [hClosed] at hLate
    cases hLate
  unfold BackupRun.advance at hTaken
  rw [hAt] at hTaken
  simp only at hTaken
  split at hTaken
  · cases hTaken
    exact
      { upload :=
          hUpload.frame rfl id (fun _ => rfl) id Or.inl
        late := hLate
        closing := fun hClose => absurd hClose hCall
        dumped := fun hAfter => nomatch hAfter
        phase := trivial }
  · next hCause =>
      cases hTaken
      have hWriting := hPhase.1.beginCloseEncoder
      have hKeeps :=
        keepsChain_goto .closingEncoder
          (s := s.beginCloseEncoder)
          (by
            change s.phase ≠ .opening
            rw [hAt]
            exact nofun)
      refine
        { upload :=
            hUpload.frame rfl id (fun _ => rfl) id Or.inl
          late := hLate
          closing := fun hClose => absurd hClose hCall
          dumped := fun _ => hDumped
          phase := ⟨hKeeps.writing hWriting, ?_, ?_, ?_⟩ }
      · have hBusy := hPhase.2.1
        unfold BackupRun.isDumpBusy at hBusy ⊢
        change
          ((s.chain.zstdEncoder.map _).isNone &&
              s.call.isSome) =
            false
        rw [Option.isNone_map]
        exact hBusy
      · intro hNone
        apply hPhase.2.2
        · rw [Bool.not_eq_true, Option.isSome_eq_false_iff,
            Option.isNone_iff_eq_none] at hCause
          exact hCause
        · exact Option.map_eq_none_iff.mp hNone
      · exact fun encoder => isClosed_beginCloseEncoder

theorem advance_abandoned
    (hHolds : RunInvariant spec s)
    (hAt : s.phase = .abandoned)
    (hTaken : s.advance = some s') :
    RunInvariant spec s' := by
  have hCall := hHolds.no_close (by rw [hAt]; exact nofun)
  unfold BackupRun.advance at hTaken
  rw [hAt] at hTaken
  simp only at hTaken
  split at hTaken
  · cases hTaken
    exact
      hHolds.goto hCall (fun _ => rfl)
        (fun hAfter => nomatch hAfter) trivial
  · cases hTaken

theorem advance_closingEncoder
    (hHolds : RunInvariant spec s)
    (hAt : s.phase = .closingEncoder)
    (hTaken : s.advance = some s') :
    RunInvariant spec s' := by
  have hPhase := hHolds.phase
  have hClosed := hHolds.not_closed (by rw [hAt]; rfl)
  have hCall := hHolds.no_close (by rw [hAt]; exact nofun)
  have hDumped := hHolds.dumped (by rw [hAt]; rfl)
  have hLate :
      ∀ {phase : Phase},
        s.isChainClosed = true → phase.isLate = true := by
    intro phase hLate
    rw [hClosed] at hLate
    cases hLate
  rw [hAt] at hPhase
  unfold BackupRun.advance at hTaken
  rw [hAt] at hTaken
  simp only at hTaken
  split at hTaken
  · cases hTaken
  · cases hTaken
    exact
      hHolds.goto hCall hLate (fun hAfter => nomatch hAfter)
        (fun hEof => nomatch hEof)
  · next hResult =>
      rcases chainHolds_of_encoderResult hPhase hResult with
        ⟨hIdle, hBlocks, hChain⟩
      have hPiped := hChain.piped
      unfold CallPiped at hPiped
      rw [hIdle] at hPiped
      split at hTaken
      · next sink hPlain =>
          cases hTaken
          refine hHolds.goto hCall hLate (fun _ => hDumped) ?_
          have hTook := hChain.took
          rw [hPlain] at hTook hPiped
          refine
            { noCall := hIdle
              noBlocks := hBlocks
              waiting := hPiped.1
              stored := ?_
              size := hChain.count }
          unfold IsStoredFile
          rw [if_neg (by simp [hTook.1])]
          exact ⟨hTook.2.1, hPiped.2.trans hTook.2.2⟩
      · next w hSealing =>
          have hTarget :=
            callPiped_begin .close hIdle hChain.piped
              hChain.room
          rcases beginCall_some hTaken with ⟨_, _, rfl⟩
          refine
            { upload :=
                hHolds.upload.frame rfl id (fun _ => rfl) id
                  Or.inl
              late := hLate
              closing := fun _ => rfl
              dumped := fun _ => hDumped
              phase := ⟨rfl, hBlocks, ?_⟩ }
          exact
            { took := hChain.took
              room := hChain.room
              count := hChain.count
              encoder := hChain.encoder
              isZstd := hChain.isZstd
              handed := by
                have hHanded := hChain.handed
                unfold BackupRun.callData at hHanded
                rw [hIdle] at hHanded
                exact hHanded
              piped := ⟨_, rfl, hTarget⟩ }

/- The end of the file is before the storage, after all of it. -/
theorem advance_closingPipe
    (hHolds : RunInvariant spec s)
    (hAt : s.phase = .closingPipe)
    (hTaken : s.advance = some s') :
    RunInvariant spec s' := by
  have hPhase := hHolds.phase
  have hDumped := hHolds.dumped (by rw [hAt]; rfl)
  have hCall := hHolds.no_close (by rw [hAt]; exact nofun)
  rw [hAt] at hPhase
  unfold BackupRun.advance at hTaken
  rw [hAt] at hTaken
  cases hTaken
  exact
    { upload :=
        hHolds.upload.frame rfl (fun _ => rfl)
          (fun _ => rfl) id fun _ => Or.inr (Or.inl rfl)
      late := fun _ => rfl
      closing := fun hClose => absurd hClose hCall
      dumped := fun _ => hDumped
      phase :=
        { noCall := hPhase.noCall
          noBlocks := hPhase.noBlocks
          waiting := hPhase.waiting
          stored := hPhase.stored
          size := hPhase.size } }

theorem advance_closeFailed
    (hHolds : RunInvariant spec s)
    (hAt : s.phase = .closeFailed error)
    (hTaken : s.advance = some s') :
    RunInvariant spec s' := by
  have hPhase := hHolds.phase
  have hClosed := hHolds.not_closed (by rw [hAt]; rfl)
  have hCall := hHolds.no_close (by rw [hAt]; exact nofun)
  rw [hAt] at hPhase
  unfold BackupRun.advance at hTaken
  rw [hAt] at hTaken
  cases hTaken
  refine
    { upload :=
        hHolds.upload.frame rfl id (fun _ => rfl) id ?_
      late := ?_
      closing := fun hClose => absurd hClose hCall
      dumped := fun hAfter => nomatch hAfter
      phase := trivial }
  · intro hEof
    rcases Pipe.closeWrite_writeEnd hEof with hOld | hSame
    · exact Or.inl hOld
    · exact absurd hSame.symm hPhase
  · intro hLate
    change s.isChainClosed = true at hLate
    rw [hClosed] at hLate
    cases hLate

theorem advance_awaitingStorage
    (hHolds : RunInvariant spec s)
    (hAt : s.phase = .awaitingStorage error)
    (hTaken : s.advance = some s') :
    RunInvariant spec s' := by
  have hCall := hHolds.no_close (by rw [hAt]; exact nofun)
  unfold BackupRun.advance at hTaken
  rw [hAt] at hTaken
  rcases Option.map_eq_some_iff.mp hTaken with ⟨_, _, rfl⟩
  exact
    hHolds.goto hCall (fun _ => rfl)
      (fun hAfter => nomatch hAfter) trivial

theorem advance_awaitingSave
    (hHolds : RunInvariant spec s)
    (hAt : s.phase = .awaitingSave)
    (hTaken : s.advance = some s') :
    RunInvariant spec s' := by
  have hPhase := hHolds.phase
  have hDumped := hHolds.dumped (by rw [hAt]; rfl)
  have hCall := hHolds.no_close (by rw [hAt]; exact nofun)
  have hKeeps :=
    keepsChain_goto .publishing (s := s)
      (by rw [hAt]; exact nofun)
  rw [hAt] at hPhase
  unfold BackupRun.advance at hTaken
  rw [hAt] at hTaken
  rcases Option.map_eq_some_iff.mp hTaken with
    ⟨saveError, hErrors, rfl⟩
  rcases Option.isSome_iff_exists.mp hDumped with
    ⟨result, hResult⟩
  cases result with
  | error dumpError =>
      have hNext :
          s.afterSave saveError = .picking dumpError := by
        unfold BackupRun.afterSave
        rw [hResult]
      rw [hNext]
      exact
        hHolds.goto hCall (fun _ => rfl)
          (fun hAfter => nomatch hAfter) trivial
  | ok done =>
      cases saveError with
      | some error =>
          have hNext :
              s.afterSave (some error) =
                .picking
                  (.wrapped "save to storage" error) := by
            unfold BackupRun.afterSave
            rw [hResult]
          rw [hNext]
          exact
            hHolds.goto hCall (fun _ => rfl)
              (fun hAfter => nomatch hAfter) trivial
      | none =>
          have hNext : s.afterSave none = .publishing := by
            unfold BackupRun.afterSave
            rw [hResult]
          rw [hNext]
          exact
            hHolds.goto hCall (fun _ => rfl)
              (fun hAfter => nomatch hAfter)
              ⟨hKeeps.chainWhole hPhase, hResult, hErrors⟩

theorem advance_picking
    (hHolds : RunInvariant spec s)
    (hAt : s.phase = .picking error)
    (hTaken : s.advance = some s') :
    RunInvariant spec s' := by
  have hCall := hHolds.no_close (by rw [hAt]; exact nofun)
  unfold BackupRun.advance at hTaken
  rw [hAt] at hTaken
  cases hTaken
  exact
    hHolds.goto hCall (fun _ => rfl)
      (fun hAfter => nomatch hAfter) trivial

/- The result is of a whole file and of its own write. -/
theorem advance_publishing
    (hHolds : RunInvariant spec s)
    (hAt : s.phase = .publishing)
    (hTaken : s.advance = some s') :
    RunInvariant spec s' := by
  have hPhase := hHolds.phase
  have hCall := hHolds.no_close (by rw [hAt]; exact nofun)
  rw [hAt] at hPhase
  rcases hPhase with ⟨hWhole, hDumped, hErrors⟩
  unfold BackupRun.advance at hTaken
  rw [hAt] at hTaken
  rcases Option.map_eq_some_iff.mp hTaken with
    ⟨receipt, hReceipt, rfl⟩
  rcases hHolds.upload.ended hErrors with
    ⟨sent, hSaved, hSent⟩
  rw [hReceipt] at hSent
  cases hSent
  refine
    hHolds.goto hCall (fun _ => rfl)
      (fun hAfter => nomatch hAfter) ?_
  exact
    { chain :=
        { noCall := hWhole.noCall
          noBlocks := hWhole.noBlocks
          waiting := hWhole.waiting
          stored := hWhole.stored
          size := hWhole.size }
      backup :=
        { dumped := hDumped
          stored := hWhole.stored
          size := hWhole.size
          ended := hHolds.upload.saved receipt hSaved
          saved := hSaved }
      errors := hErrors }

/- The deferred calls change no more than the contexts. -/
theorem advance_unwinding
    {outcome : Except BackupError BackupResult}
    (hHolds : RunInvariant spec s)
    (hAt : s.phase = .unwinding outcome)
    (hTaken : s.advance = some s') :
    RunInvariant spec s' := by
  have hPhase := hHolds.phase
  have hCall := hHolds.no_close (by rw [hAt]; exact nofun)
  have hCause := unwind_cause s
  rw [hAt] at hPhase
  unfold BackupRun.advance at hTaken
  rw [hAt] at hTaken
  cases hTaken
  have hUpload : UploadSound s.unwind := by
    refine hHolds.upload.frame rfl id ?_ ?_ Or.inl
    · intro hSome
      rcases hCause with hSame | ⟨hNone, _⟩
      · exact hSame
      · rw [hNone] at hSome
        cases hSome
    · intro hEof
      rcases hCause with hSame | ⟨_, hCanceled⟩
      · exact hSame.symm.trans hEof
      · rw [hCanceled] at hEof
        cases hEof
  have hNext :
      UploadSound
        { s.unwind with
          phase :=
            match outcome with
            | .error error => .answering error
            | .ok result => .returned (.ok result) } :=
    hUpload.frame rfl id (fun _ => rfl) id Or.inl
  cases outcome with
  | error error =>
      exact
        { upload := hNext
          late := fun _ => rfl
          closing := fun hClose => absurd hClose hCall
          dumped := fun hAfter => nomatch hAfter
          phase := trivial }
  | ok result =>
      exact
        { upload := hNext
          late := fun _ => rfl
          closing := fun hClose => absurd hClose hCall
          dumped := fun hAfter => nomatch hAfter
          phase :=
            { chain :=
                { noCall := hPhase.chain.noCall
                  noBlocks := hPhase.chain.noBlocks
                  waiting := hPhase.chain.waiting
                  stored := hPhase.chain.stored
                  size := hPhase.chain.size }
              backup :=
                { dumped := hPhase.backup.dumped
                  stored := hPhase.backup.stored
                  size := hPhase.backup.size
                  ended := hPhase.backup.ended
                  saved := hPhase.backup.saved }
              errors := hPhase.errors } }

theorem advance_answering
    (hHolds : RunInvariant spec s)
    (hAt : s.phase = .answering error)
    (hTaken : s.advance = some s') :
    RunInvariant spec s' := by
  have hCall := hHolds.no_close (by rw [hAt]; exact nofun)
  unfold BackupRun.advance at hTaken
  rw [hAt] at hTaken
  cases hTaken
  exact
    hHolds.goto hCall (fun _ => rfl)
      (fun hAfter => nomatch hAfter) trivial

theorem runInvariant_advance
    (hHolds : RunInvariant spec s)
    (hTaken : s.advance = some s') :
    RunInvariant spec s' := by
  cases hAt : s.phase with
  | opening =>
      unfold BackupRun.advance at hTaken
      rw [hAt] at hTaken
      cases hTaken
  | dumping =>
      unfold BackupRun.advance at hTaken
      rw [hAt] at hTaken
      cases hTaken
  | finishing => exact advance_finishing hHolds hAt hTaken
  | awaitingFailedWrite =>
      exact advance_awaitingFailedWrite hHolds hAt hTaken
  | checkingContext =>
      exact advance_checkingContext hHolds hAt hTaken
  | abandoned => exact advance_abandoned hHolds hAt hTaken
  | closingEncoder =>
      exact advance_closingEncoder hHolds hAt hTaken
  | closingEncryption =>
      unfold BackupRun.advance at hTaken
      rw [hAt] at hTaken
      cases hTaken
  | closingPipe => exact advance_closingPipe hHolds hAt hTaken
  | closeFailed error =>
      exact advance_closeFailed hHolds hAt hTaken
  | awaitingStorage error =>
      exact advance_awaitingStorage hHolds hAt hTaken
  | awaitingSave => exact advance_awaitingSave hHolds hAt hTaken
  | picking error => exact advance_picking hHolds hAt hTaken
  | publishing => exact advance_publishing hHolds hAt hTaken
  | unwinding outcome =>
      exact advance_unwinding hHolds hAt hTaken
  | answering error => exact advance_answering hHolds hAt hTaken
  | returned outcome =>
      unfold BackupRun.advance at hTaken
      rw [hAt] at hTaken
      cases hTaken

------------------------------------------------------------
-- Runs
------------------------------------------------------------

theorem runInvariant_initial
    (s : BackupRun deps.codec)
    (hInitial : (backupSystem deps spec).initial s) :
    RunInvariant spec s := by
  rcases hInitial with
    ⟨hPhase, hCause, _, hPipe, hCall, hEncoder, hUpload,
      _, hWrites, hClosed⟩
  refine
    { upload :=
        { cause := ?_
          writeEnd := ?_
          sawEOF := ?_
          saved := ?_
          stage := ?_ }
      late := ?_
      closing := ?_
      dumped := ?_
      phase := ?_ }
  · rw [hCause]
    exact nofun
  · rw [hPipe]
    exact nofun
  · rw [hUpload]
    exact nofun
  · rw [hUpload]
    exact nofun
  · unfold StageSound
    rw [hUpload]
    exact ⟨rfl, rfl⟩
  · rw [hClosed]
    exact nofun
  · rw [hCall]
    exact nofun
  · rw [hPhase]
    exact nofun
  · rw [hPhase]
    refine
      { backupCause := hCause
        pipe := hPipe
        stage := ?_
        encoder := hEncoder
        call := hCall
        dumpWrites := hWrites }
    rw [hUpload]
    rfl

theorem runInvariant_step
    (s : BackupRun deps.codec)
    (action : BackupAction)
    (s' : BackupRun deps.codec)
    (hHolds : RunInvariant spec s)
    (hTaken : backupStep deps spec s action = some s') :
    RunInvariant spec s' := by
  cases action with
  | endRun reason =>
      cases hTaken
      exact runInvariant_endRun reason hHolds
  | propagate =>
      simp only [backupStep] at hTaken
      split at hTaken
      · cases hTaken
      · cases hTaken
      · next reason _ hStarted =>
          cases hTaken
          exact runInvariant_propagate hHolds hStarted
  | closePipe =>
      simp only [backupStep] at hTaken
      split at hTaken
      · cases hTaken
      · next cause hCause =>
          split at hTaken
          · cases hTaken
            exact runInvariant_closePipe hHolds hCause
          · cases hTaken
  | failOpening error =>
      simp only [backupStep] at hTaken
      split at hTaken
      · next hAt =>
          cases hTaken
          exact
            hHolds.goto
              (hHolds.no_close (by rw [hAt]; exact nofun))
              (fun _ => rfl) (fun hAfter => nomatch hAfter)
              trivial
      · cases hTaken
  | panicOpening value =>
      simp only [backupStep] at hTaken
      split at hTaken
      · next hAt =>
          cases hTaken
          exact
            hHolds.goto
              (hHolds.no_close (by rw [hAt]; exact nofun))
              (fun _ => rfl) (fun hAfter => nomatch hAfter)
              trivial
      · cases hTaken
  | «open» salt nonce zstdError =>
      simp only [backupStep] at hTaken
      split at hTaken
      · next hAt =>
          split at hTaken
          · cases hTaken
            exact
              hHolds.goto
                (hHolds.no_close (by rw [hAt]; exact nofun))
                (fun _ => rfl) (fun hAfter => nomatch hAfter)
                trivial
          · next chain header hBuilt =>
              cases hTaken
              exact runInvariant_open hHolds hAt hBuilt
      · cases hTaken
  | dumpWrite data =>
      simp only [backupStep] at hTaken
      split at hTaken
      · next hAt =>
          exact runInvariant_dumpWrite hHolds hAt hTaken
      · cases hTaken
  | flushBlock => exact runInvariant_flushBlock hHolds hTaken
  | finishCall => exact runInvariant_finishCall hHolds hTaken
  | failCall => exact runInvariant_failCall hHolds hTaken
  | endDump result =>
      simp only [backupStep] at hTaken
      split at hTaken
      · next hAt =>
          split at hTaken
          · cases hTaken
          · next hIdle =>
              cases hTaken
              exact
                runInvariant_endDump hHolds hAt
                  (Bool.eq_false_iff.mpr hIdle)
      · cases hTaken
  | panicDump value =>
      simp only [backupStep] at hTaken
      split at hTaken
      · next hAt =>
          split at hTaken
          · cases hTaken
          · cases hTaken
            exact
              hHolds.fail
                (hHolds.no_close (by rw [hAt]; exact nofun))
                (unwind_cause s)
      · cases hTaken
  | readPipe count =>
      simp only [backupStep] at hTaken
      split at hTaken
      · next hReading =>
          rcases Option.map_eq_some_iff.mp hTaken with
            ⟨pipe, hRead, rfl⟩
          exact runInvariant_readPipe hHolds hReading hRead
      · cases hTaken
  | readEnd =>
      simp only [backupStep] at hTaken
      split at hTaken
      · next hEnd =>
          cases hTaken
          exact runInvariant_readEnd hHolds hEnd.1 hEnd.2
      · cases hTaken
  | closeSource error =>
      simp only [backupStep] at hTaken
      split at hTaken
      · next hReading =>
          cases hTaken
          exact runInvariant_closeSource error hHolds hReading
      · cases hTaken
  | endUpload outcome =>
      simp only [backupStep] at hTaken
      split at hTaken
      · next hReading =>
          split at hTaken
          · cases hTaken
            exact
              runInvariant_endUpload hHolds hReading
                (fun receipt hOk => nomatch hOk)
          · split at hTaken
            · next hSaw =>
                cases hTaken
                exact
                  runInvariant_endUpload hHolds hReading
                    (fun _ _ => hSaw)
            · cases hTaken
      · cases hTaken
  | panicUpload =>
      simp only [backupStep] at hTaken
      split at hTaken
      · next hReading =>
          cases hTaken
          exact
            runInvariant_endUpload hHolds hReading
              (fun receipt hOk => nomatch hOk)
      · cases hTaken
  | deliver => exact runInvariant_deliver hHolds hTaken
  | advance => exact runInvariant_advance hHolds hTaken
  | panicProgress value =>
      simp only [backupStep] at hTaken
      split at hTaken
      · next hAt =>
          cases hTaken
          exact
            hHolds.fail
              (hHolds.no_close (by rw [hAt]; exact nofun))
              (unwind_cause s)
      · cases hTaken

/-
  However the dump, the upload and the contexts end, a backup
  returns an error, or its result is of a whole file.
-/
theorem run_backup_whole
    (s : BackupRun deps.codec)
    (hReachable : (backupSystem deps spec).Reachable s)
    (outcome : Except BackupError BackupResult)
    (hReturned : s.phase = .returned outcome) :
    (∃ error, outcome = .error error) ∨
      ∃ result,
        outcome = .ok result ∧
          WholeBackup deps spec s result := by
  have hHolds : RunInvariant spec s :=
    hReachable.invariant runInvariant_initial
      fun s action s' hHolds _ hTaken =>
        runInvariant_step s action s' hHolds hTaken
  have hPhase := hHolds.phase
  rw [hReturned] at hPhase
  cases outcome with
  | error error => exact Or.inl ⟨error, rfl⟩
  | ok result => exact Or.inr ⟨result, rfl, hPhase.backup⟩

/- Libraries that a dump stored as it is does not use. -/
def plainDeps : PipelineDeps where
  primitives :=
    { uuidText := fun _ => ""
      pbkdf2Key := fun _ _ _ _ => []
      newGCM := fun _ =>
        { overhead := 16
          seals := fun _ chunk => chunk
          opens := fun _ chunk => some chunk } }
  masterKey := none
  codec :=
    { State := Unit
      newWriter := fun _ => ()
      write := fun _ data => ((), [data])
      finish := fun _ => [] }

def plainSpec : StreamSpec where
  backupID := 1
  isEncrypted := false
  isZstd := false
  zstdLevel := 0

def plainStart : BackupRun plainDeps.codec where
  phase := .opening
  runEnd := none
  backupCause := none
  isClosingPipe := false
  pipe := Pipe.new
  chain :=
    { zstdEncoder := none
      storedBytes := 0
      output := .plain { written := [], room := none }
      hasWriteFailed := false }
  header := none
  call := none
  upload := Upload.new
  dumpResult := none
  dumpWrites := []
  isChainClosed := false

def plainReceipt : WriteReceipt where
  pendingDeletionID := 5
  reference :=
    { storageID := 2
      fileName := "backup.dump" }
  generation := 1

/- A storage reads the two writes of a dump in three reads. -/
def plainBackup : BackupRun plainDeps.codec :=
  (backupSystem plainDeps plainSpec).outcome plainStart
    [.open none none none,
      .dumpWrite [1, 2, 3],
      .readPipe 2,
      .readPipe 2,
      .finishCall,
      .dumpWrite [4],
      .readPipe 8,
      .finishCall,
      .endDump (.ok ()),
      .advance,
      .advance,
      .advance,
      .advance,
      .readEnd,
      .endUpload (.ok plainReceipt),
      .deliver,
      .deliver,
      .advance,
      .advance,
      .advance]

theorem run_backup_whole_plainBackup :
    WholeBackup plainDeps plainSpec plainBackup
      { encryptionHeader := none
        storedBytes := 4
        receipt := plainReceipt } := by
  have hReachable :
      (backupSystem plainDeps plainSpec).Reachable
        plainBackup :=
    TransitionSystem.reachable_outcome _
      ⟨rfl, rfl, rfl, rfl, rfl, rfl, rfl, rfl, rfl, rfl⟩
  rcases run_backup_whole plainBackup hReachable _ rfl with
    ⟨error, hError⟩ | ⟨result, hResult, hWhole⟩
  · cases hError
  · cases hResult
    exact hWhole

end Pipeline

end Databasus
