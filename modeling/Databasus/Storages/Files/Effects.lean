import Databasus.Storages.Files.System

/-
  What the steps of writers, publishers and jobs can do.

  A step's branches are taken apart once, into effects that
  say which call it was, what it found and what it changed.
  Invariants are then shown effect by effect.

  Main declarations:
    * `WriteEffect`
    * `AttemptEffect`
    * `confirmFileWrites_induction`
    * `requestFileDeletions_induction`
    * `Effect`
    * `effect_of_step`
-/

------------------------------------------------------------
-- Stages
------------------------------------------------------------

namespace Databasus

namespace Storages

namespace Files

namespace WriteStage

/- The file has not been registered. -/
def isEarly : WriteStage → Bool
  | .protecting => true
  | .registering => true
  | _ => false

/- The row that covers the file, while the write uses it. -/
def pending : WriteStage → Option PendingDeletion
  | .locating row => some row
  | .saving row => some row
  | .failing row => some row
  | .keeping row => some row
  | _ => none

/- The receipt that the write is going to return. -/
def receipt : WriteStage → Option WriteReceipt
  | .releasing receipt => receipt
  | .leaving receipt => receipt
  | _ => none

/- The provider may be about to store bytes. -/
def isUploading : WriteStage → Bool
  | .locating _ => true
  | .saving _ => true
  | _ => false

/- All bytes are stored and the write has not failed. -/
def isSaved : WriteStage → Bool
  | .keeping _ => true
  | .releasing receipt => receipt.isSome
  | .leaving receipt => receipt.isSome
  | _ => false

/- The write can still lead to a receipt. -/
def mayPublish (stage : WriteStage) : Bool :=
  stage.pending.isSome || stage.receipt.isSome

/- The next stage holds nothing that this one did not. -/
structure PassesTo
    (stage next : WriteStage) : Prop where
  early : next.isEarly = true → stage.isEarly = true
  pending : ∀ row ∈ next.pending, row ∈ stage.pending
  receipt :
    ∀ receipt ∈ next.receipt, receipt ∈ stage.receipt
  uploading :
    next.isUploading = true → stage.isUploading = true
  saved : next.isSaved = true → stage.isSaved = true

theorem passesTo_leaving_none
    (stage : WriteStage) :
    stage.PassesTo (.leaving none) := by
  constructor <;> intros <;> contradiction

theorem passesTo_releasing_none
    (stage : WriteStage) :
    stage.PassesTo (.releasing none) := by
  constructor <;> intros <;> contradiction

/- A saved write may publish its file. -/
theorem mayPublish_of_isSaved
    {stage : WriteStage}
    (hSaved : stage.isSaved = true) :
    stage.mayPublish = true := by
  cases stage <;>
    simp_all [isSaved, mayPublish, pending, receipt]

theorem PassesTo.mayPublish
    {stage next : WriteStage}
    (hPasses : stage.PassesTo next)
    (hPublish : next.mayPublish = true) :
    stage.mayPublish = true := by
  unfold WriteStage.mayPublish at hPublish ⊢
  rw [Bool.or_eq_true, Option.isSome_iff_exists,
    Option.isSome_iff_exists] at hPublish ⊢
  rcases hPublish with ⟨row, hRow⟩ | ⟨receipt, hReceipt⟩
  · exact Or.inl ⟨row, hPasses.pending row hRow⟩
  · exact Or.inr ⟨receipt, hPasses.receipt receipt hReceipt⟩

end WriteStage

------------------------------------------------------------
-- Effects of a Write's Calls
------------------------------------------------------------

open Foundation

variable {event : WriteEvent}
variable {pending : PendingDeletion}

/- A row as `WriteFile` registers it. -/
def Write.row
    (write : Write)
    (notBefore : Time) : PendingDeletion :=
  { id := write.pendingID
    reference := write.reference
    notBefore := notBefore }

/- A name that a row can be inserted for. -/
def Environment.isValid
    (env : Environment)
    (reference : StoredFileReference) : Prop :=
  reference.storageID ∈ env.storages ∧
    reference.fileName ≠ ""

inductive WriteEffect
    (env : Environment)
    (s : State)
    (write : Write) : WriteEvent → State → Prop
  | pass
      {event : WriteEvent}
      (locks : List FileLock)
      (stage : WriteStage) :
      write.stage.PassesTo stage →
      WriteEffect env s write event
        ({ s with locks := locks }.setWriteStage write stage)
  | register
      {readAt : Time}
      {answer : Answer}
      (notBefore : Time)
      (stage : WriteStage) :
      write.stage = .registering →
      env.isValid write.reference →
      (∀ row ∈ s.rows, row.reference ≠ write.reference) →
      (stage = .releasing none ∨
        answer = .answered ∧
          stage = .locating (write.row notBefore)) →
      WriteEffect env s write (.insert readAt answer)
        ({ s with
          rows := s.rows ++ [write.row notBefore]
          issuedIDs :=
            write.pendingID :: s.issuedIDs }.setWriteStage
          write stage)
  | store
      (pending : PendingDeletion)
      (content : Bytes) :
      write.stage = .saving pending →
      WriteEffect env s write (.savePart content)
        (storeContent s write content)
  | save
      {isSaved : Bool}
      (pending : PendingDeletion) :
      write.stage = .saving pending →
      WriteEffect env s write (.saveEnd isSaved)
        ((storeContent s write write.content).setWriteStage
          write (.keeping pending))
  | reschedule
      {event : WriteEvent}
      (pending : PendingDeletion)
      (notBefore : Time)
      (receipt : Option WriteReceipt) :
      write.stage.pending = some pending →
      (receipt = none ∨
        write.stage = .keeping pending ∧
          receipt =
            some
              { pendingDeletionID := pending.id
                reference := write.reference
                generation := pending.generation }) →
      WriteEffect env s write event
        ({ s with
          rows :=
            (setNotBeforeIfGeneration s.rows pending.id
              pending.generation notBefore).1 }.setWriteStage
          write (.releasing receipt))
  | leave
      (receipt : Option WriteReceipt) :
      write.stage = .leaving receipt →
      WriteEffect env s write .leave (s.endWrite write receipt)

variable {env : Environment}
variable {s s' : State}
variable {write : Write}

theorem insertIfAbsent_inserted
    {storages : List Uuid}
    {rows rows' : List PendingDeletion}
    {registration : Registration}
    {row : PendingDeletion}
    (hInsert :
      insertIfAbsent storages rows registration =
        some (rows', row)) :
    (registration.reference.storageID ∈ storages ∧
        registration.reference.fileName ≠ "") ∧
      (∀ old ∈ rows,
        old.reference ≠ registration.reference) ∧
      row =
        { id := registration.id
          reference := registration.reference
          notBefore := registration.notBefore } ∧
      rows' = rows ++ [row] := by
  unfold insertIfAbsent at hInsert
  split at hInsert
  · next hAbsent =>
      cases hInsert
      exact ⟨⟨hAbsent.1, hAbsent.2.1⟩, hAbsent.2.2, rfl, rfl⟩
  · cases hInsert

theorem writeEffect_registerWrite
    {readAt : Time}
    {answer : Answer}
    (hStage : write.stage = .registering) :
    WriteEffect env s write (.insert readAt answer)
      (registerWrite env s write readAt answer) := by
  have hEnd :
      WriteEffect env s write (.insert readAt answer)
        (s.setWriteStage write (.releasing none)) :=
    .pass s.locks _ (write.stage.passesTo_releasing_none)
  unfold registerWrite
  cases answer with
  | failed => exact hEnd
  | answered =>
      simp only
      split
      · exact hEnd
      · next rows pending hInsert =>
          rcases insertIfAbsent_inserted hInsert with
            ⟨hValid, hAbsent, rfl, rfl⟩
          exact
            .register _ _ hStage hValid hAbsent
              (Or.inr ⟨rfl, rfl⟩)
  | lost =>
      simp only
      split
      · exact hEnd
      · next rows pending hInsert =>
          rcases insertIfAbsent_inserted hInsert with
            ⟨hValid, hAbsent, rfl, rfl⟩
          exact .register _ _ hStage hValid hAbsent (Or.inl rfl)

/- A reschedule of a row, or none, as a write ends. -/
theorem writeEffect_makeEligibleNow
    (hStage : write.stage = .failing pending)
    (readAt : Time)
    (answer : Answer) :
    WriteEffect env s write event
      (makeEligibleNow s write pending readAt answer) := by
  unfold makeEligibleNow
  split
  · exact
      .reschedule pending readAt none (by rw [hStage]; rfl)
        (Or.inl rfl)
  · exact .pass s.locks _ (write.stage.passesTo_releasing_none)

theorem writeEffect_keepFile
    (hStage : write.stage = .keeping pending)
    (readAt : Time)
    (answer : Answer) :
    WriteEffect env s write event
      (keepFile env s write pending readAt answer) := by
  have hPending : write.stage.pending = some pending := by
    rw [hStage]
    rfl
  unfold keepFile
  cases answer with
  | failed =>
      exact
        .pass s.locks _
          (write.stage.passesTo_releasing_none)
  | answered =>
      apply WriteEffect.reschedule pending _ _ hPending
      simp only [true_and]
      split
      · exact Or.inr ⟨hStage, rfl⟩
      · exact Or.inl rfl
  | lost =>
      exact
        .reschedule pending _ _ hPending
          (Or.inl (if_neg (by simp)))

theorem writeEffect_protectWrite
    (hStage : write.stage = .protecting)
    (isAnswered : Bool) :
    WriteEffect env s write event
      (protectWrite s write isAnswered) := by
  unfold protectWrite
  split
  · apply WriteEffect.pass
    rw [hStage]
    constructor <;> intros <;> first | rfl | contradiction
  · exact .pass s.locks _ (write.stage.passesTo_leaving_none)

theorem writeEffect_releaseWrite
    {receipt : Option WriteReceipt}
    (hStage : write.stage = .releasing receipt)
    (isAnswered : Bool) :
    WriteEffect env s write event
      (releaseWrite s write receipt isAnswered) := by
  unfold releaseWrite
  split
  · apply WriteEffect.pass
    rw [hStage]
    constructor <;> intros <;> assumption
  · exact .pass _ _ (write.stage.passesTo_leaving_none)

/- Every answered call of a write has one of the effects. -/
theorem writeEffect_of_advanceWrite
    (hAdvance :
      advanceWrite env s write write.stage event = some s') :
    WriteEffect env s write event s' := by
  cases hStage : write.stage with
  | protecting =>
      cases event <;> rw [hStage] at hAdvance <;>
        cases hAdvance
      exact writeEffect_protectWrite hStage _
  | registering =>
      cases event <;> rw [hStage] at hAdvance <;>
        cases hAdvance
      exact writeEffect_registerWrite hStage
  | locating pending =>
      cases event <;> rw [hStage] at hAdvance <;>
        cases hAdvance
      apply WriteEffect.pass s.locks
      rw [hStage]
      split <;>
        constructor <;> intros <;>
          first | assumption | rfl
  | saving pending =>
      cases event <;> rw [hStage] at hAdvance <;>
        cases hAdvance
      · exact .store pending _ hStage
      · next isSaved =>
          unfold endSave
          split
          · exact .save pending hStage
          · apply WriteEffect.pass s.locks
            rw [hStage]
            constructor <;> intros <;>
              first | assumption | rfl
  | failing pending =>
      cases event <;> rw [hStage] at hAdvance <;>
        cases hAdvance
      exact writeEffect_makeEligibleNow hStage _ _
  | keeping pending =>
      cases event <;> rw [hStage] at hAdvance <;>
        cases hAdvance
      exact writeEffect_keepFile hStage _ _
  | releasing receipt =>
      cases event <;> rw [hStage] at hAdvance <;>
        cases hAdvance
      exact writeEffect_releaseWrite hStage _
  | leaving receipt =>
      cases event <;> rw [hStage] at hAdvance <;>
        cases hAdvance
      exact .leave receipt hStage

------------------------------------------------------------
-- Effects of an Attempt's Calls
------------------------------------------------------------

inductive AttemptEffect
    (s : State)
    (attempt : Attempt) : AttemptEvent → State → Prop
  | readClock :
      attempt.stage = .claimed →
      AttemptEffect s attempt .readClock
        (s.setAttemptStage attempt (.starting s.now))
  | start
      {answer : Answer}
      (readAt : Time)
      (row : PendingDeletion) :
      attempt.stage = .starting readAt →
      row ∈ s.rows →
      isStartable attempt.pending readAt row = true →
      AttemptEffect s attempt (.start answer)
        ({ s with
          rows :=
            (startAttempt s.rows attempt.pending
              readAt).1 }.setAttemptStage attempt
          (.prepared (attempt.pending.notBefore - readAt)))
  | beginDelete
      (duration : Duration) :
      attempt.stage = .prepared duration →
      0 < duration →
      AttemptEffect s attempt .beginDelete
        (s.setAttemptStage attempt
          (.deleting (s.now + duration) false))
  | land
      (deadline : Time)
      (hasLanded : Bool) :
      attempt.stage = .deleting deadline hasLanded →
      s.now < deadline →
      AttemptEffect s attempt .land
        ({ s with
          objects :=
            removeObject s.objects
              attempt.pending.reference }.setAttemptStage
          attempt (.deleting deadline true))
  | answer
      {isDeleted : Bool}
      (deadline : Time)
      (hasLanded : Bool)
      (stage : AttemptStage) :
      attempt.stage = .deleting deadline hasLanded →
      (stage = .failed ∨
        stage = .deleted ∧ hasLanded = true) →
      AttemptEffect s attempt (.answerDelete isDeleted)
        (s.setAttemptStage attempt stage)
  | leave
      {event : AttemptEvent} :
      AttemptEffect s attempt event (s.endAttempt attempt)
  | leaveStarted
      {event : AttemptEvent}
      (readAt : Time) :
      AttemptEffect s attempt event
        ({ s with
          rows :=
            (startAttempt s.rows attempt.pending
              readAt).1 }.endAttempt attempt)
  | release
      {event : AttemptEvent} :
      attempt.stage = .deleted →
      AttemptEffect s attempt event
        ({ s with
          rows :=
            (completeIfGeneration s.rows attempt.pending.id
              attempt.pending.generation).1 }.endAttempt
          attempt)
  | reschedule
      {event : AttemptEvent}
      (notBefore : Time) :
      AttemptEffect s attempt event
        ({ s with
          rows :=
            (setNotBeforeIfGeneration s.rows
              attempt.pending.id attempt.pending.generation
              notBefore).1 }.endAttempt attempt)

variable {s s' : State}
variable {attempt : Attempt}

theorem attemptEffect_startDeletion
    {readAt : Time}
    (hStage : attempt.stage = .starting readAt)
    (answer : Answer) :
    AttemptEffect s attempt (.start answer)
      (startDeletion s attempt readAt answer) := by
  unfold startDeletion
  cases answer with
  | failed => exact .leave
  | answered =>
      simp only [true_and]
      split
      · next hStarted =>
          have hOne :
              Table.affected
                  (isStartable attempt.pending readAt)
                  s.rows =
                1 := by
            simpa [startAttempt] using hStarted
          have hFound :
              ∃ row ∈ s.rows,
                isStartable attempt.pending readAt row =
                  true := by
            by_contra hNone
            push Not at hNone
            rw [(Table.affected_eq_zero_iff _ _).mpr
              fun row hRow => by
                simpa using hNone row hRow] at hOne
            exact absurd hOne (by decide)
          rcases hFound with ⟨row, hRow, hStartable⟩
          exact .start readAt row hStage hRow hStartable
      · exact .leaveStarted readAt
  | lost =>
      simp only [reduceCtorEq, false_and, if_false]
      exact .leaveStarted readAt

/- Every answered call of an attempt has an effect. -/
theorem attemptEffect_of_advanceAttempt
    {event : AttemptEvent}
    (hAdvance :
      advanceAttempt s attempt attempt.stage event =
        some s') :
    AttemptEffect s attempt event s' := by
  cases hStage : attempt.stage with
  | claimed =>
      cases event <;> rw [hStage] at hAdvance <;>
        cases hAdvance
      exact .readClock hStage
  | starting readAt =>
      cases event <;> rw [hStage] at hAdvance <;>
        cases hAdvance
      exact attemptEffect_startDeletion hStage _
  | prepared duration =>
      cases event <;> rw [hStage] at hAdvance <;>
        try cases hAdvance
      simp only [advanceAttempt] at hAdvance
      split at hAdvance
      · next hPositive =>
          cases hAdvance
          exact .beginDelete duration hStage hPositive
      · cases hAdvance
        exact .leave
  | deleting deadline hasLanded =>
      cases event <;> rw [hStage] at hAdvance <;>
        try cases hAdvance
      · simp only [advanceAttempt, landDelete] at hAdvance
        split at hAdvance
        · next hBefore =>
            cases hAdvance
            exact .land deadline hasLanded hStage hBefore
        · cases hAdvance
      · simp only [advanceAttempt] at hAdvance
        split at hAdvance
        · split at hAdvance
          · next hLanded =>
              cases hAdvance
              exact
                .answer deadline hasLanded _ hStage
                  (Or.inr ⟨rfl, hLanded⟩)
          · cases hAdvance
        · cases hAdvance
          exact .answer deadline hasLanded _ hStage (Or.inl rfl)
  | deleted =>
      cases event <;> rw [hStage] at hAdvance <;>
        cases hAdvance
      unfold releaseDeletedFile
      split
      · exact .release hStage
      · exact .leave
  | failed =>
      cases event <;> rw [hStage] at hAdvance <;>
        cases hAdvance
      unfold rescheduleAttempt
      split
      · exact .reschedule _
      · exact .leave

------------------------------------------------------------
-- Effects of Transactions and Claims
------------------------------------------------------------

variable {holds : State → Prop}
variable {readAt : Time}

/- A confirmed receipt releases the row that it names. -/
theorem confirmFileWrite_some
    {receipt : WriteReceipt}
    (hConfirm : confirmFileWrite s receipt = some s') :
    (∃ row ∈ s.rows,
        row.id = receipt.pendingDeletionID ∧
          row.generation = receipt.generation) ∧
      s' =
        { s with
          rows :=
            (completeIfGeneration s.rows
              receipt.pendingDeletionID
              receipt.generation).1
          kept := receipt.reference :: s.kept } := by
  unfold confirmFileWrite at hConfirm
  simp only at hConfirm
  split at hConfirm
  · next hReleased =>
      cases hConfirm
      refine ⟨?_, rfl⟩
      by_contra hNone
      push Not at hNone
      have hZero :
          Table.affected
              (isAtGeneration receipt.pendingDeletionID
                receipt.generation)
              s.rows =
            0 := by
        rw [Table.affected_eq_zero_iff]
        intro row hRow
        by_contra hSelects
        rw [Bool.not_eq_false, isAtGeneration_iff] at hSelects
        exact hNone row hRow hSelects.1 hSelects.2
      simp [completeIfGeneration, hZero] at hReleased
  · cases hConfirm

/- What each receipt keeps, the transaction keeps. -/
theorem confirmFileWrites_induction
    (hStep :
      ∀ s s' receipt,
        holds s →
          receipt ∈ s.delivered →
            confirmFileWrite s receipt = some s' →
              holds s')
    (receipts : List WriteReceipt) :
    ∀ {s s' : State},
      (∀ receipt ∈ receipts, receipt ∈ s.delivered) →
      confirmFileWrites s receipts = some s' →
      holds s →
      holds s' := by
  induction receipts with
  | nil =>
      intro s s' _ hConfirm hHolds
      cases hConfirm
      exact hHolds
  | cons receipt rest ih =>
      intro s s' hDelivered hConfirm hHolds
      cases hOne : confirmFileWrite s receipt with
      | none => simp [confirmFileWrites, hOne] at hConfirm
      | some middle =>
          simp only [confirmFileWrites, hOne] at hConfirm
          have hReceipt := hDelivered receipt List.mem_cons_self
          have hMiddle :=
            hStep s middle receipt hHolds hReceipt hOne
          rcases confirmFileWrite_some hOne with ⟨_, rfl⟩
          apply ih _ hConfirm hMiddle
          intro other hOther
          exact hDelivered other (List.mem_cons_of_mem _ hOther)

/- A request inserts a row, takes it, or is void. -/
theorem insertOrTakeOne_cases
    (env : Environment)
    (now : Time)
    (rows : List PendingDeletion)
    (request : RequestedDeletion) :
    ¬env.isValid request.reference ∧
        insertOrTakeOne env.storages now rows request =
          rows ∨
      (∃ row ∈ rows, row.reference = request.reference) ∧
        insertOrTakeOne env.storages now rows request =
          Table.updateWhere
            (fun row => row.reference = request.reference)
            (takeRow now) rows ∨
      env.isValid request.reference ∧
        (∀ row ∈ rows, row.reference ≠ request.reference) ∧
          insertOrTakeOne env.storages now rows request =
            rows ++
              [{ id := request.newID
                 reference := request.reference
                 notBefore := now }] := by
  unfold insertOrTakeOne Environment.isValid
  split
  · next hVoid =>
      refine Or.inl ⟨?_, rfl⟩
      rintro ⟨hStorage, hName⟩
      rcases hVoid with hEmpty | hUnknown
      · exact hName hEmpty
      · exact hUnknown hStorage
  · next hNamed =>
      rw [not_or, not_not] at hNamed
      split
      · next hAny =>
          rw [List.any_eq_true] at hAny
          rcases hAny with ⟨row, hRow, hReference⟩
          refine Or.inr (Or.inl ⟨⟨row, hRow, ?_⟩, rfl⟩)
          exact of_decide_eq_true hReference
      · next hAny =>
          refine
            Or.inr
              (Or.inr ⟨⟨hNamed.2, hNamed.1⟩, ?_, rfl⟩)
          intro row hRow hReference
          apply hAny
          rw [List.any_eq_true]
          exact ⟨row, hRow, decide_eq_true hReference⟩

theorem deduplicateReferences_sublist
    (requests : List RequestedDeletion) :
    (deduplicateReferences requests).Sublist requests := by
  induction requests with
  | nil => exact List.Sublist.refl _
  | cons request rest ih =>
      exact (List.filter_sublist.trans ih).cons_cons request

/- What a request for a new id keeps, all of them keep. -/
theorem requestFileDeletions_induction
    (hStep :
      ∀ s request,
        holds s →
          s.IsFresh request.newID →
            holds
              (requestFileDeletion env readAt s request))
    (requests : List RequestedDeletion) :
    ∀ {s : State},
      (requests.map RequestedDeletion.newID).Nodup →
      (∀ request ∈ requests, s.IsFresh request.newID) →
      holds s →
      holds (requestFileDeletions env readAt requests s) := by
  induction requests with
  | nil =>
      intro s _ _ hHolds
      exact hHolds
  | cons request rest ih =>
      intro s hNodup hFresh hHolds
      rw [List.map_cons, List.nodup_cons] at hNodup
      have hFirst := hFresh request List.mem_cons_self
      apply ih hNodup.2
      · intro other hOther
        have hLater :=
          hFresh other (List.mem_cons_of_mem _ hOther)
        refine ⟨?_, hLater.2⟩
        intro hIssued
        rcases List.mem_cons.mp hIssued with hSame | hOld
        · apply hNodup.1
          rw [← hSame]
          exact List.mem_map_of_mem hOther
        · exact hLater.1 hOld
      · exact hStep s request hHolds hFirst

/- Attempts after a claim: the old ones and the new ones. -/
theorem mem_claimPass
    {processID : Uuid}
    {lockedIDs : List Uuid}
    (hAttempt :
      attempt ∈
        (claimPass env s processID readAt
          lockedIDs).attempts) :
    attempt ∈ s.attempts ∨
      ∃ row ∈ s.rows,
        row.id ∈
            claimedIDs
              (claimRequest env s processID readAt)
              (isProtected s) lockedIDs s.rows ∧
          attempt =
            { processID := processID
              pending :=
                claimRow
                  (claimRequest env s processID readAt) row
              stage := .claimed } := by
  rcases List.mem_append.mp hAttempt with hOld | hNew
  · exact Or.inl hOld
  · rcases List.mem_map.mp hNew with ⟨pending, hPending, rfl⟩
    rcases List.mem_map.mp hPending with ⟨row, hRow, rfl⟩
    rw [List.mem_filter] at hRow
    exact
      Or.inr
        ⟨row, hRow.1, of_decide_eq_true hRow.2, rfl⟩

------------------------------------------------------------
-- Effects of a Step
------------------------------------------------------------

inductive Effect
    (env : Environment)
    (s : State) : Action → State → Prop
  | tick
      (later : Time) :
      s.now ≤ later →
      Effect env s (.tick later) { s with now := later }
  | loseSession
      (processID : Uuid) :
      Effect env s (.loseSession processID)
        (s.dropLocks processID)
  | crash
      (processID : Uuid) :
      Effect env s (.crash processID) (crash s processID)
  | writeFile
      (processID pendingID : Uuid)
      (reference : StoredFileReference)
      (content : Bytes) :
      s.IsFresh pendingID →
      Effect env s
        (.writeFile processID pendingID reference content)
        { s with
          writes :=
            { processID := processID
              pendingID := pendingID
              reference := reference
              content := content
              stage := .protecting } :: s.writes
          begun :=
            { pendingID := pendingID
              reference := reference
              content := content } :: s.begun }
  | write
      {s' : State}
      (write : Write)
      (event : WriteEvent) :
      s.writes.find? (fun other =>
        other.pendingID = write.pendingID) = some write →
      event.readBy s.now →
      WriteEffect env s write event s' →
      Effect env s (.write write.pendingID event) s'
  | confirmFileWrites
      {s' : State}
      (receipts : List WriteReceipt) :
      (∀ receipt ∈ receipts, receipt ∈ s.delivered) →
      confirmFileWrites s receipts = some s' →
      Effect env s (.confirmFileWrites receipts) s'
  | requestFileDeletions
      (readAt : Time)
      (requests : List RequestedDeletion) :
      ((deduplicateReferences requests).map
        RequestedDeletion.newID).Nodup →
      (∀ request ∈ deduplicateReferences requests,
        s.IsFresh request.newID) →
      Effect env s (.requestFileDeletions readAt requests)
        (requestFileDeletions env readAt
          (deduplicateReferences requests) s)
  | claimDue
      (processID : Uuid)
      (readAt : Time)
      (lockedIDs : List Uuid) :
      readAt ≤ s.now →
      Effect env s (.claimDue processID readAt lockedIDs)
        (claimPass env s processID readAt lockedIDs)
  | attempt
      {s' : State}
      {id : Uuid}
      {generation : Nat}
      (attempt : Attempt)
      (event : AttemptEvent) :
      attempt ∈ s.attempts →
      attempt.isOf id generation = true →
      AttemptEffect s attempt event s' →
      Effect env s (.attempt id generation event) s'

/- Every step has one of the effects. -/
theorem effect_of_step
    {action : Action}
    (hStep : step env s action = some s') :
    Effect env s action s' := by
  cases action with
  | tick later =>
      simp only [step] at hStep
      split at hStep
      · next hLater =>
          cases hStep
          exact .tick later hLater
      · cases hStep
  | loseSession processID =>
      cases hStep
      exact .loseSession processID
  | crash processID =>
      cases hStep
      exact .crash processID
  | writeFile processID pendingID reference content =>
      simp only [step] at hStep
      split at hStep
      · next hFresh =>
          cases hStep
          exact .writeFile _ _ _ _ hFresh
      · cases hStep
  | write pendingID event =>
      simp only [step] at hStep
      split at hStep
      · next hRead =>
          split at hStep
          · cases hStep
          · next write hFound =>
              have hID : write.pendingID = pendingID := by
                simpa using List.find?_some hFound
              subst hID
              exact
                .write write event hFound hRead
                  (writeEffect_of_advanceWrite hStep)
      · cases hStep
  | confirmFileWrites receipts =>
      simp only [step] at hStep
      split at hStep
      · next hDelivered =>
          exact .confirmFileWrites receipts hDelivered hStep
      · cases hStep
  | requestFileDeletions readAt requests =>
      simp only [step] at hStep
      split at hStep
      · next hRequests =>
          cases hStep
          have hSublist :=
            deduplicateReferences_sublist requests
          exact
            .requestFileDeletions readAt requests
              (hRequests.2.1.sublist (hSublist.map _))
              fun request hRequest =>
                hRequests.2.2 request
                  (hSublist.subset hRequest)
      · cases hStep
  | claimDue processID readAt lockedIDs =>
      simp only [step] at hStep
      split at hStep
      · next hRead =>
          cases hStep
          exact .claimDue processID readAt lockedIDs hRead
      · cases hStep
  | attempt id generation event =>
      simp only [step] at hStep
      split at hStep
      · split at hStep
        · cases hStep
        · next attempt hFound =>
            exact
              .attempt attempt event
                (List.mem_of_find?_eq_some hFound)
                (by simpa using List.find?_some hFound)
                (attemptEffect_of_advanceAttempt hStep)
      · cases hStep

------------------------------------------------------------
-- Kept Files
------------------------------------------------------------

/- A confirmation keeps the files of its receipts as well. -/
theorem mem_kept_confirmFileWrites
    {receipts : List WriteReceipt}
    (hConfirm : confirmFileWrites s receipts = some s')
    (reference : StoredFileReference) :
    reference ∈ s'.kept ↔
      reference ∈ receipts.map WriteReceipt.reference ∨
        reference ∈ s.kept := by
  induction receipts generalizing s with
  | nil =>
      cases hConfirm
      simp
  | cons receipt receipts ih =>
      cases hOne : confirmFileWrite s receipt with
      | none => simp [confirmFileWrites, hOne] at hConfirm
      | some middle =>
          simp only [confirmFileWrites, hOne] at hConfirm
          rcases confirmFileWrite_some hOne with ⟨_, rfl⟩
          rw [ih hConfirm, List.map_cons, List.mem_cons,
            List.mem_cons, or_left_comm, or_assoc]

/- A request takes its files from the kept ones. -/
theorem mem_kept_requestFileDeletions
    (readAt : Time)
    (requests : List RequestedDeletion)
    (reference : StoredFileReference) :
    reference ∈
        (requestFileDeletions env readAt requests s).kept ↔
      reference ∈ s.kept ∧
        reference ∉
          requests.map RequestedDeletion.reference := by
  induction requests generalizing s with
  | nil => simp [requestFileDeletions]
  | cons request requests ih =>
      rw [requestFileDeletions, ih]
      simp only [requestFileDeletion, List.mem_filter,
        decide_eq_true_eq, List.map_cons, List.mem_cons,
        not_or, and_assoc]

theorem mem_map_deduplicateReferences
    (requests : List RequestedDeletion)
    (reference : StoredFileReference) :
    reference ∈
        (deduplicateReferences requests).map
          RequestedDeletion.reference ↔
      reference ∈
        requests.map RequestedDeletion.reference := by
  induction requests with
  | nil => simp [deduplicateReferences]
  | cons request requests ih =>
      rw [deduplicateReferences, List.map_cons,
        List.map_cons, List.mem_cons, List.mem_cons, ← ih]
      constructor
      · rintro (hSame | hLater)
        · exact Or.inl hSame
        · rcases List.mem_map.mp hLater with
            ⟨other, hOther, rfl⟩
          have hMember := (List.mem_filter.mp hOther).1
          exact Or.inr (List.mem_map_of_mem hMember)
      · rintro (hSame | hLater)
        · exact Or.inl hSame
        · by_cases hFirst : reference = request.reference
          · exact Or.inl hFirst
          · right
            rcases List.mem_map.mp hLater with
              ⟨other, hOther, rfl⟩
            apply List.mem_map_of_mem
            rw [List.mem_filter]
            exact ⟨hOther, by simpa using hFirst⟩

/- Other calls neither confirm files nor request them. -/
theorem kept_of_writeEffect
    (hEffect : WriteEffect env s write event s') :
    s'.kept = s.kept := by
  cases hEffect <;> rfl

theorem kept_of_attemptEffect
    {event : AttemptEvent}
    (hEffect : AttemptEffect s attempt event s') :
    s'.kept = s.kept := by
  cases hEffect <;> rfl

end Files

end Storages

end Databasus
