import Databasus.Storages.Files.Effects

/-
  Rows, writes, receipts and attempts belong together.

  A row keeps its id and its file for life, and nothing that
  a writer holds has a generation above zero, while every
  attempt has one.

  Main declarations:
    * `WriteSound`
    * `ReceiptSound`
    * `AttemptSound`
    * `IsConsistent`
    * `isConsistent_of_effect`
-/

------------------------------------------------------------
-- The Invariant
------------------------------------------------------------

namespace Databasus

namespace Storages

namespace Files

open Foundation

def Write.asBegun (write : Write) : BegunWrite :=
  { pendingID := write.pendingID
    reference := write.reference
    content := write.content }

structure WriteSound
    (begun : List BegunWrite)
    (issuedIDs : List Uuid)
    (write : Write) : Prop where
  begun : write.asBegun ∈ begun
  early :
    write.stage.isEarly = true → write.pendingID ∉ issuedIDs
  pending :
    ∀ row ∈ write.stage.pending,
      row.id = write.pendingID ∧ row.generation = 0
  receipt :
    ∀ receipt ∈ write.stage.receipt,
      receipt.pendingDeletionID = write.pendingID ∧
        receipt.reference = write.reference ∧
          receipt.generation = 0

structure ReceiptSound
    (begun : List BegunWrite)
    (writes : List Write)
    (receipt : WriteReceipt) : Prop where
  generation : receipt.generation = 0
  begun :
    ∃ write ∈ begun,
      write.pendingID = receipt.pendingDeletionID ∧
        write.reference = receipt.reference
  ended :
    ∀ write ∈ writes,
      write.pendingID ≠ receipt.pendingDeletionID

structure AttemptSound
    (rows : List PendingDeletion)
    (issuedIDs : List Uuid)
    (attempt : Attempt) : Prop where
  claimed : 0 < attempt.pending.generation
  issued : attempt.pending.id ∈ issuedIDs
  row :
    ∀ row ∈ rows,
      row.id = attempt.pending.id →
        row.reference = attempt.pending.reference ∧
          attempt.pending.generation ≤ row.generation

structure IsConsistent (s : State) : Prop where
  rowIDs : Table.UniqueBy PendingDeletion.id s.rows
  rowReferences :
    Table.UniqueBy PendingDeletion.reference s.rows
  rowsIssued : ∀ row ∈ s.rows, row.id ∈ s.issuedIDs
  rowsBegun :
    ∀ row ∈ s.rows,
      ∀ begun ∈ s.begun,
        begun.pendingID = row.id →
          begun.reference = row.reference
  begunIDs : Table.UniqueBy BegunWrite.pendingID s.begun
  writeIDs : Table.UniqueBy Write.pendingID s.writes
  writes :
    ∀ write ∈ s.writes,
      WriteSound s.begun s.issuedIDs write
  delivered :
    ∀ receipt ∈ s.delivered,
      ReceiptSound s.begun s.writes receipt
  attempts :
    ∀ attempt ∈ s.attempts,
      AttemptSound s.rows s.issuedIDs attempt

------------------------------------------------------------
-- Members of Changed Lists
------------------------------------------------------------

variable {s : State}
variable {write : Write}
variable {attempt : Attempt}
variable {other : Write}

/- A write of the new state is an other one or has moved. -/
theorem mem_setWriteStage
    {stage : WriteStage}
    (hOther : other ∈ (s.setWriteStage write stage).writes) :
    other ∈ s.writes ∧ other.pendingID ≠ write.pendingID ∨
      other = { write with stage := stage } := by
  rcases (Table.mem_updateWhere_iff _ _ _ _).mp hOther with
    ⟨old, hOld, hChange⟩
  split at hChange
  · exact Or.inr hChange.symm
  · next hSelects =>
      subst hChange
      exact Or.inl ⟨hOld, by simpa using hSelects⟩

theorem mem_endWrite
    {receipt : Option WriteReceipt}
    (hOther : other ∈ (s.endWrite write receipt).writes) :
    other ∈ s.writes ∧ other.pendingID ≠ write.pendingID := by
  rcases (Table.mem_deleteWhere_iff _ _ _).mp hOther with
    ⟨hOld, hSelects⟩
  exact ⟨hOld, by simpa using hSelects⟩

theorem mem_setAttemptStage
    {stage : AttemptStage}
    {other : Attempt}
    (hOther :
      other ∈ (s.setAttemptStage attempt stage).attempts) :
    other ∈ s.attempts ∧
        other.isOf attempt.pending.id
            attempt.pending.generation =
          false ∨
      other = { attempt with stage := stage } := by
  rcases (Table.mem_updateWhere_iff _ _ _ _).mp hOther with
    ⟨old, hOld, hChange⟩
  split at hChange
  · exact Or.inr hChange.symm
  · next hSelects =>
      subst hChange
      exact Or.inl ⟨hOld, by simpa using hSelects⟩

theorem mem_endAttempt
    {other : Attempt}
    (hOther : other ∈ (s.endAttempt attempt).attempts) :
    other ∈ s.attempts ∧
      other.isOf attempt.pending.id
          attempt.pending.generation =
        false :=
  (Table.mem_deleteWhere_iff _ _ _).mp hOther

/- A row that has stayed may only have aged. -/
structure AgedFrom
    (old row : PendingDeletion) : Prop where
  id : row.id = old.id
  reference : row.reference = old.reference
  generation : old.generation ≤ row.generation

/- Statements change rows, or remove them. -/
structure Aged
    (rows rows' : List PendingDeletion) : Prop where
  ids : Table.UniqueBy PendingDeletion.id rows'
  references :
    Table.UniqueBy PendingDeletion.reference rows'
  from_ : ∀ row ∈ rows', ∃ old ∈ rows, AgedFrom old row

variable {rows : List PendingDeletion}

theorem aged_deleteWhere
    (hIDs : Table.UniqueBy PendingDeletion.id rows)
    (hReferences :
      Table.UniqueBy PendingDeletion.reference rows)
    (selects : PendingDeletion → Bool) :
    Aged rows (Table.deleteWhere selects rows) := by
  refine ⟨hIDs.deleteWhere _, hReferences.deleteWhere _, ?_⟩
  intro row hRow
  rw [Table.mem_deleteWhere_iff] at hRow
  exact ⟨row, hRow.1, rfl, rfl, le_rfl⟩

theorem aged_updateWhere
    (hIDs : Table.UniqueBy PendingDeletion.id rows)
    (hReferences :
      Table.UniqueBy PendingDeletion.reference rows)
    {selects : PendingDeletion → Bool}
    {change : PendingDeletion → PendingDeletion}
    (hChange : ∀ row, AgedFrom row (change row)) :
    Aged rows (Table.updateWhere selects change rows) := by
  refine
    ⟨hIDs.updateWhere fun row => (hChange row).id,
      hReferences.updateWhere fun row =>
        (hChange row).reference,
      ?_⟩
  intro row hRow
  rcases (Table.mem_updateWhere_iff _ _ _ _).mp hRow with
    ⟨old, hOld, rfl⟩
  refine ⟨old, hOld, ?_⟩
  split
  · exact hChange old
  · exact ⟨rfl, rfl, le_rfl⟩

------------------------------------------------------------
-- Changes that Keep the Invariant
------------------------------------------------------------

namespace IsConsistent

variable {stage : WriteStage}

/- Time, locks, objects and kept files do not matter. -/
theorem elsewhere
    (hHolds : IsConsistent s)
    (now : Time)
    (locks : List FileLock)
    (objects : List StoredObject)
    (kept : List StoredFileReference) :
    IsConsistent
      { s with
        now := now
        locks := locks
        objects := objects
        kept := kept } :=
  ⟨hHolds.rowIDs, hHolds.rowReferences, hHolds.rowsIssued,
    hHolds.rowsBegun, hHolds.begunIDs, hHolds.writeIDs,
    hHolds.writes, hHolds.delivered, hHolds.attempts⟩

theorem withRows
    (hHolds : IsConsistent s)
    (hAged : Aged s.rows rows) :
    IsConsistent { s with rows := rows } := by
  refine
    ⟨hAged.ids, hAged.references, ?_, ?_, hHolds.begunIDs,
      hHolds.writeIDs, hHolds.writes, hHolds.delivered, ?_⟩
  · intro row hRow
    rcases hAged.from_ row hRow with ⟨old, hOld, hFrom⟩
    rw [hFrom.id]
    exact hHolds.rowsIssued old hOld
  · intro row hRow begun hBegun hID
    rcases hAged.from_ row hRow with ⟨old, hOld, hFrom⟩
    rw [hFrom.reference]
    exact
      hHolds.rowsBegun old hOld begun hBegun
        (hID.trans hFrom.id)
  · intro attempt hAttempt
    have hSound := hHolds.attempts attempt hAttempt
    refine ⟨hSound.claimed, hSound.issued, ?_⟩
    intro row hRow hID
    rcases hAged.from_ row hRow with ⟨old, hOld, hFrom⟩
    have hOldSound :=
      hSound.row old hOld (hFrom.id.symm.trans hID)
    exact
      ⟨hFrom.reference.trans hOldSound.1,
        hOldSound.2.trans hFrom.generation⟩

theorem withAttempts
    {attempts : List Attempt}
    (hHolds : IsConsistent s)
    (hAttempts :
      ∀ attempt ∈ attempts,
        AttemptSound s.rows s.issuedIDs attempt) :
    IsConsistent { s with attempts := attempts } :=
  ⟨hHolds.rowIDs, hHolds.rowReferences, hHolds.rowsIssued,
    hHolds.rowsBegun, hHolds.begunIDs, hHolds.writeIDs,
    hHolds.writes, hHolds.delivered, hAttempts⟩

/- A stage is not part of what makes an attempt sound. -/
theorem setAttemptStage
    (hHolds : IsConsistent s)
    (hAttempt : attempt ∈ s.attempts)
    (stage : AttemptStage) :
    IsConsistent (s.setAttemptStage attempt stage) := by
  apply hHolds.withAttempts
  intro other hOther
  rcases mem_setAttemptStage hOther with hOld | rfl
  · exact hHolds.attempts other hOld.1
  · have hSound := hHolds.attempts attempt hAttempt
    exact ⟨hSound.claimed, hSound.issued, hSound.row⟩

theorem endAttempt
    (hHolds : IsConsistent s)
    (attempt : Attempt) :
    IsConsistent (s.endAttempt attempt) := by
  apply hHolds.withAttempts
  intro other hOther
  exact hHolds.attempts other (mem_endAttempt hOther).1

theorem setWriteStage
    (hHolds : IsConsistent s)
    (hWrite : write ∈ s.writes)
    (hSound :
      WriteSound s.begun s.issuedIDs
        { write with stage := stage }) :
    IsConsistent (s.setWriteStage write stage) := by
  refine
    ⟨hHolds.rowIDs, hHolds.rowReferences, hHolds.rowsIssued,
      hHolds.rowsBegun, hHolds.begunIDs, ?_, ?_, ?_,
      hHolds.attempts⟩
  · apply hHolds.writeIDs.updateSelected
    intro other hSelects
    exact (of_decide_eq_true hSelects).symm
  · intro other hOther
    rcases mem_setWriteStage hOther with hOld | rfl
    · exact hHolds.writes other hOld.1
    · exact hSound
  · intro receipt hReceipt
    have hOld := hHolds.delivered receipt hReceipt
    refine ⟨hOld.generation, hOld.begun, ?_⟩
    intro other hOther
    rcases mem_setWriteStage hOther with hStayed | rfl
    · exact hOld.ended other hStayed.1
    · exact hOld.ended write hWrite

/- A write may go on to what it holds already. -/
theorem passTo
    (hHolds : IsConsistent s)
    (hWrite : write ∈ s.writes)
    (hPasses : write.stage.PassesTo stage) :
    IsConsistent (s.setWriteStage write stage) := by
  have hSound := hHolds.writes write hWrite
  apply hHolds.setWriteStage hWrite
  refine ⟨hSound.begun, ?_, ?_, ?_⟩
  · intro hEarly
    exact hSound.early (hPasses.early hEarly)
  · intro row hRow
    exact hSound.pending row (hPasses.pending row hRow)
  · intro receipt hReceipt
    exact
      hSound.receipt receipt
        (hPasses.receipt receipt hReceipt)

theorem endWrite
    {receipt : Option WriteReceipt}
    (hHolds : IsConsistent s)
    (hWrite : write ∈ s.writes)
    (hStage : write.stage = .leaving receipt) :
    IsConsistent (s.endWrite write receipt) := by
  refine
    ⟨hHolds.rowIDs, hHolds.rowReferences, hHolds.rowsIssued,
      hHolds.rowsBegun, hHolds.begunIDs,
      hHolds.writeIDs.deleteWhere _, ?_, ?_,
      hHolds.attempts⟩
  · intro other hOther
    exact hHolds.writes other (mem_endWrite hOther).1
  · intro delivered hDelivered
    rcases List.mem_append.mp hDelivered with hNew | hOld
    · have hSound := hHolds.writes write hWrite
      have hReceipt :=
        hSound.receipt delivered (by
          rw [hStage]
          simpa [WriteStage.receipt] using hNew)
      refine
        ⟨hReceipt.2.2,
          ⟨write.asBegun, hSound.begun, hReceipt.1.symm,
            hReceipt.2.1.symm⟩,
          ?_⟩
      intro other hOther
      rw [hReceipt.1]
      exact (mem_endWrite hOther).2
    · have hSound := hHolds.delivered delivered hOld
      refine ⟨hSound.generation, hSound.begun, ?_⟩
      intro other hOther
      exact hSound.ended other (mem_endWrite hOther).1

/- An id is given away, though not that of an early write. -/
theorem issue
    {id : Uuid}
    (hHolds : IsConsistent s)
    (hEarly :
      ∀ write ∈ s.writes,
        write.stage.isEarly = true → write.pendingID ≠ id) :
    IsConsistent
      { s with issuedIDs := id :: s.issuedIDs } := by
  refine
    ⟨hHolds.rowIDs, hHolds.rowReferences, ?_,
      hHolds.rowsBegun, hHolds.begunIDs, hHolds.writeIDs,
      ?_, hHolds.delivered, ?_⟩
  · intro row hRow
    exact List.mem_cons_of_mem _ (hHolds.rowsIssued row hRow)
  · intro write hWrite
    have hSound := hHolds.writes write hWrite
    refine ⟨hSound.begun, ?_, hSound.pending, hSound.receipt⟩
    intro hStage
    rw [List.mem_cons, not_or]
    exact ⟨hEarly write hWrite hStage, hSound.early hStage⟩
  · intro attempt hAttempt
    have hSound := hHolds.attempts attempt hAttempt
    exact
      ⟨hSound.claimed, List.mem_cons_of_mem _ hSound.issued,
        hSound.row⟩

/- A row is inserted under an id that is being issued. -/
theorem insertRow
    {row : PendingDeletion}
    (hHolds : IsConsistent s)
    (hFresh : row.id ∉ s.issuedIDs)
    (hAbsent :
      ∀ old ∈ s.rows, old.reference ≠ row.reference)
    (hBegun :
      ∀ begun ∈ s.begun,
        begun.pendingID = row.id →
          begun.reference = row.reference)
    (hEarly :
      ∀ write ∈ s.writes,
        write.stage.isEarly = true →
          write.pendingID ≠ row.id) :
    IsConsistent
      { s with
        rows := s.rows ++ [row]
        issuedIDs := row.id :: s.issuedIDs } := by
  have hIssued := hHolds.issue hEarly
  refine
    ⟨hIssued.rowIDs.append ?_,
      hIssued.rowReferences.append hAbsent, ?_, ?_,
      hIssued.begunIDs, hIssued.writeIDs, hIssued.writes,
      hIssued.delivered, ?_⟩
  · intro old hOld hID
    apply hFresh
    rw [← hID]
    exact hHolds.rowsIssued old hOld
  · intro other hOther
    rcases List.mem_append.mp hOther with hOld | hNew
    · exact hIssued.rowsIssued other hOld
    · rw [List.mem_singleton.mp hNew]
      exact List.mem_cons_self
  · intro other hOther begun hMember hID
    rcases List.mem_append.mp hOther with hOld | hNew
    · exact hHolds.rowsBegun other hOld begun hMember hID
    · rw [List.mem_singleton.mp hNew] at hID ⊢
      exact hBegun begun hMember hID
  · intro attempt hAttempt
    have hSound := hHolds.attempts attempt hAttempt
    refine
      ⟨hSound.claimed, List.mem_cons_of_mem _ hSound.issued,
        ?_⟩
    intro other hOther hID
    rcases List.mem_append.mp hOther with hOld | hNew
    · exact hSound.row other hOld hID
    · rw [List.mem_singleton.mp hNew] at hID
      exact absurd (hID ▸ hSound.issued) hFresh

end IsConsistent

------------------------------------------------------------
-- Effects Keep the Invariant
------------------------------------------------------------

variable {env : Environment}
variable {s' : State}

/- Rows of a statement on one generation. -/
theorem IsConsistent.setNotBefore
    (hHolds : IsConsistent s)
    (id : Uuid)
    (generation : Nat)
    (notBefore : Time) :
    Aged s.rows
      (setNotBeforeIfGeneration s.rows id generation
        notBefore).1 :=
  aged_updateWhere hHolds.rowIDs hHolds.rowReferences
    fun _ => ⟨rfl, rfl, le_rfl⟩

theorem IsConsistent.complete
    (hHolds : IsConsistent s)
    (id : Uuid)
    (generation : Nat) :
    Aged s.rows
      (completeIfGeneration s.rows id generation).1 :=
  aged_deleteWhere hHolds.rowIDs hHolds.rowReferences _

theorem IsConsistent.started
    (hHolds : IsConsistent s)
    (pending : PendingDeletion)
    (now : Time) :
    Aged s.rows (startAttempt s.rows pending now).1 :=
  aged_updateWhere hHolds.rowIDs hHolds.rowReferences
    fun _ => ⟨rfl, rfl, le_rfl⟩

theorem isConsistent_register
    (hHolds : IsConsistent s)
    (hWrite : write ∈ s.writes)
    (hStage : write.stage = .registering)
    (hAbsent :
      ∀ row ∈ s.rows, row.reference ≠ write.reference)
    {notBefore : Time}
    {stage : WriteStage}
    (hNext :
      stage = .releasing none ∨
        stage = .locating (write.row notBefore)) :
    IsConsistent
      ({ s with
        rows := s.rows ++ [write.row notBefore]
        issuedIDs :=
          write.pendingID :: s.issuedIDs }.setWriteStage
        write stage) := by
  have hSound := hHolds.writes write hWrite
  have hMoved :
      IsConsistent (s.setWriteStage write stage) := by
    apply hHolds.setWriteStage hWrite
    refine ⟨hSound.begun, ?_, ?_, ?_⟩
    · intro hEarly
      rcases hNext with rfl | rfl <;> cases hEarly
    · intro row hRow
      rcases hNext with rfl | rfl
      · cases hRow
      · cases hRow
        exact ⟨rfl, rfl⟩
    · intro receipt hReceipt
      rcases hNext with rfl | rfl <;> cases hReceipt
  refine hMoved.insertRow ?_ ?_ ?_ ?_
  · exact hSound.early (by rw [hStage]; rfl)
  · exact hAbsent
  · intro begun hBegun hID
    rw [hHolds.begunIDs.eq_of_key_eq hBegun hSound.begun
      hID]
    rfl
  · intro other hOther hEarly
    rcases mem_setWriteStage hOther with hOld | rfl
    · exact hOld.2
    · rcases hNext with rfl | rfl <;> cases hEarly

theorem isConsistent_of_writeEffect
    {event : WriteEvent}
    (hHolds : IsConsistent s)
    (hWrite : write ∈ s.writes)
    (hEffect : WriteEffect env s write event s') :
    IsConsistent s' := by
  cases hEffect with
  | pass locks stage hPasses =>
      have hLocked :=
        hHolds.elsewhere s.now locks s.objects s.kept
      exact hLocked.passTo hWrite hPasses
  | register notBefore stage hStage _ hAbsent hNext =>
      apply isConsistent_register hHolds hWrite hStage hAbsent
      rcases hNext with hLost | hAnswered
      · exact Or.inl hLost
      · exact Or.inr hAnswered.2
  | store pending content _ =>
      exact hHolds.elsewhere s.now s.locks _ s.kept
  | save pending hStage =>
      have hStored :
          IsConsistent (storeContent s write write.content) :=
        hHolds.elsewhere s.now s.locks _ s.kept
      have hSound := hHolds.writes write hWrite
      apply hStored.setWriteStage hWrite
      refine ⟨hSound.begun, ?_, ?_, ?_⟩
      · intro hEarly
        cases hEarly
      · intro row hRow
        cases hRow
        exact hSound.pending _ (by rw [hStage]; rfl)
      · intro receipt hReceipt
        cases hReceipt
  | reschedule pending notBefore receipt hPending hNext =>
      have hSound := hHolds.writes write hWrite
      have hRow := hSound.pending pending hPending
      have hRows :=
        hHolds.withRows
          (hHolds.setNotBefore pending.id pending.generation
            notBefore)
      apply hRows.setWriteStage hWrite
      refine ⟨hSound.begun, ?_, ?_, ?_⟩
      · intro hEarly
        cases hEarly
      · intro row hMember
        cases hMember
      · intro held hHeld
        rcases hNext with rfl | ⟨_, rfl⟩
        · cases hHeld
        · cases hHeld
          exact ⟨hRow.1, rfl, hRow.2⟩
  | leave receipt hStage => exact hHolds.endWrite hWrite hStage

theorem isConsistent_of_attemptEffect
    {event : AttemptEvent}
    (hHolds : IsConsistent s)
    (hAttempt : attempt ∈ s.attempts)
    (hEffect : AttemptEffect s attempt event s') :
    IsConsistent s' := by
  cases hEffect with
  | readClock _ => exact hHolds.setAttemptStage hAttempt _
  | start readAt row _ _ _ =>
      have hRows :=
        hHolds.withRows
          (hHolds.started attempt.pending readAt)
      exact hRows.setAttemptStage hAttempt _
  | beginDelete duration _ _ =>
      exact hHolds.setAttemptStage hAttempt _
  | land deadline hasLanded _ _ =>
      have hRemoved :=
        hHolds.elsewhere s.now s.locks
          (removeObject s.objects attempt.pending.reference)
          s.kept
      exact hRemoved.setAttemptStage hAttempt _
  | answer deadline hasLanded stage _ _ =>
      exact hHolds.setAttemptStage hAttempt _
  | leave => exact hHolds.endAttempt attempt
  | leaveStarted readAt =>
      have hRows :=
        hHolds.withRows
          (hHolds.started attempt.pending readAt)
      exact hRows.endAttempt attempt
  | release _ =>
      have hRows :=
        hHolds.withRows
          (hHolds.complete attempt.pending.id
            attempt.pending.generation)
      exact hRows.endAttempt attempt
  | reschedule notBefore =>
      have hRows :=
        hHolds.withRows
          (hHolds.setNotBefore attempt.pending.id
            attempt.pending.generation notBefore)
      exact hRows.endAttempt attempt

/- A claim ages rows, and its attempts hold the new ones. -/
theorem isConsistent_claimPass
    (hHolds : IsConsistent s)
    (processID : Uuid)
    (readAt : Time)
    (lockedIDs : List Uuid) :
    IsConsistent
      (claimPass env s processID readAt lockedIDs) := by
  have hAged :
      Aged s.rows
        (claimPass env s processID readAt lockedIDs).rows :=
    aged_updateWhere hHolds.rowIDs hHolds.rowReferences
      fun row => ⟨rfl, rfl, Nat.le_succ row.generation⟩
  have hRows := hHolds.withRows hAged
  apply hRows.withAttempts
  intro attempt hAttempt
  rcases mem_claimPass hAttempt with
    hOld | ⟨row, hRow, hClaimed, rfl⟩
  · exact hRows.attempts attempt hOld
  · have hStored :
        claimRow (claimRequest env s processID readAt) row ∈
          (claimPass env s processID readAt
            lockedIDs).rows :=
      Table.mem_updateWhere_of_selects hRow
        (decide_eq_true hClaimed)
    refine ⟨Nat.succ_pos _, hHolds.rowsIssued row hRow, ?_⟩
    intro other hOther hID
    rw [hAged.ids.eq_of_key_eq hOther hStored hID]
    exact ⟨rfl, le_rfl⟩

theorem isConsistent_confirmFileWrite
    {receipt : WriteReceipt}
    (hHolds : IsConsistent s)
    (hConfirm : confirmFileWrite s receipt = some s') :
    IsConsistent s' := by
  rcases confirmFileWrite_some hConfirm with ⟨_, rfl⟩
  have hKept :=
    hHolds.elsewhere s.now s.locks s.objects
      (receipt.reference :: s.kept)
  exact
    hKept.withRows
      (hHolds.complete receipt.pendingDeletionID
        receipt.generation)

theorem isConsistent_requestFileDeletion
    {readAt : Time}
    {request : RequestedDeletion}
    (hHolds : IsConsistent s)
    (hFresh : s.IsFresh request.newID) :
    IsConsistent
      (requestFileDeletion env readAt s request) := by
  have hEarly :
      ∀ write ∈ s.writes,
        write.stage.isEarly = true →
          write.pendingID ≠ request.newID := by
    intro write hWrite _
    exact
      hFresh.2 write.asBegun
        (hHolds.writes write hWrite).begun
  have hKept :=
    hHolds.elsewhere s.now s.locks s.objects
      (s.kept.filter fun reference =>
        reference ≠ request.reference)
  have hIssued := hKept.issue hEarly
  unfold requestFileDeletion
  rcases
      insertOrTakeOne_cases env readAt s.rows request with
    ⟨_, hRows⟩ | ⟨_, hRows⟩ | ⟨_, hAbsent, hRows⟩
  · rw [hRows]
    exact hIssued
  · rw [hRows]
    apply hIssued.withRows
    apply aged_updateWhere hHolds.rowIDs hHolds.rowReferences
    intro row
    exact ⟨rfl, rfl, Nat.le_succ row.generation⟩
  · rw [hRows]
    refine hKept.insertRow hFresh.1 hAbsent ?_ hEarly
    intro begun hBegun hID
    exact absurd hID (hFresh.2 begun hBegun)

/- A new write has an id that nothing else has. -/
theorem isConsistent_writeFile
    (hHolds : IsConsistent s)
    (hFresh : s.IsFresh write.pendingID)
    (hStage : write.stage = .protecting) :
    IsConsistent
      { s with
        writes := write :: s.writes
        begun := write.asBegun :: s.begun } := by
  have hNewBegun :
      Table.UniqueBy BegunWrite.pendingID
        (write.asBegun :: s.begun) := by
    apply List.nodup_cons.mpr
    refine ⟨?_, hHolds.begunIDs⟩
    intro hMember
    rcases List.mem_map.mp hMember with ⟨begun, hBegun, hID⟩
    exact hFresh.2 begun hBegun hID
  have hNewWrites :
      Table.UniqueBy Write.pendingID
        (write :: s.writes) := by
    apply List.nodup_cons.mpr
    refine ⟨?_, hHolds.writeIDs⟩
    intro hMember
    rcases List.mem_map.mp hMember with ⟨other, hOther, hID⟩
    exact
      hFresh.2 other.asBegun
        (hHolds.writes other hOther).begun hID
  refine
    ⟨hHolds.rowIDs, hHolds.rowReferences, hHolds.rowsIssued,
      ?_, hNewBegun, hNewWrites, ?_, ?_, hHolds.attempts⟩
  · intro row hRow begun hBegun hID
    rcases List.mem_cons.mp hBegun with rfl | hOld
    · have hIssued := hHolds.rowsIssued row hRow
      rw [← hID] at hIssued
      exact absurd hIssued hFresh.1
    · exact hHolds.rowsBegun row hRow begun hOld hID
  · intro other hOther
    rcases List.mem_cons.mp hOther with rfl | hOld
    · refine ⟨List.mem_cons_self, fun _ => hFresh.1, ?_, ?_⟩
      · intro row hRow
        rw [hStage] at hRow
        cases hRow
      · intro receipt hReceipt
        rw [hStage] at hReceipt
        cases hReceipt
    · have hSound := hHolds.writes other hOld
      exact
        ⟨List.mem_cons_of_mem _ hSound.begun, hSound.early,
          hSound.pending, hSound.receipt⟩
  · intro receipt hReceipt
    have hSound := hHolds.delivered receipt hReceipt
    rcases hSound.begun with ⟨begun, hBegun, hID, hName⟩
    refine
      ⟨hSound.generation,
        ⟨begun, List.mem_cons_of_mem _ hBegun, hID, hName⟩,
        ?_⟩
    intro other hOther
    rcases List.mem_cons.mp hOther with rfl | hOld
    · rw [← hID]
      exact (hFresh.2 begun hBegun).symm
    · exact hSound.ended other hOld

theorem isConsistent_crash
    (hHolds : IsConsistent s)
    (processID : Uuid) :
    IsConsistent (crash s processID) := by
  refine
    ⟨hHolds.rowIDs, hHolds.rowReferences, hHolds.rowsIssued,
      hHolds.rowsBegun, hHolds.begunIDs,
      hHolds.writeIDs.deleteWhere _, ?_, ?_, ?_⟩
  · intro write hWrite
    rw [crash, Table.mem_deleteWhere_iff] at hWrite
    exact hHolds.writes write hWrite.1
  · intro receipt hReceipt
    have hSound := hHolds.delivered receipt hReceipt
    refine ⟨hSound.generation, hSound.begun, ?_⟩
    intro write hWrite
    rw [crash, Table.mem_deleteWhere_iff] at hWrite
    exact hSound.ended write hWrite.1
  · intro attempt hAttempt
    rw [crash, Table.mem_deleteWhere_iff] at hAttempt
    exact hHolds.attempts attempt hAttempt.1

theorem isConsistent_of_effect
    {action : Action}
    (hHolds : IsConsistent s)
    (hEffect : Effect env s action s') :
    IsConsistent s' := by
  cases hEffect with
  | tick later _ =>
      exact hHolds.elsewhere later s.locks s.objects s.kept
  | loseSession processID =>
      exact hHolds.elsewhere s.now _ s.objects s.kept
  | crash processID => exact isConsistent_crash hHolds processID
  | writeFile processID pendingID reference content hFresh =>
      exact isConsistent_writeFile hHolds hFresh rfl
  | write write event hFound _ hWrite =>
      exact
        isConsistent_of_writeEffect hHolds
          (List.mem_of_find?_eq_some hFound) hWrite
  | confirmFileWrites receipts hDelivered hConfirm =>
      apply
        confirmFileWrites_induction _ receipts hDelivered
          hConfirm hHolds
      intro s s' receipt hBefore _ hOne
      exact isConsistent_confirmFileWrite hBefore hOne
  | requestFileDeletions readAt requests hNodup hFresh =>
      apply
        requestFileDeletions_induction _
          (deduplicateReferences requests) hNodup hFresh
          hHolds
      intro s request hBefore hNew
      exact isConsistent_requestFileDeletion hBefore hNew
  | claimDue processID readAt lockedIDs _ =>
      exact isConsistent_claimPass hHolds _ _ _
  | attempt attempt event hAttempt _ hCall =>
      exact isConsistent_of_attemptEffect hHolds hAttempt hCall

/- Nothing is registered at first. -/
theorem isConsistent_initialState
    (now : Time) :
    IsConsistent (initialState now) := by
  constructor <;> simp [initialState, Table.UniqueBy]

end Files

end Storages

end Databasus
