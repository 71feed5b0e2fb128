import Databasus.Storages.Files.Consistency

/-
  No stored file is without somebody who knows of it.

  An object is kept, or has a row, or is being written.  It
  stays so as long as no claim takes the row of a write that
  has not finished its upload.

  Main declarations:
    * `LeaksNothing`
    * `SparesUploads`
    * `LeakInvariant`
    * `leakInvariant_of_effect`
    * `no_stored_file_is_leaked`
-/

------------------------------------------------------------
-- Tracked Objects
------------------------------------------------------------

namespace Databasus

namespace Storages

namespace Files

open Foundation

def HasRow
    (s : State)
    (reference : StoredFileReference) : Prop :=
  ∃ row ∈ s.rows, row.reference = reference

instance instDecidableHasRow
    (s : State)
    (reference : StoredFileReference) :
    Decidable (HasRow s reference) :=
  inferInstanceAs (Decidable (∃ row ∈ s.rows, _))

/- A live write has not finished storing the file. -/
def IsBeingWritten
    (s : State)
    (reference : StoredFileReference) : Prop :=
  ∃ write ∈ s.writes,
    write.reference = reference ∧
      write.stage.isUploading = true

instance instDecidableIsBeingWritten
    (s : State)
    (reference : StoredFileReference) :
    Decidable (IsBeingWritten s reference) :=
  inferInstanceAs (Decidable (∃ write ∈ s.writes, _))

def LeaksNothing (s : State) : Prop :=
  ∀ object ∈ s.objects,
    object.reference ∈ s.kept ∨
      HasRow s object.reference ∨
        IsBeingWritten s object.reference

instance instDecidableLeaksNothing
    (s : State) : Decidable (LeaksNothing s) :=
  inferInstanceAs (Decidable (∀ object ∈ s.objects, _))

/- No claim takes the row of a write that is uploading. -/
def SparesUploads
    (env : Environment)
    (s : State) : Action → Prop
  | .claimDue processID readAt lockedIDs =>
      ∀ write ∈ s.writes,
        write.stage.isUploading = true →
          write.pendingID ∉
            claimedIDs (claimRequest env s processID readAt)
              (isProtected s) lockedIDs s.rows
  | _ => True

instance instDecidableSparesUploads
    (env : Environment)
    (s : State)
    (action : Action) :
    Decidable (SparesUploads env s action) := by
  unfold SparesUploads
  cases action <;> infer_instance

------------------------------------------------------------
-- The Invariant
------------------------------------------------------------

variable {rows : List PendingDeletion}
variable {selects : PendingDeletion → Bool}
variable {change : PendingDeletion → PendingDeletion}

/- The provider has removed the object for the attempt. -/
def AttemptStage.hasLanded : AttemptStage → Bool
  | .deleting _ hasLanded => hasLanded
  | .deleted => true
  | _ => false

structure LeakInvariant
    (env : Environment)
    (s : State) : Prop where
  consistent : IsConsistent s
  rowsValid : ∀ row ∈ s.rows, env.isValid row.reference
  objectsValid :
    ∀ object ∈ s.objects, env.isValid object.reference
  tracked :
    ∀ object ∈ s.objects,
      object.reference ∈ s.kept ∨
        HasRow s object.reference
  uploads :
    ∀ write ∈ s.writes,
      write.stage.isUploading = true →
        (∃ row ∈ s.rows, row.id = write.pendingID) ∧
          ∀ attempt ∈ s.attempts,
            attempt.pending.id ≠ write.pendingID
  landed :
    ∀ attempt ∈ s.attempts,
      attempt.stage.hasLanded = true →
        ∀ row ∈ s.rows,
          attempt.isOf row.id row.generation = true →
            ∀ object ∈ s.objects,
              object.reference ≠ attempt.pending.reference

variable {env : Environment}
variable {s s' : State}
variable {write : Write}
variable {attempt : Attempt}

theorem LeakInvariant.leaksNothing
    (hHolds : LeakInvariant env s) :
    LeaksNothing s := by
  intro object hObject
  rcases hHolds.tracked object hObject with hKept | hRow
  · exact Or.inl hKept
  · exact Or.inr (Or.inl hRow)

/- An update has every row succeeded by an aged one. -/
theorem succeeded_updateWhere
    (hChange : ∀ row, AgedFrom row (change row))
    {row : PendingDeletion}
    (hRow : row ∈ rows) :
    ∃ later ∈ Table.updateWhere selects change rows,
      AgedFrom row later := by
  by_cases hSelects : selects row = true
  · exact
      ⟨change row,
        Table.mem_updateWhere_of_selects hRow hSelects,
        hChange row⟩
  · refine
      ⟨row, Table.mem_updateWhere_of_not hRow ?_, rfl, rfl,
        le_rfl⟩
    simpa using hSelects

namespace LeakInvariant

/- Rows age or go, but none that is still relied on. -/
theorem withRows
    (hHolds : LeakInvariant env s)
    (hAged : Aged s.rows rows)
    (hTracked :
      ∀ object ∈ s.objects,
        object.reference ∈ s.kept ∨
          ∃ row ∈ rows, row.reference = object.reference)
    (hUploads :
      ∀ write ∈ s.writes,
        write.stage.isUploading = true →
          ∃ row ∈ rows, row.id = write.pendingID) :
    LeakInvariant env { s with rows := rows } := by
  refine
    ⟨hHolds.consistent.withRows hAged, ?_,
      hHolds.objectsValid, hTracked, ?_, ?_⟩
  · intro row hRow
    rcases hAged.from_ row hRow with ⟨old, hOld, hFrom⟩
    rw [hFrom.reference]
    exact hHolds.rowsValid old hOld
  · intro write hWrite hUploading
    exact
      ⟨hUploads write hWrite hUploading,
        (hHolds.uploads write hWrite hUploading).2⟩
  · intro attempt hAttempt hLanded row hRow hIsOf
    rcases hAged.from_ row hRow with ⟨old, hOld, hFrom⟩
    apply hHolds.landed attempt hAttempt hLanded old hOld
    rw [Attempt.isOf, isAtGeneration_iff] at hIsOf ⊢
    have hID := hIsOf.1.trans hFrom.id
    have hSound :=
      (hHolds.consistent.attempts attempt hAttempt).row old
        hOld hID.symm
    have hGeneration := hFrom.generation
    exact ⟨hID, by omega⟩

theorem updateRows
    (hHolds : LeakInvariant env s)
    (hChange : ∀ row, AgedFrom row (change row)) :
    LeakInvariant env
      { s with
        rows := Table.updateWhere selects change s.rows } := by
  apply hHolds.withRows
  · exact
      aged_updateWhere hHolds.consistent.rowIDs
        hHolds.consistent.rowReferences hChange
  · intro object hObject
    rcases hHolds.tracked object hObject with
      hKept | ⟨row, hRow, hName⟩
    · exact Or.inl hKept
    · rcases succeeded_updateWhere hChange hRow with
        ⟨later, hLater, hFrom⟩
      exact Or.inr ⟨later, hLater, hFrom.reference.trans hName⟩
  · intro write hWrite hUploading
    rcases (hHolds.uploads write hWrite hUploading).1 with
      ⟨row, hRow, hID⟩
    rcases succeeded_updateWhere hChange hRow with
      ⟨later, hLater, hFrom⟩
    exact ⟨later, hLater, hFrom.id.trans hID⟩

theorem setNotBefore
    (hHolds : LeakInvariant env s)
    (id : Uuid)
    (generation : Nat)
    (notBefore : Time) :
    LeakInvariant env
      { s with
        rows :=
          (setNotBeforeIfGeneration s.rows id generation
            notBefore).1 } :=
  hHolds.updateRows fun _ => ⟨rfl, rfl, le_rfl⟩

/- Attempts go, or move on without having landed. -/
theorem withAttempts
    {attempts : List Attempt}
    (hHolds : LeakInvariant env s)
    (hFrom :
      ∀ attempt ∈ attempts,
        ∃ old ∈ s.attempts,
          old.pending = attempt.pending ∧
            (attempt.stage.hasLanded = true →
              old.stage.hasLanded = true)) :
    LeakInvariant env { s with attempts := attempts } := by
  refine
    ⟨hHolds.consistent.withAttempts ?_, hHolds.rowsValid,
      hHolds.objectsValid, hHolds.tracked, ?_, ?_⟩
  · intro attempt hAttempt
    rcases hFrom attempt hAttempt with
      ⟨old, hOld, hPending, _⟩
    have hSound := hHolds.consistent.attempts old hOld
    refine ⟨?_, ?_, ?_⟩ <;> rw [← hPending]
    · exact hSound.claimed
    · exact hSound.issued
    · exact hSound.row
  · intro write hWrite hUploading
    have hUpload := hHolds.uploads write hWrite hUploading
    refine ⟨hUpload.1, ?_⟩
    intro attempt hAttempt
    rcases hFrom attempt hAttempt with
      ⟨old, hOld, hPending, _⟩
    rw [← hPending]
    exact hUpload.2 old hOld
  · intro attempt hAttempt hLanded row hRow hIsOf
    rcases hFrom attempt hAttempt with
      ⟨old, hOld, hPending, hBefore⟩
    rw [Attempt.isOf, ← hPending] at hIsOf
    rw [← hPending]
    exact
      hHolds.landed old hOld (hBefore hLanded) row hRow hIsOf

theorem setAttemptStage
    {stage : AttemptStage}
    (hHolds : LeakInvariant env s)
    (hAttempt : attempt ∈ s.attempts)
    (hLanded :
      stage.hasLanded = true →
        attempt.stage.hasLanded = true) :
    LeakInvariant env (s.setAttemptStage attempt stage) := by
  apply hHolds.withAttempts
  intro other hOther
  rcases mem_setAttemptStage hOther with hOld | rfl
  · exact ⟨other, hOld.1, rfl, fun h => h⟩
  · exact ⟨attempt, hAttempt, rfl, hLanded⟩

theorem endAttempt
    (hHolds : LeakInvariant env s)
    (attempt : Attempt) :
    LeakInvariant env (s.endAttempt attempt) := by
  apply hHolds.withAttempts
  intro other hOther
  exact ⟨other, (mem_endAttempt hOther).1, rfl, fun h => h⟩

/- Writes go, or move on without a new upload. -/
theorem withWrites
    {writes : List Write}
    {delivered : List WriteReceipt}
    (hHolds : LeakInvariant env s)
    (hConsistent :
      IsConsistent
        { s with
          writes := writes
          delivered := delivered })
    (hFrom :
      ∀ write ∈ writes,
        write.stage.isUploading = true →
          ∃ old ∈ s.writes,
            old.pendingID = write.pendingID ∧
              old.stage.isUploading = true) :
    LeakInvariant env
      { s with
        writes := writes
        delivered := delivered } := by
  refine
    ⟨hConsistent, hHolds.rowsValid, hHolds.objectsValid,
      hHolds.tracked, ?_, hHolds.landed⟩
  intro write hWrite hUploading
  rcases hFrom write hWrite hUploading with
    ⟨old, hOld, hID, hBefore⟩
  rw [← hID]
  exact hHolds.uploads old hOld hBefore

theorem setWriteStage
    {stage : WriteStage}
    (hHolds : LeakInvariant env s)
    (hWrite : write ∈ s.writes)
    (hConsistent :
      IsConsistent (s.setWriteStage write stage))
    (hUploading :
      stage.isUploading = true →
        write.stage.isUploading = true) :
    LeakInvariant env (s.setWriteStage write stage) := by
  apply hHolds.withWrites hConsistent
  intro other hOther hStage
  rcases mem_setWriteStage hOther with hOld | rfl
  · exact ⟨other, hOld.1, rfl, hStage⟩
  · exact ⟨write, hWrite, rfl, hUploading hStage⟩

end LeakInvariant

------------------------------------------------------------
-- Calls of a Write
------------------------------------------------------------

theorem mem_putObject
    {objects : List StoredObject}
    {object other : StoredObject}
    (hOther : other ∈ putObject objects object) :
    other = object ∨ other ∈ objects := by
  rcases List.mem_cons.mp hOther with hNew | hOld
  · exact Or.inl hNew
  · exact Or.inr ((Table.mem_deleteWhere_iff _ _ _).mp hOld).1

/-
  The file of an upload has its row, which no attempt is for;
  so what is stored is tracked, and no delete has landed.
-/
theorem leakInvariant_store
    (hHolds : LeakInvariant env s)
    (hWrite : write ∈ s.writes)
    (hUploading : write.stage.isUploading = true)
    (content : Bytes) :
    LeakInvariant env (storeContent s write content) := by
  have hConsistent := hHolds.consistent
  rcases hHolds.uploads write hWrite hUploading with
    ⟨⟨row, hRow, hID⟩, hAlone⟩
  have hName : row.reference = write.reference :=
    (hConsistent.rowsBegun row hRow write.asBegun
      (hConsistent.writes write hWrite).begun hID.symm).symm
  refine
    ⟨hConsistent.elsewhere s.now s.locks _ s.kept,
      hHolds.rowsValid, ?_, ?_, hHolds.uploads, ?_⟩
  · intro object hObject
    rcases mem_putObject hObject with rfl | hOld
    · change env.isValid write.reference
      rw [← hName]
      exact hHolds.rowsValid row hRow
    · exact hHolds.objectsValid object hOld
  · intro object hObject
    rcases mem_putObject hObject with rfl | hOld
    · exact Or.inr ⟨row, hRow, hName⟩
    · exact hHolds.tracked object hOld
  · intro attempt hAttempt hLanded other hOther hIsOf object
      hObject
    rcases mem_putObject hObject with rfl | hOld
    · intro hSame
      rw [Attempt.isOf, isAtGeneration_iff] at hIsOf
      have hSound :=
        (hConsistent.attempts attempt hAttempt).row other
          hOther hIsOf.1.symm
      have hOne : other = row :=
        hConsistent.rowReferences.eq_of_key_eq hOther hRow
          (hSound.1.trans (hSame.symm.trans hName.symm))
      apply hAlone attempt hAttempt
      rw [hIsOf.1, hOne]
      exact hID
    · exact
        hHolds.landed attempt hAttempt hLanded other hOther
          hIsOf object hOld

theorem leakInvariant_register
    {notBefore : Time}
    {stage : WriteStage}
    (hHolds : LeakInvariant env s)
    (hWrite : write ∈ s.writes)
    (hStage : write.stage = .registering)
    (hValid : env.isValid write.reference)
    (hConsistent :
      IsConsistent
        ({ s with
          rows := s.rows ++ [write.row notBefore]
          issuedIDs :=
            write.pendingID :: s.issuedIDs }.setWriteStage
          write stage)) :
    LeakInvariant env
      ({ s with
        rows := s.rows ++ [write.row notBefore]
        issuedIDs :=
          write.pendingID :: s.issuedIDs }.setWriteStage
        write stage) := by
  have hUnclaimed :
      ∀ attempt ∈ s.attempts,
        attempt.pending.id ≠ write.pendingID := by
    intro attempt hAttempt hID
    have hIssued :=
      (hHolds.consistent.attempts attempt hAttempt).issued
    rw [hID] at hIssued
    exact
      (hHolds.consistent.writes write hWrite).early
        (by rw [hStage]; rfl) hIssued
  refine ⟨hConsistent, ?_, hHolds.objectsValid, ?_, ?_, ?_⟩
  · intro row hRow
    rcases List.mem_append.mp hRow with hOld | hNew
    · exact hHolds.rowsValid row hOld
    · rw [List.mem_singleton.mp hNew]
      exact hValid
  · intro object hObject
    rcases hHolds.tracked object hObject with
      hKept | ⟨row, hRow, hName⟩
    · exact Or.inl hKept
    · exact Or.inr ⟨row, List.mem_append_left _ hRow, hName⟩
  · intro other hOther hUploading
    rcases mem_setWriteStage hOther with hOld | rfl
    · rcases hHolds.uploads other hOld.1 hUploading with
        ⟨⟨row, hRow, hID⟩, hAlone⟩
      exact ⟨⟨row, List.mem_append_left _ hRow, hID⟩, hAlone⟩
    · refine ⟨⟨write.row notBefore, ?_, rfl⟩, hUnclaimed⟩
      exact List.mem_append_right _ (List.mem_singleton_self _)
  · intro attempt hAttempt hLanded row hRow hIsOf
    rcases List.mem_append.mp hRow with hOld | hNew
    · exact
        hHolds.landed attempt hAttempt hLanded row hOld hIsOf
    · rw [List.mem_singleton.mp hNew, Attempt.isOf,
        isAtGeneration_iff] at hIsOf
      exact absurd hIsOf.1 (hUnclaimed attempt hAttempt)

theorem leakInvariant_of_writeEffect
    {event : WriteEvent}
    (hHolds : LeakInvariant env s)
    (hWrite : write ∈ s.writes)
    (hEffect : WriteEffect env s write event s') :
    LeakInvariant env s' := by
  have hConsistent :=
    isConsistent_of_writeEffect hHolds.consistent hWrite
      hEffect
  cases hEffect with
  | pass locks stage hPasses =>
      have hLocked :
          LeakInvariant env { s with locks := locks } :=
        ⟨hHolds.consistent.elsewhere s.now locks s.objects
            s.kept,
          hHolds.rowsValid, hHolds.objectsValid,
          hHolds.tracked, hHolds.uploads, hHolds.landed⟩
      exact
        hLocked.setWriteStage hWrite hConsistent
          hPasses.uploading
  | register notBefore stage hStage hValid _ _ =>
      exact
        leakInvariant_register hHolds hWrite hStage hValid
          hConsistent
  | store pending content hStage =>
      exact
        leakInvariant_store hHolds hWrite
          (by rw [hStage]; rfl) content
  | save pending hStage =>
      have hStored :=
        leakInvariant_store hHolds hWrite
          (by rw [hStage]; rfl) write.content
      apply hStored.setWriteStage hWrite hConsistent
      intro hUploading
      cases hUploading
  | reschedule pending notBefore receipt _ _ =>
      have hRows :=
        hHolds.setNotBefore pending.id pending.generation
          notBefore
      apply hRows.setWriteStage hWrite hConsistent
      intro hUploading
      cases hUploading
  | leave receipt _ =>
      apply hHolds.withWrites hConsistent
      intro other hOther hUploading
      have hOld :=
        ((Table.mem_deleteWhere_iff _ _ _).mp hOther).1
      exact ⟨other, hOld, rfl, hUploading⟩

------------------------------------------------------------
-- Calls of an Attempt
------------------------------------------------------------

variable {attempt : Attempt}

/- A delete that lands leaves nothing under the name. -/
theorem leakInvariant_land
    {deadline : Time}
    (hHolds : LeakInvariant env s)
    (hAttempt : attempt ∈ s.attempts) :
    LeakInvariant env
      ({ s with
        objects :=
          removeObject s.objects
            attempt.pending.reference }.setAttemptStage
        attempt (.deleting deadline true)) := by
  have hRemain :
      ∀ object ∈
          removeObject s.objects attempt.pending.reference,
        object ∈ s.objects ∧
          object.reference ≠ attempt.pending.reference := by
    intro object hObject
    rcases (Table.mem_deleteWhere_iff _ _ _).mp hObject with
      ⟨hOld, hSelects⟩
    exact ⟨hOld, of_decide_eq_false hSelects⟩
  have hConsistent :=
    (hHolds.consistent.elsewhere s.now s.locks
      (removeObject s.objects attempt.pending.reference)
      s.kept).setAttemptStage hAttempt
      (.deleting deadline true)
  refine ⟨hConsistent, hHolds.rowsValid, ?_, ?_, ?_, ?_⟩
  · intro object hObject
    exact hHolds.objectsValid object (hRemain object hObject).1
  · intro object hObject
    exact hHolds.tracked object (hRemain object hObject).1
  · intro write hWrite hUploading
    have hUpload := hHolds.uploads write hWrite hUploading
    refine ⟨hUpload.1, ?_⟩
    intro other hOther
    rcases mem_setAttemptStage hOther with hOld | rfl
    · exact hUpload.2 other hOld.1
    · exact hUpload.2 attempt hAttempt
  · intro other hOther hLanded row hRow hIsOf object hObject
    rcases mem_setAttemptStage hOther with hOld | rfl
    · exact
        hHolds.landed other hOld.1 hLanded row hRow hIsOf
          object (hRemain object hObject).1
    · exact (hRemain object hObject).2

/-
  The row of a landed attempt goes: nothing is stored under
  its name, and no upload relies on it.
-/
theorem leakInvariant_release
    (hHolds : LeakInvariant env s)
    (hAttempt : attempt ∈ s.attempts)
    (hStage : attempt.stage = .deleted) :
    LeakInvariant env
      { s with
        rows :=
          (completeIfGeneration s.rows attempt.pending.id
            attempt.pending.generation).1 } := by
  have hStays :
      ∀ row ∈ s.rows,
        isAtGeneration attempt.pending.id
            attempt.pending.generation row =
          false →
          row ∈
            (completeIfGeneration s.rows attempt.pending.id
              attempt.pending.generation).1 :=
    fun row hRow hSelects =>
      (Table.mem_deleteWhere_iff _ _ _).mpr
        ⟨hRow, hSelects⟩
  apply hHolds.withRows
  · exact hHolds.consistent.complete _ _
  · intro object hObject
    rcases hHolds.tracked object hObject with
      hKept | ⟨row, hRow, hName⟩
    · exact Or.inl hKept
    · refine Or.inr ⟨row, hStays row hRow ?_, hName⟩
      by_contra hSelects
      rw [Bool.not_eq_false, isAtGeneration_iff] at hSelects
      have hSound :=
        (hHolds.consistent.attempts attempt hAttempt).row row
          hRow hSelects.1
      have hAbsent :=
        hHolds.landed attempt hAttempt (by rw [hStage]; rfl)
          row hRow
          (isAtGeneration_iff.mpr
            ⟨hSelects.1.symm, hSelects.2.symm⟩)
          object hObject
      exact hAbsent (hName.symm.trans hSound.1)
  · intro write hWrite hUploading
    rcases hHolds.uploads write hWrite hUploading with
      ⟨⟨row, hRow, hID⟩, hAlone⟩
    refine ⟨row, hStays row hRow ?_, hID⟩
    by_contra hSelects
    rw [Bool.not_eq_false, isAtGeneration_iff] at hSelects
    exact hAlone attempt hAttempt (hSelects.1.symm.trans hID)

theorem leakInvariant_of_attemptEffect
    {event : AttemptEvent}
    (hHolds : LeakInvariant env s)
    (hAttempt : attempt ∈ s.attempts)
    (hEffect : AttemptEffect s attempt event s') :
    LeakInvariant env s' := by
  have hStarted :
      ∀ readAt : Time,
        LeakInvariant env
          { s with
            rows :=
              (startAttempt s.rows attempt.pending
                readAt).1 } :=
    fun _ => hHolds.updateRows fun _ => ⟨rfl, rfl, le_rfl⟩
  cases hEffect with
  | readClock _ =>
      apply hHolds.setAttemptStage hAttempt
      intro hLanded
      cases hLanded
  | start readAt row _ _ _ =>
      apply (hStarted readAt).setAttemptStage hAttempt
      intro hLanded
      cases hLanded
  | beginDelete duration _ _ =>
      apply hHolds.setAttemptStage hAttempt
      intro hLanded
      cases hLanded
  | land deadline hasLanded _ _ =>
      exact leakInvariant_land hHolds hAttempt
  | answer deadline hasLanded stage hStage hNext =>
      apply hHolds.setAttemptStage hAttempt
      intro hLanded
      rw [hStage]
      rcases hNext with rfl | ⟨rfl, hBefore⟩
      · cases hLanded
      · exact hBefore
  | leave => exact hHolds.endAttempt attempt
  | leaveStarted readAt =>
      exact (hStarted readAt).endAttempt attempt
  | release hStage =>
      have hReleased :=
        leakInvariant_release hHolds hAttempt hStage
      exact hReleased.endAttempt attempt
  | reschedule notBefore =>
      have hRows :=
        hHolds.setNotBefore attempt.pending.id
          attempt.pending.generation notBefore
      exact hRows.endAttempt attempt

------------------------------------------------------------
-- Publication, Requests and Claims
------------------------------------------------------------

variable {readAt : Time}

/- A confirmed receipt turns its row into a kept file. -/
theorem leakInvariant_confirmFileWrite
    {receipt : WriteReceipt}
    (hHolds : LeakInvariant env s)
    (hReceipt : receipt ∈ s.delivered)
    (hConfirm : confirmFileWrite s receipt = some s') :
    LeakInvariant env s' := by
  have hConsistent := hHolds.consistent
  have hSound := hConsistent.delivered receipt hReceipt
  rcases confirmFileWrite_some hConfirm with ⟨_, rfl⟩
  rcases hSound.begun with ⟨begun, hBegun, hID, hName⟩
  have hKept :
      LeakInvariant env
        { s with
          kept := receipt.reference :: s.kept } := by
    refine
      ⟨hConsistent.elsewhere s.now s.locks s.objects _,
        hHolds.rowsValid, hHolds.objectsValid, ?_,
        hHolds.uploads, hHolds.landed⟩
    intro object hObject
    rcases hHolds.tracked object hObject with hOld | hRow
    · exact Or.inl (List.mem_cons_of_mem _ hOld)
    · exact Or.inr hRow
  apply hKept.withRows
  · exact hConsistent.complete _ _
  · intro object hObject
    rcases hKept.tracked object hObject with
      hOld | ⟨row, hRow, hObjectName⟩
    · exact Or.inl hOld
    · by_cases hSelects :
          isAtGeneration receipt.pendingDeletionID
              receipt.generation row =
            true
      · have hRowID := (isAtGeneration_iff.mp hSelects).1
        have hRowName :=
          hConsistent.rowsBegun row hRow begun hBegun
            (hID.trans hRowID.symm)
        rw [← hObjectName, ← hRowName, hName]
        exact Or.inl List.mem_cons_self
      · refine Or.inr ⟨row, ?_, hObjectName⟩
        exact
          (Table.mem_deleteWhere_iff _ _ _).mpr
            ⟨hRow, by simpa using hSelects⟩
  · intro write hWrite hUploading
    rcases (hHolds.uploads write hWrite hUploading).1 with
      ⟨row, hRow, hRowID⟩
    refine ⟨row, ?_, hRowID⟩
    apply (Table.mem_deleteWhere_iff _ _ _).mpr
    refine ⟨hRow, ?_⟩
    by_contra hSelects
    rw [Bool.not_eq_false, isAtGeneration_iff] at hSelects
    exact
      hSound.ended write hWrite
        (hRowID.symm.trans hSelects.1)

/- A file may be forgotten that has a row. -/
theorem LeakInvariant.forget
    {reference : StoredFileReference}
    (hHolds : LeakInvariant env s)
    (hRow : env.isValid reference → HasRow s reference) :
    LeakInvariant env
      { s with
        kept :=
          s.kept.filter fun other => other ≠ reference } := by
  refine
    ⟨hHolds.consistent.elsewhere s.now s.locks s.objects _,
      hHolds.rowsValid, hHolds.objectsValid, ?_,
      hHolds.uploads, hHolds.landed⟩
  intro object hObject
  by_cases hSame : object.reference = reference
  · have hValid := hHolds.objectsValid object hObject
    rw [hSame] at hValid ⊢
    exact Or.inr (hRow hValid)
  · rcases hHolds.tracked object hObject with hKept | hTracked
    · refine Or.inl (List.mem_filter.mpr ⟨hKept, ?_⟩)
      exact decide_eq_true hSame
    · exact Or.inr hTracked

/- A requested file that has no row yet gets one. -/
theorem leakInvariant_insert
    {row : PendingDeletion}
    (hHolds : LeakInvariant env s)
    (hFresh : s.IsFresh row.id)
    (hValid : env.isValid row.reference)
    (hConsistent :
      IsConsistent
        { s with
          rows := s.rows ++ [row]
          issuedIDs := row.id :: s.issuedIDs }) :
    LeakInvariant env
      { s with
        rows := s.rows ++ [row]
        issuedIDs := row.id :: s.issuedIDs } := by
  refine ⟨hConsistent, ?_, hHolds.objectsValid, ?_, ?_, ?_⟩
  · intro other hOther
    rcases List.mem_append.mp hOther with hOld | hNew
    · exact hHolds.rowsValid other hOld
    · rw [List.mem_singleton.mp hNew]
      exact hValid
  · intro object hObject
    rcases hHolds.tracked object hObject with
      hKept | ⟨old, hOld, hName⟩
    · exact Or.inl hKept
    · exact Or.inr ⟨old, List.mem_append_left _ hOld, hName⟩
  · intro write hWrite hUploading
    rcases hHolds.uploads write hWrite hUploading with
      ⟨⟨old, hOld, hID⟩, hAlone⟩
    exact ⟨⟨old, List.mem_append_left _ hOld, hID⟩, hAlone⟩
  · intro attempt hAttempt hLanded other hOther hIsOf
    rcases List.mem_append.mp hOther with hOld | hNew
    · exact
        hHolds.landed attempt hAttempt hLanded other hOld
          hIsOf
    · rw [List.mem_singleton.mp hNew, Attempt.isOf,
        isAtGeneration_iff] at hIsOf
      have hIssued :=
        (hHolds.consistent.attempts attempt hAttempt).issued
      rw [hIsOf.1] at hIssued
      exact absurd hIssued hFresh.1

/- A file that is no longer kept gets a row. -/
theorem leakInvariant_requestFileDeletion
    {request : RequestedDeletion}
    (hHolds : LeakInvariant env s)
    (hFresh : s.IsFresh request.newID) :
    LeakInvariant env
      (requestFileDeletion env readAt s request) := by
  have hConsistent := hHolds.consistent
  have hAfter :
      IsConsistent
        (requestFileDeletion env readAt s request) :=
    isConsistent_requestFileDeletion hConsistent hFresh
  have hBefore :=
    hAfter.elsewhere s.now s.locks s.objects s.kept
  unfold requestFileDeletion at hBefore ⊢
  rcases
      insertOrTakeOne_cases env readAt s.rows request with
    ⟨hVoid, hRows⟩ | ⟨⟨row, hRow, hName⟩, hRows⟩ |
      ⟨hValid, _, hRows⟩
  · rw [hRows] at hBefore ⊢
    have hIssued :
        LeakInvariant env
          { s with
            issuedIDs := request.newID :: s.issuedIDs } :=
      ⟨hBefore, hHolds.rowsValid, hHolds.objectsValid,
        hHolds.tracked, hHolds.uploads, hHolds.landed⟩
    exact hIssued.forget fun hValid => absurd hValid hVoid
  · rw [hRows] at hBefore ⊢
    have hChange :
        ∀ row : PendingDeletion,
          AgedFrom row (takeRow readAt row) :=
      fun row => ⟨rfl, rfl, Nat.le_succ row.generation⟩
    have hTaken :
        LeakInvariant env
          { s with
            rows :=
              Table.updateWhere
                (fun row => row.reference = request.reference)
                (takeRow readAt) s.rows } :=
      hHolds.updateRows hChange
    have hIssued :
        LeakInvariant env
          { s with
            rows :=
              Table.updateWhere
                (fun row => row.reference = request.reference)
                (takeRow readAt) s.rows
            issuedIDs := request.newID :: s.issuedIDs } :=
      ⟨hBefore, hTaken.rowsValid, hTaken.objectsValid,
        hTaken.tracked, hTaken.uploads, hTaken.landed⟩
    apply hIssued.forget
    intro _
    rcases succeeded_updateWhere hChange hRow with
      ⟨later, hLater, hFrom⟩
    exact ⟨later, hLater, hFrom.reference.trans hName⟩
  · rw [hRows] at hBefore ⊢
    have hInserted :=
      leakInvariant_insert hHolds hFresh hValid hBefore
    apply hInserted.forget
    intro _
    exact
      ⟨_, List.mem_append_right _ (List.mem_singleton_self _),
        rfl⟩

/- A claim that spares uploads only raises generations. -/
theorem leakInvariant_claimPass
    {processID : Uuid}
    {lockedIDs : List Uuid}
    (hHolds : LeakInvariant env s)
    (hSpares :
      SparesUploads env s
        (.claimDue processID readAt lockedIDs)) :
    LeakInvariant env
      (claimPass env s processID readAt lockedIDs) := by
  have hRows :
      LeakInvariant env
        { s with
          rows :=
            (claimPass env s processID readAt
              lockedIDs).rows } :=
    hHolds.updateRows fun row =>
      ⟨rfl, rfl, Nat.le_succ row.generation⟩
  refine
    ⟨isConsistent_claimPass hHolds.consistent processID
        readAt lockedIDs,
      hRows.rowsValid, hHolds.objectsValid, hRows.tracked,
      ?_, ?_⟩
  · intro write hWrite hUploading
    have hUpload := hRows.uploads write hWrite hUploading
    refine ⟨hUpload.1, ?_⟩
    intro attempt hAttempt
    rcases mem_claimPass hAttempt with
      hOld | ⟨row, hRow, hClaimed, rfl⟩
    · exact hUpload.2 attempt hOld
    · intro hID
      apply hSpares write hWrite hUploading
      rw [← hID]
      exact hClaimed
  · intro attempt hAttempt hLanded row hRow hIsOf
    rcases mem_claimPass hAttempt with
      hOld | ⟨claimed, _, _, rfl⟩
    · exact hRows.landed attempt hOld hLanded row hRow hIsOf
    · cases hLanded

------------------------------------------------------------
-- Every Run
------------------------------------------------------------

theorem leakInvariant_of_effect
    {action : Action}
    (hHolds : LeakInvariant env s)
    (hSpares : SparesUploads env s action)
    (hEffect : Effect env s action s') :
    LeakInvariant env s' := by
  have hConsistent :=
    isConsistent_of_effect hHolds.consistent hEffect
  cases hEffect with
  | tick later _ =>
      exact
        ⟨hConsistent, hHolds.rowsValid, hHolds.objectsValid,
          hHolds.tracked, hHolds.uploads, hHolds.landed⟩
  | loseSession processID =>
      exact
        ⟨hConsistent, hHolds.rowsValid, hHolds.objectsValid,
          hHolds.tracked, hHolds.uploads, hHolds.landed⟩
  | crash processID =>
      have hWrites :
          ∀ write ∈ (crash s processID).writes,
            write ∈ s.writes := by
        intro write hWrite
        rw [crash, Table.mem_deleteWhere_iff] at hWrite
        exact hWrite.1
      have hAttempts :
          ∀ attempt ∈ (crash s processID).attempts,
            attempt ∈ s.attempts := by
        intro attempt hAttempt
        rw [crash, Table.mem_deleteWhere_iff] at hAttempt
        exact hAttempt.1
      refine
        ⟨hConsistent, hHolds.rowsValid, hHolds.objectsValid,
          hHolds.tracked, ?_, ?_⟩
      · intro write hWrite hUploading
        have hUpload :=
          hHolds.uploads write (hWrites write hWrite)
            hUploading
        exact
          ⟨hUpload.1, fun attempt hAttempt =>
            hUpload.2 attempt (hAttempts attempt hAttempt)⟩
      · intro attempt hAttempt
        exact hHolds.landed attempt (hAttempts attempt hAttempt)
  | writeFile processID pendingID reference content _ =>
      refine
        ⟨hConsistent, hHolds.rowsValid, hHolds.objectsValid,
          hHolds.tracked, ?_, hHolds.landed⟩
      intro write hWrite hUploading
      rcases List.mem_cons.mp hWrite with rfl | hOld
      · cases hUploading
      · exact hHolds.uploads write hOld hUploading
  | write write event hFound _ hWrite =>
      exact
        leakInvariant_of_writeEffect hHolds
          (List.mem_of_find?_eq_some hFound) hWrite
  | confirmFileWrites receipts hDelivered hConfirm =>
      apply
        confirmFileWrites_induction _ receipts hDelivered
          hConfirm hHolds
      intro s s' receipt hBefore hReceipt hOne
      exact leakInvariant_confirmFileWrite hBefore hReceipt hOne
  | requestFileDeletions readAt requests hNodup hFresh =>
      apply
        requestFileDeletions_induction _
          (deduplicateReferences requests) hNodup hFresh
          hHolds
      intro s request hBefore hNew
      exact leakInvariant_requestFileDeletion hBefore hNew
  | claimDue processID readAt lockedIDs _ =>
      exact leakInvariant_claimPass hHolds hSpares
  | attempt attempt event hAttempt _ hCall =>
      exact leakInvariant_of_attemptEffect hHolds hAttempt hCall

theorem leakInvariant_initialState
    (env : Environment)
    (now : Time) :
    LeakInvariant env (initialState now) := by
  refine ⟨isConsistent_initialState now, ?_, ?_, ?_, ?_, ?_⟩
  · intro row hRow
    cases hRow
  · intro object hObject
    cases hObject
  · intro object hObject
    cases hObject
  · intro write hWrite
    cases hWrite
  · intro attempt hAttempt
    cases hAttempt

/-
  Every object is known of, as long as no claim takes the row
  of a write that is uploading.
-/
theorem no_stored_file_is_leaked
    (env : Environment)
    {s : State}
    (hRun :
      (system env).ReachableWhile (SparesUploads env) s) :
    LeaksNothing s := by
  have hHolds : LeakInvariant env s := by
    apply hRun.invariant
    · rintro s ⟨now, rfl⟩
      exact leakInvariant_initialState env now
    · intro s action s' hBefore hSpares hStep
      exact
        leakInvariant_of_effect hBefore hSpares
          (effect_of_step hStep)
  exact hHolds.leaksNothing

def leakEnvironment : Environment :=
  { timings :=
      { commitWindow := 100
        attemptLease := 10
        claimBatchSize := 50 }
    storages := [1] }

def leakReference : StoredFileReference :=
  { storageID := 1
    fileName := "backup-2" }

/- The file is registered, and its upload begins. -/
def sampleUploadStart : List Action :=
  [.writeFile 1 70 leakReference [104, 105],
    .write 70 (.protect true),
    .write 70 (.insert 0 .answered),
    .write 70 (.locate true)]

/- A part is stored, and the process crashes. -/
theorem crashed_upload_is_not_leaked :
    LeaksNothing
      ((system leakEnvironment).outcome (initialState 0)
        (sampleUploadStart ++
          [.write 70 (.savePart [104]),
            .tick 100,
            .claimDue 2 100 [],
            .crash 1])) :=
  no_stored_file_is_leaked leakEnvironment
    (TransitionSystem.reachableWhile_outcome ⟨0, rfl⟩
      (by decide +kernel))

/-
  The session that protects the upload ends, and the upload
  takes longer than the commit window: another process is
  through with the row before the file is stored.
-/
def sampleLostProtection : List Action :=
  sampleUploadStart ++
    [.loseSession 1,
      .tick 100,
      .claimDue 2 100 [],
      .attempt 70 1 .readClock,
      .attempt 70 1 (.start .answered),
      .attempt 70 1 .beginDelete,
      .attempt 70 1 .land,
      .attempt 70 1 (.answerDelete true),
      .attempt 70 1 (.release 100 .answered),
      .write 70 (.saveEnd true),
      .write 70 (.keep 100 .answered),
      .write 70 (.release true),
      .write 70 .leave]

theorem lost_protection_leaks_file :
    ¬ ∀ (env : Environment) (s : State),
        (system env).Reachable s → LeaksNothing s := by
  intro hAlways
  have hKnown :=
    hAlways leakEnvironment
      ((system leakEnvironment).outcome (initialState 0)
        sampleLostProtection)
      (TransitionSystem.reachable_outcome _ ⟨0, rfl⟩)
  revert hKnown
  decide +kernel

end Files

end Storages

end Databasus
