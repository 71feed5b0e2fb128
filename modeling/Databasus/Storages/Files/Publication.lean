import Databasus.Storages.Files.Leases

/-
  A published file is not deleted.

  A file belongs to its writer while the row's generation is
  zero, and to the catalog after that.  Attempts cannot touch
  it, unless one of them has outlived its lease when the file
  is registered.

  Main declarations:
    * `PublishedFilesStay`
    * `RegistersClean`
    * `PublicationInvariant`
    * `publicationInvariant_of_effect`
    * `published_files_stay`
-/

------------------------------------------------------------
-- Published Files
------------------------------------------------------------

namespace Databasus

namespace Storages

namespace Files

open Foundation

def BegunWrite.asObject
    (begun : BegunWrite) : StoredObject :=
  { reference := begun.reference
    content := begun.content }

/-
  A delete of a kept file can neither be started, nor has it
  ever had an effect.
-/
structure PublishedFilesStay (s : State) : Prop where
  notDeleted :
    ∀ attempt ∈ s.attempts,
      ∀ duration,
        attempt.stage = .prepared duration →
          0 < duration →
            attempt.pending.reference ∉ s.kept
  content :
    ∀ begun ∈ s.begun,
      begun.reference ∈ s.kept →
        lookupObject s.objects begun.reference =
          some begun.asObject

/- Every file is written under a name of its own. -/
def UsesNewName
    (s : State) : Action → Prop
  | .writeFile _ _ reference _ =>
      ∀ begun ∈ s.begun, begun.reference ≠ reference
  | _ => True

instance instDecidableUsesNewName
    (s : State) :
    (action : Action) → Decidable (UsesNewName s action)
  | .writeFile _ _ reference _ =>
      inferInstanceAs
        (Decidable
          (∀ begun ∈ s.begun, begun.reference ≠ reference))
  | .tick _ | .loseSession _ | .crash _ | .write _ _
  | .confirmFileWrites _ | .requestFileDeletions _ _
  | .claimDue _ _ _ | .attempt _ _ _ => instDecidableTrue

/- The attempt may begin a delete, or its delete may land. -/
def AttemptStage.canAct
    (now : Time) : AttemptStage → Bool
  | .prepared duration => 0 < duration
  | .deleting deadline _ => now < deadline
  | _ => false

/- No attempt at the file can act beyond its lease. -/
def HasNoOverdueAttempt
    (s : State)
    (reference : StoredFileReference) : Prop :=
  ∀ attempt ∈ s.attempts,
    attempt.pending.reference = reference →
      attempt.pending.notBefore ≤ s.now →
        attempt.stage.canAct s.now = false

instance instDecidableHasNoOverdueAttempt
    (s : State)
    (reference : StoredFileReference) :
    Decidable (HasNoOverdueAttempt s reference) :=
  inferInstanceAs (Decidable (∀ attempt ∈ s.attempts, _))

/- A registration that succeeds finds no such attempt. -/
def RegistersClean
    (s : State) : Action → Prop
  | .write pendingID (.insert _ .answered) =>
      ∀ write ∈ s.writes,
        write.pendingID = pendingID →
          (∀ row ∈ s.rows,
            row.reference ≠ write.reference) →
            HasNoOverdueAttempt s write.reference
  | _ => True

instance instDecidableRegistersClean
    (s : State)
    (action : Action) :
    Decidable (RegistersClean s action) := by
  unfold RegistersClean
  split <;> infer_instance

------------------------------------------------------------
-- The Invariant
------------------------------------------------------------

/- The row's write is at such a stage, or has a receipt. -/
def IsAt
    (stages : WriteStage → Bool)
    (s : State)
    (id : Uuid) : Prop :=
  (∃ write ∈ s.writes,
      write.pendingID = id ∧ stages write.stage = true) ∨
    ∃ receipt ∈ s.delivered, receipt.pendingDeletionID = id

/- The file is its writer's, its publisher's or kept. -/
def IsOwned
    (s : State)
    (reference : StoredFileReference) : Prop :=
  reference ∈ s.kept ∨
    ∃ row ∈ s.rows,
      row.reference = reference ∧
        row.generation = 0 ∧
          IsAt WriteStage.mayPublish s row.id

/- The file is complete, and nobody took it away. -/
def IsComplete
    (s : State)
    (begun : BegunWrite) : Prop :=
  begun.reference ∈ s.kept ∨
    ∃ row ∈ s.rows,
      row.id = begun.pendingID ∧
        row.generation = 0 ∧
          IsAt WriteStage.isSaved s row.id

structure PublicationInvariant (s : State) : Prop where
  managed : IsManaged s
  begunReferences :
    Table.UniqueBy BegunWrite.reference s.begun
  keptBegun :
    ∀ reference ∈ s.kept,
      ∃ begun ∈ s.begun, begun.reference = reference
  keptRows :
    ∀ row ∈ s.rows, row.reference ∉ s.kept
  keptWrites :
    ∀ write ∈ s.writes, write.reference ∉ s.kept
  clean :
    ∀ attempt ∈ s.attempts,
      attempt.stage.canAct s.now = true →
        ¬IsOwned s attempt.pending.reference
  content :
    ∀ begun ∈ s.begun,
      IsComplete s begun →
        lookupObject s.objects begun.reference =
          some begun.asObject

variable {s s' : State}

theorem isAt_mono
    {stages stages' : WriteStage → Bool}
    (hStages :
      ∀ stage, stages stage = true → stages' stage = true)
    {id : Uuid}
    (hAt : IsAt stages s id) :
    IsAt stages' s id := by
  rcases hAt with ⟨write, hWrite, hID, hStage⟩ | hReceipt
  · exact Or.inl ⟨write, hWrite, hID, hStages _ hStage⟩
  · exact Or.inr hReceipt

/- A complete file is owned. -/
theorem isOwned_of_isComplete
    (hConsistent : IsConsistent s)
    {begun : BegunWrite}
    (hBegun : begun ∈ s.begun)
    (hComplete : IsComplete s begun) :
    IsOwned s begun.reference := by
  rcases hComplete with
    hKept | ⟨row, hRow, hID, hZero, hSaved⟩
  · exact Or.inl hKept
  · have hReference :=
      hConsistent.rowsBegun row hRow begun hBegun hID.symm
    have hPublish :=
      isAt_mono
        (fun _ => WriteStage.mayPublish_of_isSaved) hSaved
    exact Or.inr ⟨row, hRow, hReference.symm, hZero, hPublish⟩

/- The invariant says more than the property. -/
theorem PublicationInvariant.publishedFilesStay
    (hHolds : PublicationInvariant s) :
    PublishedFilesStay s := by
  refine ⟨?_, ?_⟩
  · intro attempt hAttempt duration hStage hPositive hKept
    apply hHolds.clean attempt hAttempt
    · rw [hStage]
      exact decide_eq_true hPositive
    · exact Or.inl hKept
  · intro begun hBegun hKept
    exact hHolds.content begun hBegun (Or.inl hKept)

/-
  A change after which nothing is owned, complete or able to
  act that was not so before, and which stores nothing.
-/
structure Shrinks (s s' : State) : Prop where
  begun : s'.begun = s.begun
  objects : s'.objects = s.objects
  kept : ∀ reference ∈ s'.kept, reference ∈ s.kept
  rows : ∀ row ∈ s'.rows, ∃ old ∈ s.rows, AgedFrom old row
  writes :
    ∀ write ∈ s'.writes,
      ∃ old ∈ s.writes, old.reference = write.reference
  publish :
    ∀ id,
      IsAt WriteStage.mayPublish s' id →
        IsAt WriteStage.mayPublish s id
  saved :
    ∀ id,
      IsAt WriteStage.isSaved s' id →
        IsAt WriteStage.isSaved s id
  attempts :
    ∀ attempt ∈ s'.attempts,
      attempt.stage.canAct s'.now = true →
        ∃ old ∈ s.attempts,
          old.stage.canAct s.now = true ∧
            old.pending.reference = attempt.pending.reference

theorem PublicationInvariant.shrink
    (hHolds : PublicationInvariant s)
    (hManaged : IsManaged s')
    (hShrinks : Shrinks s s') :
    PublicationInvariant s' := by
  refine ⟨hManaged, ?_, ?_, ?_, ?_, ?_, ?_⟩
  · rw [hShrinks.begun]
    exact hHolds.begunReferences
  · intro reference hKept
    rw [hShrinks.begun]
    exact
      hHolds.keptBegun reference
        (hShrinks.kept reference hKept)
  · intro row hRow hKept
    rcases hShrinks.rows row hRow with ⟨old, hOld, hAged⟩
    apply hHolds.keptRows old hOld
    rw [← hAged.reference]
    exact hShrinks.kept _ hKept
  · intro write hWrite hKept
    rcases hShrinks.writes write hWrite with
      ⟨old, hOld, hReference⟩
    apply hHolds.keptWrites old hOld
    rw [hReference]
    exact hShrinks.kept _ hKept
  · intro attempt hAttempt hActs hOwned
    rcases hShrinks.attempts attempt hAttempt hActs with
      ⟨old, hOld, hOldActs, hReference⟩
    apply hHolds.clean old hOld hOldActs
    rw [hReference]
    rcases hOwned with
      hKept | ⟨row, hRow, hName, hZero, hPublish⟩
    · exact Or.inl (hShrinks.kept _ hKept)
    · rcases hShrinks.rows row hRow with
        ⟨before, hBefore, hAged⟩
      have hYoung := hAged.generation
      rw [hZero, Nat.le_zero] at hYoung
      refine
        Or.inr
          ⟨before, hBefore, hAged.reference.symm.trans hName,
            hYoung, ?_⟩
      rw [← hAged.id]
      exact hShrinks.publish row.id hPublish
  · intro begun hBegun hComplete
    rw [hShrinks.begun] at hBegun
    rw [hShrinks.objects]
    apply hHolds.content begun hBegun
    rcases hComplete with
      hKept | ⟨row, hRow, hID, hZero, hSaved⟩
    · exact Or.inl (hShrinks.kept _ hKept)
    · rcases hShrinks.rows row hRow with
        ⟨before, hBefore, hAged⟩
      have hYoung := hAged.generation
      rw [hZero, Nat.le_zero] at hYoung
      refine
        Or.inr
          ⟨before, hBefore, hAged.id.symm.trans hID, hYoung,
            ?_⟩
      rw [← hAged.id]
      exact hShrinks.saved row.id hSaved

------------------------------------------------------------
-- Calls of a Write
------------------------------------------------------------

variable {env : Environment}
variable {write : Write}
variable {stages : WriteStage → Bool}
variable {id : Uuid}
variable {stage : WriteStage}
variable {receipt : Option WriteReceipt}

/- A write that moves within the stages was there before. -/
theorem isAt_of_setWriteStage
    (hWrite : write ∈ s.writes)
    (hStages :
      stages stage = true → stages write.stage = true)
    (hAt : IsAt stages (s.setWriteStage write stage) id) :
    IsAt stages s id := by
  rcases hAt with ⟨other, hOther, hID, hStage⟩ | hReceipt
  · rcases mem_setWriteStage hOther with hOld | rfl
    · exact Or.inl ⟨other, hOld.1, hID, hStage⟩
    · exact Or.inl ⟨write, hWrite, hID, hStages hStage⟩
  · exact Or.inr hReceipt

/- The write that moves aside, others are where they were. -/
theorem isAt_of_setWriteStage_ne
    (hOther : write.pendingID ≠ id)
    (hAt : IsAt stages (s.setWriteStage write stage) id) :
    IsAt stages s id := by
  rcases hAt with ⟨other, hMember, hID, hStage⟩ | hReceipt
  · rcases mem_setWriteStage hMember with hOld | rfl
    · exact Or.inl ⟨other, hOld.1, hID, hStage⟩
    · exact absurd hID hOther
  · exact Or.inr hReceipt

/- Of a write under way, only its own stage matters. -/
theorem isAt_write
    (hConsistent : IsConsistent s)
    (hWrite : write ∈ s.writes)
    (hAt : IsAt stages s write.pendingID) :
    stages write.stage = true := by
  rcases hAt with
    ⟨other, hOther, hID, hStage⟩ | ⟨receipt, hReceipt, hID⟩
  · rw [← hConsistent.writeIDs.eq_of_key_eq hOther hWrite
      hID]
    exact hStage
  · have hEnded :=
      (hConsistent.delivered receipt hReceipt).ended
    exact absurd hID.symm (hEnded write hWrite)

/- An id without a begun write is at no stage. -/
theorem not_isAt_of_fresh
    (hConsistent : IsConsistent s)
    (hFresh : ∀ begun ∈ s.begun, begun.pendingID ≠ id) :
    ¬IsAt stages s id := by
  rintro (⟨write, hWrite, hID, _⟩ | ⟨receipt, hReceipt, hID⟩)
  · exact
      hFresh write.asBegun
        (hConsistent.writes write hWrite).begun hID
  · have hSound := hConsistent.delivered receipt hReceipt
    rcases hSound.begun with ⟨begun, hBegun, hSame, _⟩
    exact hFresh begun hBegun (hSame.trans hID)

theorem shrinks_pass
    (hWrite : write ∈ s.writes)
    (hPasses : write.stage.PassesTo stage)
    (locks : List FileLock) :
    Shrinks s
      ({ s with locks := locks }.setWriteStage write
        stage) := by
  refine
    ⟨rfl, rfl, fun _ h => h,
      fun row hRow => ⟨row, hRow, rfl, rfl, le_rfl⟩,
      ?_, ?_, ?_, fun attempt h hActs =>
        ⟨attempt, h, hActs, rfl⟩⟩
  · intro other hOther
    rcases mem_setWriteStage hOther with hOld | rfl
    · exact ⟨other, hOld.1, rfl⟩
    · exact ⟨write, hWrite, rfl⟩
  · intro id hAt
    exact isAt_of_setWriteStage hWrite hPasses.mayPublish hAt
  · intro id hAt
    exact isAt_of_setWriteStage hWrite hPasses.saved hAt

theorem shrinks_reschedule
    {pending : PendingDeletion}
    (hConsistent : IsConsistent s)
    (hWrite : write ∈ s.writes)
    (hPending : write.stage.pending = some pending)
    (hSaved :
      receipt = none ∨ write.stage = .keeping pending)
    (notBefore : Time) :
    Shrinks s
      ({ s with
        rows :=
          (setNotBeforeIfGeneration s.rows pending.id
            pending.generation notBefore).1 }.setWriteStage
        write (.releasing receipt)) := by
  refine
    ⟨rfl, rfl, fun _ h => h,
      (hConsistent.setNotBefore pending.id
        pending.generation notBefore).from_,
      ?_, ?_, ?_, fun attempt h hActs =>
        ⟨attempt, h, hActs, rfl⟩⟩
  · intro other hOther
    rcases mem_setWriteStage hOther with hOld | rfl
    · exact ⟨other, hOld.1, rfl⟩
    · exact ⟨write, hWrite, rfl⟩
  · intro id hAt
    refine isAt_of_setWriteStage hWrite ?_ hAt
    intro _
    simp [WriteStage.mayPublish, hPending]
  · intro id hAt
    refine isAt_of_setWriteStage hWrite ?_ hAt
    intro hReceipt
    rcases hSaved with rfl | hKeeping
    · cases hReceipt
    · rw [hKeeping]
      rfl

/- A receipt is delivered when its write ends. -/
theorem shrinks_leave
    (hConsistent : IsConsistent s)
    (hWrite : write ∈ s.writes)
    (hStage : write.stage = .leaving receipt) :
    Shrinks s (s.endWrite write receipt) := by
  have hAt :
      ∀ (stages : WriteStage → Bool) (id : Uuid),
        (∀ held, stages (.leaving (some held)) = true) →
          IsAt stages (s.endWrite write receipt) id →
            IsAt stages s id := by
    rintro stages id hLeaving
      (⟨other, hOther, hID, hStages⟩ |
        ⟨delivered, hDelivered, hID⟩)
    · exact
        Or.inl
          ⟨other, (mem_endWrite hOther).1, hID, hStages⟩
    · rcases List.mem_append.mp hDelivered with hNew | hOld
      · have hReceipt : receipt = some delivered := by
          simpa using hNew
        subst hReceipt
        have hSound :=
          (hConsistent.writes write hWrite).receipt delivered
            (by rw [hStage]; rfl)
        refine
          Or.inl ⟨write, hWrite, hSound.1.symm.trans hID, ?_⟩
        rw [hStage]
        exact hLeaving delivered
      · exact Or.inr ⟨delivered, hOld, hID⟩
  exact
    ⟨rfl, rfl, fun _ h => h,
      fun row hRow => ⟨row, hRow, rfl, rfl, le_rfl⟩,
      fun other hOther => ⟨other, (mem_endWrite hOther).1, rfl⟩,
      fun id => hAt _ id fun _ => rfl,
      fun id => hAt _ id fun _ => rfl,
      fun attempt h hActs => ⟨attempt, h, hActs, rfl⟩⟩

------------------------------------------------------------
-- Calls that Store or Register
------------------------------------------------------------

variable {pending : PendingDeletion}

/- What is stored under a write's name touches no other. -/
theorem ne_of_saving
    (hHolds : PublicationInvariant s)
    (hWrite : write ∈ s.writes)
    (hStage : write.stage = .saving pending)
    {begun : BegunWrite}
    (hBegun : begun ∈ s.begun)
    (hComplete : IsComplete s begun) :
    write.reference ≠ begun.reference := by
  have hConsistent := hHolds.managed.consistent
  intro hSame
  rcases hComplete with
    hKept | ⟨row, hRow, hID, _, hSaved⟩
  · rw [← hSame] at hKept
    exact hHolds.keptWrites write hWrite hKept
  · have hOwn : write.asBegun = begun :=
      hHolds.begunReferences.eq_of_key_eq
        (hConsistent.writes write hWrite).begun hBegun hSame
    rw [hID, ← hOwn] at hSaved
    have hStages := isAt_write hConsistent hWrite hSaved
    rw [hStage] at hStages
    cases hStages

theorem publicationInvariant_store
    (hHolds : PublicationInvariant s)
    (hWrite : write ∈ s.writes)
    (hStage : write.stage = .saving pending)
    (content : Bytes)
    (hManaged : IsManaged (storeContent s write content)) :
    PublicationInvariant (storeContent s write content) := by
  refine
    ⟨hManaged, hHolds.begunReferences, hHolds.keptBegun,
      hHolds.keptRows, hHolds.keptWrites, hHolds.clean, ?_⟩
  intro begun hBegun hComplete
  have hOther :=
    ne_of_saving hHolds hWrite hStage hBegun hComplete
  have hContent := hHolds.content begun hBegun hComplete
  exact (lookupObject_putObject_of_ne hOther).trans hContent

/- A successful save makes the write's own file complete. -/
theorem publicationInvariant_save
    (hHolds : PublicationInvariant s)
    (hWrite : write ∈ s.writes)
    (hStage : write.stage = .saving pending)
    (hManaged :
      IsManaged
        ((storeContent s write write.content).setWriteStage
          write (.keeping pending))) :
    PublicationInvariant
      ((storeContent s write write.content).setWriteStage
        write (.keeping pending)) := by
  have hConsistent := hHolds.managed.consistent
  refine
    ⟨hManaged, hHolds.begunReferences, hHolds.keptBegun,
      hHolds.keptRows, ?_, ?_, ?_⟩
  · intro other hOther
    rcases mem_setWriteStage hOther with hOld | rfl
    · exact hHolds.keptWrites other hOld.1
    · exact hHolds.keptWrites write hWrite
  · intro attempt hAttempt hActs hOwned
    apply hHolds.clean attempt hAttempt hActs
    rcases hOwned with
      hKept | ⟨row, hRow, hName, hZero, hPublish⟩
    · exact Or.inl hKept
    · refine Or.inr ⟨row, hRow, hName, hZero, ?_⟩
      refine isAt_of_setWriteStage hWrite ?_ hPublish
      intro _
      rw [hStage]
      rfl
  · intro begun hBegun hComplete
    by_cases hOwn : write.pendingID = begun.pendingID
    · have hSame : write.asBegun = begun :=
        hConsistent.begunIDs.eq_of_key_eq
          (hConsistent.writes write hWrite).begun hBegun hOwn
      rw [← hSame]
      exact lookupObject_putObject _ _
    · have hBefore : IsComplete s begun := by
        rcases hComplete with
          hKept | ⟨row, hRow, hID, hZero, hSaved⟩
        · exact Or.inl hKept
        · refine Or.inr ⟨row, hRow, hID, hZero, ?_⟩
          rw [hID] at hSaved ⊢
          exact isAt_of_setWriteStage_ne hOwn hSaved
      have hOther :=
        ne_of_saving hHolds hWrite hStage hBegun hBefore
      have hContent := hHolds.content begun hBegun hBefore
      exact (lookupObject_putObject_of_ne hOther).trans hContent

/-
  A valid lease has a row, so only attempts that have outlived
  theirs can act on a file that gets its row now.
-/
theorem canAct_of_registered
    (hManaged : IsManaged s)
    (hAbsent :
      ∀ row ∈ s.rows, row.reference ≠ write.reference)
    (hClean : HasNoOverdueAttempt s write.reference)
    {attempt : Attempt}
    (hAttempt : attempt ∈ s.attempts)
    (hReference :
      attempt.pending.reference = write.reference) :
    attempt.stage.canAct s.now = false := by
  rcases le_or_gt attempt.pending.notBefore s.now with
    hOver | hValid
  · exact hClean attempt hAttempt hReference hOver
  · by_contra hActs
    rw [Bool.not_eq_false] at hActs
    have hActive : attempt.stage.isActive = true := by
      cases hStage : attempt.stage <;>
        rw [hStage] at hActs <;> first | rfl | cases hActs
    have hSound := hManaged.leases attempt hAttempt
    rcases hSound.leased hActive hValid with
      ⟨row, hRow, hLeased⟩
    have hRowSound :=
      (hManaged.consistent.attempts attempt hAttempt).row row
        hRow hLeased.id
    exact hAbsent row hRow (hRowSound.1.trans hReference)

theorem publicationInvariant_register
    {notBefore : Time}
    (hHolds : PublicationInvariant s)
    (hWrite : write ∈ s.writes)
    (hStage : write.stage = .registering)
    (hAbsent :
      ∀ row ∈ s.rows, row.reference ≠ write.reference)
    (hNext :
      stage = .releasing none ∨
        HasNoOverdueAttempt s write.reference ∧
          stage = .locating (write.row notBefore))
    (hManaged :
      IsManaged
        ({ s with
          rows := s.rows ++ [write.row notBefore]
          issuedIDs :=
            write.pendingID :: s.issuedIDs }.setWriteStage
          write stage)) :
    PublicationInvariant
      ({ s with
        rows := s.rows ++ [write.row notBefore]
        issuedIDs :=
          write.pendingID :: s.issuedIDs }.setWriteStage
        write stage) := by
  have hConsistent := hHolds.managed.consistent
  have hMoved :
      { write with stage := stage } ∈
        (s.setWriteStage write stage).writes :=
    Table.mem_updateWhere_of_selects hWrite
      (decide_eq_true rfl)
  have hOld :
      ∀ (stages : WriteStage → Bool),
        ∀ row ∈ s.rows,
          IsAt stages (s.setWriteStage write stage) row.id →
            IsAt stages s row.id := by
    intro stages row hRow hAt
    apply isAt_of_setWriteStage_ne _ hAt
    intro hID
    have hIssued := hConsistent.rowsIssued row hRow
    rw [← hID] at hIssued
    exact
      (hConsistent.writes write hWrite).early
        (by rw [hStage]; rfl) hIssued
  refine
    ⟨hManaged, hHolds.begunReferences, hHolds.keptBegun,
      ?_, ?_, ?_, ?_⟩
  · intro row hRow
    rcases List.mem_append.mp hRow with hBefore | hNew
    · exact hHolds.keptRows row hBefore
    · rw [List.mem_singleton.mp hNew]
      exact hHolds.keptWrites write hWrite
  · intro other hOther
    rcases mem_setWriteStage hOther with hBefore | rfl
    · exact hHolds.keptWrites other hBefore.1
    · exact hHolds.keptWrites write hWrite
  · intro attempt hAttempt hActs hOwned
    rcases hOwned with
      hKept | ⟨row, hRow, hName, hZero, hPublish⟩
    · exact hHolds.clean attempt hAttempt hActs (Or.inl hKept)
    · rcases List.mem_append.mp hRow with hBefore | hNew
      · exact
          hHolds.clean attempt hAttempt hActs
            (Or.inr
              ⟨row, hBefore, hName, hZero,
                hOld _ row hBefore hPublish⟩)
      · rw [List.mem_singleton.mp hNew] at hName hPublish
        have hStages :=
          isAt_write hManaged.consistent hMoved hPublish
        rcases hNext with rfl | ⟨hClean, rfl⟩
        · cases hStages
        · have hIdle :=
            canAct_of_registered hHolds.managed hAbsent hClean
              hAttempt hName.symm
          exact Bool.false_ne_true (hIdle.symm.trans hActs)
  · intro begun hBegun hComplete
    apply hHolds.content begun hBegun
    rcases hComplete with
      hKept | ⟨row, hRow, hID, hZero, hSaved⟩
    · exact Or.inl hKept
    · rcases List.mem_append.mp hRow with hBefore | hNew
      · exact
          Or.inr
            ⟨row, hBefore, hID, hZero,
              hOld _ row hBefore hSaved⟩
      · rw [List.mem_singleton.mp hNew] at hSaved
        have hStages :=
          isAt_write hManaged.consistent hMoved hSaved
        rcases hNext with rfl | ⟨_, rfl⟩ <;> cases hStages

/- The guard concerns registrations that are answered. -/
theorem publicationInvariant_of_writeEffect
    {event : WriteEvent}
    (hHolds : PublicationInvariant s)
    (hWrite : write ∈ s.writes)
    (hGuard :
      RegistersClean s (.write write.pendingID event))
    (hManaged : IsManaged s')
    (hEffect : WriteEffect env s write event s') :
    PublicationInvariant s' := by
  have hConsistent := hHolds.managed.consistent
  cases hEffect with
  | pass locks stage hPasses =>
      exact
        hHolds.shrink hManaged
          (shrinks_pass hWrite hPasses locks)
  | register notBefore stage hStage _ hAbsent hNext =>
      apply
        publicationInvariant_register hHolds hWrite hStage
          hAbsent _ hManaged
      rcases hNext with hLost | ⟨rfl, hAnswered⟩
      · exact Or.inl hLost
      · exact
          Or.inr
            ⟨hGuard write hWrite rfl hAbsent, hAnswered⟩
  | store pending content hStage =>
      exact
        publicationInvariant_store hHolds hWrite hStage
          content hManaged
  | save pending hStage =>
      exact
        publicationInvariant_save hHolds hWrite hStage
          hManaged
  | reschedule pending notBefore receipt hPending hNext =>
      apply hHolds.shrink hManaged
      apply
        shrinks_reschedule hConsistent hWrite hPending _
          notBefore
      rcases hNext with hNone | ⟨hKeeping, _⟩
      · exact Or.inl hNone
      · exact Or.inr hKeeping
  | leave receipt hStage =>
      exact
        hHolds.shrink hManaged
          (shrinks_leave hConsistent hWrite hStage)

------------------------------------------------------------
-- Calls of an Attempt
------------------------------------------------------------

variable {attempt : Attempt}

/- The attempt moves on without gaining power. -/
theorem shrinks_setAttemptStage
    {stage : AttemptStage}
    (hAttempt : attempt ∈ s.attempts)
    (hActs :
      stage.canAct s.now = true →
        attempt.stage.canAct s.now = true) :
    Shrinks s (s.setAttemptStage attempt stage) := by
  refine
    ⟨rfl, rfl, fun _ h => h,
      fun row hRow => ⟨row, hRow, rfl, rfl, le_rfl⟩,
      fun write hWrite => ⟨write, hWrite, rfl⟩,
      fun _ h => h, fun _ h => h, ?_⟩
  intro other hOther hOtherActs
  rcases mem_setAttemptStage hOther with hOld | rfl
  · exact ⟨other, hOld.1, hOtherActs, rfl⟩
  · exact ⟨attempt, hAttempt, hActs hOtherActs, rfl⟩

/- The attempt ends, with any change of the rows. -/
theorem shrinks_endAttempt
    {rows : List PendingDeletion}
    (hAged : Aged s.rows rows) :
    Shrinks s
      ({ s with rows := rows }.endAttempt attempt) := by
  refine
    ⟨rfl, rfl, fun _ h => h, hAged.from_,
      fun write hWrite => ⟨write, hWrite, rfl⟩,
      fun _ h => h, fun _ h => h, ?_⟩
  intro other hOther hActs
  exact ⟨other, (mem_endAttempt hOther).1, hActs, rfl⟩

/- An attempt starts on a row that has been claimed. -/
theorem publicationInvariant_start
    {readAt : Time}
    {row : PendingDeletion}
    {stage : AttemptStage}
    (hHolds : PublicationInvariant s)
    (hAttempt : attempt ∈ s.attempts)
    (hRow : row ∈ s.rows)
    (hStartable :
      isStartable attempt.pending readAt row = true)
    (hManaged :
      IsManaged
        ({ s with
          rows :=
            (startAttempt s.rows attempt.pending
              readAt).1 }.setAttemptStage attempt stage)) :
    PublicationInvariant
      ({ s with
        rows :=
          (startAttempt s.rows attempt.pending
            readAt).1 }.setAttemptStage attempt stage) := by
  have hConsistent := hHolds.managed.consistent
  have hSound := hConsistent.attempts attempt hAttempt
  rw [isStartable, Bool.and_eq_true, isAtGeneration_iff]
    at hStartable
  have hReference := (hSound.row row hRow hStartable.1.1).1
  have hAged :=
    (hConsistent.started attempt.pending readAt).from_
  have hBack :
      ∀ (stages : WriteStage → Bool),
        ∀ other ∈
            (startAttempt s.rows attempt.pending readAt).1,
          other.generation = 0 →
            IsAt stages s other.id →
              ∃ old ∈ s.rows,
                AgedFrom old other ∧
                  old.generation = 0 ∧
                    IsAt stages s old.id := by
    intro stages other hOther hZero hAt
    rcases hAged other hOther with ⟨old, hOld, hFrom⟩
    have hYoung := hFrom.generation
    rw [hZero, Nat.le_zero] at hYoung
    rw [hFrom.id] at hAt
    exact ⟨old, hOld, hFrom, hYoung, hAt⟩
  refine
    ⟨hManaged, hHolds.begunReferences, hHolds.keptBegun,
      ?_, hHolds.keptWrites, ?_, ?_⟩
  · intro other hOther hKept
    rcases hAged other hOther with ⟨old, hOld, hFrom⟩
    rw [hFrom.reference] at hKept
    exact hHolds.keptRows old hOld hKept
  · intro other hOther hActs hOwned
    have hOwnedBefore :
        IsOwned s other.pending.reference := by
      rcases hOwned with
        hKept | ⟨changed, hChanged, hName, hZero, hPublish⟩
      · exact Or.inl hKept
      · rcases hBack _ changed hChanged hZero hPublish with
          ⟨old, hOld, hFrom, hYoung, hAt⟩
        exact
          Or.inr
            ⟨old, hOld, hFrom.reference.symm.trans hName,
              hYoung, hAt⟩
    rcases mem_setAttemptStage hOther with hOld | rfl
    · exact hHolds.clean other hOld.1 hActs hOwnedBefore
    · rcases hOwnedBefore with
        hKept | ⟨old, hOld, hName, hZero, _⟩
      · rw [← hReference] at hKept
        exact hHolds.keptRows row hRow hKept
      · have hSame : old = row :=
          hConsistent.rowReferences.eq_of_key_eq hOld hRow
            (hName.trans hReference.symm)
        have hClaimed := hSound.claimed
        rw [← hStartable.1.2, ← hSame, hZero] at hClaimed
        exact absurd hClaimed (lt_irrefl 0)
  · intro begun hBegun hComplete
    apply hHolds.content begun hBegun
    rcases hComplete with
      hKept | ⟨changed, hChanged, hID, hZero, hSaved⟩
    · exact Or.inl hKept
    · rcases hBack _ changed hChanged hZero hSaved with
        ⟨old, hOld, hFrom, hYoung, hAt⟩
      exact
        Or.inr
          ⟨old, hOld, hFrom.id.symm.trans hID, hYoung, hAt⟩

/- What a delete removes belongs to nobody. -/
theorem publicationInvariant_land
    {stage : AttemptStage}
    (hHolds : PublicationInvariant s)
    (hAttempt : attempt ∈ s.attempts)
    (hActs : attempt.stage.canAct s.now = true)
    (hManaged :
      IsManaged
        ({ s with
          objects :=
            removeObject s.objects
              attempt.pending.reference }.setAttemptStage
          attempt stage)) :
    PublicationInvariant
      ({ s with
        objects :=
          removeObject s.objects
            attempt.pending.reference }.setAttemptStage
        attempt stage) := by
  refine
    ⟨hManaged, hHolds.begunReferences, hHolds.keptBegun,
      hHolds.keptRows, hHolds.keptWrites, ?_, ?_⟩
  · intro other hOther hOtherActs
    rcases mem_setAttemptStage hOther with hOld | rfl
    · exact hHolds.clean other hOld.1 hOtherActs
    · exact hHolds.clean attempt hAttempt hActs
  · intro begun hBegun hComplete
    have hOwned :=
      isOwned_of_isComplete hHolds.managed.consistent hBegun
        hComplete
    have hOther :
        attempt.pending.reference ≠ begun.reference := by
      intro hSame
      apply hHolds.clean attempt hAttempt hActs
      rw [hSame]
      exact hOwned
    have hContent := hHolds.content begun hBegun hComplete
    exact
      (lookupObject_removeObject_of_ne hOther).trans hContent

theorem publicationInvariant_of_attemptEffect
    {event : AttemptEvent}
    (hHolds : PublicationInvariant s)
    (hAttempt : attempt ∈ s.attempts)
    (hManaged : IsManaged s')
    (hEffect : AttemptEffect s attempt event s') :
    PublicationInvariant s' := by
  have hConsistent := hHolds.managed.consistent
  have hSame : Aged s.rows s.rows :=
    ⟨hConsistent.rowIDs, hConsistent.rowReferences,
      fun row hRow => ⟨row, hRow, rfl, rfl, le_rfl⟩⟩
  cases hEffect with
  | readClock _ =>
      apply hHolds.shrink hManaged
      apply shrinks_setAttemptStage hAttempt
      intro hActs
      cases hActs
  | start readAt row _ hRow hStartable =>
      exact
        publicationInvariant_start hHolds hAttempt hRow
          hStartable hManaged
  | beginDelete duration hStage hPositive =>
      apply hHolds.shrink hManaged
      apply shrinks_setAttemptStage hAttempt
      intro _
      rw [hStage]
      exact decide_eq_true hPositive
  | land deadline hasLanded hStage hBefore =>
      apply publicationInvariant_land hHolds hAttempt _ hManaged
      rw [hStage]
      exact decide_eq_true hBefore
  | answer deadline hasLanded stage _ hNext =>
      apply hHolds.shrink hManaged
      apply shrinks_setAttemptStage hAttempt
      intro hActs
      rcases hNext with rfl | ⟨rfl, _⟩ <;> cases hActs
  | leave =>
      exact hHolds.shrink hManaged (shrinks_endAttempt hSame)
  | leaveStarted readAt =>
      exact
        hHolds.shrink hManaged
          (shrinks_endAttempt
            (hConsistent.started attempt.pending readAt))
  | release _ =>
      exact
        hHolds.shrink hManaged
          (shrinks_endAttempt
            (hConsistent.complete attempt.pending.id
              attempt.pending.generation))
  | reschedule notBefore =>
      exact
        hHolds.shrink hManaged
          (shrinks_endAttempt
            (hConsistent.setNotBefore attempt.pending.id
              attempt.pending.generation notBefore))

------------------------------------------------------------
-- Publication, Requests and Claims
------------------------------------------------------------

/- A confirmed file was complete, and nobody else's. -/
theorem publicationInvariant_confirmFileWrite
    {receipt : WriteReceipt}
    (hHolds : PublicationInvariant s)
    (hReceipt : receipt ∈ s.delivered)
    (hConfirm : confirmFileWrite s receipt = some s') :
    PublicationInvariant s' := by
  have hManaged :=
    isManaged_confirmFileWrite hHolds.managed hReceipt
      hConfirm
  have hConsistent := hHolds.managed.consistent
  have hSound := hConsistent.delivered receipt hReceipt
  rcases confirmFileWrite_some hConfirm with
    ⟨⟨row, hRow, hID, hGeneration⟩, rfl⟩
  rcases hSound.begun with
    ⟨published, hPublished, hBegunID, hBegunName⟩
  have hRowName : row.reference = receipt.reference := by
    rw [← hBegunName]
    exact
      (hConsistent.rowsBegun row hRow published hPublished
        (hBegunID.trans hID.symm)).symm
  have hZero : row.generation = 0 :=
    hGeneration.trans hSound.generation
  have hDelivered :
      ∀ stages : WriteStage → Bool, IsAt stages s row.id :=
    fun _ => Or.inr ⟨receipt, hReceipt, hID.symm⟩
  have hAged :=
    (hConsistent.complete receipt.pendingDeletionID
      receipt.generation).from_
  have hStayed :
      ∀ other ∈
          (completeIfGeneration s.rows
            receipt.pendingDeletionID receipt.generation).1,
        other ∈ s.rows :=
    fun other hOther =>
      ((Table.mem_deleteWhere_iff _ _ _).mp hOther).1
  refine ⟨hManaged, hHolds.begunReferences, ?_, ?_, ?_, ?_, ?_⟩
  · intro reference hKept
    rcases List.mem_cons.mp hKept with rfl | hOld
    · exact ⟨published, hPublished, hBegunName⟩
    · exact hHolds.keptBegun reference hOld
  · intro other hOther hKept
    have hMember := hStayed other hOther
    rcases List.mem_cons.mp hKept with hNew | hOld
    · have hSame : other = row :=
        hConsistent.rowReferences.eq_of_key_eq hMember hRow
          (hNew.trans hRowName.symm)
      rw [hSame] at hOther
      have hSelects :=
        ((Table.mem_deleteWhere_iff _ _ _).mp hOther).2
      rw [isAtGeneration_iff.mpr ⟨hID, hGeneration⟩]
        at hSelects
      cases hSelects
    · exact hHolds.keptRows other hMember hOld
  · intro write hWrite hKept
    rcases List.mem_cons.mp hKept with hNew | hOld
    · have hSame : write.asBegun = published :=
        hHolds.begunReferences.eq_of_key_eq
          (hConsistent.writes write hWrite).begun hPublished
          (hNew.trans hBegunName.symm)
      apply hSound.ended write hWrite
      rw [← hBegunID, ← hSame]
      rfl
    · exact hHolds.keptWrites write hWrite hOld
  · intro attempt hAttempt hActs hOwned
    apply hHolds.clean attempt hAttempt hActs
    rcases hOwned with
      hKept | ⟨other, hOther, hName, hYoung, hPublish⟩
    · rcases List.mem_cons.mp hKept with hNew | hOld
      · exact
          Or.inr
            ⟨row, hRow, hRowName.trans hNew.symm, hZero,
              hDelivered _⟩
      · exact Or.inl hOld
    · exact
        Or.inr
          ⟨other, hStayed other hOther, hName, hYoung,
            hPublish⟩
  · intro begun hBegun hComplete
    apply hHolds.content begun hBegun
    rcases hComplete with
      hKept | ⟨other, hOther, hSameID, hYoung, hSaved⟩
    · rcases List.mem_cons.mp hKept with hNew | hOld
      · have hSame : begun = published :=
          hHolds.begunReferences.eq_of_key_eq hBegun
            hPublished (hNew.trans hBegunName.symm)
        refine Or.inr ⟨row, hRow, ?_, hZero, hDelivered _⟩
        rw [hSame, hBegunID, hID]
      · exact Or.inl hOld
    · exact
        Or.inr
          ⟨other, hStayed other hOther, hSameID, hYoung,
            hSaved⟩

/- A request without a row of its own. -/
theorem shrinks_request
    {rows : List PendingDeletion}
    (hRows :
      ∀ row ∈ rows, ∃ old ∈ s.rows, AgedFrom old row)
    (issuedIDs : List Uuid)
    (reference : StoredFileReference) :
    Shrinks s
      { s with
        rows := rows
        issuedIDs := issuedIDs
        kept :=
          s.kept.filter fun other => other ≠ reference } :=
  ⟨rfl, rfl, fun _ h => (List.mem_filter.mp h).1, hRows,
    fun write hWrite => ⟨write, hWrite, rfl⟩,
    fun _ h => h, fun _ h => h,
    fun attempt h hActs => ⟨attempt, h, hActs, rfl⟩⟩

theorem publicationInvariant_requestFileDeletion
    {readAt : Time}
    {request : RequestedDeletion}
    (hHolds : PublicationInvariant s)
    (hFresh : s.IsFresh request.newID) :
    PublicationInvariant
      (requestFileDeletion env readAt s request) := by
  have hConsistent := hHolds.managed.consistent
  have hManaged : IsManaged (requestFileDeletion env readAt s request) :=
    isManaged_requestFileDeletion hHolds.managed hFresh
  unfold requestFileDeletion at hManaged ⊢
  rcases
      insertOrTakeOne_cases env readAt s.rows request with
    ⟨_, hRows⟩ | ⟨_, hRows⟩ | ⟨_, _, hRows⟩
  · rw [hRows] at hManaged ⊢
    apply hHolds.shrink hManaged
    apply shrinks_request
    exact fun row hRow => ⟨row, hRow, rfl, rfl, le_rfl⟩
  · rw [hRows] at hManaged ⊢
    apply hHolds.shrink hManaged
    apply shrinks_request
    apply
      (aged_updateWhere hConsistent.rowIDs
        hConsistent.rowReferences _).from_
    intro row
    exact ⟨rfl, rfl, Nat.le_succ row.generation⟩
  · rw [hRows] at hManaged ⊢
    have hNever :
        ∀ stages : WriteStage → Bool,
          ¬IsAt stages s request.newID :=
      fun _ => not_isAt_of_fresh hConsistent hFresh.2
    have hKept :
        ∀ reference ∈
            s.kept.filter fun other =>
              other ≠ request.reference,
          reference ∈ s.kept :=
      fun _ h => (List.mem_filter.mp h).1
    refine
      ⟨hManaged, hHolds.begunReferences, ?_, ?_, ?_, ?_, ?_⟩
    · intro reference hMember
      exact hHolds.keptBegun reference (hKept reference hMember)
    · intro row hRow hMember
      rcases List.mem_append.mp hRow with hOld | hNew
      · exact hHolds.keptRows row hOld (hKept _ hMember)
      · rw [List.mem_singleton.mp hNew] at hMember
        simp at hMember
    · intro write hWrite hMember
      exact hHolds.keptWrites write hWrite (hKept _ hMember)
    · intro attempt hAttempt hActs hOwned
      apply hHolds.clean attempt hAttempt hActs
      rcases hOwned with
        hMember | ⟨row, hRow, hName, hZero, hPublish⟩
      · exact Or.inl (hKept _ hMember)
      · rcases List.mem_append.mp hRow with hOld | hNew
        · exact Or.inr ⟨row, hOld, hName, hZero, hPublish⟩
        · rw [List.mem_singleton.mp hNew] at hPublish
          exact absurd hPublish (hNever _)
    · intro begun hBegun hComplete
      apply hHolds.content begun hBegun
      rcases hComplete with
        hMember | ⟨row, hRow, hID, hZero, hSaved⟩
      · exact Or.inl (hKept _ hMember)
      · rcases List.mem_append.mp hRow with hOld | hNew
        · exact Or.inr ⟨row, hOld, hID, hZero, hSaved⟩
        · rw [List.mem_singleton.mp hNew] at hSaved
          exact absurd hSaved (hNever _)

/- Claimed rows have a generation, and claims cannot act. -/
theorem shrinks_claimPass
    (hConsistent : IsConsistent s)
    (processID : Uuid)
    (readAt : Time)
    (lockedIDs : List Uuid) :
    Shrinks s
      (claimPass env s processID readAt lockedIDs) := by
  have hAged :
      Aged s.rows
        (claimPass env s processID readAt lockedIDs).rows :=
    aged_updateWhere hConsistent.rowIDs
      hConsistent.rowReferences
      fun row => ⟨rfl, rfl, Nat.le_succ row.generation⟩
  refine
    ⟨rfl, rfl, fun _ h => h, hAged.from_,
      fun write hWrite => ⟨write, hWrite, rfl⟩,
      fun _ h => h, fun _ h => h, ?_⟩
  intro attempt hAttempt hActs
  rcases mem_claimPass hAttempt with
    hOld | ⟨row, _, _, rfl⟩
  · exact ⟨attempt, hOld, hActs, rfl⟩
  · cases hActs

theorem shrinks_crash
    (processID : Uuid) :
    Shrinks s (crash s processID) := by
  have hWrites :
      ∀ write ∈ (crash s processID).writes,
        write ∈ s.writes := by
    intro write hWrite
    rw [crash, Table.mem_deleteWhere_iff] at hWrite
    exact hWrite.1
  have hAt :
      ∀ (stages : WriteStage → Bool) (id : Uuid),
        IsAt stages (crash s processID) id →
          IsAt stages s id := by
    rintro stages id (⟨write, hWrite, hStage⟩ | hReceipt)
    · exact Or.inl ⟨write, hWrites write hWrite, hStage⟩
    · exact Or.inr hReceipt
  refine
    ⟨rfl, rfl, fun _ h => h,
      fun row hRow => ⟨row, hRow, rfl, rfl, le_rfl⟩,
      fun write hWrite => ⟨write, hWrites write hWrite, rfl⟩,
      hAt _, hAt _, ?_⟩
  intro attempt hAttempt hActs
  rw [crash, Table.mem_deleteWhere_iff] at hAttempt
  exact ⟨attempt, hAttempt.1, hActs, rfl⟩

/- A new write has a name that nothing has had. -/
theorem publicationInvariant_writeFile
    (hHolds : PublicationInvariant s)
    (hFresh : s.IsFresh write.pendingID)
    (hStage : write.stage = .protecting)
    (hNew :
      ∀ begun ∈ s.begun, begun.reference ≠ write.reference)
    (hManaged :
      IsManaged
        { s with
          writes := write :: s.writes
          begun := write.asBegun :: s.begun }) :
    PublicationInvariant
      { s with
        writes := write :: s.writes
        begun := write.asBegun :: s.begun } := by
  have hConsistent := hHolds.managed.consistent
  have hUnkept : write.reference ∉ s.kept := by
    intro hKept
    rcases hHolds.keptBegun _ hKept with
      ⟨begun, hBegun, hName⟩
    exact hNew begun hBegun hName
  have hBefore :
      ∀ (stages : WriteStage → Bool) (id : Uuid),
        stages .protecting = false →
          IsAt stages
              { s with
                writes := write :: s.writes
                begun := write.asBegun :: s.begun }
              id →
            IsAt stages s id := by
    rintro stages id hIdle
      (⟨other, hOther, hID, hAt⟩ | hReceipt)
    · rcases List.mem_cons.mp hOther with rfl | hOld
      · rw [hStage, hIdle] at hAt
        cases hAt
      · exact Or.inl ⟨other, hOld, hID, hAt⟩
    · exact Or.inr hReceipt
  refine ⟨hManaged, ?_, ?_, hHolds.keptRows, ?_, ?_, ?_⟩
  · apply List.nodup_cons.mpr
    refine ⟨?_, hHolds.begunReferences⟩
    intro hMember
    rcases List.mem_map.mp hMember with
      ⟨begun, hBegun, hName⟩
    exact hNew begun hBegun hName
  · intro reference hKept
    rcases hHolds.keptBegun reference hKept with
      ⟨begun, hBegun, hName⟩
    exact ⟨begun, List.mem_cons_of_mem _ hBegun, hName⟩
  · intro other hOther
    rcases List.mem_cons.mp hOther with rfl | hOld
    · exact hUnkept
    · exact hHolds.keptWrites other hOld
  · intro attempt hAttempt hActs hOwned
    apply hHolds.clean attempt hAttempt hActs
    rcases hOwned with
      hKept | ⟨row, hRow, hName, hZero, hPublish⟩
    · exact Or.inl hKept
    · exact
        Or.inr
          ⟨row, hRow, hName, hZero,
            hBefore _ _ rfl hPublish⟩
  · intro begun hBegun hComplete
    have hCompleteBefore : IsComplete s begun := by
      rcases hComplete with
        hKept | ⟨row, hRow, hID, hZero, hSaved⟩
      · exact Or.inl hKept
      · exact
          Or.inr
            ⟨row, hRow, hID, hZero, hBefore _ _ rfl hSaved⟩
    rcases List.mem_cons.mp hBegun with rfl | hOld
    · rcases hCompleteBefore with
        hKept | ⟨row, _, hID, _, hSaved⟩
      · exact absurd hKept hUnkept
      · rw [hID] at hSaved
        exact
          absurd hSaved
            (not_isAt_of_fresh hConsistent hFresh.2)
    · exact hHolds.content begun hOld hCompleteBefore

------------------------------------------------------------
-- Every Run
------------------------------------------------------------

theorem publicationInvariant_of_effect
    {action : Action}
    (hHolds : PublicationInvariant s)
    (hNew : UsesNewName s action)
    (hClean : RegistersClean s action)
    (hEffect : Effect env s action s') :
    PublicationInvariant s' := by
  have hManaged := isManaged_of_effect hHolds.managed hEffect
  cases hEffect with
  | tick later hLater =>
      apply hHolds.shrink hManaged
      refine
        ⟨rfl, rfl, fun _ h => h,
          fun row hRow => ⟨row, hRow, rfl, rfl, le_rfl⟩,
          fun write hWrite => ⟨write, hWrite, rfl⟩,
          fun _ h => h, fun _ h => h, ?_⟩
      intro attempt hAttempt hActs
      refine ⟨attempt, hAttempt, ?_, rfl⟩
      cases hStage : attempt.stage with
      | prepared duration =>
          rw [hStage] at hActs
          exact hActs
      | deleting deadline hasLanded =>
          rw [hStage] at hActs
          exact
            decide_eq_true
              (lt_of_le_of_lt hLater
                (of_decide_eq_true hActs))
      | claimed => rw [hStage] at hActs; cases hActs
      | starting _ => rw [hStage] at hActs; cases hActs
      | deleted => rw [hStage] at hActs; cases hActs
      | failed => rw [hStage] at hActs; cases hActs
  | loseSession processID =>
      exact
        ⟨hManaged, hHolds.begunReferences, hHolds.keptBegun,
          hHolds.keptRows, hHolds.keptWrites, hHolds.clean,
          hHolds.content⟩
  | crash processID =>
      exact hHolds.shrink hManaged (shrinks_crash processID)
  | writeFile processID pendingID reference content hFresh =>
      exact
        publicationInvariant_writeFile hHolds hFresh rfl hNew
          hManaged
  | write write event hFound _ hWrite =>
      exact
        publicationInvariant_of_writeEffect hHolds
          (List.mem_of_find?_eq_some hFound) hClean hManaged
          hWrite
  | confirmFileWrites receipts hDelivered hConfirm =>
      apply
        confirmFileWrites_induction _ receipts hDelivered
          hConfirm hHolds
      intro s s' receipt hBefore hReceipt hOne
      exact
        publicationInvariant_confirmFileWrite hBefore
          hReceipt hOne
  | requestFileDeletions readAt requests hNodup hFresh =>
      apply
        requestFileDeletions_induction _
          (deduplicateReferences requests) hNodup hFresh
          hHolds
      intro s request hBefore hNewID
      exact
        publicationInvariant_requestFileDeletion hBefore
          hNewID
  | claimDue processID readAt lockedIDs _ =>
      exact
        hHolds.shrink hManaged
          (shrinks_claimPass hHolds.managed.consistent _ _ _)
  | attempt attempt event hAttempt _ hCall =>
      exact
        publicationInvariant_of_attemptEffect hHolds hAttempt
          hManaged hCall

theorem publicationInvariant_initialState
    (now : Time) :
    PublicationInvariant (initialState now) := by
  refine ⟨isManaged_initialState now, ?_, ?_, ?_, ?_, ?_, ?_⟩
  · exact List.nodup_nil
  · intro reference hKept
    cases hKept
  · intro row hRow
    cases hRow
  · intro write hWrite
    cases hWrite
  · intro attempt hAttempt
    cases hAttempt
  · intro begun hBegun
    cases hBegun

/-
  Kept files stay as they were written, as long as names are
  new and registrations find no overdue attempt.
-/
theorem published_files_stay
    (env : Environment)
    {s : State}
    (hRun :
      (system env).ReachableWhile
        (fun s action =>
          UsesNewName s action ∧ RegistersClean s action)
        s) :
    PublishedFilesStay s := by
  have hHolds : PublicationInvariant s := by
    apply hRun.invariant
    · rintro s ⟨now, rfl⟩
      exact publicationInvariant_initialState now
    · intro s action s' hBefore hGuard hStep
      exact
        publicationInvariant_of_effect hBefore hGuard.1
          hGuard.2 (effect_of_step hStep)
  exact hHolds.publishedFilesStay

def sampleEnvironment : Environment :=
  { timings :=
      { commitWindow := 100
        attemptLease := 10
        claimBatchSize := 50 }
    storages := [1] }

def sampleReference : StoredFileReference :=
  { storageID := 1
    fileName := "backup-1" }

/- A file's deletion is requested, claimed and started. -/
def sampleDeletionStart (processID : Uuid) : List Action :=
  [.requestFileDeletions 0 [⟨sampleReference, 50⟩],
    .claimDue processID 0 [],
    .attempt 50 1 .readClock,
    .attempt 50 1 (.start .answered)]

/- The file is written, and its receipt is confirmed. -/
def samplePublication (readAt : Time) : List Action :=
  [.writeFile 3 60 sampleReference [104, 105],
    .write 60 (.protect true),
    .write 60 (.insert readAt .answered),
    .write 60 (.locate true),
    .write 60 (.saveEnd true),
    .write 60 (.keep readAt .answered),
    .write 60 (.release true),
    .write 60 .leave,
    .confirmFileWrites [⟨60, sampleReference, 0⟩]]

/- A deletion that ends within its lease does no harm. -/
theorem file_written_after_deletion_stays :
    PublishedFilesStay
      ((system sampleEnvironment).outcome (initialState 0)
        (sampleDeletionStart 1 ++
          [.attempt 50 1 .beginDelete,
            .attempt 50 1 .land,
            .attempt 50 1 (.answerDelete true),
            .attempt 50 1 (.release 0 .answered)] ++
          samplePublication 0)) :=
  published_files_stay sampleEnvironment
    (TransitionSystem.reachableWhile_outcome ⟨0, rfl⟩
      (by decide +kernel))

/-
  The first process stops for ten units between the start of
  its attempt and the delete, and another one is through with
  the row meanwhile.
-/
def sampleOverdueDelete : List Action :=
  sampleDeletionStart 1 ++
    [.tick 10,
      .claimDue 2 10 [],
      .attempt 50 2 .readClock,
      .attempt 50 2 (.start .answered),
      .attempt 50 2 .beginDelete,
      .attempt 50 2 .land,
      .attempt 50 2 (.answerDelete true),
      .attempt 50 2 (.release 10 .answered)] ++
    samplePublication 10 ++
    [.attempt 50 1 .beginDelete,
      .attempt 50 1 .land]

theorem overdue_attempt_deletes_published_file :
    ¬ ∀ (env : Environment) (s : State),
        (system env).ReachableWhile UsesNewName s →
          PublishedFilesStay s := by
  intro hAlways
  have hStay :=
    hAlways sampleEnvironment
      ((system sampleEnvironment).outcome (initialState 0)
        sampleOverdueDelete)
      (TransitionSystem.reachableWhile_outcome ⟨0, rfl⟩
        (by decide +kernel))
  have hContent :=
    hStay.content ⟨60, sampleReference, [104, 105]⟩
      (by decide +kernel) (by decide +kernel)
  revert hContent
  decide +kernel

end Files

end Storages

end Databasus
