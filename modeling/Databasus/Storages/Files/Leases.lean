import Databasus.Storages.Files.Consistency

/-
  A lease that has not run out keeps its row.

  An attempt that has started may act on its file.  As long as
  its lease lasts, the row of its claim cannot go: no later
  claim takes it, a request leaves its deadline, and only the
  attempt's own generation could complete it.

  Main declarations:
    * `LeaseSound`
    * `HasSoundLeases`
    * `IsManaged`
    * `isManaged_of_effect`
-/

------------------------------------------------------------
-- The Invariant
------------------------------------------------------------

namespace Databasus

namespace Storages

namespace Files

open Foundation

/- The attempt has started and may talk to the provider. -/
def AttemptStage.isActive : AttemptStage → Bool
  | .prepared _ => true
  | .deleting _ _ => true
  | _ => false

/- The row of an attempt that has started. -/
structure IsLeased
    (pending row : PendingDeletion) : Prop where
  id : row.id = pending.id
  notBefore : pending.notBefore ≤ row.notBefore
  attemptCount : 0 < row.attemptCount

structure LeaseSound
    (now : Time)
    (rows : List PendingDeletion)
    (attempts : List Attempt)
    (attempt : Attempt) : Prop where
  current :
    ∀ row ∈ rows,
      attempt.isOf row.id row.generation = true →
        row.notBefore = attempt.pending.notBefore
  leased :
    attempt.stage.isActive = true →
      now < attempt.pending.notBefore →
        ∃ row ∈ rows, IsLeased attempt.pending row
  newest :
    attempt.stage.isActive = true →
      now < attempt.pending.notBefore →
        ∀ other ∈ attempts,
          other.pending.id = attempt.pending.id →
            other.pending.generation ≤
              attempt.pending.generation

def HasSoundLeases (s : State) : Prop :=
  ∀ attempt ∈ s.attempts,
    LeaseSound s.now s.rows s.attempts attempt

theorem isOf_iff
    {attempt : Attempt}
    {id : Uuid}
    {generation : Nat} :
    attempt.isOf id generation = true ↔
      attempt.pending.id = id ∧
        attempt.pending.generation = generation :=
  isAtGeneration_iff

------------------------------------------------------------
-- Changes that Keep Leases
------------------------------------------------------------

variable {s : State}
variable {attempt : Attempt}

namespace HasSoundLeases

variable {stage : AttemptStage}
variable {rows : List PendingDeletion}

/- Fewer attempts, or the same claims in other stages. -/
theorem withAttempts
    {attempts : List Attempt}
    (hSound :
      ∀ attempt ∈ attempts,
        LeaseSound s.now s.rows s.attempts attempt)
    (hFrom :
      ∀ attempt ∈ attempts,
        ∃ old ∈ s.attempts,
          old.pending = attempt.pending) :
    HasSoundLeases { s with attempts := attempts } := by
  intro attempt hAttempt
  have hOld := hSound attempt hAttempt
  refine ⟨hOld.current, hOld.leased, ?_⟩
  intro hActive hValid other hOther hID
  rcases hFrom other hOther with ⟨old, hMember, hPending⟩
  rw [← hPending] at hID ⊢
  exact hOld.newest hActive hValid old hMember hID

theorem setAttemptStage
    (hHolds : HasSoundLeases s)
    (hAttempt : attempt ∈ s.attempts)
    (hSound :
      LeaseSound s.now s.rows s.attempts
        { attempt with stage := stage }) :
    HasSoundLeases (s.setAttemptStage attempt stage) := by
  apply HasSoundLeases.withAttempts
  · intro other hOther
    rcases mem_setAttemptStage hOther with hOld | rfl
    · exact hHolds other hOld.1
    · exact hSound
  · intro other hOther
    rcases mem_setAttemptStage hOther with hOld | rfl
    · exact ⟨other, hOld.1, rfl⟩
    · exact ⟨attempt, hAttempt, rfl⟩

/- A stage in which the attempt is no more active. -/
theorem passTo
    (hHolds : HasSoundLeases s)
    (hAttempt : attempt ∈ s.attempts)
    (hActive :
      stage.isActive = true →
        attempt.stage.isActive = true) :
    HasSoundLeases (s.setAttemptStage attempt stage) := by
  have hSound := hHolds attempt hAttempt
  apply hHolds.setAttemptStage hAttempt
  exact
    ⟨hSound.current, fun h => hSound.leased (hActive h),
      fun h => hSound.newest (hActive h)⟩

theorem endAttempt
    (hHolds : HasSoundLeases s)
    (attempt : Attempt) :
    HasSoundLeases (s.endAttempt attempt) := by
  apply HasSoundLeases.withAttempts
  · intro other hOther
    exact hHolds other (mem_endAttempt hOther).1
  · intro other hOther
    exact ⟨other, (mem_endAttempt hOther).1, rfl⟩

/- Rows change, but not what a lease relies on. -/
theorem withRows
    (hHolds : HasSoundLeases s)
    (hCurrent :
      ∀ attempt ∈ s.attempts,
        ∀ row ∈ rows,
          attempt.isOf row.id row.generation = true →
            ∃ old ∈ s.rows,
              old.id = row.id ∧
                old.generation = row.generation ∧
                  old.notBefore = row.notBefore)
    (hLeased :
      ∀ attempt ∈ s.attempts,
        attempt.stage.isActive = true →
          s.now < attempt.pending.notBefore →
            ∀ row ∈ s.rows,
              IsLeased attempt.pending row →
                ∃ later ∈ rows,
                  IsLeased attempt.pending later) :
    HasSoundLeases { s with rows := rows } := by
  intro attempt hAttempt
  have hSound := hHolds attempt hAttempt
  refine ⟨?_, ?_, hSound.newest⟩
  · intro row hRow hIsOf
    rcases hCurrent attempt hAttempt row hRow hIsOf with
      ⟨old, hOld, hID, hGeneration, hNotBefore⟩
    rw [← hNotBefore]
    apply hSound.current old hOld
    rw [hID, hGeneration]
    exact hIsOf
  · intro hActive hValid
    rcases hSound.leased hActive hValid with
      ⟨row, hRow, hIsLeased⟩
    exact
      hLeased attempt hAttempt hActive hValid row hRow
        hIsLeased

/-
  A statement on one generation, which no attempt is for and
  which is older than every attempt whose lease is valid.
-/
theorem withGeneration
    {id : Uuid}
    {generation : Nat}
    (hHolds : HasSoundLeases s)
    (hConsistent : IsConsistent s)
    (hBack :
      ∀ row ∈ rows,
        isAtGeneration id generation row = false →
          row ∈ s.rows)
    (hForth :
      ∀ row ∈ s.rows,
        isAtGeneration id generation row = false →
          row ∈ rows)
    (hOther :
      ∀ attempt ∈ s.attempts,
        attempt.isOf id generation = false)
    (hOlder :
      ∀ attempt ∈ s.attempts,
        attempt.stage.isActive = true →
          s.now < attempt.pending.notBefore →
            attempt.pending.id = id →
              generation ≤ attempt.pending.generation) :
    HasSoundLeases { s with rows := rows } := by
  apply hHolds.withRows
  · intro attempt hAttempt row hRow hIsOf
    have hAlone := hOther attempt hAttempt
    refine ⟨row, hBack row hRow ?_, rfl, rfl, rfl⟩
    by_contra hSelects
    rw [Bool.not_eq_false, isAtGeneration_iff] at hSelects
    rw [hSelects.1, hSelects.2, hAlone] at hIsOf
    exact Bool.false_ne_true hIsOf
  · intro attempt hAttempt hActive hValid row hRow hLeased
    refine ⟨row, hForth row hRow ?_, hLeased⟩
    by_contra hSelects
    rw [Bool.not_eq_false, isAtGeneration_iff] at hSelects
    have hID : attempt.pending.id = id :=
      hLeased.id.symm.trans hSelects.1
    have hSound :=
      (hConsistent.attempts attempt hAttempt).row row hRow
        hLeased.id
    have hYounger : attempt.pending.generation ≤ generation := by
      rw [← hSelects.2]
      exact hSound.2
    have hSame :=
      le_antisymm hYounger
        (hOlder attempt hAttempt hActive hValid hID)
    have hAlone := hOther attempt hAttempt
    rw [isOf_iff.mpr ⟨hID, hSame⟩] at hAlone
    exact Bool.false_ne_true hAlone.symm

end HasSoundLeases

/- Both statements on a generation spare the other rows. -/
theorem mem_of_setNotBefore
    {rows : List PendingDeletion}
    {id : Uuid}
    {generation : Nat}
    {notBefore : Time}
    {row : PendingDeletion}
    (hRow :
      row ∈
        (setNotBeforeIfGeneration rows id generation
          notBefore).1)
    (hSelects :
      isAtGeneration id generation row = false) :
    row ∈ rows := by
  rcases (Table.mem_updateWhere_iff _ _ _ _).mp hRow with
    ⟨old, hOld, rfl⟩
  split at hSelects
  · next hAt =>
      exact absurd (hAt.symm.trans hSelects) (by decide)
  · next hAt =>
      rw [if_neg hAt]
      exact hOld

------------------------------------------------------------
-- Statements Keep Leases
------------------------------------------------------------

variable {env : Environment}
variable {s' : State}
variable {write : Write}
variable {id : Uuid}
variable {generation : Nat}

/- No attempt is for a generation that a writer holds. -/
theorem IsConsistent.isOf_zero
    (hHolds : IsConsistent s)
    (hAttempt : attempt ∈ s.attempts)
    (id : Uuid) :
    attempt.isOf id 0 = false := by
  by_contra hIsOf
  rw [Bool.not_eq_false, isOf_iff] at hIsOf
  have hClaimed := (hHolds.attempts attempt hAttempt).claimed
  omega

namespace HasSoundLeases

theorem setNotBefore
    (hHolds : HasSoundLeases s)
    (hConsistent : IsConsistent s)
    (hOther :
      ∀ attempt ∈ s.attempts,
        attempt.isOf id generation = false)
    (hOlder :
      ∀ attempt ∈ s.attempts,
        attempt.stage.isActive = true →
          s.now < attempt.pending.notBefore →
            attempt.pending.id = id →
              generation ≤ attempt.pending.generation)
    (notBefore : Time) :
    HasSoundLeases
      { s with
        rows :=
          (setNotBeforeIfGeneration s.rows id generation
            notBefore).1 } :=
  hHolds.withGeneration hConsistent
    (fun _ => mem_of_setNotBefore)
    (fun _ => Table.mem_updateWhere_of_not) hOther hOlder

theorem complete
    (hHolds : HasSoundLeases s)
    (hConsistent : IsConsistent s)
    (hOther :
      ∀ attempt ∈ s.attempts,
        attempt.isOf id generation = false)
    (hOlder :
      ∀ attempt ∈ s.attempts,
        attempt.stage.isActive = true →
          s.now < attempt.pending.notBefore →
            attempt.pending.id = id →
              generation ≤ attempt.pending.generation) :
    HasSoundLeases
      { s with
        rows :=
          (completeIfGeneration s.rows id generation).1 } :=
  hHolds.withGeneration hConsistent
    (fun _ hRow _ =>
      ((Table.mem_deleteWhere_iff _ _ _).mp hRow).1)
    (fun _ hRow hSelects =>
      (Table.mem_deleteWhere_iff _ _ _).mpr
        ⟨hRow, hSelects⟩)
    hOther hOlder

/- Starting an attempt only counts it. -/
theorem started
    (hHolds : HasSoundLeases s)
    (pending : PendingDeletion)
    (readAt : Time) :
    HasSoundLeases
      { s with
        rows := (startAttempt s.rows pending readAt).1 } := by
  apply hHolds.withRows
  · intro other _ row hRow _
    rcases (Table.mem_updateWhere_iff _ _ _ _).mp hRow with
      ⟨old, hOld, rfl⟩
    refine ⟨old, hOld, ?_⟩
    split <;> exact ⟨rfl, rfl, rfl⟩
  · intro other _ _ _ row hRow hLeased
    by_cases hSelects : isStartable pending readAt row = true
    · refine
        ⟨_, Table.mem_updateWhere_of_selects hRow hSelects,
          hLeased.id, hLeased.notBefore, ?_⟩
      exact Nat.succ_pos _
    · refine
        ⟨row, Table.mem_updateWhere_of_not hRow ?_, hLeased⟩
      simpa using hSelects

/- A request leaves the deadline of an attempted row. -/
theorem taken
    (hHolds : HasSoundLeases s)
    (hConsistent : IsConsistent s)
    (reference : StoredFileReference)
    (readAt : Time) :
    HasSoundLeases
      { s with
        rows :=
          Table.updateWhere
            (fun row => row.reference = reference)
            (takeRow readAt) s.rows } := by
  apply hHolds.withRows
  · intro other hOther row hRow hIsOf
    rcases (Table.mem_updateWhere_iff _ _ _ _).mp hRow with
      ⟨old, hOld, rfl⟩
    refine ⟨old, hOld, ?_⟩
    split at hIsOf
    · rw [isOf_iff] at hIsOf
      have hSound :=
        (hConsistent.attempts other hOther).row old hOld
          hIsOf.1.symm
      have hTaken := hIsOf.2
      simp only [takeRow] at hTaken
      omega
    · next hSelects =>
        rw [if_neg hSelects]
        exact ⟨rfl, rfl, rfl⟩
  · intro other _ _ _ row hRow hLeased
    by_cases hSelects : row.reference = reference
    · refine
        ⟨_,
          Table.mem_updateWhere_of_selects hRow
            (decide_eq_true hSelects),
          hLeased.id, ?_, hLeased.attemptCount⟩
      have hAttempted : row.attemptCount ≠ 0 :=
        Nat.pos_iff_ne_zero.mp hLeased.attemptCount
      simp only [takeRow, if_neg hAttempted]
      exact hLeased.notBefore
    · exact
        ⟨row,
          Table.mem_updateWhere_of_not hRow
            (decide_eq_false hSelects),
          hLeased⟩

/- No attempt is for an id that is being issued. -/
theorem inserted
    {row : PendingDeletion}
    (hHolds : HasSoundLeases s)
    (hConsistent : IsConsistent s)
    (hFresh : row.id ∉ s.issuedIDs) :
    HasSoundLeases { s with rows := s.rows ++ [row] } := by
  apply hHolds.withRows
  · intro other hOther added hAdded hIsOf
    rcases List.mem_append.mp hAdded with hOld | hNew
    · exact ⟨added, hOld, rfl, rfl, rfl⟩
    · rw [List.mem_singleton.mp hNew, isOf_iff] at hIsOf
      have hIssued := (hConsistent.attempts other hOther).issued
      rw [hIsOf.1] at hIssued
      exact absurd hIssued hFresh
  · intro other _ _ _ old hOld hLeased
    exact ⟨old, List.mem_append_left _ hOld, hLeased⟩

end HasSoundLeases

------------------------------------------------------------
-- Effects Keep Leases
------------------------------------------------------------

variable {readAt : Time}
variable {receipt : WriteReceipt}
variable {request : RequestedDeletion}

/- A claimed row was due. -/
theorem notBefore_le_of_claimed
    {request : ClaimRequest}
    {isProtected : StoredFileReference → Bool}
    {lockedIDs : List Uuid}
    {row : PendingDeletion}
    (hConsistent : IsConsistent s)
    (hRow : row ∈ s.rows)
    (hClaimed :
      row.id ∈
        claimedIDs request isProtected lockedIDs s.rows) :
    row.notBefore ≤ request.now := by
  rcases isClaimable_of_mem_claimedIDs hClaimed with
    ⟨found, hFound, hID, hClaimable⟩
  rw [hConsistent.rowIDs.eq_of_key_eq hFound hRow hID]
    at hClaimable
  simp only [isClaimable, Bool.and_eq_true,
    decide_eq_true_eq] at hClaimable
  exact hClaimable.1.1.1

/-
  A claim takes due rows only, and a row whose lease is valid
  is not due.
-/
theorem hasSoundLeases_claimPass
    (hHolds : HasSoundLeases s)
    (hConsistent : IsConsistent s)
    (hRead : readAt ≤ s.now)
    (processID : Uuid)
    (lockedIDs : List Uuid) :
    HasSoundLeases
      (claimPass env s processID readAt lockedIDs) := by
  have hAfter :
      IsConsistent
        (claimPass env s processID readAt lockedIDs) :=
    isConsistent_claimPass hConsistent processID readAt
      lockedIDs
  have hSpared :
      ∀ pending : PendingDeletion,
        s.now < pending.notBefore →
          ∀ row ∈ s.rows,
            IsLeased pending row →
              row.id ∉
                claimedIDs
                  (claimRequest env s processID readAt)
                  (isProtected s) lockedIDs s.rows := by
    intro pending hValid row hRow hLeased hClaimed
    have hDue :=
      notBefore_le_of_claimed hConsistent hRow hClaimed
    have hLater := hLeased.notBefore
    have hNow : row.notBefore ≤ s.now := le_trans hDue hRead
    exact
      absurd (lt_of_lt_of_le hValid (le_trans hLater hNow))
        (lt_irrefl _)
  intro attempt hAttempt
  rcases mem_claimPass hAttempt with
    hOld | ⟨claimed, hMember, hClaimed, rfl⟩
  · have hSound := hHolds attempt hOld
    refine ⟨?_, ?_, ?_⟩
    · intro row hRow hIsOf
      rcases (Table.mem_updateWhere_iff _ _ _ _).mp hRow with
        ⟨old, hOldRow, rfl⟩
      split at hIsOf
      · rw [isOf_iff] at hIsOf
        have hOlder :=
          (hConsistent.attempts attempt hOld).row old
            hOldRow hIsOf.1.symm
        have hTaken := hIsOf.2
        simp only [claimRow] at hTaken
        omega
      · next hSelects =>
          rw [if_neg hSelects]
          exact hSound.current old hOldRow hIsOf
    · intro hActive hValid
      rcases hSound.leased hActive hValid with
        ⟨row, hRow, hLeased⟩
      refine ⟨row, ?_, hLeased⟩
      apply Table.mem_updateWhere_of_not hRow
      exact
        decide_eq_false
          (hSpared attempt.pending hValid row hRow hLeased)
    · intro hActive hValid other hOther hID
      rcases mem_claimPass hOther with
        hBefore | ⟨row, hRow, hTaken, rfl⟩
      · exact hSound.newest hActive hValid other hBefore hID
      · rcases hSound.leased hActive hValid with
          ⟨leased, hLeasedRow, hLeased⟩
        have hSame : row = leased :=
          hConsistent.rowIDs.eq_of_key_eq hRow hLeasedRow
            (hID.trans hLeased.id.symm)
        subst hSame
        exact
          absurd hTaken
            (hSpared attempt.pending hValid row hRow hLeased)
  · refine ⟨?_, ?_, ?_⟩
    · intro row hRow hIsOf
      have hStored :
          claimRow (claimRequest env s processID readAt)
              claimed ∈
            (claimPass env s processID readAt
              lockedIDs).rows :=
        Table.mem_updateWhere_of_selects hMember
          (decide_eq_true hClaimed)
      rw [isOf_iff] at hIsOf
      have hSame :=
        hAfter.rowIDs.eq_of_key_eq hRow hStored
          hIsOf.1.symm
      rw [hSame]
    · intro hActive
      cases hActive
    · intro hActive
      cases hActive

/- An attempt is no younger than one with a valid lease. -/
theorem HasSoundLeases.older
    (hHolds : HasSoundLeases s)
    (hAttempt : attempt ∈ s.attempts) :
    ∀ other ∈ (s.endAttempt attempt).attempts,
      other.stage.isActive = true →
        s.now < other.pending.notBefore →
          other.pending.id = attempt.pending.id →
            attempt.pending.generation ≤
              other.pending.generation := by
  intro other hOther hActive hValid hID
  have hSound := hHolds other (mem_endAttempt hOther).1
  exact hSound.newest hActive hValid attempt hAttempt hID.symm

theorem hasSoundLeases_of_attemptEffect
    {event : AttemptEvent}
    (hHolds : HasSoundLeases s)
    (hConsistent : IsConsistent s)
    (hAttempt : attempt ∈ s.attempts)
    (hEffect : AttemptEffect s attempt event s') :
    HasSoundLeases s' := by
  have hEnded := hHolds.endAttempt attempt
  have hEndedConsistent := hConsistent.endAttempt attempt
  cases hEffect with
  | readClock _ =>
      apply hHolds.passTo hAttempt
      intro hActive
      cases hActive
  | start readAt row hStage hRow hStartable =>
      have hStarted := hHolds.started attempt.pending readAt
      apply hStarted.setAttemptStage hAttempt
      have hStart := hStartable
      rw [isStartable, Bool.and_eq_true,
        isAtGeneration_iff] at hStart
      have hIsOf :
          attempt.isOf row.id row.generation = true :=
        isOf_iff.mpr
          ⟨hStart.1.1.symm, hStart.1.2.symm⟩
      refine ⟨(hStarted attempt hAttempt).current, ?_, ?_⟩
      · intro _ _
        refine
          ⟨_,
            Table.mem_updateWhere_of_selects hRow hStartable,
            hStart.1.1, ?_, Nat.succ_pos _⟩
        exact
          ((hHolds attempt hAttempt).current row hRow
            hIsOf).ge
      · intro _ _ other hOther hID
        have hSound :=
          (hConsistent.attempts other hOther).row row hRow
            (hStart.1.1.trans hID.symm)
        exact hSound.2.trans hStart.1.2.le
  | beginDelete duration hStage _ =>
      apply hHolds.passTo hAttempt
      intro _
      rw [hStage]
      rfl
  | land deadline hasLanded hStage _ =>
      have hRemoved :
          HasSoundLeases
            { s with
              objects :=
                removeObject s.objects
                  attempt.pending.reference } := hHolds
      apply hRemoved.passTo hAttempt
      intro _
      rw [hStage]
      rfl
  | answer deadline hasLanded stage _ hNext =>
      apply hHolds.passTo hAttempt
      intro hActive
      rcases hNext with rfl | ⟨rfl, _⟩ <;> cases hActive
  | leave => exact hEnded
  | leaveStarted readAt =>
      exact hEnded.started attempt.pending readAt
  | release _ =>
      exact
        hEnded.complete hEndedConsistent
          (fun _ hOther => (mem_endAttempt hOther).2)
          (hHolds.older hAttempt)
  | reschedule notBefore =>
      exact
        hEnded.setNotBefore hEndedConsistent
          (fun _ hOther => (mem_endAttempt hOther).2)
          (hHolds.older hAttempt) notBefore

theorem hasSoundLeases_of_writeEffect
    {event : WriteEvent}
    (hHolds : HasSoundLeases s)
    (hConsistent : IsConsistent s)
    (hWrite : write ∈ s.writes)
    (hEffect : WriteEffect env s write event s') :
    HasSoundLeases s' := by
  have hSound := hConsistent.writes write hWrite
  cases hEffect with
  | pass locks stage _ => exact hHolds
  | register notBefore stage hStage _ _ _ =>
      exact
        hHolds.inserted hConsistent
          (hSound.early (by rw [hStage]; rfl))
  | store pending content _ => exact hHolds
  | save pending _ => exact hHolds
  | reschedule pending notBefore receipt hPending _ =>
      have hZero := (hSound.pending pending hPending).2
      rw [hZero]
      exact
        hHolds.setNotBefore hConsistent
          (fun _ hOther => hConsistent.isOf_zero hOther _)
          (fun _ _ _ _ _ => Nat.zero_le _) notBefore
  | leave receipt _ => exact hHolds

theorem hasSoundLeases_confirmFileWrite
    (hHolds : HasSoundLeases s)
    (hConsistent : IsConsistent s)
    (hReceipt : receipt ∈ s.delivered)
    (hConfirm : confirmFileWrite s receipt = some s') :
    HasSoundLeases s' := by
  rcases confirmFileWrite_some hConfirm with ⟨_, rfl⟩
  have hZero :=
    (hConsistent.delivered receipt hReceipt).generation
  rw [hZero]
  exact
    hHolds.complete hConsistent
      (fun _ hOther => hConsistent.isOf_zero hOther _)
      (fun _ _ _ _ _ => Nat.zero_le _)

theorem hasSoundLeases_requestFileDeletion
    (hHolds : HasSoundLeases s)
    (hConsistent : IsConsistent s)
    (hFresh : s.IsFresh request.newID) :
    HasSoundLeases
      (requestFileDeletion env readAt s request) := by
  unfold requestFileDeletion
  rcases
      insertOrTakeOne_cases env readAt s.rows request with
    ⟨_, hRows⟩ | ⟨_, hRows⟩ | ⟨_, _, hRows⟩
  · rw [hRows]
    exact hHolds
  · rw [hRows]
    exact hHolds.taken hConsistent request.reference readAt
  · rw [hRows]
    exact hHolds.inserted hConsistent hFresh.1

/- Records belong together, and leases are sound. -/
structure IsManaged (s : State) : Prop where
  consistent : IsConsistent s
  leases : HasSoundLeases s

theorem isManaged_confirmFileWrite
    (hHolds : IsManaged s)
    (hReceipt : receipt ∈ s.delivered)
    (hConfirm : confirmFileWrite s receipt = some s') :
    IsManaged s' :=
  ⟨isConsistent_confirmFileWrite hHolds.consistent hConfirm,
    hasSoundLeases_confirmFileWrite hHolds.leases
      hHolds.consistent hReceipt hConfirm⟩

theorem isManaged_requestFileDeletion
    (hHolds : IsManaged s)
    (hFresh : s.IsFresh request.newID) :
    IsManaged (requestFileDeletion env readAt s request) :=
  ⟨isConsistent_requestFileDeletion hHolds.consistent hFresh,
    hasSoundLeases_requestFileDeletion hHolds.leases
      hHolds.consistent hFresh⟩

theorem isManaged_of_effect
    {action : Action}
    (hHolds : IsManaged s)
    (hEffect : Effect env s action s') :
    IsManaged s' := by
  have hAfter :=
    isConsistent_of_effect hHolds.consistent hEffect
  have hLeases := hHolds.leases
  cases hEffect with
  | tick later hLater =>
      refine ⟨hAfter, ?_⟩
      intro attempt hAttempt
      have hSound := hLeases attempt hAttempt
      refine ⟨hSound.current, ?_, ?_⟩
      · intro hActive hValid
        exact
          hSound.leased hActive
            (lt_of_le_of_lt hLater hValid)
      · intro hActive hValid
        exact
          hSound.newest hActive
            (lt_of_le_of_lt hLater hValid)
  | loseSession processID => exact ⟨hAfter, hLeases⟩
  | crash processID =>
      have hKept :
          ∀ attempt ∈ (crash s processID).attempts,
            attempt ∈ s.attempts := by
        intro attempt hAttempt
        rw [crash, Table.mem_deleteWhere_iff] at hAttempt
        exact hAttempt.1
      refine ⟨hAfter, ?_⟩
      exact
        HasSoundLeases.withAttempts
          (fun attempt hAttempt =>
            hLeases attempt (hKept attempt hAttempt))
          (fun attempt hAttempt =>
            ⟨attempt, hKept attempt hAttempt, rfl⟩)
  | writeFile processID pendingID reference content _ =>
      exact ⟨hAfter, hLeases⟩
  | write write event hFound _ hWrite =>
      exact
        ⟨hAfter,
          hasSoundLeases_of_writeEffect hLeases
            hHolds.consistent
            (List.mem_of_find?_eq_some hFound) hWrite⟩
  | confirmFileWrites receipts hDelivered hConfirm =>
      apply
        confirmFileWrites_induction _ receipts hDelivered
          hConfirm hHolds
      intro s s' receipt hBefore hReceipt hOne
      exact isManaged_confirmFileWrite hBefore hReceipt hOne
  | requestFileDeletions readAt requests hNodup hFresh =>
      apply
        requestFileDeletions_induction _
          (deduplicateReferences requests) hNodup hFresh
          hHolds
      intro s request hBefore hNew
      exact isManaged_requestFileDeletion hBefore hNew
  | claimDue processID readAt lockedIDs hRead =>
      exact
        ⟨hAfter,
          hasSoundLeases_claimPass hLeases hHolds.consistent
            hRead _ _⟩
  | attempt attempt event hAttempt _ hCall =>
      exact
        ⟨hAfter,
          hasSoundLeases_of_attemptEffect hLeases
            hHolds.consistent hAttempt hCall⟩

theorem isManaged_initialState
    (now : Time) :
    IsManaged (initialState now) := by
  refine ⟨isConsistent_initialState now, ?_⟩
  intro attempt hAttempt
  cases hAttempt

end Files

end Storages

end Databasus
