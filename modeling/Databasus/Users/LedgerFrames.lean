import Databasus.Foundation.SlidingWindow
import Databasus.Users.LedgerSound

/-
  What a statement on emailed codes leaves alone.

  A statement of one call keeps what the other calls have
  changed and locked, and all rows but for their counters.
  Only the commit of a clean-up takes rows away.

  Main declarations:
    * `Frames`
    * `frames_claimAttempt`, `frames_spend`
    * `createdFor`
    * `StillCounted`, `StillCounted.count_le`
    * `WasCreatedBefore`, `not_deleted_of_since`
    * `compared_update`, `begun_update`
-/

------------------------------------------------------------
-- Frames
------------------------------------------------------------

namespace Databasus

namespace Users

open Foundation

variable {α : Type}
variable {mode : RowLockMode}
variable {now : Time}

theorem EmailedCode.SameCode.refl
    (code : EmailedCode α) :
    code.SameCode code :=
  ⟨rfl, rfl, rfl, rfl, rfl, rfl⟩

theorem EmailedCode.SameCode.trans
    {first second third : EmailedCode α}
    (hFirst : first.SameCode second)
    (hSecond : second.SameCode third) :
    first.SameCode third :=
  ⟨hSecond.id.trans hFirst.id,
    hSecond.userID.trans hFirst.userID,
    hSecond.hashedCode.trans hFirst.hashedCode,
    hSecond.boundTo.trans hFirst.boundTo,
    hSecond.expiresAt.trans hFirst.expiresAt,
    hSecond.createdAt.trans hFirst.createdAt⟩

/- Each row is there still, whatever was done to it. -/
def KeepsRows
    (rows rows' : List (EmailedCode α)) : Prop :=
  ∀ row ∈ rows, ∃ row' ∈ rows', row.SameCode row'

theorem KeepsRows.of_subset
    {rows rows' : List (EmailedCode α)}
    (hRows : rows ⊆ rows') :
    KeepsRows rows rows' :=
  fun row hRow => ⟨row, hRows hRow, .refl row⟩

/- What a statement of the call does not change. -/
structure Frames
    (ledger : CodeLedger α)
    (c : Nat)
    (ledger' : CodeLedger α) : Prop where
  others :
    ∀ other, other ≠ c →
      Store.KeptFor EmailedCode.id ledger.codes ledger'.codes
        other
  claims : ledger.claims ⊆ ledger'.claims
  compared : ledger'.compared = ledger.compared
  completed : ledger'.completed = ledger.completed
  created : ledger'.created = ledger.created
  rows : KeepsRows ledger.codes.rows ledger'.codes.rows

variable {codes : Store Nat Uuid (EmailedCode α)}
variable {ledger ledger' : CodeLedger α}
variable {c : Nat}
variable {codeID : Uuid}

theorem Frames.refl
    (ledger : CodeLedger α)
    (c : Nat) :
    Frames ledger c ledger :=
  ⟨fun _ _ => .refl _, List.Subset.refl _, rfl, rfl, rfl,
    .of_subset (List.Subset.refl _)⟩

theorem Frames.sameRows
    (hRows : codes.rows = ledger.codes.rows)
    (hOthers :
      ∀ other, other ≠ c →
        Store.KeptFor EmailedCode.id ledger.codes codes
          other) :
    Frames ledger c { ledger with codes := codes } := by
  refine
    ⟨hOthers, List.Subset.refl _, rfl, rfl, rfl,
      .of_subset ?_⟩
  intro row hRow
  change row ∈ codes.rows
  rw [hRows]
  exact hRow

theorem Frames.rollback
    (hFrames : Frames ledger c ledger') :
    Frames ledger c (ledger'.rollback c) := by
  refine
    ⟨?_, hFrames.claims, hFrames.compared, hFrames.completed,
      hFrames.created, hFrames.rows⟩
  intro other hOther
  exact (hFrames.others other hOther).trans (.rollback hOther)

/- The statement finds no row, and has locked at most one. -/
theorem frames_refused
    (hLock :
      ledger.codes.lockRow c codeID mode = some codes) :
    Frames ledger c
      { ledger with codes := codes.rollback c } := by
  apply Frames.sameRows
  · exact (rows_of_lockRow hLock).1
  · intro other hOther
    exact (Store.KeptFor.lockRow hLock).trans (.rollback hOther)

/- The row that is replaced is replaced by the same code. -/
theorem keepsRows_update
    {rows : List (EmailedCode α)}
    {code changed : EmailedCode α}
    (hUnique : Table.UniqueBy EmailedCode.id rows)
    (hCode : code ∈ rows)
    (hSame : code.SameCode changed) :
    KeepsRows rows
      ((Change.update changed).apply EmailedCode.id rows) := by
  intro row hRow
  by_cases hKey : row.id = changed.id
  · have hEq : row = code :=
      hUnique.eq_of_key_eq hRow hCode (hKey.trans hSame.id)
    refine ⟨changed, ?_, hEq ▸ hSame⟩
    apply (Table.mem_updateWhere_iff _ _ _ _).mpr
    exact ⟨row, hRow, by simp [hKey]⟩
  · refine ⟨row, ?_, .refl row⟩
    apply Table.mem_updateWhere_of_not hRow
    rw [decide_eq_false_iff_not]
    exact hKey

/- A statement of its own has changed one row. -/
theorem frames_updated
    {code changed : EmailedCode α}
    {claims : List CodeEvent}
    (hSound : LedgerSound ledger)
    (hCode : code ∈ ledger.codes.rows)
    (hSame : code.SameCode changed)
    (hUpdated : AutoUpdated ledger c changed codes)
    (hClaims : ledger.claims ⊆ claims) :
    Frames ledger c
      { ledger with codes := codes, claims := claims } := by
  refine ⟨hUpdated.others, hClaims, rfl, rfl, rfl, ?_⟩
  change KeepsRows ledger.codes.rows codes.rows
  rw [hUpdated.rows]
  exact keepsRows_update hSound.store.uniqueRows hCode hSame

theorem frames_claimAttempt
    (hSound : LedgerSound ledger)
    (hNone : ledger.codes.changesOf c = [])
    {answer : Option Nat}
    (hClaim :
      claimAttempt ledger c codeID now =
        some (ledger', answer)) :
    Frames ledger c ledger' ∧
      ledger'.codes.changesOf c = [] ∧
        (answer.isSome →
          { codeID := codeID, call := c } ∈
            ledger'.claims) := by
  unfold claimAttempt at hClaim
  split at hClaim
  · cases hClaim
  · next codes hLock =>
      cases hClaim
      refine
        ⟨frames_refused (lockWhere_some hLock).1,
          Store.changesOf_ended rfl, ?_⟩
      intro hSome
      cases hSome
  · next codes code hLock =>
      cases hClaim
      rcases lockWhere_some hLock with ⟨hRow, hFound⟩
      rcases hFound code rfl with ⟨hView, hKey, _⟩
      rw [visible_eq hNone] at hView
      subst hKey
      let claimed :=
        { code with
          failedAttemptCount := code.failedAttemptCount + 1 }
      have hSame : code.SameCode claimed :=
        ⟨rfl, rfl, rfl, rfl, rfl, rfl⟩
      have hUpdated :=
        autoUpdated_of_lock hSound claimed hNone hRow
      refine ⟨?_, hUpdated.changes, fun _ => ?_⟩
      · exact
          frames_updated hSound hView hSame hUpdated
            (List.subset_cons_self _ _)
      · exact List.mem_cons_self

theorem frames_markUsed
    (hSound : LedgerSound ledger)
    (hNone : ledger.codes.changesOf c = [])
    (hMark : markUsed ledger c codeID = some ledger') :
    Frames ledger c ledger' ∧
      ledger'.codes.changesOf c = [] := by
  unfold markUsed at hMark
  split at hMark
  · cases hMark
  · next codes hLock =>
      cases hMark
      exact
        ⟨frames_refused (lockWhere_some hLock).1,
          Store.changesOf_ended rfl⟩
  · next codes code hLock =>
      cases hMark
      rcases lockWhere_some hLock with ⟨hRow, hFound⟩
      rcases hFound code rfl with ⟨hView, hKey, _⟩
      rw [visible_eq hNone] at hView
      subst hKey
      have hSame :
          code.SameCode { code with isUsed := true } :=
        ⟨rfl, rfl, rfl, rfl, rfl, rfl⟩
      have hUpdated :=
        autoUpdated_of_lock hSound
          { code with isUsed := true } hNone hRow
      refine ⟨?_, hUpdated.changes⟩
      exact
        frames_updated hSound hView hSame hUpdated
          (List.Subset.refl _)

/- Nothing is committed by a statement of a transaction. -/
theorem frames_write
    (hLock :
      ledger.codes.lockRow c codeID mode = some codes)
    (change : Change Uuid (EmailedCode α)) :
    Frames ledger c
      { ledger with codes := codes.write c change } := by
  apply Frames.sameRows
  · exact (rows_of_lockRow hLock).1
  · intro other hOther
    exact
      (Store.KeptFor.lockRow hLock).trans
        (.write hOther.symm)

theorem frames_spend
    {isSpent : Bool}
    (hSpend :
      spend ledger c codeID now = some (ledger', isSpent)) :
    Frames ledger c ledger' := by
  unfold spend at hSpend
  split at hSpend
  · cases hSpend
  · next codes hLock =>
      cases hSpend
      have hRow := (lockWhere_some hLock).1
      exact
        .sameRows (rows_of_lockRow hRow).1 fun _ _ =>
          .lockRow hRow
  · next codes code hLock =>
      cases hSpend
      exact frames_write (lockWhere_some hLock).1 _

theorem frames_insertCode
    {code : EmailedCode α}
    (hInsert : insertCode ledger c code = some ledger') :
    Frames ledger c ledger' := by
  unfold insertCode at hInsert
  split at hInsert
  · cases hInsert
  · cases hInsert
    exact
      ⟨fun _ hOther => .write hOther.symm,
        List.Subset.refl _, rfl, rfl, rfl,
        .of_subset (List.Subset.refl _)⟩

theorem frames_deleteNext
    (hDelete : deleteNext ledger c codeID = some ledger') :
    Frames ledger c ledger' := by
  unfold deleteNext at hDelete
  split at hDelete
  · cases hDelete
  · next codes hLock =>
      cases hDelete
      exact frames_write hLock _

------------------------------------------------------------
-- Commits
------------------------------------------------------------

variable {code : EmailedCode α}

/- The other calls do not notice that one has committed. -/
theorem others_commit
    (hSound : LedgerSound ledger) :
    ∀ other, other ≠ c →
      Store.KeptFor EmailedCode.id ledger.codes
        (ledger.codes.commit c EmailedCode.id) other :=
  fun _ hOther => .commit hSound.store hOther

theorem keepsRows_complete
    (hSound : LedgerSound ledger)
    (hSpending : Spending ledger c code) :
    KeepsRows ledger.codes.rows
      (ledger.complete c code.id).codes.rows := by
  change
    KeepsRows _ (Change.applyAll _ (ledger.codes.changesOf c) _)
  rw [hSpending.changes]
  exact
    keepsRows_update hSound.store.uniqueRows
      hSpending.owns.stored ⟨rfl, rfl, rfl, rfl, rfl, rfl⟩

theorem rows_commitInsert
    (hChanges :
      ledger.codes.changesOf c = [.insert code]) :
    (ledger.commitInsert c code).codes.rows =
      ledger.codes.rows ++ [code] := by
  change Change.applyAll _ (ledger.codes.changesOf c) _ = _
  rw [hChanges]
  rfl

theorem mem_commitDelete
    {codeIDs : List Uuid}
    (hDeleting : Deleting ledger c codeIDs)
    (row : EmailedCode α) :
    row ∈ (ledger.commitDelete c).codes.rows ↔
      row ∈ ledger.codes.rows ∧ row.id ∉ codeIDs := by
  change
    row ∈ Change.applyAll _ (ledger.codes.changesOf c) _ ↔ _
  rw [hDeleting]
  exact mem_deleted codeIDs _

------------------------------------------------------------
-- Counting What Was Created
------------------------------------------------------------

/- The creation times of a user's codes, the last one first. -/
def createdFor
    (ledger : CodeLedger α)
    (userID : Uuid) : List Time :=
  (ledger.created.filter fun code =>
    code.userID = userID).map EmailedCode.createdAt

/- The codes of the user past the time are in the table. -/
def StillCounted
    (ledger : CodeLedger α)
    (userID : Uuid)
    (since : Time) : Prop :=
  ∀ original ∈ ledger.created,
    original.isCreatedSince userID since = true →
      ∃ row ∈ ledger.codes.rows, original.SameCode row

variable {ledger ledger' : CodeLedger α}
variable {userID : Uuid}
variable {since : Time}
variable {c : Nat}

theorem countSince_createdFor
    (ledger : CodeLedger α)
    (userID : Uuid)
    (since : Time) :
    SlidingWindow.countSince since
        (createdFor ledger userID) =
      ledger.created.countP
        (EmailedCode.isCreatedSince userID since) := by
  unfold SlidingWindow.countSince createdFor
  rw [List.countP_map, List.countP_filter]
  apply List.countP_congr
  intro code _
  simp [EmailedCode.isCreatedSince, and_comm]

theorem EmailedCode.SameCode.isCreatedSince
    {first second : EmailedCode α}
    (hSame : first.SameCode second)
    (userID : Uuid)
    (since : Time) :
    second.isCreatedSince userID since =
      first.isCreatedSince userID since := by
  unfold EmailedCode.isCreatedSince
  rw [hSame.userID, hSame.createdAt]

/- No code that counts is missed by the statement. -/
theorem StillCounted.count_le
    (hCounted : StillCounted ledger userID since)
    (hSound : LedgerSound ledger)
    (hNone : ledger.codes.changesOf c = []) :
    SlidingWindow.countSince since
        (createdFor ledger userID) ≤
      countCreatedSince ledger c userID since := by
  rw [countSince_createdFor]
  unfold countCreatedSince
  rw [visible_eq hNone, List.countP_eq_length_filter,
    List.countP_eq_length_filter]
  have hIDs :
      ((ledger.created.filter
          (EmailedCode.isCreatedSince userID since)).map
            EmailedCode.id).Nodup := by
    refine List.Nodup.sublist ?_ hSound.createdOnce
    exact List.Sublist.map _ List.filter_sublist
  have hSubset :
      (ledger.created.filter
          (EmailedCode.isCreatedSince userID since)).map
            EmailedCode.id ⊆
        (ledger.codes.rows.filter
          (EmailedCode.isCreatedSince userID since)).map
            EmailedCode.id := by
    intro codeID hCodeID
    rcases List.mem_map.mp hCodeID with
      ⟨original, hOriginal, rfl⟩
    rcases List.mem_filter.mp hOriginal with
      ⟨hCreated, hSince⟩
    rcases hCounted original hCreated hSince with
      ⟨row, hRow, hSame⟩
    refine List.mem_map.mpr ⟨row, ?_, hSame.id⟩
    refine List.mem_filter.mpr ⟨hRow, ?_⟩
    rw [hSame.isCreatedSince]
    exact hSince
  have hLength :=
    (List.subperm_of_subset hIDs hSubset).length_le
  simpa only [List.length_map] using hLength

theorem StillCounted.mono
    (hCounted : StillCounted ledger userID since)
    {later : Time}
    (hLater : since ≤ later) :
    StillCounted ledger userID later := by
  intro original hOriginal hSince
  apply hCounted original hOriginal
  simp only [EmailedCode.isCreatedSince, Bool.and_eq_true,
    decide_eq_true_eq] at hSince ⊢
  exact ⟨hSince.1, lt_of_le_of_lt hLater hSince.2⟩

theorem StillCounted.keepsRows
    (hCounted : StillCounted ledger userID since)
    (hCreated : ledger'.created = ledger.created)
    (hRows :
      KeepsRows ledger.codes.rows ledger'.codes.rows) :
    StillCounted ledger' userID since := by
  intro original hOriginal hSince
  rw [hCreated] at hOriginal
  rcases hCounted original hOriginal hSince with
    ⟨row, hRow, hSame⟩
  rcases hRows row hRow with ⟨row', hRow', hKept⟩
  exact ⟨row', hRow', hSame.trans hKept⟩

theorem StillCounted.commitInsert
    (hCounted : StillCounted ledger userID since)
    (hChanges :
      ledger.codes.changesOf c = [.insert code]) :
    StillCounted (ledger.commitInsert c code) userID
      since := by
  intro original hOriginal hSince
  rw [rows_commitInsert hChanges]
  rcases List.mem_cons.mp hOriginal with rfl | hOld
  · exact
      ⟨original, List.mem_append_right _
        (List.mem_singleton_self _), .refl original⟩
  · rcases hCounted original hOld hSince with
      ⟨row, hRow, hSame⟩
    exact ⟨row, List.mem_append_left _ hRow, hSame⟩

/- A clean-up that deletes no code that counts. -/
theorem StillCounted.commitDelete
    (hCounted : StillCounted ledger userID since)
    {codeIDs : List Uuid}
    (hDeleting : Deleting ledger c codeIDs)
    (hSpared :
      ∀ row ∈ ledger.codes.rows,
        row.isCreatedSince userID since = true →
          row.id ∉ codeIDs) :
    StillCounted (ledger.commitDelete c) userID since := by
  intro original hOriginal hSince
  rcases hCounted original hOriginal hSince with
    ⟨row, hRow, hSame⟩
  refine ⟨row, ?_, hSame⟩
  apply (mem_commitDelete hDeleting row).mpr
  refine ⟨hRow, hSpared row hRow ?_⟩
  rw [hSame.isCreatedSince]
  exact hSince

/- A code is let in by a count that missed no other one. -/
theorem createdFor_commitInsert
    (ledger : CodeLedger α)
    (c : Nat)
    (code : EmailedCode α)
    (userID : Uuid) :
    createdFor (ledger.commitInsert c code) userID =
      if code.userID = userID then
        code.createdAt :: createdFor ledger userID
      else
        createdFor ledger userID := by
  unfold createdFor
  change
    List.map _ (List.filter _ (code :: ledger.created)) = _
  by_cases hUser : code.userID = userID
  · simp [hUser]
  · simp [hUser]

------------------------------------------------------------
-- The Newest Code
------------------------------------------------------------

instance instTotalNewestFirst :
    Std.Total (@EmailedCode.newestFirst α) where
  total first second := by
    unfold EmailedCode.newestFirst Time Uuid
    omega

instance instTransNewestFirst :
    IsTrans (EmailedCode α) EmailedCode.newestFirst where
  trans first second third hFirst hSecond := by
    unfold EmailedCode.newestFirst Time Uuid at *
    omega

/- No code of the table that is selected is newer. -/
theorem createdAt_le_of_firstBy
    {selects : EmailedCode α → Bool}
    {rows : List (EmailedCode α)}
    {code other : EmailedCode α}
    (hFirst :
      Table.firstBy EmailedCode.newestFirst selects rows =
        some code)
    (hOther : other ∈ rows)
    (hSelected : selects other = true) :
    other.createdAt ≤ code.createdAt := by
  have hOrder := Table.firstBy_precedes hFirst hOther hSelected
  unfold EmailedCode.newestFirst Time Uuid at hOrder
  unfold Time
  omega

------------------------------------------------------------
-- What a Clean-Up Deletes
------------------------------------------------------------

def WasCreatedBefore
    (ledger : CodeLedger α)
    (cutoff : Time)
    (codeID : Uuid) : Prop :=
  ∃ original ∈ ledger.created,
    original.id = codeID ∧ original.createdAt < cutoff

variable {ledger ledger' : CodeLedger α}
variable {c : Nat}
variable {cutoff since : Time}
variable {codeID userID : Uuid}

theorem WasCreatedBefore.mono
    (hBefore : WasCreatedBefore ledger cutoff codeID)
    (hCreated : ledger.created ⊆ ledger'.created) :
    WasCreatedBefore ledger' cutoff codeID := by
  rcases hBefore with ⟨original, hOriginal, hFacts⟩
  exact ⟨original, hCreated hOriginal, hFacts⟩

/- What a clean-up is going to delete was created before. -/
theorem wasCreatedBefore_of_mem
    (hSound : LedgerSound ledger)
    (hNone : ledger.codes.changesOf c = [])
    (hMember : codeID ∈ createdBefore ledger c cutoff) :
    WasCreatedBefore ledger cutoff codeID := by
  unfold createdBefore at hMember
  rw [visible_eq hNone] at hMember
  rcases List.mem_map.mp hMember with ⟨row, hFound, rfl⟩
  rcases List.mem_filter.mp hFound with ⟨hRow, hOld⟩
  rcases hSound.stored row hRow with
    ⟨original, hOriginal, hSame⟩
  refine ⟨original, hOriginal, hSame.id.symm, ?_⟩
  rw [← hSame.createdAt]
  exact of_decide_eq_true hOld

/- Nothing that was created since is among the deleted. -/
theorem not_deleted_of_since
    (hSound : LedgerSound ledger)
    (hCutoff : cutoff ≤ since)
    {deleted : List Uuid}
    (hBefore :
      ∀ codeID ∈ deleted,
        WasCreatedBefore ledger cutoff codeID)
    {row : EmailedCode α}
    (hRow : row ∈ ledger.codes.rows)
    (hSince : row.isCreatedSince userID since = true) :
    row.id ∉ deleted := by
  intro hDeleted
  rcases hBefore row.id hDeleted with
    ⟨original, hOriginal, hKey, hOld⟩
  rcases hSound.stored row hRow with ⟨stored, hStored, hSame⟩
  have hEq : original = stored :=
    hSound.createdOnce.eq_of_key_eq hOriginal hStored
      (hKey.trans hSame.id)
  rw [hEq, ← hSame.createdAt] at hOld
  simp only [EmailedCode.isCreatedSince, Bool.and_eq_true,
    decide_eq_true_eq] at hSince
  unfold Time at *
  omega

------------------------------------------------------------
-- Calls
------------------------------------------------------------

section Calls

variable {σ : Type}
variable {calls : Nat → σ}
variable {c : Nat}
variable {stage : σ}

/- Who has compared is known still after a call moved. -/
theorem compared_update
    {hasCompared : σ → Bool}
    {before after : List CodeEvent}
    (hBefore :
      ∀ event ∈ before, hasCompared (calls event.call) = true)
    (hAfter :
      ∀ event ∈ after,
        event ∈ before ∧
            (hasCompared (calls c) = true →
              hasCompared stage = true) ∨
          event.call = c ∧ hasCompared stage = true) :
    ∀ event ∈ after,
      hasCompared (Function.update calls c stage event.call) =
        true := by
  intro event hEvent
  rcases hAfter event hEvent with
    ⟨hOld, hPast⟩ | ⟨hCall, hHas⟩
  · have hHad := hBefore event hOld
    by_cases hCall : event.call = c
    · rw [hCall] at hHad ⊢
      rw [Function.update_self]
      exact hPast hHad
    · rw [Function.update_of_ne hCall]
      exact hHad
  · rw [hCall, Function.update_self]
    exact hHas

theorem begun_update
    {idle : σ}
    {begun : List Nat}
    (hBegun : ∀ other, calls other ≠ idle → other ∈ begun)
    (hUnderWay : c ∈ begun) :
    ∀ other,
      Function.update calls c stage other ≠ idle →
        other ∈ begun := by
  intro other hOther
  by_cases hCall : other = c
  · rw [hCall]
    exact hUnderWay
  · rw [Function.update_of_ne hCall] at hOther
    exact hBegun other hOther

end Calls

end Users

end Databasus
