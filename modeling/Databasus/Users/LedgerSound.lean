import Databasus.Users.EmailedCodes

/-
  What statements keep true of a ledger of emailed codes.

  Attempts are claimed one at a time, and each comparison has
  an attempt of its own.  A code is spent under its lock, so
  that it is completed once.

  Main declarations:
    * `TransactionSound`
    * `LedgerSound`
    * `LedgerSound.compared_le`
    * `LedgerSound.completed_le`
-/

------------------------------------------------------------
-- Sound Ledgers
------------------------------------------------------------

namespace Databasus

namespace Users

open Foundation

variable {α : Type}

def countEvents
    (codeID : Uuid)
    (events : List CodeEvent) : Nat :=
  events.countP fun event => event.codeID = codeID

/- What the open transaction of a call has changed so far. -/
inductive TransactionSound
    (codes : Store Nat Uuid (EmailedCode α))
    (c : Nat) : List (Change Uuid (EmailedCode α)) → Prop
  | none : TransactionSound codes c []
  | creating
      (code : EmailedCode α)
      (hUnused : code.isUsed = false)
      (hAttempts : code.failedAttemptCount = 0) :
      TransactionSound codes c [.insert code]
  | spending
      (code : EmailedCode α)
      (hOwns : codes.Owns EmailedCode.id c code)
      (hUnused : code.isUsed = false) :
      TransactionSound codes c
        [.update { code with isUsed := true }]
  | deleting
      (codeIDs : List Uuid) :
      TransactionSound codes c (codeIDs.map .delete)

/-
  The attempts of a code are counted in its row, and a code
  that was completed is marked used.
-/
structure LedgerSound
    (ledger : CodeLedger α) : Prop where
  store : ledger.codes.Sound EmailedCode.id
  known :
    ∀ code ∈ ledger.codes.rows ++ ledger.codes.insertedRows,
      code.id ∈ ledger.usedIDs
  eventsKnown :
    ∀ event ∈ ledger.claims ++ ledger.completed,
      event.codeID ∈ ledger.usedIDs
  eventsStored :
    ∀ event ∈ ledger.claims ++ ledger.completed,
      ∀ code ∈ ledger.codes.insertedRows,
        event.codeID ≠ code.id
  attempts :
    ∀ code ∈ ledger.codes.rows,
      countEvents code.id ledger.claims =
        code.failedAttemptCount
  bounded :
    ∀ codeID,
      countEvents codeID ledger.claims ≤ maxCodeAttempts
  comparedOnce : ledger.compared.Nodup
  comparedClaimed : ledger.compared ⊆ ledger.claims
  completedOnce :
    (ledger.completed.map CodeEvent.codeID).Nodup
  spent :
    ∀ event ∈ ledger.completed,
      ∀ code ∈ ledger.codes.rows,
        code.id = event.codeID → code.isUsed = true
  stored :
    ∀ code ∈ ledger.codes.rows,
      ∃ original ∈ ledger.created, original.SameCode code
  createdKnown :
    ∀ code ∈ ledger.created, code.id ∈ ledger.usedIDs
  createdStored :
    ∀ original ∈ ledger.created,
      ∀ code ∈ ledger.codes.insertedRows,
        original.id ≠ code.id
  createdOnce : Table.UniqueBy EmailedCode.id ledger.created
  transactions :
    ∀ c,
      TransactionSound ledger.codes c
        (ledger.codes.changesOf c)

variable {codes codes' : Store Nat Uuid (EmailedCode α)}
variable {ledger : CodeLedger α}
variable {c other : Nat}
variable {changes : List (Change Uuid (EmailedCode α))}

theorem TransactionSound.kept
    (hSound : TransactionSound codes c changes)
    (hKept : Store.KeptFor EmailedCode.id codes codes' c) :
    TransactionSound codes' c changes := by
  cases hSound with
  | none => exact .none
  | creating code hUnused hAttempts =>
      exact .creating code hUnused hAttempts
  | spending code hOwns hUnused =>
      exact .spending code (hKept.owns code hOwns) hUnused
  | deleting codeIDs => exact .deleting codeIDs

/- An inserted code has not been attempted or used. -/
theorem TransactionSound.inserted
    (hSound : TransactionSound codes c changes)
    {code : EmailedCode α}
    (hChanges : changes = [.insert code]) :
    code.isUsed = false ∧ code.failedAttemptCount = 0 := by
  cases hSound with
  | none => cases hChanges
  | creating code hUnused hAttempts =>
      cases hChanges
      exact ⟨hUnused, hAttempts⟩
  | spending code hOwns hUnused => cases hChanges
  | deleting codeIDs =>
      cases codeIDs with
      | nil => cases hChanges
      | cons codeID rest => cases hChanges

/- Nothing was created yet, and nothing was done. -/
theorem LedgerSound.empty :
    LedgerSound
      ({ codes := { rows := [] }, usedIDs := [] } :
        CodeLedger α) := by
  refine
    ⟨⟨.nil, ?_, List.nodup_nil⟩, ?_, ?_, ?_, ?_, ?_,
      List.nodup_nil, List.Subset.refl _, List.nodup_nil,
      ?_, ?_, ?_, ?_, List.nodup_nil, fun _ => .none⟩
  · exact fun _ hPending => absurd hPending List.not_mem_nil
  · exact fun _ hCode => absurd hCode List.not_mem_nil
  · exact fun _ hEvent => absurd hEvent List.not_mem_nil
  · exact fun _ hEvent => absurd hEvent List.not_mem_nil
  · exact fun _ hCode => absurd hCode List.not_mem_nil
  · exact fun _ => Nat.zero_le _
  · exact fun _ hEvent => absurd hEvent List.not_mem_nil
  · exact fun _ hCode => absurd hCode List.not_mem_nil
  · exact fun _ hCode => absurd hCode List.not_mem_nil
  · exact fun _ hCode => absurd hCode List.not_mem_nil

/- A code is compared no more often than attempts allow. -/
theorem LedgerSound.compared_le
    (hSound : LedgerSound ledger)
    (codeID : Uuid) :
    countEvents codeID ledger.compared ≤ maxCodeAttempts := by
  refine Nat.le_trans ?_ (hSound.bounded codeID)
  unfold countEvents
  rw [List.countP_eq_length_filter,
    List.countP_eq_length_filter]
  have hOnce :=
    hSound.comparedOnce.filter fun event =>
      decide (event.codeID = codeID)
  apply (List.subperm_of_subset hOnce ?_).length_le
  intro event hEvent
  rcases List.mem_filter.mp hEvent with ⟨hCompared, hCode⟩
  exact
    List.mem_filter.mpr
      ⟨hSound.comparedClaimed hCompared, hCode⟩

/- A code is completed at most once. -/
theorem LedgerSound.completed_le
    (hSound : LedgerSound ledger)
    (codeID : Uuid) :
    countEvents codeID ledger.completed ≤ 1 := by
  have hCount :
      countEvents codeID ledger.completed =
        (ledger.completed.map CodeEvent.codeID).count
          codeID := by
    unfold countEvents
    rw [List.count, List.countP_map]
    rfl
  rw [hCount]
  exact List.nodup_iff_count_le_one.mp hSound.completedOnce codeID

------------------------------------------------------------
-- Statements of a Transaction
------------------------------------------------------------

variable {codeID : Uuid}
variable {mode : RowLockMode}

/- A step that leaves the committed rows as they are. -/
theorem LedgerSound.storeStep
    (hSound : LedgerSound ledger)
    (hStore : codes.Sound EmailedCode.id)
    (hRows : codes.rows = ledger.codes.rows)
    (hInserted :
      codes.insertedRows ⊆ ledger.codes.insertedRows)
    (hOthers :
      ∀ other, other ≠ c →
        Store.KeptFor EmailedCode.id ledger.codes codes other)
    (hOwn : TransactionSound codes c (codes.changesOf c)) :
    LedgerSound { ledger with codes := codes } := by
  refine
    ⟨hStore, ?_, hSound.eventsKnown, ?_, ?_, hSound.bounded,
      hSound.comparedOnce, hSound.comparedClaimed,
      hSound.completedOnce, ?_, ?_, hSound.createdKnown, ?_,
      hSound.createdOnce, ?_⟩
  · intro code hCode
    apply hSound.known
    rcases List.mem_append.mp hCode with hStored | hNew
    · rw [hRows] at hStored
      exact List.mem_append_left _ hStored
    · exact List.mem_append_right _ (hInserted hNew)
  · intro event hEvent code hCode
    exact
      hSound.eventsStored event hEvent code (hInserted hCode)
  · intro code hCode
    rw [hRows] at hCode
    exact hSound.attempts code hCode
  · intro event hEvent code hCode
    rw [hRows] at hCode
    exact hSound.spent event hEvent code hCode
  · intro code hCode
    rw [hRows] at hCode
    exact hSound.stored code hCode
  · intro original hOriginal code hCode
    exact
      hSound.createdStored original hOriginal code
        (hInserted hCode)
  · intro other
    by_cases hSame : other = c
    · rw [hSame]
      exact hOwn
    · have hKept := hOthers other hSame
      change TransactionSound codes other _
      rw [hKept.changes]
      exact (hSound.transactions other).kept hKept

theorem rows_of_lockRow
    (hLock :
      ledger.codes.lockRow c codeID mode = some codes) :
    codes.rows = ledger.codes.rows ∧
      codes.insertedRows = ledger.codes.insertedRows := by
  rcases Store.lockRow_some hLock with ⟨locks, _, rfl⟩
  exact ⟨rfl, rfl⟩

theorem LedgerSound.lockRow
    (hSound : LedgerSound ledger)
    (hLock :
      ledger.codes.lockRow c codeID mode = some codes) :
    LedgerSound { ledger with codes := codes } := by
  rcases rows_of_lockRow hLock with ⟨hRows, hInserted⟩
  have hKept :
      Store.KeptFor EmailedCode.id ledger.codes codes c :=
    .lockRow hLock
  have hOwn :
      TransactionSound codes c (codes.changesOf c) := by
    rw [hKept.changes]
    exact (hSound.transactions c).kept hKept
  refine
    hSound.storeStep (hSound.store.lockRow hLock) hRows ?_
      (fun _ _ => .lockRow hLock) hOwn
  rw [hInserted]
  exact List.Subset.refl _

theorem LedgerSound.rollback
    (hSound : LedgerSound ledger)
    (c : Nat) :
    LedgerSound (ledger.rollback c) := by
  refine
    hSound.storeStep hSound.store.rollback rfl ?_
      (fun _ hOther => .rollback hOther) ?_
  · intro code hCode
    rcases List.mem_filterMap.mp hCode with
      ⟨pending, hPending, hInserted⟩
    exact
      List.mem_filterMap.mpr
        ⟨pending, (List.mem_filter.mp hPending).1, hInserted⟩
  · rw [Store.changesOf_ended rfl]
    exact .none

/- A statement puts a change under its lock. -/
theorem LedgerSound.write
    (hSound : LedgerSound ledger)
    {change : Change Uuid (EmailedCode α)}
    (hLock :
      ledger.codes.lockRow c codeID mode = some codes)
    (hMode : mode.isExclusive = true)
    (hTouches : change.touches EmailedCode.id = some codeID)
    (hOwn :
      TransactionSound (codes.write c change) c
        ((codes.write c change).changesOf c)) :
    (codes.write c change).Sound EmailedCode.id ∧
      LedgerSound
        { ledger with codes := codes.write c change } := by
  have hLocked := hSound.lockRow hLock
  have hGuards : RowLock.Guards codes.locks c codeID := by
    rcases Store.lockRow_some hLock with
      ⟨locks, hAcquire, rfl⟩
    exact .acquired hAcquire hMode
  have hInserted : change.inserted = none := by
    cases change with
    | insert code => cases hTouches
    | update code => rfl
    | delete k => rfl
  have hStore : (codes.write c change).Sound EmailedCode.id := by
    apply hLocked.store.write
    · intro touched hTouched
      rw [hTouches] at hTouched
      rw [← Option.some.inj hTouched]
      exact hGuards
    · intro added hAdded
      rw [hInserted] at hAdded
      cases hAdded
  refine ⟨hStore, hLocked.storeStep hStore rfl ?_ ?_ hOwn⟩
  · unfold Store.write Store.insertedRows
    simp [hInserted]
  · intro other hOther
    exact .write hOther.symm

------------------------------------------------------------
-- Rows that Change
------------------------------------------------------------

/- After an update a row is the new one, or another's. -/
theorem mem_update
    {changed row : EmailedCode α}
    {rows : List (EmailedCode α)}
    (hRow :
      row ∈
        (Change.update changed).apply EmailedCode.id rows) :
    row = changed ∨ row ∈ rows ∧ row.id ≠ changed.id := by
  rcases (Table.mem_updateWhere_iff _ _ _ _).mp hRow with
    ⟨old, hOld, hChange⟩
  by_cases hSame : old.id = changed.id
  · simp only [hSame, decide_true, if_true] at hChange
    exact Or.inl hChange.symm
  · simp only [hSame, decide_false, Bool.false_eq_true,
      if_false] at hChange
    subst hChange
    exact Or.inr ⟨hOld, hSame⟩

/- The ID of a stored code is no inserted one's. -/
theorem LedgerSound.ne_inserted
    (hSound : LedgerSound ledger)
    {code new : EmailedCode α}
    (hCode : code ∈ ledger.codes.rows)
    (hNew : new ∈ ledger.codes.insertedRows) :
    code.id ≠ new.id := by
  have hUnique := hSound.store.unique
  unfold Table.UniqueBy at hUnique
  rw [List.map_append] at hUnique
  intro hSame
  exact
    List.disjoint_of_nodup_append hUnique
      (List.mem_map_of_mem hCode)
      (hSame ▸ List.mem_map_of_mem hNew)

/-
  One row is changed, and with it the attempts claimed or the
  completions.
-/
theorem LedgerSound.updated
    (hSound : LedgerSound ledger)
    {code changed : EmailedCode α}
    {claims completed : List CodeEvent}
    (hCode : code ∈ ledger.codes.rows)
    (hSame : code.SameCode changed)
    (hUsed : code.isUsed = true → changed.isUsed = true)
    (hStore : codes.Sound EmailedCode.id)
    (hRows :
      codes.rows =
        (Change.update changed).apply EmailedCode.id
          ledger.codes.rows)
    (hInserted :
      codes.insertedRows ⊆ ledger.codes.insertedRows)
    (hOthers :
      ∀ other, other ≠ c →
        Store.KeptFor EmailedCode.id ledger.codes codes other)
    (hNone : codes.changesOf c = [])
    (hClaims :
      ∀ event ∈ claims,
        event ∈ ledger.claims ∨ event.codeID = code.id)
    (hKeeps : ledger.claims ⊆ claims)
    (hOthersCount :
      ∀ codeID, codeID ≠ code.id →
        countEvents codeID claims =
          countEvents codeID ledger.claims)
    (hCount :
      countEvents code.id claims =
        changed.failedAttemptCount)
    (hBound : changed.failedAttemptCount ≤ maxCodeAttempts)
    (hCompleted :
      ∀ event ∈ completed,
        event ∈ ledger.completed ∨
          event.codeID = code.id ∧ changed.isUsed = true)
    (hOnce : (completed.map CodeEvent.codeID).Nodup) :
    LedgerSound
      { ledger with
        codes := codes
        claims := claims
        completed := completed } := by
  have hMember :
      ∀ row ∈ codes.rows,
        row = changed ∨
          row ∈ ledger.codes.rows ∧ row.id ≠ code.id := by
    intro row hRow
    rw [hRows] at hRow
    rw [← hSame.id]
    exact mem_update hRow
  have hEvents :
      ∀ event ∈ claims ++ completed,
        event ∈ ledger.claims ++ ledger.completed ∨
          event.codeID = code.id := by
    intro event hEvent
    rcases List.mem_append.mp hEvent with hClaim | hDone
    · rcases hClaims event hClaim with hOld | hNew
      · exact Or.inl (List.mem_append_left _ hOld)
      · exact Or.inr hNew
    · rcases hCompleted event hDone with hOld | hNew
      · exact Or.inl (List.mem_append_right _ hOld)
      · exact Or.inr hNew.1
  refine
    ⟨hStore, ?_, ?_, ?_, ?_, ?_, hSound.comparedOnce, ?_,
      hOnce, ?_, ?_, hSound.createdKnown, ?_,
      hSound.createdOnce, ?_⟩
  · intro row hRow
    rcases List.mem_append.mp hRow with hStored | hNew
    · rcases hMember row hStored with rfl | ⟨hOld, _⟩
      · rw [hSame.id]
        exact hSound.known code (List.mem_append_left _ hCode)
      · exact hSound.known row (List.mem_append_left _ hOld)
    · exact
        hSound.known row
          (List.mem_append_right _ (hInserted hNew))
  · intro event hEvent
    rcases hEvents event hEvent with hOld | hNew
    · exact hSound.eventsKnown event hOld
    · rw [hNew]
      exact hSound.known code (List.mem_append_left _ hCode)
  · intro event hEvent new hNew
    rcases hEvents event hEvent with hOld | hCodeID
    · exact hSound.eventsStored event hOld new (hInserted hNew)
    · rw [hCodeID]
      exact hSound.ne_inserted hCode (hInserted hNew)
  · intro row hRow
    rcases hMember row hRow with rfl | ⟨hOld, hOther⟩
    · rw [hSame.id]
      exact hCount
    · rw [hOthersCount row.id hOther]
      exact hSound.attempts row hOld
  · intro codeID
    by_cases hCodeID : codeID = code.id
    · rw [hCodeID, hCount]
      exact hBound
    · rw [hOthersCount codeID hCodeID]
      exact hSound.bounded codeID
  · exact fun event hEvent =>
      hKeeps (hSound.comparedClaimed hEvent)
  · intro event hEvent row hRow hKey
    rcases hMember row hRow with rfl | ⟨hOld, hOther⟩
    · rcases hCompleted event hEvent with hEarlier | hNew
      · apply hUsed
        apply hSound.spent event hEarlier code hCode
        rw [← hSame.id]
        exact hKey
      · exact hNew.2
    · rcases hCompleted event hEvent with hEarlier | hNew
      · exact hSound.spent event hEarlier row hOld hKey
      · exact absurd (hKey.trans hNew.1) hOther
  · intro row hRow
    rcases hMember row hRow with rfl | ⟨hOld, _⟩
    · rcases hSound.stored code hCode with
        ⟨original, hOriginal, hFirst⟩
      exact
        ⟨original, hOriginal,
          ⟨hSame.id.trans hFirst.id,
            hSame.userID.trans hFirst.userID,
            hSame.hashedCode.trans hFirst.hashedCode,
            hSame.boundTo.trans hFirst.boundTo,
            hSame.expiresAt.trans hFirst.expiresAt,
            hSame.createdAt.trans hFirst.createdAt⟩⟩
    · exact hSound.stored row hOld
  · intro original hOriginal new hNew
    exact
      hSound.createdStored original hOriginal new
        (hInserted hNew)
  · intro other
    change
      TransactionSound codes other (codes.changesOf other)
    by_cases hCall : other = c
    · rw [hCall, hNone]
      exact .none
    · have hKept := hOthers other hCall
      rw [hKept.changes]
      exact (hSound.transactions other).kept hKept

------------------------------------------------------------
-- Statements on Their Own
------------------------------------------------------------

variable {ledger' : CodeLedger α}

/- A row is locked, and it is there and meets a condition. -/
theorem lockWhere_some
    {condition : EmailedCode α → Bool}
    {found : Option (EmailedCode α)}
    (hLock :
      lockWhere ledger c codeID condition =
        some (codes, found)) :
    ledger.codes.lockRow c codeID .noKeyUpdate =
        some codes ∧
      ∀ code ∈ found,
        code ∈ ledger.visible c ∧ code.id = codeID ∧
          condition code = true := by
  unfold lockWhere at hLock
  cases hRow :
      ledger.codes.lockRow c codeID .noKeyUpdate with
  | none =>
      rw [hRow] at hLock
      cases hLock
  | some locked =>
      rw [hRow] at hLock
      cases hLock
      refine ⟨rfl, ?_⟩
      intro code hCode
      rw [Option.mem_def, Option.filter_eq_some_iff] at hCode
      rcases hCode with ⟨hLookup, hCondition⟩
      rcases Table.lookup_some hLookup with ⟨hView, hKey⟩
      rcases Store.lockRow_some hRow with ⟨locks, _, rfl⟩
      exact ⟨hView, hKey, hCondition⟩

theorem visible_eq
    (hNone : ledger.codes.changesOf c = []) :
    ledger.visible c = ledger.codes.rows :=
  Store.view_of_changesOf_nil hNone

/- What a statement of its own does to the store. -/
structure AutoUpdated
    (ledger : CodeLedger α)
    (c : Nat)
    (changed : EmailedCode α)
    (codes : Store Nat Uuid (EmailedCode α)) : Prop where
  store : codes.Sound EmailedCode.id
  rows :
    codes.rows =
      (Change.update changed).apply EmailedCode.id
        ledger.codes.rows
  inserted :
    codes.insertedRows ⊆ ledger.codes.insertedRows
  others :
    ∀ other, other ≠ c →
      Store.KeptFor EmailedCode.id ledger.codes codes other
  changes : codes.changesOf c = []

theorem autoUpdated_of_lock
    (hSound : LedgerSound ledger)
    (changed : EmailedCode α)
    (hNone : ledger.codes.changesOf c = [])
    (hLock :
      ledger.codes.lockRow c changed.id .noKeyUpdate =
        some codes) :
    AutoUpdated ledger c changed
      (codes.autocommit c EmailedCode.id
        (.update changed)) := by
  rcases rows_of_lockRow hLock with ⟨hRows, hInserted⟩
  have hKept :
      Store.KeptFor EmailedCode.id ledger.codes codes c :=
    .lockRow hLock
  have hLockedNone : codes.changesOf c = [] :=
    hKept.changes.trans hNone
  have hGuards : RowLock.Guards codes.locks c changed.id := by
    rcases Store.lockRow_some hLock with
      ⟨locks, hAcquire, rfl⟩
    exact .acquired hAcquire rfl
  have hWritten :
      (codes.write c (.update changed)).Sound
        EmailedCode.id := by
    apply (hSound.store.lockRow hLock).write
    · intro touched hTouched
      rw [← Option.some.inj hTouched]
      exact hGuards
    · intro added hAdded
      cases hAdded
  refine ⟨hWritten.commit, ?_, ?_, ?_, ?_⟩
  · rw [Store.autocommit_rows hLockedNone, hRows]
  · rw [← hInserted]
    unfold Store.insertedRows
    rw [Store.autocommit_pending hLockedNone]
    exact List.Subset.refl _
  · intro other hOther
    exact
      (Store.KeptFor.lockRow hLock).trans
        (.autocommit hWritten hOther)
  · exact Store.changesOf_ended rfl

/- An attempt is claimed while the code takes one more. -/
theorem LedgerSound.claimAttempt
    (hSound : LedgerSound ledger)
    (hNone : ledger.codes.changesOf c = [])
    {now : Time}
    {answer : Option Nat}
    (hClaim :
      claimAttempt ledger c codeID now =
        some (ledger', answer)) :
    LedgerSound ledger' := by
  unfold Users.claimAttempt at hClaim
  split at hClaim
  · cases hClaim
  · next codes hLock =>
      cases hClaim
      exact (hSound.lockRow (lockWhere_some hLock).1).rollback c
  · next codes code hLock =>
      cases hClaim
      rcases lockWhere_some hLock with ⟨hRow, hFound⟩
      rcases hFound code rfl with ⟨hView, hKey, hOpen⟩
      rw [visible_eq hNone] at hView
      subst hKey
      let claimed :=
        { code with
          failedAttemptCount := code.failedAttemptCount + 1 }
      have hSame : code.SameCode claimed :=
        ⟨rfl, rfl, rfl, rfl, rfl, rfl⟩
      have hUpdated :=
        autoUpdated_of_lock hSound claimed hNone hRow
      have hCount := hSound.attempts code hView
      have hFew :
          code.failedAttemptCount < maxCodeAttempts := by
        simp only [EmailedCode.isClaimable, Bool.and_eq_true,
          decide_eq_true_eq] at hOpen
        exact hOpen.2
      refine
        hSound.updated hView hSame
          (fun hUsed => hUsed) hUpdated.store hUpdated.rows
          hUpdated.inserted hUpdated.others hUpdated.changes
          ?_ ?_ ?_ ?_ hFew
          (fun event hEvent => Or.inl hEvent)
          hSound.completedOnce
      · intro event hEvent
        rcases List.mem_cons.mp hEvent with rfl | hOld
        · exact Or.inr rfl
        · exact Or.inl hOld
      · exact fun event hEvent => List.mem_cons_of_mem _ hEvent
      · intro other hOther
        unfold countEvents
        rw [List.countP_cons_of_neg]
        simpa using Ne.symm hOther
      · unfold countEvents at hCount ⊢
        rw [List.countP_cons_of_pos (by simp), hCount]

theorem LedgerSound.markUsed
    (hSound : LedgerSound ledger)
    (hNone : ledger.codes.changesOf c = [])
    (hMark : markUsed ledger c codeID = some ledger') :
    LedgerSound ledger' := by
  unfold Users.markUsed at hMark
  split at hMark
  · cases hMark
  · next codes hLock =>
      cases hMark
      exact (hSound.lockRow (lockWhere_some hLock).1).rollback c
  · next codes code hLock =>
      cases hMark
      rcases lockWhere_some hLock with ⟨hRow, hFound⟩
      rcases hFound code rfl with ⟨hView, hKey, _⟩
      rw [visible_eq hNone] at hView
      subst hKey
      have hSame :
          code.SameCode { code with isUsed := true } :=
        ⟨rfl, rfl, rfl, rfl, rfl, rfl⟩
      have hUpdated :=
        autoUpdated_of_lock hSound
          { code with isUsed := true } hNone hRow
      have hCount := hSound.attempts code hView
      have hBound := hSound.bounded code.id
      rw [hCount] at hBound
      exact
        hSound.updated hView hSame
          (fun _ => rfl) hUpdated.store hUpdated.rows
          hUpdated.inserted hUpdated.others hUpdated.changes
          (fun event hEvent => Or.inl hEvent)
          (List.Subset.refl _) (fun _ _ => rfl) hCount hBound
          (fun event hEvent => Or.inl hEvent)
          hSound.completedOnce

/- Each comparison has a claimed attempt of its own call. -/
theorem LedgerSound.compare
    (hSound : LedgerSound ledger)
    (hClaimed :
      { codeID := codeID, call := c } ∈ ledger.claims)
    (hFirst :
      { codeID := codeID, call := c } ∉ ledger.compared) :
    LedgerSound (ledger.compare c codeID) :=
  { hSound with
    comparedOnce :=
      List.nodup_cons.mpr ⟨hFirst, hSound.comparedOnce⟩
    comparedClaimed :=
      List.cons_subset.mpr
        ⟨hClaimed, hSound.comparedClaimed⟩ }

------------------------------------------------------------
-- Transactions
------------------------------------------------------------

variable {code : EmailedCode α}
variable {codeIDs : List Uuid}

/- A transaction that has spent the code it has locked. -/
structure Spending
    (ledger : CodeLedger α)
    (c : Nat)
    (code : EmailedCode α) : Prop where
  owns : ledger.codes.Owns EmailedCode.id c code
  unused : code.isUsed = false
  changes :
    ledger.codes.changesOf c =
      [.update { code with isUsed := true }]

/- The code is spent, or the transaction has no change. -/
theorem LedgerSound.spend
    (hSound : LedgerSound ledger)
    (hNone : ledger.codes.changesOf c = [])
    {now : Time}
    {isSpent : Bool}
    (hSpend :
      spend ledger c codeID now = some (ledger', isSpent)) :
    LedgerSound ledger' ∧
      (isSpent = true →
        ∃ code,
          code.id = codeID ∧ code.isOpen now = true ∧
            code ∈ ledger.codes.rows ∧
              Spending ledger' c code) := by
  unfold Users.spend at hSpend
  split at hSpend
  · cases hSpend
  · next codes hLock =>
      cases hSpend
      exact
        ⟨hSound.lockRow (lockWhere_some hLock).1,
          fun hSpent => by cases hSpent⟩
  · next codes code hLock =>
      cases hSpend
      rcases lockWhere_some hLock with ⟨hRow, hFound⟩
      rcases hFound code rfl with ⟨hView, hKey, hOpen⟩
      rw [visible_eq hNone] at hView
      subst hKey
      have hKept :
          Store.KeptFor EmailedCode.id ledger.codes codes c :=
        .lockRow hRow
      have hOwns : codes.Owns EmailedCode.id c code :=
        .acquired hRow rfl hView
      have hUnused : code.isUsed = false := by
        simp only [EmailedCode.isOpen, Bool.and_eq_true,
          Bool.not_eq_true'] at hOpen
        exact hOpen.1
      have hChanges :
          (codes.write c
              (.update
                { code with isUsed := true })).changesOf c =
            [.update { code with isUsed := true }] := by
        rw [Store.changesOf_write_self, hKept.changes, hNone]
        rfl
      refine
        ⟨(hSound.write hRow rfl rfl ?_).2, fun _ =>
          ⟨code, rfl, hOpen, hView, hOwns.write, hUnused,
            hChanges⟩⟩
      rw [hChanges]
      exact .spending code hOwns.write hUnused

/- The code that is completed has not been before. -/
theorem LedgerSound.complete
    (hSound : LedgerSound ledger)
    (hSpending : Spending ledger c code) :
    LedgerSound (ledger.complete c code.id) := by
  have hCode := hSpending.owns.stored
  have hCount := hSound.attempts code hCode
  have hBound := hSound.bounded code.id
  rw [hCount] at hBound
  refine
    hSound.updated hCode
      (⟨rfl, rfl, rfl, rfl, rfl, rfl⟩ :
        code.SameCode { code with isUsed := true })
      (fun _ => rfl) hSound.store.commit ?_ ?_
      (fun _ hOther => .commit hSound.store hOther)
      (Store.changesOf_ended rfl)
      (fun event hEvent => Or.inl hEvent)
      (List.Subset.refl _) (fun _ _ => rfl) hCount hBound ?_
      ?_
  · change Change.applyAll _ (ledger.codes.changesOf c) _ = _
    rw [hSpending.changes]
    rfl
  · intro new hNew
    rcases List.mem_filterMap.mp hNew with
      ⟨pending, hPending, hInserted⟩
    exact
      List.mem_filterMap.mpr
        ⟨pending, (List.mem_filter.mp hPending).1, hInserted⟩
  · intro event hEvent
    rcases List.mem_cons.mp hEvent with rfl | hOld
    · exact Or.inr ⟨rfl, rfl⟩
    · exact Or.inl hOld
  · rw [List.map_cons]
    refine List.nodup_cons.mpr ⟨?_, hSound.completedOnce⟩
    intro hDone
    rcases List.mem_map.mp hDone with ⟨event, hEvent, hKey⟩
    have hUsed := hSound.spent event hEvent code hCode hKey.symm
    rw [hSpending.unused] at hUsed
    cases hUsed

/- A new code is inserted, and nobody sees it yet. -/
theorem LedgerSound.insertCode
    (hSound : LedgerSound ledger)
    (hNone : ledger.codes.changesOf c = [])
    (hUnused : code.isUsed = false)
    (hAttempts : code.failedAttemptCount = 0)
    (hInsert : insertCode ledger c code = some ledger') :
    LedgerSound ledger' ∧
      ledger'.codes.changesOf c = [.insert code] := by
  unfold Users.insertCode at hInsert
  split at hInsert
  · cases hInsert
  · next hFresh =>
      cases hInsert
      have hChanges :
          (ledger.codes.write c (.insert code)).changesOf c =
            [.insert code] := by
        rw [Store.changesOf_write_self, hNone]
        rfl
      have hRows :
          (ledger.codes.write c (.insert code)).insertedRows =
            ledger.codes.insertedRows ++ [code] := by
        unfold Store.write Store.insertedRows
        rw [List.filterMap_append]
        rfl
      have hKnown :
          ∀ other ∈ ledger.usedIDs, other ≠ code.id := by
        rintro other hOther rfl
        exact hFresh hOther
      have hStore :
          (ledger.codes.write c (.insert code)).Sound
            EmailedCode.id := by
        apply hSound.store.write
        · intro touched hTouched
          cases hTouched
        · intro added hAdded row hRow
          cases hAdded
          exact hKnown _ (hSound.known row hRow)
      refine
        ⟨⟨hStore, ?_, ?_, ?_, hSound.attempts, hSound.bounded,
          hSound.comparedOnce, hSound.comparedClaimed,
          hSound.completedOnce, hSound.spent, hSound.stored,
          ?_, ?_, hSound.createdOnce, ?_⟩, hChanges⟩
      · intro row hRow
        change row ∈ ledger.codes.rows ++ _ at hRow
        rw [hRows, ← List.append_assoc] at hRow
        rcases List.mem_append.mp hRow with hOld | hNew
        · exact List.mem_cons_of_mem _ (hSound.known row hOld)
        · rw [List.mem_singleton.mp hNew]
          exact List.mem_cons_self
      · intro event hEvent
        exact
          List.mem_cons_of_mem _
            (hSound.eventsKnown event hEvent)
      · intro event hEvent row hRow
        rw [hRows] at hRow
        rcases List.mem_append.mp hRow with hOld | hNew
        · exact hSound.eventsStored event hEvent row hOld
        · rw [List.mem_singleton.mp hNew]
          exact hKnown _ (hSound.eventsKnown event hEvent)
      · intro original hOriginal
        exact
          List.mem_cons_of_mem _
            (hSound.createdKnown original hOriginal)
      · intro original hOriginal row hRow
        rw [hRows] at hRow
        rcases List.mem_append.mp hRow with hOld | hNew
        · exact hSound.createdStored original hOriginal row hOld
        · rw [List.mem_singleton.mp hNew]
          exact
            hKnown _ (hSound.createdKnown original hOriginal)
      · intro other
        by_cases hCall : other = c
        · rw [hCall, hChanges]
          exact .creating code hUnused hAttempts
        · have hKept :
              Store.KeptFor EmailedCode.id ledger.codes
                (ledger.codes.write c (.insert code)) other :=
            .write (Ne.symm hCall)
          rw [hKept.changes]
          exact (hSound.transactions other).kept hKept

/- What a call has inserted is not yet stored. -/
theorem mem_insertedRows
    (hChanges :
      ledger.codes.changesOf c = [.insert code]) :
    code ∈ ledger.codes.insertedRows := by
  have hOwn :
      Change.insert code ∈ ledger.codes.changesOf c := by
    rw [hChanges]
    exact List.mem_singleton_self _
  exact
    List.mem_filterMap.mpr
      ⟨_, Store.mem_changesOf_iff.mp hOwn, rfl⟩

/- The commit ends one transaction, and keeps the others. -/
theorem LedgerSound.transactions_commit
    (hSound : LedgerSound ledger)
    (c other : Nat) :
    TransactionSound (ledger.codes.commit c EmailedCode.id)
      other
      ((ledger.codes.commit c EmailedCode.id).changesOf
        other) := by
  by_cases hCall : other = c
  · rw [hCall, Store.changesOf_ended rfl]
    exact .none
  · have hKept :
        Store.KeptFor EmailedCode.id ledger.codes
          (ledger.codes.commit c EmailedCode.id) other :=
      .commit hSound.store hCall
    rw [hKept.changes]
    exact (hSound.transactions other).kept hKept

theorem insertedRows_commit
    (ledger : CodeLedger α)
    (c : Nat) :
    (ledger.codes.commit c EmailedCode.id).insertedRows ⊆
      ledger.codes.insertedRows := by
  intro new hNew
  rcases List.mem_filterMap.mp hNew with
    ⟨pending, hPending, hInserted⟩
  exact
    List.mem_filterMap.mpr
      ⟨pending, (List.mem_filter.mp hPending).1, hInserted⟩

theorem LedgerSound.commitInsert
    (hSound : LedgerSound ledger)
    (hChanges :
      ledger.codes.changesOf c = [.insert code]) :
    LedgerSound (ledger.commitInsert c code) := by
  have hNew := mem_insertedRows hChanges
  have hRows :
      (ledger.codes.commit c EmailedCode.id).rows =
        ledger.codes.rows ++ [code] := by
    change Change.applyAll _ (ledger.codes.changesOf c) _ = _
    rw [hChanges]
    rfl
  have hInserted := insertedRows_commit ledger c
  have hStore :
      (ledger.codes.commit c EmailedCode.id).Sound
        EmailedCode.id :=
    hSound.store.commit
  have hAttempts : code.failedAttemptCount = 0 :=
    ((hSound.transactions c).inserted hChanges).2
  have hMember :
      ∀ row ∈ (ledger.codes.commit c EmailedCode.id).rows,
        row ∈ ledger.codes.rows ∨ row = code := by
    intro row hRow
    rw [hRows] at hRow
    rcases List.mem_append.mp hRow with hOld | hOwn
    · exact Or.inl hOld
    · exact Or.inr (List.mem_singleton.mp hOwn)
  refine
    ⟨hStore, ?_, hSound.eventsKnown, ?_, ?_, hSound.bounded,
      hSound.comparedOnce, hSound.comparedClaimed,
      hSound.completedOnce, ?_, ?_, ?_, ?_, ?_, ?_⟩
  · intro row hRow
    apply hSound.known
    rcases List.mem_append.mp hRow with hStored | hOther
    · rcases hMember row hStored with hOld | rfl
      · exact List.mem_append_left _ hOld
      · exact List.mem_append_right _ hNew
    · exact List.mem_append_right _ (hInserted hOther)
  · intro event hEvent row hRow
    exact hSound.eventsStored event hEvent row (hInserted hRow)
  · intro row hRow
    rcases hMember row hRow with hOld | rfl
    · exact hSound.attempts row hOld
    · rw [hAttempts]
      unfold countEvents
      rw [List.countP_eq_zero]
      intro event hEvent
      have hOther :=
        hSound.eventsStored event
          (List.mem_append_left _ hEvent) row hNew
      simpa using hOther
  · intro event hEvent row hRow hKey
    rcases hMember row hRow with hOld | rfl
    · exact hSound.spent event hEvent row hOld hKey
    · exact
        absurd hKey.symm
          (hSound.eventsStored event
            (List.mem_append_right _ hEvent) row hNew)
  · intro row hRow
    rcases hMember row hRow with hOld | rfl
    · rcases hSound.stored row hOld with
        ⟨original, hOriginal, hSame⟩
      exact ⟨original, List.mem_cons_of_mem _ hOriginal, hSame⟩
    · exact
        ⟨row, List.mem_cons_self,
          ⟨rfl, rfl, rfl, rfl, rfl, rfl⟩⟩
  · intro original hOriginal
    rcases List.mem_cons.mp hOriginal with rfl | hOld
    · exact hSound.known original (List.mem_append_right _ hNew)
    · exact hSound.createdKnown original hOld
  · intro original hOriginal row hRow
    rcases List.mem_cons.mp hOriginal with rfl | hOld
    · have hUnique := hStore.unique
      rw [hRows] at hUnique
      unfold Table.UniqueBy at hUnique
      rw [List.map_append] at hUnique
      intro hSame
      refine
        List.disjoint_of_nodup_append hUnique
          (List.mem_map_of_mem
            (List.mem_append_right _
              (List.mem_singleton_self original)))
          ?_
      rw [hSame]
      exact List.mem_map_of_mem hRow
    · exact
        hSound.createdStored original hOld row
          (hInserted hRow)
  · change (List.map _ (code :: ledger.created)).Nodup
    rw [List.map_cons]
    refine List.nodup_cons.mpr ⟨?_, hSound.createdOnce⟩
    intro hOld
    rcases List.mem_map.mp hOld with
      ⟨original, hOriginal, hSame⟩
    exact
      hSound.createdStored original hOriginal code hNew hSame
  · exact hSound.transactions_commit c

/- A clean-up has so far deleted rows, and nothing else. -/
def Deleting
    (ledger : CodeLedger α)
    (c : Nat)
    (codeIDs : List Uuid) : Prop :=
  ledger.codes.changesOf c = codeIDs.map .delete

theorem LedgerSound.deleteNext
    (hSound : LedgerSound ledger)
    (hDeleting : Deleting ledger c codeIDs)
    (hDelete : deleteNext ledger c codeID = some ledger') :
    LedgerSound ledger' ∧
      Deleting ledger' c (codeIDs ++ [codeID]) := by
  unfold Users.deleteNext at hDelete
  cases hLock :
      ledger.codes.lockRow c codeID .update with
  | none =>
      rw [hLock] at hDelete
      cases hDelete
  | some codes =>
      rw [hLock] at hDelete
      cases hDelete
      have hKept :
          Store.KeptFor EmailedCode.id ledger.codes codes c :=
        .lockRow hLock
      have hChanges :
          (codes.write c (.delete codeID)).changesOf c =
            (codeIDs ++ [codeID]).map .delete := by
        rw [Store.changesOf_write_self, hKept.changes,
          hDeleting, List.map_append]
        rfl
      refine ⟨(hSound.write hLock rfl rfl ?_).2, hChanges⟩
      rw [hChanges]
      exact .deleting _

/- What is left of a table after rows were deleted. -/
theorem mem_deleted
    {row : EmailedCode α}
    (codeIDs : List Uuid) :
    ∀ rows : List (EmailedCode α),
      row ∈
          Change.applyAll EmailedCode.id
            (codeIDs.map .delete) rows ↔
        row ∈ rows ∧ row.id ∉ codeIDs := by
  induction codeIDs with
  | nil =>
      intro rows
      simp
  | cons codeID rest ih =>
      intro rows
      rw [List.map_cons, Change.applyAll_cons, ih]
      change
        row ∈ Table.deleteWhere _ rows ∧ _ ↔ _
      rw [Table.mem_deleteWhere_iff]
      simp only [decide_eq_false_iff_not, List.mem_cons,
        not_or]
      exact and_assoc

theorem LedgerSound.commitDelete
    (hSound : LedgerSound ledger)
    (hDeleting : Deleting ledger c codeIDs) :
    LedgerSound (ledger.commitDelete c) := by
  have hMember :
      ∀ row ∈ (ledger.codes.commit c EmailedCode.id).rows,
        row ∈ ledger.codes.rows := by
    intro row hRow
    change
      row ∈ Change.applyAll _ (ledger.codes.changesOf c) _
        at hRow
    rw [hDeleting] at hRow
    exact ((mem_deleted codeIDs _).mp hRow).1
  have hInserted := insertedRows_commit ledger c
  refine
    ⟨hSound.store.commit, ?_, hSound.eventsKnown, ?_, ?_,
      hSound.bounded, hSound.comparedOnce,
      hSound.comparedClaimed, hSound.completedOnce, ?_, ?_,
      hSound.createdKnown, ?_, hSound.createdOnce, ?_⟩
  · intro row hRow
    apply hSound.known
    rcases List.mem_append.mp hRow with hStored | hNew
    · exact List.mem_append_left _ (hMember row hStored)
    · exact List.mem_append_right _ (hInserted hNew)
  · intro event hEvent row hRow
    exact hSound.eventsStored event hEvent row (hInserted hRow)
  · intro row hRow
    exact hSound.attempts row (hMember row hRow)
  · intro event hEvent row hRow
    exact hSound.spent event hEvent row (hMember row hRow)
  · intro row hRow
    exact hSound.stored row (hMember row hRow)
  · intro original hOriginal row hRow
    exact
      hSound.createdStored original hOriginal row
        (hInserted hRow)
  · exact hSound.transactions_commit c

end Users

end Databasus
