import Databasus.Foundation.RowLocks
import Databasus.Foundation.Table

/-
  Transactions on a keyed table that read committed rows.

  Each statement of a transaction sees the committed rows
  with the transaction's own changes made.  A transaction
  locks a row before it changes it, and its changes become
  rows of the table all at once, when it commits.

  Main declarations:
    * `Change`, `Change.countP_update`
    * `Store`
    * `Store.view`, `Store.lockRow`, `Store.write`
    * `Store.commit`, `Store.rollback`, `Store.autocommit`
    * `Store.checkIndex`
    * `Store.Sound`
    * `Store.Owns`, `Store.KeptFor`
-/

------------------------------------------------------------
-- Changes
------------------------------------------------------------

namespace Foundation

variable {κ ρ : Type}
variable {rows : List ρ}

/- What a statement does to a row; an update stores a row. -/
inductive Change (κ ρ : Type)
  | insert (row : ρ)
  | update (row : ρ)
  | delete (key : κ)
deriving DecidableEq, Repr

namespace Change

variable (key : ρ → κ)

/- The key of the row that has to be locked beforehand. -/
def touches : Change κ ρ → Option κ
  | .insert _ => none
  | .update row => some (key row)
  | .delete k => some k

/- The row that the change puts into the table. -/
def stored : Change κ ρ → Option ρ
  | .insert row => some row
  | .update row => some row
  | .delete _ => none

def inserted : Change κ ρ → Option ρ
  | .insert row => some row
  | _ => none

variable [DecidableEq κ]

def apply : Change κ ρ → List ρ → List ρ
  | .insert row, rows => rows ++ [row]
  | .update row, rows =>
      Table.updateWhere (fun old => key old = key row)
        (fun _ => row) rows
  | .delete k, rows =>
      Table.deleteWhere (fun row => key row = k) rows

def applyAll
    (changes : List (Change κ ρ))
    (rows : List ρ) : List ρ :=
  changes.foldl (fun rows change => change.apply key rows)
    rows

variable {key}

@[simp]
theorem applyAll_nil
    (rows : List ρ) :
    applyAll key [] rows = rows := rfl

@[simp]
theorem applyAll_cons
    (change : Change κ ρ)
    (changes : List (Change κ ρ))
    (rows : List ρ) :
    applyAll key (change :: changes) rows =
      applyAll key changes (change.apply key rows) := rfl

/- A row is kept by the changes that do not touch its key. -/
theorem mem_applyAll
    {row : ρ}
    (changes : List (Change κ ρ)) :
    ∀ rows : List ρ,
      (∀ change ∈ changes,
        change.touches key ≠ some (key row)) →
      row ∈ rows →
        row ∈ applyAll key changes rows := by
  induction changes with
  | nil =>
      intro rows _ hRow
      exact hRow
  | cons change rest ih =>
      intro rows hOther hRow
      rw [applyAll_cons]
      apply ih
      · intro later hLater
        exact hOther later (List.mem_cons_of_mem _ hLater)
      · have hChange := hOther change List.mem_cons_self
        cases change with
        | insert added => exact List.mem_append_left _ hRow
        | update changed =>
            apply Table.mem_updateWhere_of_not hRow
            rw [decide_eq_false_iff_not]
            intro hKey
            exact hChange (by rw [touches, hKey])
        | delete k =>
            refine
              (Table.mem_deleteWhere_iff _ _ _).mpr
                ⟨hRow, ?_⟩
            rw [decide_eq_false_iff_not]
            intro hKey
            exact hChange (by rw [touches, hKey])

/- Rows whose keys are all different stay so. -/
theorem uniqueBy_applyAll
    (changes : List (Change κ ρ)) :
    ∀ rows others : List ρ,
      Table.UniqueBy key
          (rows ++ changes.filterMap inserted ++ others) →
        Table.UniqueBy key
          (applyAll key changes rows ++ others) := by
  induction changes with
  | nil =>
      intro rows others hUnique
      simpa using hUnique
  | cons change rest ih =>
      intro rows others hUnique
      rw [applyAll_cons]
      apply ih
      cases change with
      | insert added => simpa [apply, inserted] using hUnique
      | update changed =>
          have hKeys :
              (apply key (.update changed : Change κ ρ)
                  rows).map key =
                rows.map key := by
            unfold apply Table.updateWhere
            rw [List.map_map]
            apply List.map_congr_left
            intro row _
            by_cases hSame : key row = key changed
            · simp [hSame]
            · simp [hSame]
          unfold Table.UniqueBy at hUnique ⊢
          simp only [inserted, List.filterMap_cons,
            List.map_append] at hUnique ⊢
          rw [hKeys]
          exact hUnique
      | delete k =>
          have hFewer :
              (apply key (.delete k : Change κ ρ)
                  rows).Sublist rows :=
            List.filter_sublist
          unfold Table.UniqueBy at hUnique ⊢
          simp only [inserted, List.filterMap_cons]
            at hUnique
          refine hUnique.sublist (List.Sublist.map key ?_)
          exact
            (hFewer.append (List.Sublist.refl _)).append
              (List.Sublist.refl _)

/- An update of a row counts the new one for the old one. -/
theorem countP_update
    (hUnique : Table.UniqueBy key rows)
    {old changed : ρ}
    (hOld : old ∈ rows)
    (hKey : key changed = key old)
    (counts : ρ → Bool) :
    ((update changed).apply key rows).countP counts +
        (if counts old then 1 else 0) =
      rows.countP counts +
        (if counts changed then 1 else 0) := by
  rcases List.append_of_mem hOld with ⟨before, after, rfl⟩
  have hSplit :
      (update changed).apply key (before ++ old :: after) =
        before ++ changed :: after := by
    simp only [apply]
    rw [hUnique.updateWhere_split]
    · simp [hKey]
    · intro other hOther
      rw [← hKey]
      exact of_decide_eq_true hOther
  rw [hSplit]
  simp only [List.countP_append, List.countP_cons]
  omega

/- A row that does not count can be deleted unnoticed. -/
theorem countP_delete
    {k : κ}
    {counts : ρ → Bool}
    (hCounts :
      ∀ row ∈ rows, key row = k → counts row = false) :
    ((delete k).apply key rows).countP counts =
      rows.countP counts := by
  simp only [apply, Table.deleteWhere]
  rw [List.countP_filter]
  apply List.countP_congr
  intro row hRow
  by_cases hKey : key row = k
  · simp [hCounts row hRow hKey]
  · simp [hKey]

end Change

------------------------------------------------------------
-- The Store
------------------------------------------------------------

/- A change that has not been committed, and by whom. -/
structure Pending (τ κ ρ : Type) where
  owner : τ
  change : Change κ ρ
deriving DecidableEq, Repr

/- Committed rows, changes under way, and the row locks. -/
structure Store (τ κ ρ : Type) where
  rows : List ρ
  pending : List (Pending τ κ ρ) := []
  locks : List (RowLock τ κ) := []
deriving DecidableEq

namespace Store

variable {τ κ ρ : Type} [DecidableEq τ]
variable (store : Store τ κ ρ)
variable (owner : τ)

def changesOf : List (Change κ ρ) :=
  (store.pending.filter fun pending =>
    pending.owner = owner).map Pending.change

def otherPending : List (Pending τ κ ρ) :=
  store.pending.filter fun pending => pending.owner ≠ owner

def insertedRows : List ρ :=
  store.pending.filterMap fun pending =>
    pending.change.inserted

def write
    (change : Change κ ρ) : Store τ κ ρ :=
  { store with
    pending :=
      store.pending ++
        [{ owner := owner, change := change }] }

/- A transaction that fails leaves no change behind. -/
def rollback : Store τ κ ρ :=
  { store with
    pending := store.otherPending owner
    locks := RowLock.release store.locks owner }

variable [DecidableEq κ]

/- The lock is granted, or the transaction waits. -/
def lockRow
    (row : κ)
    (mode : RowLockMode) : Option (Store τ κ ρ) :=
  match RowLock.acquire store.locks owner row mode with
  | none => none
  | some locks => some { store with locks := locks }

variable (key : ρ → κ)

/- What a statement of the transaction sees. -/
def view : List ρ :=
  Change.applyAll key (store.changesOf owner) store.rows

def commit : Store τ κ ρ :=
  { rows := store.view owner key
    pending := store.otherPending owner
    locks := RowLock.release store.locks owner }

/- A statement that is a transaction of its own. -/
def autocommit
    (change : Change κ ρ) : Store τ κ ρ :=
  (store.write owner change).commit owner key

/- Another transaction is about to change the row. -/
def isBeingChanged
    (row : κ) : Bool :=
  (store.otherPending owner).any fun pending =>
    pending.change.touches key = some row

inductive IndexVerdict
  | free
  | violated
  | waits
deriving DecidableEq, Repr

/-
  What a unique index answers for a new entry: a row in its
  way is an error, and a row whose fate is open is waited for.
-/
def checkIndex
    (conflicts : ρ → Bool) : IndexVerdict :=
  if
    (store.view owner key).any fun row =>
      conflicts row &&
        !store.isBeingChanged owner key (key row)
  then
    .violated
  else if
    (store.view owner key).any conflicts ||
      (store.otherPending owner).any fun pending =>
        pending.change.stored.any conflicts
  then
    .waits
  else
    .free

------------------------------------------------------------
-- Changes of a Transaction
------------------------------------------------------------

variable {store}
variable {store' : Store τ κ ρ}
variable {owner}
variable {other : τ}
variable {change : Change κ ρ}

@[simp]
theorem changesOf_write_self :
    (store.write owner change).changesOf owner =
      store.changesOf owner ++ [change] := by
  simp [write, changesOf]

theorem changesOf_write_other
    (hOther : owner ≠ other) :
    (store.write owner change).changesOf other =
      store.changesOf other := by
  simp [write, changesOf, hOther]

theorem mem_changesOf_iff :
    change ∈ store.changesOf owner ↔
      { owner := owner, change := change } ∈
        store.pending := by
  unfold changesOf
  rw [List.mem_map]
  constructor
  · rintro ⟨pending, hPending, rfl⟩
    rcases List.mem_filter.mp hPending with ⟨hMember, hOwner⟩
    rw [← of_decide_eq_true hOwner]
    exact hMember
  · intro hMember
    exact ⟨_, List.mem_filter.mpr ⟨hMember, by simp⟩, rfl⟩

/- A transaction that has ended has no changes. -/
theorem changesOf_ended
    (hPending : store'.pending = store.otherPending owner) :
    store'.changesOf owner = [] := by
  unfold changesOf
  rw [hPending, otherPending, List.filter_filter]
  simp

theorem changesOf_ended_other
    (hPending : store'.pending = store.otherPending owner)
    (hOther : other ≠ owner) :
    store'.changesOf other = store.changesOf other := by
  unfold changesOf
  rw [hPending, otherPending, List.filter_filter]
  congr 1
  apply List.filter_congr
  intro pending _
  by_cases hOwner : pending.owner = other
  · simp [hOwner, hOther]
  · simp [hOwner]

/- The new rows are the transaction's and the others'. -/
theorem insertedRows_perm
    (hPending : store'.pending = store.otherPending owner) :
    List.Perm store.insertedRows
      ((store.changesOf owner).filterMap Change.inserted ++
        store'.insertedRows) := by
  have hSplit :=
    List.filter_append_perm
      (fun pending : Pending τ κ ρ =>
        decide (pending.owner = owner)) store.pending
  have hRows :=
    hSplit.symm.filterMap fun pending : Pending τ κ ρ =>
      pending.change.inserted
  rw [List.filterMap_append] at hRows
  unfold insertedRows changesOf
  rw [hPending, otherPending, List.filterMap_map]
  simpa [Function.comp_def] using hRows

------------------------------------------------------------
-- Sound Stores
------------------------------------------------------------

variable {key}
variable {k : κ}
variable {mode : RowLockMode}
variable {row : ρ}
variable {conflicts : ρ → Bool}

/-
  No lock conflicts with another one, changes are made under
  locks, and the keys of all rows there may be are different.
-/
structure Sound
    (key : ρ → κ)
    (store : Store τ κ ρ) : Prop where
  compatible : RowLock.Compatible store.locks
  guarded :
    ∀ pending ∈ store.pending,
      ∀ k, pending.change.touches key = some k →
        RowLock.Guards store.locks pending.owner k
  unique :
    Table.UniqueBy key (store.rows ++ store.insertedRows)

/- The transaction has locked the row, which is committed. -/
structure Owns
    (key : ρ → κ)
    (store : Store τ κ ρ)
    (owner : τ)
    (row : ρ) : Prop where
  stored : row ∈ store.rows
  guards : RowLock.Guards store.locks owner (key row)

theorem Sound.uniqueRows
    (hSound : Sound key store) :
    Table.UniqueBy key store.rows := by
  have hUnique := hSound.unique
  unfold Table.UniqueBy at hUnique ⊢
  rw [List.map_append] at hUnique
  exact hUnique.of_append_left

theorem Sound.write
    (hSound : Sound key store)
    (hGuards :
      ∀ k, change.touches key = some k →
        RowLock.Guards store.locks owner k)
    (hFresh :
      ∀ added, change.inserted = some added →
        ∀ row ∈ store.rows ++ store.insertedRows,
          key row ≠ key added) :
    Sound key (store.write owner change) := by
  refine ⟨hSound.compatible, ?_, ?_⟩
  · intro pending hPending touched hTouches
    rcases List.mem_append.mp hPending with hOld | hNew
    · exact hSound.guarded pending hOld touched hTouches
    · rw [List.mem_singleton.mp hNew] at hTouches ⊢
      exact hGuards touched hTouches
  · unfold Store.write insertedRows
    simp only [List.filterMap_append]
    cases hInserted : change.inserted with
    | none =>
        simpa [hInserted, insertedRows] using hSound.unique
    | some added =>
        have hAppended :=
          hSound.unique.append (hFresh added hInserted)
        simpa [hInserted, insertedRows] using hAppended

theorem Owns.write
    (hOwns : Owns key store other row) :
    Owns key (store.write owner change) other row :=
  ⟨hOwns.stored, hOwns.guards⟩

/- A row under a transaction's lock that has a key is it. -/
theorem Owns.eq_of_key_eq
    (hOwns : Owns key store owner row)
    (hSound : Sound key store)
    {found : ρ}
    (hFound : found ∈ store.rows)
    (hKey : key found = key row) :
    found = row :=
  hSound.uniqueRows.eq_of_key_eq hFound hOwns.stored hKey

variable [DecidableEq τ]

/- The changes of others survive the end of a transaction. -/
theorem Sound.guarded_ended
    (hSound : Sound key store) :
    ∀ pending ∈ store.otherPending owner,
      ∀ k, pending.change.touches key = some k →
        RowLock.Guards (RowLock.release store.locks owner)
          pending.owner k := by
  intro pending hPending touched hTouches
  rcases List.mem_filter.mp hPending with ⟨hMember, hOther⟩
  exact
    (hSound.guarded pending hMember touched
      hTouches).release (of_decide_eq_true hOther)

theorem Sound.rollback
    (hSound : Sound key store) :
    Sound key (store.rollback owner) := by
  refine
    ⟨hSound.compatible.release owner, hSound.guarded_ended,
      ?_⟩
  have hPerm :
      List.Perm store.insertedRows
        ((store.changesOf owner).filterMap Change.inserted ++
          (store.rollback owner).insertedRows) :=
    insertedRows_perm rfl
  have hUnique := hSound.unique
  unfold Table.UniqueBy at hUnique ⊢
  have hAll := (hPerm.append_left store.rows).map key
  rw [hAll.nodup_iff] at hUnique
  refine hUnique.sublist (List.Sublist.map key ?_)
  exact
    (List.Sublist.refl _).append
      (List.sublist_append_right _ _)

theorem Owns.rollback
    (hOwns : Owns key store other row)
    (hOther : other ≠ owner) :
    Owns key (store.rollback owner) other row :=
  ⟨hOwns.stored, hOwns.guards.release hOther⟩

variable [DecidableEq κ]

theorem lockRow_some
    (hLock : store.lockRow owner k mode = some store') :
    ∃ locks,
      RowLock.acquire store.locks owner k mode = some locks ∧
        store' = { store with locks := locks } := by
  unfold lockRow at hLock
  cases hAcquire :
      RowLock.acquire store.locks owner k mode with
  | none =>
      rw [hAcquire] at hLock
      cases hLock
  | some locks =>
      rw [hAcquire] at hLock
      exact ⟨locks, rfl, (Option.some.inj hLock).symm⟩

theorem Sound.lockRow
    (hSound : Sound key store)
    (hLock : store.lockRow owner k mode = some store') :
    Sound key store' := by
  rcases lockRow_some hLock with ⟨locks, hAcquire, rfl⟩
  refine ⟨?_, ?_, hSound.unique⟩
  · exact hSound.compatible.acquire hAcquire
  · intro pending hPending touched hTouches
    exact
      (hSound.guarded pending hPending touched
        hTouches).acquire hAcquire

theorem Sound.commit
    (hSound : Sound key store) :
    Sound key (store.commit owner key) := by
  refine
    ⟨hSound.compatible.release owner, hSound.guarded_ended,
      ?_⟩
  have hPerm :
      List.Perm store.insertedRows
        ((store.changesOf owner).filterMap Change.inserted ++
          (store.commit owner key).insertedRows) :=
    insertedRows_perm rfl
  apply Change.uniqueBy_applyAll
  have hUnique := hSound.unique
  unfold Table.UniqueBy at hUnique ⊢
  have hAll := (hPerm.append_left store.rows).map key
  rw [hAll.nodup_iff, ← List.append_assoc] at hUnique
  exact hUnique

theorem Owns.acquired
    (hLock : store.lockRow owner (key row) mode = some store')
    (hMode : mode.isExclusive = true)
    (hRow : row ∈ store.rows) :
    Owns key store' owner row := by
  rcases lockRow_some hLock with ⟨locks, hAcquire, rfl⟩
  exact ⟨hRow, .acquired hAcquire hMode⟩

theorem Owns.lockRow
    (hOwns : Owns key store other row)
    (hLock : store.lockRow owner k mode = some store') :
    Owns key store' other row := by
  rcases lockRow_some hLock with ⟨locks, hAcquire, rfl⟩
  exact ⟨hOwns.stored, hOwns.guards.acquire hAcquire⟩

/- A row is safe from the commits of other transactions. -/
theorem Owns.commit
    (hOwns : Owns key store other row)
    (hSound : Sound key store)
    (hOther : other ≠ owner) :
    Owns key (store.commit owner key) other row := by
  refine ⟨?_, hOwns.guards.release hOther⟩
  apply Change.mem_applyAll
  · intro change hChange hTouches
    rw [mem_changesOf_iff] at hChange
    have hGuards := hSound.guarded _ hChange (key row) hTouches
    exact
      hOther
        (hSound.compatible.guards_same hOwns.guards hGuards)
  · exact hOwns.stored

/- The view of a transaction without changes: the rows. -/
theorem view_of_changesOf_nil
    (hNone : store.changesOf owner = []) :
    store.view owner key = store.rows := by
  unfold view
  rw [hNone, Change.applyAll_nil]

theorem Sound.uniqueView
    (hSound : Sound key store) :
    Table.UniqueBy key (store.view owner key) :=
  (hSound.commit : Sound key (store.commit owner key)).uniqueRows

theorem checkIndex_free
    (hFree :
      store.checkIndex owner key conflicts = .free) :
    (∀ row ∈ store.view owner key, conflicts row = false) ∧
      ∀ pending ∈ store.otherPending owner,
        pending.change.stored.any conflicts = false := by
  unfold checkIndex at hFree
  split at hFree
  · cases hFree
  · split at hFree
    · cases hFree
    · next hNone =>
        rw [Bool.or_eq_true, not_or] at hNone
        simpa using hNone

/- A key that an index lets in is no key of any row. -/
theorem fresh_of_checkIndex_free
    {added : ρ}
    (hNone : store.changesOf owner = [])
    (hFree : store.checkIndex owner key conflicts = .free)
    (hKey : ∀ row, key row = key added → conflicts row) :
    ∀ row ∈ store.rows ++ store.insertedRows,
      key row ≠ key added := by
  rcases checkIndex_free hFree with ⟨hRows, hPending⟩
  rw [view_of_changesOf_nil hNone] at hRows
  intro row hRow hSame
  have hConflicts := hKey row hSame
  rcases List.mem_append.mp hRow with hStored | hInserted
  · rw [hRows row hStored] at hConflicts
    cases hConflicts
  · rcases List.mem_filterMap.mp hInserted with
      ⟨pending, hMember, hChange⟩
    have hOther : pending.owner ≠ owner := by
      rintro rfl
      have hOwn := mem_changesOf_iff.mpr hMember
      rw [hNone] at hOwn
      cases hOwn
    have hFreeOf :=
      hPending pending
        (List.mem_filter.mpr
          ⟨hMember, decide_eq_true hOther⟩)
    have hStored : pending.change.stored = some row := by
      cases hCase : pending.change with
      | insert added =>
          rw [hCase] at hChange
          exact hChange
      | update changed =>
          rw [hCase] at hChange
          cases hChange
      | delete k =>
          rw [hCase] at hChange
          cases hChange
    rw [hStored, Option.any_some, hConflicts] at hFreeOf
    cases hFreeOf

------------------------------------------------------------
-- Steps of Others
------------------------------------------------------------

/- What a transaction has done and locked is as it was. -/
structure KeptFor
    (key : ρ → κ)
    (store store' : Store τ κ ρ)
    (owner : τ) : Prop where
  changes : store'.changesOf owner = store.changesOf owner
  owns :
    ∀ row, Owns key store owner row → Owns key store' owner row

namespace KeptFor

variable {middle : Store τ κ ρ}

theorem refl
    (store : Store τ κ ρ) :
    KeptFor key store store owner :=
  ⟨rfl, fun _ hOwns => hOwns⟩

theorem trans
    (hFirst : KeptFor key store middle owner)
    (hSecond : KeptFor key middle store' owner) :
    KeptFor key store store' owner :=
  ⟨hSecond.changes.trans hFirst.changes, fun row hOwns =>
    hSecond.owns row (hFirst.owns row hOwns)⟩

theorem write
    (hOther : owner ≠ other) :
    KeptFor key store (store.write owner change) other :=
  ⟨changesOf_write_other hOther, fun _ hOwns => hOwns.write⟩

theorem rollback
    (hOther : other ≠ owner) :
    KeptFor key store (store.rollback owner) other :=
  ⟨changesOf_ended_other rfl hOther, fun _ hOwns =>
    hOwns.rollback hOther⟩

variable [DecidableEq κ]

theorem lockRow
    (hLock : store.lockRow owner k mode = some store') :
    KeptFor key store store' other := by
  refine ⟨?_, fun _ hOwns => hOwns.lockRow hLock⟩
  rcases lockRow_some hLock with ⟨locks, _, rfl⟩
  rfl

theorem commit
    (hSound : Sound key store)
    (hOther : other ≠ owner) :
    KeptFor key store (store.commit owner key) other :=
  ⟨changesOf_ended_other rfl hOther, fun _ hOwns =>
    hOwns.commit hSound hOther⟩

theorem autocommit
    (hSound : Sound key (store.write owner change))
    (hOther : other ≠ owner) :
    KeptFor key store (store.autocommit owner key change)
      other :=
  (KeptFor.write hOther.symm).trans (.commit hSound hOther)

end KeptFor

theorem otherPending_of_changesOf_nil
    (hNone : store.changesOf owner = []) :
    store.otherPending owner = store.pending := by
  unfold otherPending
  rw [List.filter_eq_self]
  intro pending hPending
  apply decide_eq_true
  rintro rfl
  have hOwn := mem_changesOf_iff.mpr hPending
  rw [hNone] at hOwn
  cases hOwn

variable [DecidableEq κ]

/- Without a transaction open, a statement changes the rows. -/
theorem autocommit_rows
    (hNone : store.changesOf owner = []) :
    (store.autocommit owner key change).rows =
      change.apply key store.rows := by
  unfold autocommit commit view
  rw [changesOf_write_self, hNone]
  rfl

theorem autocommit_pending
    (hNone : store.changesOf owner = []) :
    (store.autocommit owner key change).pending =
      store.pending := by
  unfold autocommit commit write otherPending
  simp only [List.filter_append]
  have hOthers := otherPending_of_changesOf_nil hNone
  unfold otherPending at hOthers
  rw [hOthers]
  simp

end Store

end Foundation
