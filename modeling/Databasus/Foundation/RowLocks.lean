import Mathlib.Data.List.Basic

/-
  Row locks of a relational store.

  A transaction holds locks on rows until it ends.  A lock is
  granted when no other transaction holds one that conflicts
  with it; a transaction never waits for itself.

  Main declarations:
    * `RowLockMode.conflicts`
    * `RowLock.isFree`, `RowLock.acquire`, `RowLock.release`
    * `RowLock.Holds`, `RowLock.Guards`
    * `RowLock.Compatible`
    * `RowLock.Compatible.guards_same`
-/

------------------------------------------------------------
-- Modes
------------------------------------------------------------

namespace Foundation

/- The strengths of a lock on a row, weakest first. -/
inductive RowLockMode
  | keyShare
  | share
  | noKeyUpdate
  | update
deriving DecidableEq, Repr

def RowLockMode.conflicts : RowLockMode → RowLockMode → Bool
  | .keyShare, .update => true
  | .keyShare, _ => false
  | .share, .noKeyUpdate => true
  | .share, .update => true
  | .share, _ => false
  | .noKeyUpdate, .keyShare => false
  | .noKeyUpdate, _ => true
  | .update, _ => true

theorem RowLockMode.conflicts_comm
    (first second : RowLockMode) :
    first.conflicts second = second.conflicts first := by
  cases first <;> cases second <;> rfl

/- The modes that a change of the row takes. -/
def RowLockMode.isExclusive : RowLockMode → Bool
  | .noKeyUpdate => true
  | .update => true
  | _ => false

/- A row can be changed by one transaction at a time. -/
theorem RowLockMode.exclusive_conflicts
    {first second : RowLockMode}
    (hFirst : first.isExclusive = true)
    (hSecond : second.isExclusive = true) :
    first.conflicts second = true := by
  cases first <;> cases second <;>
    simp [isExclusive, conflicts] at *

------------------------------------------------------------
-- Locks
------------------------------------------------------------

structure RowLock (τ κ : Type) where
  owner : τ
  row : κ
  mode : RowLockMode
deriving DecidableEq, Repr

namespace RowLock

variable {τ κ : Type}
variable {locks locks' : List (RowLock τ κ)}
variable {owner other : τ}
variable {row row' : κ}
variable {mode mode' : RowLockMode}

def Holds
    (locks : List (RowLock τ κ))
    (owner : τ)
    (row : κ)
    (mode : RowLockMode) : Prop :=
  { owner := owner, row := row, mode := mode } ∈ locks

/- Locks of different owners on one row do not conflict. -/
def Compatible (locks : List (RowLock τ κ)) : Prop :=
  ∀ first ∈ locks, ∀ second ∈ locks,
    first.row = second.row → first.owner ≠ second.owner →
      first.mode.conflicts second.mode = false

theorem Compatible.nil :
    Compatible ([] : List (RowLock τ κ)) := by
  intro first hFirst
  exact absurd hFirst List.not_mem_nil

/- The owner may change the row. -/
def Guards
    (locks : List (RowLock τ κ))
    (owner : τ)
    (row : κ) : Prop :=
  ∃ mode, mode.isExclusive = true ∧ Holds locks owner row mode

/- Owners of locks that conflict are the same. -/
theorem Compatible.excludes
    (hCompatible : Compatible locks)
    (hHolds : Holds locks owner row mode)
    (hOther : Holds locks other row mode')
    (hConflicts : mode.conflicts mode' = true) :
    owner = other := by
  by_contra hOwner
  have hNone := hCompatible _ hHolds _ hOther rfl hOwner
  rw [hConflicts] at hNone
  cases hNone

theorem Compatible.guards_same
    (hCompatible : Compatible locks)
    (hOwner : Guards locks owner row)
    (hOther : Guards locks other row) :
    owner = other := by
  rcases hOwner with ⟨mode, hMode, hHolds⟩
  rcases hOther with ⟨mode', hMode', hOtherHolds⟩
  exact
    hCompatible.excludes hHolds hOtherHolds
      (RowLockMode.exclusive_conflicts hMode hMode')

variable [DecidableEq τ]

/- The end of a transaction releases all of its locks. -/
def release
    (locks : List (RowLock τ κ))
    (owner : τ) : List (RowLock τ κ) :=
  locks.filter fun lock => lock.owner ≠ owner

/- Nobody loses a lock when another owner ends. -/
theorem Holds.release
    (hHolds : Holds locks other row mode)
    (hOther : other ≠ owner) :
    Holds (release locks owner) other row mode :=
  List.mem_filter.mpr ⟨hHolds, by simpa using hOther⟩

theorem Guards.release
    (hGuards : Guards locks other row)
    (hOther : other ≠ owner) :
    Guards (release locks owner) other row := by
  rcases hGuards with ⟨mode, hMode, hHolds⟩
  exact ⟨mode, hMode, hHolds.release hOther⟩

theorem Compatible.release
    (hCompatible : Compatible locks)
    (owner : τ) :
    Compatible (release locks owner) := by
  intro first hFirst second hSecond
  exact
    hCompatible first (List.mem_filter.mp hFirst).1
      second (List.mem_filter.mp hSecond).1

variable [DecidableEq κ]

/- No other owner has a lock on the row that conflicts. -/
def isFree
    (locks : List (RowLock τ κ))
    (owner : τ)
    (row : κ)
    (mode : RowLockMode) : Bool :=
  locks.all fun lock =>
    lock.owner = owner || lock.row ≠ row ||
      !lock.mode.conflicts mode

/- The lock is granted, or the owner waits. -/
def acquire
    (locks : List (RowLock τ κ))
    (owner : τ)
    (row : κ)
    (mode : RowLockMode) : Option (List (RowLock τ κ)) :=
  if isFree locks owner row mode then
    some ({ owner := owner, row := row, mode := mode } :: locks)
  else
    none

theorem isFree_iff :
    isFree locks owner row mode = true ↔
      ∀ lock ∈ locks,
        lock.owner ≠ owner → lock.row = row →
          lock.mode.conflicts mode = false := by
  simp only [isFree, List.all_eq_true, Bool.or_eq_true,
    decide_eq_true_eq, Bool.not_eq_true']
  constructor
  · intro hAll lock hMember hOwner hRow
    rcases hAll lock hMember with (hOwn | hOther) | hMode
    · exact absurd hOwn hOwner
    · exact absurd hRow hOther
    · exact hMode
  · intro hFree lock hMember
    by_cases hOwner : lock.owner = owner
    · exact Or.inl (Or.inl hOwner)
    · by_cases hRow : lock.row = row
      · exact Or.inr (hFree lock hMember hOwner hRow)
      · exact Or.inl (Or.inr hRow)

theorem acquire_some
    (hAcquire : acquire locks owner row mode = some locks') :
    isFree locks owner row mode = true ∧
      locks' =
        { owner := owner, row := row, mode := mode } ::
          locks := by
  unfold acquire at hAcquire
  split at hAcquire
  · next hFree =>
      cases hAcquire
      exact ⟨hFree, rfl⟩
  · cases hAcquire

/- An owner that is granted a lock holds it. -/
theorem Holds.acquired
    (hAcquire : acquire locks owner row mode = some locks') :
    Holds locks' owner row mode := by
  rw [(acquire_some hAcquire).2]
  exact List.mem_cons_self

/- Nobody loses a lock when another one is granted. -/
theorem Holds.acquire
    (hHolds : Holds locks other row' mode')
    (hAcquire : acquire locks owner row mode = some locks') :
    Holds locks' other row' mode' := by
  rw [(acquire_some hAcquire).2]
  exact List.mem_cons_of_mem _ hHolds

theorem Guards.acquired
    (hAcquire : acquire locks owner row mode = some locks')
    (hMode : mode.isExclusive = true) :
    Guards locks' owner row :=
  ⟨mode, hMode, Holds.acquired hAcquire⟩

theorem Guards.acquire
    (hGuards : Guards locks other row')
    (hAcquire : acquire locks owner row mode = some locks') :
    Guards locks' other row' := by
  rcases hGuards with ⟨held, hHeld, hHolds⟩
  exact ⟨held, hHeld, hHolds.acquire hAcquire⟩

theorem Compatible.acquire
    (hCompatible : Compatible locks)
    (hAcquire : acquire locks owner row mode = some locks') :
    Compatible locks' := by
  rcases acquire_some hAcquire with ⟨hFree, rfl⟩
  have hOthers := isFree_iff.mp hFree
  intro first hFirst second hSecond hRow hOwner
  rcases List.mem_cons.mp hFirst with rfl | hFirst
  · rcases List.mem_cons.mp hSecond with rfl | hSecond
    · exact absurd rfl hOwner
    · rw [RowLockMode.conflicts_comm]
      exact hOthers second hSecond hOwner.symm hRow.symm
  · rcases List.mem_cons.mp hSecond with rfl | hSecond
    · exact hOthers first hFirst hOwner hRow
    · exact hCompatible first hFirst second hSecond hRow hOwner

end RowLock

end Foundation
