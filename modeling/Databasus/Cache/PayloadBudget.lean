import Mathlib.Algebra.BigOperators.Group.List.Basic
import Mathlib.Algebra.Ring.Int.Defs
import Databasus.Cache.MemoryStore
import Databasus.Foundation.Runs

/-
  What the store holds against its payload budget.

  Every write, removal and reclaiming keeps the counter at the
  size of the stored entries, and no write passes the budget.

  Main declarations:
    * `MemoryStore.Accounts`
    * `MemoryStore.StoreCall`
    * `MemoryStore.perform`
    * `MemoryStore.Accounts.perform`
-/

------------------------------------------------------------
-- The Counter
------------------------------------------------------------

namespace Databasus

namespace Cache

open Foundation

namespace MemoryStore

variable {entry : MemoryEntry}

/- The bytes that a stored entry takes. -/
def storedBytes
    (entry : MemoryEntry) : Int :=
  entry.key.utf8ByteSize + entry.payload.length

/- The counter is the size of what is stored. -/
structure Accounts
    (s : MemoryStore) : Prop where
  sizes :
    ∀ entry ∈ s.entries, entry.sizeBytes = storedBytes entry
  total :
    s.payloadBytes =
      (s.entries.map MemoryEntry.sizeBytes).sum
  within : s.payloadBytes ≤ s.payloadBudgetBytes

variable {s : MemoryStore}
variable {now : Time}

theorem storedBytes_nonneg
    (entry : MemoryEntry) :
    0 ≤ storedBytes entry :=
  Int.add_nonneg (Int.natCast_nonneg _)
    (Int.natCast_nonneg _)

theorem sum_deleteWhere_of_mem
    (hMember : entry ∈ s.entries) :
    ((Table.deleteWhere
            (fun other => other.key = entry.key)
            s.entries).map MemoryEntry.sizeBytes).sum =
      (s.entries.map MemoryEntry.sizeBytes).sum -
        entry.sizeBytes := by
  have hPerm :=
    (s.keysUnique.perm_cons_deleteWhere hMember).map
      MemoryEntry.sizeBytes
  rw [hPerm.sum_eq, List.map_cons, List.sum_cons]
  exact (add_sub_cancel_left _ _).symm

/- Without the entry of a key, if there is one. -/
theorem sum_deleteWhere
    (key : String) :
    ((Table.deleteWhere
            (fun other => other.key = key)
            s.entries).map MemoryEntry.sizeBytes).sum =
      (s.entries.map MemoryEntry.sizeBytes).sum -
        s.getStoredEntrySizeBytes key := by
  unfold getStoredEntrySizeBytes
  cases hFound : s.find key with
  | none =>
      have hSame :
          Table.deleteWhere (fun other => other.key = key)
              s.entries =
            s.entries := by
        apply List.filter_eq_self.mpr
        intro other hOther
        have hKey := Table.lookup_eq_none_iff.mp hFound
        simp only [hKey other hOther, decide_false,
          Bool.not_false]
      rw [hSame]
      exact (sub_zero _).symm
  | some entry =>
      rcases find_some_iff.mp hFound with ⟨hMember, rfl⟩
      exact sum_deleteWhere_of_mem hMember

/- Removing a stored entry gives its bytes back. -/
theorem Accounts.remove
    (hAccounts : s.Accounts)
    (hMember : entry ∈ s.entries) :
    (s.remove entry).Accounts := by
  refine
    { sizes := ?_
      total := ?_
      within := ?_ }
  · intro other hOther
    exact hAccounts.sizes other (mem_remove_iff.mp hOther).1
  · exact
      (congrArg (· - entry.sizeBytes) hAccounts.total).trans
        (sum_deleteWhere_of_mem hMember).symm
  · have hSize : 0 ≤ entry.sizeBytes := by
      rw [hAccounts.sizes entry hMember]
      exact storedBytes_nonneg entry
    exact (Int.sub_le_self _ hSize).trans hAccounts.within

theorem Accounts.reclaimExpired
    (hAccounts : s.Accounts) :
    (s.reclaimExpired now).Accounts :=
  reclaimExpired_induction
    (fun _ _ hMember _ hStore => hStore.remove hMember)
    hAccounts

/- A write within the budget is counted in full. -/
theorem Accounts.put
    (hAccounts : s.Accounts)
    {entry : Entry}
    (hWithin : s.exceedsBudget entry = false) :
    (s.put entry now).Accounts := by
  refine
    { sizes := ?_
      total := ?_
      within := ?_ }
  · intro other hOther
    rcases mem_put_iff.mp hOther with rfl | ⟨hOld, _⟩
    · rfl
    · exact hAccounts.sizes other hOld
  · have hSum := s.sum_deleteWhere entry.key
    change
      s.payloadBytes - s.getStoredEntrySizeBytes entry.key +
          entrySizeBytes entry =
        entrySizeBytes entry +
          ((Table.deleteWhere
                (fun other => other.key = entry.key)
                s.entries).map MemoryEntry.sizeBytes).sum
    rw [hSum, hAccounts.total, add_comm]
  · exact Int.not_lt.mp (of_decide_eq_false hWithin)

theorem Accounts.store
    (hAccounts : s.Accounts)
    (entry : Entry)
    (now : Time) :
    (s.store entry now).1.Accounts := by
  unfold MemoryStore.store
  by_cases hExceeds : s.exceedsBudget entry = true
  · rw [if_pos hExceeds]
    simp only
    by_cases hStill :
        (s.reclaimExpired now).exceedsBudget entry = true
    · rw [if_pos hStill]
      exact hAccounts.reclaimExpired
    · rw [if_neg hStill]
      exact
        hAccounts.reclaimExpired.put
          (Bool.not_eq_true _ ▸ hStill)
  · rw [if_neg hExceeds]
    exact hAccounts.put (Bool.not_eq_true _ ▸ hExceeds)

theorem Accounts.getLiveEntry
    (hAccounts : s.Accounts)
    (key : String)
    (now : Time) :
    (s.getLiveEntry key now).1.Accounts := by
  unfold MemoryStore.getLiveEntry
  split
  · exact hAccounts
  · next entry hFound =>
      split
      · exact hAccounts
      · exact hAccounts.remove (find_some_iff.mp hFound).1

/- A live entry that is found is stored still. -/
theorem mem_of_getLiveEntry
    {key : String}
    {after : MemoryStore}
    (hRead : s.getLiveEntry key now = (after, some entry)) :
    entry ∈ after.entries := by
  unfold MemoryStore.getLiveEntry at hRead
  split at hRead
  · cases hRead
  · next found hFound =>
      split at hRead
      · cases hRead
        exact (find_some_iff.mp hFound).1
      · cases hRead

------------------------------------------------------------
-- Calls of the Store
------------------------------------------------------------

inductive StoreOperation
  | get (key : String)
  | set (entry : Entry)
  | createIfAbsent (entry : Entry)
  | readAndDelete (key : String)
  | delete (key : String)
deriving DecidableEq, Repr

/- A call meets a context and the time on the clock. -/
structure StoreCall where
  isContextDone : Bool
  now : Time
  operation : StoreOperation
deriving DecidableEq, Repr

def perform
    (s : MemoryStore)
    (call : StoreCall) : MemoryStore :=
  match call.operation with
  | .get key => (s.get call.isContextDone key call.now).1
  | .set entry => (s.set call.isContextDone entry call.now).1
  | .createIfAbsent entry =>
      (s.createIfAbsent call.isContextDone entry call.now).1
  | .readAndDelete key =>
      (s.readAndDelete call.isContextDone key call.now).1
  | .delete key => (s.delete call.isContextDone key).1

/- A store is built with a positive budget, or not at all. -/
def system : TransitionSystem MemoryStore StoreCall :=
  { initial := fun s =>
      ∃ budget, 0 < budget ∧ s = newMemoryStore budget
    step := fun s call => some (s.perform call) }

variable {s : MemoryStore}
variable {now : Time}

theorem accounts_newMemoryStore
    {budget : Int}
    (hBudget : 0 < budget) :
    (newMemoryStore budget).Accounts :=
  { sizes := fun _ hEntry => absurd hEntry List.not_mem_nil
    total := rfl
    within := hBudget.le }

theorem Accounts.get
    (hAccounts : s.Accounts)
    (isContextDone : Bool)
    (key : String) :
    (s.get isContextDone key now).1.Accounts := by
  unfold MemoryStore.get
  split
  · exact hAccounts
  · exact hAccounts.getLiveEntry key now

theorem Accounts.set
    (hAccounts : s.Accounts)
    (isContextDone : Bool)
    (entry : Entry) :
    (s.set isContextDone entry now).1.Accounts := by
  unfold MemoryStore.set
  split
  · exact hAccounts
  · exact hAccounts.store entry now

theorem Accounts.createIfAbsent
    (hAccounts : s.Accounts)
    (isContextDone : Bool)
    (entry : Entry) :
    (s.createIfAbsent isContextDone entry
        now).1.Accounts := by
  unfold MemoryStore.createIfAbsent
  split
  · exact hAccounts
  · have hLive := hAccounts.getLiveEntry entry.key now
    split
    · next after _ hRead =>
        rw [hRead] at hLive
        exact hLive
    · next after hRead =>
        rw [hRead] at hLive
        have hStored := hLive.store entry now
        split <;> rename_i hStore <;> rw [hStore] at hStored
        · exact hStored
        · exact hStored

theorem Accounts.readAndDelete
    (hAccounts : s.Accounts)
    (isContextDone : Bool)
    (key : String) :
    (s.readAndDelete isContextDone key now).1.Accounts := by
  unfold MemoryStore.readAndDelete
  split
  · exact hAccounts
  · have hLive := hAccounts.getLiveEntry key now
    split
    · next after hRead =>
        rw [hRead] at hLive
        exact hLive
    · next after entry hRead =>
        rw [hRead] at hLive
        exact hLive.remove (mem_of_getLiveEntry hRead)

theorem Accounts.delete
    (hAccounts : s.Accounts)
    (isContextDone : Bool)
    (key : String) :
    (s.delete isContextDone key).1.Accounts := by
  unfold MemoryStore.delete
  split
  · exact hAccounts
  · split
    · exact hAccounts
    · next entry hFound =>
        exact hAccounts.remove (find_some_iff.mp hFound).1

theorem Accounts.perform
    (hAccounts : s.Accounts)
    (call : StoreCall) :
    (s.perform call).Accounts := by
  unfold MemoryStore.perform
  cases call.operation with
  | get key => exact hAccounts.get _ key
  | set entry => exact hAccounts.set _ entry
  | createIfAbsent entry =>
      exact hAccounts.createIfAbsent _ entry
  | readAndDelete key => exact hAccounts.readAndDelete _ key
  | delete key => exact hAccounts.delete _ key

theorem accounts_of_reachable
    (hReachable : system.Reachable s) :
    s.Accounts := by
  refine hReachable.invariant ?_ ?_
  · rintro start ⟨budget, hBudget, rfl⟩
    exact accounts_newMemoryStore hBudget
  · intro before call after hAccounts _ hStep
    rw [← Option.some.inj hStep]
    exact hAccounts.perform call

/- A refused write has at most reclaimed. -/
theorem set_refused
    {isContextDone : Bool}
    {entry : Entry}
    {error : CacheError}
    (hRefused :
      (s.set isContextDone entry now).2 = .error error) :
    (s.set isContextDone entry now).1 = s ∨
      (s.set isContextDone entry now).1 =
        s.reclaimExpired now := by
  unfold MemoryStore.set at hRefused ⊢
  split at hRefused
  · exact Or.inl rfl
  · unfold MemoryStore.store at hRefused ⊢
    by_cases hExceeds : s.exceedsBudget entry = true
    · rw [if_pos hExceeds] at hRefused ⊢
      simp only at hRefused ⊢
      by_cases hStill :
          (s.reclaimExpired now).exceedsBudget entry = true
      · rw [if_pos hStill]
        exact Or.inr rfl
      · rw [if_neg hStill] at hRefused
        cases hRefused
    · rw [if_neg hExceeds] at hRefused
      cases hRefused

/-
  The counter is the size of the stored entries within the
  budget, and a refused write changes nothing that is live.
-/
theorem payload_is_accounted
    (s : MemoryStore)
    (hReachable : system.Reachable s) :
    s.payloadBytes = (s.entries.map storedBytes).sum ∧
      s.payloadBytes ≤ s.payloadBudgetBytes ∧
      ∀ isContextDone entry now error,
        (s.set isContextDone entry now).2 = .error error →
          ∀ key later, now ≤ later →
            (s.set isContextDone entry now).1.liveEntry
                key later =
              s.liveEntry key later := by
  have hAccounts := accounts_of_reachable hReachable
  refine ⟨?_, hAccounts.within, ?_⟩
  · rw [hAccounts.total]
    congr 1
    exact List.map_congr_left hAccounts.sizes
  · intro isContextDone entry now error hRefused key later
      hLater
    rcases set_refused hRefused with hSame | hReclaimed
    · rw [hSame]
    · rw [hReclaimed, liveEntry_reclaimExpired_later hLater]

/- Fill a store of eight bytes and ask it for more. -/
def fullStore : MemoryStore :=
  system.outcome (newMemoryStore 8)
    [{ isContextDone := false
       now := 0
       operation :=
         .set
           { key := "ab"
             payload := [1, 2, 3, 4]
             lifetime := 10 } }]

theorem fullStore_refuses :
    (fullStore.set false
          { key := "cd", payload := [5], lifetime := 10 }
          5).2 =
        .error .payloadBudgetReached ∧
      fullStore.payloadBytes = 6 ∧
      ((fullStore.set false
            { key := "cd", payload := [5], lifetime := 10 }
            5).1.liveEntry "ab" 5).isSome =
        true := by
  have hAccounted :=
    payload_is_accounted fullStore
      (TransitionSystem.reachable_outcome _
        ⟨8, by decide, rfl⟩)
  have hRefused :
      (fullStore.set false
            { key := "cd", payload := [5], lifetime := 10 }
            5).2 =
          .error .payloadBudgetReached := by
    decide +kernel
  refine ⟨hRefused, by decide +kernel, ?_⟩
  rw [hAccounted.2.2 _ _ _ _ hRefused "ab" 5 (Int.le_refl 5)]
  decide +kernel

end MemoryStore

end Cache

end Databasus
