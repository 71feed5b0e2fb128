import Databasus.Foundation.Table
import Databasus.Storages.Reference

/-
  Rows of the pending deletions table and its statements.

  A row is the obligation to remove one file.  Whatever takes
  the file away from its writer raises the row's generation,
  and most statements act on one generation only.

  Main declarations:
    * `PendingDeletion`
    * `insertIfAbsent`
    * `insertOrTake`
    * `completeIfGeneration`
    * `claimDue`
    * `startAttempt`
-/

------------------------------------------------------------
-- Rows
------------------------------------------------------------

namespace Databasus

namespace Storages

namespace Files

/- A row of `storages_pending_file_deletions`. -/
structure PendingDeletion where
  id : Uuid
  reference : StoredFileReference
  notBefore : Time
  generation : Nat := 0
  attemptCount : Nat := 0
deriving DecidableEq, Repr

structure Timings where
  commitWindow : Duration
  attemptLease : Duration
  claimBatchSize : Nat
deriving DecidableEq, Repr

/- The row that a statement names by id and generation. -/
def isAtGeneration
    (id : Uuid)
    (generation : Nat)
    (row : PendingDeletion) : Bool :=
  row.id = id && row.generation = generation

theorem isAtGeneration_iff
    {id : Uuid}
    {generation : Nat}
    {row : PendingDeletion} :
    isAtGeneration id generation row = true ↔
      row.id = id ∧ row.generation = generation := by
  simp [isAtGeneration]

------------------------------------------------------------
-- Statements of Writers and Publishers
------------------------------------------------------------

open Foundation

structure Registration where
  id : Uuid
  reference : StoredFileReference
  notBefore : Time
deriving DecidableEq, Repr

/-
  Nothing is inserted for an unknown storage, an empty name,
  or a file that carries an obligation already.
-/
def insertIfAbsent
    (storages : List Uuid)
    (rows : List PendingDeletion)
    (registration : Registration) :
    Option (List PendingDeletion × PendingDeletion) :=
  if
    registration.reference.storageID ∈ storages ∧
      registration.reference.fileName ≠ "" ∧
        ∀ row ∈ rows, row.reference ≠ registration.reference
  then
    let row : PendingDeletion :=
      { id := registration.id
        reference := registration.reference
        notBefore := registration.notBefore }
    some (rows ++ [row], row)
  else
    none

/- A file to delete, and the id that a new row would get. -/
structure RequestedDeletion where
  reference : StoredFileReference
  newID : Uuid
deriving DecidableEq, Repr

/- A taken row is due at once, unless it was attempted. -/
def takeRow
    (now : Time)
    (row : PendingDeletion) : PendingDeletion :=
  { row with
    generation := row.generation + 1
    notBefore :=
      if row.attemptCount = 0 then
        min row.notBefore now
      else
        row.notBefore }

/- Insert an obligation, or take the one there is. -/
def insertOrTakeOne
    (storages : List Uuid)
    (now : Time)
    (rows : List PendingDeletion)
    (request : RequestedDeletion) : List PendingDeletion :=
  if
    request.reference.fileName = "" ∨
      request.reference.storageID ∉ storages
  then
    rows
  else if
    rows.any fun row => row.reference = request.reference
  then
    Table.updateWhere
      (fun row => row.reference = request.reference)
      (takeRow now) rows
  else
    rows ++
      [{ id := request.newID
         reference := request.reference
         notBefore := now }]

/- Requests for one file count once. -/
def deduplicateReferences :
    List RequestedDeletion → List RequestedDeletion
  | [] => []
  | request :: rest =>
      request ::
        (deduplicateReferences rest).filter fun other =>
          other.reference ≠ request.reference

def insertOrTake
    (storages : List Uuid)
    (now : Time)
    (rows : List PendingDeletion)
    (requests : List RequestedDeletion) :
    List PendingDeletion :=
  (deduplicateReferences requests).foldl
    (insertOrTakeOne storages now) rows

/- Delete the row, and tell whether it was there. -/
def completeIfGeneration
    (rows : List PendingDeletion)
    (id : Uuid)
    (generation : Nat) : List PendingDeletion × Bool :=
  (Table.deleteWhere (isAtGeneration id generation) rows,
    Table.affected (isAtGeneration id generation) rows = 1)

def setNotBeforeIfGeneration
    (rows : List PendingDeletion)
    (id : Uuid)
    (generation : Nat)
    (notBefore : Time) : List PendingDeletion × Bool :=
  (Table.updateWhere (isAtGeneration id generation)
      (fun row => { row with notBefore := notBefore }) rows,
    Table.affected (isAtGeneration id generation) rows = 1)

------------------------------------------------------------
-- Statements of the Deletion Job
------------------------------------------------------------

structure ClaimRequest where
  limit : Nat
  attemptLease : Duration
  excludedIDs : List Uuid
  now : Time
deriving DecidableEq, Repr

/-
  A due row that is not excluded, whose file nobody writes
  under protection, and which no transaction has locked.
-/
def isClaimable
    (request : ClaimRequest)
    (isProtected : StoredFileReference → Bool)
    (lockedIDs : List Uuid)
    (row : PendingDeletion) : Bool :=
  row.notBefore ≤ request.now &&
    row.id ∉ request.excludedIDs &&
      !isProtected row.reference && row.id ∉ lockedIDs

/- The order of `not_before`. -/
def dueNoLater
    (first second : PendingDeletion) : Prop :=
  first.notBefore ≤ second.notBefore

instance instDecidableDueNoLater :
    DecidableRel dueNoLater :=
  fun _ _ => inferInstanceAs (Decidable (_ ≤ _))

def claimRow
    (request : ClaimRequest)
    (row : PendingDeletion) : PendingDeletion :=
  { row with
    generation := row.generation + 1
    notBefore := request.now + request.attemptLease }

def claimedIDs
    (request : ClaimRequest)
    (isProtected : StoredFileReference → Bool)
    (lockedIDs : List Uuid)
    (rows : List PendingDeletion) : List Uuid :=
  (((rows.filter
    (isClaimable request isProtected
      lockedIDs)).insertionSort dueNoLater).take
        request.limit).map PendingDeletion.id

/- The rows after the claim, and the claimed ones. -/
def claimDue
    (request : ClaimRequest)
    (isProtected : StoredFileReference → Bool)
    (lockedIDs : List Uuid)
    (rows : List PendingDeletion) :
    List PendingDeletion × List PendingDeletion :=
  let ids := claimedIDs request isProtected lockedIDs rows
  (Table.updateWhere (fun row => row.id ∈ ids)
      (claimRow request) rows,
    (rows.filter fun row => row.id ∈ ids).map
      (claimRow request))

/- The claim's own generation, before its lease runs out. -/
def isStartable
    (pending : PendingDeletion)
    (now : Time)
    (row : PendingDeletion) : Bool :=
  isAtGeneration pending.id pending.generation row &&
    now < row.notBefore

def startAttempt
    (rows : List PendingDeletion)
    (pending : PendingDeletion)
    (now : Time) : List PendingDeletion × Bool :=
  (Table.updateWhere (isStartable pending now)
      (fun row =>
        { row with attemptCount := row.attemptCount + 1 })
      rows,
    Table.affected (isStartable pending now) rows = 1)

def lockAttempt
    (rows : List PendingDeletion)
    (pending : PendingDeletion)
    (now : Time)
    (shouldAllowExpired : Bool) : Bool :=
  rows.any fun row =>
    isAtGeneration pending.id pending.generation row &&
      (decide (now < row.notBefore) || shouldAllowExpired)

/- Claimed rows were claimable. -/
theorem isClaimable_of_mem_claimedIDs
    {request : ClaimRequest}
    {isProtected : StoredFileReference → Bool}
    {lockedIDs : List Uuid}
    {rows : List PendingDeletion}
    {id : Uuid}
    (hClaimed :
      id ∈ claimedIDs request isProtected lockedIDs rows) :
    ∃ row ∈ rows,
      row.id = id ∧
        isClaimable request isProtected lockedIDs row =
          true := by
  unfold claimedIDs at hClaimed
  rcases List.mem_map.mp hClaimed with ⟨row, hRow, hID⟩
  have hSorted := List.mem_of_mem_take hRow
  rw [List.mem_insertionSort, List.mem_filter] at hSorted
  exact ⟨row, hSorted.1, hID, hSorted.2⟩

end Files

end Storages

end Databasus
