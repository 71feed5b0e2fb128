import Databasus.Foundation.Runs
import Databasus.Storages.Files.PendingDeletion

/-
  Writers, publishers and the deletion job, call by call.

  A write registers its file before the first byte leaves,
  under a lock of the session of its process.  Deletion jobs
  claim due rows, and a lease bounds their attempts.  Calls of
  all processes interleave.

  Main declarations:
    * `WriteStage`
    * `AttemptStage`
    * `State`
    * `advanceWrite`
    * `confirmFileWrites`
    * `advanceAttempt`
    * `system`
-/

------------------------------------------------------------
-- Writes and Attempts
------------------------------------------------------------

namespace Databasus

namespace Storages

namespace Files

structure WriteReceipt where
  pendingDeletionID : Uuid
  reference : StoredFileReference
  generation : Nat
deriving DecidableEq, Repr

/- The call that a `WriteFile` makes next. -/
inductive WriteStage
  | protecting
  | registering
  | locating (pending : PendingDeletion)
  | saving (pending : PendingDeletion)
  | failing (pending : PendingDeletion)
  | keeping (pending : PendingDeletion)
  | releasing (receipt : Option WriteReceipt)
  | leaving (receipt : Option WriteReceipt)
deriving DecidableEq, Repr

/- A `WriteFile` call, of which its process knows the id. -/
structure Write where
  processID : Uuid
  pendingID : Uuid
  reference : StoredFileReference
  content : Bytes
  stage : WriteStage
deriving DecidableEq, Repr

/- The call that a claimed row's attempt makes next. -/
inductive AttemptStage
  | claimed
  | starting (readAt : Time)
  | prepared (duration : Duration)
  | deleting (deadline : Time) (hasLanded : Bool)
  | deleted
  | failed
deriving DecidableEq, Repr

structure Attempt where
  processID : Uuid
  pending : PendingDeletion
  stage : AttemptStage
deriving DecidableEq, Repr

/- A session's lock, under which a file is written. -/
structure FileLock where
  processID : Uuid
  reference : StoredFileReference
deriving DecidableEq, Repr

/- What can be read under a file's name. -/
structure StoredObject where
  reference : StoredFileReference
  content : Bytes
deriving DecidableEq, Repr

/- A write that has begun at some time. -/
structure BegunWrite where
  pendingID : Uuid
  reference : StoredFileReference
  content : Bytes
deriving DecidableEq, Repr

/-
  The tables, the storages and the processes' memory.  The
  history adds the writes begun, the ids that rows were given,
  and the files kept: confirmed and not requested since.
-/
structure State where
  now : Time
  rows : List PendingDeletion := []
  locks : List FileLock := []
  objects : List StoredObject := []
  writes : List Write := []
  delivered : List WriteReceipt := []
  attempts : List Attempt := []
  begun : List BegunWrite := []
  issuedIDs : List Uuid := []
  kept : List StoredFileReference := []
deriving DecidableEq, Repr

structure Environment where
  timings : Timings
  storages : List Uuid
deriving DecidableEq, Repr

/- A statement may be applied and its answer be lost. -/
inductive Answer
  | answered
  | lost
  | failed
deriving DecidableEq, Repr

def Answer.isApplied : Answer → Bool
  | .answered => true
  | .lost => true
  | .failed => false

------------------------------------------------------------
-- Changes of the State
------------------------------------------------------------

open Foundation

variable {objects : List StoredObject}

def lookupObject
    (objects : List StoredObject)
    (reference : StoredFileReference) :
    Option StoredObject :=
  Table.lookup StoredObject.reference reference objects

/- Whatever was read under the name is replaced. -/
def putObject
    (objects : List StoredObject)
    (object : StoredObject) : List StoredObject :=
  object ::
    Table.deleteWhere
      (fun other => other.reference = object.reference)
      objects

def removeObject
    (objects : List StoredObject)
    (reference : StoredFileReference) :
    List StoredObject :=
  Table.deleteWhere
    (fun object => object.reference = reference) objects

theorem lookupObject_putObject
    (objects : List StoredObject)
    (object : StoredObject) :
    lookupObject (putObject objects object)
        object.reference =
      some object := by
  simp [lookupObject, putObject, Table.lookup]

theorem lookupObject_putObject_of_ne
    {object : StoredObject}
    {reference : StoredFileReference}
    (hOther : object.reference ≠ reference) :
    lookupObject (putObject objects object) reference =
      lookupObject objects reference := by
  unfold lookupObject putObject
  rw [Table.lookup, List.find?_cons_of_neg (by simpa)]
  apply Table.lookup_deleteWhere
  intro row hSelects
  rw [of_decide_eq_true hSelects]
  exact hOther

theorem lookupObject_removeObject_of_ne
    {removed reference : StoredFileReference}
    (hOther : removed ≠ reference) :
    lookupObject (removeObject objects removed) reference =
      lookupObject objects reference := by
  apply Table.lookup_deleteWhere
  intro row hSelects
  rw [of_decide_eq_true hSelects]
  exact hOther

/- The write goes on with another call. -/
def State.setWriteStage
    (s : State)
    (write : Write)
    (stage : WriteStage) : State :=
  { s with
    writes :=
      Table.updateWhere
        (fun other => other.pendingID = write.pendingID)
        (fun _ => { write with stage := stage }) s.writes }

/- The write leaves the live writes and returns. -/
def State.endWrite
    (s : State)
    (write : Write)
    (receipt : Option WriteReceipt) : State :=
  { s with
    writes :=
      Table.deleteWhere
        (fun other => other.pendingID = write.pendingID)
        s.writes
    delivered := receipt.toList ++ s.delivered }

/- An attempt is known by the claim that it is for. -/
def Attempt.isOf
    (attempt : Attempt)
    (id : Uuid)
    (generation : Nat) : Bool :=
  isAtGeneration id generation attempt.pending

def State.setAttemptStage
    (s : State)
    (attempt : Attempt)
    (stage : AttemptStage) : State :=
  { s with
    attempts :=
      Table.updateWhere
        (fun other =>
          other.isOf attempt.pending.id
            attempt.pending.generation)
        (fun _ => { attempt with stage := stage })
        s.attempts }

def State.endAttempt
    (s : State)
    (attempt : Attempt) : State :=
  { s with
    attempts :=
      Table.deleteWhere
        (fun other =>
          other.isOf attempt.pending.id
            attempt.pending.generation)
        s.attempts }

/- The session of a process ends, and with it its locks. -/
def State.dropLocks
    (s : State)
    (processID : Uuid) : State :=
  { s with
    locks :=
      Table.deleteWhere
        (fun lock => lock.processID = processID) s.locks }

------------------------------------------------------------
-- Calls of a Write
------------------------------------------------------------

inductive WriteEvent
  | protect (isAnswered : Bool)
  | insert (readAt : Time) (answer : Answer)
  | locate (isFound : Bool)
  | savePart (content : Bytes)
  | saveEnd (isSaved : Bool)
  | makeEligibleNow (readAt : Time) (answer : Answer)
  | keep (readAt : Time) (answer : Answer)
  | release (isAnswered : Bool)
  | leave
deriving DecidableEq, Repr

/- Another session's lock refuses the write. -/
def protectWrite
    (s : State)
    (write : Write)
    (isAnswered : Bool) : State :=
  if
    isAnswered = true ∧
      ∀ lock ∈ s.locks,
        lock.reference = write.reference →
          lock.processID = write.processID
  then
    { s with
      locks :=
        { processID := write.processID
          reference := write.reference } ::
          s.locks }.setWriteStage write .registering
  else
    s.setWriteStage write (.leaving none)

/- Register the file, or end without touching it. -/
def registerWrite
    (env : Environment)
    (s : State)
    (write : Write)
    (readAt : Time)
    (answer : Answer) : State :=
  match answer with
  | .failed => s.setWriteStage write (.releasing none)
  | _ =>
      match
        insertIfAbsent env.storages s.rows
          { id := write.pendingID
            reference := write.reference
            notBefore :=
              readAt + env.timings.commitWindow }
      with
      | none => s.setWriteStage write (.releasing none)
      | some (rows, pending) =>
          { s with
            rows := rows
            issuedIDs :=
              write.pendingID :: s.issuedIDs }.setWriteStage
            write
            (if answer = Answer.answered then
              .locating pending
            else
              .releasing none)

/- A provider may write some of the bytes before it fails. -/
def storeContent
    (s : State)
    (write : Write)
    (content : Bytes) : State :=
  { s with
    objects :=
      putObject s.objects
        { reference := write.reference
          content := content } }

/- Success of the provider means that all is stored. -/
def endSave
    (s : State)
    (write : Write)
    (pending : PendingDeletion)
    (isSaved : Bool) : State :=
  if isSaved then
    (storeContent s write write.content).setWriteStage write
      (.keeping pending)
  else
    s.setWriteStage write (.failing pending)

/- The write is over, whatever the answer is. -/
def makeEligibleNow
    (s : State)
    (write : Write)
    (pending : PendingDeletion)
    (readAt : Time)
    (answer : Answer) : State :=
  let rows :=
    if answer.isApplied then
      (setNotBeforeIfGeneration s.rows pending.id
        pending.generation readAt).1
    else
      s.rows
  { s with rows := rows }.setWriteStage write
    (.releasing none)

/- A new window for the publisher, unless the file is taken. -/
def keepFile
    (env : Environment)
    (s : State)
    (write : Write)
    (pending : PendingDeletion)
    (readAt : Time)
    (answer : Answer) : State :=
  match answer with
  | .failed => s.setWriteStage write (.releasing none)
  | _ =>
      let (rows, isKept) :=
        setNotBeforeIfGeneration s.rows pending.id
          pending.generation
          (readAt + env.timings.commitWindow)
      { s with rows := rows }.setWriteStage write
        (.releasing
          (if answer = Answer.answered ∧ isKept = true then
            some
              { pendingDeletionID := pending.id
                reference := write.reference
                generation := pending.generation }
          else
            none))

/- A lock that is gone takes the receipt with it. -/
def releaseWrite
    (s : State)
    (write : Write)
    (receipt : Option WriteReceipt)
    (isAnswered : Bool) : State :=
  if
    isAnswered = true ∧
      { processID := write.processID
        reference := write.reference : FileLock } ∈ s.locks
  then
    { s with
      locks :=
        s.locks.erase
          { processID := write.processID
            reference := write.reference } }.setWriteStage
      write (.leaving receipt)
  else
    (s.dropLocks write.processID).setWriteStage write
      (.leaving none)

/- One call of a write is answered. -/
def advanceWrite
    (env : Environment)
    (s : State)
    (write : Write) :
    WriteStage → WriteEvent → Option State
  | .protecting, .protect isAnswered =>
      some (protectWrite s write isAnswered)
  | .registering, .insert readAt answer =>
      some (registerWrite env s write readAt answer)
  | .locating pending, .locate isFound =>
      some
        (s.setWriteStage write
          (if isFound then
            .saving pending
          else
            .failing pending))
  | .saving _, .savePart content =>
      some (storeContent s write content)
  | .saving pending, .saveEnd isSaved =>
      some (endSave s write pending isSaved)
  | .failing pending, .makeEligibleNow readAt answer =>
      some (makeEligibleNow s write pending readAt answer)
  | .keeping pending, .keep readAt answer =>
      some (keepFile env s write pending readAt answer)
  | .releasing receipt, .release isAnswered =>
      some (releaseWrite s write receipt isAnswered)
  | .leaving receipt, .leave =>
      some (s.endWrite write receipt)
  | _, _ => none

------------------------------------------------------------
-- Publication and Requests
------------------------------------------------------------

/- A receipt keeps its file if the row has not been taken. -/
def confirmFileWrite
    (s : State)
    (receipt : WriteReceipt) : Option State :=
  let (rows, isReleased) :=
    completeIfGeneration s.rows receipt.pendingDeletionID
      receipt.generation
  if isReleased then
    some
      { s with
        rows := rows
        kept := receipt.reference :: s.kept }
  else
    none

/- The transaction fails unless every receipt still holds. -/
def confirmFileWrites
    (s : State) : List WriteReceipt → Option State
  | [] => some s
  | receipt :: rest =>
      match confirmFileWrite s receipt with
      | none => none
      | some s' => confirmFileWrites s' rest

/- A requested file is no longer one to keep. -/
def requestFileDeletion
    (env : Environment)
    (readAt : Time)
    (s : State)
    (request : RequestedDeletion) : State :=
  { s with
    rows :=
      insertOrTakeOne env.storages readAt s.rows request
    issuedIDs := request.newID :: s.issuedIDs
    kept :=
      s.kept.filter fun reference =>
        reference ≠ request.reference }

/- The transaction of a deletion request. -/
def requestFileDeletions
    (env : Environment)
    (readAt : Time) :
    List RequestedDeletion → State → State
  | [], s => s
  | request :: rest, s =>
      requestFileDeletions env readAt rest
        (requestFileDeletion env readAt s request)

------------------------------------------------------------
-- The Deletion Job
------------------------------------------------------------

/- The writes that a process has joined and not yet left. -/
def liveWrites
    (s : State)
    (processID : Uuid) : List Uuid :=
  (s.writes.filter fun write =>
    write.processID = processID).map Write.pendingID

def isProtected
    (s : State)
    (reference : StoredFileReference) : Bool :=
  s.locks.any fun lock => lock.reference = reference

def claimRequest
    (env : Environment)
    (s : State)
    (processID : Uuid)
    (readAt : Time) : ClaimRequest :=
  { limit := env.timings.claimBatchSize
    attemptLease := env.timings.attemptLease
    excludedIDs := liveWrites s processID
    now := readAt }

/- Claim due rows for a pass of the process. -/
def claimPass
    (env : Environment)
    (s : State)
    (processID : Uuid)
    (readAt : Time)
    (lockedIDs : List Uuid) : State :=
  let (rows, claimed) :=
    claimDue (claimRequest env s processID readAt)
      (isProtected s) lockedIDs s.rows
  { s with
    rows := rows
    attempts :=
      s.attempts ++
        claimed.map fun pending =>
          { processID := processID
            pending := pending
            stage := .claimed } }

inductive AttemptEvent
  | readClock
  | start (answer : Answer)
  | beginDelete
  | land
  | answerDelete (isDeleted : Bool)
  | release (readAt : Time) (answer : Answer)
  | reschedule
      (readAt : Time)
      (retryDelay : Duration)
      (answer : Answer)
deriving DecidableEq, Repr

/- The statement compares with a clock read before it. -/
def startDeletion
    (s : State)
    (attempt : Attempt)
    (readAt : Time)
    (answer : Answer) : State :=
  match answer with
  | .failed => s.endAttempt attempt
  | _ =>
      let (rows, isStarted) :=
        startAttempt s.rows attempt.pending readAt
      if answer = Answer.answered ∧ isStarted = true then
        { s with rows := rows }.setAttemptStage attempt
          (.prepared (attempt.pending.notBefore - readAt))
      else
        { s with rows := rows }.endAttempt attempt

/- The provider removes the object before the deadline. -/
def landDelete
    (s : State)
    (attempt : Attempt)
    (deadline : Time) : Option State :=
  if s.now < deadline then
    some
      ({ s with
        objects :=
          removeObject s.objects
            attempt.pending.reference }.setAttemptStage
        attempt (.deleting deadline true))
  else
    none

/- A deleted file's row goes while the lease is valid. -/
def releaseDeletedFile
    (s : State)
    (attempt : Attempt)
    (readAt : Time)
    (answer : Answer) : State :=
  let rows :=
    if
      answer.isApplied = true ∧
        lockAttempt s.rows attempt.pending readAt false =
          true
    then
      (completeIfGeneration s.rows attempt.pending.id
        attempt.pending.generation).1
    else
      s.rows
  { s with rows := rows }.endAttempt attempt

/- A failed attempt is due again after a delay. -/
def rescheduleAttempt
    (s : State)
    (attempt : Attempt)
    (readAt : Time)
    (retryDelay : Duration)
    (answer : Answer) : State :=
  let rows :=
    if
      answer.isApplied = true ∧
        lockAttempt s.rows attempt.pending readAt true = true
    then
      (setNotBeforeIfGeneration s.rows attempt.pending.id
        attempt.pending.generation
        (readAt + retryDelay)).1
    else
      s.rows
  { s with rows := rows }.endAttempt attempt

/-
  One call of an attempt is answered.  The timeout of the
  provider's call counts from where the call begins.
-/
def advanceAttempt
    (s : State)
    (attempt : Attempt) :
    AttemptStage → AttemptEvent → Option State
  | .claimed, .readClock =>
      some (s.setAttemptStage attempt (.starting s.now))
  | .starting readAt, .start answer =>
      some (startDeletion s attempt readAt answer)
  | .prepared duration, .beginDelete =>
      if 0 < duration then
        some
          (s.setAttemptStage attempt
            (.deleting (s.now + duration) false))
      else
        some (s.endAttempt attempt)
  | .deleting deadline _, .land =>
      landDelete s attempt deadline
  | .deleting _ hasLanded, .answerDelete isDeleted =>
      if isDeleted then
        if hasLanded then
          some (s.setAttemptStage attempt .deleted)
        else
          none
      else
        some (s.setAttemptStage attempt .failed)
  | .deleted, .release readAt answer =>
      some (releaseDeletedFile s attempt readAt answer)
  | .failed, .reschedule readAt retryDelay answer =>
      some
        (rescheduleAttempt s attempt readAt retryDelay
          answer)
  | _, _ => none

------------------------------------------------------------
-- The System
------------------------------------------------------------

inductive Action
  | tick (later : Time)
  | loseSession (processID : Uuid)
  | crash (processID : Uuid)
  | writeFile
      (processID pendingID : Uuid)
      (reference : StoredFileReference)
      (content : Bytes)
  | write (pendingID : Uuid) (event : WriteEvent)
  | confirmFileWrites (receipts : List WriteReceipt)
  | requestFileDeletions
      (readAt : Time)
      (requests : List RequestedDeletion)
  | claimDue
      (processID : Uuid)
      (readAt : Time)
      (lockedIDs : List Uuid)
  | attempt
      (id : Uuid)
      (generation : Nat)
      (event : AttemptEvent)
deriving DecidableEq, Repr

/- An id that no row and no write has been given before. -/
def State.IsFresh
    (s : State)
    (id : Uuid) : Prop :=
  id ∉ s.issuedIDs ∧ ∀ begun ∈ s.begun, begun.pendingID ≠ id

instance instDecidableIsFresh
    (s : State)
    (id : Uuid) : Decidable (s.IsFresh id) :=
  inferInstanceAs (Decidable (_ ∧ _))

/- A clock has been read before its value is used. -/
def WriteEvent.readBy
    (now : Time) : WriteEvent → Prop
  | .insert readAt _ => readAt ≤ now
  | .makeEligibleNow readAt _ => readAt ≤ now
  | .keep readAt _ => readAt ≤ now
  | _ => True

instance instDecidableWriteReadBy
    (now : Time)
    (event : WriteEvent) : Decidable (event.readBy now) := by
  unfold WriteEvent.readBy
  cases event <;> infer_instance

def AttemptEvent.readBy
    (now : Time) : AttemptEvent → Prop
  | .release readAt _ => readAt ≤ now
  | .reschedule readAt _ _ => readAt ≤ now
  | _ => True

instance instDecidableAttemptReadBy
    (now : Time)
    (event : AttemptEvent) :
    Decidable (event.readBy now) := by
  unfold AttemptEvent.readBy
  cases event <;> infer_instance

/- A process ends with its memory and its sessions. -/
def crash
    (s : State)
    (processID : Uuid) : State :=
  { s.dropLocks processID with
    writes :=
      Table.deleteWhere
        (fun write => write.processID = processID) s.writes
    attempts :=
      Table.deleteWhere
        (fun attempt => attempt.processID = processID)
        s.attempts }

def step
    (env : Environment)
    (s : State) : Action → Option State
  | .tick later =>
      if s.now ≤ later then
        some { s with now := later }
      else
        none
  | .loseSession processID => some (s.dropLocks processID)
  | .crash processID => some (crash s processID)
  | .writeFile processID pendingID reference content =>
      if s.IsFresh pendingID then
        some
          { s with
            writes :=
              { processID := processID
                pendingID := pendingID
                reference := reference
                content := content
                stage := .protecting } :: s.writes
            begun :=
              { pendingID := pendingID
                reference := reference
                content := content } :: s.begun }
      else
        none
  | .write pendingID event =>
      if event.readBy s.now then
        match
          s.writes.find? fun write =>
            write.pendingID = pendingID
        with
        | none => none
        | some write =>
            advanceWrite env s write write.stage event
      else
        none
  | .confirmFileWrites receipts =>
      if ∀ receipt ∈ receipts, receipt ∈ s.delivered then
        confirmFileWrites s receipts
      else
        none
  | .requestFileDeletions readAt requests =>
      if
        readAt ≤ s.now ∧
          (requests.map RequestedDeletion.newID).Nodup ∧
            ∀ request ∈ requests, s.IsFresh request.newID
      then
        some
          (requestFileDeletions env readAt
            (deduplicateReferences requests) s)
      else
        none
  | .claimDue processID readAt lockedIDs =>
      if readAt ≤ s.now then
        some (claimPass env s processID readAt lockedIDs)
      else
        none
  | .attempt id generation event =>
      if event.readBy s.now then
        match
          s.attempts.find? fun attempt =>
            attempt.isOf id generation
        with
        | none => none
        | some attempt =>
            advanceAttempt s attempt attempt.stage event
      else
        none

/- Nothing is stored and nothing is under way at first. -/
def initialState (now : Time) : State := { now := now }

def system
    (env : Environment) : TransitionSystem State Action where
  initial s := ∃ now, s = initialState now
  step := step env

end Files

end Storages

end Databasus
