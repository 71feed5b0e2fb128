import Databasus.Iox.ResumedRead
import Databasus.Storages.S3.SavedObjects

/-
  Reading a stored file as one stream.

  The reader opens one object after another.  A connection
  that breaks is opened again from the byte after the last one
  handed out, and the reply has to prove that it starts there.
  What the server and the context do at each turn of the loop
  is a script.

  Main declarations:
    * `Moment`
    * `Reader`
    * `Reader.turn`
    * `Reader.read`
    * `Reader.deliver`
-/

------------------------------------------------------------
-- Replies
------------------------------------------------------------

namespace Databasus

namespace Storages

namespace S3

open Foundation Iox

/- How a reply treats the range and describes its body. -/
structure Reply where
  isRangeIgnored : Bool
  isContentRangeSent : Bool
  isLengthDeclared : Bool
deriving DecidableEq, Repr

inductive OpenAnswer
  | connectionLost
  | errorResponse (statusCode : Nat)
  | answered (reply : Reply)
deriving DecidableEq, Repr

/-
  One read of a body: up to so many bytes and one more, or up
  to so many and then the end or a failure.
-/
inductive BodyAnswer
  | delivers (limit : Nat)
  | ends (limit : Nat)
  | breaks (limit : Nat)
deriving DecidableEq, Repr

/- What happens during one turn of the loop of a read. -/
structure Moment where
  isCancelled : Bool
  isCancelledAfterFailure : Bool
  isCancelledWhileWaiting : Bool
  opening : OpenAnswer
  body : BodyAnswer
deriving DecidableEq, Repr

inductive BodyError
  | eof
  | failed
deriving DecidableEq, Repr

structure Response where
  payload : Bytes
  size : Int
  contentRange : String
deriving DecidableEq, Repr

/-
  The reply to a request for the object, whole or from an
  offset up to its last byte.  Its description is honest.
-/
def Reply.respond
    (reply : Reply)
    (content : Bytes)
    (offset : Nat)
    (last : Int) : Response :=
  let isRanged := 0 < offset && !reply.isRangeIgnored
  let start := if isRanged then offset else 0
  let payload :=
    if isRanged then
      (content.take (last + 1).toNat).drop offset
    else
      content
  { payload := payload
    size :=
      if reply.isLengthDeclared then payload.length else -1
    contentRange :=
      if reply.isContentRangeSent then
        Iox.contentRange start (start + payload.length - 1)
          content.length
      else
        "" }

/- The bytes of one read, its error, and what is left. -/
def readBody
    (size : Nat)
    (payload : Bytes) :
    BodyAnswer → Bytes × Option BodyError × Bytes
  | .delivers limit =>
      if payload = [] then
        ([], some .eof, [])
      else
        let n := min size (limit + 1)
        (payload.take n, none, payload.drop n)
  | .ends limit =>
      let n := min size limit
      (payload.take n, some .eof, payload.drop n)
  | .breaks limit =>
      let n := min size limit
      (payload.take n, some .failed, payload.drop n)

theorem readBody_append
    (size : Nat)
    (payload : Bytes)
    (answer : BodyAnswer) :
    (readBody size payload answer).1 ++
        (readBody size payload answer).2.2 =
      payload := by
  cases answer with
  | delivers limit =>
      simp only [readBody]
      split
      · next hEmpty => rw [hEmpty]; rfl
      · exact List.take_append_drop _ payload
  | ends limit => exact List.take_append_drop _ payload
  | breaks limit => exact List.take_append_drop _ payload

/- A read with room that reports no error delivers a byte. -/
theorem readBody_progress
    (size : Nat)
    (payload : Bytes)
    (answer : BodyAnswer)
    (hRoom : 0 < size)
    (hFine : (readBody size payload answer).2.1 = none) :
    (readBody size payload answer).1 ≠ [] := by
  cases answer with
  | delivers limit =>
      simp only [readBody] at hFine ⊢
      split at hFine
      · cases hFine
      · next hSome =>
          rw [if_neg hSome]
          intro hNothing
          rcases List.take_eq_nil_iff.mp hNothing with
            hZero | hEmpty
          · omega
          · exact hSome hEmpty
  | ends limit => cases hFine
  | breaks limit => cases hFine

------------------------------------------------------------
-- Errors
------------------------------------------------------------

/- Why an attempt failed; a status says what was replied. -/
inductive ReadCause
  | openFailed (key : String) (statusCode : Option Nat)
  | readFailed (key : String)
  | rangeNotHonoured (key : String) (offset : Nat)
  | chunkSizeMismatch (key : String)
  | chunkChecksumMismatch (key : String)
deriving DecidableEq, Repr

/- A loop out of fuel would be unfinished, which none is. -/
inductive ReadError
  | eof
  | readerClosed
  | cancelled
  | refused (cause : ReadCause)
  | readRetryBudgetExhausted
      (key : String) (offset : Nat) (cause : ReadCause)
  | unfinished
deriving DecidableEq, Repr

def isRetryableStatus (statusCode : Nat) : Bool :=
  statusCode = 408 || statusCode = 429 || 500 ≤ statusCode

def isRetryableReadError : ReadCause → Bool
  | .openFailed _ none => true
  | .openFailed _ (some statusCode) =>
      isRetryableStatus statusCode
  | .readFailed _ => true
  | .rangeNotHonoured _ _ => false
  | .chunkSizeMismatch _ => false
  | .chunkChecksumMismatch _ => false

------------------------------------------------------------
-- The Reader
------------------------------------------------------------

/- The hasher holds the bytes that were written to it. -/
structure Reader where
  parts : List ObjectSpan
  hasManifestChecksum : Bool
  retryPolicy : ReadRetryPolicy
  isClosed : Bool
  partIndex : Nat
  partBody : Option Bytes
  partHasher : Bytes
  partReadBytes : Nat
  attemptReadBytes : Nat
deriving DecidableEq, Repr

def newReassemblingReader
    (parts : List ObjectSpan)
    (hasManifestChecksum : Bool)
    (maxAttemptsWithoutProgress : Nat) : Reader :=
  { parts := parts
    hasManifestChecksum := hasManifestChecksum
    retryPolicy :=
      newReadRetryPolicy maxAttemptsWithoutProgress
    isClosed := false
    partIndex := 0
    partBody := none
    partHasher := []
    partReadBytes := 0
    attemptReadBytes := 0 }

namespace Reader

variable (r : Reader)

def abandonAttempt : Reader :=
  { r with attemptReadBytes := 0, partBody := none }

def close : Reader :=
  { r with isClosed := true }.abandonAttempt

/- A resumed read must not begin before what was delivered. -/
def verifyResponseSpan
    (part : ObjectSpan)
    (response : Response) : Option ReadCause :=
  let expectedBytes := part.size - r.partReadBytes
  if 0 < r.partReadBytes then
    match getRangeStartOfContentRange response.contentRange with
    | some rangeStart =>
        if rangeStart ≠ r.partReadBytes then
          some (.rangeNotHonoured part.key r.partReadBytes)
        else
          none
    | none =>
        if response.size ≠ expectedBytes then
          some (.rangeNotHonoured part.key r.partReadBytes)
        else
          none
  else if 0 ≤ response.size ∧
      response.size ≠ expectedBytes then
    some (.chunkSizeMismatch part.key)
  else
    none

/- The body of the part from the resumed byte on. -/
def openCurrentPart
    (bucket : Bucket)
    (opening : OpenAnswer)
    (part : ObjectSpan) : Except ReadCause Bytes :=
  if 0 < r.partReadBytes ∧
      part.size - 1 < r.partReadBytes then
    .error (.rangeNotHonoured part.key r.partReadBytes)
  else
    match opening with
    | .connectionLost => .error (.openFailed part.key none)
    | .errorResponse statusCode =>
        .error (.openFailed part.key (some statusCode))
    | .answered reply =>
        match bucket.find part.key with
        | none => .error (.openFailed part.key (some 404))
        | some content =>
            let response :=
              reply.respond content r.partReadBytes
                (part.size - 1)
            match r.verifyResponseSpan part response with
            | some cause => .error cause
            | none => .ok response.payload

/- The reader at the start of the next part. -/
def nextPart : Reader :=
  { r with
    partIndex := r.partIndex + 1
    partReadBytes := 0
    retryPolicy :=
      r.retryPolicy.resetAttemptsAfterCompletedRead
    partHasher := [] }

def finishCurrentPart
    (sha256 : Bytes → String)
    (part : ObjectSpan) : Option ReadCause × Reader :=
  let r := r.abandonAttempt
  if (r.partReadBytes : Int) ≠ part.size then
    (some (.chunkSizeMismatch part.key), r)
  else if r.hasManifestChecksum = true ∧
      sha256 r.partHasher ≠ part.sha256 then
    (some (.chunkChecksumMismatch part.key), r)
  else
    (none, r.nextPart)

/- Whether the read goes on after a failed attempt. -/
def resumeAfterFailure
    (moment : Moment)
    (part : ObjectSpan)
    (cause : ReadCause) : Option ReadError × Reader :=
  let hasDeliveredBytes : Bool := 0 < r.attemptReadBytes
  let r := r.abandonAttempt
  if moment.isCancelledAfterFailure then
    (some .cancelled, r)
  else if !isRetryableReadError cause then
    (some (.refused cause), r)
  else
    let r :=
      { r with
        retryPolicy :=
          r.retryPolicy.registerFailedAttempt
            hasDeliveredBytes }
    if r.retryPolicy.isExhausted then
      (some
        (.readRetryBudgetExhausted part.key r.partReadBytes
          cause), r)
    else if hasDeliveredBytes then
      (none, r)
    else if moment.isCancelledWhileWaiting then
      (some .cancelled, r)
    else
      (none, r)

end Reader

/- A turn of the loop goes round again or ends the read. -/
inductive Turn
  | again
  | answer (delivered : Bytes) (err : Option ReadError)
deriving DecidableEq, Repr

namespace Reader

variable (r : Reader)

/- After something that worked, only delivered bytes end it. -/
def goOn (delivered : Bytes) : Turn :=
  if delivered = [] then .again else .answer delivered none

/- The part of a turn that reads from the open body. -/
def readOpenBody
    (sha256 : Bytes → String)
    (moment : Moment)
    (size : Nat)
    (part : ObjectSpan)
    (payload : Bytes) : Turn × Reader :=
  let (delivered, err, later) :=
    readBody size payload moment.body
  let r :=
    { r with
      partBody := some later
      partHasher :=
        if r.hasManifestChecksum then
          r.partHasher ++ delivered
        else
          r.partHasher
      partReadBytes := r.partReadBytes + delivered.length
      attemptReadBytes :=
        r.attemptReadBytes + delivered.length }
  match err with
  | none => (.answer delivered none, r)
  | some bodyErr =>
      if bodyErr = .eof ∧ part.size ≤ r.partReadBytes then
        match r.finishCurrentPart sha256 part with
        | (some cause, r) =>
            (.answer delivered (some (.refused cause)), r)
        | (none, r) => (goOn delivered, r)
      else
        match r.resumeAfterFailure moment part
            (.readFailed part.key) with
        | (some err, r) => (.answer delivered (some err), r)
        | (none, r) => (goOn delivered, r)

/- One turn of the loop of a read. -/
def turn
    (bucket : Bucket)
    (sha256 : Bytes → String)
    (moment : Moment)
    (size : Nat) : Turn × Reader :=
  if r.isClosed then
    (.answer [] (some .readerClosed), r)
  else if moment.isCancelled then
    (.answer [] (some .cancelled), r)
  else
    match r.parts[r.partIndex]? with
    | none => (.answer [] (some .eof), r)
    | some part =>
        match r.partBody with
        | some payload =>
            r.readOpenBody sha256 moment size part payload
        | none =>
            if part.size ≤ r.partReadBytes then
              match r.finishCurrentPart sha256 part with
              | (some cause, r) =>
                  (.answer [] (some (.refused cause)), r)
              | (none, r) => (.again, r)
            else
              match r.openCurrentPart bucket moment.opening
                  part with
              | .ok payload =>
                  r.readOpenBody sha256 moment size part
                    payload
              | .error cause =>
                  match r.resumeAfterFailure moment part
                      cause with
                  | (some err, r) =>
                      (.answer [] (some err), r)
                  | (none, r) => (.again, r)

/-
  A read takes turns until one of them ends it.  The clock
  counts the turns that were taken.
-/
def readLoop
    (bucket : Bucket)
    (sha256 : Bytes → String)
    (script : Nat → Moment)
    (size : Nat) :
    Nat → Nat → Reader →
      Bytes × Option ReadError × Reader × Nat
  | 0, clock, r => ([], some .unfinished, r, clock)
  | fuel + 1, clock, r =>
      match r.turn bucket sha256 (script clock) size with
      | (.answer delivered err, r) =>
          (delivered, err, r, clock + 1)
      | (.again, r) =>
          readLoop bucket sha256 script size fuel (clock + 1) r

/- More turns than a read can take before it ends. -/
def readFuel : Nat :=
  (r.parts.length + 1) *
    (r.retryPolicy.maxAttemptsWithoutProgress + 3)

def read
    (bucket : Bucket)
    (sha256 : Bytes → String)
    (script : Nat → Moment)
    (size clock : Nat) :
    Bytes × Option ReadError × Reader × Nat :=
  readLoop bucket sha256 script size r.readFuel clock r

end Reader

/-
  What reads delivered, the error that ended them, and how
  many turns of the loop they took.
-/
structure Delivery where
  bytes : Bytes
  ending : Option ReadError
  turns : Nat
deriving DecidableEq, Repr

namespace Reader

/- Reads of the given sizes, up to the first error. -/
def deliver
    (bucket : Bucket)
    (sha256 : Bytes → String)
    (script : Nat → Moment) :
    List Nat → Nat → Reader → Delivery
  | [], clock, _ =>
      { bytes := [], ending := none, turns := clock }
  | size :: sizes, clock, r =>
      match r.read bucket sha256 script size clock with
      | (delivered, some err, _, clock) =>
          { bytes := delivered
            ending := some err
            turns := clock }
      | (delivered, none, r, clock) =>
          let later :=
            deliver bucket sha256 script sizes clock r
          { later with bytes := delivered ++ later.bytes }

end Reader

end S3

end Storages

end Databasus
