import Databasus.Foundation.Runs
import Databasus.Iox.ResumedRead

/-
  A reader that resumes a file after its connection failed.

  An attempt is a body that the storage serves from a byte of
  the file on.  It may end before the declared size or go on
  behind it, and it may fail with any bytes.  What the storage
  and the context do at each turn of the loop is a script.

  Main declarations:
    * `ResumingReader.turn`
    * `ResumingReader.read`
    * `ReadSession`
    * `DeliversFile`
    * `delivers_file_iff`
-/

------------------------------------------------------------
-- Attempts
------------------------------------------------------------

namespace Databasus

namespace Iox

/- Why the storage failed, as far as the reader looks. -/
inductive StorageFailure
  | rangeNotHonoured
  | other (code : Nat)
deriving DecidableEq, Repr

inductive ReadCause
  | openFailed (offset : Nat) (failure : StorageFailure)
  | readFailed (failure : StorageFailure)
  | streamTruncated (delivered total : Nat)
deriving DecidableEq, Repr

/- `errors.Is` with `ErrRangeNotHonoured`. -/
def ReadCause.isRangeNotHonoured : ReadCause → Bool
  | .openFailed _ failure => failure = .rangeNotHonoured
  | .readFailed failure => failure = .rangeNotHonoured
  | .streamTruncated _ _ => false

/- A loop out of fuel would be unfinished, which none is. -/
inductive ReadError
  | eof
  | readerClosed
  | cancelled
  | cancelledAfter (cause : ReadCause)
  | rangeNotHonoured (delivered total : Nat)
  | refused (cause : ReadCause)
  | readRetryBudgetExhausted
      (offset : Nat) (cause : ReadCause)
  | unfinished
deriving DecidableEq, Repr

inductive BodyError
  | eof
  | failed (failure : StorageFailure)
deriving DecidableEq, Repr

/-
  What happens during one turn of the loop.  A body that is
  read gives up to `limit` of its next bytes, and an error or
  none beside them.
-/
structure Moment where
  isCancelled : Bool
  isCancelledAfterFailure : Bool
  isCancelledWhileWaiting : Bool
  opening : Option StorageFailure
  limit : Nat
  bodyErr : Option BodyError
deriving DecidableEq, Repr

------------------------------------------------------------
-- The Reader
------------------------------------------------------------

/-
  The body is what the attempt has not served yet.  No code
  reads `openings`, the number of attempts so far.
-/
structure ResumingReader where
  totalBytes : Option Nat
  isRetryableError : ReadCause → Bool
  retryPolicy : ReadRetryPolicy
  isClosed : Bool
  isFinished : Bool
  body : Option Bytes
  deliveredBytes : Nat
  attemptReadBytes : Nat
  openings : Nat

def newResumingReader
    (totalBytes : Option Nat)
    (isRetryableError : ReadCause → Bool)
    (maxAttemptsWithoutProgress : Nat) : ResumingReader :=
  { totalBytes
    isRetryableError
    retryPolicy :=
      newReadRetryPolicy maxAttemptsWithoutProgress
    isClosed := false
    isFinished := false
    body := none
    deliveredBytes := 0
    attemptReadBytes := 0
    openings := 0 }

/- A turn of the loop goes round again or ends the read. -/
inductive Turn
  | again
  | answer (data : Bytes) (err : Option ReadError)
deriving DecidableEq, Repr

/- The bytes that a turn hands out. -/
def Turn.data : Turn → Bytes
  | .again => []
  | .answer data _ => data

namespace ResumingReader

variable (r : ResumingReader)

def hasReadDeclaredSize : Bool :=
  r.totalBytes.any fun total => total ≤ r.deliveredBytes

def isPastDeclaredSize : Bool :=
  r.totalBytes.any fun total => total < r.deliveredBytes

def abandonAttempt : ResumingReader :=
  { r with attemptReadBytes := 0, body := none }

def close : ResumingReader :=
  { r with isClosed := true }.abandonAttempt

def finish : ResumingReader :=
  { r with isFinished := true }.abandonAttempt

/- The storage serves the file from the offset asked for. -/
def openAtCurrentOffset
    (file : Bytes)
    (opening : Option StorageFailure) :
    Option ReadCause × ResumingReader :=
  let r := { r with openings := r.openings + 1 }
  match opening with
  | some failure =>
      (some (.openFailed r.deliveredBytes failure), r)
  | none =>
      (none, { r with body := some (file.drop r.deliveredBytes) })

/- Whether the read goes on after a failed attempt. -/
def resumeAfterFailure
    (moment : Moment)
    (cause : ReadCause) :
    Option ReadError × ResumingReader :=
  let hasDeliveredBytes : Bool := 0 < r.attemptReadBytes
  let r := r.abandonAttempt
  if moment.isCancelledAfterFailure then
    (some (.cancelledAfter cause), r)
  else if cause.isRangeNotHonoured ||
      !r.isRetryableError cause then
    (some (.refused cause), r)
  else
    let r :=
      { r with
        retryPolicy :=
          r.retryPolicy.registerFailedAttempt
            hasDeliveredBytes }
    if r.retryPolicy.isExhausted then
      (some (.readRetryBudgetExhausted r.deliveredBytes
        cause), r)
    else if hasDeliveredBytes then
      (none, r)
    else if moment.isCancelledWhileWaiting then
      (some .cancelled, r)
    else
      (none, r)

/- Bytes that came with the failure are still handed out. -/
def failAttempt
    (moment : Moment)
    (data : Bytes)
    (cause : ReadCause) : Turn × ResumingReader :=
  match r.resumeAfterFailure moment cause with
  | (some err, r) => (.answer data (some err), r)
  | (none, r) =>
      if data = [] then
        (.again, r)
      else
        (.answer data none, r)

/- What is done with the bytes and the error of a body. -/
def takeBodyRead
    (moment : Moment)
    (data : Bytes) : Turn × ResumingReader :=
  if r.isPastDeclaredSize then
    (.answer data
      (some (.rangeNotHonoured r.deliveredBytes
        (r.totalBytes.getD 0))),
      r.abandonAttempt)
  else
    match moment.bodyErr with
    | none => (.answer data none, r)
    | some .eof =>
        if r.totalBytes.isNone || r.hasReadDeclaredSize then
          (.answer data
            (if data = [] then some .eof else none), r.finish)
        else
          r.failAttempt moment data
            (.streamTruncated r.deliveredBytes
              (r.totalBytes.getD 0))
    | some (.failed failure) =>
        r.failAttempt moment data (.readFailed failure)

/- The part of a turn that reads from the open body. -/
def readOpenBody
    (moment : Moment)
    (size : Nat)
    (payload : Bytes) : Turn × ResumingReader :=
  let n := min size moment.limit
  let data := payload.take n
  { r with
    body := some (payload.drop n)
    deliveredBytes := r.deliveredBytes + data.length
    attemptReadBytes :=
      r.attemptReadBytes + data.length }.takeBodyRead
    moment data

/- One turn of the loop of a read. -/
def turn
    (file : Bytes)
    (moment : Moment)
    (size : Nat) : Turn × ResumingReader :=
  if r.isClosed then
    (.answer [] (some .readerClosed), r)
  else if moment.isCancelled then
    (.answer [] (some .cancelled), r)
  else if r.isFinished || r.hasReadDeclaredSize then
    (.answer [] (some .eof), r)
  else
    match r.body with
    | some payload => r.readOpenBody moment size payload
    | none =>
        match r.openAtCurrentOffset file moment.opening with
        | (some cause, r) =>
            match r.resumeAfterFailure moment cause with
            | (some err, r) => (.answer [] (some err), r)
            | (none, r) => (.again, r)
        | (none, r) =>
            r.readOpenBody moment size
              (r.body.getD [])

/-
  A read takes turns until one of them ends it.  The clock
  counts the turns that were taken.
-/
def readLoop
    (file : Bytes)
    (script : Nat → Moment)
    (size : Nat) :
    Nat → Nat → ResumingReader →
      Bytes × Option ReadError × ResumingReader × Nat
  | 0, clock, r => ([], some .unfinished, r, clock)
  | fuel + 1, clock, r =>
      match r.turn file (script clock) size with
      | (.answer data err, r) => (data, err, r, clock + 1)
      | (.again, r) =>
          readLoop file script size fuel (clock + 1) r

/- More turns than a read can take before it ends. -/
def readFuel : Nat :=
  r.retryPolicy.maxAttemptsWithoutProgress + 3

def read
    (file : Bytes)
    (script : Nat → Moment)
    (size clock : Nat) :
    Bytes × Option ReadError × ResumingReader × Nat :=
  readLoop file script size r.readFuel clock r

------------------------------------------------------------
-- What a Turn Does
------------------------------------------------------------

variable {file delivered data : Bytes}
variable {r}
variable {next : ResumingReader}
variable {policy : ReadRetryPolicy}

/-
  The reader has handed out the first bytes of the file, and
  its body goes on right behind them.
-/
structure Sound
    (file delivered : Bytes)
    (r : ResumingReader) : Prop where
  delivered_eq : delivered = file.take r.deliveredBytes
  inside : r.deliveredBytes ≤ file.length
  body :
    ∀ payload,
      r.body = some payload →
        payload = file.drop r.deliveredBytes
  idle : r.body = none → r.attemptReadBytes = 0
  finished :
    r.isFinished = true →
      ∀ total,
        r.totalBytes = some total → total ≤ r.deliveredBytes

theorem Sound.length_delivered
    (hSound : Sound file delivered r) :
    delivered.length = r.deliveredBytes := by
  rw [hSound.delivered_eq]
  exact List.length_take_of_le hSound.inside

/- The parts of a reader that no step changes. -/
structure SameFile
    (r next : ResumingReader) : Prop where
  totalBytes_eq : next.totalBytes = r.totalBytes
  max_eq :
    next.retryPolicy.maxAttemptsWithoutProgress =
      r.retryPolicy.maxAttemptsWithoutProgress
  isClosed_eq : next.isClosed = r.isClosed

theorem SameFile.behind
    {last : ResumingReader}
    (hSecond : SameFile next last)
    (hFirst : SameFile r next) : SameFile r last :=
  ⟨hSecond.totalBytes_eq.trans hFirst.totalBytes_eq,
    hSecond.max_eq.trans hFirst.max_eq,
    hSecond.isClosed_eq.trans hFirst.isClosed_eq⟩

/- The turns that may still go round within one read. -/
def turnsLeft
    (r : ResumingReader) : Nat :=
  if 0 < r.attemptReadBytes then
    r.retryPolicy.maxAttemptsWithoutProgress + 2
  else
    r.retryPolicy.attemptsLeft

/- The attempts that one read may still open. -/
def openingsLeft
    (r : ResumingReader) : Nat :=
  if 0 < r.attemptReadBytes then
    r.retryPolicy.maxAttemptsWithoutProgress
  else
    max 1 r.retryPolicy.attemptsLeft

theorem turnsLeft_lt_readFuel
    (r : ResumingReader) :
    r.turnsLeft < r.readFuel := by
  have hLeft := r.retryPolicy.attemptsLeft_le
  unfold turnsLeft readFuel
  split <;> omega

theorem openingsLeft_le
    (r : ResumingReader) :
    r.openingsLeft ≤
      r.retryPolicy.maxAttemptsWithoutProgress + 1 := by
  have hLeft := r.retryPolicy.attemptsLeft_le
  unfold openingsLeft
  split <;> omega

/- A turn opens at most one attempt, and none in its midst. -/
def openingsOfTurn
    (r : ResumingReader) : Nat :=
  if 0 < r.attemptReadBytes then 0 else 1

theorem openingsOfTurn_le_openingsLeft
    (r : ResumingReader) :
    r.openingsOfTurn ≤ r.openingsLeft := by
  unfold openingsOfTurn openingsLeft
  split
  · exact Nat.zero_le _
  · exact Nat.le_max_left _ _

/-
  What is left of the budget when a failure is survived: all
  of it but this attempt, when the attempt delivered bytes.
-/
def Survives
    (r : ResumingReader)
    (policy : ReadRetryPolicy) : Prop :=
  1 ≤ policy.attemptsLeft ∧
    if 0 < r.attemptReadBytes then
      policy.attemptsLeft =
        policy.maxAttemptsWithoutProgress
    else
      policy.attemptsLeft < r.retryPolicy.attemptsLeft

theorem survives_registerFailedAttempt
    {hasDeliveredBytes : Bool}
    (hProgress :
      hasDeliveredBytes = decide (0 < r.attemptReadBytes))
    (hBudget :
      (r.retryPolicy.registerFailedAttempt
        hasDeliveredBytes).isExhausted = false) :
    Survives r
      (r.retryPolicy.registerFailedAttempt
        hasDeliveredBytes) := by
  have hWithin := hBudget
  simp only [ReadRetryPolicy.isExhausted, gt_iff_lt,
    decide_eq_false_iff_not, Nat.not_lt] at hWithin
  constructor
  · unfold ReadRetryPolicy.attemptsLeft
    omega
  · by_cases hDelivered : 0 < r.attemptReadBytes
    · rw [if_pos hDelivered]
      rw [hProgress, decide_eq_true hDelivered]
      simp [ReadRetryPolicy.attemptsLeft,
        ReadRetryPolicy.registerFailedAttempt]
    · rw [if_neg hDelivered]
      rw [decide_eq_false hDelivered] at hProgress
      subst hProgress
      exact
        ReadRetryPolicy.attemptsLeft_registerFailedAttempt
          hBudget

/- All that a failed attempt leads to. -/
theorem resumeAfterFailure_cases
    {moment : Moment}
    {cause : ReadCause}
    {err : Option ReadError}
    (hFailed :
      r.resumeAfterFailure moment cause = (err, next)) :
    ∃ policy : ReadRetryPolicy,
      next = { r.abandonAttempt with retryPolicy := policy } ∧
        policy.maxAttemptsWithoutProgress =
          r.retryPolicy.maxAttemptsWithoutProgress ∧
        err ≠ some .eof ∧
        err ≠ some .unfinished ∧
        (err = none → Survives r policy) := by
  unfold resumeAfterFailure at hFailed
  simp only at hFailed
  split at hFailed
  · cases hFailed
    exact ⟨r.retryPolicy, by simp [abandonAttempt]⟩
  split at hFailed
  · cases hFailed
    exact ⟨r.retryPolicy, by simp [abandonAttempt]⟩
  refine
    ⟨r.retryPolicy.registerFailedAttempt
      (decide (0 < r.attemptReadBytes)), ?_⟩
  split at hFailed
  · cases hFailed
    simp [abandonAttempt]
  next hBudget =>
  have hSurvives :
      Survives r
        (r.retryPolicy.registerFailedAttempt
          (decide (0 < r.attemptReadBytes))) :=
    survives_registerFailedAttempt rfl
      (eq_false_of_ne_true hBudget)
  split at hFailed
  · cases hFailed
    simp [abandonAttempt, hSurvives]
  split at hFailed
  · cases hFailed
    simp [abandonAttempt]
  · cases hFailed
    simp [abandonAttempt, hSurvives]

theorem Sound.resumed
    (hSound : Sound file delivered r) :
    Sound file delivered
      { r.abandonAttempt with retryPolicy := policy } where
  delivered_eq := hSound.delivered_eq
  inside := hSound.inside
  body := fun _ hBody => nomatch hBody
  idle := fun _ => rfl
  finished := hSound.finished

/-
  A turn hands out the next bytes of the file.  It goes round
  again only at the expense of the retry budget, and reports
  the end only behind the declared size.
-/
structure TurnSound
    (file delivered : Bytes)
    (r : ResumingReader)
    (outcome : Turn × ResumingReader) : Prop where
  sound :
    Sound file (delivered ++ outcome.1.data) outcome.2
  sameFile : SameFile r outcome.2
  ended :
    ∀ data,
      outcome.1 = .answer data (some .eof) →
        data = [] ∧
          ∀ total,
            r.totalBytes = some total →
              total ≤ outcome.2.deliveredBytes
  finishes :
    ∀ data, outcome.1 ≠ .answer data (some .unfinished)
  openings :
    outcome.2.openings ≤ r.openings + r.openingsOfTurn
  again :
    outcome.1 = .again →
      outcome.2.turnsLeft < r.turnsLeft ∧
        outcome.2.openingsLeft + r.openingsOfTurn ≤
          r.openingsLeft

theorem budget_of_survives
    (hMax :
      policy.maxAttemptsWithoutProgress =
        r.retryPolicy.maxAttemptsWithoutProgress)
    (hSurvives : Survives r policy) :
    turnsLeft
        { r.abandonAttempt with retryPolicy := policy } <
        r.turnsLeft ∧
      openingsLeft
          { r.abandonAttempt with retryPolicy := policy } +
            r.openingsOfTurn ≤
        r.openingsLeft := by
  have hLeft := policy.attemptsLeft_le
  rcases hSurvives with ⟨hSome, hSpent⟩
  unfold turnsLeft openingsLeft openingsOfTurn
  by_cases hDelivered : 0 < r.attemptReadBytes
  · rw [if_pos hDelivered] at hSpent
    simp only [abandonAttempt, Nat.lt_irrefl, if_false,
      if_pos hDelivered]
    omega
  · rw [if_neg hDelivered] at hSpent
    simp only [abandonAttempt, Nat.lt_irrefl, if_false,
      if_neg hDelivered]
    omega

/- What follows the read of a body, with its bytes counted. -/
structure BodySound
    (file delivered data : Bytes)
    (r : ResumingReader)
    (outcome : Turn × ResumingReader) : Prop where
  sound : Sound file delivered outcome.2
  sameFile : SameFile r outcome.2
  data_eq : outcome.1.data = data
  ended :
    ∀ handed,
      outcome.1 = .answer handed (some .eof) →
        handed = [] ∧
          ∀ total,
            r.totalBytes = some total →
              total ≤ outcome.2.deliveredBytes
  finishes :
    ∀ handed, outcome.1 ≠ .answer handed (some .unfinished)
  openings : outcome.2.openings = r.openings
  again :
    outcome.1 = .again →
      outcome.2.turnsLeft < r.turnsLeft ∧
        outcome.2.openingsLeft + r.openingsOfTurn ≤
          r.openingsLeft

theorem failAttempt_sound
    (moment : Moment)
    (data : Bytes)
    (cause : ReadCause)
    (hSound : Sound file delivered r) :
    BodySound file delivered data r
      (r.failAttempt moment data cause) := by
  unfold failAttempt
  cases hResumed : r.resumeAfterFailure moment cause with
  | mk err next =>
      rcases resumeAfterFailure_cases hResumed with
        ⟨policy, hNext, hMax, hNotEOF, hNotUnfinished,
          hSurvives⟩
      subst hNext
      have hStill :
          Sound file delivered
            { r.abandonAttempt with retryPolicy := policy } :=
        hSound.resumed
      have hSame :
          SameFile r
            { r.abandonAttempt with retryPolicy := policy } :=
        ⟨rfl, hMax, rfl⟩
      cases err with
      | some err =>
          refine ⟨hStill, hSame, rfl, ?_, ?_, rfl, ?_⟩
          · intro handed hEnd
            injection hEnd with hData hErr
            exact absurd hErr hNotEOF
          · intro handed hEnd
            injection hEnd with hData hErr
            exact hNotUnfinished hErr
          · intro hAgain
            cases hAgain
      | none =>
          have hBudget :=
            budget_of_survives hMax (hSurvives rfl)
          by_cases hNothing : data = []
          · simp only [if_pos hNothing]
            refine ⟨hStill, hSame, hNothing.symm, ?_, ?_,
              rfl, fun _ => hBudget⟩
            · intro handed hEnd
              cases hEnd
            · intro handed hEnd
              cases hEnd
          · simp only [if_neg hNothing]
            refine ⟨hStill, hSame, rfl, ?_, ?_, rfl, ?_⟩
            · intro handed hEnd
              cases hEnd
            · intro handed hEnd
              cases hEnd
            · intro hAgain
              cases hAgain

theorem hasReadDeclaredSize_iff
    (r : ResumingReader) :
    r.hasReadDeclaredSize = true ↔
      ∃ total,
        r.totalBytes = some total ∧
          total ≤ r.deliveredBytes := by
  unfold hasReadDeclaredSize
  cases r.totalBytes with
  | none => simp
  | some total => simp

theorem takeBodyRead_sound
    (moment : Moment)
    (data : Bytes)
    (hSound : Sound file delivered r) :
    BodySound file delivered data r
      (r.takeBodyRead moment data) := by
  unfold takeBodyRead
  split
  · -- The body went on behind the declared size.
    refine ⟨hSound.resumed, ⟨rfl, rfl, rfl⟩, rfl, ?_, ?_,
      rfl, ?_⟩
    · intro handed hEnd
      cases hEnd
    · intro handed hEnd
      cases hEnd
    · intro hAgain
      cases hAgain
  split
  · refine ⟨hSound, ⟨rfl, rfl, rfl⟩, rfl, ?_, ?_, rfl, ?_⟩
    · intro handed hEnd
      cases hEnd
    · intro handed hEnd
      cases hEnd
    · intro hAgain
      cases hAgain
  · split
    · -- The body ended at the declared size.
      next hWhole =>
        have hTotal :
            ∀ total,
              r.totalBytes = some total →
                total ≤ r.deliveredBytes := by
          intro total hKnown
          simpa [hasReadDeclaredSize, hKnown] using hWhole
        refine ⟨⟨hSound.delivered_eq, hSound.inside, ?_,
          fun _ => rfl, fun _ => hTotal⟩, ⟨rfl, rfl, rfl⟩,
          rfl, ?_, ?_, rfl, ?_⟩
        · intro payload hBody
          cases hBody
        · intro handed hEnd
          injection hEnd with hData hErr
          refine ⟨?_, hTotal⟩
          by_cases hNothing : data = []
          · rw [← hData, hNothing]
          · rw [if_neg hNothing] at hErr
            cases hErr
        · intro handed hEnd
          injection hEnd with hData hErr
          split at hErr <;> cases hErr
        · intro hAgain
          cases hAgain
    · exact failAttempt_sound moment data _ hSound
  · exact failAttempt_sound moment data _ hSound

/- The bytes that a body gives are the next of the file. -/
theorem readOpenBody_sound
    (moment : Moment)
    (size : Nat)
    {payload : Bytes}
    (hSound : Sound file delivered r)
    (hPayload : payload = file.drop r.deliveredBytes) :
    TurnSound file delivered r
        (r.readOpenBody moment size payload) ∧
      (r.readOpenBody moment size payload).2.openings =
        r.openings := by
  unfold readOpenBody
  generalize min size moment.limit = n
  simp only
  have hAdvanced :
      Sound file (delivered ++ payload.take n)
        { r with
          body := some (payload.drop n)
          deliveredBytes :=
            r.deliveredBytes + (payload.take n).length
          attemptReadBytes :=
            r.attemptReadBytes +
              (payload.take n).length } := by
    have hBytes :
        file.take
            (r.deliveredBytes + (payload.take n).length) =
          delivered ++ payload.take n := by
      rw [List.take_add, ← hPayload, hSound.delivered_eq,
        List.length_take, ← List.take_eq_take_min]
    refine ⟨hBytes.symm, ?_, ?_, ?_, ?_⟩
    · have hInside := hSound.inside
      have hLength := congrArg List.length hPayload
      rw [List.length_drop] at hLength
      simp only [List.length_take]
      omega
    · intro rest hBody
      injection hBody with hRest
      change rest =
        file.drop
          (r.deliveredBytes + (payload.take n).length)
      rw [← hRest, hPayload, List.drop_drop,
        List.length_take, List.length_drop]
      by_cases hFew : n ≤ file.length - r.deliveredBytes
      · rw [Nat.min_eq_left hFew]
      · have hInside := hSound.inside
        rw [Nat.min_eq_right (Nat.le_of_not_le hFew),
          List.drop_of_length_le, List.drop_of_length_le]
        · omega
        · omega
    · intro hBody
      cases hBody
    · intro hFinished total hKnown
      exact Nat.le_trans
        (hSound.finished hFinished total hKnown)
        (Nat.le_add_right _ _)
  have hBody :=
    takeBodyRead_sound moment (payload.take n) hAdvanced
  refine ⟨⟨?_, hBody.sameFile.behind ⟨rfl, rfl, rfl⟩,
    hBody.ended, hBody.finishes, ?_, ?_⟩, hBody.openings⟩
  · rw [hBody.data_eq]
    exact hBody.sound
  · rw [hBody.openings]
    exact Nat.le_add_right _ _
  · intro hAgain
    have hNothing : payload.take n = [] := by
      have hData := hBody.data_eq
      rw [hAgain] at hData
      exact hData.symm
    have hBudget := hBody.again hAgain
    simpa only [hNothing, List.length_nil, Nat.add_zero,
      turnsLeft, openingsLeft, openingsOfTurn] using hBudget

theorem turn_sound
    (moment : Moment)
    (size : Nat)
    (hSound : Sound file delivered r) :
    TurnSound file delivered r (r.turn file moment size) := by
  have hStays :
      ∀ err : ReadError,
        err ≠ .unfinished →
        (err = .eof →
          ∀ total,
            r.totalBytes = some total →
              total ≤ r.deliveredBytes) →
          TurnSound file delivered r
            (.answer [] (some err), r) := by
    intro err hFinishes hEnds
    refine ⟨?_, ⟨rfl, rfl, rfl⟩, ?_, ?_,
      Nat.le_add_right _ _, ?_⟩
    · simpa [Turn.data] using hSound
    · intro data hEnd
      injection hEnd with hData hErr
      injection hErr with hErr
      exact ⟨hData.symm, hEnds hErr⟩
    · intro data hEnd
      injection hEnd with hData hErr
      injection hErr with hErr
      exact hFinishes hErr
    · intro hAgain
      cases hAgain
  unfold turn
  split
  · exact hStays _ (by simp) (by simp)
  split
  · exact hStays _ (by simp) (by simp)
  split
  · next hEnd =>
      apply hStays _ (by simp)
      intro hEOF total hKnown
      rcases Bool.or_eq_true_iff.mp hEnd with
        hFinished | hRead
      · exact hSound.finished hFinished total hKnown
      · simpa [hasReadDeclaredSize, hKnown] using hRead
  split
  · next payload hBody =>
      exact
        (readOpenBody_sound moment size hSound
          (hSound.body payload hBody)).1
  next hBody =>
  have hIdle := hSound.idle hBody
  have hOne : r.openingsOfTurn = 1 := by
    simp [openingsOfTurn, hIdle]
  cases hOpening : moment.opening with
  | some failure =>
      -- The attempt failed before it had a body.
      simp only [openAtCurrentOffset]
      have hOpened :
          Sound file delivered
            { r with openings := r.openings + 1 } :=
        ⟨hSound.delivered_eq, hSound.inside, hSound.body,
          hSound.idle, hSound.finished⟩
      have hFailed :=
        failAttempt_sound moment []
          (.openFailed r.deliveredBytes failure) hOpened
      unfold failAttempt at hFailed
      simp only [if_true] at hFailed
      split
      · next err next hResumed =>
          rw [hResumed] at hFailed
          refine ⟨?_, hFailed.sameFile.behind
            ⟨rfl, rfl, rfl⟩, hFailed.ended,
            hFailed.finishes, ?_, ?_⟩
          · simpa [Turn.data] using hFailed.sound
          · rw [hOne]
            exact Nat.le_of_eq hFailed.openings
          · intro hAgain
            cases hAgain
      · next next hResumed =>
          rw [hResumed] at hFailed
          refine ⟨?_, hFailed.sameFile.behind
            ⟨rfl, rfl, rfl⟩, hFailed.ended,
            hFailed.finishes, ?_, hFailed.again⟩
          · simpa [Turn.data] using hFailed.sound
          · rw [hOne]
            exact Nat.le_of_eq hFailed.openings
  | none =>
      simp only [openAtCurrentOffset, Option.getD_some]
      have hOpened :
          Sound file delivered
            { r with
              openings := r.openings + 1
              body := some (file.drop r.deliveredBytes) } := by
        refine ⟨hSound.delivered_eq, hSound.inside, ?_, ?_,
          hSound.finished⟩
        · intro payload hSame
          exact (Option.some.inj hSame).symm
        · intro hNone
          cases hNone
      have hRead := readOpenBody_sound moment size hOpened rfl
      refine ⟨hRead.1.sound,
        hRead.1.sameFile.behind ⟨rfl, rfl, rfl⟩,
        hRead.1.ended, hRead.1.finishes, ?_, hRead.1.again⟩
      rw [hOne]
      exact Nat.le_of_eq hRead.2

/-
  A read ends, with an answer that goes on where the file was
  left, and within the attempts that the policy allows.
-/
structure ReadSound
    (file delivered : Bytes)
    (r : ResumingReader)
    (data : Bytes)
    (err : Option ReadError)
    (next : ResumingReader) : Prop where
  sound : Sound file (delivered ++ data) next
  sameFile : SameFile r next
  ended :
    err = some .eof →
      data = [] ∧
        ∀ total,
          r.totalBytes = some total →
            total ≤ next.deliveredBytes
  finishes : err ≠ some .unfinished
  openings : next.openings ≤ r.openings + r.openingsLeft

theorem readLoop_sound
    (script : Nat → Moment)
    (size : Nat)
    {fuel clock : Nat}
    (hSound : Sound file delivered r)
    (hFuel : r.turnsLeft < fuel) :
    ReadSound file delivered r
      (readLoop file script size fuel clock r).1
      (readLoop file script size fuel clock r).2.1
      (readLoop file script size fuel clock r).2.2.1 := by
  induction fuel generalizing clock r with
  | zero => exact absurd hFuel (Nat.not_lt_zero _)
  | succ fuel ih =>
      have hTurn := turn_sound (script clock) size hSound
      unfold readLoop
      cases hTaken : r.turn file (script clock) size with
      | mk outcome next =>
          rw [hTaken] at hTurn
          cases outcome with
          | answer data err =>
              refine ⟨hTurn.sound, hTurn.sameFile, ?_, ?_, ?_⟩
              · intro hEOF
                simp only at hEOF
                exact hTurn.ended data (by rw [hEOF])
              · intro hErr
                simp only at hErr
                exact hTurn.finishes data (by rw [hErr])
              · exact Nat.le_trans hTurn.openings
                  (Nat.add_le_add_left
                    r.openingsOfTurn_le_openingsLeft _)
          | again =>
              have hBudget := hTurn.again rfl
              have hStill := hTurn.sound
              rw [Turn.data, List.append_nil] at hStill
              have hLess : next.turnsLeft < fuel :=
                Nat.lt_of_lt_of_le hBudget.1
                  (Nat.le_of_lt_succ hFuel)
              have hRest := @ih next (clock + 1) hStill hLess
              have hSpent := hTurn.openings
              have hLater := hRest.openings
              have hSame := hTurn.sameFile.totalBytes_eq
              refine ⟨hRest.sound,
                hRest.sameFile.behind hTurn.sameFile, ?_,
                hRest.finishes, ?_⟩
              · intro hEOF
                have hEnded := hRest.ended hEOF
                rw [hSame] at hEnded
                exact hEnded
              · simp only at hBudget hSpent hLater ⊢
                omega

theorem read_sound
    (script : Nat → Moment)
    (size clock : Nat)
    (hSound : Sound file delivered r) :
    ReadSound file delivered r
      (r.read file script size clock).1
      (r.read file script size clock).2.1
      (r.read file script size clock).2.2.1 :=
  readLoop_sound script size hSound r.turnsLeft_lt_readFuel

end ResumingReader

end Iox

end Databasus
