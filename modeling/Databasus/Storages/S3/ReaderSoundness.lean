import Databasus.Storages.S3.ReassemblingReader

/-
  What the reader delivers is what the parts spell.

  The invariant ties the reader to the bytes that remain: the
  open body holds the current object from the resumed byte on,
  and the hasher holds the object up to it.  A turn delivers
  the next of these bytes, and a turn that goes round again
  lowers a bound on the turns that are left.

  Main declarations:
    * `ReaderSound`
    * `Reader.turnsLeft`
    * `ReadError.IsExplained`
    * `turn_sound`
    * `read_sound`
    * `deliver_sound`
-/

------------------------------------------------------------
-- Invariant
------------------------------------------------------------

namespace Databasus

namespace Storages

namespace S3

open Foundation Iox

variable {content : Bytes}

/-
  The reply shows that it starts at the requested offset: it
  honours the range, and declares its length or its range.
  A range is read as a 64-bit number.
-/
def Reply.ProvesStart
    (reply : Reply)
    (total : Nat) : Prop :=
  reply.isRangeIgnored = false ∧
    (reply.isLengthDeclared = true ∨
      reply.isContentRangeSent = true ∧ total ≤ maxInt64)

instance
    (reply : Reply)
    (total : Nat) : Decidable (reply.ProvesStart total) :=
  inferInstanceAs (Decidable (_ ∧ _))

/- The reader stands within the object of a part. -/
structure InPart
    (bucket : Bucket)
    (sha256 : Bytes → String)
    (total : Nat)
    (r : Reader)
    (part : ObjectSpan)
    (own later : Bytes) : Prop where
  current : r.parts[r.partIndex]? = some part
  holds :
    HoldsSpan bucket sha256 r.hasManifestChecksum part own
  spelled :
    SpelledBy bucket sha256 r.hasManifestChecksum
      (r.parts.drop (r.partIndex + 1)) later
  read_le : r.partReadBytes ≤ own.length
  hashed :
    r.hasManifestChecksum = true →
      r.partHasher = own.take r.partReadBytes
  length_le : own.length + later.length ≤ total

/-
  Where the reader stands, and what it has still to give of a
  file of the given length.
-/
inductive Position
    (bucket : Bucket)
    (sha256 : Bytes → String)
    (total : Nat)
    (r : Reader) : Bytes → Prop
  | ended :
      r.parts[r.partIndex]? = none →
      Position bucket sha256 total r []
  | within
      {part : ObjectSpan}
      {own later : Bytes} :
      InPart bucket sha256 total r part own later →
      (∀ payload, r.partBody = some payload →
        payload = own.drop r.partReadBytes) →
      Position bucket sha256 total r
        (own.drop r.partReadBytes ++ later)

structure ReaderSound
    (bucket : Bucket)
    (sha256 : Bytes → String)
    (total : Nat)
    (r : Reader)
    (remaining : Bytes) : Prop where
  position : Position bucket sha256 total r remaining
  open_ : r.isClosed = false
  idle : r.partBody = none → r.attemptReadBytes = 0

/- The turns that a read may take before it ends. -/
def Reader.turnsLeft (r : Reader) : Nat :=
  (r.parts.length - r.partIndex) *
      (r.retryPolicy.maxAttemptsWithoutProgress + 3) +
    if r.partBody = none then
      r.retryPolicy.attemptsLeft
    else
      r.retryPolicy.maxAttemptsWithoutProgress + 2

/-
  Why a read of a file of the given length ended: at the end
  of it, or through what happened in the turn.
-/
def ReadError.IsExplained
    (moment : Moment)
    (total : Nat)
    (remaining : Bytes) : ReadError → Prop
  | .eof => remaining = []
  | .cancelled =>
      moment.isCancelled = true ∨
        moment.isCancelledAfterFailure = true ∨
        moment.isCancelledWhileWaiting = true
  | .readRetryBudgetExhausted _ _ _ => True
  | .refused (.openFailed _ (some statusCode)) =>
      moment.opening = .errorResponse statusCode ∧
        isRetryableStatus statusCode = false
  | .refused (.rangeNotHonoured _ offset) =>
      0 < offset ∧
        ∃ reply, moment.opening = .answered reply ∧
          ¬ reply.ProvesStart total
  | _ => False

variable {bucket : Bucket}
variable {sha256 : Bytes → String}
variable {r r' : Reader}
variable {moment : Moment}
variable {part : ObjectSpan}
variable {total : Nat}

/- The next part begins where the spelled rest does. -/
theorem Position.start
    {spans : List ObjectSpan}
    (hSpans : r.parts.drop r.partIndex = spans)
    (hSpelled :
      SpelledBy bucket sha256 r.hasManifestChecksum spans
        content)
    (hRead : r.partReadBytes = 0)
    (hHasher : r.partHasher = [])
    (hBody : r.partBody = none)
    (hTotal : content.length ≤ total) :
    Position bucket sha256 total r content := by
  cases hSpelled with
  | nil =>
      apply Position.ended
      rw [List.getElem?_eq_none_iff]
      exact List.drop_eq_nil_iff.mp hSpans
  | @cons span spans own later hOwn hLater =>
      have hCurrent : r.parts[r.partIndex]? = some span := by
        have hHead := congrArg List.head? hSpans
        simpa [List.head?_drop] using hHead
      have hNext :
          r.parts.drop (r.partIndex + 1) = spans := by
        have hTail := congrArg List.tail hSpans
        simpa [List.tail_drop] using hTail
      rw [← hNext] at hLater
      rw [List.length_append] at hTotal
      have hIn :
          InPart bucket sha256 total r span own later :=
        { current := hCurrent
          holds := hOwn
          spelled := hLater
          read_le := by omega
          hashed := fun _ => by
            rw [hHasher, hRead, List.take_zero]
          length_le := hTotal }
      have hWithin :=
        Position.within hIn fun payload hSome => by
          rw [hBody] at hSome
          cases hSome
      rw [hRead, List.drop_zero] at hWithin
      exact hWithin

/- A reader of spelled spans starts with all of their bytes. -/
theorem newReassemblingReader_sound
    {parts : List ObjectSpan}
    {isChecked : Bool}
    (hSpelled :
      SpelledBy bucket sha256 isChecked parts content)
    (maxAttempts : Nat) :
    ReaderSound bucket sha256 content.length
      (newReassemblingReader parts isChecked maxAttempts)
      content :=
  ⟨Position.start rfl hSpelled rfl rfl rfl (Nat.le_refl _),
    rfl, fun _ => rfl⟩

------------------------------------------------------------
-- Opening, Resuming and Finishing
------------------------------------------------------------

variable {own later remaining : Bytes}
variable {reply : Reply}

theorem respond_whole
    (reply : Reply)
    (last : Int) :
    reply.respond own 0 last =
      { payload := own
        size :=
          if reply.isLengthDeclared then own.length else -1
        contentRange :=
          if reply.isContentRangeSent then
            Iox.contentRange 0 (0 + own.length - 1) own.length
          else
            "" } := by
  simp [Reply.respond]

theorem respond_ranged
    {offset : Nat}
    (hHonoured : reply.isRangeIgnored = false)
    (hOffset : 0 < offset) :
    reply.respond own offset ((own.length : Int) - 1) =
      { payload := own.drop offset
        size :=
          if reply.isLengthDeclared then
            (own.drop offset).length
          else
            -1
        contentRange :=
          if reply.isContentRangeSent then
            Iox.contentRange offset
              (offset + (own.drop offset).length - 1)
              own.length
          else
            "" } := by
  simp [Reply.respond, hHonoured, hOffset]

/- A resumed read is refused as one that proves nothing. -/
theorem verifyResponseSpan_resumed
    {response : Response}
    {cause : ReadCause}
    (hOffset : 0 < r.partReadBytes)
    (hRefused :
      r.verifyResponseSpan part response = some cause) :
    cause = .rangeNotHonoured part.key r.partReadBytes := by
  simp only [Reader.verifyResponseSpan, if_pos hOffset]
    at hRefused
  split at hRefused
  · split at hRefused
    · exact (Option.some.inj hRefused).symm
    · cases hRefused
  · split at hRefused
    · exact (Option.some.inj hRefused).symm
    · cases hRefused

/- A reply that proves its start is taken. -/
theorem verifyResponseSpan_of_provesStart
    (hSize : part.size = own.length)
    (hOffset : 0 < r.partReadBytes)
    (hOpen : r.partReadBytes < own.length)
    (hTotal : own.length ≤ total)
    (hProves : reply.ProvesStart total) :
    r.verifyResponseSpan part
        (reply.respond own r.partReadBytes (part.size - 1)) =
      none := by
  rcases hProves with ⟨hHonoured, hProof⟩
  rw [hSize, respond_ranged hHonoured hOffset]
  simp only [Reader.verifyResponseSpan, if_pos hOffset]
  have hNoRange : getRangeStartOfContentRange "" = none := by
    decide
  have hLeft :
      (((own.drop r.partReadBytes).length : Nat) : Int) =
        (own.length : Int) - r.partReadBytes := by
    rw [List.length_drop]
    omega
  cases hSent : reply.isContentRangeSent with
  | false =>
      have hDeclared : reply.isLengthDeclared = true := by
        simpa [hSent] using hProof
      simp only [hDeclared, Bool.false_eq_true, if_false,
        if_true, hNoRange, hSize, hLeft]
      simp
  | true =>
      simp only [if_true,
        getRangeStartOfContentRange_contentRange]
      by_cases hBound : r.partReadBytes ≤ maxInt64
      · simp [hBound]
      · have hDeclared : reply.isLengthDeclared = true := by
          rcases hProof with hDeclared | ⟨_, hSmall⟩
          · exact hDeclared
          · exact absurd (by omega) hBound
        simp only [hBound, if_false, hDeclared, if_true,
          hSize, hLeft]
        simp

/- A whole object is taken for what it is. -/
theorem verifyResponseSpan_whole
    (hSize : part.size = own.length)
    (hStart : r.partReadBytes = 0) :
    r.verifyResponseSpan part
        (reply.respond own r.partReadBytes (part.size - 1)) =
      none := by
  rw [hStart, respond_whole]
  simp only [Reader.verifyResponseSpan, hStart, Nat.lt_irrefl,
    if_false, hSize]
  cases reply.isLengthDeclared with
  | true => simp
  | false => simp

theorem respond_ignored
    (offset : Nat)
    (last : Int)
    (hIgnored : reply.isRangeIgnored = true) :
    reply.respond own offset last =
      reply.respond own 0 last := by
  simp [Reply.respond, hIgnored]

/- A reply that ignores the range is never taken. -/
theorem verifyResponseSpan_of_ignored
    (hSize : part.size = own.length)
    (hOffset : 0 < r.partReadBytes)
    (hOpen : r.partReadBytes < own.length)
    (hIgnored : reply.isRangeIgnored = true) :
    r.verifyResponseSpan part
        (reply.respond own r.partReadBytes (part.size - 1)) ≠
      none := by
  have hNoRange : getRangeStartOfContentRange "" = none := by
    decide
  rw [respond_ignored _ _ hIgnored, respond_whole]
  simp only [Reader.verifyResponseSpan, if_pos hOffset, hSize]
  cases reply.isContentRangeSent with
  | true =>
      have hOther : ¬ ((0 : Nat) : Int) = r.partReadBytes := by
        omega
      simp only [if_true,
        getRangeStartOfContentRange_contentRange,
        if_pos (Nat.zero_le maxInt64), ne_eq, hOther,
        not_false_eq_true]
      simp
  | false =>
      simp only [Bool.false_eq_true, if_false, hNoRange]
      have hOther :
          ((if reply.isLengthDeclared = true then
              (own.length : Int)
            else
              -1) ≠
            (own.length : Int) - r.partReadBytes) := by
        split <;> omega
      simp [hOther]

/-
  An opened part has the bytes from the resumed one on, and a
  part that is not opened has its reason in the turn.
-/
theorem openCurrentPart_sound
    (moment : Moment)
    (remaining : Bytes)
    (hSpan :
      HoldsSpan bucket sha256 r.hasManifestChecksum part own)
    (hOpen : r.partReadBytes < own.length)
    (hTotal : own.length ≤ total) :
    match r.openCurrentPart bucket moment.opening part with
    | .ok payload => payload = own.drop r.partReadBytes
    | .error cause =>
        isRetryableReadError cause = true ∨
          ReadError.IsExplained moment total remaining
            (.refused cause) := by
  have hSize := hSpan.size_eq
  have hInside :
      ¬ (0 < r.partReadBytes ∧
        part.size - 1 < r.partReadBytes) := by
    omega
  unfold Reader.openCurrentPart
  rw [if_neg hInside]
  cases hOpening : moment.opening with
  | connectionLost => exact Or.inl rfl
  | errorResponse statusCode =>
      simp only [isRetryableReadError, ReadError.IsExplained,
        hOpening, true_and]
      cases isRetryableStatus statusCode <;> simp
  | answered reply =>
      simp only [hSpan.stored]
      by_cases hOffset : 0 < r.partReadBytes
      · cases hVerified :
          r.verifyResponseSpan part
            (reply.respond own r.partReadBytes
              (part.size - 1)) with
        | some cause =>
            have hCause :=
              verifyResponseSpan_resumed hOffset hVerified
            rw [hCause]
            refine Or.inr ⟨hOffset, reply, hOpening, ?_⟩
            intro hProves
            have hTaken :=
              verifyResponseSpan_of_provesStart hSize hOffset
                hOpen hTotal hProves
            rw [hVerified] at hTaken
            cases hTaken
        | none =>
            cases hIgnored : reply.isRangeIgnored with
            | true =>
                have hRefused :=
                  verifyResponseSpan_of_ignored hSize hOffset
                    hOpen hIgnored
                exact absurd hVerified hRefused
            | false =>
                simp only [hSize,
                  respond_ranged hIgnored hOffset]
      · have hStart : r.partReadBytes = 0 := by omega
        simp only [verifyResponseSpan_whole hSize hStart]
        rw [hStart, respond_whole]
        simp

/- The content of a checked part has its checksum. -/
theorem finishCurrentPart_sound
    (hIn : InPart bucket sha256 total r part own later)
    (hRead : r.partReadBytes = own.length)
    (hOpen : r.isClosed = false) :
    r.finishCurrentPart sha256 part =
        (none, r.abandonAttempt.nextPart) ∧
      ReaderSound bucket sha256 total
        r.abandonAttempt.nextPart later ∧
      r.abandonAttempt.nextPart.turnsLeft <
        (r.parts.length - r.partIndex) *
          (r.retryPolicy.maxAttemptsWithoutProgress + 3) := by
  have hSpan := hIn.holds
  have hHasher :
      r.hasManifestChecksum = true → r.partHasher = own := by
    intro hChecked
    rw [hIn.hashed hChecked, hRead, List.take_length]
  have hSize : (r.partReadBytes : Int) = part.size := by
    rw [hRead, hSpan.size_eq]
  have hChecksum :
      ¬ (r.hasManifestChecksum = true ∧
        ¬ sha256 r.partHasher = part.sha256) := by
    rintro ⟨hChecked, hOther⟩
    apply hOther
    rw [hHasher hChecked, hSpan.checksum_eq hChecked]
  refine ⟨?_, ?_, ?_⟩
  · simp only [Reader.finishCurrentPart,
      Reader.abandonAttempt, hSize, ne_eq, not_true_eq_false,
      hChecksum, if_false]
  · refine ⟨?_, hOpen, fun _ => rfl⟩
    exact
      Position.start (r := r.abandonAttempt.nextPart) rfl
        hIn.spelled rfl rfl rfl
        (Nat.le_trans (Nat.le_add_left _ _) hIn.length_le)
  · have hIndex : r.partIndex < r.parts.length :=
      (List.getElem?_eq_some_iff.mp hIn.current).1
    have hParts :
        r.parts.length - r.partIndex =
          r.parts.length - (r.partIndex + 1) + 1 := by
      omega
    have hAttempts :=
      ReadRetryPolicy.attemptsLeft_le
        r.retryPolicy.resetAttemptsAfterCompletedRead
    rw [ReadRetryPolicy.resetAttemptsAfterCompletedRead_max]
      at hAttempts
    simp only [Reader.turnsLeft, hParts, Nat.succ_mul,
      Reader.nextPart, Reader.abandonAttempt, if_true,
      ReadRetryPolicy.resetAttemptsAfterCompletedRead_max]
    omega

/- What a failed attempt leaves, and what ends the read. -/
theorem resumeAfterFailure_cases
    (r : Reader)
    (moment : Moment)
    (part : ObjectSpan)
    (total : Nat)
    (remaining : Bytes)
    (cause : ReadCause) :
    (∃ err r', r.resumeAfterFailure moment part cause =
        (some err, r') ∧
      (ReadError.IsExplained moment total remaining err ∨
        isRetryableReadError cause = false ∧
          err = .refused cause)) ∨
      r.resumeAfterFailure moment part cause =
          (none,
            { r.abandonAttempt with
              retryPolicy :=
                r.retryPolicy.registerFailedAttempt
                  (decide (0 < r.attemptReadBytes)) }) ∧
        (r.retryPolicy.registerFailedAttempt
            (decide (0 < r.attemptReadBytes))).isExhausted =
          false := by
  simp only [Reader.resumeAfterFailure, Reader.abandonAttempt]
  generalize decide (0 < r.attemptReadBytes) = hasDelivered
  cases hCancelled : moment.isCancelledAfterFailure with
  | true =>
      exact
        Or.inl ⟨_, _, rfl, Or.inl (Or.inr (Or.inl hCancelled))⟩
  | false =>
      cases hFinal : isRetryableReadError cause with
      | false => exact Or.inl ⟨_, _, rfl, Or.inr ⟨rfl, rfl⟩⟩
      | true =>
          by_cases hBudget :
            (r.retryPolicy.registerFailedAttempt
              hasDelivered).isExhausted = true
          · simp only [hBudget, if_true]
            exact Or.inl ⟨_, _, rfl, Or.inl trivial⟩
          · simp only [hBudget, Bool.not_true,
              Bool.false_eq_true, if_false]
            cases hasDelivered with
            | true => exact Or.inr ⟨rfl, trivial⟩
            | false =>
                cases hWait :
                  moment.isCancelledWhileWaiting with
                | true =>
                    exact
                      Or.inl ⟨_, _, rfl,
                        Or.inl (Or.inr (Or.inr hWait))⟩
                | false => exact Or.inr ⟨rfl, trivial⟩

------------------------------------------------------------
-- Turns
------------------------------------------------------------

variable {size turns : Nat}
variable {delivered : Bytes}

/-
  What a turn may come to: it goes round again nearer to its
  end, or it delivers the next bytes and says why it ended.
-/
def TurnSound
    (bucket : Bucket)
    (sha256 : Bytes → String)
    (moment : Moment)
    (size total turns : Nat)
    (remaining : Bytes) : Turn × Reader → Prop
  | (.again, r') =>
      ReaderSound bucket sha256 total r' remaining ∧
        r'.turnsLeft < turns
  | (.answer delivered err, r') =>
      ∃ remaining', remaining = delivered ++ remaining' ∧
        (err = none →
          ReaderSound bucket sha256 total r' remaining' ∧
            (0 < size → delivered ≠ [])) ∧
        ∀ cause, err = some cause →
          cause.IsExplained moment total remaining'

/- After something that worked the read may go on. -/
theorem turnSound_goOn
    (hSplit : remaining = delivered ++ later)
    (hSound : ReaderSound bucket sha256 total r' later)
    (hTurns : delivered = [] → r'.turnsLeft < turns) :
    TurnSound bucket sha256 moment size total turns remaining
      (Reader.goOn delivered, r') := by
  unfold Reader.goOn
  split
  · next hNothing =>
      rw [hSplit, hNothing]
      exact ⟨hSound, hTurns hNothing⟩
  · next hSome =>
      refine ⟨later, hSplit, fun _ => ⟨hSound, fun _ => hSome⟩,
        ?_⟩
      intro cause hNone
      cases hNone

/- The reader after bytes of the body were handed out. -/
theorem InPart.advance
    {delivered rest : Bytes}
    (hIn : InPart bucket sha256 total r part own later)
    (hSplit :
      own.drop r.partReadBytes = delivered ++ rest)
    (body : Option Bytes)
    (attemptReadBytes : Nat) :
    InPart bucket sha256 total
        { r with
          partBody := body
          partHasher :=
            if r.hasManifestChecksum then
              r.partHasher ++ delivered
            else
              r.partHasher
          partReadBytes := r.partReadBytes + delivered.length
          attemptReadBytes := attemptReadBytes }
        part own later ∧
      own.drop (r.partReadBytes + delivered.length) =
        rest := by
  have hRest :
      own.drop (r.partReadBytes + delivered.length) =
        rest := by
    rw [← List.drop_drop, hSplit, List.drop_left]
  have hLength := congrArg List.length hSplit
  rw [List.length_drop, List.length_append] at hLength
  refine ⟨?_, hRest⟩
  exact
    { current := hIn.current
      holds := hIn.holds
      spelled := hIn.spelled
      read_le := by
        have hBefore := hIn.read_le
        simp only
        omega
      hashed := fun hChecked => by
        simp only at hChecked ⊢
        rw [if_pos hChecked, hIn.hashed hChecked,
          List.take_add, hSplit, List.take_left]
      length_le := hIn.length_le }

/- A failed attempt is taken up again, or ends the read. -/
theorem turnSound_resume
    (moment : Moment)
    (size turns : Nat)
    {cause : ReadCause}
    (hSplit :
      remaining =
        delivered ++ (own.drop r.partReadBytes ++ later))
    (hIn : InPart bucket sha256 total r part own later)
    (hOpen : r.isClosed = false)
    (hCause :
      isRetryableReadError cause = true ∨
        ReadError.IsExplained moment total
          (own.drop r.partReadBytes ++ later)
          (.refused cause))
    (hTurns :
      delivered = [] →
        (r.parts.length - r.partIndex) *
              (r.retryPolicy.maxAttemptsWithoutProgress + 3) +
            (if r.attemptReadBytes = 0 then
              r.retryPolicy.attemptsLeft
            else
              r.retryPolicy.maxAttemptsWithoutProgress + 2) ≤
          turns) :
    TurnSound bucket sha256 moment size total turns remaining
      (match r.resumeAfterFailure moment part cause with
        | (some err, r) => (.answer delivered (some err), r)
        | (none, r) => (Reader.goOn delivered, r)) := by
  rcases resumeAfterFailure_cases r moment part total
      (own.drop r.partReadBytes ++ later) cause
    with ⟨err, r', hResume, hErr⟩ | ⟨hResume, hBudget⟩
  · rw [hResume]
    refine ⟨_, hSplit, ⟨fun hNone => ?_, ?_⟩⟩
    · cases hNone
    intro final hFinal
    cases hFinal
    rcases hErr with hExplained | ⟨hFinal, rfl⟩
    · exact hExplained
    · rcases hCause with hRetryable | hExplained
      · rw [hFinal] at hRetryable
        cases hRetryable
      · exact hExplained
  · rw [hResume]
    apply turnSound_goOn hSplit
    · refine ⟨?_, hOpen, fun _ => rfl⟩
      have hSame :
          InPart bucket sha256 total
            { r.abandonAttempt with
              retryPolicy :=
                r.retryPolicy.registerFailedAttempt
                  (decide (0 < r.attemptReadBytes)) }
            part own later :=
        { current := hIn.current
          holds := hIn.holds
          spelled := hIn.spelled
          read_le := hIn.read_le
          hashed := hIn.hashed
          length_le := hIn.length_le }
      exact Position.within hSame fun _ hBody => by cases hBody
    · intro hNothing
      have hBound := hTurns hNothing
      simp only [Reader.turnsLeft, Reader.abandonAttempt,
        if_true,
        ReadRetryPolicy.registerFailedAttempt_max]
      by_cases hRead : r.attemptReadBytes = 0
      · have hNoBytes :
            decide (0 < r.attemptReadBytes) = false := by
          simp [hRead]
        rw [hNoBytes] at hBudget ⊢
        have hFewer :=
          ReadRetryPolicy.attemptsLeft_registerFailedAttempt
            hBudget
        rw [if_pos hRead] at hBound
        omega
      · have hFewer :=
          ReadRetryPolicy.attemptsLeft_le
            (r.retryPolicy.registerFailedAttempt
              (decide (0 < r.attemptReadBytes)))
        rw [ReadRetryPolicy.registerFailedAttempt_max]
          at hFewer
        rw [if_neg hRead] at hBound
        omega

/- Reading the open body gives the next bytes of the part. -/
theorem readOpenBody_sound
    {payload : Bytes}
    (hIn : InPart bucket sha256 total r part own later)
    (hOpen : r.isClosed = false)
    (hPayload : payload = own.drop r.partReadBytes)
    (hTurns :
      (r.parts.length - r.partIndex) *
            (r.retryPolicy.maxAttemptsWithoutProgress + 3) +
          (if r.attemptReadBytes = 0 then
            r.retryPolicy.attemptsLeft
          else
            r.retryPolicy.maxAttemptsWithoutProgress + 2) ≤
        turns) :
    TurnSound bucket sha256 moment size total turns
      (own.drop r.partReadBytes ++ later)
      (r.readOpenBody sha256 moment size part payload) := by
  have hGiven := readBody_append size payload moment.body
  have hProgress := readBody_progress size payload moment.body
  unfold Reader.readOpenBody
  rcases hBody : readBody size payload moment.body with
    ⟨delivered, err, rest⟩
  rw [hBody] at hGiven hProgress
  simp only at hGiven hProgress ⊢
  rw [hPayload] at hGiven
  rcases hIn.advance hGiven.symm (some rest)
      (r.attemptReadBytes + delivered.length) with
    ⟨hNext, hRest⟩
  have hSplit :
      own.drop r.partReadBytes ++ later =
        delivered ++
          (own.drop (r.partReadBytes + delivered.length) ++
            later) := by
    rw [hRest, ← List.append_assoc, hGiven]
  have hLengths := congrArg List.length hGiven
  rw [List.length_append, List.length_drop] at hLengths
  have hStart := hIn.read_le
  have hSize := hIn.holds.size_eq
  split
  · -- The body goes on.
    refine ⟨_, hSplit, ⟨fun _ => ⟨?_, ?_⟩, ?_⟩⟩
    · refine ⟨Position.within hNext ?_, hOpen, ?_⟩
      · intro payload' hSome
        cases hSome
        exact hRest.symm
      · intro hNone
        cases hNone
    · intro hRoom
      exact hProgress hRoom rfl
    · intro cause hNone
      cases hNone
  · next bodyErr =>
      split
      · -- The body ended, and so does the part.
        next hComplete =>
        have hRead :
            r.partReadBytes + delivered.length =
              own.length := by
          have hAll := hComplete.2
          omega
        rcases finishCurrentPart_sound hNext hRead hOpen with
          ⟨hFinish, hSound, hFewer⟩
        rw [hFinish]
        refine turnSound_goOn ?_ hSound ?_
        · rw [hSplit, hRead, List.drop_length,
            List.nil_append]
        · intro _
          simp only at hFewer
          omega
      · -- The connection broke, or ended short.
        refine
          turnSound_resume moment size turns hSplit hNext
            hOpen (Or.inl rfl) ?_
        rintro rfl
        exact hTurns

/- One turn of the loop. -/
theorem turn_sound
    (moment : Moment)
    (size : Nat)
    (hSound : ReaderSound bucket sha256 total r remaining) :
    TurnSound bucket sha256 moment size total r.turnsLeft
      remaining (r.turn bucket sha256 moment size) := by
  rcases hSound with ⟨hPosition, hOpen, hIdle⟩
  unfold Reader.turn
  rw [hOpen]
  simp only [Bool.false_eq_true, if_false]
  cases hCancelled : moment.isCancelled with
  | true =>
      refine ⟨remaining, rfl, ⟨fun hNone => ?_, ?_⟩⟩
      · cases hNone
      · intro cause hCause
        cases hCause
        exact Or.inl hCancelled
  | false =>
      simp only [Bool.false_eq_true, if_false]
      cases hPosition with
      | ended hEnd =>
          rw [hEnd]
          refine ⟨[], rfl, ⟨fun hNone => ?_, ?_⟩⟩
          · cases hNone
          · intro cause hCause
            cases hCause
            exact rfl
      | @within part own later hIn hBody =>
          rw [hIn.current]
          have hSize := hIn.holds.size_eq
          have hStart := hIn.read_le
          cases hPartBody : r.partBody with
          | some payload =>
              apply
                readOpenBody_sound hIn hOpen
                  (hBody payload hPartBody)
              have hLeft :=
                ReadRetryPolicy.attemptsLeft_le r.retryPolicy
              simp only [Reader.turnsLeft, hPartBody,
                reduceCtorEq, if_false]
              split <;> omega
          | none =>
              have hTurns :
                  r.turnsLeft =
                    (r.parts.length - r.partIndex) *
                        (r.retryPolicy.maxAttemptsWithoutProgress +
                          3) +
                      r.retryPolicy.attemptsLeft := by
                simp only [Reader.turnsLeft, hPartBody,
                  if_true]
              have hFresh := hIdle hPartBody
              simp only
              split
              · next hComplete =>
                  have hRead :
                      r.partReadBytes = own.length := by
                    omega
                  rcases finishCurrentPart_sound hIn hRead
                      hOpen with
                    ⟨hFinish, hNext, hFewer⟩
                  rw [hFinish, hRead, List.drop_length,
                    List.nil_append]
                  exact ⟨hNext, by omega⟩
              · next hUnfinished =>
                  have hOpening :=
                    openCurrentPart_sound moment
                      (own.drop r.partReadBytes ++ later)
                      hIn.holds (by omega)
                      (Nat.le_trans (Nat.le_add_right _ _)
                        hIn.length_le)
                  cases hResult :
                    r.openCurrentPart bucket moment.opening
                      part with
                  | ok payload =>
                      rw [hResult] at hOpening
                      apply
                        readOpenBody_sound hIn hOpen hOpening
                      rw [if_pos hFresh]
                      exact Nat.le_of_eq hTurns.symm
                  | error cause =>
                      rw [hResult] at hOpening
                      have hResumed :=
                        turnSound_resume moment size
                          r.turnsLeft
                          (List.nil_append _).symm hIn hOpen
                          hOpening
                          (fun _ => by
                            rw [if_pos hFresh]
                            exact Nat.le_of_eq hTurns.symm)
                      exact hResumed

------------------------------------------------------------
-- Reads
------------------------------------------------------------

variable {script : Nat → Moment}
variable {err : Option ReadError}
variable {clock' : Nat}

/- A read with enough fuel ends in a turn that explains it. -/
theorem readLoop_sound
    {fuel clock : Nat}
    (hSound : ReaderSound bucket sha256 total r remaining)
    (hFuel : r.turnsLeft < fuel)
    (hRead :
      r.readLoop bucket sha256 script size fuel clock =
        (delivered, err, r', clock')) :
    ∃ remaining', remaining = delivered ++ remaining' ∧
      (err = none →
        ReaderSound bucket sha256 total r' remaining' ∧
          (0 < size → delivered ≠ [])) ∧
      ∀ cause, err = some cause →
        ∃ turn, turn + 1 = clock' ∧
          cause.IsExplained (script turn) total
            remaining' := by
  induction fuel generalizing r clock with
  | zero => exact absurd hFuel (Nat.not_lt_zero _)
  | succ fuel ih =>
      have hTurn := turn_sound (script clock) size hSound
      rw [Reader.readLoop] at hRead
      rcases hStep : r.turn bucket sha256 (script clock) size
        with ⟨_ | ⟨given, cause⟩, next⟩
      · rw [hStep] at hTurn hRead
        exact ih hTurn.1 (by have hLess := hTurn.2; omega) hRead
      · rw [hStep] at hTurn hRead
        cases hRead
        rcases hTurn with ⟨rest, hSplit, hFine, hEnded⟩
        exact
          ⟨rest, hSplit, hFine, fun final hFinal =>
            ⟨clock, rfl, hEnded final hFinal⟩⟩

theorem turnsLeft_lt_readFuel :
    r.turnsLeft < r.readFuel := by
  have hParts :
      (r.parts.length - r.partIndex) *
          (r.retryPolicy.maxAttemptsWithoutProgress + 3) ≤
        r.parts.length *
          (r.retryPolicy.maxAttemptsWithoutProgress + 3) :=
    Nat.mul_le_mul_right _ (Nat.sub_le _ _)
  have hAttempts :=
    ReadRetryPolicy.attemptsLeft_le r.retryPolicy
  simp only [Reader.turnsLeft, Reader.readFuel, Nat.succ_mul]
  split <;> omega

/- A read ends, with the next bytes of the file. -/
theorem read_sound
    {clock : Nat}
    (hSound : ReaderSound bucket sha256 total r remaining)
    (hRead :
      r.read bucket sha256 script size clock =
        (delivered, err, r', clock')) :
    ∃ remaining', remaining = delivered ++ remaining' ∧
      (err = none →
        ReaderSound bucket sha256 total r' remaining' ∧
          (0 < size → delivered ≠ [])) ∧
      ∀ cause, err = some cause →
        ∃ turn, turn + 1 = clock' ∧
          cause.IsExplained (script turn) total
            remaining' :=
  readLoop_sound hSound turnsLeft_lt_readFuel hRead

/-
  Reads of any sizes deliver a prefix of what remains.  With
  more of them that have room than there are bytes, the reads
  come to an end.
-/
theorem deliver_sound
    (script : Nat → Moment)
    (sizes : List Nat)
    (clock : Nat)
    (hSound : ReaderSound bucket sha256 total r remaining) :
    ∃ remaining',
      remaining =
          (r.deliver bucket sha256 script sizes clock).bytes ++
            remaining' ∧
        (∀ cause,
          (r.deliver bucket sha256 script sizes
              clock).ending =
            some cause →
          ∃ turn,
            turn + 1 =
                (r.deliver bucket sha256 script sizes
                  clock).turns ∧
              cause.IsExplained (script turn) total
                remaining') ∧
        (remaining.length < sizes.countP (0 < ·) →
          (r.deliver bucket sha256 script sizes
              clock).ending ≠
            none) := by
  induction sizes generalizing r clock remaining with
  | nil =>
      refine ⟨remaining, rfl, ?_, ?_⟩
      · intro cause hNone
        cases hNone
      · intro hFew
        exact absurd hFew (Nat.not_lt_zero _)
  | cons size sizes ih =>
      rcases hRead : r.read bucket sha256 script size clock
        with ⟨delivered, err, next, clock'⟩
      rcases read_sound hSound hRead with
        ⟨rest, hSplit, hFine, hEnded⟩
      rw [Reader.deliver, hRead]
      cases err with
      | some cause =>
          refine ⟨rest, hSplit, ?_, fun _ => by simp⟩
          intro final hFinal
          exact hEnded final hFinal
      | none =>
          rcases hFine rfl with ⟨hNext, hProgress⟩
          rcases ih clock' hNext with
            ⟨rest', hSplit', hEnded', hLive⟩
          refine ⟨rest', ?_, hEnded', ?_⟩
          · simp only
            rw [List.append_assoc, ← hSplit']
            exact hSplit
          · intro hFew
            apply hLive
            have hLengths := congrArg List.length hSplit
            rw [List.length_append] at hLengths
            rw [List.countP_cons] at hFew
            by_cases hRoom : 0 < size
            · have hBytes : 0 < delivered.length :=
                List.length_pos_of_ne_nil (hProgress hRoom)
              simp only [hRoom, decide_true, if_true] at hFew
              omega
            · simp only [hRoom, decide_false,
                Bool.false_eq_true, if_false] at hFew
              omega

end S3

end Storages

end Databasus
