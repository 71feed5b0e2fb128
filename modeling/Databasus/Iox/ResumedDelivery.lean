import Databasus.Iox.ResumingReader

/-
  What reads that resume deliver over a whole session.

  A session is the reads of one consumer, which may go on
  after an error, and the answers that it got.  The answers
  are the file's bytes in their order.  The end is reported at
  the declared size, unless an attempt went on behind it and
  the consumer reads again after that error.

  Main declarations:
    * `ReadSession`
    * `readSessions`
    * `DeliversFile`
    * `ReadsWithinDeclaredSize`
    * `delivers_file_iff`
-/

------------------------------------------------------------
-- Sessions
------------------------------------------------------------

namespace Databasus

namespace Iox

open Foundation

/- What a read returned, and the attempts that it opened. -/
structure ReadAnswer where
  data : Bytes
  err : Option ReadError
  openings : Nat
deriving DecidableEq, Repr

structure ReadSession where
  reader : ResumingReader
  clock : Nat
  answers : List ReadAnswer

def newReadSession
    (totalBytes : Option Nat)
    (isRetryableError : ReadCause → Bool)
    (maxAttemptsWithoutProgress : Nat) : ReadSession :=
  { reader :=
      newResumingReader totalBytes isRetryableError
        maxAttemptsWithoutProgress
    clock := 0
    answers := [] }

inductive SessionEvent
  | read (size : Nat)
  | close
deriving DecidableEq, Repr

namespace ReadSession

def answerTo
    (file : Bytes)
    (script : Nat → Moment)
    (size : Nat)
    (s : ReadSession) : ReadAnswer :=
  let reading := s.reader.read file script size s.clock
  { data := reading.1
    err := reading.2.1
    openings :=
      reading.2.2.1.openings - s.reader.openings }

def read
    (file : Bytes)
    (script : Nat → Moment)
    (size : Nat)
    (s : ReadSession) : ReadSession :=
  let reading := s.reader.read file script size s.clock
  { reader := reading.2.2.1
    clock := reading.2.2.2
    answers := s.answers ++ [s.answerTo file script size] }

def perform
    (file : Bytes)
    (script : Nat → Moment)
    (s : ReadSession) : SessionEvent → ReadSession
  | .read size => s.read file script size
  | .close => { s with reader := s.reader.close }

end ReadSession

def readSessions
    (file : Bytes)
    (script : Nat → Moment) :
    TransitionSystem ReadSession SessionEvent where
  initial s :=
    ∃ totalBytes isRetryableError max,
      s = newReadSession totalBytes isRetryableError max
  step s event := some (s.perform file script event)

def deliveredBy
    (answers : List ReadAnswer) : Bytes :=
  (answers.map ReadAnswer.data).flatten

/-
  The answers of a session for a file of `total` bytes: what
  was delivered is the start of the file at every moment, the
  end comes after exactly the declared bytes, and every read
  returned within the attempts of the policy.
-/
structure DeliversFile
    (file : Bytes)
    (total maxAttemptsWithoutProgress : Nat)
    (answers : List ReadAnswer) : Prop where
  inOrder :
    ∀ earlier later,
      answers = earlier ++ later →
        deliveredBy earlier <+: file
  ended :
    ∀ earlier answer later,
      answers = earlier ++ answer :: later →
        answer.err = some .eof →
          (deliveredBy (earlier ++ [answer])).length = total
  returns :
    ∀ answer ∈ answers,
      answer.err ≠ some .unfinished ∧
        answer.openings ≤ maxAttemptsWithoutProgress + 1

/-
  No read is made behind the declared size, unless the reader
  was closed or its context is cancelled.
-/
def ReadsWithinDeclaredSize
    (total : Nat)
    (script : Nat → Moment)
    (s : ReadSession) : SessionEvent → Prop
  | .read _ =>
      s.reader.isClosed = true ∨
        (script s.clock).isCancelled = true ∨
        s.reader.deliveredBytes ≤ total
  | .close => True

------------------------------------------------------------
-- What the Answers Spell
------------------------------------------------------------

variable {file : Bytes}
variable {total max : Nat}
variable {script : Nat → Moment}
variable {answers : List ReadAnswer}

theorem deliveredBy_append
    (earlier later : List ReadAnswer) :
    deliveredBy (earlier ++ later) =
      deliveredBy earlier ++ deliveredBy later := by
  unfold deliveredBy
  rw [List.map_append, List.flatten_append]

theorem deliveredBy_concat
    (earlier : List ReadAnswer)
    (answer : ReadAnswer) :
    deliveredBy (earlier ++ [answer]) =
      deliveredBy earlier ++ answer.data := by
  rw [deliveredBy_append]
  simp [deliveredBy]

theorem deliversFile_nil
    (file : Bytes)
    (total max : Nat) :
    DeliversFile file total max [] := by
  constructor
  · intro earlier later hSplit
    have hNone := (List.append_eq_nil_iff.mp hSplit.symm).1
    rw [hNone]
    exact List.nil_prefix
  · intro earlier answer later hSplit
    exact absurd hSplit.symm (by simp)
  · intro answer hMember
    exact absurd hMember List.not_mem_nil

/- What holds of some answers held of those before. -/
theorem DeliversFile.earlier
    {later : List ReadAnswer}
    (hAll : DeliversFile file total max (answers ++ later)) :
    DeliversFile file total max answers := by
  constructor
  · intro earlier rest hSplit
    apply hAll.inOrder earlier (rest ++ later)
    rw [hSplit, List.append_assoc]
  · intro earlier answer rest hSplit
    apply hAll.ended earlier answer (rest ++ later)
    rw [hSplit, List.append_assoc, List.cons_append]
  · intro answer hMember
    exact hAll.returns answer
      (List.mem_append_left later hMember)

/- One more answer, after those that were good so far. -/
theorem DeliversFile.concat
    {answer : ReadAnswer}
    (hSoFar : DeliversFile file total max answers)
    (hPrefix : deliveredBy (answers ++ [answer]) <+: file)
    (hEnded :
      answer.err = some .eof →
        (deliveredBy (answers ++ [answer])).length = total)
    (hReturns :
      answer.err ≠ some .unfinished ∧
        answer.openings ≤ max + 1) :
    DeliversFile file total max (answers ++ [answer]) := by
  constructor
  · intro earlier later hSplit
    rcases List.eq_nil_or_concat later with
      hNone | ⟨rest, last, hLater⟩
    · rw [hNone, List.append_nil] at hSplit
      rw [← hSplit]
      exact hPrefix
    · rw [hLater, List.concat_eq_append,
        ← List.append_assoc] at hSplit
      exact hSoFar.inOrder earlier rest
        (List.append_inj_left' hSplit rfl)
  · intro earlier other later hSplit
    rcases List.eq_nil_or_concat later with
      hNone | ⟨rest, last, hLater⟩
    · rw [hNone] at hSplit
      have hSame := List.append_inj_right' hSplit rfl
      have hFront := List.append_inj_left' hSplit rfl
      injection hSame with hAnswer hNil
      rw [← hAnswer, ← hFront]
      exact hEnded
    · rw [hLater, List.concat_eq_append,
        ← List.cons_append, ← List.append_assoc] at hSplit
      exact hSoFar.ended earlier other rest
        (List.append_inj_left' hSplit rfl)
  · intro other hMember
    rcases List.mem_append.mp hMember with hOld | hNew
    · exact hSoFar.returns other hOld
    · rw [List.mem_singleton.mp hNew]
      exact hReturns

------------------------------------------------------------
-- Steps
------------------------------------------------------------

namespace ReadSession

variable {s : ReadSession}

/- Between two reads the reader stands behind the answers. -/
structure IsSound
    (file : Bytes)
    (total max : Nat)
    (s : ReadSession) : Prop where
  sound :
    ResumingReader.Sound file (deliveredBy s.answers) s.reader
  totalBytes_eq : s.reader.totalBytes = some total
  max_eq :
    s.reader.retryPolicy.maxAttemptsWithoutProgress = max

theorem isSound_new
    (file : Bytes)
    (total maxAttemptsWithoutProgress : Nat)
    (isRetryableError : ReadCause → Bool) :
    IsSound file total
      (newReadRetryPolicy
        maxAttemptsWithoutProgress).maxAttemptsWithoutProgress
      (newReadSession (some total) isRetryableError
        maxAttemptsWithoutProgress) := by
  refine ⟨⟨?_, Nat.zero_le _, ?_, fun _ => rfl, ?_⟩, rfl, rfl⟩
  · simp [newReadSession, newResumingReader, deliveredBy]
  · intro payload hBody
    cases hBody
  · intro hFinished
    cases hFinished

theorem isSound_perform
    (script : Nat → Moment)
    (event : SessionEvent)
    (hSound : IsSound file total max s) :
    IsSound file total max (s.perform file script event) := by
  cases event with
  | close =>
      refine ⟨⟨hSound.sound.delivered_eq,
        hSound.sound.inside, ?_, fun _ => rfl,
        hSound.sound.finished⟩, hSound.totalBytes_eq,
        hSound.max_eq⟩
      intro payload hBody
      cases hBody
  | read size =>
      have hRead :=
        ResumingReader.read_sound script size s.clock
          hSound.sound
      refine ⟨?_,
        hRead.sameFile.totalBytes_eq.trans
          hSound.totalBytes_eq,
        hRead.sameFile.max_eq.trans hSound.max_eq⟩
      change
        ResumingReader.Sound file
          (deliveredBy
            (s.answers ++ [s.answerTo file script size])) _
      rw [deliveredBy_concat]
      exact hRead.sound

/- Behind the declared size a read is told the end. -/
theorem read_behind_declared
    (file : Bytes)
    (script : Nat → Moment)
    (size : Nat)
    (hSound : IsSound file total max s)
    (hOpen : s.reader.isClosed = false)
    (hLive : (script s.clock).isCancelled = false)
    (hBehind : total < s.reader.deliveredBytes) :
    (s.reader.read file script size s.clock).2.1 =
      some .eof := by
  have hDeclared : s.reader.hasReadDeclaredSize = true := by
    rw [ResumingReader.hasReadDeclaredSize_iff]
    exact ⟨total, hSound.totalBytes_eq,
      Nat.le_of_lt hBehind⟩
  unfold ResumingReader.read ResumingReader.readFuel
    ResumingReader.readLoop ResumingReader.turn
  simp [hOpen, hLive, hDeclared]

/- A closed or cancelled reader is told so. -/
theorem read_of_stopped
    (size : Nat)
    (hStopped :
      s.reader.isClosed = true ∨
        (script s.clock).isCancelled = true) :
    (s.answerTo file script size).err ≠ some .eof := by
  unfold answerTo ResumingReader.read
    ResumingReader.readFuel ResumingReader.readLoop
    ResumingReader.turn
  by_cases hClosed : s.reader.isClosed = true
  · simp [hClosed]
  · rcases hStopped with hNever | hCancelled
    · exact absurd hNever hClosed
    · simp [hClosed, hCancelled]

/-
  The answer to one more read is as promised exactly when the
  read was made within the declared size.
-/
theorem deliversFile_read_iff
    (script : Nat → Moment)
    (size : Nat)
    (hSound : IsSound file total max s)
    (hSoFar : DeliversFile file total max s.answers) :
    DeliversFile file total max
        (s.read file script size).answers ↔
      ReadsWithinDeclaredSize total script s
        (.read size) := by
  have hRead :=
    ResumingReader.read_sound script size s.clock
      hSound.sound
  have hLength := hSound.sound.length_delivered
  have hNextLength := hRead.sound.length_delivered
  rw [List.length_append, hLength] at hNextLength
  have hDelivered :
      deliveredBy
          (s.answers ++ [s.answerTo file script size]) =
        deliveredBy s.answers ++
          (s.answerTo file script size).data :=
    deliveredBy_concat _ _
  constructor
  · intro hAll
    by_cases hOpen : s.reader.isClosed = true
    · exact Or.inl hOpen
    by_cases hLive : (script s.clock).isCancelled = true
    · exact Or.inr (Or.inl hLive)
    refine Or.inr (Or.inr (Nat.le_of_not_lt ?_))
    intro hBehind
    have hEOF :=
      read_behind_declared file script size hSound
        (eq_false_of_ne_true hOpen)
        (eq_false_of_ne_true hLive) hBehind
    have hTotal :=
      hAll.ended s.answers (s.answerTo file script size) []
        rfl hEOF
    have hData : (s.answerTo file script size).data = [] :=
      (hRead.ended hEOF).1
    rw [hDelivered, hData, List.append_nil, hLength]
      at hTotal
    omega
  · intro hWithin
    apply hSoFar.concat
    · rw [hDelivered]
      have hNext := hRead.sound.delivered_eq
      change
        deliveredBy s.answers ++
          (s.answerTo file script size).data = _ at hNext
      rw [hNext]
      exact List.take_prefix _ _
    · intro hEOF
      have hEnded := hRead.ended hEOF
      have hReached := hEnded.2 total hSound.totalBytes_eq
      have hData : (s.answerTo file script size).data = [] :=
        hEnded.1
      rw [hEnded.1, List.length_nil] at hNextLength
      rw [hDelivered, hData, List.append_nil, hLength]
      rcases hWithin with hClosed | hCancelled | hInside
      · exact absurd hEOF (read_of_stopped size
          (Or.inl hClosed))
      · exact absurd hEOF (read_of_stopped size
          (Or.inr hCancelled))
      · omega
    · refine ⟨hRead.finishes, ?_⟩
      have hOpenings := hRead.openings
      have hLeft := s.reader.openingsLeft_le
      rw [hSound.max_eq] at hLeft
      apply Nat.le_trans _ hLeft
      exact Nat.sub_le_iff_le_add'.mpr hOpenings

end ReadSession

------------------------------------------------------------
-- Whole Sessions
------------------------------------------------------------

variable {s last : ReadSession}

/- Answers are only added. -/
theorem answers_perform
    (events : List SessionEvent)
    (hLast :
      (readSessions file script).perform s events =
        some last) :
    ∃ later, last.answers = s.answers ++ later := by
  induction events generalizing s with
  | nil =>
      simp only [TransitionSystem.perform,
        Option.some.injEq] at hLast
      subst hLast
      exact ⟨[], (List.append_nil _).symm⟩
  | cons event events ih =>
      simp only [TransitionSystem.perform,
        readSessions] at hLast
      rcases ih hLast with ⟨later, hLater⟩
      cases event with
      | close => exact ⟨later, hLater⟩
      | read size =>
          refine ⟨s.answerTo file script size :: later, ?_⟩
          rw [hLater]
          simp [ReadSession.perform, ReadSession.read]

theorem performs
    (file : Bytes)
    (script : Nat → Moment)
    (events : List SessionEvent)
    (s : ReadSession) :
    ∃ last,
      (readSessions file script).perform s events =
        some last := by
  induction events generalizing s with
  | nil => exact ⟨s, rfl⟩
  | cons event events ih =>
      exact ih (s.perform file script event)

theorem deliversFile_perform_iff
    (events : List SessionEvent)
    (hSound : s.IsSound file total max)
    (hSoFar : DeliversFile file total max s.answers)
    (hLast :
      (readSessions file script).perform s events =
        some last) :
    DeliversFile file total max last.answers ↔
      (readSessions file script).MeetsAlong
        (ReadsWithinDeclaredSize total script) s
        events := by
  induction events generalizing s with
  | nil =>
      simp only [TransitionSystem.perform,
        Option.some.injEq] at hLast
      subst hLast
      exact iff_of_true hSoFar trivial
  | cons event events ih =>
      have hTaken :
          (readSessions file script).step s event =
            some (s.perform file script event) := rfl
      simp only [TransitionSystem.perform, hTaken] at hLast
      have hNext :=
        ReadSession.isSound_perform script event hSound
      have hMeets :
          (readSessions file script).MeetsAlong
              (ReadsWithinDeclaredSize total script) s
              (event :: events) ↔
            ReadsWithinDeclaredSize total script s event ∧
              (readSessions file script).MeetsAlong
                (ReadsWithinDeclaredSize total script)
                (s.perform file script event) events := by
        simp [TransitionSystem.MeetsAlong, hTaken]
      rw [hMeets]
      cases event with
      | close =>
          have hRest := ih hNext hSoFar hLast
          rw [hRest]
          simp [ReadsWithinDeclaredSize]
      | read size =>
          have hOne :=
            ReadSession.deliversFile_read_iff script size
              hSound hSoFar
          constructor
          · intro hAll
            rcases answers_perform events hLast with
              ⟨later, hLater⟩
            rw [hLater] at hAll
            have hFirst := hAll.earlier
            rw [← hLater] at hAll
            exact ⟨hOne.mp hFirst,
              (ih hNext hFirst hLast).mp hAll⟩
          · rintro ⟨hWithin, hRest⟩
            have hFirst := hOne.mpr hWithin
            exact (ih hNext hFirst hLast).mpr hRest

/-
  Whatever the attempts do, a session delivers the file as
  declared exactly when no read is made behind the declared
  size of a longer file.
-/
theorem delivers_file_iff
    (file : Bytes)
    (total maxAttemptsWithoutProgress : Nat)
    (isRetryableError : ReadCause → Bool)
    (script : Nat → Moment)
    (events : List SessionEvent) :
    DeliversFile file total
        (newReadRetryPolicy
          maxAttemptsWithoutProgress).maxAttemptsWithoutProgress
        ((readSessions file script).outcome
          (newReadSession (some total) isRetryableError
            maxAttemptsWithoutProgress) events).answers ↔
      (readSessions file script).MeetsAlong
        (ReadsWithinDeclaredSize total script)
        (newReadSession (some total) isRetryableError
          maxAttemptsWithoutProgress) events := by
  rcases performs file script events
      (newReadSession (some total) isRetryableError
        maxAttemptsWithoutProgress) with
    ⟨last, hLast⟩
  unfold TransitionSystem.outcome
  rw [hLast, Option.getD_some]
  exact deliversFile_perform_iff events
    (ReadSession.isSound_new file total
      maxAttemptsWithoutProgress isRetryableError)
    (deliversFile_nil file total _) hLast

/-
  A file of three bytes that is declared as two: the first
  read is refused, and the next one is told a clean end.
-/
theorem longer_file_ends_after_its_error :
    ¬ DeliversFile [1, 2, 3] 2 10
      ((readSessions [1, 2, 3] fun _ =>
          { isCancelled := false
            isCancelledAfterFailure := false
            isCancelledWhileWaiting := false
            opening := none
            limit := 4
            bodyErr := none }).outcome
        (newReadSession (some 2) (fun _ => true) 0)
        [.read 4, .read 4]).answers := by
  intro hAll
  have hEnd :=
    hAll.ended
      [{ data := [1, 2, 3]
         err := some (.rangeNotHonoured 3 2)
         openings := 1 }]
      { data := [], err := some .eof, openings := 0 } [] rfl
      rfl
  simp [deliveredBy] at hEnd

end Iox

end Databasus
