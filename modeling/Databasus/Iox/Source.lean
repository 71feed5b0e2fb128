import Databasus.Common

/-
  A stream that is read into buffers.

  A source gives its bytes and then an error, over and over;
  the end of the file is one of the errors.  `readFull` fills
  a buffer, and reports a file that ends inside it with the
  error of an unexpected end, which a source may also give by
  itself.

  Main declarations:
    * `Source`
    * `Source.readFull`
    * `Source.readFull_append`
-/

------------------------------------------------------------
-- Sources
------------------------------------------------------------

namespace Databasus

namespace Iox

variable {size : Nat}
variable {data : Bytes}

/- How a stream ends: any error but the two is `other`. -/
inductive SourceError
  | eof
  | unexpectedEOF
  | other
deriving DecidableEq, Repr

structure Source where
  rest : Bytes
  ending : SourceError
deriving DecidableEq, Repr

namespace Source

/- What was read, the error of a short read, and the rest. -/
def readFull
    (source : Source)
    (size : Nat) : Bytes × Option SourceError × Source :=
  if size ≤ source.rest.length then
    (source.rest.take size, none,
      { source with rest := source.rest.drop size })
  else
    let readErr :=
      if source.rest ≠ [] ∧ source.ending = .eof then
        .unexpectedEOF
      else
        source.ending
    (source.rest, some readErr, { source with rest := [] })

theorem readFull_of_enough
    {source : Source}
    (hEnough : size ≤ source.rest.length) :
    source.readFull size =
      (source.rest.take size, none,
        { source with rest := source.rest.drop size }) :=
  if_pos hEnough

theorem readFull_of_few
    {source : Source}
    (hFew : source.rest.length < size) :
    source.readFull size =
      (source.rest,
        some
          (if source.rest ≠ [] ∧ source.ending = .eof then
            .unexpectedEOF
          else
            source.ending),
        { source with rest := [] }) :=
  if_neg (Nat.not_le_of_lt hFew)

/- The source after bytes that were read from it already. -/
def prepend
    (data : Bytes)
    (source : Source) : Source :=
  { source with rest := data ++ source.rest }

/- Nothing is lost between what was read and the rest. -/
theorem readFull_append
    (source : Source)
    (size : Nat) :
    (source.readFull size).1 ++
        (source.readFull size).2.2.rest =
      source.rest := by
  unfold readFull
  split
  · exact List.take_append_drop size source.rest
  · exact List.append_nil source.rest

theorem readFull_ending
    (source : Source)
    (size : Nat) :
    (source.readFull size).2.2.ending = source.ending := by
  unfold readFull
  split <;> rfl

/- A filled buffer, and the source behind its bytes. -/
theorem of_readFull_done
    {source after : Source}
    (hRead : source.readFull size = (data, none, after)) :
    data.length = size ∧
      source.rest = data ++ after.rest ∧
      after.ending = source.ending := by
  have hBytes := readFull_append source size
  have hEnding := readFull_ending source size
  unfold readFull at hRead
  by_cases hEnough : size ≤ source.rest.length
  · rw [if_pos hEnough] at hRead
    injection hRead with hData hRest
    injection hRest with hSame hAfter
    rw [readFull_of_enough hEnough] at hBytes hEnding
    rw [← hData, ← hAfter]
    exact ⟨List.length_take_of_le hEnough, hBytes.symm,
      hEnding⟩
  · rw [if_neg hEnough] at hRead
    cases hRead

/- The error of a short read, and the source after it. -/
theorem of_readFull_failed
    {source after : Source}
    {cause : SourceError}
    (hRead :
      source.readFull size = (data, some cause, after)) :
    source.rest.length < size ∧
      after.ending = source.ending ∧
      (source.ending = .eof →
        (cause = .eof ↔ source.rest = [])) := by
  have hEnding := readFull_ending source size
  rw [hRead] at hEnding
  have hFew : source.rest.length < size := by
    apply Nat.lt_of_not_le
    intro hEnough
    rw [readFull_of_enough hEnough] at hRead
    cases hRead
  refine ⟨hFew, hEnding, ?_⟩
  intro hEOF
  rw [readFull_of_few hFew, hEOF] at hRead
  injection hRead with hData hRest
  injection hRest with hCause hAfter
  injection hCause with hSame
  by_cases hNone : source.rest = []
  · rw [if_neg (fun hInside => hInside.1 hNone)] at hSame
    exact iff_of_true hSame.symm hNone
  · rw [if_pos ⟨hNone, rfl⟩] at hSame
    refine iff_of_false ?_ hNone
    intro hEnd
    rw [hEnd] at hSame
    cases hSame

/- The bytes in front, when the buffer is their size. -/
theorem readFull_append_left
    (data tail : Bytes)
    (ending : SourceError) :
    Source.readFull { rest := data ++ tail, ending }
        data.length =
      (data, none, { rest := tail, ending }) := by
  have hEnough : data.length ≤ (data ++ tail).length := by
    rw [List.length_append]
    exact Nat.le_add_right _ _
  unfold readFull
  rw [if_pos hEnough, List.take_left, List.drop_left]

/- A buffer that was filled holds as many bytes as it can. -/
theorem readFull_full
    {source : Source}
    (hFull : (source.readFull size).2.1 = none) :
    (source.readFull size).1.length = size := by
  unfold readFull at hFull ⊢
  split at hFull
  · next hEnough =>
      rw [if_pos hEnough]
      exact List.length_take_of_le hEnough
  · cases hFull

theorem readFull_length_le
    (source : Source)
    (size : Nat) :
    (source.readFull size).1.length ≤ size := by
  cases hRead : (source.readFull size).2.1 with
  | none => exact Nat.le_of_eq (readFull_full hRead)
  | some cause =>
      unfold readFull at hRead ⊢
      split at hRead
      · cases hRead
      · next hFew =>
          rw [if_neg hFew]
          exact Nat.le_of_not_le hFew

/- After a short read the source has nothing left. -/
theorem readFull_short
    {source : Source}
    {readErr : SourceError}
    (hShort : (source.readFull size).2.1 = some readErr) :
    (source.readFull size).2.2.rest = [] ∧
      (readErr = source.ending ∨
        source.ending = .eof ∧ readErr = .unexpectedEOF) := by
  unfold readFull at hShort ⊢
  split at hShort
  · cases hShort
  · next hTooFew =>
      rw [if_neg hTooFew]
      refine ⟨rfl, ?_⟩
      have hSame := Option.some.inj hShort
      split at hSame
      · next hInside => exact Or.inr ⟨hInside.2, hSame.symm⟩
      · exact Or.inl hSame.symm

end Source

end Iox

end Databasus
