import Mathlib.Data.List.Basic

/-
  A synchronous pipe in memory.

  A write waits until reads have taken all of it, or until one
  of the ends is closed.  Each end keeps the error that it was
  closed with first, and a closed pipe hands nothing over.

  Main declarations:
    * `Pipe`
    * `Pipe.beginWrite`, `Pipe.read`, `Pipe.finishWrite`
    * `Pipe.closeWrite`, `Pipe.closeRead`
    * `Pipe.readError`, `Pipe.writeError`
-/

------------------------------------------------------------
-- Pipes
------------------------------------------------------------

namespace Foundation

/-
  What is left of the write that waits, and the errors of the
  ends.  `taken` is what reads have taken so far.
-/
structure Pipe (β ε : Type) where
  taken : List β
  waiting : Option (List β)
  writeEnd : Option ε
  readEnd : Option ε
deriving DecidableEq, Repr

namespace Pipe

variable {β ε : Type}

def new : Pipe β ε where
  taken := []
  waiting := none
  writeEnd := none
  readEnd := none

variable (p : Pipe β ε)

def isClosed : Bool :=
  p.writeEnd.isSome || p.readEnd.isSome

def beginWrite
    (items : List β) : Option (Pipe β ε) :=
  match p.waiting with
  | some _ => none
  | none => some { p with waiting := some items }

/- A read takes at most so many items of the write. -/
def read
    (count : Nat) : Option (Pipe β ε) :=
  match p.waiting with
  | none => none
  | some rest =>
      if p.isClosed then
        none
      else
        some
          { p with
            taken := p.taken ++ rest.take count
            waiting := some (rest.drop count) }

/- The write ends well once all of it was taken. -/
def finishWrite : Option (Pipe β ε) :=
  match p.waiting with
  | some [] => some { p with waiting := none }
  | _ => none

/- A closed pipe ends the write: what is left of it, and after. -/
def failWrite : Option (List β × Pipe β ε) :=
  match p.waiting with
  | none => none
  | some [] => none
  | some (item :: rest) =>
      if p.isClosed then
        some (item :: rest, { p with waiting := none })
      else
        none

def closeWrite
    (error : ε) : Pipe β ε :=
  { p with writeEnd := p.writeEnd <|> some error }

def closeRead
    (error : ε) : Pipe β ε :=
  { p with readEnd := p.readEnd <|> some error }

/-
  What a read of a closed pipe answers: the writer's error,
  unless the reader has closed its end.
-/
def readError
    (closedPipe : ε) : Option ε :=
  if p.isClosed then
    match p.readEnd with
    | some _ => some closedPipe
    | none => p.writeEnd
  else
    none

def writeError
    (closedPipe : ε) : ε :=
  match p.writeEnd, p.readEnd with
  | none, some error => error
  | _, _ => closedPipe

------------------------------------------------------------
-- What the Operations Change
------------------------------------------------------------

variable {p}
variable {p' : Pipe β ε}

/- A write that begins touches neither what was taken nor an end. -/
theorem beginWrite_some
    {items : List β}
    (hBegin : p.beginWrite items = some p') :
    p.waiting = none ∧
      p' = { p with waiting := some items } := by
  unfold beginWrite at hBegin
  split at hBegin
  · cases hBegin
  · next hWaiting =>
      exact ⟨hWaiting, (Option.some.inj hBegin).symm⟩

/- A read moves items from the write to what was taken. -/
theorem read_some
    {count : Nat}
    (hRead : p.read count = some p') :
    p.isClosed = false ∧
      ∃ rest rest',
        p.waiting = some rest ∧ p'.waiting = some rest' ∧
          p'.taken ++ rest' = p.taken ++ rest ∧
            p'.writeEnd = p.writeEnd ∧
              p'.readEnd = p.readEnd := by
  unfold read at hRead
  split at hRead
  · cases hRead
  · next rest hWaiting =>
      split at hRead
      · cases hRead
      · next hOpen =>
          cases hRead
          refine
            ⟨Bool.eq_false_iff.mpr hOpen, rest,
              rest.drop count, hWaiting, rfl, ?_, rfl, rfl⟩
          rw [List.append_assoc, List.take_append_drop]

theorem finishWrite_some
    (hFinish : p.finishWrite = some p') :
    p.waiting = some [] ∧
      p' = { p with waiting := none } := by
  unfold finishWrite at hFinish
  split at hFinish
  · next hWaiting =>
      exact ⟨hWaiting, (Option.some.inj hFinish).symm⟩
  · cases hFinish

theorem failWrite_some
    {rest : List β}
    (hFail : p.failWrite = some (rest, p')) :
    p.isClosed = true ∧
      p' = { p with waiting := none } := by
  unfold failWrite at hFail
  split at hFail
  · cases hFail
  · cases hFail
  · split at hFail
    · next hClosed =>
        cases hFail
        exact ⟨hClosed, rfl⟩
    · cases hFail

/- A first error is kept. -/
theorem closeWrite_writeEnd
    {error kept : ε}
    (hEnd : (p.closeWrite error).writeEnd = some kept) :
    p.writeEnd = some kept ∨ kept = error := by
  change (p.writeEnd <|> some error) = some kept at hEnd
  cases hOld : p.writeEnd with
  | none =>
      rw [hOld] at hEnd
      exact Or.inr (Option.some.inj hEnd).symm
  | some old =>
      rw [hOld] at hEnd
      exact Or.inl hEnd

/- A reader that was told an error has it from the writer. -/
theorem readError_some
    {closedPipe error : ε}
    (hApart : error ≠ closedPipe)
    (hError : p.readError closedPipe = some error) :
    p.writeEnd = some error := by
  unfold readError at hError
  split at hError
  · split at hError
    · cases hError
      exact absurd rfl hApart
    · exact hError
  · cases hError

end Pipe

end Foundation
