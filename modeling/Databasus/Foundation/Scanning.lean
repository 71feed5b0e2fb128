import Mathlib.Data.List.TakeWhile

/-
  Reading a text by a format, as a scanner of verbs does.

  Before a number the scanner skips spaces, but no newline.
  It then takes as many digits as there are, and a literal of
  the format has to come next.  What follows the last verb is
  not looked at.

  Main declarations:
    * `Scanning.skipSpace`
    * `Scanning.scanToken`, `Scanning.scanToken_eq_ok_iff`
    * `Scanning.scanLiteral`
-/

------------------------------------------------------------
-- The Scanner
------------------------------------------------------------

namespace Foundation

namespace Scanning

inductive ScanError
  | unexpectedNewline
  | unexpectedEOF
  | expectedInteger
  | inputDoesNotMatchFormat
  | valueOutOfRange
  | integerOverflow
deriving DecidableEq, Repr

/- First and last code points of the runs of spaces. -/
def spaceRanges : List (Nat × Nat) :=
  [(0x0009, 0x000D), (0x0020, 0x0020), (0x0085, 0x0085),
    (0x00A0, 0x00A0), (0x1680, 0x1680), (0x2000, 0x200A),
    (0x2028, 0x2029), (0x202F, 0x202F), (0x205F, 0x205F),
    (0x3000, 0x3000)]

def isSpace (c : Char) : Bool :=
  spaceRanges.any fun range =>
    range.1 ≤ c.toNat && c.toNat ≤ range.2

/- A newline has to be matched by the format. -/
def skipSpace :
    List Char → Except ScanError (List Char)
  | [] => .ok []
  | c :: rest =>
      if c = '\n' then
        .error .unexpectedNewline
      else if isSpace c then
        skipSpace rest
      else
        .ok (c :: rest)

/- The digits that come next, and what follows them. -/
def scanToken
    (isDigit : Char → Bool)
    (input : List Char) :
    Except ScanError (List Char × List Char) :=
  match skipSpace input with
  | .error error => .error error
  | .ok [] => .error .unexpectedEOF
  | .ok (c :: rest) =>
      if isDigit c then
        .ok
          ((c :: rest).takeWhile isDigit,
            (c :: rest).dropWhile isDigit)
      else
        .error .expectedInteger

/- A literal of the format; no space is skipped before it. -/
def scanLiteral
    (literal : Char) :
    List Char → Except ScanError (List Char)
  | [] => .error .unexpectedEOF
  | c :: rest =>
      if c = literal then
        .ok rest
      else
        .error .inputDoesNotMatchFormat

------------------------------------------------------------
-- What is Read
------------------------------------------------------------

/- A character that is skipped before a number. -/
def IsSkipped (c : Char) : Prop :=
  c ≠ '\n' ∧ isSpace c = true

/- The text goes on with something that is no digit. -/
def Ends
    (isDigit : Char → Bool)
    (rest : List Char) : Prop :=
  ∀ c ∈ rest.head?, isDigit c = false

theorem skipSpace_append
    {lead rest : List Char}
    (hLead : ∀ c ∈ lead, IsSkipped c) :
    skipSpace (lead ++ rest) = skipSpace rest := by
  induction lead with
  | nil => rfl
  | cons c lead ih =>
      rw [List.forall_mem_cons] at hLead
      rw [List.cons_append, skipSpace, if_neg hLead.1.1,
        if_pos hLead.1.2, ih hLead.2]

theorem skipSpace_of_not_isSpace
    {c : Char}
    (hSpace : isSpace c = false)
    (rest : List Char) :
    skipSpace (c :: rest) = .ok (c :: rest) := by
  have hNewline : c ≠ '\n' := by
    rintro rfl
    exact absurd hSpace (by decide)
  unfold skipSpace
  rw [if_neg hNewline, hSpace, if_neg Bool.false_ne_true]

/- Only skipped characters are left out. -/
theorem skipSpace_eq_ok
    {input rest : List Char}
    (hSkip : skipSpace input = .ok rest) :
    ∃ lead,
      input = lead ++ rest ∧ ∀ c ∈ lead, IsSkipped c := by
  induction input with
  | nil =>
      cases hSkip
      exact
        ⟨[], rfl, fun _ hMember =>
          absurd hMember List.not_mem_nil⟩
  | cons c input ih =>
      unfold skipSpace at hSkip
      split at hSkip
      · cases hSkip
      · next hNewline =>
          split at hSkip
          · next hSpace =>
              rcases ih hSkip with ⟨lead, rfl, hLead⟩
              refine ⟨c :: lead, rfl, ?_⟩
              exact
                List.forall_mem_cons.mpr
                  ⟨⟨hNewline, hSpace⟩, hLead⟩
          · cases hSkip
            exact
              ⟨[], rfl, fun _ hMember =>
                absurd hMember List.not_mem_nil⟩

variable {isDigit : Char → Bool}

theorem takeWhile_append_of_ends
    {token rest : List Char}
    (hDigits : ∀ c ∈ token, isDigit c = true)
    (hEnds : Ends isDigit rest) :
    (token ++ rest).takeWhile isDigit = token ∧
      (token ++ rest).dropWhile isDigit = rest := by
  induction token with
  | nil =>
      cases rest with
      | nil => exact ⟨rfl, rfl⟩
      | cons c rest =>
          have hHead : isDigit c = false := hEnds c rfl
          rw [List.nil_append, List.takeWhile_cons,
            List.dropWhile_cons, hHead]
          exact ⟨rfl, rfl⟩
  | cons c token ih =>
      rw [List.forall_mem_cons] at hDigits
      rcases ih hDigits.2 with ⟨hTake, hDrop⟩
      rw [List.cons_append, List.takeWhile_cons,
        List.dropWhile_cons, hDigits.1, if_pos rfl, if_pos rfl,
        hTake, hDrop]
      exact ⟨rfl, rfl⟩

theorem ends_dropWhile
    (input : List Char) :
    Ends isDigit (input.dropWhile isDigit) := by
  intro c hHead
  have hNot := List.head?_dropWhile_not isDigit input
  rw [Option.mem_def.mp hHead] at hNot
  simpa using hNot

/- A token is what stands between spaces and no digit. -/
theorem scanToken_eq_ok_iff
    (hDigit : ∀ c, isDigit c = true → isSpace c = false)
    (input token rest : List Char) :
    scanToken isDigit input = .ok (token, rest) ↔
      token ≠ [] ∧
        (∀ c ∈ token, isDigit c = true) ∧
        Ends isDigit rest ∧
        ∃ lead,
          input = lead ++ (token ++ rest) ∧
            ∀ c ∈ lead, IsSkipped c := by
  constructor
  · intro hScan
    unfold scanToken at hScan
    split at hScan
    · cases hScan
    · cases hScan
    · next c after hSkip =>
        rcases skipSpace_eq_ok hSkip with ⟨lead, rfl, hLead⟩
        split at hScan
        · next hFirst =>
            cases hScan
            refine ⟨?_, ?_, ends_dropWhile _, lead, ?_, hLead⟩
            · rw [List.takeWhile_cons, hFirst]
              exact List.cons_ne_nil _ _
            · intro d hMember
              exact List.mem_takeWhile_imp hMember
            · rw [List.takeWhile_append_dropWhile]
        · cases hScan
  · rintro ⟨hToken, hDigits, hEnds, lead, rfl, hLead⟩
    rcases takeWhile_append_of_ends hDigits hEnds with
      ⟨hTake, hDrop⟩
    unfold scanToken
    rw [skipSpace_append hLead]
    cases token with
    | nil => exact absurd rfl hToken
    | cons c token =>
        have hFirst := hDigits c List.mem_cons_self
        rw [List.cons_append,
          skipSpace_of_not_isSpace (hDigit c hFirst)]
        simp only
        rw [← List.cons_append, hTake, hDrop, if_pos hFirst]

end Scanning

end Foundation
