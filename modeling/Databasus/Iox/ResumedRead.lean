import Mathlib.Data.Nat.Init
import Mathlib.Tactic.Cases
import Databasus.Common

/-
  What a read that resumes after a failure rests on.

  The retry policy counts the attempts since the last byte
  that was delivered.  The start of a `Content-Range` header
  proves where the reply to a resumed read begins.

  Main declarations:
    * `ReadRetryPolicy`
    * `ReadRetryPolicy.registerFailedAttempt`
    * `ReadRetryPolicy.isExhausted`
    * `getRangeStartOfContentRange`
    * `getRangeStartOfContentRange_contentRange`
-/

------------------------------------------------------------
-- Retry Policy
------------------------------------------------------------

namespace Databasus

namespace Iox

def defaultMaxReadAttemptsWithoutProgress : Nat := 10

structure ReadRetryPolicy where
  maxAttemptsWithoutProgress : Nat
  attemptsSinceProgress : Nat
deriving DecidableEq, Repr

def newReadRetryPolicy
    (maxAttemptsWithoutProgress : Nat) :
    ReadRetryPolicy :=
  { maxAttemptsWithoutProgress :=
      if maxAttemptsWithoutProgress = 0 then
        defaultMaxReadAttemptsWithoutProgress
      else
        maxAttemptsWithoutProgress
    attemptsSinceProgress := 0 }

namespace ReadRetryPolicy

variable (policy : ReadRetryPolicy)

def registerFailedAttempt
    (hasDeliveredBytes : Bool) : ReadRetryPolicy :=
  { policy with
    attemptsSinceProgress :=
      if hasDeliveredBytes then
        1
      else
        policy.attemptsSinceProgress + 1 }

def isExhausted : Bool :=
  policy.attemptsSinceProgress >
    policy.maxAttemptsWithoutProgress

def resetAttemptsAfterCompletedRead : ReadRetryPolicy :=
  { policy with attemptsSinceProgress := 0 }

/- Attempts that may still fail without a byte delivered. -/
def attemptsLeft : Nat :=
  policy.maxAttemptsWithoutProgress + 1 -
    policy.attemptsSinceProgress

variable {policy}

@[simp]
theorem registerFailedAttempt_max
    (hasDeliveredBytes : Bool) :
    (policy.registerFailedAttempt
        hasDeliveredBytes).maxAttemptsWithoutProgress =
      policy.maxAttemptsWithoutProgress :=
  rfl

@[simp]
theorem resetAttemptsAfterCompletedRead_max :
    policy.resetAttemptsAfterCompletedRead.maxAttemptsWithoutProgress =
      policy.maxAttemptsWithoutProgress :=
  rfl

theorem attemptsLeft_le
    (policy : ReadRetryPolicy) :
    policy.attemptsLeft ≤
      policy.maxAttemptsWithoutProgress + 1 :=
  Nat.sub_le _ _

/- An attempt without progress costs one of those left. -/
theorem attemptsLeft_registerFailedAttempt
    (hBudget :
      (policy.registerFailedAttempt false).isExhausted =
        false) :
    (policy.registerFailedAttempt false).attemptsLeft <
      policy.attemptsLeft := by
  simp only [isExhausted, registerFailedAttempt, gt_iff_lt,
    decide_eq_false_iff_not, Nat.not_lt,
    Bool.false_eq_true, if_false] at hBudget
  simp only [attemptsLeft, registerFailedAttempt,
    Bool.false_eq_true, if_false]
  omega

end ReadRetryPolicy

------------------------------------------------------------
-- Content Ranges
------------------------------------------------------------

def maxInt64 : Nat := 9223372036854775807

/- The characters that Unicode counts as spaces. -/
def isSpace (c : Char) : Bool :=
  (9 ≤ c.toNat && c.toNat ≤ 13) ||
    (0x2000 ≤ c.toNat && c.toNat ≤ 0x200a) ||
    [0x20, 0x85, 0xa0, 0x1680, 0x2028, 0x2029, 0x202f,
      0x205f, 0x3000].contains c.toNat

def trimSpace (text : List Char) : List Char :=
  ((text.dropWhile isSpace).reverse.dropWhile
    isSpace).reverse

/- A number of at most the given size in decimal digits. -/
def parseMagnitude
    (limit : Nat)
    (digits : List Char) : Option Nat :=
  if digits ≠ [] ∧ digits.all Char.isDigit then
    let value := Nat.ofDigitChars 10 digits 0
    if value ≤ limit then some value else none
  else
    none

def parseInt64 : List Char → Option Int
  | '-' :: digits =>
      (parseMagnitude (maxInt64 + 1) digits).map fun value =>
        -(value : Int)
  | '+' :: digits =>
      (parseMagnitude maxInt64 digits).map Int.ofNat
  | digits => (parseMagnitude maxInt64 digits).map Int.ofNat

def getRangeStartOfContentRange
    (contentRange : String) : Option Int :=
  let unit := "bytes ".toList
  if unit.isPrefixOf contentRange.toList then
    let span := contentRange.toList.drop unit.length
    if span.contains '-' then
      parseInt64 (trimSpace (span.takeWhile (· ≠ '-')))
    else
      none
  else
    none

/- What a server writes of the bytes that it sends. -/
def contentRange (start last total : Nat) : String :=
  String.ofList
    ("bytes ".toList ++ (Nat.toDigits 10 start ++
      '-' :: (Nat.toDigits 10 last ++
        '/' :: Nat.toDigits 10 total)))

theorem isSpace_of_isDigit
    {c : Char}
    (hDigit : c.isDigit = true) :
    isSpace c = false := by
  have hBounds : 48 ≤ c.toNat ∧ c.toNat ≤ 57 := by
    simpa [Char.isDigit, UInt32.le_iff_toNat_le] using hDigit
  simp [isSpace]
  omega

theorem trimSpace_of_digits
    {digits : List Char}
    (hDigits : ∀ c ∈ digits, c.isDigit = true) :
    trimSpace digits = digits := by
  have hKept :
      ∀ text : List Char,
        (∀ c ∈ text, c.isDigit = true) →
          text.dropWhile isSpace = text := by
    intro text hText
    cases text with
    | nil => rfl
    | cons c rest =>
        have hHead :=
          isSpace_of_isDigit
            (hText c List.mem_cons_self)
        simp [hHead]
  unfold trimSpace
  rw [hKept digits hDigits,
    hKept digits.reverse (by simpa using hDigits),
    List.reverse_reverse]

theorem parseInt64_toDigits
    (n : Nat) :
    parseInt64 (Nat.toDigits 10 n) =
      if n ≤ maxInt64 then some (n : Int) else none := by
  have hDigits : ∀ c ∈ Nat.toDigits 10 n, c.isDigit = true :=
    fun c hMember =>
      Nat.isDigit_of_mem_toDigits (by omega) (by omega) hMember
  have hMagnitude :
      parseMagnitude maxInt64 (Nat.toDigits 10 n) =
        if n ≤ maxInt64 then some n else none := by
    unfold parseMagnitude
    rw [if_pos
      ⟨Nat.toDigits_ne_nil, List.all_eq_true.mpr hDigits⟩]
    simp
  unfold parseInt64
  split
  · next digits hShape =>
      have hMinus :=
        hDigits '-' (by rw [hShape]; exact List.mem_cons_self)
      exact absurd hMinus (by decide)
  · next digits hShape =>
      have hPlus :=
        hDigits '+' (by rw [hShape]; exact List.mem_cons_self)
      exact absurd hPlus (by decide)
  · rw [hMagnitude]
    split <;> rfl

/-
  The start of the range that a server sends is read back,
  when it is a 64-bit number.
-/
theorem getRangeStartOfContentRange_contentRange
    (start last total : Nat) :
    getRangeStartOfContentRange
        (contentRange start last total) =
      if start ≤ maxInt64 then
        some (start : Int)
      else
        none := by
  have hDigits :
      ∀ c ∈ Nat.toDigits 10 start, c.isDigit = true :=
    fun c hMember =>
      Nat.isDigit_of_mem_toDigits (by omega) (by omega) hMember
  have hNoDash :
      ∀ c ∈ Nat.toDigits 10 start,
        decide (c ≠ '-') = true := by
    intro c hMember
    rw [decide_eq_true_eq]
    rintro rfl
    exact absurd (hDigits '-' hMember) (by decide)
  unfold getRangeStartOfContentRange contentRange
  simp only [String.toList_ofList, List.drop_left]
  rw [if_pos (by simp),
    if_pos (by simp), List.takeWhile_append_of_pos hNoDash]
  simp only [List.takeWhile_cons, ne_eq, not_true_eq_false,
    decide_false, Bool.false_eq_true, if_false,
    List.append_nil]
  rw [trimSpace_of_digits hDigits, parseInt64_toDigits]

end Iox

end Databasus
