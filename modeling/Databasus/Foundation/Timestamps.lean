import Databasus.Foundation.Calendar
import Mathlib.Tactic.Linarith
import Mathlib.Tactic.Ring

/-
  The text of an instant in universal time.

  A date and a time of day are numbers of a fixed width with
  marks between them.  The fraction of a second is written
  without its trailing zeros, and not at all when it is zero.
  The reader takes the texts that name an instant.

  Main declarations:
    * `writeDateTime`, `readDateTime`
    * `readDateTime_writeDateTime`
    * `writeInstant`, `readInstant`
    * `readInstant_writeInstant`
-/

------------------------------------------------------------
-- Numbers of a Width
------------------------------------------------------------

namespace Foundation

namespace Timestamps

variable {width n : Nat}

def digit (n : Nat) : Char :=
  Nat.digitChar (n % 10)

def digitValue (c : Char) : Option Nat :=
  if c.isDigit then some (c.toNat - '0'.toNat) else none

/- The last digits of a number, as many as the width. -/
def fixed : Nat → Nat → List Char
  | 0, _ => []
  | width + 1, n => digit (n / 10 ^ width) :: fixed width n

/- Read digits of a width onto the value of those before. -/
def readDigits :
    Nat → Nat → List Char → Option (Nat × List Char)
  | 0, value, rest => some (value, rest)
  | _ + 1, _, [] => none
  | width + 1, value, c :: rest =>
      (digitValue c).bind fun last =>
        readDigits width (value * 10 + last) rest

def readMark
    (mark : Char) : List Char → Option (List Char)
  | [] => none
  | c :: rest => if c = mark then some rest else none

@[simp]
theorem digitValue_digit
    (n : Nat) :
    digitValue (digit n) = some (n % 10) := by
  have hEach :
      ∀ d < 10, digitValue (Nat.digitChar d) = some d := by
    decide
  exact hEach (n % 10) (Nat.mod_lt n (by decide))

theorem isDigit_digit
    (n : Nat) :
    (digit n).isDigit = true := by
  have hEach :
      ∀ d < 10, (Nat.digitChar d).isDigit = true := by
    decide
  exact hEach (n % 10) (Nat.mod_lt n (by decide))

@[simp]
theorem length_fixed
    (width n : Nat) :
    (fixed width n).length = width := by
  induction width with
  | zero => rfl
  | succ width ih =>
      unfold fixed
      rw [List.length_cons, ih]

theorem isDigit_of_mem_fixed
    {c : Char}
    (hMember : c ∈ fixed width n) :
    c.isDigit = true := by
  induction width with
  | zero => exact absurd hMember List.not_mem_nil
  | succ width ih =>
      unfold fixed at hMember
      rcases List.mem_cons.mp hMember with rfl | hRest
      · exact isDigit_digit _
      · exact ih hRest

theorem readDigits_fixed
    (width value n : Nat)
    (rest : List Char) :
    readDigits width value (fixed width n ++ rest) =
      some (value * 10 ^ width + n % 10 ^ width, rest) := by
  induction width generalizing value with
  | zero =>
      unfold fixed readDigits
      simp only [List.nil_append, pow_zero, Nat.mul_one,
        Nat.mod_one, Nat.add_zero]
  | succ width ih =>
      unfold fixed readDigits
      rw [List.cons_append]
      simp only
      rw [digitValue_digit, Option.bind_some, ih]
      congr 2
      rw [Nat.mod_pow_succ, Nat.add_mul, pow_succ]
      ring

/- A number that fits the width is read back. -/
theorem readDigits_fixed_of_lt
    (hFits : n < 10 ^ width)
    (rest : List Char) :
    readDigits width 0 (fixed width n ++ rest) =
      some (n, rest) := by
  rw [readDigits_fixed, Nat.zero_mul, Nat.zero_add,
    Nat.mod_eq_of_lt hFits]

@[simp]
theorem readMark_cons
    (mark : Char)
    (rest : List Char) :
    readMark mark (mark :: rest) = some rest :=
  if_pos rfl

------------------------------------------------------------
-- Dates and Times of Day
------------------------------------------------------------

open Calendar

/- A year outside four digits is written with all of them. -/
def writeYear (year : Int) : List Char :=
  let digits :=
    if year.natAbs < 10 ^ 4 then
      fixed 4 year.natAbs
    else
      Nat.toDigits 10 year.natAbs
  if year < 0 then '-' :: digits else digits

def yearAt (second : Int) : Int :=
  (dateOf (second / 86400)).year

/- The year has the four digits that a reader expects. -/
def InFourDigitYears (second : Int) : Prop :=
  0 ≤ yearAt second ∧ yearAt second ≤ 9999

instance instDecidableInFourDigitYears
    (second : Int) :
    Decidable (InFourDigitYears second) :=
  inferInstanceAs (Decidable (_ ∧ _))

def writeDateTime
    (separator : Char)
    (second : Int) : List Char :=
  let date := dateOf (second / 86400)
  let clock := (second % 86400).toNat
  writeYear date.year ++
    '-' :: (fixed 2 date.month.toNat ++
      '-' :: (fixed 2 date.day.toNat ++
        separator :: (fixed 2 (clock / 3600) ++
          ':' :: (fixed 2 (clock / 60 % 60) ++
            ':' :: fixed 2 (clock % 60)))))

/- The second that is named, and what follows the text. -/
def readDateTime
    (separator : Char)
    (input : List Char) : Option (Int × List Char) := do
  let (year, input) ← readDigits 4 0 input
  let input ← readMark '-' input
  let (month, input) ← readDigits 2 0 input
  let input ← readMark '-' input
  let (day, input) ← readDigits 2 0 input
  let input ← readMark separator input
  let (hour, input) ← readDigits 2 0 input
  let input ← readMark ':' input
  let (minute, input) ← readDigits 2 0 input
  let input ← readMark ':' input
  let (second, input) ← readDigits 2 0 input
  let monthNumber : Int := 12 * year + month - 1
  if
    1 ≤ month ∧ month ≤ 12 ∧ 1 ≤ day ∧
      (day : Int) ≤ monthLength monthNumber ∧
      hour < 24 ∧ minute < 60 ∧ second < 60
  then
    some
      ((monthStart monthNumber + (day - 1)) * 86400 +
          (hour * 3600 + minute * 60 + second : Nat),
        input)
  else
    none

/- The month of a date and its day, in their ranges. -/
theorem dateOf_bounds
    (dayNumber : Int) :
    1 ≤ (dateOf dayNumber).month ∧
      (dateOf dayNumber).month ≤ 12 ∧
      1 ≤ (dateOf dayNumber).day ∧
      (dateOf dayNumber).day ≤
        monthLength (monthOf dayNumber) ∧
      (dateOf dayNumber).day ≤ 31 := by
  rcases monthOf_spec dayNumber with ⟨hLow, hHigh⟩
  have hLength := monthStart_succ (monthOf dayNumber)
  unfold dateOf monthLength
  dsimp only
  omega

theorem writeYear_of_inFourDigits
    {year : Int}
    (hLow : 0 ≤ year)
    (hHigh : year ≤ 9999) :
    writeYear year = fixed 4 year.toNat := by
  have hSame : year.natAbs = year.toNat := by omega
  have hFits : year.toNat < 10 ^ 4 := by omega
  unfold writeYear
  rw [if_neg (Int.not_lt.mpr hLow), hSame, if_pos hFits]

/- A date and time is read as the second it was made from. -/
theorem readDateTime_writeDateTime
    (separator : Char)
    {second : Int}
    (hYear : InFourDigitYears second)
    (rest : List Char) :
    readDateTime separator
        (writeDateTime separator second ++ rest) =
      some (second, rest) := by
  have hNamed := monthStart_dateOf (second / 86400)
  rcases dateOf_bounds (second / 86400) with
    ⟨hMonthLow, hMonthHigh, hDayLow, hDayHigh, hDayFits⟩
  rw [← monthNumber_dateOf] at hDayHigh
  rcases hYear with ⟨hYearLow, hYearHigh⟩
  unfold yearAt at hYearLow hYearHigh
  unfold writeDateTime readDateTime
  dsimp only
  rw [writeYear_of_inFourDigits hYearLow hYearHigh]
  unfold Date.monthNumber at hNamed hDayHigh
  generalize dateOf (second / 86400) = date at *
  obtain ⟨clock, hClock⟩ :
      ∃ clock : Nat, second % 86400 = clock :=
    ⟨(second % 86400).toNat, by omega⟩
  rw [hClock]
  simp only [List.append_assoc, List.cons_append,
    Int.toNat_natCast]
  rw [readDigits_fixed_of_lt (by omega)]
  simp only [Option.bind_eq_bind, Option.bind_some,
    readMark_cons]
  rw [readDigits_fixed_of_lt (by omega)]
  simp only [Option.bind_some, readMark_cons]
  rw [readDigits_fixed_of_lt (by omega)]
  simp only [Option.bind_some, readMark_cons]
  rw [readDigits_fixed_of_lt (by omega)]
  simp only [Option.bind_some, readMark_cons]
  rw [readDigits_fixed_of_lt (by omega)]
  simp only [Option.bind_some, readMark_cons]
  rw [readDigits_fixed_of_lt (by omega)]
  simp only [Option.bind_some]
  have hYearNat : (date.year.toNat : Int) = date.year := by
    omega
  have hMonthNat : (date.month.toNat : Int) = date.month := by
    omega
  have hDayNat : (date.day.toNat : Int) = date.day := by
    omega
  rw [hYearNat, hMonthNat, hDayNat, hNamed, if_pos]
  · congr 2
    omega
  · refine ⟨?_, ?_, ?_, hDayHigh, ?_, ?_, ?_⟩ <;> omega

------------------------------------------------------------
-- Fractions of a Second
------------------------------------------------------------

/- The digits without trailing zeros: their width and value. -/
def trimZeros : Nat → Nat → Nat × Nat
  | 0, n => (0, n)
  | width + 1, n =>
      if n % 10 = 0 then
        trimZeros width (n / 10)
      else
        (width + 1, n)

/- No digits are written of a whole second. -/
def writeFraction (nanos : Nat) : List Char :=
  if nanos = 0 then
    []
  else
    '.' :: fixed (trimZeros 9 nanos).1 (trimZeros 9 nanos).2

/- An instant in nanoseconds, as RFC 3339 has it. -/
def writeInstant (t : Int) : List Char :=
  writeDateTime 'T' (t / 1000000000) ++
    (writeFraction (t % 1000000000).toNat ++ ['Z'])

/- The nanoseconds that the digits after the point name. -/
def readNanos (input : List Char) : Option (Nat × List Char) :=
  let width := (input.takeWhile Char.isDigit).length
  if 0 < width ∧ width ≤ 9 then
    (readDigits width 0 input).map fun (value, rest) =>
      (value * 10 ^ (9 - width), rest)
  else
    none

def readFraction : List Char → Option (Nat × List Char)
  | '.' :: rest => readNanos rest
  | input => some (0, input)

def readInstant (input : List Char) : Option Int := do
  let (second, input) ← readDateTime 'T' input
  let (nanos, input) ← readFraction input
  if input = ['Z'] then
    some (second * 1000000000 + nanos)
  else
    none

theorem trimZeros_spec
    (width n : Nat) :
    (trimZeros width n).1 ≤ width ∧
      (trimZeros width n).2 *
          10 ^ (width - (trimZeros width n).1) =
        n := by
  induction width generalizing n with
  | zero =>
      unfold trimZeros
      exact ⟨Nat.le_refl 0, Nat.mul_one n⟩
  | succ width ih =>
      unfold trimZeros
      split
      · next hZero =>
          rcases ih (n / 10) with ⟨hWidth, hValue⟩
          refine ⟨Nat.le_succ_of_le hWidth, ?_⟩
          rw [Nat.succ_sub hWidth, pow_succ, ← Nat.mul_assoc,
            hValue]
          exact Nat.div_mul_cancel (Nat.dvd_of_mod_eq_zero hZero)
      · refine ⟨Nat.le_refl _, ?_⟩
        rw [Nat.sub_self, pow_zero, Nat.mul_one]

theorem trimZeros_pos
    (hFits : n < 10 ^ width)
    (hPos : 0 < n) :
    0 < (trimZeros width n).1 := by
  rcases trimZeros_spec width n with ⟨hWidth, hValue⟩
  by_contra hZero
  have hNone : (trimZeros width n).1 = 0 := by omega
  rw [hNone, Nat.sub_zero] at hValue
  have hFactor : 0 < (trimZeros width n).2 := by
    by_contra hEmpty
    rw [Nat.eq_zero_of_not_pos hEmpty, Nat.zero_mul] at hValue
    omega
  have hLarge := Nat.le_mul_of_pos_left (10 ^ width) hFactor
  omega

theorem trimZeros_lt
    (hFits : n < 10 ^ width) :
    (trimZeros width n).2 < 10 ^ (trimZeros width n).1 := by
  rcases trimZeros_spec width n with ⟨hWidth, hValue⟩
  have hSplit :
      10 ^ width =
        10 ^ (trimZeros width n).1 *
          10 ^ (width - (trimZeros width n).1) := by
    rw [← pow_add, Nat.add_sub_cancel' hWidth]
  rw [hSplit] at hFits
  have hScaled := Nat.lt_of_le_of_lt hValue.le hFits
  exact Nat.lt_of_mul_lt_mul_right hScaled

theorem takeWhile_fixed
    (width n : Nat)
    {mark : Char}
    (hMark : mark.isDigit = false)
    (rest : List Char) :
    (fixed width n ++ mark :: rest).takeWhile Char.isDigit =
      fixed width n := by
  rw [List.takeWhile_append_of_pos
    (fun c hMember => isDigit_of_mem_fixed hMember)]
  rw [List.takeWhile_cons, hMark]
  simp

theorem readFraction_writeFraction
    {nanos : Nat}
    (hFits : nanos < 1000000000)
    (rest : List Char) :
    readFraction (writeFraction nanos ++ 'Z' :: rest) =
      some (nanos, 'Z' :: rest) := by
  unfold writeFraction
  by_cases hZero : nanos = 0
  · rw [if_pos hZero, hZero]
    rfl
  · rw [if_neg hZero]
    have hNanos : nanos < 10 ^ 9 := hFits
    have hWidth := trimZeros_pos hNanos (Nat.pos_of_ne_zero hZero)
    rcases trimZeros_spec 9 nanos with ⟨hBound, hValue⟩
    have hMark : Char.isDigit 'Z' = false := by decide
    rw [List.cons_append]
    change
      readNanos
          (fixed (trimZeros 9 nanos).1 (trimZeros 9 nanos).2 ++
            'Z' :: rest) =
        some (nanos, 'Z' :: rest)
    unfold readNanos
    dsimp only
    rw [takeWhile_fixed _ _ hMark, length_fixed,
      if_pos ⟨hWidth, hBound⟩,
      readDigits_fixed_of_lt (trimZeros_lt hNanos),
      Option.map_some, hValue]

/- An instant is read as itself. -/
theorem readInstant_writeInstant
    {t : Int}
    (hYear : InFourDigitYears (t / 1000000000)) :
    readInstant (writeInstant t) = some t := by
  have hNanos : (t % 1000000000).toNat < 1000000000 := by
    omega
  unfold readInstant writeInstant
  rw [readDateTime_writeDateTime 'T' hYear]
  simp only [Option.bind_eq_bind, Option.bind_some]
  rw [readFraction_writeFraction hNanos]
  simp only [Option.bind_some, if_true]
  congr 1
  omega

example :
    writeInstant 1709164800120000000 =
      "2024-02-29T00:00:00.12Z".toList := by
  decide

end Timestamps

end Foundation
