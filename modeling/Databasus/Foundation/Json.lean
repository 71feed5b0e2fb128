import Mathlib.Data.List.Basic
import Mathlib.Tactic.Cases

/-
  JSON values, their compact text, and a reader of it.

  Numbers are integers.  The text escapes quotes, backslashes,
  control characters and the characters that HTML gives a
  meaning to; the reader takes any spaces and escapes.

  Main declarations:
    * `Json`
    * `Json.render`
    * `Json.readValue`
    * `Json.parse`
    * `Json.IsTextOf`
-/

------------------------------------------------------------
-- Values and their Text
------------------------------------------------------------

namespace Foundation

inductive Json
  | null
  | bool (value : Bool)
  | num (value : Int)
  | str (text : List Char)
  | arr (items : List Json)
  | obj (members : List (List Char × Json))

namespace Json

/- Characters with a letter for an escape. -/
def shortEscapes : List (Char × Char) :=
  [('\"', '\"'), ('\\', '\\'), ('\n', 'n'), ('\r', 'r'),
    ('\t', 't'), (Char.ofNat 8, 'b'), (Char.ofNat 12, 'f')]

/- Characters that are written by their number. -/
def needsUnit (c : Char) : Bool :=
  c.toNat < 32 || c = '<' || c = '>' || c = '&' ||
    c.toNat = 0x2028 || c.toNat = 0x2029

def hexDigit (n : Nat) : Char :=
  Nat.digitChar (n % 16)

def unitDigits (n : Nat) : List Char :=
  [hexDigit (n / 4096), hexDigit (n / 256),
    hexDigit (n / 16), hexDigit n]

def renderChar (c : Char) : List Char :=
  match shortEscapes.lookup c with
  | some letter => ['\\', letter]
  | none =>
      if needsUnit c then
        '\\' :: 'u' :: unitDigits c.toNat
      else
        [c]

def renderText (text : List Char) : List Char :=
  '\"' :: text.flatMap renderChar ++ ['\"']

def renderInt : Int → List Char
  | .ofNat n => Nat.toDigits 10 n
  | .negSucc n => '-' :: Nat.toDigits 10 (n + 1)

mutual

def render : Json → List Char
  | null => ['n', 'u', 'l', 'l']
  | bool true => ['t', 'r', 'u', 'e']
  | bool false => ['f', 'a', 'l', 's', 'e']
  | num value => renderInt value
  | str text => renderText text
  | arr [] => ['[', ']']
  | arr (item :: items) =>
      '[' :: render item ++ renderItems items
  | obj [] => ['{', '}']
  | obj (member :: members) =>
      '{' :: renderMember member ++ renderMembers members

/- The items after the first one, and the bracket. -/
def renderItems : List Json → List Char
  | [] => [']']
  | item :: items =>
      ',' :: render item ++ renderItems items

def renderMembers : List (List Char × Json) → List Char
  | [] => ['}']
  | member :: members =>
      ',' :: renderMember member ++ renderMembers members

def renderMember : List Char × Json → List Char
  | (name, value) => renderText name ++ ':' :: render value

end

------------------------------------------------------------
-- Reading
------------------------------------------------------------

def isSpace (c : Char) : Bool :=
  c = ' ' || c = '\t' || c = '\n' || c = '\r'

def skipSpace (input : List Char) : List Char :=
  input.dropWhile isSpace

def hexValue (c : Char) : Option Nat :=
  if '0' ≤ c ∧ c ≤ '9' then
    some (c.toNat - 48)
  else if 'a' ≤ c ∧ c ≤ 'f' then
    some (c.toNat - 87)
  else if 'A' ≤ c ∧ c ≤ 'F' then
    some (c.toNat - 55)
  else
    none

def readUnit : List Char → Option (Nat × List Char)
  | a :: b :: c :: d :: rest => do
      let a ← hexValue a
      let b ← hexValue b
      let c ← hexValue c
      let d ← hexValue d
      some (4096 * a + 256 * b + 16 * c + d, rest)
  | _ => none

/- What stands for a unit that is no character. -/
def replacement : Char := Char.ofNat 0xFFFD

def isHighSurrogate (n : Nat) : Bool :=
  0xD800 ≤ n && n < 0xDC00

def isLowSurrogate (n : Nat) : Bool :=
  0xDC00 ≤ n && n < 0xE000

/- A character by its number, which may take two units. -/
def readNumbered
    (input : List Char) : Option (Char × List Char) := do
  let (high, rest) ← readUnit input
  if isHighSurrogate high then
    match rest with
    | '\\' :: 'u' :: more =>
        match readUnit more with
        | some (low, rest') =>
            if isLowSurrogate low then
              some
                (Char.ofNat
                  (0x10000 + 1024 * (high - 0xD800) +
                    (low - 0xDC00)),
                  rest')
            else
              some (replacement, rest)
        | none => some (replacement, rest)
    | _ => some (replacement, rest)
  else if isLowSurrogate high then
    some (replacement, rest)
  else
    some (Char.ofNat high, rest)

/- The character that an escape's letter stands for. -/
def unescape (letter : Char) : Option Char :=
  if letter = '/' then
    some '/'
  else
    (shortEscapes.find? fun pair =>
      pair.2 = letter).map Prod.fst

/- One character of a text. -/
def readChar : List Char → Option (Char × List Char)
  | [] => none
  | c :: rest =>
      if c = '\\' then
        match rest with
        | [] => none
        | letter :: rest =>
            if letter = 'u' then
              readNumbered rest
            else
              (unescape letter).map fun c => (c, rest)
      else if c.toNat < 32 then
        none
      else
        some (c, rest)

/- The rest of a text after its opening quote. -/
def readText :
    Nat → List Char → Option (List Char × List Char)
  | 0, _ => none
  | fuel + 1, input =>
      if input.head? = some '\"' then
        some ([], input.tail)
      else do
        let (c, rest) ← readChar input
        let (text, rest) ← readText fuel rest
        some (c :: text, rest)

def readNat (input : List Char) : Option (Nat × List Char) :=
  let digits := input.takeWhile Char.isDigit
  let rest := input.dropWhile Char.isDigit
  if
    digits = [] ∨
      (digits.head? = some '0' ∧ digits ≠ ['0']) ∨
        rest.head? ∈ [some '.', some 'e', some 'E']
  then
    none
  else
    some (Nat.ofDigitChars 10 digits 0, rest)

def readInt (input : List Char) : Option (Int × List Char) :=
  if input.head? = some '-' then
    (readNat input.tail).map fun (n, rest) =>
      (-(n : Int), rest)
  else
    (readNat input).map fun (n, rest) => ((n : Int), rest)

def readWord
    (word : List Char)
    (value : Json)
    (input : List Char) : Option (Json × List Char) :=
  if word.isPrefixOf input then
    some (value, input.drop word.length)
  else
    none

mutual

def readValue :
    Nat → List Char → Option (Json × List Char)
  | 0, _ => none
  | fuel + 1, input =>
      match skipSpace input with
      | [] => none
      | c :: rest =>
          if c = '\"' then
            (readText fuel rest).map fun (text, rest) =>
              (.str text, rest)
          else if c = '[' then
            if (skipSpace rest).head? = some ']' then
              some (.arr [], (skipSpace rest).tail)
            else
              (readItems fuel rest).map fun (items, rest) =>
                (.arr items, rest)
          else if c = '{' then
            if (skipSpace rest).head? = some '}' then
              some (.obj [], (skipSpace rest).tail)
            else
              (readMembers fuel rest).map
                fun (members, rest) => (.obj members, rest)
          else if c = 'n' then
            readWord ['n', 'u', 'l', 'l'] .null (c :: rest)
          else if c = 't' then
            readWord ['t', 'r', 'u', 'e'] (.bool true)
              (c :: rest)
          else if c = 'f' then
            readWord ['f', 'a', 'l', 's', 'e'] (.bool false)
              (c :: rest)
          else
            (readInt (c :: rest)).map fun (value, rest) =>
              (.num value, rest)

/- Items up to the closing bracket; there is one at least. -/
def readItems :
    Nat → List Char → Option (List Json × List Char)
  | 0, _ => none
  | fuel + 1, input => do
      let (item, rest) ← readValue fuel input
      match skipSpace rest with
      | [] => none
      | c :: rest =>
          if c = ']' then
            some ([item], rest)
          else if c = ',' then do
            let (items, rest) ← readItems fuel rest
            some (item :: items, rest)
          else
            none

def readMembers :
    Nat →
      List Char →
        Option (List (List Char × Json) × List Char)
  | 0, _ => none
  | fuel + 1, input => do
      let (member, rest) ← readMember fuel (skipSpace input)
      match skipSpace rest with
      | [] => none
      | c :: rest =>
          if c = '}' then
            some ([member], rest)
          else if c = ',' then do
            let (members, rest) ← readMembers fuel rest
            some (member :: members, rest)
          else
            none

def readMember :
    Nat →
      List Char → Option ((List Char × Json) × List Char)
  | 0, _ => none
  | fuel + 1, input =>
      if input.head? = some '\"' then do
        let (name, rest) ← readText fuel input.tail
        if (skipSpace rest).head? = some ':' then do
          let (value, rest) ←
            readValue fuel (skipSpace rest).tail
          some ((name, value), rest)
        else
          none
      else
        none

end

/- A text that is one value. -/
def parse (input : List Char) : Option Json :=
  match readValue (input.length + 1) input with
  | some (value, rest) =>
      if skipSpace rest = [] then some value else none
  | none => none

------------------------------------------------------------
-- Texts Read Back
------------------------------------------------------------

theorem hexValue_hexDigit
    (n : Nat) :
    hexValue (hexDigit n) = some (n % 16) := by
  have hAll :
      ∀ k < 16, hexValue (Nat.digitChar k) = some k := by
    decide
  exact hAll (n % 16) (Nat.mod_lt n (by omega))

theorem readUnit_unitDigits
    {n : Nat}
    (hUnit : n < 65536)
    (rest : List Char) :
    readUnit (unitDigits n ++ rest) = some (n, rest) := by
  simp only [unitDigits, List.cons_append, List.nil_append,
    readUnit, hexValue_hexDigit, Option.bind_eq_bind,
    Option.bind_some, Option.some.injEq, Prod.mk.injEq,
    and_true]
  omega

/- Characters written by their number are no surrogates. -/
theorem toNat_lt_of_needsUnit
    {c : Char}
    (hUnit : needsUnit c = true) :
    c.toNat < 0xD800 := by
  simp only [needsUnit, Bool.or_eq_true,
    decide_eq_true_eq] at hUnit
  rcases hUnit with
    ((((hControl | rfl) | rfl) | rfl) | hLine) | hParagraph
  · omega
  · decide
  · decide
  · decide
  · omega
  · omega

/- Quotes and backslashes have short escapes. -/
theorem lookup_shortEscapes
    (c : Char) :
    (∃ letter,
        shortEscapes.lookup c = some letter ∧
          letter ≠ 'u' ∧ unescape letter = some c) ∨
      shortEscapes.lookup c = none ∧
        c ≠ '\"' ∧ c ≠ '\\' := by
  by_cases hKnown : c ∈ shortEscapes.map Prod.fst
  · left
    have hAll :
        ∀ pair ∈ shortEscapes,
          shortEscapes.lookup pair.1 = some pair.2 ∧
            pair.2 ≠ 'u' ∧ unescape pair.2 = some pair.1 := by
      decide
    rcases List.mem_map.mp hKnown with ⟨pair, hPair, rfl⟩
    exact ⟨pair.2, hAll pair hPair⟩
  · right
    have hNone : shortEscapes.lookup c = none := by
      rw [List.lookup_eq_none_iff]
      intro pair hPair
      rw [bne_iff_ne]
      rintro rfl
      exact hKnown (List.mem_map_of_mem hPair)
    refine ⟨hNone, ?_, ?_⟩
    · rintro rfl
      exact hKnown (by decide)
    · rintro rfl
      exact hKnown (by decide)

/- What is read as one character, and does not end a text. -/
structure IsEscapeOf
    (written : List Char)
    (c : Char) : Prop where
  reads :
    ∀ rest, readChar (written ++ rest) = some (c, rest)
  goesOn :
    ∀ rest, (written ++ rest).head? ≠ some '\"'

/- A character that stands for itself. -/
structure NeedsNoEscape (c : Char) : Prop where
  printable : 32 ≤ c.toNat
  not_quote : c ≠ '\"'
  not_backslash : c ≠ '\\'

instance instDecidableNeedsNoEscape
    (c : Char) :
    Decidable (NeedsNoEscape c) :=
  decidable_of_iff
    (32 ≤ c.toNat ∧ c ≠ '\"' ∧ c ≠ '\\')
    ⟨fun h => ⟨h.1, h.2.1, h.2.2⟩,
      fun h => ⟨h.1, h.2, h.3⟩⟩

theorem needsNoEscape_of_all
    {text : List Char}
    (hAll :
      (text.all fun c => decide (NeedsNoEscape c)) = true) :
    ∀ c ∈ text, NeedsNoEscape c := by
  intro c hChar
  exact of_decide_eq_true (List.all_eq_true.mp hAll c hChar)

theorem isEscapeOf_self
    {c : Char}
    (hPlain : NeedsNoEscape c) :
    IsEscapeOf [c] c := by
  refine ⟨?_, ?_⟩
  · intro rest
    have hControl : ¬c.toNat < 32 :=
      Nat.not_lt.mpr hPlain.printable
    simp [readChar, hPlain.not_backslash, hControl]
  · intro rest hHead
    exact hPlain.not_quote (Option.some.inj hHead)

theorem isEscapeOf_letter
    {c letter : Char}
    (hLetter : letter ≠ 'u')
    (hUnescape : unescape letter = some c) :
    IsEscapeOf ['\\', letter] c := by
  refine ⟨?_, ?_⟩
  · intro rest
    simp [readChar, hLetter, hUnescape]
  · intro rest
    simp

/- A character by its number. -/
theorem isEscapeOf_unit
    {c : Char}
    (hSmall : c.toNat < 0xD800) :
    IsEscapeOf ('\\' :: 'u' :: unitDigits c.toNat) c := by
  refine ⟨?_, ?_⟩
  · intro rest
    have hHigh : isHighSurrogate c.toNat = false := by
      simp [isHighSurrogate]
      omega
    have hLow : isLowSurrogate c.toNat = false := by
      simp [isLowSurrogate]
      omega
    have hRead :=
      readUnit_unitDigits (n := c.toNat) (by omega) rest
    simp [readChar, readNumbered, hRead, hHigh, hLow]
  · intro rest
    simp

theorem isEscapeOf_renderChar
    (c : Char) :
    IsEscapeOf (renderChar c) c := by
  unfold renderChar
  rcases lookup_shortEscapes c with
    ⟨letter, hLookup, hLetter, hUnescape⟩ |
      ⟨hLookup, hQuote, hBackslash⟩
  · rw [hLookup]
    exact isEscapeOf_letter hLetter hUnescape
  · rw [hLookup]
    simp only
    split
    · next hUnit =>
        exact isEscapeOf_unit (toNat_lt_of_needsUnit hUnit)
    · next hPlain =>
        have hPrintable : 32 ≤ c.toNat := by
          by_contra hControl
          apply hPlain
          simp [needsUnit, Nat.lt_of_not_le hControl]
        exact isEscapeOf_self ⟨hPrintable, hQuote, hBackslash⟩

/- What is read as a text, up to a closing quote. -/
def IsTextOf (written text : List Char) : Prop :=
  ∀ (fuel : Nat) (rest : List Char),
    written.length < fuel →
      readText fuel (written ++ '\"' :: rest) =
        some (text, rest)

theorem IsEscapeOf.length_pos
    {written : List Char}
    {c : Char}
    (hEscape : IsEscapeOf written c) :
    0 < written.length := by
  rw [List.length_pos_iff]
  rintro rfl
  have hRead := hEscape.reads []
  cases hRead

theorem isTextOf_nil : IsTextOf [] [] := by
  intro fuel rest hFuel
  cases fuel with
  | zero => cases hFuel
  | succ fuel => simp [readText]

theorem IsTextOf.cons
    {written more text : List Char}
    {c : Char}
    (hEscape : IsEscapeOf written c)
    (hMore : IsTextOf more text) :
    IsTextOf (written ++ more) (c :: text) := by
  intro fuel rest hFuel
  have hPositive := hEscape.length_pos
  rw [List.length_append] at hFuel
  cases fuel with
  | zero => cases hFuel
  | succ fuel =>
      have hRest := hMore fuel rest (by omega)
      rw [List.append_assoc, readText,
        if_neg (hEscape.goesOn _), hEscape.reads]
      simp [hRest]

/- A text is written character by character. -/
theorem isTextOf_flatMap
    {write : Char → List Char}
    {text : List Char}
    (hEscapes : ∀ c ∈ text, IsEscapeOf (write c) c) :
    IsTextOf (text.flatMap write) text := by
  induction text with
  | nil => exact isTextOf_nil
  | cons c text ih =>
      rw [List.forall_mem_cons] at hEscapes
      rw [List.flatMap_cons]
      exact (ih hEscapes.2).cons hEscapes.1

/- A text of characters that stand for themselves. -/
theorem isTextOf_self
    {text : List Char}
    (hPlain : ∀ c ∈ text, NeedsNoEscape c) :
    IsTextOf text text := by
  have hText : text.flatMap (fun c => [c]) = text :=
    List.flatMap_singleton' text
  have hRead :=
    @isTextOf_flatMap (fun c => [c]) _ fun c hChar =>
      isEscapeOf_self (hPlain c hChar)
  rw [hText] at hRead
  exact hRead

theorem needsNoEscape_of_isDigit
    {c : Char}
    (hDigit : c.isDigit = true) :
    NeedsNoEscape c := by
  simp only [Char.isDigit, Bool.and_eq_true,
    decide_eq_true_eq] at hDigit
  have hLow : 48 ≤ c.toNat := hDigit.1
  refine ⟨by omega, ?_, ?_⟩
  · rintro rfl
    exact absurd hDigit.1 (by decide)
  · rintro rfl
    exact absurd hDigit.2 (by decide)

------------------------------------------------------------
-- Numbers Read Back
------------------------------------------------------------

/- A value may end before this. -/
def Stops (rest : List Char) : Prop :=
  ∀ c ∈ rest.head?, c = ',' ∨ c = ']' ∨ c = '}'

/- A value may end before this, with spaces in between. -/
def Ends (rest : List Char) : Prop :=
  Stops (skipSpace rest)

theorem skipSpace_cons
    {c : Char}
    (hSpace : isSpace c = false)
    (rest : List Char) :
    skipSpace (c :: rest) = c :: rest :=
  List.dropWhile_cons_of_neg (by simp [hSpace])

theorem skipSpace_of_stops
    {rest : List Char}
    (hStops : Stops rest) :
    skipSpace rest = rest := by
  cases rest with
  | nil => rfl
  | cons c rest =>
      apply skipSpace_cons
      rcases hStops c rfl with rfl | rfl | rfl <;> decide

/- No digit, point or exponent follows. -/
theorem Ends.no_digit
    {rest : List Char}
    (hEnds : Ends rest) :
    ∀ c ∈ rest.head?,
      ¬(c.isDigit = true) ∧
        c ≠ '.' ∧ c ≠ 'e' ∧ c ≠ 'E' := by
  cases rest with
  | nil =>
      intro c hHead
      cases hHead
  | cons c rest =>
      intro first hHead
      obtain rfl : c = first := Option.some.inj hHead
      cases hSpace : isSpace c with
      | true =>
          simp only [isSpace, Bool.or_eq_true,
            decide_eq_true_eq] at hSpace
          rcases hSpace with ((rfl | rfl) | rfl) | rfl <;>
            decide
      | false =>
          unfold Ends at hEnds
          rw [skipSpace_cons hSpace] at hEnds
          rcases hEnds c rfl with rfl | rfl | rfl <;> decide

/- Digits of a number do not begin with a zero too much. -/
theorem head_toDigits
    (n : Nat) :
    (Nat.toDigits 10 n).head? ≠ some '0' ∨
      Nat.toDigits 10 n = ['0'] := by
  induction n using Nat.strongRecOn with
  | ind n ih =>
      by_cases hSmall : n < 10
      · rw [Nat.toDigits_of_lt_base hSmall]
        have hAll :
            ∀ k < 10,
              [Nat.digitChar k].head? ≠ some '0' ∨
                [Nat.digitChar k] = ['0'] := by
          decide
        exact hAll n hSmall
      · rw [Nat.toDigits_of_base_le (by omega) (by omega)]
        left
        have hBefore :
            (Nat.toDigits 10 (n / 10)).head? ≠ some '0' := by
          rcases ih (n / 10) (by omega) with hHead | hZero
          · exact hHead
          · exfalso
            have hValue :
                Nat.ofDigitChars 10
                    (Nat.toDigits 10 (n / 10)) 0 =
                  n / 10 := Nat.ofDigitChars_ten_toDigits
            rw [hZero] at hValue
            simp [Nat.ofDigitChars_cons] at hValue
            omega
        cases hDigits : Nat.toDigits 10 (n / 10) with
        | nil => exact absurd hDigits Nat.toDigits_ne_nil
        | cons digit digits =>
            rw [hDigits] at hBefore
            simpa using hBefore

theorem readNat_toDigits
    (n : Nat)
    {rest : List Char}
    (hEnds : Ends rest) :
    readNat (Nat.toDigits 10 n ++ rest) = some (n, rest) := by
  have hDigits : ∀ c ∈ Nat.toDigits 10 n, c.isDigit = true :=
    fun c hMember =>
      Nat.isDigit_of_mem_toDigits (by omega) (by omega)
        hMember
  have hNoDigit := hEnds.no_digit
  have hTake : rest.takeWhile Char.isDigit = [] := by
    cases rest with
    | nil => rfl
    | cons c rest =>
        exact List.takeWhile_cons_of_neg (hNoDigit c rfl).1
  have hDrop : rest.dropWhile Char.isDigit = rest := by
    cases rest with
    | nil => rfl
    | cons c rest =>
        exact List.dropWhile_cons_of_neg (hNoDigit c rfl).1
  have hHead :
      rest.head? ∉ [some '.', some 'e', some 'E'] := by
    intro hMember
    cases rest with
    | nil => simp at hMember
    | cons c rest =>
        have hOther := hNoDigit c rfl
        simp [hOther] at hMember
  unfold readNat
  rw [List.takeWhile_append_of_pos hDigits,
    List.dropWhile_append_of_pos hDigits, hTake, hDrop,
    List.append_nil]
  simp only
  rw [if_neg]
  · simp
  · rintro (hNil | ⟨hZero, hMore⟩ | hPoint)
    · exact Nat.toDigits_ne_nil hNil
    · rcases head_toDigits n with hFirst | hOnly
      · exact hFirst hZero
      · exact hMore hOnly
    · exact hHead hPoint

theorem readInt_renderInt
    (value : Int)
    {rest : List Char}
    (hEnds : Ends rest) :
    readInt (renderInt value ++ rest) =
      some (value, rest) := by
  cases value with
  | ofNat n =>
      have hHead :
          (Nat.toDigits 10 n ++ rest).head? ≠ some '-' := by
        cases hDigits : Nat.toDigits 10 n with
        | nil => exact absurd hDigits Nat.toDigits_ne_nil
        | cons digit digits =>
            have hDigit : digit.isDigit = true := by
              apply
                Nat.isDigit_of_mem_toDigits
                  (b := 10) (n := n) (by omega) (by omega)
              rw [hDigits]
              exact List.mem_cons_self
            rintro hMinus
            simp at hMinus
            rw [hMinus] at hDigit
            exact absurd hDigit (by decide)
      rw [renderInt, readInt, if_neg hHead,
        readNat_toDigits n hEnds]
      rfl
  | negSucc n =>
      have hRead := readNat_toDigits (n + 1) hEnds
      simp [renderInt, readInt, hRead, Int.negSucc_eq]

end Json

end Foundation
