import Databasus.Foundation.Scanning
import Databasus.Walmath.CanonicalNames

/-
  The text of a position: two numbers joined by a slash.

  The reader scans two hexadecimal verbs.  It takes spaces
  before either number, any number of leading zeros, and any
  text after the second number.

  Main declarations:
    * `LSN.toText`
    * `parseLSN`
    * `IsScannedAs`, `parseLSN_eq_ok_iff`
    * `IsLSNText`, `IsPlain`
-/

------------------------------------------------------------
-- Writing and Reading
------------------------------------------------------------

namespace Databasus

namespace Walmath

open Foundation.Scanning

structure LSNError where
  text : String
  cause : ScanError
deriving DecidableEq, Repr

def hexText (n : Nat) : List Char :=
  (Nat.toDigits 16 n).map Char.toUpper

/- The high and the low half, without leading zeros. -/
def LSN.toText (lsn : LSN) : String :=
  String.ofList
    (hexText (lsn / 2 ^ 32 % 2 ^ 32) ++
      '/' :: hexText (lsn % 2 ^ 32))

def isHexDigit (c : Char) : Bool :=
  (hexDigit c).isSome

/- A verb `%X` into a 32-bit number. -/
def scanUint32
    (input : List Char) :
    Except ScanError (Nat × List Char) :=
  match scanToken isHexDigit input with
  | .error error => .error error
  | .ok (token, rest) =>
      match parseHex token with
      | none => .error .expectedInteger
      | some value =>
          if 2 ^ 64 ≤ value then
            .error .valueOutOfRange
          else if 2 ^ 32 ≤ value then
            .error .integerOverflow
          else
            .ok (value, rest)

/- The format `%X/%X`. -/
def scanLSN
    (input : List Char) : Except ScanError (Nat × Nat) :=
  match scanUint32 input with
  | .error error => .error error
  | .ok (hi, input) =>
      match scanLiteral '/' input with
      | .error error => .error error
      | .ok input =>
          match scanUint32 input with
          | .error error => .error error
          | .ok (lo, _) => .ok (hi, lo)

/- The halves do not overlap: their union is a sum. -/
def parseLSN
    (s : String) : Except LSNError LSN :=
  match scanLSN s.toList with
  | .error error => .error { text := s, cause := error }
  | .ok (hi, lo) => .ok (hi * 2 ^ 32 + lo)

------------------------------------------------------------
-- What is Accepted
------------------------------------------------------------

variable {token : List Char}

/- A number of any digits that fits 32 bits. -/
def IsNumber
    (token : List Char)
    (value : Nat) : Prop :=
  parseHex token = some value ∧ value < 2 ^ 32

/- The parts of a text that are skipped, read and left over. -/
structure IsScannedAs
    (text lead high gap low rest : List Char)
    (hi lo : Nat) : Prop where
  text_eq :
    text = lead ++ (high ++ '/' :: (gap ++ (low ++ rest)))
  lead_skipped : ∀ c ∈ lead, IsSkipped c
  gap_skipped : ∀ c ∈ gap, IsSkipped c
  high_read : IsNumber high hi
  low_read : IsNumber low lo
  ends : Ends isHexDigit rest

theorem isHexDigit_iff
    (c : Char) :
    isHexDigit c = true ↔ ∃ value, hexDigit c = some value := by
  unfold isHexDigit
  rw [Option.isSome_iff_exists]

/- A digit is no space. -/
theorem isSpace_of_isHexDigit
    (c : Char)
    (hDigit : isHexDigit c = true) :
    isSpace c = false := by
  rcases (isHexDigit_iff c).mp hDigit with ⟨value, hValue⟩
  have hEach :
      ∀ n < 128,
        isHexDigit (Char.ofNat n) = true →
          isSpace (Char.ofNat n) = false := by
    decide
  have hSame := hEach c.toNat (toNat_lt_of_hexDigit hValue)
  rw [Char.ofNat_toNat] at hSame
  exact hSame hDigit

theorem isHexDigit_of_parseHexFrom
    {start value : Nat}
    (hRead : parseHexFrom start token = some value) :
    ∀ c ∈ token, isHexDigit c = true := by
  induction token generalizing start with
  | nil =>
      intro c hMember
      exact absurd hMember List.not_mem_nil
  | cons first token ih =>
      rcases parseHexFrom_cons hRead with
        ⟨digit, hDigit, hRest⟩
      exact
        List.forall_mem_cons.mpr
          ⟨(isHexDigit_iff first).mpr ⟨digit, hDigit⟩,
            ih hRest⟩

theorem parseHex_ne_nil
    {value : Nat}
    (hRead : parseHex token = some value) :
    token ≠ [] := by
  rintro rfl
  cases hRead

theorem parseHex_of_ne_nil
    (hToken : token ≠ []) :
    parseHex token = parseHexFrom 0 token := by
  unfold parseHex
  split
  · exact absurd rfl hToken
  · rfl

/- A verb reads a number that stands behind spaces. -/
theorem scanUint32_eq_ok_iff
    (input rest : List Char)
    (value : Nat) :
    scanUint32 input = .ok (value, rest) ↔
      ∃ lead token,
        input = lead ++ (token ++ rest) ∧
          (∀ c ∈ lead, IsSkipped c) ∧
          IsNumber token value ∧ Ends isHexDigit rest := by
  constructor
  · intro hScan
    unfold scanUint32 at hScan
    split at hScan
    · cases hScan
    · next token after hToken =>
        rcases
          (scanToken_eq_ok_iff isSpace_of_isHexDigit _ _
                _).mp
            hToken with
          ⟨_, _, hEnds, lead, hInput, hLead⟩
        split at hScan
        · cases hScan
        · next read hRead =>
            split at hScan
            · cases hScan
            · split at hScan
              · cases hScan
              · next hFits =>
                  cases hScan
                  exact
                    ⟨lead, token, hInput, hLead,
                      ⟨hRead, Nat.lt_of_not_le hFits⟩,
                      hEnds⟩
  · rintro ⟨lead, token, hInput, hLead, ⟨hRead, hFits⟩, hEnds⟩
    have hToken :
        scanToken isHexDigit input = .ok (token, rest) :=
      (scanToken_eq_ok_iff isSpace_of_isHexDigit _ _ _).mpr
        ⟨parseHex_ne_nil hRead,
          isHexDigit_of_parseHexFrom (parseHex_some hRead),
          hEnds, lead, hInput, hLead⟩
    have hWide : ¬ 2 ^ 64 ≤ value := by omega
    unfold scanUint32
    rw [hToken]
    simp only
    rw [hRead]
    simp only
    rw [if_neg hWide, if_neg (Nat.not_le.mpr hFits)]

theorem scanLiteral_eq_ok_iff
    (literal : Char)
    (input rest : List Char) :
    scanLiteral literal input = .ok rest ↔
      input = literal :: rest := by
  unfold scanLiteral
  split
  · constructor
    · intro hScan
      cases hScan
    · intro hInput
      cases hInput
  · next c after =>
      split
      · next hSame =>
          subst hSame
          simp only [Except.ok.injEq, List.cons.injEq,
            true_and]
      · next hOther =>
          constructor
          · intro hScan
            cases hScan
          · intro hInput
            exact absurd (List.cons.inj hInput).1 hOther

theorem scanLSN_eq_ok_iff
    (input : List Char)
    (hi lo : Nat) :
    scanLSN input = .ok (hi, lo) ↔
      ∃ middle rest,
        scanUint32 input = .ok (hi, '/' :: middle) ∧
          scanUint32 middle = .ok (lo, rest) := by
  constructor
  · intro hScan
    unfold scanLSN at hScan
    split at hScan
    · cases hScan
    · next high after hHigh =>
        split at hScan
        · cases hScan
        · next middle hLiteral =>
            rw [scanLiteral_eq_ok_iff] at hLiteral
            subst hLiteral
            split at hScan
            · cases hScan
            · next low rest hLow =>
                cases hScan
                exact ⟨middle, rest, hHigh, hLow⟩
  · rintro ⟨middle, rest, hHigh, hLow⟩
    have hLiteral :
        scanLiteral '/' ('/' :: middle) = .ok middle :=
      (scanLiteral_eq_ok_iff _ _ _).mpr rfl
    unfold scanLSN
    rw [hHigh]
    simp only
    rw [hLiteral]
    simp only
    rw [hLow]

theorem ends_slash
    (rest : List Char) :
    Ends isHexDigit ('/' :: rest) := by
  intro c hHead
  cases hHead
  decide

/- The texts that are accepted, and what they are read as. -/
theorem parseLSN_eq_ok_iff
    (s : String)
    (lsn : LSN) :
    parseLSN s = .ok lsn ↔
      ∃ lead high gap low rest hi lo,
        IsScannedAs s.toList lead high gap low rest hi lo ∧
          lsn = hi * 2 ^ 32 + lo := by
  constructor
  · intro hParse
    unfold parseLSN at hParse
    split at hParse
    · cases hParse
    · next hi lo hScan =>
        cases hParse
        rcases (scanLSN_eq_ok_iff _ _ _).mp hScan with
          ⟨middle, rest, hHigh, hLow⟩
        rcases (scanUint32_eq_ok_iff _ _ _).mp hHigh with
          ⟨lead, high, hText, hLead, hHighRead, _⟩
        rcases (scanUint32_eq_ok_iff _ _ _).mp hLow with
          ⟨gap, low, rfl, hGap, hLowRead, hEnds⟩
        exact
          ⟨lead, high, gap, low, rest, hi, lo,
            ⟨hText, hLead, hGap, hHighRead, hLowRead, hEnds⟩,
            rfl⟩
  · rintro ⟨lead, high, gap, low, rest, hi, lo, hParts, rfl⟩
    have hHigh :=
      (scanUint32_eq_ok_iff s.toList
            ('/' :: (gap ++ (low ++ rest))) hi).mpr
        ⟨lead, high, hParts.text_eq, hParts.lead_skipped,
          hParts.high_read, ends_slash _⟩
    have hLow :=
      (scanUint32_eq_ok_iff (gap ++ (low ++ rest)) rest
            lo).mpr
        ⟨gap, low, rfl, hParts.gap_skipped, hParts.low_read,
          hParts.ends⟩
    have hScan :=
      (scanLSN_eq_ok_iff s.toList hi lo).mpr
        ⟨_, rest, hHigh, hLow⟩
    unfold parseLSN
    rw [hScan]

/- A text has one lead and one number after it. -/
theorem token_unique
    {input : List Char}
    {lead token rest otherLead otherToken otherRest :
      List Char}
    {value otherValue : Nat}
    (hInput : input = lead ++ (token ++ rest))
    (hLead : ∀ c ∈ lead, IsSkipped c)
    (hRead : IsNumber token value)
    (hEnds : Ends isHexDigit rest)
    (hOtherInput :
      input = otherLead ++ (otherToken ++ otherRest))
    (hOtherLead : ∀ c ∈ otherLead, IsSkipped c)
    (hOtherRead : IsNumber otherToken otherValue)
    (hOtherEnds : Ends isHexDigit otherRest) :
    lead = otherLead ∧ token = otherToken ∧
      rest = otherRest := by
  have hFirst :
      scanToken isHexDigit input = .ok (token, rest) :=
    (scanToken_eq_ok_iff isSpace_of_isHexDigit _ _ _).mpr
      ⟨parseHex_ne_nil hRead.1,
        isHexDigit_of_parseHexFrom (parseHex_some hRead.1),
        hEnds, lead, hInput, hLead⟩
  have hSecond :
      scanToken isHexDigit input =
        .ok (otherToken, otherRest) :=
    (scanToken_eq_ok_iff isSpace_of_isHexDigit _ _ _).mpr
      ⟨parseHex_ne_nil hOtherRead.1,
        isHexDigit_of_parseHexFrom
          (parseHex_some hOtherRead.1),
        hOtherEnds, otherLead, hOtherInput, hOtherLead⟩
  rw [hFirst] at hSecond
  cases hSecond
  rw [hInput] at hOtherInput
  exact ⟨List.append_cancel_right hOtherInput, rfl, rfl⟩

------------------------------------------------------------
-- Well-Formed Texts
------------------------------------------------------------

/- One to eight digits, and the number that they write. -/
def IsField
    (field : List Char)
    (value : Nat) : Prop :=
  field.length ≤ 8 ∧ parseHex field = some value

/- Two fields and the slash between them, and nothing else. -/
def IsLSNText
    (s : String)
    (hi lo : Nat) : Prop :=
  ∃ high low,
    s.toList = high ++ '/' :: low ∧
      IsField high hi ∧ IsField low lo

/- The text is accepted if well formed, and read as it says. -/
def ReadsExactly (s : String) : Prop :=
  ∀ lsn,
    parseLSN s = .ok lsn ↔
      ∃ hi lo, IsLSNText s hi lo ∧ lsn = hi * 2 ^ 32 + lo

/-
  No spaces, no number of more than eight digits, and no text
  after the numbers, wherever the text can be scanned.
-/
def IsPlain (s : String) : Prop :=
  ∀ lead high gap low rest hi lo,
    IsScannedAs s.toList lead high gap low rest hi lo →
      lead = [] ∧ gap = [] ∧ rest = [] ∧
        high.length ≤ 8 ∧ low.length ≤ 8

theorem IsField.isNumber
    {field : List Char}
    {value : Nat}
    (hField : IsField field value) :
    IsNumber field value := by
  refine ⟨hField.2, ?_⟩
  have hBound := parseHexFrom_lt (parseHex_some hField.2)
  calc
    value
      < (0 + 1) * 16 ^ field.length := hBound
    _ ≤ (0 + 1) * 16 ^ 8 :=
      Nat.mul_le_mul_left _
        (Nat.pow_le_pow_right (by decide) hField.1)

/- A well-formed text is scanned as its two fields. -/
theorem isScannedAs_of_fields
    {s : String}
    {high low : List Char}
    {hi lo : Nat}
    (hText : s.toList = high ++ '/' :: low)
    (hHigh : IsField high hi)
    (hLow : IsField low lo) :
    IsScannedAs s.toList [] high [] low [] hi lo := by
  have hNone : ∀ c ∈ ([] : List Char), IsSkipped c :=
    fun _ hMember => absurd hMember List.not_mem_nil
  refine
    { text_eq := ?_
      lead_skipped := hNone
      gap_skipped := hNone
      high_read := hHigh.isNumber
      low_read := hLow.isNumber
      ends := ?_ }
  · rw [hText, List.nil_append, List.nil_append,
      List.append_nil]
  · intro c hHead
    cases hHead

theorem readsExactly_iff_isPlain
    (s : String) :
    ReadsExactly s ↔ IsPlain s := by
  constructor
  · intro hExact lead high gap low rest hi lo hParts
    have hParse :=
      (parseLSN_eq_ok_iff s (hi * 2 ^ 32 + lo)).mpr
        ⟨lead, high, gap, low, rest, hi, lo, hParts, rfl⟩
    rcases (hExact _).mp hParse with
      ⟨fieldHi, fieldLo, ⟨first, second, hText, hFirst,
        hSecond⟩, _⟩
    have hStrict := isScannedAs_of_fields hText hFirst hSecond
    rcases
      token_unique hParts.text_eq hParts.lead_skipped
        hParts.high_read (ends_slash _) hStrict.text_eq
        hStrict.lead_skipped hStrict.high_read
        (ends_slash _) with
      ⟨hLead, hHigh, hTail⟩
    rcases
      token_unique rfl hParts.gap_skipped hParts.low_read
        hParts.ends (List.cons.inj hTail).2
        hStrict.gap_skipped hStrict.low_read hStrict.ends with
      ⟨hGap, hLow, hRest⟩
    rw [hHigh, hLow]
    exact ⟨hLead, hGap, hRest, hFirst.1, hSecond.1⟩
  · intro hPlain lsn
    rw [parseLSN_eq_ok_iff]
    constructor
    · rintro ⟨lead, high, gap, low, rest, hi, lo, hParts, rfl⟩
      rcases hPlain _ _ _ _ _ _ _ hParts with
        ⟨rfl, rfl, rfl, hHighLength, hLowLength⟩
      refine
        ⟨hi, lo, ⟨high, low, ?_, ⟨hHighLength, ?_⟩,
          ⟨hLowLength, ?_⟩⟩, rfl⟩
      · rw [hParts.text_eq, List.nil_append, List.nil_append,
          List.append_nil]
      · exact hParts.high_read.1
      · exact hParts.low_read.1
    · rintro ⟨hi, lo, ⟨high, low, hText, hHigh, hLow⟩, rfl⟩
      exact
        ⟨[], high, [], low, [], hi, lo,
          isScannedAs_of_fields hText hHigh hLow, rfl⟩

/- A number of 32 bits is written in one to eight digits. -/
theorem isField_hexText
    {n : Nat}
    (hBound : n < 2 ^ 32) :
    IsField (hexText n) n := by
  have hLength : (hexText n).length ≤ 8 := by
    unfold hexText
    rw [List.length_map,
      Nat.length_toDigits_le_iff (by decide) (by decide)]
    exact hBound
  refine ⟨hLength, ?_⟩
  have hRead := parseHexFrom_toDigits n 0
  rw [Nat.zero_mul, Nat.zero_add] at hRead
  rw [parseHex_of_ne_nil]
  · exact hRead
  · unfold hexText
    rw [Ne, List.map_eq_nil_iff]
    exact Nat.toDigits_ne_nil

theorem parseLSN_toText
    {lsn : Nat}
    (hBound : lsn ≤ LSN.max) :
    parseLSN (LSN.toText lsn) = .ok lsn := by
  have hWide : lsn < 2 ^ 64 :=
    Nat.lt_of_le_pred (by decide) hBound
  have hHigh : lsn / 2 ^ 32 % 2 ^ 32 = lsn / 2 ^ 32 := by
    omega
  have hScanned :=
    isScannedAs_of_fields
      (String.toList_ofList :
        (LSN.toText lsn).toList = _)
      (isField_hexText (Nat.mod_lt _ (by decide)))
      (isField_hexText (Nat.mod_lt _ (by decide)))
  refine
    (parseLSN_eq_ok_iff _ _).mpr
      ⟨_, _, _, _, _, _, _, hScanned, ?_⟩
  rw [hHigh, Nat.div_add_mod']

/-
  A text is accepted as it should be when it is plain, and the
  text of a position is read as that position.
-/
theorem positions_are_read_from_plain_texts
    (s : String) :
    (ReadsExactly s ↔ IsPlain s) ∧
      ∀ lsn, lsn ≤ LSN.max →
        parseLSN (LSN.toText lsn) = .ok lsn :=
  ⟨readsExactly_iff_isPlain s,
    fun _ hBound => parseLSN_toText hBound⟩

/- Text after the second number is not looked at. -/
theorem trailing_text_is_accepted :
    parseLSN "0/1x" = .ok 1 ∧
      (¬ ∃ hi lo, IsLSNText "0/1x" hi lo) ∧
      ¬ ReadsExactly "0/1x" := by
  have hParse : parseLSN "0/1x" = .ok 1 := by
    decide +kernel
  have hMalformed : ¬ ∃ hi lo, IsLSNText "0/1x" hi lo := by
    rintro ⟨hi, lo, high, low, hText, hHigh, hLow⟩
    have hMember : 'x' ∈ high ++ '/' :: low := by
      rw [← hText]
      decide
    have hNoDigit : ¬ isHexDigit 'x' = true := by decide
    rcases List.mem_append.mp hMember with hFirst | hTail
    · exact
        hNoDigit
          (isHexDigit_of_parseHexFrom
            (parseHex_some hHigh.2) 'x' hFirst)
    · rcases List.mem_cons.mp hTail with hSlash | hSecond
      · exact absurd hSlash (by decide)
      · exact
          hNoDigit
            (isHexDigit_of_parseHexFrom
              (parseHex_some hLow.2) 'x' hSecond)
  refine ⟨hParse, hMalformed, ?_⟩
  intro hExact
  rcases (hExact 1).mp hParse with ⟨hi, lo, hText, _⟩
  exact hMalformed ⟨hi, lo, hText⟩

example :
    (parseLSN "  00000000002/ A, and more").toOption =
      some (2 * 2 ^ 32 + 10) := by
  decide +kernel

end Walmath

end Databasus
