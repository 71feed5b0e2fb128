import Mathlib.Tactic.Ring
import Databasus.Walmath.WalFilename

/-
  Numbers of segments and the files that are named by them.

  The name of a segment writes its log and its number within
  the log; how many segments a log has depends on their size.
  A name is read back with the size that it was written with,
  and with another one only when that gives the log as many
  segments as the number asks for.

  Main declarations:
    * `getFilename`
    * `isWalFilename`
    * `parseHex_hexField`
    * `parseWALFilename_getFilename`
    * `isWalFilename_getFilename_iff`
-/

------------------------------------------------------------
-- Segment Numbers
------------------------------------------------------------

namespace Databasus

namespace Walmath

def defaultSegmentSizeBytes : Nat := 16 * 1024 * 1024

/- The number of the segment that a position lies in. -/
def newWalSegmentNo
    (lsn : LSN)
    (segmentSizeBytes : Nat) : Nat :=
  lsn / segmentSizeBytes

/- The first position of a segment, a 64-bit product. -/
def firstLSN
    (walSegmentNo segmentSizeBytes : Nat) : LSN :=
  walSegmentNo * segmentSizeBytes % 2 ^ 64

/- A number in upper case, padded to eight digits. -/
def hexField
    (n : Nat) : List Char :=
  let digits := (Nat.toDigits 16 n).map Char.toUpper
  List.replicate (8 - digits.length) '0' ++ digits

def getFilename
    (walSegmentNo timeline segmentSizeBytes : Nat) :
    String :=
  let segmentsPerLogID := 2 ^ 32 / segmentSizeBytes
  String.ofList
    (hexField timeline ++
      hexField (walSegmentNo / segmentsPerLogID) ++
      hexField (walSegmentNo % segmentsPerLogID))

def isWalFilename
    (filename : String)
    (segmentSize : Nat) : Bool :=
  match parseWALFilename filename segmentSize with
  | .error _ => false
  | .ok _ => true

------------------------------------------------------------
-- Fields that are Read Back
------------------------------------------------------------

variable {n : Nat}

/- A digit is one character, and stands for its value. -/
theorem hexDigit_digitChar
    (d : Nat)
    (hDigit : d < 16) :
    hexDigit (Nat.digitChar d).toUpper = some d ∧
      (Nat.digitChar d).toUpper.utf8Size = 1 := by
  revert d
  decide

/- The digits before and those after are read in turn. -/
theorem parseHexFrom_append
    {first : List Char}
    {start value : Nat}
    (second : List Char)
    (hFirst : parseHexFrom start first = some value) :
    parseHexFrom start (first ++ second) =
      parseHexFrom value second := by
  induction first generalizing start with
  | nil =>
      cases hFirst
      rfl
  | cons c rest ih =>
      cases hDigit : hexDigit c with
      | none => simp [parseHexFrom, hDigit] at hFirst
      | some digit =>
          simp only [List.cons_append, parseHexFrom,
            hDigit] at hFirst ⊢
          exact ih hFirst

/- Zeros in front move the value up by their number. -/
theorem parseHexFrom_zeros
    (count start : Nat) :
    parseHexFrom start (List.replicate count '0') =
      some (start * 16 ^ count) := by
  induction count generalizing start with
  | zero =>
      rw [Nat.pow_zero, Nat.mul_one]
      rfl
  | succ count ih =>
      have hZero : hexDigit '0' = some 0 := by decide
      simp only [List.replicate_succ, parseHexFrom, hZero]
      rw [ih, Nat.pow_succ]
      congr 1
      ring

/- The digits of a number are read as the number. -/
theorem parseHexFrom_toDigits
    (n start : Nat) :
    parseHexFrom start
        ((Nat.toDigits 16 n).map Char.toUpper) =
      some
        (start * 16 ^ (Nat.toDigits 16 n).length + n) := by
  induction n using Nat.strongRecOn generalizing start with
  | _ n ih =>
      by_cases hSmall : n < 16
      · rw [Nat.toDigits_of_lt_base hSmall]
        simp only [List.map_cons, List.map_nil, parseHexFrom,
          (hexDigit_digitChar n hSmall).1,
          List.length_singleton, Nat.pow_one]
      · have hLast : n % 16 < 16 := Nat.mod_lt _ (by decide)
        have hPrefix := ih (n / 16) (by omega) start
        rw [Nat.toDigits_of_base_le (by decide)
          (Nat.le_of_not_lt hSmall), List.map_append,
          parseHexFrom_append _ hPrefix]
        simp only [List.map_cons, List.map_nil, parseHexFrom,
          (hexDigit_digitChar _ hLast).1,
          List.length_append, List.length_singleton]
        congr 1
        have hDivision := Nat.div_add_mod n 16
        rw [Nat.pow_succ]
        calc
          (start * 16 ^ (Nat.toDigits 16 (n / 16)).length +
                n / 16) * 16 + n % 16 =
              start *
                  (16 ^ (Nat.toDigits 16 (n / 16)).length *
                    16) +
                (16 * (n / 16) + n % 16) := by ring
          _ = _ := by rw [hDivision]

/- A number of 32 bits has a field of eight characters. -/
theorem length_hexField
    (hBound : n < 2 ^ 32) :
    (hexField n).length = 8 := by
  have hDigits : (Nat.toDigits 16 n).length ≤ 8 := by
    rw [Nat.length_toDigits_le_iff (by decide) (by decide)]
    exact hBound
  simp only [hexField, List.length_append,
    List.length_replicate, List.length_map]
  omega

theorem parseHexFrom_hexField
    (hBound : n < 2 ^ 32)
    (start : Nat) :
    parseHexFrom start (hexField n) =
      some (start * 2 ^ 32 + n) := by
  have hDigits : (16 : Nat) ^ 8 = 2 ^ 32 := by decide
  have hLength := length_hexField hBound
  simp only [hexField, List.length_append,
    List.length_replicate, List.length_map] at hLength
  unfold hexField
  rw [parseHexFrom_append _ (parseHexFrom_zeros _ _),
    parseHexFrom_toDigits, List.length_map, Nat.mul_assoc,
    ← Nat.pow_add, hLength, hDigits]

/- Every character of a field takes one byte. -/
theorem utf8Size_of_mem_hexField
    {c : Char}
    (hMember : c ∈ hexField n) :
    c.utf8Size = 1 := by
  rcases List.mem_append.mp hMember with hZero | hDigit
  · rw [(List.mem_replicate.mp hZero).2]
    decide
  · rcases List.mem_map.mp hDigit with ⟨digit, hMem, rfl⟩
    clear hMember hDigit
    induction n using Nat.strongRecOn with
    | _ n ih =>
        by_cases hSmall : n < 16
        · rw [Nat.toDigits_of_lt_base hSmall] at hMem
          rw [List.mem_singleton.mp hMem]
          exact (hexDigit_digitChar n hSmall).2
        · rw [Nat.toDigits_of_base_le (by decide)
            (Nat.le_of_not_lt hSmall)] at hMem
          rcases List.mem_append.mp hMem with hOld | hLast
          · exact ih (n / 16) (by omega) hOld
          · rw [List.mem_singleton.mp hLast]
            exact
              (hexDigit_digitChar _
                (Nat.mod_lt _ (by decide))).2

/- A text of one-byte characters is as long as it has them. -/
theorem utf8ByteSize_ofList
    {characters : List Char}
    (hOne : ∀ c ∈ characters, c.utf8Size = 1) :
    (String.ofList characters).utf8ByteSize =
      characters.length := by
  induction characters with
  | nil => rfl
  | cons c rest ih =>
      have hRest :=
        ih fun d hMember =>
          hOne d (List.mem_cons_of_mem c hMember)
      rw [← String.size_toByteArray,
        String.toByteArray_ofList] at hRest ⊢
      rw [List.utf8Encode_cons, ByteArray.size_append, hRest,
        List.utf8Encode_singleton, List.size_toByteArray,
        String.length_utf8EncodeChar,
        hOne c List.mem_cons_self, List.length_cons]
      omega

------------------------------------------------------------
-- Names that are Read Back
------------------------------------------------------------

variable {walSegmentNo timelineID segmentSize : Nat}
variable {otherSize : Nat}

/- Only a size that divides a log of 4 GiB reads a name. -/
theorem dvd_of_parseWALFilename
    {name : String}
    {fields : Nat × Nat}
    (hRead :
      parseWALFilename name segmentSize = .ok fields) :
    0 < segmentSize ∧ segmentSize ∣ 2 ^ 32 := by
  unfold parseWALFilename at hRead
  split at hRead
  · cases hRead
  · split at hRead
    · cases hRead
    · next hSize =>
        push Not at hSize
        exact
          ⟨Nat.pos_of_ne_zero hSize.1,
            Nat.dvd_of_mod_eq_zero hSize.2⟩

/- Three fields of eight characters are read as two numbers. -/
theorem parseWalSegmentFields_fields
    {logID segmentOfLog : Nat}
    (hTimeline : timelineID < 2 ^ 32)
    (hLog : logID < 2 ^ 32)
    (hSegment : segmentOfLog < 2 ^ 32) :
    parseWalSegmentFields
        (String.ofList
          (hexField timelineID ++ hexField logID ++
            hexField segmentOfLog)) =
      .ok (timelineID, logID * 2 ^ 32 + segmentOfLog) := by
  have hFirst := length_hexField hTimeline
  have hSecond := length_hexField hLog
  have hThird := length_hexField hSegment
  have hSize :
      (String.ofList
          (hexField timelineID ++ hexField logID ++
            hexField segmentOfLog)).utf8ByteSize =
        walSegmentFilenameLength := by
    rw [utf8ByteSize_ofList]
    · simp only [List.length_append, hFirst, hSecond, hThird]
      rfl
    · intro c hMember
      rcases List.mem_append.mp hMember with hLeft | hRight
      · rcases List.mem_append.mp hLeft with hOne | hTwo
        · exact utf8Size_of_mem_hexField hOne
        · exact utf8Size_of_mem_hexField hTwo
      · exact utf8Size_of_mem_hexField hRight
  have hHead :
      parseHex (hexField timelineID) = some timelineID := by
    have hRead := parseHexFrom_hexField hTimeline 0
    rw [Nat.zero_mul, Nat.zero_add] at hRead
    unfold parseHex
    split
    · next hNil =>
        rw [hNil] at hFirst
        cases hFirst
    · exact hRead
  have hTail :
      parseHex (hexField logID ++ hexField segmentOfLog) =
        some (logID * 2 ^ 32 + segmentOfLog) := by
    have hRead :=
      parseHexFrom_append (hexField segmentOfLog)
        (parseHexFrom_hexField hLog 0)
    rw [Nat.zero_mul, Nat.zero_add,
      parseHexFrom_hexField hSegment] at hRead
    unfold parseHex
    split
    · next hNil =>
        have hEmpty := congrArg List.length hNil
        rw [List.length_append, hSecond, hThird] at hEmpty
        cases hEmpty
    · exact hRead
  unfold parseWalSegmentFields
  rw [if_neg (not_not.mpr hSize), String.toList_ofList,
    List.append_assoc, List.take_left' hFirst,
    List.drop_left' hFirst, hHead, hTail]

theorem parseWalSegmentFields_getFilename
    (hDivides : segmentSize ∣ 2 ^ 32)
    (hTimeline : timelineID < 2 ^ 32)
    (hNumber : walSegmentNo * segmentSize < 2 ^ 64) :
    parseWalSegmentFields
        (getFilename walSegmentNo timelineID segmentSize) =
      .ok
        (timelineID,
          walSegmentNo / (2 ^ 32 / segmentSize) * 2 ^ 32 +
            walSegmentNo % (2 ^ 32 / segmentSize)) := by
  have hPositive : 0 < segmentSize :=
    Nat.pos_of_dvd_of_pos hDivides (by decide)
  have hProduct :
      2 ^ 32 / segmentSize * segmentSize = 2 ^ 32 :=
    Nat.div_mul_cancel hDivides
  have hCount : 0 < 2 ^ 32 / segmentSize := by
    by_contra hNone
    rw [Nat.eq_zero_of_not_pos hNone, Nat.zero_mul]
      at hProduct
    cases hProduct
  apply parseWalSegmentFields_fields hTimeline
  · rw [Nat.div_lt_iff_lt_mul hCount]
    apply Nat.lt_of_mul_lt_mul_right (a := segmentSize)
    rw [Nat.mul_assoc, hProduct]
    exact hNumber
  · exact
      Nat.lt_of_lt_of_le (Nat.mod_lt _ hCount)
        (Nat.div_le_self _ _)

/- A name is accepted by a size that has enough segments. -/
theorem parseWALFilename_getFilename_of_lt
    (hDivides : segmentSize ∣ 2 ^ 32)
    (hOther : otherSize ∣ 2 ^ 32)
    (hTimeline : timelineID < 2 ^ 32)
    (hNumber : walSegmentNo * segmentSize < 2 ^ 64) :
    parseWALFilename
        (getFilename walSegmentNo timelineID segmentSize)
        otherSize =
      if walSegmentNo % (2 ^ 32 / segmentSize) <
          2 ^ 32 / otherSize then
        .ok
          (timelineID,
            walSegmentNo / (2 ^ 32 / segmentSize) *
                (2 ^ 32 / otherSize) +
              walSegmentNo % (2 ^ 32 / segmentSize))
      else
        .error
          (.incorrectLogSegNo
            (getFilename walSegmentNo timelineID
              segmentSize)) := by
  have hPositive : otherSize ≠ 0 :=
    (Nat.pos_of_dvd_of_pos hOther (by decide)).ne'
  have hWhole : 2 ^ 32 % otherSize = 0 :=
    Nat.mod_eq_zero_of_dvd hOther
  have hLow :
      walSegmentNo % (2 ^ 32 / segmentSize) < 2 ^ 32 := by
    have hCount : 0 < 2 ^ 32 / segmentSize :=
      Nat.div_pos (Nat.le_of_dvd (by decide) hDivides)
        (Nat.pos_of_dvd_of_pos hDivides (by decide))
    exact
      Nat.lt_of_lt_of_le (Nat.mod_lt _ hCount)
        (Nat.div_le_self _ _)
  unfold parseWALFilename
  rw [parseWalSegmentFields_getFilename hDivides hTimeline
    hNumber]
  simp only [hPositive, hWhole, ne_eq, not_true_eq_false,
    or_self, if_false]
  generalize walSegmentNo % (2 ^ 32 / segmentSize) = low
    at hLow ⊢
  generalize walSegmentNo / (2 ^ 32 / segmentSize) = high
  have hHigh : (high * 2 ^ 32 + low) / 2 ^ 32 = high := by
    omega
  rw [Nat.mul_add_mod_of_lt hLow, hHigh]
  by_cases hEnough : low < 2 ^ 32 / otherSize
  · rw [if_neg (Nat.not_le_of_lt hEnough), if_pos hEnough]
  · rw [if_pos (Nat.le_of_not_lt hEnough), if_neg hEnough]

/- A name is read back with the size that it was made with. -/
theorem parseWALFilename_getFilename
    (hDivides : segmentSize ∣ 2 ^ 32)
    (hTimeline : timelineID < 2 ^ 32)
    (hNumber : walSegmentNo * segmentSize < 2 ^ 64) :
    parseWALFilename
        (getFilename walSegmentNo timelineID segmentSize)
        segmentSize =
      .ok (timelineID, walSegmentNo) := by
  have hCount : 0 < 2 ^ 32 / segmentSize :=
    Nat.div_pos (Nat.le_of_dvd (by decide) hDivides)
      (Nat.pos_of_dvd_of_pos hDivides (by decide))
  rw [parseWALFilename_getFilename_of_lt hDivides hDivides
      hTimeline hNumber,
    if_pos (Nat.mod_lt _ hCount), Nat.div_add_mod']

/- Another size accepts it when the number fits in its log. -/
theorem isWalFilename_getFilename_iff
    (hDivides : segmentSize ∣ 2 ^ 32)
    (hOther : otherSize ∣ 2 ^ 32)
    (hTimeline : timelineID < 2 ^ 32)
    (hNumber : walSegmentNo * segmentSize < 2 ^ 64) :
    isWalFilename
          (getFilename walSegmentNo timelineID segmentSize)
          otherSize =
        true ↔
      walSegmentNo % (2 ^ 32 / segmentSize) <
        2 ^ 32 / otherSize := by
  unfold isWalFilename
  rw [parseWALFilename_getFilename_of_lt hDivides hOther
    hTimeline hNumber]
  by_cases hEnough :
      walSegmentNo % (2 ^ 32 / segmentSize) <
        2 ^ 32 / otherSize
  · rw [if_pos hEnough]
    exact ⟨fun _ => hEnough, fun _ => rfl⟩
  · rw [if_neg hEnough]
    constructor
    · intro hAccepted
      cases hAccepted
    · intro hFits
      exact absurd hFits hEnough

end Walmath

end Databasus
