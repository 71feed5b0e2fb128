import Databasus.Walmath.WalSegmentNo

/-
  An accepted name is the name of the segment it is read as.

  Digits of either case are read alike, and the number of
  digits is fixed: two fields of one value differ in the case
  of their letters alone.

  Main declarations:
    * `toUpper_of_hexDigit`
    * `map_toUpper_eq_of_parse`
    * `parseWALFilename_canonical`
-/

------------------------------------------------------------
-- Digits
------------------------------------------------------------

namespace Databasus

namespace Walmath

variable {c : Char}
variable {value : Nat}
variable {field : List Char}

theorem toNat_lt_of_le
    {c last : Char}
    (hLast : c ≤ last)
    (hSmall : last.toNat < 128) :
    c.toNat < 128 :=
  Nat.lt_of_le_of_lt (UInt32.le_iff_toNat_le.mp hLast) hSmall

/- A digit is a character of the first half of a byte. -/
theorem toNat_lt_of_hexDigit
    (hDigit : hexDigit c = some value) :
    c.toNat < 128 := by
  unfold hexDigit at hDigit
  split at hDigit
  · next hRange => exact toNat_lt_of_le hRange.2 (by decide)
  · split at hDigit
    · next hRange => exact toNat_lt_of_le hRange.2 (by decide)
    · split at hDigit
      · next hRange => exact toNat_lt_of_le hRange.2 (by decide)
      · cases hDigit

/- Digits of one value differ in their case alone. -/
theorem toUpper_of_hexDigit
    (hDigit : hexDigit c = some value) :
    value < 16 ∧ c.toUpper = (Nat.digitChar value).toUpper ∧
      c.utf8Size = 1 := by
  have hEach :
      ∀ n < 128,
        ∀ value ∈ hexDigit (Char.ofNat n),
          value < 16 ∧
            (Char.ofNat n).toUpper =
              (Nat.digitChar value).toUpper ∧
            (Char.ofNat n).utf8Size = 1 := by
    decide
  have hSame := hEach c.toNat (toNat_lt_of_hexDigit hDigit)
  rw [Char.ofNat_toNat] at hSame
  exact hSame value hDigit

theorem parseHexFrom_cons
    {rest : List Char}
    {start value : Nat}
    (hRead : parseHexFrom start (c :: rest) = some value) :
    ∃ digit,
      hexDigit c = some digit ∧
        parseHexFrom (start * 16 + digit) rest =
          some value := by
  unfold parseHexFrom at hRead
  split at hRead
  · cases hRead
  · next digit hDigit => exact ⟨digit, hDigit, hRead⟩

/- Fields of one value and one length start from one value. -/
theorem map_toUpper_eq_of_parse
    {first second : List Char}
    (hLength : first.length = second.length)
    {firstStart secondStart value : Nat}
    (hFirst : parseHexFrom firstStart first = some value)
    (hSecond : parseHexFrom secondStart second = some value) :
    firstStart = secondStart ∧
      first.map Char.toUpper = second.map Char.toUpper := by
  induction first generalizing second firstStart secondStart
  with
  | nil =>
      rcases List.eq_nil_of_length_eq_zero hLength.symm with
        rfl
      cases hFirst
      cases hSecond
      exact ⟨rfl, rfl⟩
  | cons c first ih =>
      cases second with
      | nil => cases hLength
      | cons d second =>
          rcases parseHexFrom_cons hFirst with
            ⟨left, hLeft, hFirstRest⟩
          rcases parseHexFrom_cons hSecond with
            ⟨right, hRight, hSecondRest⟩
          rcases
            ih (Nat.succ.inj hLength) hFirstRest
              hSecondRest with
            ⟨hStart, hRest⟩
          rcases toUpper_of_hexDigit hLeft with
            ⟨hLeftSmall, hLeftUpper, _⟩
          rcases toUpper_of_hexDigit hRight with
            ⟨hRightSmall, hRightUpper, _⟩
          have hSame : left = right := by omega
          refine ⟨by omega, ?_⟩
          rw [List.map_cons, List.map_cons, hLeftUpper,
            hRightUpper, hRest, hSame]

/- A read value is below the power of its digits. -/
theorem parseHexFrom_lt
    {start value : Nat}
    (hRead : parseHexFrom start field = some value) :
    value < (start + 1) * 16 ^ field.length := by
  induction field generalizing start with
  | nil =>
      cases hRead
      simp
  | cons c rest ih =>
      rcases parseHexFrom_cons hRead with
        ⟨digit, hDigit, hRest⟩
      have hSmall := (toUpper_of_hexDigit hDigit).1
      have hBound := ih hRest
      have hFactor :
          start * 16 + digit + 1 ≤ (start + 1) * 16 := by
        omega
      calc
        value
          < (start * 16 + digit + 1) * 16 ^ rest.length :=
            hBound
        _ ≤ (start + 1) * 16 * 16 ^ rest.length :=
          Nat.mul_le_mul_right _ hFactor
        _ = (start + 1) * 16 ^ (c :: rest).length := by
          rw [List.length_cons, Nat.pow_succ, Nat.mul_assoc,
            Nat.mul_comm 16]

theorem utf8Size_of_parse
    {start value : Nat}
    (hRead : parseHexFrom start field = some value) :
    ∀ c ∈ field, c.utf8Size = 1 := by
  induction field generalizing start with
  | nil =>
      intro c hMember
      exact absurd hMember List.not_mem_nil
  | cons first rest ih =>
      rcases parseHexFrom_cons hRead with
        ⟨digit, hDigit, hRest⟩
      intro c hMember
      rcases List.mem_cons.mp hMember with rfl | hLater
      · exact (toUpper_of_hexDigit hDigit).2.2
      · exact ih hRest c hLater

theorem parseHex_some
    (hRead : parseHex field = some value) :
    parseHexFrom 0 field = some value := by
  unfold parseHex at hRead
  split at hRead
  · cases hRead
  · exact hRead

------------------------------------------------------------
-- Names
------------------------------------------------------------

variable {name : String}
variable {segmentSize timelineID : Nat}

/- The letters of the name in upper case. -/
def upperCase (name : String) : String :=
  String.ofList (name.toList.map Char.toUpper)

/- Three fields of eight digits, and nothing else, are read. -/
theorem parseWalSegmentFields_canonical
    {fields : Nat}
    (hRead :
      parseWalSegmentFields name = .ok (timelineID, fields)) :
    timelineID < 2 ^ 32 ∧ fields < 2 ^ 64 ∧
      upperCase name =
        upperCase
          (String.ofList
            (hexField timelineID ++
              hexField (fields / 2 ^ 32) ++
              hexField (fields % 2 ^ 32))) := by
  unfold parseWalSegmentFields at hRead
  split at hRead
  · cases hRead
  · next hSize =>
      split at hRead
      · cases hRead
      · next timeline hTimeline =>
          split at hRead
          · cases hRead
          · next segments hSegments =>
              cases hRead
              have hHead := parseHex_some hTimeline
              have hTail := parseHex_some hSegments
              have hOnes :
                  ∀ c ∈ name.toList, c.utf8Size = 1 := by
                intro c hMember
                rw [← List.take_append_drop 8 name.toList]
                  at hMember
                rcases List.mem_append.mp hMember with
                  hEarly | hLate
                · exact utf8Size_of_parse hHead c hEarly
                · exact utf8Size_of_parse hTail c hLate
              have hLength : name.toList.length = 24 := by
                rw [← utf8ByteSize_ofList hOnes,
                  String.ofList_toList]
                exact not_not.mp hSize
              have hHeadLength :
                  (name.toList.take 8).length = 8 := by
                rw [List.length_take, hLength]
                rfl
              have hTailLength :
                  (name.toList.drop 8).length = 16 := by
                rw [List.length_drop, hLength]
              have hTimelineBound := parseHexFrom_lt hHead
              have hFieldsBound := parseHexFrom_lt hTail
              rw [hHeadLength] at hTimelineBound
              rw [hTailLength] at hFieldsBound
              refine ⟨hTimelineBound, hFieldsBound, ?_⟩
              have hHigh : fields / 2 ^ 32 < 2 ^ 32 := by
                omega
              have hLow : fields % 2 ^ 32 < 2 ^ 32 :=
                Nat.mod_lt _ (by decide)
              have hField :=
                parseHexFrom_hexField hTimelineBound 0
              have hFields :=
                parseHexFrom_append
                  (hexField (fields % 2 ^ 32))
                  (parseHexFrom_hexField hHigh 0)
              rw [Nat.zero_mul, Nat.zero_add,
                parseHexFrom_hexField hLow,
                Nat.div_add_mod'] at hFields
              rw [Nat.zero_mul, Nat.zero_add] at hField
              have hFirst :=
                (map_toUpper_eq_of_parse
                  (hHeadLength.trans
                    (length_hexField hTimelineBound).symm)
                  hHead hField).2
              have hSecond :=
                (map_toUpper_eq_of_parse
                  (hTailLength.trans
                    (by
                      rw [List.length_append,
                        length_hexField hHigh,
                        length_hexField hLow]))
                  hTail hFields).2
              unfold upperCase
              rw [String.toList_ofList, List.append_assoc,
                List.map_append, ← hFirst, ← hSecond,
                ← List.map_append, List.take_append_drop]

/- The fields of a name, from the parts of its number. -/
theorem getFilename_eq
    {segmentNo count logID segmentOfLog : Nat}
    (hCount : 2 ^ 32 / segmentSize = count)
    (hLog : segmentNo / count = logID)
    (hOfLog : segmentNo % count = segmentOfLog) :
    getFilename segmentNo timelineID segmentSize =
      String.ofList
        (hexField timelineID ++ hexField logID ++
          hexField segmentOfLog) := by
  unfold getFilename
  simp only
  rw [hCount, hLog, hOfLog]

/- The name that is accepted is the segment's own. -/
theorem parseWALFilename_canonical
    {segmentNo : Nat}
    (hRead :
      parseWALFilename name segmentSize =
        .ok (timelineID, segmentNo)) :
    timelineID < 2 ^ 32 ∧
      segmentNo * segmentSize < 2 ^ 64 ∧
      upperCase name =
        upperCase
          (getFilename segmentNo timelineID segmentSize) := by
  rcases dvd_of_parseWALFilename hRead with
    ⟨hPositive, hDivides⟩
  have hProduct :
      2 ^ 32 / segmentSize * segmentSize = 2 ^ 32 :=
    Nat.div_mul_cancel hDivides
  unfold parseWALFilename at hRead
  split at hRead
  · cases hRead
  · next timeline fields hFields =>
      rcases parseWalSegmentFields_canonical hFields with
        ⟨hTimeline, hBound, hName⟩
      split at hRead
      · cases hRead
      · simp only at hRead
        split at hRead
        · cases hRead
        · next hEnough =>
            cases hRead
            rw [Nat.not_le] at hEnough
            have hHigh : fields / 2 ^ 32 + 1 ≤ 2 ^ 32 := by
              omega
            generalize hCount : 2 ^ 32 / segmentSize = count
              at hProduct hEnough ⊢
            generalize fields / 2 ^ 32 = high at *
            generalize fields % 2 ^ 32 = low at *
            refine ⟨hTimeline, ?_, ?_⟩
            · have hNumber :
                  high * count + low < 2 ^ 32 * count := by
                calc
                  high * count + low
                    < (high + 1) * count := by
                      rw [Nat.succ_mul]
                      exact Nat.add_lt_add_left hEnough _
                  _ ≤ 2 ^ 32 * count :=
                    Nat.mul_le_mul_right _ hHigh
              have hScaled :=
                Nat.mul_lt_mul_of_pos_right hNumber hPositive
              rw [Nat.mul_assoc, hProduct] at hScaled
              exact hScaled
            · have hLog :
                  (high * count + low) / count = high := by
                rw [Nat.mul_comm, Nat.mul_add_div
                  (Nat.zero_lt_of_lt hEnough),
                  Nat.div_eq_of_lt hEnough, Nat.add_zero]
              have hOfLog :
                  (high * count + low) % count = low :=
                Nat.mul_add_mod_of_lt hEnough
              rw [hName, getFilename_eq hCount hLog hOfLog]

end Walmath

end Databasus
