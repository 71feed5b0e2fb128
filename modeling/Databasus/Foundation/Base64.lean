import Mathlib.Data.List.Induction

/-
  The standard base64 encoding, with padding.

  Three bytes make four digits.  The decoder skips line ends,
  and takes padding at the end of the text only.

  Main declarations:
    * `Base64.encodeToString`
    * `Base64.decodeString`
    * `Base64.decodeString_encodeToString`
-/

------------------------------------------------------------
-- Digits
------------------------------------------------------------

namespace Foundation

namespace Base64

def alphabet : List Char :=
  ("ABCDEFGHIJKLMNOPQRSTUVWXYZ" ++
    "abcdefghijklmnopqrstuvwxyz0123456789+/").toList

def padding : Char := '='

/- The digit of a number below 64. -/
def digit
    (value : Nat) : Char :=
  alphabet.getD value padding

def digitValue
    (char : Char) : Option Nat :=
  alphabet.findIdx? fun other => other == char

/- The line ends of a text, which say nothing. -/
def isLineEnd
    (char : Char) : Bool :=
  char.toNat == 10 || char.toNat == 13

/- A digit is read back, and is no padding or line end. -/
structure ReadBack
    (value : Nat) : Prop where
  digitValue_eq : digitValue (digit value) = some value
  not_padding : digit value ≠ padding
  not_lineEnd : isLineEnd (digit value) = false

instance instDecidableReadBack
    (value : Nat) :
    Decidable (ReadBack value) :=
  decidable_of_iff
    (digitValue (digit value) = some value ∧
      digit value ≠ padding ∧
        isLineEnd (digit value) = false)
    ⟨fun h => ⟨h.1, h.2.1, h.2.2⟩,
      fun h => ⟨h.1, h.2, h.3⟩⟩

theorem readBack_of_lt
    {value : Nat}
    (hDigit : value < 64) :
    ReadBack value := by
  have hAll : ∀ small : Fin 64, ReadBack small.val := by
    decide +kernel
  exact hAll ⟨value, hDigit⟩

------------------------------------------------------------
-- Encoding and Decoding
------------------------------------------------------------

variable {low : Nat}
variable {bytes : List UInt8}

def encodeChars : List UInt8 → List Char
  | [] => []
  | [a] =>
      [digit (a.toNat / 4), digit (a.toNat % 4 * 16),
        padding, padding]
  | [a, b] =>
      [digit (a.toNat / 4),
        digit (a.toNat % 4 * 16 + b.toNat / 16),
        digit (b.toNat % 16 * 4), padding]
  | a :: b :: c :: rest =>
      digit (a.toNat / 4) ::
        digit (a.toNat % 4 * 16 + b.toNat / 16) ::
          digit (b.toNat % 16 * 4 + c.toNat / 64) ::
            digit (c.toNat % 64) :: encodeChars rest

def encodeToString
    (bytes : List UInt8) : String :=
  String.ofList (encodeChars bytes)

def firstByte (w x : Nat) : UInt8 :=
  UInt8.ofNat (w * 4 + x / 16)

def secondByte (x y : Nat) : UInt8 :=
  UInt8.ofNat (x % 16 * 16 + y / 4)

def thirdByte (y z : Nat) : UInt8 :=
  UInt8.ofNat (y % 4 * 64 + z)

def decodeChars : List Char → Option (List UInt8)
  | [] => some []
  | first :: second :: third :: fourth :: rest =>
      match digitValue first, digitValue second with
      | some w, some x =>
          if fourth = padding then
            if rest ≠ [] then
              none
            else if third = padding then
              some [firstByte w x]
            else
              (digitValue third).map fun y =>
                [firstByte w x, secondByte x y]
          else
            match digitValue third, digitValue fourth with
            | some y, some z =>
                (decodeChars rest).map fun bytes =>
                  firstByte w x :: secondByte x y ::
                    thirdByte y z :: bytes
            | _, _ => none
      | _, _ => none
  | _ => none

def decodeString
    (text : String) : Option (List UInt8) :=
  decodeChars
    (text.toList.filter fun char => !isLineEnd char)

/- A byte is put together from its two digits. -/
theorem firstByte_digits
    (byte : UInt8)
    (hLow : low < 16) :
    firstByte (byte.toNat / 4)
        (byte.toNat % 4 * 16 + low) = byte := by
  unfold firstByte
  rw [show byte.toNat / 4 * 4 +
    (byte.toNat % 4 * 16 + low) / 16 = byte.toNat by omega]
  exact UInt8.ofNat_toNat

theorem secondByte_digits
    (byte : UInt8)
    (high : Nat)
    (hLow : low < 4) :
    secondByte (high * 16 + byte.toNat / 16)
        (byte.toNat % 16 * 4 + low) = byte := by
  have hByte := byte.toNat_lt
  unfold secondByte
  rw [show (high * 16 + byte.toNat / 16) % 16 * 16 +
    (byte.toNat % 16 * 4 + low) / 4 = byte.toNat by omega]
  exact UInt8.ofNat_toNat

theorem thirdByte_digits
    (byte : UInt8)
    (high : Nat) :
    thirdByte (high * 4 + byte.toNat / 64)
        (byte.toNat % 64) = byte := by
  have hByte := byte.toNat_lt
  unfold thirdByte
  rw [show (high * 4 + byte.toNat / 64) % 4 * 64 +
    byte.toNat % 64 = byte.toNat by omega]
  exact UInt8.ofNat_toNat

theorem decodeChars_encodeChars
    (bytes : List UInt8) :
    decodeChars (encodeChars bytes) = some bytes := by
  induction bytes using encodeChars.induct with
  | case1 => rfl
  | case2 a =>
      have hA := a.toNat_lt
      have hFirst :=
        readBack_of_lt (by omega : a.toNat / 4 < 64)
      have hSecond :=
        readBack_of_lt (by omega : a.toNat % 4 * 16 < 64)
      have hByte := firstByte_digits a (Nat.zero_lt_succ 15)
      rw [Nat.add_zero] at hByte
      simp only [encodeChars, decodeChars,
        hFirst.digitValue_eq, hSecond.digitValue_eq, hByte]
      rfl
  | case3 a b =>
      have hA := a.toNat_lt
      have hB := b.toNat_lt
      have hFirst :=
        readBack_of_lt (by omega : a.toNat / 4 < 64)
      have hSecond :=
        readBack_of_lt
          (by omega :
            a.toNat % 4 * 16 + b.toNat / 16 < 64)
      have hThird :=
        readBack_of_lt (by omega : b.toNat % 16 * 4 < 64)
      have hFirstByte :=
        firstByte_digits a
          (by omega : b.toNat / 16 < 16)
      have hSecondByte :=
        secondByte_digits b (a.toNat % 4)
          (Nat.zero_lt_succ 3)
      rw [Nat.add_zero] at hSecondByte
      simp only [encodeChars, decodeChars,
        hFirst.digitValue_eq, hSecond.digitValue_eq,
        hThird.digitValue_eq, hThird.not_padding,
        hFirstByte, hSecondByte, if_true, if_false,
        not_true, ne_eq, Option.map_some]
  | case4 a b c rest ih =>
      have hA := a.toNat_lt
      have hB := b.toNat_lt
      have hC := c.toNat_lt
      have hFirst :=
        readBack_of_lt (by omega : a.toNat / 4 < 64)
      have hSecond :=
        readBack_of_lt
          (by omega :
            a.toNat % 4 * 16 + b.toNat / 16 < 64)
      have hThird :=
        readBack_of_lt
          (by omega :
            b.toNat % 16 * 4 + c.toNat / 64 < 64)
      have hFourth :=
        readBack_of_lt (by omega : c.toNat % 64 < 64)
      have hFirstByte :=
        firstByte_digits a
          (by omega : b.toNat / 16 < 16)
      have hSecondByte :=
        secondByte_digits b (a.toNat % 4)
          (by omega : c.toNat / 64 < 4)
      have hThirdByte := thirdByte_digits c (b.toNat % 16)
      simp only [encodeChars, decodeChars,
        hFirst.digitValue_eq, hSecond.digitValue_eq,
        hThird.digitValue_eq, hFourth.digitValue_eq,
        hFourth.not_padding, hFirstByte, hSecondByte,
        hThirdByte, if_false, ih, Option.map_some]

theorem digit_mem
    (value : Nat) :
    digit value ∈ padding :: alphabet := by
  unfold digit
  rw [List.getD_eq_getElem?_getD]
  cases hDigit : alphabet[value]? with
  | none => exact List.mem_cons_self
  | some char =>
      exact List.mem_cons_of_mem padding
        (List.mem_of_getElem? hDigit)

/- An encoded text is made of digits and padding. -/
theorem mem_encodeChars
    {char : Char}
    (hChar : char ∈ encodeChars bytes) :
    char ∈ padding :: alphabet := by
  induction bytes using encodeChars.induct with
  | case1 => cases hChar
  | case2 a =>
      simp only [encodeChars, List.mem_cons,
        List.not_mem_nil, or_false] at hChar
      rcases hChar with rfl | rfl | rfl | rfl
      · exact digit_mem _
      · exact digit_mem _
      · exact List.mem_cons_self
      · exact List.mem_cons_self
  | case3 a b =>
      simp only [encodeChars, List.mem_cons,
        List.not_mem_nil, or_false] at hChar
      rcases hChar with rfl | rfl | rfl | rfl
      · exact digit_mem _
      · exact digit_mem _
      · exact digit_mem _
      · exact List.mem_cons_self
  | case4 a b c rest ih =>
      rw [encodeChars] at hChar
      simp only [List.mem_cons] at hChar
      rcases hChar with rfl | rfl | rfl | rfl | hRest
      · exact digit_mem _
      · exact digit_mem _
      · exact digit_mem _
      · exact digit_mem _
      · exact ih hRest

/- No line end stands in an encoded text. -/
theorem isLineEnd_of_mem_encodeChars
    (bytes : List UInt8) :
    ∀ char ∈ encodeChars bytes, isLineEnd char = false := by
  have hAll :
      ((padding :: alphabet).all fun char =>
          !isLineEnd char) =
        true := by
    decide
  intro char hChar
  exact
    (Bool.not_eq_true' _).mp
      (List.all_eq_true.mp hAll char (mem_encodeChars hChar))

theorem decodeString_encodeToString
    (bytes : List UInt8) :
    decodeString (encodeToString bytes) = some bytes := by
  unfold decodeString encodeToString
  have hKept :
      (encodeChars bytes).filter
          (fun char => !isLineEnd char) =
        encodeChars bytes := by
    rw [List.filter_eq_self]
    intro char hChar
    rw [isLineEnd_of_mem_encodeChars bytes char hChar]
    rfl
  rw [String.toList_ofList, hKept]
  exact decodeChars_encodeChars bytes

/- Only nothing is written as the empty text. -/
theorem encodeToString_ne_empty
    (hSome : bytes ≠ []) :
    encodeToString bytes ≠ "" := by
  intro hEmpty
  have hBack := decodeString_encodeToString bytes
  rw [hEmpty] at hBack
  exact hSome (Option.some.inj hBack).symm

end Base64

end Foundation
