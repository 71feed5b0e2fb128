import Mathlib.Data.List.Basic
import Mathlib.Tactic.Cases

/-
  Texts as bytes, in UTF-8.

  A character below 128 is one byte, and no byte of any other
  character is below 128.  A rewriting of single bytes that
  leaves the others alone is therefore one of characters.

  Main declarations:
    * `Utf8.encode`, `Utf8.decode`
    * `Utf8.decode_encode`
    * `Utf8.encode_of_decode`
    * `Utf8.flatMap_encode`
-/

------------------------------------------------------------
-- Encoding
------------------------------------------------------------

namespace Foundation

namespace Utf8

def encode (text : List Char) : List UInt8 :=
  text.flatMap String.utf8EncodeChar

def decode (bytes : List UInt8) : Option (List Char) :=
  (String.fromUTF8? ⟨bytes.toArray⟩).map String.toList

theorem encode_append
    (first second : List Char) :
    encode (first ++ second) = encode first ++ encode second :=
  List.flatMap_append

theorem encode_cons
    (c : Char)
    (text : List Char) :
    encode (c :: text) =
      String.utf8EncodeChar c ++ encode text :=
  List.flatMap_cons

theorem toByteArray_ofList
    (text : List Char) :
    (String.ofList text).toByteArray =
      ⟨(encode text).toArray⟩ := by
  rw [String.toByteArray_ofList]
  apply ByteArray.ext
  exact List.data_toByteArray

theorem decode_encode
    (text : List Char) :
    decode (encode text) = some text := by
  unfold decode
  rw [← toByteArray_ofList, String.fromUTF8?,
    dif_pos (String.ofList text).isValidUTF8]
  change some (String.ofList text).toList = some text
  rw [String.toList_ofList]

/- Bytes that are a text are the bytes of that text. -/
theorem encode_of_decode
    {bytes : List UInt8}
    {text : List Char}
    (hText : decode bytes = some text) :
    encode text = bytes := by
  unfold decode String.fromUTF8? at hText
  split at hText
  · next hValid =>
      have hString := Option.some.inj hText
      have hBytes :
          (⟨(encode text).toArray⟩ : ByteArray) =
            ⟨bytes.toArray⟩ := by
        rw [← toByteArray_ofList, ← hString,
          String.ofList_toList]
        rfl
      injection hBytes with hArrays
      exact List.toArray_inj hArrays
  · cases hText

------------------------------------------------------------
-- Single Bytes
------------------------------------------------------------

variable {c : Char}

theorem utf8EncodeChar_of_lt
    (hSmall : c.toNat < 128) :
    String.utf8EncodeChar c = [UInt8.ofNat c.toNat] := by
  have hVal : c.val.toNat ≤ 0x7f := Nat.le_of_lt_succ hSmall
  unfold String.utf8EncodeChar
  simp only
  rw [if_pos hVal]
  rfl

theorem toNat_ofNat_of_lt
    {n : Nat}
    (hByte : n < 256) :
    (UInt8.ofNat n).toNat = n := by
  rw [UInt8.toNat_ofNat']
  exact Nat.mod_eq_of_lt hByte

/- A character of several bytes has none below 128. -/
theorem le_of_mem_utf8EncodeChar
    (hWide : 128 ≤ c.toNat) :
    ∀ byte ∈ String.utf8EncodeChar c, 128 ≤ byte.toNat := by
  have hRange : c.val.toNat < 0x110000 := by
    rcases c.valid with hLow | ⟨_, hHigh⟩
    · exact Nat.lt_trans hLow (by decide)
    · exact hHigh
  have hFirst : ¬ c.val.toNat ≤ 0x7f := by
    have hSame : c.val.toNat = c.toNat := rfl
    omega
  intro byte hByte
  unfold String.utf8EncodeChar at hByte
  simp only at hByte
  rw [if_neg hFirst] at hByte
  split at hByte
  · simp only [List.mem_cons, List.not_mem_nil, or_false]
      at hByte
    rcases hByte with rfl | rfl
    · rw [toNat_ofNat_of_lt (by omega)]
      omega
    · rw [toNat_ofNat_of_lt (by omega)]
      omega
  · split at hByte
    · simp only [List.mem_cons, List.not_mem_nil, or_false]
        at hByte
      rcases hByte with rfl | rfl | rfl
      · rw [toNat_ofNat_of_lt (by omega)]
        omega
      · rw [toNat_ofNat_of_lt (by omega)]
        omega
      · rw [toNat_ofNat_of_lt (by omega)]
        omega
    · simp only [List.mem_cons, List.not_mem_nil, or_false]
        at hByte
      rcases hByte with rfl | rfl | rfl | rfl
      · rw [toNat_ofNat_of_lt (by omega)]
        omega
      · rw [toNat_ofNat_of_lt (by omega)]
        omega
      · rw [toNat_ofNat_of_lt (by omega)]
        omega
      · rw [toNat_ofNat_of_lt (by omega)]
        omega

/- What is made of a byte, and of a character, is the same. -/
structure SameOnBytes
    (bytewise : UInt8 → List UInt8)
    (write : Char → List Char) : Prop where
  small :
    ∀ c : Char, c.toNat < 128 →
      bytewise (UInt8.ofNat c.toNat) = encode (write c)
  wide : ∀ c : Char, 128 ≤ c.toNat → write c = [c]
  kept : ∀ byte : UInt8, 128 ≤ byte.toNat →
    bytewise byte = [byte]

/- A text may be rewritten byte by byte. -/
theorem flatMap_encode
    {bytewise : UInt8 → List UInt8}
    {write : Char → List Char}
    (hSame : SameOnBytes bytewise write)
    (text : List Char) :
    (encode text).flatMap bytewise =
      encode (text.flatMap write) := by
  induction text with
  | nil => rfl
  | cons c text ih =>
      have hChar :
          (String.utf8EncodeChar c).flatMap bytewise =
            encode (write c) := by
        by_cases hSmall : c.toNat < 128
        · rw [utf8EncodeChar_of_lt hSmall,
            List.flatMap_singleton]
          exact hSame.small c hSmall
        · have hWide : 128 ≤ c.toNat := Nat.le_of_not_lt hSmall
          have hKept :
              ∀ byte ∈ String.utf8EncodeChar c,
                bytewise byte = [byte] :=
            fun byte hByte =>
              hSame.kept byte
                (le_of_mem_utf8EncodeChar hWide byte hByte)
          rw [hSame.wide c hWide, List.flatMap_congr hKept,
            List.flatMap_singleton']
          exact (List.flatMap_singleton _ c).symm
      rw [encode_cons, List.flatMap_append, hChar, ih,
        List.flatMap_cons, encode_append]

end Utf8

end Foundation
