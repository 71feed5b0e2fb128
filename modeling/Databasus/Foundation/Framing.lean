import Mathlib.Data.List.Induction
import Mathlib.Tactic.Ring

/-
  Byte strings of a stream format.

  A number is written in a fixed width, its highest byte
  first.  A long byte string is cut into blocks of one size,
  and the last block may be shorter.

  Main declarations:
    * `BigEndian.encode`
    * `BigEndian.decode_encode`
    * `BigEndian.encode_decode`
    * `blocks`
    * `blocks_of_full`
-/

------------------------------------------------------------
-- Numbers
------------------------------------------------------------

namespace Databasus

namespace BigEndian

/- The lowest `width` bytes of a number, the highest first. -/
def encode : Nat → Nat → List UInt8
  | 0, _ => []
  | width + 1, value =>
      encode width (value / 256) ++ [UInt8.ofNat value]

def decode
    (bytes : List UInt8) : Nat :=
  bytes.foldl (fun value byte => value * 256 + byte.toNat) 0

@[simp]
theorem length_encode
    (width value : Nat) :
    (encode width value).length = width := by
  induction width generalizing value with
  | zero => rfl
  | succ width ih => simp [encode, ih]

@[simp]
theorem decode_nil : decode [] = 0 := rfl

theorem decode_concat
    (bytes : List UInt8)
    (byte : UInt8) :
    decode (bytes ++ [byte]) =
      decode bytes * 256 + byte.toNat := by
  simp [decode]

/- What does not fit the width is lost. -/
theorem decode_encode
    (width value : Nat) :
    decode (encode width value) = value % 256 ^ width := by
  induction width generalizing value with
  | zero => simp [encode, Nat.mod_one]
  | succ width ih =>
      have hLow : (UInt8.ofNat value).toNat = value % 256 :=
        UInt8.toNat_ofNat'
      have hSplit :
          value % 256 ^ (width + 1) =
            value % 256 + 256 * (value / 256 % 256 ^ width) := by
        rw [Nat.pow_succ', Nat.mod_mul]
      rw [encode, decode_concat, ih, hLow, hSplit]
      omega

theorem decode_encode_of_lt
    {width value : Nat}
    (hFits : value < 256 ^ width) :
    decode (encode width value) = value := by
  rw [decode_encode, Nat.mod_eq_of_lt hFits]

theorem encode_decode
    (bytes : List UInt8) :
    encode bytes.length (decode bytes) = bytes := by
  induction bytes using List.reverseRecOn with
  | nil => rfl
  | append_singleton bytes byte ih =>
      have hByte : byte.toNat < 256 := byte.toNat_lt
      have hHigh :
          (decode bytes * 256 + byte.toNat) / 256 =
            decode bytes := by
        omega
      have hLow :
          UInt8.ofNat (decode bytes * 256 + byte.toNat) =
            byte := by
        apply UInt8.toNat_inj.mp
        rw [UInt8.toNat_ofNat']
        omega
      rw [List.length_append, List.length_singleton, encode,
        decode_concat, hHigh, hLow, ih]

theorem decode_lt
    (bytes : List UInt8) :
    decode bytes < 256 ^ bytes.length := by
  have hRound := congrArg decode (encode_decode bytes)
  rw [decode_encode] at hRound
  rw [← hRound]
  exact Nat.mod_lt _ (Nat.pow_pos (by decide))

/- Two numbers that fit the width differ in their bytes. -/
theorem encode_inj
    {width left right : Nat}
    (hLeft : left < 256 ^ width)
    (hRight : right < 256 ^ width)
    (hSame : encode width left = encode width right) :
    left = right := by
  rw [← decode_encode_of_lt hLeft, hSame,
    decode_encode_of_lt hRight]

end BigEndian

------------------------------------------------------------
-- Blocks
------------------------------------------------------------

variable {α : Type}
variable {size : Nat}
variable {data : List α}
variable {index : Nat}

/- The blocks that bytes are cut into, the last one short. -/
def blocks
    (size : Nat)
    (data : List α) : List (List α) :=
  (List.range ((data.length + size - 1) / size)).map
    fun index => (data.drop (index * size)).take size

theorem blocks_nil
    (size : Nat) :
    blocks size ([] : List α) = [] := by
  unfold blocks
  have hNone : (0 + size - 1) / size = 0 := by
    cases size with
    | zero => rfl
    | succ rest => exact Nat.div_eq_of_lt (by omega)
  rw [List.length_nil, hNone]
  rfl

/- What fits a block is the only one. -/
theorem blocks_of_short
    (hSome : data ≠ [])
    (hShort : data.length ≤ size) :
    blocks size data = [data] := by
  have hPositive : 0 < data.length :=
    List.length_pos_iff.mpr hSome
  have hOne : (data.length + size - 1) / size = 1 := by
    apply Nat.div_eq_of_lt_le <;> omega
  unfold blocks
  rw [hOne]
  simp [List.take_of_length_le hShort]

/- A whole block is the first one. -/
theorem blocks_append
    {block : List α}
    (rest : List α)
    (hPositive : 0 < size)
    (hFull : block.length = size) :
    blocks size (block ++ rest) =
      block :: blocks size rest := by
  have hCount :
      ((block ++ rest).length + size - 1) / size =
        (rest.length + size - 1) / size + 1 := by
    rw [← Nat.add_div_right _ hPositive]
    congr 1
    rw [List.length_append]
    omega
  unfold blocks
  rw [hCount, List.range_succ_eq_map, List.map_cons,
    List.map_map]
  congr 1
  · rw [Nat.zero_mul, List.drop_zero,
      List.take_append_of_le_length (Nat.le_of_eq hFull.symm),
      List.take_of_length_le (Nat.le_of_eq hFull)]
  · apply List.map_congr_left
    intro index hIndex
    have hSkip :
        (index + 1) * size = block.length + index * size := by
      rw [hFull]
      ring
    change ((block ++ rest).drop ((index + 1) * size)).take
        size = _
    rw [hSkip, ← List.drop_drop, List.drop_left]

/- Whole blocks and a rest that is shorter than a block. -/
theorem blocks_of_full
    {full : List (List α)}
    {rest : List α}
    (hPositive : 0 < size)
    (hFull : ∀ block ∈ full, block.length = size)
    (hShort : rest.length < size) :
    blocks size (full.flatten ++ rest) =
      full ++ (if rest = [] then [] else [rest]) := by
  induction full with
  | nil =>
      by_cases hNone : rest = []
      · rw [if_pos hNone, hNone]
        exact blocks_nil size
      · rw [if_neg hNone]
        exact blocks_of_short hNone (Nat.le_of_lt hShort)
  | cons block full ih =>
      rw [List.flatten_cons, List.append_assoc,
        blocks_append _ hPositive
          (hFull block List.mem_cons_self),
        ih fun other hOther =>
          hFull other (List.mem_cons_of_mem block hOther)]
      rfl

theorem blocks_flatten_and_size
    (hPositive : 0 < size)
    (data : List α) :
    (blocks size data).flatten = data ∧
      ∀ block ∈ blocks size data,
        block ≠ [] ∧ block.length ≤ size := by
  induction hLength : data.length
    using Nat.strong_induction_on generalizing data with
  | _ length ih =>
      by_cases hNone : data = []
      · subst hNone
        rw [blocks_nil]
        exact ⟨rfl, fun block hBlock => nomatch hBlock⟩
      by_cases hShort : data.length ≤ size
      · rw [blocks_of_short hNone hShort]
        refine ⟨List.flatten_singleton, ?_⟩
        intro block hBlock
        rw [List.mem_singleton] at hBlock
        subst hBlock
        exact ⟨hNone, hShort⟩
      · -- A whole block goes first, and the rest is shorter.
        have hTaken : (data.take size).length = size :=
          List.length_take_of_le (by omega)
        have hFewer : (data.drop size).length < length := by
          rw [List.length_drop]
          omega
        have hRest := ih _ hFewer (data.drop size) rfl
        have hBlocks :=
          blocks_append (data.drop size) hPositive hTaken
        rw [List.take_append_drop] at hBlocks
        rw [hBlocks]
        constructor
        · rw [List.flatten_cons, hRest.1,
            List.take_append_drop]
        · intro block hBlock
          rcases List.mem_cons.mp hBlock with hFirst | hLater
          · subst hFirst
            refine ⟨?_, Nat.le_of_eq hTaken⟩
            exact List.ne_nil_of_length_pos (by omega)
          · exact hRest.2 block hLater

/- There is a block for every start inside the data. -/
theorem lt_length_blocks_iff
    (hPositive : 0 < size)
    (data : List α)
    (index : Nat) :
    index < (blocks size data).length ↔
      index * size < data.length := by
  unfold blocks
  rw [List.length_map, List.length_range,
    Nat.lt_div_iff_mul_lt hPositive]
  omega

theorem getElem_blocks
    (hIndex : index < (blocks size data).length) :
    (blocks size data)[index] =
      (data.drop (index * size)).take size := by
  simp only [blocks, List.getElem_map, List.getElem_range]

/- A block more goes that much further into the data. -/
theorem take_append_getElem_blocks
    (hIndex : index < (blocks size data).length) :
    data.take (index * size) ++ (blocks size data)[index] =
      data.take ((index + 1) * size) := by
  rw [getElem_blocks hIndex, Nat.succ_mul, List.take_add]

end Databasus
