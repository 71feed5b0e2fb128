import Mathlib.Algebra.Group.Nat.Defs

/-
  Positions in the write-ahead log and names of its segments.

  A segment file is named by 24 hexadecimal digits: timeline,
  log number and segment number, eight digits each.

  Main declarations:
    * `LSN`
    * `parseWalSegmentFields`
    * `parseWALFilename`
-/

------------------------------------------------------------
-- Positions
------------------------------------------------------------

namespace Databasus

namespace Walmath

/- A position in the write-ahead log, a 64-bit number. -/
abbrev LSN := Nat

/- The last position of the log's 64-bit space. -/
def LSN.max : LSN := 2 ^ 64 - 1

------------------------------------------------------------
-- Hexadecimal Fields
------------------------------------------------------------

/- The value of a hexadecimal digit of either case. -/
def hexDigit
    (c : Char) : Option Nat :=
  if '0' ≤ c ∧ c ≤ '9' then
    some (c.toNat - '0'.toNat)
  else if 'A' ≤ c ∧ c ≤ 'F' then
    some (c.toNat - 'A'.toNat + 10)
  else if 'a' ≤ c ∧ c ≤ 'f' then
    some (c.toNat - 'a'.toNat + 10)
  else
    none

/- Read digits onto the value of those before them. -/
def parseHexFrom :
    Nat → List Char → Option Nat
  | value, [] => some value
  | value, c :: rest =>
      match hexDigit c with
      | none => none
      | some digit => parseHexFrom (value * 16 + digit) rest

/- The number that a field of digits writes. -/
def parseHex
    (field : List Char) : Option Nat :=
  match field with
  | [] => none
  | _ :: _ => parseHexFrom 0 field

------------------------------------------------------------
-- Segment Names
------------------------------------------------------------

inductive WalFilenameError
  | notWalFilename (filename : String)
  | incorrectLogSegNo (filename : String)
deriving DecidableEq, Repr

def walSegmentFilenameLength : Nat := 24

/-
  The timeline, and log and segment number as one 64-bit
  number.  A digit takes one byte, so that fields of digits
  are cut at the same places by bytes and by characters.
-/
def parseWalSegmentFields
    (name : String) :
    Except WalFilenameError (Nat × Nat) :=
  if name.utf8ByteSize ≠ walSegmentFilenameLength then
    .error (.notWalFilename name)
  else
    match parseHex (name.toList.take 8) with
    | none => .error (.notWalFilename name)
    | some timelineID =>
        match parseHex (name.toList.drop 8) with
        | none => .error (.notWalFilename name)
        | some logSegmentFields =>
            .ok (timelineID, logSegmentFields)

/- The timeline and the segment's number on it. -/
def parseWALFilename
    (name : String)
    (segmentSize : Nat) :
    Except WalFilenameError (Nat × Nat) :=
  match parseWalSegmentFields name with
  | .error error => .error error
  | .ok (timelineID, logSegmentFields) =>
      if segmentSize = 0 ∨ 2 ^ 32 % segmentSize ≠ 0 then
        .error (.incorrectLogSegNo name)
      else
        let logSegNoHi := logSegmentFields / 2 ^ 32
        let logSegNoLo := logSegmentFields % 2 ^ 32
        let segmentsPerLogID := 2 ^ 32 / segmentSize
        if segmentsPerLogID ≤ logSegNoLo then
          .error (.incorrectLogSegNo name)
        else
          .ok
            (timelineID,
              logSegNoHi * segmentsPerLogID + logSegNoLo)

example :
    (parseWALFilename "00000001000000020000000A"
        (2 ^ 24)).toOption =
      some (1, 2 * 256 + 10) := by
  decide +kernel

end Walmath

end Databasus
