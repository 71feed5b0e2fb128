import Databasus.Common
import Databasus.Foundation.JsonLayout
import Databasus.Foundation.Timestamps
import Databasus.Foundation.Utf8
import Databasus.Walmath.LsnText

/-
  The backup manifest that a base backup is stored with.

  The text is put together by hand, in the layout of
  PostgreSQL, and closes with a checksum of all that was
  written before it.  The hash comes from a library, and is a
  parameter.

  Main declarations:
    * `escapeJSONString`, `escapeJSONString_eq`
    * `serializeManifest`, `serializeManifest_eq`
-/

------------------------------------------------------------
-- Writing
------------------------------------------------------------

namespace Databasus

namespace Physical

open Foundation
open Walmath (LSN LSN.toText)

/- A string literal. -/
def literal (text : String) : Bytes :=
  Utf8.encode text.toList

def hexDigits : List Char :=
  "0123456789abcdef".toList

/- A checksum as text. -/
structure ChecksumHex where
  text : List Char
  isHex : ∀ c ∈ text, c ∈ hexDigits

def hexDigit (n : Nat) : Char :=
  hexDigits.getD (n % 16) '0'

theorem hexDigit_mem
    (n : Nat) :
    hexDigit n ∈ hexDigits := by
  have hAll : ∀ k < 16, hexDigits.getD k '0' ∈ hexDigits := by
    decide
  exact hAll (n % 16) (Nat.mod_lt n (by omega))

/- `hex.EncodeToString` -/
def encodeHex (bytes : Bytes) : ChecksumHex where
  text :=
    bytes.flatMap fun byte =>
      [hexDigit (byte.toNat / 16), hexDigit byte.toNat]
  isHex := by
    intro c hChar
    rcases List.mem_flatMap.mp hChar with ⟨byte, _, hDigit⟩
    simp only [List.mem_cons, List.not_mem_nil, or_false]
      at hDigit
    rcases hDigit with rfl | rfl
    · exact hexDigit_mem _
    · exact hexDigit_mem _

structure ManifestFileEntry where
  path : Bytes
  size : Int
  modTime : Time
  checksumHex : ChecksumHex

structure SerializeManifestInput where
  files : List ManifestFileEntry
  systemID : UInt64
  timelineID : Int
  startLSN : LSN
  stopLSN : LSN

structure ManifestError where
  text : String
  path : Bytes
  cause : String
deriving DecidableEq, Repr

/- The verb `%04x` of a number that has four digits. -/
def fourHexDigits (n : Nat) : List Char :=
  Json.unitDigits n

def escapeByte (c : UInt8) : Bytes :=
  match c.toNat with
  | 8 => literal "\\b"
  | 12 => literal "\\f"
  | 10 => literal "\\n"
  | 13 => literal "\\r"
  | 9 => literal "\\t"
  | 34 => literal "\\\""
  | 92 => literal "\\\\"
  | n =>
      if n < 0x20 then
        literal "\\u" ++ Utf8.encode (fourHexDigits n)
      else
        [c]

def escapeJSONString
    (s : Bytes) : Except String Bytes :=
  if (Utf8.decode s).isNone then
    .error
      ("non-UTF-8 string not supported " ++
        "(PG would emit Encoded-Path)")
  else
    .ok (literal "\"" ++ s.flatMap escapeByte ++ literal "\"")

def formatInt (n : Int) : Bytes :=
  Utf8.encode (Json.renderInt n)

/- The layout `2006-01-02 15:04:05`, of a time in UTC. -/
def formatModTime (modTime : Time) : Bytes :=
  Utf8.encode
    (Timestamps.writeDateTime ' ' (modTime / 1000000000))

def writeFile
    (file : ManifestFileEntry)
    (escapedPath : Bytes) : Bytes :=
  literal "\x7b \"Path\": " ++ escapedPath ++ literal ", " ++
    literal "\"Size\": " ++ formatInt file.size ++
      literal ", " ++
    literal "\"Last-Modified\": \"" ++
      formatModTime file.modTime ++ literal " GMT\"" ++
    literal ", \"Checksum-Algorithm\": \"SHA256\"" ++
      literal ", \"Checksum\": \"" ++
      Utf8.encode file.checksumHex.text ++ literal "\"" ++
    literal " \x7d"

/- The files, each behind its separator. -/
def writeFiles
    (separator : Bytes) :
    List ManifestFileEntry → Except ManifestError Bytes
  | [] => .ok []
  | file :: files =>
      match escapeJSONString file.path with
      | .error cause =>
          .error
            { text := "escape manifest path"
              path := file.path
              cause := cause }
      | .ok escapedPath =>
          match writeFiles (literal ",\n") files with
          | .error error => .error error
          | .ok more =>
              .ok
                (separator ++ writeFile file escapedPath ++
                  more)

def writeWALRange (input : SerializeManifestInput) : Bytes :=
  literal "\x7b \"Timeline\": " ++ formatInt input.timelineID ++
    literal ", \"Start-LSN\": \"" ++
      literal (LSN.toText input.startLSN) ++
    literal "\", \"End-LSN\": \"" ++
      literal (LSN.toText input.stopLSN) ++ literal "\" \x7d"

def checksumLine (sum : Bytes) : Bytes :=
  literal "\"Manifest-Checksum\": \"" ++
    Utf8.encode (encodeHex sum).text ++ literal "\"\x7d\n"

def serializeManifest
    (sha256 : Bytes → Bytes)
    (input : SerializeManifestInput) :
    Except ManifestError Bytes :=
  match writeFiles (literal "\n") input.files with
  | .error error => .error error
  | .ok files =>
      let body :=
        literal "\x7b " ++
          literal "\"PostgreSQL-Backup-Manifest-Version\": 2" ++
          literal ",\n" ++
          literal "\"System-Identifier\": " ++
            formatInt input.systemID.toNat ++ literal ",\n" ++
          literal "\"Files\": [" ++ files ++
          literal "\n],\n" ++
          literal "\"WAL-Ranges\": [\n" ++
            writeWALRange input ++
          literal "\n],\n"
      .ok (body ++ checksumLine (sha256 body))

------------------------------------------------------------
-- Escapes
------------------------------------------------------------

variable {n : Nat}

/- The escape of a character, for one that is a byte. -/
def escapeChar (c : Char) : List Char :=
  match c.toNat with
  | 8 => "\\b".toList
  | 12 => "\\f".toList
  | 10 => "\\n".toList
  | 13 => "\\r".toList
  | 9 => "\\t".toList
  | 34 => "\\\"".toList
  | 92 => "\\\\".toList
  | n =>
      if n < 0x20 then
        "\\u".toList ++ fourHexDigits n
      else
        [c]

theorem escapeByte_of_lt
    (hSmall : n < 128) :
    escapeByte (UInt8.ofNat n) =
      Utf8.encode (escapeChar (Char.ofNat n)) := by
  have hAll :
      ∀ k : Fin 128,
        escapeByte (UInt8.ofNat k.val) =
          Utf8.encode (escapeChar (Char.ofNat k.val)) := by
    decide +kernel
  exact hAll ⟨n, hSmall⟩

theorem escapeByte_of_le
    {c : UInt8}
    (hWide : 128 ≤ c.toNat) :
    escapeByte c = [c] := by
  unfold escapeByte
  split
  all_goals first | omega | skip
  exact if_neg (by omega)

theorem escapeChar_of_le
    {c : Char}
    (hWide : 128 ≤ c.toNat) :
    escapeChar c = [c] := by
  unfold escapeChar
  split
  all_goals first | omega | skip
  exact if_neg (by omega)

theorem escape_sameOnBytes :
    Utf8.SameOnBytes escapeByte escapeChar := by
  refine ⟨?_, ?_, ?_⟩
  · intro c hSmall
    rw [escapeByte_of_lt hSmall, Char.ofNat_toNat]
  · intro c hWide
    exact escapeChar_of_le hWide
  · intro byte hWide
    exact escapeByte_of_le hWide

theorem isEscapeOf_number
    {c letter : Char}
    (hNumber : c.toNat = n)
    (hLetter : letter ≠ 'u')
    (hUnescape :
      Json.unescape letter = some (Char.ofNat n)) :
    Json.IsEscapeOf ['\\', letter] c := by
  have hChar : Char.ofNat n = c := by
    rw [← hNumber, Char.ofNat_toNat]
  rw [hChar] at hUnescape
  exact Json.isEscapeOf_letter hLetter hUnescape

/- Every escape is read as the character it was made of. -/
theorem isEscapeOf_escapeChar
    (c : Char) :
    Json.IsEscapeOf (escapeChar c) c := by
  unfold escapeChar
  split
  · next h => exact isEscapeOf_number h (by decide) (by decide)
  · next h => exact isEscapeOf_number h (by decide) (by decide)
  · next h => exact isEscapeOf_number h (by decide) (by decide)
  · next h => exact isEscapeOf_number h (by decide) (by decide)
  · next h => exact isEscapeOf_number h (by decide) (by decide)
  · next h => exact isEscapeOf_number h (by decide) (by decide)
  · next h => exact isEscapeOf_number h (by decide) (by decide)
  · next hQuote hBackslash =>
      split
      · next hControl => exact Json.isEscapeOf_unit (by omega)
      · next hPrintable =>
          refine
            Json.isEscapeOf_self
              ⟨Nat.le_of_not_lt hPrintable, ?_, ?_⟩
          · rintro rfl
            exact hQuote rfl
          · rintro rfl
            exact hBackslash rfl

/- A path that is a text is written as a JSON text. -/
theorem escapeJSONString_eq
    {s : Bytes}
    {text : List Char}
    (hText : Utf8.decode s = some text) :
    escapeJSONString s =
      .ok
        (Utf8.encode
          ('\"' :: (text.flatMap escapeChar ++ ['\"']))) := by
  have hBytes := Utf8.encode_of_decode hText
  unfold escapeJSONString
  rw [hText, Option.isNone_some, if_neg Bool.false_ne_true,
    ← hBytes,
    Utf8.flatMap_encode escape_sameOnBytes]
  have hQuote : literal "\"" = Utf8.encode ['\"'] := rfl
  rw [hQuote, ← Utf8.encode_append, ← Utf8.encode_append]
  rfl

theorem isTextOf_escaped
    (text : List Char) :
    Json.IsTextOf (text.flatMap escapeChar) text :=
  Json.isTextOf_flatMap fun c _ => isEscapeOf_escapeChar c

------------------------------------------------------------
-- Layout
------------------------------------------------------------

variable {files : List ManifestFileEntry}

/- A member as the manifest has it: a space after the colon. -/
def memberText
    (name : String)
    (value : List Char) : List Char :=
  '\"' :: (name.toList ++ '\"' :: ':' :: ' ' :: value)

def quoted (text : List Char) : List Char :=
  '\"' :: (text ++ ['\"'])

/- The characters of a path, where it has any. -/
def pathText (file : ManifestFileEntry) : List Char :=
  (Utf8.decode file.path).getD []

def modTimeText (modTime : Time) : List Char :=
  Timestamps.writeDateTime ' ' (modTime / 1000000000) ++
    " GMT".toList

def fileText (file : ManifestFileEntry) : List Char :=
  '{' :: (' ' ::
    (memberText "Path"
        (quoted ((pathText file).flatMap escapeChar)) ++
      ',' :: ' ' ::
    (memberText "Size" (Json.renderInt file.size) ++
      ',' :: ' ' ::
    (memberText "Last-Modified"
        (quoted (modTimeText file.modTime)) ++
      ',' :: ' ' ::
    (memberText "Checksum-Algorithm"
        (quoted "SHA256".toList) ++
      ',' :: ' ' ::
    (memberText "Checksum" (quoted file.checksumHex.text) ++
      [' ', '}']))))))

theorem writeFile_eq
    (file : ManifestFileEntry) :
    writeFile file
        (Utf8.encode
          (quoted ((pathText file).flatMap escapeChar))) =
      Utf8.encode (fileText file) := by
  unfold writeFile literal formatInt formatModTime
  simp only [← Utf8.encode_append]
  apply congrArg Utf8.encode
  simp [fileText, memberText, quoted, modTimeText]

/- Each file behind its separator. -/
def filesText
    (separator : List Char) :
    List ManifestFileEntry → List Char
  | [] => []
  | file :: files =>
      separator ++
        (fileText file ++ filesText [',', '\n'] files)

theorem writeFiles_eq
    (separator : List Char)
    (hPaths :
      ∀ file ∈ files, (Utf8.decode file.path).isSome) :
    writeFiles (Utf8.encode separator) files =
      .ok (Utf8.encode (filesText separator files)) := by
  induction files generalizing separator with
  | nil => rfl
  | cons file files ih =>
      rw [List.forall_mem_cons] at hPaths
      rcases Option.isSome_iff_exists.mp hPaths.1 with
        ⟨text, hText⟩
      have hPath : pathText file = text := by
        unfold pathText
        rw [hText]
        rfl
      have hFile := writeFile_eq file
      rw [hPath] at hFile
      have hMore := ih [',', '\n'] hPaths.2
      have hSeparator :
          literal ",\n" = Utf8.encode [',', '\n'] := rfl
      unfold writeFiles
      rw [escapeJSONString_eq hText]
      simp only
      rw [hSeparator, hMore]
      simp only
      unfold quoted at hFile
      rw [hFile, filesText, Utf8.encode_append,
        Utf8.encode_append, List.append_assoc]

def rangeText (input : SerializeManifestInput) : List Char :=
  '{' :: (' ' ::
    (memberText "Timeline" (Json.renderInt input.timelineID) ++
      ',' :: ' ' ::
    (memberText "Start-LSN"
        (quoted (LSN.toText input.startLSN).toList) ++
      ',' :: ' ' ::
    (memberText "End-LSN"
        (quoted (LSN.toText input.stopLSN).toList) ++
      [' ', '}']))))

theorem writeWALRange_eq
    (input : SerializeManifestInput) :
    writeWALRange input = Utf8.encode (rangeText input) := by
  unfold writeWALRange literal formatInt
  simp only [← Utf8.encode_append]
  apply congrArg Utf8.encode
  simp [rangeText, memberText, quoted]

/- All that stands before the checksum. -/
def bodyText (input : SerializeManifestInput) : List Char :=
  '{' :: (' ' ::
    (memberText "PostgreSQL-Backup-Manifest-Version" ['2'] ++
      ',' :: '\n' ::
    (memberText "System-Identifier"
        (Json.renderInt input.systemID.toNat) ++
      ',' :: '\n' ::
    (memberText "Files"
        ('[' ::
          (filesText ['\n'] input.files ++ ['\n', ']'])) ++
      ',' :: '\n' ::
    (memberText "WAL-Ranges"
        ('[' :: '\n' ::
          (rangeText input ++ ['\n', ']'])) ++
      [',', '\n'])))))

def checksumText (sum : Bytes) : List Char :=
  memberText "Manifest-Checksum" (quoted (encodeHex sum).text) ++
    ['}']

theorem checksumLine_eq
    (sum : Bytes) :
    checksumLine sum =
      Utf8.encode (checksumText sum ++ ['\n']) := by
  unfold checksumLine literal
  simp only [← Utf8.encode_append]
  apply congrArg Utf8.encode
  simp [checksumText, memberText, quoted]

theorem serializeManifest_eq
    (sha256 : Bytes → Bytes)
    {input : SerializeManifestInput}
    (hPaths :
      ∀ file ∈ input.files, (Utf8.decode file.path).isSome) :
    serializeManifest sha256 input =
      .ok
        (Utf8.encode (bodyText input) ++
          checksumLine
            (sha256 (Utf8.encode (bodyText input)))) := by
  have hSeparator : literal "\n" = Utf8.encode ['\n'] := rfl
  have hBody :
      literal "\x7b " ++
          literal "\"PostgreSQL-Backup-Manifest-Version\": 2" ++
          literal ",\n" ++
          literal "\"System-Identifier\": " ++
            formatInt input.systemID.toNat ++ literal ",\n" ++
          literal "\"Files\": [" ++
            Utf8.encode (filesText ['\n'] input.files) ++
          literal "\n],\n" ++
          literal "\"WAL-Ranges\": [\n" ++
            writeWALRange input ++
          literal "\n],\n" =
        Utf8.encode (bodyText input) := by
    rw [writeWALRange_eq]
    unfold literal formatInt
    simp only [← Utf8.encode_append]
    apply congrArg Utf8.encode
    simp [bodyText, memberText]
  unfold serializeManifest
  rw [hSeparator, writeFiles_eq ['\n'] hPaths]
  simp only
  rw [hBody]

end Physical

end Databasus
