import Databasus.Physical.ManifestSerialization

/-
  The backup manifest as a reader of JSON sees it.

  Main declarations:
    * `parseManifest`
    * `isValueOf_manifest`
    * `manifest_lists_its_files`
-/

------------------------------------------------------------
-- Reading
------------------------------------------------------------

namespace Databasus

namespace Physical

open Foundation

/- A file as a reader of the manifest sees it. -/
structure ListedFile where
  path : Bytes
  size : Int
  lastModified : List Char
  checksumAlgorithm : List Char
  checksum : List Char
deriving DecidableEq, Repr

structure ListedRange where
  timeline : Int
  startLSN : List Char
  endLSN : List Char
deriving DecidableEq, Repr

structure ParsedManifest where
  version : Int
  systemID : Int
  files : List ListedFile
  walRanges : List ListedRange
  manifestChecksum : List Char
deriving DecidableEq, Repr

def member (name : String) : Json → Option Json
  | .obj members => members.lookup name.toList
  | _ => none

def intMember
    (name : String)
    (value : Json) : Option Int :=
  match member name value with
  | some (.num n) => some n
  | _ => none

def textMember
    (name : String)
    (value : Json) : Option (List Char) :=
  match member name value with
  | some (.str text) => some text
  | _ => none

def itemsMember
    (name : String)
    (value : Json) : Option (List Json) :=
  match member name value with
  | some (.arr items) => some items
  | _ => none

def readListedFile (value : Json) : Option ListedFile := do
  let path ← textMember "Path" value
  let size ← intMember "Size" value
  let lastModified ← textMember "Last-Modified" value
  let algorithm ← textMember "Checksum-Algorithm" value
  let checksum ← textMember "Checksum" value
  some
    { path := Utf8.encode path
      size := size
      lastModified := lastModified
      checksumAlgorithm := algorithm
      checksum := checksum }

def readListedRange (value : Json) : Option ListedRange := do
  let timeline ← intMember "Timeline" value
  let startLSN ← textMember "Start-LSN" value
  let endLSN ← textMember "End-LSN" value
  some
    { timeline := timeline
      startLSN := startLSN
      endLSN := endLSN }

def readManifest (value : Json) : Option ParsedManifest := do
  let version ←
    intMember "PostgreSQL-Backup-Manifest-Version" value
  let systemID ← intMember "System-Identifier" value
  let files ← itemsMember "Files" value
  let files ← files.mapM readListedFile
  let ranges ← itemsMember "WAL-Ranges" value
  let ranges ← ranges.mapM readListedRange
  let checksum ← textMember "Manifest-Checksum" value
  some
    { version := version
      systemID := systemID
      files := files
      walRanges := ranges
      manifestChecksum := checksum }

/- A manifest is one JSON value. -/
def parseManifest (bytes : Bytes) : Option ParsedManifest := do
  let text ← Utf8.decode bytes
  let value ← Json.parse text
  readManifest value

/- The second that a file was last modified in. -/
def readLastModified (text : List Char) : Option Int :=
  match Timestamps.readDateTime ' ' text with
  | some (second, rest) =>
      if rest = " GMT".toList then some second else none
  | none => none

------------------------------------------------------------
-- What is Read
------------------------------------------------------------

open Walmath (LSN LSN.toText)

def fileJson (file : ManifestFileEntry) : Json :=
  .obj
    [("Path".toList, .str (pathText file)),
      ("Size".toList, .num file.size),
      ("Last-Modified".toList,
        .str (modTimeText file.modTime)),
      ("Checksum-Algorithm".toList, .str "SHA256".toList),
      ("Checksum".toList, .str file.checksumHex.text)]

def rangeJson (input : SerializeManifestInput) : Json :=
  .obj
    [("Timeline".toList, .num input.timelineID),
      ("Start-LSN".toList,
        .str (LSN.toText input.startLSN).toList),
      ("End-LSN".toList,
        .str (LSN.toText input.stopLSN).toList)]

def manifestJson
    (input : SerializeManifestInput)
    (sum : Bytes) : Json :=
  .obj
    [("PostgreSQL-Backup-Manifest-Version".toList, .num 2),
      ("System-Identifier".toList,
        .num input.systemID.toNat),
      ("Files".toList, .arr (input.files.map fileJson)),
      ("WAL-Ranges".toList, .arr [rangeJson input]),
      ("Manifest-Checksum".toList,
        .str (encodeHex sum).text)]

theorem spaces_singleton
    {c : Char}
    (hSpace : Json.isSpace c = true) :
    Json.Spaces [c] := by
  intro other hOther
  rw [List.mem_singleton.mp hOther]
  exact hSpace

theorem isMemberOf_memberText
    (name : String)
    {written : List Char}
    {value : Json}
    (hName :
      (name.toList.all fun c =>
          decide (Json.NeedsNoEscape c)) =
        true)
    (hValue : Json.IsValueOf written value) :
    Json.IsMemberOf (memberText name written)
      (name.toList, value) :=
  Json.isMemberOf_pair
    (Json.isTextOf_self (Json.needsNoEscape_of_all hName))
    Json.spaces_nil
    (Json.IsValueOf.spaced (spaces_singleton rfl) hValue)

theorem isValueOf_quoted
    {text : List Char}
    (hText : ∀ c ∈ text, Json.NeedsNoEscape c) :
    Json.IsValueOf (quoted text) (.str text) :=
  Json.isValueOf_str (Json.isTextOf_self hText)

theorem needsNoEscape_fixed
    {width n : Nat} :
    ∀ c ∈ Timestamps.fixed width n, Json.NeedsNoEscape c :=
  fun _ hChar =>
    Json.needsNoEscape_of_isDigit
      (Timestamps.isDigit_of_mem_fixed hChar)

theorem needsNoEscape_writeYear
    (year : Int) :
    ∀ c ∈ Timestamps.writeYear year,
      Json.NeedsNoEscape c := by
  have hDigits :
      ∀ c ∈
        (if year.natAbs < 10 ^ 4 then
          Timestamps.fixed 4 year.natAbs
        else
          Nat.toDigits 10 year.natAbs),
        Json.NeedsNoEscape c := by
    intro c hChar
    split at hChar
    · exact needsNoEscape_fixed c hChar
    · exact
        Json.needsNoEscape_of_isDigit
          (Nat.isDigit_of_mem_toDigits (by decide) (by decide)
            hChar)
  intro c hChar
  unfold Timestamps.writeYear at hChar
  simp only at hChar
  by_cases hSign : year < 0
  · rw [if_pos hSign] at hChar
    rcases List.mem_cons.mp hChar with rfl | hDigit
    · decide
    · exact hDigits c hDigit
  · rw [if_neg hSign] at hChar
    exact hDigits c hChar

theorem needsNoEscape_modTimeText
    (modTime : Time) :
    ∀ c ∈ modTimeText modTime, Json.NeedsNoEscape c := by
  intro c hChar
  simp only [modTimeText, Timestamps.writeDateTime,
    List.mem_append, List.mem_cons] at hChar
  rcases hChar with
    (hYear | rfl | hMonth | rfl | hDay | rfl | hHour | rfl |
      hMinute | rfl | hSecond) | hZone
  · exact needsNoEscape_writeYear _ c hYear
  · decide
  · exact needsNoEscape_fixed c hMonth
  · decide
  · exact needsNoEscape_fixed c hDay
  · decide
  · exact needsNoEscape_fixed c hHour
  · decide
  · exact needsNoEscape_fixed c hMinute
  · decide
  · exact needsNoEscape_fixed c hSecond
  · exact Json.needsNoEscape_of_all (by decide) c hZone

theorem needsNoEscape_hex
    (checksum : ChecksumHex) :
    ∀ c ∈ checksum.text, Json.NeedsNoEscape c := by
  intro c hChar
  exact
    Json.needsNoEscape_of_all (by decide) c
      (checksum.isHex c hChar)

theorem needsNoEscape_hexText
    {n : Nat}
    (hBound : n < 2 ^ 32) :
    ∀ c ∈ Walmath.hexText n, Json.NeedsNoEscape c := by
  have hAll :
      ∀ k < 128,
        Walmath.isHexDigit (Char.ofNat k) = true →
          Json.NeedsNoEscape (Char.ofNat k) := by
    decide
  intro c hChar
  have hDigit :=
    Walmath.isHexDigit_of_parseHexFrom
      (Walmath.parseHex_some (Walmath.isField_hexText hBound).2)
      c hChar
  rcases (Walmath.isHexDigit_iff c).mp hDigit with
    ⟨value, hValue⟩
  have hSame :=
    hAll c.toNat (Walmath.toNat_lt_of_hexDigit hValue)
  rw [Char.ofNat_toNat] at hSame
  exact hSame hDigit

theorem needsNoEscape_lsn
    (lsn : LSN) :
    ∀ c ∈ (LSN.toText lsn).toList, Json.NeedsNoEscape c := by
  intro c hChar
  unfold LSN.toText at hChar
  rw [String.toList_ofList, List.mem_append, List.mem_cons]
    at hChar
  rcases hChar with hHigh | rfl | hLow
  · exact
      needsNoEscape_hexText (Nat.mod_lt _ (by decide)) c hHigh
  · decide
  · exact
      needsNoEscape_hexText (Nat.mod_lt _ (by decide)) c hLow

/- A file is written as its JSON object. -/
theorem isValueOf_fileText
    (file : ManifestFileEntry) :
    Json.IsValueOf (fileText file) (fileJson file) := by
  have hSpace : Json.Spaces [' '] := spaces_singleton rfl
  have hPath :=
    isMemberOf_memberText "Path" (by decide)
      (Json.isValueOf_str (isTextOf_escaped (pathText file)))
  have hSize :=
    isMemberOf_memberText "Size" (by decide)
      (Json.isValueOf_num file.size)
  have hModified :=
    isMemberOf_memberText "Last-Modified" (by decide)
      (isValueOf_quoted
        (needsNoEscape_modTimeText file.modTime))
  have hAlgorithm :=
    isMemberOf_memberText "Checksum-Algorithm" (by decide)
      (isValueOf_quoted
        (Json.needsNoEscape_of_all
          (by decide :
            ("SHA256".toList.all fun c =>
                decide (Json.NeedsNoEscape c)) =
              true)))
  have hChecksum :=
    isMemberOf_memberText "Checksum" (by decide)
      (isValueOf_quoted (needsNoEscape_hex file.checksumHex))
  have hMembers :=
    Json.AreMembersOf.cons hSpace hPath Json.spaces_nil
      (Json.AreMembersOf.cons hSpace hSize Json.spaces_nil
        (Json.AreMembersOf.cons hSpace hModified
          Json.spaces_nil
          (Json.AreMembersOf.cons hSpace hAlgorithm
            Json.spaces_nil
            (Json.areMembersOf_singleton hSpace hChecksum
              hSpace))))
  exact Json.isValueOf_obj hMembers

theorem isValueOf_rangeText
    (input : SerializeManifestInput) :
    Json.IsValueOf (rangeText input) (rangeJson input) := by
  have hSpace : Json.Spaces [' '] := spaces_singleton rfl
  have hTimeline :=
    isMemberOf_memberText "Timeline" (by decide)
      (Json.isValueOf_num input.timelineID)
  have hStart :=
    isMemberOf_memberText "Start-LSN" (by decide)
      (isValueOf_quoted (needsNoEscape_lsn input.startLSN))
  have hEnd :=
    isMemberOf_memberText "End-LSN" (by decide)
      (isValueOf_quoted (needsNoEscape_lsn input.stopLSN))
  have hMembers :=
    Json.AreMembersOf.cons hSpace hTimeline Json.spaces_nil
      (Json.AreMembersOf.cons hSpace hStart Json.spaces_nil
        (Json.areMembersOf_singleton hSpace hEnd hSpace))
  exact Json.isValueOf_obj hMembers

/- The files after an opening bracket, and its closing one. -/
theorem areItemsOf_filesText
    (file : ManifestFileEntry)
    (files : List ManifestFileEntry) :
    Json.AreItemsOf
      (filesText ['\n'] (file :: files) ++ ['\n', ']'])
      ((file :: files).map fileJson) := by
  have hLine : Json.Spaces ['\n'] := spaces_singleton rfl
  induction files generalizing file with
  | nil =>
      have hLast :=
        Json.areItemsOf_singleton
          (Json.IsValueOf.spaced hLine
            (isValueOf_fileText file)) hLine
      simpa [filesText] using hLast
  | cons next files ih =>
      have hItems :=
        Json.AreItemsOf.cons
          (Json.IsValueOf.spaced hLine
            (isValueOf_fileText file))
          Json.spaces_nil (ih next)
      simpa [filesText] using hItems

theorem isValueOf_files
    (files : List ManifestFileEntry) :
    Json.IsValueOf
      ('[' :: (filesText ['\n'] files ++ ['\n', ']']))
      (.arr (files.map fileJson)) := by
  cases files with
  | nil => exact Json.isValueOf_arr_nil (spaces_singleton rfl)
  | cons file files =>
      exact Json.isValueOf_arr (areItemsOf_filesText file files)

theorem isValueOf_manifest
    (input : SerializeManifestInput)
    (sum : Bytes) :
    Json.IsValueOf (bodyText input ++ checksumText sum)
      (manifestJson input sum) := by
  have hSpace : Json.Spaces [' '] := spaces_singleton rfl
  have hLine : Json.Spaces ['\n'] := spaces_singleton rfl
  have hVersion :=
    isMemberOf_memberText "PostgreSQL-Backup-Manifest-Version"
      (by decide) (Json.isValueOf_num 2)
  have hSystem :=
    isMemberOf_memberText "System-Identifier" (by decide)
      (Json.isValueOf_num input.systemID.toNat)
  have hFiles :=
    isMemberOf_memberText "Files" (by decide)
      (isValueOf_files input.files)
  have hRanges :=
    isMemberOf_memberText "WAL-Ranges" (by decide)
      (Json.isValueOf_arr
        (Json.areItemsOf_singleton
          (Json.IsValueOf.spaced hLine
            (isValueOf_rangeText input)) hLine))
  have hChecksum :=
    isMemberOf_memberText "Manifest-Checksum" (by decide)
      (isValueOf_quoted (needsNoEscape_hex (encodeHex sum)))
  have hMembers :=
    Json.AreMembersOf.cons hSpace hVersion Json.spaces_nil
      (Json.AreMembersOf.cons hLine hSystem Json.spaces_nil
        (Json.AreMembersOf.cons hLine hFiles Json.spaces_nil
          (Json.AreMembersOf.cons hLine hRanges
            Json.spaces_nil
            (Json.areMembersOf_singleton hLine hChecksum
              Json.spaces_nil))))
  have hManifest := Json.isValueOf_obj hMembers
  have hTwo : Json.renderInt 2 = ['2'] := by decide
  rw [hTwo] at hManifest
  simpa [bodyText, checksumText, manifestJson] using hManifest

/- What a reader is to see of a file. -/
def listedFile (file : ManifestFileEntry) : ListedFile where
  path := file.path
  size := file.size
  lastModified := modTimeText file.modTime
  checksumAlgorithm := "SHA256".toList
  checksum := file.checksumHex.text

def listedRange
    (input : SerializeManifestInput) : ListedRange where
  timeline := input.timelineID
  startLSN := (LSN.toText input.startLSN).toList
  endLSN := (LSN.toText input.stopLSN).toList

theorem readListedFile_fileJson
    {file : ManifestFileEntry}
    (hPath : (Utf8.decode file.path).isSome) :
    readListedFile (fileJson file) =
      some (listedFile file) := by
  rcases Option.isSome_iff_exists.mp hPath with ⟨text, hText⟩
  have hBytes : Utf8.encode (pathText file) = file.path := by
    unfold pathText
    rw [hText]
    exact Utf8.encode_of_decode hText
  have hRead :
      readListedFile (fileJson file) =
        some
          { listedFile file with
            path := Utf8.encode (pathText file) } := by
    rfl
  rw [hRead, hBytes]
  rfl

theorem mapM_readListedFile
    {files : List ManifestFileEntry}
    (hPaths :
      ∀ file ∈ files, (Utf8.decode file.path).isSome) :
    (files.map fileJson).mapM readListedFile =
      some (files.map listedFile) := by
  induction files with
  | nil => rfl
  | cons file files ih =>
      rw [List.forall_mem_cons] at hPaths
      rw [List.map_cons, List.mapM_cons,
        readListedFile_fileJson hPaths.1, ih hPaths.2]
      rfl

theorem readManifest_manifestJson
    {input : SerializeManifestInput}
    (sum : Bytes)
    (hPaths :
      ∀ file ∈ input.files, (Utf8.decode file.path).isSome) :
    readManifest (manifestJson input sum) =
      some
        { version := 2
          systemID := input.systemID.toNat
          files := input.files.map listedFile
          walRanges := [listedRange input]
          manifestChecksum := (encodeHex sum).text } := by
  have hFiles := mapM_readListedFile hPaths
  have hRead :
      readManifest (manifestJson input sum) =
        (do
          let files ←
            (input.files.map fileJson).mapM readListedFile
          some
            { version := 2
              systemID := input.systemID.toNat
              files := files
              walRanges := [listedRange input]
              manifestChecksum := (encodeHex sum).text }) := by
    rfl
  rw [hRead, hFiles]
  rfl

/- The second is read back from a year of four digits. -/
theorem readLastModified_modTimeText
    {modTime : Int}
    (hYear :
      Timestamps.InFourDigitYears (modTime / 1000000000)) :
    readLastModified (modTimeText modTime) =
      some (modTime / 1000000000) := by
  unfold readLastModified modTimeText
  rw [Timestamps.readDateTime_writeDateTime ' ' hYear]
  exact if_pos rfl

/-
  The manifest is read as its files, in their order, and its
  checksum is that of all bytes before the checksum's line.
-/
theorem manifest_lists_its_files
    (sha256 : Bytes → Bytes)
    {input : SerializeManifestInput}
    (hPaths :
      ∀ file ∈ input.files, (Utf8.decode file.path).isSome) :
    ∃ body,
      serializeManifest sha256 input =
          .ok (body ++ checksumLine (sha256 body)) ∧
        parseManifest (body ++ checksumLine (sha256 body)) =
          some
            { version := 2
              systemID := input.systemID.toNat
              files := input.files.map listedFile
              walRanges := [listedRange input]
              manifestChecksum :=
                (encodeHex (sha256 body)).text } ∧
        ∀ file ∈ input.files,
          Timestamps.InFourDigitYears
              (file.modTime / 1000000000) →
            readLastModified (listedFile file).lastModified =
              some (file.modTime / 1000000000) := by
  refine
    ⟨Utf8.encode (bodyText input),
      serializeManifest_eq sha256 hPaths, ?_, ?_⟩
  · generalize sha256 (Utf8.encode (bodyText input)) = sum
    have hParse :=
      Json.parse_of_isValueOf (isValueOf_manifest input sum)
        (spaces_singleton (rfl : Json.isSpace '\n' = true))
    unfold parseManifest
    rw [checksumLine_eq, ← Utf8.encode_append,
      Utf8.decode_encode, ← List.append_assoc]
    simp only [Option.bind_eq_bind, Option.bind_some]
    rw [hParse]
    exact readManifest_manifestJson sum hPaths
  · intro file _ hYear
    exact readLastModified_modTimeText hYear

/- The hexadecimal text of a hash of zeros. -/
def sampleChecksum : ChecksumHex :=
  encodeHex (List.replicate 32 0)

/- A path with a quote, a backslash and control characters. -/
def sampleFile : ManifestFileEntry where
  path := Utf8.encode ['a', '\"', '\\', '\n', Char.ofNat 1, 'é']
  size := 8192
  modTime := 1780056000000000000
  checksumHex := sampleChecksum

def sampleInput : SerializeManifestInput where
  files := [sampleFile, sampleFile]
  systemID := 7361234567890123456
  timelineID := 1
  startLSN := 0x3000060
  stopLSN := 0x3000220

theorem sampleFile_is_listed_twice :
    ∃ body manifest,
      serializeManifest (fun _ => List.replicate 32 0)
          sampleInput =
            .ok
              (body ++ checksumLine (List.replicate 32 0)) ∧
        parseManifest
            (body ++ checksumLine (List.replicate 32 0)) =
          some manifest ∧
        manifest.files =
          [listedFile sampleFile, listedFile sampleFile] ∧
        readLastModified
            (listedFile sampleFile).lastModified =
          some 1780056000 := by
  have hPath : (Utf8.decode sampleFile.path).isSome := by
    unfold sampleFile
    rw [Utf8.decode_encode]
    rfl
  have hPaths :
      ∀ file ∈ sampleInput.files,
        (Utf8.decode file.path).isSome := by
    intro file hFile
    simp only [sampleInput, List.mem_cons, List.not_mem_nil,
      or_false, or_self] at hFile
    rw [hFile]
    exact hPath
  rcases
    manifest_lists_its_files
      (fun _ => List.replicate 32 0) hPaths with
    ⟨body, hWritten, hRead, hModified⟩
  refine ⟨body, _, hWritten, hRead, rfl, ?_⟩
  exact
    hModified sampleFile List.mem_cons_self
      (by decide +kernel)

end Physical

end Databasus
