import Mathlib.Algebra.Group.Nat.Defs
import Databasus.Common
import Databasus.Foundation.JsonLayout

/-
  The objects of a chunked file: their keys and the manifest.

  A file that is larger than one part is stored as numbered
  objects and a manifest of them, which is a JSON object under
  a key of its own.

  Main declarations:
    * `ObjectSpan`
    * `ChunkedManifest`
    * `partObjectKey`
    * `manifestObjectKey`
    * `marshalManifest`
    * `unmarshalManifest`
    * `unmarshal_marshalManifest`
-/

------------------------------------------------------------
-- Keys
------------------------------------------------------------

namespace Databasus

namespace Storages

namespace S3

variable {keyPrefix first second : String}

def manifestSuffix : String := ".parts"

def partSuffix : String := ".part"

def partIndexDigits : Nat := 6

def manifestVersion : Int := 1

/- A number with leading zeros up to the width. -/
def zeroPadded
    (width n : Nat) : List Char :=
  List.replicate (width - (Nat.toDigits 10 n).length) '0' ++
    Nat.toDigits 10 n

def partObjectKey
    (baseKey : String)
    (objectIndex : Nat) : String :=
  baseKey ++ partSuffix ++
    String.ofList (zeroPadded partIndexDigits objectIndex)

def isPartObjectKey
    (baseKey candidate : String) : Bool :=
  let stem := (baseKey ++ partSuffix).toList
  let index := candidate.toList.drop stem.length
  stem.isPrefixOf candidate.toList &&
    index.length = partIndexDigits && index.all Char.isDigit

def manifestObjectKey (baseKey : String) : String :=
  baseKey ++ manifestSuffix

/- The key of a file in the bucket. -/
def buildObjectKey
    (keyPrefix fileName : String) : String :=
  if keyPrefix = "" then
    fileName
  else
    let trimmed :=
      if keyPrefix.toList.head? = some '/' then
        keyPrefix.toList.tail
      else
        keyPrefix.toList
    let closed :=
      if trimmed.getLast? = some '/' then
        trimmed
      else
        trimmed ++ ['/']
    String.ofList closed ++ fileName

/- A padded number is still that number. -/
theorem zeroPadded_injective
    (width : Nat) :
    Function.Injective (zeroPadded width) := by
  intro first second hSame
  have hValue :
      ∀ n,
        Nat.ofDigitChars 10 (zeroPadded width n) 0 = n := by
    intro n
    unfold zeroPadded
    rw [Nat.ofDigitChars_append,
      Nat.ofDigitChars_replicate_zero, Nat.mul_zero,
      Nat.ofDigitChars_ten_toDigits]
  rw [← hValue first, hSame, hValue second]

theorem partObjectKey_injective
    (baseKey : String) :
    Function.Injective (partObjectKey baseKey) := by
  intro first second hSame
  have hLists := congrArg String.toList hSame
  simp only [partObjectKey, String.toList_append,
    String.toList_ofList] at hLists
  exact
    zeroPadded_injective partIndexDigits
      (List.append_cancel_left hLists)

theorem zeroPadded_digits
    {width n : Nat} :
    ∀ c ∈ zeroPadded width n, c.isDigit = true := by
  intro c hMember
  rcases List.mem_append.mp hMember with hZero | hDigit
  · rw [List.eq_of_mem_replicate hZero]
    rfl
  · exact
      Nat.isDigit_of_mem_toDigits (by omega) (by omega) hDigit

/- The six digits after the stem of a numbered object. -/
theorem isPartObjectKey_iff
    {baseKey candidate : String} :
    isPartObjectKey baseKey candidate = true ↔
      ∃ digits : List Char,
        candidate.toList =
            (baseKey ++ partSuffix).toList ++ digits ∧
          digits.length = partIndexDigits ∧
          digits.all Char.isDigit = true := by
  simp only [isPartObjectKey, Bool.and_eq_true,
    decide_eq_true_eq, List.isPrefixOf_iff_prefix]
  constructor
  · rintro ⟨⟨⟨digits, hSplit⟩, hLength⟩, hDigits⟩
    rw [← hSplit, List.drop_left] at hLength hDigits
    exact ⟨digits, hSplit.symm, hLength, hDigits⟩
  · rintro ⟨digits, hSplit, hLength, hDigits⟩
    rw [hSplit, List.drop_left]
    exact ⟨⟨List.prefix_append _ digits, hLength⟩, hDigits⟩

/- The width holds exactly the numbers of few digits. -/
theorem length_zeroPadded
    (width n : Nat)
    (hWidth : 0 < width) :
    (zeroPadded width n).length = width ↔
      n < 10 ^ width := by
  rw [← Nat.length_toDigits_le_iff (by omega) hWidth]
  simp only [zeroPadded, List.length_append,
    List.length_replicate]
  omega

/- Listing knows the numbers of six digits only. -/
theorem isPartObjectKey_partObjectKey
    (baseKey : String)
    (objectIndex : Nat) :
    isPartObjectKey baseKey
          (partObjectKey baseKey objectIndex) =
        true ↔
      objectIndex < 10 ^ partIndexDigits := by
  have hKey :
      (partObjectKey baseKey objectIndex).toList =
        (baseKey ++ partSuffix).toList ++
          zeroPadded partIndexDigits objectIndex := by
    rw [partObjectKey, String.toList_append,
      String.toList_ofList]
  rw [isPartObjectKey_iff,
    ← length_zeroPadded partIndexDigits objectIndex
      (by decide)]
  constructor
  · rintro ⟨digits, hSplit, hLength, _⟩
    rw [hKey] at hSplit
    rw [List.append_cancel_left hSplit, hLength]
  · intro hLength
    refine ⟨_, hKey, hLength, ?_⟩
    rw [List.all_eq_true]
    exact zeroPadded_digits

/- A key is a numbered object of at most one file. -/
theorem eq_of_isPartObjectKey
    {first second key : String}
    (hFirst : isPartObjectKey first key = true)
    (hSecond : isPartObjectKey second key = true) :
    first = second := by
  rcases isPartObjectKey_iff.mp hFirst with
    ⟨digits, hKey, hLength, _⟩
  rcases isPartObjectKey_iff.mp hSecond with
    ⟨digits', hKey', hLength', _⟩
  rw [hKey] at hKey'
  have hStems :=
    (List.append_inj' hKey' (hLength.trans hLength'.symm)).1
  rw [String.toList_append, String.toList_append] at hStems
  exact String.toList_injective (List.append_cancel_right hStems)

/- The key of a manifest does not end in a digit. -/
theorem manifestObjectKey_ne_append_digits
    (baseKey : String)
    (stem : List Char)
    {digits : List Char}
    (hSome : digits ≠ [])
    (hDigits : ∀ c ∈ digits, c.isDigit = true) :
    stem ++ digits ≠ (manifestObjectKey baseKey).toList := by
  intro hSame
  have hLast := congrArg List.getLast? hSame
  rw [List.getLast?_append_of_ne_nil _ hSome] at hLast
  have hEnd :
      (manifestObjectKey baseKey).toList.getLast? =
        some 's' := by
    rw [manifestObjectKey, String.toList_append,
      List.getLast?_append_of_ne_nil _ (by decide)]
    rfl
  rw [hEnd] at hLast
  have hDigit := hDigits 's' (List.mem_of_getLast? hLast)
  exact absurd hDigit (by decide)

theorem isPartObjectKey_manifestObjectKey
    (baseKey other : String) :
    isPartObjectKey baseKey (manifestObjectKey other) =
      false := by
  rw [Bool.eq_false_iff]
  intro hPart
  rcases isPartObjectKey_iff.mp hPart with
    ⟨digits, hKey, hLength, hDigits⟩
  refine
    manifestObjectKey_ne_append_digits other _ ?_
      (List.all_eq_true.mp hDigits) hKey.symm
  rintro rfl
  cases hLength

/- No manifest lies under the key of a numbered object. -/
theorem partObjectKey_ne_manifestObjectKey
    (baseKey other : String)
    (objectIndex : Nat) :
    partObjectKey baseKey objectIndex ≠
      manifestObjectKey other := by
  intro hSame
  have hLists := congrArg String.toList hSame
  rw [partObjectKey, String.toList_append,
    String.toList_ofList] at hLists
  refine
    manifestObjectKey_ne_append_digits other _ ?_
      zeroPadded_digits hLists
  intro hNone
  have hLength := congrArg List.length hNone
  have hDigits : 0 < (Nat.toDigits 10 objectIndex).length :=
    Nat.length_toDigits_pos
  simp only [zeroPadded, List.length_append,
    List.length_nil] at hLength
  omega

theorem manifestObjectKey_injective :
    Function.Injective manifestObjectKey := by
  intro first second hSame
  have hLists := congrArg String.toList hSame
  rw [manifestObjectKey, manifestObjectKey,
    String.toList_append, String.toList_append] at hLists
  exact
    String.toList_injective (List.append_cancel_right hLists)

/- All files of a bucket are stored under the same prefix. -/
theorem buildObjectKey_eq
    (keyPrefix : String) :
    ∃ lead,
      ∀ fileName,
        buildObjectKey keyPrefix fileName =
          lead ++ fileName := by
  by_cases hNone : keyPrefix = ""
  · refine ⟨"", fun fileName => ?_⟩
    rw [buildObjectKey, if_pos hNone, String.empty_append]
  · simp only [buildObjectKey, if_neg hNone]
    exact ⟨_, fun _ => rfl⟩

theorem buildObjectKey_injective
    (keyPrefix : String) :
    Function.Injective (buildObjectKey keyPrefix) := by
  intro first second hSame
  rcases buildObjectKey_eq keyPrefix with ⟨lead, hLead⟩
  rw [hLead, hLead] at hSame
  have hLists := congrArg String.toList hSame
  rw [String.toList_append, String.toList_append] at hLists
  exact String.toList_injective (List.append_cancel_left hLists)

theorem buildObjectKey_eq_manifestObjectKey
    (hSame :
      buildObjectKey keyPrefix first =
        manifestObjectKey (buildObjectKey keyPrefix second)) :
    first = manifestObjectKey second := by
  rcases buildObjectKey_eq keyPrefix with ⟨lead, hLead⟩
  rw [hLead, hLead, manifestObjectKey, String.append_assoc]
    at hSame
  have hLists := congrArg String.toList hSame
  rw [String.toList_append, String.toList_append] at hLists
  exact String.toList_injective (List.append_cancel_left hLists)

theorem isPartObjectKey_buildObjectKey
    (hPart :
      isPartObjectKey (buildObjectKey keyPrefix second)
          (buildObjectKey keyPrefix first) =
        true) :
    isPartObjectKey second first = true := by
  rcases buildObjectKey_eq keyPrefix with ⟨lead, hLead⟩
  rw [hLead, hLead] at hPart
  rcases isPartObjectKey_iff.mp hPart with
    ⟨digits, hKey, hLength, hDigits⟩
  refine isPartObjectKey_iff.mpr ⟨digits, ?_, hLength, hDigits⟩
  rw [String.append_assoc, String.toList_append,
    String.toList_append, List.append_assoc] at hKey
  exact List.append_cancel_left hKey

------------------------------------------------------------
-- The Manifest
------------------------------------------------------------

open Foundation

/- A stored object, its length and its checksum. -/
structure ObjectSpan where
  key : String
  size : Int
  sha256 : String
deriving DecidableEq, Repr

structure ChunkedManifest where
  version : Int
  totalSize : Int
  parts : List ObjectSpan
deriving DecidableEq, Repr

def ObjectSpan.toJson (span : ObjectSpan) : Json :=
  .obj
    [("key".toList, .str span.key.toList),
      ("size".toList, .num span.size),
      ("sha256".toList, .str span.sha256.toList)]

/- A slice that nothing was appended to is null. -/
def partsToJson : List ObjectSpan → Json
  | [] => .null
  | parts => .arr (parts.map ObjectSpan.toJson)

def ChunkedManifest.toJson
    (manifest : ChunkedManifest) : Json :=
  .obj
    [("version".toList, .num manifest.version),
      ("totalSize".toList, .num manifest.totalSize),
      ("parts".toList, partsToJson manifest.parts)]

def encodeUtf8 (text : List Char) : Bytes :=
  (String.ofList text).toUTF8.data.toList

def decodeUtf8 (bytes : Bytes) : Option (List Char) :=
  (String.fromUTF8? ⟨bytes.toArray⟩).map String.toList

def marshalManifest (manifest : ChunkedManifest) : Bytes :=
  encodeUtf8 manifest.toJson.render

/- The last member of a name counts. -/
def findMember
    (name : String)
    (members : List (List Char × Json)) : Option Json :=
  ((members.filter fun member =>
    member.1 = name.toList).getLast?).map Prod.snd

/- A member that is missing or null leaves the zero value. -/
def intMember
    (name : String)
    (members : List (List Char × Json)) : Option Int :=
  match findMember name members with
  | none => some 0
  | some .null => some 0
  | some (.num value) => some value
  | some _ => none

def strMember
    (name : String)
    (members : List (List Char × Json)) : Option String :=
  match findMember name members with
  | none => some ""
  | some .null => some ""
  | some (.str text) => some (String.ofList text)
  | some _ => none

def spanOfJson : Json → Option ObjectSpan
  | .null => some { key := "", size := 0, sha256 := "" }
  | .obj members => do
      let key ← strMember "key" members
      let size ← intMember "size" members
      let sha256 ← strMember "sha256" members
      some { key := key, size := size, sha256 := sha256 }
  | _ => none

def partsMember
    (name : String)
    (members : List (List Char × Json)) :
    Option (List ObjectSpan) :=
  match findMember name members with
  | none => some []
  | some .null => some []
  | some (.arr items) => items.mapM spanOfJson
  | some _ => none

def manifestOfJson : Json → Option ChunkedManifest
  | .null => some { version := 0, totalSize := 0, parts := [] }
  | .obj members => do
      let version ← intMember "version" members
      let totalSize ← intMember "totalSize" members
      let parts ← partsMember "parts" members
      some
        { version := version
          totalSize := totalSize
          parts := parts }
  | _ => none

def unmarshalManifest
    (body : Bytes) : Option ChunkedManifest := do
  let text ← decodeUtf8 body
  let value ← Json.parse text
  manifestOfJson value

theorem decodeUtf8_encodeUtf8
    (text : List Char) :
    decodeUtf8 (encodeUtf8 text) = some text := by
  have hBytes :
      (⟨(encodeUtf8 text).toArray⟩ : ByteArray) =
        (String.ofList text).toByteArray := by
    simp [encodeUtf8]
  unfold decodeUtf8
  rw [hBytes, String.fromUTF8?,
    dif_pos (String.ofList text).isValidUTF8]
  change some (String.ofList text).toList = some text
  rw [String.toList_ofList]

theorem spanOfJson_toJson
    (span : ObjectSpan) :
    spanOfJson span.toJson = some span := by
  simp [spanOfJson, ObjectSpan.toJson, strMember, intMember,
    findMember]

theorem manifestOfJson_toJson
    (manifest : ChunkedManifest) :
    manifestOfJson manifest.toJson = some manifest := by
  have hParts :
      ∀ parts : List ObjectSpan,
        (parts.map ObjectSpan.toJson).mapM spanOfJson =
          some parts := by
    intro parts
    induction parts with
    | nil => rfl
    | cons part parts ih => simp [spanOfJson_toJson, ih]
  obtain ⟨version, totalSize, parts⟩ := manifest
  cases parts with
  | nil =>
      simp [manifestOfJson, ChunkedManifest.toJson,
        partsToJson, intMember, partsMember, findMember]
  | cons part parts =>
      simp [manifestOfJson, ChunkedManifest.toJson,
        partsToJson, intMember, partsMember, findMember,
        spanOfJson_toJson, hParts]

/- A manifest is read as it was written. -/
theorem unmarshal_marshalManifest
    (manifest : ChunkedManifest) :
    unmarshalManifest (marshalManifest manifest) =
      some manifest := by
  unfold unmarshalManifest marshalManifest
  rw [decodeUtf8_encodeUtf8]
  simp [Json.parse_render, manifestOfJson_toJson]

end S3

end Storages

end Databasus
