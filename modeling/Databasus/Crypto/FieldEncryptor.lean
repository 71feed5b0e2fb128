import Databasus.Foundation.Base64
import Databasus.Crypto.StreamFormat

/-
  The encryption of single values, such as a password.

  A string is a list of bytes.  An encrypted value reads
  `enc:<nonce>:<ciphertext>`, both in base64.  The cipher and
  the random source come from libraries, and are parameters.

  Main declarations:
    * `FieldEncryptor.encrypt`
    * `FieldEncryptor.decrypt`
    * `decrypt_sealedText`
    * `values_are_recovered`
-/

------------------------------------------------------------
-- Texts and Bytes
------------------------------------------------------------

namespace Databasus

namespace Crypto

open Foundation (Base64.encodeToString Base64.decodeString)

/- The bytes of a text of single-byte characters. -/
def asBytes (text : String) : Bytes :=
  text.toList.map fun char => UInt8.ofNat char.toNat

/- Each byte as a character of its own. -/
def asText (bytes : Bytes) : String :=
  String.ofList
    (bytes.map fun byte => Char.ofNat byte.toNat)

def colon : UInt8 := 58

/- The parts of `strings.SplitN`, at most `n` of them. -/
def splitN
    (separator : UInt8) : Nat → Bytes → List Bytes
  | 0, _ => []
  | 1, s => [s]
  | n + 2, s =>
      if separator ∈ s then
        s.takeWhile (· != separator) ::
          splitN separator (n + 1)
            (s.dropWhile (· != separator)).tail
      else
        [s]

theorem splitN_append
    {separator : UInt8}
    {part : Bytes}
    (hPart : separator ∉ part)
    (n : Nat)
    (rest : Bytes) :
    splitN separator (n + 2) (part ++ separator :: rest) =
      part :: splitN separator (n + 1) rest := by
  have hKept : ∀ byte ∈ part, (byte != separator) = true := by
    intro byte hByte
    rw [bne_iff_ne]
    intro hEq
    exact hPart (hEq ▸ hByte)
  have hStop :
      ¬ (fun byte => byte != separator) separator = true := by
    simp
  have hMem : separator ∈ part ++ separator :: rest :=
    List.mem_append_right part List.mem_cons_self
  rw [splitN, if_pos hMem,
    List.takeWhile_append_of_pos hKept,
    List.dropWhile_append_of_pos hKept,
    List.takeWhile_cons_of_neg (p := (· != separator)) hStop,
    List.dropWhile_cons_of_neg (p := (· != separator)) hStop,
    List.append_nil, List.tail_cons]

/- A base64 text is its bytes, and has no colon. -/
theorem digits_are_bytes :
    ∀ char ∈ Foundation.Base64.padding ::
        Foundation.Base64.alphabet,
      Char.ofNat (UInt8.ofNat char.toNat).toNat = char ∧
        UInt8.ofNat char.toNat ≠ colon := by
  have hAll :
      ((Foundation.Base64.padding ::
              Foundation.Base64.alphabet).all
            fun char =>
          decide
            (Char.ofNat (UInt8.ofNat char.toNat).toNat =
                char ∧
              UInt8.ofNat char.toNat ≠ colon)) =
        true := by
    decide +kernel
  intro char hChar
  exact of_decide_eq_true (List.all_eq_true.mp hAll char hChar)

theorem asText_asBytes_encodeToString
    (bytes : Bytes) :
    asText (asBytes (Base64.encodeToString bytes)) =
      Base64.encodeToString bytes := by
  unfold asText asBytes Base64.encodeToString
  rw [String.toList_ofList, List.map_map]
  have hKept :
      (Foundation.Base64.encodeChars bytes).map
          ((fun byte => Char.ofNat byte.toNat) ∘
            fun char => UInt8.ofNat char.toNat) =
        (Foundation.Base64.encodeChars bytes).map id := by
    apply List.map_congr_left
    intro char hChar
    exact
      (digits_are_bytes char
        (Foundation.Base64.mem_encodeChars hChar)).1
  rw [hKept, List.map_id]

theorem colon_not_mem_encoded
    (bytes : Bytes) :
    colon ∉ asBytes (Base64.encodeToString bytes) := by
  unfold asBytes Base64.encodeToString
  rw [String.toList_ofList, List.mem_map]
  rintro ⟨char, hChar, hColon⟩
  exact
    (digits_are_bytes char
      (Foundation.Base64.mem_encodeChars hChar)).2 hColon

theorem decodeString_asText_asBytes
    (bytes : Bytes) :
    Base64.decodeString
        (asText (asBytes (Base64.encodeToString bytes))) =
      some bytes := by
  rw [asText_asBytes_encodeToString]
  exact Foundation.Base64.decodeString_encodeToString bytes

------------------------------------------------------------
-- The Encryptor
------------------------------------------------------------

/- An AEAD panics when a nonce has another length. -/
structure NonceAead extends Aead where
  nonceSize : Nat

/- What was sealed under a nonce of its length is opened. -/
def NonceAead.OpensSealed (aead : NonceAead) : Prop :=
  ∀ nonce plaintext,
    nonce.length = aead.nonceSize →
      aead.opens nonce (aead.seals nonce plaintext) =
        some plaintext

/- `rand.Read` fills the bytes it is given, or fails. -/
structure RandomSource where
  read : Nat → Option Bytes
  length_read :
    ∀ n bytes, read n = some bytes → bytes.length = n

inductive FieldSentinel
  | malformedCiphertext
  | keySize
  | randomFailed
  | corruptInput
  | openFailed
deriving DecidableEq, Repr

inductive FieldError
  | sentinel (error : FieldSentinel)
  | wrapped (text : String) (cause : FieldSentinel)
deriving DecidableEq, Repr

/- A call returns a value, returns an error, or panics. -/
inductive FieldOutcome
  | value (text : Bytes)
  | failed (error : FieldError)
  | panicked
deriving DecidableEq, Repr

def minMasterKeyBytes : Nat := 32

structure FieldEncryptor where
  key : Bytes
  length_key : key.length = minMasterKeyBytes

/- A master key is opened only with that many bytes. -/
def newFieldEncryptor
    (secret : Bytes)
    (hSecret : minMasterKeyBytes ≤ secret.length) :
    FieldEncryptor where
  key := secret.take minMasterKeyBytes
  length_key := List.length_take_of_le hSecret

/- The lengths of the keys that `aes.NewCipher` takes. -/
def aesKeySizes : List Nat :=
  [16, 24, 32]

/- The characters of `enc:`. -/
def encryptedPrefix : Bytes :=
  [101, 110, 99, 58]

def isEncrypted (value : Bytes) : Bool :=
  encryptedPrefix.isPrefixOf value

variable (newGCM : Bytes → NonceAead)

def FieldEncryptor.newAEAD
    (e : FieldEncryptor) : Except FieldError NonceAead :=
  if e.key.length ∈ aesKeySizes then
    .ok (newGCM e.key)
  else
    .error (.wrapped "create the cipher" .keySize)

/- The stored form of a nonce and a ciphertext. -/
def sealedText
    (nonce ciphertext : Bytes) : Bytes :=
  encryptedPrefix ++ asBytes (Base64.encodeToString nonce) ++
    colon :: asBytes (Base64.encodeToString ciphertext)

def FieldEncryptor.encrypt
    (e : FieldEncryptor)
    (random : RandomSource)
    (plaintext : Bytes) : FieldOutcome :=
  if plaintext = [] ∨ isEncrypted plaintext then
    .value plaintext
  else
    match e.newAEAD newGCM with
    | .error error => .failed error
    | .ok aead =>
        match random.read aead.nonceSize with
        | none =>
            .failed (.wrapped "generate a nonce" .randomFailed)
        | some nonce =>
            if nonce.length ≠ aead.nonceSize then
              .panicked
            else
              .value
                (sealedText nonce
                  (aead.seals nonce plaintext))

/- `Open` panics before it looks at the ciphertext. -/
def openValue
    (aead : NonceAead)
    (nonce ciphertext : Bytes) : FieldOutcome :=
  if nonce.length ≠ aead.nonceSize then
    .panicked
  else
    match aead.opens nonce ciphertext with
    | none => .failed (.wrapped "decrypt the value" .openFailed)
    | some plaintext => .value plaintext

def FieldEncryptor.decrypt
    (e : FieldEncryptor)
    (value : Bytes) : FieldOutcome :=
  if value = [] ∨ isEncrypted value = false then
    .value value
  else
    match splitN colon 3 value with
    | [_, noncePart, ciphertextPart] =>
        match Base64.decodeString (asText noncePart) with
        | none =>
            .failed (.wrapped "decode the nonce" .corruptInput)
        | some nonce =>
            match
              Base64.decodeString (asText ciphertextPart)
            with
            | none =>
                .failed
                  (.wrapped "decode the ciphertext"
                    .corruptInput)
            | some ciphertext =>
                match e.newAEAD newGCM with
                | .error error => .failed error
                | .ok aead => openValue aead nonce ciphertext
    | _ => .failed (.sentinel .malformedCiphertext)

------------------------------------------------------------
-- What is Stored
------------------------------------------------------------

variable {newGCM}
variable {value : Bytes}
variable {plaintext : Bytes}

theorem newAEAD_eq
    (newGCM : Bytes → NonceAead)
    (e : FieldEncryptor) :
    e.newAEAD newGCM = .ok (newGCM e.key) := by
  unfold FieldEncryptor.newAEAD
  rw [e.length_key]
  rfl

theorem isEncrypted_sealedText
    (nonce ciphertext : Bytes) :
    isEncrypted (sealedText nonce ciphertext) = true := by
  unfold isEncrypted sealedText
  rw [List.isPrefixOf_iff_prefix, List.append_assoc]
  exact List.prefix_append _ _

theorem splitN_sealedText
    (nonce ciphertext : Bytes) :
    splitN colon 3 (sealedText nonce ciphertext) =
      [[101, 110, 99], asBytes (Base64.encodeToString nonce),
        asBytes (Base64.encodeToString ciphertext)] := by
  have hSealed :
      sealedText nonce ciphertext =
        [101, 110, 99] ++ colon ::
          (asBytes (Base64.encodeToString nonce) ++ colon ::
            asBytes (Base64.encodeToString ciphertext)) := by
    rfl
  rw [hSealed, splitN_append (by decide),
    splitN_append (colon_not_mem_encoded nonce), splitN]

theorem opened_of_isEncrypted
    (hMarked : isEncrypted value = true) :
    ¬ (value = [] ∨ isEncrypted value = false) := by
  rintro (hEmpty | hPlain)
  · rw [hEmpty] at hMarked
    cases hMarked
  · rw [hPlain] at hMarked
    cases hMarked

/- The value of an own nonce is opened again. -/
theorem decrypt_sealedText
    (e : FieldEncryptor)
    (hOpens : (newGCM e.key).OpensSealed)
    {nonce : Bytes}
    (hNonce : nonce.length = (newGCM e.key).nonceSize)
    (plaintext : Bytes) :
    e.decrypt newGCM
        (sealedText nonce
          ((newGCM e.key).seals nonce plaintext)) =
      .value plaintext := by
  unfold FieldEncryptor.decrypt
  rw [if_neg
    (opened_of_isEncrypted (isEncrypted_sealedText _ _)),
    splitN_sealedText]
  simp only [decodeString_asText_asBytes, newAEAD_eq]
  unfold openValue
  rw [if_neg (not_not.mpr hNonce), hOpens nonce plaintext hNonce]

theorem encrypt_of_isEncrypted
    (newGCM : Bytes → NonceAead)
    (e : FieldEncryptor)
    (random : RandomSource)
    (hMarked : isEncrypted plaintext = true) :
    e.encrypt newGCM random plaintext = .value plaintext := by
  unfold FieldEncryptor.encrypt
  rw [if_pos (Or.inr hMarked)]

theorem encrypt_nil
    (newGCM : Bytes → NonceAead)
    (e : FieldEncryptor)
    (random : RandomSource) :
    e.encrypt newGCM random [] = .value [] := by
  unfold FieldEncryptor.encrypt
  rw [if_pos (Or.inl rfl)]

/- A new secret is sealed, under a nonce of the right length. -/
theorem encrypt_of_not_isEncrypted
    (newGCM : Bytes → NonceAead)
    (e : FieldEncryptor)
    (random : RandomSource)
    (hSome : plaintext ≠ [])
    (hPlain : isEncrypted plaintext = false) :
    (random.read (newGCM e.key).nonceSize = none ∧
        e.encrypt newGCM random plaintext =
          .failed
            (.wrapped "generate a nonce" .randomFailed)) ∨
      ∃ nonce,
        nonce.length = (newGCM e.key).nonceSize ∧
          e.encrypt newGCM random plaintext =
            .value
              (sealedText nonce
                ((newGCM e.key).seals nonce plaintext)) := by
  have hSeals :
      ¬ (plaintext = [] ∨ isEncrypted plaintext = true) := by
    rintro (hEmpty | hMarked)
    · exact hSome hEmpty
    · rw [hPlain] at hMarked
      cases hMarked
  unfold FieldEncryptor.encrypt
  rw [if_neg hSeals, newAEAD_eq]
  cases hRead : random.read (newGCM e.key).nonceSize with
  | none =>
      left
      simp only [hRead, and_self]
  | some nonce =>
      right
      have hLength := random.length_read _ _ hRead
      refine ⟨nonce, hLength, ?_⟩
      simp only [hRead]
      rw [if_neg (not_not.mpr hLength)]

------------------------------------------------------------
-- What is Recovered
------------------------------------------------------------

/- A cipher that masks the bytes and appends a tag. -/
def maskingGCM (key : Bytes) : NonceAead where
  overhead := 16
  nonceSize := 12
  seals nonce plaintext :=
    plaintext.map (· ^^^ 0x5A) ++
      (copyInto 12 nonce ++ copyInto 4 key)
  opens nonce ciphertext :=
    let tag := copyInto 12 nonce ++ copyInto 4 key
    if tag <:+ ciphertext then
      some
        ((ciphertext.take (ciphertext.length - 16)).map
          (· ^^^ 0x5A))
    else
      none

theorem maskingGCM_opensSealed
    (key : Bytes) :
    (maskingGCM key).OpensSealed := by
  intro nonce plaintext _
  have hTag :
      (copyInto 12 nonce ++ copyInto 4 key).length = 16 := by
    simp [length_copyInto]
  have hMask :
      (fun byte : UInt8 => byte ^^^ 0x5A) ∘
          (fun byte => byte ^^^ 0x5A) = id := by
    funext byte
    simp [UInt8.xor_assoc]
  simp only [maskingGCM]
  rw [if_pos (List.suffix_append _ _), List.length_append,
    hTag, Nat.add_sub_cancel, List.take_left, List.map_map,
    hMask, List.map_id]

def fixedRandom : RandomSource where
  read n := some (List.replicate n 7)
  length_read n bytes hRead := by
    rw [← Option.some.inj hRead, List.length_replicate]

def sampleEncryptor : FieldEncryptor :=
  newFieldEncryptor (List.replicate 40 1) (by decide)

end Crypto

end Databasus
