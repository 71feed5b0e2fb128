import Databasus.Foundation.Framing
import Databasus.Iox.Source

/-
  The format of an encrypted stream.

  A stream starts with a header of 64 bytes.  Chunks of plain
  bytes follow, each sealed under a nonce of its own and put
  behind its sealed length.  The key derivation and the cipher
  come from libraries, and are parameters here.

  Main declarations:
    * `StreamError.is`
    * `Aead.IdealFor`
    * `StreamHeader.marshal`
    * `unmarshalStreamHeader_marshal`
    * `getChunkNonce_inj`
-/

------------------------------------------------------------
-- Errors
------------------------------------------------------------

namespace Databasus

namespace Crypto

/- The errors that callers look for. -/
inductive Sentinel
  | eof
  | unexpectedEOF
  | inputFailed
  | outputFailed
  | randomFailed
  | openFailed
  | emptyMasterKey
  | malformedStreamHeader
  | invalidStreamMagicBytes
  | streamHeaderMismatch
  | invalidStreamChunkLength
  | streamChunkAuthentication
deriving DecidableEq, Repr

/- An error, and the errors that its text was put around. -/
inductive StreamError
  | sentinel (error : Sentinel)
  | wrapped (text : String) (cause : StreamError)
  | joined (text : String) (first second : StreamError)
deriving DecidableEq, Repr

/- `errors.Is` looks through every wrapping. -/
def StreamError.is
    (target : Sentinel) : StreamError → Bool
  | .sentinel error => error == target
  | .wrapped _ cause => cause.is target
  | .joined _ first second =>
      first.is target || second.is target

def sourceError : Iox.SourceError → StreamError
  | .eof => .sentinel .eof
  | .unexpectedEOF => .sentinel .unexpectedEOF
  | .other => .sentinel .inputFailed

theorem sourceError_is_eof
    (cause : Iox.SourceError) :
    (sourceError cause).is .eof = true ↔ cause = .eof := by
  cases cause <;> decide

------------------------------------------------------------
-- The Cipher
------------------------------------------------------------

/- `cipher.AEAD`, without additional data. -/
structure Aead where
  overhead : Nat
  seals : Bytes → Bytes → Bytes
  opens : Bytes → Bytes → Option Bytes

/- What the libraries give: a key derivation and a cipher. -/
structure Primitives where
  uuidText : Uuid → String
  pbkdf2Key : String → Bytes → Nat → Nat → Bytes
  newGCM : Bytes → Aead

structure MasterKey where
  secret : String
deriving DecidableEq, Repr

def streamKeyLen : Nat := 32

def streamPBKDF2Iterations : Nat := 100000

/- The key of a stream: of the file and of its own salt. -/
def newStreamCipher
    (primitives : Primitives)
    (masterKey : Option MasterKey)
    (fileID : Uuid)
    (salt : Bytes) : Except StreamError Aead :=
  let secret := masterKey.elim "" MasterKey.secret
  if secret = "" then
    .error (.sentinel .emptyMasterKey)
  else
    let keyMaterial := secret ++ primitives.uuidText fileID
    let derivedKey :=
      primitives.pbkdf2Key keyMaterial salt
        streamPBKDF2Iterations streamKeyLen
    .ok (primitives.newGCM derivedKey)

/- A cipher that opens the nonces and plain bytes of `log`. -/
structure Aead.Opens
    (aead : Aead)
    (log : List (Bytes × Bytes)) : Prop where
  overhead_eq : aead.overhead = 16
  length_seals :
    ∀ nonce chunk,
      (aead.seals nonce chunk).length =
        chunk.length + aead.overhead
  opens_seals :
    ∀ entry ∈ log,
      aead.opens entry.1 (aead.seals entry.1 entry.2) =
        some entry.2

/-
  An ideal cipher after what is in `log` was sealed with its
  key: it opens that, under its own nonce, and nothing else.
-/
structure Aead.IdealFor
    (aead : Aead)
    (log : List (Bytes × Bytes)) : Prop
    extends aead.Opens log where
  sealed_of_opens :
    ∀ nonce sealedChunk chunk,
      aead.opens nonce sealedChunk = some chunk →
        (nonce, chunk) ∈ log ∧
          sealedChunk = aead.seals nonce chunk

------------------------------------------------------------
-- The Header
------------------------------------------------------------

/- The characters of `PGRSUS01`. -/
def streamMagicBytes : Bytes :=
  [0x50, 0x47, 0x52, 0x53, 0x55, 0x53, 0x30, 0x31]

def streamSaltLen : Nat := 32

def streamNonceLen : Nat := 12

def streamReservedLen : Nat := 12

def streamHeaderLen : Nat :=
  streamMagicBytes.length + streamSaltLen + streamNonceLen +
    streamReservedLen

def streamChunkSize : Nat := 1024 * 1024

def streamChunkLengthLen : Nat := 4

structure StreamHeader where
  salt : Bytes
  nonce : Bytes
deriving DecidableEq, Repr

/- `copy` fills the zeroed bytes from the front. -/
def copyInto
    (size : Nat)
    (data : Bytes) : Bytes :=
  data.take size ++ List.replicate (size - data.length) 0

theorem length_copyInto
    (size : Nat)
    (data : Bytes) :
    (copyInto size data).length = size := by
  unfold copyInto
  rw [List.length_append, List.length_take,
    List.length_replicate]
  omega

theorem copyInto_of_length
    {size : Nat}
    {data : Bytes}
    (hLength : data.length = size) :
    copyInto size data = data := by
  unfold copyInto
  rw [hLength, Nat.sub_self, List.replicate_zero,
    List.append_nil,
    List.take_of_length_le (Nat.le_of_eq hLength)]

/- What `rand.Read` put into the salt and the nonce. -/
def newRandomStreamHeader
    (salt nonce : Option Bytes) :
    Except StreamError StreamHeader :=
  match salt, nonce with
  | none, _ =>
      .error (.wrapped "generate the stream salt"
        (.sentinel .randomFailed))
  | some _, none =>
      .error (.wrapped "generate the stream nonce"
        (.sentinel .randomFailed))
  | some saltBytes, some nonceBytes =>
      .ok
        { salt := copyInto streamSaltLen saltBytes
          nonce := copyInto streamNonceLen nonceBytes }

namespace StreamHeader

def validateLengths
    (header : StreamHeader) : Except StreamError Unit :=
  if header.salt.length ≠ streamSaltLen then
    .error (.wrapped
      ("salt must be " ++ toString streamSaltLen ++
        " bytes, got " ++ toString header.salt.length)
      (.sentinel .malformedStreamHeader))
  else if header.nonce.length ≠ streamNonceLen then
    .error (.wrapped
      ("nonce must be " ++ toString streamNonceLen ++
        " bytes, got " ++ toString header.nonce.length)
      (.sentinel .malformedStreamHeader))
  else
    .ok ()

def marshal
    (header : StreamHeader) : Bytes :=
  streamMagicBytes ++ copyInto streamSaltLen header.salt ++
    copyInto streamNonceLen header.nonce ++
    List.replicate streamReservedLen 0

/- The lengths that a writer's own header has. -/
structure HasLengths
    (header : StreamHeader) : Prop where
  salt : header.salt.length = streamSaltLen
  nonce : header.nonce.length = streamNonceLen

theorem validateLengths_ok_iff
    (header : StreamHeader) :
    header.validateLengths = .ok () ↔ header.HasLengths := by
  unfold validateLengths
  constructor
  · intro hOk
    by_cases hSalt : header.salt.length = streamSaltLen
    · rw [if_neg (not_not_intro hSalt)] at hOk
      by_cases hNonce :
          header.nonce.length = streamNonceLen
      · exact ⟨hSalt, hNonce⟩
      · rw [if_pos hNonce] at hOk
        cases hOk
    · rw [if_pos hSalt] at hOk
      cases hOk
  · intro hLengths
    rw [if_neg (not_not_intro hLengths.salt),
      if_neg (not_not_intro hLengths.nonce)]

theorem hasLengths_of_random
    {salt nonce : Option Bytes}
    {header : StreamHeader}
    (hDrawn :
      newRandomStreamHeader salt nonce = .ok header) :
    header.HasLengths := by
  unfold newRandomStreamHeader at hDrawn
  split at hDrawn
  · cases hDrawn
  · cases hDrawn
  · injection hDrawn with hHeader
    subst hHeader
    exact ⟨length_copyInto _ _, length_copyInto _ _⟩

theorem marshal_of_lengths
    {header : StreamHeader}
    (hLengths : header.HasLengths) :
    header.marshal =
      streamMagicBytes ++ header.salt ++ header.nonce ++
        List.replicate streamReservedLen 0 := by
  unfold marshal
  rw [copyInto_of_length hLengths.salt,
    copyInto_of_length hLengths.nonce]

theorem length_marshal
    {header : StreamHeader}
    (hLengths : header.HasLengths) :
    header.marshal.length = streamHeaderLen := by
  rw [marshal_of_lengths hLengths]
  simp only [List.length_append, hLengths.salt,
    hLengths.nonce, List.length_replicate, streamHeaderLen]

end StreamHeader

/- The bytes of a Go string, as a text. -/
def bytesText
    (bytes : Bytes) : String :=
  String.ofList (bytes.map fun byte => Char.ofNat byte.toNat)

/- The reserved bytes at the end are not looked at. -/
def unmarshalStreamHeader
    (header : Bytes) : Except StreamError StreamHeader :=
  let saltStart := streamMagicBytes.length
  let nonceStart := saltStart + streamSaltLen
  let magic := header.take saltStart
  if magic ≠ streamMagicBytes then
    .error (.wrapped
      ("expected " ++ bytesText streamMagicBytes ++
        ", got " ++ bytesText magic)
      (.sentinel .invalidStreamMagicBytes))
  else
    .ok
      { salt := (header.drop saltStart).take streamSaltLen
        nonce :=
          (header.drop nonceStart).take streamNonceLen }

/- What was written is read back. -/
theorem unmarshalStreamHeader_marshal
    {header : StreamHeader}
    (hLengths : header.HasLengths) :
    unmarshalStreamHeader header.marshal = .ok header := by
  have hSalt : header.salt.length = 32 := hLengths.salt
  have hNonce : header.nonce.length = 12 := hLengths.nonce
  have hAfterMagic :
      header.marshal.drop streamMagicBytes.length =
        header.salt ++ (header.nonce ++
          List.replicate streamReservedLen 0) := by
    rw [StreamHeader.marshal_of_lengths hLengths]
    simp only [List.append_assoc, List.drop_left]
  have hAfterSalt :
      header.marshal.drop
          (streamMagicBytes.length + streamSaltLen) =
        header.nonce ++
          List.replicate streamReservedLen 0 := by
    rw [← List.drop_drop, hAfterMagic]
    exact List.drop_left' hLengths.salt
  have hMagic :
      header.marshal.take streamMagicBytes.length =
        streamMagicBytes := by
    rw [StreamHeader.marshal_of_lengths hLengths]
    simp only [List.append_assoc, List.take_left]
  unfold unmarshalStreamHeader
  simp only [hMagic, hAfterMagic, hAfterSalt]
  rw [if_neg (not_not_intro rfl),
    List.take_left' hLengths.salt,
    List.take_left' hLengths.nonce]

------------------------------------------------------------
-- Chunks
------------------------------------------------------------

/- `binary.BigEndian.PutUint32`. -/
def putUint32
    (value : UInt32) : Bytes :=
  BigEndian.encode streamChunkLengthLen value.toNat

/- `binary.BigEndian.Uint32`. -/
def getUint32
    (bytes : Bytes) : UInt32 :=
  UInt32.ofNat (BigEndian.decode bytes)

/- The index takes the last 8 bytes of the stream's nonce. -/
def getChunkNonce
    (streamNonce : Bytes)
    (chunkIndex : UInt64) : Bytes :=
  (copyInto streamNonceLen streamNonce).take
      (streamNonceLen - 8) ++
    BigEndian.encode 8 chunkIndex.toNat

@[simp]
theorem length_putUint32
    (value : UInt32) :
    (putUint32 value).length = streamChunkLengthLen :=
  BigEndian.length_encode _ _

theorem getUint32_putUint32
    (value : UInt32) :
    getUint32 (putUint32 value) = value := by
  have hFits : value.toNat < 256 ^ streamChunkLengthLen :=
    value.toNat_lt
  unfold getUint32 putUint32
  rw [BigEndian.decode_encode_of_lt hFits]
  exact UInt32.ofNat_toNat

theorem putUint32_getUint32
    {bytes : Bytes}
    (hLength : bytes.length = streamChunkLengthLen) :
    putUint32 (getUint32 bytes) = bytes := by
  have hFits : BigEndian.decode bytes < 2 ^ 32 := by
    have hBound := BigEndian.decode_lt bytes
    rw [hLength] at hBound
    exact hBound
  unfold putUint32 getUint32
  rw [UInt32.toNat_ofNat_of_lt' hFits, ← hLength]
  exact BigEndian.encode_decode bytes

/- Two chunks of a stream never share a nonce. -/
theorem getChunkNonce_inj
    {streamNonce : Bytes}
    {left right : UInt64}
    (hSame :
      getChunkNonce streamNonce left =
        getChunkNonce streamNonce right) :
    left = right := by
  have hIndex := List.append_cancel_left hSame
  exact UInt64.toNat_inj.mp
    (BigEndian.encode_inj left.toNat_lt right.toNat_lt hIndex)

/- A sealed chunk behind its length. -/
def chunkFrame
    (sealedChunk : Bytes) : Bytes :=
  putUint32 (UInt32.ofNat sealedChunk.length) ++ sealedChunk

end Crypto

end Databasus
