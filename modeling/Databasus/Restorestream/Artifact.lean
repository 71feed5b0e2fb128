import Databasus.WalStreaming.SegmentArtifact
import Databasus.WalStreaming.Upload

/-
  Stored objects, opened for a restore.

  An object is decrypted as its row says, with the row's own
  id in the key.  A WAL segment is shipped decrypted but
  still compressed.

  Main declarations:
    * `openArtifact`
    * `writeWalSegment`
    * `writeWalSegment_of_artifact`
-/

------------------------------------------------------------
-- Reading to the End
------------------------------------------------------------

namespace Databasus

namespace Restorestream

open Crypto

/- The free space that `io.ReadAll` reads into at first. -/
def readAllSize : Nat := 512

/-
  The loop of `io.ReadAll`.  Every read that is not the last
  takes a byte, so one read more than the stream has bytes is
  enough.
-/
def readAll :
    Nat → DecryptingReader → Except StreamError Bytes
  | 0, _ => .ok []
  | passes + 1, r =>
      match r.read readAllSize with
      | (data, some err, _) =>
          if err = .sentinel .eof then
            .ok data
          else
            .error err
      | (data, none, next) =>
          match readAll passes next with
          | .error err => .error err
          | .ok rest => .ok (data ++ rest)

theorem readAll_intact
    {aead : Aead}
    {streamNonce : Bytes}
    {chunks : List Bytes}
    {passes : Nat}
    {left : Bytes}
    {r : DecryptingReader}
    (hOpens : aead.Opens (sealLog streamNonce chunks))
    (hShort :
      ∀ chunk ∈ chunks, chunk.length ≤ streamChunkSize)
    (hIntact : Intact aead streamNonce chunks left r)
    (hPasses : left.length < passes) :
    readAll passes r = .ok left := by
  have hAsked : 0 < readAllSize := by decide
  induction passes generalizing left r with
  | zero => exact absurd hPasses (Nat.not_lt_zero _)
  | succ passes ih =>
      rcases read_intact hOpens hShort hAsked hIntact with
        ⟨next, hNext, hRead⟩
      unfold readAll
      by_cases hNone : left = []
      · rw [if_pos hNone] at hRead
        rw [hRead, hNone]
        rfl
      · rw [if_neg hNone] at hRead
        have hPositive : 0 < left.length :=
          List.length_pos_iff.mpr hNone
        have hFewer :
            (left.drop readAllSize).length < passes := by
          rw [List.length_drop]
          omega
        rw [hRead]
        simp only [ih hNext hFewer, List.take_append_drop]

------------------------------------------------------------
-- Opening Objects
------------------------------------------------------------

open Catalog

inductive RestoreError
  | plain (text : String)
  | stream (cause : StreamError)
  | wrapped (text : String) (cause : StreamError)
deriving DecidableEq, Repr

/- How a stored object is opened into its bytes. -/
structure ArtifactSource where
  fileName : String
  encryption : BackupEncryption
  salt : Option String
  iv : Option String
  keyID : Uuid
  compression : BackupCompression
deriving DecidableEq, Repr

/- The storages that can be loaded, and their objects. -/
abbrev StorageReaders :=
  Uuid → Option (String → Option Bytes)

def newDecryptingReader
    (primitives : Primitives)
    (object : Bytes)
    (masterKey : Option MasterKey)
    (src : ArtifactSource) :
    Except RestoreError DecryptingReader :=
  if masterKey = none then
    .error (.plain
      ("artifact " ++ src.fileName ++
        " is encrypted but no master key was provided"))
  else
    match src.salt, src.iv with
    | some saltText, some ivText =>
        match Foundation.Base64.decodeString saltText with
        | none =>
            .error (.plain
              ("decode salt for " ++ src.fileName))
        | some salt =>
            match Foundation.Base64.decodeString ivText with
            | none =>
                .error (.plain
                  ("decode iv for " ++ src.fileName))
            | some iv =>
                match
                  Crypto.newDecryptingReader primitives
                    { rest := object, ending := .eof }
                    masterKey src.keyID
                    { salt := salt, nonce := iv } with
                | .error err => .error (.stream err)
                | .ok r => .ok r
    | _, _ =>
        .error (.plain
          ("artifact " ++ src.fileName ++
            " is encrypted but missing salt/iv"))

/- The decompressor of a codec; only what is stored raw has none. -/
def decompressorOf
    (gunzip unzstd : Bytes → Option Bytes) :
    BackupCompression → Bytes → Option Bytes
  | .none => some
  | .gzip => gunzip
  | .zstd => unzstd

/- The whole body of an opened object. -/
def readArtifact
    (primitives : Primitives)
    (gunzip unzstd : Bytes → Option Bytes)
    (openFile : String → Option Bytes)
    (masterKey : Option MasterKey)
    (src : ArtifactSource) : Except RestoreError Bytes :=
  match openFile src.fileName with
  | none => .error (.plain ("open " ++ src.fileName))
  | some object =>
      let decrypted : Except RestoreError Bytes :=
        match src.encryption with
        | .none => .ok object
        | .encrypted =>
            match
              newDecryptingReader primitives object masterKey
                src with
            | .error err => .error err
            | .ok r =>
                match readAll (object.length + 1) r with
                | .error err =>
                    .error (.wrapped
                      ("read " ++ src.fileName ++ " body")
                      err)
                | .ok body => .ok body
      match decrypted with
      | .error err => .error err
      | .ok body =>
          match
            decompressorOf gunzip unzstd src.compression
              body with
          | none =>
              .error (.plain
                ("decompress " ++ src.fileName))
          | some raw => .ok raw

/- An entry of the tar stream: its name and its body. -/
structure TarEntry where
  name : String
  body : Bytes
deriving DecidableEq, Repr

/- A segment ships as it is stored, only decrypted. -/
def writeWalSegment
    (primitives : Primitives)
    (gunzip unzstd : Bytes → Option Bytes)
    (storages : StorageReaders)
    (masterKey : Option MasterKey)
    (segment : WalSegment) :
    Except RestoreError TarEntry :=
  match segment.fileName with
  | none =>
      .error (.plain
        ("wal segment " ++ segment.walFilename ++
          " has no stored file"))
  | some fileName =>
      match storages segment.storageID with
      | none =>
          .error (.plain
            ("load storage " ++ toString segment.storageID))
      | some openFile =>
          match
            readArtifact primitives gunzip unzstd openFile
              masterKey
              { fileName
                encryption := segment.encryption
                salt := segment.encryptionSalt
                iv := segment.encryptionIV
                keyID := segment.id
                compression := .none } with
          | .error err => .error err
          | .ok body =>
              .ok
                { name :=
                    "wal/" ++ segment.walFilename ++ ".zst"
                  body }

------------------------------------------------------------
-- Artifacts Read Back
------------------------------------------------------------

open WalStreaming (IsArtifact SegmentCodec nilIfEmpty)

variable {codec : SegmentCodec}
variable {aead : Aead}

/- A sealed stream is at least as long as its plain bytes. -/
theorem length_flatten_le_frames
    {streamNonce : Bytes}
    {chunks : List Bytes}
    (hOpens : aead.Opens (sealLog streamNonce chunks)) :
    chunks.flatten.length ≤
      (streamFrames aead streamNonce
        chunks).flatten.length := by
  induction chunks using List.reverseRecOn with
  | nil => exact Nat.zero_le _
  | append_singleton chunks chunk ih =>
      have hFewer :
          aead.Opens (sealLog streamNonce chunks) := by
        refine ⟨hOpens.overhead_eq, hOpens.length_seals, ?_⟩
        intro entry hEntry
        apply hOpens.opens_seals
        rw [sealLog_concat]
        exact List.mem_append_left _ hEntry
      have hRest := ih hFewer
      have hLast :=
        hOpens.length_seals
          (getChunkNonce streamNonce
            (UInt64.ofNat chunks.length)) chunk
      rw [streamFrames_concat]
      simp only [List.flatten_append, List.flatten_singleton,
        List.length_append,
        DecryptingReader.length_chunkFrame]
      omega

/- The whole stream of a writer is read to its end. -/
theorem readAll_sealed
    (header : StreamHeader)
    (plain : Bytes)
    (hOpens :
      aead.Opens
        (sealLog header.nonce (streamChunks plain))) :
    readAll
        ((header.marshal ++
          (streamFrames aead header.nonce
            (streamChunks plain)).flatten).length + 1)
        (readerAt aead header.nonce [] 0
          (streamFrames aead header.nonce
            (streamChunks plain)).flatten) =
      .ok plain := by
  have hIntact :=
    intact_readerAt aead header.nonce (streamChunks plain)
  have hLength := length_flatten_le_frames hOpens
  rw [flatten_streamChunks] at hIntact hLength
  apply readAll_intact hOpens _ hIntact
  · rw [List.length_append]
    omega
  · intro chunk hChunk
    exact (size_of_mem_streamChunks plain chunk hChunk).2

/- A stream that a writer wrote starts with its header. -/
theorem startsWithHeader_marshal
    {header : StreamHeader}
    (hLengths : header.HasLengths)
    (body : Bytes) :
    StartsWithHeader header (header.marshal ++ body) ∧
      (header.marshal ++ body).drop streamHeaderLen =
        body := by
  have hLength := StreamHeader.length_marshal hLengths
  refine ⟨⟨?_, ?_⟩, ?_⟩
  · rw [List.length_append, hLength]
    exact Nat.le_add_right _ _
  · rw [List.take_left' hLength]
    exact unmarshalStreamHeader_marshal hLengths
  · exact List.drop_left' hLength

theorem nilIfEmpty_encodeToString
    {bytes : Bytes}
    (hSome : bytes ≠ []) :
    nilIfEmpty (Foundation.Base64.encodeToString bytes) =
      some (Foundation.Base64.encodeToString bytes) :=
  if_neg (Foundation.Base64.encodeToString_ne_empty hSome)

section

variable {primitives : Primitives}
variable {gunzip unzstd : Bytes → Option Bytes}
variable {openFile : String → Option Bytes}
variable {masterKey : Option MasterKey}
variable {src : ArtifactSource}
variable {object : Bytes}

/- A plain object that is not unpacked is read as it is. -/
theorem readArtifact_plain
    (hObject : openFile src.fileName = some object)
    (hEncryption : src.encryption = .none)
    (hCompression : src.compression = .none) :
    readArtifact primitives gunzip unzstd openFile masterKey
        src =
      .ok object := by
  unfold readArtifact
  simp only [hObject, hEncryption, hCompression]
  rfl

/- A sealed one is read as what its reader returns. -/
theorem readArtifact_encrypted
    {r : DecryptingReader}
    {body : Bytes}
    (hObject : openFile src.fileName = some object)
    (hEncryption : src.encryption = .encrypted)
    (hCompression : src.compression = .none)
    (hReader :
      newDecryptingReader primitives object masterKey src =
        .ok r)
    (hBody : readAll (object.length + 1) r = .ok body) :
    readArtifact primitives gunzip unzstd openFile masterKey
        src =
      .ok body := by
  unfold readArtifact
  simp only [hObject, hEncryption, hCompression, hReader,
    hBody]
  rfl

end

/-
  A row that describes the object under its name ships the
  compressed bytes of what the object was made of.
-/
theorem writeWalSegment_of_artifact
    {gunzip unzstd : Bytes → Option Bytes}
    {storages : StorageReaders}
    {segment : WalSegment}
    {openFile : String → Option Bytes}
    {fileName salt iv : String}
    {content object : Bytes}
    (hSound : codec.Sound)
    (hArtifact :
      IsArtifact codec segment.encryption segment.id content
        object salt iv)
    (hFileName : segment.fileName = some fileName)
    (hSalt : segment.encryptionSalt = nilIfEmpty salt)
    (hIV : segment.encryptionIV = nilIfEmpty iv)
    (hStorage : storages segment.storageID = some openFile)
    (hObject : openFile fileName = some object) :
    writeWalSegment codec.primitives gunzip unzstd storages
        codec.masterKey segment =
      .ok
        { name := "wal/" ++ segment.walFilename ++ ".zst"
          body := (codec.compress content).flatten } := by
  unfold writeWalSegment
  simp only [hFileName, hStorage]
  cases hEncryption : segment.encryption with
  | none =>
      rw [hEncryption] at hArtifact
      rcases WalStreaming.built_plain hArtifact with
        ⟨hBytes, hNoSalt, hNoIV⟩
      rw [readArtifact_plain hObject rfl rfl, hBytes]
  | encrypted =>
      rw [hEncryption] at hArtifact
      rcases WalStreaming.built_encrypted hArtifact with
        ⟨header, aead, hLengths, hCipher, hSaltText, hIVText,
          hBytes⟩
      have hAead : ∀ log, aead.Opens log := by
        intro log
        unfold newStreamCipher at hCipher
        simp only at hCipher
        split at hCipher
        · cases hCipher
        · injection hCipher with hSame
          rw [← hSame]
          exact hSound.opens _ log
      have hKey : codec.masterKey ≠ none := by
        intro hNone
        rw [hNone] at hCipher
        cases hCipher
      have hSaltSome : header.salt ≠ [] := by
        apply List.ne_nil_of_length_pos
        rw [hLengths.salt]
        decide
      have hNonceSome : header.nonce ≠ [] := by
        apply List.ne_nil_of_length_pos
        rw [hLengths.nonce]
        decide
      have hReader :
          newDecryptingReader codec.primitives object
              codec.masterKey
              { fileName
                encryption := .encrypted
                salt := segment.encryptionSalt
                iv := segment.encryptionIV
                keyID := segment.id
                compression := .none } =
            .ok
              (readerAt aead header.nonce [] 0
                (streamFrames aead header.nonce
                  (streamChunks
                    (codec.compress
                      content).flatten)).flatten) := by
        have hStarts :=
          startsWithHeader_marshal hLengths
            (streamFrames aead header.nonce
              (streamChunks
                (codec.compress content).flatten)).flatten
        rw [← hBytes] at hStarts
        have hOpened :=
          (newDecryptingReader_ok_iff hLengths hCipher).mpr
            ⟨hStarts.1, rfl⟩
        rw [hStarts.2] at hOpened
        unfold newDecryptingReader
        rw [if_neg hKey]
        simp only [hSalt, hIV, hSaltText, hIVText,
          nilIfEmpty_encodeToString hSaltSome,
          nilIfEmpty_encodeToString hNonceSome,
          Foundation.Base64.decodeString_encodeToString]
        rw [hOpened]
      have hBody :=
        readAll_sealed header
          (codec.compress content).flatten (hAead _)
      rw [← hBytes] at hBody
      rw [readArtifact_encrypted hObject rfl rfl hReader
        hBody]

end Restorestream

end Databasus
