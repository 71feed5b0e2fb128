import Databasus.Foundation.Base64
import Databasus.Catalog.Backup
import Databasus.Crypto.SealedStreams

/-
  The bytes that are stored for a WAL segment.

  A segment is compressed, and its compressed bytes may be
  sealed with a key of their own.  The salt and the nonce of
  the sealed stream go into the catalog as base64 texts.

  Main declarations:
    * `SegmentCodec`
    * `buildWalSegmentArtifactReader`
    * `built_plain`
    * `built_encrypted`
-/

------------------------------------------------------------
-- Artifacts
------------------------------------------------------------

namespace Databasus

namespace WalStreaming

open Catalog (BackupEncryption)
open Crypto

/-
  The libraries and the master key.  The compressor writes
  its output in parts.
-/
structure SegmentCodec where
  primitives : Primitives
  masterKey : Option MasterKey
  compress : Bytes → List Bytes
  decompress : Bytes → Option Bytes

/- What the documentation of the libraries promises. -/
structure SegmentCodec.Sound
    (codec : SegmentCodec) : Prop where
  opens :
    ∀ key log, (codec.primitives.newGCM key).Opens log
  decompresses :
    ∀ content,
      codec.decompress (codec.compress content).flatten =
        some content

/- The compressed bytes, through the writer if there is one. -/
def streamWalSegmentArtifact
    (codec : SegmentCodec)
    (content : Bytes)
    (encryptionWriter : Option EncryptingWriter) :
    Except StreamError Bytes :=
  match encryptionWriter with
  | none => .ok (codec.compress content).flatten
  | some w =>
      match w.encryptStream (codec.compress content) with
      | (some err, _) => .error err
      | (none, done) => .ok done.output.written

/-
  The bytes of an artifact, and the texts of its salt and its
  nonce, which are empty when nothing is encrypted.
-/
def buildWalSegmentArtifactReader
    (codec : SegmentCodec)
    (encryption : BackupEncryption)
    (segmentID : Uuid)
    (salt nonce : Option Bytes)
    (content : Bytes) :
    Except StreamError (Bytes × String × String) :=
  match encryption with
  | .none =>
      match streamWalSegmentArtifact codec content none with
      | .error err => .error err
      | .ok bytes => .ok (bytes, "", "")
  | .encrypted =>
      match
        newEncryptingWriter codec.primitives salt nonce
          { written := [], room := none } codec.masterKey
          segmentID with
      | .error err => .error err
      | .ok (w, header) =>
          match
            streamWalSegmentArtifact codec content
              (some w) with
          | .error err => .error err
          | .ok bytes =>
              .ok
                (bytes,
                  Foundation.Base64.encodeToString
                    header.salt,
                  Foundation.Base64.encodeToString
                    header.nonce)

/- The artifact's bytes, salt and nonce for some draws. -/
def IsArtifact
    (codec : SegmentCodec)
    (encryption : BackupEncryption)
    (segmentID : Uuid)
    (content bytes : Bytes)
    (salt iv : String) : Prop :=
  ∃ saltDraw nonceDraw,
    buildWalSegmentArtifactReader codec encryption segmentID
        saltDraw nonceDraw content =
      .ok (bytes, salt, iv)

variable {codec : SegmentCodec}
variable {segmentID : Uuid}
variable {content bytes : Bytes}
variable {salt iv : String}

theorem built_plain
    (hBuilt :
      IsArtifact codec .none segmentID content bytes
        salt iv) :
    bytes = (codec.compress content).flatten ∧
      salt = "" ∧ iv = "" := by
  rcases hBuilt with ⟨saltDraw, nonceDraw, hBuilt⟩
  unfold buildWalSegmentArtifactReader at hBuilt
  simp only [streamWalSegmentArtifact] at hBuilt
  injection hBuilt with hAll
  injection hAll with hBytes hTexts
  injection hTexts with hSalt hIV
  exact ⟨hBytes.symm, hSalt.symm, hIV.symm⟩

/- An encrypted artifact is a sealed stream. -/
theorem built_encrypted
    (hBuilt :
      IsArtifact codec .encrypted segmentID content bytes
        salt iv) :
    ∃ header aead,
      StreamHeader.HasLengths header ∧
        newStreamCipher codec.primitives codec.masterKey
            segmentID header.salt = .ok aead ∧
        salt =
          Foundation.Base64.encodeToString header.salt ∧
        iv =
          Foundation.Base64.encodeToString header.nonce ∧
        bytes =
          header.marshal ++
            (streamFrames aead header.nonce
              (streamChunks
                (codec.compress content).flatten)).flatten := by
  rcases hBuilt with ⟨saltDraw, nonceDraw, hBuilt⟩
  unfold buildWalSegmentArtifactReader at hBuilt
  simp only at hBuilt
  split at hBuilt
  · cases hBuilt
  next w header hNew =>
  split at hBuilt
  · cases hBuilt
  next stream hStream =>
  injection hBuilt with hAll
  injection hAll with hBytes hTexts
  injection hTexts with hSalt hIV
  have hFresh := EncryptingWriter.fresh_of_new hNew
  refine ⟨header, w.cipher, hFresh.1, hFresh.2.1,
    hSalt.symm, hIV.symm, ?_⟩
  unfold streamWalSegmentArtifact at hStream
  simp only at hStream
  split at hStream
  · cases hStream
  next done hDone =>
  injection hStream with hWritten
  rw [← hBytes, ← hWritten,
    encryptStream_written hNew hDone]
  rfl

end WalStreaming

end Databasus
