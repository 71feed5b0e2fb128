import Databasus.Foundation.Table
import Databasus.Catalog.Backup

/-
  Rows of the WAL segments table and its statements.

  A row without a file name is a claim: its bytes are still
  being uploaded.

  Main declarations:
    * `WalSegment`
    * `claimInsert`
    * `findByChainKey`
    * `markUploaded`
    * `deleteClaim`
    * `deleteAbandonedClaims`
-/

------------------------------------------------------------
-- Rows
------------------------------------------------------------

namespace Databasus

namespace Catalog

open Walmath (LSN)

/- What identifies a segment: its chain and its first byte. -/
structure ChainKey where
  databaseID : Uuid
  timelineID : Nat
  startLSN : LSN
deriving DecidableEq, Repr

/- A row of `backups_physical_wal_segments`. -/
structure WalSegment where
  id : Uuid
  databaseID : Uuid
  storageID : Uuid
  timelineID : Nat
  fileName : Option String := none
  walFilename : String
  startLSN : LSN
  endLSN : LSN
  compressedSizeMb : Rat := 0
  receivedAt : Time
  claimedAt : Time
  encryption : BackupEncryption := .none
  encryptionSalt : Option String := none
  encryptionIV : Option String := none
deriving DecidableEq

def WalSegment.chainKey
    (segment : WalSegment) : ChainKey :=
  { databaseID := segment.databaseID
    timelineID := segment.timelineID
    startLSN := segment.startLSN }

/- A claim is a row that names no file yet. -/
def WalSegment.isClaim
    (segment : WalSegment) : Bool :=
  segment.fileName = none

------------------------------------------------------------
-- Claims
------------------------------------------------------------

open Foundation

/- The insert does nothing when the chain key is taken. -/
def claimInsert
    (segments : List WalSegment)
    (segment : WalSegment) : List WalSegment × Bool :=
  if segments.any fun row =>
      row.chainKey = segment.chainKey then
    (segments, false)
  else
    (segments ++ [segment], true)

def findByChainKey
    (segments : List WalSegment)
    (key : ChainKey) : Option WalSegment :=
  Table.lookup WalSegment.chainKey key segments

structure WalSegmentUpload where
  segmentID : Uuid
  fileName : String
  compressedSizeMb : Rat
  encryptionSalt : Option String
  encryptionIV : Option String
deriving DecidableEq

/- The claim with an id, which only a claim matches. -/
def isClaimWithID
    (id : Uuid)
    (segment : WalSegment) : Bool :=
  segment.id = id && segment.isClaim

def WalSegmentUpload.applyTo
    (upload : WalSegmentUpload)
    (segment : WalSegment) : WalSegment :=
  { segment with
    fileName := some upload.fileName
    compressedSizeMb := upload.compressedSizeMb
    encryptionSalt := upload.encryptionSalt
    encryptionIV := upload.encryptionIV }

/- The update of a claim, and whether it met the claim. -/
def markUploaded
    (segments : List WalSegment)
    (upload : WalSegmentUpload) : List WalSegment × Bool :=
  (Table.updateWhere (isClaimWithID upload.segmentID)
      upload.applyTo segments,
    Table.affected (isClaimWithID upload.segmentID)
      segments = 1)

/- The release of a claim never removes a committed row. -/
def deleteClaim
    (segments : List WalSegment)
    (id : Uuid) : List WalSegment :=
  Table.deleteWhere (isClaimWithID id) segments

/- The claims of a database made before an instant. -/
def isAbandonedClaim
    (databaseID : Uuid)
    (olderThan : Time)
    (segment : WalSegment) : Bool :=
  segment.databaseID = databaseID && segment.isClaim &&
    segment.claimedAt < olderThan

def deleteAbandonedClaims
    (segments : List WalSegment)
    (databaseID : Uuid)
    (olderThan : Time) : List WalSegment :=
  Table.deleteWhere (isAbandonedClaim databaseID olderThan)
    segments

/- An inserted claim has a chain key that was free. -/
theorem claimInsert_inserted
    {segments claimed : List WalSegment}
    {segment : WalSegment}
    (hInsert :
      claimInsert segments segment = (claimed, true)) :
    (∀ row ∈ segments,
        row.chainKey ≠ segment.chainKey) ∧
      claimed = segments ++ [segment] := by
  unfold claimInsert at hInsert
  split at hInsert
  · simp at hInsert
  · next hFree =>
      have hRows := (Prod.mk.inj hInsert).1
      refine ⟨?_, hRows.symm⟩
      intro row hRow hKey
      apply hFree
      rw [List.any_eq_true]
      exact ⟨row, hRow, decide_eq_true hKey⟩

end Catalog

end Databasus
