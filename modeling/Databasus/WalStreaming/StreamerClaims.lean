import Databasus.Common
import Databasus.Foundation.Table

/-
  The rows by which managers own the streamers of databases.

  A database has one row.  Its claim may be taken over when it
  is failed or when its heartbeat is stale, and every other
  statement selects the row by the claim it was issued for.

  Main declarations:
    * `WalStreamer`, `StreamerClaim`
    * `claimIfClaimable`, `heartbeat`
    * `markFailed`, `markStopped`, `clearFailingSince`
    * `markStaleRunningFailed`
    * `ClaimHolds`, `ClaimLoss`
    * `claimHolds_claimIfClaimable`
-/

------------------------------------------------------------
-- Rows and Statements
------------------------------------------------------------

namespace Databasus

namespace WalStreaming

open Foundation

def streamerHeartbeatStaleness : Duration :=
  90 * Duration.second

inductive WalStreamerStatus
  | running
  | failed
deriving DecidableEq, Repr

structure WalStreamer where
  databaseID : Uuid
  claimID : Uuid
  startedAt : Time
  lastHeartbeatAt : Time
  status : WalStreamerStatus
  failingSince : Option Time
deriving DecidableEq, Repr

structure StreamerClaim where
  databaseID : Uuid
  claimID : Uuid
  now : Time
deriving DecidableEq, Repr

namespace WalStreamer

def isStale
    (row : WalStreamer)
    (now : Time) : Bool :=
  decide
    (row.lastHeartbeatAt < now - streamerHeartbeatStaleness)

def isClaimable
    (row : WalStreamer)
    (now : Time) : Bool :=
  row.isStale now || row.status == .failed

def claimed
    (row : WalStreamer)
    (claim : StreamerClaim) : WalStreamer :=
  { row with
    claimID := claim.claimID
    startedAt := claim.now
    lastHeartbeatAt := claim.now
    status := .running }

/- The first failure is the one that is remembered. -/
def failed
    (row : WalStreamer)
    (now : Time) : WalStreamer :=
  { row with
    status := .failed
    failingSince := some (row.failingSince.getD now) }

end WalStreamer

def StreamerClaim.newRow
    (claim : StreamerClaim) : WalStreamer :=
  { databaseID := claim.databaseID
    claimID := claim.claimID
    startedAt := claim.now
    lastHeartbeatAt := claim.now
    status := .running
    failingSince := none }

/- The row of a database, if it has one. -/
def findByDatabaseID
    (databaseID : Uuid)
    (rows : List WalStreamer) : Option WalStreamer :=
  Table.lookup WalStreamer.databaseID databaseID rows

/- Whether the claim is the caller's now. -/
def claimIfClaimable
    (claim : StreamerClaim)
    (rows : List WalStreamer) : List WalStreamer × Bool :=
  match findByDatabaseID claim.databaseID rows with
  | none => (rows ++ [claim.newRow], true)
  | some row =>
      if row.isClaimable claim.now then
        (Table.updateWhere
          (fun other => other.databaseID == claim.databaseID)
          (fun other => other.claimed claim) rows,
          true)
      else (rows, false)

/- The update of one claim's row, if the claim still has one. -/
def updateClaim
    (claimID : Uuid)
    (change : WalStreamer → WalStreamer)
    (rows : List WalStreamer) : List WalStreamer :=
  Table.updateWhere (fun row => row.claimID == claimID) change
    rows

/- That no row is updated is no error. -/
def heartbeat
    (claimID : Uuid)
    (now : Time) : List WalStreamer → List WalStreamer :=
  updateClaim claimID fun row =>
    { row with lastHeartbeatAt := now }

def markFailed
    (claimID : Uuid)
    (now : Time) : List WalStreamer → List WalStreamer :=
  updateClaim claimID fun row => row.failed now

def markStopped
    (claimID : Uuid) : List WalStreamer → List WalStreamer :=
  updateClaim claimID fun row => { row with status := .failed }

def clearFailingSince
    (claimID : Uuid) : List WalStreamer → List WalStreamer :=
  updateClaim claimID fun row =>
    { row with failingSince := none }

def isStaleRunning
    (now : Time)
    (row : WalStreamer) : Bool :=
  row.status == .running && row.isStale now

def markStaleRunningFailed
    (now : Time)
    (rows : List WalStreamer) : List WalStreamer :=
  Table.updateWhere (isStaleRunning now)
    (fun row => row.failed now) rows

def deleteByDatabaseID
    (databaseID : Uuid)
    (rows : List WalStreamer) : List WalStreamer :=
  Table.deleteWhere
    (fun row => row.databaseID == databaseID) rows

------------------------------------------------------------
-- Claims That Hold
------------------------------------------------------------

/- The row of the database carries the claim and is running. -/
def ClaimHolds
    (rows : List WalStreamer)
    (databaseID claimID : Uuid) : Prop :=
  ∃ row ∈ rows,
    row.databaseID = databaseID ∧
      row.claimID = claimID ∧ row.status = .running

instance
    (rows : List WalStreamer)
    (databaseID claimID : Uuid) :
    Decidable (ClaimHolds rows databaseID claimID) := by
  unfold ClaimHolds
  infer_instance

abbrev OneRowEach
    (rows : List WalStreamer) : Prop :=
  Table.UniqueBy WalStreamer.databaseID rows

/- Two claims that hold for a database are the same. -/
theorem claimHolds_unique
    {rows : List WalStreamer}
    {databaseID first second : Uuid}
    (hUnique : OneRowEach rows)
    (hFirst : ClaimHolds rows databaseID first)
    (hSecond : ClaimHolds rows databaseID second) :
    first = second := by
  rcases hFirst with ⟨row, hRow, hDatabase, rfl, _⟩
  rcases hSecond with ⟨other, hOther, hSame, rfl, _⟩
  have hEqual :=
    hUnique.eq_of_key_eq hRow hOther
      (hDatabase.trans hSame.symm)
  rw [hEqual]

/- How a claim was lost to another actor. -/
inductive LossCause
  | stale (lastHeartbeatAt now : Time)
  | deleted
deriving DecidableEq, Repr

structure ClaimLoss where
  claimID : Uuid
  cause : LossCause
deriving DecidableEq, Repr

/- Only a stale heartbeat or the end of streaming costs it. -/
def ClaimLoss.IsJustified
    (loss : ClaimLoss) : Prop :=
  match loss.cause with
  | .stale lastHeartbeatAt now =>
      lastHeartbeatAt < now - streamerHeartbeatStaleness
  | .deleted => True

def staleLoss
    (now : Time)
    (row : WalStreamer) : ClaimLoss :=
  { claimID := row.claimID
    cause := .stale row.lastHeartbeatAt now }

/- What a takeover takes from the claim before it. -/
def takeoverLosses
    (claim : StreamerClaim)
    (rows : List WalStreamer) : List ClaimLoss :=
  match findByDatabaseID claim.databaseID rows with
  | none => []
  | some row =>
      if row.isStale claim.now then [staleLoss claim.now row]
      else []

def staleRunningLosses
    (now : Time)
    (rows : List WalStreamer) : List ClaimLoss :=
  (rows.filter (isStaleRunning now)).map (staleLoss now)

def deletionLosses
    (databaseID : Uuid)
    (rows : List WalStreamer) : List ClaimLoss :=
  (rows.filter fun row => row.databaseID == databaseID).map
    fun row => { claimID := row.claimID, cause := .deleted }

def IsLost
    (losses : List ClaimLoss)
    (claimID : Uuid) : Prop :=
  ∃ loss ∈ losses, loss.claimID = claimID

------------------------------------------------------------
-- What the Statements Do to Claims
------------------------------------------------------------

variable {rows : List WalStreamer}
variable {databaseID claimID : Uuid}
variable {wanted : Uuid}
variable {change : WalStreamer → WalStreamer}
variable {claim : StreamerClaim}
variable {now : Time}
variable {loss : ClaimLoss}

theorem oneRowEach_updateClaim
    (hUnique : OneRowEach rows)
    (hKeeps :
      ∀ row, (change row).databaseID = row.databaseID) :
    OneRowEach (updateClaim wanted change rows) :=
  hUnique.updateWhere hKeeps

/- An update of another claim's row leaves a claim alone. -/
theorem claimHolds_updateClaim_of_ne
    (hOther : claimID ≠ wanted)
    (hHolds : ClaimHolds rows databaseID claimID) :
    ClaimHolds (updateClaim wanted change rows) databaseID
      claimID := by
  rcases hHolds with ⟨row, hRow, hDatabase, hClaim, hStatus⟩
  refine ⟨row, ?_, hDatabase, hClaim, hStatus⟩
  refine Table.mem_updateWhere_of_not hRow ?_
  rw [hClaim]
  exact beq_false_of_ne hOther

/- An update that keeps claims and status keeps what holds. -/
theorem claimHolds_updateClaim
    (hKeeps :
      ∀ row, (change row).databaseID = row.databaseID ∧
        (change row).claimID = row.claimID ∧
        (change row).status = row.status)
    (hHolds : ClaimHolds rows databaseID claimID) :
    ClaimHolds (updateClaim wanted change rows) databaseID
      claimID := by
  by_cases hOther : claimID = wanted
  · subst hOther
    rcases hHolds with ⟨row, hRow, hDatabase, hClaim, hStatus⟩
    rcases hKeeps row with ⟨hSame, hClaimed, hRunning⟩
    refine
      ⟨change row, ?_, hSame.trans hDatabase,
        hClaimed.trans hClaim, hRunning.trans hStatus⟩
    exact
      Table.mem_updateWhere_of_selects hRow
        (beq_iff_eq.mpr hClaim)
  · exact claimHolds_updateClaim_of_ne hOther hHolds

theorem oneRowEach_claimIfClaimable
    (hUnique : OneRowEach rows) :
    OneRowEach (claimIfClaimable claim rows).1 := by
  unfold claimIfClaimable
  split
  · rename_i hNone
    exact hUnique.append (Table.lookup_eq_none_iff.mp hNone)
  · split
    · exact hUnique.updateWhere fun _ => rfl
    · exact hUnique

/- A claim that is granted holds. -/
theorem claimHolds_granted
    (hGranted : (claimIfClaimable claim rows).2 = true) :
    ClaimHolds (claimIfClaimable claim rows).1
      claim.databaseID claim.claimID := by
  unfold claimIfClaimable at hGranted ⊢
  split at hGranted
  · exact
      ⟨claim.newRow, List.mem_append_right _
        (List.mem_singleton_self _), rfl, rfl, rfl⟩
  · rename_i row hRow
    rcases Table.lookup_some hRow with ⟨hMember, hDatabase⟩
    split at hGranted
    · rename_i hClaimable
      simp only [hClaimable, if_true]
      refine ⟨row.claimed claim, ?_, hDatabase, rfl, rfl⟩
      exact
        Table.mem_updateWhere_of_selects hMember
          (beq_iff_eq.mpr hDatabase)
    · cases hGranted

/- A running claim is taken over only when it is stale. -/
theorem claimHolds_claimIfClaimable
    (hUnique : OneRowEach rows)
    (hHolds : ClaimHolds rows databaseID claimID) :
    ClaimHolds (claimIfClaimable claim rows).1 databaseID
        claimID ∨
      IsLost (takeoverLosses claim rows) claimID := by
  rcases hHolds with ⟨row, hRow, hDatabase, hClaim, hStatus⟩
  unfold claimIfClaimable
  split
  · left
    exact
      ⟨row, List.mem_append_left _ hRow, hDatabase, hClaim,
        hStatus⟩
  · rename_i found hFound
    rcases Table.lookup_some hFound with ⟨hMember, hKey⟩
    split
    · rename_i hClaimable
      by_cases hSame : row.databaseID = claim.databaseID
      · right
        have hEqual :=
          hUnique.eq_of_key_eq hRow hMember
            (hSame.trans hKey.symm)
        subst hEqual
        have hStale : row.isStale claim.now = true := by
          simpa [WalStreamer.isClaimable, hStatus]
            using hClaimable
        refine ⟨staleLoss claim.now row, ?_, hClaim⟩
        unfold takeoverLosses
        rw [hFound]
        simp [hStale]
      · left
        refine ⟨row, ?_, hDatabase, hClaim, hStatus⟩
        exact
          Table.mem_updateWhere_of_not hRow
            (beq_false_of_ne hSame)
    · left
      exact ⟨row, hRow, hDatabase, hClaim, hStatus⟩

theorem claimHolds_markStaleRunningFailed
    (hHolds : ClaimHolds rows databaseID claimID) :
    ClaimHolds (markStaleRunningFailed now rows) databaseID
        claimID ∨
      IsLost (staleRunningLosses now rows) claimID := by
  rcases hHolds with ⟨row, hRow, hDatabase, hClaim, hStatus⟩
  by_cases hStale : isStaleRunning now row = true
  · right
    refine ⟨staleLoss now row, ?_, hClaim⟩
    exact
      List.mem_map_of_mem (List.mem_filter.mpr ⟨hRow, hStale⟩)
  · left
    refine ⟨row, ?_, hDatabase, hClaim, hStatus⟩
    exact
      Table.mem_updateWhere_of_not hRow
        (Bool.eq_false_iff.mpr hStale)

theorem claimHolds_deleteByDatabaseID
    {deleted : Uuid}
    (hHolds : ClaimHolds rows databaseID claimID) :
    ClaimHolds (deleteByDatabaseID deleted rows) databaseID
        claimID ∨
      IsLost (deletionLosses deleted rows) claimID := by
  rcases hHolds with ⟨row, hRow, hDatabase, hClaim, hStatus⟩
  by_cases hSame : row.databaseID = deleted
  · right
    refine ⟨⟨row.claimID, .deleted⟩, ?_, hClaim⟩
    exact
      List.mem_map.mpr
        ⟨row,
          List.mem_filter.mpr ⟨hRow, beq_iff_eq.mpr hSame⟩,
          rfl⟩
  · left
    refine ⟨row, ?_, hDatabase, hClaim, hStatus⟩
    exact
      (Table.mem_deleteWhere_iff _ _ _).mpr
        ⟨hRow, beq_false_of_ne hSame⟩

theorem staleLoss_justified
    {row : WalStreamer}
    (hStale : row.isStale now = true) :
    (staleLoss now row).IsJustified := by
  simp only [WalStreamer.isStale, decide_eq_true_eq] at hStale
  exact hStale

theorem takeoverLosses_justified
    (hLoss : loss ∈ takeoverLosses claim rows) :
    loss.IsJustified := by
  unfold takeoverLosses at hLoss
  split at hLoss
  · cases hLoss
  · split at hLoss
    · rename_i hStale
      rw [List.mem_singleton.mp hLoss]
      exact staleLoss_justified hStale
    · cases hLoss

theorem staleRunningLosses_justified
    (hLoss : loss ∈ staleRunningLosses now rows) :
    loss.IsJustified := by
  rcases List.mem_map.mp hLoss with ⟨row, hRow, rfl⟩
  have hStale := (List.mem_filter.mp hRow).2
  unfold isStaleRunning at hStale
  rw [Bool.and_eq_true] at hStale
  exact staleLoss_justified hStale.2

theorem deletionLosses_justified
    (hLoss : loss ∈ deletionLosses databaseID rows) :
    loss.IsJustified := by
  rcases List.mem_map.mp hLoss with ⟨row, _, rfl⟩
  trivial

end WalStreaming

end Databasus
