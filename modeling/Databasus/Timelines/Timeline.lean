import Databasus.Catalog.Backup
import Databasus.Walmath.LsnText

/-
  Which timelines a physical backup may be taken on.

  Before a full backup the live timeline is compared with the
  newest one that the catalog knows.  Afterwards the timeline of
  the backup is looked up in the history files of the catalog.

  Main declarations:
    * `decideTimelineCompatibility`
    * `checkFullTimelineCompatibility`
    * `validateStartLsnAgainstHistory`
    * `newestKnownTimeline_le_iff`
    * `status_eq_chainBroken_iff`
-/

------------------------------------------------------------
-- Compatibility
------------------------------------------------------------

namespace Databasus

namespace Timelines

open Catalog (Backup BackupKind BackupStatus)
open Walmath (LSN)

inductive TimelineDecisionKind
  | continue
  | failoverDetected
  | regression
  | differentCluster
deriving DecidableEq, Repr

structure TimelineDecision where
  kind : TimelineDecisionKind
  expectedTimelineID : Nat
  liveTimelineID : Nat
  expectedSystemIdentifier : String
  liveSystemIdentifier : String
deriving DecidableEq, Repr

structure TimelineComparison where
  expectedSystemIdentifier : Option String
  liveTimelineID : Nat
  liveSystemIdentifier : String
  expectedTimelineID : Nat
deriving DecidableEq, Repr

/- An expected timeline of zero is not known. -/
def decideTimelineCompatibility
    (comparison : TimelineComparison) : TimelineDecision :=
  let decision (kind : TimelineDecisionKind) :
      TimelineDecision :=
    { kind := kind
      expectedTimelineID := comparison.expectedTimelineID
      liveTimelineID := comparison.liveTimelineID
      expectedSystemIdentifier :=
        comparison.expectedSystemIdentifier.getD ""
      liveSystemIdentifier :=
        comparison.liveSystemIdentifier }
  if
    comparison.expectedSystemIdentifier.any fun expected =>
      expected ≠ comparison.liveSystemIdentifier
  then
    decision .differentCluster
  else if comparison.expectedTimelineID = 0 then
    decision .continue
  else if
    comparison.liveTimelineID < comparison.expectedTimelineID
  then
    decision .regression
  else if
    comparison.expectedTimelineID < comparison.liveTimelineID
  then
    decision .failoverDetected
  else
    decision .continue

/- A row of `wal_history_files`. -/
structure WalHistoryFile where
  id : Uuid
  timelineID : Nat
deriving DecidableEq, Repr

def findCompletedFull
    (backups : List Backup) : List Backup :=
  backups.filter fun backup =>
    backup.kind = .full ∧ backup.status = .completed

def newestKnownTimeline
    (backups : List Backup)
    (historyRows : List WalHistoryFile) : Nat :=
  let maxTL :=
    (findCompletedFull backups).foldl
      (fun maxTL full => max maxTL full.timelineID) 0
  historyRows.foldl
    (fun maxTL row => max maxTL row.timelineID) maxTL

/- What an inspection of the running cluster reads. -/
structure LiveTimeline where
  timelineID : Nat
  systemIdentifier : String
deriving DecidableEq, Repr

def checkFullTimelineCompatibility
    (live : LiveTimeline)
    (expectedSystemIdentifier : Option String)
    (backups : List Backup)
    (historyRows : List WalHistoryFile) : TimelineDecision :=
  let decision :=
    decideTimelineCompatibility
      { expectedSystemIdentifier := expectedSystemIdentifier
        liveTimelineID := live.timelineID
        liveSystemIdentifier := live.systemIdentifier
        expectedTimelineID := 0 }
  if decision.kind = .differentCluster then
    decision
  else
    decideTimelineCompatibility
      { expectedSystemIdentifier := expectedSystemIdentifier
        liveTimelineID := live.timelineID
        liveSystemIdentifier := live.systemIdentifier
        expectedTimelineID :=
          newestKnownTimeline backups historyRows }

------------------------------------------------------------
-- History
------------------------------------------------------------

inductive ValidationStatus
  | ok
  | okWithWarning
  | chainBroken
deriving DecidableEq, Repr

structure ValidationResult where
  status : ValidationStatus
  message : String
deriving DecidableEq, Repr

def historyHasTimeline
    (rows : List WalHistoryFile)
    (timelineID : Nat) : Bool :=
  rows.any fun row => row.timelineID = timelineID

def historyIsGapped
    (rows : List WalHistoryFile)
    (timelineID : Nat) : Bool :=
  rows.any fun row => timelineID < row.timelineID

/- The start of the backup only shows in the message. -/
def validateStartLsnAgainstHistory
    (historyRows : List WalHistoryFile)
    (timelineID : Nat)
    (startLSN : LSN) : ValidationResult :=
  if historyRows.length = 0 then
    ⟨.ok, ""⟩
  else if
    historyHasTimeline historyRows timelineID = false ∧
      1 < timelineID
  then
    if historyIsGapped historyRows timelineID then
      ⟨.okWithWarning,
        "timeline_history_gap: TL " ++ toString timelineID ++
          " has no history row but higher TLs do; " ++
          "older history likely retention-deleted"⟩
    else
      ⟨.chainBroken,
        "start_lsn " ++ LSN.toText startLSN ++
          " outside known timeline range: " ++
          "no history record for TL " ++ toString timelineID⟩
  else
    ⟨.ok, ""⟩

------------------------------------------------------------
-- Specifications
------------------------------------------------------------

variable {historyRows : List WalHistoryFile}

theorem foldl_max_le_iff
    {α : Type}
    (read : α → Nat)
    (items : List α)
    (start bound : Nat) :
    items.foldl (fun best item => max best (read item))
          start ≤
        bound ↔
      start ≤ bound ∧ ∀ item ∈ items, read item ≤ bound := by
  induction items generalizing start with
  | nil =>
      rw [List.foldl_nil]
      refine ⟨fun hStart => ⟨hStart, ?_⟩, fun hAll => hAll.1⟩
      intro item hItem
      cases hItem
  | cons item items ih =>
      rw [List.foldl_cons, ih, Nat.max_le, List.forall_mem_cons,
        and_assoc]

/- It bounds the timelines of full backups and of history. -/
theorem newestKnownTimeline_le_iff
    (backups : List Backup)
    (historyRows : List WalHistoryFile)
    (bound : Nat) :
    newestKnownTimeline backups historyRows ≤ bound ↔
      (∀ full ∈ findCompletedFull backups,
          full.timelineID ≤ bound) ∧
        ∀ row ∈ historyRows, row.timelineID ≤ bound := by
  unfold newestKnownTimeline
  dsimp only
  rw [foldl_max_le_iff WalHistoryFile.timelineID,
    foldl_max_le_iff Backup.timelineID]
  constructor
  · rintro ⟨⟨_, hFulls⟩, hRows⟩
    exact ⟨hFulls, hRows⟩
  · rintro ⟨hFulls, hRows⟩
    exact ⟨⟨Nat.zero_le bound, hFulls⟩, hRows⟩

/- The decisions after which a full backup is taken. -/
def TimelineDecision.Admits
    (decision : TimelineDecision) : Prop :=
  decision.kind = .continue ∨
    decision.kind = .failoverDetected

/- An admitted cluster is as new as all that is known. -/
theorem known_le_live_of_admits
    {live : LiveTimeline}
    {expectedSystemIdentifier : Option String}
    {backups : List Backup}
    (hAdmits :
      (checkFullTimelineCompatibility live
        expectedSystemIdentifier backups
        historyRows).Admits) :
    newestKnownTimeline backups historyRows ≤
      live.timelineID := by
  unfold checkFullTimelineCompatibility at hAdmits
  dsimp only at hAdmits
  split at hAdmits
  · next hDifferent =>
      rcases hAdmits with hKind | hKind
      · rw [hDifferent] at hKind
        cases hKind
      · rw [hDifferent] at hKind
        cases hKind
  · generalize newestKnownTimeline backups historyRows =
      known at hAdmits ⊢
    unfold decideTimelineCompatibility at hAdmits
    dsimp only at hAdmits
    split at hAdmits
    · rcases hAdmits with hKind | hKind
      · cases hKind
      · cases hKind
    · split at hAdmits
      · next hUnknown =>
          rw [hUnknown]
          exact Nat.zero_le _
      · split at hAdmits
        · rcases hAdmits with hKind | hKind
          · cases hKind
          · cases hKind
        · next hRegression => exact Nat.not_lt.mp hRegression

theorem status_eq_chainBroken_iff
    (historyRows : List WalHistoryFile)
    (timelineID : Nat)
    (startLSN : LSN) :
    (validateStartLsnAgainstHistory historyRows timelineID
            startLSN).status =
          .chainBroken ↔
      historyRows ≠ [] ∧ 1 < timelineID ∧
        ∀ row ∈ historyRows,
          row.timelineID < timelineID := by
  have hNone : historyRows.length = 0 ↔ historyRows = [] :=
    List.length_eq_zero_iff
  unfold validateStartLsnAgainstHistory
  split
  · next hEmpty =>
      refine ⟨fun hOk => ?_, fun hBroken => ?_⟩
      · cases hOk
      · exact absurd (hNone.mp hEmpty) hBroken.1
  · next hRows =>
      have hSome : historyRows ≠ [] := fun hEmpty =>
        hRows (hNone.mpr hEmpty)
      split
      · next hMissing =>
          rcases hMissing with ⟨hMissing, hLater⟩
          unfold historyHasTimeline at hMissing
          unfold historyIsGapped
          split
          · next hGapped =>
              rcases List.any_eq_true.mp hGapped with
                ⟨row, hRow, hNewer⟩
              refine ⟨fun hWarning => ?_, fun hBroken => ?_⟩
              · cases hWarning
              · exact
                  absurd (of_decide_eq_true hNewer)
                    (Nat.not_lt_of_lt (hBroken.2.2 row hRow))
          · next hGapped =>
              refine ⟨fun _ => ⟨hSome, hLater, ?_⟩, fun _ => rfl⟩
              intro row hRow
              apply Nat.lt_of_le_of_ne
              · apply Nat.not_lt.mp
                intro hNewer
                exact
                  hGapped
                    (List.any_eq_true.mpr
                      ⟨row, hRow, decide_eq_true hNewer⟩)
              · intro hSame
                exact
                  List.any_eq_false.mp hMissing row hRow
                    (decide_eq_true hSame)
      · next hFound =>
          refine ⟨fun hOk => ?_, fun hBroken => ?_⟩
          · cases hOk
          · exfalso
            apply hFound
            refine ⟨List.any_eq_false.mpr ?_, hBroken.2.1⟩
            intro row hRow hSame
            exact
              Nat.ne_of_lt (hBroken.2.2 row hRow)
                (of_decide_eq_true hSame)

end Timelines

end Databasus
