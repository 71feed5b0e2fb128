import Databasus.Timelines.Timeline

/-
  Full backups of a cluster that fails over.

  A failover ends the live timeline at its switch and begins a
  newer one.  A backup that passed the check beforehand is on
  the live timeline, yet its history file is uploaded only after
  it was looked for.

  Main declarations:
    * `Cluster`, `Cluster.Covers`
    * `FailsOverTo`
    * `FullsAreKept`
    * `fulls_are_kept_iff`
    * `runFullBackup`
    * `runFullBackups_of_behind`
-/

------------------------------------------------------------
-- Clusters
------------------------------------------------------------

namespace Databasus

namespace Timelines

open Walmath (LSN)

/- A timeline, and the position at which it began. -/
structure Switch where
  timelineID : Nat
  switchLSN : LSN
deriving DecidableEq, Repr

/- The switches of the first timeline, newest first. -/
structure Cluster where
  systemIdentifier : String
  switches : List Switch
  isAboveFirst :
    ∀ switch ∈ switches, 1 < switch.timelineID
  isNewestFirst :
    (switches.map Switch.timelineID).Pairwise (· > ·)
  isForward : (switches.map Switch.switchLSN).Pairwise (· ≥ ·)

namespace Cluster

def liveTimelineID (cluster : Cluster) : Nat :=
  match cluster.switches with
  | [] => 1
  | newest :: _ => newest.timelineID

/- Where the live timeline began. -/
def liveStart (cluster : Cluster) : LSN :=
  match cluster.switches with
  | [] => 0
  | newest :: _ => newest.switchLSN

def readLiveTimeline (cluster : Cluster) : LiveTimeline where
  timelineID := cluster.liveTimelineID
  systemIdentifier := cluster.systemIdentifier

/- The part of a timeline up to where the next one began. -/
def coversUpTo : List Switch → Option LSN → Nat → LSN → Prop
  | [], stop, timelineID, lsn =>
      timelineID = 1 ∧ ∀ bound ∈ stop, lsn < bound
  | switch :: older, stop, timelineID, lsn =>
      (timelineID = switch.timelineID ∧
          switch.switchLSN ≤ lsn ∧ ∀ bound ∈ stop, lsn < bound) ∨
        coversUpTo older (some switch.switchLSN) timelineID lsn

/- The position is in the history of the live timeline. -/
def Covers
    (cluster : Cluster)
    (timelineID : Nat)
    (lsn : LSN) : Prop :=
  coversUpTo cluster.switches none timelineID lsn

theorem timelineID_le_live
    {cluster : Cluster}
    {switch : Switch}
    (hSwitch : switch ∈ cluster.switches) :
    switch.timelineID ≤ cluster.liveTimelineID := by
  have hOrder := cluster.isNewestFirst
  unfold liveTimelineID
  cases hSwitches : cluster.switches with
  | nil =>
      rw [hSwitches] at hSwitch
      cases hSwitch
  | cons newest older =>
      rw [hSwitches] at hSwitch hOrder
      rcases List.mem_cons.mp hSwitch with rfl | hOlder
      · exact Nat.le_refl _
      · rw [List.map_cons] at hOrder
        exact
          Nat.le_of_lt
            (List.rel_of_pairwise_cons hOrder
              (List.mem_map_of_mem hOlder))

theorem switchLSN_le_liveStart
    {cluster : Cluster}
    {switch : Switch}
    (hSwitch : switch ∈ cluster.switches) :
    switch.switchLSN ≤ cluster.liveStart := by
  have hOrder := cluster.isForward
  unfold liveStart
  cases hSwitches : cluster.switches with
  | nil =>
      rw [hSwitches] at hSwitch
      cases hSwitch
  | cons newest older =>
      rw [hSwitches] at hSwitch hOrder
      rcases List.mem_cons.mp hSwitch with rfl | hOlder
      · exact Nat.le_refl _
      · rw [List.map_cons] at hOrder
        exact
          List.rel_of_pairwise_cons hOrder
            (List.mem_map_of_mem hOlder)

theorem one_le_live
    (cluster : Cluster) :
    1 ≤ cluster.liveTimelineID := by
  unfold liveTimelineID
  cases hSwitches : cluster.switches with
  | nil => exact Nat.le_refl 1
  | cons newest older =>
      apply Nat.le_of_lt
      apply cluster.isAboveFirst
      rw [hSwitches]
      exact List.mem_cons_self

/- A standby is promoted at a position of the live timeline. -/
def failOver
    (cluster : Cluster)
    (switch : Switch)
    (hNewer : cluster.liveTimelineID < switch.timelineID)
    (hLater : cluster.liveStart ≤ switch.switchLSN) :
    Cluster where
  systemIdentifier := cluster.systemIdentifier
  switches := switch :: cluster.switches
  isAboveFirst := by
    intro other hOther
    rcases List.mem_cons.mp hOther with rfl | hOlder
    · exact Nat.lt_of_le_of_lt cluster.one_le_live hNewer
    · exact cluster.isAboveFirst other hOlder
  isNewestFirst := by
    rw [List.map_cons, List.pairwise_cons]
    refine ⟨?_, cluster.isNewestFirst⟩
    intro timelineID hMember
    rcases List.mem_map.mp hMember with ⟨older, hOlder, rfl⟩
    exact Nat.lt_of_le_of_lt (timelineID_le_live hOlder) hNewer
  isForward := by
    rw [List.map_cons, List.pairwise_cons]
    refine ⟨?_, cluster.isForward⟩
    intro switchLSN hMember
    rcases List.mem_map.mp hMember with ⟨older, hOlder, rfl⟩
    exact Nat.le_trans (switchLSN_le_liveStart hOlder) hLater

end Cluster

/- Any number of failovers lead from one to the other. -/
inductive FailsOverTo : Cluster → Cluster → Prop
  | stays
      (cluster : Cluster) :
      FailsOverTo cluster cluster
  | switches
      {cluster later : Cluster}
      (hEarlier : FailsOverTo cluster later)
      (switch : Switch)
      (hNewer : later.liveTimelineID < switch.timelineID)
      (hLater : later.liveStart ≤ switch.switchLSN) :
      FailsOverTo cluster (later.failOver switch hNewer hLater)

theorem FailsOverTo.live_le
    {cluster later : Cluster}
    (hFailovers : FailsOverTo cluster later) :
    cluster.liveTimelineID ≤ later.liveTimelineID := by
  induction hFailovers with
  | stays => exact Nat.le_refl _
  | switches hEarlier switch hNewer hLater ih =>
      exact Nat.le_trans ih (Nat.le_of_lt hNewer)

------------------------------------------------------------
-- Full Backups
------------------------------------------------------------

open Catalog (Backup)

variable {historyRows : List WalHistoryFile}

/-
  No backup from the live timeline is found broken, and what is
  found broken starts outside of the live timeline's history.
-/
structure FullsAreKept
    (historyRows : List WalHistoryFile)
    (cluster : Cluster) : Prop where
  kept :
    ∀ startLSN, cluster.liveStart ≤ startLSN →
      (validateStartLsnAgainstHistory historyRows
            cluster.liveTimelineID startLSN).status ≠
        .chainBroken
  outside :
    ∀ startLSN,
      (validateStartLsnAgainstHistory historyRows
              cluster.liveTimelineID startLSN).status =
            .chainBroken →
        ¬ cluster.Covers cluster.liveTimelineID startLSN

/- The history of the live timeline is there if one is due. -/
def HistoryHasCaughtUp
    (historyRows : List WalHistoryFile)
    (cluster : Cluster) : Prop :=
  historyRows = [] ∨ cluster.liveTimelineID = 1 ∨
    historyHasTimeline historyRows cluster.liveTimelineID =
      true

/-
  However often the cluster failed over, backups that the check
  admitted are kept exactly when the catalog has no history, or
  that of the live timeline, or the live timeline is the first.
-/
theorem fulls_are_kept_iff
    {cluster later : Cluster}
    {expectedSystemIdentifier : Option String}
    {backups : List Backup}
    (hAdmits :
      (checkFullTimelineCompatibility cluster.readLiveTimeline
        expectedSystemIdentifier backups
        historyRows).Admits)
    (hFailovers : FailsOverTo cluster later) :
    FullsAreKept historyRows later ↔
      HistoryHasCaughtUp historyRows later := by
  have hKnown :
      ∀ row ∈ historyRows,
        row.timelineID ≤ later.liveTimelineID := by
    intro row hRow
    have hBound :=
      ((newestKnownTimeline_le_iff backups historyRows _).mp
        (known_le_live_of_admits hAdmits)).2 row hRow
    exact Nat.le_trans hBound hFailovers.live_le
  have hBroken (startLSN : LSN) :
      (validateStartLsnAgainstHistory historyRows
              later.liveTimelineID startLSN).status =
            .chainBroken ↔
        ¬ HistoryHasCaughtUp historyRows later := by
    rw [status_eq_chainBroken_iff]
    unfold HistoryHasCaughtUp historyHasTimeline
    constructor
    · rintro ⟨hSome, hFirst, hOlder⟩
      rintro (hNone | hOne | hFound)
      · exact hSome hNone
      · exact Nat.ne_of_gt hFirst hOne
      · rcases List.any_eq_true.mp hFound with
          ⟨row, hRow, hSame⟩
        exact
          Nat.ne_of_lt (hOlder row hRow)
            (of_decide_eq_true hSame)
    · intro hBehind
      rw [not_or, not_or] at hBehind
      rcases hBehind with ⟨hSome, hFirst, hMissing⟩
      refine ⟨hSome, ?_, ?_⟩
      · exact
          Nat.lt_of_le_of_ne later.one_le_live
            (Ne.symm hFirst)
      · intro row hRow
        apply Nat.lt_of_le_of_ne (hKnown row hRow)
        intro hSame
        exact
          hMissing
            (List.any_eq_true.mpr
              ⟨row, hRow, decide_eq_true hSame⟩)
  constructor
  · intro hKept
    by_contra hBehind
    exact
      hKept.kept later.liveStart (Nat.le_refl _)
        ((hBroken later.liveStart).mpr hBehind)
  · intro hCaughtUp
    refine ⟨?_, ?_⟩
    · intro startLSN _ hStatus
      exact (hBroken startLSN).mp hStatus hCaughtUp
    · intro startLSN hStatus
      exact absurd hCaughtUp ((hBroken startLSN).mp hStatus)

------------------------------------------------------------
-- Attempts
------------------------------------------------------------

structure KnownTimelines where
  backups : List Backup
  historyRows : List WalHistoryFile
deriving DecidableEq

inductive FullOutcome
  | refused (decision : TimelineDecision)
  | chainBroken (message : String)
  | completed
deriving DecidableEq, Repr

/- An attempt at a full backup that streams to its end. -/
structure FullAttempt where
  cluster : Cluster
  backup : Backup
  startLSN : LSN
  isLive : cluster.liveStart ≤ startLSN
  /- The identifier of an upload of history that succeeds. -/
  uploadedHistory : Option Uuid

/- Nothing is uploaded twice. -/
def uploadHistoryFile
    (historyRows : List WalHistoryFile)
    (timelineID : Nat)
    (uploadedHistory : Option Uuid) : List WalHistoryFile :=
  if historyHasTimeline historyRows timelineID then
    historyRows
  else
    match uploadedHistory with
    | none => historyRows
    | some id => historyRows ++ [⟨id, timelineID⟩]

def runFullBackup
    (expectedSystemIdentifier : Option String)
    (known : KnownTimelines)
    (attempt : FullAttempt) : KnownTimelines × FullOutcome :=
  let timelineID := attempt.cluster.liveTimelineID
  let decision :=
    checkFullTimelineCompatibility
      attempt.cluster.readLiveTimeline
      expectedSystemIdentifier known.backups known.historyRows
  match decision.kind with
  | .regression | .differentCluster =>
      (known, .refused decision)
  | .continue | .failoverDetected =>
      let validation :=
        validateStartLsnAgainstHistory known.historyRows
          timelineID attempt.startLSN
      if validation.status = .chainBroken then
        (known, .chainBroken validation.message)
      else
        ({ backups :=
              { attempt.backup with
                timelineID := timelineID
                kind := .full
                status := .completed
                startLSN := some attempt.startLSN } ::
                  known.backups
           historyRows :=
              if 1 < timelineID then
                uploadHistoryFile known.historyRows timelineID
                  attempt.uploadedHistory
              else
                known.historyRows },
          .completed)

def runFullBackups
    (expectedSystemIdentifier : Option String)
    (known : KnownTimelines)
    (attempts : List FullAttempt) : KnownTimelines :=
  attempts.foldl
    (fun known attempt =>
      (runFullBackup expectedSystemIdentifier known
        attempt).1)
    known

def firstCluster : Cluster where
  systemIdentifier := "7"
  switches := []
  isAboveFirst := by simp
  isNewestFirst := List.Pairwise.nil
  isForward := List.Pairwise.nil

def secondCluster : Cluster :=
  firstCluster.failOver ⟨2, 100⟩ (by decide) (by decide)

def thirdCluster : Cluster :=
  secondCluster.failOver ⟨3, 200⟩ (by decide) (by decide)

theorem fulls_are_kept_after_failover :
    FullsAreKept [⟨1, 2⟩] thirdCluster ↔
      HistoryHasCaughtUp [⟨1, 2⟩] thirdCluster :=
  @fulls_are_kept_iff [⟨1, 2⟩] secondCluster thirdCluster
    (some "7") [] (.inl rfl)
    (.switches (.stays secondCluster) ⟨3, 200⟩ (by decide)
      (by decide))

def sampleBackup : Backup where
  id := 1
  databaseID := 1
  storageID := 1
  kind := .full
  timelineID := 1
  status := .inProgress
  createdAt := 0

/- What is known after a full backup on each of two timelines. -/
def knownTimelines : KnownTimelines :=
  runFullBackups (some "7") ⟨[], []⟩
    [{ cluster := firstCluster
       backup := sampleBackup
       startLSN := 50
       isLive := by decide
       uploadedHistory := none },
     { cluster := secondCluster
       backup := sampleBackup
       startLSN := 150
       isLive := by decide
       uploadedHistory := some 1 }]

theorem second_failover_breaks_fulls :
    (checkFullTimelineCompatibility
          thirdCluster.readLiveTimeline (some "7")
          knownTimelines.backups
          knownTimelines.historyRows).Admits ∧
      (runFullBackup (some "7") knownTimelines
            { cluster := thirdCluster
              backup := sampleBackup
              startLSN := 250
              isLive := by decide
              uploadedHistory := some 2 }).2 =
          .chainBroken
            ("start_lsn 0/FA outside known timeline range: " ++
              "no history record for TL 3") ∧
        ¬ FullsAreKept knownTimelines.historyRows
          thirdCluster := by
  refine ⟨.inr rfl, by decide +kernel, ?_⟩
  intro hKept
  exact hKept.kept 250 (by decide) (by decide +kernel)

end Timelines

end Databasus
