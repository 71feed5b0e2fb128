import Databasus.Catalog.Lookups
import Databasus.WalStreaming.LocalQueue
import Databasus.WalStreaming.Durability

/-
  Gap probes of committed segments.

  After its commit an upload looks for a hole below its
  segment.  It reads the last durable segment below, lists
  the local queue and reads the row of the segment right
  below; uploads of other segments go on between these calls.

  Main declarations:
    * `decideWalChainGap`
    * `listQueuedOf`
    * `GapProbe`
    * `advanceProbe`
    * `gapSystem`
-/

------------------------------------------------------------
-- The Decision
------------------------------------------------------------

namespace Databasus

namespace WalStreaming

open Catalog
open Walmath (LSN)

structure WalGapState where
  previousEnd : Option LSN
  claim : WalSegment
  queuedSegments : List QueuedWalSegment
  hasPredecessor : Bool

structure WalChainGap where
  start : LSN
  endLSN : LSN
deriving DecidableEq, Repr

/- A complete segment waits that ends where the claim starts. -/
def isPredecessorQueued
    (queuedSegments : List QueuedWalSegment)
    (claim : WalSegment) : Bool :=
  queuedSegments.any fun queued =>
    queued.isComplete &&
      queued.timelineID = claim.timelineID &&
        queued.endLSN = claim.startLSN

/- A complete segment of the claim's timeline, below it. -/
def IsQueuedBelow
    (claim : WalSegment)
    (queued : QueuedWalSegment) : Prop :=
  queued.isComplete = true ∧
    queued.timelineID = claim.timelineID ∧
      queued.endLSN ≤ claim.startLSN

instance instDecidableIsQueuedBelow
    (claim : WalSegment)
    (queued : QueuedWalSegment) :
    Decidable (IsQueuedBelow claim queued) :=
  inferInstanceAs (Decidable (_ ∧ _ ∧ _))

def raiseHighestEnd
    (claim : WalSegment)
    (highestEnd : LSN)
    (queued : QueuedWalSegment) : LSN :=
  if IsQueuedBelow claim queued then
    max highestEnd queued.endLSN
  else
    highestEnd

/- The last end of the complete segments below the claim. -/
def getHighestQueuedEndBelow
    (queuedSegments : List QueuedWalSegment)
    (claim : WalSegment) : LSN :=
  queuedSegments.foldl (raiseHighestEnd claim) 0

def decideWalChainGap
    (state : WalGapState) : Option WalChainGap :=
  match state.previousEnd with
  | none => none
  | some previousEnd =>
      if
        previousEnd = state.claim.startLSN ∨
          state.hasPredecessor ∨
            isPredecessorQueued state.queuedSegments
              state.claim
      then
        none
      else
        some
          { start :=
              max previousEnd
                (getHighestQueuedEndBelow
                  state.queuedSegments state.claim)
            endLSN := state.claim.startLSN }

variable {claim : WalSegment}

/- The fold keeps what it has, and takes what is higher. -/
theorem foldl_raiseHighestEnd
    (queuedSegments : List QueuedWalSegment)
    (start : LSN) :
    (start ≤
        queuedSegments.foldl (raiseHighestEnd claim) start ∧
      ∀ queued ∈ queuedSegments,
        IsQueuedBelow claim queued →
          queued.endLSN ≤
            queuedSegments.foldl (raiseHighestEnd claim)
              start) ∧
      (queuedSegments.foldl (raiseHighestEnd claim) start =
          start ∨
        ∃ queued ∈ queuedSegments,
          IsQueuedBelow claim queued ∧
            queued.endLSN =
              queuedSegments.foldl (raiseHighestEnd claim)
                start) := by
  induction queuedSegments generalizing start with
  | nil =>
      refine ⟨⟨Nat.le_refl _, ?_⟩, Or.inl rfl⟩
      intro queued hQueued
      cases hQueued
  | cons first rest ih =>
      rw [List.foldl_cons]
      rcases ih (raiseHighestEnd claim start first) with
        ⟨⟨hKeeps, hTakes⟩, hReached⟩
      have hRaised :
          start ≤ raiseHighestEnd claim start first ∧
            (IsQueuedBelow claim first →
              first.endLSN ≤
                raiseHighestEnd claim start first) := by
        unfold raiseHighestEnd
        by_cases hBelow : IsQueuedBelow claim first
        · rw [if_pos hBelow]
          exact
            ⟨Nat.le_max_left _ _,
              fun _ => Nat.le_max_right _ _⟩
        · rw [if_neg hBelow]
          exact ⟨Nat.le_refl _, fun h => absurd h hBelow⟩
      refine ⟨⟨hRaised.1.trans hKeeps, ?_⟩, ?_⟩
      · intro queued hQueued hBelow
        rcases List.mem_cons.mp hQueued with rfl | hRest
        · exact (hRaised.2 hBelow).trans hKeeps
        · exact hTakes queued hRest hBelow
      · rcases hReached with
          hSame | ⟨queued, hQueued, hBelow, hEnd⟩
        · rw [hSame]
          by_cases hBelow : IsQueuedBelow claim first
          · unfold raiseHighestEnd
            rw [if_pos hBelow]
            rcases Nat.le_total first.endLSN start with
              hLow | hHigh
            · exact Or.inl (Nat.max_eq_left hLow)
            · exact
                Or.inr
                  ⟨first, List.mem_cons_self, hBelow,
                    (Nat.max_eq_right hHigh).symm⟩
          · unfold raiseHighestEnd
            rw [if_neg hBelow]
            exact Or.inl rfl
        · exact
            Or.inr
              ⟨queued, List.mem_cons_of_mem _ hQueued, hBelow,
                hEnd⟩

/- The end is that of a segment below, or there is none. -/
theorem getHighestQueuedEndBelow_spec
    (queuedSegments : List QueuedWalSegment)
    (claim : WalSegment) :
    (∀ queued ∈ queuedSegments,
        IsQueuedBelow claim queued →
          queued.endLSN ≤
            getHighestQueuedEndBelow queuedSegments claim) ∧
      (getHighestQueuedEndBelow queuedSegments claim = 0 ∨
        ∃ queued ∈ queuedSegments,
          IsQueuedBelow claim queued ∧
            queued.endLSN =
              getHighestQueuedEndBelow queuedSegments
                claim) := by
  rcases foldl_raiseHighestEnd queuedSegments 0 with
    ⟨⟨_, hTakes⟩, hReached⟩
  exact ⟨hTakes, hReached⟩

------------------------------------------------------------
-- Files of the Queue
------------------------------------------------------------

/- The segment size and the watch directory of a database. -/
structure StreamEnvironment where
  segSizeOf : Uuid → Nat
  watchDirOf : Uuid → String

def LocalFile.entry
    (file : LocalFile) : DirEntry :=
  { name := file.walFilename
    isDir := false
    size := some file.sizeBytes }

/- The directories of one database's stream. -/
def fileSystemOf
    (files : List LocalFile)
    (databaseID : Uuid) : FileSystem := fun path =>
  some
    ((files.filter fun file =>
      file.databaseID = databaseID &&
        file.directory = path).map LocalFile.entry)

def listQueuedOf
    (env : StreamEnvironment)
    (files : List LocalFile)
    (databaseID : Uuid) : List QueuedWalSegment :=
  listQueuedWalSegments (fileSystemOf files databaseID)
    (env.watchDirOf databaseID) (env.segSizeOf databaseID)

/- What the queue lists a file as, if it lists the file. -/
def queuedSegmentOf
    (env : StreamEnvironment)
    (file : LocalFile) : Option QueuedWalSegment :=
  if
    file.directory ∈
      queueDirectories (env.watchDirOf file.databaseID)
  then
    match
      walSegmentFileOf file.directory
        (env.segSizeOf file.databaseID) file.entry
    with
    | none => none
    | some segment =>
        if
          Walmath.isWalFilename segment.filename
            Walmath.defaultSegmentSizeBytes
        then
          some (queuedOf segment)
        else
          none
  else
    none

/- The queue lists the files of the database one by one. -/
theorem mem_listQueuedOf_iff
    {env : StreamEnvironment}
    {files : List LocalFile}
    {databaseID : Uuid}
    {queued : QueuedWalSegment} :
    queued ∈ listQueuedOf env files databaseID ↔
      ∃ file ∈ files,
        file.databaseID = databaseID ∧
          queuedSegmentOf env file = some queued := by
  unfold listQueuedOf
  rw [mem_listQueuedWalSegments_iff]
  constructor
  · rintro ⟨directory, hDirectory, entries, hRead, entry,
      hEntry, segment, hSegment, hName, rfl⟩
    cases hRead
    rcases List.mem_map.mp hEntry with ⟨file, hFile, rfl⟩
    rw [List.mem_filter, Bool.and_eq_true,
      decide_eq_true_eq, decide_eq_true_eq] at hFile
    rcases hFile with ⟨hMember, rfl, rfl⟩
    refine ⟨file, hMember, rfl, ?_⟩
    unfold queuedSegmentOf
    rw [if_pos hDirectory, hSegment]
    simp only [hName, if_true]
  · rintro ⟨file, hMember, rfl, hQueued⟩
    unfold queuedSegmentOf at hQueued
    split at hQueued
    · next hDirectory =>
        split at hQueued
        · cases hQueued
        · next segment hSegment =>
            split at hQueued
            · next hName =>
                cases hQueued
                refine
                  ⟨file.directory, hDirectory, _, rfl,
                    file.entry, ?_, segment, hSegment, hName,
                    rfl⟩
                apply List.mem_map_of_mem
                rw [List.mem_filter]
                exact ⟨hMember, by simp⟩
            · cases hQueued
    · cases hQueued

------------------------------------------------------------
-- Probes
------------------------------------------------------------

open Foundation

/- The call that a probe makes next, and what it has read. -/
inductive ProbeStage
  | findingPrevious
  | listing (previousEnd : LSN)
  | findingPredecessor
      (previousEnd : LSN)
      (queuedSegments : List QueuedWalSegment)
deriving DecidableEq

structure GapProbe where
  runID : Uuid
  claim : WalSegment
  stage : ProbeStage
deriving DecidableEq

/-
  A reported gap.  What was durable by then is added as
  history.
-/
structure GapReport where
  databaseID : Uuid
  timelineID : Nat
  gapStart : LSN
  gapEnd : LSN
  durable : List ChainKey
deriving DecidableEq

structure GapState where
  uploads : State
  probes : List GapProbe := []
  reports : List GapReport := []
deriving DecidableEq

/- The keys of the segments that are durable. -/
def durableKeys
    (segments : List WalSegment) : List ChainKey :=
  (segments.filter fun segment =>
    segment.fileName.isSome).map WalSegment.chainKey

def GapState.endProbe
    (s : GapState)
    (probe : GapProbe) : GapState :=
  { s with
    probes :=
      Table.deleteWhere (fun other => other = probe)
        s.probes }

def GapState.setProbeStage
    (s : GapState)
    (probe : GapProbe)
    (stage : ProbeStage) : GapState :=
  { s with
    probes :=
      Table.updateWhere (fun other => other = probe)
        (fun _ => { probe with stage := stage }) s.probes }

def GapState.report
    (s : GapState)
    (claim : WalSegment)
    (gap : WalChainGap) : GapState :=
  { s with
    reports :=
      { databaseID := claim.databaseID
        timelineID := claim.timelineID
        gapStart := gap.start
        gapEnd := claim.startLSN
        durable := durableKeys s.uploads.segments } ::
          s.reports }

/- The key right below a segment, a 64-bit difference. -/
def predecessorKey
    (segmentSizeBytes : Nat)
    (claim : WalSegment) : ChainKey :=
  { databaseID := claim.databaseID
    timelineID := claim.timelineID
    startLSN :=
      (claim.startLSN + 2 ^ 64 - segmentSizeBytes) % 2 ^ 64 }

/- The probe's query is answered, or fails and ends it. -/
def advanceProbe
    (env : StreamEnvironment)
    (s : GapState)
    (probe : GapProbe)
    (isAnswered : Bool) : GapState :=
  match probe.stage with
  | .findingPrevious =>
      if isAnswered = false then
        s.endProbe probe
      else
        match
          findLatestCommittedBefore s.uploads.segments
            probe.claim.chainKey
        with
        | none => s.endProbe probe
        | some previousEnd =>
            if previousEnd = probe.claim.startLSN then
              s.endProbe probe
            else
              s.setProbeStage probe (.listing previousEnd)
  | .listing previousEnd =>
      let queuedSegments :=
        listQueuedOf env s.uploads.files
          probe.claim.databaseID
      if isPredecessorQueued queuedSegments probe.claim then
        s.endProbe probe
      else
        s.setProbeStage probe
          (.findingPredecessor previousEnd queuedSegments)
  | .findingPredecessor previousEnd queuedSegments =>
      if isAnswered = false then
        s.endProbe probe
      else
        let predecessor :=
          findByChainKey s.uploads.segments
            (predecessorKey
              (env.segSizeOf probe.claim.databaseID)
              probe.claim)
        if predecessor.isSome then
          s.endProbe probe
        else
          match
            decideWalChainGap
              { previousEnd := some previousEnd
                claim := probe.claim
                queuedSegments := queuedSegments
                hasPredecessor := predecessor.isSome }
          with
          | none => s.endProbe probe
          | some gap =>
              (s.report probe.claim gap).endProbe probe

------------------------------------------------------------
-- The System of Uploads and Probes
------------------------------------------------------------

inductive GapAction
  | upload (action : Action)
  | probe (runID : Uuid) (isAnswered : Bool)
deriving DecidableEq

/- An upload begins with a file that the queue lists. -/
def isListedBy
    (env : StreamEnvironment) : Action → Bool
  | .processSegment _ _ _ file =>
      (queuedSegmentOf env file).isSome
  | .recoverSegment _ _ _ file =>
      (queuedSegmentOf env file).isSome
  | _ => true

/- An upload returns from its probe before it goes on. -/
def isProbing
    (s : GapState) : Action → Bool
  | .advance runID _ =>
      s.probes.any fun probe => probe.runID = runID
  | _ => false

/- The claim that an action commits. -/
def committedClaim
    (s : State) : Action → Option WalSegment
  | .advance runID answer =>
      match
        s.uploads.find? fun upload => upload.runID = runID
      with
      | some { stage := .committing claim attempt, .. } =>
          match
            commitSegment s.segments claim attempt answer
          with
          | .ok (_, true) => some claim
          | _ => none
      | _ => none
  | _ => none

/- A commit starts a probe, and a crash ends the run's one. -/
def probesAfter
    (s : GapState) : Action → List GapProbe
  | .advance runID answer =>
      match
        committedClaim s.uploads (.advance runID answer)
      with
      | none => s.probes
      | some claim =>
          { runID := runID
            claim := claim
            stage := .findingPrevious } :: s.probes
  | .crash runID =>
      Table.deleteWhere (fun probe => probe.runID = runID)
        s.probes
  | _ => s.probes

def gapStep
    (env : StreamEnvironment)
    (s : GapState) : GapAction → Option GapState
  | .upload action =>
      if isListedBy env action && !isProbing s action then
        (step env.segSizeOf s.uploads action).map
          fun uploads =>
            { s with
              uploads := uploads
              probes := probesAfter s action }
      else
        none
  | .probe runID isAnswered =>
      (s.probes.find? fun probe =>
        probe.runID = runID).map fun probe =>
          advanceProbe env s probe isAnswered

/- Some files wait at first, and no segment is claimed. -/
def gapSystem
    (env : StreamEnvironment) :
    TransitionSystem GapState GapAction where
  initial s :=
    s.uploads.segments = [] ∧ s.uploads.uploads = [] ∧
      s.probes = [] ∧ s.reports = []
  step := gapStep env

end WalStreaming

end Databasus
