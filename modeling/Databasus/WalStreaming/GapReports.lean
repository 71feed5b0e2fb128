import Databasus.WalStreaming.ExpectedSegments

/-
  Holes of the log are reported, and reports stay unfilled.

  A probe judges the hole below its segment by what is
  expected there.  Below a durable segment that does not
  change any more, so that the judgement still holds when
  all segments have been committed.

  Main declarations:
    * `KeepsQueue`
    * `SeesPredecessors`
    * `GapsReported`
    * `GapInvariant`
    * `gaps_reported`
-/

------------------------------------------------------------
-- Holes and Reports
------------------------------------------------------------

namespace Databasus

namespace WalStreaming

open Foundation
open Catalog
open Walmath (LSN)

/-
  The queue loses nothing: files arrive in the order of the
  log, the stream is kept, held claims are not deleted, and
  every probe is answered to its end.
-/
def KeepsQueue
    (env : StreamEnvironment)
    (s : GapState) : GapAction → Prop
  | .upload action =>
      (keepsStreaming action = true ∧
        KeepsHeldClaims s.uploads action) ∧
        match action with
        | .fileArrives file =>
            ArrivesInOrder env s.uploads.segments file
        | .crash runID =>
            ∀ probe ∈ s.probes, probe.runID ≠ runID
        | _ => True
  | .probe _ isAnswered => isAnswered = true

instance instDecidableKeepsQueue
    (env : StreamEnvironment)
    (s : GapState) :
    (action : GapAction) → Decidable (KeepsQueue env s action)
  | .upload (.fileArrives _) | .upload (.crash _)
  | .upload (.tick _) | .upload (.processSegment _ _ _ _)
  | .upload (.recoverSegment _ _ _ _)
  | .upload (.advance _ _)
  | .upload (.reapAbandonedWalClaims _) =>
      inferInstanceAs (Decidable ((_ ∧ _) ∧ _))
  | .probe _ _ => inferInstanceAs (Decidable (_ = true))

/-
  A probe that finds no durable segment below its own is the
  lowest one's, or the one right below is still to come.
-/
def SeesPredecessors
    (env : StreamEnvironment)
    (s : GapState) : GapAction → Prop
  | .upload _ => True
  | .probe runID _ =>
      ∀ probe ∈ s.probes.find? fun probe =>
          probe.runID = runID,
        probe.stage = .findingPrevious →
          findLatestCommittedBefore s.uploads.segments
              probe.claim.chainKey =
            none →
          isPredecessorQueued
              (listQueuedOf env s.uploads.files
                probe.claim.databaseID)
              probe.claim =
            true ∨
          ∀ queued ∈
              listQueuedOf env s.uploads.files
                probe.claim.databaseID,
            queued.isComplete = true →
              queued.timelineID = probe.claim.timelineID →
                probe.claim.startLSN ≤ queued.startLSN

instance instDecidableSeesPredecessors
    (env : StreamEnvironment)
    (s : GapState) :
    (action : GapAction) →
      Decidable (SeesPredecessors env s action)
  | .upload _ => instDecidableTrue
  | .probe _ _ => Option.decidableForallMem _

/- A hole between two durable segments with none between. -/
structure IsHole
    (segments : List WalSegment)
    (below above : WalSegment) : Prop where
  belowDurable : below ∈ segments ∧ below.fileName.isSome
  aboveDurable : above ∈ segments ∧ above.fileName.isSome
  timeline : SameTimeline below.chainKey above.chainKey
  order : below.startLSN < above.startLSN
  gap : below.endLSN < above.startLSN
  adjacent :
    ∀ row ∈ segments, row.fileName.isSome →
      SameTimeline row.chainKey above.chainKey →
        row.startLSN < above.startLSN →
          row.startLSN ≤ below.startLSN

/- Every waiting segment of the timeline is durable. -/
def AllCommitted
    (env : StreamEnvironment)
    (s : GapState)
    (timeline : ChainKey) : Prop :=
  ∀ file ∈ s.uploads.files,
    IsWaiting env file →
      ∀ key ∈ file.keyIn env,
        SameTimeline key timeline →
          Durable s.uploads.segments key

def GapReport.Covers
    (report : GapReport)
    (below above : WalSegment) : Prop :=
  report.databaseID = above.databaseID ∧
    report.timelineID = above.timelineID ∧
      report.gapStart ≤ below.endLSN ∧
        above.startLSN ≤ report.gapEnd

/-
  Once all have committed and their probes have ended, each
  hole is covered by a report.  What becomes durable after a
  report does not overlap it.
-/
structure GapsReported
    (env : StreamEnvironment)
    (s : GapState) : Prop where
  complete :
    ∀ below above,
      IsHole s.uploads.segments below above →
        AllCommitted env s above.chainKey →
          (∀ probe ∈ s.probes,
            probe.claim.chainKey ≠ above.chainKey) →
            ∃ report ∈ s.reports, report.Covers below above
  unfilled :
    ∀ report ∈ s.reports,
      ∀ row ∈ s.uploads.segments,
        row.fileName.isSome →
          row.databaseID = report.databaseID →
            row.timelineID = report.timelineID →
              row.startLSN < report.gapEnd →
                report.gapStart <
                    row.startLSN +
                      env.segSizeOf row.databaseID →
                  row.chainKey ∈ report.durable

------------------------------------------------------------
-- Probes and Reports Keep their Meaning
------------------------------------------------------------

variable {first second : State}
variable {probe : GapProbe}
variable {action : Action}

/- A segment is expected below the key that ends there. -/
def EndsBelow
    (env : StreamEnvironment)
    (s : State)
    (key : ChainKey)
    (position : LSN) : Prop :=
  ∃ lower, Below env s key lower ∧ endOf env lower = position

def GapReport.IsFor
    (report : GapReport)
    (key : ChainKey) : Prop :=
  report.databaseID = key.databaseID ∧
    report.timelineID = key.timelineID ∧
      report.gapEnd = key.startLSN

/-
  The hole below a key is judged: there is no segment below,
  or the one right below, or the hole has been reported.
-/
def Settled
    (env : StreamEnvironment)
    (s : GapState)
    (key : ChainKey) : Prop :=
  (∀ lower, ¬ Below env s.uploads key lower) ∨
    EndsBelow env s.uploads key key.startLSN ∨
    ∃ report ∈ s.reports,
      report.IsFor key ∧
        ∃ lower, Below env s.uploads key lower ∧
          report.gapStart ≤ endOf env lower

/- What the listed segments say of those below the claim. -/
structure ListingSound
    (env : StreamEnvironment)
    (s : State)
    (claim : WalSegment)
    (queuedSegments : List QueuedWalSegment) : Prop where
  ends :
    ∀ queued ∈ queuedSegments,
      queued.isComplete = true →
        queued.timelineID = claim.timelineID →
          queued.endLSN ≤ claim.startLSN →
            queued.endLSN = 0 ∨
              EndsBelow env s claim.chainKey queued.endLSN
  listed :
    ∀ lower,
      Below env s claim.chainKey lower →
        ¬ Durable s.segments lower →
          ∃ queued ∈ queuedSegments,
            queued.isComplete = true ∧
              queued.timelineID = claim.timelineID ∧
                queued.endLSN = endOf env lower

def StageSound
    (env : StreamEnvironment)
    (s : State)
    (claim : WalSegment) : ProbeStage → Prop
  | .findingPrevious => True
  | .listing previousEnd =>
      EndsBelow env s claim.chainKey previousEnd
  | .findingPredecessor previousEnd queuedSegments =>
      EndsBelow env s claim.chainKey previousEnd ∧
        ListingSound env s claim queuedSegments

structure ProbeSound
    (env : StreamEnvironment)
    (s : State)
    (probe : GapProbe) : Prop where
  bounds : RowSound env probe.claim
  durable : Durable s.segments probe.claim.chainKey
  stage : StageSound env s probe.claim probe.stage

/- What a report overlaps was durable when it was made. -/
def ReportSound
    (env : StreamEnvironment)
    (s : State)
    (report : GapReport) : Prop :=
  ∃ key, Durable s.segments key ∧ report.IsFor key ∧
    ∀ lower, Below env s key lower →
      report.gapStart < endOf env lower →
        lower ∈ report.durable

structure GapInvariant
    (env : StreamEnvironment)
    (s : GapState) : Prop where
  queue : QueueSound env s.uploads
  probes :
    ∀ probe ∈ s.probes, ProbeSound env s.uploads probe
  settled :
    ∀ key, Durable s.uploads.segments key →
      (∃ probe ∈ s.probes, probe.claim.chainKey = key) ∨
        Settled env s key
  reports :
    ∀ report ∈ s.reports, ReportSound env s.uploads report

variable {env : StreamEnvironment}
variable {s s' : GapState}
variable {key : ChainKey}
variable {claim : WalSegment}

theorem EndsBelow.keeps
    {position : LSN}
    (hKeeps : KeepsBelow env first second)
    (hDurable : Durable first.segments key)
    (hEnds : EndsBelow env first key position) :
    EndsBelow env second key position := by
  rcases hEnds with ⟨lower, hBelow, hEnd⟩
  exact
    ⟨lower, (hKeeps.below key hDurable lower).mpr hBelow,
      hEnd⟩

theorem Settled.keeps
    (hKeeps : KeepsBelow env s.uploads s'.uploads)
    (hReports : ∀ report ∈ s.reports, report ∈ s'.reports)
    (hDurable : Durable s.uploads.segments key)
    (hSettled : Settled env s key) :
    Settled env s' key := by
  rcases hSettled with
    hNone | hEnds | ⟨report, hReport, hFor, lower, hBelow,
      hStart⟩
  · left
    intro lower hBelow
    exact
      hNone lower
        ((hKeeps.below key hDurable lower).mp hBelow)
  · exact Or.inr (Or.inl (hEnds.keeps hKeeps hDurable))
  · right
    right
    exact
      ⟨report, hReports report hReport, hFor, lower,
        (hKeeps.below key hDurable lower).mpr hBelow, hStart⟩

theorem ProbeSound.keeps
    (hKeeps : KeepsBelow env first second)
    (hSound : ProbeSound env first probe) :
    ProbeSound env second probe := by
  have hDurable := hSound.durable
  refine
    { bounds := hSound.bounds
      durable := hKeeps.durable _ hDurable
      stage := ?_ }
  have hStage := hSound.stage
  cases hNext : probe.stage with
  | findingPrevious => trivial
  | listing previousEnd =>
      rw [hNext] at hStage
      exact EndsBelow.keeps hKeeps hDurable hStage
  | findingPredecessor previousEnd queuedSegments =>
      rw [hNext] at hStage
      rcases hStage with ⟨hEnds, hListing⟩
      refine
        ⟨hEnds.keeps hKeeps hDurable,
          { ends := ?_
            listed := ?_ }⟩
      · intro queued hQueued hComplete hTimeline hBelow
        rcases hListing.ends queued hQueued hComplete
            hTimeline hBelow with
          hZero | hLower
        · exact Or.inl hZero
        · exact Or.inr (hLower.keeps hKeeps hDurable)
      · intro lower hBelow hNot
        apply hListing.listed lower
        · exact (hKeeps.below _ hDurable lower).mp hBelow
        · intro hBefore
          exact hNot (hKeeps.durable lower hBefore)

theorem ReportSound.keeps
    {report : GapReport}
    (hKeeps : KeepsBelow env first second)
    (hSound : ReportSound env first report) :
    ReportSound env second report := by
  rcases hSound with ⟨key, hDurable, hFor, hOverlap⟩
  refine ⟨key, hKeeps.durable key hDurable, hFor, ?_⟩
  intro lower hBelow
  exact
    hOverlap lower
      ((hKeeps.below key hDurable lower).mp hBelow)

/- The row that a claim was held with is durable then. -/
theorem durable_of_commitSegment
    {segments segments' : List WalSegment}
    {attempt : Attempt}
    {answer : Answer}
    {row : WalSegment}
    (hRow : row ∈ segments)
    (hID : row.id = claim.id)
    (hCommit :
      commitSegment segments claim attempt answer =
        .ok (segments', true)) :
    Durable segments' row.chainKey := by
  unfold commitSegment at hCommit
  split at hCommit
  · simp only at hCommit
    split at hCommit
    · cases hCommit
      cases hSelects : isClaimWithID claim.id row with
      | true =>
          exact
            ⟨_, Table.mem_updateWhere_of_selects hRow hSelects,
              rfl, rfl⟩
      | false =>
          exact
            ⟨row, Table.mem_updateWhere_of_not hRow hSelects,
              fileName_isSome_of_not_selected hID hSelects,
              rfl⟩
    · cases hCommit
  · cases hCommit
  · cases hCommit
  · cases hCommit

theorem durable_of_committed
    (hSound : QueueSound env first)
    (hStep :
      step env.segSizeOf first action = some second)
    (hClaim : claim ∈ committedClaim first action) :
    Durable second.segments claim.chainKey := by
  rcases committedClaim_some hClaim with
    ⟨_, hHolder, _, hHeld⟩
  rcases
      (hSound.uploads.uploads _ hHolder).held claim hHeld with
    ⟨row, hRow, hID, hKey⟩
  unfold committedClaim at hClaim
  split at hClaim
  · next runID answer =>
      split at hClaim
      · next runOfUpload deps file isRecovering claim' attempt
          hFound =>
          split at hClaim
          · next segments hCommit =>
              cases hClaim
              rcases Option.map_eq_some_iff.mp hStep with
                ⟨upload, hUpload, rfl⟩
              rw [hFound] at hUpload
              cases hUpload
              have hSegments :
                  (advanceUpload first
                      ⟨runOfUpload, deps, file, isRecovering,
                        .committing claim attempt⟩
                      answer).segments =
                    segments := by
                simp only [advanceUpload, advanceCommitting,
                  hCommit]
                rfl
              rw [hSegments, ← hKey]
              exact durable_of_commitSegment hRow hID hCommit
          · cases hClaim
      · cases hClaim
  · cases hClaim

theorem mem_probesAfter
    (hProbe : probe ∈ probesAfter s action) :
    probe ∈ s.probes ∨
      probe.claim ∈ committedClaim s.uploads action ∧
        probe.stage = .findingPrevious := by
  unfold probesAfter at hProbe
  split at hProbe
  · split at hProbe
    · exact Or.inl hProbe
    · next claim hClaim =>
        rcases List.mem_cons.mp hProbe with rfl | hOld
        · exact Or.inr ⟨hClaim, rfl⟩
        · exact Or.inl hOld
  · exact Or.inl ((Table.mem_deleteWhere_iff _ _ _).mp hProbe).1
  · exact Or.inl hProbe

/- No step of an upload ends a probe, unless it crashes. -/
theorem mem_probesAfter_of_mem
    (hProbe : probe ∈ s.probes)
    (hSpares :
      ∀ runID, action = .crash runID →
        probe.runID ≠ runID) :
    probe ∈ probesAfter s action := by
  unfold probesAfter
  split
  · split
    · exact hProbe
    · exact List.mem_cons_of_mem _ hProbe
  · next runID =>
      refine (Table.mem_deleteWhere_iff _ _ _).mpr ⟨hProbe, ?_⟩
      exact decide_eq_false (hSpares runID rfl)
  · exact hProbe

/- A committed claim is probed. -/
theorem probe_of_committed
    (hClaim : claim ∈ committedClaim s.uploads action) :
    ∃ probe ∈ probesAfter s action, probe.claim = claim := by
  have hCommitted := hClaim
  unfold committedClaim at hClaim
  split at hClaim
  · next runID answer =>
      simp only [probesAfter, Option.mem_def.mp hCommitted]
      exact ⟨_, List.mem_cons_self, rfl⟩
  · cases hClaim

/- The uploads' steps keep the invariant. -/
theorem gapInvariant_upload
    {uploads : State}
    (hHolds : GapInvariant env s)
    (hListed : isListedBy env action = true)
    (hGuard : KeepsQueue env s (.upload action))
    (hStep :
      step env.segSizeOf s.uploads action = some uploads) :
    GapInvariant env
      { s with
        uploads := uploads
        probes := probesAfter s action } := by
  rcases hGuard with ⟨⟨hStreaming, hSpares⟩, hAction⟩
  have hQueue :=
    queueSound_step hHolds.queue hListed hStreaming hSpares
      hStep
  have hOrder :
      ∀ file, action = .fileArrives file →
        ArrivesInOrder env s.uploads.segments file := by
    rintro file rfl
    exact hAction
  have hKeeps := keepsBelow_of_step hHolds.queue hOrder hStep
  refine
    { queue := hQueue
      probes := ?_
      settled := ?_
      reports := fun report hReport =>
        (hHolds.reports report hReport).keeps hKeeps }
  · intro probe hProbe
    rcases mem_probesAfter hProbe with
      hOld | ⟨hClaim, hStage⟩
    · exact (hHolds.probes probe hOld).keeps hKeeps
    · rcases committedClaim_some hClaim with
        ⟨upload, hUpload, hOwn, _⟩
      refine
        { bounds :=
            (hHolds.queue.claims upload hUpload _ hOwn).1
          durable :=
            durable_of_committed hHolds.queue hStep hClaim
          stage := ?_ }
      rw [hStage]
      trivial
  · intro key hDurable
    rcases durable_before hHolds.queue hStep hDurable with
      hOld | ⟨_, claim, hClaim, hKey⟩
    · rcases hHolds.settled key hOld with
        ⟨probe, hProbe, hKey⟩ | hSettled
      · left
        refine ⟨probe, ?_, hKey⟩
        apply mem_probesAfter_of_mem hProbe
        rintro runID rfl
        exact hAction probe hProbe
      · right
        exact
          hSettled.keeps hKeeps (fun _ hReport => hReport)
            hOld
    · left
      rcases probe_of_committed hClaim with
        ⟨probe, hProbe, hSame⟩
      exact ⟨probe, hProbe, by rw [hSame, hKey]⟩

------------------------------------------------------------
-- The Calls of a Probe
------------------------------------------------------------

variable {row : WalSegment}
variable {queued : QueuedWalSegment}
variable {lower : ChainKey}
variable {previousEnd : LSN}
variable {queuedSegments : List QueuedWalSegment}

/- A probe ends when the hole below its claim is judged. -/
theorem GapInvariant.endProbe
    (hHolds : GapInvariant env s)
    (hSettled : Settled env s probe.claim.chainKey) :
    GapInvariant env (s.endProbe probe) := by
  refine
    { queue := hHolds.queue
      probes := ?_
      settled := ?_
      reports := hHolds.reports }
  · intro other hOther
    exact
      hHolds.probes other
        ((Table.mem_deleteWhere_iff _ _ _).mp hOther).1
  · intro key hDurable
    rcases hHolds.settled key hDurable with
      ⟨other, hOther, hKey⟩ | hBefore
    · by_cases hSame : other = probe
      · right
        rw [← hKey, hSame]
        exact hSettled
      · left
        exact
          ⟨other,
            (Table.mem_deleteWhere_iff _ _ _).mpr
              ⟨hOther, decide_eq_false hSame⟩,
            hKey⟩
    · exact Or.inr hBefore

theorem GapInvariant.setProbeStage
    {stage : ProbeStage}
    (hHolds : GapInvariant env s)
    (hProbe : probe ∈ s.probes)
    (hStage : StageSound env s.uploads probe.claim stage) :
    GapInvariant env (s.setProbeStage probe stage) := by
  refine
    { queue := hHolds.queue
      probes := ?_
      settled := ?_
      reports := hHolds.reports }
  · intro other hOther
    rcases (Table.mem_updateWhere_iff _ _ _ _).mp hOther with
      ⟨old, hOld, rfl⟩
    split
    · have hSound := hHolds.probes probe hProbe
      exact
        { bounds := hSound.bounds
          durable := hSound.durable
          stage := hStage }
    · exact hHolds.probes old hOld
  · intro key hDurable
    rcases hHolds.settled key hDurable with
      ⟨other, hOther, hKey⟩ | hBefore
    · left
      by_cases hSame : other = probe
      · refine ⟨{ probe with stage := stage }, ?_, ?_⟩
        · exact
            Table.mem_updateWhere_of_selects hOther
              (decide_eq_true hSame)
        · rw [← hKey, hSame]
      · exact
          ⟨other,
            Table.mem_updateWhere_of_not hOther
              (decide_eq_false hSame),
            hKey⟩
    · exact Or.inr hBefore

/- A report is added that is sound for the claim's hole. -/
theorem GapInvariant.report
    {gap : WalChainGap}
    (hHolds : GapInvariant env s)
    (hDurable : Durable s.uploads.segments claim.chainKey)
    (hOverlap :
      ∀ lower, Below env s.uploads claim.chainKey lower →
        gap.start < endOf env lower →
          Durable s.uploads.segments lower) :
    GapInvariant env (s.report claim gap) := by
  refine
    { queue := hHolds.queue
      probes := hHolds.probes
      settled := ?_
      reports := ?_ }
  · intro key hKey
    rcases hHolds.settled key hKey with hProbe | hSettled
    · exact Or.inl hProbe
    · right
      have hKeeps : KeepsBelow env s.uploads s.uploads :=
        ⟨fun _ hBefore => hBefore, fun _ _ _ => Iff.rfl⟩
      refine hSettled.keeps hKeeps ?_ hKey
      intro report hReport
      exact List.mem_cons_of_mem _ hReport
  · intro report hReport
    rcases List.mem_cons.mp hReport with rfl | hOld
    · refine ⟨claim.chainKey, hDurable, ⟨rfl, rfl, rfl⟩, ?_⟩
      intro lower hBelow hReaches
      rcases hOverlap lower hBelow hReaches with
        ⟨row, hRow, hName, rfl⟩
      apply List.mem_map_of_mem
      rw [List.mem_filter]
      exact ⟨hRow, hName⟩
    · exact hHolds.reports report hOld

/- The claim begins the log: there is nothing below it. -/
theorem settled_of_start_zero
    {key : ChainKey}
    (hZero : key.startLSN = 0) :
    Settled env s key := by
  left
  rintro lower ⟨_, _, hBelow⟩
  rw [hZero] at hBelow
  exact Nat.not_lt_zero _ hBelow

/- A durable row below a claim ends below it. -/
theorem endsBelow_of_row
    (hQueue : QueueSound env s.uploads)
    (hBounds : RowSound env claim)
    (hRow : row ∈ s.uploads.segments)
    (hTimeline : SameTimeline row.chainKey claim.chainKey)
    (hBelow : row.startLSN < claim.startLSN) :
    EndsBelow env s.uploads claim.chainKey row.endLSN := by
  have hRowBounds := hQueue.rows row hRow
  unfold RowSound at hRowBounds hBounds
  rw [show row.databaseID = claim.databaseID
    from hTimeline.1] at hRowBounds
  rcases hRowBounds.end_le hBounds hBelow with ⟨_, hEnd⟩
  refine
    ⟨row.chainKey,
      ⟨hQueue.rowsExpected row hRow, hTimeline, hBelow⟩, ?_⟩
  rw [hEnd]
  unfold endOf
  rw [show row.chainKey.databaseID = claim.databaseID
    from hTimeline.1]
  rfl

/- A complete file of the queue that is listed. -/
theorem waiting_of_listed
    (hListed :
      queued ∈
        listQueuedOf env s.uploads.files claim.databaseID)
    (hComplete : queued.isComplete = true) :
    SegmentBounds (env.segSizeOf claim.databaseID)
        queued.startLSN queued.endLSN ∧
      Expected env s.uploads
        { databaseID := claim.databaseID
          timelineID := queued.timelineID
          startLSN := queued.startLSN } := by
  rcases mem_listQueuedOf_iff.mp hListed with
    ⟨file, hFile, hDatabase, hQueued⟩
  rcases queuedSegmentOf_some hQueued with
    ⟨hBounds, hKey, _⟩
  rw [hDatabase] at hBounds hKey
  refine ⟨hBounds, Or.inr ⟨file, hFile, ?_, hKey⟩⟩
  unfold IsWaiting
  rw [hQueued, Option.any_some, hComplete]

/- The queue lists what waits below a claim. -/
theorem listed_of_below
    (hBounds : RowSound env claim)
    (hBelow : Below env s.uploads claim.chainKey lower)
    (hNot : ¬ Durable s.uploads.segments lower) :
    ∃ queued ∈
        listQueuedOf env s.uploads.files claim.databaseID,
      queued.isComplete = true ∧
        queued.timelineID = claim.timelineID ∧
          queued.startLSN = lower.startLSN ∧
            queued.endLSN = endOf env lower := by
  rcases hBelow with ⟨hExpected, hTimeline, hStart⟩
  rcases hExpected with
    hDurable | ⟨file, hFile, hWaits, hKey⟩
  · exact absurd hDurable hNot
  · unfold IsWaiting at hWaits
    rcases (Option.any_eq_true _ _).mp hWaits with
      ⟨queued, hQueued, hComplete⟩
    rcases queuedSegmentOf_some hQueued with
      ⟨hQueuedBounds, hQueuedKey, _⟩
    rw [hKey] at hQueuedKey
    have hLower := Option.some.inj hQueuedKey
    have hDatabase : file.databaseID = claim.databaseID := by
      have hSame := hTimeline.1
      rw [hLower] at hSame
      exact hSame
    refine
      ⟨queued,
        mem_listQueuedOf_iff.mpr
          ⟨file, hFile, hDatabase, hQueued⟩,
        hComplete, ?_, ?_, ?_⟩
    · have hSame := hTimeline.2
      rw [hLower] at hSame
      exact hSame
    · rw [hLower]
    · rw [hDatabase] at hQueuedBounds
      rw [hLower] at hStart
      rcases hQueuedBounds.end_le hBounds hStart with
        ⟨_, hEnd⟩
      rw [hEnd, hLower]
      unfold endOf
      rw [hDatabase]

/-
  A listed segment that ends by the claim's start lies below
  the claim, unless its end has wrapped around to zero.
-/
theorem endsBelow_of_listed
    (hListed :
      queued ∈
        listQueuedOf env s.uploads.files claim.databaseID)
    (hComplete : queued.isComplete = true)
    (hTimeline : queued.timelineID = claim.timelineID)
    (hEnd : queued.endLSN ≤ claim.startLSN) :
    queued.endLSN = 0 ∨
      EndsBelow env s.uploads claim.chainKey
        queued.endLSN := by
  rcases waiting_of_listed hListed hComplete with
    ⟨hBounds, hExpected⟩
  by_cases hWraps :
      queued.startLSN +
          env.segSizeOf claim.databaseID <
        2 ^ 64
  · right
    have hSame :
        queued.endLSN =
          queued.startLSN +
            env.segSizeOf claim.databaseID := by
      rw [hBounds.ends]
      exact Nat.mod_eq_of_lt hWraps
    refine ⟨_, ⟨hExpected, ⟨rfl, hTimeline⟩, ?_⟩, hSame.symm⟩
    have hLess :
        queued.startLSN <
          queued.startLSN +
            env.segSizeOf claim.databaseID :=
      Nat.lt_add_of_pos_right hBounds.positive
    exact Nat.lt_of_lt_of_le hLess (hSame ▸ hEnd)
  · left
    have hLast :
        queued.startLSN +
            env.segSizeOf claim.databaseID =
          2 ^ 64 :=
      Nat.le_antisymm
        (add_size_le hBounds.aligned hBounds.whole
          hBounds.bounded)
        (Nat.le_of_not_lt hWraps)
    rw [hBounds.ends, hLast]
    exact Nat.mod_self _

/- A queued predecessor settles the hole. -/
theorem settled_of_predecessorQueued
    (hQueued :
      isPredecessorQueued
          (listQueuedOf env s.uploads.files
            claim.databaseID)
          claim =
        true) :
    Settled env s claim.chainKey := by
  rcases List.any_eq_true.mp hQueued with
    ⟨queued, hListed, hMatches⟩
  simp only [Bool.and_eq_true, decide_eq_true_eq]
    at hMatches
  rcases hMatches with ⟨⟨hComplete, hTimeline⟩, hEnd⟩
  rcases endsBelow_of_listed hListed hComplete hTimeline
      (Nat.le_of_eq hEnd) with
    hZero | hEnds
  · apply settled_of_start_zero
    exact hEnd.symm.trans hZero
  · rw [hEnd] at hEnds
    exact Or.inr (Or.inl hEnds)

/- The first call of a probe. -/
theorem gapInvariant_findingPrevious
    (hHolds : GapInvariant env s)
    (hProbe : probe ∈ s.probes)
    (hStage : probe.stage = .findingPrevious)
    (hSees :
      findLatestCommittedBefore s.uploads.segments
          probe.claim.chainKey =
        none →
      isPredecessorQueued
          (listQueuedOf env s.uploads.files
            probe.claim.databaseID)
          probe.claim =
        true ∨
      ∀ queued ∈
          listQueuedOf env s.uploads.files
            probe.claim.databaseID,
        queued.isComplete = true →
          queued.timelineID = probe.claim.timelineID →
            probe.claim.startLSN ≤ queued.startLSN) :
    GapInvariant env (advanceProbe env s probe true) := by
  have hSound := hHolds.probes probe hProbe
  unfold advanceProbe
  rw [hStage]
  simp only [Bool.true_eq_false, if_false]
  split
  · next hNone =>
      apply hHolds.endProbe
      rcases hSees hNone with hQueued | hLowest
      · exact settled_of_predecessorQueued hQueued
      · left
        intro lower hBelow
        by_cases hDurable :
            Durable s.uploads.segments lower
        · rcases hDurable with ⟨row, hRow, hName, rfl⟩
          have hSkipped :=
            Table.firstBy_eq_none_iff.mp
              (Option.map_eq_none_iff.mp hNone) row hRow
          have hSelected :
              isCommittedBefore probe.claim.chainKey row =
                true := by
            have hDatabase :
                row.databaseID =
                  probe.claim.chainKey.databaseID :=
              hBelow.2.1.1
            have hTimeline :
                row.timelineID =
                  probe.claim.chainKey.timelineID :=
              hBelow.2.1.2
            have hLess :
                row.startLSN <
                  probe.claim.chainKey.startLSN :=
              hBelow.2.2
            simp [isCommittedBefore, hDatabase, hTimeline,
              hLess, hName]
          rw [hSelected] at hSkipped
          cases hSkipped
        · rcases listed_of_below hSound.bounds hBelow hDurable
            with
            ⟨queued, hListed, hComplete, hTimeline, hStart, _⟩
          have hAbove :=
            hLowest queued hListed hComplete hTimeline
          rw [hStart] at hAbove
          exact Nat.not_lt_of_le hAbove hBelow.2.2
  · next previousEnd hSome =>
      rcases Option.map_eq_some_iff.mp hSome with
        ⟨row, hFirst, rfl⟩
      rcases Table.mem_of_firstBy hFirst with
        ⟨hRow, hSelected⟩
      simp only [isCommittedBefore, Bool.and_eq_true,
        decide_eq_true_eq] at hSelected
      rcases hSelected with
        ⟨⟨⟨hDatabase, hTimeline⟩, hBelow⟩, _⟩
      have hEnds :=
        endsBelow_of_row hHolds.queue hSound.bounds hRow
          ⟨hDatabase, hTimeline⟩ hBelow
      split
      · next hAdjacent =>
          apply hHolds.endProbe
          rw [hAdjacent] at hEnds
          exact Or.inr (Or.inl hEnds)
      · exact hHolds.setProbeStage hProbe hEnds

/- The listing of the queue. -/
theorem gapInvariant_listing
    (hHolds : GapInvariant env s)
    (hProbe : probe ∈ s.probes)
    (hStage : probe.stage = .listing previousEnd)
    (isAnswered : Bool) :
    GapInvariant env
      (advanceProbe env s probe isAnswered) := by
  have hSound := hHolds.probes probe hProbe
  have hEnds := hSound.stage
  rw [hStage] at hEnds
  unfold advanceProbe
  rw [hStage]
  simp only
  split
  · next hQueued =>
      exact
        hHolds.endProbe (settled_of_predecessorQueued hQueued)
  · refine
      hHolds.setProbeStage hProbe
        ⟨hEnds,
          { ends := ?_
            listed := ?_ }⟩
    · intro queued hListed hComplete hTimeline hEnd
      exact endsBelow_of_listed hListed hComplete hTimeline hEnd
    · intro lower hBelow hNot
      rcases listed_of_below hSound.bounds hBelow hNot with
        ⟨queued, hListed, hComplete, hTimeline, _, hEnd⟩
      exact ⟨queued, hListed, hComplete, hTimeline, hEnd⟩

/- The difference does not wrap around for a later start. -/
theorem predecessor_add_size
    {start size : Nat}
    (hSize : size ≤ start)
    (hPositive : 0 < size)
    (hBounded : start < 2 ^ 64) :
    (start + 2 ^ 64 - size) % 2 ^ 64 + size = start := by
  have hShift :
      start + 2 ^ 64 - size = (start - size) + 2 ^ 64 := by
    omega
  rw [hShift, Nat.add_mod_right,
    Nat.mod_eq_of_lt (by omega)]
  omega

/- The row right below a claim settles its hole. -/
theorem settled_of_predecessorRow
    (hQueue : QueueSound env s.uploads)
    (hBounds : RowSound env claim)
    (hFound :
      findByChainKey s.uploads.segments
          (predecessorKey (env.segSizeOf claim.databaseID)
            claim) =
        some row) :
    Settled env s claim.chainKey := by
  rcases Table.lookup_some hFound with ⟨hRow, hKey⟩
  by_cases hZero : claim.startLSN = 0
  · exact settled_of_start_zero hZero
  · have hSize :
        env.segSizeOf claim.databaseID ≤ claim.startLSN :=
      Nat.le_of_dvd (Nat.pos_of_ne_zero hZero)
        hBounds.aligned
    have hBefore :
        (predecessorKey (env.segSizeOf claim.databaseID)
            claim).startLSN +
            env.segSizeOf claim.databaseID =
          claim.startLSN :=
      predecessor_add_size hSize hBounds.positive
        hBounds.bounded
    right
    left
    have hExpected := hQueue.rowsExpected row hRow
    rw [hKey] at hExpected
    refine ⟨_, ⟨hExpected, ⟨rfl, rfl⟩, ?_⟩, hBefore⟩
    rw [← show _ = claim.chainKey.startLSN from hBefore]
    exact Nat.lt_add_of_pos_right hBounds.positive

/- What lies below a claim ends by the claim's start. -/
theorem endOf_le_of_below
    (hQueue : QueueSound env s.uploads)
    (hBounds : RowSound env claim)
    (hBelow : Below env s.uploads claim.chainKey lower) :
    endOf env lower ≤ claim.startLSN := by
  have hDatabase : lower.databaseID = claim.databaseID :=
    hBelow.2.1.1
  have hAligned :
      env.segSizeOf claim.databaseID ∣ lower.startLSN := by
    rcases hBelow.1 with
      ⟨row, hRow, _, rfl⟩ | ⟨file, hFile, hWaits, hKey⟩
    · have hRowBounds := (hQueue.rows row hRow).aligned
      rw [← hDatabase]
      exact hRowBounds
    · unfold IsWaiting at hWaits
      rcases (Option.any_eq_true _ _).mp hWaits with
        ⟨queued, hQueued, _⟩
      rcases queuedSegmentOf_some hQueued with
        ⟨hQueuedBounds, hQueuedKey, _⟩
      have hAlignedFile := hQueuedBounds.aligned
      rw [hKey] at hQueuedKey
      rw [Option.some.inj hQueuedKey] at hDatabase ⊢
      rw [← hDatabase]
      exact hAlignedFile
  unfold endOf
  rw [hDatabase]
  exact add_size_le hAligned hBounds.aligned hBelow.2.2

/- The gap starts where a segment below the claim ends. -/
theorem endsBelow_max
    (hEnds :
      EndsBelow env s.uploads claim.chainKey previousEnd)
    (hListing :
      ListingSound env s.uploads claim queuedSegments) :
    EndsBelow env s.uploads claim.chainKey
      (max previousEnd
        (getHighestQueuedEndBelow queuedSegments
          claim)) := by
  rcases
      (getHighestQueuedEndBelow_spec queuedSegments
        claim).2 with
    hZero | ⟨queued, hListed, hBelow, hEnd⟩
  · rw [hZero, Nat.max_eq_left (Nat.zero_le _)]
    exact hEnds
  · rcases
        hListing.ends queued hListed hBelow.1 hBelow.2.1
          hBelow.2.2 with
      hZero | hQueuedEnds
    · rw [← hEnd, hZero, Nat.max_eq_left (Nat.zero_le _)]
      exact hEnds
    · rw [← hEnd]
      rcases Nat.le_total queued.endLSN previousEnd with
        hLow | hHigh
      · rw [Nat.max_eq_left hLow]
        exact hEnds
      · rw [Nat.max_eq_right hHigh]
        exact hQueuedEnds

/- The last call of a probe. -/
theorem gapInvariant_findingPredecessor
    (hHolds : GapInvariant env s)
    (hProbe : probe ∈ s.probes)
    (hStage :
      probe.stage =
        .findingPredecessor previousEnd queuedSegments) :
    GapInvariant env (advanceProbe env s probe true) := by
  have hSound := hHolds.probes probe hProbe
  have hKnown := hSound.stage
  rw [hStage] at hKnown
  rcases hKnown with ⟨hEnds, hListing⟩
  rcases
      getHighestQueuedEndBelow_spec queuedSegments
        probe.claim with
    ⟨hTakes, hReached⟩
  unfold advanceProbe
  rw [hStage]
  simp only [Bool.true_eq_false, if_false]
  split
  · next hFound =>
      rcases Option.isSome_iff_exists.mp hFound with
        ⟨row, hRow⟩
      exact
        hHolds.endProbe
          (settled_of_predecessorRow hHolds.queue
            hSound.bounds hRow)
  · next hNoRow =>
      split
      · next hNoGap =>
          apply hHolds.endProbe
          simp only [decideWalChainGap, hNoRow] at hNoGap
          split at hNoGap
          · next hWhy =>
              rcases hWhy with hAdjacent | hRow | hQueued
              · rw [hAdjacent] at hEnds
                exact Or.inr (Or.inl hEnds)
              · cases hRow
              · rcases List.any_eq_true.mp hQueued with
                  ⟨queued, hListed, hMatches⟩
                simp only [Bool.and_eq_true,
                  decide_eq_true_eq] at hMatches
                rcases hMatches with
                  ⟨⟨hComplete, hTimeline⟩, hEnd⟩
                rcases
                    hListing.ends queued hListed hComplete
                      hTimeline (Nat.le_of_eq hEnd) with
                  hZero | hBelow
                · apply settled_of_start_zero
                  exact hEnd.symm.trans hZero
                · rw [hEnd] at hBelow
                  exact Or.inr (Or.inl hBelow)
          · cases hNoGap
      · next gap hGap =>
          simp only [decideWalChainGap, hNoRow] at hGap
          split at hGap
          · cases hGap
          · cases hGap
            have hReported :
                GapInvariant env
                  (s.report probe.claim
                    { start :=
                        max previousEnd
                          (getHighestQueuedEndBelow
                            queuedSegments probe.claim)
                      endLSN := probe.claim.startLSN }) := by
              apply hHolds.report hSound.durable
              intro lower hBelow hReaches
              by_contra hNot
              rcases hListing.listed lower hBelow hNot with
                ⟨queued, hListed, hComplete, hTimeline,
                  hEnd⟩
              have hCounted :=
                hTakes queued hListed
                  ⟨hComplete, hTimeline,
                    hEnd ▸
                      endOf_le_of_below hHolds.queue
                        hSound.bounds hBelow⟩
              rw [hEnd] at hCounted
              have hMax :=
                Nat.le_max_right previousEnd
                  (getHighestQueuedEndBelow queuedSegments
                    probe.claim)
              exact
                Nat.not_lt_of_le (hCounted.trans hMax)
                  hReaches
            apply hReported.endProbe
            right
            right
            refine ⟨_, List.mem_cons_self, ⟨rfl, rfl, rfl⟩, ?_⟩
            have hMax :
                EndsBelow env s.uploads
                  probe.claim.chainKey
                  (max previousEnd
                    (getHighestQueuedEndBelow queuedSegments
                      probe.claim)) := by
              exact endsBelow_max hEnds hListing
            rcases hMax with ⟨lower, hBelow, hEnd⟩
            exact ⟨lower, hBelow, Nat.le_of_eq hEnd.symm⟩

------------------------------------------------------------
-- Runs
------------------------------------------------------------

/- An expected segment of a finished timeline is durable. -/
theorem durable_of_expected
    {timeline key : ChainKey}
    (hAll : AllCommitted env s timeline)
    (hTimeline : SameTimeline key timeline)
    (hExpected : Expected env s.uploads key) :
    Durable s.uploads.segments key := by
  rcases hExpected with
    hDurable | ⟨file, hFile, hWaits, hKey⟩
  · exact hDurable
  · exact hAll file hFile hWaits key hKey hTimeline

/- Nothing below a hole's upper end reaches past its start. -/
theorem endOf_le_of_hole
    {below above : WalSegment}
    (hHolds : GapInvariant env s)
    (hHole : IsHole s.uploads.segments below above)
    (hAll : AllCommitted env s above.chainKey)
    {lower : ChainKey}
    (hLower : Below env s.uploads above.chainKey lower) :
    endOf env lower ≤ below.endLSN := by
  rcases hLower with ⟨hExpected, hTimeline, hStart⟩
  rcases durable_of_expected hAll hTimeline hExpected with
    ⟨row, hRow, hName, rfl⟩
  have hBefore := hHole.adjacent row hRow hName hTimeline hStart
  have hDatabase : below.databaseID = above.databaseID :=
    hHole.timeline.1
  have hRowDatabase : row.databaseID = above.databaseID :=
    hTimeline.1
  have hBelow := hHolds.queue.rows below hHole.belowDurable.1
  have hAbove := hHolds.queue.rows above hHole.aboveDurable.1
  unfold RowSound at hBelow hAbove
  rw [hDatabase] at hBelow
  rcases hBelow.end_le hAbove hHole.order with ⟨_, hEnd⟩
  rw [hEnd]
  unfold endOf
  change
    row.startLSN + env.segSizeOf row.databaseID ≤
      below.startLSN + env.segSizeOf above.databaseID
  rw [hRowDatabase]
  exact Nat.add_le_add_right hBefore _

theorem gapsReported_of_invariant
    (hHolds : GapInvariant env s) :
    GapsReported env s := by
  constructor
  · intro below above hHole hAll hProbed
    rcases hHole.aboveDurable with ⟨hAbove, hAboveName⟩
    rcases hHole.belowDurable with ⟨hBelow, _⟩
    rcases
        hHolds.settled above.chainKey
          ⟨above, hAbove, hAboveName, rfl⟩ with
      ⟨probe, hProbe, hKey⟩ | hSettled
    · exact absurd hKey (hProbed probe hProbe)
    · rcases hSettled with
        hNone | ⟨lower, hLower, hEnd⟩ |
          ⟨report, hReport, hFor, lower, hLower, hStart⟩
      · exact
          absurd
            ⟨hHolds.queue.rowsExpected below hBelow,
              hHole.timeline, hHole.order⟩
            (hNone below.chainKey)
      · have hReaches :=
          endOf_le_of_hole hHolds hHole hAll hLower
        rw [hEnd] at hReaches
        exact absurd hHole.gap (Nat.not_lt_of_le hReaches)
      · have hReaches :=
          endOf_le_of_hole hHolds hHole hAll hLower
        rcases hFor with ⟨hDatabase, hTimeline, hGapEnd⟩
        exact
          ⟨report, hReport, hDatabase, hTimeline,
            hStart.trans hReaches,
            Nat.le_of_eq hGapEnd.symm⟩
  · intro report hReport row hRow hName hDatabase hTimeline
      hBefore hAfter
    rcases hHolds.reports report hReport with
      ⟨key, _, hFor, hOverlap⟩
    rcases hFor with ⟨hKeyDatabase, hKeyTimeline, hGapEnd⟩
    have hBelow : Below env s.uploads key row.chainKey := by
      refine
        ⟨hHolds.queue.rowsExpected row hRow,
          ⟨hDatabase.trans hKeyDatabase,
            hTimeline.trans hKeyTimeline⟩,
          ?_⟩
      rw [← hGapEnd]
      exact hBefore
    exact hOverlap row.chainKey hBelow hAfter

theorem gapInvariant_step
    {action : GapAction}
    (hHolds : GapInvariant env s)
    (hKeeps : KeepsQueue env s action)
    (hSees : SeesPredecessors env s action)
    (hStep : gapStep env s action = some s') :
    GapInvariant env s' := by
  cases action with
  | upload action =>
      simp only [gapStep] at hStep
      split at hStep
      · next hAllowed =>
          rcases Option.map_eq_some_iff.mp hStep with
            ⟨uploads, hUploads, rfl⟩
          rw [Bool.and_eq_true] at hAllowed
          exact
            gapInvariant_upload hHolds hAllowed.1 hKeeps
              hUploads
      · cases hStep
  | probe runID isAnswered =>
      have hAnswered : isAnswered = true := hKeeps
      subst hAnswered
      rcases Option.map_eq_some_iff.mp hStep with
        ⟨probe, hFound, rfl⟩
      have hProbe := List.mem_of_find?_eq_some hFound
      cases hStage : probe.stage with
      | findingPrevious =>
          exact
            gapInvariant_findingPrevious hHolds hProbe hStage
              (hSees probe hFound hStage)
      | listing previousEnd =>
          exact gapInvariant_listing hHolds hProbe hStage true
      | findingPredecessor previousEnd queuedSegments =>
          exact
            gapInvariant_findingPredecessor hHolds hProbe
              hStage

theorem gapInvariant_initial
    (hInitial : (gapSystem env).initial s) :
    GapInvariant env s := by
  rcases hInitial with
    ⟨hSegments, hUploads, hProbes, hReports⟩
  have hNoRow : ∀ row, row ∉ s.uploads.segments := by
    intro row hRow
    rw [hSegments] at hRow
    cases hRow
  have hNoUpload : ∀ upload, upload ∉ s.uploads.uploads := by
    intro upload hUpload
    rw [hUploads] at hUpload
    cases hUpload
  have hUnique : UploadInvariant env.segSizeOf s.uploads := by
    refine ⟨?_, ?_, ?_⟩
    · rw [hSegments]
      exact List.nodup_nil
    · rw [hSegments]
      exact List.nodup_nil
    · intro upload hUpload
      exact absurd hUpload (hNoUpload upload)
  refine
    { queue :=
        { uploads := hUnique
          rows := fun row hRow => absurd hRow (hNoRow row)
          rowsExpected := fun row hRow =>
            absurd hRow (hNoRow row)
          claims := fun upload hUpload =>
            absurd hUpload (hNoUpload upload)
          unnamed := fun upload hUpload =>
            absurd hUpload (hNoUpload upload) }
      probes := ?_
      settled := ?_
      reports := ?_ }
  · intro probe hProbe
    rw [hProbes] at hProbe
    cases hProbe
  · rintro key ⟨row, hRow, _⟩
    exact absurd hRow (hNoRow row)
  · intro report hReport
    rw [hReports] at hReport
    cases hReport

/-
  In a run that keeps its queue, in which a probe without a
  durable segment below it is the lowest one's or has the
  one right below in the queue, all holes are reported, and
  no report is filled later.
-/
theorem gaps_reported
    (env : StreamEnvironment)
    (s : GapState)
    (hReachable :
      (gapSystem env).ReachableWhile
        (fun s action =>
          KeepsQueue env s action ∧
            SeesPredecessors env s action)
        s) :
    GapsReported env s := by
  apply gapsReported_of_invariant
  apply hReachable.invariant
  · intro s hInitial
    exact gapInvariant_initial hInitial
  · intro s action s' hHolds hGuard hStep
    exact gapInvariant_step hHolds hGuard.1 hGuard.2 hStep

def sampleStream : StreamEnvironment :=
  { segSizeOf := fun _ => 16777216
    watchDirOf := fun _ => "wal" }

/- The file of a segment of the first timeline. -/
def sampleSegmentFile
    (segmentNo : Nat) : LocalFile :=
  { databaseID := 1
    directory := "wal"
    walFilename := Walmath.getFilename segmentNo 1 16777216
    sizeBytes := 16777216 }

/- Two segments wait, and the one between them is missing. -/
def sampleQueue : GapState :=
  { uploads :=
      { segments := []
        files := [sampleSegmentFile 20, sampleSegmentFile 22]
        uploads := []
        objects := []
        now := 0 } }

/- The calls of an upload up to its commit. -/
def sampleCommit
    (runID segmentNo : Nat) : List GapAction :=
  [.upload
      (.processSegment runID (100 + runID) ⟨5, .none⟩
        (sampleSegmentFile segmentNo)),
    .upload (.advance runID .succeeded),
    .upload (.advance runID (.opened (200 + runID) "" "")),
    .upload (.advance runID .succeeded),
    .upload (.advance runID (.streamed 1024)),
    .upload (.advance runID .succeeded),
    .upload (.advance runID .succeeded)]

/- The probe of an upload, and the removal of its file. -/
def sampleProbe
    (runID calls : Nat) : List GapAction :=
  List.replicate calls (.probe runID true) ++
    [.upload (.advance runID .succeeded)]

/- The upper segment reports the hole between the two. -/
theorem hole_above_first_commit_is_reported :
    let s :=
      (gapSystem sampleStream).outcome sampleQueue
        (sampleCommit 1 20 ++ sampleProbe 1 1 ++
          (sampleCommit 2 22 ++ sampleProbe 2 3))
    s.reports.length = 1 ∧ GapsReported sampleStream s := by
  refine ⟨by decide +kernel, ?_⟩
  exact
    gaps_reported sampleStream _
      (TransitionSystem.reachableWhile_outcome
        ⟨rfl, rfl, rfl, rfl⟩ (by decide +kernel))

/- The row of a segment that has been stored. -/
def sampleSegment
    (runID segmentNo : Nat) : WalSegment :=
  { id := 100 + runID
    databaseID := 1
    storageID := 5
    timelineID := 1
    fileName :=
      some
        (walSegmentObjectName 1 1
          (Walmath.getFilename segmentNo 1 16777216)
          (200 + runID))
    walFilename := Walmath.getFilename segmentNo 1 16777216
    startLSN := segmentNo * 16777216
    endLSN := (segmentNo + 1) * 16777216
    compressedSizeMb := 1024 / (1024 * 1024)
    receivedAt := 0
    claimedAt := 0 }

/-
  The upper of the two is committed first.  Its probe finds
  nothing durable below, and the lower one looks below only.
-/
theorem first_commit_hides_hole :
    ¬ ∀ (env : StreamEnvironment) (s : GapState),
        (gapSystem env).ReachableWhile (KeepsQueue env) s →
          GapsReported env s := by
  intro hAlways
  have hReported :=
    hAlways sampleStream
      ((gapSystem sampleStream).outcome sampleQueue
        (sampleCommit 2 22 ++ sampleProbe 2 1 ++
          (sampleCommit 1 20 ++ sampleProbe 1 1)))
      (TransitionSystem.reachableWhile_outcome
        ⟨rfl, rfl, rfl, rfl⟩ (by decide +kernel))
  rcases
      hReported.complete (sampleSegment 1 20)
        (sampleSegment 2 22)
        { belowDurable := by decide +kernel
          aboveDurable := by decide +kernel
          timeline := by decide +kernel
          order := by decide +kernel
          gap := by decide +kernel
          adjacent := by decide +kernel }
        (by unfold AllCommitted; decide +kernel)
        (by decide +kernel) with
    ⟨report, hReport, _⟩
  have hNone :
      ((gapSystem sampleStream).outcome sampleQueue
          (sampleCommit 2 22 ++ sampleProbe 2 1 ++
            (sampleCommit 1 20 ++
              sampleProbe 1 1))).reports =
        [] := by
    decide +kernel
  rw [hNone] at hReport
  cases hReport

end WalStreaming

end Databasus
