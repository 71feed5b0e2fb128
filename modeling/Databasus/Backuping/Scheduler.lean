import Databasus.Chains.ChainGrowth
import Databasus.Config.TypeCoercion

/-
  Which physical backup a pass of the scheduler starts.

  A request of a full comes first, and an unresolved mismatch
  of the cluster stops everything else.  The chain is read
  only when the newest backups leave the choice to it.

  Main declarations:
    * `decidePhysicalBackup`
    * `addChainFacts`
    * `claimAndInsert`
    * `IsDecided`
-/

------------------------------------------------------------
-- The Decision
------------------------------------------------------------

namespace Databasus

namespace Backuping

open Catalog Chains
open Config (PhysicalBackupConfig
  newDefaultPhysicalBackupConfig)
open Foundation (Location)
open Scheduling (Cron)

def recentFullAttemptsWindow : Nat := 3

structure SchedulingState where
  lastFull : Option Backup
  lastIncremental : Option Backup
  hasUnresolvedMismatch : Bool
  extendableRootID : Option Uuid := none
  incrementalParentID : Option Uuid := none
  recentFullBackups : List Backup := []
  hasChainError : Bool := false
  hasParentError : Bool := false
  hasRecentFullsError : Bool := false

structure BackupDecision where
  kind : BackupKind
  reason : String := ""
  incrRootFullBackupID : Uuid := 0
  incrParentIncrID : Option Uuid := none
  forceFullRequestedAt : Option Time := none
  forceIncrementalRequestedAt : Option Time := none

/- It can be scheduled when there is a decision. -/
structure SchedulingChoice where
  decision : Option BackupDecision := none
  needsChain : Bool := false
  shouldClearIncrementalRequest : Bool := false

def hasErrorReason
    (reason : BackupErrorReason)
    (backup : Backup) : Bool :=
  backup.errorReason = some reason

def decideImmediateReplacementFull
    (lastFull lastIncr : Option Backup) :
    Option BackupDecision :=
  if
    lastFull.any fun full =>
      full.status = .error &&
        hasErrorReason .failoverDuringBackup full
  then
    some
      { kind := .full
        reason := "replacing FULL interrupted by failover" }
  else
    match lastIncr, lastIncr.bind Backup.completedAt with
    | some incr, some completedAt =>
        if
          hasErrorReason .timelineSwitchDetected incr = false ∨
            incr.status ≠ .chainBroken
        then
          none
        else if
          lastFull.any fun full =>
            completedAt < full.createdAt
        then
          none
        else
          some
            { kind := .full
              reason := "re-anchoring after timeline switch" }
    | _, _ => none

def newestCreatedAt :
    Option Backup → Option Backup → Option Time
  | none, none => none
  | some full, none => some full.createdAt
  | none, some incr => some incr.createdAt
  | some full, some incr =>
      if full.createdAt < incr.createdAt then
        some incr.createdAt
      else
        some full.createdAt

def isChainBrokenBySummarizerOff
    (lastIncr : Option Backup) : Bool :=
  lastIncr.any fun incr =>
    incr.status = .chainBroken &&
      hasErrorReason .summarizerOff incr

def hasNoRecentCompletedFull
    (recentFullBackups : List Backup) : Bool :=
  !recentFullBackups.any fun full => full.status = .completed

def isIncrementalEnabled
    (config : PhysicalBackupConfig) : Bool :=
  config.backupType.isRequiringWalSummary &&
    config.incrementalBackupSchedule.isSome

def isRequested
    (config : PhysicalBackupConfig) : Bool :=
  config.forceIncrementalRequestedAt.isSome

variable (location : Location)
variable (cron : Cron)
variable (state : SchedulingState)
variable (config : PhysicalBackupConfig)
variable (now : Time)

def isFullDue : Bool :=
  config.fullBackupSchedule.isDue location cron now
    (state.lastFull.map Backup.createdAt)

def isIncrementalDue : Bool :=
  isIncrementalEnabled config &&
    config.incrementalBackupSchedule.any fun schedule =>
      schedule.isDue location cron now
        (newestCreatedAt state.lastFull
          state.lastIncremental)

def fullCadence : BackupDecision where
  kind := .full
  reason := "full cadence is due"

def decidePhysicalBackupFromNewest : SchedulingChoice :=
  match
    config.forceFullRequestedAt,
    state.hasUnresolvedMismatch,
    decideImmediateReplacementFull state.lastFull
      state.lastIncremental
  with
  | some requestedAt, _, _ =>
      { decision :=
          some
            { kind := .full
              reason := "full requested out of cadence"
              forceFullRequestedAt := some requestedAt } }
  | none, true, _ => {}
  | none, false, some decision => { decision := decision }
  | none, false, none =>
      if isRequested config && isIncrementalEnabled config then
        { needsChain := true }
      else if isFullDue location cron state config now then
        { decision := some fullCadence
          shouldClearIncrementalRequest :=
            isRequested config }
      else
        { needsChain :=
            isIncrementalDue location cron state config now
          shouldClearIncrementalRequest :=
            isRequested config }

def incrementalDecision
    (rootID : Uuid) : BackupDecision where
  kind := .incremental
  incrRootFullBackupID := rootID
  incrParentIncrID := state.incrementalParentID

/- The choice of the schedules, without any request. -/
def decideByCadence : Option BackupDecision :=
  if isFullDue location cron state config now then
    some fullCadence
  else if
    !isIncrementalDue location cron state config now ||
      state.hasChainError
  then
    none
  else
    match state.extendableRootID with
    | none =>
        if
          isChainBrokenBySummarizerOff state.lastIncremental ||
            state.hasRecentFullsError ||
            hasNoRecentCompletedFull state.recentFullBackups
        then
          none
        else
          some
            { kind := .full
              reason :=
                "re-anchoring: no extendable chain" }
    | some rootID =>
        if state.hasParentError then none
        else
          some
            { incrementalDecision state rootID with
              reason := "incremental cadence is due" }

def decidePhysicalBackupWithChain : SchedulingChoice :=
  if isRequested config then
    match state.extendableRootID with
    | some rootID =>
        if
          isIncrementalEnabled config &&
            !state.hasChainError && !state.hasParentError
        then
          { decision :=
              some
                { incrementalDecision state rootID with
                  forceIncrementalRequestedAt :=
                    config.forceIncrementalRequestedAt } }
        else
          { decision :=
              decideByCadence location cron state config now
            shouldClearIncrementalRequest :=
              !isIncrementalEnabled config }
    | none =>
        { decision :=
            decideByCadence location cron state config now
          shouldClearIncrementalRequest :=
            !isIncrementalEnabled config ||
              !state.hasChainError }
  else
    { decision :=
        decideByCadence location cron state config now }

def decidePhysicalBackup : SchedulingChoice :=
  if
    (decidePhysicalBackupFromNewest location cron state config
      now).needsChain
  then
    decidePhysicalBackupWithChain location cron state config
      now
  else
    decidePhysicalBackupFromNewest location cron state config
      now

------------------------------------------------------------
-- What Is Read for It
------------------------------------------------------------

/- Which of the reads succeed. -/
structure SchedulingReads where
  isChainRead : Bool
  isParentRead : Bool
  areRecentFullsRead : Bool

def newestFirst
    (backups : List Backup)
    (databaseID : Uuid)
    (kind : BackupKind) : List Backup :=
  (backups.filter fun backup =>
    backup.databaseID = databaseID &&
      backup.kind = kind).insertionSort createdNoEarlier

/-
  A mismatch stays unresolved until a full completes after
  it.  The maximum of no times is below nothing.
-/
def hasUnresolvedMismatch
    (backups : List Backup)
    (databaseID : Uuid) : Bool :=
  let rows :=
    backups.filter fun backup =>
      backup.databaseID = databaseID
  let fulls :=
    rows.filter fun backup =>
      backup.status = .completed && backup.kind = .full
  rows.any fun row =>
    hasErrorReason .systemIdentifierMismatch row &&
      (fulls.isEmpty ||
        (fulls.any fun full => full.completedAt.isSome) &&
          fulls.all fun full =>
            full.completedAt.all fun completedAt =>
              completedAt ≤
                row.completedAt.getD row.createdAt)

def loadNewestState
    (backups : List Backup)
    (databaseID : Uuid) : SchedulingState where
  lastFull := (newestFirst backups databaseID .full).head?
  lastIncremental :=
    (newestFirst backups databaseID .incremental).head?
  hasUnresolvedMismatch :=
    hasUnresolvedMismatch backups databaseID

variable (reads : SchedulingReads)
variable (backups : List Backup)

/- The facts that need the chain of the database. -/
def readChainFacts
    (databaseID : Uuid) : SchedulingState :=
  match
    findLastExtendableChainByDatabase backups databaseID,
    reads.isChainRead
  with
  | .ok (some chain), true =>
      let rootID := chain.rootFull.id
      { state with
        extendableRootID := some rootID
        incrementalParentID :=
          if reads.isParentRead then
            resolveIncrParent backups rootID
          else
            none
        hasParentError := !reads.isParentRead }
  | .ok none, true =>
      { state with
        recentFullBackups :=
          if reads.areRecentFullsRead then
            (newestFirst backups databaseID .full).take
              recentFullAttemptsWindow
          else
            []
        hasRecentFullsError := !reads.areRecentFullsRead }
  | _, _ => { state with hasChainError := true }

def addChainFacts : SchedulingState :=
  if
    (decidePhysicalBackupFromNewest location cron state config
      now).needsChain
  then
    readChainFacts state reads backups
      config.backupConfig.databaseID
  else
    state

def loadSchedulingState : SchedulingState :=
  addChainFacts location cron
    (loadNewestState backups config.backupConfig.databaseID)
    config now reads backups

------------------------------------------------------------
-- The Claim
------------------------------------------------------------

/- The place of the backup in the chains of its database. -/
def BackupDecision.place
    (decision : BackupDecision) : Chains.BackupDecision :=
  match decision.kind with
  | .full => .full
  | .incremental =>
      .incremental decision.incrRootFullBackupID
        decision.incrParentIncrID

structure ClaimResult where
  config : PhysicalBackupConfig
  backups : List Backup
  claimed : Option BackupDecision

def SchedulingChoice.clearIn
    (choice : SchedulingChoice)
    (config : PhysicalBackupConfig) : PhysicalBackupConfig :=
  if choice.shouldClearIncrementalRequest then
    { config with forceIncrementalRequestedAt := none }
  else
    config

def claimOf
    (storageID backupID : Uuid)
    (kind : BackupKind) : BackupClaim :=
  { backupID := backupID
    databaseID := config.backupConfig.databaseID
    storageID := storageID
    storageGeneration := config.backupConfig.storageGeneration
    kind := kind }

/-
  One transaction under the locks of the database, on the
  config and the catalog that it reads there.
-/
def claimAndInsert
    (isPublicationCurrent : Bool)
    (backupID : Uuid) : ClaimResult :=
  let unchanged : ClaimResult :=
    { config := config, backups := backups, claimed := none }
  match
    config.backupConfig.isBackupsEnabled,
    config.backupConfig.storageID
  with
  | true, some storageID =>
      let state :=
        loadSchedulingState location cron config now reads
          backups
      let choice :=
        decidePhysicalBackup location cron state config now
      match choice.decision with
      | none =>
          { unchanged with config := choice.clearIn config }
      | some decision =>
          if isPublicationCurrent = false then unchanged
          else
            match
              insertRunning backups
                (claimedBackup
                  (claimOf config storageID backupID
                    decision.kind)
                  now decision.place)
            with
            | (_, false) =>
                { unchanged with
                  config := choice.clearIn config }
            | (rows, true) =>
                { config := choice.clearIn config
                  backups := rows
                  claimed := some decision }
  | _, _ => unchanged

------------------------------------------------------------
-- What a Decision Keeps To
------------------------------------------------------------

/-
  A decision serves the request of a full, or needs a
  matching cluster.  An incremental grows the chain read.
-/
structure IsDecided (decision : BackupDecision) : Prop where
  request :
    decision.forceFullRequestedAt =
      config.forceFullRequestedAt
  requested :
    config.forceFullRequestedAt ≠ none →
      decision.kind = .full
  matched :
    config.forceFullRequestedAt = none →
      state.hasUnresolvedMismatch = false
  grows :
    decision.kind = .incremental →
      isIncrementalEnabled config = true ∧
        state.hasParentError = false ∧
          state.extendableRootID =
              some decision.incrRootFullBackupID ∧
            state.incrementalParentID =
              decision.incrParentIncrID

variable {state config}
variable {location cron now}
variable {decision : BackupDecision}

theorem replacement_is_full
    {lastFull lastIncr : Option Backup}
    (hReplaces :
      decideImmediateReplacementFull lastFull lastIncr =
        some decision) :
    decision.kind = .full ∧
      decision.forceFullRequestedAt = none := by
  unfold decideImmediateReplacementFull at hReplaces
  grind

/- The newest backups decide on a full, or need the chain. -/
theorem isDecided_fromNewest
    (hDecision :
      (decidePhysicalBackupFromNewest location cron state
          config now).decision =
        some decision) :
    IsDecided state config decision := by
  unfold decidePhysicalBackupFromNewest fullCadence
    at hDecision
  repeat' split at hDecision
  all_goals
    constructor
    all_goals grind [→ replacement_is_full]

/- The chain is asked for without a request of a full only. -/
theorem unrequested_of_needsChain
    (hNeeds :
      (decidePhysicalBackupFromNewest location cron state
        config now).needsChain = true) :
    config.forceFullRequestedAt = none ∧
      state.hasUnresolvedMismatch = false := by
  unfold decidePhysicalBackupFromNewest at hNeeds
  repeat' split at hNeeds
  all_goals grind

theorem isDecided_byCadence
    (hNone : config.forceFullRequestedAt = none)
    (hMatched : state.hasUnresolvedMismatch = false)
    (hDecision :
      decideByCadence location cron state config now =
        some decision) :
    IsDecided state config decision := by
  unfold decideByCadence isIncrementalDue fullCadence
    incrementalDecision at hDecision
  constructor
  all_goals grind

theorem isDecided
    (hDecision :
      (decidePhysicalBackup location cron state config
          now).decision =
        some decision) :
    IsDecided state config decision := by
  unfold decidePhysicalBackup at hDecision
  split at hDecision
  · next hNeeds =>
      have ⟨hNone, hMatched⟩ := unrequested_of_needsChain hNeeds
      unfold decidePhysicalBackupWithChain
        incrementalDecision at hDecision
      repeat' split at hDecision
      all_goals first
        | exact isDecided_byCadence hNone hMatched hDecision
        | constructor
          all_goals grind
  · exact isDecided_fromNewest hDecision

------------------------------------------------------------
-- What a Claim Inserts
------------------------------------------------------------

variable {reads : SchedulingReads}
variable {backups : List Backup}

/- The place that was decided is the one of the catalog. -/
theorem decideBackup_of_isDecided
    (hLoad :
      loadSchedulingState location cron config now reads
          backups =
        state)
    (hDecided : IsDecided state config decision) :
    decideBackup backups config.backupConfig.databaseID
        decision.kind =
      some decision.place := by
  unfold BackupDecision.place
  cases hKind : decision.kind with
  | full => rfl
  | incremental =>
      have ⟨_, hParent, hRoot, hSame⟩ := hDecided.grows hKind
      unfold loadSchedulingState addChainFacts
        readChainFacts loadNewestState at hLoad
      unfold decideBackup
      grind

/- What is known of a backup that a claim has started. -/
structure IsClaimed
    (config : PhysicalBackupConfig)
    (backups : List Backup)
    (now : Time)
    (result : ClaimResult)
    (decision : BackupDecision) : Prop where
  decided :
    ∃ state : SchedulingState,
      state.hasUnresolvedMismatch =
          hasUnresolvedMismatch backups
            config.backupConfig.databaseID ∧
        IsDecided state config decision
  inserted :
    ∃ claim : BackupClaim,
      claim.databaseID = config.backupConfig.databaseID ∧
        claim.kind = decision.kind ∧
          Chains.claimAndInsert backups claim now =
            (result.backups, true)

theorem clearIn_forceFull
    (choice : SchedulingChoice) :
    (choice.clearIn config).forceFullRequestedAt =
      config.forceFullRequestedAt := by
  unfold SchedulingChoice.clearIn
  split <;> rfl

variable (location cron config now reads backups)
variable (isPublicationCurrent : Bool)
variable (backupID : Uuid)

theorem claimAndInsert_cases :
    let result :=
      claimAndInsert location cron config now reads backups
        isPublicationCurrent backupID
    result.config.forceFullRequestedAt =
        config.forceFullRequestedAt ∧
      (result.claimed = none → result.backups = backups) ∧
        ∀ decision, result.claimed = some decision →
          IsClaimed config backups now result decision := by
  intro result
  unfold result claimAndInsert
  split
  · next storageID _ _ =>
      generalize hLoad :
        loadSchedulingState location cron config now reads
          backups = state
      have hMismatch :
          state.hasUnresolvedMismatch =
            hasUnresolvedMismatch backups
              config.backupConfig.databaseID := by
        unfold loadSchedulingState addChainFacts
          readChainFacts loadNewestState at hLoad
        grind
      dsimp only
      split
      · exact ⟨clearIn_forceFull _, fun _ => rfl, nofun⟩
      · next decision hDecision =>
          have hDecided := isDecided hDecision
          have hPlace :=
            decideBackup_of_isDecided hLoad hDecided
          split
          · exact ⟨rfl, fun _ => rfl, nofun⟩
          · split
            · exact ⟨clearIn_forceFull _, fun _ => rfl, nofun⟩
            · next rows hInserted =>
                refine ⟨clearIn_forceFull _, nofun, ?_⟩
                rintro _ ⟨⟩
                refine
                  ⟨⟨state, hMismatch, hDecided⟩,
                    claimOf config storageID backupID
                      decision.kind, rfl, rfl, ?_⟩
                unfold Chains.claimAndInsert claimOf
                simp only [hPlace]
                exact hInserted
  · exact ⟨rfl, fun _ => rfl, nofun⟩

open Foundation (TransitionSystem)

/-
  One database: its config, the statements in flight that
  clear a request of a full, and what happened since the last
  such request.
-/
structure SchedulerState where
  growth : GrowthState
  config : PhysicalBackupConfig
  clears : List Time
  lastRequestedAt : Option Time
  hasStartedFull : Bool

inductive SchedulerAction
  | requestFullBackup (now : Time)
  | saveConfig (config : PhysicalBackupConfig)
  | claimAndInsert
      (reads : SchedulingReads)
      (isPublicationCurrent : Bool)
      (backupID : Uuid)
      (now : Time)
  | clearFullBackupRequest (requestedAt : Time)
  | grow (clocked : ClockedAction)

def schedulerStep
    (s : SchedulerState) :
    SchedulerAction → Option SchedulerState
  | .requestFullBackup now =>
      some
        { s with
          config :=
            { s.config with forceFullRequestedAt := some now }
          lastRequestedAt := some now
          hasStartedFull := false }
  -- A save does not write the column of the request.
  | .saveConfig config =>
      some
        { s with
          config :=
            { config with
              forceFullRequestedAt :=
                s.config.forceFullRequestedAt } }
  | .claimAndInsert reads isPublicationCurrent backupID now =>
      let result :=
        claimAndInsert location cron s.config now reads
          s.growth.catalog.backups isPublicationCurrent
          backupID
      match result.claimed with
      | none => some { s with config := result.config }
      | some decision =>
          some
            { s with
              growth :=
                { catalog :=
                    { s.growth.catalog with
                      backups := result.backups }
                  now := now }
              config := result.config
              clears :=
                decision.forceFullRequestedAt.toList ++
                  s.clears
              hasStartedFull :=
                s.hasStartedFull || decision.kind = .full }
  -- A clear leaves a newer request in place.
  | .clearFullBackupRequest requestedAt =>
      if requestedAt ∉ s.clears then none
      else if
        s.config.forceFullRequestedAt = some requestedAt
      then
        some
          { s with
            config :=
              { s.config with forceFullRequestedAt := none } }
      else
        some s
  | .grow clocked =>
      (growthStep s.growth clocked).map fun growth =>
        { s with growth := growth }

def schedulerSystem :
    TransitionSystem SchedulerState SchedulerAction where
  initial s :=
    growthSystem.initial s.growth ∧ s.clears = [] ∧
      s.config.forceFullRequestedAt = none ∧
        s.lastRequestedAt = none
  step := schedulerStep location cron

/- The clock moves on between two requests of a full. -/
def KeepsClock (s : SchedulerState) : SchedulerAction → Prop
  | .requestFullBackup now =>
      ∀ last ∈ s.lastRequestedAt, last < now
  | .claimAndInsert _ _ _ now => s.growth.now ≤ now
  | .grow clocked => MeetsEnvironment s.growth clocked
  | _ => True

/- A request stays until a full that serves it has started. -/
structure KeepsRequest (s : SchedulerState) : Prop where
  pending :
    s.config.forceFullRequestedAt = s.lastRequestedAt ∨
      s.hasStartedFull = true ∧
        s.config.forceFullRequestedAt = none
  cleared :
    ∀ requestedAt ∈ s.clears,
      ∃ last ∈ s.lastRequestedAt, requestedAt ≤ last ∧
        (requestedAt = last → s.hasStartedFull = true)

variable {location cron}
variable {s s' : SchedulerState}
variable {action : SchedulerAction}

theorem KeepsRequest.step
    (hKeeps : KeepsRequest s)
    (hClock : KeepsClock s action)
    (hStep : schedulerStep location cron s action = some s') :
    KeepsRequest s' := by
  have ⟨hPending, hCleared⟩ := hKeeps
  cases action with
  | requestFullBackup now =>
      cases hStep
      refine ⟨.inl rfl, fun requestedAt hIn => ?_⟩
      rcases hCleared requestedAt hIn with
        ⟨last, hLast, hLe, _⟩
      have hNew := lt_of_le_of_lt hLe (hClock last hLast)
      exact ⟨now, rfl, hNew.le, fun hSame => absurd hSame hNew.ne⟩
  | saveConfig | grow =>
      cases hStep
      exact ⟨hPending, hCleared⟩
  | clearFullBackupRequest requestedAt =>
      simp only [schedulerStep] at hStep
      split at hStep
      · cases hStep
      · split at hStep
        · next hIn hNamed =>
            cases hStep
            refine ⟨.inr ⟨?_, rfl⟩, hCleared⟩
            rcases hCleared requestedAt (not_not.mp hIn) with
              ⟨last, hLast, _, hStarted⟩
            grind
        · cases hStep
          exact ⟨hPending, hCleared⟩
  | claimAndInsert reads isPublicationCurrent backupID now =>
      have ⟨hSame, _, hClaim⟩ :=
        claimAndInsert_cases location cron s.config now reads
          s.growth.catalog.backups isPublicationCurrent
          backupID
      simp only [schedulerStep] at hStep
      split at hStep
      · cases hStep
        exact ⟨by rwa [hSame], hCleared⟩
      · next decision hClaimed =>
          cases hStep
          rcases (hClaim decision hClaimed).decided with
            ⟨state, _, hDecided⟩
          have hRequest := hDecided.request
          have hFull := hDecided.requested
          constructor
          · simpa [hSame] using
              hPending.imp_right fun hStarted =>
                ⟨Or.inl hStarted.1, hStarted.2⟩
          · intro requestedAt hIn
            rcases List.mem_append.mp hIn with hServed | hOld
            · rw [Option.mem_toList, hRequest] at hServed
              have hKind := hFull (by grind)
              have hLast : requestedAt ∈ s.lastRequestedAt := by
                grind
              exact
                ⟨requestedAt, hLast, le_rfl, by simp [hKind]⟩
            · rcases hCleared requestedAt hOld with
                ⟨last, hLast, hLe, hStarted⟩
              exact
                ⟨last, hLast, hLe, fun hSame => by
                  simp [hStarted hSame]⟩

/- A request of a full is pending until one has started. -/
theorem full_request_is_kept
    (hReachable :
      (schedulerSystem location cron).ReachableWhile
        KeepsClock s) :
    s.config.forceFullRequestedAt = s.lastRequestedAt ∨
      s.hasStartedFull = true ∧
        s.config.forceFullRequestedAt = none := by
  have hKeeps : KeepsRequest s := by
    apply hReachable.invariant
    · rintro s ⟨_, hClears, hNone, hLast⟩
      exact ⟨.inl (hNone.trans hLast.symm), by simp [hClears]⟩
    · exact fun _ _ _ => KeepsRequest.step
  exact hKeeps.pending

/- What the scheduler starts is what the chains may claim. -/
theorem scheduled_runs_grow_chains
    (hReachable :
      (schedulerSystem location cron).ReachableWhile
        KeepsClock s) :
    growthSystem.ReachableWhile MeetsEnvironment s.growth := by
  induction hReachable with
  | initial hInitial => exact .initial hInitial.1
  | @step s s' action _ hClock hStep ih =>
      simp only [schedulerSystem, schedulerStep] at hStep
      cases action with
      | grow clocked =>
          cases hStep
          exact .step ih hClock rfl
      | claimAndInsert reads isPublicationCurrent backupID
          now =>
          have hClaim :=
            (claimAndInsert_cases location cron s.config now
              reads s.growth.catalog.backups
              isPublicationCurrent backupID).2.2
          simp only at hStep
          split at hStep
          · cases hStep
            exact ih
          · next decision hClaimed =>
              cases hStep
              rcases (hClaim decision hClaimed).inserted with
                ⟨claim, _, _, hInserted⟩
              apply ih.step (a := ⟨now, .claimAndInsert claim⟩)
              · exact ⟨hClock, fun _ hEnds => by cases hEnds⟩
              · simp [growthSystem, growthStep, growCatalog,
                  hInserted]
      | clearFullBackupRequest requestedAt =>
          simp only at hStep
          repeat' split at hStep
          all_goals cases hStep
          all_goals exact ih
      | requestFullBackup | saveConfig =>
          cases hStep
          exact ih

def noCron : Cron := ⟨fun _ => none⟩

def freshState : SchedulerState where
  growth := ⟨⟨[], [], [], []⟩, 0⟩
  config :=
    let config := newDefaultPhysicalBackupConfig noCron 1 .full
    { config with
      backupConfig :=
        { config.backupConfig with
          isBackupsEnabled := true
          storageID := some 1 } }
  clears := []
  lastRequestedAt := none
  hasStartedFull := false

/- A request, and a claim that serves it. -/
def requestedState : SchedulerState :=
  (schedulerSystem .utc noCron).outcome freshState
    [.requestFullBackup 5,
      .claimAndInsert ⟨true, true, true⟩ true 7 6]

theorem reachable_requestedState :
    (schedulerSystem .utc noCron).ReachableWhile KeepsClock
      requestedState := by
  apply TransitionSystem.reachableWhile_outcome
  · exact ⟨rfl, rfl, rfl, rfl⟩
  · refine ⟨nofun, fun s hStep => ?_⟩
    cases hStep
    exact ⟨by simp [KeepsClock, freshState], fun _ _ => trivial⟩

theorem full_request_is_kept_after_claim :
    requestedState.config.forceFullRequestedAt =
        requestedState.lastRequestedAt ∨
      requestedState.hasStartedFull = true ∧
        requestedState.config.forceFullRequestedAt = none :=
  full_request_is_kept reachable_requestedState

theorem requested_run_grows_chains :
    growthSystem.ReachableWhile MeetsEnvironment
      requestedState.growth :=
  scheduled_runs_grow_chains reachable_requestedState

end Backuping

end Databasus
