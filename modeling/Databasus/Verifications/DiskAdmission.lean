import Mathlib.Algebra.Order.BigOperators.Group.List
import Databasus.Verifications.RunInvariants

/-
  Disk admission over whole runs of the module.

  A claim is checked against the load that was read before its
  transaction.  The load is rebuilt from a list of backup ids,
  in which the lookup keeps each backup once.  It covers the
  agent's real load when its running runs verify pairwise
  distinct backups.

  Main declarations:
    * `runningLoadMb`
    * `LoadsDistinctBackups`
    * `AdmissionInvariant`
    * `admissionInvariant_of_reachable`
    * `running_load_within_budget`
-/

------------------------------------------------------------
-- The Load of an Agent
------------------------------------------------------------

namespace Databasus

namespace Verifications

open Foundation
open Logical (LogicalBackup)

/- The disk that verifying a backup is estimated to need. -/
def requiredDiskMb
    (env : Environment)
    (backupID : Uuid) : Int :=
  match
    Table.lookup LogicalBackup.id backupID env.backups
  with
  | none => 0
  | some backup => estimateRequiredForRestoreDiskMb backup

def loadOf
    (env : Environment)
    (runs : List Verification) : Int :=
  (runs.map fun run => requiredDiskMb env run.backupID).sum

def agentRuns
    (agentID : Uuid)
    (runs : List Verification) : List Verification :=
  runs.filter fun run => IsRunningFor agentID run

/- What all running runs of an agent need together. -/
def runningLoadMb
    (env : Environment)
    (store : Store)
    (agentID : Uuid) : Int :=
  loadOf env (agentRuns agentID store.runs)

variable {env : Environment}

theorem requiredDiskMb_nonneg
    (env : Environment)
    (backupID : Uuid) :
    0 ≤ requiredDiskMb env backupID := by
  unfold requiredDiskMb
  split
  · exact le_refl 0
  · exact estimateRequiredForRestoreDiskMb_nonneg _

theorem requiredDiskMb_of_mem
    {backup : LogicalBackup}
    (hBackup : backup ∈ env.backups) :
    requiredDiskMb env backup.id =
      estimateRequiredForRestoreDiskMb backup := by
  unfold requiredDiskMb
  rw [env.uniqueBackups.lookup_eq_some hBackup]

/- Fewer runs need no more disk. -/
theorem loadOf_le_of_sublist
    {fewer runs : List Verification}
    (hSublist : fewer.Sublist runs) :
    loadOf env fewer ≤ loadOf env runs := by
  apply List.Sublist.sum_le_sum (hSublist.map _)
  intro load hLoad
  rcases List.mem_map.mp hLoad with ⟨run, _, rfl⟩
  exact requiredDiskMb_nonneg env run.backupID

theorem agentRuns_eq_filter_runningRuns
    (agentID : Uuid)
    (runs : List Verification) :
    agentRuns agentID runs =
      (runningRuns runs).filter fun run =>
        run.agentID = some agentID := by
  unfold agentRuns runningRuns
  rw [List.filter_filter]
  apply List.filter_congr
  intro run _
  rw [Bool.eq_iff_iff]
  simp only [decide_eq_true_eq, Bool.and_eq_true]
  exact Iff.rfl

/- Quiet steps give no agent another running run. -/
theorem agentRuns_sublist_of_quiet
    {rows rows' : List Verification}
    (hQuiet : QuietSteps rows rows')
    (agentID : Uuid) :
    (agentRuns agentID rows').Sublist
      (agentRuns agentID rows) := by
  rw [agentRuns_eq_filter_runningRuns,
    agentRuns_eq_filter_runningRuns]
  exact hQuiet.runningRuns_sublist.filter _

------------------------------------------------------------
-- The Load a Claim Reads
------------------------------------------------------------

/- Ids of no backup need no disk. -/
private theorem sum_requiredDiskMb_filter
    (env : Environment)
    (ids : List Uuid) :
    ((ids.filter fun id =>
        (env.backups.map LogicalBackup.id).contains
          id).map (requiredDiskMb env)).sum =
      (ids.map (requiredDiskMb env)).sum := by
  induction ids with
  | nil => rfl
  | cons id rest ih =>
      rw [List.filter_cons]
      split
      · rw [List.map_cons, List.map_cons, List.sum_cons,
          List.sum_cons, ih]
      · next hUnknown =>
          have hNone :
              Table.lookup LogicalBackup.id id env.backups =
                none := by
            rw [Table.lookup_eq_none_iff]
            intro backup hBackup hID
            apply hUnknown
            rw [List.contains_iff_mem]
            exact
              hID ▸
                List.mem_map_of_mem hBackup
          have hZero : requiredDiskMb env id = 0 := by
            unfold requiredDiskMb
            rw [hNone]
          rw [List.map_cons, List.sum_cons, hZero, ih,
            zero_add]

/- Distinct ids are looked up without loss. -/
theorem sum_listByIDs_of_nodup
    (env : Environment)
    {ids : List Uuid}
    (hDistinct : ids.Nodup) :
    sumEstimatedRequiredDiskMb
        (Logical.listByIDs env.backups ids) =
      (ids.map (requiredDiskMb env)).sum := by
  let found := Logical.listByIDs env.backups ids
  have hPerm :
      (found.map LogicalBackup.id).Perm
        (ids.filter fun id =>
          (env.backups.map LogicalBackup.id).contains
            id) := by
    apply
      (List.perm_ext_iff_of_nodup
        (List.Nodup.sublist
          (List.filter_sublist.map LogicalBackup.id)
          env.uniqueBackups)
        (hDistinct.filter _)).mpr
    intro id
    simp only [List.mem_map, List.mem_filter,
      List.contains_iff_mem]
    constructor
    · rintro ⟨backup, ⟨hBackup, hListed⟩, rfl⟩
      exact ⟨hListed, backup, hBackup, rfl⟩
    · rintro ⟨hListed, backup, hBackup, rfl⟩
      exact ⟨backup, ⟨hBackup, hListed⟩, rfl⟩
  have hEstimates :
      found.map estimateRequiredForRestoreDiskMb =
        (found.map LogicalBackup.id).map
          (requiredDiskMb env) := by
    rw [List.map_map]
    apply List.map_congr_left
    intro backup hBackup
    exact
      (requiredDiskMb_of_mem
        (List.mem_filter.mp hBackup).1).symm
  calc
    sumEstimatedRequiredDiskMb found =
        ((found.map LogicalBackup.id).map
          (requiredDiskMb env)).sum := by
      unfold sumEstimatedRequiredDiskMb
      rw [hEstimates]
    _ = ((ids.filter fun id =>
          (env.backups.map LogicalBackup.id).contains
            id).map (requiredDiskMb env)).sum :=
      (hPerm.map _).sum_eq
    _ = (ids.map (requiredDiskMb env)).sum :=
      sum_requiredDiskMb_filter env ids

/- With distinct backups a claim reads the whole load. -/
theorem sum_readRunningBackups
    {store : Store}
    {agentID : Uuid}
    (hDistinct :
      (listRunningBackupIDsByAgentID store agentID).Nodup) :
    sumEstimatedRequiredDiskMb
        (readRunningBackups store env.backups agentID) =
      runningLoadMb env store agentID := by
  unfold readRunningBackups
  rw [sum_listByIDs_of_nodup env hDistinct]
  unfold listRunningBackupIDsByAgentID runningLoadMb loadOf
    agentRuns
  rw [List.map_map]
  rfl

------------------------------------------------------------
-- What a Claim Adds
------------------------------------------------------------

variable {store store' : Store}
variable {claim : ClaimUpdate}
variable {candidate : Verification}

/- A claim moves one waiting run to its agent. -/
theorem updateClaim_split
    (hUnique : Table.UniqueBy Verification.id store.runs)
    (hCandidate : candidate ∈ store.runs)
    (hPending : candidate.status = .pending)
    (hID : candidate.id = claim.verificationID)
    (hClaim : updateClaim store claim = .ok store') :
    ∃ before after claimed,
      store.runs = before ++ candidate :: after ∧
        store'.runs = before ++ claimed :: after ∧
          claimed.status = .running ∧
            claimed.agentID = some claim.agentID ∧
              claimed.backupID = candidate.backupID := by
  rcases updateRuns_ok hClaim with
    ⟨⟨run, hRun, hSelects⟩, rfl⟩
  have hSame : run = candidate := by
    apply hUnique.eq_of_key_eq hRun hCandidate
    simp only [Bool.and_eq_true, decide_eq_true_eq]
      at hSelects
    rw [hSelects.1.1, hID]
  subst hSame
  rcases List.append_of_mem hRun with ⟨before, after, hRuns⟩
  refine
    ⟨before, after,
      { run with
        status := .running
        agentID := some claim.agentID
        startedAt := some claim.startedAt },
      hRuns, ?_, rfl, rfl, rfl⟩
  rw [hRuns] at hUnique
  change
    Table.updateWhere _ _ store.runs =
      before ++ _ :: after
  rw [hRuns, hUnique.updateWhere_split]
  · rw [if_pos hSelects]
  · intro other hOther
    simp only [Bool.and_eq_true, decide_eq_true_eq] at hOther
    rw [hOther.1.1, hID]

private theorem agentRuns_insert
    (agentID : Uuid)
    (before after : List Verification)
    {waiting claimed : Verification}
    (hWaiting : waiting.status = .pending)
    (hRunning : claimed.status = .running) :
    loadOf env
        (agentRuns agentID (before ++ claimed :: after)) =
      loadOf env
          (agentRuns agentID (before ++ waiting :: after)) +
        if claimed.agentID = some agentID then
          requiredDiskMb env claimed.backupID
        else
          0 := by
  have hNot : ¬ IsRunningFor agentID waiting := by
    rintro ⟨_, hStatus⟩
    rw [hWaiting] at hStatus
    exact VerificationStatus.noConfusion hStatus
  have hIff :
      IsRunningFor agentID claimed ↔
        claimed.agentID = some agentID :=
    ⟨fun hFor => hFor.1, fun hAgent => ⟨hAgent, hRunning⟩⟩
  unfold loadOf agentRuns
  simp only [List.filter_append, List.filter_cons, hNot,
    hIff, decide_false, Bool.false_eq_true, if_false]
  by_cases hAgent : claimed.agentID = some agentID
  · simp only [hAgent, decide_true, if_true,
      List.map_append, List.map_cons, List.sum_append,
      List.sum_cons]
    omega
  · simp only [hAgent, decide_false, Bool.false_eq_true,
      if_false, add_zero]

/- The claiming agent's load grows by the candidate. -/
theorem runningLoadMb_updateClaim
    (hUnique : Table.UniqueBy Verification.id store.runs)
    (hCandidate : candidate ∈ store.runs)
    (hPending : candidate.status = .pending)
    (hID : candidate.id = claim.verificationID)
    (hClaim : updateClaim store claim = .ok store')
    (agentID : Uuid) :
    runningLoadMb env store' agentID =
      runningLoadMb env store agentID +
        if claim.agentID = agentID then
          requiredDiskMb env candidate.backupID
        else
          0 := by
  rcases
      updateClaim_split hUnique hCandidate hPending hID
        hClaim with
    ⟨before, after, claimed, hOld, hNew, hRunning, hAgent,
      hBackup⟩
  unfold runningLoadMb
  rw [hOld, hNew,
    agentRuns_insert agentID before after hPending hRunning,
    hAgent, hBackup]
  simp only [Option.some.injEq]

------------------------------------------------------------
-- The Invariant of Admission
------------------------------------------------------------

variable {action : Action}

/- The agent whose claim an action begins. -/
def claimantOf :
    Action → Option Agent
  | .beginClaim agent => some agent
  | _ => none

/-
  A claim begins while the agent's running runs verify
  pairwise distinct backups.
-/
def LoadsDistinctBackups
    (s : State)
    (action : Action) : Prop :=
  ∀ agent ∈ claimantOf action,
    (listRunningBackupIDsByAgentID s.store agent.id).Nodup

instance instDecidableLoadsDistinctBackups
    (s : State)
    (action : Action) :
    Decidable (LoadsDistinctBackups s action) :=
  inferInstanceAs
    (Decidable (∀ agent ∈ claimantOf action, _))

/-
  Every claim under way has read at least the agent's present
  load, and no agent runs more than its budget admits.
-/
structure AdmissionInvariant
    (env : Environment)
    (s : State) : Prop where
  runs : RunsInvariant s.store.runs
  claims :
    ∀ request ∈ s.claims,
      request.capacity = env.capacityOf request.agentID ∧
        runningLoadMb env s.store request.agentID ≤
          sumEstimatedRequiredDiskMb request.runningBackups
  budget :
    ∀ agentID,
      agentRuns agentID s.store.runs ≠ [] →
        runningLoadMb env s.store agentID ≤
          (env.capacityOf agentID).diskBudgetMb

variable {env : Environment}
variable {s s' : State}

/- Quiet steps keep it, as long as they add no claim. -/
private theorem admissionInvariant_of_quiet
    (hHolds : AdmissionInvariant env s)
    (hQuiet : QuietSteps s.store.runs s'.store.runs)
    (hClaims :
      ∀ request ∈ s'.claims, request ∈ s.claims) :
    AdmissionInvariant env s' := by
  have hLess :
      ∀ agentID,
        runningLoadMb env s'.store agentID ≤
          runningLoadMb env s.store agentID :=
    fun agentID =>
      loadOf_le_of_sublist
        (agentRuns_sublist_of_quiet hQuiet agentID)
  refine ⟨hQuiet.invariant hHolds.runs, ?_, ?_⟩
  · intro request hRequest
    have hOld := hHolds.claims request (hClaims request hRequest)
    exact ⟨hOld.1, le_trans (hLess _) hOld.2⟩
  · intro agentID hSome
    apply le_trans (hLess agentID)
    apply hHolds.budget
    intro hNone
    apply hSome
    have hSublist := agentRuns_sublist_of_quiet hQuiet agentID
    rw [hNone] at hSublist
    exact List.sublist_nil.mp hSublist

/- The beginning of a claim reads the whole load. -/
private theorem admissionInvariant_beginClaim
    {agent : Agent}
    (hHolds : AdmissionInvariant env s)
    (hDistinct :
      (listRunningBackupIDsByAgentID s.store
        agent.id).Nodup)
    (hStep : beginClaim env s agent = some s') :
    AdmissionInvariant env s' := by
  unfold beginClaim at hStep
  split at hStep
  · cases hStep
  · split at hStep
    · rw [← Option.some.inj hStep]
      exact hHolds
    · rw [← Option.some.inj hStep]
      exact hHolds
    · rw [← Option.some.inj hStep]
      refine ⟨hHolds.runs, ?_, hHolds.budget⟩
      intro request hRequest
      rcases List.mem_cons.mp hRequest with rfl | hOld
      · exact ⟨rfl, (sum_readRunningBackups hDistinct).ge⟩
      · exact hHolds.claims request hOld

/- The end of a claim admits a run that fits. -/
private theorem admissionInvariant_finishClaim
    {agentID : Uuid}
    {lockedByOthers : List Uuid}
    {databases : List VerifiableDatabase}
    (hHolds : AdmissionInvariant env s)
    (hStep :
      finishClaim env s agentID lockedByOthers databases =
        some s') :
    AdmissionInvariant env s' := by
  rcases finishClaim_cases hStep with
    ⟨request, hRequest, hAgent,
      rfl | ⟨store, assignment, hClaim, rfl⟩⟩
  · exact
      admissionInvariant_of_quiet hHolds
        Relation.ReflTransGen.refl
        (fun _ hKept => (List.mem_filter.mp hKept).1)
  · rcases claimFirstFit_some hClaim with
      ⟨candidate, hCandidate, hFit, _, hUpdate⟩
    rcases mem_pairWithBackups hCandidate with
      ⟨hLocked, hBackup, hBackupID⟩
    rcases pending_of_mem_lockOldestPendingTop100 hLocked with
      ⟨hStored, hPending⟩
    rw [evaluateDiskAdmission_isFit_iff] at hFit
    have hRead := hHolds.claims request hRequest
    have hLoad :
        ∀ runner,
          runningLoadMb env store runner =
            runningLoadMb env s.store runner +
              if request.agentID = runner then
                requiredDiskMb env
                  candidate.verification.backupID
              else
                0 :=
      runningLoadMb_updateClaim hHolds.runs.uniqueIDs hStored
        hPending rfl hUpdate
    refine
      ⟨(updateClaim_step hUpdate).invariant hHolds.runs,
        ?_, ?_⟩
    · intro other hOther
      rcases List.mem_filter.mp hOther with
        ⟨hOld, hDifferent⟩
      have hNotClaimant : request.agentID ≠ other.agentID := by
        intro hSame
        simp [← hSame, hAgent] at hDifferent
      have hBefore := hHolds.claims other hOld
      refine ⟨hBefore.1, ?_⟩
      have hOtherLoad := hLoad other.agentID
      simp only [hNotClaimant, if_false, add_zero]
        at hOtherLoad
      rw [hOtherLoad]
      exact hBefore.2
    · intro runner hSome
      have hRunnerLoad := hLoad runner
      by_cases hClaimant : request.agentID = runner
      · subst hClaimant
        have hRequired :
            requiredDiskMb env candidate.verification.backupID =
              estimateRequiredForRestoreDiskMb
                candidate.backup := by
          rw [← hBackupID]
          exact requiredDiskMb_of_mem hBackup
        simp only [if_true, hRequired] at hRunnerLoad
        rw [hRead.1] at hFit
        change runningLoadMb env store request.agentID ≤ _
        omega
      · simp only [hClaimant, if_false, add_zero]
          at hRunnerLoad
        change runningLoadMb env store runner ≤ _
        rw [hRunnerLoad]
        apply hHolds.budget
        rcases
            updateClaim_split hHolds.runs.uniqueIDs hStored
              hPending rfl hUpdate with
          ⟨before, after, claimed, hOldRuns, hNewRuns, _,
            hClaimedBy, _⟩
        -- The claimed run is another agent's, so every run of
        -- this one was running before.
        change agentRuns runner store.runs ≠ [] at hSome
        rw [hNewRuns] at hSome
        rw [hOldRuns]
        intro hNone
        apply hSome
        have hOther : ¬ IsRunningFor runner claimed := by
          rintro ⟨hOwner, _⟩
          rw [hClaimedBy] at hOwner
          exact hClaimant (Option.some.inj hOwner)
        unfold agentRuns at hNone ⊢
        rw [List.filter_eq_nil_iff] at hNone ⊢
        intro run hRun
        rcases List.mem_append.mp hRun with hFirst | hRest
        · exact hNone run (List.mem_append_left _ hFirst)
        · rcases List.mem_cons.mp hRest with rfl | hLast
          · simpa using hOther
          · exact
              hNone run
                (List.mem_append_right _
                  (List.mem_cons_of_mem _ hLast))

/- The other actions leave the claims under way alone. -/
private theorem claims_of_step
    (hNoClaim : claimantOf action = none)
    (hNotFinished :
      ∀ agentID lockedByOthers databases,
        action ≠
          .finishClaim agentID lockedByOthers databases)
    (hStep : step env s action = some s') :
    ∀ request ∈ s'.claims, request ∈ s.claims := by
  have hCommit :
      ∀ outcome, (commit s outcome).claims = s.claims := by
    intro outcome
    cases outcome <;> rfl
  intro request hRequest
  cases action with
  | observe verificationID =>
      rcases Option.map_eq_some_iff.mp hStep with
        ⟨row, _, rfl⟩
      exact hRequest
  | beginClaim agent => cases hNoClaim
  | finishClaim agentID lockedByOthers databases =>
      exact
        absurd rfl
          (hNotFinished agentID lockedByOthers databases)
  | abandonClaim agentID =>
      rw [← Option.some.inj hStep] at hRequest
      exact (List.mem_filter.mp hRequest).1
  | tick later =>
      simp only [step] at hStep
      split at hStep
      · rw [← Option.some.inj hStep] at hRequest
        exact hRequest
      · cases hStep
  | _ =>
      simp only [step] at hStep
      first
        | rw [← Option.some.inj hStep, hCommit] at hRequest
          exact hRequest
        | split at hStep
          · rw [← Option.some.inj hStep, hCommit]
              at hRequest
            exact hRequest
          · cases hStep

theorem admissionInvariant_step
    (hHolds : AdmissionInvariant env s)
    (hGuard : LoadsDistinctBackups s action)
    (hStep : step env s action = some s') :
    AdmissionInvariant env s' := by
  cases hClaimant : claimantOf action with
  | some agent =>
      cases action with
      | beginClaim starting =>
          exact
            admissionInvariant_beginClaim hHolds
              (hGuard starting rfl) hStep
      | _ => cases hClaimant
  | none =>
      by_cases hFinished :
          ∃ agentID lockedByOthers databases,
            action =
              .finishClaim agentID lockedByOthers databases
      · rcases hFinished with
          ⟨agentID, lockedByOthers, databases, rfl⟩
        exact admissionInvariant_finishClaim hHolds hStep
      · push Not at hFinished
        exact
          admissionInvariant_of_quiet hHolds
            (step_quiet hHolds.runs.uniqueIDs hFinished hStep)
            (claims_of_step hClaimant hFinished hStep)

theorem admissionInvariant_of_reachable
    (hReachable :
      (system env).ReachableWhile LoadsDistinctBackups s) :
    AdmissionInvariant env s := by
  apply hReachable.invariant
  · rintro start hInitial
    have hRuns := runsInvariant_of_reachable (.initial hInitial)
    rcases hInitial with ⟨hEmpty, _, hNoClaims, _⟩
    refine ⟨hRuns, ?_, ?_⟩
    · simp [hNoClaims]
    · intro agentID hSome
      rw [hEmpty] at hSome
      exact absurd rfl hSome
  · intro before action after hHolds hGuard hStep
    exact admissionInvariant_step hHolds hGuard hStep

/-
  When no claim begins while two running runs of its agent
  verify one backup, the running runs of every agent need no
  more disk than the agent's budget.
-/
theorem running_load_within_budget
    (env : Environment)
    (s : State)
    (hReachable :
      (system env).ReachableWhile LoadsDistinctBackups s)
    (agentID : Uuid)
    (hRunning :
      ∃ run ∈ s.store.runs, IsRunningFor agentID run) :
    runningLoadMb env s.store agentID ≤
      (env.capacityOf agentID).diskBudgetMb := by
  apply
    (admissionInvariant_of_reachable hReachable).budget
  rcases hRunning with ⟨run, hRun, hFor⟩
  apply List.ne_nil_of_mem
  exact
    List.mem_filter.mpr ⟨hRun, decide_eq_true hFor⟩

/- One manual run is claimed within the budget. -/
theorem sample_load_within_budget :
    runningLoadMb sampleEnvironment
        ((system sampleEnvironment).outcome (initialState 0)
          ([.startVerification 10 1] ++ sampleClaim)).store
        sampleAgent.id ≤
      (sampleEnvironment.capacityOf
        sampleAgent.id).diskBudgetMb :=
  running_load_within_budget sampleEnvironment _
    (Foundation.TransitionSystem.reachableWhile_outcome
      (initial_initialState sampleEnvironment 0)
      (by decide +kernel))
    sampleAgent.id (by decide +kernel)

/- An interval schedule under which a run is always due. -/
def sampleIntervalConfig : Config :=
  { databaseID := 1
    isAutomaticVerificationEnabled := true
    scheduleType := .interval
    isDue := fun _ _ => true }

def sampleAfterBackupConfig : Config :=
  { sampleIntervalConfig with scheduleType := .afterBackup }

/-
  A manual, a scheduled and an after-backup run verify one
  backup.  Their agent is shown the backup once, and the third
  run exceeds its budget.
-/
def sampleSharedBackup : List Action :=
  [.startVerification 10 1] ++ sampleClaim ++
    [.createScheduledRun 11 sampleIntervalConfig
      sampleBackup] ++
    sampleClaim ++
    [.scheduleForCompletedBackup 12 sampleAfterBackupConfig
      (some sampleBackup) sampleDatabase] ++
    sampleClaim

theorem shared_backup_exceeds_budget :
    ¬ ∀ (env : Environment) (s : State),
        (system env).Reachable s →
          ∀ agentID,
            (∃ run ∈ s.store.runs,
                IsRunningFor agentID run) →
              runningLoadMb env s.store agentID ≤
                (env.capacityOf agentID).diskBudgetMb := by
  intro hAlways
  have hLoad :=
    hAlways sampleEnvironment
      ((system sampleEnvironment).outcome (initialState 0)
        sampleSharedBackup)
      (Foundation.TransitionSystem.reachable_outcome
        sampleSharedBackup
        (initial_initialState sampleEnvironment 0))
      sampleAgent.id (by decide +kernel)
  revert hLoad
  decide +kernel

end Verifications

end Databasus
