import Databasus.Verifications.Lifecycle
import Databasus.Verifications.System

/-
  The service refines the life cycle of runs.

  Each repository write is a step of the table of runs, each
  service function a sequence of such steps, and each step of
  the module is quiet or the claim of one run.

  Main declarations:
    * `requeueOrFail_quiet`
    * `submitReport_quiet`
    * `claimFirstFit_some`
    * `step_table`
-/

------------------------------------------------------------
-- Repository Writes
------------------------------------------------------------

namespace Databasus

namespace Verifications

open Foundation

variable {store store' : Store}
variable {selects : Verification → Bool}
variable {change : Verification → Verification}
variable {whenMissing : VerificationError}
variable {run : Verification}
variable {terminal : TerminalUpdate}
variable {current : Verification}

/- An update that succeeds has changed the selected runs. -/
theorem updateRuns_ok
    (hUpdate :
      updateRuns store selects change whenMissing =
        .ok store') :
    (∃ run ∈ store.runs, selects run = true) ∧
      store' =
        { store with
          runs :=
            Table.updateWhere selects change store.runs } := by
  unfold updateRuns at hUpdate
  by_cases hNone : Table.affected selects store.runs = 0
  · simp [hNone] at hUpdate
  · rw [if_neg hNone] at hUpdate
    refine ⟨?_, (Except.ok.inj hUpdate).symm⟩
    rw [Table.affected_eq_zero_iff] at hNone
    push Not at hNone
    rcases hNone with ⟨run, hRun, hSelects⟩
    exact ⟨run, hRun, by simpa using hSelects⟩

/- An update whose selected runs all move is a quiet step. -/
private theorem updateRuns_quiet
    (hMoves :
      ∀ run ∈ store.runs, selects run = true →
        Transition none run (change run))
    (hUpdate :
      updateRuns store selects change whenMissing =
        .ok store') :
    QuietSteps store.runs store'.runs := by
  rcases updateRuns_ok hUpdate with ⟨_, rfl⟩
  exact Relation.ReflTransGen.single (.update hMoves)

/- A created run is fresh and stored last. -/
theorem create_ok
    (hCreate : create store run = .ok store') :
    (∀ old ∈ store.runs, old.id ≠ run.id) ∧
      store' =
        { store with runs := store.runs ++ [run] } := by
  unfold create getVerification at hCreate
  cases hLookup :
      Table.lookup Verification.id run.id store.runs with
  | some old => simp [hLookup] at hCreate
  | none =>
      simp only [hLookup, Option.isSome_none,
        Bool.false_eq_true, if_false,
        Except.ok.injEq] at hCreate
      exact ⟨Table.lookup_eq_none_iff.mp hLookup, hCreate.symm⟩

theorem create_quiet
    (hPending : run.status = .pending)
    (hUnowned : run.agentID = none)
    (hFirst : run.attemptCount = 1)
    (hExclusive :
      run.trigger ≠ .afterBackup →
        ∀ old ∈ store.runs,
          old.databaseID = run.databaseID →
            old.status.IsActive →
              old.trigger ≠ run.trigger)
    (hCreate : create store run = .ok store') :
    QuietSteps store.runs store'.runs := by
  rcases create_ok hCreate with ⟨hFresh, rfl⟩
  exact Relation.ReflTransGen.single
    (.create
      { fresh := hFresh
        pending := hPending
        unowned := hUnowned
        firstAttempt := hFirst
        exclusive := hExclusive })

/- Ending an active run is an edge of the life cycle. -/
theorem transition_applyTo_terminal
    (terminal : TerminalUpdate)
    (hActive : run.status.IsActive) :
    Transition none run (terminal.applyTo run) := by
  refine .finish ⟨rfl, rfl, rfl, rfl⟩ hActive ?_ rfl
  unfold TerminalUpdate.applyTo
  cases terminal.status with
  | failed => exact Or.inr (Or.inl rfl)
  | canceled => exact Or.inr (Or.inr rfl)

/- A cancellation is safe whatever was read before. -/
theorem markTerminal_canceled_quiet
    (hCanceled : terminal.status = .canceled)
    (hMark : markTerminal store terminal = .ok store') :
    QuietSteps store.runs store'.runs := by
  refine updateRuns_quiet ?_ hMark
  intro run _ hSelects
  apply transition_applyTo_terminal
  simpa [hCanceled] using
    (Bool.and_eq_true_iff.mp hSelects).2

/- Failing a run is safe when its locked row is active. -/
theorem markTerminal_quiet_of_active
    (hUnique : Table.UniqueBy Verification.id store.runs)
    (hCurrent : current ∈ store.runs)
    (hID : current.id = terminal.verificationID)
    (hActive : current.status.IsActive)
    (hMark : markTerminal store terminal = .ok store') :
    QuietSteps store.runs store'.runs := by
  refine updateRuns_quiet ?_ hMark
  intro run hRun hSelects
  have hRunID : run.id = terminal.verificationID := by
    simpa using (Bool.and_eq_true_iff.mp hSelects).1
  have hSame : run = current :=
    hUnique.eq_of_key_eq hRun hCurrent
      (hRunID.trans hID.symm)
  rw [hSame]
  exact transition_applyTo_terminal terminal hActive

/- A requeue is safe when the locked row may be retried. -/
theorem requeue_quiet
    {verificationID : Uuid}
    {now : Time}
    (hUnique : Table.UniqueBy Verification.id store.runs)
    (hCurrent : current ∈ store.runs)
    (hID : current.id = verificationID)
    (hRunning : current.status = .running)
    (hBelow : current.attemptCount < maxAgentSideAttempts)
    (hRequeue :
      requeue store verificationID now = .ok store') :
    QuietSteps store.runs store'.runs := by
  refine updateRuns_quiet ?_ hRequeue
  intro run hRun hSelects
  have hRunID : run.id = verificationID := by
    simpa using hSelects
  have hSame : run = current :=
    hUnique.eq_of_key_eq hRun hCurrent
      (hRunID.trans hID.symm)
  rw [hSame]
  exact
    .requeue ⟨rfl, rfl, rfl, rfl⟩ hRunning hBelow rfl rfl rfl

theorem writeSuccessReport_quiet
    {success : SuccessReport}
    (hWrite :
      writeSuccessReport store success = .ok store') :
    QuietSteps store.runs store'.runs := by
  refine updateRuns_quiet ?_ hWrite
  intro run _ hSelects
  simp only [Bool.and_eq_true, decide_eq_true_eq] at hSelects
  exact
    .finish ⟨rfl, rfl, rfl, rfl⟩ (Or.inr hSelects.2)
      (Or.inl rfl) rfl

------------------------------------------------------------
-- Service Functions
------------------------------------------------------------

open Logical (LogicalBackup)

variable {now : Time}
variable {failure : VerificationFailure}
variable {backups : List LogicalBackup}
variable {agentID verificationID : Uuid}
variable {id : Uuid}
variable {config : Config}

/- Agent-side reasons are only given for running rows. -/
theorem requeueOrFail_quiet
    (hUnique : Table.UniqueBy Verification.id store.runs)
    (hRow : failure.verification ∈ store.runs)
    (hActive : failure.verification.status.IsActive)
    (hAgentSide :
      isAgentSideFailure failure.reason = true →
        failure.verification.status = .running)
    (hCall :
      requeueOrFail store now failure = .ok store') :
    QuietSteps store.runs store'.runs := by
  unfold requeueOrFail at hCall
  by_cases hRetry :
      shouldRequeueAgentSide failure.reason
        failure.verification.attemptCount = true
  · simp only [hRetry, if_true] at hCall
    have hReason :
        isAgentSideFailure failure.reason = true := by
      simp only [shouldRequeueAgentSide,
        Bool.and_eq_true] at hRetry
      exact hRetry.1
    exact
      requeue_quiet hUnique hRow rfl (hAgentSide hReason)
        (attemptCount_lt_of_shouldRequeueAgentSide hRetry)
        hCall
  · simp only [hRetry] at hCall
    exact
      markTerminal_quiet_of_active hUnique hRow rfl hActive
        hCall

/- A stale row is compared with the locked one first. -/
theorem service_requeueOrFail_quiet
    (hUnique : Table.UniqueBy Verification.id store.runs)
    (hActive : failure.verification.status.IsActive)
    (hAgentSide :
      isAgentSideFailure failure.reason = true →
        failure.verification.status = .running)
    (hCall :
      Service.requeueOrFail store now failure =
        .ok store') :
    QuietSteps store.runs store'.runs := by
  unfold Service.requeueOrFail at hCall
  split at hCall
  · cases hCall
  · next current hCurrent =>
      split at hCall
      · cases hCall
      · next hAgrees =>
          push Not at hAgrees
          rcases hAgrees with ⟨hStatus, _, _⟩
          rcases Table.lookup_some hCurrent with
            ⟨hMember, _⟩
          apply requeueOrFail_quiet hUnique hMember _ _ hCall
          · rw [hStatus]
            exact hActive
          · intro hReason
            rw [hStatus]
            exact hAgentSide hReason

/- A report is taken only for a running row. -/
theorem submitReport_quiet
    {req : ReportRequest}
    (hUnique : Table.UniqueBy Verification.id store.runs)
    (hCall :
      submitReport store backups now agentID verificationID
        req = .ok store') :
    QuietSteps store.runs store'.runs := by
  unfold submitReport at hCall
  split at hCall
  · cases hCall
  · next run hRun =>
      rcases Table.lookup_some hRun with ⟨hMember, _⟩
      split at hCall
      · cases hCall
      · next hOwned =>
          push Not at hOwned
          have hRunning : run.status = .running := hOwned.1
          split at hCall
          · exact
              requeueOrFail_quiet hUnique hMember
                (Or.inr hRunning) (fun _ => hRunning) hCall
          · split at hCall
            · exact
                requeueOrFail_quiet hUnique hMember
                  (Or.inr hRunning) (fun _ => hRunning) hCall
            · exact writeSuccessReport_quiet hCall

theorem service_submitReport_quiet
    {report : ReportRequest}
    (hUnique : Table.UniqueBy Verification.id store.runs)
    (hCall :
      Service.submitReport store backups now agentID
        verificationID report = .ok store') :
    QuietSteps store.runs store'.runs := by
  unfold Service.submitReport at hCall
  split at hCall
  · cases hCall
  · split at hCall
    · cases hCall
    · exact submitReport_quiet hUnique hCall

/- No active run of the database has the trigger. -/
private theorem exclusive_of_not_any
    {databaseID : Uuid}
    {trigger : VerificationTrigger}
    (hNone :
      ¬ ((getActiveForDatabase store databaseID).any
        fun run => run.trigger = trigger) = true) :
    ∀ old ∈ store.runs,
      old.databaseID = databaseID →
        old.status.IsActive → old.trigger ≠ trigger := by
  intro old hOld hDatabase hActive hTrigger
  apply hNone
  rw [List.any_eq_true]
  refine ⟨old, ?_, by simpa using hTrigger⟩
  exact
    (mem_getActiveForDatabase_iff store databaseID old).mpr
      ⟨hOld, hDatabase, hActive⟩

theorem startVerification_quiet
    {id backupID : Uuid}
    (hCall :
      startVerification store backups now id backupID =
        .ok store') :
    QuietSteps store.runs store'.runs := by
  unfold startVerification at hCall
  split at hCall
  · cases hCall
  · split at hCall
    · cases hCall
    · split at hCall
      · cases hCall
      · next hNone =>
          exact
            create_quiet rfl rfl rfl
              (fun _ => exclusive_of_not_any hNone) hCall

theorem createScheduledRun_quiet
    {backup : LogicalBackup}
    (hDatabase : backup.databaseID = config.databaseID)
    (hCall :
      createScheduledRun store now id config backup =
        .ok store') :
    QuietSteps store.runs store'.runs := by
  unfold createScheduledRun at hCall
  split at hCall
  · rw [← Except.ok.inj hCall]
  · split at hCall
    · rw [← Except.ok.inj hCall]
    · next hNone =>
        split at hCall
        · rw [← hDatabase] at hNone
          exact
            create_quiet rfl rfl rfl
              (fun _ => exclusive_of_not_any hNone) hCall
        · rw [← Except.ok.inj hCall]

private theorem cancelEach_quiet
    {failMessage : String} :
    ∀ {rows : List Verification} {store : Store},
      cancelEach now failMessage store rows = .ok store' →
        QuietSteps store.runs store'.runs := by
  intro rows
  induction rows with
  | nil =>
      intro store hCall
      simp only [cancelEach, Except.ok.injEq] at hCall
      rw [← hCall]
  | cons row rest ih =>
      intro store hCall
      unfold cancelEach at hCall
      split at hCall
      · cases hCall
      · next canceled hMark =>
          exact
            (markTerminal_canceled_quiet rfl hMark).trans
              (ih hCall)

theorem scheduleVerificationForCompletedBackup_quiet
    {verifiableBackup : Option LogicalBackup}
    {database : VerifiableDatabase}
    (hCall :
      scheduleVerificationForCompletedBackup store now id
        config verifiableBackup database = .ok store') :
    QuietSteps store.runs store'.runs := by
  unfold scheduleVerificationForCompletedBackup at hCall
  split at hCall
  · rw [← Except.ok.inj hCall]
  · split at hCall
    · rw [← Except.ok.inj hCall]
    · split at hCall
      · rw [← Except.ok.inj hCall]
      · split at hCall
        · cases hCall
        · next canceled hCanceled =>
            refine
              (cancelEach_quiet hCanceled).trans
                (create_quiet rfl rfl rfl ?_ hCall)
            intro hManaged
            exact absurd rfl hManaged

------------------------------------------------------------
-- Passes over Rows Read Before
------------------------------------------------------------

variable {now readAt : Time}
variable {row : Verification}

theorem reapStaleRunning_quiet
    {owner : Option Agent}
    (hUnique : Table.UniqueBy Verification.id store.runs)
    (hRunning : row.status = .running)
    (hCall :
      reapStaleRunning store now readAt row owner =
        .ok store') :
    QuietSteps store.runs store'.runs := by
  unfold reapStaleRunning at hCall
  split at hCall
  · rw [← Except.ok.inj hCall]
  · split at hCall
    · exact
        service_requeueOrFail_quiet hUnique
          (Or.inr hRunning) (fun _ => hRunning) hCall
    · split at hCall
      · exact
          service_requeueOrFail_quiet hUnique
            (Or.inr hRunning) (fun _ => hRunning) hCall
      · split at hCall
        · rw [← Except.ok.inj hCall]
        · exact
            service_requeueOrFail_quiet hUnique
              (Or.inr hRunning) (fun _ => hRunning) hCall

/- Waiting too long is no fault of an agent. -/
theorem reapStalePending_quiet
    (hUnique : Table.UniqueBy Verification.id store.runs)
    (hPending : row.status = .pending)
    (hCall : reapStalePending store now row = .ok store') :
    QuietSteps store.runs store'.runs := by
  apply
    service_requeueOrFail_quiet hUnique (Or.inl hPending) _
      hCall
  intro hReason
  change isAgentSideFailure .unclaimedTooLong = true at hReason
  exact absurd hReason (by decide)

theorem reclaimDroppedRunningJob_quiet
    {reported : List Uuid}
    (hUnique : Table.UniqueBy Verification.id store.runs)
    (hRunning : row.status = .running)
    (hCall :
      reclaimDroppedRunningJob store now readAt reported
        row = .ok store') :
    QuietSteps store.runs store'.runs := by
  unfold reclaimDroppedRunningJob at hCall
  split at hCall
  · rw [← Except.ok.inj hCall]
  · split at hCall
    · rw [← Except.ok.inj hCall]
    · split at hCall
      · exact
          service_requeueOrFail_quiet hUnique
            (Or.inr hRunning) (fun _ => hRunning) hCall
      · rw [← Except.ok.inj hCall]

theorem cancelVerification_quiet
    (hCall : cancelVerification store now row = .ok store') :
    QuietSteps store.runs store'.runs := by
  unfold cancelVerification at hCall
  split at hCall
  · cases hCall
  · exact markTerminal_canceled_quiet rfl hCall

theorem cancelAutomaticVerification_quiet
    (hCall :
      cancelAutomaticVerification store now row =
        .ok store') :
    QuietSteps store.runs store'.runs :=
  markTerminal_canceled_quiet rfl hCall

------------------------------------------------------------
-- Claims
------------------------------------------------------------

variable {request : ClaimRequest}
variable {databases : List VerifiableDatabase}
variable {candidates : List ClaimCandidate}

/- A claim labels its step with the claiming agent. -/
theorem updateClaim_step
    {claim : ClaimUpdate}
    (hClaim : updateClaim store claim = .ok store') :
    TableStep (some claim.agentID) store.runs
      store'.runs := by
  rcases updateRuns_ok hClaim with ⟨_, rfl⟩
  apply TableStep.update
  intro run _ hSelects
  simp only [Bool.and_eq_true, decide_eq_true_eq] at hSelects
  exact
    .claim ⟨rfl, rfl, rfl, rfl⟩ hSelects.1.2 hSelects.2 rfl
      rfl rfl

/- A claim that assigns nothing changes nothing. -/
theorem claimFirstFit_none
    (hClaim :
      claimFirstFit store now request databases candidates =
        .ok (store', none)) :
    store' = store := by
  induction candidates with
  | nil =>
      simp only [claimFirstFit, Except.ok.injEq,
        Prod.mk.injEq, and_true] at hClaim
      exact hClaim.symm
  | cons candidate rest ih =>
      unfold claimFirstFit at hClaim
      split at hClaim
      · exact ih hClaim
      · split at hClaim
        · exact ih hClaim
        · split at hClaim
          · exact ih hClaim
          · split at hClaim
            · cases hClaim
            · simp at hClaim

/- An assignment is the claim of a candidate that fits. -/
theorem claimFirstFit_some
    {assignment : VerificationAssignment}
    (hClaim :
      claimFirstFit store now request databases candidates =
        .ok (store', some assignment)) :
    ∃ candidate ∈ candidates,
      (evaluateDiskAdmission request.capacity
          request.runningBackups
            candidate.backup).isFit = true ∧
        assignment.verificationID =
            candidate.verification.id ∧
          updateClaim store
              { verificationID := candidate.verification.id
                agentID := request.agentID
                startedAt := now } =
            .ok store' := by
  induction candidates with
  | nil => simp [claimFirstFit] at hClaim
  | cons candidate rest ih =>
      have hSkip :
          claimFirstFit store now request databases rest =
              .ok (store', some assignment) →
            ∃ found ∈ candidate :: rest,
              (evaluateDiskAdmission request.capacity
                  request.runningBackups
                    found.backup).isFit = true ∧
                assignment.verificationID =
                    found.verification.id ∧
                  updateClaim store
                      { verificationID :=
                          found.verification.id
                        agentID := request.agentID
                        startedAt := now } =
                    .ok store' := by
        intro hRest
        rcases ih hRest with ⟨found, hFound, hClaimed⟩
        exact ⟨found, List.mem_cons_of_mem _ hFound, hClaimed⟩
      unfold claimFirstFit at hClaim
      split at hClaim
      · exact hSkip hClaim
      · next hFit =>
          split at hClaim
          · exact hSkip hClaim
          · split at hClaim
            · exact hSkip hClaim
            · split at hClaim
              · cases hClaim
              · next claimed hUpdate =>
                  simp only [Except.ok.injEq, Prod.mk.injEq,
                    Option.some.injEq] at hClaim
                  rcases hClaim with ⟨rfl, rfl⟩
                  exact
                    ⟨candidate, List.mem_cons_self,
                      by simpa using hFit, rfl, hUpdate⟩

/- A candidate is a waiting run with its own backup. -/
theorem mem_pairWithBackups
    {backups : List LogicalBackup}
    {verifications : List Verification}
    {candidate : ClaimCandidate}
    (hCandidate :
      candidate ∈ pairWithBackups backups verifications) :
    candidate.verification ∈ verifications ∧
      candidate.backup ∈ backups ∧
        candidate.backup.id =
          candidate.verification.backupID := by
  unfold pairWithBackups at hCandidate
  rcases List.mem_filterMap.mp hCandidate with
    ⟨verification, hVerification, hPair⟩
  rcases Option.map_eq_some_iff.mp hPair with
    ⟨backup, hLookup, rfl⟩
  rcases Table.lookup_some hLookup with ⟨hBackup, hID⟩
  exact ⟨hVerification, (List.mem_filter.mp hBackup).1, hID⟩

------------------------------------------------------------
-- Steps of the Module
------------------------------------------------------------

variable {env : Environment}
variable {s s' : State}
variable {action : Action}

/- A committed transaction does what its outcome says. -/
theorem commit_quiet
    {outcome : Except VerificationError Store}
    (hQuiet :
      ∀ store, outcome = .ok store →
        QuietSteps s.store.runs store.runs) :
    QuietSteps s.store.runs
      (commit s outcome).store.runs := by
  unfold commit
  cases outcome with
  | error _ => exact Relation.ReflTransGen.refl
  | ok store => exact hQuiet store rfl

/- What the end of a claim request can do. -/
theorem finishClaim_cases
    {agentID : Uuid}
    {lockedByOthers : List Uuid}
    (hStep :
      finishClaim env s agentID lockedByOthers databases =
        some s') :
    ∃ request ∈ s.claims,
      request.agentID = agentID ∧
        (s' = dropClaim s agentID ∨
          ∃ store assignment,
            claimVerification s.store env.backups s.now
                request lockedByOthers databases =
              .ok (store, some assignment) ∧
            s' =
              { dropClaim s agentID with
                store := store
                executions :=
                  executionOf store agentID assignment ++
                    s.executions }) := by
  unfold finishClaim at hStep
  split at hStep
  · cases hStep
  · next request hFind =>
      refine
        ⟨request, List.mem_of_find?_eq_some hFind,
          by simpa using List.find?_some hFind, ?_⟩
      split at hStep
      · exact Or.inl (Option.some.inj hStep).symm
      · next store hClaim =>
          left
          rw [← Option.some.inj hStep,
            claimFirstFit_none hClaim]
          rfl
      · next store assignment hClaim =>
          exact
            Or.inr
              ⟨store, assignment, hClaim,
                (Option.some.inj hStep).symm⟩

/- Every action but the end of a claim is quiet. -/
theorem step_quiet
    (hUnique : Table.UniqueBy Verification.id s.store.runs)
    (hNoClaim :
      ∀ agentID lockedByOthers databases,
        action ≠
          .finishClaim agentID lockedByOthers databases)
    (hStep : step env s action = some s') :
    QuietSteps s.store.runs s'.store.runs := by
  cases action with
  | tick later =>
      simp only [step] at hStep
      split at hStep
      · rw [← Option.some.inj hStep]
      · cases hStep
  | observe verificationID =>
      rcases Option.map_eq_some_iff.mp hStep with
        ⟨row, _, rfl⟩
      exact Relation.ReflTransGen.refl
  | startVerification id backupID =>
      rw [← Option.some.inj hStep]
      exact commit_quiet fun _ => startVerification_quiet
  | scheduleForCompletedBackup id config backup database =>
      rw [← Option.some.inj hStep]
      exact
        commit_quiet fun _ =>
          scheduleVerificationForCompletedBackup_quiet
  | createScheduledRun id config backup =>
      simp only [step] at hStep
      split at hStep
      · next hLatest =>
          rw [← Option.some.inj hStep]
          exact
            commit_quiet fun _ =>
              createScheduledRun_quiet hLatest.2.1
      · cases hStep
  | beginClaim agent =>
      simp only [step, beginClaim] at hStep
      split at hStep
      · cases hStep
      · split at hStep <;>
          rw [← Option.some.inj hStep]
  | finishClaim agentID lockedByOthers databases =>
      exact
        absurd rfl
          (hNoClaim agentID lockedByOthers databases)
  | abandonClaim agentID =>
      rw [← Option.some.inj hStep]
      exact Relation.ReflTransGen.refl
  | submitReport execution report =>
      rw [← Option.some.inj hStep]
      exact
        commit_quiet fun _ => service_submitReport_quiet hUnique
  | reclaimDroppedRunningJob readAt agentID reported row =>
      simp only [step] at hStep
      split at hStep
      · next hRow =>
          rw [← Option.some.inj hStep]
          exact
            commit_quiet fun _ =>
              reclaimDroppedRunningJob_quiet hUnique
                hRow.2.2.1
      · cases hStep
  | reapStaleRunning readAt row owner =>
      simp only [step] at hStep
      split at hStep
      · next hRow =>
          rw [← Option.some.inj hStep]
          exact
            commit_quiet fun _ =>
              reapStaleRunning_quiet hUnique hRow.2.2
      · cases hStep
  | reapStalePending readAt row =>
      simp only [step] at hStep
      split at hStep
      · next hRow =>
          rw [← Option.some.inj hStep]
          exact
            commit_quiet fun _ =>
              reapStalePending_quiet hUnique hRow.2.2.1
      · cases hStep
  | cancelVerification row =>
      simp only [step] at hStep
      split at hStep
      · rw [← Option.some.inj hStep]
        exact commit_quiet fun _ => cancelVerification_quiet
      · cases hStep
  | cancelAutomaticVerification row =>
      simp only [step] at hStep
      split at hStep
      · rw [← Option.some.inj hStep]
        exact
          commit_quiet fun _ =>
            cancelAutomaticVerification_quiet
      · cases hStep

/- A step of the module is quiet, or one agent's claim. -/
theorem step_table
    (hUnique : Table.UniqueBy Verification.id s.store.runs)
    (hStep : step env s action = some s') :
    QuietSteps s.store.runs s'.store.runs ∨
      ∃ agentID,
        TableStep (some agentID) s.store.runs
          s'.store.runs := by
  by_cases hClaim :
      ∃ agentID lockedByOthers databases,
        action = .finishClaim agentID lockedByOthers databases
  · rcases hClaim with
      ⟨agentID, lockedByOthers, databases, rfl⟩
    rcases finishClaim_cases hStep with
      ⟨request, _, hAgent, rfl | ⟨store, _, hAssigned, rfl⟩⟩
    · exact Or.inl Relation.ReflTransGen.refl
    · rcases claimFirstFit_some hAssigned with
        ⟨_, _, _, _, hUpdate⟩
      exact Or.inr ⟨_, updateClaim_step hUpdate⟩
  · left
    push Not at hClaim
    exact step_quiet hUnique hClaim hStep

end Verifications

end Databasus
