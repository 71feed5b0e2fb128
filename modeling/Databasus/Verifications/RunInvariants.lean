import Databasus.Verifications.Refinement

/-
  Invariants of the verification runs of a deployment.

  The steps of the module refine the life cycle of runs, so
  its invariant holds in every reachable state, and a run that
  has ended stays as it is whatever happens later.

  Main declarations:
    * `runsInvariant_step`
    * `runsInvariant_of_reachable`
    * `terminal_run_stays`
    * `runs_follow_life_cycle`
-/

------------------------------------------------------------
-- Invariants of Steps and Runs
------------------------------------------------------------

namespace Databasus

namespace Verifications

open Foundation

variable {env : Environment}
variable {s s' : State}
variable {action : Action}
variable {run : Verification}

/- One step keeps the invariant of the table. -/
theorem runsInvariant_step
    (hRuns : RunsInvariant s.store.runs)
    (hStep : step env s action = some s') :
    RunsInvariant s'.store.runs := by
  rcases step_table hRuns.uniqueIDs hStep with
    hQuiet | ⟨agentID, hClaim⟩
  · exact hQuiet.invariant hRuns
  · exact hClaim.invariant hRuns

/- One step leaves a run that has ended as it is. -/
theorem terminal_mem_step
    (hRuns : RunsInvariant s.store.runs)
    (hRun : run ∈ s.store.runs)
    (hTerminal : run.status.IsTerminal)
    (hStep : step env s action = some s') :
    run ∈ s'.store.runs := by
  rcases step_table hRuns.uniqueIDs hStep with
    hQuiet | ⟨agentID, hClaim⟩
  · exact hQuiet.keeps_terminal hRun hTerminal
  · exact hClaim.keeps_terminal hRun hTerminal

theorem runsInvariant_of_reachable
    (hReachable : (system env).Reachable s) :
    RunsInvariant s.store.runs := by
  apply hReachable.invariant
  · rintro start ⟨hRuns, _⟩
    rw [hRuns]
    exact
      { uniqueIDs := List.nodup_nil
        wellFormed := by simp
        exclusive := by simp }
  · intro before action after hHolds _ hStep
    exact runsInvariant_step hHolds hStep

/- Whatever happens later, the run is found unchanged. -/
theorem terminal_run_stays
    (hRuns : RunsInvariant s.store.runs)
    (hRun : run ∈ s.store.runs)
    (hTerminal : run.status.IsTerminal)
    {actions : List Action}
    (hPerform : (system env).perform s actions = some s') :
    getVerification s'.store run.id = some run := by
  have hKeeps :
      ∀ before action after,
        RunsInvariant before.store.runs ∧
            run ∈ before.store.runs →
          (system env).step before action = some after →
            RunsInvariant after.store.runs ∧
              run ∈ after.store.runs := by
    rintro before action after ⟨hInvariant, hMember⟩ hStep
    exact
      ⟨runsInvariant_step hInvariant hStep,
        terminal_mem_step hInvariant hMember hTerminal
          hStep⟩
  have hLater :=
    TransitionSystem.perform_invariant hKeeps actions
      ⟨hRuns, hRun⟩ hPerform
  exact hLater.1.uniqueIDs.lookup_eq_some hLater.2

------------------------------------------------------------
-- The Life Cycle in Every Reachable State
------------------------------------------------------------

/-
  Ended runs never change, attempts stay within the maximum,
  running runs have one owner and waiting runs none, and a
  database has one active manual and one active scheduled run
  at most.
-/
theorem runs_follow_life_cycle
    (env : Environment)
    (s : State)
    (hReachable : (system env).Reachable s) :
    (∀ run ∈ s.store.runs,
      run.status.IsTerminal →
        ∀ actions s',
          (system env).perform s actions = some s' →
            getVerification s'.store run.id = some run) ∧
    (∀ run ∈ s.store.runs,
      run.attemptCount ≤ maxAgentSideAttempts) ∧
    (∀ run ∈ s.store.runs,
      (run.status = .running →
        ∃ agentID, run.agentID = some agentID) ∧
      (run.status = .pending → run.agentID = none)) ∧
    (∀ first ∈ s.store.runs, ∀ second ∈ s.store.runs,
      first.status.IsActive →
      second.status.IsActive →
      first.databaseID = second.databaseID →
      first.trigger = second.trigger →
      first.trigger = .manual ∨ first.trigger = .scheduled →
      first = second) := by
  have hRuns := runsInvariant_of_reachable hReachable
  refine ⟨?_, ?_, ?_, ?_⟩
  · intro run hRun hTerminal actions s' hPerform
    exact terminal_run_stays hRuns hRun hTerminal hPerform
  · intro run hRun
    exact (hRuns.wellFormed run hRun).attempts
  · intro run hRun
    have hRow := hRuns.wellFormed run hRun
    refine ⟨?_, hRow.unowned⟩
    intro hRunning
    exact Option.isSome_iff_exists.mp (hRow.owned hRunning)
  · intro first hFirst second hSecond hFirstActive
      hSecondActive hDatabase hTrigger hManaged
    apply hRuns.exclusive first hFirst second hSecond
      hFirstActive hSecondActive hDatabase hTrigger
    rcases hManaged with hManual | hScheduled
    · rw [hManual]
      decide
    · rw [hScheduled]
      decide

/- A run that is claimed, requeued, claimed and completed. -/
def sampleCompletion : List Action :=
  [.startVerification 10 1] ++ sampleClaim ++
    [.submitReport
      { verificationID := 10, agentID := 7, attempt := 1 }
      sampleSetupFailure] ++
    sampleClaim ++
    [.submitReport
      { verificationID := 10, agentID := 7, attempt := 2 }
      sampleSuccess]

/- The completed run of the small deployment stays so. -/
theorem sampleCompletion_stays :
    ∃ run ∈ ((system sampleEnvironment).outcome
        (initialState 0) sampleCompletion).store.runs,
      run.status = .completed ∧ run.attemptCount = 2 ∧
        ∀ actions s',
          (system sampleEnvironment).perform
              ((system sampleEnvironment).outcome
                (initialState 0) sampleCompletion)
              actions =
            some s' →
          getVerification s'.store run.id = some run := by
  have hRun :
      ∃ run ∈ ((system sampleEnvironment).outcome
          (initialState 0) sampleCompletion).store.runs,
        run.status = .completed ∧ run.attemptCount = 2 := by
    decide +kernel
  rcases hRun with ⟨run, hRun, hCompleted, hAttempt⟩
  refine ⟨run, hRun, hCompleted, hAttempt, ?_⟩
  exact
    (runs_follow_life_cycle sampleEnvironment _
      (Foundation.TransitionSystem.reachable_outcome
        sampleCompletion
        (initial_initialState sampleEnvironment 0))).1
      run hRun (Or.inl hCompleted)

end Verifications

end Databasus
