import Mathlib.Logic.Relation
import Databasus.Foundation.Table
import Databasus.Verifications.Run

/-
  The life cycle of verification runs, on its own.

  A run waits, is claimed by an agent, and either waits again
  or ends.  This file says what may happen to one run and to
  the table of runs, without saying which statement does it.

  Main declarations:
    * `Transition`
    * `TableStep`
    * `RunsInvariant`
    * `TableStep.invariant`
    * `TableStep.keeps_terminal`
-/

------------------------------------------------------------
-- One Run
------------------------------------------------------------

namespace Databasus

namespace Verifications

/- The parts of a run that never change. -/
structure SameRun (old new : Verification) : Prop where
  id : new.id = old.id
  databaseID : new.databaseID = old.databaseID
  backupID : new.backupID = old.backupID
  trigger : new.trigger = old.trigger

/-
  The edges of the life cycle.  The label names the agent
  that takes the run, and is `none` on the other edges.
-/
inductive Transition :
    Option Uuid → Verification → Verification → Prop
  | claim {agentID : Uuid} {old new : Verification} :
      SameRun old new →
      old.status = .pending →
      old.agentID = none →
      new.status = .running →
      new.agentID = some agentID →
      new.attemptCount = old.attemptCount →
      Transition (some agentID) old new
  | requeue {old new : Verification} :
      SameRun old new →
      old.status = .running →
      old.attemptCount < maxAgentSideAttempts →
      new.status = .pending →
      new.agentID = none →
      new.attemptCount = old.attemptCount + 1 →
      Transition none old new
  | finish {old new : Verification} :
      SameRun old new →
      old.status.IsActive →
      new.status.IsTerminal →
      new.attemptCount = old.attemptCount →
      Transition none old new

/- What holds of every row of the table by itself. -/
structure WellFormed (run : Verification) : Prop where
  attempts : run.attemptCount ≤ maxAgentSideAttempts
  owned : run.status = .running → run.agentID.isSome
  unowned : run.status = .pending → run.agentID = none

variable {label : Option Uuid}
variable {old new : Verification}

theorem Transition.sameRun
    (hTransition : Transition label old new) :
    SameRun old new := by
  cases hTransition with
  | claim hSame => exact hSame
  | requeue hSame => exact hSame
  | finish hSame => exact hSame

/- Only a run that has not ended moves. -/
theorem Transition.isActive
    (hTransition : Transition label old new) :
    old.status.IsActive := by
  cases hTransition with
  | claim _ hPending => exact Or.inl hPending
  | requeue _ hRunning => exact Or.inr hRunning
  | finish _ hActive => exact hActive

theorem Transition.wellFormed
    (hTransition : Transition label old new)
    (hOld : WellFormed old) :
    WellFormed new := by
  cases hTransition with
  | claim _ _ _ hRunning hAgent hAttempt =>
      refine ⟨?_, ?_, ?_⟩
      · rw [hAttempt]
        exact hOld.attempts
      · intro _
        simp [hAgent]
      · intro hPending
        rw [hRunning] at hPending
        exact VerificationStatus.noConfusion hPending
  | requeue _ _ hBelow hPending hAgent hAttempt =>
      refine ⟨?_, ?_, ?_⟩
      · omega
      · intro hRunning
        rw [hPending] at hRunning
        exact VerificationStatus.noConfusion hRunning
      · intro _
        exact hAgent
  | finish _ _ hTerminal hAttempt =>
      have hEnded :=
        VerificationStatus.not_isActive_of_isTerminal
          hTerminal
      refine ⟨?_, ?_, ?_⟩
      · rw [hAttempt]
        exact hOld.attempts
      · intro hRunning
        exact absurd (Or.inr hRunning) hEnded
      · intro hPending
        exact absurd (Or.inl hPending) hEnded

/- Without a claim no run starts running. -/
theorem Transition.not_running
    (hTransition : Transition none old new) :
    new.status ≠ .running := by
  cases hTransition with
  | requeue _ _ _ hPending =>
      rw [hPending]
      exact VerificationStatus.noConfusion
  | finish _ _ hTerminal =>
      intro hRunning
      exact
        VerificationStatus.not_isActive_of_isTerminal
          hTerminal (Or.inr hRunning)

------------------------------------------------------------
-- The Table of Runs
------------------------------------------------------------

open Foundation

variable {selects : Verification → Bool}
variable {change : Verification → Verification}
variable {run : Verification}

/- A run that may be added to the table. -/
structure NewRun
    (rows : List Verification)
    (run : Verification) : Prop where
  fresh : ∀ old ∈ rows, old.id ≠ run.id
  pending : run.status = .pending
  unowned : run.agentID = none
  firstAttempt : run.attemptCount = 1
  exclusive :
    run.trigger ≠ .afterBackup →
      ∀ old ∈ rows,
        old.databaseID = run.databaseID →
          old.status.IsActive →
            old.trigger ≠ run.trigger

/- One write to the table, labelled like a transition. -/
inductive TableStep :
    Option Uuid →
      List Verification → List Verification → Prop
  | update
      {label : Option Uuid}
      {rows : List Verification}
      {selects : Verification → Bool}
      {change : Verification → Verification} :
      (∀ row ∈ rows, selects row = true →
        Transition label row (change row)) →
      TableStep label rows
        (Table.updateWhere selects change rows)
  | create
      {rows : List Verification}
      {run : Verification} :
      NewRun rows run →
      TableStep none rows (rows ++ [run])

/- What holds of the table in every reachable state. -/
structure RunsInvariant
    (rows : List Verification) : Prop where
  uniqueIDs : Table.UniqueBy Verification.id rows
  wellFormed : ∀ run ∈ rows, WellFormed run
  exclusive :
    ∀ first ∈ rows, ∀ second ∈ rows,
      first.status.IsActive →
      second.status.IsActive →
      first.databaseID = second.databaseID →
      first.trigger = second.trigger →
      first.trigger ≠ .afterBackup →
      first = second

variable {label : Option Uuid}
variable {rows rows' : List Verification}

/- A row of an updated table is old, or an old one moved. -/
theorem transition_of_mem_update
    (hChange :
      ∀ row ∈ rows, selects row = true →
        Transition label row (change row))
    {run : Verification}
    (hMember :
      run ∈ Table.updateWhere selects change rows) :
    ∃ old ∈ rows,
      (selects old = false ∧ run = old) ∨
        (selects old = true ∧ run = change old ∧
          Transition label old run) := by
  rcases (Table.mem_updateWhere_iff _ _ _ _).mp hMember with
    ⟨old, hOld, hRun⟩
  refine ⟨old, hOld, ?_⟩
  by_cases hSelects : selects old = true
  · right
    rw [if_pos hSelects] at hRun
    subst hRun
    exact ⟨hSelects, rfl, hChange old hOld hSelects⟩
  · left
    rw [if_neg hSelects] at hRun
    exact ⟨by simpa using hSelects, hRun.symm⟩

private theorem invariant_update
    (hChange :
      ∀ row ∈ rows, selects row = true →
        Transition label row (change row))
    (hRows : RunsInvariant rows) :
    RunsInvariant
      (Table.updateWhere selects change rows) := by
  refine ⟨?_, ?_, ?_⟩
  · have hKeys :
        (Table.updateWhere selects change rows).map
            Verification.id =
          rows.map Verification.id := by
      unfold Table.updateWhere
      rw [List.map_map]
      apply List.map_congr_left
      intro row hRow
      by_cases hSelects : selects row = true
      · simp [hSelects,
          (hChange row hRow hSelects).sameRun.id]
      · simp [hSelects]
    unfold Table.UniqueBy
    rw [hKeys]
    exact hRows.uniqueIDs
  · intro run hRun
    rcases transition_of_mem_update hChange hRun with
      ⟨old, hOld, ⟨_, rfl⟩ | ⟨_, _, hMoved⟩⟩
    · exact hRows.wellFormed _ hOld
    · exact hMoved.wellFormed (hRows.wellFormed old hOld)
  · intro first hFirst second hSecond hFirstActive
      hSecondActive hDatabase hTrigger hManaged
    rcases transition_of_mem_update hChange hFirst with
      ⟨a, hA, hFirstFrom⟩
    rcases transition_of_mem_update hChange hSecond with
      ⟨b, hB, hSecondFrom⟩
    -- Both rows come from active rows with the same keys,
    -- and these are one row by the invariant.
    have hOrigin :
        ∀ {run old : Verification},
          (selects old = false ∧ run = old) ∨
              (selects old = true ∧ run = change old ∧
                Transition label old run) →
            run.status.IsActive →
              old.status.IsActive ∧
                run.databaseID = old.databaseID ∧
                  run.trigger = old.trigger := by
      intro run old hFrom hActive
      rcases hFrom with ⟨_, rfl⟩ | ⟨_, _, hMoved⟩
      · exact ⟨hActive, rfl, rfl⟩
      · exact
          ⟨hMoved.isActive, hMoved.sameRun.databaseID,
            hMoved.sameRun.trigger⟩
    rcases hOrigin hFirstFrom hFirstActive with
      ⟨hAActive, hADatabase, hATrigger⟩
    rcases hOrigin hSecondFrom hSecondActive with
      ⟨hBActive, hBDatabase, hBTrigger⟩
    have hSame : a = b := by
      apply hRows.exclusive a hA b hB hAActive hBActive
      · rw [← hADatabase, ← hBDatabase]
        exact hDatabase
      · rw [← hATrigger, ← hBTrigger]
        exact hTrigger
      · rw [← hATrigger]
        exact hManaged
    subst hSame
    rcases hFirstFrom with ⟨hNot, hF⟩ | ⟨hIs, hF, _⟩ <;>
      rcases hSecondFrom with ⟨hNot', hS⟩ | ⟨hIs', hS, _⟩
    · rw [hF, hS]
    · simp [hNot] at hIs'
    · simp [hIs] at hNot'
    · rw [hF, hS]

private theorem invariant_create
    (hNew : NewRun rows run)
    (hRows : RunsInvariant rows) :
    RunsInvariant (rows ++ [run]) := by
  refine ⟨hRows.uniqueIDs.append hNew.fresh, ?_, ?_⟩
  · intro row hRow
    rcases List.mem_append.mp hRow with hOld | hLast
    · exact hRows.wellFormed row hOld
    · rw [List.mem_singleton.mp hLast]
      refine ⟨?_, ?_, ?_⟩
      · rw [hNew.firstAttempt]
        decide
      · intro hRunning
        rw [hNew.pending] at hRunning
        exact VerificationStatus.noConfusion hRunning
      · intro _
        exact hNew.unowned
  · intro first hFirst second hSecond hFirstActive
      hSecondActive hDatabase hTrigger hManaged
    rcases List.mem_append.mp hFirst with hOld | hLast <;>
      rcases List.mem_append.mp hSecond with hOld' | hLast'
    · exact
        hRows.exclusive first hOld second hOld'
          hFirstActive hSecondActive hDatabase hTrigger
          hManaged
    · rw [List.mem_singleton.mp hLast'] at hDatabase hTrigger
      exact absurd hTrigger
        (hNew.exclusive (hTrigger ▸ hManaged) first hOld
          hDatabase hFirstActive)
    · rw [List.mem_singleton.mp hLast] at hDatabase hTrigger hManaged
      exact absurd hTrigger.symm
        (hNew.exclusive hManaged second hOld'
          hDatabase.symm hSecondActive)
    · rw [List.mem_singleton.mp hLast,
        List.mem_singleton.mp hLast']

/- Every write to the table keeps its invariant. -/
theorem TableStep.invariant
    (hStep : TableStep label rows rows')
    (hRows : RunsInvariant rows) :
    RunsInvariant rows' := by
  cases hStep with
  | update hChange => exact invariant_update hChange hRows
  | create hNew => exact invariant_create hNew hRows

/- No write to the table touches a run that has ended. -/
theorem TableStep.keeps_terminal
    (hStep : TableStep label rows rows')
    (hRun : run ∈ rows)
    (hTerminal : run.status.IsTerminal) :
    run ∈ rows' := by
  cases hStep with
  | @update _ _ selects change hChange =>
      apply Table.mem_updateWhere_of_not hRun
      by_contra hSelects
      have hMoved := hChange run hRun (by simpa using hSelects)
      exact
        VerificationStatus.not_isActive_of_isTerminal
          hTerminal hMoved.isActive
  | create _ => exact List.mem_append_left _ hRun

/- The runs that are being executed. -/
def runningRuns
    (rows : List Verification) : List Verification :=
  rows.filter fun run => run.status = .running

theorem runningRuns_cons
    (run : Verification)
    (rest : List Verification) :
    runningRuns (run :: rest) =
      if run.status = .running then
        run :: runningRuns rest
      else
        runningRuns rest := by
  simp [runningRuns, List.filter_cons]

private theorem runningRuns_update_sublist
    (hChange :
      ∀ row ∈ rows, selects row = true →
        Transition none row (change row)) :
    (runningRuns
        (Table.updateWhere selects change rows)).Sublist
      (runningRuns rows) := by
  induction rows with
  | nil => exact List.Sublist.refl _
  | cons row rest ih =>
      have hRest :=
        ih fun old hOld =>
          hChange old (List.mem_cons_of_mem _ hOld)
      have hCons :
          Table.updateWhere selects change (row :: rest) =
            (if selects row then change row else row) ::
              Table.updateWhere selects change rest := rfl
      rw [hCons, runningRuns_cons, runningRuns_cons]
      by_cases hSelects : selects row = true
      · have hMoved :=
          hChange row List.mem_cons_self hSelects
        rw [if_pos hSelects, if_neg hMoved.not_running]
        split
        · exact hRest.cons row
        · exact hRest
      · rw [if_neg hSelects]
        split
        · exact hRest.cons_cons row
        · exact hRest

/- Without a claim every running run was running before. -/
theorem TableStep.runningRuns_sublist
    (hStep : TableStep none rows rows') :
    (runningRuns rows').Sublist (runningRuns rows) := by
  cases hStep with
  | update hChange => exact runningRuns_update_sublist hChange
  | create hNew =>
      unfold runningRuns
      rw [List.filter_append, List.filter_cons_of_neg]
      · simp
      · rw [hNew.pending]
        decide

------------------------------------------------------------
-- Several Writes
------------------------------------------------------------

/- Writes of one transaction that claims no run. -/
abbrev QuietSteps :=
  Relation.ReflTransGen (TableStep none)

theorem QuietSteps.invariant
    (hSteps : QuietSteps rows rows')
    (hRows : RunsInvariant rows) :
    RunsInvariant rows' := by
  induction hSteps with
  | refl => exact hRows
  | tail _ hStep ih => exact hStep.invariant ih

theorem QuietSteps.keeps_terminal
    (hSteps : QuietSteps rows rows')
    (hRun : run ∈ rows)
    (hTerminal : run.status.IsTerminal) :
    run ∈ rows' := by
  induction hSteps with
  | refl => exact hRun
  | tail _ hStep ih => exact hStep.keeps_terminal ih hTerminal

theorem QuietSteps.runningRuns_sublist
    (hSteps : QuietSteps rows rows') :
    (runningRuns rows').Sublist (runningRuns rows) := by
  induction hSteps with
  | refl => exact List.Sublist.refl _
  | tail _ hStep ih => exact hStep.runningRuns_sublist.trans ih

end Verifications

end Databasus
