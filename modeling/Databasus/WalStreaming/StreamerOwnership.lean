import Databasus.WalStreaming.StreamerProcess

/-
  Who owns the streamer of a database.

  A streamer loses its claim only when its heartbeat is stale
  or when the row is deleted.  It is not told, and runs on.
  No end of a streamer takes the claim of another one.

  Main declarations:
    * `OwnershipInvariant`
    * `EndsClaim`
    * `ownershipInvariant_reachable`
    * `streamers_own_claims`
    * `heartbeat_keeps_lost_streamer`
-/

------------------------------------------------------------
-- Ownership
------------------------------------------------------------

namespace Databasus

namespace WalStreaming

open Foundation

variable {proc : ManagerProcess}
variable {claimID : Uuid}
variable {process : Nat}

/-
  The claims of two processes are apart, and a streamer holds
  its claim unless another actor has taken it.
-/
structure OwnershipInvariant
    (s : StreamersState) : Prop where
  oneRow : OneRowEach s.rows
  used :
    ∀ p, ∀ claimID ∈ (s.processes p).claimIDs,
      claimID ∈ s.usedClaims
  wellFormed : ∀ p, ProcessWellFormed (s.processes p)
  apart :
    ∀ p q claimID, p ≠ q →
      claimID ∈ (s.processes p).claimIDs →
        claimID ∉ (s.processes q).claimIDs
  holds :
    ∀ p databaseID claimID,
      (s.processes p).Carries databaseID claimID →
        ClaimHolds s.rows databaseID claimID ∨
          IsLost s.losses claimID
  justified : ∀ loss ∈ s.losses, loss.IsJustified

/- The process names the claim, but carries it no more. -/
def EndsClaim
    (proc : ManagerProcess)
    (claimID : Uuid) : Prop :=
  claimID ∈ proc.claimIDs ∧
    ∀ databaseID, ¬ proc.Carries databaseID claimID

/- The pass that releases a claim has not started it. -/
theorem endsClaim_releasing
    {rest : EnsureRest}
    (hProc : ProcessWellFormed proc)
    (hPass : proc.pass = .releasing claimID rest) :
    EndsClaim proc claimID := by
  have hClaim : claimID ∈ proc.pass.claimIDs := by
    rw [hPass]
    exact List.mem_singleton_self _
  refine ⟨List.mem_append_right _ hClaim, ?_⟩
  intro databaseID hCarries
  cases hCarries with
  | task task hTask _ _ hSame =>
      exact hProc.task_ne_pass hTask hClaim hSame
  | starting publication later hStage _ =>
      rw [hPass] at hStage
      cases hStage

/- A goroutine that has returned does not run any more. -/
theorem endsClaim_marking
    {task : StreamerTask}
    (hProc : ProcessWellFormed proc)
    (hTask : proc.findTask claimID = some task)
    (hStage : task.stage ≠ .running) :
    EndsClaim proc claimID := by
  rcases findTask_some hTask with ⟨hMember, hClaim⟩
  refine ⟨?_, ?_⟩
  · exact
      List.mem_append_left _
        (List.mem_map.mpr ⟨task, hMember, hClaim⟩)
  · intro databaseID hCarries
    cases hCarries with
    | task other hOther hRunning _ hSame =>
        have hEqual :=
          hProc.distinctTasks.eq_of_key_eq hOther hMember
            (hSame.trans hClaim.symm)
        subst hEqual
        exact hStage hRunning
    | starting publication rest hPass _ =>
        refine hProc.task_ne_pass hMember ?_ hClaim
        rw [hPass]
        exact List.mem_singleton_self _

namespace OwnershipInvariant

variable {s s' : StreamersState}

/- A claim that ends is not one that a streamer carries. -/
theorem carries_ne_ended
    (hInvariant : OwnershipInvariant s)
    {p q : Nat}
    {ended databaseID claimID : Uuid}
    (hEnds : EndsClaim (s.processes p) ended)
    (hCarries : (s.processes q).Carries databaseID claimID) :
    claimID ≠ ended := by
  rintro rfl
  by_cases hSame : q = p
  · subst hSame
    exact hEnds.2 databaseID hCarries
  · exact
      hInvariant.apart q p claimID hSame
        hCarries.mem_claimIDs hEnds.1

/- Claims that are carried stay held, or are lost for cause. -/
theorem rows_step
    (hInvariant : OwnershipInvariant s)
    {rows : List WalStreamer}
    {losses : List ClaimLoss}
    (hRow : OneRowEach rows)
    (hHolds :
      ∀ p databaseID claimID,
        (s.processes p).Carries databaseID claimID →
        ClaimHolds s.rows databaseID claimID →
          ClaimHolds rows databaseID claimID ∨
            IsLost losses claimID)
    (hLosses : ∀ loss ∈ s.losses, loss ∈ losses)
    (hJustified : ∀ loss ∈ losses, loss.IsJustified) :
    OwnershipInvariant
      { s with rows := rows, losses := losses } := by
  refine
    { hInvariant with
      oneRow := hRow
      holds := ?_
      justified := hJustified }
  intro p databaseID claimID hCarries
  rcases hInvariant.holds p databaseID claimID hCarries with
    hHeld | ⟨loss, hLoss, hClaim⟩
  · exact hHolds p databaseID claimID hCarries hHeld
  · exact Or.inr ⟨loss, hLosses loss hLoss, hClaim⟩

/-
  A process whose claims are its own or fresh, and whose
  streamers are its own or hold their claims.
-/
theorem process_change
    (hInvariant : OwnershipInvariant s)
    {usedClaims : List Uuid}
    (hUsed : ∀ claimID ∈ s.usedClaims, claimID ∈ usedClaims)
    (hProc : ProcessWellFormed proc)
    (hClaims :
      ∀ claimID ∈ proc.claimIDs,
        claimID ∈ (s.processes process).claimIDs ∨
          claimID ∉ s.usedClaims ∧ claimID ∈ usedClaims)
    (hCarries :
      ∀ databaseID claimID,
        proc.Carries databaseID claimID →
          (s.processes process).Carries databaseID claimID ∨
            ClaimHolds s.rows databaseID claimID) :
    OwnershipInvariant
      { s.setProcess process proc with
        usedClaims := usedClaims } := by
  have hProcess :
      ∀ p,
        p = process ∧
            Function.update s.processes process proc p = proc ∨
          p ≠ process ∧
            Function.update s.processes process proc p =
              s.processes p := by
    intro p
    by_cases hSame : p = process
    · subst hSame
      exact Or.inl ⟨rfl, Function.update_self ..⟩
    · exact Or.inr ⟨hSame, Function.update_of_ne hSame ..⟩
  have hNamed :
      ∀ p, ∀ claimID ∈
          (Function.update s.processes process proc p).claimIDs,
        claimID ∈ (s.processes p).claimIDs ∨
          p = process ∧ claimID ∉ s.usedClaims ∧
            claimID ∈ usedClaims := by
    intro p claimID hClaim
    rcases hProcess p with ⟨rfl, hSelf⟩ | ⟨_, hOther⟩
    · rw [hSelf] at hClaim
      exact (hClaims claimID hClaim).imp_right (And.intro rfl)
    · rw [hOther] at hClaim
      exact Or.inl hClaim
  refine
    { oneRow := hInvariant.oneRow
      used := ?_
      wellFormed := ?_
      apart := ?_
      holds := ?_
      justified := hInvariant.justified }
  · intro p claimID hClaim
    rcases hNamed p claimID hClaim with hOld | ⟨_, _, hNew⟩
    · exact hUsed claimID (hInvariant.used p claimID hOld)
    · exact hNew
  · intro p
    unfold StreamersState.setProcess
    dsimp only
    rcases hProcess p with ⟨_, hSelf⟩ | ⟨_, hOther⟩
    · rw [hSelf]
      exact hProc
    · rw [hOther]
      exact hInvariant.wellFormed p
  · intro p q claimID hApart hFirst hSecond
    rcases hNamed p claimID hFirst with
      hOld | ⟨rfl, hFresh, _⟩
    · rcases hNamed q claimID hSecond with
        hOther | ⟨_, hFresh, _⟩
      · exact hInvariant.apart p q claimID hApart hOld hOther
      · exact hFresh (hInvariant.used p claimID hOld)
    · rcases hNamed q claimID hSecond with hOther | ⟨hSame, _⟩
      · exact hFresh (hInvariant.used q claimID hOther)
      · exact hApart hSame.symm
  · intro p databaseID claimID hCarried
    unfold StreamersState.setProcess at hCarried
    dsimp only at hCarried
    rcases hProcess p with ⟨rfl, hSelf⟩ | ⟨_, hOther⟩
    · rw [hSelf] at hCarried
      rcases hCarries databaseID claimID hCarried with
        hOld | hHeld
      · exact hInvariant.holds p databaseID claimID hOld
      · exact Or.inl hHeld
    · rw [hOther] at hCarried
      exact hInvariant.holds p databaseID claimID hCarried

/- A process that keeps to its claims. -/
theorem process_step
    (hInvariant : OwnershipInvariant s)
    (hKeeps : ProcessKeeps (s.processes process) proc) :
    OwnershipInvariant (s.setProcess process proc) :=
  hInvariant.process_change (fun _ => id)
    (hKeeps.wellFormed (hInvariant.wellFormed process))
    (fun claimID hClaim =>
      Or.inl (hKeeps.claimIDs claimID hClaim))
    (fun databaseID claimID hCarries =>
      Or.inl (hKeeps.carries databaseID claimID hCarries))

/- A statement that touches no claim that is carried. -/
theorem execute_step
    (hInvariant : OwnershipInvariant s)
    (reply : Reply)
    {statement : List WalStreamer → List WalStreamer}
    (hRow : OneRowEach (statement s.rows))
    (hHolds :
      ∀ p databaseID claimID,
        (s.processes p).Carries databaseID claimID →
        ClaimHolds s.rows databaseID claimID →
          ClaimHolds (statement s.rows) databaseID claimID) :
    OwnershipInvariant (s.execute reply statement) := by
  have hStep :=
    Reply.apply_cases
      (fun rows =>
        OneRowEach rows ∧
          ∀ p databaseID claimID,
            (s.processes p).Carries databaseID claimID →
            ClaimHolds s.rows databaseID claimID →
              ClaimHolds rows databaseID claimID)
      reply ⟨hInvariant.oneRow, fun _ _ _ _ => id⟩
      ⟨hRow, hHolds⟩
  exact
    hInvariant.rows_step hStep.1
      (fun p databaseID claimID hCarries hHeld =>
        Or.inl (hStep.2 p databaseID claimID hCarries hHeld))
      (fun _ => id) hInvariant.justified

theorem executeClaim_step
    (hInvariant : OwnershipInvariant s)
    (reply : Reply)
    (publication : StoragePublication)
    (claim : StreamerClaim) :
    OwnershipInvariant
      (s.executeClaim reply publication claim) := by
  unfold StreamersState.executeClaim
  split
  · refine
      hInvariant.rows_step
        (oneRowEach_claimIfClaimable hInvariant.oneRow) ?_
        (fun _ hLoss => List.mem_append_right _ hLoss) ?_
    · intro p databaseID claimID _ hHeld
      rcases
          claimHolds_claimIfClaimable hInvariant.oneRow hHeld
        with hKept | ⟨loss, hLoss, hClaim⟩
      · exact Or.inl hKept
      · exact
          Or.inr ⟨loss, List.mem_append_left _ hLoss, hClaim⟩
    · intro loss hLoss
      rcases List.mem_append.mp hLoss with hNew | hOld
      · exact takeoverLosses_justified hNew
      · exact hInvariant.justified loss hOld
  · exact hInvariant

------------------------------------------------------------
-- Steps
------------------------------------------------------------

variable {publication : StoragePublication}
variable {rest : EnsureRest}
variable {reply : Reply}
variable {change : WalStreamer → WalStreamer}
variable {action : ManagerAction}

/- The next config takes a claim id that nobody has had. -/
theorem ensureNext_step
    (hInvariant : OwnershipInvariant s)
    {config : StreamConfig}
    {current rest : EnsureRest}
    (hPass : (s.processes process).pass = .ensuring current)
    (hFresh : claimID ∉ s.usedClaims) :
    OwnershipInvariant
      { s.setProcess process
          ((s.processes process).ensureNext config rest
            claimID) with
        usedClaims := claimID :: s.usedClaims } := by
  have hProc := hInvariant.wellFormed process
  have hUsed :
      ∀ claim ∈ s.usedClaims, claim ∈ claimID :: s.usedClaims :=
    fun _ hClaim => List.mem_cons_of_mem _ hClaim
  rcases
      ensureNext_keeps (s.processes process) config rest claimID
    with hKeeps | ⟨publication, later, hNext, hFree⟩
  · exact
      hInvariant.process_change hUsed
        (hKeeps.wellFormed hProc)
        (fun claim hClaim =>
          Or.inl (hKeeps.claimIDs claim hClaim))
        (fun databaseID claim hCarries =>
          Or.inl (hKeeps.carries databaseID claim hCarries))
  · rw [hNext]
    have hUnused : claimID ∉ (s.processes process).claimIDs :=
      fun hClaim =>
        hFresh (hInvariant.used process claimID hClaim)
    refine
      hInvariant.process_change hUsed
        (claiming_wellFormed hProc hPass hUnused hFree) ?_
        (fun _ _ hCarries => Or.inl (claiming_carries hCarries))
    intro claim hClaim
    rcases claiming_claimIDs hClaim with hOld | rfl
    · exact Or.inl hOld
    · exact Or.inr ⟨hFresh, List.mem_cons_self⟩

/- A granted claim is carried, and it holds. -/
theorem granted_step
    (hInvariant : OwnershipInvariant s)
    (hPass :
      (s.processes process).pass =
        .claiming publication claimID rest)
    (hHolds :
      ClaimHolds s.rows publication.databaseID claimID) :
    OwnershipInvariant
      (s.setProcess process
        { s.processes process with
          pass := .starting publication claimID rest }) := by
  refine
    hInvariant.process_change (fun _ => id)
      (starting_wellFormed (hInvariant.wellFormed process)
        hPass) ?_ ?_
  · intro claim hClaim
    rw [starting_claimIDs hPass] at hClaim
    exact Or.inl hClaim
  · intro databaseID claim hCarries
    rcases starting_carries hCarries with hOld | ⟨rfl, rfl⟩
    · exact Or.inl hOld
    · exact Or.inr hHolds

theorem claimCall_step
    (hInvariant : OwnershipInvariant s)
    {claim : StreamerClaim}
    (hPass :
      (s.processes process).pass =
        .claiming publication claimID rest)
    (hDatabase : claim.databaseID = publication.databaseID)
    (hClaim : claim.claimID = claimID) :
    OwnershipInvariant
      ((s.executeClaim reply publication claim).setProcess
        process
        { s.processes process with
          pass :=
            if s.isGranted reply publication claim then
              .starting publication claimID rest
            else .ensuring rest }) := by
  have hClaimed :=
    hInvariant.executeClaim_step reply publication claim
  have hSame :
      (s.executeClaim reply publication claim).processes =
        s.processes := by
    unfold StreamersState.executeClaim
    split <;> rfl
  split
  · rename_i hGranted
    simp only [StreamersState.isGranted, Bool.and_eq_true,
      beq_iff_eq, decide_eq_true_eq] at hGranted
    rcases hGranted with ⟨⟨hReply, hPublished⟩, hGranted⟩
    have hHolds := claimHolds_granted hGranted
    rw [hDatabase, hClaim] at hHolds
    have hRows :
        (s.executeClaim reply publication claim).rows =
          (claimIfClaimable claim s.rows).1 := by
      simp [StreamersState.executeClaim, hReply, hPublished]
    rw [← hRows] at hHolds
    rw [← hSame] at hPass ⊢
    exact hClaimed.granted_step hPass hHolds
  · rw [← hSame]
    exact hClaimed.process_step (.dropPass rfl rfl)

/- The row of a claim that has ended, and no other one. -/
theorem ended_holds
    (hInvariant : OwnershipInvariant s)
    {process p : Nat}
    {ended databaseID claimID : Uuid}
    (hEnds : EndsClaim (s.processes process) ended)
    (hCarries : (s.processes p).Carries databaseID claimID)
    (hHeld : ClaimHolds s.rows databaseID claimID) :
    ClaimHolds (updateClaim ended change s.rows) databaseID
      claimID :=
  claimHolds_updateClaim_of_ne
    (hInvariant.carries_ne_ended hEnds hCarries) hHeld

theorem ended_step
    (hInvariant : OwnershipInvariant s)
    {ended : Uuid}
    {proc : ManagerProcess}
    (reply : Reply)
    (hEnds : EndsClaim (s.processes process) ended)
    (hKeepsRow :
      ∀ row, (change row).databaseID = row.databaseID)
    (hKeeps : ProcessKeeps (s.processes process) proc) :
    OwnershipInvariant
      ((s.execute reply (updateClaim ended change)).setProcess
        process proc) := by
  have hStep :=
    hInvariant.execute_step reply
      (oneRowEach_updateClaim hInvariant.oneRow hKeepsRow)
      (fun _ _ _ hCarries hHeld =>
        hInvariant.ended_holds hEnds hCarries hHeld)
  exact hStep.process_step hKeeps

/- A statement that keeps claims and their status. -/
theorem kept_step
    (hInvariant : OwnershipInvariant s)
    {wanted : Uuid}
    (reply : Reply)
    (hKeeps :
      ∀ row, (change row).databaseID = row.databaseID ∧
        (change row).claimID = row.claimID ∧
        (change row).status = row.status) :
    OwnershipInvariant
      (s.execute reply (updateClaim wanted change)) :=
  hInvariant.execute_step reply
    (oneRowEach_updateClaim hInvariant.oneRow
      fun row => (hKeeps row).1)
    (fun _ _ _ _ hHeld => claimHolds_updateClaim hKeeps hHeld)

theorem local_step
    (hInvariant : OwnershipInvariant s)
    (hStep :
      ((s.processes process).stepLocal action).map
          (s.setProcess process) = some s') :
    OwnershipInvariant s' := by
  rcases Option.map_eq_some_iff.mp hStep with ⟨proc, hProc, rfl⟩
  exact hInvariant.process_step (stepLocal_keeps hProc)

theorem markCall_step
    (hInvariant : OwnershipInvariant s)
    {now : Time}
    (hStep :
      s.stepManager process (.markCall claimID reply now) =
        some s') :
    OwnershipInvariant s' := by
  simp only [StreamersState.stepManager] at hStep
  split at hStep
  · cases hStep
  · rename_i task hTask
    have hLeft :
        ProcessKeeps (s.processes process)
          ((s.processes process).setStage claimID
            (ManagerProcess.stageAfterMark task)) :=
      .setStage _ (stageAfterMark_ne task)
    have hEnds
        (hStage : task.stage ≠ .running) :
        EndsClaim (s.processes process) claimID :=
      endsClaim_marking (hInvariant.wellFormed process) hTask
        hStage
    split at hStep
    · rename_i hStage
      cases hStep
      exact
        hInvariant.ended_step reply
          (hEnds (by rw [hStage]; nofun)) (fun _ => rfl) hLeft
    · rename_i hStage
      cases hStep
      exact
        hInvariant.ended_step reply
          (hEnds (by rw [hStage]; nofun)) (fun _ => rfl) hLeft
    · cases hStep

theorem manager_step
    (hInvariant : OwnershipInvariant s)
    (hStep : s.stepManager process action = some s') :
    OwnershipInvariant s' := by
  cases action with
  | ensureNext claimID =>
      simp only [StreamersState.stepManager] at hStep
      split at hStep
      · rename_i hPass
        split at hStep
        · cases hStep
        · rename_i hFresh
          cases hStep
          exact hInvariant.ensureNext_step hPass hFresh
      · cases hStep
  | claimCall reply now =>
      simp only [StreamersState.stepManager] at hStep
      split at hStep
      · rename_i hPass
        cases hStep
        exact hInvariant.claimCall_step hPass rfl rfl
      · cases hStep
  | releaseCall reply now =>
      simp only [StreamersState.stepManager] at hStep
      split at hStep
      · rename_i hPass
        cases hStep
        exact
          hInvariant.ended_step reply
            (endsClaim_releasing
              (hInvariant.wellFormed process) hPass)
            (fun _ => rfl) (.dropPass rfl rfl)
      · cases hStep
  | heartbeatCall reply now =>
      simp only [StreamersState.stepManager] at hStep
      split at hStep
      · rename_i claimID claimIDs _
        cases hStep
        have hKept :
            OwnershipInvariant
              (s.execute reply (heartbeat claimID now)) :=
          hInvariant.kept_step reply fun _ => ⟨rfl, rfl, rfl⟩
        exact hKept.process_step (.dropPass rfl rfl)
      · cases hStep
  | markCall claimID reply now =>
      exact hInvariant.markCall_step hStep
  | clearFailingSince claimID reply =>
      simp only [StreamersState.stepManager] at hStep
      split at hStep
      · cases hStep
      · split at hStep
        · cases hStep
          exact
            hInvariant.kept_step reply
              fun _ => ⟨rfl, rfl, rfl⟩
        · cases hStep
  | crash =>
      cases hStep
      exact hInvariant.process_step .crash
  | _ => exact hInvariant.local_step hStep

theorem step
    (hInvariant : OwnershipInvariant s)
    {action : StreamersAction}
    (hStep : s.step action = some s') :
    OwnershipInvariant s' := by
  cases action with
  | manager process action =>
      exact hInvariant.manager_step hStep
  | failStaleStreamers now =>
      cases hStep
      refine
        hInvariant.rows_step
          (hInvariant.oneRow.updateWhere fun _ => rfl) ?_
          (fun _ hLoss => List.mem_append_right _ hLoss) ?_
      · intro p databaseID claimID _ hHeld
        rcases claimHolds_markStaleRunningFailed hHeld with
          hKept | ⟨loss, hLoss, hClaim⟩
        · exact Or.inl hKept
        · exact
            Or.inr
              ⟨loss, List.mem_append_left _ hLoss, hClaim⟩
      · intro loss hLoss
        rcases List.mem_append.mp hLoss with hNew | hOld
        · exact staleRunningLosses_justified hNew
        · exact hInvariant.justified loss hOld
  | publishStorages publications =>
      cases hStep
      exact { hInvariant with }
  | deleteStreamer databaseID =>
      cases hStep
      refine
        hInvariant.rows_step
          (hInvariant.oneRow.deleteWhere _) ?_
          (fun _ hLoss => List.mem_append_right _ hLoss) ?_
      · intro p owner claimID _ hHeld
        rcases claimHolds_deleteByDatabaseID hHeld with
          hKept | ⟨loss, hLoss, hClaim⟩
        · exact Or.inl hKept
        · exact
            Or.inr
              ⟨loss, List.mem_append_left _ hLoss, hClaim⟩
      · intro loss hLoss
        rcases List.mem_append.mp hLoss with hNew | hOld
        · exact deletionLosses_justified hNew
        · exact hInvariant.justified loss hOld

end OwnershipInvariant

theorem ownershipInvariant_initial
    {s : StreamersState}
    (hInitial : managerSystem.initial s) :
    OwnershipInvariant s := by
  rcases hInitial with ⟨hRow, hLosses, hProcesses⟩
  refine
    { oneRow := hRow
      used := ?_
      wellFormed := ?_
      apart := ?_
      holds := ?_
      justified := ?_ }
  · intro p claimID hClaim
    rw [hProcesses p] at hClaim
    cases hClaim
  · intro p
    rw [hProcesses p]
    exact
      { distinct := List.nodup_nil
        entered := nofun
        free := nofun }
  · intro p q claimID _ hFirst
    rw [hProcesses p] at hFirst
    cases hFirst
  · intro p databaseID claimID hCarries
    rw [hProcesses p] at hCarries
    cases hCarries.mem_claimIDs
  · rw [hLosses]
    nofun

theorem ownershipInvariant_reachable
    {s : StreamersState}
    (hReachable : managerSystem.Reachable s) :
    OwnershipInvariant s :=
  hReachable.invariant
    (fun _ => ownershipInvariant_initial)
    (fun _ _ _ hInvariant _ hStep => hInvariant.step hStep)

------------------------------------------------------------
-- One Streamer of a Database
------------------------------------------------------------

namespace OwnershipInvariant

variable {s s' : StreamersState}

/- Only the claim of another actor takes a claim away. -/
theorem manager_keeps_claims
    (hInvariant : OwnershipInvariant s)
    {process p : Nat}
    {action : ManagerAction}
    {databaseID claimID : Uuid}
    (hOther : ∀ reply now, action ≠ .claimCall reply now)
    (hStep : s.stepManager process action = some s')
    (hCarries : (s.processes p).Carries databaseID claimID)
    (hHeld : ClaimHolds s.rows databaseID claimID) :
    ClaimHolds s'.rows databaseID claimID := by
  have hEnded
      {ended : Uuid}
      {change : WalStreamer → WalStreamer}
      (reply : Reply)
      (hEnds : EndsClaim (s.processes process) ended) :
      ClaimHolds (reply.apply (updateClaim ended change) s.rows)
        databaseID claimID :=
    Reply.apply_cases
      (fun rows => ClaimHolds rows databaseID claimID) reply
      hHeld (hInvariant.ended_holds hEnds hCarries hHeld)
  have hKept
      {wanted : Uuid}
      {change : WalStreamer → WalStreamer}
      (reply : Reply)
      (hKeeps :
        ∀ row, (change row).databaseID = row.databaseID ∧
          (change row).claimID = row.claimID ∧
          (change row).status = row.status) :
      ClaimHolds
        (reply.apply (updateClaim wanted change) s.rows)
        databaseID claimID :=
    Reply.apply_cases
      (fun rows => ClaimHolds rows databaseID claimID) reply
      hHeld (claimHolds_updateClaim hKeeps hHeld)
  cases action with
  | ensureNext fresh =>
      simp only [StreamersState.stepManager] at hStep
      split at hStep
      · split at hStep
        · cases hStep
        · cases hStep
          exact hHeld
      · cases hStep
  | claimCall reply now => exact absurd rfl (hOther reply now)
  | releaseCall reply now =>
      simp only [StreamersState.stepManager] at hStep
      split at hStep
      · rename_i hPass
        cases hStep
        exact
          hEnded reply
            (endsClaim_releasing
              (hInvariant.wellFormed process) hPass)
      · cases hStep
  | heartbeatCall reply now =>
      simp only [StreamersState.stepManager] at hStep
      split at hStep
      · cases hStep
        exact hKept reply fun _ => ⟨rfl, rfl, rfl⟩
      · cases hStep
  | markCall ended reply now =>
      simp only [StreamersState.stepManager] at hStep
      split at hStep
      · cases hStep
      · rename_i task hTask
        have hEnds
            (hStage : task.stage ≠ .running) :
            EndsClaim (s.processes process) ended :=
          endsClaim_marking (hInvariant.wellFormed process)
            hTask hStage
        split at hStep
        · rename_i hStage
          cases hStep
          exact hEnded reply (hEnds (by rw [hStage]; nofun))
        · rename_i hStage
          cases hStep
          exact hEnded reply (hEnds (by rw [hStage]; nofun))
        · cases hStep
  | clearFailingSince wanted reply =>
      simp only [StreamersState.stepManager] at hStep
      split at hStep
      · cases hStep
      · split at hStep
        · cases hStep
          exact hKept reply fun _ => ⟨rfl, rfl, rfl⟩
        · cases hStep
  | crash =>
      cases hStep
      exact hHeld
  | _ =>
      simp only [StreamersState.stepManager,
        Option.map_eq_some_iff] at hStep
      rcases hStep with ⟨proc, _, rfl⟩
      exact hHeld

/- Two streamers whose claims hold are one. -/
theorem streamer_unique
    (hInvariant : OwnershipInvariant s)
    {p q : Nat}
    {first second : StreamerTask}
    (hFirst : first ∈ (s.processes p).tasks)
    (hSecond : second ∈ (s.processes q).tasks)
    (hSame : first.databaseID = second.databaseID)
    (hFirstHolds :
      ClaimHolds s.rows first.databaseID first.claimID)
    (hSecondHolds :
      ClaimHolds s.rows second.databaseID second.claimID) :
    p = q ∧ first = second := by
  rw [hSame] at hFirstHolds
  have hClaim :=
    claimHolds_unique hInvariant.oneRow hFirstHolds
      hSecondHolds
  have hNamed
      {proc : ManagerProcess}
      {task : StreamerTask}
      (hTask : task ∈ proc.tasks) :
      task.claimID ∈ proc.claimIDs :=
    List.mem_append_left _ (List.mem_map_of_mem hTask)
  have hProcess : p = q := by
    by_contra hApart
    refine hInvariant.apart p q _ hApart (hNamed hFirst) ?_
    rw [hClaim]
    exact hNamed hSecond
  subst hProcess
  exact
    ⟨rfl,
      (hInvariant.wellFormed p).task_unique hFirst hSecond
        hSame⟩

end OwnershipInvariant

/- A heartbeat is all the same to the streamers here. -/
theorem heartbeat_keeps_tasks
    {s s' : StreamersState}
    {process : Nat}
    {reply : Reply}
    {now : Time}
    (hStep :
      s.stepManager process (.heartbeatCall reply now) =
        some s') :
    (s'.processes process).tasks =
      (s.processes process).tasks := by
  simp only [StreamersState.stepManager] at hStep
  split at hStep
  · cases hStep
    simp [StreamersState.setProcess]
  · cases hStep

/-
  A streamer holds its claim, or lost it when its heartbeat
  was stale or its row was deleted, and then heartbeats leave
  it running.  Streamers whose claims hold are one for a
  database, and so are the streamers of one process.  No end
  of a streamer and no release takes a claim from another.
-/
theorem streamers_own_claims
    {s : StreamersState}
    (hReachable : managerSystem.Reachable s) :
    (∀ p, ∀ task ∈ (s.processes p).tasks,
      task.stage = .running →
        ClaimHolds s.rows task.databaseID task.claimID ∨
          ∃ loss ∈ s.losses,
            loss.claimID = task.claimID ∧
              loss.IsJustified) ∧
      (∀ p reply now s',
        managerSystem.step s
            (.manager p (.heartbeatCall reply now)) = some s' →
          (s'.processes p).tasks = (s.processes p).tasks) ∧
      (∀ p q, ∀ first ∈ (s.processes p).tasks,
        ∀ second ∈ (s.processes q).tasks,
          first.databaseID = second.databaseID →
          ClaimHolds s.rows first.databaseID first.claimID →
          ClaimHolds s.rows second.databaseID second.claimID →
            p = q ∧ first = second) ∧
      (∀ p, ∀ first ∈ (s.processes p).tasks,
        ∀ second ∈ (s.processes p).tasks,
          first.databaseID = second.databaseID →
            first = second) ∧
      ∀ p action s',
        (∀ reply now, action ≠ .claimCall reply now) →
        managerSystem.step s (.manager p action) = some s' →
          ∀ q databaseID claimID,
            (s.processes q).Carries databaseID claimID →
            ClaimHolds s.rows databaseID claimID →
              ClaimHolds s'.rows databaseID claimID := by
  have hInvariant := ownershipInvariant_reachable hReachable
  refine ⟨?_, ?_, ?_, ?_, ?_⟩
  · intro p task hTask hRunning
    have hCarries :
        (s.processes p).Carries task.databaseID task.claimID :=
      .task task hTask hRunning rfl rfl
    rcases hInvariant.holds p _ _ hCarries with
      hHeld | ⟨loss, hLoss, hClaim⟩
    · exact Or.inl hHeld
    · exact
        Or.inr
          ⟨loss, hLoss, hClaim,
            hInvariant.justified loss hLoss⟩
  · intro p reply now s' hStep
    exact heartbeat_keeps_tasks hStep
  · intro p q first hFirst second hSecond hSame
    exact hInvariant.streamer_unique hFirst hSecond hSame
  · intro p first hFirst second hSecond hSame
    exact
      (hInvariant.wellFormed p).task_unique hFirst hSecond hSame
  · intro p action s' hOther hStep q databaseID claimID
    exact hInvariant.manager_keeps_claims hOther hStep

/- One database with one storage, and no row yet. -/
def freshStreamers : StreamersState :=
  { rows := []
    publications :=
      [{ databaseID := 7, storageID := 3, generation := 0 }]
    processes := fun _ => {}
    usedClaims := []
    losses := [] }

def streamedConfig : StreamConfig :=
  { databaseID := 7
    isBackupsEnabled := true
    storageID := some 3
    storageGeneration := 0
    isWalStreaming := true }

/- A process claims the database and starts its streamer. -/
def startsStreamer
    (process : Nat)
    (claimID : Uuid)
    (now : Time) : List StreamersAction :=
  [.manager process (.beginPass [streamedConfig]),
    .manager process (.ensureNext claimID),
    .manager process (.claimCall .delivered now),
    .manager process (.startEnds true)]

/- The rest of a pass, up to the heartbeats. -/
def reachesHeartbeats
    (process : Nat) : List StreamersAction :=
  List.replicate 2 (.manager process .stopNext)

theorem streamers_own_claims_started :
    ∃ task,
      task ∈
          ((managerSystem.outcome freshStreamers
            (startsStreamer 0 1 0)).processes 0).tasks ∧
        task.stage = .running ∧
        (ClaimHolds
            (managerSystem.outcome freshStreamers
              (startsStreamer 0 1 0)).rows
            task.databaseID task.claimID ∨
          ∃ loss ∈
            (managerSystem.outcome freshStreamers
              (startsStreamer 0 1 0)).losses,
            loss.claimID = task.claimID ∧
              loss.IsJustified) := by
  have hReachable :
      managerSystem.Reachable
        (managerSystem.outcome freshStreamers
          (startsStreamer 0 1 0)) :=
    TransitionSystem.reachable_outcome _
      ⟨List.nodup_nil, rfl, fun _ => rfl⟩
  refine
    ⟨{ streamer :=
        { claimID := 1
          publication :=
            { databaseID := 7, storageID := 3, generation := 0 } }
       isCancelled := false
       shouldRemoveWatchDir := false
       stage := .running },
      by decide +kernel, rfl, ?_⟩
  exact
    (streamers_own_claims hReachable).1 0 _ (by decide +kernel)
      rfl

/-
  The first process does not get to its heartbeats for a
  hundred seconds, and another process takes its claim over.
-/
def takenOver : List StreamersAction :=
  startsStreamer 0 1 0 ++
    startsStreamer 1 2 (100 * Duration.second) ++
      reachesHeartbeats 0

/-
  The heartbeat of the lost claim succeeds, and the streamers
  of both processes go on running.
-/
theorem heartbeat_keeps_lost_streamer :
    ∃ s s' : StreamersState,
      managerSystem.Reachable s ∧
        (s.processes 0).pass = .heartbeating [1] ∧
        ¬ ClaimHolds s.rows 7 1 ∧ ClaimHolds s.rows 7 2 ∧
        managerSystem.step s
            (.manager 0
              (.heartbeatCall .delivered
                (100 * Duration.second))) = some s' ∧
        ((s'.processes 0).tasks.any fun task =>
          task.stage = .running ∧ task.databaseID = 7 ∧
            task.isCancelled = false) = true ∧
        ((s'.processes 1).tasks.any fun task =>
          task.stage = .running ∧ task.databaseID = 7 ∧
            task.isCancelled = false) = true := by
  refine
    ⟨managerSystem.outcome freshStreamers takenOver,
      managerSystem.outcome freshStreamers
        (takenOver ++
          [.manager 0
            (.heartbeatCall .delivered
              (100 * Duration.second))]),
      TransitionSystem.reachable_outcome _
        ⟨List.nodup_nil, rfl, fun _ => rfl⟩,
      by decide +kernel, by decide +kernel, by decide +kernel,
      rfl, by decide +kernel, by decide +kernel⟩

end WalStreaming

end Databasus
