import Databasus.WalStreaming.StreamerManager

/-
  What a process keeps about its own streamers.

  Every goroutine is the map's streamer of its database, and a
  database that is being claimed or started has none.  The
  claims of a process are apart from one another.

  Main declarations:
    * `ManagerProcess.claimIDs`, `ManagerProcess.Carries`
    * `ProcessWellFormed`
    * `ProcessWellFormed.task_unique`
    * `ProcessKeeps`, `stepLocal_keeps`
    * `ensureNext_keeps`
-/

------------------------------------------------------------
-- Claims of a Process
------------------------------------------------------------

namespace Databasus

namespace WalStreaming

open Foundation

variable {task : StreamerTask}

/- The claim that a pass is working on. -/
def PassStage.claimIDs : PassStage → List Uuid
  | .claiming _ claimID _ => [claimID]
  | .starting _ claimID _ => [claimID]
  | .releasing claimID _ => [claimID]
  | _ => []

/- The database whose streamer a pass is about to start. -/
def PassStage.startsFor : PassStage → Option Uuid
  | .claiming publication _ _ => some publication.databaseID
  | .starting publication _ _ => some publication.databaseID
  | _ => none

namespace ManagerProcess

def claimIDs
    (proc : ManagerProcess) : List Uuid :=
  proc.tasks.map StreamerTask.claimID ++ proc.pass.claimIDs

/- A streamer that runs here, or is being started. -/
inductive Carries
    (proc : ManagerProcess)
    (databaseID claimID : Uuid) : Prop
  | task
      (task : StreamerTask)
      (hTask : task ∈ proc.tasks)
      (hRunning : task.stage = .running)
      (hDatabase : task.databaseID = databaseID)
      (hClaim : task.claimID = claimID)
  | starting
      (publication : StoragePublication)
      (rest : EnsureRest)
      (hPass : proc.pass = .starting publication claimID rest)
      (hDatabase : publication.databaseID = databaseID)

theorem Carries.mem_claimIDs
    {proc : ManagerProcess}
    {databaseID claimID : Uuid}
    (hCarries : proc.Carries databaseID claimID) :
    claimID ∈ proc.claimIDs := by
  unfold claimIDs
  rw [List.mem_append]
  cases hCarries with
  | task task hTask _ _ hClaim =>
      exact Or.inl (List.mem_map.mpr ⟨task, hTask, hClaim⟩)
  | starting publication rest hPass _ =>
      rw [hPass]
      exact Or.inr (List.mem_singleton_self _)

end ManagerProcess

structure ProcessWellFormed
    (proc : ManagerProcess) : Prop where
  distinct : proc.claimIDs.Nodup
  entered :
    ∀ task ∈ proc.tasks,
      proc.findRunning task.databaseID = some task.streamer
  free :
    ∀ databaseID ∈ proc.pass.startsFor,
      proc.findRunning databaseID = none

namespace ProcessWellFormed

variable {proc : ManagerProcess}

theorem distinctTasks
    (hProc : ProcessWellFormed proc) :
    Table.UniqueBy StreamerTask.claimID proc.tasks :=
  List.Nodup.of_append_left hProc.distinct

/- A process has one goroutine for a database. -/
theorem task_unique
    (hProc : ProcessWellFormed proc)
    {first second : StreamerTask}
    (hFirst : first ∈ proc.tasks)
    (hSecond : second ∈ proc.tasks)
    (hSame : first.databaseID = second.databaseID) :
    first = second := by
  have hEntered := hProc.entered first hFirst
  rw [hSame, hProc.entered second hSecond] at hEntered
  have hClaim : first.claimID = second.claimID := by
    unfold StreamerTask.claimID
    rw [Option.some.inj hEntered]
  exact hProc.distinctTasks.eq_of_key_eq hFirst hSecond hClaim

/- No goroutine is there for a database about to be started. -/
theorem task_ne_startsFor
    (hProc : ProcessWellFormed proc)
    (hTask : task ∈ proc.tasks)
    {databaseID : Uuid}
    (hStarts : databaseID ∈ proc.pass.startsFor) :
    task.databaseID ≠ databaseID := by
  intro hSame
  have hEntered := hProc.entered task hTask
  rw [hSame, hProc.free databaseID hStarts] at hEntered
  cases hEntered

/- The claim of a pass is none of the goroutines'. -/
theorem task_ne_pass
    (hProc : ProcessWellFormed proc)
    (hTask : task ∈ proc.tasks)
    {claimID : Uuid}
    (hPass : claimID ∈ proc.pass.claimIDs) :
    task.claimID ≠ claimID := by
  have hDisjoint := List.disjoint_of_nodup_append hProc.distinct
  intro hSame
  exact hDisjoint (List.mem_map_of_mem hTask) (hSame ▸ hPass)

end ProcessWellFormed

------------------------------------------------------------
-- Steps That Add No Claim
------------------------------------------------------------

variable {stage : PassStage}
variable {claimID : Uuid}

/- The process carries and names nothing new afterwards. -/
structure ProcessKeeps
    (proc proc' : ManagerProcess) : Prop where
  wellFormed :
    ProcessWellFormed proc → ProcessWellFormed proc'
  claimIDs :
    ∀ claimID ∈ proc'.claimIDs, claimID ∈ proc.claimIDs
  carries :
    ∀ databaseID claimID,
      proc'.Carries databaseID claimID →
        proc.Carries databaseID claimID

namespace ProcessKeeps

variable {proc middle proc' : ManagerProcess}

theorem trans
    (hFirst : ProcessKeeps proc middle)
    (hSecond : ProcessKeeps middle proc') :
    ProcessKeeps proc proc' :=
  { wellFormed := fun hProc =>
      hSecond.wellFormed (hFirst.wellFormed hProc)
    claimIDs := fun claimID hClaim =>
      hFirst.claimIDs claimID (hSecond.claimIDs claimID hClaim)
    carries := fun databaseID claimID hCarries =>
      hFirst.carries databaseID claimID
        (hSecond.carries databaseID claimID hCarries) }

/- A pass that goes on with its claim, or without one. -/
theorem setPass
    (hClaims :
      stage.claimIDs.Sublist proc.pass.claimIDs)
    (hStarts :
      ∀ databaseID ∈ stage.startsFor,
        databaseID ∈ proc.pass.startsFor)
    (hStarting :
      ∀ publication claimID rest,
        stage ≠ .starting publication claimID rest) :
    ProcessKeeps proc { proc with pass := stage } := by
  have hSublist :
      ({ proc with pass := stage } :
          ManagerProcess).claimIDs.Sublist proc.claimIDs :=
    List.Sublist.append (List.Sublist.refl _) hClaims
  refine
    { wellFormed := ?_
      claimIDs := fun _ hClaim => hSublist.subset hClaim
      carries := ?_ }
  · intro hProc
    exact
      { distinct := hProc.distinct.sublist hSublist
        entered := hProc.entered
        free := fun databaseID hStage =>
          hProc.free databaseID (hStarts databaseID hStage) }
  · intro databaseID claimID hCarries
    cases hCarries with
    | task task hTask hRunning hDatabase hClaim =>
        exact .task task hTask hRunning hDatabase hClaim
    | starting publication rest hPass _ =>
        exact absurd hPass (hStarting publication claimID rest)

/- A pass that has no claim of its own any more. -/
theorem dropPass
    (hClaims : stage.claimIDs = [])
    (hStarts : stage.startsFor = none) :
    ProcessKeeps proc { proc with pass := stage } := by
  refine setPass ?_ ?_ ?_
  · rw [hClaims]
    exact List.nil_sublist _
  · rw [hStarts]
    intro databaseID hNone
    cases hNone
  · rintro publication claimID rest rfl
    cases hClaims

/- Goroutines that stay what they are, or stop running. -/
theorem changeTask
    {change : StreamerTask → StreamerTask}
    (hStreamer :
      ∀ task, (change task).streamer = task.streamer)
    (hStage :
      ∀ task, (change task).stage = .running →
        task.stage = .running) :
    ProcessKeeps proc (proc.changeTask claimID change) := by
  have hOld :
      ∀ task ∈ (proc.changeTask claimID change).tasks,
        ∃ old ∈ proc.tasks,
          task.streamer = old.streamer ∧
            (task.stage = .running →
              old.stage = .running) := by
    intro task hTask
    rcases
        (Table.mem_updateWhere_iff _ _ _ _).mp hTask with
      ⟨old, hMember, hChange⟩
    refine ⟨old, hMember, ?_⟩
    split at hChange
    · rw [← hChange]
      exact ⟨hStreamer old, hStage old⟩
    · rw [← hChange]
      exact ⟨rfl, id⟩
  have hNames :
      (proc.changeTask claimID change).claimIDs =
        proc.claimIDs := by
    unfold ManagerProcess.claimIDs ManagerProcess.changeTask
      Table.updateWhere
    dsimp only
    rw [List.map_map]
    congr 1
    apply List.map_congr_left
    intro task _
    have hClaim : (change task).claimID = task.claimID := by
      unfold StreamerTask.claimID
      rw [hStreamer]
    by_cases hSelected : task.claimID = claimID
    · simp [hSelected, hClaim]
    · simp [hSelected]
  refine
    { wellFormed := ?_
      claimIDs := ?_
      carries := ?_ }
  · intro hProc
    refine
      { distinct := ?_
        entered := ?_
        free := hProc.free }
    · rw [hNames]
      exact hProc.distinct
    · intro task hTask
      rcases hOld task hTask with ⟨old, hMember, hSame, _⟩
      unfold StreamerTask.databaseID
      rw [hSame]
      exact hProc.entered old hMember
  · rw [hNames]
    exact fun _ => id
  · intro databaseID wanted hCarries
    cases hCarries with
    | task task hTask hRunning hDatabase hClaim =>
        rcases hOld task hTask with
          ⟨old, hMember, hSame, hKept⟩
        refine .task old hMember (hKept hRunning) ?_ ?_
        · rw [← hDatabase]
          unfold StreamerTask.databaseID
          rw [hSame]
        · rw [← hClaim]
          unfold StreamerTask.claimID
          rw [hSame]
    | starting publication rest hPass hDatabase =>
        exact .starting publication rest hPass hDatabase

theorem cancel
    (claimID : Uuid)
    (shouldRemoveWatchDir : Bool) :
    ProcessKeeps proc
      (proc.cancel claimID shouldRemoveWatchDir) :=
  changeTask (fun _ => rfl) fun _ => id

theorem setStage
    {stage : TaskStage}
    (claimID : Uuid)
    (hStage : stage ≠ .running) :
    ProcessKeeps proc (proc.setStage claimID stage) :=
  changeTask (fun _ => rfl) fun _ hRunning =>
    absurd hRunning hStage

/- The goroutine that leaves takes its own entry along. -/
theorem leave
    {task : StreamerTask}
    (hTask : task ∈ proc.tasks) :
    ProcessKeeps proc (proc.leave task.streamer) := by
  have hNames :
      (proc.leave task.streamer).claimIDs.Sublist
        proc.claimIDs :=
    List.Sublist.append
      (List.Sublist.map _ List.filter_sublist)
      (List.Sublist.refl _)
  refine
    { wellFormed := ?_
      claimIDs := fun _ hClaim => hNames.subset hClaim
      carries := ?_ }
  · intro hProc
    have hOther :
        ∀ other ∈ (proc.leave task.streamer).tasks,
          other ∈ proc.tasks ∧
            other.databaseID ≠ task.databaseID := by
      intro other hMember
      rcases (Table.mem_deleteWhere_iff _ _ _).mp hMember with
        ⟨hOther, hClaim⟩
      refine ⟨hOther, ?_⟩
      intro hSame
      have hEqual := hProc.task_unique hOther hTask hSame
      subst hEqual
      simp [StreamerTask.claimID] at hClaim
    refine
      { distinct := hProc.distinct.sublist hNames
        entered := ?_
        free := ?_ }
    · intro other hMember
      rcases hOther other hMember with ⟨hOld, hApart⟩
      have hEntered := hProc.entered other hOld
      unfold ManagerProcess.findRunning at hEntered ⊢
      rw [← hEntered]
      refine Table.lookup_deleteWhere ?_ proc.running
      intro streamer hStreamer hKey
      rw [beq_iff_eq] at hStreamer
      subst hStreamer
      exact hApart hKey.symm
    · intro databaseID hStarts
      have hFree := hProc.free databaseID hStarts
      unfold ManagerProcess.findRunning at hFree ⊢
      rw [Table.lookup_eq_none_iff] at hFree ⊢
      intro streamer hStreamer
      exact
        hFree streamer
          ((Table.mem_deleteWhere_iff _ _ _).mp hStreamer).1
  · intro databaseID claimID hCarries
    cases hCarries with
    | task other hMember hRunning hDatabase hClaim =>
        exact
          .task other
            ((Table.mem_deleteWhere_iff _ _ _).mp hMember).1
            hRunning hDatabase hClaim
    | starting publication rest hPass hDatabase =>
        exact .starting publication rest hPass hDatabase

/- The streamer that was being started runs now. -/
theorem enter
    {publication : StoragePublication}
    {rest : EnsureRest}
    (hPass :
      proc.pass = .starting publication claimID rest) :
    ProcessKeeps proc
      ({ proc with pass := .ensuring rest }.enter
        { claimID := claimID, publication := publication }) := by
  have hNames :
      ({ proc with pass := .ensuring rest }.enter
          { claimID := claimID
            publication := publication }).claimIDs =
        proc.claimIDs := by
    simp [ManagerProcess.claimIDs, ManagerProcess.enter,
      hPass, PassStage.claimIDs, StreamerTask.claimID]
  refine
    { wellFormed := ?_
      claimIDs := ?_
      carries := ?_ }
  · intro hProc
    have hStarts :
        publication.databaseID ∈ proc.pass.startsFor := by
      rw [hPass]
      exact rfl
    refine
      { distinct := ?_
        entered := ?_
        free := fun _ hNone => by cases hNone }
    · rw [hNames]
      exact hProc.distinct
    · intro task hTask
      unfold ManagerProcess.findRunning ManagerProcess.enter
      dsimp only
      rcases List.mem_append.mp hTask with hOld | hNew
      · have hApart := hProc.task_ne_startsFor hOld hStarts
        have hEntered := hProc.entered task hOld
        unfold ManagerProcess.findRunning at hEntered
        have hKept :
            Table.lookup RunningStreamer.databaseID
                task.databaseID
                (Table.deleteWhere
                  (fun other =>
                    other.databaseID ==
                      publication.databaseID)
                  proc.running) = some task.streamer := by
          rw [Table.lookup_deleteWhere ?_ proc.running,
            hEntered]
          intro streamer hStreamer hKey
          rw [beq_iff_eq] at hStreamer
          exact hApart (hKey.symm.trans hStreamer)
        unfold Table.lookup at hKept ⊢
        rw [List.find?_append]
        exact Option.or_eq_some_iff.mpr (Or.inl hKept)
      · have hSelf := List.mem_singleton.mp hNew
        subst hSelf
        have hGone :
            Table.lookup RunningStreamer.databaseID
                publication.databaseID
                (Table.deleteWhere
                  (fun other =>
                    other.databaseID ==
                      publication.databaseID)
                  proc.running) = none := by
          rw [Table.lookup_eq_none_iff]
          intro streamer hStreamer
          exact
            ne_of_beq_false
              ((Table.mem_deleteWhere_iff _ _ _).mp
                hStreamer).2
        unfold Table.lookup at hGone ⊢
        rw [List.find?_append]
        refine Option.or_eq_some_iff.mpr (Or.inr ⟨hGone, ?_⟩)
        simp [RunningStreamer.databaseID,
          StreamerTask.databaseID]
  · rw [hNames]
    exact fun _ => id
  · intro databaseID wanted hCarries
    cases hCarries with
    | task task hTask hRunning hDatabase hClaim =>
        rcases List.mem_append.mp hTask with hOld | hNew
        · exact .task task hOld hRunning hDatabase hClaim
        · have hSelf := List.mem_singleton.mp hNew
          subst hSelf
          cases hClaim
          exact .starting publication rest hPass hDatabase
    | starting _ _ hStage _ => cases hStage

theorem crash : ProcessKeeps proc {} :=
  { wellFormed := fun _ =>
      { distinct := List.nodup_nil
        entered := nofun
        free := nofun }
    claimIDs := nofun
    carries := fun _ _ hCarries => by
      cases hCarries with
      | task _ hTask _ _ _ => cases hTask
      | starting _ _ hPass _ => cases hPass }

end ProcessKeeps

------------------------------------------------------------
-- Steps of a Process
------------------------------------------------------------

variable {proc proc' : ManagerProcess}
variable {publication : StoragePublication}
variable {rest : EnsureRest}

theorem findTask_some
    {task : StreamerTask}
    (hTask : proc.findTask claimID = some task) :
    task ∈ proc.tasks ∧ task.claimID = claimID :=
  Table.lookup_some hTask

theorem stageAfterRun_ne
    (isFailed isCancelled : Bool) :
    ManagerProcess.stageAfterRun isFailed isCancelled ≠
      .running := by
  unfold ManagerProcess.stageAfterRun
  split <;> nofun

theorem stageAfterMark_ne
    (task : StreamerTask) :
    ManagerProcess.stageAfterMark task ≠ .running := by
  unfold ManagerProcess.stageAfterMark
  split <;> nofun

theorem stopNext_keeps
    {databaseID : Uuid}
    {databaseIDs : List Uuid} :
    ProcessKeeps proc (proc.stopNext databaseID databaseIDs) := by
  unfold ManagerProcess.stopNext
  split
  · exact .dropPass rfl rfl
  · exact (ProcessKeeps.dropPass rfl rfl).trans (.cancel _ _)

/- What a process does by itself adds no claim to it. -/
theorem stepLocal_keeps
    {action : ManagerAction}
    (hStep : proc.stepLocal action = some proc') :
    ProcessKeeps proc proc' := by
  cases action with
  | beginPass configs =>
      simp only [ManagerProcess.stepLocal] at hStep
      split at hStep
      · cases hStep
        exact .dropPass rfl rfl
      · cases hStep
  | startEnds isStarted =>
      simp only [ManagerProcess.stepLocal] at hStep
      split at hStep
      · rename_i publication claimID rest hPass
        split at hStep
        · cases hStep
          exact .enter hPass
        · cases hStep
          refine .setPass ?_ nofun nofun
          rw [hPass]
          exact List.Sublist.refl _
      · cases hStep
  | stopNext =>
      simp only [ManagerProcess.stepLocal] at hStep
      split at hStep
      · cases hStep
        exact .dropPass rfl rfl
      · cases hStep
        exact stopNext_keeps
      · cases hStep
        exact .dropPass rfl rfl
      · cases hStep
        exact .dropPass rfl rfl
      · cases hStep
  | waitEnds isTimedOut =>
      simp only [ManagerProcess.stepLocal] at hStep
      split at hStep
      · split at hStep
        · cases hStep
          exact .dropPass rfl rfl
        · cases hStep
      · cases hStep
  | cancelStreamer databaseID =>
      simp only [ManagerProcess.stepLocal,
        Option.map_eq_some_iff] at hStep
      rcases hStep with ⟨streamer, _, rfl⟩
      exact .cancel _ _
  | runReturns claimID isFailed =>
      simp only [ManagerProcess.stepLocal] at hStep
      split at hStep
      · cases hStep
      · split at hStep
        · cases hStep
          exact .setStage _ (stageAfterRun_ne _ _)
        · cases hStep
  | taskLeaves claimID =>
      simp only [ManagerProcess.stepLocal] at hStep
      split at hStep
      · cases hStep
      · rename_i task hTask
        split at hStep
        · cases hStep
          exact .leave (findTask_some hTask).1
        · cases hStep
  | crash =>
      cases hStep
      exact .crash
  | _ => cases hStep

/- A new claim of a process, or none. -/
theorem ensureNext_keeps
    (proc : ManagerProcess)
    (config : StreamConfig)
    (rest : EnsureRest)
    (claimID : Uuid) :
    ProcessKeeps proc (proc.ensureNext config rest claimID) ∨
      ∃ publication later,
        proc.ensureNext config rest claimID =
            { proc with
              pass := .claiming publication claimID later } ∧
          proc.findRunning publication.databaseID = none := by
  unfold ManagerProcess.ensureNext
  split
  · exact Or.inl (.dropPass rfl rfl)
  · rename_i publication _
    dsimp only
    split
    · rename_i hNone
      exact Or.inr ⟨publication, _, rfl, hNone⟩
    · left
      split
      · exact .dropPass rfl rfl
      · exact (ProcessKeeps.dropPass rfl rfl).trans (.cancel _ _)

theorem claiming_wellFormed
    {current rest : EnsureRest}
    (hProc : ProcessWellFormed proc)
    (hPass : proc.pass = .ensuring current)
    (hFresh : claimID ∉ proc.claimIDs)
    (hFree :
      proc.findRunning publication.databaseID = none) :
    ProcessWellFormed
      { proc with
        pass := .claiming publication claimID rest } := by
  have hDistinct := hProc.distinct
  unfold ManagerProcess.claimIDs at hDistinct hFresh
  rw [hPass] at hDistinct hFresh
  simp only [PassStage.claimIDs, List.append_nil]
    at hDistinct hFresh
  refine
    { distinct := ?_
      entered := hProc.entered
      free := ?_ }
  · unfold ManagerProcess.claimIDs
    refine List.Nodup.append hDistinct (List.nodup_singleton _) ?_
    intro claim hOld hNew
    rw [List.mem_singleton.mp hNew] at hOld
    exact hFresh hOld
  · rintro databaseID hStarts
    cases hStarts
    exact hFree

theorem claiming_claimIDs
    {claimID wanted : Uuid}
    (hWanted :
      wanted ∈
        ({ proc with
          pass := .claiming publication claimID rest } :
            ManagerProcess).claimIDs) :
    wanted ∈ proc.claimIDs ∨ wanted = claimID := by
  rcases List.mem_append.mp hWanted with hTask | hPass
  · exact Or.inl (List.mem_append_left _ hTask)
  · exact Or.inr (List.mem_singleton.mp hPass)

theorem claiming_carries
    {claimID databaseID wanted : Uuid}
    (hCarries :
      ({ proc with
        pass := .claiming publication claimID rest } :
          ManagerProcess).Carries databaseID wanted) :
    proc.Carries databaseID wanted := by
  cases hCarries with
  | task task hTask hRunning hDatabase hClaim =>
      exact .task task hTask hRunning hDatabase hClaim
  | starting _ _ hStage _ => cases hStage

/- A granted claim is started under the same name. -/
theorem starting_wellFormed
    (hProc : ProcessWellFormed proc)
    (hPass :
      proc.pass = .claiming publication claimID rest) :
    ProcessWellFormed
      { proc with
        pass := .starting publication claimID rest } := by
  have hDistinct := hProc.distinct
  have hFree := hProc.free
  unfold ManagerProcess.claimIDs at hDistinct
  rw [hPass] at hDistinct hFree
  exact
    { distinct := hDistinct
      entered := hProc.entered
      free := hFree }

theorem starting_claimIDs
    (hPass :
      proc.pass = .claiming publication claimID rest) :
    ({ proc with
      pass := .starting publication claimID rest } :
        ManagerProcess).claimIDs = proc.claimIDs := by
  unfold ManagerProcess.claimIDs
  rw [hPass]
  rfl

theorem starting_carries
    {claimID databaseID wanted : Uuid}
    (hCarries :
      ({ proc with
        pass := .starting publication claimID rest } :
          ManagerProcess).Carries databaseID wanted) :
    proc.Carries databaseID wanted ∨
      databaseID = publication.databaseID ∧
        wanted = claimID := by
  cases hCarries with
  | task task hTask hRunning hDatabase hClaim =>
      exact Or.inl (.task task hTask hRunning hDatabase hClaim)
  | starting _ _ hStage hDatabase =>
      cases hStage
      exact Or.inr ⟨hDatabase.symm, rfl⟩

end WalStreaming

end Databasus
