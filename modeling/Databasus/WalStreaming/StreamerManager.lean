import Mathlib.Logic.Function.Basic
import Databasus.Foundation.Exchange
import Databasus.Foundation.Runs
import Databasus.WalStreaming.StreamerClaims

/-
  Processes that run the streamers of databases.

  A process makes one reconcile pass after another.  A pass
  claims the databases that have no streamer here and starts
  them, stops the streamers that are not wanted, and sends the
  heartbeats of the claims that are left.  The streamers run
  on their own and leave the process when they end.

  Main declarations:
    * `StreamConfig`, `StoragePublication`
    * `RunningStreamer`, `StreamerTask`, `PassStage`
    * `ManagerProcess`
    * `StreamersState`, `StreamersAction`
    * `managerSystem`
-/

------------------------------------------------------------
-- Processes
------------------------------------------------------------

namespace Databasus

namespace WalStreaming

open Foundation

/- The storage of a database that a claim is checked against. -/
structure StoragePublication where
  databaseID : Uuid
  storageID : Uuid
  generation : Int
deriving DecidableEq, Repr

structure StreamConfig where
  databaseID : Uuid
  isBackupsEnabled : Bool
  storageID : Option Uuid
  storageGeneration : Int
  isWalStreaming : Bool
deriving DecidableEq, Repr

/- What `IsWalStreamingExpected` configs stream to. -/
def StreamConfig.candidate
    (config : StreamConfig) : Option StoragePublication :=
  match config.storageID with
  | none => none
  | some storageID =>
      if config.isBackupsEnabled && config.isWalStreaming then
        some
          { databaseID := config.databaseID
            storageID := storageID
            generation := config.storageGeneration }
      else none

structure RunningStreamer where
  claimID : Uuid
  publication : StoragePublication
deriving DecidableEq, Repr

def RunningStreamer.databaseID
    (streamer : RunningStreamer) : Uuid :=
  streamer.publication.databaseID

inductive TaskStage
  | running
  | markingFailed
  | markingStopped
  | leaving
deriving DecidableEq, Repr

/- The goroutine of a streamer. -/
structure StreamerTask where
  streamer : RunningStreamer
  isCancelled : Bool
  shouldRemoveWatchDir : Bool
  stage : TaskStage
deriving DecidableEq, Repr

namespace StreamerTask

def claimID
    (task : StreamerTask) : Uuid :=
  task.streamer.claimID

def databaseID
    (task : StreamerTask) : Uuid :=
  task.streamer.databaseID

end StreamerTask

/- What the first loop of a pass still has to look at. -/
structure EnsureRest where
  configs : List StreamConfig
  candidates : List Uuid
deriving DecidableEq, Repr

inductive PassStage
  | idle
  | ensuring (rest : EnsureRest)
  | claiming
      (publication : StoragePublication)
      (claimID : Uuid)
      (rest : EnsureRest)
  | starting
      (publication : StoragePublication)
      (claimID : Uuid)
      (rest : EnsureRest)
  | releasing (claimID : Uuid) (rest : EnsureRest)
  | stopping (databaseIDs : List Uuid)
  | waiting (claimID : Uuid) (databaseIDs : List Uuid)
  | heartbeating (claimIDs : List Uuid)
deriving DecidableEq, Repr

/-
  `running` is the map from databases to streamers, `tasks`
  are the goroutines that have not returned.
-/
structure ManagerProcess where
  running : List RunningStreamer := []
  tasks : List StreamerTask := []
  pass : PassStage := .idle
deriving DecidableEq, Repr

namespace ManagerProcess

def findRunning
    (proc : ManagerProcess)
    (databaseID : Uuid) : Option RunningStreamer :=
  Table.lookup RunningStreamer.databaseID databaseID
    proc.running

def findTask
    (proc : ManagerProcess)
    (claimID : Uuid) : Option StreamerTask :=
  Table.lookup StreamerTask.claimID claimID proc.tasks

def changeTask
    (proc : ManagerProcess)
    (claimID : Uuid)
    (change : StreamerTask → StreamerTask) : ManagerProcess :=
  { proc with
    tasks :=
      Table.updateWhere (fun task => task.claimID == claimID)
        change proc.tasks }

def cancel
    (proc : ManagerProcess)
    (claimID : Uuid)
    (shouldRemoveWatchDir : Bool) : ManagerProcess :=
  proc.changeTask claimID fun task =>
    { task with
      isCancelled := true
      shouldRemoveWatchDir :=
        task.shouldRemoveWatchDir || shouldRemoveWatchDir }

def setStage
    (proc : ManagerProcess)
    (claimID : Uuid)
    (stage : TaskStage) : ManagerProcess :=
  proc.changeTask claimID fun task =>
    { task with stage := stage }

/- A map holds one streamer of a database, the last one. -/
def enter
    (proc : ManagerProcess)
    (streamer : RunningStreamer) : ManagerProcess :=
  { proc with
    running :=
      Table.deleteWhere
          (fun other =>
            other.databaseID == streamer.databaseID)
          proc.running ++ [streamer]
    tasks :=
      proc.tasks ++
        [{ streamer := streamer
           isCancelled := false
           shouldRemoveWatchDir := false
           stage := .running }] }

/- A returning goroutine leaves the map unless replaced. -/
def leave
    (proc : ManagerProcess)
    (streamer : RunningStreamer) : ManagerProcess :=
  { proc with
    running :=
      Table.deleteWhere (fun other => other == streamer)
        proc.running
    tasks :=
      Table.deleteWhere
        (fun task => task.claimID == streamer.claimID)
        proc.tasks }

------------------------------------------------------------
-- The Steps of a Process
------------------------------------------------------------

/-
  The next config.  A database with a streamer here is only
  checked for a new storage; another one is to be claimed.
-/
def ensureNext
    (proc : ManagerProcess)
    (config : StreamConfig)
    (rest : EnsureRest)
    (claimID : Uuid) : ManagerProcess :=
  match config.candidate with
  | none => { proc with pass := .ensuring rest }
  | some publication =>
      let rest :=
        { rest with
          candidates :=
            rest.candidates ++ [publication.databaseID] }
      match proc.findRunning publication.databaseID with
      | none =>
          { proc with
            pass := .claiming publication claimID rest }
      | some streamer =>
          let proc := { proc with pass := .ensuring rest }
          if streamer.publication = publication then proc
          else proc.cancel streamer.claimID true

/- Streamers of databases that no config wants any more. -/
def nonCandidates
    (proc : ManagerProcess)
    (candidates : List Uuid) : List Uuid :=
  (proc.running.map RunningStreamer.databaseID).filter
    fun databaseID => !candidates.contains databaseID

def stopNext
    (proc : ManagerProcess)
    (databaseID : Uuid)
    (databaseIDs : List Uuid) : ManagerProcess :=
  match proc.findRunning databaseID with
  | none => { proc with pass := .stopping databaseIDs }
  | some streamer =>
      { proc with
        pass := .waiting streamer.claimID databaseIDs }.cancel
          streamer.claimID true

/- How the goroutine goes on when `Run` has returned. -/
def stageAfterRun
    (isFailed isCancelled : Bool) : TaskStage :=
  if isFailed && !isCancelled then .markingFailed
  else .markingStopped

/- A context that ended meanwhile is recorded as well. -/
def stageAfterMark
    (task : StreamerTask) : TaskStage :=
  if task.stage = .markingFailed ∧ task.isCancelled = true then
    .markingStopped
  else .leaving

end ManagerProcess

inductive ManagerAction
  | beginPass (configs : List StreamConfig)
  | ensureNext (claimID : Uuid)
  | claimCall (reply : Reply) (now : Time)
  | startEnds (isStarted : Bool)
  | releaseCall (reply : Reply) (now : Time)
  | stopNext
  | waitEnds (isTimedOut : Bool)
  | heartbeatCall (reply : Reply) (now : Time)
  | cancelStreamer (databaseID : Uuid)
  | runReturns (claimID : Uuid) (isFailed : Bool)
  | markCall (claimID : Uuid) (reply : Reply) (now : Time)
  | clearFailingSince (claimID : Uuid) (reply : Reply)
  | taskLeaves (claimID : Uuid)
  | crash
deriving DecidableEq, Repr

namespace ManagerProcess

/- The steps that read and write the process only. -/
def stepLocal
    (proc : ManagerProcess) :
    ManagerAction → Option ManagerProcess
  | .beginPass configs =>
      if proc.pass = .idle then
        some
          { proc with
            pass :=
              .ensuring { configs := configs, candidates := [] } }
      else none
  | .startEnds isStarted =>
      match proc.pass with
      | .starting publication claimID rest =>
          if isStarted then
            some
              ({ proc with pass := .ensuring rest }.enter
                { claimID := claimID
                  publication := publication })
          else
            some { proc with pass := .releasing claimID rest }
      | _ => none
  | .stopNext =>
      match proc.pass with
      | .ensuring { configs := [], candidates := candidates } =>
          some
            { proc with
              pass := .stopping (proc.nonCandidates candidates) }
      | .stopping (databaseID :: databaseIDs) =>
          some (proc.stopNext databaseID databaseIDs)
      | .stopping [] =>
          some
            { proc with
              pass :=
                .heartbeating
                  (proc.running.map RunningStreamer.claimID) }
      | .heartbeating [] => some { proc with pass := .idle }
      | _ => none
  | .waitEnds isTimedOut =>
      match proc.pass with
      | .waiting claimID databaseIDs =>
          if isTimedOut ∨ (proc.findTask claimID).isNone then
            some { proc with pass := .stopping databaseIDs }
          else none
      | _ => none
  | .cancelStreamer databaseID =>
      (proc.findRunning databaseID).map fun streamer =>
        proc.cancel streamer.claimID false
  | .runReturns claimID isFailed =>
      match proc.findTask claimID with
      | none => none
      | some task =>
          if task.stage = .running then
            some
              (proc.setStage claimID
                (stageAfterRun isFailed task.isCancelled))
          else none
  | .taskLeaves claimID =>
      match proc.findTask claimID with
      | none => none
      | some task =>
          if task.stage = .leaving then
            some (proc.leave task.streamer)
          else none
  | .crash => some {}
  | _ => none

end ManagerProcess

------------------------------------------------------------
-- The System
------------------------------------------------------------

/-
  The catalog and the processes that share it.  No code reads
  the last two fields: the claim ids given out so far, and
  the claims that another actor has taken away.
-/
structure StreamersState where
  rows : List WalStreamer
  publications : List StoragePublication
  processes : Nat → ManagerProcess
  usedClaims : List Uuid
  losses : List ClaimLoss

inductive StreamersAction
  | manager (process : Nat) (action : ManagerAction)
  | failStaleStreamers (now : Time)
  | publishStorages (publications : List StoragePublication)
  | deleteStreamer (databaseID : Uuid)
deriving DecidableEq, Repr

namespace StreamersState

def setProcess
    (s : StreamersState)
    (process : Nat)
    (proc : ManagerProcess) : StreamersState :=
  { s with
    processes := Function.update s.processes process proc }

/- A statement that takes no claim from anybody. -/
def execute
    (s : StreamersState)
    (reply : Reply)
    (statement : List WalStreamer → List WalStreamer) :
    StreamersState :=
  { s with rows := reply.apply statement s.rows }

/- A claim is checked against the storage of the database. -/
def executeClaim
    (s : StreamersState)
    (reply : Reply)
    (publication : StoragePublication)
    (claim : StreamerClaim) : StreamersState :=
  if reply ≠ .failed ∧ publication ∈ s.publications then
    { s with
      rows := (claimIfClaimable claim s.rows).1
      losses := takeoverLosses claim s.rows ++ s.losses }
  else s

/- Whether the process learns that the claim is its own. -/
def isGranted
    (s : StreamersState)
    (reply : Reply)
    (publication : StoragePublication)
    (claim : StreamerClaim) : Bool :=
  reply == .delivered &&
    decide (publication ∈ s.publications) &&
      (claimIfClaimable claim s.rows).2

def stepManager
    (s : StreamersState)
    (process : Nat)
    (action : ManagerAction) : Option StreamersState :=
  let proc := s.processes process
  match action with
  | .ensureNext claimID =>
      match proc.pass with
      | .ensuring
          { configs := config :: configs
            candidates := candidates } =>
          if claimID ∈ s.usedClaims then none
          else
            some
              { s.setProcess process
                  (proc.ensureNext config
                    { configs := configs
                      candidates := candidates }
                    claimID) with
                usedClaims := claimID :: s.usedClaims }
      | _ => none
  | .claimCall reply now =>
      match proc.pass with
      | .claiming publication claimID rest =>
          let claim : StreamerClaim :=
            { databaseID := publication.databaseID
              claimID := claimID
              now := now }
          some
            ((s.executeClaim reply publication
              claim).setProcess process
                { proc with
                  pass :=
                    if s.isGranted reply publication claim then
                      .starting publication claimID rest
                    else .ensuring rest })
      | _ => none
  | .releaseCall reply now =>
      match proc.pass with
      | .releasing claimID rest =>
          some
            ((s.execute reply (markFailed claimID now)).setProcess
              process { proc with pass := .ensuring rest })
      | _ => none
  | .heartbeatCall reply now =>
      match proc.pass with
      | .heartbeating (claimID :: claimIDs) =>
          some
            ((s.execute reply (heartbeat claimID now)).setProcess
              process
                { proc with pass := .heartbeating claimIDs })
      | _ => none
  | .markCall claimID reply now =>
      match proc.findTask claimID with
      | none => none
      | some task =>
          let left :=
            proc.setStage claimID
              (ManagerProcess.stageAfterMark task)
          match task.stage with
          | .markingFailed =>
              some
                ((s.execute reply
                  (markFailed claimID now)).setProcess process
                    left)
          | .markingStopped =>
              some
                ((s.execute reply
                  (markStopped claimID)).setProcess process
                    left)
          | _ => none
  | .clearFailingSince claimID reply =>
      match proc.findTask claimID with
      | none => none
      | some task =>
          if task.stage = .running then
            some (s.execute reply (clearFailingSince claimID))
          else none
  | action => (proc.stepLocal action).map (s.setProcess process)

def step
    (s : StreamersState) :
    StreamersAction → Option StreamersState
  | .manager process action => s.stepManager process action
  | .failStaleStreamers now =>
      some
        { s with
          rows := markStaleRunningFailed now s.rows
          losses := staleRunningLosses now s.rows ++ s.losses }
  | .publishStorages publications =>
      some { s with publications := publications }
  | .deleteStreamer databaseID =>
      some
        { s with
          rows := deleteByDatabaseID databaseID s.rows
          losses :=
            deletionLosses databaseID s.rows ++ s.losses }

end StreamersState

/- Processes start on the rows that earlier ones have left. -/
def managerSystem :
    TransitionSystem StreamersState StreamersAction where
  initial := fun s =>
    OneRowEach s.rows ∧ s.losses = [] ∧
      ∀ p, s.processes p = {}
  step := StreamersState.step

end WalStreaming

end Databasus
