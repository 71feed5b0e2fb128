import Databasus.Common
import Databasus.Foundation.KeysetPaging
import Databasus.Foundation.Table
import Mathlib.Data.Prod.Lex

/-
  Scheduled availability checks of a database.

  A pass records its attempt, decides on the newest attempts
  whether the status changes, and deletes the attempts that
  are older than the retention.  It does so in a transaction
  under the lock of the database's row.

  Main declarations:
    * `Config`, `Attempt`, `Database`
    * `listAttempts`, `deleteBefore`
    * `getTransition`
    * `HealthcheckState`
    * `checkDatabase`
-/

------------------------------------------------------------
-- Configs and Attempts
------------------------------------------------------------

namespace Databasus

namespace Healthcheck

open Foundation

inductive HealthStatus
  | available
  | unavailable
deriving DecidableEq, Repr

structure Config where
  databaseID : Uuid
  isHealthcheckEnabled : Bool
  isNotificationEnabled : Bool
  intervalMinutes : Nat
  failedAttemptsBeforeUnavailable : Nat
  attemptRetentionDays : Nat
deriving DecidableEq, Repr

/- What the contract and the table's checks admit. -/
def Config.MayBeSaved
    (config : Config) : Prop :=
  1 ≤ config.intervalMinutes ∧
    1 ≤ config.failedAttemptsBeforeUnavailable ∧
      1 ≤ config.attemptRetentionDays

instance instDecidableMayBeSaved
    (config : Config) :
    Decidable config.MayBeSaved :=
  inferInstanceAs (Decidable (_ ∧ _ ∧ _))

def getDefaultConfig
    (databaseID : Uuid) : Config :=
  { databaseID := databaseID
    isHealthcheckEnabled := true
    isNotificationEnabled := true
    intervalMinutes := 1
    failedAttemptsBeforeUnavailable := 3
    attemptRetentionDays := 7 }

theorem getDefaultConfig_mayBeSaved
    (databaseID : Uuid) :
    (getDefaultConfig databaseID).MayBeSaved := by
  refine ⟨?_, ?_, ?_⟩
  · exact le_refl 1
  · exact Nat.le_of_ble_eq_true rfl
  · exact Nat.le_of_ble_eq_true rfl

def Config.interval
    (config : Config) : Duration :=
  config.intervalMinutes * Duration.minute

/- `AddDate` of days before an instant of a clock in UTC. -/
def Config.retentionCutoff
    (config : Config)
    (now : Time) : Time :=
  now - config.attemptRetentionDays * (24 * Duration.hour)

structure Attempt where
  id : Uuid
  databaseID : Uuid
  status : HealthStatus
  createdAt : Time
deriving DecidableEq, Repr

/- No lower bound stands for the zero time. -/
structure ListInput where
  databaseID : Uuid
  since : Option Time
  limit : Nat
deriving DecidableEq, Repr

def Attempt.cursor
    (attempt : Attempt) : Time ×ₗ Uuid :=
  toLex (attempt.createdAt, attempt.id)

/- The newest attempts below a cursor, if one is given. -/
def listAttempts
    (attempts : List Attempt)
    (input : ListInput)
    (cursor : Option (Time ×ₗ Uuid)) : List Attempt :=
  Paging.pageAfter Attempt.cursor
    (attempts.filter fun attempt =>
      attempt.databaseID = input.databaseID &&
        input.since.all fun since =>
          since ≤ attempt.createdAt)
    cursor input.limit

def deleteBefore
    (attempts : List Attempt)
    (databaseID : Uuid)
    (before : Time) : List Attempt :=
  Table.deleteWhere
    (fun attempt =>
      attempt.databaseID = databaseID &&
        attempt.createdAt < before) attempts

------------------------------------------------------------
-- Transitions
------------------------------------------------------------

structure TransitionInput where
  previousStatus : Option HealthStatus
  status : HealthStatus
  failedAttemptsBeforeUnavailable : Nat
  recentAttempts : List Attempt
deriving DecidableEq, Repr

/- The status to change to, if it changes. -/
def getTransition
    (input : TransitionInput) : Option HealthStatus :=
  if input.previousStatus = some input.status then
    none
  else if input.status = .available then
    some input.status
  else if
    input.recentAttempts.length <
      input.failedAttemptsBeforeUnavailable
  then
    none
  else if
    (input.recentAttempts.take
      input.failedAttemptsBeforeUnavailable).all
        fun attempt => attempt.status = .unavailable
  then
    some input.status
  else
    none

------------------------------------------------------------
-- Passes
------------------------------------------------------------

structure Database where
  id : Uuid
  name : String
  notifierIDs : List Uuid
  healthStatus : Option HealthStatus
deriving DecidableEq, Repr

inductive NotificationCategory
  | healthcheckFailed
  | healthcheckSuccess
deriving DecidableEq, Repr

/- A notification and the notifiers it goes to. -/
structure SentNotification where
  notifierIDs : List Uuid
  category : NotificationCategory
  heading : String
  message : String
deriving DecidableEq, Repr

def notify
    (userDatabase : Database) :
    HealthStatus → SentNotification
  | .available =>
      { notifierIDs := userDatabase.notifierIDs
        category := .healthcheckSuccess
        heading := "✅ [" ++ userDatabase.name ++ "] DB is online"
        message :=
          "✅ [" ++ userDatabase.name ++ "] DB is back online" }
  | .unavailable =>
      { notifierIDs := userDatabase.notifierIDs
        category := .healthcheckFailed
        heading :=
          "❌ [" ++ userDatabase.name ++ "] DB is unavailable"
        message :=
          "❌ [" ++ userDatabase.name ++
            "] DB is currently unavailable" }

structure HealthcheckState where
  databases : List Database
  configs : List Config
  attempts : List Attempt
  notifications : List SentNotification
deriving DecidableEq, Repr

inductive CheckError
  | databaseNotFound
  | configMissing
deriving DecidableEq, Repr

/- How the probe of a database's liveness ends. -/
inductive ProbeOutcome
  | answered
  | failed
  | databaseNotFound
  | contextDone
deriving DecidableEq, Repr

/- What is recorded of a probe, if anything is. -/
def ProbeOutcome.status : ProbeOutcome → Option HealthStatus
  | .answered => some .available
  | .failed => some .unavailable
  | .databaseNotFound => none
  | .contextDone => none

def setHealthStatus
    (databases : List Database)
    (databaseID : Uuid)
    (status : Option HealthStatus) : List Database :=
  Table.updateWhere (fun database => database.id = databaseID)
    (fun database => { database with healthStatus := status })
    databases

theorem lookup_setHealthStatus
    (databases : List Database)
    (databaseID : Uuid)
    (status : Option HealthStatus) :
    Table.lookup Database.id databaseID
        (setHealthStatus databases databaseID status) =
      (Table.lookup Database.id databaseID databases).map
        fun database =>
          { database with healthStatus := status } := by
  have hKeeps :
      ∀ database : Database,
        ({ database with healthStatus := status }).id =
          database.id :=
    fun _ => rfl
  unfold setHealthStatus
  rw [Table.lookup_updateWhere hKeeps]
  apply Option.map_congr
  intro database hFound
  simp [(Table.lookup_some hFound).2]

/-
  The transaction of a pass.  A notification is sent after
  its commit, which nothing else in it can prevent.
-/
def recordAttempt
    (s : HealthcheckState)
    (databaseID attemptID : Uuid)
    (status : HealthStatus)
    (now : Time) : Except CheckError HealthcheckState :=
  match Table.lookup Database.id databaseID s.databases with
  | none => .error .databaseNotFound
  | some userDatabase =>
      match
        Table.lookup Config.databaseID databaseID s.configs
      with
      | none => .error .configMissing
      | some config =>
          if config.isHealthcheckEnabled then
            let attempts :=
              s.attempts ++
                [{ id := attemptID
                   databaseID := config.databaseID
                   status := status
                   createdAt := now }]
            let recentAttempts :=
              listAttempts attempts
                { databaseID := config.databaseID
                  since := none
                  limit :=
                    config.failedAttemptsBeforeUnavailable }
                none
            let transition :=
              getTransition
                { previousStatus := userDatabase.healthStatus
                  status := status
                  failedAttemptsBeforeUnavailable :=
                    config.failedAttemptsBeforeUnavailable
                  recentAttempts := recentAttempts }
            let kept :=
              deleteBefore attempts config.databaseID
                (config.retentionCutoff now)
            match transition with
            | none => .ok { s with attempts := kept }
            | some changed =>
                .ok
                  { s with
                    databases :=
                      setHealthStatus s.databases
                        config.databaseID (some changed)
                    attempts := kept
                    notifications :=
                      if config.isNotificationEnabled then
                        s.notifications ++
                          [notify userDatabase changed]
                      else
                        s.notifications }
          else
            .ok s

/- A database that is gone is no error of the pass. -/
def checkDatabase
    (s : HealthcheckState)
    (databaseID attemptID : Uuid)
    (outcome : ProbeOutcome)
    (now : Time) : HealthcheckState × Option CheckError :=
  match outcome.status with
  | none => (s, none)
  | some status =>
      match
        recordAttempt s databaseID attemptID status now
      with
      | .ok after => (after, none)
      | .error .databaseNotFound => (s, none)
      | .error error => (s, some error)

end Healthcheck

end Databasus
