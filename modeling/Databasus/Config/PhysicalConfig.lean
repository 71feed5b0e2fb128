import Databasus.Gfs.Retention
import Databasus.Scheduling.Slots

/-
  The backup configuration of a physical database, and what
  its validation accepts.

  The database owns the type of its backups; the retention, the
  incremental schedule and the lag threshold must fit the type.

  Main declarations:
    * `PhysicalBackupConfig`
    * `PhysicalBackupConfig.validate`
    * `validate_iff_of_full`
    * `validate_iff_of_incremental`
-/

------------------------------------------------------------
-- Errors
------------------------------------------------------------

namespace Databasus

namespace Config

open Scheduling (Cron Schedule ScheduleError ScheduleType)

/- The detail of a refused schedule is its own error. -/
inductive Detail
  | text (text : String)
  | schedule (error : ScheduleError)
deriving DecidableEq, Repr

inductive ConfigError
  | invalidField (field : String) (detail : Detail)
  | unknownBackupType
deriving DecidableEq, Repr

def newInvalidFieldError
    (field : String)
    (detail : Detail) : ConfigError :=
  .invalidField field detail

def newInvalidSettingError
    (field : String)
    (detail : Detail) : ConfigError :=
  newInvalidFieldError ("settings." ++ field) detail

/- The part of a schedule that an error is about. -/
def fieldOfScheduleError : ScheduleError → String
  | .timeOfDayRequired | .invalidTimeOfDay => ".timeOfDay"
  | .weekdayRequired | .weekdayOutOfRange => ".weekday"
  | .dayOfMonthRequired | .dayOfMonthOutOfRange =>
      ".dayOfMonth"
  | .cronExpressionMissing | .invalidCronExpression =>
      ".cronExpression"
  | .invalidType _ => ".type"

def validateSchedule
    (cron : Cron)
    (field : String)
    (schedule : Schedule) : Except ConfigError Unit :=
  match schedule.validate cron with
  | .ok () => .ok ()
  | .error error =>
      .error
        (newInvalidSettingError
          (field ++ fieldOfScheduleError error)
          (.schedule error))

------------------------------------------------------------
-- Common Fields
------------------------------------------------------------

inductive Encryption
  | none
  | encrypted
  | other (text : String)
deriving DecidableEq, Repr

def Encryption.isValid : Encryption → Bool
  | .none | .encrypted => true
  | .other _ => false

inductive NotificationTrigger
  | backupFailed
  | backupSuccess
  | chainBroken
  | walGap
  | other (text : String)
deriving DecidableEq, Repr

structure CleanupSummary where
  pendingFileCount : Int
  failedFileCount : Int
deriving DecidableEq, Repr

/- What the configurations of both methods share. -/
structure BackupConfig where
  cleanup : CleanupSummary
  storageGeneration : Int
  databaseID : Uuid
  isBackupsEnabled : Bool
  storageID : Option Uuid
  encryption : Encryption
  notificationTriggers : List NotificationTrigger
deriving DecidableEq, Repr

def validateCommonFields
    (config : BackupConfig)
    (allowedTriggers : List NotificationTrigger) :
    Except ConfigError Unit :=
  if config.encryption.isValid = false then
    .error
      (newInvalidFieldError "encryption"
        (.text "must be NONE or ENCRYPTED"))
  else if
    config.notificationTriggers.all fun trigger =>
      trigger ∈ allowedTriggers
  then
    .ok ()
  else
    .error
      (newInvalidSettingError "notificationTriggers"
        (.text
          "holds a trigger the backup method does not send"))

------------------------------------------------------------
-- Retentions
------------------------------------------------------------

open Gfs (GfsRetention)

inductive PhysicalRetentionPolicy
  | chains
  | fullBackups
  | chainsAndFullBackups
  | other (text : String)
deriving DecidableEq, Repr

inductive FullBackupsRetentionPolicy
  | lastN
  | gfs
  | other (text : String)
deriving DecidableEq, Repr

/- The last full backups up to a count, or by GFS. -/
structure FullBackupsRetention where
  policy : FullBackupsRetentionPolicy
  count : Int
  gfs : GfsRetention
deriving DecidableEq, Repr

namespace FullBackupsRetention

/- The retention of a configuration that keeps chains only. -/
def empty : FullBackupsRetention where
  policy := .other ""
  count := 0
  gfs := ⟨0, 0, 0, 0, 0⟩

def isZero (retention : FullBackupsRetention) : Bool :=
  retention.policy = .other "" && retention.count = 0 &&
    retention.gfs = ⟨0, 0, 0, 0, 0⟩

theorem isZero_iff
    {retention : FullBackupsRetention} :
    retention.isZero = true ↔ retention = empty := by
  unfold isZero
  rw [Bool.and_eq_true, Bool.and_eq_true,
    decide_eq_true_iff, decide_eq_true_iff,
    decide_eq_true_iff]
  constructor
  · rintro ⟨⟨hPolicy, hCount⟩, hGfs⟩
    rcases retention with ⟨policy, count, gfs⟩
    cases hPolicy
    cases hCount
    cases hGfs
    rfl
  · rintro rfl
    exact ⟨⟨rfl, rfl⟩, rfl⟩

def validate
    (retention : FullBackupsRetention) :
    Except ConfigError Unit :=
  match retention.policy with
  | .lastN =>
      if retention.count ≤ 0 then
        .error
          (newInvalidSettingError "retention.fullBackups.count"
            (.text "must be greater than 0"))
      else if retention.gfs.hasAnyPeriod then
        .error
          (newInvalidSettingError "retention.fullBackups"
            (.text "must not keep GFS periods with LAST_N"))
      else
        .ok ()
  | .gfs =>
      if retention.count ≠ 0 then
        .error
          (newInvalidSettingError "retention.fullBackups.count"
            (.text "must be 0 with GFS"))
      else if retention.gfs.hasAnyPeriod = false then
        .error
          (newInvalidSettingError "retention.fullBackups"
            (.text "must keep at least one GFS period"))
      else
        .ok ()
  | .other _ =>
      .error
        (newInvalidSettingError "retention.fullBackups.policy"
          (.text "is not a full backups retention policy"))

end FullBackupsRetention

/- The last chains, full backups, or both. -/
structure PhysicalRetention where
  policy : PhysicalRetentionPolicy
  chainsCount : Int
  fullBackups : FullBackupsRetention
deriving DecidableEq, Repr

def PhysicalRetention.validateRetention
    (retention : PhysicalRetention) :
    Except ConfigError Unit :=
  match retention.policy with
  | .chains =>
      if retention.chainsCount ≤ 0 then
        .error
          (newInvalidSettingError "retention.chainsCount"
            (.text "must be greater than 0"))
      else if retention.fullBackups.isZero = false then
        .error
          (newInvalidSettingError "retention.fullBackups"
            (.text "must be empty with CHAINS"))
      else
        .ok ()
  | .fullBackups =>
      if retention.chainsCount ≠ 0 then
        .error
          (newInvalidSettingError "retention.chainsCount"
            (.text "must be 0 with FULL_BACKUPS"))
      else
        retention.fullBackups.validate
  | .chainsAndFullBackups =>
      if retention.chainsCount ≤ 0 then
        .error
          (newInvalidSettingError "retention.chainsCount"
            (.text "must be greater than 0"))
      else
        retention.fullBackups.validate
  | .other _ =>
      .error
        (newInvalidSettingError "retention.policy"
          (.text "is not a physical retention policy"))

------------------------------------------------------------
-- Physical Configurations
------------------------------------------------------------

open Scheduling (Cron Schedule)

inductive PhysicalBackupType
  | full
  | fullAndIncremental
  | fullIncrementalWalStream
  | other (text : String)
deriving DecidableEq, Repr

namespace PhysicalBackupType

def isValid : PhysicalBackupType → Bool
  | .full | .fullAndIncremental | .fullIncrementalWalStream =>
      true
  | .other _ => false

/- It takes incremental backups. -/
def isRequiringWalSummary
    (backupType : PhysicalBackupType) : Bool :=
  backupType = .fullAndIncremental ||
    backupType = .fullIncrementalWalStream

def isWalStreaming
    (backupType : PhysicalBackupType) : Bool :=
  backupType = .fullIncrementalWalStream

end PhysicalBackupType

structure PhysicalBackupConfig where
  backupConfig : BackupConfig
  backupType : PhysicalBackupType
  fullBackupSchedule : Schedule
  incrementalBackupSchedule : Option Schedule
  retention : PhysicalRetention
  walLagThresholdBytes : Int
  forceFullRequestedAt : Option Time
  forceIncrementalRequestedAt : Option Time
deriving DecidableEq, Repr

def getPhysicalNotificationTriggers :
    List NotificationTrigger :=
  [.backupFailed, .backupSuccess, .chainBroken, .walGap]

/- A cron schedule cannot be compared, so it is let through. -/
def isRunningMoreOften
    (incrementalSchedule fullSchedule : Schedule) : Bool :=
  if
    incrementalSchedule.type = .cron ∨
      fullSchedule.type = .cron
  then
    true
  else
    let incrementalPeriod :=
      incrementalSchedule.getApproxPeriod
    let fullPeriod := fullSchedule.getApproxPeriod
    if incrementalPeriod = 0 ∨ fullPeriod = 0 then
      false
    else
      incrementalPeriod < fullPeriod

namespace PhysicalBackupConfig

variable (cron : Cron)

def validateIncrementalSchedule
    (config : PhysicalBackupConfig) :
    Except ConfigError Unit :=
  match config.incrementalBackupSchedule with
  | none =>
      .error
        (newInvalidSettingError "incrementalBackupSchedule"
          (.text "is required with incremental backups"))
  | some schedule =>
      match
        validateSchedule cron "incrementalBackupSchedule"
          schedule
      with
      | .error error => .error error
      | .ok () =>
          if
            isRunningMoreOften schedule
              config.fullBackupSchedule
          then
            .ok ()
          else
            .error
              (newInvalidSettingError
                "incrementalBackupSchedule"
                (.text
                  "must run more often than the full backups"))

/- The last checks of a type with incremental backups. -/
def validateStreamedWal
    (config : PhysicalBackupConfig) :
    Except ConfigError Unit :=
  let isWalStreaming := config.backupType.isWalStreaming
  if
    isWalStreaming = false ∧ config.walLagThresholdBytes ≠ 0
  then
    .error
      (newInvalidSettingError "walLagThresholdBytes"
        (.text "must be 0 without WAL streaming"))
  else if
    isWalStreaming = true ∧ config.walLagThresholdBytes ≤ 0
  then
    .error
      (newInvalidSettingError "walLagThresholdBytes"
        (.text "must be greater than 0 with WAL streaming"))
  else
    .ok ()

def validateForIncremental
    (config : PhysicalBackupConfig) :
    Except ConfigError Unit :=
  if config.retention.policy = .fullBackups then
    .error
      (newInvalidSettingError "retention.policy"
        (.text "must keep chains with incremental backups"))
  else do
    config.validateIncrementalSchedule cron
    config.validateStreamedWal

def validateForBackupType
    (config : PhysicalBackupConfig) :
    Except ConfigError Unit :=
  match config.backupType with
  | .full =>
      if config.retention.policy ≠ .fullBackups then
        .error
          (newInvalidSettingError "retention.policy"
            (.text
              "must be FULL_BACKUPS without incremental backups"))
      else if config.incrementalBackupSchedule ≠ none then
        .error
          (newInvalidSettingError "incrementalBackupSchedule"
            (.text "must be empty without incremental backups"))
      else if config.walLagThresholdBytes ≠ 0 then
        .error
          (newInvalidSettingError "walLagThresholdBytes"
            (.text "must be 0 without WAL streaming"))
      else
        .ok ()
  | .fullAndIncremental | .fullIncrementalWalStream =>
      config.validateForIncremental cron
  | .other _ => .error .unknownBackupType

def validateWalLagThreshold
    (config : PhysicalBackupConfig) :
    Except ConfigError Unit :=
  if config.walLagThresholdBytes < 0 then
    .error
      (newInvalidSettingError "walLagThresholdBytes"
        (.text "must not be negative"))
  else
    .ok ()

def validate
    (config : PhysicalBackupConfig) :
    Except ConfigError Unit := do
  validateSchedule cron "fullBackupSchedule"
    config.fullBackupSchedule
  config.validateWalLagThreshold
  config.retention.validateRetention
  config.validateForBackupType cron
  validateCommonFields config.backupConfig
    getPhysicalNotificationTriggers

end PhysicalBackupConfig

------------------------------------------------------------
-- Accepted Configurations
------------------------------------------------------------

variable {cron : Cron}
variable {config : PhysicalBackupConfig}
variable {retention : PhysicalRetention}

/- Checks in a row pass exactly when each of them does. -/
theorem ok_bind_iff
    {check : Except ConfigError Unit}
    {rest : Unit → Except ConfigError Unit} :
    (check >>= rest) = .ok () ↔
      check = .ok () ∧ rest () = .ok () := by
  constructor
  · intro hChecks
    cases check with
    | error error => cases hChecks
    | ok checked => exact ⟨rfl, hChecks⟩
  · rintro ⟨rfl, hRest⟩
    exact hRest

theorem validateSchedule_iff
    {field : String}
    {schedule : Schedule} :
    validateSchedule cron field schedule = .ok () ↔
      schedule.validate cron = .ok () := by
  unfold validateSchedule
  cases schedule.validate cron with
  | error error =>
      constructor
      · intro hError
        cases hError
      · intro hError
        cases hError
  | ok _ => exact ⟨fun _ => rfl, fun _ => rfl⟩

/- An incremental schedule that the full one admits. -/
structure IsIncremental
    (cron : Cron)
    (fullSchedule schedule : Schedule) : Prop where
  valid : schedule.validate cron = .ok ()
  often : isRunningMoreOften schedule fullSchedule = true

theorem validateIncrementalSchedule_iff :
    config.validateIncrementalSchedule cron = .ok () ↔
      ∃ schedule,
        config.incrementalBackupSchedule = some schedule ∧
          IsIncremental cron config.fullBackupSchedule
            schedule := by
  unfold PhysicalBackupConfig.validateIncrementalSchedule
  cases hSchedule : config.incrementalBackupSchedule with
  | none =>
      constructor
      · intro hError
        cases hError
      · rintro ⟨schedule, hSome, _⟩
        cases hSome
  | some schedule =>
      dsimp only
      cases hCheck :
          validateSchedule cron "incrementalBackupSchedule"
            schedule with
      | error error =>
          constructor
          · intro hError
            cases hError
          · rintro ⟨other, hOther, hIncremental⟩
            cases hOther
            rw [validateSchedule_iff.mpr hIncremental.valid]
              at hCheck
            cases hCheck
      | ok _ =>
          dsimp only
          constructor
          · intro hPass
            split at hPass
            · next hOften =>
                exact
                  ⟨schedule, rfl,
                    validateSchedule_iff.mp hCheck, hOften⟩
            · cases hPass
          · rintro ⟨other, hOther, hIncremental⟩
            cases hOther
            rw [if_pos hIncremental.often]

/- The threshold that a type with incremental backups asks. -/
def FitsStreaming
    (backupType : PhysicalBackupType)
    (walLagThresholdBytes : Int) : Prop :=
  if backupType.isWalStreaming then
    0 < walLagThresholdBytes
  else
    walLagThresholdBytes = 0

theorem validateStreamedWal_iff :
    config.validateStreamedWal = .ok () ↔
      FitsStreaming config.backupType
        config.walLagThresholdBytes := by
  unfold PhysicalBackupConfig.validateStreamedWal FitsStreaming
  dsimp only
  cases config.backupType.isWalStreaming with
  | true =>
      rw [if_neg (by simp), if_pos rfl]
      by_cases hPositive : 0 < config.walLagThresholdBytes
      · rw [if_neg (by omega)]
        exact ⟨fun _ => hPositive, fun _ => rfl⟩
      · rw [if_pos ⟨rfl, by omega⟩]
        refine ⟨fun hError => ?_, fun hPass => ?_⟩
        · cases hError
        · exact absurd hPass hPositive
  | false =>
      by_cases hZero : config.walLagThresholdBytes = 0
      · rw [if_neg (by simp [hZero]), if_neg (by simp),
          if_neg (by simp)]
        exact ⟨fun _ => hZero, fun _ => rfl⟩
      · rw [if_pos ⟨rfl, hZero⟩, if_neg (by simp)]
        refine ⟨fun hError => ?_, fun hPass => ?_⟩
        · cases hError
        · exact absurd hPass hZero

/- What no backup type has a say in. -/
structure IsSoundForAnyType
    (cron : Cron)
    (config : PhysicalBackupConfig) : Prop where
  schedule : config.fullBackupSchedule.validate cron = .ok ()
  common :
    validateCommonFields config.backupConfig
        getPhysicalNotificationTriggers =
      .ok ()

/- What full backups alone ask of a configuration. -/
structure FitsFullOnly
    (config : PhysicalBackupConfig) : Prop where
  policy : config.retention.policy = .fullBackups
  chains : config.retention.chainsCount = 0
  fullBackups : config.retention.fullBackups.validate = .ok ()
  schedule : config.incrementalBackupSchedule = none
  walLag : config.walLagThresholdBytes = 0

/- A retention of chains, with or without full backups. -/
structure KeepsChains
    (retention : PhysicalRetention) : Prop where
  chains : 0 < retention.chainsCount
  fullBackups :
    retention.policy = .chains ∧
        retention.fullBackups = .empty ∨
      retention.policy = .chainsAndFullBackups ∧
        retention.fullBackups.validate = .ok ()

/- What incremental backups ask, the schedule left out. -/
structure FitsButSchedule
    (config : PhysicalBackupConfig) : Prop where
  retention : KeepsChains config.retention
  walLag :
    FitsStreaming config.backupType
      config.walLagThresholdBytes

theorem FitsStreaming.nonneg
    {backupType : PhysicalBackupType}
    {walLagThresholdBytes : Int}
    (hFits : FitsStreaming backupType walLagThresholdBytes) :
    0 ≤ walLagThresholdBytes := by
  unfold FitsStreaming at hFits
  split at hFits
  · exact Int.le_of_lt hFits
  · exact Int.le_of_eq hFits.symm

theorem validateWalLagThreshold_iff :
    config.validateWalLagThreshold = .ok () ↔
      0 ≤ config.walLagThresholdBytes := by
  unfold PhysicalBackupConfig.validateWalLagThreshold
  by_cases hNegative : config.walLagThresholdBytes < 0
  · rw [if_pos hNegative]
    refine ⟨fun hError => ?_, fun hPass => ?_⟩
    · cases hError
    · exact absurd hNegative (Int.not_lt.mpr hPass)
  · rw [if_neg hNegative]
    exact ⟨fun _ => Int.not_lt.mp hNegative, fun _ => rfl⟩

theorem validate_iff :
    config.validate cron = .ok () ↔
      IsSoundForAnyType cron config ∧
        0 ≤ config.walLagThresholdBytes ∧
          config.retention.validateRetention = .ok () ∧
            config.validateForBackupType cron = .ok () := by
  unfold PhysicalBackupConfig.validate
  rw [ok_bind_iff, ok_bind_iff, ok_bind_iff, ok_bind_iff,
    validateSchedule_iff, validateWalLagThreshold_iff]
  constructor
  · rintro ⟨hSchedule, hWalLag, hRetention, hType, hCommon⟩
    exact ⟨⟨hSchedule, hCommon⟩, hWalLag, hRetention, hType⟩
  · rintro ⟨hSound, hWalLag, hRetention, hType⟩
    exact
      ⟨hSound.schedule, hWalLag, hRetention, hType,
        hSound.common⟩

theorem validate_iff_of_full
    (hType : config.backupType = .full) :
    config.validate cron = .ok () ↔
      IsSoundForAnyType cron config ∧ FitsFullOnly config := by
  rw [validate_iff]
  apply and_congr_right
  intro _
  unfold PhysicalBackupConfig.validateForBackupType
    PhysicalRetention.validateRetention
  rw [hType]
  dsimp only
  constructor
  · rintro ⟨_, hRetention, hFits⟩
    split at hFits
    · cases hFits
    · next hPolicy =>
        rw [not_not] at hPolicy
        rw [hPolicy] at hRetention
        dsimp only at hRetention
        split at hRetention
        · cases hRetention
        · next hChains =>
            split at hFits
            · cases hFits
            · next hSchedule =>
                split at hFits
                · cases hFits
                · next hWalLag =>
                    exact
                      { policy := hPolicy
                        chains := not_not.mp hChains
                        fullBackups := hRetention
                        schedule := not_not.mp hSchedule
                        walLag := not_not.mp hWalLag }
  · intro hFits
    rw [hFits.policy, hFits.chains, hFits.schedule,
      hFits.walLag]
    exact ⟨Int.le_refl 0, hFits.fullBackups, rfl⟩

theorem validateRetention_iff_of_chains
    (hPolicy : retention.policy ≠ .fullBackups) :
    retention.validateRetention = .ok () ↔
      KeepsChains retention := by
  unfold PhysicalRetention.validateRetention
  split
  · next hChains =>
      by_cases hNone : retention.chainsCount ≤ 0
      · rw [if_pos hNone]
        refine ⟨fun hError => ?_, fun hKeeps => ?_⟩
        · cases hError
        · exact absurd hKeeps.chains (Int.not_lt.mpr hNone)
      · rw [if_neg hNone]
        cases hZero : retention.fullBackups.isZero with
        | false =>
            refine ⟨fun hError => ?_, fun hKeeps => ?_⟩
            · cases hError
            · rcases hKeeps.fullBackups with
                ⟨_, hEmpty⟩ | ⟨hOther, _⟩
              · rw [FullBackupsRetention.isZero_iff.mpr hEmpty]
                  at hZero
                cases hZero
              · rw [hChains] at hOther
                cases hOther
        | true =>
            refine ⟨fun _ => ?_, fun _ => rfl⟩
            exact
              { chains := Int.not_le.mp hNone
                fullBackups :=
                  .inl
                    ⟨hChains,
                      FullBackupsRetention.isZero_iff.mp
                        hZero⟩ }
  · next hFull => exact absurd hFull hPolicy
  · next hBoth =>
      by_cases hNone : retention.chainsCount ≤ 0
      · rw [if_pos hNone]
        refine ⟨fun hError => ?_, fun hKeeps => ?_⟩
        · cases hError
        · exact absurd hKeeps.chains (Int.not_lt.mpr hNone)
      · rw [if_neg hNone]
        constructor
        · intro hValid
          exact
            { chains := Int.not_le.mp hNone
              fullBackups := .inr ⟨hBoth, hValid⟩ }
        · intro hKeeps
          rcases hKeeps.fullBackups with
            ⟨hOther, _⟩ | ⟨_, hValid⟩
          · rw [hBoth] at hOther
            cases hOther
          · exact hValid
  · next text hOther =>
      refine ⟨fun hError => ?_, fun hKeeps => ?_⟩
      · cases hError
      · rcases hKeeps.fullBackups with
          ⟨hPolicy, _⟩ | ⟨hPolicy, _⟩
        · rw [hOther] at hPolicy
          cases hPolicy
        · rw [hOther] at hPolicy
          cases hPolicy

theorem KeepsChains.policy_ne
    (hKeeps : KeepsChains retention) :
    retention.policy ≠ .fullBackups := by
  intro hFull
  rcases hKeeps.fullBackups with ⟨hPolicy, _⟩ | ⟨hPolicy, _⟩
  · rw [hFull] at hPolicy
    cases hPolicy
  · rw [hFull] at hPolicy
    cases hPolicy

theorem validateForBackupType_of_incremental
    (hType : config.backupType.isRequiringWalSummary = true) :
    config.validateForBackupType cron =
      config.validateForIncremental cron := by
  unfold PhysicalBackupConfig.validateForBackupType
  cases hCase : config.backupType with
  | full =>
      rw [hCase] at hType
      cases hType
  | fullAndIncremental => rfl
  | fullIncrementalWalStream => rfl
  | other text =>
      rw [hCase] at hType
      cases hType

theorem validate_iff_of_incremental
    (hType : config.backupType.isRequiringWalSummary = true) :
    config.validate cron = .ok () ↔
      IsSoundForAnyType cron config ∧
        FitsButSchedule config ∧
          config.validateIncrementalSchedule cron = .ok () := by
  rw [validate_iff, validateForBackupType_of_incremental hType]
  apply and_congr_right
  intro _
  unfold PhysicalBackupConfig.validateForIncremental
  constructor
  · rintro ⟨_, hRetention, hFits⟩
    split at hFits
    · cases hFits
    · next hPolicy =>
        rw [ok_bind_iff, validateStreamedWal_iff] at hFits
        exact
          ⟨⟨(validateRetention_iff_of_chains hPolicy).mp
                hRetention,
              hFits.2⟩,
            hFits.1⟩
  · rintro ⟨hFits, hSchedule⟩
    have hPolicy := hFits.retention.policy_ne
    rw [if_neg hPolicy, ok_bind_iff, validateStreamedWal_iff]
    exact
      ⟨hFits.walLag.nonneg,
        (validateRetention_iff_of_chains hPolicy).mpr
          hFits.retention,
        hSchedule, hFits.walLag⟩

end Config

end Databasus
