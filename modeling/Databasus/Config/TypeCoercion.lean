import Databasus.Config.PhysicalConfig

/-
  The fit of a physical configuration to a type of backups.

  A switch of the type keeps every value that the new type
  allows and replaces the others.  A schedule that is missing
  is built from the full one, with a time of day that a cron
  schedule may carry along unchecked.

  Main declarations:
    * `PhysicalBackupConfig.coerceToBackupType`
    * `IsSettled`
    * `ChangesNoAllowedField`
    * `Reshapes`
    * `reshapes_iff`
    * `newDefaultPhysicalBackupConfig`
-/

------------------------------------------------------------
-- Coercion
------------------------------------------------------------

namespace Databasus

namespace Config

open Scheduling (Cron Schedule)

def defaultTimeOfDay : String := "04:00"

def defaultChainsRetentionCount : Int := 7

def defaultFullBackupsRetentionCount : Int := 7

def defaultWalLagThresholdBytes : Int := 256 * 1024 * 1024

def defaultFullBackupsRetention : FullBackupsRetention where
  policy := .lastN
  count := defaultFullBackupsRetentionCount
  gfs := ⟨0, 0, 0, 0, 0⟩

/- No fixed schedule runs more often than an hourly one. -/
def buildScheduleMoreOftenThan
    (fullSchedule : Schedule) : Option Schedule :=
  match fullSchedule.type with
  | .daily => some { type := .hourly }
  | .weekly | .monthly | .cron =>
      some
        { type := .daily
          timeOfDay :=
            some
              (fullSchedule.timeOfDay.getD
                defaultTimeOfDay) }
  | .hourly => none
  | .other _ => none

namespace PhysicalRetention

def coerceForFullOnly
    (retention : PhysicalRetention) : PhysicalRetention where
  policy := .fullBackups
  chainsCount := 0
  fullBackups :=
    if retention.fullBackups.validate.isOk then
      retention.fullBackups
    else
      defaultFullBackupsRetention

def coercePolicyForIncremental
    (retention : PhysicalRetention) :
    PhysicalRetentionPolicy :=
  if
    retention.policy ≠ .chains ∧
      retention.policy ≠ .chainsAndFullBackups
  then
    if retention.fullBackups.validate.isOk then
      .chainsAndFullBackups
    else
      .chains
  else
    retention.policy

def coerceForIncremental
    (retention : PhysicalRetention) : PhysicalRetention where
  policy := retention.coercePolicyForIncremental
  chainsCount :=
    if retention.chainsCount ≤ 0 then
      defaultChainsRetentionCount
    else
      retention.chainsCount
  fullBackups :=
    if retention.coercePolicyForIncremental = .chains then
      .empty
    else
      retention.fullBackups

end PhysicalRetention

namespace PhysicalBackupConfig

def coerceForFullOnly
    (config : PhysicalBackupConfig) : PhysicalBackupConfig :=
  { config with
    incrementalBackupSchedule := none
    walLagThresholdBytes := 0
    retention := config.retention.coerceForFullOnly }

variable (cron : Cron)

def coerceIncrementalSchedule
    (config : PhysicalBackupConfig) : Option Schedule :=
  match config.incrementalBackupSchedule with
  | none =>
      buildScheduleMoreOftenThan config.fullBackupSchedule
  | some schedule =>
      if
        (schedule.validate cron).isOk &&
          isRunningMoreOften schedule
            config.fullBackupSchedule
      then
        some schedule
      else
        buildScheduleMoreOftenThan config.fullBackupSchedule

def coerceForIncremental
    (config : PhysicalBackupConfig) : PhysicalBackupConfig :=
  { config with
    retention := config.retention.coerceForIncremental
    incrementalBackupSchedule :=
      config.coerceIncrementalSchedule cron }

def coerceToBackupType
    (config : PhysicalBackupConfig)
    (backupType : PhysicalBackupType) :
    PhysicalBackupConfig :=
  let coercedConfig :=
    { config with backupType := backupType }
  match backupType with
  | .full => coercedConfig.coerceForFullOnly
  | .fullAndIncremental =>
      { coercedConfig.coerceForIncremental cron with
        walLagThresholdBytes := 0 }
  | .fullIncrementalWalStream =>
      { coercedConfig.coerceForIncremental cron with
        walLagThresholdBytes :=
          if config.walLagThresholdBytes ≤ 0 then
            defaultWalLagThresholdBytes
          else
            config.walLagThresholdBytes }
  | .other _ => coercedConfig

end PhysicalBackupConfig

------------------------------------------------------------
-- Settled Configurations
------------------------------------------------------------

variable {cron : Cron}
variable {config : PhysicalBackupConfig}
variable {backupType : PhysicalBackupType}

theorem isOk_iff
    {check : Except ConfigError Unit} :
    check.isOk = true ↔ check = .ok () := by
  cases check with
  | error error =>
      constructor
      · intro hError
        cases hError
      · intro hError
        cases hError
  | ok _ => exact ⟨fun _ => rfl, fun _ => rfl⟩

theorem validate_defaultFullBackupsRetention :
    defaultFullBackupsRetention.validate = .ok () := rfl

namespace PhysicalRetention

variable {retention : PhysicalRetention}

theorem validate_coerceForFullOnly
    (retention : PhysicalRetention) :
    retention.coerceForFullOnly.fullBackups.validate =
      .ok () := by
  unfold coerceForFullOnly
  dsimp only
  split
  · next hValid => exact isOk_iff.mp hValid
  · exact validate_defaultFullBackupsRetention

theorem coerceForFullOnly_eq
    (hPolicy : retention.policy = .fullBackups)
    (hChains : retention.chainsCount = 0)
    (hValid : retention.fullBackups.validate = .ok ()) :
    retention.coerceForFullOnly = retention := by
  unfold coerceForFullOnly
  rw [if_pos (isOk_iff.mpr hValid), ← hPolicy, ← hChains]

/- The coercion for incremental backups leaves it alone. -/
structure IsSettled
    (retention : PhysicalRetention) : Prop where
  chains : 0 < retention.chainsCount
  policy :
    retention.policy = .chains ∧
        retention.fullBackups = .empty ∨
      retention.policy = .chainsAndFullBackups

theorem coercePolicyForIncremental_mem
    (retention : PhysicalRetention) :
    retention.coercePolicyForIncremental = .chains ∨
      retention.coercePolicyForIncremental =
        .chainsAndFullBackups := by
  unfold coercePolicyForIncremental
  split
  · split
    · exact .inr rfl
    · exact .inl rfl
  · next hKept =>
      by_cases hChains : retention.policy = .chains
      · exact .inl hChains
      · refine .inr (not_not.mp fun hBoth => ?_)
        exact hKept ⟨hChains, hBoth⟩

theorem coercePolicyForIncremental_of_mem
    (hPolicy :
      retention.policy = .chains ∨
        retention.policy = .chainsAndFullBackups) :
    retention.coercePolicyForIncremental =
      retention.policy := by
  unfold coercePolicyForIncremental
  rw [if_neg]
  rintro ⟨hChains, hBoth⟩
  rcases hPolicy with hPolicy | hPolicy
  · exact hChains hPolicy
  · exact hBoth hPolicy

theorem isSettled_coerceForIncremental
    (retention : PhysicalRetention) :
    retention.coerceForIncremental.IsSettled := by
  constructor
  · unfold coerceForIncremental
    dsimp only
    split
    · exact by decide
    · next hPositive => exact Int.not_le.mp hPositive
  · unfold coerceForIncremental
    dsimp only
    rcases retention.coercePolicyForIncremental_mem with
      hChains | hBoth
    · refine .inl ⟨hChains, ?_⟩
      rw [if_pos hChains]
    · exact .inr hBoth

theorem IsSettled.coerceForIncremental_eq
    (hSettled : retention.IsSettled) :
    retention.coerceForIncremental = retention := by
  have hPolicy :
      retention.coercePolicyForIncremental =
        retention.policy := by
    apply coercePolicyForIncremental_of_mem
    rcases hSettled.policy with ⟨hChains, _⟩ | hBoth
    · exact .inl hChains
    · exact .inr hBoth
  unfold coerceForIncremental
  rw [hPolicy, if_neg (Int.not_le.mpr hSettled.chains)]
  rcases hSettled.policy with ⟨hChains, hEmpty⟩ | hBoth
  · rw [if_pos hChains, ← hEmpty]
  · rw [if_neg (by rw [hBoth]; exact fun hEq => by cases hEq)]

theorem isSettled_of_keepsChains
    (hKeeps : KeepsChains retention) :
    retention.IsSettled := by
  refine ⟨hKeeps.chains, ?_⟩
  rcases hKeeps.fullBackups with hChains | ⟨hBoth, _⟩
  · exact .inl hChains
  · exact .inr hBoth

/- An accepted retention keeps its full backups. -/
theorem coerceForIncremental_of_valid
    (hValid : retention.validateRetention = .ok ()) :
    KeepsChains retention.coerceForIncremental ∧
      retention.coerceForIncremental.fullBackups =
        retention.fullBackups := by
  by_cases hFull : retention.policy = .fullBackups
  · have hFullBackups :
        retention.fullBackups.validate = .ok () := by
      unfold validateRetention at hValid
      rw [hFull] at hValid
      dsimp only at hValid
      split at hValid
      · cases hValid
      · exact hValid
    have hPolicy :
        retention.coercePolicyForIncremental =
          .chainsAndFullBackups := by
      unfold coercePolicyForIncremental
      rw [hFull, if_pos (by decide),
        if_pos (isOk_iff.mpr hFullBackups)]
    have hKept :
        retention.coerceForIncremental.fullBackups =
          retention.fullBackups := by
      unfold coerceForIncremental
      dsimp only
      rw [hPolicy]
      rfl
    refine ⟨⟨?_, .inr ⟨hPolicy, ?_⟩⟩, hKept⟩
    · exact retention.isSettled_coerceForIncremental.chains
    · rw [hKept]
      exact hFullBackups
  · have hKeeps :=
      (validateRetention_iff_of_chains hFull).mp hValid
    rw [(isSettled_of_keepsChains
      hKeeps).coerceForIncremental_eq]
    exact ⟨hKeeps, rfl⟩

end PhysicalRetention

/- The threshold after a switch to incremental backups. -/
def coerceWalLagThreshold
    (backupType : PhysicalBackupType)
    (walLagThresholdBytes : Int) : Int :=
  if backupType.isWalStreaming then
    if walLagThresholdBytes ≤ 0 then
      defaultWalLagThresholdBytes
    else
      walLagThresholdBytes
  else
    0

theorem fitsStreaming_coerceWalLagThreshold
    (backupType : PhysicalBackupType)
    (walLagThresholdBytes : Int) :
    FitsStreaming backupType
      (coerceWalLagThreshold backupType
        walLagThresholdBytes) := by
  unfold FitsStreaming coerceWalLagThreshold
  split
  · split
    · exact by decide
    · next hPositive => exact Int.not_le.mp hPositive
  · rfl

theorem FitsStreaming.coerceWalLagThreshold_eq
    {walLagThresholdBytes : Int}
    (hFits : FitsStreaming backupType walLagThresholdBytes) :
    coerceWalLagThreshold backupType walLagThresholdBytes =
      walLagThresholdBytes := by
  unfold FitsStreaming at hFits
  unfold coerceWalLagThreshold
  split
  · next hStreaming =>
      rw [if_pos hStreaming] at hFits
      exact if_neg (Int.not_le.mpr hFits)
  · next hNone =>
      rw [if_neg hNone] at hFits
      exact hFits.symm

theorem coerceToBackupType_of_incremental
    (cron : Cron)
    (config : PhysicalBackupConfig)
    (hType : backupType.isRequiringWalSummary = true) :
    config.coerceToBackupType cron backupType =
      { config with
        backupType := backupType
        retention := config.retention.coerceForIncremental
        incrementalBackupSchedule :=
          config.coerceIncrementalSchedule cron
        walLagThresholdBytes :=
          coerceWalLagThreshold backupType
            config.walLagThresholdBytes } := by
  cases backupType with
  | full => cases hType
  | fullAndIncremental => rfl
  | fullIncrementalWalStream => rfl
  | other text => cases hType

theorem coerceIncrementalSchedule_of_isIncremental
    {schedule : Schedule}
    (hSchedule :
      config.incrementalBackupSchedule = some schedule)
    (hIncremental :
      IsIncremental cron config.fullBackupSchedule
        schedule) :
    config.coerceIncrementalSchedule cron = some schedule := by
  unfold PhysicalBackupConfig.coerceIncrementalSchedule
  rw [hSchedule]
  dsimp only
  rw [hIncremental.valid, hIncremental.often]
  rfl

theorem coerceIncrementalSchedule_of_build
    (hBuilt :
      config.incrementalBackupSchedule =
        buildScheduleMoreOftenThan
          config.fullBackupSchedule) :
    config.coerceIncrementalSchedule cron =
      buildScheduleMoreOftenThan
        config.fullBackupSchedule := by
  unfold PhysicalBackupConfig.coerceIncrementalSchedule
  split
  · rfl
  · next schedule hSchedule =>
      split
      · rw [← hBuilt, hSchedule]
      · rfl

theorem coerceIncrementalSchedule_cases
    (cron : Cron)
    (config : PhysicalBackupConfig) :
    config.coerceIncrementalSchedule cron =
        config.incrementalBackupSchedule ∨
      config.coerceIncrementalSchedule cron =
        buildScheduleMoreOftenThan
          config.fullBackupSchedule := by
  unfold PhysicalBackupConfig.coerceIncrementalSchedule
  split
  · exact .inr rfl
  · next schedule hSchedule =>
      split
      · exact .inl hSchedule.symm
      · exact .inr rfl

/- A second switch to the same type changes nothing. -/
theorem coerceToBackupType_idempotent
    (config : PhysicalBackupConfig)
    (backupType : PhysicalBackupType) :
    (config.coerceToBackupType cron
        backupType).coerceToBackupType cron backupType =
      config.coerceToBackupType cron backupType := by
  cases hType : backupType.isRequiringWalSummary with
  | true =>
      rw [coerceToBackupType_of_incremental cron config hType,
        coerceToBackupType_of_incremental _ _ hType]
      have hRetention :=
        config.retention.isSettled_coerceForIncremental
      have hWalLag :=
        fitsStreaming_coerceWalLagThreshold backupType
          config.walLagThresholdBytes
      dsimp only
      rw [hRetention.coerceForIncremental_eq,
        hWalLag.coerceWalLagThreshold_eq]
      congr 1
      rcases coerceIncrementalSchedule_cases cron config with
        hKept | hBuilt
      · rw [hKept]
        exact hKept
      · rw [hBuilt]
        exact coerceIncrementalSchedule_of_build rfl
  | false =>
      cases backupType with
      | full =>
          unfold PhysicalBackupConfig.coerceToBackupType
            PhysicalBackupConfig.coerceForFullOnly
          dsimp only
          congr 1
          exact
            PhysicalRetention.coerceForFullOnly_eq rfl rfl
              config.retention.validate_coerceForFullOnly
      | fullAndIncremental => cases hType
      | fullIncrementalWalStream => cases hType
      | other text => rfl

/- A configuration that fits the type stays as it is. -/
theorem coerceToBackupType_of_valid
    (hValid : config.validate cron = .ok ()) :
    config.coerceToBackupType cron config.backupType =
      config := by
  cases hType : config.backupType.isRequiringWalSummary with
  | true =>
      rcases (validate_iff_of_incremental hType).mp hValid with
        ⟨_, hFits, hSchedule⟩
      rcases validateIncrementalSchedule_iff.mp hSchedule with
        ⟨schedule, hSchedule, hIncremental⟩
      have hSettled :=
        PhysicalRetention.isSettled_of_keepsChains
          hFits.retention
      rw [coerceToBackupType_of_incremental cron config hType,
        coerceIncrementalSchedule_of_isIncremental hSchedule
          hIncremental,
        hSettled.coerceForIncremental_eq,
        hFits.walLag.coerceWalLagThreshold_eq, ← hSchedule]
  | false =>
      cases hCase : config.backupType with
      | full =>
          have hFits :=
            ((validate_iff_of_full hCase).mp hValid).2
          unfold PhysicalBackupConfig.coerceToBackupType
            PhysicalBackupConfig.coerceForFullOnly
          dsimp only
          rw [PhysicalRetention.coerceForFullOnly_eq
            hFits.policy hFits.chains hFits.fullBackups]
          rw [← hFits.schedule, ← hFits.walLag, ← hCase]
      | fullAndIncremental =>
          rw [hCase] at hType
          cases hType
      | fullIncrementalWalStream =>
          rw [hCase] at hType
          cases hType
      | other text =>
          unfold PhysicalBackupConfig.coerceToBackupType
          dsimp only
          rw [← hCase]

------------------------------------------------------------
-- Accepted Again
------------------------------------------------------------

open Scheduling (Cron Schedule parseTimeOfDay)

variable {schedule : Schedule}
variable {fullSchedule : Schedule}

theorem soundForAnyType_coerce
    (hSound : IsSoundForAnyType cron config)
    (backupType : PhysicalBackupType) :
    IsSoundForAnyType cron
      (config.coerceToBackupType cron backupType) := by
  cases backupType with
  | full => exact ⟨hSound.schedule, hSound.common⟩
  | fullAndIncremental => exact ⟨hSound.schedule, hSound.common⟩
  | fullIncrementalWalStream =>
      exact ⟨hSound.schedule, hSound.common⟩
  | other text => exact ⟨hSound.schedule, hSound.common⟩

/- A switch to full backups alone always succeeds. -/
theorem validate_coerce_full
    (hSound : IsSoundForAnyType cron config) :
    (config.coerceToBackupType cron .full).validate cron =
      .ok () := by
  apply (validate_iff_of_full rfl).mpr
  refine ⟨soundForAnyType_coerce hSound .full, ?_⟩
  exact
    { policy := rfl
      chains := rfl
      fullBackups := config.retention.validate_coerceForFullOnly
      schedule := rfl
      walLag := rfl }

theorem fitsButSchedule_coerce
    (cron : Cron)
    (hRetention : config.retention.validateRetention = .ok ())
    (hType : backupType.isRequiringWalSummary = true) :
    FitsButSchedule
      (config.coerceToBackupType cron backupType) := by
  rw [coerceToBackupType_of_incremental cron config hType]
  exact
    { retention :=
        (PhysicalRetention.coerceForIncremental_of_valid
          hRetention).1
      walLag :=
        fitsStreaming_coerceWalLagThreshold backupType
          config.walLagThresholdBytes }

/- A schedule that validation has seen can be compared. -/
theorem isIncremental_of_valid
    (hValid : config.validate cron = .ok ())
    (hSchedule :
      config.incrementalBackupSchedule = some schedule) :
    IsIncremental cron config.fullBackupSchedule schedule := by
  cases hType : config.backupType.isRequiringWalSummary with
  | true =>
      have hChecked :=
        ((validate_iff_of_incremental hType).mp hValid).2.2
      rcases validateIncrementalSchedule_iff.mp hChecked with
        ⟨other, hOther, hIncremental⟩
      rw [hSchedule] at hOther
      cases hOther
      exact hIncremental
  | false =>
      exfalso
      have hChecked := (validate_iff.mp hValid).2.2.2
      cases hCase : config.backupType with
      | full =>
          have hNone :=
            ((validate_iff_of_full hCase).mp hValid).2.schedule
          rw [hSchedule] at hNone
          cases hNone
      | fullAndIncremental =>
          rw [hCase] at hType
          cases hType
      | fullIncrementalWalStream =>
          rw [hCase] at hType
          cases hType
      | other text =>
          unfold PhysicalBackupConfig.validateForBackupType
            at hChecked
          rw [hCase] at hChecked
          cases hChecked

theorem validate_hourly :
    Schedule.validate cron { type := .hourly } = .ok () := rfl

theorem validate_daily_iff
    {text : String} :
    Schedule.validate cron
          { type := .daily, timeOfDay := some text } =
        .ok () ↔
      (parseTimeOfDay text).isSome = true := by
  unfold Schedule.validate Schedule.validateTimeOfDay
  dsimp only
  rw [if_pos (.inl rfl)]
  cases hParse : parseTimeOfDay text with
  | none =>
      rw [if_pos (by rfl)]
      constructor
      · intro hError
        cases hError
      · intro hSome
        cases hSome
  | some timeOfDay =>
      rw [if_neg (by simp)]
      exact ⟨fun _ => rfl, fun _ => rfl⟩

/- Validation reads the time of day of a slotted schedule. -/
theorem parse_of_valid
    (hValid : schedule.validate cron = .ok ())
    (hSlots : schedule.HasSlots) :
    (parseTimeOfDay
        (schedule.timeOfDay.getD defaultTimeOfDay)).isSome =
      true := by
  rcases Scheduling.isAccepted_of_validate hValid hSlots with
    ⟨timeOfDay, hAccepted⟩
  rcases Option.bind_eq_some_iff.mp hAccepted.timeOfDay with
    ⟨text, hText, hParse⟩
  rw [hText, Option.getD_some, hParse]
  rfl

/- The time of day that a cron schedule carries along reads. -/
def CarriesSoundTime (schedule : Schedule) : Prop :=
  schedule.type = .cron →
    ∀ text, schedule.timeOfDay = some text →
      (parseTimeOfDay text).isSome = true

theorem isIncremental_daily_iff
    (hOften :
      ∀ text,
        isRunningMoreOften
            { type := .daily, timeOfDay := some text }
            fullSchedule =
          true) :
    IsIncremental cron fullSchedule
        { type := .daily
          timeOfDay :=
            some
              (fullSchedule.timeOfDay.getD
                defaultTimeOfDay) } ↔
      (parseTimeOfDay
          (fullSchedule.timeOfDay.getD
            defaultTimeOfDay)).isSome =
        true := by
  constructor
  · intro hIncremental
    exact validate_daily_iff.mp hIncremental.valid
  · intro hParse
    exact ⟨validate_daily_iff.mpr hParse, hOften _⟩

/- A built schedule is fine unless a cron one spoilt it. -/
theorem isIncremental_of_build_iff
    {fullSchedule schedule : Schedule}
    (hValid : fullSchedule.validate cron = .ok ())
    (hBuilt :
      buildScheduleMoreOftenThan fullSchedule =
        some schedule) :
    IsIncremental cron fullSchedule schedule ↔
      CarriesSoundTime fullSchedule := by
  unfold buildScheduleMoreOftenThan at hBuilt
  unfold CarriesSoundTime
  cases hType : fullSchedule.type with
  | hourly =>
      rw [hType] at hBuilt
      cases hBuilt
  | daily =>
      rw [hType] at hBuilt
      cases hBuilt
      refine ⟨fun _ hCron => ?_, fun _ => ?_⟩
      · cases hCron
      · refine ⟨validate_hourly, ?_⟩
        unfold isRunningMoreOften Schedule.getApproxPeriod
        rw [hType]
        decide
  | weekly =>
      rw [hType] at hBuilt
      cases hBuilt
      refine ⟨fun _ hCron => ?_, fun _ => ?_⟩
      · cases hCron
      · apply (isIncremental_daily_iff fun text => ?_).mpr
        · exact parse_of_valid hValid (.inr (.inl hType))
        · unfold isRunningMoreOften Schedule.getApproxPeriod
          rw [hType]
          rfl
  | monthly =>
      rw [hType] at hBuilt
      cases hBuilt
      refine ⟨fun _ hCron => ?_, fun _ => ?_⟩
      · cases hCron
      · apply (isIncremental_daily_iff fun text => ?_).mpr
        · exact parse_of_valid hValid (.inr (.inr hType))
        · unfold isRunningMoreOften Schedule.getApproxPeriod
          rw [hType]
          rfl
  | cron =>
      rw [hType] at hBuilt
      cases hBuilt
      rw [isIncremental_daily_iff fun text => by
        unfold isRunningMoreOften
        rw [if_pos (.inr hType)]]
      cases fullSchedule.timeOfDay with
      | none =>
          refine ⟨fun _ _ text hText => ?_, fun _ => rfl⟩
          cases hText
      | some carried =>
          refine ⟨fun hParse _ text hText => ?_, fun hSound => ?_⟩
          · cases hText
            exact hParse
          · exact hSound rfl carried rfl
  | other text =>
      rw [hType] at hBuilt
      cases hBuilt

theorem hourly_of_build_none
    (hValid : fullSchedule.validate cron = .ok ())
    (hNone : buildScheduleMoreOftenThan fullSchedule = none) :
    fullSchedule.type = .hourly := by
  unfold buildScheduleMoreOftenThan at hNone
  split at hNone
  · cases hNone
  · cases hNone
  · cases hNone
  · cases hNone
  · next hHourly => exact hHourly
  · next text hOther =>
      unfold Schedule.validate at hValid
      rw [hOther] at hValid
      cases hValid

------------------------------------------------------------
-- Switches
------------------------------------------------------------

/- Some accepted configuration of the type has this value. -/
def Allows
    {α : Type}
    (cron : Cron)
    (backupType : PhysicalBackupType)
    (read : PhysicalBackupConfig → α)
    (value : α) : Prop :=
  ∃ config : PhysicalBackupConfig,
    config.backupType = backupType ∧
      config.validate cron = .ok () ∧ read config = value

/- A value that the new type allows stays. -/
def KeepsAllowed
    {α : Type}
    (cron : Cron)
    (config : PhysicalBackupConfig)
    (backupType : PhysicalBackupType)
    (read : PhysicalBackupConfig → α) : Prop :=
  Allows cron backupType read (read config) →
    read (config.coerceToBackupType cron backupType) =
      read config

structure ChangesNoAllowedField
    (cron : Cron)
    (config : PhysicalBackupConfig)
    (backupType : PhysicalBackupType) : Prop where
  common :
    (config.coerceToBackupType cron backupType).backupConfig =
      config.backupConfig
  fullSchedule :
    (config.coerceToBackupType cron
        backupType).fullBackupSchedule =
      config.fullBackupSchedule
  forceFull :
    (config.coerceToBackupType cron
        backupType).forceFullRequestedAt =
      config.forceFullRequestedAt
  forceIncremental :
    (config.coerceToBackupType cron
        backupType).forceIncrementalRequestedAt =
      config.forceIncrementalRequestedAt
  incrementalSchedule :
    KeepsAllowed cron config backupType
      PhysicalBackupConfig.incrementalBackupSchedule
  policy :
    KeepsAllowed cron config backupType fun config =>
      config.retention.policy
  chainsCount :
    KeepsAllowed cron config backupType fun config =>
      config.retention.chainsCount
  fullBackups :
    KeepsAllowed cron config backupType fun config =>
      config.retention.fullBackups
  walLagThreshold :
    KeepsAllowed cron config backupType
      PhysicalBackupConfig.walLagThresholdBytes

theorem changesNoAllowedField_full
    (cron : Cron)
    (config : PhysicalBackupConfig) :
    ChangesNoAllowedField cron config .full := by
  refine
    { common := rfl
      fullSchedule := rfl
      forceFull := rfl
      forceIncremental := rfl
      incrementalSchedule := ?_
      policy := ?_
      chainsCount := ?_
      fullBackups := ?_
      walLagThreshold := ?_ }
  · rintro ⟨other, hType, hValid, hSame⟩
    have hFits := ((validate_iff_of_full hType).mp hValid).2
    exact hFits.schedule.symm.trans hSame
  · rintro ⟨other, hType, hValid, hSame⟩
    have hFits := ((validate_iff_of_full hType).mp hValid).2
    exact hFits.policy.symm.trans hSame
  · rintro ⟨other, hType, hValid, hSame⟩
    have hFits := ((validate_iff_of_full hType).mp hValid).2
    exact hFits.chains.symm.trans hSame
  · rintro ⟨other, hType, hValid, hSame⟩
    have hFits := ((validate_iff_of_full hType).mp hValid).2
    have hFullBackups := hFits.fullBackups
    dsimp only at hSame
    rw [hSame] at hFullBackups
    exact if_pos (isOk_iff.mpr hFullBackups)
  · rintro ⟨other, hType, hValid, hSame⟩
    have hFits := ((validate_iff_of_full hType).mp hValid).2
    exact hFits.walLag.symm.trans hSame

theorem changesNoAllowedField_incremental
    (hValid : config.validate cron = .ok ())
    (hType : backupType.isRequiringWalSummary = true) :
    ChangesNoAllowedField cron config backupType := by
  have hCoerced :=
    coerceToBackupType_of_incremental cron config hType
  refine
    { common := by rw [hCoerced]
      fullSchedule := by rw [hCoerced]
      forceFull := by rw [hCoerced]
      forceIncremental := by rw [hCoerced]
      incrementalSchedule := ?_
      policy := ?_
      chainsCount := ?_
      fullBackups := ?_
      walLagThreshold := ?_ }
  · rintro ⟨other, rfl, hOther, hSame⟩
    rcases (validate_iff_of_incremental hType).mp hOther with
      ⟨_, _, hSchedule⟩
    rcases validateIncrementalSchedule_iff.mp hSchedule with
      ⟨schedule, hSchedule, _⟩
    rw [hSchedule] at hSame
    rw [hCoerced, ← hSame]
    exact
      coerceIncrementalSchedule_of_isIncremental hSame.symm
        (isIncremental_of_valid hValid hSame.symm)
  · rintro ⟨other, rfl, hOther, hSame⟩
    rcases (validate_iff_of_incremental hType).mp hOther with
      ⟨_, hFits, _⟩
    dsimp only at hSame ⊢
    rw [hCoerced]
    apply PhysicalRetention.coercePolicyForIncremental_of_mem
    rw [← hSame]
    rcases hFits.retention.fullBackups with
      ⟨hPolicy, _⟩ | ⟨hPolicy, _⟩
    · exact .inl hPolicy
    · exact .inr hPolicy
  · rintro ⟨other, rfl, hOther, hSame⟩
    rcases (validate_iff_of_incremental hType).mp hOther with
      ⟨_, hFits, _⟩
    have hPositive := hFits.retention.chains
    dsimp only at hSame ⊢
    rw [hSame] at hPositive
    rw [hCoerced]
    exact if_neg (Int.not_le.mpr hPositive)
  · intro _
    dsimp only
    rw [hCoerced]
    exact
      (PhysicalRetention.coerceForIncremental_of_valid
        (validate_iff.mp hValid).2.2.1).2
  · rintro ⟨other, rfl, hOther, hSame⟩
    rcases (validate_iff_of_incremental hType).mp hOther with
      ⟨_, hFits, _⟩
    have hWalLag := hFits.walLag
    rw [hSame] at hWalLag
    rw [hCoerced]
    exact hWalLag.coerceWalLagThreshold_eq

theorem changesNoAllowedField_of_valid
    (hValid : config.validate cron = .ok ())
    (hType : backupType.isValid = true) :
    ChangesNoAllowedField cron config backupType := by
  cases backupType with
  | full => exact changesNoAllowedField_full cron config
  | fullAndIncremental =>
      exact changesNoAllowedField_incremental hValid rfl
  | fullIncrementalWalStream =>
      exact changesNoAllowedField_incremental hValid rfl
  | other text => cases hType

/-
  The full schedule is hourly, so there is no incremental one.
  Its absence is refused, and any that fits would be accepted.
-/
structure LacksOnlySchedule
    (cron : Cron)
    (config : PhysicalBackupConfig) : Prop where
  hourly : config.fullBackupSchedule.type = .hourly
  none : config.incrementalBackupSchedule = none
  refused :
    config.validate cron =
      .error
        (newInvalidSettingError "incrementalBackupSchedule"
          (.text "is required with incremental backups"))
  alone :
    ∀ schedule,
      IsIncremental cron config.fullBackupSchedule schedule →
        PhysicalBackupConfig.validate cron
            { config with
              incrementalBackupSchedule := some schedule } =
          .ok ()

/- What a switch of an accepted configuration promises. -/
structure Reshapes
    (cron : Cron)
    (config : PhysicalBackupConfig)
    (backupType : PhysicalBackupType) : Prop where
  accepted :
    (config.coerceToBackupType cron backupType).validate
          cron =
        .ok () ∨
      LacksOnlySchedule cron
        (config.coerceToBackupType cron backupType)
  idempotent :
    (config.coerceToBackupType cron
        backupType).coerceToBackupType cron backupType =
      config.coerceToBackupType cron backupType
  fitting :
    PhysicalBackupConfig.validate cron
          { config with backupType := backupType } =
        .ok () →
      config.coerceToBackupType cron backupType =
        { config with backupType := backupType }
  unchanged : ChangesNoAllowedField cron config backupType

/- No schedule is built with a time that does not read. -/
def BuildsWithSoundTime
    (config : PhysicalBackupConfig)
    (backupType : PhysicalBackupType) : Prop :=
  backupType.isRequiringWalSummary = true →
    config.incrementalBackupSchedule = none →
      CarriesSoundTime config.fullBackupSchedule

theorem coerceToBackupType_backupType
    (cron : Cron)
    (config : PhysicalBackupConfig)
    (backupType : PhysicalBackupType) :
    (config.coerceToBackupType cron backupType).backupType =
      backupType := by
  cases backupType with
  | full => rfl
  | fullAndIncremental => rfl
  | fullIncrementalWalStream => rfl
  | other text => rfl

theorem coerceToBackupType_of_fitting
    (hFits :
      PhysicalBackupConfig.validate cron
          { config with backupType := backupType } =
        .ok ()) :
    config.coerceToBackupType cron backupType =
      { config with backupType := backupType } := by
  have hSame :
      config.coerceToBackupType cron backupType =
        PhysicalBackupConfig.coerceToBackupType cron
          { config with backupType := backupType }
          backupType := by
    cases backupType with
    | full => rfl
    | fullAndIncremental => rfl
    | fullIncrementalWalStream => rfl
    | other text => rfl
  rw [hSame]
  exact coerceToBackupType_of_valid hFits

theorem validate_coerce_incremental_iff
    (hValid : config.validate cron = .ok ())
    (hType : backupType.isRequiringWalSummary = true) :
    (config.coerceToBackupType cron backupType).validate
          cron =
        .ok () ↔
      ∃ schedule,
        config.coerceIncrementalSchedule cron =
            some schedule ∧
          IsIncremental cron config.fullBackupSchedule
            schedule := by
  rcases validate_iff.mp hValid with
    ⟨hSound, _, hRetention, _⟩
  have hCoerced :=
    (coerceToBackupType_backupType cron config
      backupType).symm ▸ hType
  have hFits := fitsButSchedule_coerce cron hRetention hType
  rw [validate_iff_of_incremental hCoerced,
    validateIncrementalSchedule_iff]
  have hSchedules :=
    coerceToBackupType_of_incremental cron config hType
  constructor
  · rintro ⟨_, _, hSchedule⟩
    rw [hSchedules] at hSchedule
    exact hSchedule
  · intro hSchedule
    refine ⟨soundForAnyType_coerce hSound backupType, hFits, ?_⟩
    rw [hSchedules]
    exact hSchedule

theorem validate_of_refused_type
    {error : ConfigError}
    (hSound : IsSoundForAnyType cron config)
    (hWalLag : 0 ≤ config.walLagThresholdBytes)
    (hRetention : config.retention.validateRetention = .ok ())
    (hRefused :
      config.validateForBackupType cron = .error error) :
    config.validate cron = .error error := by
  unfold PhysicalBackupConfig.validate
  rw [validateSchedule_iff.mpr hSound.schedule,
    validateWalLagThreshold_iff.mpr hWalLag, hRetention,
    hRefused]
  rfl

theorem lacksOnlySchedule_of_hourly
    (hSound : IsSoundForAnyType cron config)
    (hFits : FitsButSchedule config)
    (hType : config.backupType.isRequiringWalSummary = true)
    (hHourly : config.fullBackupSchedule.type = .hourly)
    (hNone : config.incrementalBackupSchedule = none) :
    LacksOnlySchedule cron config := by
  have hPolicy := hFits.retention.policy_ne
  refine
    { hourly := hHourly
      none := hNone
      refused := ?_
      alone := ?_ }
  · apply
      validate_of_refused_type hSound hFits.walLag.nonneg
        ((validateRetention_iff_of_chains hPolicy).mpr
          hFits.retention)
    rw [validateForBackupType_of_incremental hType]
    unfold PhysicalBackupConfig.validateForIncremental
      PhysicalBackupConfig.validateIncrementalSchedule
    rw [if_neg hPolicy, hNone]
    rfl
  · intro schedule hIncremental
    refine (validate_iff_of_incremental ?_).mpr ?_
    · exact hType
    refine
      ⟨⟨hSound.schedule, hSound.common⟩,
        ⟨hFits.retention, hFits.walLag⟩, ?_⟩
    exact
      validateIncrementalSchedule_iff.mpr
        ⟨schedule, rfl, hIncremental⟩

theorem accepted_of_builds
    (hValid : config.validate cron = .ok ())
    (hType : backupType.isRequiringWalSummary = true)
    (hTime : BuildsWithSoundTime config backupType) :
    (config.coerceToBackupType cron backupType).validate
          cron =
        .ok () ∨
      LacksOnlySchedule cron
        (config.coerceToBackupType cron backupType) := by
  rcases validate_iff.mp hValid with
    ⟨hSound, _, hRetention, _⟩
  cases hSchedule : config.incrementalBackupSchedule with
  | some schedule =>
      have hIncremental :=
        isIncremental_of_valid hValid hSchedule
      apply Or.inl
      apply (validate_coerce_incremental_iff hValid hType).mpr
      exact
        ⟨schedule,
          coerceIncrementalSchedule_of_isIncremental hSchedule
            hIncremental,
          hIncremental⟩
  | none =>
      have hCoerced :
          config.coerceIncrementalSchedule cron =
            buildScheduleMoreOftenThan
              config.fullBackupSchedule := by
        unfold PhysicalBackupConfig.coerceIncrementalSchedule
        rw [hSchedule]
      cases hBuilt :
          buildScheduleMoreOftenThan
            config.fullBackupSchedule with
      | some schedule =>
          apply Or.inl
          apply
            (validate_coerce_incremental_iff hValid hType).mpr
          refine ⟨schedule, hCoerced.trans hBuilt, ?_⟩
          exact
            (isIncremental_of_build_iff hSound.schedule
                hBuilt).mpr
              (hTime hType hSchedule)
      | none =>
          apply Or.inr
          have hReshaped :=
            coerceToBackupType_of_incremental cron config hType
          apply lacksOnlySchedule_of_hourly
          · exact soundForAnyType_coerce hSound backupType
          · exact fitsButSchedule_coerce cron hRetention hType
          · rw [hReshaped]
            exact hType
          · rw [hReshaped]
            exact hourly_of_build_none hSound.schedule hBuilt
          · rw [hReshaped]
            exact hCoerced.trans hBuilt

theorem builds_of_accepted
    (hValid : config.validate cron = .ok ())
    (hAccepted :
      (config.coerceToBackupType cron backupType).validate
            cron =
          .ok () ∨
        LacksOnlySchedule cron
          (config.coerceToBackupType cron backupType)) :
    BuildsWithSoundTime config backupType := by
  intro hType hNone
  have hSound := (validate_iff.mp hValid).1
  have hCoerced :
      config.coerceIncrementalSchedule cron =
        buildScheduleMoreOftenThan
          config.fullBackupSchedule := by
    unfold PhysicalBackupConfig.coerceIncrementalSchedule
    rw [hNone]
  rcases hAccepted with hAccepted | hLacks
  · rcases
      (validate_coerce_incremental_iff hValid hType).mp
        hAccepted with
      ⟨schedule, hBuilt, hIncremental⟩
    rw [hCoerced] at hBuilt
    exact
      (isIncremental_of_build_iff hSound.schedule hBuilt).mp
        hIncremental
  · intro hCron
    have hHourly := hLacks.hourly
    rw [coerceToBackupType_of_incremental cron config hType]
      at hHourly
    rw [hCron] at hHourly
    cases hHourly

/-
  The switch keeps its promises exactly when it does not build
  a schedule from a time of day that a cron schedule carries
  along and that does not read.
-/
theorem reshapes_iff
    (hValid : config.validate cron = .ok ())
    (hType : backupType.isValid = true) :
    Reshapes cron config backupType ↔
      BuildsWithSoundTime config backupType := by
  constructor
  · intro hReshapes
    exact builds_of_accepted hValid hReshapes.accepted
  · intro hTime
    refine
      { accepted := ?_
        idempotent :=
          coerceToBackupType_idempotent config backupType
        fitting := coerceToBackupType_of_fitting
        unchanged :=
          changesNoAllowedField_of_valid hValid hType }
    cases backupType with
    | full =>
        exact
          .inl
            (validate_coerce_full (validate_iff.mp hValid).1)
    | fullAndIncremental =>
        exact accepted_of_builds hValid rfl hTime
    | fullIncrementalWalStream =>
        exact accepted_of_builds hValid rfl hTime
    | other text => cases hType

/- A library that knows one expression, daily at four. -/
def sampleCron : Cron where
  parse expression :=
    if expression = "0 4 * * *" then
      some fun lastRun =>
        let day := 24 * Duration.hour
        let slot := lastRun / day * day + 4 * Duration.hour
        if lastRun < slot then
          some slot
        else
          some (slot + day)
    else
      none

def sampleConfig
    (fullSchedule : Schedule) : PhysicalBackupConfig where
  backupConfig :=
    { cleanup := ⟨0, 0⟩
      storageGeneration := 1
      databaseID := 1
      isBackupsEnabled := true
      storageID := some 2
      encryption := .none
      notificationTriggers := [.backupFailed] }
  backupType := .full
  fullBackupSchedule := fullSchedule
  incrementalBackupSchedule := none
  retention := ⟨.fullBackups, 0, defaultFullBackupsRetention⟩
  walLagThresholdBytes := 0
  forceFullRequestedAt := none
  forceIncrementalRequestedAt := none

theorem reshapes_of_weekly :
    Reshapes sampleCron
        (sampleConfig
          { type := .weekly
            timeOfDay := some "03:15"
            weekday := some 1 })
        .fullIncrementalWalStream ↔
      BuildsWithSoundTime
        (sampleConfig
          { type := .weekly
            timeOfDay := some "03:15"
            weekday := some 1 })
        .fullIncrementalWalStream :=
  reshapes_iff rfl rfl

/- A cron schedule with a time of day that nobody reads. -/
def carryingSchedule : Schedule where
  type := .cron
  timeOfDay := some "4 am"
  cronExpression := some "0 4 * * *"

theorem carried_time_spoils_switch :
    (sampleConfig carryingSchedule).validate sampleCron =
        .ok () ∧
      ((sampleConfig carryingSchedule).coerceToBackupType
            sampleCron .fullAndIncremental).validate
          sampleCron =
        .error
          (newInvalidSettingError
            "incrementalBackupSchedule.timeOfDay"
            (.schedule .invalidTimeOfDay)) ∧
        ¬ Reshapes sampleCron (sampleConfig carryingSchedule)
          .fullAndIncremental := by
  have hRefused :
      ((sampleConfig carryingSchedule).coerceToBackupType
            sampleCron .fullAndIncremental).validate
          sampleCron =
        .error
          (newInvalidSettingError
            "incrementalBackupSchedule.timeOfDay"
            (.schedule .invalidTimeOfDay)) := rfl
  refine ⟨rfl, hRefused, ?_⟩
  intro hReshapes
  rcases hReshapes.accepted with hAccepted | hLacks
  · rw [hRefused] at hAccepted
    cases hAccepted
  · cases hLacks.hourly

------------------------------------------------------------
-- Defaults
------------------------------------------------------------

def newDailySchedule : Schedule where
  type := .daily
  timeOfDay := some defaultTimeOfDay

/- It is fitted to the type as a saved one is. -/
def newDefaultPhysicalBackupConfig
    (cron : Cron)
    (databaseID : Uuid)
    (backupType : PhysicalBackupType) :
    PhysicalBackupConfig :=
  let defaultConfig : PhysicalBackupConfig :=
    { backupConfig :=
        { cleanup := ⟨0, 0⟩
          storageGeneration := 0
          databaseID := databaseID
          isBackupsEnabled := false
          storageID := none
          encryption := .none
          notificationTriggers :=
            getPhysicalNotificationTriggers }
      backupType := backupType
      fullBackupSchedule := newDailySchedule
      incrementalBackupSchedule := none
      retention :=
        ⟨.fullBackups, 0, defaultFullBackupsRetention⟩
      walLagThresholdBytes := 0
      forceFullRequestedAt := none
      forceIncrementalRequestedAt := none }
  defaultConfig.coerceToBackupType cron backupType

theorem validate_newDefaultPhysicalBackupConfig
    (cron : Cron)
    (databaseID : Uuid)
    (hType : backupType.isValid = true) :
    (newDefaultPhysicalBackupConfig cron databaseID
          backupType).validate cron =
        .ok () := by
  cases backupType with
  | full => rfl
  | fullAndIncremental => rfl
  | fullIncrementalWalStream => rfl
  | other text => cases hType

end Config

end Databasus
