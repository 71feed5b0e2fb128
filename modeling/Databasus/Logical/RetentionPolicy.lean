import Databasus.Gfs.CoarsestWindow
import Databasus.Logical.Backup

/-
  Which logical backups of a database a retention gives up.

  A retention keeps backups for a period, keeps the newest of
  them up to a count, or keeps them by grandfather-father-son
  tiers.  Whatever it says, a recent backup stays.  The period
  gives up backups of any status, the others completed ones.

  Main declarations:
    * `LogicalRetention.isValid`
    * `getExpiredBackups`
    * `pass`
    * `Promises`
    * `promises_kept_iff`
-/

------------------------------------------------------------
-- Retentions
------------------------------------------------------------

namespace Databasus

namespace Logical

open Gfs (GfsRetention Item getItemsToRetain)

inductive LogicalRetentionPolicy
  | timePeriod
  | count
  | gfs
  | other (text : String)
deriving DecidableEq, Repr

inductive RetentionPeriod
  | day
  | week
  | month
  | threeMonths
  | sixMonths
  | year
  | twoYears
  | threeYears
  | fourYears
  | fiveYears
  | forever
  | other (text : String)
deriving DecidableEq, Repr

def daysInMonth : Int := 30

def daysInYear : Int := 365

/- Zero keeps every backup. -/
def RetentionPeriod.getDuration :
    RetentionPeriod → Duration
  | .day => 24 * Duration.hour
  | .week => 7 * (24 * Duration.hour)
  | .month => daysInMonth * (24 * Duration.hour)
  | .threeMonths => 3 * daysInMonth * (24 * Duration.hour)
  | .sixMonths => 6 * daysInMonth * (24 * Duration.hour)
  | .year => daysInYear * (24 * Duration.hour)
  | .twoYears => 2 * daysInYear * (24 * Duration.hour)
  | .threeYears => 3 * daysInYear * (24 * Duration.hour)
  | .fourYears => 4 * daysInYear * (24 * Duration.hour)
  | .fiveYears => 5 * daysInYear * (24 * Duration.hour)
  | .forever => 0
  | .other _ => 0

def RetentionPeriod.isValid : RetentionPeriod → Bool
  | .other _ => false
  | _ => true

structure LogicalRetention where
  policy : LogicalRetentionPolicy
  period : RetentionPeriod
  count : Int
  gfs : GfsRetention
deriving DecidableEq, Repr

/- The field that validation refuses, and why. -/
structure InvalidSettingError where
  field : String
  message : String
deriving DecidableEq, Repr

def LogicalRetention.validateRetention
    (retention : LogicalRetention) :
    Option InvalidSettingError :=
  if retention.period.isValid = false then
    some ⟨"retention.period", "is not a retention period"⟩
  else
    match retention.policy with
    | .timePeriod => none
    | .count =>
        if retention.count ≤ 0 then
          some ⟨"retention.count", "must be greater than 0"⟩
        else
          none
    | .gfs =>
        if retention.gfs.hasAnyPeriod = false then
          some
            ⟨"retention",
              "must keep at least one GFS period"⟩
        else
          none
    | .other _ =>
        some ⟨"retention.policy", "is not a retention policy"⟩

------------------------------------------------------------
-- Expired Backups
------------------------------------------------------------

open Foundation (Location)

def recentBackupShield : Duration := Duration.hour

def getCompletedBackups
    (databaseBackups : List LogicalBackup) :
    List LogicalBackup :=
  databaseBackups.filter fun backup =>
    backup.status = .completed

def getDroppedByTimePeriod
    (period : RetentionPeriod)
    (databaseBackups : List LogicalBackup)
    (now : Time) : List LogicalBackup :=
  let periodDuration := period.getDuration
  if periodDuration = 0 then
    []
  else
    let cutoff := now + -periodDuration
    databaseBackups.filter fun backup =>
      backup.createdAt < cutoff

def getDroppedByCount
    (count : Int)
    (databaseBackups : List LogicalBackup) :
    List LogicalBackup :=
  if count ≤ 0 then
    []
  else
    let completedBackups :=
      getCompletedBackups databaseBackups
    if completedBackups.length ≤ count then
      []
    else
      completedBackups.drop count.toNat

def LogicalBackup.gfsItem (backup : LogicalBackup) : Item where
  id := backup.id
  createdAt := backup.createdAt

variable (location : Location)

def getDroppedByGfs
    (gfsRetention : GfsRetention)
    (databaseBackups : List LogicalBackup) :
    List LogicalBackup :=
  if gfsRetention.hasAnyPeriod = false then
    []
  else
    let completedBackups :=
      getCompletedBackups databaseBackups
    let gfsItems :=
      completedBackups.map LogicalBackup.gfsItem
    let retainedTiers :=
      getItemsToRetain location gfsItems gfsRetention
    completedBackups.filter fun backup =>
      (retainedTiers backup.id).length = 0

def getDroppedBackups
    (retention : LogicalRetention)
    (databaseBackups : List LogicalBackup)
    (now : Time) : List LogicalBackup :=
  match retention.policy with
  | .count => getDroppedByCount retention.count databaseBackups
  | .gfs =>
      getDroppedByGfs location retention.gfs databaseBackups
  | .timePeriod =>
      getDroppedByTimePeriod retention.period databaseBackups
        now
  | .other _ => []

/- `databaseBackups` is newest first. -/
def getExpiredBackups
    (retention : LogicalRetention)
    (databaseBackups : List LogicalBackup)
    (now : Time) : List LogicalBackup :=
  (getDroppedBackups location retention databaseBackups
      now).filter fun backup =>
    recentBackupShield ≤ now - backup.createdAt

/- A pass that deletes every expired backup. -/
def pass
    (retention : LogicalRetention)
    (now : Time)
    (databaseBackups : List LogicalBackup) :
    List LogicalBackup :=
  let expiredIDs :=
    (getExpiredBackups location retention databaseBackups
      now).map LogicalBackup.id
  databaseBackups.filter fun backup =>
    backup.id ∉ expiredIDs

------------------------------------------------------------
-- Passes and New Backups
------------------------------------------------------------

open Gfs (GfsRetention Item getItemsToRetain isRetained)

/- The backups of a database as they are listed. -/
structure IsListing
    (databaseBackups : List LogicalBackup) : Prop where
  newestFirst :
    databaseBackups.Pairwise fun first second =>
      second.createdAt ≤ first.createdAt
  distinct : (databaseBackups.map LogicalBackup.id).Nodup

variable (location : Location)
variable (retention : LogicalRetention)

/- What passes and new backups make of a database's backups. -/
inductive Reached : List LogicalBackup → Time → Prop
  | started
      {databaseBackups : List LogicalBackup}
      (hListing : IsListing databaseBackups)
      (now : Time) :
      Reached databaseBackups now
  | added
      {databaseBackups more : List LogicalBackup}
      {now : Time}
      (hReached : Reached databaseBackups now)
      (hOld : databaseBackups.Sublist more)
      (hListing : IsListing more) :
      Reached more now
  | passed
      {databaseBackups : List LogicalBackup}
      {now later : Time}
      (hReached : Reached databaseBackups now)
      (hLater : now ≤ later) :
      Reached (pass location retention later databaseBackups)
        later

/- What a pass at an instant is to keep to. -/
structure Promises
    (databaseBackups : List LogicalBackup)
    (now : Time) : Prop where
  shielded :
    ∀ backup ∈
      getExpiredBackups location retention databaseBackups now,
      recentBackupShield ≤ now - backup.createdAt
  completed_only :
    retention.policy ≠ .timePeriod →
      ∀ backup ∈
        getExpiredBackups location retention databaseBackups
          now,
        backup.status = .completed
  counted_kept :
    retention.policy = .count →
      ∀ backup ∈
        (getCompletedBackups databaseBackups).take
          retention.count.toNat,
        backup ∉
          getExpiredBackups location retention databaseBackups
            now
  tiers_kept :
    retention.policy = .gfs →
      ∀ backup ∈
        getExpiredBackups location retention databaseBackups
          now,
        getItemsToRetain location
            ((getCompletedBackups databaseBackups).map
              LogicalBackup.gfsItem) retention.gfs backup.id =
          []
  newest_kept :
    retention.policy ≠ .timePeriod →
      getCompletedBackups databaseBackups ≠ [] →
        ∃ newest ∈ getCompletedBackups databaseBackups,
          (∀ other ∈ getCompletedBackups databaseBackups,
            other.createdAt ≤ newest.createdAt) ∧
            newest ∈
              pass location retention now databaseBackups
  settled :
    getExpiredBackups location retention
        (pass location retention now databaseBackups) now =
      []
  not_eroded :
    ∀ later, now ≤ later →
      pass location retention later
          (pass location retention now databaseBackups) =
        pass location retention later databaseBackups

------------------------------------------------------------
-- Dropped Backups
------------------------------------------------------------

variable {location}
variable {retention}
variable {databaseBackups : List LogicalBackup}
variable {now : Time}
variable {backup : LogicalBackup}

theorem IsListing.sublist
    {kept : List LogicalBackup}
    (hListing : IsListing databaseBackups)
    (hKept : kept.Sublist databaseBackups) :
    IsListing kept :=
  ⟨hListing.newestFirst.sublist hKept,
    hListing.distinct.sublist
      (hKept.map LogicalBackup.id)⟩

theorem pass_sublist
    (location : Location)
    (retention : LogicalRetention)
    (databaseBackups : List LogicalBackup)
    (now : Time) :
    (pass location retention now databaseBackups).Sublist
      databaseBackups :=
  List.filter_sublist

/- Whatever happens, the backups are listed newest first. -/
theorem Reached.isListing
    (hReached :
      Reached location retention databaseBackups now) :
    IsListing databaseBackups := by
  induction hReached with
  | started hListing now => exact hListing
  | added hReached hOld hListing ih => exact hListing
  | passed hReached hLater ih =>
      exact ih.sublist (pass_sublist _ _ _ _)

theorem mem_of_mem_completed
    (hBackup : backup ∈ getCompletedBackups databaseBackups) :
    backup ∈ databaseBackups ∧ backup.status = .completed := by
  rcases List.mem_filter.mp hBackup with ⟨hMember, hStatus⟩
  exact ⟨hMember, of_decide_eq_true hStatus⟩

theorem getCompletedBackups_filter
    (keeps : LogicalBackup → Bool)
    (databaseBackups : List LogicalBackup) :
    getCompletedBackups (databaseBackups.filter keeps) =
      (getCompletedBackups databaseBackups).filter keeps := by
  unfold getCompletedBackups
  exact List.filter_comm _ _ _

theorem completed_of_dropped
    (hPolicy : retention.policy ≠ .timePeriod)
    (hDropped :
      backup ∈
        getDroppedBackups location retention databaseBackups
          now) :
    backup ∈ getCompletedBackups databaseBackups := by
  unfold getDroppedBackups at hDropped
  split at hDropped
  · unfold getDroppedByCount at hDropped
    split at hDropped
    · cases hDropped
    · dsimp only at hDropped
      split at hDropped
      · cases hDropped
      · exact List.mem_of_mem_drop hDropped
  · unfold getDroppedByGfs at hDropped
    split at hDropped
    · cases hDropped
    · exact (List.mem_filter.mp hDropped).1
  · next hPeriod => exact absurd hPeriod hPolicy
  · cases hDropped

/- More time drops no less. -/
theorem getDroppedBackups_subset
    {now later : Int}
    (hLater : now ≤ later) :
    getDroppedBackups location retention databaseBackups now ⊆
      getDroppedBackups location retention databaseBackups
        later := by
  intro backup hDropped
  unfold getDroppedBackups at hDropped ⊢
  split at hDropped
  · exact hDropped
  · exact hDropped
  · unfold getDroppedByTimePeriod at hDropped ⊢
    dsimp only at hDropped ⊢
    split at hDropped
    · cases hDropped
    · next hPeriod =>
        rcases List.mem_filter.mp hDropped with
          ⟨hMember, hBefore⟩
        have hEarlier := of_decide_eq_true hBefore
        rw [if_neg hPeriod]
        apply List.mem_filter.mpr
        refine ⟨hMember, decide_eq_true ?_⟩
        unfold Time Duration at *
        omega
  · cases hDropped

theorem getExpiredBackups_subset
    (location : Location)
    (retention : LogicalRetention)
    (databaseBackups : List LogicalBackup)
    {now later : Int}
    (hLater : now ≤ later) :
    getExpiredBackups location retention databaseBackups now ⊆
      getExpiredBackups location retention databaseBackups
        later := by
  intro backup hExpired
  rcases List.mem_filter.mp hExpired with
    ⟨hDropped, hShield⟩
  have hOld := of_decide_eq_true hShield
  apply List.mem_filter.mpr
  refine
    ⟨getDroppedBackups_subset hLater hDropped,
      decide_eq_true ?_⟩
  unfold Time Duration at *
  omega

/- Of a count, the newest ones stay where they are. -/
theorem getDroppedByCount_filter
    (count : Int)
    (keeps : LogicalBackup → Bool)
    (hKept :
      ∀ backup ∈
        (getCompletedBackups databaseBackups).take
          count.toNat, keeps backup = true) :
    getDroppedByCount count (databaseBackups.filter keeps) =
      (getDroppedByCount count databaseBackups).filter
        keeps := by
  unfold getDroppedByCount
  by_cases hCount : count ≤ 0
  · rw [if_pos hCount, if_pos hCount]
    rfl
  · rw [if_neg hCount, if_neg hCount,
      getCompletedBackups_filter]
    dsimp only
    generalize getCompletedBackups databaseBackups = completed
      at hKept ⊢
    have hSplit := List.take_append_drop count.toNat completed
    have hFiltered :
        completed.filter keeps =
          completed.take count.toNat ++
            (completed.drop count.toNat).filter keeps := by
      conv_lhs => rw [← hSplit]
      rw [List.filter_append, List.filter_eq_self.mpr hKept]
    by_cases hFew : (completed.length : Int) ≤ count
    · have hFewer :
          ((completed.filter keeps).length : Int) ≤ count := by
        have hLe := List.length_filter_le keeps completed
        omega
      rw [if_pos hFew, if_pos hFewer]
      rfl
    · have hTake :
          (completed.take count.toNat).length =
            count.toNat := by
        rw [List.length_take]
        omega
      rw [if_neg hFew]
      by_cases hFewer :
          ((completed.filter keeps).length : Int) ≤ count
      · have hNone :
            (completed.drop count.toNat).filter keeps =
              [] := by
          rw [hFiltered, List.length_append, hTake] at hFewer
          apply List.length_eq_zero_iff.mp
          omega
        rw [if_pos hFewer, hNone]
      · rw [if_neg hFewer, hFiltered,
          List.drop_append_of_le_length (by omega),
          List.drop_of_length_le (by omega), List.nil_append]

/- The backups that are not removed, by their ids. -/
def remains
    (removedIDs : List Uuid)
    (backup : LogicalBackup) : Bool :=
  decide (backup.id ∉ removedIDs)

theorem pass_eq
    (location : Location)
    (retention : LogicalRetention)
    (now : Time)
    (databaseBackups : List LogicalBackup) :
    pass location retention now databaseBackups =
      databaseBackups.filter
        (remains
          ((getExpiredBackups location retention
            databaseBackups now).map LogicalBackup.id)) :=
  rfl

theorem getDroppedByGfs_filter
    (gfsRetention : GfsRetention)
    (removedIDs : List Uuid)
    (hRemoved :
      ∀ backup ∈ getCompletedBackups databaseBackups,
        backup.id ∈ removedIDs →
          backup ∈
            getDroppedByGfs location gfsRetention
              databaseBackups) :
    getDroppedByGfs location gfsRetention
        (databaseBackups.filter (remains removedIDs)) =
      (getDroppedByGfs location gfsRetention
        databaseBackups).filter (remains removedIDs) := by
  unfold getDroppedByGfs at hRemoved ⊢
  by_cases hAny : gfsRetention.hasAnyPeriod = false
  · rw [if_pos hAny, if_pos hAny]
    rfl
  · rw [if_neg hAny] at hRemoved ⊢
    rw [if_neg hAny, getCompletedBackups_filter]
    dsimp only at hRemoved ⊢
    generalize getCompletedBackups databaseBackups = completed
      at hRemoved ⊢
    have hItems :
        (completed.filter (remains removedIDs)).map
            LogicalBackup.gfsItem =
          (completed.map LogicalBackup.gfsItem).filter
            fun item => decide (item.id ∉ removedIDs) := by
      rw [List.filter_map]
      rfl
    have hTiers :=
      @Gfs.getItemsToRetain_filter_of_retained location
        gfsRetention (completed.map LogicalBackup.gfsItem)
        (Bool.eq_true_of_not_eq_false hAny)
        (fun item => decide (item.id ∉ removedIDs)) ?_
    · rw [hItems, hTiers]
      exact List.filter_comm _ _ _
    · intro item hItem hRetained
      rcases List.mem_map.mp hItem with ⟨backup, hBackup, rfl⟩
      apply decide_eq_true
      intro hGone
      have hDropped := hRemoved backup hBackup hGone
      have hNone :
          getItemsToRetain location
              (completed.map LogicalBackup.gfsItem)
              gfsRetention backup.gfsItem.id = [] :=
        List.length_eq_zero_iff.mp
          (of_decide_eq_true (List.mem_filter.mp hDropped).2)
      unfold isRetained at hRetained
      rw [hNone] at hRetained
      cases hRetained

/- The counted backups are none of those behind them. -/
theorem not_dropped_of_counted
    (hDistinct :
      (databaseBackups.map LogicalBackup.id).Nodup)
    (count : Int) :
    ∀ backup ∈
      (getCompletedBackups databaseBackups).take count.toNat,
      backup ∉ getDroppedByCount count databaseBackups := by
  intro backup hCounted hDropped
  unfold getDroppedByCount at hDropped
  split at hDropped
  · cases hDropped
  · dsimp only at hDropped
    split at hDropped
    · cases hDropped
    · have hNodup :
          (getCompletedBackups databaseBackups).Nodup :=
        (List.Nodup.of_map _ hDistinct).filter _
      rw [← List.take_append_drop count.toNat
        (getCompletedBackups databaseBackups)] at hNodup
      exact
        (List.nodup_append.mp hNodup).2.2 backup hCounted
          backup hDropped rfl

/- Backups that were dropped can be removed. -/
theorem getDroppedBackups_filter
    (hDistinct :
      (databaseBackups.map LogicalBackup.id).Nodup)
    (removedIDs : List Uuid)
    (hRemoved :
      ∀ backup ∈ databaseBackups,
        backup.id ∈ removedIDs →
          backup ∈
            getDroppedBackups location retention
              databaseBackups now)
    (later : Time) :
    getDroppedBackups location retention
        (databaseBackups.filter (remains removedIDs)) later =
      (getDroppedBackups location retention databaseBackups
        later).filter (remains removedIDs) := by
  unfold getDroppedBackups at hRemoved ⊢
  cases hPolicy : retention.policy with
  | count =>
      simp only [hPolicy] at hRemoved
      apply getDroppedByCount_filter
      intro backup hCounted
      apply decide_eq_true
      intro hGone
      have hMember :=
        (mem_of_mem_completed
          (List.mem_of_mem_take hCounted)).1
      exact
        not_dropped_of_counted hDistinct _ backup hCounted
          (hRemoved backup hMember hGone)
  | gfs =>
      simp only [hPolicy] at hRemoved
      apply getDroppedByGfs_filter
      intro backup hBackup hGone
      exact
        hRemoved backup (mem_of_mem_completed hBackup).1 hGone
  | timePeriod =>
      simp only
      unfold getDroppedByTimePeriod
      dsimp only
      split
      · rfl
      · exact List.filter_comm _ _ _
  | other text => rfl

theorem mem_of_expired
    (hExpired :
      backup ∈
        getExpiredBackups location retention databaseBackups
          now) :
    backup ∈ databaseBackups := by
  have hDropped := (List.mem_filter.mp hExpired).1
  by_cases hPolicy : retention.policy = .timePeriod
  · unfold getDroppedBackups at hDropped
    rw [hPolicy] at hDropped
    simp only at hDropped
    unfold getDroppedByTimePeriod at hDropped
    dsimp only at hDropped
    split at hDropped
    · cases hDropped
    · exact (List.mem_filter.mp hDropped).1
  · exact
      (mem_of_mem_completed
        (completed_of_dropped hPolicy hDropped)).1

/- An id names one backup of a listing. -/
theorem mem_ids_iff
    (hDistinct :
      (databaseBackups.map LogicalBackup.id).Nodup)
    {some : List LogicalBackup}
    (hSome : some ⊆ databaseBackups)
    {backup : LogicalBackup}
    (hBackup : backup ∈ databaseBackups) :
    backup.id ∈ some.map LogicalBackup.id ↔
      backup ∈ some := by
  constructor
  · intro hID
    rcases List.mem_map.mp hID with ⟨other, hOther, hSame⟩
    have hEq :=
      List.inj_on_of_nodup_map hDistinct (hSome hOther)
        hBackup hSame
    rw [← hEq]
    exact hOther
  · intro hMember
    exact List.mem_map_of_mem hMember

/- What a pass leaves behind loses nothing but what it lost. -/
theorem getExpiredBackups_pass
    (location : Location)
    (retention : LogicalRetention)
    (hDistinct :
      (databaseBackups.map LogicalBackup.id).Nodup)
    (now later : Time) :
    getExpiredBackups location retention
        (pass location retention now databaseBackups) later =
      (getExpiredBackups location retention databaseBackups
        later).filter
        (remains
          ((getExpiredBackups location retention
            databaseBackups now).map LogicalBackup.id)) := by
  have hRemoved :
      ∀ backup ∈ databaseBackups,
        backup.id ∈
            (getExpiredBackups location retention
              databaseBackups now).map LogicalBackup.id →
          backup ∈
            getDroppedBackups location retention
              databaseBackups now := by
    intro backup hBackup hID
    have hExpired :=
      (mem_ids_iff hDistinct
        (fun _ hOther => mem_of_expired hOther) hBackup).mp hID
    exact (List.mem_filter.mp hExpired).1
  have hDropped :=
    getDroppedBackups_filter hDistinct _ hRemoved later
  unfold getExpiredBackups at hDropped ⊢
  have hPass := pass_eq location retention now databaseBackups
  unfold getExpiredBackups at hPass
  rw [hPass, hDropped]
  exact List.filter_comm _ _ _

theorem settled_after_pass
    (hDistinct :
      (databaseBackups.map LogicalBackup.id).Nodup)
    (now : Time) :
    getExpiredBackups location retention
        (pass location retention now databaseBackups) now =
      [] := by
  rw [getExpiredBackups_pass location retention hDistinct,
    List.filter_eq_nil_iff]
  intro backup hExpired hRemains
  exact
    of_decide_eq_true hRemains
      (List.mem_map_of_mem hExpired)

/- A pass takes nothing that a later one would have kept. -/
theorem pass_pass
    (hDistinct :
      (databaseBackups.map LogicalBackup.id).Nodup)
    {now later : Int}
    (hLater : now ≤ later) :
    pass location retention later
        (pass location retention now databaseBackups) =
      pass location retention later databaseBackups := by
  have hExpired :=
    getExpiredBackups_pass location retention hDistinct now
      later
  have hMore :=
    getExpiredBackups_subset location retention
      databaseBackups hLater
  rw [pass_eq location retention later
      (pass location retention now databaseBackups), hExpired,
    pass_eq location retention now, pass_eq _ _ later,
    List.filter_filter]
  apply List.filter_congr
  intro backup hBackup
  unfold remains
  rw [← Bool.decide_and, decide_eq_decide]
  constructor
  · rintro ⟨hNotLater, hNotNow⟩ hGone
    apply hNotLater
    rcases List.mem_map.mp hGone with ⟨other, hOther, hSame⟩
    refine
      List.mem_map.mpr
        ⟨other, List.mem_filter.mpr ⟨hOther, ?_⟩, hSame⟩
    apply decide_eq_true
    rw [hSame]
    exact hNotNow
  · intro hKept
    refine ⟨?_, ?_⟩
    · intro hGone
      apply hKept
      rcases List.mem_map.mp hGone with ⟨other, hOther, hSame⟩
      exact
        List.mem_map.mpr
          ⟨other, (List.mem_filter.mp hOther).1, hSame⟩
    · intro hGone
      apply hKept
      rcases List.mem_map.mp hGone with ⟨other, hOther, hSame⟩
      exact List.mem_map.mpr ⟨other, hMore hOther, hSame⟩

------------------------------------------------------------
-- The Newest Completed Backup
------------------------------------------------------------

/- A completed backup as new as any, that is not dropped. -/
def KeepsNewest
    (location : Location)
    (retention : LogicalRetention)
    (databaseBackups : List LogicalBackup)
    (now : Time) : Prop :=
  ∃ newest ∈ getCompletedBackups databaseBackups,
    (∀ other ∈ getCompletedBackups databaseBackups,
      other.createdAt ≤ newest.createdAt) ∧
      newest ∉
        getDroppedBackups location retention databaseBackups
          now

theorem keepsNewest_count
    (location : Location)
    (hListing : IsListing databaseBackups)
    (hPolicy : retention.policy = .count)
    (hCount : 0 < retention.count)
    (hSome : getCompletedBackups databaseBackups ≠ [])
    (now : Time) :
    KeepsNewest location retention databaseBackups now := by
  have hSorted :
      (getCompletedBackups databaseBackups).Pairwise
        fun first second =>
          second.createdAt ≤ first.createdAt :=
    hListing.newestFirst.sublist List.filter_sublist
  have hCounted :=
    not_dropped_of_counted hListing.distinct retention.count
  unfold KeepsNewest getDroppedBackups
  rw [hPolicy]
  simp only
  cases hCompleted : getCompletedBackups databaseBackups with
  | nil => exact absurd hCompleted hSome
  | cons newest older =>
      rw [hCompleted] at hSorted hCounted
      refine ⟨newest, List.mem_cons_self, ?_, ?_⟩
      · intro other hOther
        rcases List.mem_cons.mp hOther with rfl | hOlder
        · exact Int.le_refl _
        · exact List.rel_of_pairwise_cons hSorted hOlder
      · apply hCounted
        have hPositive : retention.count.toNat ≠ 0 := by omega
        rcases Nat.exists_eq_succ_of_ne_zero hPositive with
          ⟨more, hMore⟩
        rw [hMore, List.take_succ_cons]
        exact List.mem_cons_self

theorem keepsNewest_gfs
    (location : Location)
    (hPolicy : retention.policy = .gfs)
    (hAny : retention.gfs.hasAnyPeriod = true)
    (hBack : retention.gfs.ReachesBack)
    (hSome : getCompletedBackups databaseBackups ≠ [])
    (now : Time) :
    KeepsNewest location retention databaseBackups now := by
  unfold KeepsNewest getDroppedBackups
  rw [hPolicy]
  simp only
  unfold getDroppedByGfs
  rw [hAny]
  dsimp only
  generalize getCompletedBackups databaseBackups = completed
    at hSome ⊢
  rw [if_neg (by decide)]
  cases hItems :
      Gfs.sortNewestFirst
        (completed.map LogicalBackup.gfsItem) with
  | nil =>
      exfalso
      apply hSome
      rw [← List.map_eq_nil_iff (f := LogicalBackup.gfsItem)]
      apply List.eq_nil_iff_forall_not_mem.mpr
      intro item hItem
      rw [← Gfs.mem_sortNewestFirst, hItems] at hItem
      exact absurd hItem List.not_mem_nil
  | cons newestItem older =>
      have hRetained :=
        Gfs.newest_isRetained location hBack hAny hItems
      rcases Gfs.le_newest hItems with ⟨hMember, hNewest⟩
      rcases List.mem_map.mp hMember with
        ⟨newest, hCompleted, rfl⟩
      refine ⟨newest, hCompleted, ?_, ?_⟩
      · intro other hOther
        exact hNewest other.gfsItem (List.mem_map_of_mem hOther)
      · intro hDropped
        have hNone :
            getItemsToRetain location
                (completed.map LogicalBackup.gfsItem)
                retention.gfs newest.gfsItem.id = [] :=
          List.length_eq_zero_iff.mp
            (of_decide_eq_true
              (List.mem_filter.mp hDropped).2)
        unfold isRetained at hRetained
        rw [hNone] at hRetained
        cases hRetained

theorem KeepsNewest.in_pass
    (hDistinct :
      (databaseBackups.map LogicalBackup.id).Nodup)
    (hKeeps :
      KeepsNewest location retention databaseBackups now) :
    ∃ newest ∈ getCompletedBackups databaseBackups,
      (∀ other ∈ getCompletedBackups databaseBackups,
        other.createdAt ≤ newest.createdAt) ∧
        newest ∈
          pass location retention now databaseBackups := by
  rcases hKeeps with ⟨newest, hCompleted, hNewest, hKept⟩
  refine ⟨newest, hCompleted, hNewest, ?_⟩
  have hMember := (mem_of_mem_completed hCompleted).1
  rw [pass_eq]
  apply List.mem_filter.mpr
  refine ⟨hMember, decide_eq_true ?_⟩
  intro hGone
  have hExpired :=
    (mem_ids_iff hDistinct
      (fun _ hOther => mem_of_expired hOther) hMember).mp hGone
  exact hKept (List.mem_filter.mp hExpired).1

------------------------------------------------------------
-- Promises
------------------------------------------------------------

/- The window of the coarsest tier in use goes back in time. -/
def LogicalRetention.KeepsItsNewest
    (retention : LogicalRetention) : Prop :=
  retention.policy = .gfs → retention.gfs.ReachesBack

theorem keepsNewest_of_valid
    (location : Location)
    (hValid : retention.validateRetention = none)
    (hWindow : retention.KeepsItsNewest)
    (hListing : IsListing databaseBackups)
    (hPolicy : retention.policy ≠ .timePeriod)
    (hSome : getCompletedBackups databaseBackups ≠ [])
    (now : Time) :
    KeepsNewest location retention databaseBackups now := by
  unfold LogicalRetention.validateRetention at hValid
  split at hValid
  · cases hValid
  · split at hValid
    · next hPeriod => exact absurd hPeriod hPolicy
    · next hCount =>
        split at hValid
        · cases hValid
        · next hPositive =>
            exact
              keepsNewest_count location hListing hCount
                (Int.not_le.mp hPositive) hSome now
    · next hGfs =>
        split at hValid
        · cases hValid
        · next hAny =>
            exact
              keepsNewest_gfs location hGfs
                (Bool.eq_true_of_not_eq_false hAny)
                (hWindow hGfs) hSome now
    · cases hValid

theorem promises_of_listing
    (location : Location)
    (hValid : retention.validateRetention = none)
    (hWindow : retention.KeepsItsNewest)
    (hListing : IsListing databaseBackups)
    (now : Time) :
    Promises location retention databaseBackups now := by
  refine
    { shielded := ?_
      completed_only := ?_
      counted_kept := ?_
      tiers_kept := ?_
      newest_kept := ?_
      settled := settled_after_pass hListing.distinct now
      not_eroded :=
        fun _ hLater => pass_pass hListing.distinct hLater }
  · intro backup hExpired
    exact of_decide_eq_true (List.mem_filter.mp hExpired).2
  · intro hPolicy backup hExpired
    have hDropped := (List.mem_filter.mp hExpired).1
    exact
      (mem_of_mem_completed
        (completed_of_dropped hPolicy hDropped)).2
  · intro hPolicy backup hCounted hExpired
    have hDropped := (List.mem_filter.mp hExpired).1
    unfold getDroppedBackups at hDropped
    rw [hPolicy] at hDropped
    exact
      not_dropped_of_counted hListing.distinct retention.count
        backup hCounted hDropped
  · intro hPolicy backup hExpired
    have hDropped := (List.mem_filter.mp hExpired).1
    unfold getDroppedBackups at hDropped
    rw [hPolicy] at hDropped
    simp only at hDropped
    unfold getDroppedByGfs at hDropped
    split at hDropped
    · cases hDropped
    · exact
        List.length_eq_zero_iff.mp
          (of_decide_eq_true (List.mem_filter.mp hDropped).2)
  · intro hPolicy hSome
    exact
      (keepsNewest_of_valid location hValid hWindow hListing
        hPolicy hSome now).in_pass hListing.distinct

/- A completed backup, alone in its database. -/
def loneBackup : LogicalBackup where
  id := 1
  databaseID := 1
  storageID := 1
  fileName := "lone"
  status := .completed
  createdAt := 0

theorem loneBackup_isListing : IsListing [loneBackup] := by
  refine ⟨List.pairwise_singleton _ _, ?_⟩
  exact List.nodup_singleton _

/- Without such a window the lone backup is given up. -/
theorem pass_loneBackup
    (location : Location)
    (hPolicy : retention.policy = .gfs)
    (hAny : retention.gfs.hasAnyPeriod = true)
    (hBack : ¬ retention.gfs.ReachesBack) :
    pass location retention Duration.hour [loneBackup] =
      [] := by
  have hDropped :
      getDroppedBackups location retention [loneBackup]
          Duration.hour =
        [loneBackup] := by
    unfold getDroppedBackups
    rw [hPolicy]
    simp only
    unfold getDroppedByGfs
    rw [hAny, if_neg (by decide)]
    have hCompleted :
        getCompletedBackups [loneBackup] = [loneBackup] := rfl
    rw [hCompleted]
    dsimp only
    rw [List.filter_eq_self]
    intro backup _
    rw [Gfs.getItemsToRetain_eq_nil hBack]
    rfl
  have hExpired :
      getExpiredBackups location retention [loneBackup]
          Duration.hour =
        [loneBackup] := by
    unfold getExpiredBackups
    rw [hDropped]
    rfl
  rw [pass_eq, hExpired]
  rfl

/-
  In every run of passes and new backups a pass keeps to all of
  this, exactly when a GFS retention has a coarsest window that
  goes back in time.
-/
theorem promises_kept_iff
    (location : Location)
    {retention : LogicalRetention}
    (hValid : retention.validateRetention = none) :
    (∀ databaseBackups now,
      Reached location retention databaseBackups now →
        ∀ later, now ≤ later →
          Promises location retention databaseBackups
            later) ↔
      retention.KeepsItsNewest := by
  constructor
  · intro hPromises hPolicy
    by_contra hBack
    have hAny : retention.gfs.hasAnyPeriod = true := by
      unfold LogicalRetention.validateRetention at hValid
      rw [hPolicy] at hValid
      by_contra hNone
      rw [Bool.not_eq_true] at hNone
      rw [hNone] at hValid
      split at hValid
      · cases hValid
      · cases hValid
    have hPromise :=
      hPromises [loneBackup] Duration.hour
        (.started loneBackup_isListing _) Duration.hour
        (Int.le_refl _)
    rcases
      hPromise.newest_kept
        (by rw [hPolicy]; exact fun hEq => by cases hEq)
        (List.cons_ne_nil _ _) with
      ⟨newest, _, _, hKept⟩
    rw [pass_loneBackup location hPolicy hAny hBack] at hKept
    cases hKept
  · intro hWindow databaseBackups now hReached later _
    exact
      promises_of_listing location hValid hWindow
        hReached.isListing later

/- Seven daily backups. -/
def sampleRetention : LogicalRetention where
  policy := .gfs
  period := .week
  count := 0
  gfs := ⟨0, 7, 0, 0, 0⟩

theorem promises_kept_of_week :
    (∀ databaseBackups now,
      Reached Location.utc sampleRetention databaseBackups
          now →
        ∀ later, now ≤ later →
          Promises Location.utc sampleRetention
            databaseBackups later) ↔
      sampleRetention.KeepsItsNewest :=
  promises_kept_iff Location.utc (by decide)

/- Hours whose window is so long that it lies ahead. -/
def overflowingRetention : LogicalRetention where
  policy := .gfs
  period := .week
  count := 0
  gfs := ⟨2562048, 0, 0, 0, 0⟩

theorem overflow_gives_up_lone_backup :
    overflowingRetention.validateRetention = none ∧
      getExpiredBackups Location.utc overflowingRetention
          [loneBackup] Duration.hour =
        [loneBackup] := by
  refine ⟨by decide, ?_⟩
  decide +kernel

end Logical

end Databasus
