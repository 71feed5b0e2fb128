import Mathlib.Data.Rat.Floor
import Databasus.Logical.Backup

/-
  Disk admission of a verification run on an agent.

  An agent's budget covers the estimated disk use of the
  restores it already runs and of the candidate.

  Main declarations:
    * `estimateRequiredForRestoreDiskMb`
    * `sumEstimatedRequiredDiskMb`
    * `evaluateDiskAdmission`
-/

------------------------------------------------------------
-- Estimates
------------------------------------------------------------

namespace Databasus

namespace Verifications

open Logical (LogicalBackup)

structure AgentCapacity where
  maxCPU : Int
  maxRAMMb : Int
  maxDiskGb : Int
  maxConcurrentJobs : Int
deriving DecidableEq, Repr

def minDiskGapMb : Rat := 1536

def maxDiskGapMb : Rat := 5120

def diskGapToRestoredSizeRatio : Rat := 1 / 2

/- A raw size of zero means that the size is unknown. -/
def estimateRequiredForRestoreDiskMb
    (backup : LogicalBackup) : Int :=
  let archiveSizeMb := max backup.backupSizeMb 0
  let restoredSizeMb := max backup.backupRawDbSizeMb 0
  let gapMb :=
    if 0 < restoredSizeMb then
      min maxDiskGapMb
        (max minDiskGapMb
          (restoredSizeMb * diskGapToRestoredSizeRatio))
    else
      maxDiskGapMb
  ⌈archiveSizeMb + restoredSizeMb + gapMb⌉

def sumEstimatedRequiredDiskMb
    (runningBackups : List LogicalBackup) : Int :=
  (runningBackups.map estimateRequiredForRestoreDiskMb).sum

/- Every restore is expected to need some disk. -/
theorem estimateRequiredForRestoreDiskMb_nonneg
    (backup : LogicalBackup) :
    0 ≤ estimateRequiredForRestoreDiskMb backup := by
  have hArchive : 0 ≤ max backup.backupSizeMb 0 :=
    le_max_right _ _
  have hRestored : 0 ≤ max backup.backupRawDbSizeMb 0 :=
    le_max_right _ _
  have hGap :
      0 ≤ if 0 < max backup.backupRawDbSizeMb 0 then
        min maxDiskGapMb
          (max minDiskGapMb
            (max backup.backupRawDbSizeMb 0 *
              diskGapToRestoredSizeRatio))
      else
        maxDiskGapMb := by
    split
    · apply le_min
      · norm_num [maxDiskGapMb]
      · apply le_max_of_le_left
        norm_num [minDiskGapMb]
    · norm_num [maxDiskGapMb]
  exact Int.ceil_nonneg
    (add_nonneg (add_nonneg hArchive hRestored) hGap)

------------------------------------------------------------
-- Admission
------------------------------------------------------------

structure DiskAdmission where
  isFit : Bool
  candidateRequiredMb : Int
  runningUsedMb : Int
  totalBudgetMb : Int
deriving DecidableEq, Repr

/- The disk, in megabytes, that an agent offers to restores. -/
def AgentCapacity.diskBudgetMb
    (capacity : AgentCapacity) : Int :=
  capacity.maxDiskGb * 1024

def evaluateDiskAdmission
    (capacity : AgentCapacity)
    (runningBackups : List LogicalBackup)
    (candidateBackup : LogicalBackup) : DiskAdmission :=
  let admission : DiskAdmission :=
    { isFit := false
      candidateRequiredMb :=
        estimateRequiredForRestoreDiskMb candidateBackup
      runningUsedMb :=
        sumEstimatedRequiredDiskMb runningBackups
      totalBudgetMb := capacity.diskBudgetMb }
  if capacity.maxDiskGb ≤ 0 then
    admission
  else
    { admission with
      isFit :=
        admission.runningUsedMb +
          admission.candidateRequiredMb ≤
            admission.totalBudgetMb }

/- An admitted candidate fits beside the load it is shown. -/
theorem evaluateDiskAdmission_isFit_iff
    (capacity : AgentCapacity)
    (runningBackups : List LogicalBackup)
    (candidateBackup : LogicalBackup) :
    (evaluateDiskAdmission capacity runningBackups
        candidateBackup).isFit = true ↔
      0 < capacity.maxDiskGb ∧
        sumEstimatedRequiredDiskMb runningBackups +
            estimateRequiredForRestoreDiskMb
              candidateBackup ≤
          capacity.diskBudgetMb := by
  unfold evaluateDiskAdmission
  by_cases hDisk : capacity.maxDiskGb ≤ 0
  · simp only [hDisk, if_true, Bool.false_eq_true,
      false_iff, not_and]
    intro hPositive
    omega
  · simp only [hDisk, if_false, decide_eq_true_eq]
    constructor
    · intro hFit
      exact ⟨by omega, hFit⟩
    · intro hFit
      exact hFit.2

end Verifications

end Databasus
