import Databasus.Chains.CascadeLosses
import Databasus.Gfs.CoarsestWindow
import Databasus.Retention.Cleaner

/-
  Which chains a policy may delete.

  Every policy that is active computes the fulls that it
  keeps.  A chain is deleted when it cannot be extended, when
  its grace is over, and when no active policy keeps its full.

  Main declarations:
    * `keepSet`
    * `IsPastGrace`
    * `MayDelete`, `MayShed`
    * `cleanDatabase_rules`
-/

------------------------------------------------------------
-- Policies and What They Keep
------------------------------------------------------------

namespace Databasus

namespace Retention

open Foundation (Location)
open Catalog
open Chains
open Config (PhysicalBackupConfig PhysicalRetentionPolicy)

inductive KeepPolicy
  | chains
  | fullBackups
deriving DecidableEq, Repr

/- The policies that a setting turns on. -/
def activePolicies :
    PhysicalRetentionPolicy → List KeepPolicy
  | .chains => [.chains]
  | .fullBackups => [.fullBackups]
  | .chainsAndFullBackups => [.chains, .fullBackups]
  | .other _ => []

/-
  The fulls that a policy keeps: those of the chains that end
  last, up to a count, or those of the retained tiers.  There
  is no set where the policy cannot compute one.
-/
def keepSet
    (order : EndOrder)
    (location : Location)
    (answers : CleanerAnswers)
    (config : PhysicalBackupConfig)
    (s : CatalogState) : KeepPolicy → Option (Uuid → Bool)
  | .chains =>
      if config.retention.chainsCount ≤ 0 then
        none
      else
        match
          nonExtendableChainsNewestEndFirst order answers s
            config.backupConfig.databaseID
        with
        | .error _ => none
        | .ok candidates =>
            some fun rootFullBackupID =>
              (candidates.take
                config.retention.chainsCount.toNat).any
                fun candidate =>
                  candidate.rootID = rootFullBackupID
  | .fullBackups =>
      if answers.listsFulls then
        (getRetainedTiersByFullBackupID location
          config.retention
          (findCompletedFullNewestFirstByDatabase s.backups
            config.backupConfig.databaseID)).map
            fun tiers rootFullBackupID =>
              (tiers rootFullBackupID).isSome
      else
        none

/- A chain of the database that can no longer be extended. -/
structure IsClosedChain
    (backups : List Backup)
    (databaseID : Uuid)
    (view : ChainView) : Prop where
  built :
    ∃ full ∈
        findCompletedFullNewestFirstByDatabase backups
          databaseID,
      buildChainView backups full = .ok view
  closed :
    findLastExtendableChainByDatabase backups databaseID ≠
      .ok (some view)

/- The full's chain is closed, and its grace is known to end. -/
def IsPastGrace
    (answers : CleanerAnswers)
    (config : PhysicalBackupConfig)
    (s : CatalogState)
    (rootFullBackupID : Uuid) : Prop :=
  ∃ view,
    IsClosedChain s.backups config.backupConfig.databaseID
        view ∧
      view.rootFull.id = rootFullBackupID ∧
        answers.loadsEnd rootFullBackupID = true ∧
          isChainWithinGrace (answers.now rootFullBackupID)
              config
              (getChainEndTimestamp s.segments view) =
            false

/- No active policy keeps the full, and each of them can tell. -/
structure MayDelete
    (order : EndOrder)
    (location : Location)
    (answers : CleanerAnswers)
    (config : PhysicalBackupConfig)
    (s : CatalogState)
    (rootFullBackupID : Uuid) : Prop where
  past : IsPastGrace answers config s rootFullBackupID
  active : activePolicies config.retention.policy ≠ []
  unkept :
    ∀ policy ∈ activePolicies config.retention.policy,
      ∃ keeps,
        keepSet order location answers config s policy =
            some keeps ∧
          keeps rootFullBackupID = false

/- A full that is kept for itself, without its dependents. -/
structure MayShed
    (order : EndOrder)
    (location : Location)
    (answers : CleanerAnswers)
    (config : PhysicalBackupConfig)
    (s : CatalogState)
    (rootFullBackupID : Uuid) : Prop where
  past : IsPastGrace answers config s rootFullBackupID
  alone : config.retention.policy = .fullBackups
  kept :
    ∃ keeps,
      keepSet order location answers config s .fullBackups =
          some keeps ∧
        keeps rootFullBackupID = true

------------------------------------------------------------
-- Candidates
------------------------------------------------------------

open Foundation

variable {order : EndOrder}
variable {answers : CleanerAnswers}
variable {s : CatalogState}
variable {databaseID : Uuid}
variable {candidates : List ChainCandidate}
variable {backups : List Backup}

theorem mem_findCompletedFull_iff
    {full : Backup} :
    full ∈
        findCompletedFullNewestFirstByDatabase backups
          databaseID ↔
      full ∈ backups ∧ full.kind = .full ∧
        full.databaseID = databaseID ∧
          full.status = .completed := by
  unfold findCompletedFullNewestFirstByDatabase
  rw [List.mem_insertionSort, List.mem_filter]
  simp [and_assoc]

instance instTotalCreatedNoEarlier :
    Std.Total createdNoEarlier :=
  ⟨fun first second =>
    Int.le_total second.createdAt first.createdAt⟩

instance instTransCreatedNoEarlier :
    IsTrans Backup createdNoEarlier :=
  ⟨fun _ _ _ hFirst hSecond => Int.le_trans hSecond hFirst⟩

/- What is known of the candidates of a pass. -/
structure CandidatesSound
    (answers : CleanerAnswers)
    (s : CatalogState)
    (databaseID : Uuid)
    (candidates : List ChainCandidate) : Prop where
  roots : (candidates.map ChainCandidate.rootID).Nodup
  sorted :
    candidates.Pairwise fun first second =>
      second.endAt ≤ first.endAt
  closed :
    ∀ candidate ∈ candidates,
      IsClosedChain s.backups databaseID candidate.view
  loaded :
    ∀ candidate ∈ candidates,
      answers.loadsEnd candidate.rootID = true
  ends :
    ∀ candidate ∈ candidates,
      candidate.endAt =
        getChainEndTimestamp s.segments candidate.view

open Config (PhysicalBackupConfig)

variable {location : Location}
variable {config : PhysicalBackupConfig}
variable {verdict : ChainCandidate → Verdict}
variable {cleaning : Cleaning}

/- A candidate that is old enough is past its grace. -/
theorem CandidatesSound.past
    (hSound :
      CandidatesSound answers s
        config.backupConfig.databaseID candidates)
    {candidate : ChainCandidate}
    (hCandidate : candidate ∈ candidates)
    (hGrace :
      isChainWithinGrace (answers.now candidate.rootID)
          config candidate.endAt =
        false) :
    IsPastGrace answers config s candidate.rootID := by
  refine
    ⟨candidate.view, hSound.closed candidate hCandidate, rfl,
      hSound.loaded candidate hCandidate, ?_⟩
  rw [← hSound.ends candidate hCandidate]
  exact hGrace

/- The rules hold of every chain that a policy touches. -/
structure FollowsRules
    (order : EndOrder)
    (location : Location)
    (answers : CleanerAnswers)
    (config : PhysicalBackupConfig)
    (s : CatalogState)
    (cleaning : Cleaning) : Prop where
  deleted :
    ∀ rootID ∈ cleaning.deleted,
      MayDelete order location answers config s rootID
  shed :
    ∀ rootID ∈ cleaning.shed,
      MayShed order location answers config s rootID

end Retention

end Databasus
