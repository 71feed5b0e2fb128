import Databasus.Chains.Cascade

/-
  Views of the chains of a database: a full backup and the
  incrementals that grow from it.

  Main declarations:
    * `ChainView`
    * `buildChainView`
    * `findLastExtendableChainByDatabase`
    * `findNonExtendableChainsByDatabase`
-/

------------------------------------------------------------
-- Chains
------------------------------------------------------------

namespace Databasus

namespace Chains

open Catalog
open Walmath (LSN)

structure ChainView where
  rootFull : Backup
  incrementals : List Backup
  span : LSNRange
deriving DecidableEq

/- A full without a start position spans no log. -/
inductive ViewError
  | noStartLSN
deriving DecidableEq, Repr

def getChainSpanForFull
    (backups : List Backup)
    (full : Backup) : Except ViewError LSNRange :=
  match full.startLSN with
  | none => .error .noStartLSN
  | some startLSN =>
      .ok (getOwnershipSpan backups full startLSN)

def buildChainView
    (backups : List Backup)
    (full : Backup) : Except ViewError ChainView :=
  match getChainSpanForFull backups full with
  | .error error => .error error
  | .ok span =>
      .ok
        { rootFull := full
          incrementals :=
            findAllByRootFull backups full.id
          span := span }

/- A chain can grow until one of its incrementals broke it. -/
def isExtendable
    (newestView : ChainView) : Bool :=
  !newestView.incrementals.any fun incremental =>
    incremental.status = .chainBroken

------------------------------------------------------------
-- The Chains of a Database
------------------------------------------------------------

variable {backups : List Backup}

/- The order of `created_at DESC`. -/
def createdNoEarlier
    (first second : Backup) : Prop :=
  second.createdAt ≤ first.createdAt

instance instDecidableCreatedNoEarlier :
    DecidableRel createdNoEarlier :=
  fun _ _ => inferInstanceAs (Decidable (_ ≤ _))

def findCompletedFullNewestFirstByDatabase
    (backups : List Backup)
    (databaseID : Uuid) : List Backup :=
  (backups.filter fun backup =>
    backup.kind = .full && backup.databaseID = databaseID &&
      backup.status = .completed).insertionSort
        createdNoEarlier

def findLastExtendableChainByDatabase
    (backups : List Backup)
    (databaseID : Uuid) :
    Except ViewError (Option ChainView) :=
  match
    findCompletedFullNewestFirstByDatabase backups databaseID
  with
  | [] => .ok none
  | newest :: _ =>
      match buildChainView backups newest with
      | .error error => .error error
      | .ok newestView =>
          if isExtendable newestView then
            .ok (some newestView)
          else
            .ok none

/- The views of fulls, in the fulls' order. -/
def buildChainViews
    (backups : List Backup) :
    List Backup → Except ViewError (List ChainView)
  | [] => .ok []
  | full :: rest =>
      match buildChainView backups full with
      | .error error => .error error
      | .ok view =>
          match buildChainViews backups rest with
          | .error error => .error error
          | .ok views => .ok (view :: views)

/- Only the newest chain may still be extendable. -/
def findNonExtendableChainsByDatabase
    (backups : List Backup)
    (databaseID : Uuid) :
    Except ViewError (List ChainView) :=
  match
    buildChainViews backups
      (findCompletedFullNewestFirstByDatabase backups
        databaseID)
  with
  | .error error => .error error
  | .ok [] => .ok []
  | .ok (newestView :: views) =>
      if isExtendable newestView then
        .ok views
      else
        .ok (newestView :: views)

/- Every chain of the database, the newest first. -/
def orderedRestoreCandidates
    (backups : List Backup)
    (databaseID : Uuid) :
    Except ViewError (List ChainView) :=
  match
    findLastExtendableChainByDatabase backups databaseID,
    findNonExtendableChainsByDatabase backups databaseID
  with
  | .error error, _ => .error error
  | .ok _, .error error => .error error
  | .ok none, .ok views => .ok views
  | .ok (some view), .ok views => .ok (view :: views)

/- The extendable chain leads, and the others follow. -/
theorem orderedRestoreCandidates_eq
    (backups : List Backup)
    (databaseID : Uuid) :
    orderedRestoreCandidates backups databaseID =
      buildChainViews backups
        (findCompletedFullNewestFirstByDatabase backups
          databaseID) := by
  unfold orderedRestoreCandidates
    findLastExtendableChainByDatabase
    findNonExtendableChainsByDatabase
  cases findCompletedFullNewestFirstByDatabase backups
      databaseID with
  | nil => rfl
  | cons newest rest =>
      simp only [buildChainViews]
      cases buildChainView backups newest with
      | error error => rfl
      | ok view =>
          cases buildChainViews backups rest with
          | error error =>
              cases hExtendable : isExtendable view with
              | true => simp [hExtendable]
              | false => simp [hExtendable]
          | ok views =>
              cases hExtendable : isExtendable view with
              | true => simp [hExtendable]
              | false => simp [hExtendable]

/- What a view consists of. -/
theorem buildChainView_parts
    {full : Backup}
    {view : ChainView}
    (hView : buildChainView backups full = .ok view) :
    view.rootFull = full ∧
      view.incrementals =
        findAllByRootFull backups full.id := by
  unfold buildChainView at hView
  split at hView
  · cases hView
  · cases hView
    exact ⟨rfl, rfl⟩

/- Every view is built of one of the fulls. -/
theorem buildChainView_of_mem
    (fulls : List Backup) :
    ∀ {views : List ChainView},
      buildChainViews backups fulls = .ok views →
        ∀ view ∈ views, ∃ full ∈ fulls,
          buildChainView backups full = .ok view := by
  induction fulls with
  | nil =>
      intro views hViews view hView
      cases hViews
      cases hView
  | cons full rest ih =>
      intro views hViews view hView
      unfold buildChainViews at hViews
      split at hViews
      · cases hViews
      · next first hFirst =>
          split at hViews
          · cases hViews
          · next others hOthers =>
              cases hViews
              rcases List.mem_cons.mp hView with rfl | hRest
              · exact ⟨full, List.mem_cons_self, hFirst⟩
              · rcases ih hOthers view hRest with
                  ⟨other, hOther, hBuilt⟩
                exact
                  ⟨other, List.mem_cons_of_mem _ hOther,
                    hBuilt⟩

/- A full that is completed starts somewhere, and has a view. -/
theorem buildChainViews_ok
    (fulls : List Backup)
    (hStarts :
      ∀ full ∈ fulls, full.startLSN.isSome) :
    ∃ views, buildChainViews backups fulls = .ok views := by
  induction fulls with
  | nil => exact ⟨[], rfl⟩
  | cons full rest ih =>
      have hRest : ∀ other ∈ rest, other.startLSN.isSome :=
        fun other hOther =>
          hStarts other (List.mem_cons_of_mem _ hOther)
      rcases ih hRest with ⟨views, hViews⟩
      rcases
          Option.isSome_iff_exists.mp
            (hStarts full List.mem_cons_self) with
        ⟨startLSN, hStart⟩
      refine
        ⟨{ rootFull := full
           incrementals := findAllByRootFull backups full.id
           span := getOwnershipSpan backups full startLSN } ::
          views, ?_⟩
      simp [buildChainViews, buildChainView,
        getChainSpanForFull, hStart, hViews]

end Chains

end Databasus
