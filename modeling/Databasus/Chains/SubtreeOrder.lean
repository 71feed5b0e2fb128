import Databasus.Chains.Cascade
import Databasus.Foundation.Descendants

/-
  Subtrees of incrementals, and their order of deletion.

  Both loops are run pass by pass here, and return nothing
  unless they end.  The walk from a target has no guard
  against a cycle; the ordering gives up on one.

  Main declarations:
    * `walkIncrementalSubtree`, `runOrderRounds`
    * `CollectsSubtree`, `OrdersLeavesFirst`
    * `collectsSubtree_iff`, `ordersLeavesFirst`
    * `subtree_collected_iff_acyclic`
-/

------------------------------------------------------------
-- Passes of the Loops
------------------------------------------------------------

namespace Databasus

namespace Chains

open Catalog
open Foundation

/- One backup is the child of another in the chain. -/
abbrev DescendsIn
    (chain : List Backup) : Uuid → Uuid → Prop :=
  Descendants.Descends Backup.id Backup.parentBackupID chain

/- `collectIncrementalSubtree`, for so many passes. -/
def walkIncrementalSubtree
    (chain : List Backup)
    (fuel : Nat)
    (targetID : Uuid) : Option (List Backup) :=
  match Table.lookup Backup.id targetID chain with
  | none => some []
  | some target =>
      (Descendants.walk Backup.id Backup.parentBackupID chain
        fuel [targetID]).map fun found => target :: found

/- The rounds of `reverseTopoOrderIncrementals`. -/
def runOrderRounds
    (incrementals : List Backup) :
    Nat → List Backup → (Uuid → Int) → Option (List Backup)
  | 0, _, _ => none
  | fuel + 1, remaining, childCount =>
      if remaining = [] then
        some []
      else
        let round :=
          orderRound incrementals remaining childCount
        if round.ordered = [] then
          some round.stillBlocked
        else
          (runOrderRounds incrementals fuel round.stillBlocked
            round.childCount).map fun later =>
              round.ordered ++ later

/-
  The walk ends, with the target and all that descends from
  it, or with nothing for a target that is not there.
-/
def CollectsSubtree
    (chain : List Backup)
    (targetID : Uuid) : Prop :=
  ∃ fuel subtree,
    walkIncrementalSubtree chain fuel targetID =
        some subtree ∧
      subtree.Nodup ∧
      ∀ backup,
        backup ∈ subtree ↔
          backup ∈ chain ∧
            (∃ target ∈ chain, target.id = targetID) ∧
            (backup.id = targetID ∨
              DescendsIn chain targetID backup.id)

/-
  The ordering ends with all of its input.  Children come
  before their parents if no link leads around in a cycle.
-/
def OrdersLeavesFirst
    (incrementals : List Backup) : Prop :=
  ∃ fuel ordered,
    runOrderRounds incrementals fuel incrementals
        (countChildren incrementals) =
      some ordered ∧
      ordered.Perm incrementals ∧
      ((∀ backup ∈ incrementals,
          ¬ DescendsIn incrementals backup.id backup.id) →
        ∀ before parent after,
          ordered = before ++ parent :: after →
            ∀ child ∈ incrementals,
              child.parentBackupID = some parent.id →
                child ∈ before)

------------------------------------------------------------
-- The Walk
------------------------------------------------------------

variable {chain found : List Backup}
variable {targetID : Uuid}
variable {fuel : Nat}

/- A walk that ends has found what the cascade deletes. -/
theorem collectDescendants_of_walk
    {queue : List Uuid}
    (hWalk :
      Descendants.walk Backup.id Backup.parentBackupID chain
          fuel queue =
        some found) :
    collectDescendants chain fuel queue = found := by
  induction fuel generalizing queue found with
  | zero => cases hWalk
  | succ fuel ih =>
      cases queue with
      | nil => exact Option.some.inj hWalk
      | cons parentID queue =>
          rcases Option.map_eq_some_iff.mp hWalk with
            ⟨later, hLater, hFound⟩
          rw [← hFound, ← ih hLater]
          rfl

theorem collectIncrementalSubtree_of_walk
    (hWalk :
      walkIncrementalSubtree chain (chain.length + 1)
          targetID =
        some found) :
    collectIncrementalSubtree chain targetID = found := by
  unfold walkIncrementalSubtree at hWalk
  unfold collectIncrementalSubtree
  cases hTarget : Table.lookup Backup.id targetID chain with
  | none =>
      rw [hTarget] at hWalk
      exact Option.some.inj hWalk
  | some target =>
      rw [hTarget] at hWalk
      rcases Option.map_eq_some_iff.mp hWalk with
        ⟨later, hLater, hFound⟩
      simp only
      rw [collectDescendants_of_walk hLater, hFound]

/- What a walk returns is the target's subtree. -/
theorem mem_walkIncrementalSubtree_iff
    (hUnique : Table.UniqueBy Backup.id chain)
    (hWalk :
      walkIncrementalSubtree chain fuel targetID =
        some found)
    (backup : Backup) :
    backup ∈ found ↔
      backup ∈ chain ∧
        (∃ target ∈ chain, target.id = targetID) ∧
        (backup.id = targetID ∨
          DescendsIn chain targetID backup.id) := by
  unfold walkIncrementalSubtree at hWalk
  cases hTarget : Table.lookup Backup.id targetID chain with
  | none =>
      rw [hTarget] at hWalk
      rw [← Option.some.inj hWalk]
      constructor
      · intro hNone
        cases hNone
      · rintro ⟨_, ⟨target, hMember, hID⟩, _⟩
        exact
          absurd hID
            (Table.lookup_eq_none_iff.mp hTarget target
              hMember)
  | some target =>
      rw [hTarget] at hWalk
      rcases Table.lookup_some hTarget with ⟨hMember, hID⟩
      rcases Option.map_eq_some_iff.mp hWalk with
        ⟨later, hLater, hFound⟩
      rw [← hFound, List.mem_cons]
      constructor
      · rintro (rfl | hDeeper)
        · exact ⟨hMember, ⟨backup, hMember, hID⟩, .inl hID⟩
        · rcases Descendants.mem_of_walk hLater hDeeper with
            ⟨hRow, key, hKey, hDescends⟩
          rw [List.mem_singleton.mp hKey] at hDescends
          exact ⟨hRow, ⟨target, hMember, hID⟩, .inr hDescends⟩
      · rintro ⟨hRow, _, hTargetID | hDescends⟩
        · left
          exact
            hUnique.eq_of_key_eq hRow hMember
              (hTargetID.trans hID.symm)
        · right
          exact
            Descendants.walk_complete hUnique hLater
              (List.mem_singleton_self _) hRow hDescends

/- Without a way back to its target the walk ends in time. -/
theorem walkIncrementalSubtree_ends
    (hUnique : Table.UniqueBy Backup.id chain)
    (hAcyclic : ¬ DescendsIn chain targetID targetID) :
    walkIncrementalSubtree chain (chain.length + 1)
          targetID =
        some (collectIncrementalSubtree chain targetID) ∧
      (collectIncrementalSubtree chain targetID).Nodup := by
  cases hTarget : Table.lookup Backup.id targetID chain with
  | none =>
      unfold walkIncrementalSubtree collectIncrementalSubtree
      rw [hTarget]
      exact ⟨rfl, List.nodup_nil⟩
  | some target =>
      rcases Table.lookup_some hTarget with ⟨hMember, hID⟩
      have hBegins :
          Descendants.Walks Backup.id Backup.parentBackupID
            chain target.id [] [target.id] :=
        Descendants.Walks.begins hMember
      rw [hID] at hBegins
      rcases
          Descendants.exists_walk hUnique hAcyclic hBegins
            (Nat.lt_succ_self chain.length) with
        ⟨later, hLater, hNodup⟩
      have hWalk :
          walkIncrementalSubtree chain (chain.length + 1)
              targetID =
            some (target :: later) := by
        unfold walkIncrementalSubtree
        rw [hTarget]
        exact Option.map_eq_some_iff.mpr ⟨later, hLater, rfl⟩
      rw [collectIncrementalSubtree_of_walk hWalk]
      refine ⟨hWalk, ?_⟩
      apply List.Nodup.of_map Backup.id
      rw [List.map_cons, hID]
      exact hNodup

theorem collectsSubtree_iff
    (hUnique : Table.UniqueBy Backup.id chain) :
    CollectsSubtree chain targetID ↔
      ¬ DescendsIn chain targetID targetID := by
  constructor
  · rintro ⟨fuel, subtree, hWalk, _⟩ hCycle
    unfold walkIncrementalSubtree at hWalk
    cases hTarget : Table.lookup Backup.id targetID chain with
    | none =>
        rcases Descendants.Descends.exists_row hCycle with
          ⟨row, hRow, hID⟩
        exact Table.lookup_eq_none_iff.mp hTarget row hRow hID
    | some target =>
        rw [hTarget] at hWalk
        simp only at hWalk
        rw [Descendants.walk_eq_none
          (List.mem_singleton_self _) hCycle] at hWalk
        cases hWalk
  · intro hAcyclic
    rcases walkIncrementalSubtree_ends hUnique hAcyclic with
      ⟨hWalk, hNodup⟩
    exact
      ⟨_, _, hWalk, hNodup,
        mem_walkIncrementalSubtree_iff hUnique hWalk⟩

------------------------------------------------------------
-- One Round of the Ordering
------------------------------------------------------------

variable {incrementals : List Backup}
variable {childCount : Uuid → Int}
variable {rest : List Backup}

/- A present parent is the parent that the link names. -/
theorem presentParent_eq_iff
    {child parent : Backup}
    (hParent : parent ∈ incrementals) :
    presentParent incrementals child = some parent.id ↔
      child.parentBackupID = some parent.id := by
  unfold presentParent
  rw [Option.filter_eq_some_iff, List.any_eq_true]
  constructor
  · exact And.left
  · intro hLink
    exact ⟨hLink, parent, hParent, decide_eq_true rfl⟩

/- How many of the rest name each backup as their parent. -/
def CountsChildren
    (incrementals : List Backup)
    (childCount : Uuid → Int)
    (rest : List Backup) : Prop :=
  ∀ id,
    childCount id =
      (rest.countP fun backup =>
        presentParent incrementals backup = some id : Nat)

theorem CountsChildren.eq_none_left
    {id : Uuid}
    (hCounts : CountsChildren incrementals childCount rest)
    (hLeaf : ¬ 0 < childCount id) :
    ∀ backup ∈ rest,
      presentParent incrementals backup ≠ some id := by
  have hZero :
      (rest.countP fun backup =>
        presentParent incrementals backup = some id) = 0 := by
    have hCount := hCounts id
    omega
  intro backup hBackup hParent
  exact
    List.countP_eq_zero.mp hZero backup hBackup
      (decide_eq_true hParent)

/-
  A round over the rest, after others that are blocked, emits
  leaves only and counts the children that are left.
-/
structure RoundSound
    (incrementals blocked rest : List Backup)
    (round : OrderingRound) : Prop where
  perm : (round.ordered ++ round.stillBlocked).Perm rest
  counts :
    CountsChildren incrementals round.childCount
      (blocked ++ round.stillBlocked)
  leaves :
    ∀ leaf ∈ round.ordered,
      ∀ other ∈ blocked ++ round.stillBlocked,
        presentParent incrementals other ≠ some leaf.id
  order :
    round.ordered.Pairwise fun earlier later =>
      presentParent incrementals later ≠ some earlier.id

/- The count after a backup was emitted. -/
theorem CountsChildren.emit
    {blocked rest : List Backup}
    {emitted : Backup}
    (hCounts :
      CountsChildren incrementals childCount
        (blocked ++ emitted :: rest)) :
    CountsChildren incrementals
      (fun id =>
        if presentParent incrementals emitted = some id then
          childCount id - 1
        else
          childCount id)
      (blocked ++ rest) := by
  intro id
  have hCount := hCounts id
  rw [List.countP_append, List.countP_cons] at hCount
  rw [List.countP_append]
  by_cases hParent :
      presentParent incrementals emitted = some id
  · simp only [hParent, decide_true, if_true] at hCount ⊢
    omega
  · simp only [hParent, decide_false, Bool.false_eq_true,
      if_false] at hCount ⊢
    omega

theorem orderRound_sound
    {blocked rest : List Backup}
    (hCounts :
      CountsChildren incrementals childCount
        (blocked ++ rest)) :
    RoundSound incrementals blocked rest
      (orderRound incrementals rest childCount) := by
  induction rest generalizing blocked childCount with
  | nil =>
      refine ⟨.refl _, hCounts, ?_, .nil⟩
      intro leaf hLeaf
      cases hLeaf
  | cons first rest ih =>
      unfold orderRound
      by_cases hBlocked : 0 < childCount first.id
      · rw [if_pos hBlocked]
        have hMoved :
            CountsChildren incrementals childCount
              (blocked ++ [first] ++ rest) := by
          rw [List.append_assoc]
          exact hCounts
        have hRound := ih hMoved
        have hSplit :
            blocked ++ [first] ++
                (orderRound incrementals rest
                  childCount).stillBlocked =
              blocked ++
                first ::
                  (orderRound incrementals rest
                    childCount).stillBlocked :=
          List.append_assoc _ _ _
        refine ⟨?_, ?_, ?_, hRound.order⟩
        · exact List.perm_middle.trans (hRound.perm.cons first)
        · rw [← hSplit]
          exact hRound.counts
        · rw [← hSplit]
          exact hRound.leaves
      · rw [if_neg hBlocked]
        have hNone := hCounts.eq_none_left hBlocked
        have hRound := ih hCounts.emit
        have hRest :
            ∀ other ∈ rest,
              presentParent incrementals other ≠
                some first.id := by
          intro other hOther
          apply hNone
          exact
            List.mem_append_right _
              (List.mem_cons_of_mem _ hOther)
        refine ⟨hRound.perm.cons first, hRound.counts, ?_, ?_⟩
        · intro leaf hLeaf other hOther
          rcases List.mem_cons.mp hLeaf with rfl | hLater
          · rcases List.mem_append.mp hOther with
              hOld | hStill
            · exact hNone other (List.mem_append_left _ hOld)
            · apply hRest
              apply hRound.perm.mem_iff.mp
              exact List.mem_append_right _ hStill
          · exact hRound.leaves leaf hLater other hOther
        · apply List.Pairwise.cons _ hRound.order
          intro later hLater
          apply hRest
          apply hRound.perm.mem_iff.mp
          exact List.mem_append_left _ hLater

/- A round that emits nothing has found a child of each. -/
theorem blocked_of_orderRound_nil
    (hNone :
      (orderRound incrementals rest childCount).ordered = [])
    {backup : Backup}
    (hBackup : backup ∈ rest) :
    0 < childCount backup.id := by
  induction rest with
  | nil => cases hBackup
  | cons first rest ih =>
      unfold orderRound at hNone
      by_cases hBlocked : 0 < childCount first.id
      · rw [if_pos hBlocked] at hNone
        rcases List.mem_cons.mp hBackup with rfl | hLater
        · exact hBlocked
        · exact ih hNone hLater
      · rw [if_neg hBlocked] at hNone
        cases hNone

------------------------------------------------------------
-- All Rounds
------------------------------------------------------------

variable {remaining ordered : List Backup}

/- Every round but the last one leaves fewer backups. -/
theorem runOrderRounds_ends
    (hCounts :
      CountsChildren incrementals childCount remaining)
    (hFuel : remaining.length < fuel) :
    runOrderRounds incrementals fuel remaining childCount =
      some
        (orderRounds incrementals fuel remaining
          childCount) := by
  induction fuel generalizing remaining childCount with
  | zero => exact absurd hFuel (Nat.not_lt_zero _)
  | succ fuel ih =>
      unfold runOrderRounds orderRounds
      split
      · rfl
      · have hRound : RoundSound incrementals [] remaining _ :=
          orderRound_sound hCounts
        simp only
        split
        · rfl
        · next hSome =>
            have hLength := hRound.perm.length_eq
            have hEmitted := List.length_pos_iff.mpr hSome
            rw [List.length_append] at hLength
            have hFewer :
                (orderRound incrementals remaining
                  childCount).stillBlocked.length < fuel := by
              omega
            have hStill :
                CountsChildren incrementals _
                  (orderRound incrementals remaining
                    childCount).stillBlocked :=
              hRound.counts
            rw [ih hStill hFewer, Option.map_some]

theorem runOrderRounds_perm
    (hCounts :
      CountsChildren incrementals childCount remaining)
    (hRun :
      runOrderRounds incrementals fuel remaining childCount =
        some ordered) :
    ordered.Perm remaining := by
  induction fuel generalizing
      remaining childCount ordered with
  | zero => cases hRun
  | succ fuel ih =>
      unfold runOrderRounds at hRun
      split at hRun
      · next hNone => rw [← Option.some.inj hRun, hNone]
      · have hRound : RoundSound incrementals [] remaining _ :=
          orderRound_sound hCounts
        simp only at hRun
        split at hRun
        · next hNone =>
            have hPerm := hRound.perm
            rw [hNone, List.nil_append] at hPerm
            rw [← Option.some.inj hRun]
            exact hPerm
        · rcases Option.map_eq_some_iff.mp hRun with
            ⟨later, hLater, hOrdered⟩
          rw [← hOrdered]
          exact
            ((ih hRound.counts hLater).append_left _).trans
              hRound.perm

/- Without cycles a round always emits a leaf. -/
theorem orderRound_ne_nil
    (hAcyclic :
      ∀ backup ∈ incrementals,
        ¬ DescendsIn incrementals backup.id backup.id)
    (hRemaining :
      ∀ backup ∈ remaining, backup ∈ incrementals)
    (hSome : remaining ≠ [])
    (hCounts :
      CountsChildren incrementals childCount remaining) :
    (orderRound incrementals remaining
      childCount).ordered ≠ [] := by
  intro hNone
  rcases
      Descendants.exists_leaf hAcyclic hSome hRemaining with
    ⟨leaf, hLeaf, hChildless⟩
  have hBlocked := blocked_of_orderRound_nil hNone hLeaf
  rw [hCounts leaf.id] at hBlocked
  rcases
      List.countP_pos_iff.mp (Int.natCast_pos.mp hBlocked) with
    ⟨child, hChild, hParent⟩
  apply hChildless child hChild
  exact
    (presentParent_eq_iff (hRemaining leaf hLeaf)).mp
      (of_decide_eq_true hParent)

/- Nothing comes after a backup that names it as parent. -/
theorem runOrderRounds_ordered
    (hAcyclic :
      ∀ backup ∈ incrementals,
        ¬ DescendsIn incrementals backup.id backup.id)
    (hRemaining :
      ∀ backup ∈ remaining, backup ∈ incrementals)
    (hCounts :
      CountsChildren incrementals childCount remaining)
    (hRun :
      runOrderRounds incrementals fuel remaining childCount =
        some ordered) :
    ordered.Pairwise fun earlier later =>
      presentParent incrementals later ≠ some earlier.id := by
  induction fuel generalizing
      remaining childCount ordered with
  | zero => cases hRun
  | succ fuel ih =>
      unfold runOrderRounds at hRun
      split at hRun
      · rw [← Option.some.inj hRun]
        exact .nil
      · next hSome =>
          have hRound :
              RoundSound incrementals [] remaining _ :=
            orderRound_sound hCounts
          simp only at hRun
          rw [if_neg (orderRound_ne_nil hAcyclic hRemaining
            hSome hCounts)] at hRun
          rcases Option.map_eq_some_iff.mp hRun with
            ⟨later, hLater, hOrdered⟩
          have hStill :
              ∀ backup ∈
                  (orderRound incrementals remaining
                    childCount).stillBlocked,
                backup ∈ incrementals := by
            intro backup hBackup
            apply hRemaining
            apply hRound.perm.mem_iff.mp
            exact List.mem_append_right _ hBackup
          rw [← hOrdered, List.pairwise_append]
          refine
            ⟨hRound.order, ih hStill hRound.counts hLater,
              ?_⟩
          intro leaf hLeaf other hOther
          apply hRound.leaves leaf hLeaf
          exact
            (runOrderRounds_perm hRound.counts
              hLater).mem_iff.mp hOther

theorem ordersLeavesFirst
    (incrementals : List Backup) :
    OrdersLeavesFirst incrementals := by
  have hCounts :
      CountsChildren incrementals
        (countChildren incrementals) incrementals :=
    fun _ => rfl
  have hRun :=
    runOrderRounds_ends hCounts
      (Nat.lt_succ_self incrementals.length)
  have hPerm := runOrderRounds_perm hCounts hRun
  refine ⟨_, _, hRun, hPerm, ?_⟩
  intro hAcyclic before parent after hOrdered child hChild
    hLink
  have hOrder :=
    runOrderRounds_ordered hAcyclic (fun _ => id) hCounts hRun
  have hMember := hPerm.mem_iff.mpr hChild
  have hParent : parent ∈ incrementals := by
    apply hPerm.mem_iff.mp
    rw [hOrdered]
    exact List.mem_append_right _ List.mem_cons_self
  rw [hOrdered] at hOrder hMember
  rcases List.mem_append.mp hMember with hBefore | hRest
  · exact hBefore
  · rcases List.mem_cons.mp hRest with rfl | hAfter
    · exact
        absurd (.single ⟨child, hChild, hLink, rfl⟩)
          (hAcyclic child hChild)
    · have hNot :=
        (List.pairwise_cons.mp
          (List.pairwise_append.mp hOrder).2.1).1 child hAfter
      exact
        absurd ((presentParent_eq_iff hParent).mpr hLink) hNot

/-
  Both loops do what they are for exactly when no way down
  from the target leads back to it.
-/
theorem subtree_collected_iff_acyclic
    (chain : List Backup)
    (hUnique : Table.UniqueBy Backup.id chain)
    (targetID : Uuid) :
    CollectsSubtree chain targetID ∧
        OrdersLeavesFirst chain ↔
      ¬ DescendsIn chain targetID targetID := by
  rw [collectsSubtree_iff hUnique]
  exact and_iff_left (ordersLeavesFirst chain)

def linkedIncremental
    (id parentID : Uuid) : Backup :=
  { id := id
    databaseID := 1
    storageID := 1
    kind := .incremental
    parentBackupID := some parentID
    rootFullBackupID := some 9
    timelineID := 1
    status := .completed
    createdAt := 0 }

/- Three incrementals on a full that is not in the list. -/
def linkedChain : List Backup :=
  [linkedIncremental 13 12, linkedIncremental 11 9,
    linkedIncremental 12 11]

theorem linked_chain_is_collected :
    CollectsSubtree linkedChain 11 ∧
      OrdersLeavesFirst linkedChain := by
  apply
    (subtree_collected_iff_acyclic linkedChain (by decide)
      11).mpr
  intro hCycle
  have hRanks :
      ∀ row ∈ linkedChain, ∀ key,
        row.parentBackupID = some key → key < row.id := by
    simp [linkedChain, linkedIncremental]
  exact lt_irrefl 11 (Descendants.Descends.rank_lt hRanks hCycle)

/- The walk from a backup that is its own parent never ends. -/
theorem self_parented_backup_never_collected :
    ¬ ∀ (chain : List Backup),
        Table.UniqueBy Backup.id chain →
          ∀ targetID,
            CollectsSubtree chain targetID ∧
              OrdersLeavesFirst chain := by
  intro hAlways
  have hUnique :
      Table.UniqueBy Backup.id [linkedIncremental 12 12] :=
    List.nodup_singleton _
  apply
    (collectsSubtree_iff hUnique).mp
      (hAlways [linkedIncremental 12 12] hUnique 12).1
  exact
    .single
      ⟨linkedIncremental 12 12, List.mem_singleton_self _,
        rfl, rfl⟩

end Chains

end Databasus
