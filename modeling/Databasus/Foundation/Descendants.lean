import Databasus.Foundation.Table
import Mathlib.Data.Fintype.Card
import Mathlib.Data.Set.Finite.Basic
import Mathlib.Logic.Relation
import Mathlib.Order.WellFounded

/-
  Rows that each name the key of a parent, and their walks.

  Rows with keys of their own form a forest with cycles.  A
  walk that queues the children of every key it takes ends
  unless it comes back to where it began, and it has found
  each descendant once then.

  Main declarations:
    * `children`, `IsChild`, `Descends`
    * `walk`
    * `mem_of_walk`, `walk_complete`
    * `walk_eq_none`, `exists_walk`
    * `exists_leaf`
-/

------------------------------------------------------------
-- Children
------------------------------------------------------------

namespace Foundation

namespace Descendants

variable {ρ κ : Type}
variable [DecidableEq κ]

/- The rows that name the key as their parent. -/
def children
    (parent : ρ → Option κ)
    (rows : List ρ)
    (key : κ) : List ρ :=
  rows.filter fun row => parent row = some key

def IsChild
    (id : ρ → κ)
    (parent : ρ → Option κ)
    (rows : List ρ)
    (key child : κ) : Prop :=
  ∃ row ∈ rows, parent row = some key ∧ id row = child

/- Some way down leads from the first key to the second. -/
abbrev Descends
    (id : ρ → κ)
    (parent : ρ → Option κ)
    (rows : List ρ) : κ → κ → Prop :=
  Relation.TransGen (IsChild id parent rows)

/-
  Each key of the queue adds its children to the end of it.
  Nothing is returned before the queue is empty.
-/
def walk
    (id : ρ → κ)
    (parent : ρ → Option κ)
    (rows : List ρ) : Nat → List κ → Option (List ρ)
  | 0, _ => none
  | _ + 1, [] => some []
  | fuel + 1, key :: queue =>
      (walk id parent rows fuel
        (queue ++ (children parent rows key).map id)).map
          fun found => children parent rows key ++ found

variable {id : ρ → κ}
variable {parent : ρ → Option κ}
variable {rows : List ρ}
variable {key : κ}

theorem mem_children_iff
    {row : ρ} :
    row ∈ children parent rows key ↔
      row ∈ rows ∧ parent row = some key := by
  unfold children
  rw [List.mem_filter, decide_eq_true_eq]

theorem mem_map_children_iff
    {child : κ} :
    child ∈ (children parent rows key).map id ↔
      IsChild id parent rows key child := by
  rw [List.mem_map]
  constructor
  · rintro ⟨row, hRow, rfl⟩
    rcases mem_children_iff.mp hRow with ⟨hMember, hParent⟩
    exact ⟨row, hMember, hParent, rfl⟩
  · rintro ⟨row, hMember, hParent, rfl⟩
    exact ⟨row, mem_children_iff.mpr ⟨hMember, hParent⟩, rfl⟩

/- A descendant is a row of its own. -/
omit [DecidableEq κ] in
theorem Descends.exists_row
    {ancestor descendant : κ}
    (hDescends :
      Descends id parent rows ancestor descendant) :
    ∃ row ∈ rows, id row = descendant := by
  cases hDescends with
  | single hChild =>
      rcases hChild with ⟨row, hRow, _, hID⟩
      exact ⟨row, hRow, hID⟩
  | tail _ hChild =>
      rcases hChild with ⟨row, hRow, _, hID⟩
      exact ⟨row, hRow, hID⟩

/- Where children have greater ranks, no way leads back. -/
omit [DecidableEq κ] in
theorem Descends.rank_lt
    {rank : κ → Nat}
    (hRanks :
      ∀ row ∈ rows, ∀ key, parent row = some key →
        rank key < rank (id row))
    {ancestor descendant : κ}
    (hDescends :
      Descends id parent rows ancestor descendant) :
    rank ancestor < rank descendant := by
  induction hDescends with
  | single hChild =>
      rcases hChild with ⟨row, hRow, hParent, rfl⟩
      exact hRanks row hRow _ hParent
  | tail _ hChild ih =>
      rcases hChild with ⟨row, hRow, hParent, rfl⟩
      exact ih.trans (hRanks row hRow _ hParent)

------------------------------------------------------------
-- What a Walk Finds
------------------------------------------------------------

variable {found : List ρ}
variable {queue : List κ}
variable {fuel : Nat}
variable {row : ρ}

/- All that is found descends from a key of the queue. -/
theorem mem_of_walk
    (hWalk : walk id parent rows fuel queue = some found)
    (hRow : row ∈ found) :
    row ∈ rows ∧
      ∃ key ∈ queue, Descends id parent rows key (id row) := by
  induction fuel generalizing queue found with
  | zero => cases hWalk
  | succ fuel ih =>
      cases queue with
      | nil =>
          rw [← Option.some.inj hWalk] at hRow
          cases hRow
      | cons key queue =>
          rcases Option.map_eq_some_iff.mp hWalk with
            ⟨later, hLater, hFound⟩
          rw [← hFound] at hRow
          rcases List.mem_append.mp hRow with hChild | hDeeper
          · rcases mem_children_iff.mp hChild with
              ⟨hMember, hParent⟩
            refine ⟨hMember, key, List.mem_cons_self, ?_⟩
            exact .single ⟨row, hMember, hParent, rfl⟩
          · rcases ih hLater hDeeper with
              ⟨hMember, source, hSource, hDescends⟩
            refine ⟨hMember, ?_⟩
            rcases List.mem_append.mp hSource with
              hQueued | hAdded
            · exact
                ⟨source, List.mem_cons_of_mem _ hQueued,
                  hDescends⟩
            · refine ⟨key, List.mem_cons_self, ?_⟩
              exact
                .head (mem_map_children_iff.mp hAdded)
                  hDescends

/- All that descends from a key of the queue is found. -/
theorem walk_complete
    (hUnique : Table.UniqueBy id rows)
    (hWalk : walk id parent rows fuel queue = some found)
    (hKey : key ∈ queue)
    (hRow : row ∈ rows)
    (hDescends : Descends id parent rows key (id row)) :
    row ∈ found := by
  induction fuel generalizing queue found key with
  | zero => cases hWalk
  | succ fuel ih =>
      cases queue with
      | nil => cases hKey
      | cons first queue =>
          rcases Option.map_eq_some_iff.mp hWalk with
            ⟨later, hLater, hFound⟩
          rw [← hFound]
          rcases List.mem_cons.mp hKey with rfl | hQueued
          · rcases
                Relation.TransGen.head'_iff.mp hDescends with
              ⟨child, hChild, hRest⟩
            rcases Relation.reflTransGen_iff_eq_or_transGen.mp
                hRest with hSame | hDeeper
            · rcases hChild with
                ⟨other, hOther, hParent, hID⟩
              have hIsRow : other = row :=
                hUnique.eq_of_key_eq hOther hRow
                  (hID.trans hSame.symm)
              subst hIsRow
              apply List.mem_append_left
              exact mem_children_iff.mpr ⟨hOther, hParent⟩
            · apply List.mem_append_right
              apply ih hLater _ hDeeper
              apply List.mem_append_right
              exact mem_map_children_iff.mpr hChild
          · apply List.mem_append_right
            exact
              ih hLater (List.mem_append_left _ hQueued)
                hDescends

/- A walk with a key on a cycle in its queue never ends. -/
theorem walk_eq_none
    (hKey : key ∈ queue)
    (hCycle : Descends id parent rows key key) :
    walk id parent rows fuel queue = none := by
  induction fuel generalizing queue key with
  | zero => rfl
  | succ fuel ih =>
      cases queue with
      | nil => cases hKey
      | cons first queue =>
          unfold walk
          rw [Option.map_eq_none_iff]
          rcases List.mem_cons.mp hKey with rfl | hQueued
          · rcases Relation.TransGen.head'_iff.mp hCycle with
              ⟨child, hChild, hRest⟩
            have hAdded :
                child ∈
                  queue ++
                    (children parent rows key).map id :=
              List.mem_append_right _
                (mem_map_children_iff.mpr hChild)
            exact
              ih hAdded
                (Relation.TransGen.tail' hRest hChild)
          · exact ih (List.mem_append_left _ hQueued) hCycle

------------------------------------------------------------
-- Walks that End
------------------------------------------------------------

variable {root : κ}
variable {taken : List κ}

/-
  The keys that a walk has taken, and those it has queued.
  No key was queued twice, since a row has one parent.
-/
structure Walks
    (id : ρ → κ)
    (parent : ρ → Option κ)
    (rows : List ρ)
    (root : κ)
    (taken queue : List κ) : Prop where
  nodup : (taken ++ queue).Nodup
  ofRows :
    ∀ key ∈ taken ++ queue, ∃ row ∈ rows, id row = key
  reached :
    ∀ key ∈ taken ++ queue,
      key = root ∨ Descends id parent rows root key
  parents :
    ∀ row ∈ rows,
      id row ∈ taken ++ queue →
        id row = root ∨
          ∃ key ∈ taken, parent row = some key

omit [DecidableEq κ] in
theorem Walks.begins
    {row : ρ}
    (hRow : row ∈ rows) :
    Walks id parent rows (id row) [] [id row] := by
  refine ⟨List.nodup_singleton _, ?_, ?_, ?_⟩
  · intro key hKey
    exact ⟨row, hRow, (List.mem_singleton.mp hKey).symm⟩
  · intro key hKey
    exact .inl (List.mem_singleton.mp hKey)
  · intro other _ hKey
    exact .inl (List.mem_singleton.mp hKey)

/- There are no more keys than rows. -/
omit [DecidableEq κ] in
theorem Walks.length_le
    (hWalks : Walks id parent rows root taken queue) :
    (taken ++ queue).length ≤ rows.length := by
  rw [← List.length_map (f := id)]
  apply List.Subperm.length_le
  apply List.subperm_of_subset hWalks.nodup
  intro key hKey
  rcases hWalks.ofRows key hKey with ⟨row, hRow, hID⟩
  exact List.mem_map.mpr ⟨row, hRow, hID⟩

/- The children of the next key have not been queued yet. -/
theorem Walks.step
    {key : κ}
    (hUnique : Table.UniqueBy id rows)
    (hAcyclic : ¬ Descends id parent rows root root)
    (hWalks :
      Walks id parent rows root taken (key :: queue)) :
    Walks id parent rows root (taken ++ [key])
      (queue ++ (children parent rows key).map id) := by
  have hSplit :
      taken ++ [key] ++
          (queue ++ (children parent rows key).map id) =
        (taken ++ key :: queue) ++
          (children parent rows key).map id := by
    simp only [List.append_assoc, List.cons_append,
      List.nil_append]
  have hKey : key ∈ taken ++ key :: queue :=
    List.mem_append_right _ List.mem_cons_self
  have hBelow :
      ∀ child, IsChild id parent rows key child →
        Descends id parent rows root child := by
    intro child hChild
    rcases hWalks.reached key hKey with rfl | hReached
    · exact .single hChild
    · exact .tail hReached hChild
  have hFresh :
      ∀ child, IsChild id parent rows key child →
        child ∉ taken ++ key :: queue := by
    intro child hChild hOld
    have hDescends := hBelow child hChild
    rcases hChild with ⟨row, hRow, hParent, rfl⟩
    rcases hWalks.parents row hRow hOld with
      hRoot | ⟨other, hTaken, hOther⟩
    · rw [hRoot] at hDescends
      exact hAcyclic hDescends
    · have hSame : other = key :=
        Option.some.inj (hOther.symm.trans hParent)
      rw [hSame] at hTaken
      exact
        (List.nodup_append.mp hWalks.nodup).2.2 key hTaken key
          List.mem_cons_self rfl
  refine ⟨?_, ?_, ?_, ?_⟩
  · rw [hSplit, List.nodup_append]
    refine ⟨hWalks.nodup, ?_, ?_⟩
    · exact
        List.Nodup.sublist
          (List.Sublist.map id List.filter_sublist) hUnique
    · rintro old hOld child hChild rfl
      exact hFresh old (mem_map_children_iff.mp hChild) hOld
  · intro other hOther
    rw [hSplit] at hOther
    rcases List.mem_append.mp hOther with hOld | hChild
    · exact hWalks.ofRows other hOld
    · rcases mem_map_children_iff.mp hChild with
        ⟨row, hRow, _, hID⟩
      exact ⟨row, hRow, hID⟩
  · intro other hOther
    rw [hSplit] at hOther
    rcases List.mem_append.mp hOther with hOld | hChild
    · exact hWalks.reached other hOld
    · exact .inr (hBelow other (mem_map_children_iff.mp hChild))
  · intro row hRow hMember
    rw [hSplit] at hMember
    rcases List.mem_append.mp hMember with hOld | hChild
    · rcases hWalks.parents row hRow hOld with
        hRoot | ⟨other, hTaken, hParent⟩
      · exact .inl hRoot
      · exact
          .inr
            ⟨other, List.mem_append_left _ hTaken, hParent⟩
    · rcases mem_map_children_iff.mp hChild with
        ⟨other, hOther, hParent, hID⟩
      have hSame : other = row :=
        hUnique.eq_of_key_eq hOther hRow hID
      subst hSame
      exact
        .inr
          ⟨key,
            List.mem_append_right _ List.mem_cons_self,
            hParent⟩

/- One pass for each row is enough, and none is found twice. -/
theorem exists_walk
    {fuel : Nat}
    (hUnique : Table.UniqueBy id rows)
    (hAcyclic : ¬ Descends id parent rows root root)
    (hWalks : Walks id parent rows root taken queue)
    (hFuel : rows.length < fuel + taken.length) :
    ∃ found,
      walk id parent rows fuel queue = some found ∧
        (taken ++ queue ++ found.map id).Nodup := by
  induction fuel generalizing taken queue with
  | zero =>
      have hLength := hWalks.length_le
      rw [List.length_append] at hLength
      omega
  | succ fuel ih =>
      cases queue with
      | nil =>
          refine ⟨[], rfl, ?_⟩
          rw [List.map_nil, List.append_nil]
          exact hWalks.nodup
      | cons key queue =>
          have hLonger :
              rows.length <
                fuel + (taken ++ [key]).length := by
            rw [List.length_append, List.length_singleton]
            omega
          rcases ih (hWalks.step hUnique hAcyclic) hLonger with
            ⟨found, hFound, hNodup⟩
          refine ⟨children parent rows key ++ found, ?_, ?_⟩
          · unfold walk
            rw [hFound, Option.map_some]
          · simpa using hNodup

------------------------------------------------------------
-- Leaves
------------------------------------------------------------

/- Of rows without a cycle, one has no child among them. -/
theorem exists_leaf
    {chosen : List ρ}
    (hAcyclic :
      ∀ row ∈ rows,
        ¬ Descends id parent rows (id row) (id row))
    (hSome : chosen ≠ [])
    (hRows : ∀ row ∈ chosen, row ∈ rows) :
    ∃ leaf ∈ chosen,
      ∀ row ∈ chosen, parent row ≠ some (id leaf) := by
  let below (lower upper : { row // row ∈ chosen }) : Prop :=
    Descends id parent rows (id upper.1) (id lower.1)
  have hTrans : IsTrans _ below :=
    ⟨fun _ _ _ hFirst hSecond => hSecond.trans hFirst⟩
  have hIrrefl : Std.Irrefl below :=
    ⟨fun row => hAcyclic row.1 (hRows row.1 row.2)⟩
  have hFinite : Finite { row // row ∈ chosen } :=
    chosen.finite_toSet.to_subtype
  have hWellFounded : WellFounded below :=
    Finite.wellFounded_of_trans_of_irrefl below
  rcases List.exists_mem_of_ne_nil chosen hSome with
    ⟨first, hFirst⟩
  rcases
      hWellFounded.has_min Set.univ
        ⟨⟨first, hFirst⟩, trivial⟩ with
    ⟨leaf, _, hMinimal⟩
  refine ⟨leaf.1, leaf.2, ?_⟩
  intro row hRow hParent
  apply hMinimal ⟨row, hRow⟩ trivial
  exact .single ⟨row, hRows row hRow, hParent, rfl⟩

end Descendants

end Foundation
