import Mathlib.Data.List.Induction
import Mathlib.Data.List.Nodup

/-
  Items that each name a parent, one after the other.

  A list is a path from a root when the first item names the
  root and every other the item before it.  Items in an order
  in which parents come first, of which no two share a parent,
  form a path.

  Main declarations:
    * `IsPath`
    * `IsPath.exists_child`
    * `isPath_of_ordered`
-/

------------------------------------------------------------
-- Paths
------------------------------------------------------------

namespace Foundation

variable {α ι : Type}
variable {id : α → ι}
variable {parent : α → Option ι}
variable {items : List α}

/- Every item names the one before it as its parent. -/
def IsPath
    (id : α → ι)
    (parent : α → Option ι) : ι → List α → Prop
  | _, [] => True
  | before, item :: rest =>
      parent item = some before ∧
        IsPath id parent (id item) rest

/- Where a path ends. -/
def pathEnd
    (id : α → ι) : ι → List α → ι
  | before, [] => before
  | _, item :: rest => pathEnd id (id item) rest

theorem IsPath.concat
    {before : ι}
    {last : α}
    (hPath : IsPath id parent before items)
    (hLast : parent last = some (pathEnd id before items)) :
    IsPath id parent before (items ++ [last]) := by
  induction items generalizing before with
  | nil => exact ⟨hLast, trivial⟩
  | cons item rest ih => exact ⟨hPath.1, ih hPath.2 hLast⟩

/- What a path goes through is its end, or has a child in it. -/
theorem IsPath.exists_child
    {before named : ι}
    (hPath : IsPath id parent before items)
    (hNamed :
      named = before ∨ ∃ item ∈ items, id item = named) :
    named = pathEnd id before items ∨
      ∃ child ∈ items, parent child = some named := by
  induction items generalizing before with
  | nil =>
      rcases hNamed with hBefore | ⟨item, hItem, _⟩
      · exact .inl hBefore
      · cases hItem
  | cons item rest ih =>
      rcases hNamed with rfl | ⟨other, hOther, hSame⟩
      · exact .inr ⟨item, List.mem_cons_self, hPath.1⟩
      · have hRest :
            named = id item ∨
              ∃ item ∈ rest, id item = named := by
          rcases List.mem_cons.mp hOther with rfl | hLater
          · exact .inl hSame.symm
          · exact .inr ⟨other, hLater, hSame⟩
        rcases ih hPath.2 hRest with
          hEnd | ⟨child, hChild, hNames⟩
        · exact .inl hEnd
        · exact
            .inr
              ⟨child, List.mem_cons_of_mem _ hChild, hNames⟩

/- Parents come first, and no two items share one. -/
theorem isPath_of_ordered
    {key : α → Nat}
    {root : ι}
    (hNodup : items.Nodup)
    (hOrdered :
      items.Pairwise fun first second =>
        key first ≤ key second)
    (hParent :
      ∀ item ∈ items,
        parent item = some root ∨
          ∃ before ∈ items,
            parent item = some (id before) ∧
              key before < key item)
    (hSingle :
      ∀ first ∈ items, ∀ second ∈ items,
        parent first = parent second → first = second) :
    IsPath id parent root items := by
  induction items using List.reverseRecOn with
  | nil => trivial
  | append_singleton items last ih =>
      rcases List.nodup_append.mp hNodup with
        ⟨hItems, _, hApart⟩
      rcases List.pairwise_append.mp hOrdered with
        ⟨hItemsOrdered, _, hBeforeLast⟩
      have hLast : last ∈ items ++ [last] :=
        List.mem_append_right _ List.mem_cons_self
      -- A parent lies strictly below the greatest key.
      have hEarlier :
          ∀ item ∈ items ++ [last],
            parent item = some root ∨
              ∃ before ∈ items,
                parent item = some (id before) ∧
                  key before < key item := by
        intro item hItem
        rcases hParent item hItem with
          hRoot | ⟨before, hBefore, hNames, hLess⟩
        · exact .inl hRoot
        · refine .inr ⟨before, ?_, hNames, hLess⟩
          rcases List.mem_append.mp hBefore with hIn | hIsLast
          · exact hIn
          · rw [List.mem_singleton.mp hIsLast] at hLess
            rcases List.mem_append.mp hItem with hIn | hIsItem
            · have hLe :=
                hBeforeLast item hIn last List.mem_cons_self
              omega
            · rw [List.mem_singleton.mp hIsItem] at hLess
              omega
      have hPath : IsPath id parent root items := by
        apply ih hItems hItemsOrdered
        · intro item hItem
          exact hEarlier item (List.mem_append_left _ hItem)
        · intro first hFirst second hSecond
          exact
            hSingle first (List.mem_append_left _ hFirst)
              second (List.mem_append_left _ hSecond)
      apply hPath.concat
      have hNamed :
          ∃ named,
            parent last = some named ∧
              (named = root ∨
                ∃ item ∈ items, id item = named) := by
        rcases hEarlier last hLast with
          hRoot | ⟨before, hBefore, hNames, _⟩
        · exact ⟨root, hRoot, .inl rfl⟩
        · exact ⟨id before, hNames, .inr ⟨before, hBefore, rfl⟩⟩
      rcases hNamed with ⟨named, hNames, hOnPath⟩
      rcases hPath.exists_child hOnPath with
        rfl | ⟨child, hChild, hChildNames⟩
      · exact hNames
      · exfalso
        have hSame :=
          hSingle child (List.mem_append_left _ hChild) last
            hLast (hChildNames.trans hNames.symm)
        exact hApart child hChild last List.mem_cons_self hSame

end Foundation
