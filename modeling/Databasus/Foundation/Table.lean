import Mathlib.Data.List.Nodup
import Mathlib.Data.List.Sort

/-
  Tables of rows that carry a key.

  A table is the list of its rows.  The statements of a store
  are functions on it: `updateWhere` and `deleteWhere` act on
  the selected rows and leave the others as they are, and
  `affected` counts the rows a statement selects.

  Main declarations:
    * `Table.updateWhere`
    * `Table.deleteWhere`
    * `Table.affected`
    * `Table.lookup`
    * `Table.UniqueBy`
    * `Table.UniqueBy.eq_of_key_eq`
    * `Table.firstBy`
-/

------------------------------------------------------------
-- Statements
------------------------------------------------------------

namespace Foundation

namespace Table

variable {ρ κ : Type}
variable {selects : ρ → Bool}
variable {change : ρ → ρ}
variable {rows : List ρ}
variable {row : ρ}
variable {key : ρ → κ}
variable {wanted : κ}

/- Change every selected row in place. -/
def updateWhere
    (selects : ρ → Bool)
    (change : ρ → ρ)
    (rows : List ρ) : List ρ :=
  rows.map fun row =>
    if selects row then change row else row

/- Remove every selected row. -/
def deleteWhere
    (selects : ρ → Bool)
    (rows : List ρ) : List ρ :=
  rows.filter fun row => !selects row

/- How many rows a statement selects. -/
def affected
    (selects : ρ → Bool)
    (rows : List ρ) : Nat :=
  rows.countP selects

/- The row stored under a key. -/
def lookup
    [DecidableEq κ]
    (key : ρ → κ)
    (wanted : κ)
    (rows : List ρ) : Option ρ :=
  rows.find? fun row => key row = wanted

/- Rows of an updated table come from rows of the old one. -/
theorem mem_updateWhere_iff
    (selects : ρ → Bool)
    (change : ρ → ρ)
    (rows : List ρ)
    (row : ρ) :
    row ∈ updateWhere selects change rows ↔
      ∃ old ∈ rows,
        (if selects old then change old else old) =
          row := by
  simp [updateWhere]

/- An unselected row survives an update unchanged. -/
theorem mem_updateWhere_of_not
    (hMember : row ∈ rows)
    (hSelects : selects row = false) :
    row ∈ updateWhere selects change rows := by
  rw [mem_updateWhere_iff]
  exact ⟨row, hMember, by simp [hSelects]⟩

/- A selected row is stored changed. -/
theorem mem_updateWhere_of_selects
    (hMember : row ∈ rows)
    (hSelects : selects row = true) :
    change row ∈ updateWhere selects change rows := by
  rw [mem_updateWhere_iff]
  exact ⟨row, hMember, by simp [hSelects]⟩

/- A deletion keeps exactly the rows it does not select. -/
@[simp]
theorem mem_deleteWhere_iff
    (selects : ρ → Bool)
    (rows : List ρ)
    (row : ρ) :
    row ∈ deleteWhere selects rows ↔
      row ∈ rows ∧ selects row = false := by
  simp [deleteWhere]

/- A statement affects no row when it selects none. -/
theorem affected_eq_zero_iff
    (selects : ρ → Bool)
    (rows : List ρ) :
    affected selects rows = 0 ↔
      ∀ row ∈ rows, selects row = false := by
  simp [affected, List.countP_eq_zero]

/- A statement that affects no row leaves the table alone. -/
theorem updateWhere_of_affected_eq_zero
    (hAffected : affected selects rows = 0) :
    updateWhere selects change rows = rows := by
  have hNone := (affected_eq_zero_iff selects rows).mp hAffected
  unfold updateWhere
  conv_rhs => rw [← List.map_id rows]
  apply List.map_congr_left
  intro row hMember
  simp [hNone row hMember]

/- A row that a lookup finds is stored under that key. -/
theorem lookup_some
    [DecidableEq κ]
    (hLookup : lookup key wanted rows = some row) :
    row ∈ rows ∧ key row = wanted := by
  refine ⟨List.mem_of_find?_eq_some hLookup, ?_⟩
  simpa using List.find?_some hLookup

/- An update that keeps keys changes what a key finds. -/
theorem lookup_updateWhere
    [DecidableEq κ]
    (hKeeps : ∀ row, key (change row) = key row)
    (wanted : κ)
    (rows : List ρ) :
    lookup key wanted (updateWhere selects change rows) =
      (lookup key wanted rows).map fun row =>
        if selects row then change row else row := by
  unfold lookup updateWhere
  rw [List.find?_map]
  have hSame :
      ((fun row => decide (key row = wanted)) ∘ fun row =>
          if selects row then change row else row) =
        fun row => decide (key row = wanted) := by
    funext row
    by_cases hSelects : selects row = true
    · simp [hSelects, hKeeps row]
    · simp [hSelects]
  rw [hSame]

/- A row that takes the place of its key is what it finds. -/
theorem lookup_replaced
    [DecidableEq κ]
    (row : ρ)
    (rows : List ρ) :
    lookup key (key row)
        (updateWhere (fun old => key old = key row)
          (fun _ => row) rows) =
      (lookup key (key row) rows).map fun _ => row := by
  unfold lookup updateWhere
  induction rows with
  | nil => rfl
  | cons old rows ih =>
      by_cases hKey : key old = key row
      · simp [hKey]
      · simpa [hKey] using ih

/- Deleting rows of other keys does not change a lookup. -/
theorem lookup_deleteWhere
    [DecidableEq κ]
    (hOthers :
      ∀ row, selects row = true → key row ≠ wanted)
    (rows : List ρ) :
    lookup key wanted (deleteWhere selects rows) =
      lookup key wanted rows := by
  unfold lookup deleteWhere
  rw [List.find?_filter]
  congr 1
  funext row
  by_cases hSelects : selects row = true
  · simp [hSelects, hOthers row hSelects]
  · simp [hSelects]

/- A lookup that finds nothing: no row has the key. -/
theorem lookup_eq_none_iff
    [DecidableEq κ] :
    lookup key wanted rows = none ↔
      ∀ row ∈ rows, key row ≠ wanted := by
  simp [lookup]

------------------------------------------------------------
-- Unique Keys
------------------------------------------------------------

/- No two rows of the table share a key. -/
def UniqueBy
    (key : ρ → κ)
    (rows : List ρ) : Prop :=
  (rows.map key).Nodup

instance instDecidableUniqueBy
    [DecidableEq κ]
    (key : ρ → κ)
    (rows : List ρ) :
    Decidable (UniqueBy key rows) :=
  inferInstanceAs (Decidable (rows.map key).Nodup)

/- Rows with the same unique key are the same row. -/
theorem UniqueBy.eq_of_key_eq
    (hUnique : UniqueBy key rows)
    {first second : ρ}
    (hFirst : first ∈ rows)
    (hSecond : second ∈ rows)
    (hKey : key first = key second) :
    first = second :=
  List.inj_on_of_nodup_map hUnique hFirst hSecond hKey

/- A row of a uniquely keyed table is what its key finds. -/
theorem UniqueBy.lookup_eq_some
    [DecidableEq κ]
    (hUnique : UniqueBy key rows)
    (hMember : row ∈ rows) :
    lookup key (key row) rows = some row := by
  cases hLookup : lookup key (key row) rows with
  | none =>
      exact absurd rfl
        (lookup_eq_none_iff.mp hLookup row hMember)
  | some found =>
      rcases lookup_some hLookup with ⟨hFound, hKey⟩
      rw [hUnique.eq_of_key_eq hFound hMember hKey]

/- Changing rows under their keys keeps the keys unique. -/
theorem UniqueBy.updateSelected
    (hUnique : UniqueBy key rows)
    (hKeeps :
      ∀ row, selects row = true →
        key (change row) = key row) :
    UniqueBy key (updateWhere selects change rows) := by
  have hKeys :
      (Table.updateWhere selects change rows).map key =
        rows.map key := by
    unfold Table.updateWhere
    rw [List.map_map]
    apply List.map_congr_left
    intro row _
    by_cases hSelects : selects row = true
    · simp [hSelects, hKeeps row hSelects]
    · simp [hSelects]
  unfold UniqueBy
  rw [hKeys]
  exact hUnique

/- An update that keeps keys keeps them unique. -/
theorem UniqueBy.updateWhere
    (hUnique : UniqueBy key rows)
    (hKeeps : ∀ row, key (change row) = key row) :
    UniqueBy key (updateWhere selects change rows) :=
  hUnique.updateSelected fun row _ => hKeeps row

/- A statement on one key leaves every other row alone. -/
theorem UniqueBy.updateWhere_split
    {before after : List ρ}
    (hUnique : UniqueBy key (before ++ row :: after))
    (hKey :
      ∀ other, selects other = true → key other = key row) :
    Table.updateWhere selects change
        (before ++ row :: after) =
      before ++
        (if selects row then change row else row) ::
          after := by
  have hDistinct :
      ∀ other ∈ before ++ after, key other ≠ key row := by
    intro other hOther hSame
    have hParts :
        (key row :: (before ++ after).map key).Nodup := by
      have hPerm :
          ((before ++ row :: after).map key).Perm
            (key row :: (before ++ after).map key) := by
        rw [← List.map_cons]
        exact List.Perm.map key List.perm_middle
      exact hPerm.nodup_iff.mp hUnique
    exact
      (List.nodup_cons.mp hParts).1
        (hSame ▸ List.mem_map_of_mem hOther)
  have hAlone :
      ∀ rows : List ρ,
        (∀ other ∈ rows, other ∈ before ++ after) →
          Table.updateWhere selects change rows = rows := by
    intro rows hRows
    apply updateWhere_of_affected_eq_zero
    rw [affected_eq_zero_iff]
    intro other hOther
    by_contra hSelects
    exact
      hDistinct other (hRows other hOther)
        (hKey other (by simpa using hSelects))
  have hBefore :=
    hAlone before fun other hOther =>
      List.mem_append_left _ hOther
  have hAfter :=
    hAlone after fun other hOther =>
      List.mem_append_right _ hOther
  unfold Table.updateWhere at hBefore hAfter ⊢
  rw [List.map_append, List.map_cons, hBefore, hAfter]

/- A statement on one key affects the one row it selects. -/
theorem UniqueBy.affected_eq_one
    (hUnique : UniqueBy key rows)
    (hMember : row ∈ rows)
    (hSelects : selects row = true)
    (hKey :
      ∀ other, selects other = true → key other = key row) :
    affected selects rows = 1 := by
  have hOnly :
      ∀ other ∈ rows, selects other = true → other = row :=
    fun other hOther hSelected =>
      hUnique.eq_of_key_eq hOther hMember
        (hKey other hSelected)
  have hNodup : (rows.filter selects).Nodup :=
    (List.Nodup.of_map key hUnique).filter selects
  have hSingle : rows.filter selects = [row] := by
    have hPerm : (rows.filter selects).Perm [row] := by
      apply
        (List.perm_ext_iff_of_nodup hNodup
          (List.nodup_singleton row)).mpr
      intro other
      rw [List.mem_filter, List.mem_singleton]
      constructor
      · rintro ⟨hOther, hSelected⟩
        exact hOnly other hOther hSelected
      · rintro rfl
        exact ⟨hMember, hSelects⟩
    exact List.perm_singleton.mp hPerm
  unfold affected
  rw [List.countP_eq_length_filter, hSingle]
  rfl

/- Deleting the row of a key takes that row away alone. -/
theorem UniqueBy.perm_cons_deleteWhere
    [DecidableEq κ]
    (hUnique : UniqueBy key rows)
    (hMember : row ∈ rows) :
    rows.Perm
      (row ::
        Table.deleteWhere
          (fun other => key other = key row) rows) := by
  have hNodup : rows.Nodup := List.Nodup.of_map key hUnique
  have hRest :
      (row ::
          Table.deleteWhere
            (fun other => key other = key row) rows).Nodup := by
    refine List.nodup_cons.mpr ⟨?_, hNodup.filter _⟩
    intro hDeleted
    exact
      of_decide_eq_false
        ((mem_deleteWhere_iff _ _ _).mp hDeleted).2 rfl
  apply (List.perm_ext_iff_of_nodup hNodup hRest).mpr
  intro other
  rw [List.mem_cons, mem_deleteWhere_iff,
    decide_eq_false_iff_not]
  constructor
  · intro hOther
    by_cases hKey : key other = key row
    · exact Or.inl (hUnique.eq_of_key_eq hOther hMember hKey)
    · exact Or.inr ⟨hOther, hKey⟩
  · rintro (rfl | ⟨hOther, _⟩)
    · exact hMember
    · exact hOther

/- A deletion keeps keys unique. -/
theorem UniqueBy.deleteWhere
    (hUnique : UniqueBy key rows)
    (selects : ρ → Bool) :
    UniqueBy key (deleteWhere selects rows) :=
  List.Nodup.sublist
    (List.Sublist.map key List.filter_sublist) hUnique

/- Appending a row with a fresh key keeps keys unique. -/
theorem UniqueBy.append
    (hUnique : UniqueBy key rows)
    (hFresh : ∀ old ∈ rows, key old ≠ key row) :
    UniqueBy key (rows ++ [row]) := by
  unfold UniqueBy
  rw [List.map_append, List.map_singleton]
  apply List.Nodup.append hUnique (List.nodup_singleton _)
  intro k hOld hNew
  rcases List.mem_map.mp hOld with ⟨old, hMember, rfl⟩
  exact hFresh old hMember (List.mem_singleton.mp hNew)

------------------------------------------------------------
-- The First Row of a Query
------------------------------------------------------------

/- A query with an order that takes the first of its rows. -/
def firstBy
    (precedes : ρ → ρ → Prop)
    [DecidableRel precedes]
    (selects : ρ → Bool)
    (rows : List ρ) : Option ρ :=
  ((rows.filter selects).insertionSort precedes).head?

variable {precedes : ρ → ρ → Prop}
variable [DecidableRel precedes]
variable {selects : ρ → Bool}
variable {rows : List ρ}

theorem firstBy_eq_none_iff :
    firstBy precedes selects rows = none ↔
      ∀ row ∈ rows, selects row = false := by
  unfold firstBy
  rw [List.head?_eq_none_iff, ← List.length_eq_zero_iff,
    List.length_insertionSort, List.length_eq_zero_iff,
    List.filter_eq_nil_iff]
  simp only [Bool.not_eq_true]

theorem mem_of_firstBy
    {row : ρ}
    (hFirst : firstBy precedes selects rows = some row) :
    row ∈ rows ∧ selects row = true := by
  have hSorted := List.mem_of_head? hFirst
  rw [List.mem_insertionSort] at hSorted
  exact List.mem_filter.mp hSorted

/- No selected row comes before the first one. -/
theorem firstBy_precedes
    [Std.Total precedes]
    [IsTrans ρ precedes]
    {row other : ρ}
    (hFirst : firstBy precedes selects rows = some row)
    (hOther : other ∈ rows)
    (hSelected : selects other = true) :
    precedes row other := by
  have hSorted :
      other ∈
        (rows.filter selects).insertionSort precedes :=
    (List.mem_insertionSort precedes).mpr
      (List.mem_filter.mpr ⟨hOther, hSelected⟩)
  have hOrder :=
    List.pairwise_insertionSort precedes
      (rows.filter selects)
  unfold firstBy at hFirst
  cases hList :
      (rows.filter selects).insertionSort precedes with
  | nil =>
      rw [hList] at hSorted
      cases hSorted
  | cons first rest =>
      rw [hList] at hFirst hSorted hOrder
      cases hFirst
      rcases List.mem_cons.mp hSorted with rfl | hRest
      · have hSelf :
            precedes other other ∨ precedes other other :=
          Std.Total.total _ _
        exact hSelf.elim id id
      · exact List.rel_of_pairwise_cons hOrder hRest

end Table

end Foundation
