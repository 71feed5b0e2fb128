import Mathlib.Data.List.Basic

/-
  Binary search for the first index that a predicate selects.

  The search halves an interval of indices.  It finds the
  first selected index of a predicate that, once it selects,
  goes on to select.

  Main declarations:
    * `Search.searchBetween`
    * `Search.search`
    * `Search.search_spec`
    * `Search.filter_eq_drop_search`
-/

------------------------------------------------------------
-- The Search
------------------------------------------------------------

namespace Foundation

namespace Search

/- Halve the interval until it is empty. -/
def searchBetween
    (selects : Nat → Bool) : Nat → Nat → Nat → Nat
  | 0, low, _ => low
  | fuel + 1, low, high =>
      if low < high then
        let middle := (low + high) / 2
        if selects middle then
          searchBetween selects fuel low middle
        else
          searchBetween selects fuel (middle + 1) high
      else
        low

/- The length bounds how often an interval can shrink. -/
def search
    (length : Nat)
    (selects : Nat → Bool) : Nat :=
  searchBetween selects length 0 length

variable {selects : Nat → Bool}
variable {length : Nat}

/-
  The interval keeps the first selected index: what lies
  below it is not selected, what lies above it is.
-/
theorem searchBetween_spec
    (hMonotone :
      ∀ i j, i ≤ j → j < length →
        selects i = true → selects j = true)
    (fuel : Nat) :
    ∀ {low high : Nat},
      low ≤ high →
      high ≤ length →
      high - low ≤ fuel →
      (∀ i < low, selects i = false) →
      (∀ i, high ≤ i → i < length → selects i = true) →
      searchBetween selects fuel low high ≤ length ∧
        (∀ i < searchBetween selects fuel low high,
          selects i = false) ∧
        ∀ i, searchBetween selects fuel low high ≤ i →
          i < length → selects i = true := by
  induction fuel with
  | zero =>
      intro low high hOrder hHigh hFuel hBelow hAbove
      have hEmpty : low = high := by omega
      subst hEmpty
      exact ⟨hHigh, hBelow, hAbove⟩
  | succ fuel ih =>
      intro low high hOrder hHigh hFuel hBelow hAbove
      unfold searchBetween
      by_cases hSome : low < high
      · simp only [hSome, if_true]
        have hLow : low ≤ (low + high) / 2 := by omega
        have hMiddle : (low + high) / 2 < high := by omega
        cases hSelects : selects ((low + high) / 2) with
        | true =>
            simp only [if_true]
            apply ih hLow (by omega) (by omega) hBelow
            intro i hFrom hTo
            exact hMonotone _ i hFrom hTo hSelects
        | false =>
            simp only [Bool.false_eq_true, if_false]
            refine ih (by omega) hHigh (by omega) ?_ hAbove
            intro i hUpTo
            by_contra hSelected
            rw [Bool.not_eq_false] at hSelected
            have hLater :=
              hMonotone i ((low + high) / 2) (by omega)
                (by omega) hSelected
            rw [hSelects] at hLater
            cases hLater
      · simp only [hSome, if_false]
        have hEmpty : low = high := by omega
        subst hEmpty
        exact ⟨hHigh, hBelow, hAbove⟩

/- The result splits the indices by the predicate. -/
theorem search_spec
    (hMonotone :
      ∀ i j, i ≤ j → j < length →
        selects i = true → selects j = true) :
    search length selects ≤ length ∧
      (∀ i < search length selects,
        selects i = false) ∧
      ∀ i, search length selects ≤ i →
        i < length → selects i = true :=
  searchBetween_spec hMonotone length (Nat.zero_le _)
    (Nat.le_refl _) (by omega)
    (fun _ hBelow => absurd hBelow (Nat.not_lt_zero _))
    (fun _ hFrom hTo => absurd hTo (Nat.not_lt.mpr hFrom))

------------------------------------------------------------
-- Searching a List
------------------------------------------------------------

variable {α : Type}

/- The index of the first item that the predicate selects. -/
def searchList
    (selects : α → Bool)
    (items : List α) : Nat :=
  search items.length fun index =>
    items[index]?.any selects

/-
  From the found index on stands what the predicate selects,
  when no selected item comes before one that is not.
-/
theorem filter_eq_drop_search
    {selects : α → Bool}
    {items : List α}
    (hMonotone :
      items.Pairwise fun first second =>
        selects first = true → selects second = true) :
    items.filter selects =
      items.drop (searchList selects items) := by
  have hIndices :
      ∀ i j, i ≤ j → j < items.length →
        items[i]?.any selects = true →
          items[j]?.any selects = true := by
    intro i j hOrder hBound hSelects
    rcases Nat.lt_or_eq_of_le hOrder with hBefore | rfl
    · have hFirst : i < items.length := by omega
      have hPair :=
        List.pairwise_iff_getElem.mp hMonotone i j hFirst
          hBound hBefore
      rw [List.getElem?_eq_getElem hFirst] at hSelects
      rw [List.getElem?_eq_getElem hBound]
      exact hPair hSelects
    · exact hSelects
  rcases search_spec hIndices with ⟨_, hBelow, hAbove⟩
  have hTaken :
      (items.take (searchList selects items)).filter
          selects =
        [] := by
    rw [List.filter_eq_nil_iff]
    intro item hItem
    rcases List.mem_take_iff_getElem.mp hItem with
      ⟨i, hIndex, rfl⟩
    have hFalse := hBelow i (by
      unfold searchList at hIndex
      omega)
    rw [List.getElem?_eq_getElem (by omega)] at hFalse
    simpa using hFalse
  have hDropped :
      (items.drop (searchList selects items)).filter
          selects =
        items.drop (searchList selects items) := by
    rw [List.filter_eq_self]
    intro item hItem
    rcases List.mem_drop_iff_getElem.mp hItem with
      ⟨i, hIndex, rfl⟩
    have hTrue :=
      hAbove (searchList selects items + i) (by
        unfold searchList
        omega) (by omega)
    rw [List.getElem?_eq_getElem (by omega)] at hTrue
    simpa using hTrue
  calc
    items.filter selects =
        (items.take (searchList selects items) ++
          items.drop (searchList selects items)).filter
            selects := by
      rw [List.take_append_drop]
    _ = items.drop (searchList selects items) := by
      rw [List.filter_append, hTaken, hDropped,
        List.nil_append]

end Search

end Foundation
