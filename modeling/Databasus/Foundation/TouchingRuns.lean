import Mathlib.Data.List.Chain
import Mathlib.Order.Lattice

/-
  Runs of half-open spans, each of which ends where the next
  one starts.

  Such a run fills the span from its first start to its last
  end.

  Main declarations:
    * `Touching.IsRun`
    * `Touching.IsRun.head_le`
    * `Touching.IsRun.le_last`
    * `Touching.IsRun.exists_covers`
-/

------------------------------------------------------------
-- Runs
------------------------------------------------------------

namespace Foundation

namespace Touching

variable {α ι : Type}
variable [LinearOrder ι]

/- Each span holds something and ends where the next starts. -/
structure IsRun
    (start stop : α → ι)
    (spans : List α) : Prop where
  holds : ∀ span ∈ spans, start span < stop span
  touches :
    spans.IsChain fun first second =>
      stop first = start second

variable {start stop : α → ι}
variable {first last span : α}
variable {rest spans : List α}

theorem IsRun.tail
    (hRun : IsRun start stop (first :: rest)) :
    IsRun start stop rest :=
  { holds := fun span hSpan =>
      hRun.holds span (List.mem_cons_of_mem _ hSpan)
    touches := hRun.touches.tail }

theorem IsRun.head_le
    (hRun : IsRun start stop (first :: rest))
    (hSpan : span ∈ first :: rest) :
    start first ≤ start span := by
  induction rest generalizing first with
  | nil => rw [List.mem_singleton.mp hSpan]
  | cons second rest ih =>
      rcases List.mem_cons.mp hSpan with rfl | hRest
      · exact le_refl _
      · have hHolds :=
          hRun.holds first List.mem_cons_self
        have hTouches : stop first = start second :=
          (List.isChain_cons_cons.mp hRun.touches).1
        calc
          start first ≤ stop first := le_of_lt hHolds
          _ = start second := hTouches
          _ ≤ start span := ih hRun.tail hRest

theorem IsRun.le_last
    (hRun : IsRun start stop (first :: rest))
    (hLast : (first :: rest).getLast? = some last)
    (hSpan : span ∈ first :: rest) :
    stop span ≤ stop last := by
  induction rest generalizing first span with
  | nil =>
      rw [List.mem_singleton.mp hSpan]
      simp only [List.getLast?_singleton,
        Option.some.injEq] at hLast
      rw [hLast]
  | cons second rest ih =>
      rw [List.getLast?_cons_cons] at hLast
      rcases List.mem_cons.mp hSpan with rfl | hRest
      · have hHolds :=
          hRun.holds second (by simp)
        have hTouches : stop span = start second :=
          (List.isChain_cons_cons.mp hRun.touches).1
        calc
          stop span = start second := hTouches
          _ ≤ stop second := le_of_lt hHolds
          _ ≤ stop last := ih hRun.tail hLast List.mem_cons_self
      · exact ih hRun.tail hLast hRest

/- A run leaves no point of its extent out. -/
theorem IsRun.exists_covers
    {point : ι}
    (hRun : IsRun start stop (first :: rest))
    (hLast : (first :: rest).getLast? = some last)
    (hAfter : start first ≤ point)
    (hBefore : point < stop last) :
    ∃ span ∈ first :: rest,
      start span ≤ point ∧ point < stop span := by
  induction rest generalizing first with
  | nil =>
      simp only [List.getLast?_singleton,
        Option.some.injEq] at hLast
      subst hLast
      exact ⟨first, List.mem_cons_self, hAfter, hBefore⟩
  | cons second rest ih =>
      rw [List.getLast?_cons_cons] at hLast
      by_cases hFirst : point < stop first
      · exact ⟨first, List.mem_cons_self, hAfter, hFirst⟩
      · have hTouches : stop first = start second :=
          (List.isChain_cons_cons.mp hRun.touches).1
        rw [not_lt, hTouches] at hFirst
        rcases ih hRun.tail hLast hFirst with
          ⟨span, hSpan, hCovers⟩
        exact ⟨span, List.mem_cons_of_mem _ hSpan, hCovers⟩

end Touching

end Foundation
