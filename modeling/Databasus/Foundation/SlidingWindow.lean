import Mathlib.Algebra.Order.Group.Defs

/-
  Limits that hold over every window of a given length.

  An instant is admitted while few enough of the earlier
  admitted ones lie past the start of the window it ends.
  Then no window holds more than the limit, in whatever order
  the instants were admitted.

  Main declarations:
    * `SlidingWindow.countSince`
    * `SlidingWindow.Admitted`
    * `SlidingWindow.Admitted.countP_le`
    * `SlidingWindow.Admitted.window_le`
-/

------------------------------------------------------------
-- Windows
------------------------------------------------------------

namespace Foundation

namespace SlidingWindow

variable {α : Type}
variable [AddCommGroup α] [LinearOrder α]
variable {limit : Nat}
variable {window : α}

def countSince
    (since : α)
    (instants : List α) : Nat :=
  instants.countP fun instant => since < instant

/- The instants after a start, up to the window's end. -/
def countWithin
    (start window : α)
    (instants : List α) : Nat :=
  instants.countP fun instant =>
    start < instant && instant ≤ start + window

/- Each instant, the last one first, was let in by a count. -/
def Admitted
    (limit : Nat)
    (window : α) : List α → Prop
  | [] => True
  | instant :: earlier =>
      countSince (instant - window) earlier < limit ∧
        Admitted limit window earlier

/-
  Where any two instants lie less than a window apart, there
  are no more than the limit.
-/
theorem Admitted.countP_le
    {isInside : α → Bool}
    (hInside :
      ∀ first second,
        isInside first = true → isInside second = true →
          first - window < second)
    {instants : List α}
    (hAdmitted : Admitted limit window instants) :
    instants.countP isInside ≤ limit := by
  induction instants with
  | nil => exact Nat.zero_le limit
  | cons instant earlier ih =>
      rcases hAdmitted with ⟨hCount, hEarlier⟩
      rw [List.countP_cons]
      by_cases hWithin : isInside instant = true
      · -- the others inside were counted as well
        have hOthers :
            earlier.countP isInside ≤
              countSince (instant - window) earlier := by
          apply List.countP_mono_left
          intro other _ hOther
          rw [decide_eq_true_eq]
          exact hInside instant other hWithin hOther
        rw [if_pos hWithin]
        omega
      · rw [if_neg hWithin]
        exact ih hEarlier

variable [IsOrderedAddMonoid α]

/- No window holds more instants than the limit. -/
theorem Admitted.window_le
    (start : α)
    {instants : List α}
    (hAdmitted : Admitted limit window instants) :
    countWithin start window instants ≤ limit := by
  apply hAdmitted.countP_le
  intro first second hFirst hSecond
  simp only [Bool.and_eq_true,
    decide_eq_true_eq] at hFirst hSecond
  have hStart : first - window ≤ start :=
    sub_le_iff_le_add.mpr hFirst.2
  exact lt_of_le_of_lt hStart hSecond.1

end SlidingWindow

end Foundation
