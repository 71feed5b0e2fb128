import Mathlib.Algebra.BigOperators.Group.List.Basic
import Mathlib.Data.List.Induction

/-
  Sums over the pairs of neighbours in a list.

  Only the pairs that a relation selects count.  A list that
  grows at its end adds at most one pair.

  Main declarations:
    * `ConsecutivePairs.pairs`
    * `ConsecutivePairs.sumOver`
    * `ConsecutivePairs.sumOver_concat`
-/

------------------------------------------------------------
-- Pairs
------------------------------------------------------------

namespace Foundation

namespace ConsecutivePairs

variable {α M : Type}

/- Each element but the last, with the one after it. -/
def pairs
    (values : List α) : List (α × α) :=
  values.zip values.tail

theorem pairs_concat
    (values : List α)
    (last next : α) :
    pairs ((values ++ [last]) ++ [next]) =
      pairs (values ++ [last]) ++ [(last, next)] := by
  induction values with
  | nil => rfl
  | cons value values ih =>
      cases values with
      | nil => rfl
      | cons second values =>
          exact congrArg (List.cons (value, second)) ih

variable [AddCommMonoid M]

/- What the selected pairs of neighbours gain in total. -/
def sumOver
    (selects : α → α → Bool)
    (gain : α → α → M)
    (values : List α) : M :=
  (((pairs values).filter fun pair =>
      selects pair.1 pair.2).map fun pair =>
        gain pair.1 pair.2).sum

variable {selects : α → α → Bool}
variable {gain : α → α → M}

/- One more element adds the pair it closes, if selected. -/
theorem sumOver_concat
    (values : List α)
    (next : α) :
    sumOver selects gain (values ++ [next]) =
      sumOver selects gain values +
        match values.getLast? with
        | none => 0
        | some last =>
            if selects last next then gain last next else 0 := by
  induction values using List.reverseRecOn with
  | nil => exact (add_zero 0).symm
  | append_singleton values last _ =>
      unfold sumOver
      rw [pairs_concat, List.filter_append, List.map_append,
        List.sum_append, List.getLast?_concat]
      congr 1
      cases hSelects : selects last next with
      | true => simp [hSelects]
      | false => simp [hSelects]

end ConsecutivePairs

end Foundation
