import Mathlib.Data.List.DropRight

/-
  Streaks: the elements at the end of a list that all
  satisfy a condition, back to the last one that does not.

  A streak is told from the most recent elements alone, as
  long as enough of them are kept.

  Main declarations:
    * `Streak.streak`
    * `Streak.length_streak_of_suffix`
    * `Streak.le_length_streak_iff`
    * `Streak.filter_isSuffix`
-/

------------------------------------------------------------
-- Streaks
------------------------------------------------------------

namespace Foundation

namespace Streak

variable {α : Type}
variable {p : α → Bool}
variable {past : List α}
variable {next : α}
variable {count : Nat}

def streak
    (p : α → Bool)
    (past : List α) : List α :=
  past.rtakeWhile p

@[simp]
theorem streak_nil :
    streak p ([] : List α) = [] :=
  List.rtakeWhile_nil p

/- One more element that satisfies it makes it one longer. -/
theorem streak_concat
    (hNext : p next = true) :
    streak p (past ++ [next]) = streak p past ++ [next] :=
  List.rtakeWhile_concat_pos _ _ _ hNext

/- An element that does not satisfy it ends a streak. -/
theorem streak_concat_of_not
    (hNext : p next = false) :
    streak p (past ++ [next]) = [] :=
  List.rtakeWhile_concat_neg _ _ _ (by simp [hNext])

theorem streak_suffix :
    streak p past <:+ past :=
  List.rtakeWhile_suffix _ _

theorem length_streak :
    (streak p past).length =
      (past.reverse.takeWhile p).length :=
  List.length_reverse

/- The recent part of a list shows as much as it keeps. -/
theorem length_streak_of_suffix
    {recent : List α}
    (hRecent : recent <:+ past) :
    (streak p recent).length =
      min recent.length (streak p past).length := by
  have hTake :
      recent.reverse = past.reverse.take recent.length := by
    have hPrefix := List.reverse_prefix.mpr hRecent
    rw [List.prefix_iff_eq_take, List.length_reverse]
      at hPrefix
    exact hPrefix
  rw [length_streak, length_streak, hTake,
    ← List.take_takeWhile, List.length_take]

/- A list starts with that many elements that satisfy it. -/
theorem le_length_takeWhile_iff
    {values : List α} :
    count ≤ (values.takeWhile p).length ↔
      count ≤ values.length ∧
        (values.take count).all p = true := by
  induction values generalizing count with
  | nil =>
      rw [List.takeWhile_nil, List.take_nil]
      exact ⟨fun hCount => ⟨hCount, rfl⟩, And.left⟩
  | cons value values ih =>
      cases count with
      | zero => simp
      | succ count =>
          cases hValue : p value with
          | true => simp [hValue, ih]
          | false => simp [hValue]

/- The newest elements tell whether a streak is so long. -/
theorem le_length_streak_iff :
    count ≤ (streak p past).length ↔
      count ≤ past.length ∧
        (past.reverse.take count).all p = true := by
  rw [length_streak, le_length_takeWhile_iff,
    List.length_reverse]

------------------------------------------------------------
-- What Is Kept
------------------------------------------------------------

variable {keeps : α → Bool}

/- A condition that later elements keep holds at the end. -/
theorem filter_isSuffix
    (hKeeps :
      past.Pairwise fun first second =>
        keeps first = true → keeps second = true) :
    past.filter keeps <:+ past := by
  induction past with
  | nil => exact List.suffix_rfl
  | cons first rest ih =>
      rcases List.pairwise_cons.mp hKeeps with
        ⟨hFirst, hRest⟩
      by_cases hKept : keeps first = true
      · have hAll :
            (first :: rest).filter keeps = first :: rest := by
          rw [List.filter_eq_self]
          intro value hValue
          rcases List.mem_cons.mp hValue with rfl | hLater
          · exact hKept
          · exact hFirst value hLater hKept
        exact ⟨[], hAll⟩
      · rw [List.filter_cons_of_neg hKept]
        exact (ih hRest).trans (List.suffix_cons first rest)

/-
  What is kept shows a whole streak exactly when each of the
  streak's elements is kept.
-/
theorem length_streak_filter_iff
    (hKeeps :
      past.Pairwise fun first second =>
        keeps first = true → keeps second = true) :
    (streak p past).length ≤
        (streak p (past.filter keeps)).length ↔
      ∀ value ∈ streak p past, keeps value = true := by
  have hSuffix := filter_isSuffix hKeeps
  rw [length_streak_of_suffix hSuffix, Nat.le_min]
  constructor
  · rintro ⟨hLength, _⟩ value hValue
    -- The shorter of two endings of a list is in the longer.
    have hInside : streak p past <:+ past.filter keeps :=
      List.suffix_of_suffix_length_le streak_suffix hSuffix
        hLength
    exact (List.mem_filter.mp (hInside.mem hValue)).2
  · intro hAll
    refine ⟨?_, le_rfl⟩
    have hWhole :
        (streak p past).filter keeps = streak p past :=
      List.filter_eq_self.mpr hAll
    have hSuffixAll : streak p past <:+ past := streak_suffix
    have hSublist := hSuffixAll.sublist.filter keeps
    rw [hWhole] at hSublist
    exact hSublist.length_le

end Streak

end Foundation
