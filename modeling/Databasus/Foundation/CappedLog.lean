import Databasus.Foundation.SlidingWindow
import Mathlib.Data.List.Basic

/-
  A window over a log of which only the end is kept.

  Instants are recorded in order.  Those before the window are
  dropped, and of the others the last ones up to a cap.  What
  is kept then counts as the whole log does, up to the cap.

  Main declarations:
    * `CappedLog.keepLast`
    * `CappedLog.since`
    * `CappedLog.since_keepLast`
    * `CappedLog.keepLast_record`
    * `CappedLog.length_le_iff`
-/

------------------------------------------------------------
-- The End of a Log
------------------------------------------------------------

namespace Foundation

namespace CappedLog

variable {α : Type}
variable {cap : Nat}
variable {log : List α}

/- The last instants, the oldest of them first. -/
def keepLast
    (cap : Nat)
    (log : List α) : List α :=
  log.drop (log.length - cap)

theorem keepLast_of_length_le
    (hLength : log.length ≤ cap) :
    keepLast cap log = log := by
  unfold keepLast
  rw [Nat.sub_eq_zero_of_le hLength, List.drop_zero]

theorem keepLast_cons_of_length_le
    {first : α}
    (hLength : cap ≤ log.length) :
    keepLast cap (first :: log) = keepLast cap log := by
  unfold keepLast
  rw [List.length_cons, Nat.succ_sub hLength,
    List.drop_succ_cons]

theorem length_keepLast
    (cap : Nat)
    (log : List α) :
    (keepLast cap log).length = min cap log.length := by
  unfold keepLast
  rw [List.length_drop]
  omega

theorem mem_of_mem_keepLast
    {instant : α}
    (hMember : instant ∈ keepLast cap log) :
    instant ∈ log :=
  List.mem_of_mem_drop hMember

/- What was capped before is not needed for the last ones. -/
theorem keepLast_record
    (limit : Nat)
    (log : List α)
    (instant : α) :
    keepLast (limit + 1)
        (keepLast (limit + 1) log ++ [instant]) =
      keepLast (limit + 1) (log ++ [instant]) := by
  by_cases hShort : log.length ≤ limit + 1
  · rw [keepLast_of_length_le hShort]
  · unfold keepLast
    rw [List.length_append, List.length_append,
      List.length_drop, List.length_singleton,
      List.drop_append_of_le_length
        (by rw [List.length_drop]; omega),
      List.drop_append_of_le_length (by omega),
      List.drop_drop]
    congr 2
    omega

/- The last instant is never capped away. -/
theorem mem_keepLast_record
    (limit : Nat)
    (log : List α)
    (instant : α) :
    instant ∈ keepLast (limit + 1) (log ++ [instant]) := by
  unfold keepLast
  rw [List.length_append, List.length_singleton,
    Nat.add_sub_add_right,
    List.drop_append_of_le_length (Nat.sub_le _ _)]
  exact List.mem_append_right _ List.mem_cons_self

------------------------------------------------------------
-- The Window
------------------------------------------------------------

variable [LinearOrder α]
variable {start instant : α}

/- The instants past the start of a window. -/
def since
    (start : α)
    (log : List α) : List α :=
  log.filter fun instant => start < instant

theorem mem_since_iff :
    instant ∈ since start log ↔
      instant ∈ log ∧ start < instant := by
  unfold since
  rw [List.mem_filter, decide_eq_true_eq]

theorem since_record
    (hAfter : start < instant)
    (log : List α) :
    since start (log ++ [instant]) =
      since start log ++ [instant] := by
  unfold since
  rw [List.filter_append]
  congr 1
  exact
    List.filter_eq_self.mpr fun other hOther => by
      rw [List.mem_singleton.mp hOther]
      exact decide_eq_true hAfter

theorem since_eq_nil
    {start : α}
    (hBefore : ∀ instant ∈ log, instant ≤ start) :
    since start log = [] := by
  apply List.filter_eq_nil_iff.mpr
  intro instant hMember
  rw [decide_eq_true_eq]
  exact not_lt.mpr (hBefore instant hMember)

/- A later window is read from what an earlier one left. -/
theorem since_since
    {start later : α}
    (hLater : start ≤ later)
    (log : List α) :
    since later (since start log) = since later log := by
  unfold since
  rw [List.filter_filter]
  apply List.filter_congr
  intro instant _
  by_cases hAfter : later < instant
  · have hBoth := lt_of_le_of_lt hLater hAfter
    simp only [hAfter, hBoth, decide_true, Bool.and_self]
  · simp only [hAfter, decide_false, Bool.false_and]

/- In an ordered log the window is the end of the log. -/
theorem since_keepLast
    (start : α)
    (cap : Nat)
    (hOrdered : log.Pairwise (· ≤ ·)) :
    since start (keepLast cap log) =
      keepLast cap (since start log) := by
  induction log with
  | nil =>
      unfold keepLast since
      simp only [List.drop_nil, List.filter_nil]
  | cons first log ih =>
      rcases List.pairwise_cons.mp hOrdered with
        ⟨hFirst, hRest⟩
      have hFiltered : (since start log).length ≤ log.length :=
        List.length_filter_le _ log
      by_cases hShort : (first :: log).length ≤ cap
      · have hFewer :
            (since start (first :: log)).length ≤ cap :=
          (List.length_filter_le _ _).trans hShort
        rw [keepLast_of_length_le hShort,
          keepLast_of_length_le hFewer]
      · have hCap : cap ≤ log.length := by
          rw [List.length_cons] at hShort
          omega
        rw [keepLast_cons_of_length_le hCap, ih hRest]
        unfold since
        rw [List.filter_cons]
        split
        · next hAfter =>
            -- everything after the first instant is in the window
            have hAll :
                log.filter (fun instant => start < instant) =
                  log := by
              apply List.filter_eq_self.mpr
              intro instant hMember
              exact
                decide_eq_true
                  ((of_decide_eq_true hAfter).trans_le
                    (hFirst instant hMember))
            rw [hAll, keepLast_cons_of_length_le hCap]
        · rfl

/- The count of the log is within a limit below the cap. -/
theorem length_le_iff
    {start : α}
    {limit : Nat}
    (log : List α) :
    (keepLast (limit + 1) (since start log)).length ≤ limit ↔
      SlidingWindow.countSince start log ≤ limit := by
  rw [length_keepLast]
  unfold SlidingWindow.countSince since
  rw [List.countP_eq_length_filter]
  omega

end CappedLog

end Foundation
