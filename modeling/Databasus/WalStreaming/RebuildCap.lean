import Databasus.Foundation.CappedLog
import Databasus.WalStreaming.SlotRebuild

/-
  The cap on rebuilds holds for every hour.

  A streamer keeps the times of the rebuilds of the last hour.
  What it forgets can count in no later hour either, so that
  its decisions are those of a log of all allowed rebuilds.

  Main declarations:
    * `decideRebuilds`, `allowedTimes`
    * `RecordsLog`
    * `admitted_allowedTimes`
    * `rebuilds_within_cap`
-/

------------------------------------------------------------
-- Requests and Decisions
------------------------------------------------------------

namespace Databasus

namespace WalStreaming

/- The decisions on requests, each with its time. -/
def decideRebuilds :
    List Time → List Time → List (Time × Bool)
  | _, [] => []
  | rebuildTimestamps, now :: later =>
      let attempt :=
        recordRebuildAttemptWithinCap rebuildTimestamps now
      (now, attempt.2) :: decideRebuilds attempt.1 later

def allowedTimes
    (decisions : List (Time × Bool)) : List Time :=
  (decisions.filter fun decision => decision.2).map Prod.fst

theorem allowedTimes_append
    (before after : List (Time × Bool)) :
    allowedTimes (before ++ after) =
      allowedTimes before ++ allowedTimes after := by
  unfold allowedTimes
  rw [List.filter_append, List.map_append]

------------------------------------------------------------
-- The Log of Allowed Rebuilds
------------------------------------------------------------

open Foundation
open Foundation.CappedLog (since)

variable {rebuildTimestamps log times : List Time}
variable {now : Time}

/-
  What is kept counts as the log does in the hours that end
  at the times to come, and the log lies before these.
-/
structure RecordsLog
    (rebuildTimestamps log times : List Time) : Prop where
  since_eq :
    ∀ now ∈ times,
      since (now - Duration.hour) rebuildTimestamps =
        since (now - Duration.hour) log
  past : ∀ now ∈ times, ∀ instant ∈ log, instant ≤ now

/- What the attempt keeps is the hour of the log. -/
theorem RecordsLog.attempt_eq
    (hRecords :
      RecordsLog rebuildTimestamps log (now :: times)) :
    recordRebuildAttemptWithinCap rebuildTimestamps now =
      if
        slotRebuildMaxAttemptsPerHour ≤
          SlidingWindow.countSince (now - Duration.hour) log
      then
        (since (now - Duration.hour) log, false)
      else
        (since (now - Duration.hour) log ++ [now], true) := by
  have hKept := hRecords.since_eq now List.mem_cons_self
  unfold recordRebuildAttemptWithinCap
  change
    (if
        slotRebuildMaxAttemptsPerHour ≤
          (since (now - Duration.hour)
            rebuildTimestamps).length
      then
        (since (now - Duration.hour) rebuildTimestamps, false)
      else
        (since (now - Duration.hour) rebuildTimestamps ++
          [now], true)) = _
  rw [hKept]
  unfold SlidingWindow.countSince
  rw [List.countP_eq_length_filter]
  rfl

/- A refused request leaves the log as it is. -/
theorem RecordsLog.refused
    (hRecords :
      RecordsLog rebuildTimestamps log (now :: times))
    (hOrdered : (now :: times).Pairwise (· ≤ ·)) :
    RecordsLog (since (now - Duration.hour) log) log
      times := by
  refine ⟨?_, ?_⟩
  · intro later hLater
    apply CappedLog.since_since
    exact
      sub_le_sub_right
        ((List.pairwise_cons.mp hOrdered).1 later hLater) _
  · intro later hLater
    exact hRecords.past later (List.mem_cons_of_mem _ hLater)

/- An allowed one is recorded in the log. -/
theorem RecordsLog.allowed
    (hRecords :
      RecordsLog rebuildTimestamps log (now :: times))
    (hOrdered : (now :: times).Pairwise (· ≤ ·)) :
    RecordsLog (since (now - Duration.hour) log ++ [now])
      (log ++ [now]) times := by
  have hOrder := (List.pairwise_cons.mp hOrdered).1
  refine ⟨?_, ?_⟩
  · intro later hLater
    have hStart :
        now - Duration.hour ≤ later - Duration.hour :=
      sub_le_sub_right (hOrder later hLater) _
    unfold CappedLog.since
    rw [List.filter_append, List.filter_append]
    congr 1
    exact CappedLog.since_since hStart log
  · intro later hLater instant hInstant
    rcases List.mem_append.mp hInstant with hOld | hNew
    · exact
        hRecords.past later (List.mem_cons_of_mem _ hLater)
          instant hOld
    · rw [List.mem_singleton.mp hNew]
      exact hOrder later hLater

------------------------------------------------------------
-- Runs of Requests
------------------------------------------------------------

open Foundation.SlidingWindow
  (Admitted countSince countWithin)

/- Every allowed rebuild was within the cap of its hour. -/
theorem admitted_allowedTimes
    (hRecords : RecordsLog rebuildTimestamps log times)
    (hOrdered : times.Pairwise (· ≤ ·))
    (hAdmitted :
      Admitted slotRebuildMaxAttemptsPerHour Duration.hour
        log.reverse) :
    Admitted slotRebuildMaxAttemptsPerHour Duration.hour
      (log ++
        allowedTimes
          (decideRebuilds rebuildTimestamps
            times)).reverse := by
  induction times generalizing rebuildTimestamps log with
  | nil =>
      change
        Admitted slotRebuildMaxAttemptsPerHour Duration.hour
          (log ++ []).reverse
      rw [List.append_nil]
      exact hAdmitted
  | cons now times ih =>
      have hRest := (List.pairwise_cons.mp hOrdered).2
      unfold decideRebuilds
      rw [hRecords.attempt_eq]
      split
      · exact ih (hRecords.refused hOrdered) hRest hAdmitted
      · next hRoom =>
          have hStep := ih (hRecords.allowed hOrdered) hRest
          rw [List.append_assoc] at hStep
          apply hStep
          rw [List.reverse_append]
          refine ⟨?_, hAdmitted⟩
          have hBelow := not_le.mp hRoom
          unfold countSince at hBelow
          rw [← List.countP_reverse] at hBelow
          exact hBelow

/- A refused request has found the cap reached in its hour. -/
theorem countSince_of_refused
    {before after : List (Time × Bool)}
    (hRecords : RecordsLog rebuildTimestamps log times)
    (hOrdered : times.Pairwise (· ≤ ·))
    (hDecisions :
      decideRebuilds rebuildTimestamps times =
        before ++ (now, false) :: after) :
    slotRebuildMaxAttemptsPerHour ≤
        countSince (now - Duration.hour)
          (log ++ allowedTimes before) ∧
      ∀ instant ∈ log ++ allowedTimes before,
        instant ≤ now := by
  induction times generalizing
      rebuildTimestamps log before with
  | nil =>
      have hLength := congrArg List.length hDecisions
      simp [decideRebuilds] at hLength
  | cons first times ih =>
      have hRest := (List.pairwise_cons.mp hOrdered).2
      unfold decideRebuilds at hDecisions
      rw [hRecords.attempt_eq] at hDecisions
      cases before with
      | nil =>
          split at hDecisions
          · next hFull =>
              have hHead := (List.cons.inj hDecisions).1
              rw [← (Prod.mk.inj hHead).1]
              change
                slotRebuildMaxAttemptsPerHour ≤
                    countSince (first - Duration.hour)
                      (log ++ []) ∧
                  ∀ instant ∈ log ++ [], instant ≤ first
              rw [List.append_nil]
              exact
                ⟨hFull,
                  hRecords.past first List.mem_cons_self⟩
          · have hHead := (List.cons.inj hDecisions).1
            cases (Prod.mk.inj hHead).2
      | cons decision before =>
          split at hDecisions
          · have hHead := (List.cons.inj hDecisions).1
            subst hHead
            have hTail :
                decideRebuilds
                    (since (first - Duration.hour) log)
                    times =
                  before ++ (now, false) :: after :=
              (List.cons.inj hDecisions).2
            have hStep :=
              ih (hRecords.refused hOrdered) hRest hTail
            exact hStep
          · have hHead := (List.cons.inj hDecisions).1
            subst hHead
            have hStep :=
              ih (hRecords.allowed hOrdered) hRest
                (List.cons.inj hDecisions).2
            rw [List.append_assoc] at hStep
            exact hStep

/-
  Every hour has the cap of allowed rebuilds at most, wherever
  it begins, and a request is refused only at the end of an
  hour that has as many.
-/
theorem rebuilds_within_cap
    (times : List Time)
    (hOrdered : times.Pairwise (· ≤ ·)) :
    (∀ start,
        countWithin start Duration.hour
            (allowedTimes (decideRebuilds [] times)) ≤
          slotRebuildMaxAttemptsPerHour) ∧
      (∀ start,
        ((allowedTimes (decideRebuilds [] times)).countP
            fun instant =>
              start ≤ instant &&
                instant < start + Duration.hour) ≤
          slotRebuildMaxAttemptsPerHour) ∧
      ∀ before now after,
        decideRebuilds [] times =
            before ++ (now, false) :: after →
          countWithin (now - Duration.hour) Duration.hour
              (allowedTimes before) =
            slotRebuildMaxAttemptsPerHour := by
  have hRecords : RecordsLog [] [] times :=
    ⟨fun _ _ => rfl,
      fun _ _ _ hNone => absurd hNone List.not_mem_nil⟩
  have hAdmitted :=
    admitted_allowedTimes hRecords hOrdered trivial
  rw [List.nil_append] at hAdmitted
  have hWindows :
      ∀ start,
        countWithin start Duration.hour
            (allowedTimes (decideRebuilds [] times)) ≤
          slotRebuildMaxAttemptsPerHour := by
    intro start
    have hWindow := hAdmitted.window_le start
    unfold countWithin at hWindow ⊢
    rw [List.countP_reverse] at hWindow
    exact hWindow
  refine ⟨hWindows, ?_, ?_⟩
  · intro start
    rw [← List.countP_reverse]
    apply hAdmitted.countP_le
    intro first second hFirst hSecond
    simp only [Bool.and_eq_true,
      decide_eq_true_eq] at hFirst hSecond
    exact
      lt_of_lt_of_le (sub_lt_iff_lt_add.mpr hFirst.2)
        hSecond.1
  · intro before now after hDecisions
    rcases
        countSince_of_refused hRecords hOrdered hDecisions with
      ⟨hFull, hPast⟩
    rw [List.nil_append] at hFull hPast
    have hSame :
        countWithin (now - Duration.hour) Duration.hour
            (allowedTimes before) =
          countSince (now - Duration.hour)
            (allowedTimes before) := by
      apply List.countP_congr
      intro instant hInstant
      simp only [Bool.and_eq_true, decide_eq_true_eq,
        sub_add_cancel]
      exact and_iff_left (hPast instant hInstant)
    apply le_antisymm
    · apply (hWindows (now - Duration.hour)).trans'
      rw [hDecisions, allowedTimes_append]
      unfold countWithin
      rw [List.countP_append]
      exact Nat.le_add_right _ _
    · rw [hSame]
      exact hFull

/- The fourth request within seconds finds the cap reached. -/
theorem fourth_rebuild_found_cap_reached :
    countWithin (30 * Duration.second - Duration.hour)
        Duration.hour
        (allowedTimes
          [(0, true), (10 * Duration.second, true),
            (20 * Duration.second, true)]) =
      slotRebuildMaxAttemptsPerHour :=
  (rebuilds_within_cap
      [0, 10 * Duration.second, 20 * Duration.second,
        30 * Duration.second] (by decide)).2.2
    _ _ [] (by decide +kernel)

end WalStreaming

end Databasus
