import Databasus.Foundation.Streaks
import Databasus.Healthcheck.Attempts
import Mathlib.Tactic.Linarith

/-
  The status of a database over any run of checks.

  A pass reads the stored attempts before it deletes the old
  ones.  So a pass finds the attempts that the pass before it
  kept, and a streak of failures is reported when it is full
  exactly if all of it was still kept then.

  Main declarations:
    * `Probe`, `checkAll`
    * `FollowsStreaks`
    * `KeepsStreaks`
    * `check_spec`
    * `ownAttempts_checkAll`
    * `followsStreaks_iff_keepsStreaks`
-/

------------------------------------------------------------
-- Runs
------------------------------------------------------------

namespace Databasus

namespace Healthcheck

open Foundation Streak

/- A result of a probe, and the pass that records it. -/
structure Probe where
  attemptID : Uuid
  status : HealthStatus
  now : Time
deriving DecidableEq, Repr

def Probe.outcome
    (probe : Probe) : ProbeOutcome :=
  match probe.status with
  | .available => .answered
  | .unavailable => .failed

def Probe.hasFailed
    (probe : Probe) : Bool :=
  probe.status = .unavailable

/- The attempt that a pass stores for its probe. -/
def Probe.attempt
    (probe : Probe)
    (databaseID : Uuid) : Attempt :=
  { id := probe.attemptID
    databaseID := databaseID
    status := probe.status
    createdAt := probe.now }

def check
    (databaseID : Uuid)
    (s : HealthcheckState)
    (probe : Probe) : HealthcheckState :=
  (checkDatabase s databaseID probe.attemptID probe.outcome
    probe.now).1

def checkAll
    (databaseID : Uuid)
    (s : HealthcheckState)
    (probes : List Probe) : HealthcheckState :=
  probes.foldl (check databaseID) s

def statusOf
    (databaseID : Uuid)
    (s : HealthcheckState) : Option HealthStatus :=
  (Table.lookup Database.id databaseID s.databases).bind
    Database.healthStatus

/- The status is another before the pass and this one after. -/
def Becomes
    (databaseID : Uuid)
    (status : HealthStatus)
    (s : HealthcheckState)
    (probe : Probe) : Prop :=
  statusOf databaseID s ≠ some status ∧
    statusOf databaseID (check databaseID s probe) =
      some status

instance instDecidableBecomes
    (databaseID : Uuid)
    (status : HealthStatus)
    (s : HealthcheckState)
    (probe : Probe) :
    Decidable (Becomes databaseID status s probe) :=
  inferInstanceAs (Decidable (_ ∧ _))

/- How many passes of a run change the status. -/
def changes
    (databaseID : Uuid) : HealthcheckState → List Probe → Nat
  | _, [] => 0
  | s, probe :: probes =>
      let checked := check databaseID s probe
      (if statusOf databaseID checked = statusOf databaseID s
        then 0 else 1) + changes databaseID checked probes

/-
  No check of the database has been made, and it is not known
  to be unavailable.
-/
structure IsStart
    (config : Config)
    (s : HealthcheckState) : Prop where
  stored :
    ∃ userDatabase,
      Table.lookup Database.id config.databaseID
        s.databases = some userDatabase
  available :
    statusOf config.databaseID s ≠ some .unavailable
  current :
    Table.lookup Config.databaseID config.databaseID
      s.configs = some config
  unchecked :
    ∀ attempt ∈ s.attempts,
      attempt.databaseID ≠ config.databaseID

/- The failures since the last success, or since the start. -/
def failures
    (probes : List Probe) : List Probe :=
  streak Probe.hasFailed probes

/-
  The status turns at the failure that fills the threshold
  and at the first success, and each turn is notified.
-/
structure FollowsStreaks
    (config : Config)
    (s : HealthcheckState)
    (probes : List Probe) : Prop where
  unavailable :
    ∀ before probe after,
      probes = before ++ probe :: after →
        (Becomes config.databaseID .unavailable
            (checkAll config.databaseID s before) probe ↔
          (failures (before ++ [probe])).length =
            config.failedAttemptsBeforeUnavailable)
  available :
    ∀ before probe after,
      probes = before ++ probe :: after →
        (Becomes config.databaseID .available
            (checkAll config.databaseID s before) probe ↔
          probe.status = .available ∧
            statusOf config.databaseID
              (checkAll config.databaseID s before) ≠
                some .available)
  notified :
    ∀ before after,
      probes = before ++ after →
        (checkAll config.databaseID s before).notifications.length =
          s.notifications.length +
            changes config.databaseID s before

/- A pass after these ones still finds the attempt. -/
def isKeptAfter
    (config : Config)
    (before : List Probe)
    (probe : Probe) : Bool :=
  before.getLast?.all fun last =>
    config.retentionCutoff last.now ≤ probe.now

/-
  Whenever a streak fills the threshold, the pass before has
  kept all of its failures.
-/
def KeepsStreaks
    (config : Config)
    (probes : List Probe) : Prop :=
  ∀ before probe after,
    probes = before ++ probe :: after →
      (failures (before ++ [probe])).length =
          config.failedAttemptsBeforeUnavailable →
        ∀ failure ∈ failures (before ++ [probe]),
          isKeptAfter config before failure = true

------------------------------------------------------------
-- One Pass
------------------------------------------------------------

variable {config : Config}
variable {s : HealthcheckState}
variable {probe : Probe}

/- The rows that the pass reads are there. -/
structure IsMonitored
    (config : Config)
    (s : HealthcheckState) : Prop where
  stored :
    ∃ userDatabase,
      Table.lookup Database.id config.databaseID
        s.databases = some userDatabase
  current :
    Table.lookup Config.databaseID config.databaseID
      s.configs = some config

def ownAttempts
    (databaseID : Uuid)
    (attempts : List Attempt) : List Attempt :=
  attempts.filter fun attempt =>
    attempt.databaseID = databaseID

/- What the pass of a probe decides. -/
def decided
    (config : Config)
    (s : HealthcheckState)
    (probe : Probe) : Option HealthStatus :=
  getTransition
    { previousStatus := statusOf config.databaseID s
      status := probe.status
      failedAttemptsBeforeUnavailable :=
        config.failedAttemptsBeforeUnavailable
      recentAttempts :=
        listAttempts
          (s.attempts ++ [probe.attempt config.databaseID])
          { databaseID := config.databaseID
            since := none
            limit := config.failedAttemptsBeforeUnavailable }
          none }

theorem getTransition_eq_some_iff
    {input : TransitionInput}
    {changed : HealthStatus} :
    getTransition input = some changed ↔
      changed = input.status ∧
        input.previousStatus ≠ some input.status ∧
          (input.status = .available ∨
            input.failedAttemptsBeforeUnavailable ≤
                input.recentAttempts.length ∧
              (input.recentAttempts.take
                input.failedAttemptsBeforeUnavailable).all
                  (fun attempt =>
                    attempt.status = .unavailable) = true) := by
  unfold getTransition
  split
  · rename_i hSame
    simp [hSame]
  · rename_i hDiffers
    split
    · rename_i hAvailable
      constructor
      · rintro ⟨⟩
        exact ⟨rfl, hDiffers, Or.inl hAvailable⟩
      · rintro ⟨rfl, _⟩
        rfl
    · rename_i hFailed
      split
      · rename_i hFew
        simp [hFailed, Nat.not_le.mpr hFew]
      · rename_i hEnough
        have hEnough := Nat.not_lt.mp hEnough
        split
        · rename_i hAll
          constructor
          · rintro ⟨⟩
            exact ⟨rfl, hDiffers, Or.inr ⟨hEnough, hAll⟩⟩
          · rintro ⟨rfl, _⟩
            rfl
        · rename_i hSome
          simp [hFailed, hSome]

@[simp]
theorem outcome_status :
    probe.outcome.status = some probe.status := by
  unfold Probe.outcome
  cases probe.status <;> rfl

def storeAttempt
    (config : Config)
    (s : HealthcheckState)
    (probe : Probe) : List Attempt :=
  deleteBefore
    (s.attempts ++ [probe.attempt config.databaseID])
    config.databaseID (config.retentionCutoff probe.now)

theorem check_eq
    {userDatabase : Database}
    (hStored :
      Table.lookup Database.id config.databaseID
        s.databases = some userDatabase)
    (hCurrent :
      Table.lookup Config.databaseID config.databaseID
        s.configs = some config)
    (hEnabled : config.isHealthcheckEnabled = true)
    (hNotified : config.isNotificationEnabled = true) :
    check config.databaseID s probe =
      match decided config s probe with
      | none =>
          { s with attempts := storeAttempt config s probe }
      | some changed =>
          { s with
            databases :=
              setHealthStatus s.databases config.databaseID
                (some changed)
            attempts := storeAttempt config s probe
            notifications :=
              s.notifications ++
                [notify userDatabase changed] } := by
  have hStatus :
      statusOf config.databaseID s =
        userDatabase.healthStatus := by
    unfold statusOf
    rw [hStored]
    rfl
  unfold check checkDatabase recordAttempt decided
    storeAttempt Probe.attempt
  rw [hStatus]
  simp only [outcome_status, hStored, hCurrent, hEnabled,
    hNotified, if_true]
  generalize getTransition _ = transition
  cases transition <;> rfl

/- The pass, as the rows of its database show it. -/
theorem check_spec
    (probe : Probe)
    (hMonitored : IsMonitored config s)
    (hEnabled : config.isHealthcheckEnabled = true)
    (hNotified : config.isNotificationEnabled = true) :
    IsMonitored config (check config.databaseID s probe) ∧
      statusOf config.databaseID
          (check config.databaseID s probe) =
        (decided config s probe).or
          (statusOf config.databaseID s) ∧
      (check config.databaseID s probe).attempts =
        storeAttempt config s probe ∧
      (check config.databaseID s probe).notifications.length =
        s.notifications.length +
          (decided config s probe).toList.length := by
  rcases hMonitored with ⟨⟨userDatabase, hStored⟩, hCurrent⟩
  rw [check_eq hStored hCurrent hEnabled hNotified]
  cases decided config s probe with
  | none =>
      exact ⟨⟨⟨userDatabase, hStored⟩, hCurrent⟩, rfl, rfl,
        rfl⟩
  | some changed =>
      have hFound :
          Table.lookup Database.id config.databaseID
              (setHealthStatus s.databases config.databaseID
                (some changed)) =
            some
              { userDatabase with
                healthStatus := some changed } := by
        rw [lookup_setHealthStatus, hStored]
        rfl
      refine ⟨⟨⟨_, hFound⟩, hCurrent⟩, ?_, rfl, ?_⟩
      · unfold statusOf
        rw [hFound]
        rfl
      · exact List.length_append

/- What the pass decides is a turn of the status. -/
theorem becomes_iff_decided
    (hMonitored : IsMonitored config s)
    (hEnabled : config.isHealthcheckEnabled = true)
    (hNotified : config.isNotificationEnabled = true)
    (status : HealthStatus) :
    Becomes config.databaseID status s probe ↔
      decided config s probe = some status := by
  rcases check_spec probe hMonitored hEnabled hNotified with
    ⟨_, hStatus, _⟩
  unfold Becomes
  rw [hStatus]
  cases hDecided : decided config s probe with
  | none => simp
  | some changed =>
      rcases getTransition_eq_some_iff.mp hDecided with
        ⟨rfl, hDiffers, _⟩
      simp only [Option.some_or, Option.some.injEq]
      refine ⟨And.right, ?_⟩
      rintro rfl
      exact ⟨hDiffers, rfl⟩

------------------------------------------------------------
-- Stored Attempts
------------------------------------------------------------

open Foundation Streak Window

variable {before : List Probe}
variable {failure : Probe}

/- Each of the probes is later than the ones before it. -/
def IsRising
    (probes : List Probe) : Prop :=
  probes.Pairwise fun first second => first.now < second.now

theorem isRising_of_apart
    {probes : List Probe}
    (hSaved : config.MayBeSaved)
    (hApart :
      probes.Pairwise fun first second =>
        first.now + config.interval ≤ second.now) :
    IsRising probes := by
  have hPositive : 0 < config.interval := by
    have hMinutes : (1 : Int) ≤ config.intervalMinutes := by
      exact_mod_cast hSaved.1
    unfold Config.interval Duration.minute Duration.second
    linarith
  refine hApart.imp ?_
  intro first second hBoth
  linarith

theorem IsStart.isMonitored
    (hStart : IsStart config s) :
    IsMonitored config s :=
  ⟨hStart.stored, hStart.current⟩

theorem checkAll_concat
    (databaseID : Uuid) :
    checkAll databaseID s (before ++ [probe]) =
      check databaseID (checkAll databaseID s before)
        probe := by
  unfold checkAll
  rw [List.foldl_concat]

theorem isMonitored_checkAll
    (before : List Probe)
    (hMonitored : IsMonitored config s)
    (hEnabled : config.isHealthcheckEnabled = true)
    (hNotified : config.isNotificationEnabled = true) :
    IsMonitored config
      (checkAll config.databaseID s before) := by
  induction before using List.reverseRecOn with
  | nil => exact hMonitored
  | append_singleton before probe ih =>
      rw [checkAll_concat]
      exact (check_spec probe ih hEnabled hNotified).1

/- A pass keeps what is no older than the retention. -/
theorem ownAttempts_storeAttempt :
    ownAttempts config.databaseID
        (storeAttempt config s probe) =
      (ownAttempts config.databaseID s.attempts ++
          [probe.attempt config.databaseID]).filter
        fun attempt =>
          config.retentionCutoff probe.now ≤
            attempt.createdAt := by
  have hOwn :
      ownAttempts config.databaseID s.attempts ++
          [probe.attempt config.databaseID] =
        ownAttempts config.databaseID
          (s.attempts ++
            [probe.attempt config.databaseID]) := by
    unfold ownAttempts
    rw [List.filter_append]
    simp [Probe.attempt]
  rw [hOwn]
  unfold ownAttempts storeAttempt deleteBefore
    Table.deleteWhere
  rw [List.filter_filter, List.filter_filter]
  apply List.filter_congr
  intro attempt _
  by_cases hDatabase :
      attempt.databaseID = config.databaseID
  · rcases
        lt_or_ge attempt.createdAt
          (config.retentionCutoff probe.now) with
      hOld | hKept
    · simp [hDatabase, hOld, not_le.mpr hOld]
    · simp [hDatabase, hKept, not_lt.mpr hKept]
  · simp [hDatabase]

theorem isKeptAfter_concat :
    isKeptAfter config (before ++ [probe]) failure =
      decide
        (config.retentionCutoff probe.now ≤ failure.now) := by
  unfold isKeptAfter
  rw [List.getLast?_concat]
  rfl

theorem retentionCutoff_le
    (now : Time) :
    config.retentionCutoff now ≤ now := by
  unfold Config.retentionCutoff Duration.hour Duration.minute
    Duration.second
  have hDays : (0 : Int) ≤ config.attemptRetentionDays :=
    Int.natCast_nonneg _
  linarith

/- What a later pass keeps, the passes before have kept. -/
theorem isKeptAfter_of_later
    (hRising : IsRising (before ++ [probe]))
    (hKept :
      config.retentionCutoff probe.now ≤ failure.now) :
    isKeptAfter config before failure = true := by
  unfold isKeptAfter
  rw [Option.all_eq_true]
  intro last hLast
  have hLater : last.now < probe.now :=
    (List.pairwise_append.mp hRising).2.2 last
      (List.mem_of_getLast? hLast) probe
      (List.mem_singleton_self _)
  unfold Config.retentionCutoff at hKept ⊢
  rw [decide_eq_true_iff]
  linarith

theorem isKeptAfter_self
    (hRising : IsRising (before ++ [probe])) :
    isKeptAfter config before probe = true :=
  isKeptAfter_of_later hRising (retentionCutoff_le probe.now)

/- After a run, the attempts are what its last pass kept. -/
theorem ownAttempts_checkAll
    (hStart : IsStart config s)
    (hEnabled : config.isHealthcheckEnabled = true)
    (hNotified : config.isNotificationEnabled = true)
    (hRising : IsRising before) :
    ownAttempts config.databaseID
        (checkAll config.databaseID s before).attempts =
      (before.filter (isKeptAfter config before)).map
        fun probe => probe.attempt config.databaseID := by
  induction before using List.reverseRecOn with
  | nil =>
      unfold ownAttempts
      rw [List.filter_eq_nil_iff.mpr]
      · rfl
      · intro attempt hAttempt
        simpa using hStart.unchecked attempt hAttempt
  | append_singleton before probe ih =>
      have hMonitored :=
        isMonitored_checkAll before
          hStart.isMonitored hEnabled hNotified
      have hBefore : IsRising before :=
        (List.pairwise_append.mp hRising).1
      rw [checkAll_concat,
        (check_spec probe hMonitored hEnabled
          hNotified).2.2.1,
        ownAttempts_storeAttempt, ih hBefore]
      have hWhole :
          (before.filter (isKeptAfter config before)).map
                (fun probe =>
                  probe.attempt config.databaseID) ++
              [probe.attempt config.databaseID] =
            ((before ++ [probe]).filter
                (isKeptAfter config before)).map
              fun probe =>
                probe.attempt config.databaseID := by
        rw [List.filter_append, List.map_append,
          List.filter_cons_of_pos (isKeptAfter_self hRising)]
        rfl
      rw [hWhole, List.filter_map, List.filter_filter]
      congr 1
      apply List.filter_congr
      intro failure _
      rw [isKeptAfter_concat]
      by_cases hKept :
          config.retentionCutoff probe.now ≤ failure.now
      · simp [Probe.attempt, hKept,
          isKeptAfter_of_later hRising hKept]
      · simp [Probe.attempt, hKept]

------------------------------------------------------------
-- What a Pass Reads
------------------------------------------------------------

/- Attempts in order of time are read from the last down. -/
theorem listAttempts_eq
    {attempts : List Attempt}
    {databaseID : Uuid}
    (hOrdered :
      IsOrdered Attempt.cursor
        (ownAttempts databaseID attempts))
    (limit : Nat) :
    listAttempts attempts
        { databaseID := databaseID
          since := none
          limit := limit }
        none =
      (ownAttempts databaseID attempts).reverse.take limit := by
  have hDistinct :
      ((ownAttempts databaseID attempts).map
        Attempt.cursor).Nodup :=
    List.pairwise_map.mpr (hOrdered.imp fun hLt => hLt.ne)
  have hAll :
      attempts.filter
          (fun attempt =>
            attempt.databaseID = databaseID &&
              (none : Option Time).all fun since =>
                since ≤ attempt.createdAt) =
        ownAttempts databaseID attempts := by
    unfold ownAttempts
    apply List.filter_congr
    intro attempt _
    exact Bool.and_true _
  have hEvery :
      ∀ rows : List Attempt,
        rows.filter (Paging.isAfter Attempt.cursor none) =
          rows :=
    fun rows => List.filter_eq_self.mpr fun _ _ => rfl
  unfold listAttempts Paging.pageAfter
  rw [hAll, hEvery, orderByDesc_eq_reverse hDistinct,
    orderBy_eq_self hOrdered]

/- Later probes leave attempts with greater cursors. -/
theorem isOrdered_attempts
    {probes : List Probe}
    (hRising : IsRising probes)
    (databaseID : Uuid) :
    IsOrdered Attempt.cursor
      (probes.map fun probe => probe.attempt databaseID) := by
  refine List.pairwise_map.mpr (hRising.imp ?_)
  intro first second hLater
  exact Prod.Lex.toLex_lt_toLex.mpr (Or.inl hLater)

/- The failures that a pass after these ones can still see. -/
def seenFailures
    (config : Config)
    (before : List Probe)
    (probe : Probe) : List Probe :=
  failures
    ((before ++ [probe]).filter (isKeptAfter config before))

/- A pass reports a failure on the failures that it sees. -/
theorem decided_eq_unavailable_iff
    (hStart : IsStart config s)
    (hEnabled : config.isHealthcheckEnabled = true)
    (hNotified : config.isNotificationEnabled = true)
    (hRising : IsRising (before ++ [probe])) :
    decided config
          (checkAll config.databaseID s before) probe =
        some .unavailable ↔
      probe.status = .unavailable ∧
        statusOf config.databaseID
            (checkAll config.databaseID s before) ≠
          some .unavailable ∧
          config.failedAttemptsBeforeUnavailable ≤
            (seenFailures config before probe).length := by
  have hOwn :
      ownAttempts config.databaseID
          ((checkAll config.databaseID s before).attempts ++
            [probe.attempt config.databaseID]) =
        ((before ++ [probe]).filter
            (isKeptAfter config before)).map
          fun probe => probe.attempt config.databaseID := by
    have hBefore :=
      ownAttempts_checkAll hStart hEnabled hNotified
        (List.pairwise_append.mp hRising).1
    unfold ownAttempts at hBefore ⊢
    rw [List.filter_append, hBefore, List.filter_append,
      List.map_append,
      List.filter_cons_of_pos (isKeptAfter_self hRising)]
    simp [Probe.attempt]
  have hOrdered := isOrdered_attempts
    (List.Pairwise.filter (isKeptAfter config before) hRising)
    config.databaseID
  rw [← hOwn] at hOrdered
  have hRead := listAttempts_eq hOrdered
    config.failedAttemptsBeforeUnavailable
  rw [hOwn, ← List.map_reverse, ← List.map_take] at hRead
  unfold decided seenFailures failures
  rw [getTransition_eq_some_iff, le_length_streak_iff]
  simp only [hRead, List.length_map, List.length_take,
    List.length_reverse, ← List.map_take, List.take_take,
    List.all_map, Nat.min_self, Nat.le_min, le_refl,
    true_and]
  constructor
  · rintro ⟨hFailed, hDiffers, hCause⟩
    rw [← hFailed] at hDiffers hCause
    rcases hCause with hAvailable | hSeen
    · cases hAvailable
    · exact ⟨hFailed.symm, hDiffers, hSeen⟩
  · rintro ⟨hFailed, hDiffers, hSeen⟩
    rw [hFailed]
    exact ⟨rfl, hDiffers, Or.inr hSeen⟩

------------------------------------------------------------
-- Streaks of Failures
------------------------------------------------------------

variable {probes : List Probe}

theorem failures_concat
    (hFailed : probe.status = .unavailable) :
    failures (before ++ [probe]) =
      failures before ++ [probe] :=
  streak_concat (by simp [Probe.hasFailed, hFailed])

theorem failures_concat_of_available
    (hAvailable : probe.status = .available) :
    failures (before ++ [probe]) = [] :=
  streak_concat_of_not
    (by simp [Probe.hasFailed, hAvailable])

/- What was kept after some passes is the latest of it. -/
theorem isKeptAfter_mono
    (hRising : IsRising probes) :
    probes.Pairwise fun first second =>
      isKeptAfter config before first = true →
        isKeptAfter config before second = true := by
  refine hRising.imp ?_
  intro first second hLater hFirst
  unfold isKeptAfter at hFirst ⊢
  rw [Option.all_eq_true] at hFirst ⊢
  intro last hLast
  have hKept := of_decide_eq_true (hFirst last hLast)
  exact decide_eq_true (hKept.trans hLater.le)

theorem length_seenFailures_le
    (hRising : IsRising (before ++ [probe])) :
    (seenFailures config before probe).length ≤
      (failures (before ++ [probe])).length := by
  unfold seenFailures failures
  rw [length_streak_of_suffix
    (filter_isSuffix (isKeptAfter_mono hRising))]
  exact Nat.min_le_right _ _

/- A pass sees a whole streak if all of it has been kept. -/
theorem sees_failures_iff
    (hRising : IsRising (before ++ [probe])) :
    (failures (before ++ [probe])).length ≤
        (seenFailures config before probe).length ↔
      ∀ failure ∈ failures (before ++ [probe]),
        isKeptAfter config before failure = true :=
  length_streak_filter_iff (isKeptAfter_mono hRising)

theorem KeepsStreaks.of_append
    {after : List Probe}
    (hKeeps : KeepsStreaks config (before ++ after)) :
    KeepsStreaks config before := by
  intro first probe rest hSplit
  refine hKeeps first probe (rest ++ after) ?_
  rw [hSplit, List.append_assoc, List.cons_append]

/- A success makes the status available, if it is not. -/
theorem decided_of_available
    (hAvailable : probe.status = .available) :
    decided config s probe =
      if statusOf config.databaseID s = some .available then
        none
      else
        some .available := by
  unfold decided getTransition
  simp [hAvailable]

/- After a failure, it is reported now or was before. -/
theorem or_decided_eq_iff
    (hFailed : probe.status = .unavailable) :
    (decided config s probe).or
          (statusOf config.databaseID s) =
        some .unavailable ↔
      decided config s probe = some .unavailable ∨
        statusOf config.databaseID s = some .unavailable := by
  cases hDecided : decided config s probe with
  | none => simp
  | some changed =>
      rcases getTransition_eq_some_iff.mp hDecided with
        ⟨hChanged, _⟩
      rw [hChanged]
      simp [hFailed]

/-
  Where streaks are kept, the database is unavailable while
  the failures fill the threshold.
-/
theorem isUnavailable_iff
    (hSaved : config.MayBeSaved)
    (hStart : IsStart config s)
    (hEnabled : config.isHealthcheckEnabled = true)
    (hNotified : config.isNotificationEnabled = true)
    (hRising : IsRising before)
    (hKeeps : KeepsStreaks config before) :
    statusOf config.databaseID
          (checkAll config.databaseID s before) =
        some .unavailable ↔
      config.failedAttemptsBeforeUnavailable ≤
        (failures before).length := by
  have hThreshold := hSaved.2.1
  induction before using List.reverseRecOn with
  | nil =>
      unfold failures
      rw [streak_nil, List.length_nil]
      refine ⟨fun hStatus =>
        absurd hStatus hStart.available, ?_⟩
      intro hNone
      exact absurd (hThreshold.trans hNone) (by omega)
  | append_singleton before probe ih =>
      have hBefore :
          statusOf config.databaseID
                (checkAll config.databaseID s before) =
              some .unavailable ↔
            config.failedAttemptsBeforeUnavailable ≤
              (failures before).length :=
        ih (List.pairwise_append.mp hRising).1
          hKeeps.of_append
      have hMonitored :=
        isMonitored_checkAll before
          hStart.isMonitored hEnabled hNotified
      rw [checkAll_concat,
        (check_spec probe hMonitored hEnabled hNotified).2.1]
      cases hResult : probe.status with
      | available =>
          rw [decided_of_available hResult,
            failures_concat_of_available hResult]
          split
          · rename_i hStatus
            rw [hStatus]
            simp
            omega
          · simp
            omega
      | unavailable =>
          rw [or_decided_eq_iff hResult,
            decided_eq_unavailable_iff hStart hEnabled
              hNotified hRising,
            hBefore]
          have hLength :
              (failures (before ++ [probe])).length =
                (failures before).length + 1 := by
            rw [failures_concat hResult]
            exact List.length_append
          have hSeen :
              (seenFailures config before probe).length ≤
                (failures (before ++ [probe])).length :=
            length_seenFailures_le hRising
          constructor
          · rintro (⟨_, _, hEnough⟩ | hFull)
            · exact hEnough.trans hSeen
            · omega
          · intro hEnough
            by_cases hFull :
                config.failedAttemptsBeforeUnavailable ≤
                  (failures before).length
            · exact Or.inr hFull
            · refine
                Or.inl ⟨hResult, mt hBefore.mp hFull, ?_⟩
              have hFills :
                  (failures (before ++ [probe])).length =
                    config.failedAttemptsBeforeUnavailable := by
                omega
              rw [← hFills, sees_failures_iff hRising]
              exact hKeeps before probe [] rfl hFills

------------------------------------------------------------
-- Notifications
------------------------------------------------------------

theorem changes_concat
    (databaseID : Uuid) :
    changes databaseID s (before ++ [probe]) =
      changes databaseID s before +
        changes databaseID (checkAll databaseID s before)
          [probe] := by
  induction before generalizing s with
  | nil => exact (Nat.zero_add _).symm
  | cons first before ih =>
      rw [List.cons_append, changes, changes, ih,
        Nat.add_assoc]
      rfl

/- A pass notifies what changes the status. -/
theorem length_decided
    (hMonitored : IsMonitored config s)
    (hEnabled : config.isHealthcheckEnabled = true)
    (hNotified : config.isNotificationEnabled = true) :
    (decided config s probe).toList.length =
      changes config.databaseID s [probe] := by
  simp only [changes]
  rw [(check_spec probe hMonitored hEnabled hNotified).2.1]
  cases hDecided : decided config s probe with
  | none => simp
  | some changed =>
      rcases getTransition_eq_some_iff.mp hDecided with
        ⟨hChanged, hDiffers, _⟩
      simp [hChanged, Ne.symm hDiffers]

theorem length_notifications_checkAll
    (hMonitored : IsMonitored config s)
    (hEnabled : config.isHealthcheckEnabled = true)
    (hNotified : config.isNotificationEnabled = true) :
    (checkAll config.databaseID s before).notifications.length =
      s.notifications.length +
        changes config.databaseID s before := by
  induction before using List.reverseRecOn with
  | nil => rfl
  | append_singleton before probe ih =>
      have hBefore :=
        isMonitored_checkAll before hMonitored
          hEnabled hNotified
      rw [checkAll_concat,
        (check_spec probe hBefore hEnabled hNotified).2.2.2,
        ih, length_decided hBefore hEnabled hNotified,
        changes_concat, Nat.add_assoc]

------------------------------------------------------------
-- The Status of a Run
------------------------------------------------------------

open Foundation Streak

variable {probes : List Probe}

theorem keepsStreaks_of_followsStreaks
    (hStart : IsStart config s)
    (hEnabled : config.isHealthcheckEnabled = true)
    (hNotified : config.isNotificationEnabled = true)
    (hRising : IsRising probes)
    (hFollows : FollowsStreaks config s probes) :
    KeepsStreaks config probes := by
  intro before probe after hSplit hFills
  have hSoFar : IsRising (before ++ [probe]) := by
    rw [hSplit, ← List.singleton_append,
      ← List.append_assoc] at hRising
    exact (List.pairwise_append.mp hRising).1
  have hMonitored :=
    isMonitored_checkAll before
      hStart.isMonitored hEnabled hNotified
  have hBecomes :=
    (hFollows.unavailable before probe after hSplit).mpr hFills
  rw [becomes_iff_decided hMonitored hEnabled hNotified,
    decided_eq_unavailable_iff hStart hEnabled hNotified
      hSoFar] at hBecomes
  rw [← sees_failures_iff hSoFar, hFills]
  exact hBecomes.2.2

theorem becomes_available_iff
    (hMonitored : IsMonitored config s)
    (hEnabled : config.isHealthcheckEnabled = true)
    (hNotified : config.isNotificationEnabled = true)
    (probe : Probe) :
    Becomes config.databaseID .available s probe ↔
      probe.status = .available ∧
        statusOf config.databaseID s ≠ some .available := by
  rw [becomes_iff_decided hMonitored hEnabled hNotified]
  unfold decided
  rw [getTransition_eq_some_iff]
  constructor
  · rintro ⟨hAvailable, hDiffers, _⟩
    rw [← hAvailable] at hDiffers
    exact ⟨hAvailable.symm, hDiffers⟩
  · rintro ⟨hAvailable, hDiffers⟩
    rw [hAvailable]
    exact ⟨rfl, hDiffers, Or.inl rfl⟩

/- Where streaks are kept, a full one turns the status. -/
theorem becomes_unavailable_iff
    (hSaved : config.MayBeSaved)
    (hStart : IsStart config s)
    (hEnabled : config.isHealthcheckEnabled = true)
    (hNotified : config.isNotificationEnabled = true)
    (hRising : IsRising (before ++ [probe]))
    (hKeeps : KeepsStreaks config (before ++ [probe])) :
    Becomes config.databaseID .unavailable
        (checkAll config.databaseID s before) probe ↔
      (failures (before ++ [probe])).length =
        config.failedAttemptsBeforeUnavailable := by
  have hMonitored :=
    isMonitored_checkAll before
      hStart.isMonitored hEnabled hNotified
  have hUnavailable :=
    isUnavailable_iff hSaved hStart hEnabled hNotified
      (List.pairwise_append.mp hRising).1 hKeeps.of_append
  have hSeen :
      (seenFailures config before probe).length ≤
        (failures (before ++ [probe])).length :=
    length_seenFailures_le hRising
  have hThreshold := hSaved.2.1
  rw [becomes_iff_decided hMonitored hEnabled hNotified,
    decided_eq_unavailable_iff hStart hEnabled hNotified
      hRising, ne_eq, hUnavailable]
  constructor
  · rintro ⟨hFailed, hFew, hEnough⟩
    rw [failures_concat hFailed, List.length_append,
      List.length_singleton] at hSeen ⊢
    omega
  · intro hFills
    cases hResult : probe.status with
    | available =>
        rw [failures_concat_of_available hResult,
          List.length_nil] at hFills
        omega
    | unavailable =>
        have hSees :
            (failures (before ++ [probe])).length ≤
              (seenFailures config before probe).length :=
          (sees_failures_iff hRising).mpr
            (hKeeps before probe [] rfl hFills)
        rw [failures_concat hResult, List.length_append,
          List.length_singleton] at hFills hSees
        exact ⟨rfl, by omega, by omega⟩

/- A run that the retention spans keeps all its streaks. -/
theorem keepsStreaks_of_span
    (hSpan :
      ∀ first ∈ probes, ∀ last ∈ probes,
        config.retentionCutoff last.now ≤ first.now) :
    KeepsStreaks config probes := by
  intro before probe after hSplit _ failure hFailure
  have hFirst : failure ∈ probes := by
    have hInside := streak_suffix.mem hFailure
    rw [hSplit, ← List.singleton_append, ← List.append_assoc]
    exact List.mem_append_left after hInside
  unfold isKeptAfter
  rw [Option.all_eq_true]
  intro last hLast
  have hLater : last ∈ probes := by
    rw [hSplit]
    exact List.mem_append_left _ (List.mem_of_getLast? hLast)
  exact decide_eq_true (hSpan failure hFirst last hLater)

/-
  The status follows the streaks of failures exactly in the
  runs in which a streak outlives none of its attempts.
-/
theorem followsStreaks_iff_keepsStreaks
    (config : Config)
    (s : HealthcheckState)
    (probes : List Probe)
    (hSaved : config.MayBeSaved)
    (hEnabled : config.isHealthcheckEnabled = true)
    (hNotified : config.isNotificationEnabled = true)
    (hStart : IsStart config s)
    (hApart :
      probes.Pairwise fun first second =>
        first.now + config.interval ≤ second.now) :
    FollowsStreaks config s probes ↔
      KeepsStreaks config probes := by
  have hRising := isRising_of_apart hSaved hApart
  constructor
  · exact
      keepsStreaks_of_followsStreaks hStart hEnabled hNotified
        hRising
  · intro hKeeps
    refine ⟨?_, ?_, ?_⟩
    · intro before probe after hSplit
      have hWhole : probes = (before ++ [probe]) ++ after := by
        rw [hSplit, List.append_assoc, List.singleton_append]
      rw [hWhole] at hRising hKeeps
      exact
        becomes_unavailable_iff hSaved hStart hEnabled
          hNotified (List.pairwise_append.mp hRising).1
          hKeeps.of_append
    · intro before probe after hSplit
      exact
        becomes_available_iff
          (isMonitored_checkAll before hStart.isMonitored
            hEnabled hNotified)
          hEnabled hNotified probe
    · intro before after hSplit
      exact
        length_notifications_checkAll hStart.isMonitored
          hEnabled hNotified

/- A database that no pass has checked yet. -/
def uncheckedState
    (config : Config) : HealthcheckState :=
  { databases :=
      [{ id := config.databaseID
         name := "orders"
         notifierIDs := [7]
         healthStatus := none }]
    configs := [config]
    attempts := []
    notifications := [] }

theorem isStart_uncheckedState
    (config : Config) :
    IsStart config (uncheckedState config) := by
  have hStored :
      Table.lookup Database.id config.databaseID
          (uncheckedState config).databases =
        some
          { id := config.databaseID
            name := "orders"
            notifierIDs := [7]
            healthStatus := none } := by
    simp [uncheckedState, Table.lookup]
  refine ⟨⟨_, hStored⟩, ?_, ?_, ?_⟩
  · unfold statusOf
    rw [hStored]
    simp
  · simp [uncheckedState, Table.lookup]
  · intro attempt hAttempt
    cases hAttempt

/- Probes of one result, so many minutes after one another. -/
def probesEvery
    (minutes : Nat)
    (status : HealthStatus)
    (count : Nat) : List Probe :=
  (List.range count).map fun number =>
    { attemptID := number
      status := status
      now := number * (minutes * Duration.minute) }

/- Each minute: reported by the default settings. -/
theorem minute_outage_follows_streaks :
    FollowsStreaks (getDefaultConfig 1)
      (uncheckedState (getDefaultConfig 1))
      (probesEvery 1 .unavailable 4) := by
  apply
    (followsStreaks_iff_keepsStreaks (getDefaultConfig 1)
      (uncheckedState (getDefaultConfig 1))
      (probesEvery 1 .unavailable 4)
      (getDefaultConfig_mayBeSaved 1) rfl rfl
      (isStart_uncheckedState _) (by decide +kernel)).mpr
  exact keepsStreaks_of_span (by decide +kernel)

/- Checked every two days, with a day of retention. -/
def twoDayConfig : Config :=
  { databaseID := 1
    isHealthcheckEnabled := true
    isNotificationEnabled := true
    intervalMinutes := 2880
    failedAttemptsBeforeUnavailable := 3
    attemptRetentionDays := 1 }

/- The third failure in a row is not reported. -/
theorem two_day_outage_is_not_reported :
    twoDayConfig.MayBeSaved ∧
      IsStart twoDayConfig (uncheckedState twoDayConfig) ∧
      (probesEvery 2880 .unavailable 3).Pairwise
        (fun first second =>
          first.now + twoDayConfig.interval ≤ second.now) ∧
      (failures (probesEvery 2880 .unavailable 3)).length =
        twoDayConfig.failedAttemptsBeforeUnavailable ∧
      ¬ FollowsStreaks twoDayConfig
        (uncheckedState twoDayConfig)
        (probesEvery 2880 .unavailable 3) := by
  refine ⟨by decide, isStart_uncheckedState _,
    by decide +kernel, by decide +kernel, ?_⟩
  intro hFollows
  have hBecomes :=
    hFollows.unavailable (probesEvery 2880 .unavailable 2)
      { attemptID := 2
        status := .unavailable
        now := 2 * (2880 * Duration.minute) } [] rfl
  revert hBecomes
  decide +kernel

end Healthcheck

end Databasus
