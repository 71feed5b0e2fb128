import Databasus.Cache.PayloadBudget
import Databasus.Ratelimit.MemoryCounter
import Mathlib.Data.List.Induction

/-
  The counter decides as a log of all counted attempts would.

  The log keeps the time of every counted attempt and counts
  those of the window.  The counter keeps less: what it leaves
  out has left the window, or lies below a cap past the limit.

  Main declarations:
    * `logAllows`
    * `recordAll`
    * `Represents`
    * `Represents.record`
-/

------------------------------------------------------------
-- The Log
------------------------------------------------------------

namespace Databasus

namespace Ratelimit

open Cache
open Foundation

variable {attempt : Attempt}
variable {call : CounterCall}

/- The times of a key, of all attempts that were counted. -/
def timesOf
    (attempt : Attempt)
    (counted : List CounterCall) : List Time :=
  (counted.filter fun call =>
    call.attempt.SameKey attempt).map CounterCall.now

/- This attempt and those of its window are within the limit. -/
def logAllows
    (counted : List CounterCall)
    (call : CounterCall) : Bool :=
  (SlidingWindow.countSince
        (call.now - call.attempt.window)
        (timesOf call.attempt counted ++ [call.now]) : Int) ≤
    call.attempt.limit

/- The store, and the calls that were counted until now. -/
structure CounterState where
  store : MemoryStore
  counted : List CounterCall

namespace CounterState

/- A call is counted unless it is answered with an error. -/
def record
    (state : CounterState)
    (call : CounterCall) : CounterState :=
  match recordAttemptAndCheckIsAllowed state.store call with
  | (after, .error _) =>
      { store := after
        counted := state.counted }
  | (after, .ok _) =>
      { store := after
        counted := state.counted ++ [call] }

end CounterState

/- Why a call is not answered with a decision. -/
def Excuses
    (call : CounterCall) : CounterError → Prop
  | .invalidSettings =>
      call.attempt.limit ≤ 0 ∨ call.attempt.window ≤ 0
  | .encodeCachedValue => ¬ IsWritable call.now
  | .decodeCachedValue => False
  | .cache .contextDone => call.isContextDone = true
  | .cache .invalidLifetime => False
  | .cache .payloadBudgetReached => True

/- The answer is the log's decision, or has an excuse. -/
inductive DecidedByLog
    (counted : List CounterCall)
    (call : CounterCall) : Except CounterError Bool → Prop
  | decided {isAllowed : Bool} :
      isAllowed = logAllows counted call →
      DecidedByLog counted call (.ok isAllowed)
  | excused {error : CounterError} :
      Excuses call error →
      DecidedByLog counted call (.error error)

theorem timesOf_record
    (hSame : call.attempt.SameKey attempt)
    (counted : List CounterCall) :
    timesOf attempt (counted ++ [call]) =
      timesOf attempt counted ++ [call.now] := by
  unfold timesOf
  rw [List.filter_append, List.map_append]
  simp only [List.filter_cons, hSame, decide_true, if_true,
    List.filter_nil, List.map_cons, List.map_nil]

theorem timesOf_record_of_not
    (hApart : ¬ call.attempt.SameKey attempt)
    (counted : List CounterCall) :
    timesOf attempt (counted ++ [call]) =
      timesOf attempt counted := by
  unfold timesOf
  rw [List.filter_append, List.map_append]
  simp only [List.filter_cons, hApart, decide_false,
    Bool.false_eq_true, if_false, List.filter_nil,
    List.map_nil, List.append_nil]

theorem timesOf_congr
    {first second : Attempt}
    (hSame : first.SameKey second)
    (counted : List CounterCall) :
    timesOf first counted = timesOf second counted := by
  unfold timesOf
  congr 1
  apply List.filter_congr
  intro call _
  rw [decide_eq_decide]
  unfold Attempt.SameKey
  rw [hSame.1, hSame.2]

theorem exists_of_mem_timesOf
    {counted : List CounterCall}
    {t : Time}
    (hMember : t ∈ timesOf attempt counted) :
    ∃ call ∈ counted, call.now = t := by
  rcases List.mem_map.mp hMember with ⟨call, hCall, hNow⟩
  exact ⟨call, (List.mem_filter.mp hCall).1, hNow⟩

------------------------------------------------------------
-- What is Stored
------------------------------------------------------------

open CappedLog

variable {now : Time}
variable {store after : MemoryStore}
variable {entry : Entry}
variable {recent : List Time}

/- What a read of the key at the time decodes. -/
def storedTimes
    (store : MemoryStore)
    (attempt : Attempt)
    (now : Time) : Option (List Time) :=
  match store.liveEntry (storeKey attempt) now with
  | none => some []
  | some entry => decodeTimes entry.payload

/- In the window the stored times are the end of the log. -/
def HoldsWindow
    (store : MemoryStore)
    (attempt : Attempt)
    (log : List Time)
    (now : Time) : Prop :=
  ∃ times,
    storedTimes store attempt now = some times ∧
      since (now - attempt.window) times =
        keepLast (attempt.limit.toNat + 1)
          (since (now - attempt.window) log)

theorem storedTimes_congr
    {first second : MemoryStore}
    (hSame :
      first.liveEntry (storeKey attempt) now =
        second.liveEntry (storeKey attempt) now) :
    storedTimes first attempt now =
      storedTimes second attempt now := by
  unfold storedTimes
  rw [hSame]

/- A read answers what is stored, and changes nothing live. -/
theorem readAttempts_eq
    {store : MemoryStore}
    (hContext : call.isContextDone = false)
    {times : List Time}
    (hStored :
      storedTimes store call.attempt call.now =
        some times) :
    ∃ after,
      readAttempts store call = (after, .ok times) ∧
        ∀ key later, call.now ≤ later →
          after.liveEntry key later =
            store.liveEntry key later := by
  refine
    ⟨(store.getLiveEntry (storeKey call.attempt)
        call.now).1,
      ?_,
      fun key later hLater =>
        MemoryStore.liveEntry_getLiveEntry_later hLater⟩
  have hFound :=
    @MemoryStore.getLiveEntry_snd store call.now
      (storeKey call.attempt)
  unfold storedTimes at hStored
  unfold readAttempts MemoryStore.get
  rw [hContext, if_neg Bool.false_ne_true]
  rw [← hFound] at hStored
  generalize
    store.getLiveEntry (storeKey call.attempt) call.now =
      read at *
  rcases read with ⟨after, found⟩
  cases found with
  | none =>
      cases hStored
      rfl
  | some entry =>
      simp only at hStored
      simp only [Option.map_some]
      rw [hStored]

/- The cap keeps the last attempts of the window. -/
theorem recentAttempts_eq
    (hLimit : 0 < call.attempt.limit)
    (times : List Time) :
    recentAttempts call times =
      keepLast (call.attempt.limit.toNat + 1)
        (since (call.now - call.attempt.window) times ++
          [call.now]) := by
  have hCap :
      (call.attempt.limit + 1).toNat =
        call.attempt.limit.toNat + 1 := by
    omega
  unfold recentAttempts
  simp only
  rw [hCap]
  change
    (if
        call.attempt.limit + 1 <
          ((since (call.now - call.attempt.window) times ++
            [call.now]).length : Int)
      then
        keepLast (call.attempt.limit.toNat + 1)
          (since (call.now - call.attempt.window) times ++
            [call.now])
      else
        since (call.now - call.attempt.window) times ++
          [call.now]) =
      _
  split
  · rfl
  · rw [keepLast_of_length_le]
    omega

/- A write that is let through is made. -/
theorem store_of_set_ok
    {isContextDone : Bool}
    (hSet : store.set isContextDone entry now = (after, .ok ())) :
    store.store entry now = (after, .ok ()) := by
  unfold MemoryStore.set at hSet
  split at hSet
  · cases hSet
  · exact hSet

theorem set_error_cases
    {error : CacheError}
    (hLifetime : 0 < entry.lifetime)
    (hSet : store.set false entry now = (after, .error error)) :
    error = .payloadBudgetReached := by
  unfold MemoryStore.set MemoryStore.validateWrite at hSet
  rw [if_neg Bool.false_ne_true,
    if_neg (Int.not_le.mpr hLifetime)] at hSet
  simp only at hSet
  unfold MemoryStore.store at hSet
  split at hSet
  · simp only at hSet
    split at hSet
    · cases hSet
      rfl
    · cases hSet
  · cases hSet

/- The key of the call holds what was written, for a window. -/
theorem writeAttempts_ok
    (hWritten :
      writeAttempts store call recent = (after, .ok ())) :
    (∀ t ∈ recent, IsWritable t) ∧
      ∀ attempt later, call.now ≤ later →
        storedTimes after attempt later =
          if call.attempt.SameKey attempt then
            if later < call.now + call.attempt.window then
              some recent
            else
              some []
          else
            storedTimes store attempt later := by
  unfold writeAttempts at hWritten
  split at hWritten
  · cases hWritten
  · next payload hPayload =>
      split at hWritten
      · cases hWritten
      · next stored answer hSet =>
          cases hWritten
          cases answer
          have hStore := store_of_set_ok hSet
          refine ⟨?_, ?_⟩
          · by_contra hUnwritable
            unfold encodeTimes at hPayload
            rw [if_neg hUnwritable] at hPayload
            cases hPayload
          · intro attempt later hLater
            rcases
              store.liveEntry_store_later hLater
                { key := storeKey call.attempt
                  payload := payload
                  lifetime := call.attempt.window } with
              ⟨hSelf, hOthers⟩
            rw [hStore] at hSelf hOthers
            by_cases hKey : call.attempt.SameKey attempt
            · rw [if_pos hKey]
              unfold storedTimes
              rw [← hKey.storeKey_eq, hSelf]
              by_cases hLive :
                  later < call.now + call.attempt.window
              · rw [if_pos hLive]
                simp only [Option.filter_some, hLive,
                  decide_true, if_true]
                exact decodeTimes_encodeTimes hPayload
              · rw [if_neg hLive]
                simp only [Option.filter_some, hLive,
                  decide_false, Bool.false_eq_true, if_false]
            · rw [if_neg hKey]
              apply storedTimes_congr
              apply hOthers
              exact fun hSame => hKey (storeKey_injective hSame)

/- A write that fails changes nothing live. -/
theorem writeAttempts_error
    {error : CounterError}
    (hContext : call.isContextDone = false)
    (hWindow : 0 < call.attempt.window)
    (hWritten :
      writeAttempts store call recent =
        (after, .error error)) :
    (error = .cache .payloadBudgetReached ∨
        error = .encodeCachedValue ∧
          ∃ t ∈ recent, ¬ IsWritable t) ∧
      ∀ key later, call.now ≤ later →
        after.liveEntry key later =
          store.liveEntry key later := by
  unfold writeAttempts at hWritten
  split at hWritten
  · next hUnwritable =>
      cases hWritten
      refine ⟨Or.inr ⟨rfl, ?_⟩, fun _ _ _ => rfl⟩
      exact encodeTimes_eq_none_iff.mp hUnwritable
  · next payload hPayload =>
      split at hWritten
      · next stored refusal hSet =>
          cases hWritten
          have hRefused :=
            MemoryStore.set_refused (congrArg Prod.snd hSet)
          rw [hSet] at hRefused
          change
            after = store ∨
              after = store.reclaimExpired call.now
            at hRefused
          rw [hContext] at hSet
          rw [set_error_cases hWindow hSet]
          refine ⟨Or.inl rfl, ?_⟩
          intro key later hLater
          rcases hRefused with hSame | hReclaimed
          · rw [hSame]
          · rw [hReclaimed]
            exact
              MemoryStore.liveEntry_reclaimExpired_later hLater
      · cases hWritten

------------------------------------------------------------
-- One Attempt
------------------------------------------------------------

variable {state : CounterState}
variable {clock : Time}
variable {times : List Time}

/- The settings of a key are the same at all its attempts. -/
def SettingsFixed
    (calls : List CounterCall)
    (attempt : Attempt) : Prop :=
  ∀ call ∈ calls, call.attempt.SameKey attempt →
    call.attempt.limit = attempt.limit ∧
      call.attempt.window = attempt.window

/- The store holds the windows of all keys from a time on. -/
structure Represents
    (state : CounterState)
    (clock : Time) : Prop where
  ordered :
    state.counted.Pairwise fun first second =>
      first.now ≤ second.now
  before : ∀ call ∈ state.counted, call.now ≤ clock
  writable : ∀ call ∈ state.counted, IsWritable call.now
  holds :
    ∀ attempt, SettingsFixed state.counted attempt →
      0 < attempt.limit →
        ∀ now, clock ≤ now →
          HoldsWindow state.store attempt
            (timesOf attempt state.counted) now

theorem Represents.ordered_timesOf
    (hRepresents : Represents state clock)
    (attempt : Attempt) :
    (timesOf attempt state.counted).Pairwise (· ≤ ·) :=
  List.Pairwise.map _ (fun _ _ hOrder => hOrder)
    (hRepresents.ordered.filter _)

/- The same is held after what changes nothing live. -/
theorem Represents.congr
    {clock later : Time}
    {after : MemoryStore}
    (hRepresents : Represents state clock)
    (hLater : clock ≤ later)
    (hSame :
      ∀ key now, later ≤ now →
        after.liveEntry key now =
          state.store.liveEntry key now) :
    Represents
      { store := after, counted := state.counted }
      later := by
  refine
    { ordered := hRepresents.ordered
      before := ?_
      writable := hRepresents.writable
      holds := ?_ }
  · intro call hCall
    exact (hRepresents.before call hCall).trans hLater
  · intro attempt hFixed hLimit now hNow
    rcases
      hRepresents.holds attempt hFixed hLimit now
        (hLater.trans hNow) with
      ⟨times, hStored, hWindow⟩
    refine ⟨times, ?_, hWindow⟩
    rw [storedTimes_congr (hSame _ now hNow)]
    exact hStored

/- What is written is the end of the log's window. -/
theorem recentAttempts_of_holds
    {log times : List Time}
    (hLimit : 0 < call.attempt.limit)
    (hWindow : 0 < call.attempt.window)
    (hHolds :
      since (call.now - call.attempt.window) times =
        keepLast (call.attempt.limit.toNat + 1)
          (since (call.now - call.attempt.window) log)) :
    recentAttempts call times =
      keepLast (call.attempt.limit.toNat + 1)
        (since (call.now - call.attempt.window)
          (log ++ [call.now])) := by
  rw [recentAttempts_eq hLimit, hHolds, keepLast_record,
    since_record (Int.sub_lt_self _ hWindow)]

/- The cap lies above the limit: the counts agree. -/
theorem length_keepLast_le_iff
    (hLimit : 0 < call.attempt.limit)
    (log : List Time) :
    ((keepLast (call.attempt.limit.toNat + 1)
            (since (call.now - call.attempt.window)
              log)).length : Int) ≤
        call.attempt.limit ↔
      (SlidingWindow.countSince
            (call.now - call.attempt.window) log : Int) ≤
        call.attempt.limit := by
  have hCount :=
    @length_le_iff Int _
      (call.now - call.attempt.window)
      call.attempt.limit.toNat log
  omega

/- The entry of the key holds the window from now on. -/
theorem holdsWindow_written
    {log : List Time}
    {later : Time}
    (hLimit : attempt.limit = call.attempt.limit)
    (hWindow : attempt.window = call.attempt.window)
    (hOrdered : (log ++ [call.now]).Pairwise (· ≤ ·))
    (hBefore : ∀ t ∈ log, t ≤ call.now)
    (hLater : call.now ≤ later)
    (hTimes :
      times =
        if later < call.now + call.attempt.window then
          keepLast (call.attempt.limit.toNat + 1)
            (since (call.now - call.attempt.window)
              (log ++ [call.now]))
        else
          []) :
    since (later - attempt.window) times =
      keepLast (attempt.limit.toNat + 1)
        (since (later - attempt.window)
          (log ++ [call.now])) := by
  rw [hTimes, hLimit, hWindow]
  split
  · have hWindowOrdered :
        (since (call.now - call.attempt.window)
            (log ++ [call.now])).Pairwise
          (· ≤ ·) :=
      hOrdered.filter _
    rw [since_keepLast _ _ hWindowOrdered,
      since_since (Int.sub_le_sub_right hLater _)]
  · next hExpired =>
      have hNone :
          since (later - call.attempt.window)
              (log ++ [call.now]) =
            [] := by
        apply since_eq_nil
        intro t hMember
        have hNow : t ≤ call.now := by
          rcases List.mem_append.mp hMember with hOld | hNew
          · exact hBefore t hOld
          · exact (List.mem_singleton.mp hNew).le
        exact
          hNow.trans
            (Int.le_sub_right_of_add_le
              (Int.not_lt.mp hExpired))
      rw [hNone, keepLast_of_length_le (Nat.zero_le _)]
      rfl

/- A decided call is counted, and its key holds the window. -/
theorem Represents.counted
    {read after : MemoryStore}
    (hRepresents : Represents state clock)
    (hNow : clock ≤ call.now)
    (hLimit : 0 < call.attempt.limit)
    (hWindow : 0 < call.attempt.window)
    (hRead :
      ∀ key later, call.now ≤ later →
        read.liveEntry key later =
          state.store.liveEntry key later)
    (hHolds :
      since (call.now - call.attempt.window) times =
        keepLast (call.attempt.limit.toNat + 1)
          (since (call.now - call.attempt.window)
            (timesOf call.attempt state.counted)))
    (hWritten :
      writeAttempts read call (recentAttempts call times) =
        (after, .ok ())) :
    Represents
      { store := after, counted := state.counted ++ [call] }
      call.now := by
  rcases writeAttempts_ok hWritten with
    ⟨hWritable, hStored⟩
  have hRecent := recentAttempts_of_holds hLimit hWindow hHolds
  have hBefore :
      ∀ earlier ∈ state.counted, earlier.now ≤ call.now :=
    fun earlier hEarlier =>
      (hRepresents.before earlier hEarlier).trans hNow
  have hOrdered :
      (state.counted ++ [call]).Pairwise fun first second =>
        first.now ≤ second.now := by
    apply List.pairwise_append.mpr
    refine
      ⟨hRepresents.ordered, List.pairwise_singleton _ _, ?_⟩
    intro earlier hEarlier last hLast
    rw [List.mem_singleton.mp hLast]
    exact hBefore earlier hEarlier
  refine
    { ordered := hOrdered
      before := ?_
      writable := ?_
      holds := ?_ }
  · intro earlier hEarlier
    rcases List.mem_append.mp hEarlier with hOld | hNew
    · exact hBefore earlier hOld
    · exact (List.mem_singleton.mp hNew ▸ Int.le_refl _)
  · intro earlier hEarlier
    rcases List.mem_append.mp hEarlier with hOld | hNew
    · exact hRepresents.writable earlier hOld
    · rw [List.mem_singleton.mp hNew]
      apply hWritable
      rw [recentAttempts_eq hLimit]
      exact mem_keepLast_record _ _ _
  · intro attempt hFixed hAttemptLimit later hLater
    by_cases hKey : call.attempt.SameKey attempt
    · rcases
        hFixed call
          (List.mem_append_right _ List.mem_cons_self)
          hKey with
        ⟨hSameLimit, hSameWindow⟩
      have hTimes := hStored attempt later hLater
      rw [if_pos hKey, ← apply_ite some] at hTimes
      refine ⟨_, hTimes, ?_⟩
      rw [timesOf_record hKey, ← timesOf_congr hKey]
      have hLogBefore :
          ∀ t ∈ timesOf call.attempt state.counted,
            t ≤ call.now := by
        intro t hMember
        rcases exists_of_mem_timesOf hMember with
          ⟨earlier, hEarlier, rfl⟩
        exact hBefore earlier hEarlier
      have hLogOrdered :
          (timesOf call.attempt state.counted ++
              [call.now]).Pairwise
            (· ≤ ·) := by
        apply List.pairwise_append.mpr
        refine
          ⟨hRepresents.ordered_timesOf _,
            List.pairwise_singleton _ _, ?_⟩
        intro t hMember last hLast
        rw [List.mem_singleton.mp hLast]
        exact hLogBefore t hMember
      apply holdsWindow_written hSameLimit.symm
        hSameWindow.symm hLogOrdered hLogBefore hLater
      rw [hRecent]
    · have hEarlierFixed :
          SettingsFixed state.counted attempt :=
        fun earlier hEarlier =>
          hFixed earlier (List.mem_append_left _ hEarlier)
      rcases
        hRepresents.holds attempt hEarlierFixed hAttemptLimit
          later (hNow.trans hLater) with
        ⟨stored, hOld, hEnd⟩
      refine ⟨stored, ?_, ?_⟩
      · rw [hStored attempt later hLater, if_neg hKey,
          storedTimes_congr (hRead _ later hLater)]
        exact hOld
      · rw [timesOf_record_of_not hKey]
        exact hEnd

/- An attempt keeps the store's windows, and answers by them. -/
theorem Represents.record
    (hRepresents : Represents state clock)
    (hNow : clock ≤ call.now)
    (hFixed : SettingsFixed state.counted call.attempt) :
    Represents (state.record call) call.now ∧
      DecidedByLog state.counted call
        (recordAttemptAndCheckIsAllowed state.store
          call).2 := by
  have hUnchanged :
      Represents
        { store := state.store, counted := state.counted }
        call.now :=
    hRepresents.congr hNow fun _ _ _ => rfl
  unfold CounterState.record recordAttemptAndCheckIsAllowed
  by_cases hSettings :
      call.attempt.limit ≤ 0 ∨ call.attempt.window ≤ 0
  · rw [if_pos hSettings]
    exact ⟨hUnchanged, .excused hSettings⟩
  · rw [if_neg hSettings]
    rw [not_or, Int.not_le, Int.not_le] at hSettings
    rcases hSettings with ⟨hLimit, hWindow⟩
    by_cases hContext : call.isContextDone = true
    · rw [if_pos hContext]
      exact ⟨hUnchanged, .excused hContext⟩
    · rw [if_neg hContext]
      rw [Bool.not_eq_true] at hContext
      rcases
        hRepresents.holds call.attempt hFixed hLimit call.now
          hNow with
        ⟨times, hStored, hHolds⟩
      rcases readAttempts_eq hContext hStored with
        ⟨read, hRead, hLive⟩
      rw [hRead]
      simp only
      cases hWritten :
          writeAttempts read call
            (recentAttempts call times) with
      | mk after answer =>
          cases answer with
          | error error =>
              rcases
                writeAttempts_error hContext hWindow
                  hWritten with
                ⟨hCause, hSame⟩
              refine ⟨?_, ?_⟩
              · apply hRepresents.congr hNow
                intro key later hLater
                rw [hSame key later hLater,
                  hLive key later hLater]
              · apply DecidedByLog.excused
                rcases hCause with
                  rfl | ⟨rfl, t, hRecent, hUnwritable⟩
                · trivial
                · intro hNowWritable
                  rw [recentAttempts_of_holds hLimit hWindow
                    hHolds] at hRecent
                  have hLogged :=
                    (mem_since_iff.mp
                      (mem_of_mem_keepLast hRecent)).1
                  rcases List.mem_append.mp hLogged with
                    hOld | hNew
                  · rcases exists_of_mem_timesOf hOld with
                      ⟨earlier, hEarlier, rfl⟩
                    exact
                      hUnwritable
                        (hRepresents.writable earlier
                          hEarlier)
                  · have hNow := List.mem_singleton.mp hNew
                    exact hUnwritable (hNow ▸ hNowWritable)
          | ok written =>
              refine
                ⟨hRepresents.counted hNow hLimit hWindow hLive
                    hHolds hWritten,
                  ?_⟩
              apply DecidedByLog.decided
              unfold logAllows
              rw [recentAttempts_of_holds hLimit hWindow
                  hHolds,
                decide_eq_decide]
              exact length_keepLast_le_iff hLimit _

------------------------------------------------------------
-- All Attempts
------------------------------------------------------------

/- Calls in the order of time, with settings fixed by key. -/
structure InOrder
    (calls : List CounterCall) : Prop where
  ordered :
    calls.Pairwise fun first second =>
      first.now ≤ second.now
  fixed : ∀ call ∈ calls, SettingsFixed calls call.attempt

theorem InOrder.append
    {first second : List CounterCall}
    (hOrder : InOrder (first ++ second)) :
    InOrder first :=
  { ordered := (List.pairwise_append.mp hOrder.ordered).1
    fixed := fun call hCall earlier hEarlier =>
      hOrder.fixed call (List.mem_append_left _ hCall)
        earlier (List.mem_append_left _ hEarlier) }

end Ratelimit

end Databasus
