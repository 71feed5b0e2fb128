import Mathlib.Data.List.Basic
import Mathlib.Tactic.Cases

/-
  Transactions, their savepoints, and the hooks that run once
  the outermost one commits.

  A context carries the transaction that its queries join and
  the list that its hooks are put in.  What `fn` does is a list
  of actions, each through the context that `fn` was given.

  Main declarations:
    * `Transactor.transaction`
    * `afterCommit`
    * `Action.run`
    * `hooks_run_after_outermost_commit`
-/

------------------------------------------------------------
-- The Transactor
------------------------------------------------------------

namespace Databasus

namespace Database

/- Which `*afterCommitHooks` it is: they are numbered. -/
abbrev HooksRef := Nat

structure Context where
  carriesTransaction : Bool
  afterCommitHooks : Option HooksRef
deriving DecidableEq, Repr

/- A context that no transaction was opened in. -/
def background : Context where
  carriesTransaction := false
  afterCommitHooks := none

def withoutTransaction (_ : Context) : Context where
  carriesTransaction := false
  afterCommitHooks := none

/- A transaction is told by the list of its hooks. -/
inductive Event (Hook : Type)
  | began (registered : HooksRef)
  | committed (registered : HooksRef)
  | rolledBack (registered : HooksRef)
  | ran (registered : HooksRef) (hook : Hook)
deriving DecidableEq, Repr

structure World (Hook : Type) where
  hookLists : List (List Hook)
  log : List (Event Hook)
deriving Repr

inductive FnResult
  | returnsNil
  | returnsError
  | panics
deriving DecidableEq, Repr

/-
  How a transaction goes: whether it begins, or its savepoint
  is set; what `fn` comes to; whether a commit succeeds.
-/
structure Attempt where
  begins : Bool
  result : FnResult
  commits : Bool
deriving DecidableEq, Repr

variable {Hook : Type}

def World.emit
    (w : World Hook)
    (event : Event Hook) : World Hook :=
  { w with log := w.log ++ [event] }

/- A new, empty list. -/
def World.newHooks (w : World Hook) : World Hook :=
  { w with hookLists := w.hookLists ++ [[]] }

def World.hooksOf
    (w : World Hook)
    (ref : HooksRef) : List Hook :=
  w.hookLists.getD ref []

def World.appendHooks
    (w : World Hook)
    (ref : HooksRef)
    (hooks : List Hook) : World Hook :=
  { w with hookLists := w.hookLists.modify ref (· ++ hooks) }

/-
  `Transaction` of the database library, which commits when
  `fn` returns nil and rolls back otherwise.  Inside another
  transaction there is a savepoint, and no commit of its own.
  Whether it returns nil comes with it.
-/
def connTransaction
    (ctx : Context)
    (registered : HooksRef)
    (attempt : Attempt)
    (fn : World Hook → World Hook)
    (w : World Hook) : World Hook × Bool :=
  if attempt.begins = false then
    (w, false)
  else
    let w := fn (w.emit (.began registered))
    if attempt.result ≠ .returnsNil then
      (w.emit (.rolledBack registered), false)
    else if ctx.carriesTransaction then
      (w, true)
    else if attempt.commits then
      (w.emit (.committed registered), true)
    else
      (w.emit (.rolledBack registered), false)

def runHooks
    (registered : HooksRef)
    (hooks : List Hook)
    (w : World Hook) : World Hook :=
  hooks.foldl (fun w hook => w.emit (.ran registered hook)) w

def Transactor.transaction
    (ctx : Context)
    (attempt : Attempt)
    (fn : Context → World Hook → World Hook)
    (w : World Hook) : World Hook × Bool :=
  let registered := w.hookLists.length
  let transactionCtx : Context :=
    { carriesTransaction := true
      afterCommitHooks := some registered }
  match
    connTransaction ctx registered attempt
      (fn transactionCtx) w.newHooks
  with
  | (w, false) => (w, false)
  | (w, true) =>
      match ctx.afterCommitHooks with
      | some enclosing =>
          (w.appendHooks enclosing (w.hooksOf registered),
            true)
      | none =>
          (runHooks registered (w.hooksOf registered) w, true)

/- Outside a transaction a hook is refused. -/
def afterCommit
    (ctx : Context)
    (hook : Hook)
    (w : World Hook) : World Hook × Bool :=
  match ctx.afterCommitHooks with
  | none => (w, false)
  | some registered => (w.appendHooks registered [hook], true)

/- What a `fn` does with its context. -/
inductive Action (Hook : Type)
  | afterCommit (hook : Hook)
  | transaction (attempt : Attempt) (body : List (Action Hook))
  | withoutTransaction (body : List (Action Hook))

mutual

def Action.run :
    Action Hook → Context → World Hook → World Hook
  | .afterCommit hook, ctx, w =>
      (Database.afterCommit ctx hook w).1
  | .transaction attempt body, ctx, w =>
      (Transactor.transaction ctx attempt (runActions body)
        w).1
  | .withoutTransaction body, ctx, w =>
      runActions body (Database.withoutTransaction ctx) w

def runActions :
    List (Action Hook) → Context → World Hook → World Hook
  | [], _, w => w
  | action :: actions, ctx, w =>
      runActions actions ctx (action.run ctx w)

end

------------------------------------------------------------
-- Registrations
------------------------------------------------------------

/-
  A hook that was registered, and for each transaction around
  it, from the outside in, whether that one went through.
-/
structure Registration (Hook : Type) where
  hook : Hook
  enclosing : List Bool
deriving DecidableEq, Repr

def Registration.within
    (wentThrough : Bool)
    (registration : Registration Hook) : Registration Hook :=
  { registration with
    enclosing := wentThrough :: registration.enclosing }

/- Only the outermost transaction commits by itself. -/
def Attempt.wentThrough
    (isNested : Bool)
    (attempt : Attempt) : Bool :=
  attempt.begins && attempt.result == .returnsNil &&
    (isNested || attempt.commits)

mutual

/- The registrations inside the transaction of a context. -/
def Action.registrations :
    Action Hook → List (Registration Hook)
  | .afterCommit hook => [{ hook := hook, enclosing := [] }]
  | .transaction attempt body =>
      if attempt.begins = false then
        []
      else
        (registrationsOf body).map
          (Registration.within (attempt.wentThrough true))
  | .withoutTransaction _ => []

def registrationsOf :
    List (Action Hook) → List (Registration Hook)
  | [] => []
  | action :: actions =>
      action.registrations ++ registrationsOf actions

end

/- The hooks around which every transaction went through. -/
def kept
    (registrations : List (Registration Hook)) : List Hook :=
  (registrations.filter fun registration =>
    registration.enclosing.all id).map Registration.hook

theorem kept_append
    (first second : List (Registration Hook)) :
    kept (first ++ second) = kept first ++ kept second := by
  unfold kept
  rw [List.filter_append, List.map_append]

theorem kept_within
    (wentThrough : Bool)
    (registrations : List (Registration Hook)) :
    kept
        (registrations.map
          (Registration.within wentThrough)) =
      if wentThrough then kept registrations else [] := by
  unfold kept
  rw [List.filter_map, List.map_map]
  cases wentThrough with
  | true => rfl
  | false =>
      have hNone :
          registrations.filter
              ((fun registration : Registration Hook =>
                registration.enclosing.all id) ∘
                  Registration.within false) = [] := by
        rw [List.filter_eq_nil_iff]
        intro registration _ hAll
        cases hAll
      rw [hNone]
      rfl

theorem kept_registrations_transaction
    (attempt : Attempt)
    (body : List (Action Hook)) :
    kept (Action.transaction attempt body).registrations =
      if attempt.wentThrough true then
        kept (registrationsOf body)
      else
        [] := by
  unfold Action.registrations
  cases hBegins : attempt.begins with
  | false =>
      have hThrough : attempt.wentThrough true = false := by
        unfold Attempt.wentThrough
        rw [hBegins]
        rfl
      rw [hThrough]
      rfl
  | true =>
      rw [if_neg Bool.true_eq_false.mp]
      exact kept_within _ _

------------------------------------------------------------
-- What a Run Changes
------------------------------------------------------------

variable {list : Option HooksRef}
variable {old middle new : World Hook}
variable {ref : HooksRef}
variable {registered : HooksRef}
variable {added : List Hook}

/- An event of another transaction than this one. -/
def Event.IsRunOf
    (registered : HooksRef) : Event Hook → Prop
  | .ran other _ => other = registered
  | _ => False

/-
  A run appends `added` to the list of its context, leaves the
  other lists that there were, and runs none of their hooks.
-/
structure Appends
    (list : Option HooksRef)
    (added : List Hook)
    (old new : World Hook) : Prop where
  grows : old.hookLists.length ≤ new.hookLists.length
  own :
    ∀ ref, list = some ref → ref < old.hookLists.length →
      new.hooksOf ref = old.hooksOf ref ++ added
  others :
    ∀ ref, list ≠ some ref → ref < old.hookLists.length →
      new.hooksOf ref = old.hooksOf ref
  logged :
    ∃ events, new.log = old.log ++ events ∧
      ∀ event ∈ events, ∀ ref < old.hookLists.length,
        ¬ event.IsRunOf ref

theorem appends_refl
    (list : Option HooksRef)
    (w : World Hook) :
    Appends list [] w w := by
  refine ⟨Nat.le_refl _, ?_, ?_, [], ?_, ?_⟩
  · intro ref _ _
    exact (List.append_nil _).symm
  · intro ref _ _
    rfl
  · exact (List.append_nil _).symm
  · intro event hEvent
    cases hEvent

theorem Appends.trans
    {first second : List Hook}
    (hFirst : Appends list first old middle)
    (hSecond : Appends list second middle new) :
    Appends list (first ++ second) old new := by
  rcases hFirst.logged with
    ⟨firstEvents, hFirstLog, hFirstRuns⟩
  rcases hSecond.logged with
    ⟨secondEvents, hSecondLog, hSecondRuns⟩
  refine
    ⟨Nat.le_trans hFirst.grows hSecond.grows, ?_, ?_,
      firstEvents ++ secondEvents, ?_, ?_⟩
  · intro ref hList hRef
    have hLater := Nat.lt_of_lt_of_le hRef hFirst.grows
    rw [hSecond.own ref hList hLater,
      hFirst.own ref hList hRef, List.append_assoc]
  · intro ref hList hRef
    have hLater := Nat.lt_of_lt_of_le hRef hFirst.grows
    rw [hSecond.others ref hList hLater,
      hFirst.others ref hList hRef]
  · rw [hSecondLog, hFirstLog, List.append_assoc]
  · intro event hEvent ref hRef
    rcases List.mem_append.mp hEvent with hEvent | hEvent
    · exact hFirstRuns event hEvent ref hRef
    · exact
        hSecondRuns event hEvent ref
          (Nat.lt_of_lt_of_le hRef hFirst.grows)

theorem hooksOf_appendHooks
    (w : World Hook)
    (hRef : ref < w.hookLists.length)
    (hooks : List Hook)
    (other : HooksRef) :
    (w.appendHooks ref hooks).hooksOf other =
      if other = ref then
        w.hooksOf other ++ hooks
      else
        w.hooksOf other := by
  unfold World.appendHooks World.hooksOf
  simp only [List.getD_eq_getElem?_getD,
    List.getElem?_modify]
  by_cases hSame : other = ref
  · subst hSame
    rw [if_pos rfl, List.getElem?_eq_getElem hRef]
    simp
  · rw [if_neg hSame]
    simp [Ne.symm hSame]

/- Hooks put in the list of the context. -/
theorem appends_appendHooks
    (w : World Hook)
    (hRef : ref < w.hookLists.length)
    (hooks : List Hook) :
    Appends (some ref) hooks w (w.appendHooks ref hooks) := by
  refine ⟨?_, ?_, ?_, [], ?_, ?_⟩
  · unfold World.appendHooks
    exact Nat.le_of_eq (List.length_modify _ _ _).symm
  · intro other hList _
    rw [hooksOf_appendHooks w hRef,
      if_pos (Option.some.inj hList).symm]
  · intro other hList _
    rw [hooksOf_appendHooks w hRef, if_neg]
    rintro rfl
    exact hList rfl
  · exact (List.append_nil _).symm
  · intro event hEvent
    cases hEvent

/- An event that runs no hook of a list that there was. -/
theorem appends_emit
    (list : Option HooksRef)
    (w : World Hook)
    (event : Event Hook)
    (hEvent :
      ∀ ref < w.hookLists.length, ¬ event.IsRunOf ref) :
    Appends list [] w (w.emit event) := by
  refine ⟨Nat.le_refl _, ?_, ?_, [event], rfl, ?_⟩
  · intro ref _ _
    exact (List.append_nil _).symm
  · intro ref _ _
    rfl
  · intro other hOther
    rw [List.mem_singleton.mp hOther]
    exact hEvent

theorem length_newHooks
    (w : World Hook) :
    w.newHooks.hookLists.length = w.hookLists.length + 1 :=
  List.length_append

theorem hooksOf_newHooks
    (w : World Hook) :
    w.newHooks.hooksOf w.hookLists.length = [] := by
  unfold World.newHooks World.hooksOf
  simp

theorem appends_newHooks
    (list : Option HooksRef)
    (w : World Hook) :
    Appends list [] w w.newHooks := by
  have hSame :
      ∀ ref < w.hookLists.length,
        w.newHooks.hooksOf ref = w.hooksOf ref := by
    intro ref hRef
    unfold World.newHooks World.hooksOf
    simp only [List.getD_eq_getElem?_getD]
    rw [List.getElem?_append_left hRef]
  refine ⟨?_, ?_, ?_, [], ?_, ?_⟩
  · rw [length_newHooks]
    exact Nat.le_succ _
  · intro ref _ hRef
    rw [hSame ref hRef, List.append_nil]
  · intro ref _ hRef
    exact hSame ref hRef
  · exact (List.append_nil _).symm
  · intro event hEvent
    cases hEvent

/- Hooks in a list that is newer are not seen. -/
theorem Appends.hidden
    {hooks : List Hook}
    (hOld : Appends list [] old middle)
    (hNewer : old.hookLists.length ≤ registered)
    (hInner : Appends (some registered) hooks middle new) :
    Appends list [] old new := by
  rcases hOld.logged with ⟨oldEvents, hOldLog, hOldRuns⟩
  rcases hInner.logged with
    ⟨innerEvents, hInnerLog, hInnerRuns⟩
  have hSame :
      ∀ ref < old.hookLists.length,
        new.hooksOf ref = middle.hooksOf ref := by
    intro ref hRef
    apply hInner.others ref
    · intro hSome
      have hRegistered : registered = ref :=
        Option.some.inj hSome
      rw [hRegistered] at hNewer
      exact absurd hRef (Nat.not_lt.mpr hNewer)
    · exact Nat.lt_of_lt_of_le hRef hOld.grows
  refine
    ⟨Nat.le_trans hOld.grows hInner.grows, ?_, ?_,
      oldEvents ++ innerEvents, ?_, ?_⟩
  · intro ref hList hRef
    rw [hSame ref hRef, hOld.own ref hList hRef]
  · intro ref hList hRef
    rw [hSame ref hRef, hOld.others ref hList hRef]
  · rw [hInnerLog, hOldLog, List.append_assoc]
  · intro event hEvent ref hRef
    rcases List.mem_append.mp hEvent with hEvent | hEvent
    · exact hOldRuns event hEvent ref hRef
    · exact
        hInnerRuns event hEvent ref
          (Nat.lt_of_lt_of_le hRef hOld.grows)

/- A run outside of a transaction leaves every list alone. -/
theorem Appends.of_none
    {old new : World Hook}
    (hRun : Appends none added old new)
    (list : Option HooksRef) :
    Appends list [] old new := by
  refine ⟨hRun.grows, ?_, ?_, hRun.logged⟩
  · intro ref _ hRef
    rw [List.append_nil]
    exact hRun.others ref (by rintro ⟨⟩) hRef
  · intro ref _ hRef
    exact hRun.others ref (by rintro ⟨⟩) hRef

theorem Appends.none_added
    {old new : World Hook}
    (hRun : Appends none added old new)
    (other : List Hook) :
    Appends none other old new := by
  refine ⟨hRun.grows, ?_, hRun.others, hRun.logged⟩
  intro ref hNone
  cases hNone

theorem runHooks_eq
    (registered : HooksRef)
    (hooks : List Hook)
    (w : World Hook) :
    runHooks registered hooks w =
      { w with
        log := w.log ++ hooks.map (Event.ran registered) } := by
  unfold runHooks
  induction hooks generalizing w with
  | nil =>
      rw [List.map_nil, List.append_nil]
      rfl
  | cons hook hooks ih =>
      rw [List.foldl_cons, ih, List.map_cons]
      unfold World.emit
      rw [List.append_assoc]
      rfl

/- Hooks of a newer list may run. -/
theorem Appends.runHooks
    {old new : World Hook}
    (hRun : Appends none [] old new)
    (hNewer : old.hookLists.length ≤ registered)
    (hooks : List Hook) :
    Appends none [] old (runHooks registered hooks new) := by
  rcases hRun.logged with ⟨events, hLog, hRuns⟩
  rw [runHooks_eq]
  refine
    ⟨hRun.grows, hRun.own, hRun.others,
      events ++ hooks.map (Event.ran registered), ?_, ?_⟩
  · rw [hLog, List.append_assoc]
  · intro event hEvent ref hRef
    rcases List.mem_append.mp hEvent with hEvent | hEvent
    · exact hRuns event hEvent ref hRef
    · rcases List.mem_map.mp hEvent with ⟨hook, _, rfl⟩
      intro hSame
      have hRegistered : registered = ref := hSame
      rw [hRegistered] at hNewer
      exact absurd hRef (Nat.not_lt.mpr hNewer)

------------------------------------------------------------
-- Transactions
------------------------------------------------------------

variable {hooks : List Hook}
variable {fn : Context → World Hook → World Hook}
variable {w : World Hook}

/- What `fn` may do: hooks go in the list it was given. -/
def FnAppends
    (registered : HooksRef)
    (hooks : List Hook)
    (fn : World Hook → World Hook) : Prop :=
  ∀ w : World Hook, registered < w.hookLists.length →
    Appends (some registered) hooks w (fn w)

def innerContext (registered : HooksRef) : Context where
  carriesTransaction := true
  afterCommitHooks := some registered

/- The world that `fn` of a new transaction ends in. -/
theorem appends_fn
    (list : Option HooksRef)
    (w : World Hook)
    (hFn :
      FnAppends w.hookLists.length hooks
        (fn (innerContext w.hookLists.length))) :
    Appends list [] w
        (fn (innerContext w.hookLists.length)
          (w.newHooks.emit (.began w.hookLists.length))) ∧
      (fn (innerContext w.hookLists.length)
          (w.newHooks.emit
            (.began w.hookLists.length))).hooksOf
          w.hookLists.length = hooks := by
  have hStart :=
    (appends_newHooks list w).trans
      (appends_emit list w.newHooks
        (.began w.hookLists.length) (fun _ _ hRun => hRun))
  have hOpen :
      w.hookLists.length <
        (w.newHooks.emit
          (.began w.hookLists.length)).hookLists.length := by
    change w.hookLists.length < w.newHooks.hookLists.length
    rw [length_newHooks]
    exact Nat.lt_succ_self _
  have hRun := hFn _ hOpen
  refine ⟨hStart.hidden (Nat.le_refl _) hRun, ?_⟩
  rw [hRun.own _ rfl hOpen]
  change w.newHooks.hooksOf w.hookLists.length ++ hooks = hooks
  rw [hooksOf_newHooks, List.nil_append]

/- Inside another transaction the hooks are handed up. -/
theorem transaction_nested
    {ctx : Context}
    {enclosing : HooksRef}
    (attempt : Attempt)
    (hCarries : ctx.carriesTransaction = true)
    (hList : ctx.afterCommitHooks = some enclosing)
    (hOpen : enclosing < w.hookLists.length)
    (hFn :
      FnAppends w.hookLists.length hooks
        (fn (innerContext w.hookLists.length))) :
    Appends (some enclosing)
      (if attempt.wentThrough true then hooks else []) w
      (Transactor.transaction ctx attempt fn w).1 := by
  rcases appends_fn (some enclosing) w hFn with
    ⟨hEnd, hHooks⟩
  unfold innerContext at hEnd hHooks
  unfold Transactor.transaction connTransaction
  cases hBegins : attempt.begins with
  | false =>
      have hThrough : attempt.wentThrough true = false := by
        unfold Attempt.wentThrough
        rw [hBegins]
        rfl
      simp only [hThrough, if_true]
      rw [if_neg Bool.false_ne_true]
      exact appends_newHooks _ w
  | true =>
      by_cases hResult : attempt.result = .returnsNil
      · have hThrough : attempt.wentThrough true = true := by
          unfold Attempt.wentThrough
          rw [hBegins, hResult]
          rfl
        simp only [hResult, hCarries, hList, hThrough, if_true,
          ne_eq, not_true_eq_false, if_false,
          Bool.true_eq_false]
        rw [hHooks]
        have hLater := Nat.lt_of_lt_of_le hOpen hEnd.grows
        exact hEnd.trans (appends_appendHooks _ hLater hooks)
      · have hThrough : attempt.wentThrough true = false := by
          unfold Attempt.wentThrough
          rw [beq_eq_false_iff_ne.mpr hResult, Bool.and_false]
          rfl
        simp only [hThrough, ne_eq, hResult, not_false_eq_true,
          if_true, Bool.true_eq_false, if_false,
          Bool.false_eq_true]
        exact
          hEnd.trans
            (appends_emit _ _ (.rolledBack w.hookLists.length)
              (fun _ _ hRun => hRun))

/- What the outermost transaction adds to the log. -/
inductive OutermostLog
    (registered : HooksRef)
    (attempt : Attempt)
    (hooks : List Hook) : List (Event Hook) → Prop
  | notBegun :
      attempt.begins = false →
        OutermostLog registered attempt hooks []
  | rolledBack (during : List (Event Hook)) :
      attempt.begins = true →
      attempt.wentThrough false = false →
      (∀ event ∈ during, ¬ event.IsRunOf registered) →
        OutermostLog registered attempt hooks
          (during ++ [.rolledBack registered])
  | committed (during : List (Event Hook)) :
      attempt.wentThrough false = true →
      (∀ event ∈ during, ¬ event.IsRunOf registered) →
        OutermostLog registered attempt hooks
          (during ++ .committed registered ::
            hooks.map (.ran registered))

/- All that `fn` logs comes before the commit. -/
theorem log_fn
    (w : World Hook)
    (hFn :
      FnAppends w.hookLists.length hooks
        (fn (innerContext w.hookLists.length))) :
    ∃ during,
      (fn (innerContext w.hookLists.length)
          (w.newHooks.emit
            (.began w.hookLists.length))).log =
          w.log ++ during ∧
        ∀ event ∈ during,
          ¬ event.IsRunOf w.hookLists.length := by
  have hOpen :
      w.hookLists.length <
        (w.newHooks.emit
          (.began w.hookLists.length)).hookLists.length := by
    change w.hookLists.length < w.newHooks.hookLists.length
    rw [length_newHooks]
    exact Nat.lt_succ_self _
  rcases (hFn _ hOpen).logged with ⟨events, hLog, hRuns⟩
  refine ⟨.began w.hookLists.length :: events, ?_, ?_⟩
  · rw [hLog]
    change
      w.log ++ [.began w.hookLists.length] ++ events =
        w.log ++ .began w.hookLists.length :: events
    rw [List.append_assoc, List.singleton_append]
  · intro event hEvent
    rcases List.mem_cons.mp hEvent with rfl | hEvent
    · exact fun hRun => hRun
    · exact hRuns event hEvent _ hOpen

theorem log_runHooks
    {start during : List (Event Hook)}
    (hHooks : w.hooksOf registered = hooks)
    (hLog : w.log = start ++ during) :
    (runHooks registered
        ((w.emit (.committed registered)).hooksOf registered)
        (w.emit (.committed registered))).log =
      start ++
        (during ++ .committed registered ::
          hooks.map (.ran registered)) := by
  have hSame :
      (w.emit (.committed registered)).hooksOf registered =
        hooks := hHooks
  rw [hSame, runHooks_eq]
  unfold World.emit
  rw [hLog, List.append_assoc, List.append_assoc,
    List.append_assoc, List.singleton_append]

/- The outermost transaction runs the hooks after its commit. -/
theorem transaction_outermost
    (attempt : Attempt)
    (hFn :
      FnAppends w.hookLists.length hooks
        (fn (innerContext w.hookLists.length))) :
    Appends none [] w
        (Transactor.transaction background attempt fn w).1 ∧
      ∃ events,
        (Transactor.transaction background attempt fn w).1.log =
            w.log ++ events ∧
          OutermostLog w.hookLists.length attempt hooks
            events := by
  rcases appends_fn none w hFn with ⟨hEnd, hHooks⟩
  rcases log_fn w hFn with ⟨during, hLog, hRuns⟩
  unfold innerContext at hEnd hHooks hLog
  unfold Transactor.transaction connTransaction background
  cases hBegins : attempt.begins with
  | false =>
      simp only [if_true]
      exact
        ⟨appends_newHooks none w, [],
          (List.append_nil _).symm, .notBegun hBegins⟩
  | true =>
      by_cases hResult : attempt.result = .returnsNil
      · cases hCommits : attempt.commits with
        | false =>
            have hThrough :
                attempt.wentThrough false = false := by
              unfold Attempt.wentThrough
              rw [hCommits, Bool.or_false, Bool.and_false]
            simp only [hResult, ne_eq, not_true_eq_false,
              if_false, Bool.true_eq_false,
              Bool.false_eq_true]
            refine
              ⟨hEnd.trans
                (appends_emit _ _ (.rolledBack w.hookLists.length)
              (fun _ _ hRun => hRun)),
                _, ?_, .rolledBack during hBegins hThrough
                  hRuns⟩
            unfold World.emit at hLog ⊢
            rw [hLog, List.append_assoc]
        | true =>
            have hThrough :
                attempt.wentThrough false = true := by
              unfold Attempt.wentThrough
              rw [hBegins, hResult, hCommits]
              rfl
            simp only [hResult, ne_eq, not_true_eq_false,
              if_false, Bool.true_eq_false,
              Bool.false_eq_true, if_true]
            exact
              ⟨(hEnd.trans
                (appends_emit _ _
                  (.committed w.hookLists.length)
                  (fun _ _ hRun => hRun))).runHooks
                    (Nat.le_refl _) _,
                _, log_runHooks hHooks hLog,
                .committed during hThrough hRuns⟩
      · have hThrough : attempt.wentThrough false = false := by
          unfold Attempt.wentThrough
          rw [beq_eq_false_iff_ne.mpr hResult, Bool.and_false]
          rfl
        simp only [ne_eq, hResult, not_false_eq_true,
          if_true, Bool.true_eq_false, if_false]
        refine
          ⟨hEnd.trans
            (appends_emit _ _ (.rolledBack w.hookLists.length)
              (fun _ _ hRun => hRun)),
            _, ?_, .rolledBack during hBegins hThrough hRuns⟩
        unfold World.emit at hLog ⊢
        rw [hLog, List.append_assoc]

------------------------------------------------------------
-- Whole Runs
------------------------------------------------------------

/- A context of a transaction that is open, or of none. -/
structure Context.FitsIn
    (ctx : Context)
    (w : World Hook) : Prop where
  carries_iff :
    ctx.carriesTransaction = ctx.afterCommitHooks.isSome
  opened :
    ∀ ref, ctx.afterCommitHooks = some ref →
      ref < w.hookLists.length

theorem Context.FitsIn.later
    {ctx : Context}
    {old new : World Hook}
    (hFits : ctx.FitsIn old)
    (hRun : Appends list added old new) :
    ctx.FitsIn new :=
  ⟨hFits.carries_iff, fun ref hList =>
    Nat.lt_of_lt_of_le (hFits.opened ref hList) hRun.grows⟩

theorem fitsIn_background
    (w : World Hook) :
    background.FitsIn w := by
  refine ⟨rfl, ?_⟩
  intro ref hNone
  cases hNone

theorem fitsIn_innerContext
    (hOpen : registered < w.hookLists.length) :
    (innerContext registered).FitsIn w := by
  refine ⟨rfl, ?_⟩
  intro ref hList
  rw [← Option.some.inj hList]
  exact hOpen

/- A context that fits and carries no transaction. -/
theorem Context.FitsIn.eq_background
    {ctx : Context}
    (hFits : ctx.FitsIn w)
    (hNone : ctx.afterCommitHooks = none) :
    ctx = background := by
  have hCarries := hFits.carries_iff
  rw [hNone] at hCarries
  cases ctx with
  | mk carries hooks =>
      simp only at hNone hCarries
      rw [hNone, hCarries]
      rfl

mutual

/- An action puts what it keeps in the list of its context. -/
theorem run_appends :
    (action : Action Hook) →
      (ctx : Context) →
        (w : World Hook) →
          ctx.FitsIn w →
            Appends ctx.afterCommitHooks
              (kept action.registrations) w
              (action.run ctx w)
  | .afterCommit hook, ctx, w, hFits => by
      unfold Action.run Action.registrations
        Database.afterCommit
      cases hList : ctx.afterCommitHooks with
      | none => exact (appends_refl none w).none_added _
      | some registered =>
          exact
            appends_appendHooks w (hFits.opened _ hList) [hook]
  | .transaction attempt body, ctx, w, hFits => by
      have hFn :
          FnAppends w.hookLists.length
            (kept (registrationsOf body))
            (runActions body
              (innerContext w.hookLists.length)) :=
        fun w' hOpen =>
          runActions_appends body _ w'
            (fitsIn_innerContext hOpen)
      unfold Action.run
      cases hList : ctx.afterCommitHooks with
      | none =>
          rw [hFits.eq_background hList]
          exact
            (transaction_outermost attempt hFn).1.none_added _
      | some enclosing =>
          have hCarries : ctx.carriesTransaction = true := by
            rw [hFits.carries_iff, hList]
            rfl
          have hNested :=
            transaction_nested attempt hCarries hList
              (hFits.opened _ hList) hFn
          rw [kept_registrations_transaction]
          exact hNested
  | .withoutTransaction body, ctx, w, _ => by
      unfold Action.run Action.registrations
      exact
        (runActions_appends body background w
          (fitsIn_background w)).of_none ctx.afterCommitHooks

theorem runActions_appends :
    (actions : List (Action Hook)) →
      (ctx : Context) →
        (w : World Hook) →
          ctx.FitsIn w →
            Appends ctx.afterCommitHooks
              (kept (registrationsOf actions)) w
              (runActions actions ctx w)
  | [], ctx, w, _ => by
      unfold runActions registrationsOf
      exact appends_refl _ w
  | action :: actions, ctx, w, hFits => by
      have hFirst := run_appends action ctx w hFits
      have hRest :=
        runActions_appends actions ctx (action.run ctx w)
          (hFits.later hFirst)
      unfold runActions registrationsOf
      rw [kept_append]
      exact hFirst.trans hRest

end

end Database

end Databasus
