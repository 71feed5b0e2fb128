import Mathlib.Logic.Basic

/-
  Programs that act on a remote store by requests.

  A request may be lost in either direction: the store applied
  it or not, and its success is reported or not.  A list of
  answers decides that in advance, one for every request; a
  program whose answers run out has crashed at that point.

  Main declarations:
    * `Answer`
    * `Reply`
    * `Session`
    * `Outcome`
    * `Exchange`
    * `Exchange.request`
    * `Exchange.onFailure`
    * `Exchange.bind_done`
    * `Exchange.request_done`
    * `Exchange.Finishes`
    * `Exchange.Keeps`
    * `Exchange.Succeeds`
-/

------------------------------------------------------------
-- Exchanges
------------------------------------------------------------

namespace Foundation

/-
  What becomes of a request.  One that is not reported as a
  success may have been applied, and the caller may have been
  cancelled meanwhile.
-/
inductive Answer
  | succeeded
  | failed (isApplied isCancelled : Bool)
deriving DecidableEq, Repr

namespace Answer

def isCancelled : Answer → Bool
  | succeeded => false
  | failed _ isCancelled => isCancelled

end Answer

/-
  What becomes of a single call.  A call that fails has
  changed nothing; one whose reply is lost has taken effect
  although its caller sees an error.
-/
inductive Reply
  | failed
  | lost
  | delivered
deriving DecidableEq, Repr

/- The change of a call, unless the call has failed. -/
def Reply.apply
    {ω : Type}
    (reply : Reply)
    (change : ω → ω)
    (world : ω) : ω :=
  match reply with
  | .failed => world
  | .lost => change world
  | .delivered => change world

/- What the change and no change both have, the call has. -/
theorem Reply.apply_cases
    {ω : Type}
    (holds : ω → Prop)
    (reply : Reply)
    {change : ω → ω}
    {world : ω}
    (hSame : holds world)
    (hChanged : holds (change world)) :
    holds (reply.apply change world) := by
  cases reply with
  | failed => exact hSame
  | lost => exact hChanged
  | delivered => exact hChanged

/- A store and what becomes of the requests still to come. -/
structure Session (ω : Type) where
  world : ω
  answers : List Answer
deriving DecidableEq, Repr

/- How a program ends.  A loop out of fuel has diverged. -/
inductive Outcome (ε α : Type)
  | done (value : α)
  | failed (error : ε)
  | crashed
  | diverged
deriving DecidableEq, Repr

/- A program on the store `ω` with errors in `ε`. -/
def Exchange (ω ε α : Type) : Type :=
  Session ω → Outcome ε α × Session ω

namespace Exchange

variable {ω ε α β : Type}

instance : Monad (Exchange ω ε) where
  pure value := fun session => (.done value, session)
  bind program next := fun session =>
    match program session with
    | (.done value, session') => next value session'
    | (.failed error, session') => (.failed error, session')
    | (.crashed, session') => (.crashed, session')
    | (.diverged, session') => (.diverged, session')

def fail (error : ε) : Exchange ω ε α :=
  fun session => (.failed error, session)

def diverge : Exchange ω ε α :=
  fun session => (.diverged, session)

def ofOption
    (error : ε) : Option α → Exchange ω ε α
  | some value => pure value
  | none => fail error

/-
  Ask the store for an effect.  The store refuses one that
  has no result.  The error may depend on a cancellation.
-/
def request
    (effect : ω → Option (ω × α))
    (error : Bool → ε) : Exchange ω ε α :=
  fun session =>
    match session.answers with
    | [] => (.crashed, session)
    | .succeeded :: answers =>
        match effect session.world with
        | some (world, value) =>
            (.done value, { world, answers })
        | none =>
            (.failed (error false), { session with answers })
    | .failed isApplied isCancelled :: answers =>
        let world :=
          match isApplied, effect session.world with
          | true, some (world, _) => world
          | _, _ => session.world
        (.failed (error isCancelled), { world, answers })

/- A check for a cancellation, which asks the store nothing. -/
def checkCancelled (error : ε) : Exchange ω ε Unit :=
  fun session =>
    match session.answers with
    | [] => (.crashed, session)
    | answer :: answers =>
        (if answer.isCancelled then .failed error else .done (),
          { session with answers })

/- Run the program, and carry on when it fails. -/
def ignoreFailure
    (program : Exchange ω ε Unit) : Exchange ω ε Unit :=
  fun session =>
    match program session with
    | (.failed _, session') => (.done (), session')
    | ended => ended

/- When the program fails, clean up and fail all the same. -/
def onFailure
    (program : Exchange ω ε α)
    (cleanup : Exchange ω ε Unit) : Exchange ω ε α :=
  fun session =>
    match program session with
    | (.failed error, session') =>
        (do ignoreFailure cleanup; fail error) session'
    | ended => ended

------------------------------------------------------------
-- Programs that Succeed
------------------------------------------------------------

variable {session session' : Session ω}
variable {error : ε}
variable {result : α}
variable {program : Exchange ω ε α}
variable {next : α → Exchange ω ε β}

theorem pure_done
    {value result : α} :
    (pure value : Exchange ω ε α) session =
        (.done result, session') ↔
      value = result ∧ session = session' := by
  change
    ((.done value, session) : Outcome ε α × Session ω) =
      (.done result, session') ↔ _
  simp

theorem fail_done :
    ¬ (fail error : Exchange ω ε α) session =
      (.done result, session') := by
  simp [fail]

theorem diverge_done :
    ¬ (diverge : Exchange ω ε α) session =
      (.done result, session') := by
  simp [diverge]

/- A sequence succeeds when both of its programs do. -/
theorem bind_done
    {result : β} :
    (program >>= next) session = (.done result, session') ↔
      ∃ value between,
        program session = (.done value, between) ∧
          next value between = (.done result, session') := by
  change
    (match program session with
      | (.done value, between) => next value between
      | (.failed error, between) => (.failed error, between)
      | (.crashed, between) => (.crashed, between)
      | (.diverged, between) => (.diverged, between)) =
        (.done result, session') ↔ _
  rcases program session with ⟨outcome, between⟩
  cases outcome with
  | failed error => simp
  | crashed => simp
  | diverged => simp
  | done value =>
      constructor
      · intro hNext
        exact ⟨value, between, rfl, hNext⟩
      · rintro ⟨_, _, hSame, hNext⟩
        cases hSame
        exact hNext

/- After a program that succeeds the next one goes on. -/
theorem bind_of_done
    {value : α}
    (hDone : program session = (.done value, session')) :
    (program >>= next) session = next value session' := by
  change
    (match program session with
      | (.done value, between) => next value between
      | (.failed error, between) => (.failed error, between)
      | (.crashed, between) => (.crashed, between)
      | (.diverged, between) => (.diverged, between)) = _
  rw [hDone]

theorem ofOption_done
    {found : Option α} :
    (ofOption error found : Exchange ω ε α) session =
        (.done result, session') ↔
      found = some result ∧ session = session' := by
  cases found with
  | none => simp [ofOption, fail_done]
  | some value => simp [ofOption, pure_done]

/- A request succeeds when it is applied and reported. -/
theorem request_done
    {effect : ω → Option (ω × α)}
    {error : Bool → ε} :
    request effect error session =
        (.done result, session') ↔
      session.answers = .succeeded :: session'.answers ∧
        effect session.world =
          some (session'.world, result) := by
  obtain ⟨world, answers⟩ := session
  obtain ⟨world', answers'⟩ := session'
  cases answers with
  | nil => simp [request]
  | cons answer answers =>
      cases answer with
      | failed isApplied isCancelled => simp [request]
      | succeeded =>
          cases hEffect : effect world with
          | none => simp [request, hEffect]
          | some answered =>
              obtain ⟨after, value⟩ := answered
              simp only [request, hEffect, Prod.mk.injEq,
                Outcome.done.injEq, Session.mk.injEq,
                List.cons.injEq, Option.some.injEq, true_and]
              constructor
              · rintro ⟨rfl, rfl, rfl⟩
                exact ⟨rfl, rfl, rfl⟩
              · rintro ⟨rfl, rfl, rfl⟩
                exact ⟨rfl, rfl, rfl⟩

theorem checkCancelled_done :
    (checkCancelled error : Exchange ω ε Unit) session =
        (.done (), session') →
      session'.world = session.world := by
  obtain ⟨world, answers⟩ := session
  cases answers with
  | nil => simp [checkCancelled]
  | cons answer answers =>
      intro hDone
      simp only [checkCancelled, Prod.mk.injEq] at hDone
      rw [← hDone.2]

/- Cleaning up is no part of a success. -/
theorem onFailure_done
    {cleanup : Exchange ω ε Unit} :
    onFailure program cleanup session =
        (.done result, session') ↔
      program session = (.done result, session') := by
  unfold onFailure
  rcases hProgram : program session with ⟨outcome, between⟩
  cases outcome with
  | failed error => simp [bind_done, fail_done]
  | done value => simp
  | crashed => simp
  | diverged => simp

------------------------------------------------------------
-- Programs that End
------------------------------------------------------------

/- No loop of the program runs out of fuel. -/
def Finishes (program : Exchange ω ε α) : Prop :=
  ∀ session, (program session).1 ≠ .diverged

theorem finishes_pure
    (value : α) :
    Finishes (pure value : Exchange ω ε α) :=
  fun _ => nofun

theorem finishes_fail
    (error : ε) :
    Finishes (fail error : Exchange ω ε α) :=
  fun _ => nofun

/- What follows only has to end where the first succeeded. -/
theorem finishes_bind
    (hProgram : Finishes program)
    (hNext :
      ∀ session value session',
        program session = (.done value, session') →
          (next value session').1 ≠ .diverged) :
    Finishes (program >>= next) := by
  intro session
  have hFirst := hProgram session
  simp only [bind]
  rcases hRun : program session with ⟨outcome, between⟩
  rw [hRun] at hFirst
  cases outcome with
  | done value => exact hNext session value between hRun
  | failed error => nofun
  | crashed => nofun
  | diverged => exact absurd rfl hFirst

theorem finishes_request
    (effect : ω → Option (ω × α))
    (error : Bool → ε) :
    Finishes (request effect error) := by
  intro session
  obtain ⟨world, answers⟩ := session
  rcases answers with _ | ⟨_ | _, answers⟩
  · simp [request]
  · cases hEffect : effect world <;> simp [request, hEffect]
  · simp [request]

theorem finishes_checkCancelled
    (error : ε) :
    Finishes (checkCancelled error : Exchange ω ε Unit) := by
  intro session
  obtain ⟨world, answers⟩ := session
  cases answers with
  | nil => simp [checkCancelled]
  | cons answer answers =>
      cases hCancelled : answer.isCancelled <;>
        simp [checkCancelled, hCancelled]

theorem finishes_ignoreFailure
    {program : Exchange ω ε Unit}
    (hProgram : Finishes program) :
    Finishes (ignoreFailure program) := by
  intro session
  have hEnds := hProgram session
  unfold ignoreFailure
  rcases hRun : program session with ⟨outcome, between⟩
  rw [hRun] at hEnds
  cases outcome with
  | failed error => simp
  | done value => exact hEnds
  | crashed => exact hEnds
  | diverged => exact hEnds

theorem finishes_onFailure
    {cleanup : Exchange ω ε Unit}
    (hProgram : Finishes program)
    (hCleanup : Finishes cleanup) :
    Finishes (onFailure program cleanup) := by
  intro session
  have hEnds := hProgram session
  have hRest :
      ∀ error, Finishes
        (do ignoreFailure cleanup; fail error :
          Exchange ω ε α) :=
    fun error =>
      finishes_bind (finishes_ignoreFailure hCleanup)
        fun _ _ between _ => finishes_fail error between
  unfold onFailure
  rcases hRun : program session with ⟨outcome, between⟩
  rw [hRun] at hEnds
  cases outcome with
  | failed error => exact hRest error between
  | done value => exact hEnds
  | crashed => exact hEnds
  | diverged => exact hEnds

------------------------------------------------------------
-- Invariants of the Store
------------------------------------------------------------

variable {holds : ω → Prop}

/-
  However the program ends, and wherever it crashes, it leaves
  a store with the property when it found one.
-/
def Keeps
    (holds : ω → Prop)
    (program : Exchange ω ε α) : Prop :=
  ∀ session,
    holds session.world → holds (program session).2.world

theorem keeps_pure
    (value : α) :
    Keeps holds (pure value : Exchange ω ε α) :=
  fun _ hHolds => hHolds

theorem keeps_fail
    (error : ε) :
    Keeps holds (fail error : Exchange ω ε α) :=
  fun _ hHolds => hHolds

theorem keeps_diverge :
    Keeps holds (diverge : Exchange ω ε α) :=
  fun _ hHolds => hHolds

/- What follows runs only where the first succeeded. -/
theorem keeps_bind_of_done
    (hProgram : Keeps holds program)
    (hNext :
      ∀ session value session',
        program session = (.done value, session') →
          Keeps holds (next value)) :
    Keeps holds (program >>= next) := by
  intro session hHolds
  have hFirst := hProgram session hHolds
  have hSecond := hNext session
  change
    holds (match program session with
      | (.done value, between) => next value between
      | (.failed error, between) => (.failed error, between)
      | (.crashed, between) => (.crashed, between)
      | (.diverged, between) => (.diverged, between)).2.world
  rcases hRun : program session with ⟨outcome, between⟩
  rw [hRun] at hFirst
  cases outcome with
  | done value =>
      exact hSecond value between hRun between hFirst
  | failed error => exact hFirst
  | crashed => exact hFirst
  | diverged => exact hFirst

theorem keeps_bind
    (hProgram : Keeps holds program)
    (hNext : ∀ value, Keeps holds (next value)) :
    Keeps holds (program >>= next) :=
  keeps_bind_of_done hProgram fun _ value _ _ => hNext value

/- A request keeps what its effect keeps. -/
theorem keeps_request
    {effect : ω → Option (ω × α)}
    {error : Bool → ε}
    (hEffect :
      ∀ world world' value,
        holds world →
          effect world = some (world', value) →
            holds world') :
    Keeps holds (request effect error) := by
  intro session hHolds
  obtain ⟨world, answers⟩ := session
  rcases answers with _ | ⟨_ | ⟨isApplied, _⟩, answers⟩
  · exact hHolds
  · cases hResult : effect world with
    | none => simpa [request, hResult] using hHolds
    | some answered =>
        obtain ⟨world', value⟩ := answered
        have hAfter := hEffect world world' value hHolds hResult
        simpa [request, hResult] using hAfter
  · cases hResult : effect world with
    | none => simpa [request, hResult] using hHolds
    | some answered =>
        obtain ⟨world', value⟩ := answered
        have hAfter := hEffect world world' value hHolds hResult
        cases isApplied with
        | true => simpa [request, hResult] using hAfter
        | false => simpa [request, hResult] using hHolds

theorem keeps_checkCancelled
    (error : ε) :
    Keeps holds
      (checkCancelled error : Exchange ω ε Unit) := by
  intro session hHolds
  obtain ⟨world, answers⟩ := session
  cases answers with
  | nil => exact hHolds
  | cons answer answers => exact hHolds

theorem keeps_ignoreFailure
    {program : Exchange ω ε Unit}
    (hProgram : Keeps holds program) :
    Keeps holds (ignoreFailure program) := by
  intro session hHolds
  have hAfter := hProgram session hHolds
  unfold ignoreFailure
  rcases hRun : program session with ⟨outcome, between⟩
  rw [hRun] at hAfter
  cases outcome with
  | done value => exact hAfter
  | failed error => exact hAfter
  | crashed => exact hAfter
  | diverged => exact hAfter

theorem keeps_onFailure
    {cleanup : Exchange ω ε Unit}
    (hProgram : Keeps holds program)
    (hCleanup : Keeps holds cleanup) :
    Keeps holds (onFailure program cleanup) := by
  intro session hHolds
  have hAfter := hProgram session hHolds
  have hRest :
      ∀ error, Keeps holds
        (do ignoreFailure cleanup; fail error :
          Exchange ω ε α) :=
    fun error =>
      keeps_bind (keeps_ignoreFailure hCleanup) fun _ =>
        keeps_fail error
  unfold onFailure
  rcases hRun : program session with ⟨outcome, between⟩
  rw [hRun] at hAfter
  cases outcome with
  | failed error => exact hRest error between hAfter
  | done value => exact hAfter
  | crashed => exact hAfter
  | diverged => exact hAfter

------------------------------------------------------------
-- Requests that are All Answered
------------------------------------------------------------

variable {value : α}
variable {world world' : ω}

/-
  From this store the program succeeds, leaving the other one,
  when enough of its requests in a row are answered.
-/
def Succeeds
    (program : Exchange ω ε α)
    (world : ω)
    (value : α)
    (world' : ω) : Prop :=
  ∃ count, ∀ answers,
    program
        { world
          answers :=
            List.replicate count .succeeded ++ answers } =
      (.done value, { world := world', answers })

theorem succeeds_pure
    (value : α)
    (world : ω) :
    Succeeds (pure value : Exchange ω ε α) world value
      world :=
  ⟨0, fun _ => rfl⟩

theorem succeeds_bind
    {world between world' : ω}
    {result : β}
    (hProgram : Succeeds program world value between)
    (hNext : Succeeds (next value) between result world') :
    Succeeds (program >>= next) world result world' := by
  rcases hProgram with ⟨first, hFirst⟩
  rcases hNext with ⟨second, hSecond⟩
  refine ⟨first + second, ?_⟩
  intro answers
  rw [bind_done]
  refine ⟨value, _, ?_, hSecond answers⟩
  rw [← List.replicate_append_replicate, List.append_assoc]
  exact hFirst _

theorem succeeds_request
    {effect : ω → Option (ω × α)}
    {error : Bool → ε}
    (hEffect : effect world = some (world', value)) :
    Succeeds (request effect error) world value world' := by
  refine ⟨1, ?_⟩
  intro answers
  rw [request_done]
  exact ⟨rfl, hEffect⟩

theorem succeeds_checkCancelled
    (error : ε)
    (world : ω) :
    Succeeds (checkCancelled error : Exchange ω ε Unit)
      world () world :=
  ⟨1, fun _ => rfl⟩

theorem succeeds_onFailure
    {cleanup : Exchange ω ε Unit}
    (hProgram : Succeeds program world value world') :
    Succeeds (onFailure program cleanup) world value
      world' := by
  rcases hProgram with ⟨count, hCount⟩
  refine ⟨count, ?_⟩
  intro answers
  rw [onFailure_done]
  exact hCount answers

theorem succeeds_ignoreFailure
    {program : Exchange ω ε Unit}
    (hProgram : Succeeds program world () world') :
    Succeeds (ignoreFailure program) world () world' := by
  rcases hProgram with ⟨count, hCount⟩
  refine ⟨count, ?_⟩
  intro answers
  unfold ignoreFailure
  rw [hCount answers]

end Exchange

end Foundation
