import Mathlib.Logic.Basic

/-
  Runs of a transition system whose step is a function.

  A disabled action makes `step` return `none`.  A run may be
  restricted by a guard, which every step it takes has to
  meet; the unrestricted run has the guard that always holds.

  Main declarations:
    * `TransitionSystem`
    * `TransitionSystem.perform`
    * `TransitionSystem.ReachableWhile`
    * `TransitionSystem.ReachableWhile.invariant`
    * `TransitionSystem.perform_invariant`
    * `TransitionSystem.perform_invariant_while`
    * `TransitionSystem.reachableWhile_of_perform`
-/

------------------------------------------------------------
-- Transition Systems
------------------------------------------------------------

namespace Foundation

/- States, actions and the step that an action takes. -/
structure TransitionSystem (σ α : Type) where
  initial : σ → Prop
  step : σ → α → Option σ

namespace TransitionSystem

variable {σ α : Type}

/- Take the given actions one after another. -/
def perform
    (T : TransitionSystem σ α) :
    σ → List α → Option σ
  | s, [] => some s
  | s, a :: rest =>
      match T.step s a with
      | none => none
      | some s' => T.perform s' rest

/- Where the actions lead, or the start when one is disabled. -/
def outcome
    (T : TransitionSystem σ α)
    (s : σ)
    (actions : List α) : σ :=
  (T.perform s actions).getD s

/- Every step of the performed actions meets the guard. -/
def MeetsAlong
    (T : TransitionSystem σ α)
    (guard : σ → α → Prop) :
    σ → List α → Prop
  | _, [] => True
  | s, a :: rest =>
      guard s a ∧
        ∀ s', T.step s a = some s' →
          T.MeetsAlong guard s' rest

instance instDecidableMeetsAlong
    (T : TransitionSystem σ α)
    (guard : σ → α → Prop)
    [∀ s a, Decidable (guard s a)] :
    ∀ s actions,
      Decidable (T.MeetsAlong guard s actions)
  | _, [] => isTrue trivial
  | s, a :: rest =>
      have : ∀ s', Decidable (T.MeetsAlong guard s' rest) :=
        fun s' => instDecidableMeetsAlong T guard s' rest
      inferInstanceAs
        (Decidable (guard s a ∧ ∀ s' ∈ T.step s a, _))

------------------------------------------------------------
-- Reachability
------------------------------------------------------------

variable {T : TransitionSystem σ α}
variable {guard : σ → α → Prop}
variable {holds : σ → Prop}
variable {s : σ}

/- States reached by steps which all meet the guard. -/
inductive ReachableWhile
    (T : TransitionSystem σ α)
    (guard : σ → α → Prop) : σ → Prop
  | initial {s : σ} :
      T.initial s → ReachableWhile T guard s
  | step {s s' : σ} {a : α} :
      ReachableWhile T guard s →
      guard s a →
      T.step s a = some s' →
      ReachableWhile T guard s'

/- States reached by any steps at all. -/
def Reachable
    (T : TransitionSystem σ α) : σ → Prop :=
  T.ReachableWhile fun _ _ => True

/-
  A property that holds initially and that every guarded step
  keeps holds in every state of a guarded run.
-/
theorem ReachableWhile.invariant
    (hInitial : ∀ s, T.initial s → holds s)
    (hStep :
      ∀ s a s', holds s → guard s a →
        T.step s a = some s' → holds s')
    {s : σ}
    (hReachable : T.ReachableWhile guard s) :
    holds s := by
  induction hReachable with
  | initial hStart => exact hInitial _ hStart
  | step _ hGuard hTaken ih =>
      exact hStep _ _ _ ih hGuard hTaken

/- What every step keeps, any performed actions keep. -/
theorem perform_invariant
    (hStep :
      ∀ s a s', holds s → T.step s a = some s' → holds s')
    (actions : List α) :
    ∀ {s s' : σ},
      holds s →
      T.perform s actions = some s' →
      holds s' := by
  induction actions with
  | nil =>
      intro s s' hHolds hPerform
      simp only [perform, Option.some.injEq] at hPerform
      subst hPerform
      exact hHolds
  | cons a rest ih =>
      intro s s' hHolds hPerform
      cases hTaken : T.step s a with
      | none => simp [perform, hTaken] at hPerform
      | some middle =>
          simp only [perform, hTaken] at hPerform
          exact ih (hStep s a middle hHolds hTaken) hPerform

/- What every guarded step keeps, guarded actions keep. -/
theorem perform_invariant_while
    (hStep :
      ∀ s a s', holds s → guard s a →
        T.step s a = some s' → holds s')
    (actions : List α) :
    ∀ {s s' : σ},
      holds s →
      T.MeetsAlong guard s actions →
      T.perform s actions = some s' →
      holds s' := by
  induction actions with
  | nil =>
      intro s s' hHolds _ hPerform
      simp only [perform, Option.some.injEq] at hPerform
      subst hPerform
      exact hHolds
  | cons a rest ih =>
      intro s s' hHolds hMeets hPerform
      cases hTaken : T.step s a with
      | none => simp [perform, hTaken] at hPerform
      | some middle =>
          simp only [perform, hTaken] at hPerform
          exact
            ih (hStep s a middle hHolds hMeets.1 hTaken)
              (hMeets.2 middle hTaken) hPerform

/- Actions after other ones start where those have led. -/
theorem perform_append
    (T : TransitionSystem σ α)
    (first second : List α) :
    ∀ s : σ,
      T.perform s (first ++ second) =
        (T.perform s first).bind fun middle =>
          T.perform middle second := by
  induction first with
  | nil =>
      intro s
      rfl
  | cons a rest ih =>
      intro s
      simp only [List.cons_append, perform]
      cases T.step s a with
      | none => rfl
      | some middle => exact ih middle

/- Performed actions that meet the guard extend a run. -/
theorem reachableWhile_of_perform
    (actions : List α) :
    ∀ {s s' : σ},
      T.ReachableWhile guard s →
      T.MeetsAlong guard s actions →
      T.perform s actions = some s' →
      T.ReachableWhile guard s' := by
  induction actions with
  | nil =>
      intro s s' hReachable _ hPerform
      simp only [perform, Option.some.injEq] at hPerform
      subst hPerform
      exact hReachable
  | cons a rest ih =>
      intro s s' hReachable hMeets hPerform
      cases hTaken : T.step s a with
      | none => simp [perform, hTaken] at hPerform
      | some middle =>
          simp only [perform, hTaken] at hPerform
          exact ih
            (.step hReachable hMeets.1 hTaken)
            (hMeets.2 middle hTaken) hPerform

/- The unrestricted guard is met along every run. -/
theorem meetsAlong_true
    (T : TransitionSystem σ α)
    (actions : List α) :
    ∀ s, T.MeetsAlong (fun _ _ => True) s actions := by
  induction actions with
  | nil =>
      intro s
      trivial
  | cons a rest ih =>
      intro s
      exact ⟨trivial, fun s' _ => ih s'⟩

/-
  Guards that agree wherever an invariant holds are met along
  the same actions.
-/
theorem meetsAlong_congr
    {first second : σ → α → Prop}
    (hStep :
      ∀ s a s', holds s → T.step s a = some s' → holds s')
    (hAgree : ∀ s a, holds s → (first s a ↔ second s a))
    (actions : List α) :
    ∀ {s : σ},
      holds s →
      (T.MeetsAlong first s actions ↔
        T.MeetsAlong second s actions) := by
  induction actions with
  | nil =>
      intro s _
      exact Iff.rfl
  | cons a rest ih =>
      intro s hHolds
      have hRest :
          ∀ s', T.step s a = some s' →
            (T.MeetsAlong first s' rest ↔
              T.MeetsAlong second s' rest) :=
        fun s' hTaken => ih (hStep s a s' hHolds hTaken)
      constructor
      · rintro ⟨hFirst, hLater⟩
        refine ⟨(hAgree s a hHolds).mp hFirst, ?_⟩
        intro s' hTaken
        exact (hRest s' hTaken).mp (hLater s' hTaken)
      · rintro ⟨hSecond, hLater⟩
        refine ⟨(hAgree s a hHolds).mpr hSecond, ?_⟩
        intro s' hTaken
        exact (hRest s' hTaken).mpr (hLater s' hTaken)

/- Actions that meet the guard lead to a state of a run. -/
theorem reachableWhile_outcome
    {actions : List α}
    (hStart : T.initial s)
    (hMeets : T.MeetsAlong guard s actions) :
    T.ReachableWhile guard (T.outcome s actions) := by
  unfold outcome
  cases hPerform : T.perform s actions with
  | none => exact .initial hStart
  | some s' =>
      exact
        reachableWhile_of_perform actions (.initial hStart)
          hMeets hPerform

/- Any actions lead from a start to a reachable state. -/
theorem reachable_outcome
    (actions : List α)
    (hStart : T.initial s) :
    T.Reachable (T.outcome s actions) :=
  reachableWhile_outcome hStart
    (T.meetsAlong_true actions s)

end TransitionSystem

end Foundation
