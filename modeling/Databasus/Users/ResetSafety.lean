import Mathlib.Algebra.Order.Group.Int
import Databasus.Users.LedgerFrames
import Databasus.Users.PasswordReset

/-
  Limits of reset codes, and when the requests keep to them.

  A code is compared and completed as often as its row allows,
  whatever interleaves.  The hourly allowance holds as long as
  nobody stores or deletes codes between a request's count and
  its insertion, and the newest code is the one completed as
  long as none is stored while a completion is under way.

  Main declarations:
    * `isUndisturbed`
    * `ResetSound`, `resetSound_step`
    * `reset_limits_hold`
-/

------------------------------------------------------------
-- Undisturbed Steps
------------------------------------------------------------

namespace Databasus

namespace Users

namespace PasswordReset

open Foundation

/- The clock was read, and the codes were not counted yet. -/
def Stage.uncounted : Stage → Option Allowance
  | .counting allowance => some allowance
  | _ => none

/- The codes were counted, and the new one is not stored. -/
def Stage.counted : Stage → Option Allowance
  | .generating allowance => some allowance
  | .inserting code =>
      some { userID := code.userID, readAt := code.createdAt }
  | _ => none

/- The newest code was picked, and is not completed yet. -/
def Stage.picked : Stage → Option Guess
  | .claiming guess => some guess
  | .comparing guess => some guess
  | .hashing guess => some guess
  | .spending guess _ => some guess
  | .spent guess _ => some guess
  | _ => none

/- The comparison of the call is behind it. -/
def Stage.hasCompared : Stage → Bool
  | .hashing _ => true
  | .spending _ _ => true
  | .spent _ _ => true
  | .over => true
  | _ => false

variable (matchesHash : String → String → Bool)

def Guess.isRight (guess : Guess) : Bool :=
  matchesHash guess.code.hashedCode guess.given

/- The new code would supersede the one that is completed. -/
def Guess.isOvertakenBy
    (guess : Guess)
    (new : ResetCode) : Bool :=
  guess.isRight matchesHash &&
    new.userID = guess.code.userID &&
      guess.code.createdAt < new.createdAt

/-
  A code is stored while no other request of its user counts
  on the same room, and while no older code is completed.  A
  clean-up deletes no code that a request will count.
-/
def isUndisturbed
    (s : ResetState) : ResetAction → Bool
  | .advance c =>
      match s.calls c with
      | .inserting new =>
          s.begun.all fun other =>
            other = c ||
              ((s.calls other).counted.all fun allowance =>
                  allowance.userID ≠ new.userID) &&
                (s.calls other).picked.all fun guess =>
                  !guess.isOvertakenBy matchesHash new
      | .deleting _ [] deleted =>
          s.begun.all fun other =>
            (s.calls other).uncounted.all fun allowance =>
              s.ledger.codes.rows.all fun row =>
                !row.isCreatedSince allowance.userID
                    allowance.since ||
                  !deleted.contains row.id
      | _ => true
  | _ => true

------------------------------------------------------------
-- Sound States
------------------------------------------------------------

/- A code as it is composed, with its hour to live. -/
structure IsNew
    (code : ResetCode) : Prop where
  unused : code.isUsed = false
  attempts : code.failedAttemptCount = 0
  lifetime :
    code.expiresAt = code.createdAt + resetCodeLifetime

variable (matchesHash : String → String → Bool)
variable (capped : Prop)
variable (s : ResetState)
variable (c : Nat)

def IsQuiet : Prop :=
  s.ledger.codes.changesOf c = []

/- The rows to be counted are all there. -/
def Countable
    (allowance : Allowance) : Prop :=
  capped →
    StillCounted s.ledger allowance.userID allowance.since

/- The allowance has room for a new code. -/
def Fits
    (allowance : Allowance) : Prop :=
  capped →
    SlidingWindow.countSince allowance.since
        (createdFor s.ledger allowance.userID) <
      maxResetCodesPerHour

/- No newer code of the user was created after the instant. -/
def NoneNewer
    (code : ResetCode)
    (since : Time) : Prop :=
  ∀ newer ∈ s.ledger.created,
    newer.userID = code.userID →
      newer.createdAt ≤ max code.createdAt since

/- A code of the table, and the newest one that still works. -/
def Chosen
    (guess : Guess) : Prop :=
  (∃ original ∈ s.ledger.created,
      original.SameCode guess.code) ∧
    (capped → guess.isRight matchesHash = true →
      NoneNewer s guess.code (s.now - resetCodeRetention))

/- What holds while a call is in a stage. -/
def StageSound : Stage → Prop
  | .counting allowance =>
      IsQuiet s c ∧ Countable capped s allowance
  | .generating allowance =>
      IsQuiet s c ∧ Fits capped s allowance
  | .inserting code =>
      IsQuiet s c ∧ IsNew code ∧
        Fits capped s
          { userID := code.userID, readAt := code.createdAt }
  | .claiming guess =>
      IsQuiet s c ∧ Chosen matchesHash capped s guess
  | .comparing guess =>
      IsQuiet s c ∧ Chosen matchesHash capped s guess ∧
        { codeID := guess.code.id, call := c } ∈
          s.ledger.claims
  | .hashing guess =>
      IsQuiet s c ∧ Chosen matchesHash capped s guess ∧
        guess.isRight matchesHash = true
  | .spending guess _ =>
      IsQuiet s c ∧ Chosen matchesHash capped s guess ∧
        guess.isRight matchesHash = true
  | .spent guess _ =>
      guess.isRight matchesHash = true ∧
        (capped →
          NoneNewer s guess.code guess.code.createdAt) ∧
          ∃ code,
            code.id = guess.code.id ∧
              Spending s.ledger c code
  | .cleaning cutoff =>
      IsQuiet s c ∧ cutoff ≤ s.now - resetCodeRetention
  | .deleting cutoff remaining deleted =>
      Deleting s.ledger c deleted ∧
        cutoff ≤ s.now - resetCodeRetention ∧
          ∀ codeID ∈ deleted ++ remaining,
            WasCreatedBefore s.ledger cutoff codeID
  | _ => IsQuiet s c

/-
  Without the cap the invariant holds in every run; with it,
  in runs whose steps are undisturbed.
-/
structure ResetSound : Prop where
  ledger : LedgerSound s.ledger
  stages :
    ∀ c, StageSound matchesHash capped s c (s.calls c)
  compared :
    ∀ event ∈ s.ledger.compared,
      (s.calls event.call).hasCompared = true
  begun : ∀ c, s.calls c ≠ .idle → c ∈ s.begun
  lifetimes :
    ∀ original ∈ s.ledger.created,
      original.expiresAt =
        original.createdAt + resetCodeLifetime
  kept :
    ∀ userID,
      StillCounted s.ledger userID
        (s.now - resetCodeRetention)
  admitted :
    capped →
      ∀ userID,
        SlidingWindow.Admitted maxResetCodesPerHour
          Duration.hour (createdFor s.ledger userID)
  resets :
    (s.resets.map fun reset => reset.code.id) =
      s.ledger.completed.map CodeEvent.codeID
  newest :
    capped →
      ∀ reset ∈ s.resets,
        ∀ newer ∈ reset.storedThen,
          newer.userID = reset.code.userID →
            newer.createdAt ≤ reset.code.createdAt

------------------------------------------------------------
-- Steps of Other Calls
------------------------------------------------------------

variable {code : ResetCode}

/- A step leaves all that the stage of a call rests on. -/
structure Persists
    (matchesHash : String → String → Bool)
    (capped : Prop)
    (s s' : ResetState)
    (c : Nat) : Prop where
  store :
    Store.KeptFor EmailedCode.id s.ledger.codes
      s'.ledger.codes c
  claims : s.ledger.claims ⊆ s'.ledger.claims
  created : s.ledger.created ⊆ s'.ledger.created
  now : s.now ≤ s'.now
  countable :
    ∀ allowance ∈ (s.calls c).uncounted,
      Countable capped s allowance →
        Countable capped s' allowance
  counted :
    capped →
      ∀ allowance ∈ (s.calls c).counted,
        createdFor s'.ledger allowance.userID =
          createdFor s.ledger allowance.userID
  picked :
    capped →
      ∀ guess ∈ (s.calls c).picked,
        guess.isRight matchesHash = true →
          ∀ since,
            NoneNewer s guess.code since →
              NoneNewer s' guess.code since

variable {matchesHash : String → String → Bool}
variable {capped : Prop}
variable {s s' : ResetState}
variable {c : Nat}

theorem NoneNewer.mono
    {since later : Time}
    (hNone : NoneNewer s code since)
    (hLater : since ≤ later) :
    NoneNewer s code later := by
  intro newer hNewer hUser
  exact
    le_trans (hNone newer hNewer hUser)
      (max_le_max_left _ hLater)

namespace Persists

theorem quiet
    (hPersists : Persists matchesHash capped s s' c)
    (hQuiet : IsQuiet s c) :
    IsQuiet s' c :=
  hPersists.store.changes.trans hQuiet

theorem fits
    (hPersists : Persists matchesHash capped s s' c)
    {allowance : Allowance}
    (hCounted : allowance ∈ (s.calls c).counted)
    (hFits : Fits capped s allowance) :
    Fits capped s' allowance := by
  intro hCapped
  rw [hPersists.counted hCapped allowance hCounted]
  exact hFits hCapped

theorem chosen
    (hPersists : Persists matchesHash capped s s' c)
    {guess : Guess}
    (hPicked : guess ∈ (s.calls c).picked)
    (hChosen : Chosen matchesHash capped s guess) :
    Chosen matchesHash capped s' guess := by
  rcases hChosen with ⟨⟨original, hOriginal, hSame⟩, hNone⟩
  refine ⟨⟨original, hPersists.created hOriginal, hSame⟩, ?_⟩
  intro hCapped hRight
  have hKept :=
    hPersists.picked hCapped guess hPicked hRight _
      (hNone hCapped hRight)
  exact hKept.mono (sub_le_sub_right hPersists.now _)

theorem spending
    (hPersists : Persists matchesHash capped s s' c)
    (hSpending : Spending s.ledger c code) :
    Spending s'.ledger c code :=
  ⟨hPersists.store.owns code hSpending.owns,
    hSpending.unused,
    hPersists.store.changes.trans hSpending.changes⟩

theorem cutoff
    (hPersists : Persists matchesHash capped s s' c)
    {cutoff : Time}
    (hCutoff : cutoff ≤ s.now - resetCodeRetention) :
    cutoff ≤ s'.now - resetCodeRetention :=
  le_trans hCutoff (sub_le_sub_right hPersists.now _)

end Persists

theorem StageSound.persists
    (hStage : StageSound matchesHash capped s c (s.calls c))
    (hPersists : Persists matchesHash capped s s' c) :
    StageSound matchesHash capped s' c (s.calls c) := by
  have hCountable := hPersists.countable
  have hFits :
      ∀ allowance ∈ (s.calls c).counted,
        Fits capped s allowance → Fits capped s' allowance :=
    fun _ hCounted => hPersists.fits hCounted
  have hChosen :
      ∀ guess ∈ (s.calls c).picked,
        Chosen matchesHash capped s guess →
          Chosen matchesHash capped s' guess :=
    fun _ hPicked => hPersists.chosen hPicked
  have hPicked := hPersists.picked
  cases hCall : s.calls c with
  | counting allowance =>
      rw [hCall] at hStage hCountable
      exact
        ⟨hPersists.quiet hStage.1,
          hCountable allowance rfl hStage.2⟩
  | generating allowance =>
      rw [hCall] at hStage hFits
      exact
        ⟨hPersists.quiet hStage.1,
          hFits allowance rfl hStage.2⟩
  | inserting code =>
      rw [hCall] at hStage hFits
      rcases hStage with ⟨hQuiet, hNew, hRoom⟩
      exact ⟨hPersists.quiet hQuiet, hNew, hFits _ rfl hRoom⟩
  | claiming guess =>
      rw [hCall] at hStage hChosen
      exact
        ⟨hPersists.quiet hStage.1,
          hChosen guess rfl hStage.2⟩
  | comparing guess =>
      rw [hCall] at hStage hChosen
      rcases hStage with ⟨hQuiet, hGuess, hClaimed⟩
      exact
        ⟨hPersists.quiet hQuiet, hChosen guess rfl hGuess,
          hPersists.claims hClaimed⟩
  | hashing guess =>
      rw [hCall] at hStage hChosen
      rcases hStage with ⟨hQuiet, hGuess, hRight⟩
      exact
        ⟨hPersists.quiet hQuiet, hChosen guess rfl hGuess,
          hRight⟩
  | spending guess replacement =>
      rw [hCall] at hStage hChosen
      rcases hStage with ⟨hQuiet, hGuess, hRight⟩
      exact
        ⟨hPersists.quiet hQuiet, hChosen guess rfl hGuess,
          hRight⟩
  | spent guess replacement =>
      rw [hCall] at hStage hPicked
      rcases hStage with
        ⟨hRight, hNone, code, hKey, hSpending⟩
      refine
        ⟨hRight, ?_, code, hKey, hPersists.spending hSpending⟩
      intro hCapped
      exact hPicked hCapped guess rfl hRight _ (hNone hCapped)
  | cleaning cutoff =>
      rw [hCall] at hStage
      exact
        ⟨hPersists.quiet hStage.1,
          hPersists.cutoff hStage.2⟩
  | deleting cutoff remaining deleted =>
      rw [hCall] at hStage
      rcases hStage with ⟨hDeleting, hCutoff, hBefore⟩
      exact
        ⟨hPersists.store.changes.trans hDeleting,
          hPersists.cutoff hCutoff, fun codeID hCodeID =>
            (hBefore codeID hCodeID).mono hPersists.created⟩
  | _ =>
      rw [hCall] at hStage
      exact hPersists.quiet hStage

------------------------------------------------------------
-- Moves of a Call
------------------------------------------------------------

/- One call goes to a stage, at the same time. -/
structure Moves
    (s s' : ResetState)
    (c : Nat)
    (stage : Stage) : Prop where
  calls : s'.calls = Function.update s.calls c stage
  now : s'.now = s.now
  begun : s'.begun = s.begun

/- A call that steps has begun. -/
def IsUnderWay (s : ResetState) (c : Nat) : Prop :=
  c ∈ s.begun

variable {matchesHash : String → String → Bool}
variable {capped : Prop}
variable {s s' : ResetState}
variable {c : Nat}
variable {stage : Stage}
variable {ledger : CodeLedger Unit}

theorem ResetSound.move
    (hSound : ResetSound matchesHash capped s)
    (hMoves : Moves s s' c stage)
    (hUnderWay : IsUnderWay s c)
    (hLedger : LedgerSound s'.ledger)
    (hOthers :
      ∀ other, other ≠ c →
        Persists matchesHash capped s s' other)
    (hOwn : StageSound matchesHash capped s' c stage)
    (hCompared :
      ∀ event ∈ s'.ledger.compared,
        event ∈ s.ledger.compared ∧
            ((s.calls c).hasCompared = true →
              stage.hasCompared = true) ∨
          event.call = c ∧ stage.hasCompared = true)
    (hLifetimes :
      ∀ original ∈ s'.ledger.created,
        original.expiresAt =
          original.createdAt + resetCodeLifetime)
    (hKept :
      ∀ userID,
        StillCounted s'.ledger userID
          (s.now - resetCodeRetention))
    (hAdmitted :
      capped →
        ∀ userID,
          SlidingWindow.Admitted maxResetCodesPerHour
            Duration.hour (createdFor s'.ledger userID))
    (hResets :
      (s'.resets.map fun reset => reset.code.id) =
        s'.ledger.completed.map CodeEvent.codeID)
    (hNewest :
      capped →
        ∀ reset ∈ s'.resets,
          ∀ newer ∈ reset.storedThen,
            newer.userID = reset.code.userID →
              newer.createdAt ≤ reset.code.createdAt) :
    ResetSound matchesHash capped s' := by
  refine
    ⟨hLedger, ?_, ?_, ?_, hLifetimes, ?_, hAdmitted, hResets,
      hNewest⟩
  · intro other
    rw [hMoves.calls]
    by_cases hCall : other = c
    · rw [hCall, Function.update_self]
      exact hOwn
    · rw [Function.update_of_ne hCall]
      exact (hSound.stages other).persists (hOthers other hCall)
  · rw [hMoves.calls]
    exact compared_update hSound.compared hCompared
  · rw [hMoves.calls, hMoves.begun]
    exact begun_update hSound.begun hUnderWay
  · intro userID
    rw [hMoves.now]
    exact hKept userID

/- Nobody's stage rests on what such a statement changes. -/
theorem Persists.framed
    {other : Nat}
    (hFrames : Frames s.ledger c s'.ledger)
    (hOther : other ≠ c)
    (hNow : s'.now = s.now) :
    Persists matchesHash capped s s' other := by
  have hCreated := hFrames.created
  refine
    ⟨hFrames.others other hOther, hFrames.claims, ?_,
      hNow.ge, ?_, ?_, ?_⟩
  · rw [hCreated]
    exact List.Subset.refl _
  · intro allowance _ hCountable hCapped
    exact (hCountable hCapped).keepsRows hCreated hFrames.rows
  · intro _ allowance _
    unfold createdFor
    rw [hCreated]
  · intro _ guess _ _ since hNone newer hNewer
    rw [hCreated] at hNewer
    exact hNone newer hNewer

/- A statement that neither creates nor completes a code. -/
theorem ResetSound.setLedger
    (hSound : ResetSound matchesHash capped s)
    (hUnderWay : IsUnderWay s c)
    (hLedger : LedgerSound ledger)
    (hFrames : Frames s.ledger c ledger)
    (hPast :
      (s.calls c).hasCompared = true →
        stage.hasCompared = true)
    (hOwn :
      StageSound matchesHash capped
        ((s.withLedger ledger).setStage c stage) c stage) :
    ResetSound matchesHash capped
      ((s.withLedger ledger).setStage c stage) := by
  have hMoves :
      Moves s ((s.withLedger ledger).setStage c stage) c
        stage :=
    ⟨rfl, rfl, rfl⟩
  have hCreated := hFrames.created
  refine
    hSound.move hMoves hUnderWay hLedger
      (fun other hOther => .framed hFrames hOther rfl) hOwn ?_
      ?_ ?_ ?_ ?_ hSound.newest
  · intro event hEvent
    change event ∈ ledger.compared at hEvent
    rw [hFrames.compared] at hEvent
    exact Or.inl ⟨hEvent, hPast⟩
  · intro original hOriginal
    change original ∈ ledger.created at hOriginal
    rw [hCreated] at hOriginal
    exact hSound.lifetimes original hOriginal
  · intro userID
    exact (hSound.kept userID).keepsRows hCreated hFrames.rows
  · intro hCapped userID
    have hAdmitted := hSound.admitted hCapped userID
    unfold createdFor at hAdmitted ⊢
    change
      SlidingWindow.Admitted _ _
        (List.map _ (List.filter _ ledger.created))
    rw [hCreated]
    exact hAdmitted
  · change _ = List.map _ ledger.completed
    rw [hFrames.completed]
    exact hSound.resets

theorem ResetSound.setStage
    (hSound : ResetSound matchesHash capped s)
    (hUnderWay : IsUnderWay s c)
    (hPast :
      (s.calls c).hasCompared = true →
        stage.hasCompared = true)
    (hOwn :
      StageSound matchesHash capped (s.setStage c stage) c
        stage) :
    ResetSound matchesHash capped (s.setStage c stage) :=
  hSound.setLedger hUnderWay hSound.ledger
    (.refl s.ledger c) hPast hOwn

/- A request ends, and leaves nothing uncommitted. -/
theorem ResetSound.refuseWith
    (hSound : ResetSound matchesHash capped s)
    (hUnderWay : IsUnderWay s c)
    (hLedger : LedgerSound ledger)
    (hFrames : Frames s.ledger c ledger) :
    ResetSound matchesHash capped
      ((s.withLedger ledger).refuse c) :=
  hSound.setLedger hUnderWay (hLedger.rollback c)
    hFrames.rollback (fun _ => rfl) (Store.changesOf_ended rfl)

theorem ResetSound.refuse
    (hSound : ResetSound matchesHash capped s)
    (hUnderWay : IsUnderWay s c) :
    ResetSound matchesHash capped (s.refuse c) :=
  hSound.refuseWith hUnderWay hSound.ledger (.refl s.ledger c)

theorem ResetSound.stageAt
    (hSound : ResetSound matchesHash capped s)
    (hCall : s.calls c = stage) :
    StageSound matchesHash capped s c stage :=
  hCall ▸ hSound.stages c

theorem ResetSound.underWay
    (hSound : ResetSound matchesHash capped s)
    (hCall : s.calls c = stage)
    (hStage : stage ≠ .idle) :
    IsUnderWay s c := by
  apply hSound.begun
  rw [hCall]
  exact hStage

theorem past_of_eq
    (hCall : s.calls c = stage)
    (hStage : stage.hasCompared = false)
    (next : Stage) :
    (s.calls c).hasCompared = true →
      next.hasCompared = true := by
  rw [hCall, hStage]
  intro hNever
  cases hNever

/- Whatever stage a request is in, it ends in the same way. -/
theorem refuse_setStage
    (s : ResetState)
    (c : Nat)
    (stage : Stage) :
    (s.setStage c stage).refuse c = s.refuse c := by
  unfold ResetState.refuse ResetState.setStage
  simp only [Function.update_idem]

------------------------------------------------------------
-- Requesting a Code
------------------------------------------------------------

variable {isEmailAddress : String → Bool}
variable {allowance : Allowance}

/- A step of nobody leaves everything to every call. -/
theorem ResetSound.elsewhere
    (hSound : ResetSound matchesHash capped s)
    (hCalls : s'.calls = s.calls)
    (hLedger : s'.ledger = s.ledger)
    (hNow : s.now ≤ s'.now) :
    ∀ c, StageSound matchesHash capped s' c (s'.calls c) := by
  intro c
  rw [hCalls]
  apply (hSound.stages c).persists
  refine ⟨?_, ?_, ?_, hNow, ?_, ?_, ?_⟩
  · rw [hLedger]
    exact .refl _
  · rw [hLedger]
    exact List.Subset.refl _
  · rw [hLedger]
    exact List.Subset.refl _
  · intro allowance _ hCountable
    unfold Countable
    rw [hLedger]
    exact hCountable
  · rw [hLedger]
    exact fun _ _ _ => rfl
  · intro _ guess _ _ since hNone newer hNewer
    rw [hLedger] at hNewer
    exact hNone newer hNewer

/- No limit rests on what the limiter remembers. -/
theorem ResetSound.setAttempts
    (hSound : ResetSound matchesHash capped s)
    (attempts : String → List Time) :
    ResetSound matchesHash capped
      { s with attempts := attempts } :=
  { hSound with
    stages := hSound.elsewhere rfl rfl (le_refl _) }

theorem sound_requestReset
    (hSound : ResetSound matchesHash capped s)
    (hCall : s.calls c = stage)
    (hStep :
      requestReset isEmailAddress s c stage = some s') :
    ResetSound matchesHash capped s' := by
  cases stage with
  | limiting email =>
      have hQuiet : IsQuiet s c := hSound.stageAt hCall
      have hUnderWay : IsUnderWay s c :=
        hSound.underWay hCall (by simp)
      have hCounted := hSound.setAttempts
      simp only [requestReset] at hStep
      split at hStep
      · next counted hAllowed =>
          cases hStep
          cases congrArg Prod.fst hAllowed
          exact
            (hCounted _).setStage hUnderWay
              (past_of_eq hCall rfl _) hQuiet
      · next counted hRefused =>
          cases hStep
          cases congrArg Prod.fst hRefused
          exact (hCounted _).refuse hUnderWay
  | finding email =>
      have hQuiet : IsQuiet s c := hSound.stageAt hCall
      have hUnderWay : IsUnderWay s c :=
        hSound.underWay hCall (by simp)
      simp only [requestReset] at hStep
      split at hStep
      · cases hStep
        exact hSound.refuse hUnderWay
      · split at hStep
        · cases hStep
          exact
            hSound.setStage hUnderWay (past_of_eq hCall rfl _)
              hQuiet
        · cases hStep
          exact hSound.refuse hUnderWay
  | _ => cases hStep

/- The count has missed none, so that there is room. -/
theorem sound_count
    (hSound : ResetSound matchesHash capped s)
    (hCall : s.calls c = .counting allowance)
    (hStep :
      issueResetCode s c (.counting allowance) = some s') :
    ResetSound matchesHash capped s' := by
  rcases hSound.stageAt hCall with ⟨hQuiet, hRows⟩
  have hUnderWay : IsUnderWay s c :=
    hSound.underWay hCall (by simp)
  simp only [issueResetCode] at hStep
  split at hStep
  · cases hStep
    exact hSound.refuse hUnderWay
  · next hRoom =>
      cases hStep
      have hFits : Fits capped s allowance := by
        intro hCapped
        exact
          lt_of_le_of_lt
            ((hRows hCapped).count_le hSound.ledger hQuiet)
            (not_le.mp hRoom)
      exact
        hSound.setStage hUnderWay (past_of_eq hCall rfl _)
          ⟨hQuiet, hFits⟩

/- What the guard says of a call while a code is stored. -/
theorem undisturbed_of_inserting
    (hSound : ResetSound matchesHash capped s)
    {new : ResetCode}
    (hCall : s.calls c = .inserting new)
    (hUndisturbed :
      isUndisturbed matchesHash s (.advance c) = true)
    {other : Nat}
    (hOther : other ≠ c)
    (hActive : s.calls other ≠ .idle) :
    (∀ allowance ∈ (s.calls other).counted,
        allowance.userID ≠ new.userID) ∧
      ∀ guess ∈ (s.calls other).picked,
        guess.isOvertakenBy matchesHash new = false := by
  simp only [isUndisturbed, hCall, List.all_eq_true]
    at hUndisturbed
  have hAll := hUndisturbed other (hSound.begun other hActive)
  simp only [hOther, decide_false, Bool.false_or,
    Bool.and_eq_true] at hAll
  constructor
  · intro allowance hCounted
    have hOwn := hAll.1
    rw [Option.mem_def.mp hCounted, Option.all_some] at hOwn
    exact of_decide_eq_true hOwn
  · intro guess hPicked
    have hOwn := hAll.2
    rw [Option.mem_def.mp hPicked, Option.all_some] at hOwn
    simpa using hOwn

theorem active_of_counted
    (hCounted : allowance ∈ (s.calls c).counted) :
    s.calls c ≠ .idle := by
  intro hIdle
  rw [hIdle] at hCounted
  cases hCounted

theorem active_of_picked
    {guess : Guess}
    (hPicked : guess ∈ (s.calls c).picked) :
    s.calls c ≠ .idle := by
  intro hIdle
  rw [hIdle] at hPicked
  cases hPicked

theorem sound_insert
    (hSound : ResetSound matchesHash capped s)
    (hCall : s.calls c = .inserting code)
    (hUndisturbed :
      capped →
        isUndisturbed matchesHash s (.advance c) = true)
    (hStep :
      issueResetCode s c (.inserting code) = some s') :
    ResetSound matchesHash capped s' := by
  rcases hSound.stageAt hCall with ⟨hQuiet, hNew, hFits⟩
  simp only [issueResetCode] at hStep
  split at hStep
  · cases hStep
  · next ledger hInsert =>
      cases hStep
      rcases
        hSound.ledger.insertCode hQuiet hNew.unused
          hNew.attempts hInsert with
        ⟨hLedger, hChanges⟩
      have hFrames := frames_insertCode hInsert
      have hCreated :
          (ledger.commitInsert c code).created =
            code :: s.ledger.created := by
        rw [← hFrames.created]
        rfl
      have hCreatedFor :
          ∀ userID,
            createdFor (ledger.commitInsert c code) userID =
              if code.userID = userID then
                code.createdAt :: createdFor s.ledger userID
              else
                createdFor s.ledger userID := by
        intro userID
        rw [createdFor_commitInsert]
        unfold createdFor
        rw [hFrames.created]
      have hMoves :
          Moves s
            ((s.withLedger
              (ledger.commitInsert c code)).setStage c .over)
            c .over :=
        ⟨rfl, rfl, rfl⟩
      refine
        hSound.move hMoves
          (hSound.underWay hCall (by simp))
          (hLedger.commitInsert hChanges) ?_
          (Store.changesOf_ended rfl) ?_ ?_ ?_ ?_ ?_
          hSound.newest
      · intro other hOther
        refine
          ⟨(hFrames.others other hOther).trans
              (others_commit hLedger other hOther),
            hFrames.claims, ?_, le_refl _, ?_, ?_, ?_⟩
        · change
            s.ledger.created ⊆
              (ledger.commitInsert c code).created
          rw [hCreated]
          exact List.subset_cons_self _ _
        · intro allowance _ hCountable hCapped
          have hKept :=
            (hCountable hCapped).keepsRows hFrames.created
              hFrames.rows
          exact hKept.commitInsert hChanges
        · intro hCapped allowance hCounted
          have hGuard :=
            undisturbed_of_inserting hSound hCall
              (hUndisturbed hCapped) hOther
              (active_of_counted hCounted)
          change
            createdFor (ledger.commitInsert c code) _ = _
          rw [hCreatedFor, if_neg]
          exact (hGuard.1 allowance hCounted).symm
        · intro hCapped guess hPicked hRight since hNone newer
            hNewer hUser
          change
            newer ∈ (ledger.commitInsert c code).created
              at hNewer
          rw [hCreated] at hNewer
          rcases List.mem_cons.mp hNewer with rfl | hOld
          · have hGuard :=
              (undisturbed_of_inserting hSound hCall
                (hUndisturbed hCapped) hOther
                (active_of_picked hPicked)).2 guess hPicked
            apply le_max_of_le_left
            simpa [Guess.isOvertakenBy, hRight, hUser]
              using hGuard
          · exact hNone newer hOld hUser
      · intro event hEvent
        change event ∈ ledger.compared at hEvent
        rw [hFrames.compared] at hEvent
        exact Or.inl ⟨hEvent, fun _ => rfl⟩
      · intro original hOriginal
        change
          original ∈ (ledger.commitInsert c code).created
            at hOriginal
        rw [hCreated] at hOriginal
        rcases List.mem_cons.mp hOriginal with rfl | hOld
        · exact hNew.lifetime
        · exact hSound.lifetimes original hOld
      · intro userID
        have hKept :=
          (hSound.kept userID).keepsRows hFrames.created
            hFrames.rows
        exact hKept.commitInsert hChanges
      · intro hCapped userID
        change
          SlidingWindow.Admitted _ _
            (createdFor (ledger.commitInsert c code) userID)
        rw [hCreatedFor]
        split
        · next hUser =>
            subst hUser
            exact ⟨hFits hCapped, hSound.admitted hCapped _⟩
        · exact hSound.admitted hCapped userID
      · change _ = List.map _ ledger.completed
        rw [hFrames.completed]
        exact hSound.resets

theorem sound_issueResetCode
    (hSound : ResetSound matchesHash capped s)
    (hCall : s.calls c = stage)
    (hUndisturbed :
      capped →
        isUndisturbed matchesHash s (.advance c) = true)
    (hStep : issueResetCode s c stage = some s') :
    ResetSound matchesHash capped s' := by
  cases stage with
  | issuing userID =>
      have hQuiet : IsQuiet s c := hSound.stageAt hCall
      cases hStep
      exact
        hSound.setStage (hSound.underWay hCall (by simp))
          (past_of_eq hCall rfl _)
          ⟨hQuiet, fun _ => hSound.kept userID⟩
  | counting allowance => exact sound_count hSound hCall hStep
  | inserting code =>
      exact sound_insert hSound hCall hUndisturbed hStep
  | _ => cases hStep

theorem sound_generateCode
    (hSound : ResetSound matchesHash capped s)
    (hCall : s.calls c = .generating allowance)
    (newID : Uuid)
    (hashedCode : String) :
    ResetSound matchesHash capped
      (generateCode s c allowance newID hashedCode) := by
  rcases hSound.stageAt hCall with ⟨hQuiet, hFits⟩
  exact
    hSound.setStage (hSound.underWay hCall (by simp))
      (past_of_eq hCall rfl _)
      ⟨hQuiet, ⟨rfl, rfl, rfl⟩, hFits⟩

------------------------------------------------------------
-- Completing a Reset
------------------------------------------------------------

variable {userID : Uuid}
variable {guess : Guess}
variable {replacement : Replacement}

/- Codes that are newer than the picked one were deleted. -/
theorem chosen_of_getNewest
    (hSound : ResetSound matchesHash capped s)
    (hQuiet : IsQuiet s c)
    (hNewest : getNewest s c userID = some code)
    (given : String) :
    Chosen matchesHash capped s
      { code := code, given := given, userID := userID } := by
  unfold getNewest at hNewest
  rw [visible_eq hQuiet] at hNewest
  rcases Table.mem_of_firstBy hNewest with ⟨hRow, hUser⟩
  refine ⟨hSound.ledger.stored code hRow, ?_⟩
  intro _ _ newer hNewer hSameUser
  change newer.userID = code.userID at hSameUser
  by_cases hRecent :
      s.now - resetCodeRetention < newer.createdAt
  · have hSince :
        newer.isCreatedSince code.userID
            (s.now - resetCodeRetention) =
          true := by
      simp [EmailedCode.isCreatedSince, hSameUser, hRecent]
    rcases hSound.kept code.userID newer hNewer hSince with
      ⟨row, hStored, hSame⟩
    have hSelected : row.userID = userID := by
      rw [hSame.userID, hSameUser]
      exact of_decide_eq_true hUser
    have hOrder :=
      createdAt_le_of_firstBy hNewest hStored
        (decide_eq_true hSelected)
    rw [hSame.createdAt] at hOrder
    exact le_max_of_le_left hOrder
  · exact le_max_of_le_right (not_lt.mp hRecent)

theorem sound_pick
    (hSound : ResetSound matchesHash capped s)
    {given : String}
    (hCall : s.calls c = .picking userID given)
    (hStep :
      completeReset matchesHash s c (.picking userID given) =
        some s') :
    ResetSound matchesHash capped s' := by
  have hQuiet : IsQuiet s c := hSound.stageAt hCall
  have hUnderWay : IsUnderWay s c :=
    hSound.underWay hCall (by simp)
  simp only [completeReset] at hStep
  split at hStep
  · cases hStep
    exact hSound.refuse hUnderWay
  · next code hNewest =>
      cases hStep
      exact
        hSound.setStage hUnderWay (past_of_eq hCall rfl _)
          ⟨hQuiet,
            chosen_of_getNewest hSound hQuiet hNewest given⟩

theorem Chosen.setLedger
    (hChosen : Chosen matchesHash capped s guess)
    (hCreated : ledger.created = s.ledger.created) :
    Chosen matchesHash capped
      ((s.withLedger ledger).setStage c stage) guess := by
  rcases hChosen with ⟨hStored, hNone⟩
  unfold Chosen NoneNewer
  change
    (∃ original ∈ ledger.created, _) ∧
      (_ → _ → ∀ newer ∈ ledger.created, _)
  rw [hCreated]
  exact ⟨hStored, hNone⟩

theorem sound_claim
    (hSound : ResetSound matchesHash capped s)
    (hCall : s.calls c = .claiming guess)
    (hStep :
      completeReset matchesHash s c (.claiming guess) =
        some s') :
    ResetSound matchesHash capped s' := by
  rcases hSound.stageAt hCall with ⟨hQuiet, hChosen⟩
  have hUnderWay : IsUnderWay s c :=
    hSound.underWay hCall (by simp)
  simp only [completeReset] at hStep
  split at hStep
  · cases hStep
  · next ledger hClaim =>
      cases hStep
      exact
        hSound.refuseWith hUnderWay
          (hSound.ledger.claimAttempt hQuiet hClaim)
          (frames_claimAttempt hSound.ledger hQuiet hClaim).1
  · next ledger attemptCount hClaim =>
      cases hStep
      rcases frames_claimAttempt hSound.ledger hQuiet hClaim
        with ⟨hFrames, hNone, hClaimed⟩
      exact
        hSound.setLedger hUnderWay
          (hSound.ledger.claimAttempt hQuiet hClaim) hFrames
          (past_of_eq hCall rfl _)
          ⟨hNone, hChosen.setLedger hFrames.created,
            hClaimed rfl⟩

/- The first comparison of the call, with its own attempt. -/
theorem sound_compare
    (hSound : ResetSound matchesHash capped s)
    (hCall : s.calls c = .comparing guess)
    (hHas : stage.hasCompared = true)
    (hOwn :
      StageSound matchesHash capped
        ((s.withLedger
          (s.ledger.compare c guess.code.id)).setStage c
            stage) c
        stage) :
    ResetSound matchesHash capped
      ((s.withLedger
        (s.ledger.compare c guess.code.id)).setStage c
          stage) := by
  rcases hSound.stageAt hCall with ⟨hQuiet, _, hClaimed⟩
  have hFirst :
      { codeID := guess.code.id, call := c } ∉
        s.ledger.compared := by
    intro hBefore
    have hHad := hSound.compared _ hBefore
    rw [hCall] at hHad
    cases hHad
  have hMoves :
      Moves s
        ((s.withLedger
          (s.ledger.compare c guess.code.id)).setStage c
            stage) c
        stage :=
    ⟨rfl, rfl, rfl⟩
  refine
    hSound.move hMoves (hSound.underWay hCall (by simp))
      (hSound.ledger.compare hClaimed hFirst) ?_ hOwn ?_
      hSound.lifetimes hSound.kept hSound.admitted
      hSound.resets hSound.newest
  · intro other _
    exact
      ⟨.refl _, List.Subset.refl _, List.Subset.refl _,
        le_refl _, fun _ _ hCountable => hCountable,
        fun _ _ _ => rfl, fun _ _ _ _ _ hNone => hNone⟩
  · intro event hEvent
    rcases List.mem_cons.mp hEvent with rfl | hOld
    · exact Or.inr ⟨rfl, hHas⟩
    · exact Or.inl ⟨hOld, fun _ => hHas⟩

/- A code that is spent has no newer one beside it. -/
theorem noneNewer_of_open
    (hSound : ResetSound matchesHash capped s)
    (hChosen : Chosen matchesHash capped s guess)
    (hCode : code ∈ s.ledger.codes.rows)
    (hKey : code.id = guess.code.id)
    (hOpen : code.isOpen s.now = true)
    (hCapped : capped)
    (hRight : guess.isRight matchesHash = true) :
    NoneNewer s guess.code guess.code.createdAt := by
  rcases hChosen with ⟨⟨original, hOriginal, hSame⟩, hNone⟩
  rcases hSound.ledger.stored code hCode with
    ⟨stored, hStored, hSameRow⟩
  have hEq : stored = original := by
    refine
      hSound.ledger.createdOnce.eq_of_key_eq hStored hOriginal
        ?_
    rw [← hSameRow.id, hKey, hSame.id]
  have hLifetime := hSound.lifetimes original hOriginal
  have hExpires : code.expiresAt = original.expiresAt := by
    rw [hSameRow.expiresAt, hEq]
  simp only [EmailedCode.isOpen, Bool.and_eq_true,
    decide_eq_true_eq] at hOpen
  have hUnexpired :
      s.now - resetCodeRetention ≤ guess.code.createdAt := by
    have hBefore := hOpen.2
    rw [hExpires, hLifetime, ← hSame.createdAt] at hBefore
    exact (sub_lt_iff_lt_add.mpr hBefore).le
  exact (hNone hCapped hRight).mono hUnexpired

theorem sound_spend
    (hSound : ResetSound matchesHash capped s)
    (hCall : s.calls c = .spending guess replacement)
    (hStep :
      completeReset matchesHash s c
          (.spending guess replacement) =
        some s') :
    ResetSound matchesHash capped s' := by
  rcases hSound.stageAt hCall with ⟨hQuiet, hChosen, hRight⟩
  have hUnderWay : IsUnderWay s c :=
    hSound.underWay hCall (by simp)
  simp only [completeReset] at hStep
  split at hStep
  · cases hStep
  · next ledger hSpend =>
      cases hStep
      exact
        hSound.refuseWith hUnderWay
          (hSound.ledger.spend hQuiet hSpend).1
          (frames_spend hSpend)
  · next ledger hSpend =>
      cases hStep
      have hFrames := frames_spend hSpend
      rcases hSound.ledger.spend hQuiet hSpend with
        ⟨hLedger, hSpent⟩
      rcases hSpent rfl with
        ⟨code, hKey, hOpen, hCode, hSpending⟩
      refine
        hSound.setLedger hUnderWay hLedger hFrames
          (fun _ => rfl) ⟨hRight, ?_, code, hKey, hSpending⟩
      intro hCapped newer hNewer
      change newer ∈ ledger.created at hNewer
      rw [hFrames.created] at hNewer
      exact
        noneNewer_of_open hSound hChosen hCode hKey hOpen
          hCapped hRight newer hNewer

theorem sound_complete
    (hSound : ResetSound matchesHash capped s)
    (hCall : s.calls c = .spent guess replacement)
    (hStep :
      completeReset matchesHash s c
          (.spent guess replacement) =
        some s') :
    ResetSound matchesHash capped s' := by
  rcases hSound.stageAt hCall with
    ⟨_, hNone, code, hKey, hSpending⟩
  simp only [completeReset] at hStep
  cases hStep
  have hRows := keepsRows_complete hSound.ledger hSpending
  have hLedger := hSound.ledger.complete hSpending
  rw [hKey] at hRows hLedger
  have hMoves :
      Moves s
        (ResetState.setStage
          { s with
            users :=
              replacePassword guess.userID
                replacement.hashedPassword
                replacement.version s.users
            ledger := s.ledger.complete c guess.code.id
            resets :=
              { code := guess.code
                storedThen := s.ledger.created } ::
                s.resets } c
          .over) c
        .over :=
    ⟨rfl, rfl, rfl⟩
  refine
    hSound.move hMoves (hSound.underWay hCall (by simp))
      hLedger ?_ (Store.changesOf_ended rfl) ?_
      hSound.lifetimes ?_ hSound.admitted ?_ ?_
  · intro other hOther
    refine
      ⟨others_commit hSound.ledger other hOther,
        List.Subset.refl _, List.Subset.refl _, le_refl _, ?_,
        fun _ _ _ => rfl, fun _ _ _ _ _ hNone => hNone⟩
    intro allowance _ hCountable hCapped
    exact (hCountable hCapped).keepsRows rfl hRows
  · intro event hEvent
    exact Or.inl ⟨hEvent, fun _ => rfl⟩
  · intro userID
    exact (hSound.kept userID).keepsRows rfl hRows
  · change _ :: List.map _ s.resets = _ :: _
    rw [hSound.resets]
  · intro hCapped reset hReset
    rcases List.mem_cons.mp hReset with rfl | hOld
    · intro newer hNewer hUser
      have hOrder := hNone hCapped newer hNewer hUser
      rwa [max_self] at hOrder
    · exact hSound.newest hCapped reset hOld

theorem sound_completeReset
    (hSound : ResetSound matchesHash capped s)
    (hCall : s.calls c = stage)
    (hStep : completeReset matchesHash s c stage = some s') :
    ResetSound matchesHash capped s' := by
  cases stage with
  | completing email given newPassword =>
      have hQuiet : IsQuiet s c := hSound.stageAt hCall
      have hUnderWay : IsUnderWay s c :=
        hSound.underWay hCall (by simp)
      have hRefused := hSound.refuse hUnderWay
      simp only [completeReset] at hStep
      split at hStep
      · split at hStep
        · cases hStep
          exact hRefused
        · split at hStep
          · cases hStep
            exact
              hSound.setStage hUnderWay
                (past_of_eq hCall rfl _) hQuiet
          · cases hStep
            exact hRefused
      · cases hStep
        exact hRefused
  | picking userID given => exact sound_pick hSound hCall hStep
  | claiming guess => exact sound_claim hSound hCall hStep
  | comparing guess =>
      rcases hSound.stageAt hCall with ⟨hQuiet, hChosen, _⟩
      simp only [completeReset] at hStep
      split at hStep
      · next hRight =>
          cases hStep
          exact
            sound_compare hSound hCall rfl
              ⟨hQuiet, hChosen, hRight⟩
      · cases hStep
        have hOver :
            ResetSound matchesHash capped
              ((s.withLedger
                (s.ledger.compare c guess.code.id)).setStage
                  c .over) :=
          sound_compare hSound hCall rfl hQuiet
        rw [← refuse_setStage]
        exact
          hOver.refuse
            (hOver.underWay (Function.update_self _ _ _)
              (by simp))
  | spending guess replacement =>
      exact sound_spend hSound hCall hStep
  | spent guess replacement =>
      exact sound_complete hSound hCall hStep
  | _ => cases hStep

------------------------------------------------------------
-- Deleting Reset Codes
------------------------------------------------------------

variable {cutoff : Time}
variable {deleted : List Uuid}

theorem sound_deleteNext
    (hSound : ResetSound matchesHash capped s)
    {codeID : Uuid}
    {rest deleted : List Uuid}
    (hCall :
      s.calls c = .deleting cutoff (codeID :: rest) deleted)
    (hStep :
      deleteResetCodes s c
          (.deleting cutoff (codeID :: rest) deleted) =
        some s') :
    ResetSound matchesHash capped s' := by
  rcases hSound.stageAt hCall with
    ⟨hDeleting, hCutoff, hBefore⟩
  simp only [deleteResetCodes] at hStep
  split at hStep
  · cases hStep
  · next ledger hDelete =>
      cases hStep
      rcases hSound.ledger.deleteNext hDeleting hDelete with
        ⟨hLedger, hNext⟩
      have hFrames := frames_deleteNext hDelete
      refine
        hSound.setLedger (hSound.underWay hCall (by simp))
          hLedger hFrames (past_of_eq hCall rfl _)
          ⟨hNext, hCutoff, ?_⟩
      intro other hOther
      rw [List.append_assoc] at hOther
      apply (hBefore other hOther).mono
      exact hFrames.created.symm ▸ List.Subset.refl _

theorem spared_of_isUndisturbed
    (hSound : ResetSound matchesHash capped s)
    (hCall : s.calls c = .deleting cutoff [] deleted)
    (hUndisturbed :
      isUndisturbed matchesHash s (.advance c) = true)
    {other : Nat}
    {allowance : Allowance}
    (hOther : allowance ∈ (s.calls other).uncounted)
    {row : ResetCode}
    (hRow : row ∈ s.ledger.codes.rows)
    (hSince :
      row.isCreatedSince allowance.userID allowance.since =
        true) :
    row.id ∉ deleted := by
  simp only [isUndisturbed, hCall, List.all_eq_true]
    at hUndisturbed
  have hBegun : other ∈ s.begun := by
    apply hSound.begun
    intro hIdle
    rw [hIdle] at hOther
    cases hOther
  have hAll := hUndisturbed other hBegun
  rw [Option.mem_def] at hOther
  rw [hOther, Option.all_some, List.all_eq_true] at hAll
  simpa [hSince] using hAll row hRow

theorem sound_commitDelete
    (hSound : ResetSound matchesHash capped s)
    (hCall : s.calls c = .deleting cutoff [] deleted)
    (hUndisturbed :
      capped →
        isUndisturbed matchesHash s (.advance c) = true)
    (hStep :
      deleteResetCodes s c (.deleting cutoff [] deleted) =
        some s') :
    ResetSound matchesHash capped s' := by
  rcases hSound.stageAt hCall with
    ⟨hDeleting, hCutoff, hBefore⟩
  rw [List.append_nil] at hBefore
  cases hStep
  have hMoves :
      Moves s
        ((s.withLedger (s.ledger.commitDelete c)).setStage c
          .over) c
        .over :=
    ⟨rfl, rfl, rfl⟩
  refine
    hSound.move hMoves (hSound.underWay hCall (by simp))
      (hSound.ledger.commitDelete hDeleting) ?_
      (Store.changesOf_ended rfl) ?_ hSound.lifetimes ?_
      hSound.admitted hSound.resets hSound.newest
  · intro other hOther
    refine
      ⟨others_commit hSound.ledger other hOther,
        List.Subset.refl _, List.Subset.refl _, le_refl _, ?_,
        fun _ _ _ => rfl, fun _ _ _ _ _ hNone => hNone⟩
    intro allowance hAllowance hCountable hCapped
    apply (hCountable hCapped).commitDelete hDeleting
    intro row hRow hSince
    exact
      spared_of_isUndisturbed hSound hCall
        (hUndisturbed hCapped) hAllowance hRow hSince
  · intro event hEvent
    exact Or.inl ⟨hEvent, fun _ => rfl⟩
  · intro userID
    apply (hSound.kept userID).commitDelete hDeleting
    intro row hRow hSince
    exact
      not_deleted_of_since hSound.ledger hCutoff hBefore hRow
        hSince

theorem sound_deleteResetCodes
    (hSound : ResetSound matchesHash capped s)
    (hCall : s.calls c = stage)
    (hUndisturbed :
      capped →
        isUndisturbed matchesHash s (.advance c) = true)
    (hStep : deleteResetCodes s c stage = some s') :
    ResetSound matchesHash capped s' := by
  cases stage with
  | cleaning cutoff =>
      rcases hSound.stageAt hCall with ⟨hQuiet, hCutoff⟩
      cases hStep
      refine
        hSound.setStage (hSound.underWay hCall (by simp))
          (past_of_eq hCall rfl _) ⟨hQuiet, hCutoff, ?_⟩
      intro codeID hCodeID
      exact wasCreatedBefore_of_mem hSound.ledger hQuiet hCodeID
  | deleting cutoff remaining deleted =>
      cases remaining with
      | nil =>
          exact
            sound_commitDelete hSound hCall hUndisturbed hStep
      | cons codeID rest =>
          exact sound_deleteNext hSound hCall hStep
  | _ => cases hStep

------------------------------------------------------------
-- Steps of the System
------------------------------------------------------------

theorem sound_advance
    (hSound : ResetSound matchesHash capped s)
    (hUndisturbed :
      capped →
        isUndisturbed matchesHash s (.advance c) = true)
    (hStep :
      advance matchesHash isEmailAddress s c = some s') :
    ResetSound matchesHash capped s' := by
  unfold advance at hStep
  split at hStep
  · next hRequest =>
      cases hStep
      exact sound_requestReset hSound rfl hRequest
  · split at hStep
    · next hIssue =>
        cases hStep
        exact
          sound_issueResetCode hSound rfl hUndisturbed hIssue
    · split at hStep
      · next hComplete =>
          cases hStep
          exact sound_completeReset hSound rfl hComplete
      · exact
          sound_deleteResetCodes hSound rfl hUndisturbed hStep

theorem sound_beginRequest
    (hSound : ResetSound matchesHash capped s)
    (hIdle : s.calls c = .idle)
    {request : Request}
    (hTimely : request.isTimely s.now = true) :
    ResetSound matchesHash capped
      (beginRequest s c request) := by
  have hQuiet : IsQuiet s c := hSound.stageAt hIdle
  let opened : ResetState := { s with begun := c :: s.begun }
  have hOpened : ResetSound matchesHash capped opened := by
    refine
      { hSound with
        stages := hSound.elsewhere rfl rfl (le_refl _)
        begun := ?_ }
    intro other hOther
    exact List.mem_cons_of_mem _ (hSound.begun other hOther)
  have hUnderWay : IsUnderWay opened c := List.mem_cons_self
  have hPast :
      ∀ stage : Stage,
        (opened.calls c).hasCompared = true →
          stage.hasCompared = true :=
    past_of_eq hIdle rfl
  cases request with
  | requestReset email =>
      exact hOpened.setStage hUnderWay (hPast _) hQuiet
  | completeReset email code newPassword =>
      exact hOpened.setStage hUnderWay (hPast _) hQuiet
  | cleanUp jobNow =>
      have hNow : jobNow ≤ s.now := of_decide_eq_true hTimely
      exact
        hOpened.setStage hUnderWay (hPast _)
          ⟨hQuiet, sub_le_sub_right hNow _⟩

/- A restart ends the requests that have begun, one by one. -/
theorem sound_restart
    (hSound : ResetSound matchesHash capped s) :
    ResetSound matchesHash capped (restart s) := by
  have hEnds :
      ∀ (calls : List Nat) (s : ResetState),
        ResetSound matchesHash capped s →
          (∀ c ∈ calls, IsUnderWay s c) →
            ResetSound matchesHash capped
              (calls.foldl ResetState.refuse s) := by
    intro calls
    induction calls with
    | nil => exact fun _ hHolds _ => hHolds
    | cons c rest ih =>
        intro s hHolds hUnderWay
        apply ih
        · exact hHolds.refuse (hUnderWay c List.mem_cons_self)
        · intro other hOther
          exact hUnderWay other (List.mem_cons_of_mem _ hOther)
  exact
    (hEnds s.begun s hSound fun _ hBegun =>
      hBegun).setAttempts _

/- Each step keeps the invariant, if it is undisturbed. -/
theorem resetSound_step
    {action : ResetAction}
    (hSound : ResetSound matchesHash capped s)
    (hUndisturbed :
      capped → isUndisturbed matchesHash s action = true)
    (hStep :
      step matchesHash isEmailAddress s action = some s') :
    ResetSound matchesHash capped s' := by
  cases action with
  | tick elapsed =>
      cases hStep
      have hNow : s.now ≤ s.now + elapsed :=
        le_add_of_nonneg_right (Int.natCast_nonneg elapsed)
      refine
        { hSound with
          stages := hSound.elsewhere rfl rfl hNow
          kept := ?_ }
      intro userID
      exact (hSound.kept userID).mono (sub_le_sub_right hNow _)
  | setActive userID isActive =>
      cases hStep
      exact
        { hSound with
          stages := hSound.elsewhere rfl rfl (le_refl _) }
  | begin c request =>
      simp only [step] at hStep
      split at hStep
      · next hBegins =>
          cases hStep
          rw [Bool.and_eq_true, decide_eq_true_eq] at hBegins
          exact sound_beginRequest hSound hBegins.1 hBegins.2
      · cases hStep
  | generate c newID hashedCode =>
      simp only [step] at hStep
      split at hStep
      · next hCall =>
          cases hStep
          exact sound_generateCode hSound hCall newID hashedCode
      · cases hStep
  | hash c replacement =>
      simp only [step] at hStep
      split at hStep
      · next hCall =>
          cases hStep
          exact
            hSound.setStage (hSound.underWay hCall (by simp))
              (fun _ => rfl) (hSound.stageAt hCall)
      · cases hStep
  | advance c => exact sound_advance hSound hUndisturbed hStep
  | fail c =>
      simp only [step] at hStep
      split at hStep
      · cases hStep
      · next hOpen =>
          cases hStep
          apply hSound.refuse
          apply hSound.begun
          intro hIdle
          simp [hIdle] at hOpen
  | restart =>
      cases hStep
      exact sound_restart hSound

theorem resetSound_start
    (hStart : StartsEmpty s) :
    ResetSound matchesHash capped s := by
  have hLedger := hStart.ledger
  refine ⟨?_, ?_, ?_, ?_, ?_, ?_, ?_, ?_, ?_⟩
  · rw [hLedger]
    exact .empty
  · intro c
    rw [hStart.calls]
    change s.ledger.codes.changesOf c = []
    rw [hLedger]
    rfl
  · rw [hLedger]
    exact fun _ hEvent => absurd hEvent List.not_mem_nil
  · intro c hBegun
    exact absurd (hStart.calls c) hBegun
  · rw [hLedger]
    exact fun _ hCode => absurd hCode List.not_mem_nil
  · rw [hLedger]
    intro userID original hOriginal
    exact absurd hOriginal List.not_mem_nil
  · intro _ userID
    rw [hLedger]
    trivial
  · rw [hLedger, hStart.resets]
    rfl
  · rw [hStart.resets]
    exact fun _ _ hReset => absurd hReset List.not_mem_nil

/-
  Each reset code is compared at most five times and completes
  at most one reset.  In a run whose steps are undisturbed no
  hour holds more than three codes of a user, and no reset is
  completed with a code that has a newer one beside it.
-/
theorem reset_limits_hold
    (matchesHash : String → String → Bool)
    (isEmailAddress : String → Bool)
    (start : ResetState)
    (hStart : StartsEmpty start)
    (actions : List ResetAction)
    (s : ResetState)
    (hRun :
      (resetSystem matchesHash isEmailAddress).perform start
          actions =
        some s) :
    (∀ codeID,
        countEvents codeID s.ledger.compared ≤ 5 ∧
          (s.resets.countP fun reset =>
              reset.code.id = codeID) ≤
            1) ∧
      ((resetSystem matchesHash isEmailAddress).MeetsAlong
          (fun s action =>
            isUndisturbed matchesHash s action = true)
          start actions →
        (∀ userID since,
            SlidingWindow.countWithin since Duration.hour
              (createdFor s.ledger userID) ≤ 3) ∧
          ∀ reset ∈ s.resets,
            ∀ newer ∈ reset.storedThen,
              newer.userID = reset.code.userID →
                newer.createdAt ≤ reset.code.createdAt) := by
  have hSound : ResetSound matchesHash False s := by
    refine
      TransitionSystem.perform_invariant
        (T := resetSystem matchesHash isEmailAddress)
        (fun _ _ _ hHolds hTaken => ?_) actions
        (resetSound_start hStart) hRun
    exact resetSound_step hHolds False.elim hTaken
  constructor
  · intro codeID
    refine ⟨hSound.ledger.compared_le codeID, ?_⟩
    have hOnce := hSound.ledger.completed_le codeID
    have hCount :
        (s.resets.map fun reset => reset.code.id).countP
            (fun resetID => resetID = codeID) ≤
          1 := by
      rw [hSound.resets, List.countP_map]
      exact hOnce
    rw [List.countP_map] at hCount
    exact hCount
  · intro hUndisturbed
    have hReachable :=
      TransitionSystem.reachableWhile_of_perform actions
        (.initial hStart) hUndisturbed hRun
    have hCapped : ResetSound matchesHash True s :=
      hReachable.invariant (fun _ => resetSound_start)
        fun _ _ _ hHolds hGuard hTaken =>
          resetSound_step hHolds (fun _ => hGuard) hTaken
    exact
      ⟨fun userID since =>
          (hCapped.admitted trivial userID).window_le since,
        hCapped.newest trivial⟩

/- What a code and its hash have to do here. -/
def sampleHash (hashed plain : String) : Bool :=
  hashed = "hashed " ++ plain

def sampleIsEmailAddress (value : String) : Bool :=
  value.toList.contains '@'

def sampleStart : ResetState :=
  { now := 0
    users :=
      [{ id := 1
         email := "user@example.com"
         hashedPassword := some "hashed password"
         passwordVersion := 1
         isInvited := false
         isActive := true }]
    isMailerConfigured := true
    ledger := { codes := { rows := [] }, usedIDs := [] } }

theorem sampleStart_startsEmpty :
    StartsEmpty sampleStart :=
  ⟨rfl, fun _ => rfl, rfl⟩

/- A request that the limiter lets in, up to its count. -/
def requestAndCount (c : Nat) : List ResetAction :=
  .begin c (.requestReset "user@example.com") ::
    List.replicate 4 (.advance c)

def storeCode (c : Nat) : List ResetAction :=
  [.generate c (100 + c) "hashed 123456", .advance c]

/- A completion that has picked the newest code. -/
def pickCode (c : Nat) : List ResetAction :=
  [.begin c
      (.completeReset "user@example.com" "123456"
        "new password"),
    .advance c, .advance c]

def completeWithCode (c : Nat) : List ResetAction :=
  [.advance c, .advance c,
    .hash c { hashedPassword := "new hash", version := 2 },
    .advance c, .advance c]

/- The second of two completions finds the code spent. -/
def sampleReset : List ResetAction :=
  requestAndCount 0 ++ storeCode 0 ++ [.tick 60000000000] ++
    pickCode 1 ++ pickCode 2 ++ completeWithCode 1 ++
      [.advance 2, .restart]

theorem sample_reset_within_limits :
    ∃ s,
      (resetSystem sampleHash sampleIsEmailAddress).perform
          sampleStart sampleReset =
          some s ∧
        s.resets.length = 1 ∧
          (∀ codeID,
            countEvents codeID s.ledger.compared ≤ 5) ∧
            SlidingWindow.countWithin (-1) Duration.hour
                (createdFor s.ledger 1) ≤
              3 := by
  have hSome :
      (((resetSystem sampleHash
        sampleIsEmailAddress).perform sampleStart
          sampleReset).any fun s => s.resets.length = 1) =
        true := by
    decide +kernel
  have hUndisturbed :
      (resetSystem sampleHash sampleIsEmailAddress).MeetsAlong
        (fun s action =>
          isUndisturbed sampleHash s action = true)
        sampleStart sampleReset := by
    decide +kernel
  rcases (Option.any_eq_true _ _).mp hSome with
    ⟨s, hRun, hResets⟩
  rcases
    reset_limits_hold sampleHash sampleIsEmailAddress
      sampleStart sampleStart_startsEmpty sampleReset s
      hRun with
    ⟨hOnce, hCap⟩
  exact
    ⟨s, hRun, of_decide_eq_true hResets,
      fun codeID => (hOnce codeID).1,
      (hCap hUndisturbed).1 1 (-1)⟩

/- After a restart, three requests count before any stores. -/
def concurrentRequests : List ResetAction :=
  requestAndCount 0 ++ storeCode 0 ++ requestAndCount 1 ++
    storeCode 1 ++ [.restart] ++
      (requestAndCount 2 ++ requestAndCount 3 ++
        requestAndCount 4) ++
          (storeCode 2 ++ storeCode 3 ++ storeCode 4)

/- A newer code is stored once the completion has picked. -/
def overtakenCompletion : List ResetAction :=
  requestAndCount 0 ++ storeCode 0 ++ pickCode 1 ++
    [.tick 60000000000] ++ requestAndCount 2 ++ storeCode 2 ++
      completeWithCode 1

/-
  Five codes are created within an hour, and a reset is
  completed with a code after a newer one was stored.
-/
theorem interleaved_requests_exceed_limits :
    StartsEmpty sampleStart ∧
      (∃ s,
        (resetSystem sampleHash sampleIsEmailAddress).perform
            sampleStart concurrentRequests =
            some s ∧
          SlidingWindow.countWithin (-1) Duration.hour
              (createdFor s.ledger 1) =
            5) ∧
        ∃ s,
          (resetSystem sampleHash
              sampleIsEmailAddress).perform sampleStart
              overtakenCompletion =
              some s ∧
            ∃ reset ∈ s.resets,
              ∃ newer ∈ reset.storedThen,
                newer.userID = reset.code.userID ∧
                  reset.code.createdAt < newer.createdAt := by
  have hFive :
      (((resetSystem sampleHash
        sampleIsEmailAddress).perform sampleStart
          concurrentRequests).any fun s =>
            SlidingWindow.countWithin (-1) Duration.hour
                (createdFor s.ledger 1) =
              5) =
        true := by
    decide +kernel
  have hOvertaken :
      (((resetSystem sampleHash
        sampleIsEmailAddress).perform sampleStart
          overtakenCompletion).any fun s =>
            ∃ reset ∈ s.resets,
              ∃ newer ∈ reset.storedThen,
                newer.userID = reset.code.userID ∧
                  reset.code.createdAt < newer.createdAt) =
        true := by
    decide +kernel
  rcases (Option.any_eq_true _ _).mp hFive with
    ⟨first, hFirst, hCount⟩
  rcases (Option.any_eq_true _ _).mp hOvertaken with
    ⟨second, hSecond, hNewer⟩
  exact
    ⟨sampleStart_startsEmpty,
      ⟨first, hFirst, of_decide_eq_true hCount⟩,
      second, hSecond, of_decide_eq_true hNewer⟩

end PasswordReset

end Users

end Databasus
