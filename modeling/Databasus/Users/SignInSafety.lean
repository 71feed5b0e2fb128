import Mathlib.Algebra.Order.Group.Int
import Databasus.Users.LedgerFrames
import Databasus.Users.SignIn

/-
  Limits of sign-in codes, whatever the requests interleave.

  A code is compared and completed as often as its row allows.
  The hourly cap rests on the lock of the user, and on every
  row that a request will count being there when it counts.

  Main declarations:
    * `cleanUpSpares`
    * `SignInSound`, `signInSound_step`
    * `sign_in_limits_hold`
-/

------------------------------------------------------------
-- Sound States
------------------------------------------------------------

namespace Databasus

namespace Users

namespace SignIn

open Foundation

/- The rows that a new pending sign-in is counted with. -/
def Creation.since (creation : Creation) : Time :=
  creation.pendingSignIn.createdAt - pendingSignInRetention

/- A clean-up that commits deletes no row still counted. -/
def cleanUpSpares
    (s : SignInState) : SignInAction → Bool
  | .advance c =>
      match s.calls c with
      | .deleting _ [] deleted =>
          s.begun.all fun other =>
            (s.calls other).uncounted.all fun creation =>
              s.ledger.codes.rows.all fun row =>
                !row.isCreatedSince
                    creation.pendingSignIn.userID
                    creation.since ||
                  !deleted.contains row.id
      | _ => true
  | _ => true

/- The comparison of the call is behind it. -/
def Stage.hasCompared : Stage → Bool
  | .spending _ _ => true
  | .spent _ _ => true
  | .over => true
  | _ => false

structure Creation.IsNew
    (creation : Creation) : Prop where
  unused : creation.pendingSignIn.isUsed = false
  attempts : creation.pendingSignIn.failedAttemptCount = 0

/- Its password was not changed before the verification. -/
def Verification.Permits
    (verification : Verification)
    (pendingSignIn : PendingSignIn) : Prop :=
  { userID := pendingSignIn.userID
    version := pendingSignIn.boundTo } ∉
      verification.retiredThen

variable (capped : Prop)
variable (s : SignInState)
variable (c : Nat)

def IsQuiet : Prop :=
  s.ledger.codes.changesOf c = []

def Locks
    (creation : Creation) : Prop :=
  RowLock.Guards s.userLocks c creation.pendingSignIn.userID

/- The rows to be counted are all there. -/
def Countable
    (creation : Creation) : Prop :=
  capped →
    StillCounted s.ledger creation.pendingSignIn.userID
      creation.since

/- The cap has room for the new pending sign-in. -/
def Fits
    (creation : Creation) : Prop :=
  capped →
    SlidingWindow.countSince creation.since
        (createdFor s.ledger creation.pendingSignIn.userID) <
      maxSignInCodesPerHour

/- What holds while a call is in a stage. -/
def StageSound : Stage → Prop
  | .waitingForUser creation =>
      IsQuiet s c ∧ creation.IsNew ∧
        Countable capped s creation
  | .userLocked creation =>
      IsQuiet s c ∧ creation.IsNew ∧
        Countable capped s creation ∧ Locks s c creation
  | .counting creation =>
      IsQuiet s c ∧ creation.IsNew ∧
        Countable capped s creation ∧ Locks s c creation
  | .inserting creation =>
      IsQuiet s c ∧ creation.IsNew ∧
        Fits capped s creation ∧ Locks s c creation
  | .inserted creation =>
      s.ledger.codes.changesOf c =
          [.insert creation.pendingSignIn] ∧
        Fits capped s creation ∧ Locks s c creation
  | .loading verification _ =>
      IsQuiet s c ∧ verification.retiredThen ⊆ s.retired
  | .loadingUser verification _ =>
      IsQuiet s c ∧ verification.retiredThen ⊆ s.retired
  | .claiming verification pendingSignIn =>
      IsQuiet s c ∧ verification.Permits pendingSignIn
  | .comparing verification pendingSignIn =>
      IsQuiet s c ∧ verification.Permits pendingSignIn ∧
        { codeID := pendingSignIn.id, call := c } ∈
          s.ledger.claims
  | .spending verification pendingSignIn =>
      IsQuiet s c ∧ verification.Permits pendingSignIn
  | .spent verification pendingSignIn =>
      verification.Permits pendingSignIn ∧
        ∃ code,
          code.id = pendingSignIn.id ∧
            Spending s.ledger c code
  | .cleaning cutoff =>
      IsQuiet s c ∧ cutoff ≤ s.now - pendingSignInRetention
  | .deleting cutoff remaining deleted =>
      Deleting s.ledger c deleted ∧
        cutoff ≤ s.now - pendingSignInRetention ∧
          ∀ codeID ∈ deleted ++ remaining,
            WasCreatedBefore s.ledger cutoff codeID
  | _ => IsQuiet s c

/-
  Without the cap the invariant holds in every run; with it,
  in runs whose clean-ups spare what is still counted.
-/
structure SignInSound : Prop where
  ledger : LedgerSound s.ledger
  userLocks : RowLock.Compatible s.userLocks
  current :
    ∀ user ∈ s.users,
      user.passwordVersion ∈ s.usedVersions ∧
        { userID := user.id
          version := user.passwordVersion } ∉ s.retired
  retired :
    ∀ password ∈ s.retired,
      password.version ∈ s.usedVersions
  stages : ∀ c, StageSound capped s c (s.calls c)
  compared :
    ∀ event ∈ s.ledger.compared,
      (s.calls event.call).hasCompared = true
  begun : ∀ c, s.calls c ≠ .idle → c ∈ s.begun
  kept :
    ∀ userID,
      StillCounted s.ledger userID
        (s.now - pendingSignInRetention)
  admitted :
    capped →
      ∀ userID,
        SlidingWindow.Admitted maxSignInCodesPerHour
          pendingSignInRetention (createdFor s.ledger userID)
  sessions :
    (s.sessions.map fun signedIn =>
        signedIn.pendingSignIn.id) =
      s.ledger.completed.map CodeEvent.codeID
  permitted :
    ∀ signedIn ∈ s.sessions,
      { userID := signedIn.pendingSignIn.userID
        version := signedIn.pendingSignIn.boundTo } ∉
          signedIn.retiredThen

------------------------------------------------------------
-- Steps of Other Calls
------------------------------------------------------------

variable {capped}
variable {s}
variable {s' : SignInState}
variable {c}
variable {stage : Stage}

/- A step leaves all that the stage of a call rests on. -/
structure Persists
    (capped : Prop)
    (s s' : SignInState)
    (c : Nat) : Prop where
  store :
    Store.KeptFor EmailedCode.id s.ledger.codes
      s'.ledger.codes c
  userLocks :
    ∀ userID,
      RowLock.Guards s.userLocks c userID →
        RowLock.Guards s'.userLocks c userID
  retired : s.retired ⊆ s'.retired
  claims : s.ledger.claims ⊆ s'.ledger.claims
  created : s.ledger.created ⊆ s'.ledger.created
  now : s.now ≤ s'.now
  countable :
    ∀ creation ∈ (s.calls c).uncounted,
      Countable capped s creation →
        Countable capped s' creation
  counted :
    ∀ userID,
      RowLock.Guards s.userLocks c userID →
        createdFor s'.ledger userID =
          createdFor s.ledger userID

namespace Persists

theorem quiet
    (hPersists : Persists capped s s' c)
    (hQuiet : IsQuiet s c) :
    IsQuiet s' c :=
  hPersists.store.changes.trans hQuiet

theorem fits
    (hPersists : Persists capped s s' c)
    {creation : Creation}
    (hLocks : Locks s c creation)
    (hFits : Fits capped s creation) :
    Fits capped s' creation := by
  intro hCapped
  rw [hPersists.counted _ hLocks]
  exact hFits hCapped

theorem spending
    (hPersists : Persists capped s s' c)
    {code : PendingSignIn}
    (hSpending : Spending s.ledger c code) :
    Spending s'.ledger c code :=
  ⟨hPersists.store.owns code hSpending.owns,
    hSpending.unused,
    hPersists.store.changes.trans hSpending.changes⟩

theorem cutoff
    (hPersists : Persists capped s s' c)
    {cutoff : Time}
    (hCutoff : cutoff ≤ s.now - pendingSignInRetention) :
    cutoff ≤ s'.now - pendingSignInRetention := by
  have hNow := hPersists.now
  unfold Time at *
  omega

end Persists

theorem StageSound.persists
    (hStage : StageSound capped s c (s.calls c))
    (hPersists : Persists capped s s' c) :
    StageSound capped s' c (s.calls c) := by
  have hCountable := hPersists.countable
  cases hCall : s.calls c with
  | waitingForUser creation =>
      rw [hCall] at hStage hCountable
      rcases hStage with ⟨hQuiet, hNew, hRows⟩
      exact
        ⟨hPersists.quiet hQuiet, hNew,
          hCountable creation rfl hRows⟩
  | userLocked creation =>
      rw [hCall] at hStage hCountable
      rcases hStage with ⟨hQuiet, hNew, hRows, hLocks⟩
      exact
        ⟨hPersists.quiet hQuiet, hNew,
          hCountable creation rfl hRows,
          hPersists.userLocks _ hLocks⟩
  | counting creation =>
      rw [hCall] at hStage hCountable
      rcases hStage with ⟨hQuiet, hNew, hRows, hLocks⟩
      exact
        ⟨hPersists.quiet hQuiet, hNew,
          hCountable creation rfl hRows,
          hPersists.userLocks _ hLocks⟩
  | inserting creation =>
      rw [hCall] at hStage
      rcases hStage with ⟨hQuiet, hNew, hFits, hLocks⟩
      exact
        ⟨hPersists.quiet hQuiet, hNew,
          hPersists.fits hLocks hFits,
          hPersists.userLocks _ hLocks⟩
  | inserted creation =>
      rw [hCall] at hStage
      rcases hStage with ⟨hChanges, hFits, hLocks⟩
      exact
        ⟨hPersists.store.changes.trans hChanges,
          hPersists.fits hLocks hFits,
          hPersists.userLocks _ hLocks⟩
  | loading verification pendingSignInID =>
      rw [hCall] at hStage
      exact
        ⟨hPersists.quiet hStage.1,
          List.Subset.trans hStage.2 hPersists.retired⟩
  | loadingUser verification pendingSignIn =>
      rw [hCall] at hStage
      exact
        ⟨hPersists.quiet hStage.1,
          List.Subset.trans hStage.2 hPersists.retired⟩
  | claiming verification pendingSignIn =>
      rw [hCall] at hStage
      exact ⟨hPersists.quiet hStage.1, hStage.2⟩
  | comparing verification pendingSignIn =>
      rw [hCall] at hStage
      rcases hStage with ⟨hQuiet, hPermits, hClaimed⟩
      exact
        ⟨hPersists.quiet hQuiet, hPermits,
          hPersists.claims hClaimed⟩
  | spending verification pendingSignIn =>
      rw [hCall] at hStage
      exact ⟨hPersists.quiet hStage.1, hStage.2⟩
  | spent verification pendingSignIn =>
      rw [hCall] at hStage
      rcases hStage with ⟨hPermits, code, hKey, hSpending⟩
      exact ⟨hPermits, code, hKey, hPersists.spending hSpending⟩
  | cleaning cutoff =>
      rw [hCall] at hStage
      exact
        ⟨hPersists.quiet hStage.1,
          hPersists.cutoff hStage.2⟩
  | deleting cutoff remaining deleted =>
      rw [hCall] at hStage
      rcases hStage with ⟨hDeleting, hCutoff, hBefore⟩
      exact
        ⟨hPersists.store.changes.trans hDeleting,
          hPersists.cutoff hCutoff, fun codeID hCodeID =>
            (hBefore codeID hCodeID).mono hPersists.created⟩
  | _ =>
      rw [hCall] at hStage
      exact hPersists.quiet hStage

------------------------------------------------------------
-- Moves of a Call
------------------------------------------------------------

/- One call goes to a stage, and no user has changed. -/
structure Moves
    (s s' : SignInState)
    (c : Nat)
    (stage : Stage) : Prop where
  calls : s'.calls = Function.update s.calls c stage
  users : s'.users = s.users
  usedVersions : s'.usedVersions = s.usedVersions
  retired : s'.retired = s.retired
  now : s'.now = s.now
  begun : s'.begun = s.begun

variable {capped : Prop}
variable {s s' : SignInState}
variable {c : Nat}
variable {stage : Stage}
variable {ledger : CodeLedger Uuid}
variable {userLocks : List (RowLock Nat Uuid)}

/- A call that steps has begun. -/
def IsUnderWay (s : SignInState) (c : Nat) : Prop :=
  c ∈ s.begun

theorem SignInSound.move
    (hSound : SignInSound capped s)
    (hMoves : Moves s s' c stage)
    (hUnderWay : IsUnderWay s c)
    (hLedger : LedgerSound s'.ledger)
    (hLocks : RowLock.Compatible s'.userLocks)
    (hOthers :
      ∀ other, other ≠ c → Persists capped s s' other)
    (hOwn : StageSound capped s' c stage)
    (hCompared :
      ∀ event ∈ s'.ledger.compared,
        event ∈ s.ledger.compared ∧
            ((s.calls c).hasCompared = true →
              stage.hasCompared = true) ∨
          event.call = c ∧ stage.hasCompared = true)
    (hKept :
      ∀ userID,
        StillCounted s'.ledger userID
          (s.now - pendingSignInRetention))
    (hAdmitted :
      capped →
        ∀ userID,
          SlidingWindow.Admitted maxSignInCodesPerHour
            pendingSignInRetention
            (createdFor s'.ledger userID))
    (hSessions :
      (s'.sessions.map fun signedIn =>
          signedIn.pendingSignIn.id) =
        s'.ledger.completed.map CodeEvent.codeID)
    (hPermitted :
      ∀ signedIn ∈ s'.sessions,
        { userID := signedIn.pendingSignIn.userID
          version := signedIn.pendingSignIn.boundTo } ∉
            signedIn.retiredThen) :
    SignInSound capped s' := by
  refine
    ⟨hLedger, hLocks, ?_, ?_, ?_, ?_, ?_, ?_, hAdmitted,
      hSessions, hPermitted⟩
  · rw [hMoves.users, hMoves.usedVersions, hMoves.retired]
    exact hSound.current
  · rw [hMoves.usedVersions, hMoves.retired]
    exact hSound.retired
  · intro other
    rw [hMoves.calls]
    by_cases hCall : other = c
    · rw [hCall, Function.update_self]
      exact hOwn
    · rw [Function.update_of_ne hCall]
      exact (hSound.stages other).persists (hOthers other hCall)
  · rw [hMoves.calls]
    exact compared_update hSound.compared hCompared
  · rw [hMoves.calls, hMoves.begun]
    exact begun_update hSound.begun hUnderWay
  · intro userID
    rw [hMoves.now]
    exact hKept userID

theorem createdFor_congr
    {ledger' : CodeLedger Uuid}
    (hCreated : ledger'.created = ledger.created)
    (userID : Uuid) :
    createdFor ledger' userID = createdFor ledger userID := by
  unfold createdFor
  rw [hCreated]

/- A statement that neither creates nor completes a code. -/
theorem SignInSound.framed
    (hSound : SignInSound capped s)
    (hUnderWay : IsUnderWay s c)
    (hLedger : LedgerSound ledger)
    (hFrames : Frames s.ledger c ledger)
    (hLocks : RowLock.Compatible userLocks)
    (hGuards :
      ∀ other, other ≠ c →
        ∀ userID,
          RowLock.Guards s.userLocks other userID →
            RowLock.Guards userLocks other userID)
    (hPast :
      (s.calls c).hasCompared = true →
        stage.hasCompared = true)
    (hOwn :
      StageSound capped
        { s with
          ledger := ledger
          userLocks := userLocks
          calls := Function.update s.calls c stage } c
        stage) :
    SignInSound capped
      { s with
        ledger := ledger
        userLocks := userLocks
        calls := Function.update s.calls c stage } := by
  have hMoves :
      Moves s
        { s with
          ledger := ledger
          userLocks := userLocks
          calls := Function.update s.calls c stage } c
        stage :=
    ⟨rfl, rfl, rfl, rfl, rfl, rfl⟩
  refine
    hSound.move hMoves hUnderWay hLedger hLocks ?_ hOwn ?_ ?_
      ?_ ?_ hSound.permitted
  · intro other hOther
    refine
      ⟨hFrames.others other hOther, hGuards other hOther,
        List.Subset.refl _, hFrames.claims, ?_, le_refl _, ?_,
        fun userID _ => createdFor_congr hFrames.created userID⟩
    · change s.ledger.created ⊆ ledger.created
      rw [hFrames.created]
      exact List.Subset.refl _
    · intro creation _ hCountable hCapped
      exact
        (hCountable hCapped).keepsRows hFrames.created
          hFrames.rows
  · intro event hEvent
    change event ∈ ledger.compared at hEvent
    rw [hFrames.compared] at hEvent
    exact Or.inl ⟨hEvent, hPast⟩
  · intro userID
    exact
      (hSound.kept userID).keepsRows hFrames.created
        hFrames.rows
  · intro hCapped userID
    change SlidingWindow.Admitted _ _ (createdFor ledger userID)
    rw [createdFor_congr hFrames.created]
    exact hSound.admitted hCapped userID
  · change _ = List.map _ ledger.completed
    rw [hFrames.completed]
    exact hSound.sessions

theorem SignInSound.setStage
    (hSound : SignInSound capped s)
    (hUnderWay : IsUnderWay s c)
    (hPast :
      (s.calls c).hasCompared = true →
        stage.hasCompared = true)
    (hOwn : StageSound capped (s.setStage c stage) c stage) :
    SignInSound capped (s.setStage c stage) :=
  hSound.framed hUnderWay hSound.ledger (.refl s.ledger c)
    hSound.userLocks (fun _ _ _ hGuards => hGuards) hPast hOwn

theorem SignInSound.setLedger
    (hSound : SignInSound capped s)
    (hUnderWay : IsUnderWay s c)
    (hLedger : LedgerSound ledger)
    (hFrames : Frames s.ledger c ledger)
    (hPast :
      (s.calls c).hasCompared = true →
        stage.hasCompared = true)
    (hOwn :
      StageSound capped ((s.withLedger ledger).setStage c stage)
        c stage) :
    SignInSound capped
      ((s.withLedger ledger).setStage c stage) :=
  hSound.framed hUnderWay hLedger hFrames hSound.userLocks
    (fun _ _ _ hGuards => hGuards) hPast hOwn

/- Whatever stage a request is in, it ends in the same way. -/
theorem refuse_setStage
    (s : SignInState)
    (c : Nat)
    (stage : Stage) :
    (s.setStage c stage).refuse c = s.refuse c := by
  unfold SignInState.refuse SignInState.setStage
  simp only [Function.update_idem]

/- A request ends, and leaves nothing uncommitted. -/
theorem SignInSound.refuseWith
    (hSound : SignInSound capped s)
    (hUnderWay : IsUnderWay s c)
    (hLedger : LedgerSound ledger)
    (hFrames : Frames s.ledger c ledger) :
    SignInSound capped ((s.withLedger ledger).refuse c) := by
  refine
    hSound.framed hUnderWay (hLedger.rollback c)
      hFrames.rollback (hSound.userLocks.release c) ?_
      (fun _ => rfl) ?_
  · intro other hOther userID hGuards
    exact hGuards.release hOther
  · exact Store.changesOf_ended rfl

theorem SignInSound.refuse
    (hSound : SignInSound capped s)
    (hUnderWay : IsUnderWay s c) :
    SignInSound capped (s.refuse c) :=
  hSound.refuseWith hUnderWay hSound.ledger (.refl s.ledger c)

------------------------------------------------------------
-- Creating a Pending Sign-In
------------------------------------------------------------

variable {matchesHash : String → String → Bool}
variable {creation : Creation}

theorem SignInSound.stageAt
    (hSound : SignInSound capped s)
    (hCall : s.calls c = stage) :
    StageSound capped s c stage :=
  hCall ▸ hSound.stages c

theorem SignInSound.underWay
    (hSound : SignInSound capped s)
    (hCall : s.calls c = stage)
    (hStage : stage ≠ .idle) :
    IsUnderWay s c := by
  apply hSound.begun
  rw [hCall]
  exact hStage

theorem past_of_eq
    (hCall : s.calls c = stage)
    (hStage : stage.hasCompared = false)
    (next : Stage) :
    (s.calls c).hasCompared = true →
      next.hasCompared = true := by
  rw [hCall, hStage]
  intro hNever
  cases hNever

theorem sound_verifyPassword
    (hSound : SignInSound capped s)
    {email password : String}
    (hCall :
      s.calls c = .verifyingPassword email password) :
    SignInSound capped
      (verifyPassword matchesHash s c email password) := by
  have hQuiet : IsQuiet s c := hSound.stageAt hCall
  have hUnderWay : IsUnderWay s c :=
    hSound.underWay hCall (by simp)
  have hRefused := hSound.refuse hUnderWay
  unfold verifyPassword
  split
  · exact hRefused
  · split
    · exact hRefused
    · split
      · exact hRefused
      · split
        · exact
            hSound.setStage hUnderWay
              (past_of_eq hCall rfl _) hQuiet
        · exact hRefused

/- All that the cap counts since then is in the table. -/
theorem sound_issueSignInCode
    (hSound : SignInSound capped s)
    {user : UserRecord}
    {shouldReuseLiveCode : Bool}
    {resentID : Option Uuid}
    (hCall :
      s.calls c = .issuing user shouldReuseLiveCode resentID)
    (newID : Uuid)
    (hashedCode : String) :
    SignInSound capped
      (issueSignInCode s c user shouldReuseLiveCode resentID
        newID hashedCode) := by
  have hQuiet : IsQuiet s c := hSound.stageAt hCall
  exact
    hSound.setStage (hSound.underWay hCall (by simp))
      (past_of_eq hCall rfl _)
      ⟨hQuiet, ⟨rfl, rfl⟩, fun _ => hSound.kept user.id⟩

theorem sound_lockUser
    (hSound : SignInSound capped s)
    (hCall : s.calls c = .waitingForUser creation)
    (hStep :
      createPendingSignIn s c (.waitingForUser creation) =
        some s') :
    SignInSound capped s' := by
  rcases hSound.stageAt hCall with ⟨hQuiet, hNew, hRows⟩
  simp only [createPendingSignIn] at hStep
  split at hStep
  · cases hStep
  · next userLocks hAcquire =>
      cases hStep
      refine
        hSound.framed (hSound.underWay hCall (by simp))
          hSound.ledger (.refl s.ledger c)
          (hSound.userLocks.acquire hAcquire) ?_
          (past_of_eq hCall rfl _)
          ⟨hQuiet, hNew, hRows, .acquired hAcquire rfl⟩
      intro other _ userID hGuards
      exact hGuards.acquire hAcquire

theorem sound_reuse
    (hSound : SignInSound capped s)
    (hCall : s.calls c = .userLocked creation)
    (hStep :
      createPendingSignIn s c (.userLocked creation) =
        some s') :
    SignInSound capped s' := by
  have hStage := hSound.stageAt hCall
  have hUnderWay : IsUnderWay s c :=
    hSound.underWay hCall (by simp)
  have hNext :
      SignInSound capped
        (s.setStage c (.counting creation)) :=
    hSound.setStage hUnderWay (past_of_eq hCall rfl _) hStage
  simp only [createPendingSignIn] at hStep
  split at hStep
  · split at hStep
    · cases hStep
      exact hSound.refuse hUnderWay
    · cases hStep
      exact hNext
  · cases hStep
    exact hNext

/- The count has missed none, so that there is room. -/
theorem sound_count
    (hSound : SignInSound capped s)
    (hCall : s.calls c = .counting creation)
    (hStep :
      createPendingSignIn s c (.counting creation) =
        some s') :
    SignInSound capped s' := by
  rcases hSound.stageAt hCall with
    ⟨hQuiet, hNew, hRows, hLocks⟩
  have hUnderWay : IsUnderWay s c :=
    hSound.underWay hCall (by simp)
  simp only [createPendingSignIn] at hStep
  split at hStep
  · cases hStep
    exact hSound.refuse hUnderWay
  · next hRoom =>
      cases hStep
      have hFits : Fits capped s creation := by
        intro hCapped
        exact
          lt_of_le_of_lt
            ((hRows hCapped).count_le hSound.ledger hQuiet)
            (not_le.mp hRoom)
      exact
        hSound.setStage hUnderWay (past_of_eq hCall rfl _)
          ⟨hQuiet, hNew, hFits, hLocks⟩

theorem sound_insert
    (hSound : SignInSound capped s)
    (hCall : s.calls c = .inserting creation)
    (hStep :
      createPendingSignIn s c (.inserting creation) =
        some s') :
    SignInSound capped s' := by
  rcases hSound.stageAt hCall with
    ⟨hQuiet, hNew, hFits, hLocks⟩
  simp only [createPendingSignIn] at hStep
  split at hStep
  · cases hStep
  · next ledger hInsert =>
      cases hStep
      rcases
        hSound.ledger.insertCode hQuiet hNew.unused
          hNew.attempts hInsert with
        ⟨hLedger, hChanges⟩
      have hFrames := frames_insertCode hInsert
      refine
        hSound.setLedger (hSound.underWay hCall (by simp))
          hLedger hFrames (past_of_eq hCall rfl _)
          ⟨hChanges, ?_, hLocks⟩
      intro hCapped
      change
        SlidingWindow.countSince creation.since
          (createdFor ledger _) < _
      rw [createdFor_congr hFrames.created]
      exact hFits hCapped

/- Meanwhile the user's lock has kept other creations out. -/
theorem sound_commitInsert
    (hSound : SignInSound capped s)
    (hCall : s.calls c = .inserted creation)
    (hStep :
      createPendingSignIn s c (.inserted creation) =
        some s') :
    SignInSound capped s' := by
  rcases hSound.stageAt hCall with ⟨hChanges, hFits, hLocks⟩
  simp only [createPendingSignIn] at hStep
  cases hStep
  have hMoves :
      Moves s
        (SignInState.setStage
          { s with
            ledger :=
              s.ledger.commitInsert c creation.pendingSignIn
            userLocks := RowLock.release s.userLocks c } c
          (.sending creation)) c
        (.sending creation) :=
    ⟨rfl, rfl, rfl, rfl, rfl, rfl⟩
  refine
    hSound.move hMoves (hSound.underWay hCall (by simp))
      (hSound.ledger.commitInsert hChanges)
      (hSound.userLocks.release c) ?_
      (Store.changesOf_ended rfl) ?_ ?_ ?_ hSound.sessions
      hSound.permitted
  · intro other hOther
    refine
      ⟨others_commit hSound.ledger other hOther,
        fun userID hGuards => hGuards.release hOther,
        List.Subset.refl _, List.Subset.refl _,
        List.subset_cons_self _ _, le_refl _, ?_, ?_⟩
    · intro new _ hRows hCapped
      exact (hRows hCapped).commitInsert hChanges
    · intro userID hGuards
      change
        createdFor (s.ledger.commitInsert c _) userID = _
      rw [createdFor_commitInsert, if_neg]
      rintro rfl
      exact
        hOther
          (hSound.userLocks.guards_same hGuards hLocks)
  · intro event hEvent
    exact Or.inl ⟨hEvent, past_of_eq hCall rfl _⟩
  · intro userID
    exact (hSound.kept userID).commitInsert hChanges
  · intro hCapped userID
    change
      SlidingWindow.Admitted _ _
        (createdFor (s.ledger.commitInsert c _) userID)
    rw [createdFor_commitInsert]
    split
    · next hUser =>
        rw [← hUser]
        exact ⟨hFits hCapped, hSound.admitted hCapped _⟩
    · exact hSound.admitted hCapped userID

theorem sound_createPendingSignIn
    (hSound : SignInSound capped s)
    (hCall : s.calls c = stage)
    (hStep : createPendingSignIn s c stage = some s') :
    SignInSound capped s' := by
  cases stage with
  | waitingForUser creation =>
      exact sound_lockUser hSound hCall hStep
  | userLocked creation => exact sound_reuse hSound hCall hStep
  | counting creation => exact sound_count hSound hCall hStep
  | inserting creation => exact sound_insert hSound hCall hStep
  | inserted creation =>
      exact sound_commitInsert hSound hCall hStep
  | _ => cases hStep

------------------------------------------------------------
-- Verifying a Code
------------------------------------------------------------

variable {verification : Verification}
variable {pendingSignIn : PendingSignIn}

theorem sound_loadPendingSignIn
    (hSound : SignInSound capped s)
    (hUnderWay : IsUnderWay s c)
    (hPast : (s.calls c).hasCompared = false)
    (pendingSignInID : Uuid)
    {next : PendingSignIn → Stage}
    (hNext :
      ∀ pendingSignIn,
        StageSound capped (s.setStage c (next pendingSignIn))
          c (next pendingSignIn)) :
    SignInSound capped
      (loadPendingSignIn s c pendingSignInID next) := by
  unfold loadPendingSignIn
  split
  · exact hSound.refuse hUnderWay
  · split
    · exact
        hSound.setStage hUnderWay (past_of_eq rfl hPast _)
          (hNext _)
    · exact hSound.refuse hUnderWay

/- The user is found, and has the password it began with. -/
theorem sound_loadUser
    (hSound : SignInSound capped s)
    (hUnderWay : IsUnderWay s c)
    (hPast : (s.calls c).hasCompared = false)
    (pendingSignIn : PendingSignIn)
    {next : UserRecord → Stage}
    (hNext :
      ∀ user ∈ s.users,
        user.id = pendingSignIn.userID →
          user.passwordVersion = pendingSignIn.boundTo →
            StageSound capped (s.setStage c (next user)) c
              (next user)) :
    SignInSound capped (loadUser s c pendingSignIn next) := by
  unfold loadUser
  split
  · exact hSound.refuse hUnderWay
  · next user hFind =>
      rcases Table.lookup_some hFind with ⟨hUser, hKey⟩
      split
      · next hCurrent =>
          simp only [Bool.and_eq_true, decide_eq_true_eq]
            at hCurrent
          exact
            hSound.setStage hUnderWay (past_of_eq rfl hPast _)
              (hNext user hUser hKey hCurrent.2)
      · exact hSound.refuse hUnderWay

/- The user's password was not changed before the call. -/
theorem SignInSound.permits
    (hSound : SignInSound capped s)
    (hBefore : verification.retiredThen ⊆ s.retired)
    {user : UserRecord}
    (hUser : user ∈ s.users)
    (hKey : user.id = pendingSignIn.userID)
    (hVersion :
      user.passwordVersion = pendingSignIn.boundTo) :
    verification.Permits pendingSignIn := by
  intro hRetired
  have hCurrent := (hSound.current user hUser).2
  rw [hKey, hVersion] at hCurrent
  exact hCurrent (hBefore hRetired)

theorem sound_claim
    (hSound : SignInSound capped s)
    (hCall : s.calls c = .claiming verification pendingSignIn)
    (hStep :
      verifySignInCode matchesHash s c
          (.claiming verification pendingSignIn) =
        some s') :
    SignInSound capped s' := by
  rcases hSound.stageAt hCall with ⟨hQuiet, hPermits⟩
  have hUnderWay : IsUnderWay s c :=
    hSound.underWay hCall (by simp)
  simp only [verifySignInCode] at hStep
  split at hStep
  · cases hStep
  · next ledger hClaim =>
      cases hStep
      exact
        hSound.refuseWith hUnderWay
          (hSound.ledger.claimAttempt hQuiet hClaim)
          (frames_claimAttempt hSound.ledger hQuiet hClaim).1
  · next ledger attemptCount hClaim =>
      cases hStep
      rcases frames_claimAttempt hSound.ledger hQuiet hClaim
        with ⟨hFrames, hNone, hClaimed⟩
      exact
        hSound.setLedger hUnderWay
          (hSound.ledger.claimAttempt hQuiet hClaim) hFrames
          (past_of_eq hCall rfl _)
          ⟨hNone, hPermits, hClaimed rfl⟩

/- The first comparison of the call, with its own attempt. -/
theorem sound_compare
    (hSound : SignInSound capped s)
    (hCall :
      s.calls c = .comparing verification pendingSignIn)
    {compared : SignInState}
    (hCompared :
      compared =
        s.withLedger (s.ledger.compare c pendingSignIn.id))
    {stage : Stage}
    (hHas : stage.hasCompared = true)
    (hOwn :
      StageSound capped (compared.setStage c stage) c stage) :
    SignInSound capped (compared.setStage c stage) := by
  rcases hSound.stageAt hCall with
    ⟨hQuiet, hPermits, hClaimed⟩
  subst hCompared
  have hFirst :
      { codeID := pendingSignIn.id, call := c } ∉
        s.ledger.compared := by
    intro hBefore
    have hHad := hSound.compared _ hBefore
    rw [hCall] at hHad
    cases hHad
  have hMoves :
      Moves s
        ((s.withLedger
          (s.ledger.compare c pendingSignIn.id)).setStage c
            stage) c
        stage :=
    ⟨rfl, rfl, rfl, rfl, rfl, rfl⟩
  refine
    hSound.move hMoves (hSound.underWay hCall (by simp))
      (hSound.ledger.compare hClaimed hFirst)
      hSound.userLocks ?_ hOwn ?_ hSound.kept
      hSound.admitted hSound.sessions hSound.permitted
  · intro other _
    exact
      ⟨.refl _, fun _ hGuards => hGuards,
        List.Subset.refl _, List.Subset.refl _,
        List.Subset.refl _, le_refl _,
        fun _ _ hCountable => hCountable, fun _ _ => rfl⟩
  · intro event hEvent
    rcases List.mem_cons.mp hEvent with rfl | hOld
    · exact Or.inr ⟨rfl, hHas⟩
    · exact Or.inl ⟨hOld, fun _ => hHas⟩

theorem sound_spend
    (hSound : SignInSound capped s)
    (hCall : s.calls c = .spending verification pendingSignIn)
    (hStep :
      verifySignInCode matchesHash s c
          (.spending verification pendingSignIn) =
        some s') :
    SignInSound capped s' := by
  rcases hSound.stageAt hCall with ⟨hQuiet, hPermits⟩
  have hUnderWay : IsUnderWay s c :=
    hSound.underWay hCall (by simp)
  simp only [verifySignInCode] at hStep
  split at hStep
  · cases hStep
  · next ledger hSpend =>
      cases hStep
      exact
        hSound.refuseWith hUnderWay
          (hSound.ledger.spend hQuiet hSpend).1
          (frames_spend hSpend)
  · next ledger hSpend =>
      cases hStep
      rcases hSound.ledger.spend hQuiet hSpend with
        ⟨hLedger, hSpent⟩
      rcases hSpent rfl with ⟨code, hKey, _, _, hSpending⟩
      exact
        hSound.setLedger hUnderWay hLedger
          (frames_spend hSpend) (fun _ => rfl)
          ⟨hPermits, code, hKey, hSpending⟩

theorem sound_complete
    (hSound : SignInSound capped s)
    (hCall : s.calls c = .spent verification pendingSignIn)
    (hStep :
      verifySignInCode matchesHash s c
          (.spent verification pendingSignIn) =
        some s') :
    SignInSound capped s' := by
  rcases hSound.stageAt hCall with
    ⟨hPermits, code, hKey, hSpending⟩
  simp only [verifySignInCode] at hStep
  cases hStep
  have hRows := keepsRows_complete hSound.ledger hSpending
  have hLedger := hSound.ledger.complete hSpending
  rw [hKey] at hRows hLedger
  have hMoves :
      Moves s
        (SignInState.setStage
          { s with
            ledger := s.ledger.complete c pendingSignIn.id
            sessions :=
              { pendingSignIn := pendingSignIn
                retiredThen := verification.retiredThen } ::
                s.sessions } c
          .over) c
        .over :=
    ⟨rfl, rfl, rfl, rfl, rfl, rfl⟩
  refine
    hSound.move hMoves (hSound.underWay hCall (by simp))
      hLedger hSound.userLocks ?_ (Store.changesOf_ended rfl)
      ?_ ?_ hSound.admitted ?_ ?_
  · intro other hOther
    refine
      ⟨others_commit hSound.ledger other hOther,
        fun _ hGuards => hGuards, List.Subset.refl _,
        List.Subset.refl _, List.Subset.refl _, le_refl _, ?_,
        fun _ _ => rfl⟩
    intro creation _ hCountable hCapped
    exact (hCountable hCapped).keepsRows rfl hRows
  · intro event hEvent
    exact Or.inl ⟨hEvent, fun _ => rfl⟩
  · intro userID
    exact (hSound.kept userID).keepsRows rfl hRows
  · change _ :: List.map _ s.sessions = _ :: _
    rw [hSound.sessions]
  · intro signedIn hSignedIn
    rcases List.mem_cons.mp hSignedIn with rfl | hOld
    · exact hPermits
    · exact hSound.permitted signedIn hOld

theorem sound_verifySignInCode
    (hSound : SignInSound capped s)
    (hCall : s.calls c = stage)
    (hStep :
      verifySignInCode matchesHash s c stage = some s') :
    SignInSound capped s' := by
  cases stage with
  | loading verification pendingSignInID =>
      rcases hSound.stageAt hCall with ⟨hQuiet, hBefore⟩
      cases hStep
      apply
        sound_loadPendingSignIn hSound
          (hSound.underWay hCall (by simp))
      · rw [hCall]
        rfl
      · exact fun _ => ⟨hQuiet, hBefore⟩
  | loadingUser verification pendingSignIn =>
      rcases hSound.stageAt hCall with ⟨hQuiet, hBefore⟩
      cases hStep
      apply
        sound_loadUser hSound
          (hSound.underWay hCall (by simp))
      · rw [hCall]
        rfl
      · intro user hUser hKey hVersion
        exact
          ⟨hQuiet,
            hSound.permits hBefore hUser hKey hVersion⟩
  | claiming verification pendingSignIn =>
      exact sound_claim hSound hCall hStep
  | comparing verification pendingSignIn =>
      rcases hSound.stageAt hCall with ⟨hQuiet, hPermits, _⟩
      simp only [verifySignInCode] at hStep
      split at hStep
      · cases hStep
        exact
          sound_compare hSound hCall rfl rfl
            ⟨hQuiet, hPermits⟩
      · cases hStep
        have hOver :
            SignInSound capped
              ((s.withLedger
                (s.ledger.compare c pendingSignIn.id)).setStage
                  c .over) :=
          sound_compare hSound hCall rfl rfl hQuiet
        rw [← refuse_setStage]
        exact
          hOver.refuse
            (hOver.underWay (Function.update_self _ _ _)
              (by simp))
  | spending verification pendingSignIn =>
      exact sound_spend hSound hCall hStep
  | spent verification pendingSignIn =>
      exact sound_complete hSound hCall hStep
  | _ => cases hStep

------------------------------------------------------------
-- Deleting Pending Sign-Ins
------------------------------------------------------------

variable {cutoff : Time}
variable {deleted : List Uuid}

theorem sound_beginDeleting
    (hSound : SignInSound capped s)
    (hCall : s.calls c = .cleaning cutoff)
    (hStep :
      deletePendingSignIns s c (.cleaning cutoff) =
        some s') :
    SignInSound capped s' := by
  rcases hSound.stageAt hCall with ⟨hQuiet, hCutoff⟩
  cases hStep
  refine
    hSound.setStage (hSound.underWay hCall (by simp))
      (past_of_eq hCall rfl _) ⟨hQuiet, hCutoff, ?_⟩
  intro codeID hCodeID
  exact wasCreatedBefore_of_mem hSound.ledger hQuiet hCodeID

theorem sound_deleteNext
    (hSound : SignInSound capped s)
    {pendingSignInID : Uuid}
    {rest deleted : List Uuid}
    (hCall :
      s.calls c =
        .deleting cutoff (pendingSignInID :: rest) deleted)
    (hStep :
      deletePendingSignIns s c
          (.deleting cutoff (pendingSignInID :: rest)
            deleted) =
        some s') :
    SignInSound capped s' := by
  rcases hSound.stageAt hCall with
    ⟨hDeleting, hCutoff, hBefore⟩
  simp only [deletePendingSignIns] at hStep
  split at hStep
  · cases hStep
  · next ledger hDelete =>
      cases hStep
      rcases hSound.ledger.deleteNext hDeleting hDelete with
        ⟨hLedger, hNext⟩
      have hFrames := frames_deleteNext hDelete
      refine
        hSound.setLedger (hSound.underWay hCall (by simp))
          hLedger hFrames (past_of_eq hCall rfl _)
          ⟨hNext, hCutoff, ?_⟩
      intro codeID hCodeID
      rw [List.append_assoc] at hCodeID
      apply (hBefore codeID hCodeID).mono
      exact hFrames.created.symm ▸ List.Subset.refl _

/- What a call still counts has been spared. -/
theorem spared_of_cleanUpSpares
    (hSound : SignInSound capped s)
    (hCall : s.calls c = .deleting cutoff [] deleted)
    (hSpares : cleanUpSpares s (.advance c) = true)
    {other : Nat}
    (hOther : creation ∈ (s.calls other).uncounted)
    {row : PendingSignIn}
    (hRow : row ∈ s.ledger.codes.rows)
    (hSince :
      row.isCreatedSince creation.pendingSignIn.userID
          creation.since =
        true) :
    row.id ∉ deleted := by
  simp only [cleanUpSpares, hCall, List.all_eq_true]
    at hSpares
  have hBegun : other ∈ s.begun := by
    apply hSound.begun
    intro hIdle
    rw [hIdle] at hOther
    cases hOther
  have hAll := hSpares other hBegun
  rw [Option.mem_def] at hOther
  rw [hOther, Option.all_some, List.all_eq_true] at hAll
  simpa [hSince] using hAll row hRow

theorem sound_commitDelete
    (hSound : SignInSound capped s)
    (hCall : s.calls c = .deleting cutoff [] deleted)
    (hSpares :
      capped → cleanUpSpares s (.advance c) = true)
    (hStep :
      deletePendingSignIns s c (.deleting cutoff [] deleted) =
        some s') :
    SignInSound capped s' := by
  rcases hSound.stageAt hCall with
    ⟨hDeleting, hCutoff, hBefore⟩
  rw [List.append_nil] at hBefore
  cases hStep
  have hMoves :
      Moves s
        ((s.withLedger (s.ledger.commitDelete c)).setStage c
          .over) c
        .over :=
    ⟨rfl, rfl, rfl, rfl, rfl, rfl⟩
  refine
    hSound.move hMoves (hSound.underWay hCall (by simp))
      (hSound.ledger.commitDelete hDeleting)
      hSound.userLocks ?_ (Store.changesOf_ended rfl) ?_ ?_
      hSound.admitted hSound.sessions hSound.permitted
  · intro other hOther
    refine
      ⟨others_commit hSound.ledger other hOther,
        fun _ hGuards => hGuards, List.Subset.refl _,
        List.Subset.refl _, List.Subset.refl _, le_refl _, ?_,
        fun _ _ => rfl⟩
    intro creation hCreation hCountable hCapped
    apply (hCountable hCapped).commitDelete hDeleting
    intro row hRow hSince
    exact
      spared_of_cleanUpSpares hSound hCall (hSpares hCapped)
        hCreation hRow hSince
  · intro event hEvent
    exact Or.inl ⟨hEvent, fun _ => rfl⟩
  · intro userID
    apply (hSound.kept userID).commitDelete hDeleting
    intro row hRow hSince
    exact
      not_deleted_of_since hSound.ledger hCutoff hBefore hRow
        hSince

theorem sound_deletePendingSignIns
    (hSound : SignInSound capped s)
    (hCall : s.calls c = stage)
    (hSpares :
      capped → cleanUpSpares s (.advance c) = true)
    (hStep : deletePendingSignIns s c stage = some s') :
    SignInSound capped s' := by
  cases stage with
  | cleaning cutoff =>
      exact sound_beginDeleting hSound hCall hStep
  | deleting cutoff remaining deleted =>
      cases remaining with
      | nil =>
          exact sound_commitDelete hSound hCall hSpares hStep
      | cons pendingSignInID rest =>
          exact sound_deleteNext hSound hCall hStep
  | _ => cases hStep

------------------------------------------------------------
-- Steps of the System
------------------------------------------------------------

theorem sound_sendCode
    (hSound : SignInSound capped s)
    (hCall : s.calls c = .sending creation)
    (isSent : Bool) :
    SignInSound capped (sendCode s c creation isSent) := by
  have hQuiet : IsQuiet s c := hSound.stageAt hCall
  have hUnderWay : IsUnderWay s c :=
    hSound.underWay hCall (by simp)
  have hOver : SignInSound capped (s.setStage c .over) :=
    hSound.setStage hUnderWay (fun _ => rfl) hQuiet
  have hMarking :
      ∀ codeID,
        SignInSound capped (s.setStage c (.marking codeID)) :=
    fun _ =>
      hSound.setStage hUnderWay (past_of_eq hCall rfl _)
        hQuiet
  unfold sendCode
  split
  · split
    · exact hOver
    · exact hMarking _
  · exact hMarking _

theorem sound_markPendingSignIn
    (hSound : SignInSound capped s)
    {pendingSignInID : Uuid}
    (hCall : s.calls c = .marking pendingSignInID)
    (hStep :
      markPendingSignIn s c pendingSignInID = some s') :
    SignInSound capped s' := by
  have hQuiet : IsQuiet s c := hSound.stageAt hCall
  unfold markPendingSignIn at hStep
  split at hStep
  · cases hStep
  · next ledger hMark =>
      cases hStep
      rcases frames_markUsed hSound.ledger hQuiet hMark with
        ⟨hFrames, hNone⟩
      exact
        hSound.setLedger (hSound.underWay hCall (by simp))
          (hSound.ledger.markUsed hQuiet hMark) hFrames
          (fun _ => rfl) hNone

theorem sound_advance
    (hSound : SignInSound capped s)
    (hSpares :
      capped → cleanUpSpares s (.advance c) = true)
    (hStep : advance matchesHash s c = some s') :
    SignInSound capped s' := by
  unfold advance at hStep
  split at hStep
  · next hCall =>
      cases hStep
      exact sound_verifyPassword hSound hCall
  · next hCall =>
      exact sound_markPendingSignIn hSound hCall hStep
  · next hCall =>
      cases hStep
      have hQuiet : IsQuiet s c := hSound.stageAt hCall
      apply
        sound_loadPendingSignIn hSound
          (hSound.underWay hCall (by simp))
      · rw [hCall]
        rfl
      · exact fun _ => hQuiet
  · next hCall =>
      cases hStep
      have hQuiet : IsQuiet s c := hSound.stageAt hCall
      apply
        sound_loadUser hSound
          (hSound.underWay hCall (by simp))
      · rw [hCall]
        rfl
      · exact fun _ _ _ _ => hQuiet
  · split at hStep
    · next hCreate =>
        cases hStep
        exact sound_createPendingSignIn hSound rfl hCreate
    · split at hStep
      · next hVerify =>
          cases hStep
          exact sound_verifySignInCode hSound rfl hVerify
      · exact
          sound_deletePendingSignIns hSound rfl hSpares hStep

/- A step of nobody leaves everything to every call. -/
theorem SignInSound.elsewhere
    (hSound : SignInSound capped s)
    (hCalls : s'.calls = s.calls)
    (hLedger : s'.ledger = s.ledger)
    (hLocks : s'.userLocks = s.userLocks)
    (hRetired : s.retired ⊆ s'.retired)
    (hNow : s.now ≤ s'.now) :
    ∀ c, StageSound capped s' c (s'.calls c) := by
  intro c
  rw [hCalls]
  apply (hSound.stages c).persists
  refine ⟨?_, ?_, hRetired, ?_, ?_, hNow, ?_, ?_⟩
  · rw [hLedger]
    exact .refl _
  · rw [hLocks]
    exact fun _ hGuards => hGuards
  · rw [hLedger]
    exact List.Subset.refl _
  · rw [hLedger]
    exact List.Subset.refl _
  · intro creation _ hCountable
    unfold Countable
    rw [hLedger]
    exact hCountable
  · rw [hLedger]
    exact fun _ _ => rfl

theorem sound_tick
    (hSound : SignInSound capped s)
    (elapsed : Nat) :
    SignInSound capped { s with now := s.now + elapsed } := by
  have hNow : s.now ≤ s.now + elapsed := by
    unfold Time at *
    omega
  refine
    { hSound with
      stages :=
        hSound.elsewhere rfl rfl rfl (List.Subset.refl _) hNow
      kept := ?_ }
  intro userID
  apply (hSound.kept userID).mono
  exact sub_le_sub_right hNow _

/- The new version differs from all that were retired. -/
theorem sound_changePassword
    (hSound : SignInSound capped s)
    {version : Uuid}
    (hFresh : version ∉ s.usedVersions)
    (userID : Uuid)
    (hashedPassword : String) :
    SignInSound capped
      (changePassword s userID hashedPassword version) := by
  refine
    { hSound with
      current := ?_
      retired := ?_
      stages :=
        hSound.elsewhere rfl rfl rfl
          (List.subset_append_right _ _) (le_refl _) }
  · intro user hUser
    rcases (Table.mem_updateWhere_iff _ _ _ _).mp hUser with
      ⟨old, hOld, hChanged⟩
    rcases hSound.current old hOld with ⟨hUsed, hCurrent⟩
    have hOthers :
        ∀ password ∈ s.retired, password.version ≠ version := by
      rintro password hPassword rfl
      exact hFresh (hSound.retired password hPassword)
    by_cases hKey : old.id = userID
    · simp only [hKey, decide_true, if_true] at hChanged
      subst hChanged
      refine ⟨List.mem_cons_self, ?_⟩
      intro hRetired
      rcases List.mem_append.mp hRetired with hNew | hBefore
      · rcases List.mem_map.mp hNew with
          ⟨other, hOther, hSame⟩
        have hVersion : other.passwordVersion = version :=
          congrArg RetiredPassword.version hSame
        have hKnown :=
          (hSound.current other
            (List.mem_filter.mp hOther).1).1
        exact hFresh (hVersion ▸ hKnown)
      · exact hOthers _ hBefore rfl
    · simp only [hKey, decide_false, Bool.false_eq_true,
        if_false] at hChanged
      subst hChanged
      refine ⟨List.mem_cons_of_mem _ hUsed, ?_⟩
      intro hRetired
      rcases List.mem_append.mp hRetired with hNew | hBefore
      · rcases List.mem_map.mp hNew with ⟨other, _, hSame⟩
        exact hKey (congrArg RetiredPassword.userID hSame).symm
      · exact hCurrent hBefore
  · intro password hPassword
    rcases List.mem_append.mp hPassword with hNew | hBefore
    · rcases List.mem_map.mp hNew with ⟨user, hUser, rfl⟩
      exact
        List.mem_cons_of_mem _
          (hSound.current user (List.mem_filter.mp hUser).1).1
    · exact
        List.mem_cons_of_mem _
          (hSound.retired password hBefore)

theorem sound_setActive
    (hSound : SignInSound capped s)
    (userID : Uuid)
    (isActive : Bool) :
    SignInSound capped (setActive s userID isActive) := by
  refine
    { hSound with
      current := ?_
      stages :=
        hSound.elsewhere rfl rfl rfl (List.Subset.refl _)
          (le_refl _) }
  intro user hUser
  rcases (Table.mem_updateWhere_iff _ _ _ _).mp hUser with
    ⟨old, hOld, hChanged⟩
  have hCurrent := hSound.current old hOld
  split at hChanged
  · subst hChanged
    exact hCurrent
  · subst hChanged
    exact hCurrent

theorem sound_beginRequest
    (hSound : SignInSound capped s)
    (hIdle : s.calls c = .idle)
    {request : Request}
    (hTimely : request.isTimely s.now = true) :
    SignInSound capped (beginRequest s c request) := by
  have hQuiet : IsQuiet s c := hSound.stageAt hIdle
  let opened : SignInState := { s with begun := c :: s.begun }
  have hOpened : SignInSound capped opened := by
    refine
      { hSound with
        stages :=
          hSound.elsewhere rfl rfl rfl (List.Subset.refl _)
            (le_refl _)
        begun := ?_ }
    intro other hOther
    exact List.mem_cons_of_mem _ (hSound.begun other hOther)
  have hUnderWay : IsUnderWay opened c := List.mem_cons_self
  have hPast :
      ∀ stage : Stage,
        (opened.calls c).hasCompared = true →
          stage.hasCompared = true :=
    past_of_eq hIdle rfl
  cases request with
  | signIn email password =>
      exact hOpened.setStage hUnderWay (hPast _) hQuiet
  | verify pendingSignInID code =>
      exact
        hOpened.setStage hUnderWay (hPast _)
          ⟨hQuiet, List.Subset.refl _⟩
  | resend pendingSignInID =>
      exact hOpened.setStage hUnderWay (hPast _) hQuiet
  | cleanUp jobNow =>
      have hNow : jobNow ≤ s.now := of_decide_eq_true hTimely
      exact
        hOpened.setStage hUnderWay (hPast _)
          ⟨hQuiet, sub_le_sub_right hNow _⟩

/- Each step keeps the invariant, given what it deletes. -/
theorem signInSound_step
    {action : SignInAction}
    (hSound : SignInSound capped s)
    (hSpares : capped → cleanUpSpares s action = true)
    (hStep : step matchesHash s action = some s') :
    SignInSound capped s' := by
  cases action with
  | tick elapsed =>
      cases hStep
      exact sound_tick hSound elapsed
  | requireTwoFactor isRequired =>
      cases hStep
      exact
        { hSound with
          stages :=
            hSound.elsewhere rfl rfl rfl (List.Subset.refl _)
              (le_refl _) }
  | changePassword userID hashedPassword version =>
      simp only [step] at hStep
      split at hStep
      · cases hStep
      · next hFresh =>
          cases hStep
          exact
            sound_changePassword hSound hFresh userID
              hashedPassword
  | setActive userID isActive =>
      cases hStep
      exact sound_setActive hSound userID isActive
  | begin c request =>
      simp only [step] at hStep
      split at hStep
      · next hBegins =>
          cases hStep
          rw [Bool.and_eq_true, decide_eq_true_eq] at hBegins
          exact sound_beginRequest hSound hBegins.1 hBegins.2
      · cases hStep
  | issue c newID hashedCode =>
      simp only [step] at hStep
      split at hStep
      · next hCall =>
          cases hStep
          exact
            sound_issueSignInCode hSound hCall newID hashedCode
      · cases hStep
  | send c isSent =>
      simp only [step] at hStep
      split at hStep
      · next hCall =>
          cases hStep
          exact sound_sendCode hSound hCall isSent
      · cases hStep
  | advance c => exact sound_advance hSound hSpares hStep
  | fail c =>
      simp only [step] at hStep
      split at hStep
      · cases hStep
      · next hOpen =>
          cases hStep
          apply hSound.refuse
          apply hSound.begun
          intro hIdle
          simp [hIdle] at hOpen

theorem signInSound_start
    (hStart : StartsEmpty s) :
    SignInSound capped s := by
  have hLedger := hStart.ledger
  have hNone : ∀ c, IsQuiet s c := by
    intro c
    unfold IsQuiet
    rw [hLedger]
    rfl
  refine ⟨?_, ?_, ?_, ?_, ?_, ?_, ?_, ?_, ?_, ?_, ?_⟩
  · rw [hLedger]
    exact .empty
  · rw [hStart.userLocks]
    exact .nil
  · intro user hUser
    rw [hStart.retired]
    exact ⟨hStart.versions user hUser, List.not_mem_nil⟩
  · rw [hStart.retired]
    exact fun _ hPassword => absurd hPassword List.not_mem_nil
  · intro c
    rw [hStart.calls]
    exact hNone c
  · rw [hLedger]
    exact fun _ hEvent => absurd hEvent List.not_mem_nil
  · intro c hBegun
    exact absurd (hStart.calls c) hBegun
  · rw [hLedger]
    intro userID original hOriginal
    exact absurd hOriginal List.not_mem_nil
  · intro _ userID
    rw [hLedger]
    trivial
  · rw [hLedger, hStart.sessions]
    rfl
  · rw [hStart.sessions]
    exact fun _ hSession => absurd hSession List.not_mem_nil

/-
  Each pending sign-in is compared at most five times and
  yields at most one session, and none to a verification that
  its password was changed before.  In a run whose clean-ups
  spare what is still counted, no hour holds more than five
  creations of a user.
-/
theorem sign_in_limits_hold
    (matchesHash : String → String → Bool)
    (start : SignInState)
    (hStart : StartsEmpty start)
    (actions : List SignInAction)
    (s : SignInState)
    (hRun :
      (signInSystem matchesHash).perform start actions =
        some s) :
    (∀ pendingSignInID,
        countEvents pendingSignInID s.ledger.compared ≤ 5 ∧
          (s.sessions.countP fun signedIn =>
              signedIn.pendingSignIn.id = pendingSignInID) ≤
            1) ∧
      (∀ signedIn ∈ s.sessions,
        { userID := signedIn.pendingSignIn.userID
          version := signedIn.pendingSignIn.boundTo } ∉
            signedIn.retiredThen) ∧
      ((signInSystem matchesHash).MeetsAlong
          (fun s action => cleanUpSpares s action = true)
          start actions →
        ∀ userID since,
          SlidingWindow.countWithin since Duration.hour
            (createdFor s.ledger userID) ≤ 5) := by
  have hSound : SignInSound False s := by
    refine
      TransitionSystem.perform_invariant
        (T := signInSystem matchesHash)
        (fun _ _ _ hHolds hTaken => ?_) actions
        (signInSound_start hStart) hRun
    exact signInSound_step hHolds False.elim hTaken
  refine ⟨?_, hSound.permitted, ?_⟩
  · intro pendingSignInID
    refine ⟨hSound.ledger.compared_le pendingSignInID, ?_⟩
    have hOnce :=
      hSound.ledger.completed_le pendingSignInID
    unfold countEvents at hOnce
    have hCount :
        (s.sessions.map fun signedIn =>
            signedIn.pendingSignIn.id).countP
              (fun codeID => codeID = pendingSignInID) ≤
          1 := by
      rw [hSound.sessions, List.countP_map]
      exact hOnce
    rw [List.countP_map] at hCount
    exact hCount
  · intro hSpares userID since
    have hReachable :=
      TransitionSystem.reachableWhile_of_perform actions
        (.initial hStart) hSpares hRun
    have hCapped : SignInSound True s :=
      hReachable.invariant (fun _ => signInSound_start)
        fun _ _ _ hHolds hSpared hTaken =>
          signInSound_step hHolds (fun _ => hSpared) hTaken
    exact
      (hCapped.admitted trivial userID).window_le since

/- What a password and its hash have to do here. -/
def sampleMatchesHash (hashed plain : String) : Bool :=
  hashed = "hashed " ++ plain

def sampleUsers : SignInState :=
  { now := 0
    users :=
      [{ id := 1
         email := "user@example.com"
         hashedPassword := some "hashed password"
         passwordVersion := 1
         isInvited := false
         isActive := true }]
    isTwoFactorAuthRequired := true
    usedVersions := [1]
    ledger := { codes := { rows := [] }, usedIDs := [] } }

theorem sampleUsers_startsEmpty :
    StartsEmpty sampleUsers :=
  ⟨by decide, rfl, rfl, rfl, fun _ => rfl, rfl⟩

/- A password step, up to when it reads the clock. -/
def askForCode (c : Nat) : List SignInAction :=
  [.begin c (.signIn "user@example.com" "password"),
    .advance c, .issue c (100 + c) "hashed 123456"]

/- It locks the user, looks, counts, inserts and commits. -/
def createCode (c : Nat) : List SignInAction :=
  List.replicate 5 (.advance c) ++ [.send c true]

def verifyCode (c created : Nat) : List SignInAction :=
  .begin c (.verify (100 + created) "123456") ::
    List.replicate 6 (.advance c)

/- One of two verifications at once gets the session. -/
def sampleSignIn : List SignInAction :=
  askForCode 0 ++ createCode 0 ++
    [.begin 2 (.verify 100 "123456"), .advance 2] ++
      verifyCode 1 0 ++ [.advance 2, .advance 2] ++
        [.begin 3 (.cleanUp 0), .advance 3, .advance 3]

theorem sample_sign_in_within_limits :
    ∃ s,
      (signInSystem sampleMatchesHash).perform sampleUsers
          sampleSignIn =
          some s ∧
        s.sessions.length = 1 ∧
          (∀ codeID,
            countEvents codeID s.ledger.compared ≤ 5) ∧
            SlidingWindow.countWithin (-1) Duration.hour
                (createdFor s.ledger 1) ≤
              5 := by
  have hSome :
      (((signInSystem sampleMatchesHash).perform sampleUsers
        sampleSignIn).any fun s => s.sessions.length = 1) =
        true := by
    decide +kernel
  have hSpares :
      (signInSystem sampleMatchesHash).MeetsAlong
        (fun s action => cleanUpSpares s action = true)
        sampleUsers sampleSignIn := by
    decide +kernel
  rcases (Option.any_eq_true _ _).mp hSome with
    ⟨s, hRun, hSessions⟩
  rcases
    sign_in_limits_hold sampleMatchesHash sampleUsers
      sampleUsers_startsEmpty sampleSignIn s hRun with
    ⟨hOnce, _, hCap⟩
  exact
    ⟨s, hRun, of_decide_eq_true hSessions,
      fun codeID => (hOnce codeID).1, hCap hSpares 1 (-1)⟩

/- Five codes, each of which expires before the next one. -/
def fiveCodes : List SignInAction :=
  (List.range 5).flatMap fun c =>
    askForCode c ++ createCode c ++
      [.tick (11 * 60000000000)]

/-
  A sixth request reads the clock while all five lie within
  the hour.  A clean-up then deletes the first of them, before
  the request counts.
-/
def overtakenCount : List SignInAction :=
  fiveCodes ++ [.tick (5 * 60000000000 - 1)] ++
    askForCode 5 ++
      [.tick 2, .begin 6 (.cleanUp (60 * 60000000000 + 1)),
        .advance 6, .advance 6, .advance 6] ++
        createCode 5

/- Six codes are created within one hour. -/
theorem overtaken_count_exceeds_cap :
    StartsEmpty sampleUsers ∧
      ∃ s,
        (signInSystem sampleMatchesHash).perform sampleUsers
            overtakenCount =
            some s ∧
          SlidingWindow.countWithin (-1) Duration.hour
              (createdFor s.ledger 1) =
            6 := by
  refine ⟨sampleUsers_startsEmpty, ?_⟩
  have hSix :
      (((signInSystem sampleMatchesHash).perform sampleUsers
        overtakenCount).any fun s =>
          SlidingWindow.countWithin (-1) Duration.hour
              (createdFor s.ledger 1) =
            6) =
        true := by
    decide +kernel
  rcases (Option.any_eq_true _ _).mp hSix with
    ⟨s, hRun, hCount⟩
  exact ⟨s, hRun, of_decide_eq_true hCount⟩

end SignIn

end Users

end Databasus
