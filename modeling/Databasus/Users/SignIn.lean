import Mathlib.Logic.Function.Basic
import Databasus.Foundation.Runs
import Databasus.Foundation.SlidingWindow
import Databasus.Users.EmailedCodes

/-
  Signing in with a password and an emailed code.

  A password step creates a pending sign-in, or hands back a
  live one.  A verification claims an attempt, compares the
  code and spends the pending sign-in.  A clean-up deletes the
  old ones.  Every request may fail anywhere.

  Main declarations:
    * `PendingSignIn`
    * `Stage`, `SignInState`
    * `createPendingSignIn`, `verifySignInCode`
    * `signInSystem`
-/

------------------------------------------------------------
-- Requests
------------------------------------------------------------

namespace Databasus

namespace Users

namespace SignIn

open Foundation

/- It is bound to the version of the password it began with. -/
abbrev PendingSignIn := EmailedCode Uuid

def signInCodeLifetime : Duration := 10 * Duration.minute

/- The hour that the cap counts over, and the clean-up keeps. -/
def pendingSignInRetention : Duration := Duration.hour

def maxSignInCodesPerHour : Nat := 5

inductive Request
  | signIn (email password : String)
  | verify (pendingSignInID : Uuid) (code : String)
  | resend (pendingSignInID : Uuid)
  | cleanUp (jobNow : Time)
deriving DecidableEq, Repr

/- A password that its user has changed since. -/
structure RetiredPassword where
  userID : Uuid
  version : Uuid
deriving DecidableEq, Repr

/- A verification, and the passwords changed before it. -/
structure Verification where
  code : String
  retiredThen : List RetiredPassword
deriving DecidableEq, Repr

/- A new pending sign-in, and what it was asked for. -/
structure Creation where
  pendingSignIn : PendingSignIn
  shouldReuseLiveCode : Bool
  resentID : Option Uuid
deriving DecidableEq, Repr

inductive Stage
  | idle
  | verifyingPassword (email password : String)
  | issuing
      (user : UserRecord)
      (shouldReuseLiveCode : Bool)
      (resentID : Option Uuid)
  | waitingForUser (creation : Creation)
  | userLocked (creation : Creation)
  | counting (creation : Creation)
  | inserting (creation : Creation)
  | inserted (creation : Creation)
  | sending (creation : Creation)
  | marking (pendingSignInID : Uuid)
  | loading
      (verification : Verification)
      (pendingSignInID : Uuid)
  | loadingUser
      (verification : Verification)
      (pendingSignIn : PendingSignIn)
  | claiming
      (verification : Verification)
      (pendingSignIn : PendingSignIn)
  | comparing
      (verification : Verification)
      (pendingSignIn : PendingSignIn)
  | spending
      (verification : Verification)
      (pendingSignIn : PendingSignIn)
  | spent
      (verification : Verification)
      (pendingSignIn : PendingSignIn)
  | resending (pendingSignInID : Uuid)
  | resendingUser (pendingSignIn : PendingSignIn)
  | cleaning (cutoff : Time)
  | deleting (cutoff : Time) (remaining deleted : List Uuid)
  | over
deriving DecidableEq, Repr

/- A creation whose time is set, and that was not counted. -/
def Stage.uncounted : Stage → Option Creation
  | .waitingForUser creation => some creation
  | .userLocked creation => some creation
  | .counting creation => some creation
  | _ => none

/- A session, and what its verification had begun with. -/
structure SignedIn where
  pendingSignIn : PendingSignIn
  retiredThen : List RetiredPassword
deriving DecidableEq, Repr

/- `userLocks` are the advisory locks of users. -/
structure SignInState where
  now : Time
  users : List UserRecord
  isTwoFactorAuthRequired : Bool
  usedVersions : List Uuid
  retired : List RetiredPassword := []
  ledger : CodeLedger Uuid
  userLocks : List (RowLock Nat Uuid) := []
  calls : Nat → Stage := fun _ => .idle
  begun : List Nat := []
  sessions : List SignedIn := []

------------------------------------------------------------
-- Steps of Requests
------------------------------------------------------------

namespace SignInState

variable (s : SignInState)
variable (c : Nat)

def setStage
    (stage : Stage) : SignInState :=
  { s with calls := Function.update s.calls c stage }

def withLedger
    (ledger : CodeLedger Uuid) : SignInState :=
  { s with ledger := ledger }

/- The request ends, and a transaction of it rolls back. -/
def refuse : SignInState :=
  { s with
    ledger := s.ledger.rollback c
    userLocks := RowLock.release s.userLocks c
    calls := Function.update s.calls c .over }

def findUser
    (userID : Uuid) : Option UserRecord :=
  Table.lookup UserRecord.id userID s.users

end SignInState

variable (matchesHash : String → String → Bool)
variable (s : SignInState)
variable (c : Nat)

/- A live one that the same password has started. -/
def getLive
    (new : PendingSignIn) : Option PendingSignIn :=
  Table.firstBy EmailedCode.newestFirst
    (fun live =>
      live.userID = new.userID &&
        live.boundTo = new.boundTo &&
          live.isClaimable new.createdAt)
    (s.ledger.visible c)

/- A password step: one answer for all that is wrong. -/
def verifyPassword
    (email password : String) : SignInState :=
  match findByEmail s.users email with
  | none => s.refuse c
  | some user =>
      if user.isInvited then
        s.refuse c
      else
        match user.hashedPassword with
        | none => s.refuse c
        | some hashedPassword =>
            if
              matchesHash hashedPassword password &&
                user.isActive && s.isTwoFactorAuthRequired
            then
              s.setStage c (.issuing user true none)
            else
              s.refuse c

/- The clock is read before anything is locked. -/
def issueSignInCode
    (user : UserRecord)
    (shouldReuseLiveCode : Bool)
    (resentID : Option Uuid)
    (newID : Uuid)
    (hashedCode : String) : SignInState :=
  s.setStage c
    (.waitingForUser
      { pendingSignIn :=
          { id := newID
            userID := user.id
            hashedCode := hashedCode
            boundTo := user.passwordVersion
            expiresAt := s.now + signInCodeLifetime
            isUsed := false
            failedAttemptCount := 0
            createdAt := s.now }
        shouldReuseLiveCode := shouldReuseLiveCode
        resentID := resentID })

/- The statements of the transaction, one after another. -/
def createPendingSignIn : Stage → Option SignInState
  | .waitingForUser creation =>
      match
        RowLock.acquire s.userLocks c
          creation.pendingSignIn.userID .update
      with
      | none => none
      | some userLocks =>
          some
            (SignInState.setStage
              { s with userLocks := userLocks } c
              (.userLocked creation))
  | .userLocked creation =>
      if creation.shouldReuseLiveCode then
        match getLive s c creation.pendingSignIn with
        | some _ => some (s.refuse c)
        | none => some (s.setStage c (.counting creation))
      else
        some (s.setStage c (.counting creation))
  | .counting creation =>
      if
        maxSignInCodesPerHour ≤
          countCreatedSince s.ledger c
            creation.pendingSignIn.userID
            (creation.pendingSignIn.createdAt -
              pendingSignInRetention)
      then
        some (s.refuse c)
      else
        some (s.setStage c (.inserting creation))
  | .inserting creation =>
      match insertCode s.ledger c creation.pendingSignIn with
      | none => none
      | some ledger =>
          some
            ((s.withLedger ledger).setStage c
              (.inserted creation))
  | .inserted creation =>
      some
        (SignInState.setStage
          { s with
            ledger :=
              s.ledger.commitInsert c creation.pendingSignIn
            userLocks := RowLock.release s.userLocks c } c
          (.sending creation))
  | _ => none

/- An unsent code is discarded, and a resent one replaced. -/
def sendCode
    (creation : Creation)
    (isSent : Bool) : SignInState :=
  if isSent then
    match creation.resentID with
    | none => s.setStage c .over
    | some resentID => s.setStage c (.marking resentID)
  else
    s.setStage c (.marking creation.pendingSignIn.id)

def markPendingSignIn
    (pendingSignInID : Uuid) : Option SignInState :=
  match markUsed s.ledger c pendingSignInID with
  | none => none
  | some ledger =>
      some ((s.withLedger ledger).setStage c .over)

/- A pending sign-in that can be used right now. -/
def loadPendingSignIn
    (pendingSignInID : Uuid)
    (next : PendingSignIn → Stage) : SignInState :=
  match
    Table.lookup EmailedCode.id pendingSignInID
      (s.ledger.visible c)
  with
  | none => s.refuse c
  | some pendingSignIn =>
      if pendingSignIn.isClaimable s.now then
        s.setStage c (next pendingSignIn)
      else
        s.refuse c

/- The user is active, with the password it began with. -/
def loadUser
    (pendingSignIn : PendingSignIn)
    (next : UserRecord → Stage) : SignInState :=
  match s.findUser pendingSignIn.userID with
  | none => s.refuse c
  | some user =>
      if
        user.isActive &&
          user.passwordVersion = pendingSignIn.boundTo
      then
        s.setStage c (next user)
      else
        s.refuse c

def verifySignInCode : Stage → Option SignInState
  | .loading verification pendingSignInID =>
      some
        (loadPendingSignIn s c pendingSignInID
          (.loadingUser verification))
  | .loadingUser verification pendingSignIn =>
      some
        (loadUser s c pendingSignIn fun _ =>
          .claiming verification pendingSignIn)
  | .claiming verification pendingSignIn =>
      match claimAttempt s.ledger c pendingSignIn.id s.now with
      | none => none
      | some (ledger, none) =>
          some ((s.withLedger ledger).refuse c)
      | some (ledger, some _) =>
          some
            ((s.withLedger ledger).setStage c
              (.comparing verification pendingSignIn))
  | .comparing verification pendingSignIn =>
      let compared :=
        s.withLedger (s.ledger.compare c pendingSignIn.id)
      if
        matchesHash pendingSignIn.hashedCode verification.code
      then
        some
          (compared.setStage c
            (.spending verification pendingSignIn))
      else
        some (compared.refuse c)
  | .spending verification pendingSignIn =>
      match spend s.ledger c pendingSignIn.id s.now with
      | none => none
      | some (ledger, false) =>
          some ((s.withLedger ledger).refuse c)
      | some (ledger, true) =>
          some
            ((s.withLedger ledger).setStage c
              (.spent verification pendingSignIn))
  | .spent verification pendingSignIn =>
      some
        (SignInState.setStage
          { s with
            ledger := s.ledger.complete c pendingSignIn.id
            sessions :=
              { pendingSignIn := pendingSignIn
                retiredThen := verification.retiredThen } ::
                s.sessions } c
          .over)
  | _ => none

/- The deletion is one statement, which locks row by row. -/
def deletePendingSignIns : Stage → Option SignInState
  | .cleaning cutoff =>
      some
        (s.setStage c
          (.deleting cutoff
            (createdBefore s.ledger c cutoff) []))
  | .deleting cutoff (pendingSignInID :: rest) deleted =>
      match deleteNext s.ledger c pendingSignInID with
      | none => none
      | some ledger =>
          some
            ((s.withLedger ledger).setStage c
              (.deleting cutoff rest
                (deleted ++ [pendingSignInID])))
  | .deleting _ [] _ =>
      some
        ((s.withLedger (s.ledger.commitDelete c)).setStage c
          .over)
  | _ => none

/- The next step of a request, or none while it waits. -/
def advance : Option SignInState :=
  match s.calls c with
  | .verifyingPassword email password =>
      some (verifyPassword matchesHash s c email password)
  | .marking pendingSignInID =>
      markPendingSignIn s c pendingSignInID
  | .resending pendingSignInID =>
      some
        (loadPendingSignIn s c pendingSignInID .resendingUser)
  | .resendingUser pendingSignIn =>
      some
        (loadUser s c pendingSignIn fun user =>
          .issuing user false (some pendingSignIn.id))
  | stage =>
      match createPendingSignIn s c stage with
      | some s' => some s'
      | none =>
          match verifySignInCode matchesHash s c stage with
          | some s' => some s'
          | none => deletePendingSignIns s c stage

------------------------------------------------------------
-- The System
------------------------------------------------------------

/- The clean-up job reads the clock before it is run. -/
def beginRequest
    (s : SignInState)
    (c : Nat)
    (request : Request) : SignInState :=
  let opened : SignInState := { s with begun := c :: s.begun }
  match request with
  | .signIn email password =>
      opened.setStage c (.verifyingPassword email password)
  | .verify pendingSignInID code =>
      opened.setStage c
        (.loading
          { code := code, retiredThen := s.retired }
          pendingSignInID)
  | .resend pendingSignInID =>
      opened.setStage c (.resending pendingSignInID)
  | .cleanUp jobNow =>
      opened.setStage c
        (.cleaning (jobNow - pendingSignInRetention))

/- A new password has a version that no other had. -/
def changePassword
    (s : SignInState)
    (userID : Uuid)
    (hashedPassword : String)
    (version : Uuid) : SignInState :=
  { s with
    users :=
      replacePassword userID hashedPassword version s.users
    usedVersions := version :: s.usedVersions
    retired :=
      ((s.users.filter fun user => user.id = userID).map
        fun user =>
          { userID := userID
            version := user.passwordVersion }) ++
        s.retired }

def setActive
    (s : SignInState)
    (userID : Uuid)
    (isActive : Bool) : SignInState :=
  { s with
    users :=
      Table.updateWhere (fun user => user.id = userID)
        (fun user => { user with isActive := isActive })
        s.users }

inductive SignInAction
  | tick (elapsed : Nat)
  | requireTwoFactor (isRequired : Bool)
  | changePassword
      (userID : Uuid)
      (hashedPassword : String)
      (version : Uuid)
  | setActive (userID : Uuid) (isActive : Bool)
  | begin (c : Nat) (request : Request)
  | issue (c : Nat) (newID : Uuid) (hashedCode : String)
  | send (c : Nat) (isSent : Bool)
  | advance (c : Nat)
  | fail (c : Nat)
deriving DecidableEq, Repr

def Request.isTimely
    (now : Time) : Request → Bool
  | .cleanUp jobNow => jobNow ≤ now
  | _ => true

def step
    (matchesHash : String → String → Bool)
    (s : SignInState) :
    SignInAction → Option SignInState
  | .tick elapsed => some { s with now := s.now + elapsed }
  | .requireTwoFactor isRequired =>
      some { s with isTwoFactorAuthRequired := isRequired }
  | .changePassword userID hashedPassword version =>
      if version ∈ s.usedVersions then
        none
      else
        some (changePassword s userID hashedPassword version)
  | .setActive userID isActive =>
      some (setActive s userID isActive)
  | .begin c request =>
      if s.calls c = .idle && request.isTimely s.now then
        some (beginRequest s c request)
      else
        none
  | .issue c newID hashedCode =>
      match s.calls c with
      | .issuing user shouldReuseLiveCode resentID =>
          some
            (issueSignInCode s c user shouldReuseLiveCode
              resentID newID hashedCode)
      | _ => none
  | .send c isSent =>
      match s.calls c with
      | .sending creation => some (sendCode s c creation isSent)
      | _ => none
  | .advance c => advance matchesHash s c
  | .fail c =>
      if s.calls c = .idle || s.calls c = .over then
        none
      else
        some (s.refuse c)

/- No pending sign-in was created yet. -/
structure StartsEmpty
    (s : SignInState) : Prop where
  versions :
    ∀ user ∈ s.users, user.passwordVersion ∈ s.usedVersions
  retired : s.retired = []
  ledger : s.ledger = { codes := { rows := [] }, usedIDs := [] }
  userLocks : s.userLocks = []
  calls : ∀ c, s.calls c = .idle
  sessions : s.sessions = []

def signInSystem
    (matchesHash : String → String → Bool) :
    TransitionSystem SignInState SignInAction where
  initial := StartsEmpty
  step := step matchesHash

end SignIn

end Users

end Databasus
