import Mathlib.Logic.Function.Basic
import Databasus.Foundation.Runs
import Databasus.Foundation.SlidingWindow
import Databasus.Users.EmailedCodes

/-
  Resetting a password with an emailed code.

  A request counts the user's codes of the last hour and then
  stores a new one.  A completion picks the newest code, claims
  an attempt, compares and spends it.  Neither locks the user.
  A limiter in memory counts requests until a restart.

  Main declarations:
    * `ResetCode`
    * `Stage`, `ResetState`
    * `recordAttemptAndCheckIsAllowed`
    * `issueResetCode`, `completeReset`
    * `resetSystem`
-/

------------------------------------------------------------
-- Requests
------------------------------------------------------------

namespace Databasus

namespace Users

namespace PasswordReset

open Foundation

/- A reset code is bound to nothing but its user. -/
abbrev ResetCode := EmailedCode Unit

def resetCodeLifetime : Duration := Duration.hour

/- Of one email address, in the memory of the process. -/
def requestRateLimit : Nat := 3

def requestRateLimitWindow : Duration := Duration.hour

/- Of one user, by the codes in the database. -/
def maxResetCodesPerHour : Nat := 3

def resetCodeRetention : Duration := Duration.hour

def minPasswordLength : Nat := 8

def isPasswordLongEnough (password : String) : Bool :=
  minPasswordLength ≤ password.length

inductive Request
  | requestReset (email : String)
  | completeReset (email code newPassword : String)
  | cleanUp (jobNow : Time)
deriving DecidableEq, Repr

/- Whose codes of the hour before an instant are counted. -/
structure Allowance where
  userID : Uuid
  readAt : Time
deriving DecidableEq, Repr

def Allowance.since (allowance : Allowance) : Time :=
  allowance.readAt - Duration.hour

/- A value given for a code, to let a user in again. -/
structure Guess where
  code : ResetCode
  given : String
  userID : Uuid
deriving DecidableEq, Repr

/- What the new password is stored as. -/
structure Replacement where
  hashedPassword : String
  version : Uuid
deriving DecidableEq, Repr

inductive Stage
  | idle
  | limiting (email : String)
  | finding (email : String)
  | issuing (userID : Uuid)
  | counting (allowance : Allowance)
  | generating (allowance : Allowance)
  | inserting (code : ResetCode)
  | completing (email given newPassword : String)
  | picking (userID : Uuid) (given : String)
  | claiming (guess : Guess)
  | comparing (guess : Guess)
  | hashing (guess : Guess)
  | spending (guess : Guess) (replacement : Replacement)
  | spent (guess : Guess) (replacement : Replacement)
  | cleaning (cutoff : Time)
  | deleting (cutoff : Time) (remaining deleted : List Uuid)
  | over
deriving DecidableEq, Repr

/- A reset, and the codes that had been stored by then. -/
structure Reset where
  code : ResetCode
  storedThen : List ResetCode
deriving DecidableEq, Repr

/- `attempts` is what the limiter keeps of each address. -/
structure ResetState where
  now : Time
  users : List UserRecord
  isMailerConfigured : Bool
  attempts : String → List Time := fun _ => []
  ledger : CodeLedger Unit
  calls : Nat → Stage := fun _ => .idle
  begun : List Nat := []
  resets : List Reset := []

------------------------------------------------------------
-- Steps of Requests
------------------------------------------------------------

namespace ResetState

variable (s : ResetState)
variable (c : Nat)

def setStage
    (stage : Stage) : ResetState :=
  { s with calls := Function.update s.calls c stage }

def withLedger
    (ledger : CodeLedger Unit) : ResetState :=
  { s with ledger := ledger }

/- The request ends, and a transaction of it rolls back. -/
def refuse : ResetState :=
  { s with
    ledger := s.ledger.rollback c
    calls := Function.update s.calls c .over }

end ResetState

variable (matchesHash : String → String → Bool)
variable (isEmailAddress : String → Bool)
variable (s : ResetState)
variable (c : Nat)

/- A refused attempt is kept too, among the latest ones. -/
def recordAttemptAndCheckIsAllowed
    (email : String) : ResetState × Bool :=
  let windowStart := s.now - requestRateLimitWindow
  let recent :=
    (s.attempts email).filter (fun recordedAt =>
      windowStart < recordedAt) ++ [s.now]
  let kept :=
    recent.drop (recent.length - (requestRateLimit + 1))
  ({ s with attempts := Function.update s.attempts email kept },
    kept.length ≤ requestRateLimit)

/- Only an active user with an address is sent a code. -/
def requestReset : Stage → Option ResetState
  | .limiting email =>
      match recordAttemptAndCheckIsAllowed s email with
      | (counted, true) =>
          some (counted.setStage c (.finding email))
      | (counted, false) => some (counted.refuse c)
  | .finding email =>
      match findByEmail s.users email with
      | none => some (s.refuse c)
      | some user =>
          if
            user.isActive && s.isMailerConfigured &&
              isEmailAddress user.email
          then
            some (s.setStage c (.issuing user.id))
          else
            some (s.refuse c)
  | _ => none

/- The mail that follows the insertion touches no code. -/
def issueResetCode : Stage → Option ResetState
  | .issuing userID =>
      some
        (s.setStage c
          (.counting { userID := userID, readAt := s.now }))
  | .counting allowance =>
      if
        maxResetCodesPerHour ≤
          countCreatedSince s.ledger c allowance.userID
            allowance.since
      then
        some (s.refuse c)
      else
        some (s.setStage c (.generating allowance))
  | .inserting code =>
      match insertCode s.ledger c code with
      | none => none
      | some ledger =>
          some
            ((s.withLedger
              (ledger.commitInsert c code)).setStage c .over)
  | _ => none

def generateCode
    (allowance : Allowance)
    (newID : Uuid)
    (hashedCode : String) : ResetState :=
  s.setStage c
    (.inserting
      { id := newID
        userID := allowance.userID
        hashedCode := hashedCode
        boundTo := ()
        expiresAt := allowance.readAt + resetCodeLifetime
        isUsed := false
        failedAttemptCount := 0
        createdAt := allowance.readAt })

/- The code issued to the user last, whatever its state. -/
def getNewest
    (userID : Uuid) : Option ResetCode :=
  Table.firstBy EmailedCode.newestFirst
    (fun code => code.userID = userID)
    (s.ledger.visible c)

def completeReset : Stage → Option ResetState
  | .completing email given newPassword =>
      if isPasswordLongEnough newPassword then
        match findByEmail s.users email with
        | none => some (s.refuse c)
        | some user =>
            if user.isActive then
              some (s.setStage c (.picking user.id given))
            else
              some (s.refuse c)
      else
        some (s.refuse c)
  | .picking userID given =>
      match getNewest s c userID with
      | none => some (s.refuse c)
      | some code =>
          some
            (s.setStage c
              (.claiming
                { code := code
                  given := given
                  userID := userID }))
  | .claiming guess =>
      match claimAttempt s.ledger c guess.code.id s.now with
      | none => none
      | some (ledger, none) =>
          some ((s.withLedger ledger).refuse c)
      | some (ledger, some _) =>
          some
            ((s.withLedger ledger).setStage c
              (.comparing guess))
  | .comparing guess =>
      let compared :=
        s.withLedger (s.ledger.compare c guess.code.id)
      if matchesHash guess.code.hashedCode guess.given then
        some (compared.setStage c (.hashing guess))
      else
        some (compared.refuse c)
  | .spending guess replacement =>
      match spend s.ledger c guess.code.id s.now with
      | none => none
      | some (ledger, false) =>
          some ((s.withLedger ledger).refuse c)
      | some (ledger, true) =>
          some
            ((s.withLedger ledger).setStage c
              (.spent guess replacement))
  | .spent guess replacement =>
      some
        (ResetState.setStage
          { s with
            users :=
              replacePassword guess.userID
                replacement.hashedPassword
                replacement.version s.users
            ledger := s.ledger.complete c guess.code.id
            resets :=
              { code := guess.code
                storedThen := s.ledger.created } ::
                s.resets } c
          .over)
  | _ => none

/- The deletion is one statement, which locks row by row. -/
def deleteResetCodes : Stage → Option ResetState
  | .cleaning cutoff =>
      some
        (s.setStage c
          (.deleting cutoff
            (createdBefore s.ledger c cutoff) []))
  | .deleting cutoff (codeID :: rest) deleted =>
      match deleteNext s.ledger c codeID with
      | none => none
      | some ledger =>
          some
            ((s.withLedger ledger).setStage c
              (.deleting cutoff rest (deleted ++ [codeID])))
  | .deleting _ [] _ =>
      some
        ((s.withLedger (s.ledger.commitDelete c)).setStage c
          .over)
  | _ => none

/- The next step of a request, or none while it waits. -/
def advance : Option ResetState :=
  match requestReset isEmailAddress s c (s.calls c) with
  | some s' => some s'
  | none =>
      match issueResetCode s c (s.calls c) with
      | some s' => some s'
      | none =>
          match completeReset matchesHash s c (s.calls c) with
          | some s' => some s'
          | none => deleteResetCodes s c (s.calls c)

------------------------------------------------------------
-- The System
------------------------------------------------------------

/- The clean-up job reads the clock before it is run. -/
def beginRequest
    (s : ResetState)
    (c : Nat)
    (request : Request) : ResetState :=
  let opened : ResetState := { s with begun := c :: s.begun }
  match request with
  | .requestReset email => opened.setStage c (.limiting email)
  | .completeReset email code newPassword =>
      opened.setStage c (.completing email code newPassword)
  | .cleanUp jobNow =>
      opened.setStage c
        (.cleaning (jobNow - resetCodeRetention))

/- Every request ends, and the limiter has lost its counts. -/
def restart (s : ResetState) : ResetState :=
  { s.begun.foldl ResetState.refuse s with
    attempts := fun _ => [] }

inductive ResetAction
  | tick (elapsed : Nat)
  | setActive (userID : Uuid) (isActive : Bool)
  | begin (c : Nat) (request : Request)
  | generate (c : Nat) (newID : Uuid) (hashedCode : String)
  | hash (c : Nat) (replacement : Replacement)
  | advance (c : Nat)
  | fail (c : Nat)
  | restart
deriving DecidableEq, Repr

def Request.isTimely
    (now : Time) : Request → Bool
  | .cleanUp jobNow => jobNow ≤ now
  | _ => true

def setActive
    (s : ResetState)
    (userID : Uuid)
    (isActive : Bool) : ResetState :=
  { s with
    users :=
      Table.updateWhere (fun user => user.id = userID)
        (fun user => { user with isActive := isActive })
        s.users }

def step
    (matchesHash : String → String → Bool)
    (isEmailAddress : String → Bool)
    (s : ResetState) :
    ResetAction → Option ResetState
  | .tick elapsed => some { s with now := s.now + elapsed }
  | .setActive userID isActive =>
      some (setActive s userID isActive)
  | .begin c request =>
      if s.calls c = .idle && request.isTimely s.now then
        some (beginRequest s c request)
      else
        none
  | .generate c newID hashedCode =>
      match s.calls c with
      | .generating allowance =>
          some (generateCode s c allowance newID hashedCode)
      | _ => none
  | .hash c replacement =>
      match s.calls c with
      | .hashing guess =>
          some (s.setStage c (.spending guess replacement))
      | _ => none
  | .advance c => advance matchesHash isEmailAddress s c
  | .fail c =>
      if s.calls c = .idle || s.calls c = .over then
        none
      else
        some (s.refuse c)
  | .restart => some (restart s)

/- No reset code was created yet. -/
structure StartsEmpty
    (s : ResetState) : Prop where
  ledger : s.ledger = { codes := { rows := [] }, usedIDs := [] }
  calls : ∀ c, s.calls c = .idle
  resets : s.resets = []

def resetSystem
    (matchesHash : String → String → Bool)
    (isEmailAddress : String → Bool) :
    TransitionSystem ResetState ResetAction where
  initial := StartsEmpty
  step := step matchesHash isEmailAddress

end PasswordReset

end Users

end Databasus
