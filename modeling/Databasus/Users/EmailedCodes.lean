import Databasus.Common
import Databasus.Foundation.ReadCommitted

/-
  Codes that are emailed to users, and what is done to them.

  A sign-in code and a reset code live in tables of the same
  shape, under statements of the same wording.  The ledger
  keeps such a table, and beside it a record of what was done
  to which code.

  Main declarations:
    * `UserRecord`, `replacePassword`
    * `EmailedCode`, `newestFirst`
    * `CodeLedger`
    * `claimAttempt`, `spend`, `markUsed`
    * `insertCode`, `deleteNext`
    * `countCreatedSince`
-/

------------------------------------------------------------
-- Users
------------------------------------------------------------

namespace Databasus

namespace Users

open Foundation

structure UserRecord where
  id : Uuid
  email : String
  hashedPassword : Option String
  passwordVersion : Uuid
  isInvited : Bool
  isActive : Bool
deriving DecidableEq, Repr

def findByEmail
    (users : List UserRecord)
    (email : String) : Option UserRecord :=
  users.find? fun user => user.email = email

/- A password that is replaced gets a version of its own. -/
def replacePassword
    (userID : Uuid)
    (hashedPassword : String)
    (version : Uuid)
    (users : List UserRecord) : List UserRecord :=
  Table.updateWhere (fun user => user.id = userID)
    (fun user =>
      { user with
        hashedPassword := some hashedPassword
        passwordVersion := version })
    users

------------------------------------------------------------
-- Codes
------------------------------------------------------------

/- How many codes are compared before one stops working. -/
def maxCodeAttempts : Nat := 5

/- Of a code only its hash is stored, with what it is for. -/
structure EmailedCode (α : Type) where
  id : Uuid
  userID : Uuid
  hashedCode : String
  boundTo : α
  expiresAt : Time
  isUsed : Bool
  failedAttemptCount : Nat
  createdAt : Time
deriving DecidableEq, Repr

namespace EmailedCode

variable {α : Type}

/- The condition of the statement that spends a code. -/
def isOpen
    (now : Time)
    (code : EmailedCode α) : Bool :=
  !code.isUsed && now < code.expiresAt

/- The condition of the statement that claims an attempt. -/
def isClaimable
    (now : Time)
    (code : EmailedCode α) : Bool :=
  code.isOpen now && code.failedAttemptCount < maxCodeAttempts

def isCreatedSince
    (userID : Uuid)
    (since : Time)
    (code : EmailedCode α) : Bool :=
  code.userID = userID && since < code.createdAt

/- Those created last come first, and then go by their IDs. -/
def newestFirst
    (first second : EmailedCode α) : Prop :=
  second.createdAt < first.createdAt ∨
    first.createdAt = second.createdAt ∧ first.id ≤ second.id

instance instDecidableNewestFirst :
    DecidableRel (@newestFirst α) :=
  fun first second =>
    inferInstanceAs
      (Decidable
        (second.createdAt < first.createdAt ∨
          first.createdAt = second.createdAt ∧
            first.id ≤ second.id))

/- The same code, whatever has been done to it. -/
structure SameCode
    (first second : EmailedCode α) : Prop where
  id : second.id = first.id
  userID : second.userID = first.userID
  hashedCode : second.hashedCode = first.hashedCode
  boundTo : second.boundTo = first.boundTo
  expiresAt : second.expiresAt = first.expiresAt
  createdAt : second.createdAt = first.createdAt

end EmailedCode

------------------------------------------------------------
-- The Ledger
------------------------------------------------------------

/- A call that has done something to a code. -/
structure CodeEvent where
  codeID : Uuid
  call : Nat
deriving DecidableEq, Repr

/-
  The table, the IDs given out, and the attempts, comparisons,
  completions and creations so far, the last one first.
-/
structure CodeLedger (α : Type) where
  codes : Store Nat Uuid (EmailedCode α)
  usedIDs : List Uuid
  claims : List CodeEvent := []
  compared : List CodeEvent := []
  completed : List CodeEvent := []
  created : List (EmailedCode α) := []

variable {α : Type}
variable (ledger : CodeLedger α)
variable (c : Nat)

namespace CodeLedger

/- What a statement of the call sees. -/
def visible : List (EmailedCode α) :=
  ledger.codes.view c EmailedCode.id

def rollback : CodeLedger α :=
  { ledger with codes := ledger.codes.rollback c }

/- A comparison of the hash; it touches no row. -/
def compare
    (codeID : Uuid) : CodeLedger α :=
  { ledger with
    compared :=
      { codeID := codeID, call := c } :: ledger.compared }

/- The transaction that has spent the code commits. -/
def complete
    (codeID : Uuid) : CodeLedger α :=
  { ledger with
    codes := ledger.codes.commit c EmailedCode.id
    completed :=
      { codeID := codeID, call := c } :: ledger.completed }

/- The transaction that has inserted the code commits. -/
def commitInsert
    (code : EmailedCode α) : CodeLedger α :=
  { ledger with
    codes := ledger.codes.commit c EmailedCode.id
    created := code :: ledger.created }

def commitDelete : CodeLedger α :=
  { ledger with
    codes := ledger.codes.commit c EmailedCode.id }

end CodeLedger

/- The row under the lock, if it meets the condition. -/
def lockWhere
    (codeID : Uuid)
    (condition : EmailedCode α → Bool) :
    Option
      (Store Nat Uuid (EmailedCode α) ×
        Option (EmailedCode α)) :=
  match ledger.codes.lockRow c codeID .noKeyUpdate with
  | none => none
  | some codes =>
      some
        (codes,
          (Table.lookup EmailedCode.id codeID
            (codes.view c EmailedCode.id)).filter condition)

/- One attempt more, or none when the code takes no more. -/
def claimAttempt
    (codeID : Uuid)
    (now : Time) : Option (CodeLedger α × Option Nat) :=
  match
    lockWhere ledger c codeID (EmailedCode.isClaimable now)
  with
  | none => none
  | some (codes, none) =>
      some
        ({ ledger with codes := codes.rollback c }, none)
  | some (codes, some code) =>
      let attemptCount := code.failedAttemptCount + 1
      some
        ({ ledger with
            codes :=
              codes.autocommit c EmailedCode.id
                (.update
                  { code with
                    failedAttemptCount := attemptCount })
            claims :=
              { codeID := codeID, call := c } ::
                ledger.claims },
          some attemptCount)

/- Whether a row was marked used; it is not committed yet. -/
def spend
    (codeID : Uuid)
    (now : Time) : Option (CodeLedger α × Bool) :=
  match lockWhere ledger c codeID (EmailedCode.isOpen now) with
  | none => none
  | some (codes, none) =>
      some ({ ledger with codes := codes }, false)
  | some (codes, some code) =>
      some
        ({ ledger with
            codes :=
              codes.write c
                (.update { code with isUsed := true }) },
          true)

def markUsed
    (codeID : Uuid) : Option (CodeLedger α) :=
  match lockWhere ledger c codeID (fun _ => true) with
  | none => none
  | some (codes, none) =>
      some { ledger with codes := codes.rollback c }
  | some (codes, some code) =>
      some
        { ledger with
          codes :=
            codes.autocommit c EmailedCode.id
              (.update { code with isUsed := true }) }

/- A new ID is never one that was given out before. -/
def insertCode
    (code : EmailedCode α) : Option (CodeLedger α) :=
  if code.id ∈ ledger.usedIDs then
    none
  else
    some
      { ledger with
        codes := ledger.codes.write c (.insert code)
        usedIDs := code.id :: ledger.usedIDs }

def countCreatedSince
    (userID : Uuid)
    (since : Time) : Nat :=
  (ledger.visible c).countP
    (EmailedCode.isCreatedSince userID since)

/- The rows that a clean-up finds when it begins. -/
def createdBefore
    (cutoff : Time) : List Uuid :=
  ((ledger.visible c).filter fun code =>
    code.createdAt < cutoff).map EmailedCode.id

/- The clean-up deletes its rows one after another. -/
def deleteNext
    (codeID : Uuid) : Option (CodeLedger α) :=
  match ledger.codes.lockRow c codeID .update with
  | none => none
  | some codes =>
      some
        { ledger with
          codes := codes.write c (.delete codeID) }

end Users

end Databasus
