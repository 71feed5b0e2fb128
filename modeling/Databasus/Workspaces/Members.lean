import Mathlib.Logic.Function.Basic
import Databasus.Common
import Databasus.Foundation.ReadCommitted
import Databasus.Foundation.Runs

/-
  The members of workspaces, and the calls that change them.

  Each call is one transaction.  It locks the rows that it
  looks at, changes them, records an audit event and commits;
  it may fail anywhere, and then nothing of it remains.

  Main declarations:
    * `Role`, `Member`
    * `Request`, `Stage`, `MembersState`
    * `lockOwner`, `lockByID`, `updateRole`
    * `advance`
    * `membersSystem`
-/

------------------------------------------------------------
-- Members
------------------------------------------------------------

namespace Databasus

namespace Workspaces

open Foundation

inductive Role
  | owner
  | admin
  | member
  | viewer
deriving DecidableEq, Repr

/- The owner role changes hands only through a transfer. -/
def Role.isAssignable
    (role : Role) : Bool :=
  role ≠ .owner

structure Member where
  id : Uuid
  workspaceID : Uuid
  userID : Uuid
  role : Role
  createdAt : Time
deriving DecidableEq, Repr

/- The rows that the index of workspace owners holds. -/
def Member.isOwnerOf
    (workspaceID : Uuid)
    (row : Member) : Bool :=
  row.role = .owner && row.workspaceID = workspaceID

inductive MembersError
  | roleNotAssignable
  | memberNotFound
  | cannotChangeOwnRole
  | ownerRequiresTransfer
  | alreadyMember
  | other
deriving DecidableEq, Repr

/- A member is added as the row that the call records. -/
inductive Request
  | addMember (added : Member)
  | changeMemberRole
      (actorUserID memberID : Uuid)
      (newRole : Role)
  | removeMember (memberID : Uuid)
  | transferOwnership (workspaceID newOwnerMemberID : Uuid)
deriving DecidableEq, Repr

/- The member whose row a request looks at by its ID. -/
def Request.memberID : Request → Option Uuid
  | .addMember _ => none
  | .changeMemberRole _ memberID _ => some memberID
  | .removeMember memberID => some memberID
  | .transferOwnership _ newOwnerMemberID =>
      some newOwnerMemberID

------------------------------------------------------------
-- Calls
------------------------------------------------------------

/-
  How far a call has come.  A locking read keeps the rows
  that its statement found, and those it has locked so far.
-/
inductive Stage
  | idle
  | opened (request : Request)
  | lockingOwner
      (workspaceID newOwnerMemberID : Uuid)
      (candidates : List Uuid)
      (found : List Member)
  | lockingMember
      (request : Request)
      (currentOwner : Option Member)
  | memberLocked
      (request : Request)
      (currentOwner : Option Member)
      (locked : Member)
  | promoting
      (currentOwner : Option Member)
      (newOwner : Member)
  | changed
  | recorded
  | succeeded
  | failed (error : MembersError)
deriving DecidableEq, Repr

/- A call that has ended is not heard of again. -/
def Stage.isOver : Stage → Bool
  | .idle => true
  | .succeeded => true
  | .failed _ => true
  | _ => false

structure MembersState where
  members : Store Nat Uuid Member
  calls : Nat → Stage

namespace MembersState

variable (s : MembersState)
variable (c : Nat)

def setStage
    (stage : Stage) : MembersState :=
  { s with calls := Function.update s.calls c stage }

/- What a statement of the call sees. -/
def visible : List Member :=
  s.members.view c Member.id

def findVisible
    (memberID : Uuid) : Option Member :=
  Table.lookup Member.id memberID (s.visible c)

/- The transaction rolls back, and the call answers. -/
def fail
    (error : MembersError) : MembersState :=
  { members := s.members.rollback c
    calls := Function.update s.calls c (.failed error) }

def commit : MembersState :=
  { members := s.members.commit c Member.id
    calls := Function.update s.calls c .succeeded }

def write
    (change : Change Uuid Member) : MembersState :=
  { s with members := s.members.write c change }

end MembersState

------------------------------------------------------------
-- Statements
------------------------------------------------------------

variable (s : MembersState)
variable (c : Nat)

/-
  The lock of one row that a locking read found: when it is
  granted, the row is read again as it is then.
-/
def lockForUpdate
    (memberID : Uuid) :
    Option (MembersState × Option Member) :=
  match s.members.lockRow c memberID .update with
  | none => none
  | some members =>
      let locked := { s with members := members }
      some (locked, locked.findVisible c memberID)

/- The owners there are when the statement begins. -/
def ownerCandidates
    (workspaceID : Uuid) : List Uuid :=
  ((s.visible c).filter
    (Member.isOwnerOf workspaceID)).map Member.id

/- A row that was waited for is kept if it is still owner. -/
def stillOwner
    (workspaceID : Uuid)
    (reread : Option Member) : List Member :=
  (reread.filter (Member.isOwnerOf workspaceID)).toList

/- A statement waits, fails, or changes rows or none. -/
inductive Statement
  | waits
  | fails (error : MembersError)
  | changes (s : MembersState)
  | changesNone

/- `UPDATE workspaces_members SET role = ? WHERE id = ?`. -/
def updateRole
    (memberID : Uuid)
    (role : Role) : Statement :=
  match s.members.lockRow c memberID .noKeyUpdate with
  | none => .waits
  | some members =>
      let locked := { s with members := members }
      match locked.findVisible c memberID with
      | none => .changesNone
      | some row =>
          let changed := { row with role := role }
          let write :=
            Statement.changes
              (locked.write c (.update changed))
          if role ≠ .owner then
            write
          else
            match
              locked.members.checkIndex c Member.id
                fun other =>
                  other.isOwnerOf row.workspaceID &&
                    other.id ≠ memberID
            with
            | .free => write
            | .waits => .waits
            | .violated => .fails .other

/- `DELETE FROM workspaces_members WHERE id = ?`. -/
def deleteMember
    (memberID : Uuid) : Statement :=
  match s.members.lockRow c memberID .update with
  | none => .waits
  | some members =>
      .changes
        (MembersState.write { s with members := members } c
          (.delete memberID))

/- The keys and indexes of the table that a row must fit. -/
def Member.conflictsWith
    (added other : Member) : Bool :=
  other.id = added.id ||
    (other.userID = added.userID &&
      other.workspaceID = added.workspaceID) ||
    (added.role = .owner &&
      other.isOwnerOf added.workspaceID)

/- The constraint that is violated names the error. -/
def insertMember
    (added : Member) : Statement :=
  match
    s.members.checkIndex c Member.id added.conflictsWith
  with
  | .free => .changes (s.write c (.insert added))
  | .waits => .waits
  | .violated =>
      if
        (s.visible c).any fun other =>
          other.userID = added.userID &&
            other.workspaceID = added.workspaceID
      then
        .fails .alreadyMember
      else
        .fails .other

------------------------------------------------------------
-- Steps of the Calls
------------------------------------------------------------

/- Roles that no request may set are refused right away. -/
def beginCall
    (request : Request) : MembersState :=
  match request with
  | .addMember added =>
      if added.role.isAssignable then
        s.setStage c (.opened request)
      else
        s.setStage c (.failed .roleNotAssignable)
  | .changeMemberRole _ _ newRole =>
      if newRole.isAssignable then
        s.setStage c (.opened request)
      else
        s.setStage c (.failed .roleNotAssignable)
  | _ => s.setStage c (.opened request)

/- The statement answers, and the call goes on or fails. -/
def afterStatement
    (next : Stage) : Statement → Option MembersState
  | .waits => none
  | .fails error => some (s.fail c error)
  | .changes s' => some (s'.setStage c next)
  | .changesNone => some (s.setStage c next)

/- `lockByID` begins: the row has to be there. -/
def readMember
    (request : Request)
    (currentOwner : Option Member)
    (memberID : Uuid) : MembersState :=
  match s.findVisible c memberID with
  | none => s.fail c .memberNotFound
  | some _ =>
      s.setStage c (.lockingMember request currentOwner)

def lockMember
    (request : Request)
    (currentOwner : Option Member)
    (memberID : Uuid) : Option MembersState :=
  match lockForUpdate s c memberID with
  | none => none
  | some (s', none) => some (s'.fail c .memberNotFound)
  | some (s', some locked) =>
      some
        (s'.setStage c
          (.memberLocked request currentOwner locked))

def changeMemberRole
    (actorUserID : Uuid)
    (newRole : Role)
    (locked : Member) : Option MembersState :=
  if locked.userID = actorUserID then
    some (s.fail c .cannotChangeOwnRole)
  else if locked.role = .owner then
    some (s.fail c .ownerRequiresTransfer)
  else
    afterStatement s c .changed
      (updateRole s c locked.id newRole)

def removeMember
    (locked : Member) : Option MembersState :=
  if locked.role = .owner then
    some (s.fail c .ownerRequiresTransfer)
  else
    afterStatement s c .changed (deleteMember s c locked.id)

/- The current owner, if there is one, is demoted first. -/
def transferOwnership
    (workspaceID : Uuid)
    (currentOwner : Option Member)
    (newOwner : Member) : Option MembersState :=
  if newOwner.workspaceID ≠ workspaceID then
    some (s.fail c .memberNotFound)
  else if newOwner.role = .owner then
    some (s.setStage c .recorded)
  else
    match currentOwner with
    | none => some (s.setStage c (.promoting none newOwner))
    | some owner =>
        afterStatement s c
          (.promoting (some owner) newOwner)
          (updateRole s c owner.id .admin)

/- A promotion that changes no row is an error. -/
def promote
    (newOwner : Member) : Option MembersState :=
  match updateRole s c newOwner.id .owner with
  | .changesNone => some (s.fail c .memberNotFound)
  | statement => afterStatement s c .changed statement

/- The next statement of a call, or none while it waits. -/
def advance : Option MembersState :=
  match s.calls c with
  | .opened (.addMember added) =>
      afterStatement s c .changed (insertMember s c added)
  | .opened (.changeMemberRole actorUserID memberID role) =>
      some
        (readMember s c
          (.changeMemberRole actorUserID memberID role) none
          memberID)
  | .opened (.removeMember memberID) =>
      some
        (readMember s c (.removeMember memberID) none
          memberID)
  | .opened (.transferOwnership workspaceID newOwnerID) =>
      some
        (s.setStage c
          (.lockingOwner workspaceID newOwnerID
            (ownerCandidates s c workspaceID) []))
  | .lockingOwner workspaceID newOwnerID [] found =>
      some
        (readMember s c
          (.transferOwnership workspaceID newOwnerID)
          found.head? newOwnerID)
  | .lockingOwner workspaceID newOwnerID
      (candidate :: rest) found =>
      match lockForUpdate s c candidate with
      | none => none
      | some (s', reread) =>
          some
            (s'.setStage c
              (.lockingOwner workspaceID newOwnerID rest
                (found ++ stillOwner workspaceID reread)))
  | .lockingMember request currentOwner =>
      match request.memberID with
      | none => none
      | some memberID =>
          lockMember s c request currentOwner memberID
  | .memberLocked request currentOwner locked =>
      match request with
      | .addMember _ => none
      | .changeMemberRole actorUserID _ newRole =>
          changeMemberRole s c actorUserID newRole locked
      | .removeMember _ => removeMember s c locked
      | .transferOwnership workspaceID _ =>
          transferOwnership s c workspaceID currentOwner
            locked
  | .promoting _ newOwner => promote s c newOwner
  | .changed => some (s.setStage c .recorded)
  | .recorded => some (s.commit c)
  | _ => none

------------------------------------------------------------
-- The System
------------------------------------------------------------

/- A call begins, takes its next step, or fails. -/
inductive MembersAction
  | begin (c : Nat) (request : Request)
  | advance (c : Nat)
  | fail (c : Nat) (error : MembersError)
deriving DecidableEq, Repr

def MembersAction.call : MembersAction → Nat
  | .begin c _ => c
  | .advance c => c
  | .fail c _ => c

def step
    (s : MembersState) :
    MembersAction → Option MembersState
  | .begin c request =>
      if s.calls c = .idle then
        some (beginCall s c request)
      else
        none
  | .advance c => advance s c
  | .fail c error =>
      if (s.calls c).isOver then
        none
      else
        some (s.fail c error)

/- Nothing is under way, and no two members share an ID. -/
structure StartsIdle
    (s : MembersState) : Prop where
  unique : Table.UniqueBy Member.id s.members.rows
  pending : s.members.pending = []
  locks : s.members.locks = []
  calls : ∀ c, s.calls c = .idle

def membersSystem :
    TransitionSystem MembersState MembersAction where
  initial := StartsIdle
  step := step

/- The workspace has exactly one owner. -/
def HasOneOwner
    (members : List Member)
    (workspaceID : Uuid) : Prop :=
  members.countP (Member.isOwnerOf workspaceID) = 1

instance instDecidableHasOneOwner
    (members : List Member)
    (workspaceID : Uuid) :
    Decidable (HasOneOwner members workspaceID) :=
  inferInstanceAs (Decidable (_ = _))

end Workspaces

end Databasus
