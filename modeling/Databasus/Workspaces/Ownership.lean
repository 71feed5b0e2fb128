import Databasus.Workspaces.Members

/-
  A workspace keeps exactly one owner.

  A call changes only rows that it has locked.  Without the
  current owner among them it cannot promote anybody, as the
  index still has the current owner's entry.

  Main declarations:
    * `Committable`
    * `StageSound`, `MembersSound`
    * `Committable.keepsOwner`
    * `membersSound_step`
    * `workspace_keeps_one_owner`
-/

------------------------------------------------------------
-- What a Call May Commit
------------------------------------------------------------

namespace Databasus

namespace Workspaces

open Foundation

/- The call has locked an owner of the workspace. -/
structure OwnerLocked
    (members : Store Nat Uuid Member)
    (c : Nat)
    (workspaceID : Uuid)
    (owner : Member) : Prop where
  owns : members.Owns Member.id c owner
  isOwner : owner.isOwnerOf workspaceID = true

/-
  Changes that leave the watched workspace with one owner: no
  owner is touched, or one gives way to the next, or another
  workspace gets one.
-/
inductive Committable
    (watched : Uuid)
    (members : Store Nat Uuid Member)
    (c : Nat) : List (Change Uuid Member) → Prop
  | unchanged : Committable watched members c []
  | added
      (row : Member)
      (hRole : row.role ≠ .owner) :
      Committable watched members c [.insert row]
  | changed
      (row : Member)
      (role : Role)
      (hOwns : members.Owns Member.id c row)
      (hOld : row.role ≠ .owner)
      (hNew : role ≠ .owner) :
      Committable watched members c
        [.update { row with role := role }]
  | removed
      (row : Member)
      (hOwns : members.Owns Member.id c row)
      (hOld : row.role ≠ .owner) :
      Committable watched members c [.delete row.id]
  | transferred
      (owner newOwner : Member)
      (hOwner :
        OwnerLocked members c newOwner.workspaceID owner)
      (hOwns : members.Owns Member.id c newOwner)
      (hNew : newOwner.role ≠ .owner) :
      Committable watched members c
        [.update { owner with role := .admin },
          .update { newOwner with role := .owner }]
  | promoted
      (newOwner : Member)
      (hOwns : members.Owns Member.id c newOwner)
      (hNew : newOwner.role ≠ .owner)
      (hElsewhere : newOwner.workspaceID ≠ watched) :
      Committable watched members c
        [.update { newOwner with role := .owner }]

variable {watched : Uuid}
variable {members members' : Store Nat Uuid Member}
variable {c : Nat}
variable {changes : List (Change Uuid Member)}

theorem not_isOwnerOf
    {row : Member}
    (hRole : row.role ≠ .owner)
    (workspaceID : Uuid) :
    row.isOwnerOf workspaceID = false := by
  simp [Member.isOwnerOf, hRole]

theorem OwnerLocked.kept
    {workspaceID : Uuid}
    {owner : Member}
    (hOwner : OwnerLocked members c workspaceID owner)
    (hKept : Store.KeptFor Member.id members members' c) :
    OwnerLocked members' c workspaceID owner :=
  ⟨hKept.owns owner hOwner.owns, hOwner.isOwner⟩

theorem Committable.kept
    (hCommittable : Committable watched members c changes)
    (hKept : Store.KeptFor Member.id members members' c) :
    Committable watched members' c changes := by
  cases hCommittable with
  | unchanged => exact .unchanged
  | added row hRole => exact .added row hRole
  | changed row role hOwns hOld hNew =>
      exact .changed row role (hKept.owns row hOwns) hOld hNew
  | removed row hOwns hOld =>
      exact .removed row (hKept.owns row hOwns) hOld
  | transferred owner newOwner hOwner hOwns hNew =>
      exact
        .transferred owner newOwner (hOwner.kept hKept)
          (hKept.owns newOwner hOwns) hNew
  | promoted newOwner hOwns hNew hElsewhere =>
      exact
        .promoted newOwner (hKept.owns newOwner hOwns) hNew
          hElsewhere

/- Committing leaves the watched workspace with one owner. -/
theorem Committable.keepsOwner
    (hCommittable : Committable watched members c changes)
    (hSound : members.Sound Member.id)
    (hOwner : HasOneOwner members.rows watched) :
    HasOneOwner
      (Change.applyAll Member.id changes members.rows)
      watched := by
  have hUnique := hSound.uniqueRows
  unfold HasOneOwner at hOwner ⊢
  cases hCommittable with
  | unchanged => exact hOwner
  | added row hRole =>
      simp only [Change.applyAll_cons, Change.applyAll_nil,
        Change.apply, List.countP_append, hOwner]
      simp [not_isOwnerOf hRole]
  | changed row role hOwns hOld hNew =>
      have hCount :=
        Change.countP_update hUnique hOwns.stored
          (show
            Member.id { row with role := role } = row.id
            from rfl)
          (Member.isOwnerOf watched)
      rw [not_isOwnerOf hOld,
        @not_isOwnerOf { row with role := role } hNew]
        at hCount
      simpa [hOwner] using hCount
  | removed row hOwns hOld =>
      rw [← hOwner]
      apply Change.countP_delete
      intro other hOther hKey
      rw [hOwns.eq_of_key_eq hSound hOther hKey]
      exact not_isOwnerOf hOld watched
  | transferred owner newOwner hLocked hOwns hNew =>
      have hRoles :
          owner.role = .owner ∧
            owner.workspaceID = newOwner.workspaceID := by
        simpa [Member.isOwnerOf] using hLocked.isOwner
      have hOther : newOwner.id ≠ owner.id := by
        intro hSame
        apply hNew
        rw [hLocked.owns.eq_of_key_eq hSound hOwns.stored
          hSame]
        exact hRoles.1
      let demoted : Change Uuid Member :=
        .update { owner with role := .admin }
      have hStored :
          newOwner ∈ demoted.apply Member.id members.rows := by
        apply Table.mem_updateWhere_of_not hOwns.stored
        simpa using hOther
      have hDemoted :
          Table.UniqueBy Member.id
            (demoted.apply Member.id members.rows) := by
        have hPlain :
            Table.UniqueBy Member.id
              (members.rows ++
                  [demoted].filterMap Change.inserted ++
                []) := by
          rw [show [demoted].filterMap Change.inserted = []
            from rfl, List.append_nil, List.append_nil]
          exact hUnique
        have hApplied :=
          Change.uniqueBy_applyAll [demoted] members.rows []
            hPlain
        simpa using hApplied
      have hFirst :=
        Change.countP_update hUnique hLocked.owns.stored
          (show
            Member.id { owner with role := .admin } = owner.id
            from rfl)
          (Member.isOwnerOf watched)
      have hSecond :=
        Change.countP_update hDemoted hStored
          (show
            Member.id { newOwner with role := .owner } =
              newOwner.id from rfl)
          (Member.isOwnerOf watched)
      -- the one owner counts less, and the next one more
      have hBalance :
          (if owner.isOwnerOf watched then 1 else 0) =
            if
              Member.isOwnerOf watched
                { newOwner with role := .owner }
            then 1
            else 0 := by
        simp [Member.isOwnerOf, hRoles]
      rw [not_isOwnerOf hNew] at hSecond
      rw [hBalance,
        @not_isOwnerOf { owner with role := .admin }
          (by decide : Role.admin ≠ .owner)] at hFirst
      simp only [Change.applyAll_cons, Change.applyAll_nil]
      simp only [Bool.false_eq_true, if_false] at hFirst hSecond
      change
        (demoted.apply Member.id members.rows).countP
            (Member.isOwnerOf watched) + _ = _ at hFirst
      change
        (Change.apply Member.id _
          (demoted.apply Member.id members.rows)).countP
            (Member.isOwnerOf watched) = 1
      rw [hOwner] at hFirst
      rw [← Nat.add_zero (List.countP _ _), hSecond, hFirst]
  | promoted newOwner hOwns hNew hElsewhere =>
      have hCount :=
        Change.countP_update hUnique hOwns.stored
          (show
            Member.id { newOwner with role := .owner } =
              newOwner.id from rfl)
          (Member.isOwnerOf watched)
      rw [not_isOwnerOf hNew] at hCount
      simpa [hOwner, Member.isOwnerOf, hElsewhere]
        using hCount

------------------------------------------------------------
-- What Calls Know
------------------------------------------------------------

variable {stage : Stage}
variable {s : MembersState}
variable {row : Uuid}
variable {mode : RowLockMode}

/- No request sets the role of the owner. -/
def Request.IsAssignable : Request → Prop
  | .addMember added => added.role ≠ .owner
  | .changeMemberRole _ _ newRole => newRole ≠ .owner
  | _ => True

/- The owner that a transfer has found is its workspace's. -/
def OwnerKnown
    (members : Store Nat Uuid Member)
    (c : Nat)
    (request : Request)
    (currentOwner : Option Member) : Prop :=
  ∀ owner ∈ currentOwner,
    ∃ workspaceID newOwnerID,
      request = .transferOwnership workspaceID newOwnerID ∧
        OwnerLocked members c workspaceID owner

/- Before it promotes, a transfer has demoted the owner. -/
def DemotedFirst
    (members : Store Nat Uuid Member)
    (c : Nat)
    (newOwner : Member) : Option Member → Prop
  | none => members.changesOf c = []
  | some owner =>
      OwnerLocked members c newOwner.workspaceID owner ∧
        members.changesOf c =
          [.update { owner with role := .admin }]

/- What a call has locked and changed, stage by stage. -/
def StageSound
    (watched : Uuid)
    (members : Store Nat Uuid Member)
    (c : Nat) : Stage → Prop
  | .opened request =>
      members.changesOf c = [] ∧ request.IsAssignable
  | .lockingOwner workspaceID _ _ found =>
      members.changesOf c = [] ∧
        ∀ owner ∈ found,
          OwnerLocked members c workspaceID owner
  | .lockingMember request currentOwner =>
      members.changesOf c = [] ∧ request.IsAssignable ∧
        OwnerKnown members c request currentOwner
  | .memberLocked request currentOwner locked =>
      members.changesOf c = [] ∧ request.IsAssignable ∧
        OwnerKnown members c request currentOwner ∧
          members.Owns Member.id c locked
  | .promoting currentOwner newOwner =>
      members.Owns Member.id c newOwner ∧
        newOwner.role ≠ .owner ∧
          DemotedFirst members c newOwner currentOwner
  | .changed =>
      Committable watched members c (members.changesOf c)
  | .recorded =>
      Committable watched members c (members.changesOf c)
  | _ => members.changesOf c = []

structure MembersSound
    (watched : Uuid)
    (s : MembersState) : Prop where
  store : s.members.Sound Member.id
  stages : ∀ c, StageSound watched s.members c (s.calls c)
  owner : HasOneOwner s.members.rows watched

variable {watched : Uuid}
variable {members members' : Store Nat Uuid Member}
variable {c : Nat}

theorem OwnerKnown.kept
    {request : Request}
    {currentOwner : Option Member}
    (hKnown : OwnerKnown members c request currentOwner)
    (hKept : Store.KeptFor Member.id members members' c) :
    OwnerKnown members' c request currentOwner := by
  intro owner hOwner
  rcases hKnown owner hOwner with
    ⟨workspaceID, newOwnerID, hRequest, hLocked⟩
  exact ⟨workspaceID, newOwnerID, hRequest, hLocked.kept hKept⟩

/- Steps of other calls leave true what a call knows. -/
theorem StageSound.kept
    (hStage : StageSound watched members c stage)
    (hKept : Store.KeptFor Member.id members members' c) :
    StageSound watched members' c stage := by
  have hChanges := hKept.changes
  cases stage with
  | lockingOwner workspaceID newOwnerID candidates found =>
      rcases hStage with ⟨hNone, hFound⟩
      refine ⟨hChanges.trans hNone, ?_⟩
      intro owner hOwner
      exact (hFound owner hOwner).kept hKept
  | lockingMember request currentOwner =>
      rcases hStage with ⟨hNone, hRole, hKnown⟩
      exact ⟨hChanges.trans hNone, hRole, hKnown.kept hKept⟩
  | memberLocked request currentOwner locked =>
      rcases hStage with ⟨hNone, hRole, hKnown, hOwns⟩
      exact
        ⟨hChanges.trans hNone, hRole, hKnown.kept hKept,
          hKept.owns locked hOwns⟩
  | promoting currentOwner newOwner =>
      rcases hStage with ⟨hOwns, hRole, hDemoted⟩
      refine ⟨hKept.owns newOwner hOwns, hRole, ?_⟩
      cases currentOwner with
      | none => exact hChanges.trans hDemoted
      | some owner =>
          exact
            ⟨hDemoted.1.kept hKept,
              hChanges.trans hDemoted.2⟩
  | opened request => exact ⟨hChanges.trans hStage.1, hStage.2⟩
  | changed =>
      unfold StageSound at hStage ⊢
      rw [hChanges]
      exact hStage.kept hKept
  | recorded =>
      unfold StageSound at hStage ⊢
      rw [hChanges]
      exact hStage.kept hKept
  | idle => exact hChanges.trans hStage
  | succeeded => exact hChanges.trans hStage
  | failed error => exact hChanges.trans hStage

/- A step of one call, which the other calls do not notice. -/
theorem MembersSound.stepped
    (hSound : MembersSound watched s)
    (hStore : members'.Sound Member.id)
    (hOwner : HasOneOwner members'.rows watched)
    (hOthers :
      ∀ other, other ≠ c →
        Store.KeptFor Member.id s.members members' other)
    (hStage : StageSound watched members' c stage) :
    MembersSound watched
      { members := members'
        calls := Function.update s.calls c stage } := by
  refine ⟨hStore, ?_, hOwner⟩
  intro other
  change
    StageSound watched members' other
      (Function.update s.calls c stage other)
  by_cases hSame : other = c
  · subst hSame
    rw [Function.update_self]
    exact hStage
  · rw [Function.update_of_ne hSame]
    exact (hSound.stages other).kept (hOthers other hSame)

theorem MembersSound.setStage
    (hSound : MembersSound watched s)
    (hStage : StageSound watched s.members c stage) :
    MembersSound watched (s.setStage c stage) :=
  hSound.stepped hSound.store hSound.owner
    (fun _ _ => .refl _) hStage

theorem MembersSound.lockRow
    (hSound : MembersSound watched s)
    (hLock : s.members.lockRow c row mode = some members) :
    MembersSound watched { s with members := members } := by
  refine ⟨hSound.store.lockRow hLock, ?_, ?_⟩
  · intro other
    exact (hSound.stages other).kept (.lockRow hLock)
  · rcases Store.lockRow_some hLock with ⟨locks, _, rfl⟩
    exact hSound.owner

theorem MembersSound.fail
    (hSound : MembersSound watched s)
    (c : Nat)
    (error : MembersError) :
    MembersSound watched (s.fail c error) :=
  hSound.stepped hSound.store.rollback hSound.owner
    (fun _ hOther => .rollback hOther)
    (Store.changesOf_ended rfl)

/- A commit makes what the call changed the rows of all. -/
theorem MembersSound.commit
    (hSound : MembersSound watched s)
    (hStage : s.calls c = .recorded) :
    MembersSound watched (s.commit c) := by
  have hCommittable := hSound.stages c
  rw [hStage] at hCommittable
  exact
    hSound.stepped hSound.store.commit
      (hCommittable.keepsOwner hSound.store hSound.owner)
      (fun _ hOther => .commit hSound.store hOther)
      (Store.changesOf_ended rfl)

/- A change of a row that the call has locked. -/
theorem MembersSound.write
    (hSound : MembersSound watched s)
    {change : Change Uuid Member}
    (hLock : s.members.lockRow c row mode = some members)
    (hMode : mode.isExclusive = true)
    (hTouches : change.touches Member.id = some row)
    (hStage :
      StageSound watched (members.write c change) c stage) :
    MembersSound watched
      { members := members.write c change
        calls := Function.update s.calls c stage } := by
  have hLocked := hSound.lockRow hLock
  have hGuards : RowLock.Guards members.locks c row := by
    rcases Store.lockRow_some hLock with
      ⟨locks, hAcquire, rfl⟩
    exact .acquired hAcquire hMode
  refine
    hLocked.stepped ?_ hLocked.owner
      (fun _ hOther => .write hOther.symm) hStage
  apply hLocked.store.write
  · intro touched hTouched
    rw [hTouches] at hTouched
    rw [← Option.some.inj hTouched]
    exact hGuards
  · intro added hInserted
    cases change with
    | insert added => cases hTouches
    | update changed => cases hInserted
    | delete k => cases hInserted

------------------------------------------------------------
-- Statements of a Call
------------------------------------------------------------

variable {s s' : MembersState}
variable {memberID : Uuid}
variable {reread : Option Member}
variable {role : Role}

/- A granted lock, and the row as it is by then. -/
theorem lockForUpdate_some
    (hLock :
      lockForUpdate s c memberID = some (s', reread)) :
    ∃ members,
      s.members.lockRow c memberID .update = some members ∧
        s' = { s with members := members } ∧
          reread = s'.findVisible c memberID := by
  unfold lockForUpdate at hLock
  cases hRow : s.members.lockRow c memberID .update with
  | none =>
      rw [hRow] at hLock
      cases hLock
  | some members =>
      rw [hRow] at hLock
      cases hLock
      exact ⟨members, rfl, rfl, rfl⟩

/- A row that was locked is the call's until it ends. -/
theorem owns_of_reread
    {row : Member}
    (hNone : s.members.changesOf c = [])
    (hLock :
      lockForUpdate s c memberID = some (s', some row)) :
    s'.members.Owns Member.id c row := by
  rcases lockForUpdate_some hLock with
    ⟨members, hRow, rfl, hFound⟩
  rcases Table.lookup_some hFound.symm with ⟨hVisible, hKey⟩
  rcases Store.lockRow_some hRow with ⟨locks, hAcquire, rfl⟩
  unfold MembersState.visible at hVisible
  rw [Store.view_of_changesOf_nil (by exact hNone)] at hVisible
  exact ⟨hVisible, hKey ▸ .acquired hAcquire rfl⟩

theorem sound_of_lockForUpdate
    (hSound : MembersSound watched s)
    (hLock :
      lockForUpdate s c memberID = some (s', reread)) :
    MembersSound watched s' ∧ s'.calls = s.calls ∧
      Store.KeptFor Member.id s.members s'.members c := by
  rcases lockForUpdate_some hLock with
    ⟨members, hRow, rfl, _⟩
  exact ⟨hSound.lockRow hRow, rfl, .lockRow hRow⟩

/- A row that is there is found under its lock. -/
theorem findVisible_locked
    (hSound : MembersSound watched s)
    {row : Member}
    {members : Store Nat Uuid Member}
    (hVisible : row ∈ s.visible c)
    (hLock : s.members.lockRow c row.id mode = some members) :
    MembersState.findVisible { s with members := members } c
        row.id =
      some row := by
  have hUnique :
      Table.UniqueBy Member.id
        (members.view c Member.id) :=
    (hSound.lockRow hLock).store.uniqueView
  rcases Store.lockRow_some hLock with ⟨locks, _, rfl⟩
  exact hUnique.lookup_eq_some hVisible

/- What the update of a row that is there has done. -/
theorem updateRole_changes
    (hSound : MembersSound watched s)
    {row : Member}
    (hVisible : row ∈ s.visible c)
    (hUpdate : updateRole s c row.id role = .changes s') :
    ∃ members,
      s.members.lockRow c row.id .noKeyUpdate =
          some members ∧
        s' =
            { s with
              members :=
                members.write c
                  (.update { row with role := role }) } ∧
          (role = .owner →
            ∀ other ∈ s.visible c,
              other.isOwnerOf row.workspaceID = true →
                other.id = row.id) := by
  unfold updateRole at hUpdate
  cases hLock :
      s.members.lockRow c row.id .noKeyUpdate with
  | none =>
      rw [hLock] at hUpdate
      cases hUpdate
  | some members =>
      rw [hLock] at hUpdate
      simp only [findVisible_locked hSound hVisible hLock]
        at hUpdate
      refine ⟨members, rfl, ?_⟩
      by_cases hRole : role = .owner
      · simp only [hRole, ne_eq, not_true_eq_false, if_false]
          at hUpdate
        split at hUpdate
        · next hFree =>
            cases hUpdate
            refine ⟨by rw [hRole]; rfl, ?_⟩
            intro _ other hOther hOwner
            rcases Store.lockRow_some hLock with
              ⟨locks, _, rfl⟩
            have hNone :=
              (Store.checkIndex_free hFree).1 other hOther
            simpa [hOwner] using hNone
        · cases hUpdate
        · cases hUpdate
      · simp only [hRole, ne_eq, not_false_eq_true, if_true]
          at hUpdate
        cases hUpdate
        exact ⟨rfl, fun hOwner => absurd hOwner hRole⟩

theorem updateRole_ne_changesNone
    (hSound : MembersSound watched s)
    {row : Member}
    (hVisible : row ∈ s.visible c) :
    updateRole s c row.id role ≠ .changesNone := by
  intro hUpdate
  unfold updateRole at hUpdate
  cases hLock :
      s.members.lockRow c row.id .noKeyUpdate with
  | none =>
      rw [hLock] at hUpdate
      cases hUpdate
  | some members =>
      rw [hLock] at hUpdate
      simp only [findVisible_locked hSound hVisible hLock]
        at hUpdate
      split at hUpdate
      · cases hUpdate
      · split at hUpdate <;> cases hUpdate

/- A row that the call has locked is there for it. -/
theorem visible_of_owns
    {row : Member}
    (hNone : s.members.changesOf c = [])
    (hOwns : s.members.Owns Member.id c row) :
    row ∈ s.visible c := by
  unfold MembersState.visible
  rw [Store.view_of_changesOf_nil hNone]
  exact hOwns.stored

/- Where a call goes after its statement. -/
theorem afterStatement_some
    {next : Stage}
    {statement : Statement}
    (hAfter : afterStatement s c next statement = some s') :
    (∃ error,
        statement = .fails error ∧ s' = s.fail c error) ∨
      (∃ s₁,
          statement = .changes s₁ ∧
            s' = s₁.setStage c next) ∨
        statement = .changesNone ∧ s' = s.setStage c next := by
  cases statement with
  | waits => cases hAfter
  | fails error =>
      cases hAfter
      exact Or.inl ⟨error, rfl, rfl⟩
  | changes s₁ =>
      cases hAfter
      exact Or.inr (Or.inl ⟨s₁, rfl, rfl⟩)
  | changesNone =>
      cases hAfter
      exact Or.inr (Or.inr ⟨rfl, rfl⟩)

------------------------------------------------------------
-- Steps
------------------------------------------------------------

variable {request : Request}
variable {currentOwner : Option Member}
variable {locked : Member}
variable {newOwner : Member}

theorem isAssignable_iff :
    role.isAssignable = true ↔ role ≠ .owner := by
  simp [Role.isAssignable]

theorem sound_beginCall
    (hSound : MembersSound watched s)
    (hIdle : s.calls c = .idle)
    (request : Request) :
    MembersSound watched (beginCall s c request) := by
  have hNone : s.members.changesOf c = [] := by
    have hStage := hSound.stages c
    rw [hIdle] at hStage
    exact hStage
  cases request with
  | addMember added =>
      unfold beginCall
      simp only
      split
      · next hRole =>
          refine hSound.setStage ⟨hNone, ?_⟩
          exact isAssignable_iff.mp hRole
      · exact hSound.setStage hNone
  | changeMemberRole actorUserID memberID newRole =>
      unfold beginCall
      simp only
      split
      · next hRole =>
          refine hSound.setStage ⟨hNone, ?_⟩
          exact isAssignable_iff.mp hRole
      · exact hSound.setStage hNone
  | removeMember memberID =>
      exact hSound.setStage ⟨hNone, trivial⟩
  | transferOwnership workspaceID newOwnerID =>
      exact hSound.setStage ⟨hNone, trivial⟩

theorem sound_readMember
    (hSound : MembersSound watched s)
    (hStage :
      StageSound watched s.members c
        (.lockingMember request currentOwner))
    (memberID : Uuid) :
    MembersSound watched
      (readMember s c request currentOwner memberID) := by
  unfold readMember
  split
  · exact hSound.fail c .memberNotFound
  · exact hSound.setStage hStage

theorem sound_lockMember
    (hSound : MembersSound watched s)
    (hStage :
      StageSound watched s.members c
        (.lockingMember request currentOwner))
    (hLock :
      lockMember s c request currentOwner memberID =
        some s') :
    MembersSound watched s' := by
  rcases hStage with ⟨hNone, hRole, hKnown⟩
  unfold lockMember at hLock
  split at hLock
  · cases hLock
  · next s₁ hRow =>
      cases hLock
      exact
        (sound_of_lockForUpdate hSound hRow).1.fail c
          .memberNotFound
  · next s₁ locked hRow =>
      cases hLock
      rcases sound_of_lockForUpdate hSound hRow with
        ⟨hLocked, _, hKept⟩
      apply hLocked.setStage
      exact
        ⟨hKept.changes.trans hNone, hRole, hKnown.kept hKept,
          owns_of_reread hNone hRow⟩

/- The new role of a locked member who is not the owner. -/
theorem sound_changeMemberRole
    (hSound : MembersSound watched s)
    {actorUserID : Uuid}
    {newRole : Role}
    (hNone : s.members.changesOf c = [])
    (hRole : newRole ≠ .owner)
    (hOwns : s.members.Owns Member.id c locked)
    (hChange :
      changeMemberRole s c actorUserID newRole locked =
        some s') :
    MembersSound watched s' := by
  unfold changeMemberRole at hChange
  split at hChange
  · cases hChange
    exact hSound.fail c .cannotChangeOwnRole
  · split at hChange
    · cases hChange
      exact hSound.fail c .ownerRequiresTransfer
    · next hOld =>
        rcases afterStatement_some hChange with
          ⟨error, _, rfl⟩ | ⟨s₁, hUpdate, rfl⟩ | ⟨_, rfl⟩
        · exact hSound.fail c error
        · rcases
              updateRole_changes hSound
                (visible_of_owns hNone hOwns) hUpdate with
            ⟨members, hLock, rfl, _⟩
          have hKept :
              Store.KeptFor Member.id s.members members c :=
            .lockRow hLock
          refine hSound.write hLock rfl rfl ?_
          change Committable _ _ _ _
          rw [Store.changesOf_write_self, hKept.changes, hNone]
          exact
            .changed locked newRole
              (hKept.owns locked hOwns).write hOld hRole
        · apply hSound.setStage
          change Committable _ _ _ _
          rw [hNone]
          exact .unchanged

theorem sound_removeMember
    (hSound : MembersSound watched s)
    (hNone : s.members.changesOf c = [])
    (hOwns : s.members.Owns Member.id c locked)
    (hRemove : removeMember s c locked = some s') :
    MembersSound watched s' := by
  unfold removeMember at hRemove
  split at hRemove
  · cases hRemove
    exact hSound.fail c .ownerRequiresTransfer
  · next hOld =>
      unfold deleteMember at hRemove
      cases hLock :
          s.members.lockRow c locked.id .update with
      | none =>
          rw [hLock] at hRemove
          cases hRemove
      | some members =>
          rw [hLock] at hRemove
          cases hRemove
          have hKept :
              Store.KeptFor Member.id s.members members c :=
            .lockRow hLock
          refine hSound.write hLock rfl rfl ?_
          change Committable _ _ _ _
          rw [Store.changesOf_write_self, hKept.changes, hNone]
          exact
            .removed locked (hKept.owns locked hOwns).write
              hOld

/- A transfer demotes the owner that it has found. -/
theorem sound_transferOwnership
    (hSound : MembersSound watched s)
    {workspaceID newOwnerID : Uuid}
    (hNone : s.members.changesOf c = [])
    (hKnown :
      OwnerKnown s.members c
        (.transferOwnership workspaceID newOwnerID)
        currentOwner)
    (hOwns : s.members.Owns Member.id c newOwner)
    (hTransfer :
      transferOwnership s c workspaceID currentOwner
          newOwner =
        some s') :
    MembersSound watched s' := by
  unfold transferOwnership at hTransfer
  split at hTransfer
  · cases hTransfer
    exact hSound.fail c .memberNotFound
  · next hWorkspace =>
      rw [not_not] at hWorkspace
      split at hTransfer
      · cases hTransfer
        apply hSound.setStage
        change Committable _ _ _ _
        rw [hNone]
        exact .unchanged
      · next hRole =>
          cases currentOwner with
          | none =>
              cases hTransfer
              exact hSound.setStage ⟨hOwns, hRole, hNone⟩
          | some owner =>
              have hLocked :
                  OwnerLocked s.members c
                    newOwner.workspaceID owner := by
                rcases hKnown owner rfl with
                  ⟨_, _, hRequest, hOwner⟩
                cases hRequest
                rw [hWorkspace]
                exact hOwner
              have hVisible :=
                visible_of_owns hNone hLocked.owns
              rcases afterStatement_some hTransfer with
                ⟨error, _, rfl⟩ | ⟨s₁, hUpdate, rfl⟩ |
                  ⟨hMissing, _⟩
              · exact hSound.fail c error
              · rcases
                    updateRole_changes hSound hVisible
                      hUpdate with
                  ⟨members, hLock, rfl, _⟩
                have hKept :
                    Store.KeptFor Member.id s.members members
                      c :=
                  .lockRow hLock
                refine hSound.write hLock rfl rfl ?_
                refine
                  ⟨(hKept.owns newOwner hOwns).write, hRole,
                    ⟨(hKept.owns owner hLocked.owns).write,
                      hLocked.isOwner⟩, ?_⟩
                rw [Store.changesOf_write_self,
                  hKept.changes, hNone]
                rfl
              · exact
                  absurd hMissing
                    (updateRole_ne_changesNone hSound
                      hVisible)

/- A new owner is still there after the owner's demotion. -/
theorem visible_of_demotedFirst
    (hSound : MembersSound watched s)
    (hOwns : s.members.Owns Member.id c newOwner)
    (hRole : newOwner.role ≠ .owner)
    (hDemoted :
      DemotedFirst s.members c newOwner currentOwner) :
    newOwner ∈ s.visible c := by
  cases currentOwner with
  | none => exact visible_of_owns hDemoted hOwns
  | some owner =>
      rcases hDemoted with ⟨hLocked, hChanges⟩
      unfold MembersState.visible Store.view
      rw [hChanges]
      apply Change.mem_applyAll
      · intro change hChange hTouches
        rw [List.mem_singleton.mp hChange] at hTouches
        have hSame : newOwner.id = owner.id :=
          (Option.some.inj hTouches).symm
        apply hRole
        rw [hLocked.owns.eq_of_key_eq hSound.store
          hOwns.stored hSame]
        have hOwner := hLocked.isOwner
        simp only [Member.isOwnerOf, Bool.and_eq_true,
          decide_eq_true_eq] at hOwner
        exact hOwner.1
      · exact hOwns.stored

/-
  A promotion ends a transfer.  Without a demotion before it
  the index lets it pass for another workspace only.
-/
theorem sound_promote
    (hSound : MembersSound watched s)
    (hOwns : s.members.Owns Member.id c newOwner)
    (hRole : newOwner.role ≠ .owner)
    (hDemoted :
      DemotedFirst s.members c newOwner currentOwner)
    (hPromote : promote s c newOwner = some s') :
    MembersSound watched s' := by
  have hVisible :=
    visible_of_demotedFirst hSound hOwns hRole hDemoted
  have hUpdate :
      afterStatement s c .changed
          (updateRole s c newOwner.id .owner) =
        some s' := by
    unfold promote at hPromote
    split at hPromote
    · next hMissing =>
        exact
          absurd hMissing
            (updateRole_ne_changesNone hSound hVisible)
    · exact hPromote
  rcases afterStatement_some hUpdate with
    ⟨error, _, rfl⟩ | ⟨s₁, hWrite, rfl⟩ | ⟨hMissing, _⟩
  · exact hSound.fail c error
  · rcases updateRole_changes hSound hVisible hWrite with
      ⟨members, hLock, rfl, hIndex⟩
    have hKept :
        Store.KeptFor Member.id s.members members c :=
      .lockRow hLock
    refine hSound.write hLock rfl rfl ?_
    change Committable _ _ _ _
    rw [Store.changesOf_write_self, hKept.changes]
    cases currentOwner with
    | none =>
        rw [hDemoted]
        refine
          .promoted newOwner
            (hKept.owns newOwner hOwns).write hRole ?_
        -- the watched workspace's owner has the index entry
        rintro rfl
        have hOwner := hSound.owner
        unfold HasOneOwner at hOwner
        have hSome :
            0 <
              s.members.rows.countP
                (Member.isOwnerOf newOwner.workspaceID) := by
          omega
        rw [List.countP_pos_iff] at hSome
        rcases hSome with ⟨owner, hStored, hIsOwner⟩
        have hSame :=
          hIndex rfl owner
            (by
              unfold MembersState.visible
              rw [Store.view_of_changesOf_nil hDemoted]
              exact hStored)
            hIsOwner
        rw [hOwns.eq_of_key_eq hSound.store hStored hSame,
          not_isOwnerOf hRole] at hIsOwner
        cases hIsOwner
    | some owner =>
        rcases hDemoted with ⟨hLocked, hChanges⟩
        rw [hChanges]
        exact
          .transferred owner newOwner
            ⟨(hKept.owns owner hLocked.owns).write,
              hLocked.isOwner⟩
            (hKept.owns newOwner hOwns).write hRole
  · exact
      absurd hMissing
        (updateRole_ne_changesNone hSound hVisible)

/- A member is added under a new ID, and not as owner. -/
theorem sound_insertMember
    (hSound : MembersSound watched s)
    {added : Member}
    (hNone : s.members.changesOf c = [])
    (hRole : added.role ≠ .owner)
    (hInsert :
      afterStatement s c .changed (insertMember s c added) =
        some s') :
    MembersSound watched s' := by
  rcases afterStatement_some hInsert with
    ⟨error, _, rfl⟩ | ⟨s₁, hWrite, rfl⟩ | ⟨hMissing, _⟩
  · exact hSound.fail c error
  · unfold insertMember at hWrite
    split at hWrite
    · next hFree =>
        cases hWrite
        refine
          hSound.stepped ?_ hSound.owner
            (fun _ hOther => .write hOther.symm) ?_
        · apply hSound.store.write
          · intro touched hTouches
            cases hTouches
          · intro row hInserted
            cases hInserted
            apply Store.fresh_of_checkIndex_free hNone hFree
            intro row hSame
            simp [Member.conflictsWith, hSame]
        · change
            Committable _ _ _
              ((s.members.write c _).changesOf c)
          rw [Store.changesOf_write_self, hNone]
          exact .added added hRole
    · cases hWrite
    · split at hWrite <;> cases hWrite
  · unfold insertMember at hMissing
    split at hMissing
    · cases hMissing
    · cases hMissing
    · split at hMissing <;> cases hMissing

------------------------------------------------------------
-- Runs
------------------------------------------------------------

/- The owners that a locking read found are locked. -/
theorem sound_lockOwner
    (hSound : MembersSound watched s)
    {workspaceID newOwnerID candidate : Uuid}
    {rest : List Uuid}
    {found : List Member}
    (hStage :
      StageSound watched s.members c
        (.lockingOwner workspaceID newOwnerID
          (candidate :: rest) found))
    (hLock :
      lockForUpdate s c candidate = some (s', reread)) :
    MembersSound watched
      (s'.setStage c
        (.lockingOwner workspaceID newOwnerID rest
          (found ++ stillOwner workspaceID reread))) := by
  rcases hStage with ⟨hNone, hFound⟩
  rcases sound_of_lockForUpdate hSound hLock with
    ⟨hLocked, _, hKept⟩
  apply hLocked.setStage
  refine ⟨hKept.changes.trans hNone, ?_⟩
  intro owner hOwner
  rcases List.mem_append.mp hOwner with hOld | hNew
  · exact (hFound owner hOld).kept hKept
  · unfold stillOwner at hNew
    rw [Option.mem_toList, Option.filter_eq_some_iff] at hNew
    rcases hNew with ⟨hReread, hIsOwner⟩
    subst hReread
    exact ⟨owns_of_reread hNone hLock, hIsOwner⟩

theorem membersSound_advance
    (hSound : MembersSound watched s)
    (hAdvance : advance s c = some s') :
    MembersSound watched s' := by
  have hStage := hSound.stages c
  unfold advance at hAdvance
  cases hCall : s.calls c with
  | idle =>
      rw [hCall] at hAdvance
      cases hAdvance
  | succeeded =>
      rw [hCall] at hAdvance
      cases hAdvance
  | failed error =>
      rw [hCall] at hAdvance
      cases hAdvance
  | opened request =>
      rw [hCall] at hAdvance hStage
      rcases hStage with ⟨hNone, hRole⟩
      cases request with
      | addMember added =>
          exact sound_insertMember hSound hNone hRole hAdvance
      | changeMemberRole actorUserID memberID newRole =>
          cases hAdvance
          apply sound_readMember hSound
          exact ⟨hNone, hRole, fun _ hOwner => by cases hOwner⟩
      | removeMember memberID =>
          cases hAdvance
          apply sound_readMember hSound
          exact ⟨hNone, hRole, fun _ hOwner => by cases hOwner⟩
      | transferOwnership workspaceID newOwnerID =>
          cases hAdvance
          apply hSound.setStage
          exact ⟨hNone, fun _ hOwner => by cases hOwner⟩
  | lockingOwner workspaceID newOwnerID candidates found =>
      rw [hCall] at hAdvance hStage
      cases candidates with
      | nil =>
          cases hAdvance
          apply sound_readMember hSound
          refine ⟨hStage.1, trivial, ?_⟩
          intro owner hOwner
          exact
            ⟨workspaceID, newOwnerID, rfl,
              hStage.2 owner (List.mem_of_head? hOwner)⟩
      | cons candidate rest =>
          simp only at hAdvance
          split at hAdvance
          · cases hAdvance
          · next s₁ reread hLock =>
              cases hAdvance
              exact sound_lockOwner hSound hStage hLock
  | lockingMember request currentOwner =>
      rw [hCall] at hAdvance hStage
      simp only at hAdvance
      split at hAdvance
      · cases hAdvance
      · exact sound_lockMember hSound hStage hAdvance
  | memberLocked request currentOwner locked =>
      rw [hCall] at hAdvance hStage
      rcases hStage with ⟨hNone, hRole, hKnown, hOwns⟩
      cases request with
      | addMember added => cases hAdvance
      | changeMemberRole actorUserID memberID newRole =>
          exact
            sound_changeMemberRole hSound hNone hRole hOwns
              hAdvance
      | removeMember memberID =>
          exact sound_removeMember hSound hNone hOwns hAdvance
      | transferOwnership workspaceID newOwnerID =>
          exact
            sound_transferOwnership hSound hNone hKnown hOwns
              hAdvance
  | promoting currentOwner newOwner =>
      rw [hCall] at hAdvance hStage
      rcases hStage with ⟨hOwns, hRole, hDemoted⟩
      exact sound_promote hSound hOwns hRole hDemoted hAdvance
  | changed =>
      rw [hCall] at hAdvance hStage
      cases hAdvance
      exact hSound.setStage hStage
  | recorded =>
      rw [hCall] at hAdvance
      cases hAdvance
      exact hSound.commit hCall

theorem membersSound_step
    {action : MembersAction}
    (hSound : MembersSound watched s)
    (hStep : step s action = some s') :
    MembersSound watched s' := by
  cases action with
  | begin c request =>
      simp only [step] at hStep
      split at hStep
      · next hIdle =>
          cases hStep
          exact sound_beginCall hSound hIdle request
      · cases hStep
  | advance c => exact membersSound_advance hSound hStep
  | fail c error =>
      simp only [step] at hStep
      split at hStep
      · cases hStep
      · cases hStep
        exact hSound.fail c error

theorem membersSound_start
    (hStart : StartsIdle s)
    (hOwner : HasOneOwner s.members.rows watched) :
    MembersSound watched s := by
  refine ⟨⟨?_, ?_, ?_⟩, ?_, hOwner⟩
  · rw [hStart.locks]
    exact .nil
  · intro pending hPending
    rw [hStart.pending] at hPending
    cases hPending
  · unfold Store.insertedRows
    rw [hStart.pending, List.filterMap_nil, List.append_nil]
    exact hStart.unique
  · intro c
    rw [hStart.calls c]
    change s.members.changesOf c = []
    unfold Store.changesOf
    rw [hStart.pending]
    rfl

------------------------------------------------------------
-- What Steps Leave Alone
------------------------------------------------------------

variable {action : MembersAction}

/- Neither the committed rows nor any stage has changed. -/
structure Unmoved
    (s s' : MembersState) : Prop where
  calls : s'.calls = s.calls
  rows : s'.members.rows = s.members.rows

/-
  A step of the call alone, which changes committed rows
  only if the call has succeeded with it.
-/
structure MovesOnly
    (c : Nat)
    (s s' : MembersState) : Prop where
  calls :
    ∃ stage, s'.calls = Function.update s.calls c stage
  rows :
    s'.members.rows = s.members.rows ∨
      s'.calls c = .succeeded

variable {s s₁ s' : MembersState}
variable {c : Nat}

theorem Unmoved.trans_moves
    (hFirst : Unmoved s s₁)
    (hMoves : MovesOnly c s₁ s') :
    MovesOnly c s s' := by
  rcases hMoves with ⟨⟨stage, hCalls⟩, hRows⟩
  refine ⟨⟨stage, ?_⟩, ?_⟩
  · rw [hCalls, hFirst.calls]
  · rw [← hFirst.rows]
    exact hRows

theorem MovesOnly.setStage
    (s : MembersState)
    (stage : Stage) :
    MovesOnly c s (s.setStage c stage) :=
  ⟨⟨stage, rfl⟩, Or.inl rfl⟩

theorem MovesOnly.fail
    (s : MembersState)
    (error : MembersError) :
    MovesOnly c s (s.fail c error) :=
  ⟨⟨_, rfl⟩, Or.inl rfl⟩

theorem unmoved_lockRow
    {members : Store Nat Uuid Member}
    (hLock : s.members.lockRow c row mode = some members) :
    Unmoved s { s with members := members } := by
  rcases Store.lockRow_some hLock with ⟨locks, _, rfl⟩
  exact ⟨rfl, rfl⟩

theorem unmoved_lockForUpdate
    (hLock :
      lockForUpdate s c memberID = some (s', reread)) :
    Unmoved s s' := by
  rcases lockForUpdate_some hLock with
    ⟨members, hRow, rfl, _⟩
  exact unmoved_lockRow hRow

/- A statement that changes rows commits none of them. -/
theorem unmoved_updateRole
    (hUpdate : updateRole s c memberID role = .changes s') :
    Unmoved s s' := by
  unfold updateRole at hUpdate
  cases hLock :
      s.members.lockRow c memberID .noKeyUpdate with
  | none =>
      rw [hLock] at hUpdate
      cases hUpdate
  | some members =>
      have hUnmoved := unmoved_lockRow hLock
      rw [hLock] at hUpdate
      simp only at hUpdate
      split at hUpdate
      · cases hUpdate
      · split at hUpdate
        · cases hUpdate
          exact ⟨rfl, hUnmoved.rows⟩
        · split at hUpdate
          · cases hUpdate
            exact ⟨rfl, hUnmoved.rows⟩
          · cases hUpdate
          · cases hUpdate

theorem unmoved_deleteMember
    (hDelete : deleteMember s c memberID = .changes s') :
    Unmoved s s' := by
  unfold deleteMember at hDelete
  cases hLock : s.members.lockRow c memberID .update with
  | none =>
      rw [hLock] at hDelete
      cases hDelete
  | some members =>
      rw [hLock] at hDelete
      cases hDelete
      exact ⟨rfl, (unmoved_lockRow hLock).rows⟩

theorem unmoved_insertMember
    {added : Member}
    (hInsert : insertMember s c added = .changes s') :
    Unmoved s s' := by
  unfold insertMember at hInsert
  split at hInsert
  · cases hInsert
    exact ⟨rfl, rfl⟩
  · cases hInsert
  · split at hInsert <;> cases hInsert

theorem moves_afterStatement
    {next : Stage}
    {statement : Statement}
    (hUnmoved :
      ∀ s₁, statement = .changes s₁ → Unmoved s s₁)
    (hAfter : afterStatement s c next statement = some s') :
    MovesOnly c s s' := by
  rcases afterStatement_some hAfter with
    ⟨error, _, rfl⟩ | ⟨s₁, hChanges, rfl⟩ | ⟨_, rfl⟩
  · exact .fail s error
  · exact (hUnmoved s₁ hChanges).trans_moves (.setStage s₁ next)
  · exact .setStage s next

theorem moves_readMember
    (s : MembersState)
    (request : Request)
    (currentOwner : Option Member)
    (memberID : Uuid) :
    MovesOnly c s
      (readMember s c request currentOwner memberID) := by
  unfold readMember
  split
  · exact .fail s .memberNotFound
  · exact .setStage s _

theorem moves_beginCall
    (s : MembersState)
    (request : Request) :
    MovesOnly c s (beginCall s c request) := by
  unfold beginCall
  split
  · split <;> exact .setStage s _
  · split <;> exact .setStage s _
  · exact .setStage s _

theorem moves_memberLocked
    (hCall :
      s.calls c = .memberLocked request currentOwner locked)
    (hAdvance : advance s c = some s') :
    MovesOnly c s s' := by
  unfold advance at hAdvance
  rw [hCall] at hAdvance
  cases request with
  | addMember added => cases hAdvance
  | changeMemberRole actorUserID memberID newRole =>
      simp only [changeMemberRole] at hAdvance
      split at hAdvance
      · cases hAdvance
        exact .fail s _
      · split at hAdvance
        · cases hAdvance
          exact .fail s _
        · exact
            moves_afterStatement
              (fun _ hUpdate => unmoved_updateRole hUpdate)
              hAdvance
  | removeMember memberID =>
      simp only [removeMember] at hAdvance
      split at hAdvance
      · cases hAdvance
        exact .fail s _
      · exact
          moves_afterStatement
            (fun _ hDelete => unmoved_deleteMember hDelete)
            hAdvance
  | transferOwnership workspaceID newOwnerID =>
      simp only [transferOwnership] at hAdvance
      split at hAdvance
      · cases hAdvance
        exact .fail s _
      · split at hAdvance
        · cases hAdvance
          exact .setStage s _
        · split at hAdvance
          · cases hAdvance
            exact .setStage s _
          · exact
              moves_afterStatement
                (fun _ hUpdate => unmoved_updateRole hUpdate)
                hAdvance

theorem moves_advance
    (hAdvance : advance s c = some s') :
    MovesOnly c s s' := by
  cases hCall : s.calls c with
  | memberLocked request currentOwner locked =>
      exact moves_memberLocked hCall hAdvance
  | idle =>
      unfold advance at hAdvance
      rw [hCall] at hAdvance
      cases hAdvance
  | succeeded =>
      unfold advance at hAdvance
      rw [hCall] at hAdvance
      cases hAdvance
  | failed error =>
      unfold advance at hAdvance
      rw [hCall] at hAdvance
      cases hAdvance
  | opened request =>
      unfold advance at hAdvance
      rw [hCall] at hAdvance
      cases request with
      | addMember added =>
          exact
            moves_afterStatement
              (fun _ hInsert => unmoved_insertMember hInsert)
              hAdvance
      | changeMemberRole actorUserID memberID newRole =>
          cases hAdvance
          exact moves_readMember s _ _ _
      | removeMember memberID =>
          cases hAdvance
          exact moves_readMember s _ _ _
      | transferOwnership workspaceID newOwnerID =>
          cases hAdvance
          exact .setStage s _
  | lockingOwner workspaceID newOwnerID candidates found =>
      unfold advance at hAdvance
      rw [hCall] at hAdvance
      cases candidates with
      | nil =>
          cases hAdvance
          exact moves_readMember s _ _ _
      | cons candidate rest =>
          simp only at hAdvance
          split at hAdvance
          · cases hAdvance
          · next s₁ reread hLock =>
              cases hAdvance
              exact
                (unmoved_lockForUpdate hLock).trans_moves
                  (.setStage s₁ _)
  | lockingMember request currentOwner =>
      unfold advance at hAdvance
      rw [hCall] at hAdvance
      simp only [lockMember] at hAdvance
      split at hAdvance
      · cases hAdvance
      · split at hAdvance
        · cases hAdvance
        · next s₁ hLock =>
            cases hAdvance
            exact
              (unmoved_lockForUpdate hLock).trans_moves
                (.fail s₁ _)
        · next s₁ locked hLock =>
            cases hAdvance
            exact
              (unmoved_lockForUpdate hLock).trans_moves
                (.setStage s₁ _)
  | promoting currentOwner newOwner =>
      unfold advance at hAdvance
      rw [hCall] at hAdvance
      simp only [promote] at hAdvance
      split at hAdvance
      · cases hAdvance
        exact .fail s _
      · exact
          moves_afterStatement
            (fun _ hUpdate => unmoved_updateRole hUpdate)
            hAdvance
  | changed =>
      unfold advance at hAdvance
      rw [hCall] at hAdvance
      cases hAdvance
      exact .setStage s _
  | recorded =>
      unfold advance at hAdvance
      rw [hCall] at hAdvance
      cases hAdvance
      exact ⟨⟨_, rfl⟩, Or.inr (Function.update_self _ _ _)⟩

theorem moves_step
    (hStep : step s action = some s') :
    MovesOnly action.call s s' := by
  cases action with
  | begin c request =>
      simp only [step] at hStep
      split at hStep
      · cases hStep
        exact moves_beginCall s request
      · cases hStep
  | advance c => exact moves_advance hStep
  | fail c error =>
      simp only [step] at hStep
      split at hStep
      · cases hStep
      · cases hStep
        exact .fail s error

/- A call that has succeeded takes no more steps. -/
theorem succeeded_stays
    (hCall : s.calls c = .succeeded)
    (hStep : step s action = some s') :
    s'.calls c = .succeeded := by
  rcases (moves_step hStep).calls with ⟨stage, hCalls⟩
  by_cases hOwn : action.call = c
  · subst hOwn
    cases action with
    | begin d request =>
        have hDone : s.calls d = .succeeded := hCall
        simp [step, hDone] at hStep
    | advance d =>
        have hDone : s.calls d = .succeeded := hCall
        simp [step, advance, hDone] at hStep
    | fail d error =>
        have hDone : s.calls d = .succeeded := hCall
        simp [step, Stage.isOver, hDone] at hStep
  · rw [hCalls, Function.update_of_ne (Ne.symm hOwn)]
    exact hCall

/-
  A workspace that starts with one owner has one owner after
  any steps of any calls.  A call that has failed has changed
  no committed row with any of its steps.
-/
theorem workspace_keeps_one_owner
    (workspaceID : Uuid)
    (start : MembersState)
    (hStart : StartsIdle start)
    (hOwner : HasOneOwner start.members.rows workspaceID)
    (actions : List MembersAction)
    (s : MembersState)
    (hRun : membersSystem.perform start actions = some s) :
    HasOneOwner s.members.rows workspaceID ∧
      ∀ before action after s₁ s₂ error,
        actions = before ++ action :: after →
          membersSystem.perform start before = some s₁ →
            step s₁ action = some s₂ →
              s.calls action.call = .failed error →
                s₂.members.rows = s₁.members.rows := by
  constructor
  · have hSound :=
      TransitionSystem.perform_invariant
        (T := membersSystem)
        (fun _ _ _ hHolds hTaken =>
          membersSound_step hHolds hTaken)
        actions (membersSound_start hStart hOwner) hRun
    exact hSound.owner
  · intro before action after s₁ s₂ error hActions hBefore
      hStep hFailed
    rcases (moves_step hStep).rows with hSame | hSucceeded
    · exact hSame
    · have hAfter :
          membersSystem.perform s₂ after = some s := by
        rw [hActions, TransitionSystem.perform_append,
          hBefore, Option.bind_some] at hRun
        simpa only [TransitionSystem.perform,
          show membersSystem.step s₁ action = some s₂
            from hStep] using hRun
      have hStays :=
        TransitionSystem.perform_invariant
          (T := membersSystem)
          (fun _ _ _ hHolds hTaken =>
            succeeded_stays hHolds hTaken)
          after hSucceeded hAfter
      rw [hFailed] at hStays
      cases hStays

def sampleOwner : Member :=
  { id := 1
    workspaceID := 1
    userID := 1
    role := .owner
    createdAt := 0 }

def sampleWorkspace : MembersState :=
  { members :=
      { rows :=
          [sampleOwner,
            { sampleOwner with
              id := 2, userID := 2, role := .admin },
            { sampleOwner with
              id := 3, userID := 3, role := .viewer }] }
    calls := fun _ => .idle }

/- The second transfer waits for the owner's row. -/
def concurrentTransfers : List MembersAction :=
  [.begin 0 (.transferOwnership 1 2),
    .begin 1 (.transferOwnership 1 3), .advance 0,
    .advance 1] ++
    List.replicate 7 (.advance 0) ++
      List.replicate 5 (.advance 1)

/- It finds no owner then, and its promotion is refused. -/
theorem concurrent_transfers_keep_owner :
    ∃ s,
      membersSystem.perform sampleWorkspace
          concurrentTransfers =
          some s ∧
        HasOneOwner s.members.rows 1 := by
  have hStart : StartsIdle sampleWorkspace :=
    ⟨by decide, rfl, rfl, fun _ => rfl⟩
  have hOwner : HasOneOwner sampleWorkspace.members.rows 1 := by
    decide
  have hSome :
      (membersSystem.perform sampleWorkspace
        concurrentTransfers).isSome := by
    decide +kernel
  rcases Option.isSome_iff_exists.mp hSome with ⟨s, hRun⟩
  exact
    ⟨s, hRun,
      (workspace_keeps_one_owner 1 sampleWorkspace hStart
        hOwner concurrentTransfers s hRun).1⟩

example :
    (membersSystem.outcome sampleWorkspace
      concurrentTransfers).calls 1 =
      .failed .other := by
  decide +kernel

end Workspaces

end Databasus
