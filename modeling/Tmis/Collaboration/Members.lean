import Mathlib.Data.Finset.Basic
import Tmis.Lib.Calls
import Tmis.Lib.Store

/-!
# Members, roles and permissions

The members of a workspace and the lifecycle of their statuses; the matrix of what a role permits, with
the grants and revocations made for one member.

* `Member`, `memberTransition` — the state machine of the statuses;
* `ConfigurablePermissionEngine`, `hasPermission` — the matrix and the overrides;
* `hasPermission_grantOverride`, `hasPermission_revokeOverride`, `hasPermission_setRolePermissions` —
  permissions after each change.
-/

namespace Tmis.Collaboration

open Tmis.Lib

/-! ### Members -/

inductive MemberStatus where
  | invited | active | suspended | deactivated
  deriving DecidableEq

def MemberStatus.value : MemberStatus → String
  | invited => "invited"
  | active => "active"
  | suspended => "suspended"
  | deactivated => "deactivated"

/-- `str` of a member of the enumeration. -/
def MemberStatus.str (status : MemberStatus) : String := "MemberStatus." ++ status.value.toUpper

structure MemberHistoryEntry where
  fromStatus : Option MemberStatus
  toStatus : MemberStatus
  actorId : Option String
  deriving DecidableEq

structure Member where
  id : Uuid
  workspaceId : Uuid
  email : String
  displayName : String
  status : MemberStatus := .invited
  history : List MemberHistoryEntry := []
  deriving DecidableEq

/-- `_ALLOWED_TRANSITIONS`. -/
def MemberStatus.allowed : MemberStatus → List MemberStatus
  | invited => [active, deactivated]
  | active => [suspended, deactivated]
  | suspended => [active, deactivated]
  | deactivated => []

/-- The member in another status, with the move in its history. -/
def Member.moved (member : Member) (toStatus : MemberStatus) (actorId : Option String) : Member :=
  { member with
    status := toStatus
    history := member.history ++ [⟨some member.status, toStatus, actorId⟩] }

/-- `MemberService._transition`, of the member that is found. -/
def memberTransition (member : Member) (toStatus : MemberStatus) (actorId : Option String) :
    Except PyException Member :=
  if toStatus ∈ member.status.allowed then .ok (member.moved toStatus actorId)
  else .error (valueError ("Cannot transition member from " ++ member.status.str ++ " to " ++
    toStatus.str))

/-- The statuses in which a member has been put out of the workspace. -/
def MemberStatus.Inactive (status : MemberStatus) : Prop := status = .suspended ∨ status = .deactivated

instance : DecidablePred MemberStatus.Inactive := fun status => by
  unfold MemberStatus.Inactive
  infer_instance

lemma memberTransition_ok {member member' : Member} {toStatus : MemberStatus} {actorId : Option String} :
    memberTransition member toStatus actorId = .ok member' ↔
      toStatus ∈ member.status.allowed ∧ member' = member.moved toStatus actorId := by
  unfold memberTransition
  split
  · rename_i h
    simp only [Except.ok.injEq, h, true_and]
    exact eq_comm
  · rename_i h
    simp [h]

/-! ### Roles and permissions -/

inductive Role where
  | administrator | associate | collaborator | jurist | assistant | client
  deriving DecidableEq

def Role.value : Role → String
  | administrator => "administrator"
  | associate => "associate"
  | collaborator => "collaborator"
  | jurist => "jurist"
  | assistant => "assistant"
  | client => "client"

inductive Permission where
  | workspaceManage | memberInvite | memberManage | roleAssign | caseRead | caseWrite | documentRead
  | documentWrite | documentDelete | taskCreate | taskAssign | taskUpdate | commentWrite
  | approvalRequest | approvalDecide | sharingCreateLink | sharingRevokeLink
  deriving DecidableEq

/-- `set(Permission)`. -/
def Permission.all : Finset Permission :=
  {workspaceManage, memberInvite, memberManage, roleAssign, caseRead, caseWrite, documentRead,
    documentWrite, documentDelete, taskCreate, taskAssign, taskUpdate, commentWrite, approvalRequest,
    approvalDecide, sharingCreateLink, sharingRevokeLink}

/-- `_DEFAULT_MATRIX`. -/
def defaultMatrix : Dict Role (Finset Permission) :=
  (∅ : Dict Role (Finset Permission))
    |>.set .administrator Permission.all
    |>.set .associate (Permission.all.erase .workspaceManage)
    |>.set .collaborator
      {.caseRead, .caseWrite, .documentRead, .documentWrite, .taskCreate, .taskAssign, .taskUpdate,
        .commentWrite, .approvalRequest, .sharingCreateLink}
    |>.set .jurist
      {.caseRead, .caseWrite, .documentRead, .documentWrite, .taskCreate, .taskUpdate, .commentWrite,
        .approvalRequest}
    |>.set .assistant {.caseRead, .documentRead, .taskUpdate, .commentWrite}
    |>.set .client {.caseRead, .documentRead}

/-- A member of a workspace, as the overrides and the roles are keyed. -/
abbrev MemberKey := Uuid × Uuid

structure ConfigurablePermissionEngine where
  matrix : Dict Role (Finset Permission) := defaultMatrix
  grants : Dict MemberKey (Finset Permission) := ∅
  revokes : Dict MemberKey (Finset Permission) := ∅

/-- `d.get(key, set())`. -/
def setAt {K : Type} [DecidableEq K] (d : Dict K (Finset Permission)) (key : K) : Finset Permission :=
  (d.get key).getD ∅

/-- `d.setdefault(key, set()).add(permission)`. -/
def addAt (d : Dict MemberKey (Finset Permission)) (key : MemberKey) (permission : Permission) :
    Dict MemberKey (Finset Permission) :=
  d.set key (insert permission (setAt d key))

/-- `d.get(key, set()).discard(permission)`. -/
def discardAt (d : Dict MemberKey (Finset Permission)) (key : MemberKey) (permission : Permission) :
    Dict MemberKey (Finset Permission) :=
  match d.get key with
  | none => d
  | some permissions => d.set key (permissions.erase permission)

namespace ConfigurablePermissionEngine

/-- A revocation wins over a grant, and a grant over the matrix. -/
def hasPermission (e : ConfigurablePermissionEngine) (key : MemberKey) (role : Role)
    (permission : Permission) : Bool :=
  if permission ∈ setAt e.revokes key then false
  else if permission ∈ setAt e.grants key then true
  else permission ∈ setAt e.matrix role

def grantOverride (e : ConfigurablePermissionEngine) (key : MemberKey) (permission : Permission) :
    ConfigurablePermissionEngine :=
  { e with grants := addAt e.grants key permission, revokes := discardAt e.revokes key permission }

def revokeOverride (e : ConfigurablePermissionEngine) (key : MemberKey) (permission : Permission) :
    ConfigurablePermissionEngine :=
  { e with revokes := addAt e.revokes key permission, grants := discardAt e.grants key permission }

def setRolePermissions (e : ConfigurablePermissionEngine) (role : Role) (permissions : Finset Permission) :
    ConfigurablePermissionEngine :=
  { e with matrix := e.matrix.set role permissions }

end ConfigurablePermissionEngine

/-! ### Permissions after a change -/

section Change

variable {e : ConfigurablePermissionEngine} {key key' : MemberKey} {role role' : Role}
  {permission permission' : Permission} {permissions : Finset Permission}

lemma setAt_addAt (d : Dict MemberKey (Finset Permission)) :
    setAt (addAt d key permission) key' =
      if key' = key then insert permission (setAt d key) else setAt d key' := by
  unfold setAt addAt
  rw [Dict.get_set]
  split <;> rfl

lemma setAt_discardAt (d : Dict MemberKey (Finset Permission)) :
    setAt (discardAt d key permission) key' =
      if key' = key then (setAt d key).erase permission else setAt d key' := by
  unfold discardAt
  cases hfound : d.get key with
  | none =>
    by_cases hkey : key' = key
    · subst hkey
      simp [setAt, hfound]
    · simp [hkey]
  | some found =>
    by_cases hkey : key' = key
    · subst hkey
      simp [setAt, hfound]
    · simp [setAt, Dict.get_set_of_ne _ _ hkey, hkey]

/-- A grant gives the permission to the member it is made for, and changes nothing else. -/
lemma hasPermission_grantOverride :
    (e.grantOverride key permission).hasPermission key' role permission' =
      if key' = key ∧ permission' = permission then true else e.hasPermission key' role permission' := by
  unfold ConfigurablePermissionEngine.hasPermission ConfigurablePermissionEngine.grantOverride
  dsimp only
  rw [setAt_addAt, setAt_discardAt]
  by_cases hkey : key' = key
  · subst hkey
    by_cases hpermission : permission' = permission <;> simp [hpermission]
  · simp [hkey]

/-- A revocation takes the permission from the member it is made for, and changes nothing else. -/
lemma hasPermission_revokeOverride :
    (e.revokeOverride key permission).hasPermission key' role permission' =
      if key' = key ∧ permission' = permission then false
      else e.hasPermission key' role permission' := by
  unfold ConfigurablePermissionEngine.hasPermission ConfigurablePermissionEngine.revokeOverride
  dsimp only
  rw [setAt_addAt, setAt_discardAt]
  by_cases hkey : key' = key
  · subst hkey
    by_cases hpermission : permission' = permission <;> simp [hpermission]
  · simp [hkey]

/-- What a role is set to permit counts for those who hold it, behind their overrides. -/
lemma hasPermission_setRolePermissions :
    (e.setRolePermissions role permissions).hasPermission key role' permission =
      if role' = role then
        (if permission ∈ setAt e.revokes key then false
          else if permission ∈ setAt e.grants key then true else permission ∈ permissions)
      else e.hasPermission key role' permission := by
  unfold ConfigurablePermissionEngine.hasPermission ConfigurablePermissionEngine.setRolePermissions
  dsimp only
  have hset : setAt (e.matrix.set role permissions) role' =
      if role' = role then permissions else setAt e.matrix role' := by
    unfold setAt
    rw [Dict.get_set]
    split <;> rfl
  rw [hset]
  by_cases hrole : role' = role
  · rw [if_pos hrole, if_pos hrole]
  · rw [if_neg hrole, if_neg hrole]

end Change

end Tmis.Collaboration
