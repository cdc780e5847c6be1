import Mathlib.Data.Finset.Disjoint
import Tmis.Collaboration.Workspace
import Tmis.Lib.Run

/-!
# Permission overrides

The grants and the revocations made for a member are kept as two sets, of which a permission is in at
most one: together they say what the last override of the permission was.

* `override` — what the two sets say of a permission;
* `Operation.overrides`, `Operation.sets`, `Operation.assigns` — what one operation writes;
* `Exclusive` — no permission is both granted and revoked;
* `override_run`, `matrix_run`, `roles_run` — after a run, the last write of each.
-/

namespace Tmis.Collaboration

open Tmis.Lib WorkspaceEngine

/-! ### The override of a permission -/

namespace ConfigurablePermissionEngine

/-- The override of a permission for a member, if there is one. -/
def override (e : ConfigurablePermissionEngine) (key : MemberKey) (permission : Permission) :
    Option Bool :=
  if permission ∈ setAt e.revokes key then some false
  else if permission ∈ setAt e.grants key then some true
  else none

/-- No permission is both granted to a member and revoked from it. -/
def Exclusive (e : ConfigurablePermissionEngine) : Prop :=
  ∀ key, Disjoint (setAt e.grants key) (setAt e.revokes key)

variable {e : ConfigurablePermissionEngine} {key key' : MemberKey} {permission permission' : Permission}

/-- The override decides, or else what the role permits. -/
lemma hasPermission_eq (role : Role) :
    e.hasPermission key role permission =
      (e.override key permission).getD (permission ∈ setAt e.matrix role) := by
  unfold hasPermission override
  split
  · rfl
  · split <;> rfl

lemma override_grantOverride :
    (e.grantOverride key permission).override key' permission' =
      if key' = key ∧ permission' = permission then some true else e.override key' permission' := by
  unfold override grantOverride
  dsimp only
  rw [setAt_addAt, setAt_discardAt]
  by_cases hkey : key' = key
  · subst hkey
    by_cases hpermission : permission' = permission <;> simp [hpermission]
  · simp [hkey]

lemma override_revokeOverride :
    (e.revokeOverride key permission).override key' permission' =
      if key' = key ∧ permission' = permission then some false else e.override key' permission' := by
  unfold override revokeOverride
  dsimp only
  rw [setAt_addAt, setAt_discardAt]
  by_cases hkey : key' = key
  · subst hkey
    by_cases hpermission : permission' = permission <;> simp [hpermission]
  · simp [hkey]

/-- Adding to one set takes away from the other one. -/
lemma disjoint_addAt_discardAt {added discarded : Dict MemberKey (Finset Permission)}
    (h : Disjoint (setAt added key') (setAt discarded key')) :
    Disjoint (setAt (addAt added key permission) key') (setAt (discardAt discarded key permission) key') := by
  rw [setAt_addAt, setAt_discardAt]
  by_cases hkey : key' = key
  · subst hkey
    rw [if_pos rfl, if_pos rfl, Finset.disjoint_insert_left]
    exact ⟨Finset.notMem_erase _ _, h.mono_right (Finset.erase_subset _ _)⟩
  · rwa [if_neg hkey, if_neg hkey]

lemma Exclusive.grantOverride (h : e.Exclusive) : (e.grantOverride key permission).Exclusive :=
  fun key' => disjoint_addAt_discardAt (h key')

lemma Exclusive.revokeOverride (h : e.Exclusive) : (e.revokeOverride key permission).Exclusive :=
  fun key' => (disjoint_addAt_discardAt (h key').symm).symm

end ConfigurablePermissionEngine

/-! ### What one operation writes -/

/-- The override that an operation makes of a permission for a member. -/
def Operation.overrides (key : MemberKey) (permission : Permission) : Operation → Option Bool
  | .grantOverride workspaceId memberId permission' =>
    if key = (workspaceId, memberId) ∧ permission = permission' then some true else none
  | .revokeOverride workspaceId memberId permission' =>
    if key = (workspaceId, memberId) ∧ permission = permission' then some false else none
  | _ => none

/-- What an operation sets a role to permit. -/
def Operation.sets (role : Role) : Operation → Option (Finset Permission)
  | .setRolePermissions role' permissions => if role = role' then some permissions else none
  | _ => none

/-- The role that an operation gives to a member. -/
def Operation.assigns (key : MemberKey) : Operation → Option Role
  | .assignRole workspaceId memberId role _ => if key = (workspaceId, memberId) then some role else none
  | _ => none

/-- What an operation does to the permissions. -/
def Operation.permissions (e : ConfigurablePermissionEngine) : Operation → ConfigurablePermissionEngine
  | .grantOverride workspaceId memberId permission => e.grantOverride (workspaceId, memberId) permission
  | .revokeOverride workspaceId memberId permission => e.revokeOverride (workspaceId, memberId) permission
  | .setRolePermissions role permissions => e.setRolePermissions role permissions
  | _ => e

/-- What an operation does to the roles of the members. -/
def Operation.roles (roles : Dict MemberKey Role) : Operation → Dict MemberKey Role
  | .assignRole workspaceId memberId role _ => roles.set (workspaceId, memberId) role
  | _ => roles

section Step

variable (s : WorkspaceEngine) (op : Operation)

/-- Only four of the operations are about permissions and roles. -/
lemma step_access :
    (step s op).permissions = op.permissions s.permissions ∧ (step s op).roles = op.roles s.roles := by
  have hkept : ∀ {X : Type} {call : Except PyException (X × WorkspaceEngine)},
      (∀ r, call = .ok r → r.2.permissions = s.permissions ∧ r.2.roles = s.roles) →
      (afterCall s (call.map Prod.snd)).permissions = s.permissions ∧
        (afterCall s (call.map Prod.snd)).roles = s.roles :=
    fun h => (afterCall_map_iff
      (P := fun s' : WorkspaceEngine => s'.permissions = s.permissions ∧ s'.roles = s.roles) ⟨rfl, rfl⟩).mpr h
  have hmoved : ∀ {memberId toStatus actorId r}, s.transitionMember memberId toStatus actorId = .ok r →
      r.2.permissions = s.permissions ∧ r.2.roles = s.roles := by
    intro memberId toStatus actorId r hr
    obtain ⟨member, -, -, rfl⟩ := transitionMember_ok.mp hr
    exact ⟨rfl, rfl⟩
  cases op with
  | inviteMember workspaceId email displayName actorId =>
    dsimp only [step, inviteMember]
    split <;> exact ⟨rfl, rfl⟩
  | createTask workspaceId title actorId description caseId assigneeId priority dependsOn =>
    dsimp only [step, createTask]
    split <;> exact ⟨rfl, rfl⟩
  | changeMemberStatus workspaceId memberId target actorId =>
    refine hkept fun r hr => ?_
    simp only [changeMemberStatus, bind_eq_ok, pure_eq_ok] at hr
    obtain ⟨toStatus, -, moved, hmove, rfl⟩ := hr
    have hsame := hmoved hmove
    exact hsame
  | memberService transition memberId actorId => exact hkept fun r hr => hmoved hr
  | updateTaskStatus workspaceId taskId target actorId =>
    refine hkept fun r hr => ?_
    obtain ⟨task, -, -, rfl⟩ := updateTaskStatus_ok.mp hr
    exact ⟨rfl, rfl⟩
  | decideApproval workspaceId approvalId approverId decision actorId comment =>
    refine hkept fun r hr => ?_
    obtain ⟨approval, -, -, rfl⟩ := decideApproval_ok.mp hr
    exact ⟨rfl, rfl⟩
  | revokeShareLink workspaceId token actorId now =>
    refine hkept fun r hr => ?_
    obtain ⟨link, -, rfl⟩ := revokeShareLink_ok.mp hr
    exact ⟨rfl, rfl⟩
  | _ => exact ⟨rfl, rfl⟩

lemma exclusive_step (h : s.permissions.Exclusive) : (step s op).permissions.Exclusive := by
  rw [(step_access s op).1]
  cases op with
  | grantOverride workspaceId memberId permission => exact h.grantOverride
  | revokeOverride workspaceId memberId permission => exact h.revokeOverride
  | _ => exact h

lemma override_step (key : MemberKey) (permission : Permission) :
    (step s op).permissions.override key permission =
      (op.overrides key permission).or (s.permissions.override key permission) := by
  rw [(step_access s op).1]
  cases op with
  | grantOverride workspaceId memberId permission' =>
    refine ConfigurablePermissionEngine.override_grantOverride.trans ?_
    dsimp only [Operation.overrides]
    split <;> rfl
  | revokeOverride workspaceId memberId permission' =>
    refine ConfigurablePermissionEngine.override_revokeOverride.trans ?_
    dsimp only [Operation.overrides]
    split <;> rfl
  | _ => rfl

lemma matrix_step (role : Role) :
    (step s op).permissions.matrix.get role = (op.sets role).or (s.permissions.matrix.get role) := by
  rw [(step_access s op).1]
  cases op with
  | setRolePermissions role' permissions =>
    refine (Dict.get_set _ _ _ _).trans ?_
    dsimp only [Operation.sets]
    split <;> rfl
  | _ => rfl

lemma roles_step (key : MemberKey) :
    (step s op).roles.get key = (op.assigns key).or (s.roles.get key) := by
  rw [(step_access s op).2]
  cases op with
  | assignRole workspaceId memberId role actorId =>
    refine (Dict.get_set _ _ _ _).trans ?_
    dsimp only [Operation.assigns]
    split <;> rfl
  | _ => rfl

end Step

/-! ### Runs -/

section Runs

/-- A new engine, over a matrix of permissions, after some operations. -/
abbrev after (matrix : Dict Role (Finset Permission)) (transitions : Transitions) (ops : List Operation) :
    WorkspaceEngine :=
  run step (start matrix transitions) ops

variable (matrix : Dict Role (Finset Permission)) (transitions : Transitions) (ops : List Operation)

lemma exclusive_run : (after matrix transitions ops).permissions.Exclusive :=
  run_inv ops (fun _ => Finset.disjoint_empty_left _) exclusive_step

/-- The last override of a permission for a member is the one in force. -/
lemma override_run (key : MemberKey) (permission : Permission) :
    (after matrix transitions ops).permissions.override key permission =
      lastWrite (Operation.overrides key permission) ops := by
  have hread := run_read (·.permissions.override key permission) (Operation.overrides key permission)
    (fun s op => override_step s op key permission) (start matrix transitions) ops
  exact hread.trans Option.or_none

lemma matrix_run (role : Role) :
    (after matrix transitions ops).permissions.matrix.get role =
      (lastWrite (Operation.sets role) ops).or (matrix.get role) :=
  run_read (·.permissions.matrix.get role) (Operation.sets role) (fun s op => matrix_step s op role)
    (start matrix transitions) ops

lemma roles_run (key : MemberKey) :
    (after matrix transitions ops).roles.get key = lastWrite (Operation.assigns key) ops := by
  have hread := run_read (·.roles.get key) (Operation.assigns key) (fun s op => roles_step s op key)
    (start matrix transitions) ops
  exact hread.trans Option.or_none

/-- **Overrides.**  After any operations of an engine on any matrix, no permission is both granted to a
member and revoked from it; the last override of a permission for a member decides, or else what its role
permits by the last setting of the matrix; the role is the last one assigned; and an override changes the
answers of no other member. -/
theorem last_override_decides :
    (∀ key, Disjoint (setAt (after matrix transitions ops).permissions.grants key)
      (setAt (after matrix transitions ops).permissions.revokes key)) ∧
    (∀ key role permission,
      (after matrix transitions ops).permissions.hasPermission key role permission =
        (lastWrite (Operation.overrides key permission) ops).getD
          (permission ∈ ((lastWrite (Operation.sets role) ops).or (matrix.get role)).getD ∅)) ∧
    (∀ workspaceId memberId permission,
      (after matrix transitions ops).hasPermission workspaceId memberId permission =
        match lastWrite (Operation.assigns (workspaceId, memberId)) ops with
        | none => false
        | some role =>
          (after matrix transitions ops).permissions.hasPermission (workspaceId, memberId) role permission) ∧
    ∀ workspaceId memberId overridden key, key ≠ (workspaceId, memberId) → ∀ op,
      op = .grantOverride workspaceId memberId overridden ∨
        op = .revokeOverride workspaceId memberId overridden →
      ∀ role permission,
        (after matrix transitions (ops ++ [op])).permissions.hasPermission key role permission =
          (after matrix transitions ops).permissions.hasPermission key role permission := by
  refine ⟨exclusive_run matrix transitions ops, ?_, ?_, ?_⟩
  · intro key role permission
    rw [ConfigurablePermissionEngine.hasPermission_eq, override_run, setAt, matrix_run]
  · intro workspaceId memberId permission
    have hrole := roles_run matrix transitions ops (workspaceId, memberId)
    unfold WorkspaceEngine.hasPermission
    cases hassigned : lastWrite (Operation.assigns (workspaceId, memberId)) ops with
    | none => simp only [hrole, hassigned]
    | some role => simp only [hrole, hassigned]
  · rintro workspaceId memberId overridden key hkey op (rfl | rfl) role permission
    · rw [after, run_snoc]
      refine hasPermission_grantOverride.trans (if_neg ?_)
      exact fun h => hkey h.1
    · rw [after, run_snoc]
      refine hasPermission_revokeOverride.trans (if_neg ?_)
      exact fun h => hkey h.1

end Runs

end Tmis.Collaboration
