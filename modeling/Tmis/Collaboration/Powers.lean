import Tmis.Collaboration.Workspace
import Tmis.Lib.Run

/-!
# Members who were put out

A member who is suspended or deactivated should have no permission.  Permissions come from the role and
the overrides alone, the status is kept elsewhere: it depends on what the member holds when it is put
out, and on what it is given while it is out.

* `Powerless` — no member who is out has a permission;
* `Barred`, `HoldsNothing` — what a member holds permits nothing;
* `PutsOutPowerless` — the discipline of one operation;
* `powerless_step_iff`, `along_powerless_iff` — the runs in which members who are out have no permission.
-/

namespace Tmis.Collaboration

open Tmis.Lib WorkspaceEngine

/-! ### Permissions and statuses -/

namespace WorkspaceEngine

/-- The member is suspended or deactivated. -/
def Out (s : WorkspaceEngine) (memberId : Uuid) : Prop :=
  ∃ member, s.members.get memberId = some member ∧ member.status.Inactive

/-- The member is found, and its status may change to `toStatus`. -/
def MayMove (s : WorkspaceEngine) (memberId : Uuid) (toStatus : MemberStatus) : Prop :=
  ∃ member, s.members.get memberId = some member ∧ toStatus ∈ member.status.allowed

end WorkspaceEngine

/-- No member who is out has a permission, in any workspace. -/
def Powerless (s : WorkspaceEngine) : Prop :=
  ∀ memberId, s.Out memberId → ∀ workspaceId permission,
    s.hasPermission workspaceId memberId permission = false

/-- The role and the overrides permit nothing: what is not revoked is neither granted nor permitted by
the role. -/
def Barred (e : ConfigurablePermissionEngine) (key : MemberKey) (role : Role) : Prop :=
  ∀ permission, permission ∉ setAt e.revokes key →
    permission ∉ setAt e.grants key ∧ permission ∉ setAt e.matrix role

/-- The member holds no role that permits something, in any workspace. -/
def HoldsNothing (s : WorkspaceEngine) (memberId : Uuid) : Prop :=
  ∀ workspaceId role, s.roles.get (workspaceId, memberId) = some role →
    Barred s.permissions (workspaceId, memberId) role

/-- A member is put out only when it holds nothing, and is given nothing while it is out. -/
def PutsOutPowerless (s : WorkspaceEngine) : Operation → Prop
  | .changeMemberStatus _ memberId target _ => ∀ toStatus, statusNamed target = .ok toStatus →
      s.MayMove memberId toStatus → toStatus.Inactive → HoldsNothing s memberId
  | .memberService transition memberId _ => s.MayMove memberId transition.toStatus →
      transition.toStatus.Inactive → HoldsNothing s memberId
  | .assignRole workspaceId memberId role _ => s.Out memberId →
      Barred s.permissions (workspaceId, memberId) role
  | .grantOverride workspaceId memberId _ => s.Out memberId →
      s.roles.get (workspaceId, memberId) = none
  | .setRolePermissions role permissions => ∀ workspaceId memberId, s.Out memberId →
      s.roles.get (workspaceId, memberId) = some role →
      permissions ⊆ setAt s.permissions.revokes (workspaceId, memberId)
  | _ => True

lemma barred_iff {e : ConfigurablePermissionEngine} {key : MemberKey} {role : Role} :
    Barred e key role ↔ ∀ permission, e.hasPermission key role permission = false := by
  refine forall_congr' fun permission => ?_
  unfold ConfigurablePermissionEngine.hasPermission
  by_cases hrevoked : permission ∈ setAt e.revokes key <;>
    by_cases hgranted : permission ∈ setAt e.grants key <;> simp [hrevoked, hgranted]

section Change

variable {s : WorkspaceEngine} {workspaceId memberId : Uuid}

lemma holdsNothing_iff :
    HoldsNothing s memberId ↔
      ∀ workspaceId permission, s.hasPermission workspaceId memberId permission = false := by
  refine forall_congr' fun workspaceId => ?_
  unfold WorkspaceEngine.hasPermission
  cases hrole : s.roles.get (workspaceId, memberId) with
  | none => simp
  | some role =>
    simp only [Option.some.injEq, forall_eq']
    exact barred_iff

lemma powerless_iff : Powerless s ↔ ∀ memberId, s.Out memberId → HoldsNothing s memberId :=
  forall_congr' fun _ => imp_congr_right fun _ => holdsNothing_iff.symm

lemma out_saveMember {member : Member} :
    { s with members := s.members.save member }.Out memberId ↔
      if memberId = member.id then member.status.Inactive else s.Out memberId := by
  unfold WorkspaceEngine.Out
  simp only [Store.get_save]
  split
  · simp
  · rfl

/-! ### What each change does to members who are out -/

/-- A member who is saved out must hold nothing. -/
lemma powerless_saveMember (h : Powerless s) (member : Member) :
    Powerless { s with members := s.members.save member } ↔
      (member.status.Inactive → HoldsNothing s member.id) := by
  rw [powerless_iff]
  constructor
  · intro h' hout
    have hsaved := h' member.id (out_saveMember.mpr ((if_pos rfl).mpr hout))
    exact hsaved
  · intro h' memberId hout
    rw [out_saveMember] at hout
    by_cases hsame : memberId = member.id
    · subst hsame
      exact h' ((if_pos rfl).mp hout)
    · exact powerless_iff.mp h memberId ((if_neg hsame).mp hout)

/-- A role given to a member who is out must permit nothing. -/
lemma powerless_setRole (h : Powerless s) (role : Role) :
    Powerless { s with roles := s.roles.set (workspaceId, memberId) role } ↔
      (s.Out memberId → Barred s.permissions (workspaceId, memberId) role) := by
  rw [powerless_iff]
  constructor
  · intro h' hout
    exact h' memberId hout workspaceId role (Dict.get_set_self ..)
  · intro h' memberId' hout workspaceId' role' hrole
    by_cases hkey : (workspaceId', memberId') = (workspaceId, memberId)
    · obtain ⟨rfl, rfl⟩ := Prod.mk.inj hkey
      have hsame : some role = some role' := (Dict.get_set_self ..).symm.trans hrole
      cases hsame
      exact h' hout
    · refine powerless_iff.mp h memberId' hout workspaceId' role' ?_
      exact (Dict.get_set_of_ne _ _ hkey).symm.trans hrole

/-- A grant gives the permission to the member it is made for, if it has a role, and nothing else. -/
lemma hasPermission_afterGrant (permission : Permission) {workspaceId' memberId' : Uuid}
    {permission' : Permission} :
    { s with permissions := s.permissions.grantOverride (workspaceId, memberId) permission }.hasPermission
        workspaceId' memberId' permission' = true ↔
      s.hasPermission workspaceId' memberId' permission' = true ∨
        (workspaceId', memberId') = (workspaceId, memberId) ∧ permission' = permission ∧
          s.roles.get (workspaceId, memberId) ≠ none := by
  unfold WorkspaceEngine.hasPermission
  dsimp only
  cases hrole : s.roles.get (workspaceId', memberId') with
  | none =>
    simp only [Bool.false_eq_true, false_or, false_iff]
    rintro ⟨hkey, -, hheld⟩
    exact hheld (hkey ▸ hrole)
  | some role =>
    simp only [hasPermission_grantOverride]
    by_cases hchanged : (workspaceId', memberId') = (workspaceId, memberId) ∧ permission' = permission
    · have hheld : s.roles.get (workspaceId, memberId) ≠ none := by
        rw [← hchanged.1, hrole]
        exact Option.some_ne_none role
      simp [hchanged, hheld]
    · rw [if_neg hchanged]
      refine ⟨Or.inl, ?_⟩
      rintro (hheld | ⟨hkey, hpermission, -⟩)
      · exact hheld
      · exact absurd ⟨hkey, hpermission⟩ hchanged

/-- A member who is out and has a role must not be granted anything. -/
lemma powerless_grantOverride (h : Powerless s) (permission : Permission) :
    Powerless { s with permissions := s.permissions.grantOverride (workspaceId, memberId) permission } ↔
      (s.Out memberId → s.roles.get (workspaceId, memberId) = none) := by
  constructor
  · intro h' hout
    by_contra hheld
    have hfalse := h' memberId hout workspaceId permission
    have htrue := (hasPermission_afterGrant permission).mpr (Or.inr ⟨rfl, rfl, hheld⟩)
    rw [hfalse] at htrue
    cases htrue
  · intro h' memberId' hout workspaceId' permission'
    rw [← Bool.not_eq_true, hasPermission_afterGrant]
    rintro (hheld | ⟨hkey, -, hheld⟩)
    · rw [h memberId' hout] at hheld
      cases hheld
    · cases hkey
      exact hheld (h' hout)

/-- A revocation takes permissions only. -/
lemma powerless_revokeOverride (h : Powerless s) (permission : Permission) :
    Powerless
      { s with permissions := s.permissions.revokeOverride (workspaceId, memberId) permission } := by
  intro memberId' hout workspaceId' permission'
  have hbefore := h memberId' hout workspaceId' permission'
  unfold WorkspaceEngine.hasPermission at hbefore ⊢
  dsimp only at hbefore ⊢
  split
  · rfl
  · rename_i role hrole
    rw [hrole] at hbefore
    rw [hasPermission_revokeOverride]
    split
    · rfl
    · exact hbefore

/-- What a role is set to permit must be revoked for the members who are out and hold it. -/
lemma powerless_setRolePermissions (h : Powerless s) (role : Role) (permissions : Finset Permission) :
    Powerless { s with permissions := s.permissions.setRolePermissions role permissions } ↔
      ∀ workspaceId memberId, s.Out memberId → s.roles.get (workspaceId, memberId) = some role →
        permissions ⊆ setAt s.permissions.revokes (workspaceId, memberId) := by
  rw [powerless_iff]
  constructor
  · intro h' workspaceId memberId hout hrole permission hmem
    have hbarred := barred_iff.mp (h' memberId hout workspaceId role hrole) permission
    rw [hasPermission_setRolePermissions, if_pos rfl] at hbarred
    by_contra hrevoked
    rw [if_neg hrevoked] at hbarred
    split at hbarred
    · cases hbarred
    · exact absurd hmem (of_decide_eq_false hbarred)
  · intro h' memberId hout workspaceId role' hrole
    have hbefore := powerless_iff.mp h memberId hout workspaceId role' hrole
    rw [barred_iff]
    intro permission
    rw [hasPermission_setRolePermissions]
    split
    · rename_i hsame
      subst hsame
      by_cases hrevoked : permission ∈ setAt s.permissions.revokes (workspaceId, memberId)
      · rw [if_pos hrevoked]
      · rw [if_neg hrevoked, if_neg (hbefore permission hrevoked).1]
        exact decide_eq_false fun hmem => hrevoked (h' workspaceId memberId hout hrole hmem)
    · exact barred_iff.mp hbefore permission

/-- A member whose status may change is put out holding nothing, or stays in. -/
lemma powerless_transitionMember (h : Powerless s) (toStatus : MemberStatus) (actorId : Option String) :
    (∀ r, s.transitionMember memberId toStatus actorId = .ok r → Powerless r.2) ↔
      (s.MayMove memberId toStatus → toStatus.Inactive → HoldsNothing s memberId) := by
  simp only [transitionMember_ok]
  constructor
  · rintro h' ⟨member, hget, hallowed⟩
    have hsaved := h' _ ⟨member, hget, hallowed, rfl⟩
    obtain rfl := Store.key_of_get hget
    exact (powerless_saveMember h (member.moved toStatus actorId)).mp hsaved
  · rintro h' _ ⟨member, hget, hallowed, rfl⟩
    have hnothing := h' ⟨member, hget, hallowed⟩
    obtain rfl := Store.key_of_get hget
    exact (powerless_saveMember h (member.moved toStatus actorId)).mpr hnothing

end Change

/-! ### Runs -/

section Runs

variable {s : WorkspaceEngine}

/-- A change of status through the workspace is the change through the member service, recorded. -/
lemma powerless_changeMemberStatus (h : Powerless s) (workspaceId memberId : Uuid)
    (target actorId : String) :
    (∀ r, s.changeMemberStatus workspaceId memberId target actorId = .ok r → Powerless r.2) ↔
      ∀ toStatus, statusNamed target = .ok toStatus → s.MayMove memberId toStatus →
        toStatus.Inactive → HoldsNothing s memberId := by
  simp only [changeMemberStatus, bind_eq_ok, pure_eq_ok]
  constructor
  · intro h' toStatus hnamed
    refine (powerless_transitionMember h toStatus (some actorId)).mp fun r hr => ?_
    have hrecorded := h' _ ⟨toStatus, hnamed, r, hr, rfl⟩
    exact hrecorded
  · rintro h' _ ⟨toStatus, hnamed, r, hr, rfl⟩
    exact (powerless_transitionMember h toStatus (some actorId)).mpr (h' toStatus hnamed) r hr

/-- **One operation.**  Where members who are out have no permission, an operation leaves it so iff it
puts out members who hold nothing, and gives nothing to those who are out. -/
theorem powerless_step_iff (h : Powerless s) (op : Operation) :
    Powerless (step s op) ↔ PutsOutPowerless s op := by
  cases op with
  | changeMemberStatus workspaceId memberId target actorId =>
    exact (afterCall_map_iff h).trans (powerless_changeMemberStatus h workspaceId memberId target actorId)
  | memberService transition memberId actorId =>
    exact (afterCall_map_iff h).trans (powerless_transitionMember h transition.toStatus actorId)
  | assignRole workspaceId memberId role actorId => exact powerless_setRole h role
  | grantOverride workspaceId memberId permission => exact powerless_grantOverride h permission
  | revokeOverride workspaceId memberId permission =>
    exact iff_of_true (powerless_revokeOverride h permission) trivial
  | setRolePermissions role permissions => exact powerless_setRolePermissions h role permissions
  | inviteMember workspaceId email displayName actorId =>
    -- a member who is invited is not out
    have hinvited := (powerless_saveMember h
      { id := s.uuids, workspaceId, email, displayName, history := [⟨none, .invited, none⟩] }).mpr
      (fun hout => by cases hout <;> contradiction)
    refine iff_of_true ?_ trivial
    dsimp only [step, inviteMember]
    split
    · exact hinvited
    · exact hinvited
  | createTask workspaceId title actorId description caseId assigneeId priority dependsOn =>
    refine iff_of_true ?_ trivial
    dsimp only [step, createTask]
    split
    · exact h
    · exact h
  | updateTaskStatus workspaceId taskId target actorId =>
    refine iff_of_true ((afterCall_map_iff h).mpr fun r hr => ?_) trivial
    obtain ⟨task, -, -, rfl⟩ := updateTaskStatus_ok.mp hr
    exact h
  | decideApproval workspaceId approvalId approverId decision actorId comment =>
    refine iff_of_true ((afterCall_map_iff h).mpr fun r hr => ?_) trivial
    obtain ⟨approval, -, -, rfl⟩ := decideApproval_ok.mp hr
    exact h
  | revokeShareLink workspaceId token actorId now =>
    refine iff_of_true ((afterCall_map_iff h).mpr fun r hr => ?_) trivial
    obtain ⟨link, -, rfl⟩ := revokeShareLink_ok.mp hr
    exact h
  | _ => exact iff_of_true h trivial

end Runs

/-- **Members who are out have no power, exactly.**  In a run of a new engine no member who is
suspended or deactivated has a permission in any state reached, iff every member is put out holding
nothing and is given nothing while it is out. -/
theorem along_powerless_iff (matrix : Dict Role (Finset Permission)) (transitions : Transitions)
    (ops : List Operation) :
    Along step (fun s op => Powerless (step s op)) (start matrix transitions) ops ↔
      Along step PutsOutPowerless (start matrix transitions) ops := by
  have hstart : Powerless (start matrix transitions) := by
    rintro memberId ⟨member, hget, -⟩
    cases hget
  exact along_congr hstart (fun s op h hop => (powerless_step_iff h op).mpr hop)
    (fun s op h => powerless_step_iff h op)

/-! ### An administrator who is suspended -/

/-- A member becomes an administrator of its workspace, and is suspended. -/
def administratorSuspended : List Operation :=
  [.createWorkspace "firm-a" "Pôle social" "associe1",
    .inviteMember 0 "paul@cabinet.fr" "Paul" "associe1",
    .changeMemberStatus 0 2 "active" "associe1",
    .assignRole 0 2 .administrator "associe1",
    .changeMemberStatus 0 2 "suspended" "associe1"]

/-- The suspended administrator still manages the workspace. -/
theorem administrator_suspended :
    ¬ Along step (fun s op => Powerless (step s op)) (start defaultMatrix defaultTransitions)
      administratorSuspended := by
  rintro ⟨-, -, -, -, hpowerless, -⟩
  let s := run step (start defaultMatrix defaultTransitions) administratorSuspended
  have hsuspended : (s.members.get 2).map Member.status = some .suspended := by decide +kernel
  have hmanages : s.hasPermission 0 2 .workspaceManage = true := by decide +kernel
  obtain ⟨member, hget, hstatus⟩ := Option.map_eq_some_iff.mp hsuspended
  have hfalse := hpowerless 2 ⟨member, hget, Or.inl hstatus⟩ 0 .workspaceManage
  exact absurd (hmanages.symm.trans hfalse) (by decide)

end Tmis.Collaboration
