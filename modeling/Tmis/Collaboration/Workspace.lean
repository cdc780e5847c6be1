import Tmis.Collaboration.Members
import Tmis.Collaboration.Work

/-!
# The workspace engine

`collaboration.workspace.WorkspaceEngine` with the stores behind it: each operation is given the
identifier of a workspace, changes an entity through the service of its kind, and writes an entry into
the audit trail of the workspace it was given.

* `WorkspaceEngine` — the stores;
* `inviteMember`, `changeMemberStatus`, `assignRole`, `createTask`, `updateTaskStatus`, … — the operations;
* `hasPermission` — what a member may do;
* `Operation`, `step` — one operation, on the engine or on the services it shares.
-/

namespace Tmis.Collaboration

open Tmis.Lib

structure Workspace where
  id : Uuid
  firmId : String
  name : String
  memberIds : Finset Uuid := ∅
  taskIds : Finset Uuid := ∅
  deriving DecidableEq

/-- The engine with its stores; `uuids` counts the identifiers and tokens drawn so far. -/
structure WorkspaceEngine where
  workspaces : Store Uuid Workspace Workspace.id := ∅
  members : Store Uuid Member Member.id := ∅
  roles : Dict MemberKey Role := ∅
  permissions : ConfigurablePermissionEngine := {}
  transitions : Transitions := defaultTransitions
  tasks : Store Uuid Task Task.id := ∅
  comments : Store Uuid Comment Comment.id := ∅
  approvals : Store Uuid ApprovalRequest ApprovalRequest.id := ∅
  shares : Store Uuid InternalShare InternalShare.id := ∅
  links : Store Uuid ShareLink ShareLink.token := ∅
  audit : List AuditEntry := []
  uuids : ℕ := 0

/-- What is found, or a `ValueError` about what is unknown. -/
def requireFound {α : Type} (found : Option α) (what : String) (id : Uuid) : Except PyException α :=
  match found with
  | some x => .ok x
  | none => .error (valueError ("Unknown " ++ what ++ " " ++ pyRepr (toString id)))

lemma requireFound_ok {α : Type} {found : Option α} {what : String} {id : Uuid} {x : α} :
    requireFound found what id = .ok x ↔ found = some x := by
  cases found <;> simp [requireFound]

namespace WorkspaceEngine

/-- `AuditTrail.record`. -/
def record (s : WorkspaceEngine) (workspaceId : Uuid) (actorId action targetType targetId : String)
    (oldState newState : List (String × String)) : WorkspaceEngine :=
  { s with
    audit := s.audit ++
      [{ id := s.uuids, workspaceId, actorId, action, targetType, targetId, oldState, newState }]
    uuids := s.uuids + 1 }

def createWorkspace (s : WorkspaceEngine) (firmId name actorId : String) : Workspace × WorkspaceEngine :=
  let workspace : Workspace := { id := s.uuids, firmId, name }
  (workspace, { s with workspaces := s.workspaces.save workspace, uuids := s.uuids + 1 }.record
    workspace.id actorId "workspace.create" "workspace" (toString workspace.id) []
    [("name", name), ("firm_id", firmId)])

/-- `get_workspace`. -/
def getWorkspace (s : WorkspaceEngine) (workspaceId : Uuid) : Except PyException Workspace :=
  requireFound (s.workspaces.get workspaceId) "workspace" workspaceId

/-! ### Members -/

/-- `invite_member`: the member is saved before the workspace is looked up. -/
def inviteMember (s : WorkspaceEngine) (workspaceId : Uuid) (email displayName actorId : String) :
    Except PyException Member × WorkspaceEngine :=
  let member : Member :=
    { id := s.uuids, workspaceId, email, displayName, history := [⟨none, .invited, none⟩] }
  let s := { s with members := s.members.save member, uuids := s.uuids + 1 }
  match s.getWorkspace workspaceId with
  | .error e => (.error e, s)
  | .ok workspace =>
    let workspace := { workspace with memberIds := insert member.id workspace.memberIds }
    (.ok member, { s with workspaces := s.workspaces.save workspace }.record workspaceId actorId
      "member.invite" "member" (toString member.id) []
      [("email", email), ("status", member.status.value)])

/-- `MemberService._transition`. -/
def transitionMember (s : WorkspaceEngine) (memberId : Uuid) (toStatus : MemberStatus)
    (actorId : Option String) : Except PyException (Member × WorkspaceEngine) := do
  let member ← requireFound (s.members.get memberId) "member" memberId
  let member ← memberTransition member toStatus actorId
  return (member, { s with members := s.members.save member })

/-- The names that `change_member_status` has a transition for. -/
def statusNamed (target : String) : Except PyException MemberStatus :=
  if target = "active" then .ok .active
  else if target = "suspended" then .ok .suspended
  else if target = "deactivated" then .ok .deactivated
  else .error (keyError target)

def changeMemberStatus (s : WorkspaceEngine) (workspaceId memberId : Uuid) (target actorId : String) :
    Except PyException (Member × WorkspaceEngine) := do
  let toStatus ← statusNamed target
  let (member, s) ← s.transitionMember memberId toStatus (some actorId)
  let fromStatus := (member.history.getLast?.bind (·.fromStatus)).map MemberStatus.value
  return (member, s.record workspaceId actorId "member.status_change" "member" (toString memberId)
    [("status", fromStatus.getD "")] [("status", member.status.value)])

def assignRole (s : WorkspaceEngine) (workspaceId memberId : Uuid) (role : Role) (actorId : String) :
    WorkspaceEngine :=
  { s with roles := s.roles.set (workspaceId, memberId) role }.record workspaceId actorId "role.assign"
    "member" (toString memberId) [] [("role", role.value)]

def hasPermission (s : WorkspaceEngine) (workspaceId memberId : Uuid) (permission : Permission) : Bool :=
  match s.roles.get (workspaceId, memberId) with
  | none => false
  | some role => s.permissions.hasPermission (workspaceId, memberId) role permission

/-! ### Work -/

/-- `create_task`: the task is saved before the workspace is looked up. -/
def createTask (s : WorkspaceEngine) (workspaceId : Uuid) (title actorId description : String)
    (caseId assigneeId : Option String) (priority : TaskPriority) (dependsOn : List String) :
    Except PyException Task × WorkspaceEngine :=
  let task : Task :=
    { id := s.uuids, workspaceId, title, description, caseId, assigneeId, priority, dependsOn }
  let s := { s with tasks := s.tasks.save task, uuids := s.uuids + 1 }
  match s.getWorkspace workspaceId with
  | .error e => (.error e, s)
  | .ok workspace =>
    let workspace := { workspace with taskIds := insert task.id workspace.taskIds }
    (.ok task, { s with workspaces := s.workspaces.save workspace }.record workspaceId actorId
      "task.create" "task" (toString task.id) [] [("title", title), ("status", task.status.value)])

def updateTaskStatus (s : WorkspaceEngine) (workspaceId taskId : Uuid) (target : WorkflowStatus)
    (actorId : String) : Except PyException (Task × WorkspaceEngine) := do
  let before ← requireFound (s.tasks.get taskId) "task" taskId
  let task ← taskUpdateStatus s.transitions before target
  return (task, { s with tasks := s.tasks.save task }.record workspaceId actorId "task.status_change"
    "task" (toString taskId) [("status", before.status.value)] [("status", target.value)])

def addComment (s : WorkspaceEngine) (workspaceId : Uuid) (targetType : CommentTargetType)
    (targetId authorId text : String) (attachmentIds : List String) : Comment × WorkspaceEngine :=
  let comment : Comment :=
    { id := s.uuids, workspaceId, targetType, targetId, authorId, text, attachmentIds }
  (comment, { s with comments := s.comments.save comment, uuids := s.uuids + 1 }.record workspaceId
    authorId "comment.add" targetType.value targetId [] [("comment_id", toString comment.id)])

def requestApproval (s : WorkspaceEngine) (workspaceId : Uuid) (targetType targetId requestedBy : String)
    (approverIds : List String) (mode : ApprovalMode) : ApprovalRequest × WorkspaceEngine :=
  let approval : ApprovalRequest :=
    { id := s.uuids, workspaceId, targetType, targetId, requestedBy, approverIds, mode }
  (approval, { s with approvals := s.approvals.save approval, uuids := s.uuids + 1 }.record workspaceId
    requestedBy "approval.request" targetType targetId []
    [("approval_id", toString approval.id), ("status", approval.status.value)])

def decideApproval (s : WorkspaceEngine) (workspaceId approvalId : Uuid) (approverId : String)
    (decision : ApprovalDecisionType) (actorId : String) (comment : Option String) :
    Except PyException (ApprovalRequest × WorkspaceEngine) := do
  let approval ← requireFound (s.approvals.get approvalId) "approval request" approvalId
  let approval ← approvalDecide approval approverId decision comment
  return (approval, { s with approvals := s.approvals.save approval }.record workspaceId actorId
    "approval.decide" approval.targetType approval.targetId [] [("status", approval.status.value)])

/-! ### Sharing -/

def createShareLink (s : WorkspaceEngine) (workspaceId : Uuid) (targetType targetId : String)
    (permission : SharePermission) (actorId : String) (expiresIn : Option ℤ) (now : ℤ) :
    ShareLink × WorkspaceEngine :=
  let link : ShareLink :=
    { id := s.uuids, workspaceId, targetType, targetId, token := s.uuids + 1, permission,
      createdBy := actorId, createdAt := now, expiresAt := expiresIn.map (now + ·) }
  (link, { s with links := s.links.save link, uuids := s.uuids + 2 }.record workspaceId actorId
    "sharing.create_link" targetType targetId [] [("share_id", toString link.id)])

def revokeShareLink (s : WorkspaceEngine) (workspaceId token : Uuid) (actorId : String) (now : ℤ) :
    Except PyException (ShareLink × WorkspaceEngine) := do
  let link ← requireFound (s.links.get token) "share link" token
  let link := { link with revokedAt := some now }
  return (link, { s with links := s.links.save link }.record workspaceId actorId "sharing.revoke_link"
    link.targetType link.targetId [("revoked", "false")] [("revoked", "true")])

def shareInternally (s : WorkspaceEngine) (workspaceId : Uuid)
    (targetType targetId sharedWithMemberId : String) (permission : SharePermission)
    (actorId : String) : InternalShare × WorkspaceEngine :=
  let share : InternalShare :=
    { id := s.uuids, workspaceId, targetType, targetId, sharedWithMemberId, permission,
      createdBy := actorId }
  (share, { s with shares := s.shares.save share, uuids := s.uuids + 1 })

/-- A new engine, over a matrix of permissions and a table of transitions. -/
def start (matrix : Dict Role (Finset Permission)) (transitions : Transitions) : WorkspaceEngine :=
  { permissions := { matrix }, transitions }

end WorkspaceEngine

/-! ### Calls that return -/

section Returns

open WorkspaceEngine

variable {s : WorkspaceEngine}

lemma transitionMember_ok {memberId : Uuid} {toStatus : MemberStatus} {actorId : Option String}
    {r : Member × WorkspaceEngine} :
    s.transitionMember memberId toStatus actorId = .ok r ↔
      ∃ member, s.members.get memberId = some member ∧ toStatus ∈ member.status.allowed ∧
        r = (member.moved toStatus actorId, { s with
          members := s.members.save (member.moved toStatus actorId) }) := by
  simp only [transitionMember, bind_eq_ok, pure_eq_ok, requireFound_ok, memberTransition_ok]
  constructor
  · rintro ⟨member, hget, member', ⟨hallowed, rfl⟩, rfl⟩
    exact ⟨member, hget, hallowed, rfl⟩
  · rintro ⟨member, hget, hallowed, rfl⟩
    exact ⟨member, hget, _, ⟨hallowed, rfl⟩, rfl⟩

lemma updateTaskStatus_ok {workspaceId taskId : Uuid} {target : WorkflowStatus} {actorId : String}
    {r : Task × WorkspaceEngine} :
    s.updateTaskStatus workspaceId taskId target actorId = .ok r ↔
      ∃ task, s.tasks.get taskId = some task ∧ target ∈ s.transitions task.status ∧
        r = ({ task with status := target },
          { s with tasks := s.tasks.save { task with status := target } }.record workspaceId actorId
            "task.status_change" "task" (toString taskId) [("status", task.status.value)]
            [("status", target.value)]) := by
  simp only [updateTaskStatus, bind_eq_ok, pure_eq_ok, requireFound_ok, taskUpdateStatus_ok]
  constructor
  · rintro ⟨task, hget, task', ⟨hallowed, rfl⟩, rfl⟩
    exact ⟨task, hget, hallowed, rfl⟩
  · rintro ⟨task, hget, hallowed, rfl⟩
    exact ⟨task, hget, _, ⟨hallowed, rfl⟩, rfl⟩

lemma decideApproval_ok {workspaceId approvalId : Uuid} {approverId : String}
    {decision : ApprovalDecisionType} {actorId : String} {comment : Option String}
    {r : ApprovalRequest × WorkspaceEngine} :
    s.decideApproval workspaceId approvalId approverId decision actorId comment = .ok r ↔
      ∃ approval, s.approvals.get approvalId = some approval ∧ approverId ∈ approval.approverIds ∧
        r = (approval.decided approverId decision comment,
          { s with approvals := s.approvals.save (approval.decided approverId decision comment) }.record
            workspaceId actorId "approval.decide" approval.targetType approval.targetId []
            [("status", (approval.decided approverId decision comment).status.value)]) := by
  simp only [decideApproval, bind_eq_ok, pure_eq_ok, requireFound_ok, approvalDecide_ok]
  constructor
  · rintro ⟨approval, hget, approval', ⟨hlisted, rfl⟩, rfl⟩
    exact ⟨approval, hget, hlisted, rfl⟩
  · rintro ⟨approval, hget, hlisted, rfl⟩
    exact ⟨approval, hget, _, ⟨hlisted, rfl⟩, rfl⟩

lemma revokeShareLink_ok {workspaceId token : Uuid} {actorId : String} {now : ℤ}
    {r : ShareLink × WorkspaceEngine} :
    s.revokeShareLink workspaceId token actorId now = .ok r ↔
      ∃ link, s.links.get token = some link ∧
        r = ({ link with revokedAt := some now },
          { s with links := s.links.save { link with revokedAt := some now } }.record workspaceId actorId
            "sharing.revoke_link" link.targetType link.targetId [("revoked", "false")]
            [("revoked", "true")]) := by
  simp only [revokeShareLink, bind_eq_ok, pure_eq_ok, requireFound_ok]
  refine exists_congr fun link => and_congr_right fun _ => ?_
  exact eq_comm

end Returns

/-! ### Runs -/

/-- What `MemberService` offers on its own. -/
inductive MemberTransition where
  | activate | suspend | deactivate | reactivate
  deriving DecidableEq

def MemberTransition.toStatus : MemberTransition → MemberStatus
  | activate => .active
  | suspend => .suspended
  | deactivate => .deactivated
  | reactivate => .active

inductive Operation where
  | createWorkspace (firmId name actorId : String)
  | inviteMember (workspaceId : Uuid) (email displayName actorId : String)
  | changeMemberStatus (workspaceId memberId : Uuid) (target actorId : String)
  | assignRole (workspaceId memberId : Uuid) (role : Role) (actorId : String)
  | createTask (workspaceId : Uuid) (title actorId description : String)
      (caseId assigneeId : Option String) (priority : TaskPriority) (dependsOn : List String)
  | updateTaskStatus (workspaceId taskId : Uuid) (target : WorkflowStatus) (actorId : String)
  | addComment (workspaceId : Uuid) (targetType : CommentTargetType) (targetId authorId text : String)
      (attachmentIds : List String)
  | requestApproval (workspaceId : Uuid) (targetType targetId requestedBy : String)
      (approverIds : List String) (mode : ApprovalMode)
  | decideApproval (workspaceId approvalId : Uuid) (approverId : String)
      (decision : ApprovalDecisionType) (actorId : String) (comment : Option String)
  | createShareLink (workspaceId : Uuid) (targetType targetId : String) (permission : SharePermission)
      (actorId : String) (expiresIn : Option ℤ) (now : ℤ)
  | revokeShareLink (workspaceId token : Uuid) (actorId : String) (now : ℤ)
  | shareInternally (workspaceId : Uuid) (targetType targetId sharedWithMemberId : String)
      (permission : SharePermission) (actorId : String)
  | memberService (transition : MemberTransition) (memberId : Uuid) (actorId : Option String)
  | grantOverride (workspaceId memberId : Uuid) (permission : Permission)
  | revokeOverride (workspaceId memberId : Uuid) (permission : Permission)
  | setRolePermissions (role : Role) (permissions : Finset Permission)

/-- One operation: of the engine, of the member service, or of the permission engine. -/
def step (s : WorkspaceEngine) : Operation → WorkspaceEngine
  | .createWorkspace firmId name actorId => (s.createWorkspace firmId name actorId).2
  | .inviteMember workspaceId email displayName actorId =>
    (s.inviteMember workspaceId email displayName actorId).2
  | .changeMemberStatus workspaceId memberId target actorId =>
    afterCall s ((s.changeMemberStatus workspaceId memberId target actorId).map Prod.snd)
  | .assignRole workspaceId memberId role actorId => s.assignRole workspaceId memberId role actorId
  | .createTask workspaceId title actorId description caseId assigneeId priority dependsOn =>
    (s.createTask workspaceId title actorId description caseId assigneeId priority dependsOn).2
  | .updateTaskStatus workspaceId taskId target actorId =>
    afterCall s ((s.updateTaskStatus workspaceId taskId target actorId).map Prod.snd)
  | .addComment workspaceId targetType targetId authorId text attachmentIds =>
    (s.addComment workspaceId targetType targetId authorId text attachmentIds).2
  | .requestApproval workspaceId targetType targetId requestedBy approverIds mode =>
    (s.requestApproval workspaceId targetType targetId requestedBy approverIds mode).2
  | .decideApproval workspaceId approvalId approverId decision actorId comment =>
    afterCall s ((s.decideApproval workspaceId approvalId approverId decision actorId comment).map Prod.snd)
  | .createShareLink workspaceId targetType targetId permission actorId expiresIn now =>
    (s.createShareLink workspaceId targetType targetId permission actorId expiresIn now).2
  | .revokeShareLink workspaceId token actorId now =>
    afterCall s ((s.revokeShareLink workspaceId token actorId now).map Prod.snd)
  | .shareInternally workspaceId targetType targetId sharedWithMemberId permission actorId =>
    (s.shareInternally workspaceId targetType targetId sharedWithMemberId permission actorId).2
  | .memberService transition memberId actorId =>
    afterCall s ((s.transitionMember memberId transition.toStatus actorId).map Prod.snd)
  | .grantOverride workspaceId memberId permission =>
    { s with permissions := s.permissions.grantOverride (workspaceId, memberId) permission }
  | .revokeOverride workspaceId memberId permission =>
    { s with permissions := s.permissions.revokeOverride (workspaceId, memberId) permission }
  | .setRolePermissions role permissions =>
    { s with permissions := s.permissions.setRolePermissions role permissions }

end Tmis.Collaboration
