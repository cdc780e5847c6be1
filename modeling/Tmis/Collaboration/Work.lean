import Tmis.Lib.Calls
import Tmis.Lib.Store

/-!
# Tasks, comments, approvals and shares

What is worked on in a workspace, and the rules that change one such entity: the workflow of a task, the
status an approval gets from its decisions, the revocation of a link.

* `Task`, `taskUpdateStatus` — tasks and the table of their transitions;
* `ApprovalRequest`, `approvalDecide` — approvals and their history;
* `ShareLink`, `InternalShare`, `Comment`, `AuditEntry`;
* `approvalDecide_ok`, `taskUpdateStatus_ok` — when the changes are made.
-/

namespace Tmis.Collaboration

open Tmis.Lib

/-! ### Tasks -/

inductive WorkflowStatus where
  | todo | inProgress | inReview | toValidate | validated | archived
  deriving DecidableEq

def WorkflowStatus.value : WorkflowStatus → String
  | todo => "todo"
  | inProgress => "in_progress"
  | inReview => "in_review"
  | toValidate => "to_validate"
  | validated => "validated"
  | archived => "archived"

def WorkflowStatus.str (status : WorkflowStatus) : String := "WorkflowStatus." ++ status.value.toUpper

/-- The table of a workflow engine. -/
abbrev Transitions := WorkflowStatus → List WorkflowStatus

/-- `_DEFAULT_TRANSITIONS`. -/
def defaultTransitions : Transitions
  | .todo => [.inProgress, .archived]
  | .inProgress => [.inReview, .todo, .archived]
  | .inReview => [.toValidate, .inProgress, .archived]
  | .toValidate => [.validated, .inReview, .archived]
  | .validated => [.archived]
  | .archived => []

inductive TaskPriority where
  | low | medium | high | urgent
  deriving DecidableEq

structure Task where
  id : Uuid
  workspaceId : Uuid
  title : String
  description : String
  caseId : Option String := none
  assigneeId : Option String := none
  priority : TaskPriority := .medium
  status : WorkflowStatus := .todo
  dependsOn : List String := []
  deriving DecidableEq

/-- `TaskService.update_status`, of the task that is found. -/
def taskUpdateStatus (transitions : Transitions) (task : Task) (target : WorkflowStatus) :
    Except PyException Task :=
  if target ∈ transitions task.status then .ok { task with status := target }
  else .error (valueError ("Cannot transition from " ++ task.status.str ++ " to " ++ target.str))

lemma taskUpdateStatus_ok {transitions : Transitions} {task task' : Task} {target : WorkflowStatus} :
    taskUpdateStatus transitions task target = .ok task' ↔
      target ∈ transitions task.status ∧ task' = { task with status := target } := by
  unfold taskUpdateStatus
  split
  · rename_i h
    simp only [Except.ok.injEq, h, true_and]
    exact eq_comm
  · rename_i h
    simp [h]

/-! ### Comments -/

inductive CommentTargetType where
  | case | document | «section» | paragraph | task
  deriving DecidableEq

def CommentTargetType.value : CommentTargetType → String
  | .case => "case"
  | .document => "document"
  | .«section» => "section"
  | .paragraph => "paragraph"
  | .task => "task"

structure Comment where
  id : Uuid
  workspaceId : Uuid
  targetType : CommentTargetType
  targetId : String
  authorId : String
  text : String
  parentId : Option Uuid := none
  attachmentIds : List String := []
  deriving DecidableEq

/-! ### Approvals -/

inductive ApprovalMode where
  | single | multiple
  deriving DecidableEq

inductive ApprovalStatus where
  | pending | approved | rejected | changesRequested
  deriving DecidableEq

def ApprovalStatus.value : ApprovalStatus → String
  | pending => "pending"
  | approved => "approved"
  | rejected => "rejected"
  | changesRequested => "changes_requested"

inductive ApprovalDecisionType where
  | approve | reject | requestChanges
  deriving DecidableEq

structure ApprovalDecision where
  approverId : String
  decision : ApprovalDecisionType
  comment : Option String
  deriving DecidableEq

structure ApprovalRequest where
  id : Uuid
  workspaceId : Uuid
  targetType : String
  targetId : String
  requestedBy : String
  approverIds : List String
  mode : ApprovalMode
  status : ApprovalStatus := .pending
  history : List ApprovalDecision := []
  deriving DecidableEq

/-- The latest decision of each approver. -/
def latestDecisions (history : List ApprovalDecision) : Dict String ApprovalDecisionType :=
  history.foldl (fun latest entry => latest.set entry.approverId entry.decision) ∅

def computeStatus (mode : ApprovalMode) (approverIds : List String) (history : List ApprovalDecision) :
    ApprovalStatus :=
  let latest := latestDecisions history
  if latest.values.any (· = .reject) then .rejected
  else if latest.values.any (· = .requestChanges) then .changesRequested
  else if mode = .single then
    if latest.values.any (· = .approve) then .approved else .pending
  else if approverIds.all (latest.get · = some .approve) then .approved
  else .pending

/-- The approval with one more decision, and the status that follows from them. -/
def ApprovalRequest.decided (approval : ApprovalRequest) (approverId : String)
    (decision : ApprovalDecisionType) (comment : Option String) : ApprovalRequest :=
  let history := approval.history ++ [⟨approverId, decision, comment⟩]
  { approval with history, status := computeStatus approval.mode approval.approverIds history }

/-- `ApprovalEngine.decide`, of the approval that is found. -/
def approvalDecide (approval : ApprovalRequest) (approverId : String) (decision : ApprovalDecisionType)
    (comment : Option String) : Except PyException ApprovalRequest :=
  if approverId ∈ approval.approverIds then .ok (approval.decided approverId decision comment)
  else .error (valueError (pyRepr approverId ++ " is not an approver for " ++
    pyRepr (toString approval.id)))

lemma approvalDecide_ok {approval approval' : ApprovalRequest} {approverId : String}
    {decision : ApprovalDecisionType} {comment : Option String} :
    approvalDecide approval approverId decision comment = .ok approval' ↔
      approverId ∈ approval.approverIds ∧ approval' = approval.decided approverId decision comment := by
  unfold approvalDecide
  split
  · rename_i h
    simp only [Except.ok.injEq, h, true_and]
    exact eq_comm
  · rename_i h
    simp [h]

/-! ### Shares -/

inductive SharePermission where
  | read | comment
  deriving DecidableEq

structure InternalShare where
  id : Uuid
  workspaceId : Uuid
  targetType : String
  targetId : String
  sharedWithMemberId : String
  permission : SharePermission
  createdBy : String
  deriving DecidableEq

/-- A share link; its token is drawn as an identifier is. -/
structure ShareLink where
  id : Uuid
  workspaceId : Uuid
  targetType : String
  targetId : String
  token : Uuid
  permission : SharePermission
  createdBy : String
  createdAt : ℤ
  expiresAt : Option ℤ := none
  revokedAt : Option ℤ := none
  deriving DecidableEq

/-! ### The audit trail -/

structure AuditEntry where
  id : Uuid
  workspaceId : Uuid
  actorId : String
  action : String
  targetType : String
  targetId : String
  oldState : List (String × String) := []
  newState : List (String × String) := []
  deriving DecidableEq

end Tmis.Collaboration
