import Tmis.Lib.RetryQueue
import Tmis.Lib.Store

/-!
# Missions, teams and agents

The records the coordinator works on: a plan of sub-tasks with the sub-tasks each depends on, the
team that carries it out, what the registry knows of an agent, and what a human may decide.

* `WorkItem`, `InMemoryWorkQueue` — the delegated sub-tasks of all missions, with the agent each was assigned to;
* `SubTask`, `MissionPlan`, `Mission` — one request, its plan, and how far it has come;
* `AgentDescriptor`, `Team`, `assignAgent` — who does a sub-task;
* `HumanDecision`, `subTaskIdsFrom` — a decision, and the sub-tasks it names.
-/

namespace Tmis.AiTeam

open Tmis.Lib

/-- The part of an agent's output that a mission reads. -/
structure AgentOutput where
  result : Dict String String := ∅
  deriving DecidableEq

/-- Which sub-task is delegated to which agent; the id of a missing agent is empty. -/
structure WorkPayload where
  subTaskId : String
  agentId : String
  deriving DecidableEq

abbrev WorkItem := Item WorkPayload AgentOutput

abbrev InMemoryWorkQueue := RetryQueue WorkPayload AgentOutput

/-- The queue as its users see it. -/
abbrev InMemoryWorkQueue.calls :
    QueueCalls InMemoryWorkQueue (RetryQueue.NewItem WorkPayload) AgentOutput :=
  RetryQueue.calls

inductive AgentRole where
  | coordinator | documentAnalyst | legalResearcher | jurisprudenceExpert | drafter | verifier
  | qualityController | gdprExpert | taxExpert | socialLawExpert | critic
  deriving DecidableEq

def AgentRole.value : AgentRole → String
  | .coordinator => "coordinator"
  | .documentAnalyst => "document_analyst"
  | .legalResearcher => "legal_researcher"
  | .jurisprudenceExpert => "jurisprudence_expert"
  | .drafter => "drafter"
  | .verifier => "verifier"
  | .qualityController => "quality_controller"
  | .gdprExpert => "gdpr_expert"
  | .taxExpert => "tax_expert"
  | .socialLawExpert => "social_law_expert"
  | .critic => "critic"

inductive TaskType where
  | documentAnalysis | legalResearch | jurisprudenceResearch | riskAnalysis | reasoning | drafting
  | verification | qualityControl | coordination | critique
  deriving DecidableEq

def TaskType.value : TaskType → String
  | .documentAnalysis => "document_analysis"
  | .legalResearch => "legal_research"
  | .jurisprudenceResearch => "jurisprudence_research"
  | .riskAnalysis => "risk_analysis"
  | .reasoning => "reasoning"
  | .drafting => "drafting"
  | .verification => "verification"
  | .qualityControl => "quality_control"
  | .coordination => "coordination"
  | .critique => "critique"

inductive LegalDomain where
  | general | civil | commercial | social | fiscal | dataProtection | penal
  deriving DecidableEq

/-! ### Plans and missions -/

structure SubTask where
  id : String
  taskType : TaskType
  assignedRole : AgentRole
  description : String := ""
  dependsOn : List String := []
  deriving DecidableEq

/-- The sub-tasks of a mission in their order; the planner draws a new id for each. -/
structure MissionPlan where
  subTasks : List SubTask
  nodup : (subTasks.map SubTask.id).Nodup

/-- `sub_tasks_by_id` of the plan, read at one id. -/
def MissionPlan.subTask (plan : MissionPlan) (id : String) : Option SubTask :=
  plan.subTasks.find? fun subTask => subTask.id = id

lemma MissionPlan.subTask_eq_some {plan : MissionPlan} {id : String} {subTask : SubTask} :
    plan.subTask id = some subTask ↔ subTask ∈ plan.subTasks ∧ subTask.id = id := by
  constructor
  · intro h
    exact ⟨List.mem_of_find?_eq_some h, by simpa using List.find?_some h⟩
  · rintro ⟨hmem, rfl⟩
    obtain ⟨found, hfound⟩ : ∃ found, plan.subTask subTask.id = some found := by
      rw [← Option.isSome_iff_exists, MissionPlan.subTask, List.find?_isSome]
      exact ⟨subTask, hmem, by simp⟩
    have hid : found.id = subTask.id := by simpa using List.find?_some hfound
    rw [hfound, List.inj_on_of_nodup_map plan.nodup (List.mem_of_find?_eq_some hfound) hmem hid]

inductive MissionStatus where
  | created | running | awaitingHumanReview | completed | failed | cancelled
  deriving DecidableEq

structure Mission where
  id : Uuid
  firmId : String
  requestDescription : String
  domain : LegalDomain
  teamId : String
  plan : MissionPlan
  status : MissionStatus := .created
  workItemIds : List Uuid := []
  results : Dict String AgentOutput := ∅
  synthesis : Option String := none
  completedAt : Option ℚ := none

/-- Every sub-task this one depends on has a stored result. -/
def Ready (results : Dict String AgentOutput) (subTask : SubTask) : Prop :=
  ∀ dep ∈ subTask.dependsOn, results.contains dep

instance (results : Dict String AgentOutput) (subTask : SubTask) :
    Decidable (Ready results subTask) := by unfold Ready; infer_instance

/-! ### Teams -/

structure AgentDescriptor where
  id : String
  role : AgentRole

structure Team where
  id : String
  memberAgentIds : List String
  domain : LegalDomain := .general

abbrev AgentRegistry := Store String AgentDescriptor AgentDescriptor.id

/-- `DelegationEngine.assign_agent`: the first member of the team that holds the role. -/
def assignAgent (registry : AgentRegistry) (subTask : SubTask) (team : Team) : Option String :=
  ((team.memberAgentIds.filterMap registry.get).find? fun descriptor =>
    descriptor.role = subTask.assignedRole).map (·.id)

/-! ### Human decisions -/

inductive HumanDecisionType where
  | approve | requestNewAnalysis | excludeAgent | addAgent | modifyPlan | rerunSteps
  deriving DecidableEq

structure HumanDecision where
  decisionType : HumanDecisionType
  payload : Dict String String := ∅

/-- `payload[key]`. -/
def HumanDecision.field (decision : HumanDecision) (key : String) : Except PyException String :=
  match decision.payload.get key with
  | some value => .ok value
  | none => .error (keyError key)

/-- `_sub_task_ids_from`. -/
def HumanDecision.subTaskIdsFrom (decision : HumanDecision) : Except PyException (List String) :=
  if decision.decisionType = .requestNewAnalysis then do
    return [← decision.field "sub_task_id"]
  else do
    return pySplit (← decision.field "sub_task_ids") ','

end Tmis.AiTeam
