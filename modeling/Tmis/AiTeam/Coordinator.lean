import Mathlib.Logic.Function.Basic
import Tmis.AiTeam.Mission

/-!
# The coordinator

Missions over one work queue.  A launch and a human decision run to their end; a run of a mission
stops wherever it awaits an agent, and the others go on meanwhile.

* `enqueueReadySubtasks`, `rerunSubTasks` — the two ways in which work items come about;
* `nextRunnableItem`, `pass`, `agentReturned`, `agentRaised` — the loop of `run_mission`, cut where
  it awaits an agent;
* `Platform`, `Op`, `step` — the engine with its callers, and what may happen next.
-/

namespace Tmis.AiTeam

open Tmis.Lib

/-- `CoordinatorEngine` with what it was constructed with; of the agents, their ids.  `uuids` counts
the identifiers drawn so far. -/
structure CoordinatorEngine where
  workQueue : InMemoryWorkQueue := {}
  missions : Store Uuid Mission Mission.id := ∅
  registry : AgentRegistry := ∅
  agents : List String := []
  uuids : ℕ := 0

namespace CoordinatorEngine

/-- The coordinator has an agent under the id; an empty id stands for a missing one. -/
def HasAgent (c : CoordinatorEngine) (agentId : String) : Prop := agentId ≠ "" ∧ agentId ∈ c.agents

instance (c : CoordinatorEngine) (agentId : String) : Decidable (c.HasAgent agentId) := by
  unfold HasAgent; infer_instance

/-- The work items of a mission. -/
def workItems (c : CoordinatorEngine) (mission : Mission) : List WorkItem :=
  mission.workItemIds.filterMap c.workQueue.get

/-! ### Delegation -/

section Delegation

variable (clock : Uuid → ℚ)

/-- A work item for the sub-task: the agent is assigned, the item is enqueued, and its id is added to
the mission.  `clock id` is the time at which the identifier `id` is drawn. -/
def delegate (c : CoordinatorEngine) (mission : Mission) (subTask : SubTask) (team : Team)
    (priority : ℤ := 0) : CoordinatorEngine × Mission :=
  let workItem : WorkItem := {
    id := c.uuids
    payload := ⟨subTask.id, (assignAgent c.registry subTask team).getD ""⟩
    priority
    createdAt := clock c.uuids }
  ({ c with workQueue := c.workQueue.enqueue workItem, uuids := c.uuids + 1 },
    { mission with workItemIds := mission.workItemIds ++ [workItem.id] })

/-- `_enqueue_ready_subtasks`: a work item for every ready sub-task that never had one. -/
def enqueueReadySubtasks (c : CoordinatorEngine) (mission : Mission) (team : Team) :
    CoordinatorEngine × Mission :=
  let enqueuedSubTaskIds := (c.workItems mission).map (·.payload.subTaskId)
  let subTasks := mission.plan.subTasks
  subTasks.foldl (fun s subTask =>
    if subTask.id ∈ enqueuedSubTaskIds ∨ ¬ Ready s.2.results subTask then s
    else s.1.delegate clock s.2 subTask team (subTasks.length - subTasks.idxOf subTask)) (c, mission)

/-- A mission as it is created. -/
def newMission (id : Uuid) (firmId requestDescription : String) (team : Team) (plan : MissionPlan) :
    Mission :=
  { id, firmId, requestDescription, domain := team.domain, teamId := team.id, plan }

/-- `launch_mission`, with the plan that the planner made of the request. -/
def launchMission (c : CoordinatorEngine) (firmId requestDescription : String) (team : Team)
    (plan : MissionPlan) : Mission × CoordinatorEngine :=
  let s := enqueueReadySubtasks clock { c with uuids := c.uuids + 1 }
    (newMission c.uuids firmId requestDescription team plan) team
  (s.2, { s.1 with missions := s.1.missions.save s.2 })

/-- The body of the loop of `_rerun_sub_tasks`. -/
def rerunSubTask (plan : MissionPlan) (team : Team) (s : CoordinatorEngine × Mission)
    (subTaskId : String) : CoordinatorEngine × Mission :=
  match plan.subTask subTaskId with
  | none => s
  | some subTask =>
      s.1.delegate clock { s.2 with results := s.2.results.pop subTaskId } subTask team

/-- `_rerun_sub_tasks`: every named sub-task of the plan loses its result and gets a new work item. -/
def rerunSubTasks (c : CoordinatorEngine) (mission : Mission) (team : Team)
    (subTaskIds : List String) : CoordinatorEngine × Mission :=
  let s := subTaskIds.foldl (rerunSubTask clock mission.plan team) (c, mission)
  (s.1, { s.2 with status := .running })

/-- `_missions.get`, or the `ValueError` of a mission that is not there. -/
def require (c : CoordinatorEngine) (missionId : Uuid) : Except PyException Mission :=
  match c.missions.get missionId with
  | some mission => .ok mission
  | none => .error (valueError ("mission " ++ toString missionId ++ " not found"))

/-- `apply_human_decision`: the mission, the team after it, and the engine. -/
def applyHumanDecision (c : CoordinatorEngine) (missionId : Uuid) (team : Team)
    (decision : HumanDecision) : Except PyException (Mission × Team × CoordinatorEngine) := do
  let mission ← c.require missionId
  match decision.decisionType with
  | .excludeAgent =>
      let agentId ← decision.field "agent_id"
      return (mission, { team with memberAgentIds := team.memberAgentIds.filter (· ≠ agentId) }, c)
  | .addAgent =>
      let agentId ← decision.field "agent_id"
      let memberAgentIds :=
        if agentId ∈ team.memberAgentIds then team.memberAgentIds
        else team.memberAgentIds ++ [agentId]
      return (mission, { team with memberAgentIds }, c)
  | .requestNewAnalysis | .rerunSteps =>
      let s := c.rerunSubTasks clock mission team (← decision.subTaskIdsFrom)
      return (s.2, team, { s.1 with missions := s.1.missions.save s.2 })
  | .approve | .modifyPlan => return (mission, team, c)

end Delegation

/-! ### Running a mission -/

/-- `_next_runnable_item`: of the mission's items that wait, the one with the highest priority, the
oldest of these. -/
def nextRunnableItem (c : CoordinatorEngine) (mission : Mission) : Option WorkItem :=
  (((c.workItems mission).filter fun item => item.Runnable).insertionSort Item.before).head?

/-- `_build_synthesis`. -/
def buildSynthesis (mission : Mission) : String :=
  "\n\n".intercalate (mission.plan.subTasks.filterMap fun subTask =>
    (mission.results.get subTask.id).map fun output =>
      "## " ++ subTask.taskType.value ++ "\n" ++ (output.result.get "text").getD "")

/-- The mission after the loop. -/
def finished (mission : Mission) (now : ℚ) : Mission :=
  if mission.results.keys.length = mission.plan.subTasks.length then
    { mission with
      completedAt := some now
      synthesis := some (buildSynthesis mission)
      status := .completed }
  else { mission with completedAt := some now, status := .failed }

/-- `run_mission` up to its loop: the mission, its context, and the engine. -/
def beginRun (c : CoordinatorEngine) (missionId : Uuid) :
    Except PyException (Dict String String × CoordinatorEngine) := do
  let mission ← c.require missionId
  return ((∅ : Dict String String).set "case_summary" mission.requestDescription,
    { c with missions := c.missions.save { mission with status := .running } })

/-- Where one pass of the loop leads: out of it, back to its top, or to an agent that is awaited. -/
inductive Pass where
  | finished (c : CoordinatorEngine)
  | agentMissing (c : CoordinatorEngine)
  | awaits (c : CoordinatorEngine) (item : WorkItem) (subTask : SubTask)
  | raised (e : PyException)

/-- The loop of `run_mission` from its top to the agent. -/
def pass (c : CoordinatorEngine) (mission : Mission) (now : ℚ) : Pass :=
  match c.nextRunnableItem mission with
  | none => .finished { c with missions := c.missions.save (finished mission now) }
  | some item =>
      match mission.plan.subTask item.payload.subTaskId with
      | none => .raised (keyError item.payload.subTaskId)
      | some subTask =>
          if c.HasAgent item.payload.agentId then
            match c.workQueue.markRunning item.id now with
            | .error e => .raised e
            | .ok workQueue => .awaits { c with workQueue } item subTask
          else
            match do
              (← c.workQueue.markRunning item.id now).markFailed item.id
                ("no agent available for " ++ subTask.assignedRole.value) now with
            | .error e => .raised e
            | .ok workQueue => .agentMissing { c with workQueue }

/-- The loop from an agent's output back to its top: the context of the mission, and the engine. -/
def agentReturned (clock : Uuid → ℚ) (c : CoordinatorEngine) (mission : Mission) (team : Team)
    (missionContext : Dict String String) (itemId : Uuid) (subTask : SubTask) (output : AgentOutput)
    (now : ℚ) : Except PyException (Dict String String × CoordinatorEngine) := do
  let workQueue ← c.workQueue.markDone itemId output now
  let s := enqueueReadySubtasks clock { c with workQueue }
    { mission with results := mission.results.set subTask.id output } team
  return (missionContext.set (subTask.taskType.value ++ "_result")
      ((output.result.get "text").getD ""),
    { s.1 with missions := s.1.missions.save s.2 })

/-- The loop from an agent's exception back to its top. -/
def agentRaised (c : CoordinatorEngine) (itemId : Uuid) (error : String) (now : ℚ) :
    Except PyException CoordinatorEngine := do
  return { c with workQueue := ← c.workQueue.markFailed itemId error now }

end CoordinatorEngine

/-! ### The engine and its callers -/

/-- A call of `run_mission` on its way, and the item and sub-task whose agent it awaits. -/
structure MissionRun where
  missionId : Uuid
  teamId : String
  missionContext : Dict String String
  awaiting : Option (Uuid × SubTask) := none

/-- One agent called, with what the mission held at that moment. -/
structure Invocation where
  missionId : Uuid
  subTask : SubTask
  agentId : String
  missionContext : Dict String String
  results : Dict String AgentOutput

/-- The engine, the teams its callers hold, the runs on their way, and the agents called so far. -/
structure Platform where
  coordinator : CoordinatorEngine := {}
  teams : Store String Team Team.id := ∅
  runs : ℕ → Option MissionRun := fun _ => none
  invocations : List Invocation := []

namespace Platform

/-- What may happen: `r` is the run it happens to. -/
inductive Op where
  | register (descriptor : AgentDescriptor)
  | buildTeam (team : Team)
  | launch (firmId requestDescription teamId : String) (plan : MissionPlan)
  | decide (missionId : Uuid) (teamId : String) (decision : HumanDecision)
  | begin (r : ℕ) (missionId : Uuid) (teamId : String)
  | iterate (r : ℕ) (now : ℚ)
  | agentReturns (r : ℕ) (output : AgentOutput) (now : ℚ)
  | agentRaises (r : ℕ) (error : String) (now : ℚ)
  | interrupt (r : ℕ)

/-- The platform after the run `r` came to `run`. -/
def turn (p : Platform) (r : ℕ) (run : Option MissionRun) : Platform :=
  { p with runs := Function.update p.runs r run }

@[simp] lemma turn_runs_self (p : Platform) (r : ℕ) (run : Option MissionRun) :
    (p.turn r run).runs r = run := Function.update_self ..

lemma turn_runs_of_ne {p : Platform} {r r' : ℕ} {run : Option MissionRun} (h : r' ≠ r) :
    (p.turn r run).runs r' = p.runs r' := Function.update_of_ne h ..

/-- What a run at the top of its loop does next. -/
def iterate (p : Platform) (r : ℕ) (run : MissionRun) (mission : Mission) (now : ℚ) : Platform :=
  match p.coordinator.pass mission now with
  | .finished coordinator => { p with coordinator }.turn r none
  | .agentMissing coordinator => { p with coordinator }
  | .awaits coordinator item subTask =>
      let invocation : Invocation := {
        missionId := mission.id
        subTask
        agentId := item.payload.agentId
        missionContext := run.missionContext
        results := mission.results }
      { p with coordinator, invocations := p.invocations ++ [invocation] }.turn r
        (some { run with awaiting := some (item.id, subTask) })
  | .raised _ => p.turn r none

/-- What happens next.  A call on a team or a run that is not there does nothing, and neither does a
run that is not at the point where it may do it; a run whose call raises is over. -/
def step (clock : Uuid → ℚ) (p : Platform) : Op → Platform
  | .register descriptor =>
      { p with coordinator :=
          { p.coordinator with registry := p.coordinator.registry.save descriptor } }
  | .buildTeam team => { p with teams := p.teams.save team }
  | .launch firmId requestDescription teamId plan =>
      match p.teams.get teamId with
      | none => p
      | some team => { p with coordinator :=
          (p.coordinator.launchMission clock firmId requestDescription team plan).2 }
  | .decide missionId teamId decision =>
      match p.teams.get teamId with
      | none => p
      | some team =>
          match p.coordinator.applyHumanDecision clock missionId team decision with
          | .error _ => p
          | .ok (_, team, coordinator) => { p with coordinator, teams := p.teams.save team }
  | .begin r missionId teamId =>
      match p.runs r, p.coordinator.beginRun missionId with
      | none, .ok (missionContext, coordinator) =>
          { p with coordinator }.turn r (some { missionId, teamId, missionContext })
      | _, _ => p
  | .iterate r now =>
      match p.runs r with
      | some run =>
          match run.awaiting, p.coordinator.missions.get run.missionId with
          | none, some mission => p.iterate r run mission now
          | _, _ => p
      | none => p
  | .agentReturns r output now =>
      match p.runs r with
      | some run =>
          match run.awaiting, p.coordinator.missions.get run.missionId, p.teams.get run.teamId with
          | some (itemId, subTask), some mission, some team =>
              match p.coordinator.agentReturned clock mission team run.missionContext itemId subTask
                output now with
              | .ok (missionContext, coordinator) =>
                  { p with coordinator }.turn r (some { run with missionContext, awaiting := none })
              | .error _ => p.turn r none
          | _, _, _ => p
      | none => p
  | .agentRaises r error now =>
      match p.runs r with
      | some run =>
          match run.awaiting with
          | some (itemId, _) =>
              match p.coordinator.agentRaised itemId error now with
              | .ok coordinator =>
                  { p with coordinator }.turn r (some { run with awaiting := none })
              | .error _ => p.turn r none
          | none => p
      | none => p
  | .interrupt r => p.turn r none

end Platform

end Tmis.AiTeam
