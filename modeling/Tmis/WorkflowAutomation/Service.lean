import Tmis.Lib.Run
import Tmis.WorkflowAutomation.ExecutionEngine

/-!
# The workflow routes

The two engines behind the routes of the API, and the calls that reach them.  A `resume` names an
execution and a workflow, and the route looks up both.

* `startExecution`, `resumeExecution` — the two routes that run steps;
* `Call`, `step` — every call, and the service after it;
* `execution_step_cases`, `workflow_step_keeps` — what a call can do to the executions and to the
  workflows.
-/

namespace Tmis.WorkflowAutomation

open Tmis.Lib Tmis.CloudOperations ExecutionEngine

/-- What a route answers instead of a result: an HTTP error, or what its engine raised. -/
inductive RouteError where
  | http (statusCode : ℕ) (detail : String)
  | raised (raised : Raised)
  deriving DecidableEq

structure Service where
  workflowEngine : WorkflowEngine := {}
  executionEngine : ExecutionEngine := {}

namespace Service

/-- The answer to a call of the execution engine, and the service after it. -/
def answer (service : Service) (result : CallResult) :
    Except RouteError WorkflowExecution × Service :=
  let service := { service with executionEngine := result.engine }
  match result.raised with
  | none => (.ok result.execution, service)
  | some raised => (.error (.raised raised), service)

/-- `start_execution`; `allowed` is the answer of the quota check, if the firm has a plan. -/
def startExecution (interpreter : Interpreter) (service : Service) (firmId : String)
    (workflowId : Uuid) (allowed : Option Bool) (context : Context) (script : Script) :
    Except RouteError WorkflowExecution × Service :=
  match service.workflowEngine.get firmId workflowId with
  | .error e => (.error (.http 404 e.text), service)
  | .ok workflow =>
      if allowed = some false then
        (.error (.http 429 "workflow execution quota exceeded for this firm's plan"), service)
      else
        service.answer (service.executionEngine.start interpreter workflow context script)

/-- `resume_execution`. -/
def resumeExecution (interpreter : Interpreter) (service : Service) (firmId : String)
    (executionId workflowId : Uuid) (script : Script) :
    Except RouteError WorkflowExecution × Service :=
  match service.executionEngine.get firmId executionId, service.workflowEngine.get firmId workflowId with
  | .error e, _ => (.error (.http 404 e.text), service)
  | .ok _, .error e => (.error (.http 404 e.text), service)
  | .ok execution, .ok workflow =>
      service.answer (service.executionEngine.resume interpreter execution workflow script)

/-- The service after an operation on the workflows; one that raises changes nothing. -/
def afterWorkflow (service : Service) (r : Except PyException (Workflow × WorkflowEngine)) : Service :=
  match r with
  | .ok (_, workflowEngine) => { service with workflowEngine }
  | .error _ => service

/-- `new_workflow_version`: the route names a version, and the engine works on its key. -/
def newWorkflowVersion (service : Service) (firmId : String) (workflowId : Uuid) (owner : String)
    (description : Option String) (triggers : Option (List Trigger))
    (conditions : Option (List Condition)) (steps : Option (List WorkflowStep)) :
    Except PyException (Workflow × WorkflowEngine) := do
  let current ← service.workflowEngine.get firmId workflowId
  service.workflowEngine.newVersion firmId current.workflowKey owner description triggers conditions
    steps

end Service

/-! ### Calls -/

/-- The calls that change something.  `elsewhere` is what other services do to what they share with
the execution engine: register handlers and named conditions, record metrics and spans. -/
inductive Call where
  | createWorkflow (firmId name owner description : String) (triggers : List Trigger)
      (conditions : List Condition) (steps : List WorkflowStep)
  | newWorkflowVersion (firmId : String) (workflowId : Uuid) (owner : String)
      (description : Option String) (triggers : Option (List Trigger))
      (conditions : Option (List Condition)) (steps : Option (List WorkflowStep))
  | activateWorkflow (firmId : String) (workflowId : Uuid)
  | archiveWorkflow (firmId : String) (workflowId : Uuid)
  | startExecution (firmId : String) (workflowId : Uuid) (allowed : Option Bool) (context : Context)
      (script : Script)
  | resumeExecution (firmId : String) (executionId workflowId : Uuid) (script : Script)
  | elsewhere (handlers : List String) (conditionEngine : ConditionEngine) (telemetry : Telemetry)

/-- The service after a call. -/
def step (interpreter : Interpreter) (service : Service) : Call → Service
  | .createWorkflow firmId name owner description triggers conditions steps =>
      service.afterWorkflow (.ok (service.workflowEngine.create firmId name owner description triggers
        conditions steps))
  | .newWorkflowVersion firmId workflowId owner description triggers conditions steps =>
      service.afterWorkflow (service.newWorkflowVersion firmId workflowId owner description triggers
        conditions steps)
  | .activateWorkflow firmId workflowId =>
      service.afterWorkflow (service.workflowEngine.activate firmId workflowId)
  | .archiveWorkflow firmId workflowId =>
      service.afterWorkflow (service.workflowEngine.archive firmId workflowId)
  | .startExecution firmId workflowId allowed context script =>
      (service.startExecution interpreter firmId workflowId allowed context script).2
  | .resumeExecution firmId executionId workflowId script =>
      (service.resumeExecution interpreter firmId executionId workflowId script).2
  | .elsewhere handlers conditionEngine telemetry =>
      { service with executionEngine :=
        { service.executionEngine with
          actionEngine := { service.executionEngine.actionEngine with handlers }
          conditionEngine, telemetry } }

/-- A call that starts an execution: the workflow is found and the quota allows it. -/
def Starts (service : Service) (call : Call) (workflow : Workflow) (context : Context)
    (script : Script) : Prop :=
  ∃ firmId workflowId allowed, call = .startExecution firmId workflowId allowed context script ∧
    service.workflowEngine.store.get (firmId, workflowId) = some workflow ∧ allowed ≠ some false

/-- A call that resumes an execution: both are found, and the execution can be resumed. -/
def Resumes (service : Service) (call : Call) (execution : WorkflowExecution) (workflow : Workflow)
    (script : Script) : Prop :=
  ∃ firmId executionId workflowId, call = .resumeExecution firmId executionId workflowId script ∧
    service.executionEngine.store.get (firmId, executionId) = some execution ∧
    service.workflowEngine.store.get (firmId, workflowId) = some workflow ∧ Resumable execution

/-! ### What a call can do -/

section Cases

variable {interpreter : Interpreter} {service : Service} {call : Call}

lemma afterWorkflow_execution (r : Except PyException (Workflow × WorkflowEngine)) :
    (service.afterWorkflow r).executionEngine = service.executionEngine := by
  unfold Service.afterWorkflow
  split <;> rfl

lemma answer_service (result : CallResult) :
    (service.answer result).2 = { service with executionEngine := result.engine } := by
  unfold Service.answer
  cases result.raised <;> rfl

/-- **What a call can do to the executions**: it starts one, it resumes one, or it leaves them and
the handlers run so far alone. -/
theorem execution_step_cases (interpreter : Interpreter) (service : Service) (call : Call) :
    (∃ workflow context script, Starts service call workflow context script ∧
      step interpreter service call = { service with executionEngine :=
        (service.executionEngine.start interpreter workflow context script).engine }) ∨
    (∃ execution workflow script, Resumes service call execution workflow script ∧
      step interpreter service call = { service with executionEngine :=
        (service.executionEngine.runFrom interpreter (reopen execution) workflow script).engine }) ∨
    ((∀ workflow context script, ¬ Starts service call workflow context script) ∧
      (∀ execution workflow script, ¬ Resumes service call execution workflow script) ∧
      (step interpreter service call).executionEngine.store = service.executionEngine.store ∧
      (step interpreter service call).executionEngine.uuids = service.executionEngine.uuids ∧
      (step interpreter service call).executionEngine.actionEngine.invoked =
        service.executionEngine.actionEngine.invoked) := by
  cases call with
  | startExecution firmId workflowId allowed context script =>
    by_cases hstart : ∃ workflow context' script',
        Starts service (.startExecution firmId workflowId allowed context script) workflow context' script'
    · obtain ⟨workflow, context', script', hs⟩ := hstart
      refine Or.inl ⟨workflow, context', script', hs, ?_⟩
      obtain ⟨_, _, _, hcall, hget, hallowed⟩ := hs
      cases hcall
      simp only [step, Service.startExecution, WorkflowEngine.get, hget, if_neg hallowed]
      exact answer_service _
    · refine Or.inr (Or.inr ⟨fun w c s h => hstart ⟨w, c, s, h⟩, ?_, ?_⟩)
      · rintro _ _ _ ⟨_, _, _, hcall, -⟩
        cases hcall
      · simp only [step, Service.startExecution, WorkflowEngine.get]
        cases hget : service.workflowEngine.store.get (firmId, workflowId) with
        | none => exact ⟨rfl, rfl, rfl⟩
        | some workflow =>
          by_cases hallowed : allowed = some false
          · simp [hallowed]
          · exact absurd ⟨workflow, context, script, _, _, _, rfl, hget, hallowed⟩ hstart
  | resumeExecution firmId executionId workflowId script =>
    by_cases hresume : ∃ execution workflow script',
        Resumes service (.resumeExecution firmId executionId workflowId script) execution workflow script'
    · obtain ⟨execution, workflow, script', hs⟩ := hresume
      refine Or.inr (Or.inl ⟨execution, workflow, script', hs, ?_⟩)
      obtain ⟨_, _, _, hcall, hexec, hget, hres⟩ := hs
      cases hcall
      simp only [step, Service.resumeExecution, WorkflowEngine.get, ExecutionEngine.get, hget, hexec,
        ExecutionEngine.resume, hres, not_true_eq_false, if_false]
      exact answer_service _
    · refine Or.inr (Or.inr ⟨?_, fun e w s h => hresume ⟨e, w, s, h⟩, ?_⟩)
      · rintro _ _ _ ⟨_, _, _, hcall, -⟩
        cases hcall
      · simp only [step, Service.resumeExecution, WorkflowEngine.get, ExecutionEngine.get]
        cases hexec : service.executionEngine.store.get (firmId, executionId) with
        | none => exact ⟨rfl, rfl, rfl⟩
        | some execution =>
          cases hget : service.workflowEngine.store.get (firmId, workflowId) with
          | none => exact ⟨rfl, rfl, rfl⟩
          | some workflow =>
            by_cases hres : Resumable execution
            · exact absurd ⟨execution, workflow, script, _, _, _, rfl, hexec, hget, hres⟩ hresume
            · simp [ExecutionEngine.resume, hres, answer_service]
  | elsewhere =>
    refine Or.inr (Or.inr ⟨?_, ?_, rfl, rfl, rfl⟩) <;> rintro _ _ _ ⟨_, _, _, hcall, -⟩ <;> cases hcall
  | _ =>
    refine Or.inr (Or.inr ⟨?_, ?_, ?_⟩)
    · rintro _ _ _ ⟨_, _, _, hcall, -⟩
      cases hcall
    · rintro _ _ _ ⟨_, _, _, hcall, -⟩
      cases hcall
    · simp only [step, afterWorkflow_execution, and_self]

variable (interpreter call) in
/-- No call takes a workflow out of the store or changes its steps. -/
theorem workflow_step_keeps (h : service.workflowEngine.WellKeyed) :
    (step interpreter service call).workflowEngine.WellKeyed ∧
      service.workflowEngine.Keeps (step interpreter service call).workflowEngine := by
  have after : ∀ r : Except PyException (Workflow × WorkflowEngine),
      (∀ p, r = .ok p → p.2.WellKeyed ∧ service.workflowEngine.Keeps p.2) →
        (service.afterWorkflow r).workflowEngine.WellKeyed ∧
          service.workflowEngine.Keeps (service.afterWorkflow r).workflowEngine := by
    intro r hr
    unfold Service.afterWorkflow
    split
    · exact hr _ rfl
    · exact ⟨h, .refl _⟩
  cases call with
  | createWorkflow => exact after _ fun p hp => Except.ok.inj hp ▸ WorkflowEngine.create_keeps h ..
  | newWorkflowVersion firmId workflowId =>
    refine after _ fun p hp => ?_
    unfold Service.newWorkflowVersion at hp
    cases hget : service.workflowEngine.get firmId workflowId with
    | error e => rw [hget] at hp; cases hp
    | ok current =>
      rw [hget] at hp
      exact WorkflowEngine.newVersion_keeps h hp
  | activateWorkflow => exact after _ fun p hp => WorkflowEngine.activate_keeps h hp
  | archiveWorkflow => exact after _ fun p hp => WorkflowEngine.archive_keeps h hp
  | startExecution firmId workflowId allowed context script =>
    have hsame : (step interpreter service (.startExecution firmId workflowId allowed context
        script)).workflowEngine = service.workflowEngine := by
      simp only [step, Service.startExecution]
      split
      · rfl
      · split
        · rfl
        · rw [answer_service]
    rw [hsame]
    exact ⟨h, .refl _⟩
  | resumeExecution firmId executionId workflowId script =>
    have hsame : (step interpreter service (.resumeExecution firmId executionId workflowId
        script)).workflowEngine = service.workflowEngine := by
      simp only [step, Service.resumeExecution]
      split
      · rfl
      · rfl
      · rw [answer_service]
    rw [hsame]
    exact ⟨h, .refl _⟩
  | elsewhere => exact ⟨h, .refl _⟩

end Cases

end Tmis.WorkflowAutomation
