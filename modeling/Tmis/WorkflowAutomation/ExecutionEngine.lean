import Tmis.CloudOperations.Telemetry
import Tmis.WorkflowAutomation.WorkflowEngine

/-!
# The execution engine

`ExecutionEngine.start` and `resume`: the steps of a workflow are run in order, consecutive steps of
one parallel group together, from the index saved in the execution.  A call is told by a `Script` what
happens while it waits: the context each step finds, what its attempts come to and when it is over.

* `runStep`, `gather`, `runLoop` — one step, one parallel group, the loop of `_run_from`;
* `runFrom` — the loop with the status it leaves, and what is reported of it;
* `start`, `resume` — the two calls;
* `runLoop_invoked` — what the loop has handlers run for.
-/

namespace Tmis.WorkflowAutomation

open Tmis.Lib Tmis.CloudOperations

inductive ExecutionStatus where
  | pending | running | paused | completed | failed | cancelled
  deriving DecidableEq

def ExecutionStatus.value : ExecutionStatus → String
  | .pending => "pending"
  | .running => "running"
  | .paused => "paused"
  | .completed => "completed"
  | .failed => "failed"
  | .cancelled => "cancelled"

structure StepExecutionResult where
  stepOrder : ℤ
  skipped : Bool
  actionResult : Option ActionResult := none
  deriving DecidableEq

structure WorkflowExecution where
  id : Uuid
  firmId : String
  workflowId : Uuid
  status : ExecutionStatus := .pending
  currentStepIndex : ℕ := 0
  stepResults : List StepExecutionResult := []
  failureReason : Option String := none
  telemetrySpanId : Option Uuid := none
  deriving DecidableEq

/-- The execution once the results of the next `n` steps are there. -/
def WorkflowExecution.advance (execution : WorkflowExecution) (results : List StepExecutionResult)
    (n : ℕ) : WorkflowExecution :=
  { execution with
    stepResults := execution.stepResults ++ results
    currentStepIndex := execution.currentStepIndex + n }

def workflowExecutionError (text : String) : PyException := ⟨"WorkflowExecutionError", text⟩

/-! ### What happens while a call waits -/

/-- One attempt of a step's action.  A handler that outlives its attempt keeps its thread, and its
journal entry then comes later; `started` says whether the thread came as far as the handler. -/
inductive Attempt where
  | completes (outcome : HandlerOutcome)
  | timesOut (started : Bool)
  | cancelled (started : Bool)

/-- What a step meets: the context its condition is evaluated in (handlers may write to it), its
attempts, and the time its coroutine is over. -/
structure StepScript where
  context : Context
  attempts : ℕ → Attempt
  endsAt : ℕ := 0

/-- What the steps of a call meet, in the order the call comes to them. -/
abbrev Script := ℕ → StepScript

/-! ### The engine -/

structure ExecutionEngine where
  store : Dict (String × Uuid) WorkflowExecution := ∅
  actionEngine : ActionEngine := {}
  conditionEngine : ConditionEngine := {}
  telemetry : Telemetry := {}
  maxAttempts : ℕ := 3
  uuids : ℕ := 0

/-- What a call leaves: the execution it was about, the engine, and what it raised.  A call that
raises nothing returns the execution. -/
structure CallResult where
  execution : WorkflowExecution
  engine : ExecutionEngine
  raised : Option Raised := none

namespace ExecutionEngine

/-- The store after the execution was changed in place, or added. -/
def save (engine : ExecutionEngine) (execution : WorkflowExecution) : ExecutionEngine :=
  { engine with store := engine.store.set (execution.firmId, execution.id) execution }

def get (engine : ExecutionEngine) (firmId : String) (executionId : Uuid) :
    Except PyException WorkflowExecution :=
  match engine.store.get (firmId, executionId) with
  | none => .error (keyError (toString executionId))
  | some execution => .ok execution

/-- `_execute`: one attempt, under the timeout. -/
def execute (execution : WorkflowExecution) (step : WorkflowStep) (attempt : Attempt)
    (actions : ActionEngine) : Except Raised ActionResult × ActionEngine :=
  let started (b : Bool) :=
    if b then actions.noteInvocation execution.firmId execution.id step.action else actions
  match attempt with
  | .timesOut b => (.error (.exception timeoutError), started b)
  | .cancelled b => (.error .interrupt, started b)
  | .completes outcome =>
      match actions.execute execution.firmId execution.id step.action outcome with
      | (.error raised, actions) => (.error raised, actions)
      | (.ok result, actions) =>
          if result.success then (.ok result, actions)
          else (.error (.exception (workflowExecutionError result.detail)), actions)

section Steps

variable (interpreter : Interpreter) (engine : ExecutionEngine)

/-- `_run_step`.  Of the engine only the action engine changes while steps run. -/
def runStep (execution : WorkflowExecution) (step : WorkflowStep) (script : StepScript)
    (actions : ActionEngine) : Except Raised StepExecutionResult × ActionEngine :=
  let condition : Except PyException Bool := match step.condition with
    | none => .ok true
    | some condition => engine.conditionEngine.evaluate interpreter condition script.context
  match condition with
  | .error e => (.error (.exception e), actions)
  | .ok false => (.ok { stepOrder := step.order, skipped := true }, actions)
  | .ok true =>
      match WorkflowRetryPolicy.run engine.maxAttempts
          (fun n => execute execution step (script.attempts n)) actions with
      | (.error raised, actions) => (.error raised, actions)
      | (.ok result, actions) =>
          (.ok { stepOrder := step.order, skipped := false, actionResult := some result }, actions)

/-- The coroutines of a parallel group, each with the time it is over.  All of them run to their end,
also those that `gather` does not wait for. -/
def runGroup (execution : WorkflowExecution) :
    List WorkflowStep → Script → ActionEngine →
      List (ℕ × Except Raised StepExecutionResult) × ActionEngine
  | [], _, actions => ([], actions)
  | step :: steps, script, actions =>
      let (outcome, actions) := runStep interpreter engine execution step (script 0) actions
      let (outcomes, actions) := runGroup execution steps (fun n => script (n + 1)) actions
      (((script 0).endsAt, outcome) :: outcomes, actions)

/-- What the first coroutine that raises raises. -/
def firstRaised {T : Type} : List (ℕ × Except Raised T) → Option (ℕ × Raised)
  | [] => none
  | (_, .ok _) :: outcomes => firstRaised outcomes
  | (time, .error raised) :: outcomes =>
      match firstRaised outcomes with
      | none => some (time, raised)
      | some (time', raised') => if time' < time then some (time', raised') else some (time, raised)

/-- `asyncio.gather`: all the results, in order, or what was raised first. -/
def gather (execution : WorkflowExecution) (group : List WorkflowStep) (script : Script)
    (actions : ActionEngine) : Except Raised (List StepExecutionResult) × ActionEngine :=
  let (outcomes, actions) := runGroup interpreter engine execution group script actions
  match firstRaised outcomes with
  | some (_, raised) => (.error raised, actions)
  | none => (.ok (outcomes.filterMap fun o => o.2.toOption), actions)

/-- The loop of `_run_from` over the steps that remain. -/
def runLoop : List WorkflowStep → Script → WorkflowExecution → ActionEngine →
    Option Raised × WorkflowExecution × ActionEngine
  | [], _, execution, actions => (none, execution, actions)
  | step :: rest, script, execution, actions =>
      if step.parallelGroup.isSome then
        let inGroup (s : WorkflowStep) : Bool := s.parallelGroup = step.parallelGroup
        let group := step :: rest.takeWhile inGroup
        match gather interpreter engine execution group script actions with
        | (.error raised, actions) => (some raised, execution, actions)
        | (.ok results, actions) =>
            runLoop (rest.dropWhile inGroup) (fun n => script (group.length + n))
              (execution.advance results group.length) actions
      else
        match runStep interpreter engine execution step (script 0) actions with
        | (.error raised, actions) => (some raised, execution, actions)
        | (.ok result, actions) =>
            runLoop rest (fun n => script (n + 1)) (execution.advance [result] 1) actions
  termination_by remaining => remaining.length
  decreasing_by
    · exact Nat.lt_succ_of_le (List.dropWhile_suffix _).sublist.length_le
    · exact Nat.lt_succ_self _

end Steps

/-! ### What the loop does -/

section Spec

variable {interpreter : Interpreter} {engine : ExecutionEngine} {execution : WorkflowExecution}

lemma runStep_order {step : WorkflowStep} {script : StepScript} {actions : ActionEngine}
    {result : StepExecutionResult}
    (h : (runStep interpreter engine execution step script actions).1 = .ok result) :
    result.stepOrder = step.order := by
  unfold runStep at h
  dsimp only at h
  split at h
  · cases h
  · cases h; rfl
  · split at h
    · cases h
    · cases h; rfl

lemma runGroup_orders {group : List WorkflowStep} {script : Script} {actions : ActionEngine}
    (h : firstRaised (runGroup interpreter engine execution group script actions).1 = none) :
    ((runGroup interpreter engine execution group script actions).1.filterMap
      fun o => o.2.toOption).map (·.stepOrder) = group.map (·.order) := by
  induction group generalizing script actions with
  | nil => rfl
  | cons step steps ih =>
    simp only [runGroup] at h ⊢
    cases hstep : (runStep interpreter engine execution step (script 0) actions).1 with
    | error raised =>
      simp only [hstep, firstRaised] at h
      split at h
      · cases h
      · split at h <;> cases h
    | ok result =>
      simp only [hstep, firstRaised] at h
      simp only [Except.toOption, List.filterMap_cons, List.map_cons, runStep_order hstep]
      exact congrArg _ (ih h)

/-- What `gather` returns are the results of the group, in order. -/
lemma gather_orders {group : List WorkflowStep} {script : Script} {actions : ActionEngine}
    {results : List StepExecutionResult}
    (h : (gather interpreter engine execution group script actions).1 = .ok results) :
    results.map (·.stepOrder) = group.map (·.order) := by
  unfold gather at h
  dsimp only at h
  split at h
  · cases h
  · rename_i hnone
    cases h
    exact runGroup_orders hnone

/-! ### What handlers are run for -/

/-- Every handler run so far was run for something that meets `P`. -/
def InvokedOnly (P : Invocation → Prop) (actions : ActionEngine) : Prop := ∀ i ∈ actions.invoked, P i

section Invoked

variable {P : Invocation → Prop} {actions : ActionEngine}

lemma noteInvocation_invoked {firmId : String} {executionId : Uuid} {action : Action}
    (hP : P { firmId, executionId, action }) (h : InvokedOnly P actions) :
    InvokedOnly P (actions.noteInvocation firmId executionId action) := by
  unfold ActionEngine.noteInvocation
  split
  · intro i hi
    rcases List.mem_append.mp hi with hi | hi
    · exact h i hi
    · rw [List.mem_singleton.mp hi]
      exact hP
  · exact h

lemma actionExecute_invoked {firmId : String} {executionId : Uuid} {action : Action}
    (outcome : HandlerOutcome) (hP : P { firmId, executionId, action }) (h : InvokedOnly P actions) :
    InvokedOnly P (actions.execute firmId executionId action outcome).2 := by
  have hnoted := noteInvocation_invoked hP h
  unfold ActionEngine.execute
  split
  · exact h
  · cases outcome <;> exact hnoted

lemma execute_invoked {step : WorkflowStep} {attempt : Attempt}
    (hP : P { firmId := execution.firmId, executionId := execution.id, action := step.action })
    (h : InvokedOnly P actions) : InvokedOnly P (execute execution step attempt actions).2 := by
  have hnoted := noteInvocation_invoked hP h
  unfold execute
  cases attempt with
  | timesOut b => cases b <;> assumption
  | cancelled b => cases b <;> assumption
  | completes outcome =>
    have hexec := actionExecute_invoked outcome hP h
    dsimp only
    split
    · simp_all
    · split <;> simp_all

variable (interpreter engine) in
lemma runStep_invoked {step : WorkflowStep} (script : StepScript)
    (hP : P { firmId := execution.firmId, executionId := execution.id, action := step.action })
    (h : InvokedOnly P actions) :
    InvokedOnly P (runStep interpreter engine execution step script actions).2 := by
  have hrun := WorkflowRetryPolicy.run_inv (I := InvokedOnly P)
    (fun n => execute execution step (script.attempts n))
    (fun n s hs => execute_invoked hP hs) engine.maxAttempts h
  unfold runStep
  dsimp only
  split
  · exact h
  · exact h
  · split <;> simp_all

variable (interpreter engine) in
lemma runGroup_invoked {group : List WorkflowStep} (script : Script)
    (hP : ∀ step ∈ group,
      P { firmId := execution.firmId, executionId := execution.id, action := step.action })
    (h : InvokedOnly P actions) :
    InvokedOnly P (runGroup interpreter engine execution group script actions).2 := by
  induction group generalizing script actions with
  | nil => exact h
  | cons step steps ih =>
    rw [List.forall_mem_cons] at hP
    exact ih _ hP.2 (runStep_invoked interpreter engine _ hP.1 h)

variable (interpreter engine) in
lemma gather_invoked (group : List WorkflowStep) (script : Script)
    (hP : ∀ step ∈ group,
      P { firmId := execution.firmId, executionId := execution.id, action := step.action })
    (h : InvokedOnly P actions) :
    InvokedOnly P (gather interpreter engine execution group script actions).2 := by
  have hgroup := runGroup_invoked interpreter engine script hP h
  unfold gather
  dsimp only
  split <;> exact hgroup

/-- **Whom the loop has handlers run for**: this execution, and the actions of the steps that
remain. -/
theorem runLoop_invoked {remaining : List WorkflowStep} {script : Script}
    (hP : ∀ step ∈ remaining,
      P { firmId := execution.firmId, executionId := execution.id, action := step.action })
    (h : InvokedOnly P actions) :
    InvokedOnly P (runLoop interpreter engine remaining script execution actions).2.2 := by
  fun_induction runLoop interpreter engine remaining script execution actions with
  | case1 => exact h
  | case2 step rest script execution actions _ inGroup group raised actions' hg =>
    have := gather_invoked interpreter engine group script (fun s hs => hP s ?_) h
    · rwa [hg] at this
    · exact ((List.takeWhile_sublist _).cons_cons step).subset hs
  | case3 step rest script execution actions _ inGroup group results actions' hg ih =>
    have := gather_invoked interpreter engine group script (fun s hs => hP s ?_) h
    · rw [hg] at this
      refine ih (fun s hs => hP s ?_) this
      exact List.mem_cons_of_mem _ ((List.dropWhile_suffix _).subset hs)
    · exact ((List.takeWhile_sublist _).cons_cons step).subset hs
  | case4 step rest script execution actions _ raised actions' hs =>
    have := runStep_invoked interpreter engine (script 0) (hP step List.mem_cons_self) h
    rwa [hs] at this
  | case5 step rest script execution actions _ result actions' hs ih =>
    have := runStep_invoked interpreter engine (script 0) (hP step List.mem_cons_self) h
    rw [hs] at this
    exact ih (fun s hs => hP s (List.mem_cons_of_mem _ hs)) this

end Invoked

end Spec

/-! ### What is reported -/

/-- `_close_span`. -/
def closeSpan (telemetry : Telemetry) (execution : WorkflowExecution) :
    Except PyException Telemetry :=
  match execution.telemetrySpanId with
  | none => .ok telemetry
  | some spanId => telemetry.endSpan spanId (if execution.status = .failed then .error else .ok)

/-- `_record_workflow_metrics`. -/
def recordWorkflowMetrics (telemetry : Telemetry) (execution : WorkflowExecution) : Telemetry :=
  let metrics : WorkflowRunMetrics :=
    { workflowId := execution.workflowId
      executionId := execution.id
      stepCount := execution.stepResults.length
      errorCount := if execution.status = .failed then 1 else 0
      cancellationCount := if execution.status = .cancelled then 1 else 0 }
  { telemetry with runs := telemetry.runs ++ [metrics] }

/-- The `finally` block of `_run_from`, with what is being raised when it is reached. -/
def finish (engine : ExecutionEngine) (execution : WorkflowExecution) (pending : Option Raised) :
    CallResult :=
  match closeSpan engine.telemetry execution with
  | .error e => { execution, engine := engine.save execution, raised := some (.exception e) }
  | .ok telemetry =>
      let telemetry := recordWorkflowMetrics telemetry execution
      { execution, engine := { engine with telemetry }.save execution, raised := pending }

/-- `_record_started`. -/
def recordStarted (engine : ExecutionEngine) (execution : WorkflowExecution) (workflow : Workflow)
    (context : Context) : Except PyException (WorkflowExecution × ExecutionEngine) := do
  let telemetry ← engine.telemetry.recordCounter workflow.name
  match context.get "trace_id" with
  | none => return (execution, { engine with telemetry })
  | some traceId =>
      let attributes := [("execution_id", execution.id), ("workflow_id", workflow.id)]
      let (spanId, telemetry) :=
        telemetry.startSpan traceId workflow.name (some execution.firmId) attributes
      let execution := { execution with telemetrySpanId := some spanId }
      return (execution, { engine with telemetry }.save execution)

/-! ### The calls -/

section Calls

variable (interpreter : Interpreter) (engine : ExecutionEngine)

/-- What the loop of `_run_from` comes to, from the index saved in the execution. -/
def runRemaining (execution : WorkflowExecution) (workflow : Workflow) (script : Script) :
    Option Raised × WorkflowExecution × ActionEngine :=
  runLoop interpreter engine ((orderedSteps workflow).drop execution.currentStepIndex) script
    execution engine.actionEngine

/-- The call is interrupted while its steps run. -/
def Interrupted (execution : WorkflowExecution) (workflow : Workflow) (script : Script) : Prop :=
  (runRemaining interpreter engine execution workflow script).1 = some .interrupt

/-- `_run_from`. -/
def runFrom (execution : WorkflowExecution) (workflow : Workflow) (script : Script) : CallResult :=
  match runRemaining interpreter engine execution workflow script with
  | (none, execution, actionEngine) =>
      { engine with actionEngine }.finish { execution with status := .completed } none
  | (some (.exception e), execution, actionEngine) =>
      let execution := { execution with status := .failed, failureReason := some e.text }
      let (raised, telemetry) := engine.telemetry.recordError "workflow_automation" e.className e.text
        (some execution.firmId)
      { engine with actionEngine, telemetry }.finish execution (raised.map .exception)
  | (some .interrupt, execution, actionEngine) =>
      { engine with actionEngine }.finish execution (some .interrupt)

/-- The execution `start` creates. -/
def newExecution (workflow : Workflow) : WorkflowExecution :=
  { id := engine.uuids, firmId := workflow.firmId, workflowId := workflow.id, status := .running }

/-- The part of `start` after `_record_started`. -/
def startChecked (execution : WorkflowExecution) (workflow : Workflow) (context : Context)
    (script : Script) : CallResult :=
  match engine.conditionEngine.evaluateAll interpreter workflow.conditions context with
  | .error e => { execution, engine, raised := some (.exception e) }
  | .ok false =>
      let execution := { execution with
        status := .cancelled
        failureReason := some "Workflow-level conditions not satisfied" }
      { execution, engine := engine.save execution }
  | .ok true => engine.runFrom interpreter execution workflow script

def start (workflow : Workflow) (context : Context) (script : Script) : CallResult :=
  let execution := engine.newExecution workflow
  let engine := { engine with uuids := engine.uuids + 1 }.save execution
  match engine.recordStarted execution workflow context with
  | .error e => { execution, engine, raised := some (.exception e) }
  | .ok (execution, engine) => engine.startChecked interpreter execution workflow context script

/-- The statuses `resume` accepts. -/
def Resumable (execution : WorkflowExecution) : Prop :=
  execution.status = .failed ∨ execution.status = .paused

instance (execution : WorkflowExecution) : Decidable (Resumable execution) := by
  unfold Resumable; infer_instance

/-- The execution as an accepted `resume` sets it going again. -/
def reopen (execution : WorkflowExecution) : WorkflowExecution :=
  { execution with status := .running, failureReason := none }

def resume (execution : WorkflowExecution) (workflow : Workflow) (script : Script) : CallResult :=
  if ¬ Resumable execution then
    { execution, engine
      raised := some (.exception (workflowExecutionError
        ("Cannot resume execution in status " ++ execution.status.value))) }
  else engine.runFrom interpreter (reopen execution) workflow script

end Calls

/-! ### What the calls do -/

section Frame

variable {interpreter : Interpreter} {engine : ExecutionEngine} {execution : WorkflowExecution}
  {workflow : Workflow} {script : Script}

variable (interpreter engine execution script) in
/-- The loop changes nothing of the execution but its results and its index. -/
lemma runLoop_frame (remaining : List WorkflowStep) (actions : ActionEngine) :
    ∃ results n, (runLoop interpreter engine remaining script execution actions).2.1 =
      execution.advance results n := by
  have refl : ∀ e : WorkflowExecution, ∃ results n, e = e.advance results n :=
    fun e => ⟨[], 0, by simp [WorkflowExecution.advance]⟩
  have trans : ∀ (e : WorkflowExecution) rs n rs' n', (e.advance rs n).advance rs' n' =
      e.advance (rs ++ rs') (n + n') := by
    intro e rs n rs' n'
    simp [WorkflowExecution.advance, Nat.add_assoc]
  fun_induction runLoop interpreter engine remaining script execution actions with
  | case1 => exact refl _
  | case2 => exact refl _
  | case3 =>
    rename_i ih
    obtain ⟨rs, n, h⟩ := ih
    exact ⟨_, _, h.trans (trans ..)⟩
  | case4 => exact refl _
  | case5 =>
    rename_i ih
    obtain ⟨rs, n, h⟩ := ih
    exact ⟨_, _, h.trans (trans ..)⟩

@[simp] lemma finish_execution (engine : ExecutionEngine) (execution : WorkflowExecution)
    (pending : Option Raised) : (engine.finish execution pending).execution = execution := by
  unfold finish
  split <;> rfl

/-- Whatever was being raised, something is. -/
lemma finish_raised_ne_none (engine : ExecutionEngine) (execution : WorkflowExecution)
    (raised : Raised) : (engine.finish execution (some raised)).raised ≠ none := by
  unfold finish
  split <;> simp

lemma finish_engine (engine : ExecutionEngine) (execution : WorkflowExecution)
    (pending : Option Raised) : ∃ telemetry,
      (engine.finish execution pending).engine = { engine with telemetry }.save execution := by
  unfold finish
  split
  · exact ⟨_, rfl⟩
  · exact ⟨_, rfl⟩

/-- The execution as `_run_from` leaves it, by what the loop raised. -/
def settle : Option Raised → WorkflowExecution → WorkflowExecution
  | none, execution => { execution with status := .completed }
  | some (.exception e), execution =>
      { execution with status := .failed, failureReason := some e.text }
  | some .interrupt, execution => execution

/-- **What `_run_from` leaves**, whatever the reporting raises: the execution is settled and stored,
and the handlers that were run are noted. -/
theorem runFrom_spec (interpreter : Interpreter) (engine : ExecutionEngine)
    (execution : WorkflowExecution) (workflow : Workflow) (script : Script) :
    (engine.runFrom interpreter execution workflow script).execution =
        settle (runRemaining interpreter engine execution workflow script).1
          (runRemaining interpreter engine execution workflow script).2.1 ∧
      ∃ telemetry, (engine.runFrom interpreter execution workflow script).engine =
        { engine with
          actionEngine := (runRemaining interpreter engine execution workflow script).2.2
          telemetry }.save (engine.runFrom interpreter execution workflow script).execution := by
  unfold runFrom
  rcases runRemaining interpreter engine execution workflow script with ⟨_ | (e | _), e', actions⟩
  · simp only [finish_execution, settle, true_and]
    exact finish_engine { engine with actionEngine := actions } _ _
  · simp only [finish_execution, settle, true_and]
    exact finish_engine { engine with actionEngine := actions, telemetry := _ } _ _
  · simp only [finish_execution, settle, true_and]
    exact finish_engine { engine with actionEngine := actions } _ _

/-- A call that returns was not interrupted. -/
lemma not_interrupted_of_returns
    (h : (engine.runFrom interpreter execution workflow script).raised = none) :
    ¬ Interrupted interpreter engine execution workflow script := by
  intro hint
  refine absurd h ?_
  unfold Interrupted at hint
  unfold runFrom
  rcases hrun : runRemaining interpreter engine execution workflow script with ⟨raised, e', actions⟩
  rw [hrun] at hint
  obtain rfl : raised = some .interrupt := hint
  exact finish_raised_ne_none _ _ _

variable (interpreter engine execution workflow script) in
/-- Nothing but its results, its index, its status and its reason changes. -/
lemma runFrom_frame : ∃ results n status failureReason,
    (engine.runFrom interpreter execution workflow script).execution =
      { execution.advance results n with status, failureReason } := by
  obtain ⟨rs, n, h⟩ := runLoop_frame interpreter engine execution script
    ((orderedSteps workflow).drop execution.currentStepIndex) engine.actionEngine
  rw [(runFrom_spec ..).1, runRemaining, h]
  cases (runLoop interpreter engine _ script execution engine.actionEngine).1 with
  | none => exact ⟨rs, n, _, _, rfl⟩
  | some raised => cases raised <;> exact ⟨rs, n, _, _, rfl⟩

variable (interpreter engine execution workflow script) in
/-- The execution is stored where it was. -/
lemma runFrom_store : (engine.runFrom interpreter execution workflow script).engine.store =
    engine.store.set (execution.firmId, execution.id)
      (engine.runFrom interpreter execution workflow script).execution := by
  obtain ⟨-, telemetry, hengine⟩ := runFrom_spec interpreter engine execution workflow script
  obtain ⟨rs, n, status, reason, hframe⟩ := runFrom_frame interpreter engine execution workflow script
  rw [hengine, hframe]
  rfl

end Frame

/-- **What `_record_started` does**: it stores the execution with a span, or as it is. -/
theorem recordStarted_ok {engine engine' : ExecutionEngine} {execution execution' : WorkflowExecution}
    {workflow : Workflow} {context : Context}
    (h : (engine.save execution).recordStarted execution workflow context =
      .ok (execution', engine')) :
    ∃ telemetry spanId, execution' = { execution with telemetrySpanId := spanId } ∧
      engine' = { engine with telemetry }.save execution' := by
  unfold recordStarted at h
  cases hc : (engine.save execution).telemetry.recordCounter workflow.name with
  | error e => rw [hc] at h; cases h
  | ok telemetry =>
    rw [hc] at h
    cases htrace : context.get "trace_id" with
    | none =>
      simp only [htrace, bind, Except.bind, pure, Except.pure] at h
      cases h
      exact ⟨telemetry, execution.telemetrySpanId, rfl, rfl⟩
    | some traceId =>
      simp only [htrace, bind, Except.bind, pure, Except.pure] at h
      cases h
      refine ⟨(telemetry.startSpan traceId workflow.name (some execution.firmId)
        [("execution_id", execution.id), ("workflow_id", workflow.id)]).2, _, rfl, ?_⟩
      simp [save, Dict.set_set]

/-- It fails exactly when the name of the workflow is that of another type of metric. -/
lemma recordStarted_ok_iff (engine : ExecutionEngine) (execution : WorkflowExecution)
    (workflow : Workflow) (context : Context) :
    (∃ r, engine.recordStarted execution workflow context = .ok r) ↔
      engine.telemetry.AcceptsCounter workflow.name := by
  rw [← Telemetry.recordCounter_ok_iff]
  unfold recordStarted
  cases engine.telemetry.recordCounter workflow.name with
  | error e => simp [bind, Except.bind]
  | ok telemetry =>
    cases context.get "trace_id" <;> simp [bind, Except.bind, pure, Except.pure]

section Start

variable (interpreter : Interpreter) (engine : ExecutionEngine) (workflow : Workflow)
  (context : Context) (script : Script)

/-- **The ways of a `start`.**  The counter is refused; or the execution is stored, with its span,
and the conditions and the steps decide. -/
theorem start_cases :
    (¬ engine.telemetry.AcceptsCounter workflow.name ∧ ∃ e,
      engine.start interpreter workflow context script =
        { execution := engine.newExecution workflow
          engine := { engine with uuids := engine.uuids + 1 }.save (engine.newExecution workflow)
          raised := some (.exception e) }) ∨
    (engine.telemetry.AcceptsCounter workflow.name ∧ ∃ telemetry spanId execution,
      execution = { engine.newExecution workflow with telemetrySpanId := spanId } ∧
      engine.start interpreter workflow context script =
        ({ engine with uuids := engine.uuids + 1, telemetry }.save execution).startChecked interpreter
          execution workflow context script) := by
  have haccepts := recordStarted_ok_iff
    ({ engine with uuids := engine.uuids + 1 }.save (engine.newExecution workflow))
    (engine.newExecution workflow) workflow context
  unfold start
  dsimp only
  cases hrec : ({ engine with uuids := engine.uuids + 1 }.save
      (engine.newExecution workflow)).recordStarted (engine.newExecution workflow) workflow context with
  | error e =>
    refine Or.inl ⟨fun hacc => ?_, e, rfl⟩
    obtain ⟨r, hr⟩ := haccepts.mpr hacc
    rw [hrec] at hr
    cases hr
  | ok r =>
    obtain ⟨execution, engine'⟩ := r
    obtain ⟨telemetry, spanId, he, rfl⟩ := recordStarted_ok hrec
    exact Or.inr ⟨haccepts.mp ⟨_, hrec⟩, telemetry, spanId, execution, he, rfl⟩

end Start

end ExecutionEngine

end Tmis.WorkflowAutomation
