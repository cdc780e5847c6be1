import Tmis.WorkflowAutomation.Service

/-!
# Executions that are left running

An execution is stored as running before the call has done all that may raise, and only the loop over
the steps stands under the `try`.  What is refused before it, and an interrupt in it, leave an
execution that no call takes up again.

* `runLoop_congr` — what the outcome of the loop depends on;
* `runFrom_settled_iff` — `_run_from` settles the execution unless it is interrupted;
* `leavesSettled_iff` — one call settles what it stores iff it `EndsCleanly`;
* `along_leavesSettled_iff` — so no call of a run strands an execution iff all of them end cleanly.
-/

namespace Tmis.WorkflowAutomation

open Tmis.Lib Tmis.CloudOperations ExecutionEngine

/-! ### What is to hold -/

/-- The execution is completed, failed or cancelled, and unless it is completed or cancelled it can be
resumed. -/
def Settled (execution : WorkflowExecution) : Prop :=
  (execution.status = .completed ∨ execution.status = .failed ∨ execution.status = .cancelled) ∧
    (execution.status ≠ .completed → execution.status ≠ .cancelled → Resumable execution)

lemma settled_iff {execution : WorkflowExecution} : Settled execution ↔
    execution.status = .completed ∨ execution.status = .failed ∨ execution.status = .cancelled := by
  unfold Settled Resumable
  tauto

instance (execution : WorkflowExecution) : Decidable (Settled execution) := by
  unfold Settled; infer_instance

/-- Every stored execution is settled. -/
def AllSettled (service : Service) : Prop :=
  ∀ e ∈ service.executionEngine.store.values, Settled e

/-- Every execution stored when the call has ended is settled. -/
def LeavesSettled (interpreter : Interpreter) (service : Service) (call : Call) : Prop :=
  AllSettled (step interpreter service call)

/-- The discipline.  A start finds the name of its workflow free or a counter's, and the conditions of
the workflow are evaluated without an error; and the loop over the steps is not interrupted. -/
structure EndsCleanly (interpreter : Interpreter) (service : Service) (call : Call) : Prop where
  start : ∀ workflow context script, Starts service call workflow context script →
    service.executionEngine.telemetry.AcceptsCounter workflow.name ∧
    ∃ b, service.executionEngine.conditionEngine.evaluateAll interpreter workflow.conditions context =
        .ok b ∧
      (b = true → ¬ Interrupted interpreter service.executionEngine
        (service.executionEngine.newExecution workflow) workflow script)
  resume : ∀ execution workflow script, Resumes service call execution workflow script →
    ¬ Interrupted interpreter service.executionEngine (reopen execution) workflow script

/-! ### What the outcome of the loop depends on -/

section Congr

variable {interpreter : Interpreter} {engine engine' : ExecutionEngine}
  {execution execution' : WorkflowExecution}

/-- The parts of an engine and of an execution that the steps read. -/
structure SameForSteps (engine engine' : ExecutionEngine) (execution execution' : WorkflowExecution) :
    Prop where
  conditionEngine : engine'.conditionEngine = engine.conditionEngine
  maxAttempts : engine'.maxAttempts = engine.maxAttempts
  firmId : execution'.firmId = execution.firmId
  id : execution'.id = execution.id

lemma runStep_congr (h : SameForSteps engine engine' execution execution') :
    runStep interpreter engine' execution' = runStep interpreter engine execution := by
  have hexec : ExecutionEngine.execute execution' = ExecutionEngine.execute execution := by
    funext step attempt actions
    simp only [ExecutionEngine.execute, h.firmId, h.id]
  funext step script actions
  simp only [runStep, h.conditionEngine, h.maxAttempts, hexec]

lemma gather_congr (h : SameForSteps engine engine' execution execution') :
    gather interpreter engine' execution' = gather interpreter engine execution := by
  have hgroup : runGroup interpreter engine' execution' = runGroup interpreter engine execution := by
    funext group
    induction group with
    | nil => rfl
    | cons step steps ih =>
      funext script actions
      simp only [runGroup, runStep_congr h, ih]
  funext group script actions
  simp only [gather, hgroup]

/-- What the loop raises depends on those parts only. -/
theorem runLoop_congr (h : SameForSteps engine engine' execution execution')
    {remaining : List WorkflowStep} {script : Script} {actions : ActionEngine} :
    (runLoop interpreter engine' remaining script execution' actions).1 =
      (runLoop interpreter engine remaining script execution actions).1 := by
  fun_induction runLoop interpreter engine remaining script execution actions
    generalizing execution' with
  | case1 => rw [runLoop]
  | case2 step rest script execution actions hsome inGroup group raised actions' =>
    rename_i hg
    have hg' : gather interpreter engine execution (step :: rest.takeWhile fun s =>
        decide (s.parallelGroup = step.parallelGroup)) script actions = _ := hg
    rw [runLoop, if_pos hsome, gather_congr h]
    simp only [hg']
  | case3 step rest script execution actions hsome inGroup group results actions' hg =>
    rename_i ih
    have hg' : gather interpreter engine execution (step :: rest.takeWhile fun s =>
        decide (s.parallelGroup = step.parallelGroup)) script actions = _ := hg
    rw [runLoop, if_pos hsome, gather_congr h]
    simp only [hg']
    exact ih ⟨h.conditionEngine, h.maxAttempts, h.firmId, h.id⟩
  | case4 step rest script execution actions hnone raised actions' hs =>
    rw [runLoop, if_neg hnone, runStep_congr h]
    simp only [hs]
  | case5 step rest script execution actions hnone result actions' hs =>
    rename_i ih
    rw [runLoop, if_neg hnone, runStep_congr h]
    simp only [hs]
    exact ih ⟨h.conditionEngine, h.maxAttempts, h.firmId, h.id⟩

lemma interrupted_congr (h : SameForSteps engine engine' execution execution')
    (hactions : engine'.actionEngine = engine.actionEngine)
    (hindex : execution'.currentStepIndex = execution.currentStepIndex) {workflow : Workflow}
    {script : Script} : Interrupted interpreter engine' execution' workflow script ↔
      Interrupted interpreter engine execution workflow script := by
  unfold Interrupted runRemaining
  rw [hactions, hindex, runLoop_congr h]

end Congr

/-! ### One call -/

section Call

variable {interpreter : Interpreter} {engine : ExecutionEngine} {execution : WorkflowExecution}
  {workflow : Workflow} {script : Script}

/-- `_run_from` settles an execution it finds running, unless it is interrupted. -/
theorem runFrom_settled_iff (h : execution.status = .running) :
    Settled (engine.runFrom interpreter execution workflow script).execution ↔
      ¬ Interrupted interpreter engine execution workflow script := by
  obtain ⟨rs, n, hframe⟩ := runLoop_frame interpreter engine execution script
    ((orderedSteps workflow).drop execution.currentStepIndex) engine.actionEngine
  rw [(runFrom_spec ..).1, settled_iff, Interrupted, runRemaining, hframe]
  rcases (runLoop interpreter engine _ script execution engine.actionEngine).1 with _ | (e | _)
  · simp [settle]
  · simp [settle]
  · simp [settle, WorkflowExecution.advance, h]

/-- When a call stores one execution, the stored ones are settled iff that one is. -/
lemma settled_set_iff {store : Dict (String × Uuid) WorkflowExecution}
    (h : ∀ e ∈ store.values, Settled e) (key : String × Uuid) :
    (∀ e ∈ (store.set key execution).values, Settled e) ↔ Settled execution := by
  constructor
  · exact fun hall => hall _ (Dict.mem_values_iff.mpr ⟨key, Dict.get_set_self ..⟩)
  · intro hs e he
    rcases Dict.mem_values_set he with rfl | he
    · exact hs
    · exact h e he

/-- Once the execution is stored, the conditions and the steps decide. -/
lemma startChecked_settles_iff {context : Context} {store : Dict (String × Uuid) WorkflowExecution}
    (h : ∀ e ∈ store.values, Settled e)
    (hstore : engine.store = store.set (execution.firmId, execution.id) execution)
    (hrun : execution.status = .running) :
    (∀ e ∈ (engine.startChecked interpreter execution workflow context script).engine.store.values,
        Settled e) ↔
      ∃ b, engine.conditionEngine.evaluateAll interpreter workflow.conditions context = .ok b ∧
        (b = true → ¬ Interrupted interpreter engine execution workflow script) := by
  unfold startChecked
  rcases engine.conditionEngine.evaluateAll interpreter workflow.conditions context with e | _ | _
  · rw [hstore, settled_set_iff h]
    simp [settled_iff, hrun]
  · simp only [save, hstore, Dict.set_set, settled_set_iff h]
    simp [settled_iff]
  · simp only [runFrom_store, hstore, Dict.set_set, settled_set_iff h, runFrom_settled_iff hrun]
    simp

/-- A start leaves a settled execution iff nothing is refused before its steps are run, and they are
not interrupted. -/
theorem start_settles_iff {context : Context} (h : ∀ e ∈ engine.store.values, Settled e) :
    (∀ e ∈ (engine.start interpreter workflow context script).engine.store.values, Settled e) ↔
      engine.telemetry.AcceptsCounter workflow.name ∧
        ∃ b, engine.conditionEngine.evaluateAll interpreter workflow.conditions context = .ok b ∧
          (b = true → ¬ Interrupted interpreter engine (engine.newExecution workflow) workflow script) := by
  rcases engine.start_cases interpreter workflow context script with
    ⟨hrefused, e, hstart⟩ | ⟨haccepts, telemetry, spanId, execution, rfl, hstart⟩
  · rw [hstart]
    refine iff_of_false (fun hall => ?_) fun hc => hrefused hc.1
    have := (settled_set_iff h _).mp hall
    simp [settled_iff, newExecution] at this
  · have hsame : SameForSteps engine
        ({ engine with uuids := engine.uuids + 1, telemetry }.save
          { engine.newExecution workflow with telemetrySpanId := spanId })
        (engine.newExecution workflow)
        { engine.newExecution workflow with telemetrySpanId := spanId } := ⟨rfl, rfl, rfl, rfl⟩
    rw [hstart, startChecked_settles_iff h rfl rfl]
    simp only [haccepts, true_and, interrupted_congr hsame rfl rfl]
    rfl

/-- A resume leaves a settled execution iff it is not interrupted. -/
lemma resume_settles_iff (h : ∀ e ∈ engine.store.values, Settled e) :
    (∀ e ∈ (engine.runFrom interpreter (reopen execution) workflow script).engine.store.values,
        Settled e) ↔
      ¬ Interrupted interpreter engine (reopen execution) workflow script := by
  rw [runFrom_store, settled_set_iff h, runFrom_settled_iff rfl]

/-- **One call.**  Where all executions are settled, a call leaves them so iff it ends cleanly. -/
theorem leavesSettled_iff {service : Service} {call : Call} (h : AllSettled service) :
    LeavesSettled interpreter service call ↔ EndsCleanly interpreter service call := by
  unfold LeavesSettled AllSettled
  rcases execution_step_cases interpreter service call with
    ⟨w, context, script, hs, hstep⟩ | ⟨e, w, script, hs, hstep⟩ | ⟨hnostart, hnoresume, hstore, -⟩
  · rw [hstep, start_settles_iff h]
    constructor
    · refine fun hc => ⟨fun w' context' script' hs' => ?_, fun e w' script' hr => ?_⟩
      · obtain ⟨firmId, workflowId, allowed, rfl, hw, -⟩ := hs
        obtain ⟨_, _, _, hcall, hw', -⟩ := hs'
        cases hcall
        rw [hw] at hw'
        cases hw'
        exact hc
      · obtain ⟨firmId, workflowId, allowed, rfl, -⟩ := hs
        obtain ⟨_, _, _, hcall, -⟩ := hr
        cases hcall
    · exact fun hc => hc.start w context script hs
  · rw [hstep, resume_settles_iff h]
    constructor
    · refine fun hc => ⟨fun w' context' script' hs' => ?_, fun e' w' script' hr => ?_⟩
      · obtain ⟨firmId, executionId, workflowId, rfl, -⟩ := hs
        obtain ⟨_, _, _, hcall, -⟩ := hs'
        cases hcall
      · obtain ⟨firmId, executionId, workflowId, rfl, he, hw, -⟩ := hs
        obtain ⟨_, _, _, hcall, he', hw', -⟩ := hr
        cases hcall
        rw [he] at he'
        rw [hw] at hw'
        cases he'
        cases hw'
        exact hc
    · exact fun hc => hc.resume e w script hs
  · rw [hstore]
    exact iff_of_true h ⟨fun w context script hs => absurd hs (hnostart w context script),
      fun e w script hr => absurd hr (hnoresume e w script)⟩

end Call

/-! ### Runs -/

/-- **No call strands an execution, exactly.**  From any service whose executions are settled, every
call of a run leaves all executions completed, failed or cancelled iff every call ends cleanly. -/
theorem along_leavesSettled_iff (interpreter : Interpreter) (workflowEngine : WorkflowEngine)
    (maxAttempts : ℕ) (calls : List Call) :
    Along (step interpreter) (LeavesSettled interpreter)
        { workflowEngine, executionEngine := { maxAttempts } } calls ↔
      Along (step interpreter) (EndsCleanly interpreter)
        { workflowEngine, executionEngine := { maxAttempts } } calls :=
  along_congr (I := AllSettled) (fun _ he => absurd he List.not_mem_nil)
    (fun _ _ h hc => (leavesSettled_iff h).mpr hc) (fun _ _ h => leavesSettled_iff h)

/-- A condition of the workflow that names no registered expression leaves the execution running. -/
theorem unknown_reference_strands : ¬ Along (step .nat) (LeavesSettled .nat) {}
    [.createWorkflow "firm" "notice" "owner" "" [] [{ kind := .ref, refName := some "urgent" }] [],
      .startExecution "firm" 0 none ∅ fun _ => { context := ∅, attempts := fun _ => .timesOut true }] := by
  rintro ⟨-, h, -⟩
  revert h
  unfold LeavesSettled AllSettled
  decide +kernel

end Tmis.WorkflowAutomation
