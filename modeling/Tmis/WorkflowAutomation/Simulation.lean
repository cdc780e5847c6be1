import Tmis.WorkflowAutomation.Prefix

/-!
# The simulation of a workflow

`SimulationEngine.simulate` goes through the steps of a workflow one by one and asks their conditions
only; the execution engine runs them, in groups, with retries.  Where no condition raises and the
handlers succeed, the two come to the same steps and skip the same ones.

* `simulate` — the dry run;
* `runLoop_views` — the loop of the execution engine has the results the dry run foresees;
* `simulate_agrees_iff` — when the dry run agrees with `start`;
* `name_clash_disagrees` — where it does not: the metric of the workflow is refused.
-/

namespace Tmis.WorkflowAutomation

open Tmis.Lib Tmis.CloudOperations ExecutionEngine

structure SimulatedStepOutcome where
  stepOrder : ℤ
  name : String
  wouldRun : Bool
  skipReason : Option String := none
  deriving DecidableEq

structure SimulationReport where
  workflowId : Uuid
  wouldComplete : Bool
  steps : List SimulatedStepOutcome := []
  workflowConditionFailure : Option String := none
  deriving DecidableEq

/-! ### The dry run -/

section Simulate

variable (interpreter : Interpreter) (conditionEngine : ConditionEngine)

/-- What `simulate` says of one step. -/
def simulateStep (context : Context) (step : WorkflowStep) : Except PyException SimulatedStepOutcome :=
  match step.condition with
  | none => .ok { stepOrder := step.order, name := step.name, wouldRun := true }
  | some condition => do
      let wouldRun ← conditionEngine.evaluate interpreter condition context
      return { stepOrder := step.order, name := step.name, wouldRun
               skipReason := if wouldRun then none else some "Condition de l'étape non satisfaite." }

def simulate (workflow : Workflow) (context : Context) : Except PyException SimulationReport := do
  if ← conditionEngine.evaluateAll interpreter workflow.conditions context then
    let outcomes ← (orderedSteps workflow).mapM (simulateStep interpreter conditionEngine context)
    return { workflowId := workflow.id, wouldComplete := true, steps := outcomes }
  else
    return { workflowId := workflow.id, wouldComplete := false
             workflowConditionFailure := some ("Une condition de niveau workflow n'est pas satisfaite " ++
               "par le contexte fourni.") }

end Simulate

/-! ### What is compared -/

/-- The conditions of the steps do not raise, and their actions have handlers. -/
structure StepsSmooth (interpreter : Interpreter) (engine : ExecutionEngine) (context : Context)
    (handlers : List String) (steps : List WorkflowStep) : Prop where
  conditions : ∀ s ∈ steps, ∀ c, s.condition = some c → ∃ b,
    engine.conditionEngine.evaluate interpreter c context = .ok b
  handled : ∀ s ∈ steps, s.action.actionType ∈ handlers

/-- Every step finds the context as it was, and every attempt succeeds. -/
structure ScriptSmooth (context : Context) (script : Script) : Prop where
  context_kept : ∀ i, (script i).context = context
  succeeds : ∀ i n, ∃ result : ActionResult,
    (script i).attempts n = .completes (.returns result) ∧ result.success = true

/-- The circumstances: no condition raises, every step has a handler, handlers succeed and do not
change the context, and the retry policy allows an attempt. -/
structure Smooth (interpreter : Interpreter) (engine : ExecutionEngine) (workflow : Workflow)
    (context : Context) (script : Script) : Prop where
  conditions : ∀ c ∈ workflow.conditions, ∃ b,
    engine.conditionEngine.evaluate interpreter c context = .ok b
  steps : StepsSmooth interpreter engine context engine.actionEngine.handlers workflow.steps
  script : ScriptSmooth context script
  retries : 0 < engine.maxAttempts

/-- The report foresees the execution: whether it is cancelled, which steps have a result, and which
of them were not skipped. -/
structure Agrees (report : SimulationReport) (execution : WorkflowExecution) : Prop where
  completes : report.wouldComplete = true ↔ execution.status ≠ .cancelled
  orders : report.steps.map (·.stepOrder) = execution.stepResults.map (·.stepOrder)
  runs : report.steps.map (·.wouldRun) = execution.stepResults.map fun r => !r.skipped

/-! ### The steps -/

section Steps

variable {interpreter : Interpreter} {engine : ExecutionEngine} {context : Context}
  {execution : WorkflowExecution} {handlers : List String}

/-- Whether the condition of a step holds. -/
def stepRuns (interpreter : Interpreter) (conditionEngine : ConditionEngine) (context : Context)
    (step : WorkflowStep) : Bool :=
  match step.condition with
  | none => true
  | some condition =>
      match conditionEngine.evaluate interpreter condition context with
      | .ok b => b
      | .error _ => false

/-- What the two engines say of a step: its order, and whether it is run. -/
def stepView (interpreter : Interpreter) (conditionEngine : ConditionEngine) (context : Context)
    (step : WorkflowStep) : ℤ × Bool :=
  (step.order, stepRuns interpreter conditionEngine context step)

def SimulatedStepOutcome.view (o : SimulatedStepOutcome) : ℤ × Bool := (o.stepOrder, o.wouldRun)

def StepExecutionResult.view (r : StepExecutionResult) : ℤ × Bool := (r.stepOrder, !r.skipped)

lemma StepsSmooth.subset {steps steps' : List WorkflowStep}
    (h : StepsSmooth interpreter engine context handlers steps) (hsub : steps' ⊆ steps) :
    StepsSmooth interpreter engine context handlers steps' :=
  ⟨fun s hs => h.conditions s (hsub hs), fun s hs => h.handled s (hsub hs)⟩

lemma ScriptSmooth.later {script : Script} (h : ScriptSmooth context script) (f : ℕ → ℕ) :
    ScriptSmooth context fun n => script (f n) :=
  ⟨fun i => h.context_kept (f i), fun i => h.succeeds (f i)⟩

/-- The dry run of a step whose condition does not raise. -/
lemma simulateStep_ok {conditionEngine : ConditionEngine} {step : WorkflowStep}
    (h : ∀ c, step.condition = some c → ∃ b, conditionEngine.evaluate interpreter c context = .ok b) :
    ∃ outcome, simulateStep interpreter conditionEngine context step = .ok outcome ∧
      outcome.view = stepView interpreter conditionEngine context step := by
  unfold simulateStep stepView stepRuns
  cases hc : step.condition with
  | none => exact ⟨_, rfl, rfl⟩
  | some c =>
    obtain ⟨b, hb⟩ := h c hc
    simp only [hb]
    exact ⟨_, rfl, rfl⟩

/-- The dry run of all steps. -/
lemma simulateSteps_ok {conditionEngine : ConditionEngine} {steps : List WorkflowStep}
    (h : ∀ s ∈ steps, ∀ c, s.condition = some c → ∃ b,
      conditionEngine.evaluate interpreter c context = .ok b) :
    ∃ outcomes, steps.mapM (simulateStep interpreter conditionEngine context) = .ok outcomes ∧
      outcomes.map (·.view) = steps.map (stepView interpreter conditionEngine context) := by
  induction steps with
  | nil => exact ⟨[], rfl, rfl⟩
  | cons step steps ih =>
    obtain ⟨hstep, hsteps⟩ := List.forall_mem_cons.mp h
    obtain ⟨outcome, hout, hview⟩ := simulateStep_ok hstep
    obtain ⟨outcomes, houts, hviews⟩ := ih hsteps
    refine ⟨outcome :: outcomes, ?_, by rw [List.map_cons, List.map_cons, hview, hviews]⟩
    rw [List.mapM_cons, hout, houts]
    rfl

variable (execution) in
/-- An attempt that succeeds. -/
lemma execute_succeeds (step : WorkflowStep) {attempt : Attempt} {actions : ActionEngine}
    {result : ActionResult} (hattempt : attempt = .completes (.returns result))
    (hsuccess : result.success = true) (hhandled : step.action.actionType ∈ actions.handlers) :
    (execute execution step attempt actions).1 = .ok result ∧
      (execute execution step attempt actions).2.handlers = actions.handlers := by
  subst hattempt
  simp [execute, ActionEngine.execute, hhandled, hsuccess, ActionEngine.journal,
    ActionEngine.noteInvocation]

variable (execution) in
/-- **One step** in smooth circumstances. -/
theorem runStep_view {step : WorkflowStep} {script : Script} {actions : ActionEngine}
    (hstep : ∀ c, step.condition = some c → ∃ b,
      engine.conditionEngine.evaluate interpreter c context = .ok b)
    (hhandled : step.action.actionType ∈ actions.handlers) (hscript : ScriptSmooth context script)
    (hretries : 0 < engine.maxAttempts) :
    ∃ result, (runStep interpreter engine execution step (script 0) actions).1 = .ok result ∧
      result.view = stepView interpreter engine.conditionEngine context step ∧
      (runStep interpreter engine execution step (script 0) actions).2.handlers = actions.handlers := by
  -- the first attempt of a step that is run succeeds
  have hrun : ∃ result, (WorkflowRetryPolicy.run engine.maxAttempts
        (fun n => execute execution step ((script 0).attempts n)) actions).1 = .ok result ∧
      (WorkflowRetryPolicy.run engine.maxAttempts
        (fun n => execute execution step ((script 0).attempts n)) actions).2.handlers =
        actions.handlers := by
    obtain ⟨k, hk⟩ := Nat.exists_eq_succ_of_ne_zero hretries.ne'
    obtain ⟨result, hattempt, hsuccess⟩ := hscript.succeeds 0 0
    obtain ⟨hok, hkept⟩ :=
      execute_succeeds execution step hattempt hsuccess hhandled
    rw [hk, WorkflowRetryPolicy.run, WorkflowRetryPolicy.attempt]
    rcases hexec : execute execution step ((script 0).attempts 0) actions with ⟨outcome, after⟩
    rw [hexec] at hok hkept
    obtain rfl : outcome = .ok result := hok
    exact ⟨result, rfl, hkept⟩
  obtain ⟨result, hok, hkept⟩ := hrun
  rcases hpair : WorkflowRetryPolicy.run engine.maxAttempts
    (fun n => execute execution step ((script 0).attempts n)) actions with ⟨outcome, after⟩
  rw [hpair] at hok hkept
  obtain rfl : outcome = .ok result := hok
  unfold runStep stepView stepRuns
  rw [hscript.context_kept 0, hpair]
  cases hc : step.condition with
  | none => exact ⟨_, rfl, rfl, hkept⟩
  | some c =>
    obtain ⟨b, hb⟩ := hstep c hc
    simp only [hb]
    cases b with
    | false => exact ⟨_, rfl, rfl, rfl⟩
    | true => exact ⟨_, rfl, rfl, hkept⟩

variable (execution) in
/-- **One parallel group.** -/
theorem runGroup_views {group : List WorkflowStep} {script : Script} {actions : ActionEngine}
    (hgroup : StepsSmooth interpreter engine context actions.handlers group)
    (hscript : ScriptSmooth context script) (hretries : 0 < engine.maxAttempts) :
    firstRaised (runGroup interpreter engine execution group script actions).1 = none ∧
      ((runGroup interpreter engine execution group script actions).1.filterMap
        fun o => o.2.toOption).map (·.view) =
          group.map (stepView interpreter engine.conditionEngine context) ∧
      (runGroup interpreter engine execution group script actions).2.handlers = actions.handlers := by
  induction group generalizing script actions with
  | nil => exact ⟨rfl, rfl, rfl⟩
  | cons step steps ih =>
    obtain ⟨hc, hcs⟩ := List.forall_mem_cons.mp hgroup.conditions
    obtain ⟨hh, hhs⟩ := List.forall_mem_cons.mp hgroup.handled
    obtain ⟨result, hok, hview, hkept⟩ :=
      runStep_view execution hc hh hscript hretries
    obtain ⟨hnone, hviews, hkept'⟩ := ih ⟨hcs, hkept ▸ hhs⟩ (hscript.later (· + 1))
    simp only [runGroup, hok, firstRaised]
    exact ⟨hnone, congrArg₂ List.cons hview hviews, hkept'.trans hkept⟩

variable (execution) in
/-- `gather` returns when none of its coroutines raises. -/
lemma gather_views {group : List WorkflowStep} {script : Script} {actions : ActionEngine}
    (hgroup : StepsSmooth interpreter engine context actions.handlers group)
    (hscript : ScriptSmooth context script) (hretries : 0 < engine.maxAttempts) :
    ∃ results, (gather interpreter engine execution group script actions).1 = .ok results ∧
      results.map (·.view) = group.map (stepView interpreter engine.conditionEngine context) ∧
      (gather interpreter engine execution group script actions).2.handlers = actions.handlers := by
  obtain ⟨hnone, hviews, hkept⟩ := runGroup_views execution hgroup hscript hretries
  unfold gather
  simp only [hnone]
  exact ⟨_, rfl, hviews, hkept⟩

variable (execution) in
/-- **The loop comes to every step**, in order, and skips those whose condition does not hold. -/
theorem runLoop_views {remaining : List WorkflowStep} {script : Script} {actions : ActionEngine}
    (hsteps : StepsSmooth interpreter engine context actions.handlers remaining)
    (hscript : ScriptSmooth context script) (hretries : 0 < engine.maxAttempts) :
    (runLoop interpreter engine remaining script execution actions).1 = none ∧
      (runLoop interpreter engine remaining script execution actions).2.1.stepResults.map (·.view) =
        execution.stepResults.map (·.view) ++
          remaining.map (stepView interpreter engine.conditionEngine context) := by
  fun_induction runLoop interpreter engine remaining script execution actions with
  | case1 => exact ⟨rfl, by simp⟩
  | case2 step rest script execution actions hsome inGroup group raised actions' hg =>
    have hsub : group ⊆ step :: rest := ((List.takeWhile_sublist _).cons_cons step).subset
    obtain ⟨results, hok, -⟩ := gather_views execution (hsteps.subset hsub) hscript hretries
    rw [hg] at hok
    cases hok
  | case3 step rest script execution actions hsome inGroup group results actions' hg ih =>
    have hsub : group ⊆ step :: rest := ((List.takeWhile_sublist _).cons_cons step).subset
    obtain ⟨results', hok, hviews, hkept⟩ :=
      gather_views execution (hsteps.subset hsub) hscript hretries
    rw [hg] at hok hkept
    cases hok
    have hrest : StepsSmooth interpreter engine context actions'.handlers (rest.dropWhile inGroup) := by
      rw [show actions'.handlers = actions.handlers from hkept]
      exact hsteps.subset fun s hs => List.mem_cons_of_mem _ ((List.dropWhile_suffix _).subset hs)
    obtain ⟨hnone, hih⟩ := ih hrest (hscript.later (group.length + ·))
    refine ⟨hnone, ?_⟩
    have hsplit : step :: rest = group ++ rest.dropWhile inGroup := by
      simp [group, List.takeWhile_append_dropWhile]
    rw [hih, hsplit, List.map_append, WorkflowExecution.advance, List.map_append, hviews,
      List.append_assoc]
  | case4 step rest script execution actions hnone raised actions' hs =>
    obtain ⟨hc, -⟩ := List.forall_mem_cons.mp hsteps.conditions
    obtain ⟨hh, -⟩ := List.forall_mem_cons.mp hsteps.handled
    obtain ⟨result, hok, -⟩ := runStep_view execution hc hh hscript hretries
    rw [hs] at hok
    cases hok
  | case5 step rest script execution actions hnone result actions' hs ih =>
    obtain ⟨hc, hcs⟩ := List.forall_mem_cons.mp hsteps.conditions
    obtain ⟨hh, hhs⟩ := List.forall_mem_cons.mp hsteps.handled
    obtain ⟨result', hok, hview, hkept⟩ :=
      runStep_view execution hc hh hscript hretries
    rw [hs] at hok hkept
    cases hok
    have hkept : actions'.handlers = actions.handlers := hkept
    obtain ⟨hfst, hih⟩ := ih ⟨hcs, hkept ▸ hhs⟩ (hscript.later (· + 1))
    refine ⟨hfst, ?_⟩
    rw [hih, WorkflowExecution.advance, List.map_append, List.map_singleton, hview, List.map_cons,
      List.append_assoc, List.singleton_append]

end Steps

/-! ### The dry run and the execution -/

section Agree

variable {interpreter : Interpreter} {engine : ExecutionEngine} {workflow : Workflow}
  {context : Context} {script : Script}

/-- Conditions that do not raise have a value together. -/
lemma evaluateAll_ok {conditionEngine : ConditionEngine} {conditions : List Condition}
    (h : ∀ c ∈ conditions, ∃ b, conditionEngine.evaluate interpreter c context = .ok b) :
    ∃ b, conditionEngine.evaluateAll interpreter conditions context = .ok b := by
  unfold ConditionEngine.evaluateAll
  induction conditions with
  | nil => exact ⟨true, rfl⟩
  | cons c cs ih =>
    obtain ⟨hc, hcs⟩ := List.forall_mem_cons.mp h
    obtain ⟨b, hb⟩ := hc
    rw [List.allM, hb]
    cases b with
    | false => exact ⟨false, rfl⟩
    | true => exact ih hcs

/-- What the views say of the orders and of the steps run. -/
lemma agrees_of_views {report : SimulationReport} {execution : WorkflowExecution}
    (hcompletes : report.wouldComplete = true ↔ execution.status ≠ .cancelled)
    (hviews : report.steps.map (·.view) = execution.stepResults.map (·.view)) :
    Agrees report execution := by
  refine ⟨hcompletes, ?_, ?_⟩
  · have := congrArg (List.map Prod.fst) hviews
    simpa [Function.comp_def, SimulatedStepOutcome.view, StepExecutionResult.view] using this
  · have := congrArg (List.map Prod.snd) hviews
    simpa [Function.comp_def, SimulatedStepOutcome.view, StepExecutionResult.view] using this

/-- The report agrees with an execution no step was run of iff it has no steps. -/
lemma agrees_unvisited_iff {report : SimulationReport} {execution : WorkflowExecution}
    (hresults : execution.stepResults = []) :
    Agrees report execution ↔
      (report.wouldComplete = true ↔ execution.status ≠ .cancelled) ∧ report.steps = [] := by
  constructor
  · intro h
    have := h.orders
    exact ⟨h.completes, by simpa [hresults] using this⟩
  · rintro ⟨hcompletes, hsteps⟩
    exact ⟨hcompletes, by simp [hsteps, hresults], by simp [hsteps, hresults]⟩

/-- **The dry run**, where no condition raises. -/
theorem simulate_ok {conditionEngine : ConditionEngine}
    (hsteps : ∀ s ∈ workflow.steps, ∀ c, s.condition = some c → ∃ b,
      conditionEngine.evaluate interpreter c context = .ok b)
    {b : Bool} (hb : conditionEngine.evaluateAll interpreter workflow.conditions context = .ok b) :
    ∃ report, simulate interpreter conditionEngine workflow context = .ok report ∧
      report.wouldComplete = b ∧
      report.steps.map (·.view) = if b then
        (orderedSteps workflow).map (stepView interpreter conditionEngine context) else [] := by
  have hordered : ∀ s ∈ orderedSteps workflow, ∀ c, s.condition = some c → ∃ b,
      conditionEngine.evaluate interpreter c context = .ok b :=
    fun s hs => hsteps s ((List.mem_insertionSort _).mp hs)
  obtain ⟨outcomes, hout, hviews⟩ := simulateSteps_ok hordered
  unfold simulate
  rw [hb]
  cases b with
  | false => exact ⟨_, rfl, rfl, rfl⟩
  | true =>
    refine ⟨{ workflowId := workflow.id, wouldComplete := true, steps := outcomes }, ?_, rfl, hviews⟩
    simp only [bind, Except.bind, hout]
    rfl

/-- The part of `start` behind the counter: a new execution is cancelled, or all its steps are come
to. -/
lemma startChecked_views (execution : WorkflowExecution)
    (h : Smooth interpreter engine workflow context script) (hindex : execution.currentStepIndex = 0)
    (hresults : execution.stepResults = []) {b : Bool}
    (hb : engine.conditionEngine.evaluateAll interpreter workflow.conditions context = .ok b) :
    (b = true ↔
      (engine.startChecked interpreter execution workflow context script).execution.status ≠
        .cancelled) ∧
    (engine.startChecked interpreter execution workflow context script).execution.stepResults.map
      (·.view) =
        if b then (orderedSteps workflow).map (stepView interpreter engine.conditionEngine context)
        else [] := by
  unfold startChecked
  rw [hb]
  cases b with
  | false => exact ⟨by simp, by simp [hresults]⟩
  | true =>
    have hsub : orderedSteps workflow ⊆ workflow.steps := fun s hs => (List.mem_insertionSort _).mp hs
    obtain ⟨hnone, hviews⟩ := runLoop_views execution (h.steps.subset hsub) h.script
      h.retries
    dsimp only
    rw [(runFrom_spec ..).1, runRemaining, hindex, List.drop_zero, hnone]
    refine ⟨by simp [settle], ?_⟩
    rw [hresults, List.map_nil, List.nil_append] at hviews
    exact hviews

/-- **The execution**, where the counter is accepted and the conditions have the value `b`. -/
theorem start_views (h : Smooth interpreter engine workflow context script)
    (haccepts : engine.telemetry.AcceptsCounter workflow.name) {b : Bool}
    (hb : engine.conditionEngine.evaluateAll interpreter workflow.conditions context = .ok b) :
    (b = true ↔ (engine.start interpreter workflow context script).execution.status ≠ .cancelled) ∧
      (engine.start interpreter workflow context script).execution.stepResults.map (·.view) =
        if b then (orderedSteps workflow).map (stepView interpreter engine.conditionEngine context)
        else [] := by
  rcases engine.start_cases interpreter workflow context script with
    ⟨hnot, -⟩ | ⟨-, telemetry, spanId, execution, rfl, hstart⟩
  · exact absurd haccepts hnot
  · rw [hstart]
    have hsmooth : Smooth interpreter ({ engine with uuids := engine.uuids + 1, telemetry }.save
        { engine.newExecution workflow with telemetrySpanId := spanId }) workflow context script :=
      ⟨h.conditions, ⟨h.steps.conditions, h.steps.handled⟩, h.script, h.retries⟩
    exact startChecked_views { engine.newExecution workflow with telemetrySpanId := spanId }
      hsmooth rfl rfl hb

/-- **When the dry run agrees.**  In smooth circumstances the dry run gives a report, and it agrees
with the execution that `start` creates iff the metric of the workflow's name is a counter; or the
conditions of the workflow hold and it has no steps. -/
theorem simulate_agrees_iff (h : Smooth interpreter engine workflow context script) :
    (∃ report, simulate interpreter engine.conditionEngine workflow context = .ok report ∧
      Agrees report (engine.start interpreter workflow context script).execution) ↔
    engine.telemetry.AcceptsCounter workflow.name ∨
      (engine.conditionEngine.evaluateAll interpreter workflow.conditions context = .ok true ∧
        workflow.steps = []) := by
  obtain ⟨b, hb⟩ := evaluateAll_ok h.conditions
  obtain ⟨report, hreport, hcompletes, hviews⟩ := simulate_ok h.steps.conditions hb
  have hunique : (∃ report', simulate interpreter engine.conditionEngine workflow context = .ok report' ∧
      Agrees report' (engine.start interpreter workflow context script).execution) ↔
      Agrees report (engine.start interpreter workflow context script).execution := by
    constructor
    · rintro ⟨report', hreport', hagrees⟩
      rw [hreport] at hreport'
      cases hreport'
      exact hagrees
    · exact fun hagrees => ⟨report, hreport, hagrees⟩
  rw [hunique]
  by_cases haccepts : engine.telemetry.AcceptsCounter workflow.name
  · obtain ⟨hstatus, hresults⟩ := start_views h haccepts hb
    refine iff_of_true (agrees_of_views ?_ (hviews.trans hresults.symm)) (Or.inl haccepts)
    rw [hcompletes]
    exact hstatus
  · -- `start` raises, and leaves an execution that runs and has no results
    rcases engine.start_cases interpreter workflow context script with
      ⟨-, e, hstart⟩ | ⟨hyes, -⟩
    · have hlength := congrArg List.length hviews
      rw [List.length_map] at hlength
      rw [agrees_unvisited_iff (by rw [hstart]; rfl), hcompletes, hb, hstart,
        or_iff_right haccepts]
      cases b with
      | false => simp [newExecution]
      | true =>
        rw [if_pos rfl, List.length_map, orderedSteps, List.length_insertionSort] at hlength
        rw [← List.length_eq_zero_iff, hlength, List.length_eq_zero_iff]
        simp [newExecution]
    · exact absurd hyes haccepts

end Agree

/-! ### The notice workflow, for lawyers -/

def lawyerNotice : Workflow :=
  { noticeWorkflow with conditions := [{ kind := .roleIs, value := some "lawyer" }] }

lemma smooth_notice (telemetry : Telemetry) :
    Smooth .nat { noticeEngine with telemetry } lawyerNotice ∅ (failingAt none) where
  conditions c hc := by
    obtain rfl := List.mem_singleton.mp hc
    exact ⟨false, rfl⟩
  steps := by
    refine ⟨fun s hs c hc => ?_, fun s hs => ?_⟩ <;>
      simp only [lawyerNotice, noticeWorkflow, List.mem_cons, List.not_mem_nil, or_false] at hs <;>
      rcases hs with rfl | rfl | rfl
    all_goals first | cases hc | exact List.mem_singleton_self _
  script := ⟨fun _ => rfl, fun i _ => ⟨{ success := true, detail := "" }, by simp [failingAt], rfl⟩⟩
  retries := Nat.succ_pos 2

theorem simulate_agrees_iff_notice :
    (∃ report, simulate .nat noticeEngine.conditionEngine lawyerNotice ∅ = .ok report ∧
      Agrees report (noticeEngine.start .nat lawyerNotice ∅ (failingAt none)).execution) ↔
    noticeEngine.telemetry.AcceptsCounter lawyerNotice.name ∨
      (noticeEngine.conditionEngine.evaluateAll .nat lawyerNotice.conditions ∅ = .ok true ∧
        lawyerNotice.steps = []) :=
  simulate_agrees_iff (smooth_notice {})

/-- An engine in whose registry the name of the workflow is that of a gauge. -/
def gaugeEngine : ExecutionEngine :=
  { noticeEngine with telemetry := { registry := (∅ : Dict String MetricKind).set "notice" .gauge } }

/-- The workflow's name is that of a gauge: the dry run says that the workflow would not complete, and
`start` does not end in `cancelled`. -/
theorem name_clash_disagrees : Smooth .nat gaugeEngine lawyerNotice ∅ (failingAt none) ∧
    ¬ ∃ report, simulate .nat gaugeEngine.conditionEngine lawyerNotice ∅ = .ok report ∧
      Agrees report (gaugeEngine.start .nat lawyerNotice ∅ (failingAt none)).execution := by
  refine ⟨smooth_notice _, ?_⟩
  rintro ⟨report, hreport, hagrees⟩
  have hrunning : (gaugeEngine.start .nat lawyerNotice ∅ (failingAt none)).execution.status =
      .running := by decide +kernel
  have hcompletes : report.wouldComplete = true := by
    rw [hagrees.completes, hrunning]
    decide
  have hfalse : (simulate .nat gaugeEngine.conditionEngine lawyerNotice ∅).map
      SimulationReport.wouldComplete = .ok false := by decide +kernel
  rw [hreport, Except.map, hcompletes] at hfalse
  cases hfalse

end Tmis.WorkflowAutomation
