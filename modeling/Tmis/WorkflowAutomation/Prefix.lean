import Mathlib.Data.List.SplitBy
import Mathlib.Data.List.TakeWhile
import Tmis.Lib.Run
import Tmis.WorkflowAutomation.ExecutionEngine

/-!
# What a call leaves behind is a prefix

Wherever a call ends, the results of an execution are those of the first steps in order, as many as
the saved index says, and no parallel group is cut in two.

* `boundary_of_cut` — where neighbours are not in one run, a partition into runs has a boundary;
* `runLoop_prefixOf` — the loop preserves `PrefixOf` and ends at the end of the list or before it;
* `resume_prefixOf` — one accepted `resume`;
* `start_resume_prefix` — `start`, and any number of resumes.
-/

namespace Tmis.WorkflowAutomation

open Tmis.Lib ExecutionEngine

/-! ### Boundaries of a partition into runs -/

section Boundary

variable {α : Type*} {r : α → α → Bool} {l : List α} {n : ℕ}

/-- `n` entries of `l` make up some of its first maximal runs of `r`-related neighbours. -/
def Boundary (r : α → α → Bool) (l : List α) (n : ℕ) : Prop :=
  ∃ pre post, l.splitBy r = pre ++ post ∧ n = pre.flatten.length

lemma Boundary.le (h : Boundary r l n) : n ≤ l.length := by
  obtain ⟨pre, post, hsplit, rfl⟩ := h
  have := congrArg (fun m => m.flatten.length) hsplit
  simp only [List.flatten_splitBy, List.flatten_append, List.length_append] at this
  omega

lemma boundary_zero : Boundary r l 0 := ⟨[], l.splitBy r, rfl, rfl⟩

/-- Where neighbours are not related, there is a boundary. -/
lemma boundary_of_cut {pre post : List α} (h : ∀ x ∈ pre.getLast?, ∀ y ∈ post.head?, r x y = false) :
    Boundary r (pre ++ post) pre.length :=
  ⟨pre.splitBy r, post.splitBy r, List.splitBy_append h, by rw [List.flatten_splitBy]⟩

end Boundary

/-! ### The invariant -/

/-- Two neighbours in one parallel group. -/
def sameGroup (s t : WorkflowStep) : Bool :=
  s.parallelGroup.isSome && s.parallelGroup = t.parallelGroup

/-- The results are those of a prefix of `steps` that cuts no parallel group, and the index is its
length. -/
structure PrefixOf (steps : List WorkflowStep) (execution : WorkflowExecution) : Prop where
  index_eq : execution.currentStepIndex = execution.stepResults.length
  boundary : Boundary sameGroup steps execution.currentStepIndex
  orders : execution.stepResults.map (·.stepOrder) =
    (steps.take execution.currentStepIndex).map (·.order)

/-- The status tells whether the prefix is the whole list. -/
def StatusOf (steps : List WorkflowStep) (execution : WorkflowExecution) : Prop :=
  if execution.currentStepIndex = steps.length then execution.status = .completed
  else execution.status = .failed

section Advance

variable {done group rest : List WorkflowStep} {execution : WorkflowExecution}
  {results : List StepExecutionResult}

variable (group rest results) in
/-- The results of the next group extend the prefix, if the group ends where a run does. -/
lemma PrefixOf.advance (h : PrefixOf (done ++ (group ++ rest)) execution)
    (hidx : execution.currentStepIndex = done.length)
    (hres : results.map (·.stepOrder) = group.map (·.order))
    (hcut : ∀ s ∈ (done ++ group).getLast?, ∀ t ∈ rest.head?, sameGroup s t = false) :
    PrefixOf (done ++ (group ++ rest)) (execution.advance results group.length) := by
  have hlen : results.length = group.length := by simpa using congrArg List.length hres
  refine ⟨?_, ?_, ?_⟩
  · simp [WorkflowExecution.advance, h.index_eq, hlen]
  · have := boundary_of_cut hcut
    rwa [List.append_assoc, List.length_append, ← hidx] at this
  · have horders := h.orders
    rw [hidx, List.take_left] at horders
    simp only [WorkflowExecution.advance, List.map_append, horders, hres, hidx]
    rw [← List.append_assoc, ← List.length_append, List.take_left, List.map_append]

end Advance

/-! ### The loop -/

section Loop

variable {interpreter : Interpreter} {engine : ExecutionEngine}

/-- A group of the loop ends where its run does. -/
lemma group_cut {step : WorkflowStep} (done rest : List WorkflowStep)
    (h : step.parallelGroup.isSome) :
    ∀ s ∈ (done ++ step :: rest.takeWhile fun s => decide (s.parallelGroup = step.parallelGroup)).getLast?,
      ∀ t ∈ (rest.dropWhile fun s => decide (s.parallelGroup = step.parallelGroup)).head?,
        sameGroup s t = false := by
  intro s hs t ht
  have hs' : s.parallelGroup = step.parallelGroup := by
    have hmem : s ∈ step :: rest.takeWhile fun s => decide (s.parallelGroup = step.parallelGroup) := by
      rw [List.getLast?_append_of_ne_nil _ (List.cons_ne_nil _ _)] at hs
      exact List.mem_of_getLast? hs
    rcases List.mem_cons.mp hmem with rfl | hmem
    · rfl
    · simpa using List.mem_takeWhile_imp hmem
  have ht' : ¬ t.parallelGroup = step.parallelGroup := by
    have := List.head?_dropWhile_not (fun s => decide (s.parallelGroup = step.parallelGroup)) rest
    rw [Option.mem_def.mp ht] at this
    simpa using this
  simp [sameGroup, hs', Ne.symm ht']

/-- **The loop preserves the invariant**, and it ends without an error exactly at the end of the
list. -/
theorem runLoop_prefixOf (interpreter : Interpreter) (engine : ExecutionEngine)
    {remaining done : List WorkflowStep} (script : Script) {execution : WorkflowExecution}
    (actions : ActionEngine) (h : PrefixOf (done ++ remaining) execution) (hidx : execution.currentStepIndex = done.length) :
    PrefixOf (done ++ remaining)
        (runLoop interpreter engine remaining script execution actions).2.1 ∧
      ((runLoop interpreter engine remaining script execution actions).1 = none ↔
        (runLoop interpreter engine remaining script execution actions).2.1.currentStepIndex =
          (done ++ remaining).length) := by
  fun_induction runLoop interpreter engine remaining script execution actions generalizing done with
  | case1 => simpa [hidx] using h
  | case2 => simpa [hidx] using h
  | case3 step rest script execution actions hsome inGroup group results actions' hg =>
    rename_i ih
    have hrest : group ++ rest.dropWhile inGroup = step :: rest := by
      simp [group, List.takeWhile_append_dropWhile]
    have hcut := group_cut done rest hsome
    have hnext := PrefixOf.advance group (rest.dropWhile inGroup) results (hrest ▸ h)
      hidx (gather_orders (by rw [hg])) hcut
    have hidx' : (execution.advance results group.length).currentStepIndex = (done ++ group).length := by
      simp [WorkflowExecution.advance, hidx]
    rw [← List.append_assoc] at hnext
    have := ih hnext hidx'
    rwa [List.append_assoc, hrest] at this
  | case4 => simpa [hidx] using h
  | case5 step rest script execution actions hnone result actions' hs ih =>
    have horder := runStep_order (congrArg Prod.fst hs)
    have hnext := PrefixOf.advance [step] rest [result] h hidx (by simp [horder])
      (by
        intro s hs t _
        rw [List.getLast?_append_of_ne_nil _ (List.cons_ne_nil _ _)] at hs
        cases hs
        simpa [sameGroup] using fun h => absurd h hnone)
    have hidx' : (execution.advance [result] 1).currentStepIndex = (done ++ [step]).length := by
      simp [WorkflowExecution.advance, hidx]
    rw [← List.append_assoc] at hnext
    have := ih hnext hidx'
    rwa [List.append_assoc] at this

end Loop

/-! ### The calls -/

section Calls

variable {interpreter : Interpreter} {engine : ExecutionEngine} {execution : WorkflowExecution}
  {workflow : Workflow} {script : Script}

variable (interpreter engine script) in
lemma runRemaining_prefixOf (h : PrefixOf (orderedSteps workflow) execution) :
    PrefixOf (orderedSteps workflow)
        (runRemaining interpreter engine execution workflow script).2.1 ∧
      ((runRemaining interpreter engine execution workflow script).1 = none ↔
        (runRemaining interpreter engine execution workflow script).2.1.currentStepIndex =
          (orderedSteps workflow).length) := by
  have hsplit := List.take_append_drop execution.currentStepIndex (orderedSteps workflow)
  have hlen : execution.currentStepIndex =
      ((orderedSteps workflow).take execution.currentStepIndex).length := by
    rw [List.length_take, min_eq_left h.boundary.le]
  have := runLoop_prefixOf interpreter engine script engine.actionEngine (hsplit.symm ▸ h) hlen
  rwa [hsplit] at this

/-- The status `_run_from` writes goes with the prefix. -/
lemma settle_prefixOf {steps : List WorkflowStep} {raised : Option Raised}
    (hp : PrefixOf steps execution)
    (hend : raised = none ↔ execution.currentStepIndex = steps.length) :
    PrefixOf steps (settle raised execution) ∧
      (raised ≠ some .interrupt → StatusOf steps (settle raised execution)) := by
  rcases raised with _ | (e | _)
  · refine ⟨⟨hp.index_eq, hp.boundary, hp.orders⟩, fun _ => ?_⟩
    exact (if_pos (hend.mp rfl)).mpr rfl
  · refine ⟨⟨hp.index_eq, hp.boundary, hp.orders⟩, fun _ => ?_⟩
    exact (if_neg fun hlen => Option.some_ne_none _ (hend.mpr hlen)).mpr rfl
  · exact ⟨hp, fun hno => absurd rfl hno⟩

variable (interpreter engine script) in
/-- **One `_run_from`** leaves a prefix, and unless it is interrupted the status that goes with
it. -/
theorem runFrom_prefixOf (h : PrefixOf (orderedSteps workflow) execution) :
    PrefixOf (orderedSteps workflow) (engine.runFrom interpreter execution workflow script).execution ∧
      (¬ Interrupted interpreter engine execution workflow script →
        StatusOf (orderedSteps workflow)
          (engine.runFrom interpreter execution workflow script).execution) := by
  obtain ⟨hp, hend⟩ := runRemaining_prefixOf interpreter engine script h
  rw [(runFrom_spec ..).1]
  exact settle_prefixOf hp hend

variable (interpreter engine script) in
/-- An execution that `_run_from` completes has the results of all steps. -/
lemma runFrom_completed (h : PrefixOf (orderedSteps workflow) execution)
    (hstatus : execution.status ≠ .completed)
    (hdone : (engine.runFrom interpreter execution workflow script).execution.status = .completed) :
    (engine.runFrom interpreter execution workflow script).execution.currentStepIndex =
      (orderedSteps workflow).length := by
  by_cases hint : Interrupted interpreter engine execution workflow script
  · obtain ⟨rs, n, hframe⟩ := runLoop_frame interpreter engine execution script
      ((orderedSteps workflow).drop execution.currentStepIndex) engine.actionEngine
    rw [(runFrom_spec ..).1, hint, runRemaining, hframe] at hdone
    exact absurd hdone hstatus
  · have hs := (runFrom_prefixOf interpreter engine script h).2 hint
    unfold StatusOf at hs
    split at hs
    · assumption
    · rw [hs] at hdone
      cases hdone

lemma prefixOf_new {id workflowId : Uuid} {firmId : String} {status : ExecutionStatus}
    {failureReason : Option String} {telemetrySpanId : Option Uuid} (steps : List WorkflowStep) :
    PrefixOf steps
      { id, firmId, workflowId, status, failureReason, telemetrySpanId } :=
  ⟨rfl, boundary_zero, rfl⟩

/-- What `start` leaves when it returns: nothing was run of a workflow whose conditions do not hold,
else the status goes with the prefix. -/
def StartedWell (interpreter : Interpreter) (engine : ExecutionEngine) (workflow : Workflow)
    (context : Context) (execution : WorkflowExecution) : Prop :=
  PrefixOf (orderedSteps workflow) execution ∧
    ((engine.conditionEngine.evaluateAll interpreter workflow.conditions context = .ok false ∧
        execution.status = .cancelled) ∨
      StatusOf (orderedSteps workflow) execution)

lemma startChecked_prefixOf {context : Context} (h : PrefixOf (orderedSteps workflow) execution)
    (hreturns : (engine.startChecked interpreter execution workflow context script).raised = none) :
    StartedWell interpreter engine workflow context
      (engine.startChecked interpreter execution workflow context script).execution := by
  unfold startChecked at hreturns ⊢
  split
  · simp_all
  · rename_i hfalse
    exact ⟨⟨h.index_eq, h.boundary, h.orders⟩, Or.inl ⟨hfalse, rfl⟩⟩
  · rename_i htrue
    rw [htrue] at hreturns
    obtain ⟨hp, hs⟩ := runFrom_prefixOf interpreter engine script h
    exact ⟨hp, Or.inr (hs (not_interrupted_of_returns hreturns))⟩

theorem start_prefixOf {context : Context}
    (hreturns : (engine.start interpreter workflow context script).raised = none) :
    StartedWell interpreter engine workflow context
      (engine.start interpreter workflow context script).execution := by
  rcases engine.start_cases interpreter workflow context script with
    ⟨-, e, h⟩ | ⟨-, telemetry, spanId, execution, rfl, h⟩
  · rw [h] at hreturns
    cases hreturns
  · rw [h] at hreturns ⊢
    exact startChecked_prefixOf (prefixOf_new _) hreturns

end Calls

/-! ### Runs of calls -/

/-- A call of `resume`: the engine it finds, and what happens while it waits. -/
structure ResumeCall where
  engine : ExecutionEngine
  script : Script

section Runs

variable (interpreter : Interpreter) (workflow : Workflow)

/-- The execution after a resume. -/
def resumed (execution : WorkflowExecution) (call : ResumeCall) : WorkflowExecution :=
  (call.engine.resume interpreter execution workflow call.script).execution

/-- What holds after a resume: a prefix, and unless the call was interrupted the status of it. -/
def ResumedWell (execution : WorkflowExecution) (call : ResumeCall) : Prop :=
  PrefixOf (orderedSteps workflow) (resumed interpreter workflow execution call) ∧
    (¬ Interrupted interpreter call.engine (reopen execution) workflow call.script →
      StatusOf (orderedSteps workflow) (resumed interpreter workflow execution call))

variable {interpreter workflow}

/-- **One accepted resume.** -/
theorem resume_prefixOf {execution : WorkflowExecution} {call : ResumeCall}
    (h : PrefixOf (orderedSteps workflow) execution) (hacc : Resumable execution) :
    ResumedWell interpreter workflow execution call := by
  unfold ResumedWell resumed resume
  rw [if_neg (not_not.mpr hacc)]
  exact runFrom_prefixOf _ _ _ ⟨h.index_eq, h.boundary, h.orders⟩

/-- **The prefix invariant of executions.**  After a `start` that returns, and after each of any
number of accepted resumes with the same workflow, the results are those of a prefix of the ordered
steps that cuts no parallel group, and the status tells whether it is the whole list: unless the
conditions of the workflow cancelled the execution, and unless the call was torn down by an
interrupt. -/
theorem start_resume_prefix (interpreter : Interpreter) (engine : ExecutionEngine)
    (workflow : Workflow) (context : Context) (script : Script) (calls : List ResumeCall)
    (hreturns : (engine.start interpreter workflow context script).raised = none)
    (haccepted : Along (resumed interpreter workflow) (fun execution _ => Resumable execution)
      (engine.start interpreter workflow context script).execution calls) :
    StartedWell interpreter engine workflow context
        (engine.start interpreter workflow context script).execution ∧
      Along (resumed interpreter workflow) (ResumedWell interpreter workflow)
        (engine.start interpreter workflow context script).execution calls := by
  have hstart := start_prefixOf hreturns
  refine ⟨hstart, ?_⟩
  exact haccepted.of_inv (I := PrefixOf (orderedSteps workflow)) hstart.1
    (fun _ _ h hacc => (resume_prefixOf h hacc).1) (fun _ _ h hacc => resume_prefixOf h hacc)

end Runs

/-! ### A workflow of one step and a group of two -/

/-- The step number `order`, in the group `group`. -/
def noticeStep (order : ℕ) (group : Option String) : WorkflowStep :=
  { order, name := "step", action := { id := order, actionType := "notify" }, parallelGroup := group }

def noticeWorkflow : Workflow :=
  { id := 7, workflowKey := 8, firmId := "firm", name := "notice", version := 1, owner := "owner",
    steps := [noticeStep 3 (some "letters"), noticeStep 1 none, noticeStep 2 (some "letters")] }

/-- Every attempt of every step succeeds, those of the step the call comes to as number `n` apart. -/
def failingAt (n : Option ℕ) : Script := fun i =>
  { context := ∅
    attempts := fun _ => .completes (.returns { success := n ≠ some i, detail := "" }) }

def noticeEngine : ExecutionEngine := { actionEngine := { handlers := ["notify"] } }

theorem start_resume_prefix_notice :
    StartedWell .nat noticeEngine noticeWorkflow ∅
        (noticeEngine.start .nat noticeWorkflow ∅ (failingAt (some 2))).execution ∧
      Along (resumed .nat noticeWorkflow) (ResumedWell .nat noticeWorkflow)
        (noticeEngine.start .nat noticeWorkflow ∅ (failingAt (some 2))).execution
        [⟨noticeEngine, failingAt (some 0)⟩, ⟨noticeEngine, failingAt none⟩] :=
  start_resume_prefix .nat noticeEngine noticeWorkflow ∅ (failingAt (some 2))
    [⟨noticeEngine, failingAt (some 0)⟩, ⟨noticeEngine, failingAt none⟩]
    (by decide +kernel) (by decide +kernel)

end Tmis.WorkflowAutomation
