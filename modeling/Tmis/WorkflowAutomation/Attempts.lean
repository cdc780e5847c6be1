import Tmis.WorkflowAutomation.ExecutionEngine

/-!
# The attempts of a step

What a call adds to the action engine while it is at one step: for each attempt at most one handler
run and one journal entry, failures first, and a success only at the end.

* `Visit`, `visits` — each time the loop of `_run_from` comes to a step, with the action engine before
  and after;
* `Adds` — what is added for one step of one execution;
* `execute_adds`, `attempts_add`, `runStep_adds` — one attempt, the attempts of one visit, the visit;
* `Visit.Fair`, `Adds.fair` — the rules of a visit, and that each keeps to them.
-/

namespace Tmis.WorkflowAutomation

open Tmis.Lib ExecutionEngine

/-! ### Visits -/

/-- One time the loop comes to a step: which one of the ordered steps it is, what comes of it, and
the action engine before and after. -/
structure Visit where
  position : ℕ
  step : WorkflowStep
  outcome : Except Raised StepExecutionResult
  before : ActionEngine
  after : ActionEngine

namespace Visit

/-- The handlers run in the visit. -/
def invocations (v : Visit) : List Invocation := v.after.invoked.drop v.before.invoked.length

/-- The journal entries of the visit. -/
def entries (v : Visit) : List ActionLogEntry := v.after.log.drop v.before.log.length

/-- The step failed, and nothing it journalled is a success. -/
def Failed (v : Visit) : Prop :=
  (∃ e, v.outcome = .error (.exception e)) ∧ ∀ e ∈ v.entries, e.result.success = false

end Visit

/-- The steps a call comes to, of those that remain, where each is run by itself. -/
def visits (interpreter : Interpreter) (engine : ExecutionEngine) :
    List WorkflowStep → Script → WorkflowExecution → ActionEngine → List Visit
  | [], _, _, _ => []
  | step :: rest, script, execution, actions =>
      let (outcome, after) := runStep interpreter engine execution step (script 0) actions
      { position := execution.currentStepIndex, step, outcome, before := actions, after } ::
        match outcome with
        | .error _ => []
        | .ok result =>
            visits interpreter engine rest (fun n => script (n + 1)) (execution.advance [result] 1) after

/-- No attempt outlives its timeout, or its call. -/
def Script.NoTimeouts (script : Script) : Prop :=
  ∀ i n started, (script i).attempts n ≠ .timesOut started

lemma Script.NoTimeouts.tail {script : Script} (h : script.NoTimeouts) :
    Script.NoTimeouts fun n => script (n + 1) := fun i => h (i + 1)

/-! ### What is added for a step -/

section Adds

variable {execution : WorkflowExecution} {step : WorkflowStep} {m n : ℕ}
  {results results' : List ActionResult} {a b c : ActionEngine}

/-- The handler of the step's action, run for the execution. -/
def invocationOf (execution : WorkflowExecution) (step : WorkflowStep) : Invocation :=
  { firmId := execution.firmId, executionId := execution.id, action := step.action }

/-- The journal entry of one result of the step's action. -/
def entryOf (execution : WorkflowExecution) (step : WorkflowStep) (result : ActionResult) :
    ActionLogEntry :=
  { firmId := execution.firmId, executionId := execution.id, actionId := step.action.id
    actionType := step.action.actionType, result }

/-- From `a` to `b`, the handler of the step is run `n` times, and `results` are journalled. -/
structure Adds (execution : WorkflowExecution) (step : WorkflowStep) (n : ℕ)
    (results : List ActionResult) (a b : ActionEngine) : Prop where
  invoked : b.invoked = a.invoked ++ List.replicate n (invocationOf execution step)
  log : b.log = a.log ++ results.map (entryOf execution step)

lemma Adds.refl (execution : WorkflowExecution) (step : WorkflowStep) (a : ActionEngine) :
    Adds execution step 0 [] a a := ⟨by simp, by simp⟩

lemma Adds.trans (h : Adds execution step m results a b) (h' : Adds execution step n results' b c) :
    Adds execution step (m + n) (results ++ results') a c := by
  refine ⟨?_, ?_⟩
  · rw [h'.invoked, h.invoked, List.append_assoc, List.replicate_append_replicate]
  · rw [h'.log, h.log, List.append_assoc, List.map_append]

/-- A handler that is run is noted, and one that is not registered is not run. -/
lemma noteInvocation_adds (execution : WorkflowExecution) (step : WorkflowStep) (a : ActionEngine) :
    ∃ n ≤ 1, Adds execution step n []
      a (a.noteInvocation execution.firmId execution.id step.action) := by
  unfold ActionEngine.noteInvocation
  split
  · exact ⟨1, le_rfl, by simp [invocationOf], by simp⟩
  · exact ⟨0, Nat.zero_le 1, Adds.refl _ _ _⟩

/-- What attempts come to, told from the handlers run and what they journalled: failures first, a
success only as the last of them.  An interrupt may cut off a handler that is running. -/
inductive Comes (n : ℕ) (results : List ActionResult) : Except Raised ActionResult → Prop
  | succeeds {failures : List ActionResult} {result : ActionResult}
      (hres : results = failures ++ [result]) (hfail : ∀ r ∈ failures, r.success = false)
      (hsuccess : result.success = true) (hn : n = results.length) : Comes n results (.ok result)
  | fails {e : PyException} (hfail : ∀ r ∈ results, r.success = false) (hn : n = results.length) :
      Comes n results (.error (.exception e))
  | interrupted (hfail : ∀ r ∈ results, r.success = false) (hn : results.length ≤ n) :
      Comes n results (.error .interrupt)

/-- Failed attempts may come before. -/
lemma Comes.after {outcome : Except Raised ActionResult} (h : Comes n results' outcome)
    (hfail : ∀ r ∈ results, r.success = false) :
    Comes (results.length + n) (results ++ results') outcome := by
  cases h with
  | succeeds hres hfail' hsuccess hn =>
    refine .succeeds (by rw [hres, List.append_assoc]) ?_ hsuccess (by rw [hn, List.length_append])
    exact fun r hr => (List.mem_append.mp hr).elim (hfail r) (hfail' r)
  | fails hfail' hn =>
    refine .fails ?_ (by rw [hn, List.length_append])
    exact fun r hr => (List.mem_append.mp hr).elim (hfail r) (hfail' r)
  | interrupted hfail' hn =>
    refine .interrupted ?_ (by rw [List.length_append]; omega)
    exact fun r hr => (List.mem_append.mp hr).elim (hfail r) (hfail' r)

/-- A handler that returns is run once, and its result is journalled. -/
lemma journal_adds (hknown : step.action.actionType ∈ a.handlers) (result : ActionResult) :
    Adds execution step 1 [result] a
      ((a.noteInvocation execution.firmId execution.id step.action).journal
        execution.firmId execution.id step.action result) := by
  refine ⟨?_, ?_⟩
  · simp [ActionEngine.journal, ActionEngine.noteInvocation, hknown, invocationOf]
  · simp [ActionEngine.journal, ActionEngine.noteInvocation, hknown, entryOf]

variable (execution step) in
/-- **One attempt.** -/
theorem execute_adds {attempt : Attempt} (a : ActionEngine)
    (hattempt : ∀ started, attempt ≠ .timesOut started) :
    ∃ n results, n ≤ 1 ∧ Adds execution step n results a (execute execution step attempt a).2 ∧
      Comes n results (execute execution step attempt a).1 := by
  obtain ⟨n, hn, hnoted⟩ := noteInvocation_adds execution step a
  have hnone : ∀ n, Comes n [] (.error .interrupt) := fun n => .interrupted (by simp) (Nat.zero_le n)
  cases attempt with
  | timesOut started => exact absurd rfl (hattempt started)
  | cancelled started =>
    cases started with
    | false => exact ⟨0, [], Nat.zero_le 1, Adds.refl _ _ _, hnone 0⟩
    | true => exact ⟨n, [], hn, hnoted, hnone n⟩
  | completes outcome =>
    by_cases hknown : step.action.actionType ∈ a.handlers
    · cases outcome with
      | interrupts =>
        simp only [execute, ActionEngine.execute, hknown, not_true_eq_false, if_false]
        exact ⟨n, [], hn, hnoted, hnone n⟩
      | raises e =>
        simp only [execute, ActionEngine.execute, hknown, not_true_eq_false, if_false]
        refine ⟨1, _, le_rfl, journal_adds hknown { success := false, detail := e.text }, ?_⟩
        exact .fails (by simp) rfl
      | returns result =>
        simp only [execute, ActionEngine.execute, hknown, not_true_eq_false, if_false]
        refine ⟨1, [result], le_rfl, ?_⟩
        cases hsuccess : result.success with
        | false => exact ⟨journal_adds hknown result, .fails (by simpa using hsuccess) rfl⟩
        | true =>
          exact ⟨journal_adds hknown result, .succeeds (List.nil_append _).symm (by simp) hsuccess rfl⟩
    · simp only [execute, ActionEngine.execute, hknown, not_false_eq_true, if_true]
      exact ⟨0, [], Nat.zero_le 1, Adds.refl _ _ _, .fails (by simp) rfl⟩

variable (execution step) in
/-- **The attempts of one visit.**  The loop of the retry policy, with `left` attempts to go: it stops
at the first success, and after the last attempt. -/
theorem attempts_add {attempts : ℕ → Attempt} (hattempts : ∀ n started, attempts n ≠ .timesOut started)
    (left number : ℕ) (last : Option PyException) (a : ActionEngine) :
    ∃ n results, n ≤ left ∧
      Adds execution step n results a (WorkflowRetryPolicy.attempt
        (fun n => execute execution step (attempts n)) left number last a).2 ∧
      Comes n results (WorkflowRetryPolicy.attempt
        (fun n => execute execution step (attempts n)) left number last a).1 := by
  induction left generalizing number last a with
  | zero => cases last <;> exact ⟨0, [], le_rfl, Adds.refl _ _ _, .fails (by simp) rfl⟩
  | succ left ih =>
    obtain ⟨n, results, hn, hadds, hcomes⟩ :=
      execute_adds execution step a (hattempts number)
    unfold WorkflowRetryPolicy.attempt
    rcases hexec : execute execution step (attempts number) a with ⟨outcome, b⟩
    rw [hexec] at hadds hcomes
    dsimp only at hadds hcomes ⊢
    have hle : n ≤ left + 1 := hn.trans (Nat.le_add_left 1 left)
    cases hcomes with
    | succeeds hres hfail hsuccess hlen =>
      exact ⟨n, results, hle, hadds, .succeeds hres hfail hsuccess hlen⟩
    | interrupted hfail hlen => exact ⟨n, results, hle, hadds, .interrupted hfail hlen⟩
    | fails hfail hlen =>
      -- a failed attempt is followed by those that are left
      obtain ⟨n', results', hn', hadds', hcomes'⟩ := ih (number + 1) (some _) b
      exact ⟨n + n', results ++ results', by omega, hadds.trans hadds', hlen ▸ hcomes'.after hfail⟩

/-! ### One visit -/

variable {interpreter : Interpreter} {engine : ExecutionEngine} {script : StepScript}

/-- What a visit comes to: the step is skipped and nothing is run, or its last attempt succeeds; or it
ends in an error without a success. -/
inductive VisitComes (step : WorkflowStep) (n : ℕ) (results : List ActionResult) :
    Except Raised StepExecutionResult → Prop
  | skipped (hn : n = 0) (hres : results = []) :
      VisitComes step n results (.ok { stepOrder := step.order, skipped := true })
  | ran {result : ActionResult} (h : Comes n results (.ok result)) :
      VisitComes step n results
        (.ok { stepOrder := step.order, skipped := false, actionResult := some result })
  | raised {r : Raised} (h : Comes n results (.error r)) : VisitComes step n results (.error r)

/-- **One visit** makes at most as many attempts as the retry policy allows. -/
theorem runStep_adds (interpreter : Interpreter) (engine : ExecutionEngine)
    (execution : WorkflowExecution) (step : WorkflowStep) (a : ActionEngine)
    (hscript : ∀ n started, script.attempts n ≠ .timesOut started) :
    ∃ n results, n ≤ engine.maxAttempts ∧
      Adds execution step n results a (runStep interpreter engine execution step script a).2 ∧
      VisitComes step n results (runStep interpreter engine execution step script a).1 := by
  unfold runStep
  dsimp only
  split
  · exact ⟨0, [], Nat.zero_le _, Adds.refl _ _ _, .raised (.fails (by simp) rfl)⟩
  · exact ⟨0, [], Nat.zero_le _, Adds.refl _ _ _, .skipped rfl rfl⟩
  · obtain ⟨n, results, hn, hadds, hcomes⟩ :=
      attempts_add execution step hscript engine.maxAttempts 0 none a
    refine ⟨n, results, hn, ?_⟩
    unfold WorkflowRetryPolicy.run
    rcases hrun : WorkflowRetryPolicy.attempt (fun n => execute execution step (script.attempts n))
      engine.maxAttempts 0 none a with ⟨outcome, b⟩
    rw [hrun] at hadds hcomes
    cases outcome with
    | ok result => exact ⟨hadds, .ran hcomes⟩
    | error raised => exact ⟨hadds, .raised hcomes⟩

end Adds

/-! ### What a visit notes -/

section Noted

variable {execution : WorkflowExecution} {v : Visit} {n : ℕ} {results : List ActionResult}

lemma Adds.invocations_eq (h : Adds execution v.step n results v.before v.after) :
    v.invocations = List.replicate n (invocationOf execution v.step) := by
  rw [Visit.invocations, h.invoked, List.drop_left]

lemma Adds.entries_eq (h : Adds execution v.step n results v.before v.after) :
    v.entries = results.map (entryOf execution v.step) := by
  rw [Visit.entries, h.log, List.drop_left]

/-- Failures are journalled as failures. -/
lemma Adds.entries_fail (h : Adds execution v.step n results v.before v.after)
    (hfail : ∀ r ∈ results, r.success = false) : ∀ e ∈ v.entries, e.result.success = false := by
  intro e he
  rw [h.entries_eq] at he
  obtain ⟨r, hr, rfl⟩ := List.mem_map.mp he
  exact hfail r hr

/-- The handlers run for an execution. -/
def ActionEngine.invokedForExecution (engine : ActionEngine) (firmId : String) (executionId : Uuid) :
    List Invocation :=
  engine.invoked.filter fun i => i.firmId = firmId ∧ i.executionId = executionId

lemma Adds.history_eq {a b : ActionEngine} {step : WorkflowStep} (h : Adds execution step n results a b) :
    b.historyForExecution execution.firmId execution.id =
      a.historyForExecution execution.firmId execution.id ++ results.map (entryOf execution step) := by
  have hall : (results.map (entryOf execution step)).filter
      (fun e => e.firmId = execution.firmId ∧ e.executionId = execution.id) =
      results.map (entryOf execution step) := by
    refine List.filter_eq_self.mpr fun e he => ?_
    obtain ⟨r, -, rfl⟩ := List.mem_map.mp he
    simp [entryOf]
  unfold ActionEngine.historyForExecution
  rw [h.log, List.filter_append, hall]

lemma Adds.invokedForExecution_eq {a b : ActionEngine} {step : WorkflowStep}
    (h : Adds execution step n results a b) :
    b.invokedForExecution execution.firmId execution.id =
      a.invokedForExecution execution.firmId execution.id ++
        List.replicate n (invocationOf execution step) := by
  have hall : (List.replicate n (invocationOf execution step)).filter
      (fun i => i.firmId = execution.firmId ∧ i.executionId = execution.id) =
      List.replicate n (invocationOf execution step) := by
    refine List.filter_eq_self.mpr fun i hi => ?_
    rw [List.eq_of_mem_replicate hi]
    simp [invocationOf]
  unfold ActionEngine.invokedForExecution
  rw [h.invoked, List.filter_append, hall]

/-- The rules of a visit: handlers are run for this step of this execution, at most `maxAttempts`
times; what they return is journalled, and after a success no handler is run. -/
structure Visit.Fair (execution : WorkflowExecution) (maxAttempts : ℕ) (v : Visit) : Prop where
  own : ∀ i ∈ v.invocations, i = invocationOf execution v.step
  own_entries : ∀ e ∈ v.entries, e = entryOf execution v.step e.result
  attempts_le : v.invocations.length ≤ maxAttempts
  stops : ∀ pre e post, v.entries = pre ++ e :: post → e.result.success = true →
    post = [] ∧ v.invocations.length = v.entries.length

lemma Adds.fair {maxAttempts : ℕ} (h : Adds execution v.step n results v.before v.after)
    (hn : n ≤ maxAttempts) (hcomes : VisitComes v.step n results v.outcome) :
    v.Fair execution maxAttempts where
  own i hi := by
    rw [h.invocations_eq] at hi
    exact List.eq_of_mem_replicate hi
  own_entries e he := by
    rw [h.entries_eq] at he
    obtain ⟨r, -, rfl⟩ := List.mem_map.mp he
    rfl
  attempts_le := by rwa [h.invocations_eq, List.length_replicate]
  stops pre e post hsplit hsuccess := by
    have hmem : e ∈ v.entries := hsplit ▸ List.mem_append_right _ List.mem_cons_self
    have hnot : ¬ ∀ r ∈ results, r.success = false := fun hfail => by
      have := h.entries_fail hfail e hmem
      rw [hsuccess] at this
      cases this
    generalize v.outcome = outcome at hcomes
    cases hcomes with
    | skipped hn hres => exact absurd (by simp [hres]) hnot
    | raised hc =>
      cases hc with
      | fails hfail hn => exact absurd hfail hnot
      | interrupted hfail hn => exact absurd hfail hnot
    | ran hc =>
      cases hc with
      | succeeds hres hfail hresult hlen =>
        refine ⟨?_, by rw [h.invocations_eq, h.entries_eq, List.length_replicate, List.length_map, hlen]⟩
        -- an entry with others behind it is one of the failures
        rcases List.eq_nil_or_concat post with hpost | ⟨init, last, hpost⟩
        · exact hpost
        · have hfront : (pre ++ e :: init) ++ [last] = pre ++ e :: post := by simp [hpost]
          rw [h.entries_eq, hres, List.map_append, List.map_singleton, ← hfront] at hsplit
          have hinit := List.append_inj_left' hsplit rfl
          have he : e ∈ List.map (entryOf execution v.step) _ :=
            hinit ▸ List.mem_append_right pre List.mem_cons_self
          obtain ⟨r, hr, rfl⟩ := List.mem_map.mp he
          have hr' : r.success = true := hsuccess
          rw [hfail r hr] at hr'
          cases hr'

end Noted

end Tmis.WorkflowAutomation
