import Tmis.WorkflowAutomation.Attempts
import Tmis.WorkflowAutomation.Prefix

/-!
# No step is run again once it has succeeded

Of a workflow without parallel groups, over `start` and any number of accepted resumes: a step is come
to again only after it failed, each call makes at most `max_attempts` attempts of a step, and the
journal of a completed execution has one success for each step that was not skipped.

* `Accounted` — the invariant: the handlers run and the journal of an execution are those of the
  visits so far, and each finished step has what its result says;
* `Accounted.visit` — one more visit preserves it;
* `runLoop_accounted` — the loop of one call does;
* `at_most_once` — a chain of calls.
-/

namespace Tmis.WorkflowAutomation

open Tmis.Lib ExecutionEngine

/-! ### The invariant -/

/-- The journal entries of the step at a position. -/
def entriesAt (vs : List Visit) (position : ℕ) : List ActionLogEntry :=
  (vs.filter fun v => v.position = position).flatMap Visit.entries

/-- What the journal has for a finished step: only failures if it was skipped, and else the result of
the execution behind failures. -/
inductive Finished (execution : WorkflowExecution) (step : WorkflowStep) (entries : List ActionLogEntry) :
    StepExecutionResult → Prop
  | skipped (hfail : ∀ e ∈ entries, e.result.success = false) :
      Finished execution step entries { stepOrder := step.order, skipped := true }
  | ran {failures : List ActionLogEntry} {result : ActionResult}
      (hentries : entries = failures ++ [entryOf execution step result])
      (hfail : ∀ e ∈ failures, e.result.success = false) (hsuccess : result.success = true) :
      Finished execution step entries
        { stepOrder := step.order, skipped := false, actionResult := some result }

/-- Of the execution only what it writes into the journal counts. -/
lemma Finished.congr {execution execution' : WorkflowExecution} {step : WorkflowStep}
    {entries : List ActionLogEntry} {result : StepExecutionResult}
    (h : Finished execution step entries result) (hsame : entryOf execution' = entryOf execution) :
    Finished execution' step entries result := by
  cases h with
  | skipped hfail => exact .skipped hfail
  | ran hentries hfail hsuccess => exact .ran (hsame ▸ hentries) hfail hsuccess

/-- The successes to be found in the journal: one for each step that was not skipped, in order. -/
def successes (steps : List WorkflowStep) (execution : WorkflowExecution) : List ActionLogEntry :=
  (steps.zip execution.stepResults).filterMap fun x => x.2.actionResult.map (entryOf execution x.1)

/-- The visits so far account for what was run and journalled for the execution. -/
structure Accounted (steps : List WorkflowStep) (execution : WorkflowExecution) (actions : ActionEngine)
    (vs : List Visit) : Prop where
  invoked_eq : actions.invokedForExecution execution.firmId execution.id = vs.flatMap Visit.invocations
  log_eq : actions.historyForExecution execution.firmId execution.id = vs.flatMap Visit.entries
  index_eq : execution.currentStepIndex = execution.stepResults.length
  position_le : ∀ v ∈ vs, v.position ≤ execution.currentStepIndex
  not_again : vs.Pairwise fun v w => w.position = v.position → v.Failed
  finished : ∀ p step result, steps[p]? = some step → execution.stepResults[p]? = some result →
    Finished execution step (entriesAt vs p) result
  successes_eq : (vs.flatMap Visit.entries).filter (·.result.success) = successes steps execution

/-- The step the execution stands at may be run: its visits so far failed. -/
def Retriable (execution : WorkflowExecution) (vs : List Visit) : Prop :=
  ∀ v ∈ vs, v.position = execution.currentStepIndex → v.Failed

section Visit

variable {steps : List WorkflowStep} {execution : WorkflowExecution} {vs : List Visit} {v : Visit}
  {n : ℕ} {results : List ActionResult}

lemma entriesAt_concat (vs : List Visit) (v : Visit) (p : ℕ) :
    entriesAt (vs ++ [v]) p = entriesAt vs p ++ if v.position = p then v.entries else [] := by
  unfold entriesAt
  by_cases h : v.position = p <;> simp [h]

lemma Retriable.entriesAt_fail (h : Retriable execution vs) :
    ∀ e ∈ entriesAt vs execution.currentStepIndex, e.result.success = false := by
  intro e he
  obtain ⟨v, hv, hev⟩ := List.mem_flatMap.mp he
  obtain ⟨hv, hp⟩ := List.mem_filter.mp hv
  exact (h v hv (by simpa using hp)).2 e hev

/-- The next result adds its success. -/
lemma successes_advance (hindex : execution.currentStepIndex = execution.stepResults.length)
    {step : WorkflowStep} (hstep : steps[execution.currentStepIndex]? = some step)
    (result : StepExecutionResult) :
    successes steps (execution.advance [result] 1) =
      successes steps execution ++ (result.actionResult.map (entryOf execution step)).toList := by
  rw [hindex] at hstep
  obtain ⟨hlt, hget⟩ := List.getElem?_eq_some_iff.mp hstep
  have hsplit : steps.drop execution.stepResults.length =
      step :: steps.drop (execution.stepResults.length + 1) := by
    rw [← hget, ← List.drop_eq_getElem_cons hlt]
  have hlen : (steps.take execution.stepResults.length).length = execution.stepResults.length := by
    rw [List.length_take, min_eq_left hlt.le]
  have hzip : ∀ rs : List StepExecutionResult, steps.zip (execution.stepResults ++ rs) =
      (steps.take execution.stepResults.length).zip execution.stepResults ++
        (steps.drop execution.stepResults.length).zip rs := by
    intro rs
    conv_lhs => rw [← List.take_append_drop execution.stepResults.length steps]
    exact List.zip_append hlen
  have hold := hzip []
  rw [List.append_nil, List.zip_nil_right, List.append_nil] at hold
  have hnew := hzip [result]
  rw [hsplit, ← hold, List.zip_cons_cons, List.zip_nil_right] at hnew
  show (steps.zip (execution.stepResults ++ [result])).filterMap
    (fun x => x.2.actionResult.map (entryOf execution x.1)) = _
  rw [hnew, List.filterMap_append]
  cases h : result.actionResult <;> simp [successes, h]

/-- What one more visit adds to the handlers run and to the journal. -/
lemma accounts_concat (hadds : Adds execution v.step n results v.before v.after)
    (hinvoked : v.before.invokedForExecution execution.firmId execution.id =
      vs.flatMap Visit.invocations)
    (hlog : v.before.historyForExecution execution.firmId execution.id = vs.flatMap Visit.entries) :
    v.after.invokedForExecution execution.firmId execution.id =
        (vs ++ [v]).flatMap Visit.invocations ∧
      v.after.historyForExecution execution.firmId execution.id =
        (vs ++ [v]).flatMap Visit.entries := by
  refine ⟨?_, ?_⟩
  · rw [hadds.invokedForExecution_eq, hinvoked, List.flatMap_append, List.flatMap_singleton,
      hadds.invocations_eq]
  · rw [hadds.history_eq, hlog, List.flatMap_append, List.flatMap_singleton, hadds.entries_eq]

/-- A step that may be run is come to again only after failures. -/
lemma not_again_concat (h : vs.Pairwise fun v w => w.position = v.position → v.Failed)
    (hretriable : Retriable execution vs) (hposition : v.position = execution.currentStepIndex) :
    (vs ++ [v]).Pairwise fun v w => w.position = v.position → v.Failed := by
  refine List.pairwise_append.mpr ⟨h, List.pairwise_singleton _ _, ?_⟩
  intro u hu w hw heq
  rw [List.mem_singleton.mp hw, hposition] at heq
  exact hretriable u hu heq.symm

lemma position_le_concat (h : ∀ u ∈ vs, u.position ≤ execution.currentStepIndex)
    (hposition : v.position = execution.currentStepIndex) :
    ∀ u ∈ vs ++ [v], u.position ≤ execution.currentStepIndex := by
  intro u hu
  rcases List.mem_append.mp hu with hu | hu
  · exact h u hu
  · rw [List.mem_singleton.mp hu, hposition]

/-- **A visit that fails** leaves the results as they are. -/
theorem Accounted.visit_error {actions : ActionEngine} (h : Accounted steps execution actions vs)
    (hretriable : Retriable execution vs) (hposition : v.position = execution.currentStepIndex)
    (hbefore : v.before = actions) (hadds : Adds execution v.step n results v.before v.after)
    (hfail : ∀ r ∈ results, r.success = false) :
    Accounted steps execution v.after (vs ++ [v]) := by
  subst hbefore
  have hentries := hadds.entries_fail hfail
  obtain ⟨hinvoked, hlog⟩ := accounts_concat hadds h.invoked_eq h.log_eq
  refine ⟨hinvoked, hlog, h.index_eq, position_le_concat h.position_le hposition,
    not_again_concat h.not_again hretriable hposition, ?_, ?_⟩
  · intro p step result hstep hresult
    rw [entriesAt_concat, if_neg, List.append_nil]
    · exact h.finished p step result hstep hresult
    · have hp := (List.getElem?_eq_some_iff.mp hresult).1
      rw [hposition, h.index_eq]
      omega
  · have hnone : v.entries.filter (·.result.success) = [] := by
      refine List.filter_eq_nil_iff.mpr fun e he => ?_
      rw [hentries e he]
      exact Bool.false_ne_true
    rw [List.flatMap_append, List.filter_append, List.flatMap_singleton, hnone, List.append_nil,
      h.successes_eq]

/-- **A visit that returns** finishes the step. -/
theorem Accounted.visit_ok {actions : ActionEngine} (h : Accounted steps execution actions vs)
    (hretriable : Retriable execution vs) (hposition : v.position = execution.currentStepIndex)
    (hstep : steps[execution.currentStepIndex]? = some v.step)
    (hbefore : v.before = actions) (hadds : Adds execution v.step n results v.before v.after)
    {result : StepExecutionResult} (hcomes : VisitComes v.step n results (.ok result)) :
    Accounted steps (execution.advance [result] 1) v.after (vs ++ [v]) := by
  subst hbefore
  have hopen := hretriable.entriesAt_fail
  have hfinished : Finished execution v.step (entriesAt vs execution.currentStepIndex ++ v.entries)
      result := by
    rw [hadds.entries_eq]
    cases hcomes with
    | skipped hn hres => exact .skipped (by simpa [hres] using hopen)
    | ran hc =>
      cases hc with
      | @succeeds failures result hres hfail hsuccess hn =>
        have hfailures : ∀ e ∈ entriesAt vs execution.currentStepIndex ++
            failures.map (entryOf execution v.step), e.result.success = false := by
          intro e he
          rcases List.mem_append.mp he with he | he
          · exact hopen e he
          · obtain ⟨r, hr, rfl⟩ := List.mem_map.mp he
            exact hfail r hr
        exact .ran (by simp [hres]) hfailures hsuccess
  have hsuccesses : v.entries.filter (·.result.success) =
      (result.actionResult.map (entryOf execution v.step)).toList := by
    rw [hadds.entries_eq]
    cases hcomes with
    | skipped hn hres => simp [hres]
    | ran hc =>
      cases hc with
      | @succeeds failures result hres hfail hsuccess hn =>
        have hnone : (failures.map (entryOf execution v.step)).filter (·.result.success) = [] := by
          refine List.filter_eq_nil_iff.mpr fun e he => ?_
          obtain ⟨r, hr, rfl⟩ := List.mem_map.mp he
          simp [entryOf, hfail r hr]
        rw [hres, List.map_append, List.filter_append, hnone]
        simp [entryOf, hsuccess]
  obtain ⟨hinvoked, hlog⟩ := accounts_concat hadds h.invoked_eq h.log_eq
  refine ⟨hinvoked, hlog, ?_, ?_, not_again_concat h.not_again hretriable hposition, ?_, ?_⟩
  · simp [WorkflowExecution.advance, h.index_eq]
  · intro w hw
    exact (position_le_concat h.position_le hposition w hw).trans (Nat.le_succ _)
  · intro p step r hp hr
    rw [entriesAt_concat]
    by_cases hlt : p < execution.stepResults.length
    · rw [if_neg (by rw [hposition, h.index_eq]; omega), List.append_nil]
      refine (h.finished p step r hp ?_).congr rfl
      rwa [WorkflowExecution.advance, List.getElem?_append_left hlt] at hr
    · -- the step just visited
      have hlen := (List.getElem?_eq_some_iff.mp hr).1
      simp only [WorkflowExecution.advance, List.length_append, List.length_singleton] at hlen
      obtain rfl : p = execution.currentStepIndex := by rw [h.index_eq]; omega
      rw [hstep] at hp
      cases hp
      simp only [WorkflowExecution.advance, h.index_eq, List.getElem?_concat_length] at hr
      cases hr
      rw [if_pos hposition]
      exact hfinished.congr rfl
  · rw [List.flatMap_append, List.filter_append, List.flatMap_singleton, hsuccesses, h.successes_eq,
      successes_advance h.index_eq hstep]

end Visit

/-! ### The loop -/

section Loop

variable {interpreter : Interpreter} {engine : ExecutionEngine} {steps : List WorkflowStep}

/-- What the loop of one call comes to: it is accounted for by its visits, each at a step of its own
from the one the execution stood at; and unless it was interrupted the step it ended at may be run
again. -/
structure LoopAccounted (steps : List WorkflowStep) (execution : WorkflowExecution) (maxAttempts : ℕ)
    (vs new : List Visit) (result : Option Raised × WorkflowExecution × ActionEngine) : Prop where
  accounted : Accounted steps result.2.1 result.2.2 (vs ++ new)
  retriable : result.1 ≠ some .interrupt → Retriable result.2.1 (vs ++ new)
  fair : ∀ v ∈ new, v.Fair execution maxAttempts ∧ steps[v.position]? = some v.step
  le_position : ∀ v ∈ new, execution.currentStepIndex ≤ v.position
  once : (new.map (·.position)).Nodup

/-- No step behind the last one visited was come to. -/
lemma retriable_advance {execution : WorkflowExecution} {vs : List Visit}
    (result : StepExecutionResult)
    (h : ∀ v ∈ vs, v.position ≤ execution.currentStepIndex) :
    Retriable (execution.advance [result] 1) vs := by
  intro v hv heq
  have := h v hv
  simp only [WorkflowExecution.advance] at heq
  omega

/-- **The loop of one call**, over steps without a parallel group. -/
theorem runLoop_accounted (interpreter : Interpreter) (engine : ExecutionEngine)
    {remaining done : List WorkflowStep} {script : Script}
    {execution : WorkflowExecution} {actions : ActionEngine} {vs : List Visit}
    (hsteps : steps = done ++ remaining) (hdone : done.length = execution.currentStepIndex)
    (hgroups : ∀ step ∈ remaining, step.parallelGroup = none) (hscript : script.NoTimeouts)
    (h : Accounted steps execution actions vs) (hretriable : Retriable execution vs) :
    LoopAccounted steps execution engine.maxAttempts vs
      (visits interpreter engine remaining script execution actions)
      (runLoop interpreter engine remaining script execution actions) := by
  induction remaining generalizing done script execution actions vs with
  | nil =>
    rw [runLoop, visits]
    exact ⟨by rwa [List.append_nil], fun _ => by rwa [List.append_nil], by simp, by simp, by simp⟩
  | cons step rest ih =>
    obtain ⟨hnone, hrest⟩ := List.forall_mem_cons.mp hgroups
    obtain ⟨n, results, hn, hadds, hcomes⟩ :=
      runStep_adds interpreter engine execution step actions (hscript 0)
    have hstep : steps[execution.currentStepIndex]? = some step := by
      rw [hsteps, ← hdone, List.getElem?_append_right le_rfl]
      simp
    rw [runLoop, visits, if_neg (by simp [hnone])]
    rcases hrun : runStep interpreter engine execution step (script 0) actions with ⟨outcome, after⟩
    rw [hrun] at hadds hcomes
    let v : Visit := { position := execution.currentStepIndex, step, outcome, before := actions, after }
    have hfair : v.Fair execution engine.maxAttempts := Adds.fair (v := v) hadds hn hcomes
    cases outcome with
    | error raised =>
      have hfail : ∀ r ∈ results, r.success = false := by
        cases hcomes with
        | raised hc => cases hc <;> assumption
      refine ⟨h.visit_error (v := v) hretriable rfl rfl hadds hfail, ?_, ?_, ?_, ?_⟩
      · intro hint u hu hposition
        rcases List.mem_append.mp hu with hu | hu
        · exact hretriable u hu hposition
        · rw [List.mem_singleton.mp hu]
          refine ⟨?_, Adds.entries_fail (v := v) hadds hfail⟩
          cases raised with
          | exception e => exact ⟨e, rfl⟩
          | interrupt => exact absurd rfl hint
      · simpa using ⟨hfair, hstep⟩
      · simp
      · simp
    | ok result =>
      have hnext := h.visit_ok (v := v) hretriable rfl hstep rfl hadds hcomes
      have hsplit : steps = done ++ [step] ++ rest := by simp [hsteps]
      have hih := ih hsplit (by simp [WorkflowExecution.advance, hdone]) hrest hscript.tail hnext
        (retriable_advance result (position_le_concat h.position_le rfl))
      have hlt : ∀ u ∈ visits interpreter engine rest (fun n => script (n + 1))
          (execution.advance [result] 1) after, execution.currentStepIndex < u.position :=
        fun u hu => Nat.lt_of_succ_le (hih.le_position u hu)
      refine ⟨?_, ?_, ?_, ?_, ?_⟩
      · simpa using hih.accounted
      · simpa using hih.retriable
      · intro u hu
        rcases List.mem_cons.mp hu with rfl | hu
        · exact ⟨hfair, hstep⟩
        · obtain ⟨hf, hs⟩ := hih.fair u hu
          exact ⟨⟨hf.own, hf.own_entries, hf.attempts_le, hf.stops⟩, hs⟩
      · intro u hu
        rcases List.mem_cons.mp hu with rfl | hu
        · exact le_rfl
        · exact (hlt u hu).le
      · refine List.nodup_cons.mpr ⟨fun hmem => ?_, hih.once⟩
        obtain ⟨u, hu, heq⟩ := List.mem_map.mp hmem
        exact (hlt u hu).ne' heq

end Loop

/-! ### The calls -/

/-- What a call leaves: the execution and the action engine. -/
structure Standing where
  execution : WorkflowExecution
  actions : ActionEngine

def CallResult.standing (r : CallResult) : Standing := ⟨r.execution, r.engine.actionEngine⟩

/-- The visits of one call, and how often it may attempt a step. -/
structure CallVisits where
  maxAttempts : ℕ
  visits : List Visit

/-- The visits of `_run_from`. -/
def runFromVisits (interpreter : Interpreter) (engine : ExecutionEngine) (execution : WorkflowExecution)
    (workflow : Workflow) (script : Script) : List Visit :=
  visits interpreter engine ((orderedSteps workflow).drop execution.currentStepIndex) script execution
    engine.actionEngine

/-- The visits of `start`: those of `_run_from`, if it comes to that. -/
def startVisits (interpreter : Interpreter) (engine : ExecutionEngine) (workflow : Workflow)
    (context : Context) (script : Script) : List Visit :=
  let execution := engine.newExecution workflow
  let engine := { engine with uuids := engine.uuids + 1 }.save execution
  match engine.recordStarted execution workflow context with
  | .error _ => []
  | .ok (execution, engine) =>
      match engine.conditionEngine.evaluateAll interpreter workflow.conditions context with
      | .ok true => runFromVisits interpreter engine execution workflow script
      | _ => []

/-- The standing after a resume. -/
def resumeFrom (interpreter : Interpreter) (workflow : Workflow) (s : Standing) (call : ResumeCall) :
    Standing :=
  (call.engine.resume interpreter s.execution workflow call.script).standing

/-- The visits of each of a chain of accepted resumes. -/
def resumeVisits (interpreter : Interpreter) (workflow : Workflow) :
    Standing → List ResumeCall → List CallVisits
  | _, [] => []
  | s, call :: calls =>
      { maxAttempts := call.engine.maxAttempts
        visits := runFromVisits interpreter call.engine (reopen s.execution) workflow call.script } ::
        resumeVisits interpreter workflow (resumeFrom interpreter workflow s call) calls

/-- How a chain goes on: the resume is accepted, no attempt outlives its timeout, and what was run and
journalled for the execution is what the last call left. -/
structure Continues (s : Standing) (call : ResumeCall) : Prop where
  accepted : Resumable s.execution
  noTimeouts : call.script.NoTimeouts
  invoked_kept : call.engine.actionEngine.invokedForExecution s.execution.firmId s.execution.id =
    s.actions.invokedForExecution s.execution.firmId s.execution.id
  log_kept : call.engine.actionEngine.historyForExecution s.execution.firmId s.execution.id =
    s.actions.historyForExecution s.execution.firmId s.execution.id

/-- What a chain of calls is to have done. -/
structure AtMostOnce (steps : List WorkflowStep) (s : Standing) (calls : List CallVisits) : Prop where
  /-- The visits account for every handler run for the execution, and for its journal. -/
  invoked_eq : s.actions.invokedForExecution s.execution.firmId s.execution.id =
    (calls.flatMap CallVisits.visits).flatMap Visit.invocations
  log_eq : s.actions.historyForExecution s.execution.firmId s.execution.id =
    (calls.flatMap CallVisits.visits).flatMap Visit.entries
  /-- Each call comes to a step at most once, and makes at most `maxAttempts` attempts of it. -/
  per_call : ∀ c ∈ calls, (c.visits.map (·.position)).Nodup ∧
    ∀ v ∈ c.visits, steps[v.position]? = some v.step ∧ v.Fair s.execution c.maxAttempts
  /-- A step is come to again only if it failed, with no success in the journal. -/
  not_again : (calls.flatMap CallVisits.visits).Pairwise fun v w => w.position = v.position → v.Failed
  /-- A completed execution: one success for each step that was not skipped, in order, each behind
  the failures of its step. -/
  completed : s.execution.status = .completed →
    s.execution.stepResults.map (·.stepOrder) = steps.map (·.order) ∧
    (s.actions.historyForExecution s.execution.firmId s.execution.id).filter (·.result.success) =
      successes steps s.execution ∧
    ∀ p step result, steps[p]? = some step → s.execution.stepResults[p]? = some result →
      Finished s.execution step (entriesAt (calls.flatMap CallVisits.visits) p) result

section Calls

variable {interpreter : Interpreter} {engine : ExecutionEngine} {workflow : Workflow} {s : Standing}
  {calls : List CallVisits}

lemma Visit.Fair.congr {execution execution' : WorkflowExecution} {maxAttempts : ℕ} {v : Visit}
    (h : v.Fair execution maxAttempts) (hfirm : execution'.firmId = execution.firmId)
    (hid : execution'.id = execution.id) : v.Fair execution' maxAttempts := by
  refine ⟨fun i hi => ?_, fun e he => ?_, h.attempts_le, h.stops⟩
  · rw [h.own i hi, invocationOf, invocationOf, hfirm, hid]
  · rw [entryOf, hfirm, hid]
    exact h.own_entries e he

/-- The invariant of a chain of calls. -/
structure Stands (steps : List WorkflowStep) (s : Standing) (calls : List CallVisits) : Prop where
  prefixed : PrefixOf steps s.execution
  accounted : Accounted steps s.execution s.actions (calls.flatMap CallVisits.visits)
  retriable : Resumable s.execution → Retriable s.execution (calls.flatMap CallVisits.visits)
  per_call : ∀ c ∈ calls, (c.visits.map (·.position)).Nodup ∧
    ∀ v ∈ c.visits, steps[v.position]? = some v.step ∧ v.Fair s.execution c.maxAttempts
  completed : s.execution.status = .completed → s.execution.currentStepIndex = steps.length

/-- **The invariant gives the property.** -/
theorem Stands.atMostOnce {steps : List WorkflowStep} (h : Stands steps s calls) :
    AtMostOnce steps s calls where
  invoked_eq := h.accounted.invoked_eq
  log_eq := h.accounted.log_eq
  per_call := h.per_call
  not_again := h.accounted.not_again
  completed hdone := by
    refine ⟨?_, ?_, h.accounted.finished⟩
    · rw [h.prefixed.orders, h.completed hdone, List.take_length]
    · rw [h.accounted.log_eq, h.accounted.successes_eq]

/-- What `_run_from` writes into the status changes nothing of the account. -/
lemma Accounted.settle {steps : List WorkflowStep} {execution : WorkflowExecution}
    {actions : ActionEngine} {vs : List Visit} (raised : Option Raised)
    (h : Accounted steps execution actions vs) :
    Accounted steps (ExecutionEngine.settle raised execution) actions vs := by
  have hfinished : ∀ e, entryOf e = entryOf execution → e.stepResults = execution.stepResults →
      ∀ p step result, steps[p]? = some step → e.stepResults[p]? = some result →
        Finished e step (entriesAt vs p) result := by
    intro e he hresults p step result hp hr
    exact (h.finished p step result hp (hresults ▸ hr)).congr he
  rcases raised with _ | (e | _)
  · exact ⟨h.invoked_eq, h.log_eq, h.index_eq, h.position_le, h.not_again, hfinished _ rfl rfl,
      h.successes_eq⟩
  · exact ⟨h.invoked_eq, h.log_eq, h.index_eq, h.position_le, h.not_again, hfinished _ rfl rfl,
      h.successes_eq⟩
  · exact h

/-- What `_run_from` leaves, by what the loop comes to. -/
lemma runFrom_standing (interpreter : Interpreter) (engine : ExecutionEngine)
    (execution : WorkflowExecution) (workflow : Workflow) (script : Script) :
    (engine.runFrom interpreter execution workflow script).standing =
      ⟨ExecutionEngine.settle (runRemaining interpreter engine execution workflow script).1
          (runRemaining interpreter engine execution workflow script).2.1,
        (runRemaining interpreter engine execution workflow script).2.2⟩ := by
  obtain ⟨hexecution, telemetry, hengine⟩ :=
    runFrom_spec interpreter engine execution workflow script
  unfold CallResult.standing
  rw [hexecution, hengine]
  rfl

/-- An execution that was running and may be resumed was not interrupted. -/
lemma not_interrupt_of_resumable {execution : WorkflowExecution} {script : Script}
    (hrunning : execution.status = .running)
    (h : Resumable (engine.runFrom interpreter execution workflow script).execution) :
    (runRemaining interpreter engine execution workflow script).1 ≠ some .interrupt := by
  intro hint
  obtain ⟨results, n, hframe⟩ := runLoop_frame interpreter engine execution script
    ((orderedSteps workflow).drop execution.currentStepIndex) engine.actionEngine
  rw [(runFrom_spec ..).1, hint, runRemaining, hframe] at h
  unfold Resumable at h
  simp [ExecutionEngine.settle, WorkflowExecution.advance, hrunning] at h

/-- **One `_run_from`** preserves the invariant. -/
theorem runFrom_stands {execution : WorkflowExecution} {script : Script}
    (h : Stands (orderedSteps workflow) ⟨execution, engine.actionEngine⟩ calls)
    (hretriable : Retriable execution (calls.flatMap CallVisits.visits))
    (hrunning : execution.status = .running)
    (hgroups : ∀ step ∈ workflow.steps, step.parallelGroup = none) (hscript : script.NoTimeouts) :
    Stands (orderedSteps workflow) (engine.runFrom interpreter execution workflow script).standing
      (calls ++ [{ maxAttempts := engine.maxAttempts
                   visits := runFromVisits interpreter engine execution workflow script }]) := by
  have hle : execution.currentStepIndex ≤ (orderedSteps workflow).length := h.prefixed.boundary.le
  have hloop : LoopAccounted (orderedSteps workflow) execution engine.maxAttempts
      (calls.flatMap CallVisits.visits) (runFromVisits interpreter engine execution workflow script)
      (runRemaining interpreter engine execution workflow script) := by
    refine runLoop_accounted interpreter engine (List.take_append_drop _ _).symm
      (by rw [List.length_take, min_eq_left hle]) ?_ hscript h.accounted hretriable
    intro step hstep
    have hmem : step ∈ orderedSteps workflow := (List.drop_sublist _ _).subset hstep
    exact hgroups step ((List.mem_insertionSort _).mp hmem)
  obtain ⟨rs, n, status, reason, hframe⟩ :=
    runFrom_frame interpreter engine execution workflow script
  have hvisits : (calls ++ [{ maxAttempts := engine.maxAttempts
                              visits := runFromVisits interpreter engine execution workflow script :
                                CallVisits }]).flatMap CallVisits.visits =
      calls.flatMap CallVisits.visits ++ runFromVisits interpreter engine execution workflow script := by
    simp
  refine ⟨?_, ?_, ?_, ?_, ?_⟩
  · exact (runFrom_prefixOf interpreter engine script h.prefixed).1
  · rw [hvisits, runFrom_standing]
    exact hloop.accounted.settle _
  · intro hresumable
    have hret := hloop.retriable (not_interrupt_of_resumable hrunning hresumable)
    rw [hvisits, runFrom_standing]
    intro v hv hposition
    refine hret v hv (hposition.trans ?_)
    rcases (runRemaining interpreter engine execution workflow script).1 with _ | (e | _) <;> rfl
  · intro c hc
    have hfirm : (engine.runFrom interpreter execution workflow script).standing.execution.firmId =
        execution.firmId := by rw [CallResult.standing, hframe]; rfl
    have hid : (engine.runFrom interpreter execution workflow script).standing.execution.id =
        execution.id := by rw [CallResult.standing, hframe]; rfl
    rcases List.mem_append.mp hc with hc | hc
    · obtain ⟨honce, hfair⟩ := h.per_call c hc
      exact ⟨honce, fun v hv => ⟨(hfair v hv).1, (hfair v hv).2.congr hfirm hid⟩⟩
    · rw [List.mem_singleton.mp hc]
      refine ⟨hloop.once, fun v hv => ?_⟩
      obtain ⟨hfair, hstep⟩ := hloop.fair v hv
      exact ⟨hstep, hfair.congr hfirm hid⟩
  · exact runFrom_completed interpreter engine script h.prefixed (by rw [hrunning]; decide)

/-- **One accepted resume** preserves the invariant. -/
theorem resume_stands {call : ResumeCall} (h : Stands (orderedSteps workflow) s calls)
    (hgroups : ∀ step ∈ workflow.steps, step.parallelGroup = none) (hcall : Continues s call) :
    Stands (orderedSteps workflow) (resumeFrom interpreter workflow s call)
      (calls ++ resumeVisits interpreter workflow s [call]) := by
  unfold resumeFrom resume
  rw [if_neg (not_not.mpr hcall.accepted)]
  refine runFrom_stands ⟨?_, ?_, ?_, ?_, ?_⟩ (h.retriable hcall.accepted) rfl hgroups
    hcall.noTimeouts
  · exact ⟨h.prefixed.index_eq, h.prefixed.boundary, h.prefixed.orders⟩
  · exact ⟨hcall.invoked_kept.trans h.accounted.invoked_eq, hcall.log_kept.trans h.accounted.log_eq,
      h.accounted.index_eq, h.accounted.position_le, h.accounted.not_again,
      fun p step result hp hr => (h.accounted.finished p step result hp hr).congr rfl,
      h.accounted.successes_eq⟩
  · intro hno
    rcases hno with hno | hno <;> cases hno
  · intro c hc
    obtain ⟨honce, hfair⟩ := h.per_call c hc
    exact ⟨honce, fun v hv => ⟨(hfair v hv).1, (hfair v hv).2.congr rfl rfl⟩⟩
  · intro hno
    cases hno

/-- Any number of accepted resumes preserve the invariant. -/
theorem resumes_stand {resumes : List ResumeCall} (h : Stands (orderedSteps workflow) s calls)
    (hgroups : ∀ step ∈ workflow.steps, step.parallelGroup = none)
    (hresumes : Along (resumeFrom interpreter workflow) Continues s resumes) :
    Stands (orderedSteps workflow) (run (resumeFrom interpreter workflow) s resumes)
      (calls ++ resumeVisits interpreter workflow s resumes) := by
  induction resumes generalizing s calls with
  | nil =>
    rw [run_nil, resumeVisits, List.append_nil]
    exact h
  | cons call resumes ih =>
    have := ih (resume_stands h hgroups hresumes.1) hresumes.2
    rwa [List.append_assoc] at this

/-- An execution no step was run of. -/
lemma stands_unvisited {steps : List WorkflowStep} {execution : WorkflowExecution}
    {actions : ActionEngine} (hpre : PrefixOf steps execution)
    (hresults : execution.stepResults = []) (hstatus : execution.status ≠ .completed)
    (hinvoked : actions.invokedForExecution execution.firmId execution.id = [])
    (hlog : actions.historyForExecution execution.firmId execution.id = [])
    (hcalls : ∀ c ∈ calls, c.visits = []) : Stands steps ⟨execution, actions⟩ calls := by
  have hvisits : calls.flatMap CallVisits.visits = [] := List.flatMap_eq_nil_iff.mpr hcalls
  refine ⟨hpre, ?_, ?_, ?_, fun hdone => absurd hdone hstatus⟩
  · rw [hvisits]
    refine ⟨hinvoked, hlog, hpre.index_eq, by simp, List.Pairwise.nil, ?_, ?_⟩
    · intro p step result _ hr
      simp [hresults] at hr
    · simp [successes, hresults]
  · intro _ v hv
    simp [hvisits] at hv
  · intro c hc
    simp [hcalls c hc]

/-- **A `start`** under a new identifier establishes the invariant. -/
theorem start_stands {context : Context} {script : Script}
    (hgroups : ∀ step ∈ workflow.steps, step.parallelGroup = none) (hscript : script.NoTimeouts)
    (hinvoked : engine.actionEngine.invokedForExecution workflow.firmId engine.uuids = [])
    (hlog : engine.actionEngine.historyForExecution workflow.firmId engine.uuids = []) :
    Stands (orderedSteps workflow) (engine.start interpreter workflow context script).standing
      [{ maxAttempts := engine.maxAttempts
         visits := startVisits interpreter engine workflow context script }] := by
  unfold start startVisits
  dsimp only
  cases hrec : ({ engine with uuids := engine.uuids + 1 }.save
      (engine.newExecution workflow)).recordStarted (engine.newExecution workflow) workflow context with
  | error e =>
    exact stands_unvisited (prefixOf_new _) rfl (by simp [newExecution]) hinvoked hlog
      (by simp)
  | ok r =>
    obtain ⟨execution, engine'⟩ := r
    obtain ⟨telemetry, spanId, rfl, rfl⟩ := recordStarted_ok hrec
    dsimp only
    unfold startChecked
    split
    · exact stands_unvisited (prefixOf_new _) rfl (by simp [newExecution]) hinvoked hlog (by simp_all)
    · exact stands_unvisited (prefixOf_new _) rfl (by simp) hinvoked hlog (by simp_all)
    · rename_i htrue
      rw [htrue]
      show Stands _ _ ([] ++ [_])
      refine runFrom_stands ?_ (fun _ hv => ?_) rfl hgroups hscript
      · exact stands_unvisited (prefixOf_new _) rfl (by simp [newExecution]) hinvoked hlog (by simp)
      · simp at hv

/-- **At most once.**  Of a workflow without parallel groups, after a `start` under a new identifier and
any number of accepted resumes, where no attempt outlives its timeout and nothing else is run for the
execution in between: a step is come to again only if it failed, each call makes at most
`maxAttempts` attempts of it, and the journal of a completed execution has exactly one success for
each step that was not skipped, in order, and as the last entry of that step. -/
theorem at_most_once (interpreter : Interpreter) (engine : ExecutionEngine) (workflow : Workflow)
    (context : Context) (script : Script) (resumes : List ResumeCall)
    (hgroups : ∀ step ∈ workflow.steps, step.parallelGroup = none) (hscript : script.NoTimeouts)
    (hinvoked : engine.actionEngine.invokedForExecution workflow.firmId engine.uuids = [])
    (hlog : engine.actionEngine.historyForExecution workflow.firmId engine.uuids = [])
    (hresumes : Along (resumeFrom interpreter workflow) Continues
      (engine.start interpreter workflow context script).standing resumes) :
    AtMostOnce (orderedSteps workflow)
      (run (resumeFrom interpreter workflow)
        (engine.start interpreter workflow context script).standing resumes)
      ({ maxAttempts := engine.maxAttempts
         visits := startVisits interpreter engine workflow context script } ::
        resumeVisits interpreter workflow (engine.start interpreter workflow context script).standing
          resumes) :=
  (resumes_stand (start_stands hgroups hscript hinvoked hlog) hgroups hresumes).atMostOnce

end Calls

/-! ### Two letters, the second of which fails at first -/

def letterWorkflow : Workflow :=
  { noticeWorkflow with steps := [noticeStep 2 none, noticeStep 1 none] }

/-- The first call: the letter of order 2 fails in each of its three attempts. -/
def lettersStarted : CallResult := noticeEngine.start .nat letterWorkflow ∅ (failingAt (some 1))

lemma failingAt_noTimeouts (n : Option ℕ) : (failingAt n).NoTimeouts := by
  intro i k started h
  cases h

/-- The premises of `at_most_once` hold of a run that completes. -/
theorem at_most_once_letters :
    (run (resumeFrom .nat letterWorkflow) lettersStarted.standing
      [⟨lettersStarted.engine, failingAt none⟩]).execution.status = .completed ∧
    AtMostOnce (orderedSteps letterWorkflow)
      (run (resumeFrom .nat letterWorkflow) lettersStarted.standing
        [⟨lettersStarted.engine, failingAt none⟩])
      ({ maxAttempts := 3
         visits := startVisits .nat noticeEngine letterWorkflow ∅ (failingAt (some 1)) } ::
        resumeVisits .nat letterWorkflow lettersStarted.standing
          [⟨lettersStarted.engine, failingAt none⟩]) :=
  ⟨by decide +kernel,
    at_most_once .nat noticeEngine letterWorkflow ∅ (failingAt (some 1))
      [⟨lettersStarted.engine, failingAt none⟩] (by decide +kernel) (failingAt_noTimeouts _) rfl rfl
      ⟨⟨by decide +kernel, failingAt_noTimeouts _, rfl, rfl⟩, trivial⟩⟩

end Tmis.WorkflowAutomation
