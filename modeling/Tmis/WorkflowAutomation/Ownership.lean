import Tmis.WorkflowAutomation.Prefix
import Tmis.WorkflowAutomation.Service

/-!
# Resumes and the workflow an execution belongs to

The route takes the workflow to go on with from the caller, and nothing compares it with the workflow
the execution was started for.  As long as callers name that one, every handler is run for a step of
the workflow of its execution, and a completed execution has the results of exactly its steps.

* `Inv` — executions are prefixes of their own workflow, and every handler run is accounted for;
* `inv_set` — what a call that stores an execution owes;
* `inv_step` — a call that names the execution's own workflow preserves the invariant;
* `along_ownSteps` — so the property holds after every run of such calls;
* `resume_other_workflow` — a resume with another workflow breaks it.
-/

namespace Tmis.WorkflowAutomation

open Tmis.Lib ExecutionEngine

/-! ### What is to hold -/

/-- The handlers run under an execution were run for steps of its workflow, and a completed
execution has a result for each of its steps, in order. -/
structure OwnSteps (service : Service) : Prop where
  invoked : ∀ e ∈ service.executionEngine.store.values,
    ∀ i ∈ service.executionEngine.actionEngine.invoked, i.firmId = e.firmId → i.executionId = e.id →
      ∃ w, service.workflowEngine.store.get (e.firmId, e.workflowId) = some w ∧
        ∃ s ∈ w.steps, s.action = i.action
  completed : ∀ e ∈ service.executionEngine.store.values, e.status = .completed →
    ∃ w, service.workflowEngine.store.get (e.firmId, e.workflowId) = some w ∧
      e.stepResults.map (·.stepOrder) = (orderedSteps w).map (·.order)

/-- The discipline: an accepted resume names the workflow the execution was started for. -/
def NamesOwnWorkflow (service : Service) (call : Call) : Prop :=
  ∀ execution workflow script, Resumes service call execution workflow script →
    workflow.id = execution.workflowId

/-- The service before any call. -/
def Service.fresh (maxAttempts : ℕ) : Service := { executionEngine := { maxAttempts } }

/-! ### The invariant -/

/-- The handler was run for a step of the workflow of its execution. -/
def Owned (service : Service) (i : Invocation) : Prop :=
  ∃ e w, service.executionEngine.store.get (i.firmId, i.executionId) = some e ∧
    service.workflowEngine.store.get (e.firmId, e.workflowId) = some w ∧
    ∃ s ∈ w.steps, s.action = i.action

/-- A stored execution stands under its key, and it is a prefix of its own workflow. -/
structure Traced (service : Service) (key : String × Uuid) (e : WorkflowExecution) : Prop where
  key_eq : key = (e.firmId, e.id)
  id_lt : e.id < service.executionEngine.uuids
  steps : ∃ w, service.workflowEngine.store.get (e.firmId, e.workflowId) = some w ∧
    PrefixOf (orderedSteps w) e ∧
    (e.status = .completed → e.currentStepIndex = (orderedSteps w).length)

structure Inv (service : Service) : Prop where
  keyed : service.workflowEngine.WellKeyed
  traced : ∀ key e, service.executionEngine.store.get key = some e → Traced service key e
  owned : InvokedOnly (Owned service) service.executionEngine.actionEngine

section Inv

variable {interpreter : Interpreter} {service : Service} {call : Call}

lemma inv_fresh (maxAttempts : ℕ) : Inv (Service.fresh maxAttempts) where
  keyed _ _ h := by cases h
  traced _ _ h := by cases h
  owned _ h := by cases h

/-- **The invariant gives the property.** -/
theorem Inv.ownSteps (h : Inv service) : OwnSteps service where
  invoked e he i hi hfirm hid := by
    obtain ⟨key, hkey⟩ := Dict.mem_values_iff.mp he
    obtain rfl := (h.traced key e hkey).key_eq
    obtain ⟨e', w, he', hw, hs⟩ := h.owned i hi
    rw [hfirm, hid, hkey] at he'
    cases he'
    exact ⟨w, hw, hs⟩
  completed e he hdone := by
    obtain ⟨key, hkey⟩ := Dict.mem_values_iff.mp he
    obtain ⟨w, hw, hp, hlen⟩ := (h.traced key e hkey).steps
    refine ⟨w, hw, ?_⟩
    rw [hp.orders, hlen hdone, List.take_length]

/-! ### What a call owes -/

/-- A change of the workflows that keeps them keeps the invariant. -/
lemma inv_of_keeps (h : Inv service) {service' : Service}
    (hkeyed : service'.workflowEngine.WellKeyed)
    (hkeeps : service.workflowEngine.Keeps service'.workflowEngine)
    (hstore : service'.executionEngine.store = service.executionEngine.store)
    (huuids : service'.executionEngine.uuids = service.executionEngine.uuids)
    (hinvoked : service'.executionEngine.actionEngine.invoked =
      service.executionEngine.actionEngine.invoked) : Inv service' where
  keyed := hkeyed
  traced key e he := by
    rw [hstore] at he
    obtain ⟨hkey, hlt, w, hw, hp, hlen⟩ := h.traced key e he
    obtain ⟨w', hw', hs⟩ := hkeeps _ w hw
    have horder : orderedSteps w' = orderedSteps w := by rw [orderedSteps, hs]; rfl
    exact ⟨hkey, huuids ▸ hlt, w', hw', horder ▸ hp, horder ▸ hlen⟩
  owned i hi := by
    rw [hinvoked] at hi
    obtain ⟨e, w, he, hw, s, hs, haction⟩ := h.owned i hi
    obtain ⟨w', hw', hsteps⟩ := hkeeps _ w hw
    exact ⟨e, w', hstore ▸ he, hw', s, hsteps ▸ hs, haction⟩

/-- **What a call that stores an execution owes**: the execution is a prefix of its workflow, which
it does not change, and handlers are run for the steps of that workflow only. -/
theorem inv_set (h : Inv service) {engine : ExecutionEngine} {e : WorkflowExecution} {w : Workflow}
    (hstore : engine.store = service.executionEngine.store.set (e.firmId, e.id) e)
    (huuids : service.executionEngine.uuids ≤ engine.uuids) (hid : e.id < engine.uuids)
    (hsame : ∀ e', service.executionEngine.store.get (e.firmId, e.id) = some e' →
      e'.workflowId = e.workflowId)
    (hw : service.workflowEngine.store.get (e.firmId, e.workflowId) = some w)
    (hpre : PrefixOf (orderedSteps w) e)
    (hdone : e.status = .completed → e.currentStepIndex = (orderedSteps w).length)
    (hinvoked : ∀ P : Invocation → Prop,
      (∀ s ∈ w.steps, P { firmId := e.firmId, executionId := e.id, action := s.action }) →
      InvokedOnly P service.executionEngine.actionEngine → InvokedOnly P engine.actionEngine) :
    Inv { service with executionEngine := engine } where
  keyed := h.keyed
  traced key e' he' := by
    simp only [hstore, Dict.get_set] at he'
    split at he'
    · cases he'
      exact ⟨‹_›, hid, w, hw, hpre, hdone⟩
    · obtain ⟨hkey, hlt, hsteps⟩ := h.traced key e' he'
      exact ⟨hkey, hlt.trans_le huuids, hsteps⟩
  owned := by
    refine hinvoked _ (fun s hs => ⟨e, w, by simp [hstore], hw, s, hs, rfl⟩) fun i hi => ?_
    obtain ⟨e', w', he', hw', hs⟩ := h.owned i hi
    obtain ⟨hkey, -, -⟩ := h.traced _ e' he'
    by_cases hkeys : (i.firmId, i.executionId) = (e.firmId, e.id)
    · refine ⟨e, w', ?_, ?_, hs⟩
      · simp [hstore, hkeys]
      · rw [hkeys] at he' hkey
        rw [(Prod.mk.inj hkey).1, ← hsame e' he']
        exact hw'
    · exact ⟨e', w', by simp [hstore, Dict.get_set_of_ne _ _ hkeys, he'], hw', hs⟩

/-- Steps of the execution's own workflow are run. -/
lemma inv_runFrom (h : Inv service) {engine : ExecutionEngine} {e : WorkflowExecution} {w : Workflow}
    {script : Script}
    (hstore : ∀ e', engine.store.set (e.firmId, e.id) e' =
      service.executionEngine.store.set (e.firmId, e.id) e')
    (hactions : engine.actionEngine = service.executionEngine.actionEngine)
    (huuids : service.executionEngine.uuids ≤ engine.uuids) (hid : e.id < engine.uuids)
    (hsame : ∀ e', service.executionEngine.store.get (e.firmId, e.id) = some e' →
      e'.workflowId = e.workflowId)
    (hw : service.workflowEngine.store.get (e.firmId, e.workflowId) = some w)
    (hpre : PrefixOf (orderedSteps w) e) (hstatus : e.status ≠ .completed) :
    Inv { service with executionEngine := (engine.runFrom interpreter e w script).engine } := by
  obtain ⟨-, telemetry, hengine⟩ := runFrom_spec interpreter engine e w script
  obtain ⟨rs, n, status, reason, hframe⟩ := runFrom_frame interpreter engine e w script
  have hp := (runFrom_prefixOf interpreter engine script hpre).1
  have hdone := runFrom_completed interpreter engine script hpre hstatus
  have hset := runFrom_store interpreter engine e w script
  refine inv_set h (w := w) (e := (engine.runFrom interpreter e w script).execution) ?_
    (hengine ▸ huuids) ?_ ?_ ?_ hp hdone ?_
  · rw [hset, hstore, hframe]
    rfl
  · rw [hengine, hframe]
    exact hid
  · rw [hframe]
    exact hsame
  · rw [hframe]
    exact hw
  · intro P hP hold
    rw [hframe] at hP
    rw [hengine]
    refine runLoop_invoked (fun s hs => hP s ?_) (hactions ▸ hold)
    exact (List.mem_insertionSort _).mp (List.mem_of_mem_drop hs)

lemma inv_start (h : Inv service) {w : Workflow} {context : Context} {script : Script}
    (hw : service.workflowEngine.store.get (w.firmId, w.id) = some w) :
    Inv { service with executionEngine :=
      (service.executionEngine.start interpreter w context script).engine } := by
  -- nothing is stored under the new identifier
  have hnew : ∀ e', service.executionEngine.store.get (w.firmId, service.executionEngine.uuids) =
      some e' → e'.workflowId = w.id := by
    intro e' he'
    obtain ⟨hkey, hlt, -⟩ := h.traced _ e' he'
    exact absurd (congrArg Prod.snd hkey) hlt.ne'
  have hlt : service.executionEngine.uuids < service.executionEngine.uuids + 1 := Nat.lt_succ_self _
  rcases service.executionEngine.start_cases interpreter w context script with
    ⟨-, e, hstart⟩ | ⟨-, telemetry, spanId, execution, rfl, hstart⟩
  · rw [hstart]
    exact inv_set h (w := w) (e := service.executionEngine.newExecution w) rfl hlt.le hlt hnew hw
      (prefixOf_new _) (fun hstatus => by cases hstatus) fun _ _ hold => hold
  · rw [hstart, startChecked]
    split
    · exact inv_set h (w := w)
        (e := { service.executionEngine.newExecution w with telemetrySpanId := spanId }) rfl hlt.le hlt
        hnew hw (prefixOf_new _) (fun hstatus => by cases hstatus) fun _ _ hold => hold
    · refine inv_set h (w := w)
        (e := { service.executionEngine.newExecution w with
          status := .cancelled
          failureReason := some "Workflow-level conditions not satisfied"
          telemetrySpanId := spanId })
        ?_ hlt.le hlt hnew hw (prefixOf_new _) (fun hstatus => by cases hstatus) fun _ _ hold => hold
      simp [save, Dict.set_set, newExecution]
    · exact inv_runFrom h (fun e' => by simp [save, Dict.set_set, newExecution]) rfl hlt.le hlt hnew hw
        (prefixOf_new _) (fun hstatus => by cases hstatus)

/-- **The step lemma**: a call that names the execution's own workflow preserves the invariant. -/
theorem inv_step (h : Inv service) (hown : NamesOwnWorkflow service call) :
    Inv (step interpreter service call) := by
  rcases execution_step_cases interpreter service call with
    ⟨w, context, script, hs, hstep⟩ | ⟨e, w, script, hs, hstep⟩ | ⟨-, -, hstore, huuids, hinvoked⟩
  · rw [hstep]
    obtain ⟨firmId, workflowId, allowed, -, hw, -⟩ := hs
    obtain ⟨hkey, -⟩ := h.keyed _ w hw
    exact inv_start h (hkey ▸ hw)
  · rw [hstep]
    have hid := hown e w script hs
    obtain ⟨firmId, executionId, workflowId, -, he, hw, hres⟩ := hs
    obtain ⟨hkey, hlt, w', hw', hp, -⟩ := h.traced _ e he
    obtain ⟨hkeyw, -⟩ := h.keyed _ w hw
    obtain ⟨rfl, rfl⟩ := Prod.mk.inj hkey
    rw [(Prod.mk.inj hkeyw).2, hid, hw'] at hw
    cases hw
    refine inv_runFrom (e := reopen e) h (fun e' => rfl) rfl le_rfl hlt ?_ hw'
      ⟨hp.index_eq, hp.boundary, hp.orders⟩ nofun
    intro e' he'
    rw [show (reopen e).firmId = e.firmId from rfl, show (reopen e).id = e.id from rfl, he] at he'
    cases he'
    rfl
  · obtain ⟨hkeyed, hkeeps⟩ := workflow_step_keeps interpreter call h.keyed
    exact inv_of_keeps h hkeyed hkeeps hstore huuids hinvoked

end Inv

/-! ### Runs -/

/-- **Resumes run the execution's own workflow**, in every run of calls in which each accepted resume
names it. -/
theorem along_ownSteps (interpreter : Interpreter) (maxAttempts : ℕ) (calls : List Call)
    (hown : Along (step interpreter) NamesOwnWorkflow (Service.fresh maxAttempts) calls) :
    OwnSteps (run (step interpreter) (Service.fresh maxAttempts) calls) :=
  (hown.inv (inv_fresh maxAttempts) fun _ _ h hc => inv_step h hc).ownSteps

/-! ### An execution that fails at its second step, and its resume -/

/-- Two workflows of two steps each, of the first of which an execution fails at its second step. -/
def failedNotice : List Call :=
  [.createWorkflow "firm" "notice" "owner" "" [] [] [noticeStep 1 none, noticeStep 2 none],
    .createWorkflow "firm" "reminder" "owner" "" [] [] [noticeStep 3 none, noticeStep 4 none],
    .elsewhere ["notify"] {} {},
    .startExecution "firm" 0 none ∅ (failingAt (some 1))]

theorem along_ownSteps_notice : OwnSteps (run (step .nat) (Service.fresh 3)
    (failedNotice ++ [.resumeExecution "firm" 0 0 (failingAt none)])) := by
  refine along_ownSteps .nat 3 _ ⟨?_, ?_, ?_, ?_, ?_, trivial⟩
  · rintro _ _ _ ⟨_, _, _, hcall, -⟩; cases hcall
  · rintro _ _ _ ⟨_, _, _, hcall, -⟩; cases hcall
  · rintro _ _ _ ⟨_, _, _, hcall, -⟩; cases hcall
  · rintro _ _ _ ⟨_, _, _, hcall, -⟩; cases hcall
  · rintro e w _ ⟨_, _, _, hcall, he, hw, -⟩
    cases hcall
    have he' : ((run (step .nat) (Service.fresh 3) failedNotice).executionEngine.store.get
        ("firm", 0)).map (·.workflowId) = some 0 := by decide +kernel
    have hw' : ((run (step .nat) (Service.fresh 3) failedNotice).workflowEngine.store.get
        ("firm", 0)).map (·.id) = some 0 := by decide +kernel
    have hwid := (congrArg (Option.map (·.id)) hw).symm.trans hw'
    have heid := (congrArg (Option.map (·.workflowId)) he).symm.trans he'
    exact (Option.some.inj hwid).trans (Option.some.inj heid).symm

/-- Resumed with the other workflow, it completes with a step that is not its own. -/
theorem resume_other_workflow : ¬ OwnSteps (run (step .nat) (Service.fresh 3)
    (failedNotice ++ [.resumeExecution "firm" 0 2 (failingAt none)])) := by
  intro h
  have hresults : ((run (step .nat) (Service.fresh 3) (failedNotice ++
      [.resumeExecution "firm" 0 2 (failingAt none)])).executionEngine.store.get ("firm", 0)).map
        (fun e => (e.firmId, e.workflowId, e.status, e.stepResults.map (·.stepOrder))) =
      some ("firm", 0, .completed, [1, 4]) := by decide +kernel
  have hsteps : ((run (step .nat) (Service.fresh 3) (failedNotice ++
      [.resumeExecution "firm" 0 2 (failingAt none)])).workflowEngine.store.get ("firm", 0)).map
        (fun w => (orderedSteps w).map (·.order)) = some [1, 2] := by decide +kernel
  obtain ⟨e, he, heq⟩ := Option.map_eq_some_iff.mp hresults
  simp only [Prod.mk.injEq] at heq
  obtain ⟨hfirm, hid, hstatus, horders⟩ := heq
  obtain ⟨w, hw, hown⟩ := h.completed e (Dict.mem_values_iff.mpr ⟨_, he⟩) hstatus
  rw [hfirm, hid] at hw
  rw [hw, Option.map_some, Option.some.injEq] at hsteps
  rw [horders, hsteps] at hown
  exact absurd hown (by decide)

end Tmis.WorkflowAutomation
