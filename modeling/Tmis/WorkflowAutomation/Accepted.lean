import Tmis.Lib.Calls
import Tmis.Lib.Run
import Tmis.WorkflowAutomation.Designer

/-!
# The workflows the API accepts

The routes that write workflows, from the payloads they are called with.  The identifiers of triggers and actions
are drawn by the routes.

* `createWorkflow`, `newWorkflowVersion`, `instantiateTemplate` — the routes that write a workflow;
* `Request`, `handle` — every request that changes the registry;
* `Accepted` — the workflows there are after any requests; `Accepted.own`, their triggers have identifiers of
  their own;
* `designer_graph_iff` — the graph of an accepted workflow is well formed iff no two steps have the same order;
  `same_order`, two that have.
-/

namespace Tmis.WorkflowAutomation

open Tmis.Lib

structure TriggerPayload where
  triggerType : String
  config : Dict String String := ∅

structure WorkflowStepPayload where
  order : ℤ
  name : String
  actionType : String
  actionConfig : Dict String String := ∅
  parallelGroup : Option String := none

/-- `TriggerType(value)`. -/
def TriggerType.ofValue (value : String) : Except PyException TriggerType :=
  match [businessEvent, schedule, deadline, documentCreated, caseUpdated, validation, integrationEvent].find?
      fun triggerType => triggerType.value = value with
  | some triggerType => .ok triggerType
  | none => .error (valueError ("'" ++ value ++ "' is not a valid TriggerType"))

structure TemplateTriggerSpec where
  triggerType : TriggerType
  config : Dict String String := ∅

structure TemplateStepSpec where
  order : ℤ
  name : String
  actionType : String
  actionConfig : Dict String String := ∅
  condition : Option Condition := none
  parallelGroup : Option String := none

/-- A reusable blueprint. -/
structure WorkflowTemplate where
  name : String
  description : String := ""
  triggerSpecs : List TemplateTriggerSpec := []
  stepSpecs : List TemplateStepSpec := []

/-- The registry behind the routes, and the templates of the library by their identifiers. -/
structure WorkflowApi where
  engine : WorkflowEngine := {}
  templates : Dict String WorkflowTemplate := ∅

namespace WorkflowApi

/-- Triggers of these types, with identifiers that are drawn from the `uuids`-th one on. -/
def newTriggers (uuids : ℕ) : List (TriggerType × Dict String String) → List Trigger
  | [] => []
  | (triggerType, config) :: rest =>
    { id := uuids, workflowId := "", triggerType, config } :: newTriggers (uuids + 1) rest

/-- The steps of a payload, with actions whose identifiers are drawn from the `uuids`-th one on. -/
def newSteps (uuids : ℕ) : List WorkflowStepPayload → List WorkflowStep
  | [] => []
  | s :: rest =>
    { order := s.order, name := s.name, parallelGroup := s.parallelGroup,
      action := { id := uuids, workflowId := "", actionType := s.actionType, config := s.actionConfig } } ::
        newSteps (uuids + 1) rest

/-- The steps of a template, with what is overridden of the configurations. -/
def stepsOfSpecs (overrides : Dict ℤ (Dict String String)) (uuids : ℕ) : List TemplateStepSpec → List WorkflowStep
  | [] => []
  | spec :: rest =>
    let config := match overrides.get spec.order with
      | some override => spec.actionConfig.update override
      | none => spec.actionConfig
    { order := spec.order, name := spec.name, condition := spec.condition, parallelGroup := spec.parallelGroup,
      action := { id := uuids, workflowId := "", actionType := spec.actionType, config } } ::
        stepsOfSpecs overrides (uuids + 1) rest

/-- So many identifiers have been drawn. -/
def drawn (engine : WorkflowEngine) (count : ℕ) : WorkflowEngine := { engine with uuids := engine.uuids + count }

/-- `create_workflow`. -/
def createWorkflow (api : WorkflowApi) (firmId name owner description : String) (triggers : List TriggerPayload)
    (steps : List WorkflowStepPayload) : Except PyException (Workflow × WorkflowApi) := do
  let types ← triggers.mapM fun t => (TriggerType.ofValue t.triggerType).map fun triggerType => (triggerType, t.config)
  let uuids := api.engine.uuids
  let (workflow, engine) := (drawn api.engine (types.length + steps.length)).create firmId name owner description
    (newTriggers uuids types) [] (newSteps (uuids + types.length) steps)
  return (workflow, { api with engine })

/-- `new_workflow_version`: the route names a version, and the engine works on its key. -/
def newWorkflowVersion (api : WorkflowApi) (firmId : String) (workflowId : Uuid) (owner : String)
    (description : Option String) (steps : Option (List WorkflowStepPayload)) :
    Except PyException (Workflow × WorkflowApi) := do
  let current ← api.engine.get firmId workflowId
  let uuids := api.engine.uuids
  let (workflow, engine) ← (drawn api.engine (steps.elim 0 List.length)).newVersion firmId current.workflowKey owner
    description none none (steps.map (newSteps uuids))
  return (workflow, { api with engine })

/-- `TemplateLibrary.instantiate`: what is drawn before the workflow has an identifier is told it afterwards. -/
def instantiateTemplate (api : WorkflowApi) (templateId firmId owner : String)
    (overrides : Dict ℤ (Dict String String)) : Except PyException (Workflow × WorkflowApi) :=
  match api.templates.get templateId with
  | none => .error (keyError templateId)
  | some template =>
    let uuids := api.engine.uuids
    let triggers := newTriggers uuids (template.triggerSpecs.map fun spec => (spec.triggerType, spec.config))
    let steps := stepsOfSpecs overrides (uuids + triggers.length) template.stepSpecs
    let (workflow, engine) := (drawn api.engine (triggers.length + steps.length)).create firmId template.name owner
      template.description triggers [] steps
    let workflowId := "wf-" ++ toString workflow.id
    let workflow := { workflow with
      triggers := workflow.triggers.map fun t => { t with workflowId }
      steps := workflow.steps.map fun s => { s with action := { s.action with workflowId } } }
    .ok (workflow, { api with engine := engine.add workflow })

/-- A request that changes the registry; a cabinet registers templates of its own. -/
inductive Request where
  | createWorkflow (firmId name owner description : String) (triggers : List TriggerPayload)
      (steps : List WorkflowStepPayload)
  | newWorkflowVersion (firmId : String) (workflowId : Uuid) (owner : String) (description : Option String)
      (steps : Option (List WorkflowStepPayload))
  | activateWorkflow (firmId : String) (workflowId : Uuid)
  | archiveWorkflow (firmId : String) (workflowId : Uuid)
  | instantiateTemplate (templateId firmId owner : String) (overrides : Dict ℤ (Dict String String))
  | registerTemplate (templateId : String) (template : WorkflowTemplate)

/-- The registry after a request; one that raises leaves it as it is. -/
def handle (api : WorkflowApi) : Request → WorkflowApi
  | .createWorkflow firmId name owner description triggers steps =>
    afterCall api ((api.createWorkflow firmId name owner description triggers steps).map Prod.snd)
  | .newWorkflowVersion firmId workflowId owner description steps =>
    afterCall api ((api.newWorkflowVersion firmId workflowId owner description steps).map Prod.snd)
  | .activateWorkflow firmId workflowId =>
    afterCall api ((api.engine.activate firmId workflowId).map fun r => { api with engine := r.2 })
  | .archiveWorkflow firmId workflowId =>
    afterCall api ((api.engine.archive firmId workflowId).map fun r => { api with engine := r.2 })
  | .instantiateTemplate templateId firmId owner overrides =>
    afterCall api ((api.instantiateTemplate templateId firmId owner overrides).map Prod.snd)
  | .registerTemplate templateId template => { api with templates := api.templates.set templateId template }

/-- The workflow is there after some requests. -/
def Accepted (workflow : Workflow) : Prop :=
  ∃ requests key, (run handle {} requests).engine.store.get key = some workflow

/-! ### The triggers -/

/-- The triggers of a workflow have identifiers of their own. -/
def OwnTriggers (workflow : Workflow) : Prop := (workflow.triggers.map (·.id)).Nodup

/-- So it is with every workflow that is stored. -/
def AllOwn (engine : WorkflowEngine) : Prop := ∀ key w, engine.store.get key = some w → OwnTriggers w

section Triggers

variable {engine : WorkflowEngine} {api : WorkflowApi} {w : Workflow}

lemma map_id_newTriggers : ∀ (uuids : ℕ) (types : List (TriggerType × Dict String String)),
    (newTriggers uuids types).map (·.id) = List.range' uuids types.length
  | _, [] => rfl
  | uuids, (_, _) :: rest => by
      rw [newTriggers, List.map_cons, map_id_newTriggers, List.length_cons, List.range'_succ]

lemma nodup_newTriggers (uuids : ℕ) (types : List (TriggerType × Dict String String)) :
    ((newTriggers uuids types).map (·.id)).Nodup := by
  rw [map_id_newTriggers]
  exact List.nodup_range'

lemma AllOwn.add (h : AllOwn engine) (hw : OwnTriggers w) : AllOwn (engine.add w) := by
  intro key v hv
  simp only [WorkflowEngine.add, Dict.get_set] at hv
  split at hv
  · cases hv
    exact hw
  · exact h key v hv

/-- Drawing identifiers writes nothing. -/
lemma AllOwn.drawn (h : AllOwn engine) (count : ℕ) : AllOwn (drawn engine count) := h

lemma AllOwn.create (h : AllOwn engine) {triggers : List Trigger} (htriggers : (triggers.map (·.id)).Nodup)
    (firmId name owner description : String) (conditions : List Condition) (steps : List WorkflowStep) :
    AllOwn (engine.create firmId name owner description triggers conditions steps).2 := by
  have hdrawn : AllOwn { engine with uuids := engine.uuids + 2 } := h
  exact hdrawn.add htriggers

/-- A version takes over the triggers of the one before. -/
lemma AllOwn.newVersion (h : AllOwn engine) {firmId owner : String} {workflowKey : Uuid}
    {description : Option String} {steps : Option (List WorkflowStep)} {r : Workflow × WorkflowEngine}
    (hok : engine.newVersion firmId workflowKey owner description none none steps = .ok r) : AllOwn r.2 := by
  unfold WorkflowEngine.newVersion at hok
  cases hlatest : (engine.listVersions firmId workflowKey).getLast? with
  | none =>
    rw [hlatest] at hok
    cases hok
  | some latest =>
    rw [hlatest] at hok
    cases hok
    obtain ⟨key, hstored⟩ := WorkflowEngine.stored_of_mem_listVersions (List.mem_of_getLast? hlatest)
    have hdrawn : AllOwn { engine with uuids := engine.uuids + 1 } := h
    exact hdrawn.add (h key latest hstored)

lemma AllOwn.archive (h : AllOwn engine) {firmId : String} {workflowId : Uuid} {r : Workflow × WorkflowEngine}
    (hok : engine.archive firmId workflowId = .ok r) : AllOwn r.2 := by
  obtain ⟨w, hget, hrest⟩ := bind_eq_ok.mp hok
  obtain rfl := pure_eq_ok.mp hrest
  exact h.add (h _ w (WorkflowEngine.get_ok_iff.mp hget))

lemma AllOwn.activate (h : AllOwn engine) {firmId : String} {workflowId : Uuid} {r : Workflow × WorkflowEngine}
    (hok : engine.activate firmId workflowId = .ok r) : AllOwn r.2 := by
  obtain ⟨w, hget, hrest⟩ := bind_eq_ok.mp hok
  obtain rfl := pure_eq_ok.mp hrest
  refine AllOwn.add ?_ (h _ w (WorkflowEngine.get_ok_iff.mp hget))
  cases hactive : engine.getActive firmId w.workflowKey with
  | none => exact h
  | some previousActive =>
    obtain ⟨key, hstored⟩ := WorkflowEngine.getActive_stored hactive
    dsimp only
    split_ifs
    · exact h.add (h key previousActive hstored)
    · exact h

/-- **The step lemma.** -/
lemma AllOwn.handle (h : AllOwn api.engine) (request : Request) : AllOwn (api.handle request).engine := by
  cases request with
  | registerTemplate templateId template => exact h
  | createWorkflow firmId name owner description triggers steps =>
    refine (afterCall_map_iff (P := fun api : WorkflowApi => AllOwn api.engine) h).mpr ?_
    rintro r hok
    obtain ⟨types, -, hrest⟩ := bind_eq_ok.mp hok
    obtain rfl := pure_eq_ok.mp hrest
    exact (h.drawn _).create (nodup_newTriggers _ _) _ _ _ _ _ _
  | newWorkflowVersion firmId workflowId owner description steps =>
    refine (afterCall_map_iff (P := fun api : WorkflowApi => AllOwn api.engine) h).mpr ?_
    rintro r hok
    obtain ⟨current, -, hrest⟩ := bind_eq_ok.mp hok
    obtain ⟨⟨w, engine⟩, hversion, hrest⟩ := bind_eq_ok.mp hrest
    obtain rfl := pure_eq_ok.mp hrest
    exact (h.drawn _).newVersion hversion
  | activateWorkflow firmId workflowId =>
    exact (afterCall_map_iff (P := fun api : WorkflowApi => AllOwn api.engine) h).mpr fun r hok => h.activate hok
  | archiveWorkflow firmId workflowId =>
    exact (afterCall_map_iff (P := fun api : WorkflowApi => AllOwn api.engine) h).mpr fun r hok => h.archive hok
  | instantiateTemplate templateId firmId owner overrides =>
    refine (afterCall_map_iff (P := fun api : WorkflowApi => AllOwn api.engine) h).mpr ?_
    intro r hok
    unfold instantiateTemplate at hok
    cases htemplate : api.templates.get templateId with
    | none =>
      rw [htemplate] at hok
      cases hok
    | some template =>
      rw [htemplate] at hok
      cases hok
      refine AllOwn.add ((h.drawn _).create (nodup_newTriggers _ _) _ _ _ _ _ _) ?_
      unfold OwnTriggers
      rw [List.map_map]
      exact nodup_newTriggers _ _

/-- **The triggers of an accepted workflow have identifiers of their own.** -/
theorem Accepted.own (h : Accepted w) : OwnTriggers w := by
  obtain ⟨requests, key, hstored⟩ := h
  have hown : AllOwn (run WorkflowApi.handle {} requests).engine :=
    run_inv (I := fun api : WorkflowApi => AllOwn api.engine) requests (fun _ _ h => by cases h)
      fun _ request h => h.handle request
  exact hown key w hstored

end Triggers

end WorkflowApi

open WorkflowApi

/-- **The designer's graph of an accepted workflow** is well formed iff no two steps have the same order. -/
theorem designer_graph_iff {workflow : Workflow} (h : Accepted workflow) :
    WellFormed workflow (workflowToGraph workflow) ↔ (workflow.steps.map (·.order)).Nodup :=
  wellFormed_iff h.own

/-- A workflow of two steps, with a trigger. -/
def twoSteps (first second : ℤ) : List Request :=
  [.createWorkflow "f" "w" "a" "" [{ triggerType := "deadline" }]
    [{ order := first, name := "s", actionType := "notify" }, { order := second, name := "t", actionType := "notify" }]]

/-- What is accepted of it. -/
def twoStepWorkflow (first second : ℤ) : Workflow where
  id := 3
  workflowKey := 4
  firmId := "f"
  name := "w"
  version := 1
  owner := "a"
  triggers := [{ id := 0, workflowId := "", triggerType := .deadline }]
  steps := [{ order := first, name := "s", action := { id := 1, actionType := "notify" } },
    { order := second, name := "t", action := { id := 2, actionType := "notify" } }]

lemma accepted_twoSteps (first second : ℤ) : Accepted (twoStepWorkflow first second) :=
  ⟨twoSteps first second, ("f", 3), rfl⟩

theorem designer_graph_iff_two_steps :
    WellFormed (twoStepWorkflow 0 1) (workflowToGraph (twoStepWorkflow 0 1)) :=
  (designer_graph_iff (accepted_twoSteps 0 1)).mpr (by decide)

/-- Two steps of the same order have one node identifier, and the edge between them leads back. -/
theorem same_order : Accepted (twoStepWorkflow 0 0) ∧
    ¬ WellFormed (twoStepWorkflow 0 0) (workflowToGraph (twoStepWorkflow 0 0)) := by
  refine ⟨accepted_twoSteps 0 0, fun h => ?_⟩
  have hloop : Leads (workflowToGraph (twoStepWorkflow 0 0)).edges "step-0" "step-0" :=
    ⟨_, List.mem_append_right _ (List.mem_singleton.mpr rfl), rfl, rfl⟩
  exact h.acyclic _ (.single hloop)

end Tmis.WorkflowAutomation
