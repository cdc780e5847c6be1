import Mathlib.Data.List.Nodup
import Tmis.Lib.Acyclic
import Tmis.Lib.PyText
import Tmis.WorkflowAutomation.WorkflowEngine

/-!
# The workflow designer

`workflow_to_graph` renders a workflow as trigger nodes feeding into an ordered chain of action nodes, each with
a condition node before it if it has a condition.

* `WorkflowGraph`, `workflowToGraph` — the graph of a workflow, drawn step by step;
* `WellFormed` — what such a graph is to be;
* `Drawing`, `drawing_step` — what holds while it is drawn;
* `wellFormed_iff` — it is well formed iff no two steps have the same order.
-/

namespace Tmis.WorkflowAutomation

open Tmis.Lib Relation

inductive DesignerNodeKind where
  | trigger | condition | action | validation | branch
  deriving DecidableEq

structure DesignerNode where
  id : String
  kind : DesignerNodeKind
  label : String
  config : Dict String String := ∅

structure DesignerEdge where
  fromNodeId : String
  toNodeId : String
  label : String := ""

structure WorkflowGraph where
  workflowId : Uuid
  nodes : List DesignerNode := []
  edges : List DesignerEdge := []

/-- The value of a trigger type. -/
def TriggerType.value : TriggerType → String
  | .businessEvent => "business_event"
  | .schedule => "schedule"
  | .deadline => "deadline"
  | .documentCreated => "document_created"
  | .caseUpdated => "case_updated"
  | .validation => "validation"
  | .integrationEvent => "integration_event"

/-- The identifier of a trigger, as `new_trigger_id` writes it. -/
def Trigger.idText (trigger : Trigger) : String := "trigger-" ++ toString trigger.id

def triggerNodeId (trigger : Trigger) : String := "trigger-" ++ trigger.idText

def stepNodeId (step : WorkflowStep) : String := "step-" ++ toString step.order

def conditionNodeId (step : WorkflowStep) : String := "condition-" ++ toString step.order

def triggerNode (trigger : Trigger) : DesignerNode :=
  { id := triggerNodeId trigger, kind := .trigger, label := trigger.triggerType.value, config := trigger.config }

def conditionNode (step : WorkflowStep) : DesignerNode :=
  { id := conditionNodeId step, kind := .condition, label := "condition(" ++ step.name ++ ")" }

def actionNode (step : WorkflowStep) : DesignerNode :=
  { id := stepNodeId step, kind := .action, label := step.name, config := step.action.config }

/-- What is drawn of a graph, and the node of the last step of it. -/
structure Drawn where
  nodes : List DesignerNode
  edges : List DesignerEdge := []
  previousNodeId : Option String := none

/-- One round of the loop over the steps. -/
def drawStep (triggerNodeIds : List String) (drawn : Drawn) (step : WorkflowStep) : Drawn :=
  let (nodes, edges, gateNodeId) : List DesignerNode × List DesignerEdge × String := match step.condition with
    | some _ => (drawn.nodes ++ [conditionNode step],
        drawn.edges ++ [⟨conditionNodeId step, stepNodeId step, ""⟩],
        conditionNodeId step)
    | none => (drawn.nodes, drawn.edges, stepNodeId step)
  { nodes := nodes ++ [actionNode step]
    edges := edges ++ (match drawn.previousNodeId with
      | some previousNodeId => [⟨previousNodeId, gateNodeId, ""⟩]
      | none => triggerNodeIds.map fun triggerNodeId => ⟨triggerNodeId, gateNodeId, ""⟩ : List DesignerEdge)
    previousNodeId := some (stepNodeId step) }

def workflowToGraph (workflow : Workflow) : WorkflowGraph :=
  let drawn := (orderedSteps workflow).foldl (drawStep (workflow.triggers.map triggerNodeId))
    { nodes := workflow.triggers.map triggerNode }
  { workflowId := workflow.id, nodes := drawn.nodes, edges := drawn.edges }

/-! ### Well-formed graphs -/

/-- An edge leads from one node to the other. -/
def Leads (edges : List DesignerEdge) (a b : String) : Prop := ∃ edge ∈ edges, edge.fromNodeId = a ∧ edge.toNodeId = b

/-- Nodes have identifiers of their own, there is one action node for each step, edges join nodes and do not
lead back, and each step is reached from each trigger. -/
structure WellFormed (workflow : Workflow) (graph : WorkflowGraph) : Prop where
  distinct : (graph.nodes.map (·.id)).Nodup
  one_per_step : (graph.nodes.filter (·.kind = .action)).Perm (workflow.steps.map actionNode)
  joined : ∀ edge ∈ graph.edges,
    edge.fromNodeId ∈ graph.nodes.map (·.id) ∧ edge.toNodeId ∈ graph.nodes.map (·.id)
  acyclic : Acyclic (Leads graph.edges)
  reached : ∀ trigger ∈ workflow.triggers, ∀ step ∈ workflow.steps,
    ReflTransGen (Leads graph.edges) (triggerNodeId trigger) (stepNodeId step)

/-! ### Drawing -/

/-- The identifiers of the nodes that are drawn for a step. -/
def nodeIdsOf (step : WorkflowStep) : List String :=
  match step.condition with
  | some _ => [conditionNodeId step, stepNodeId step]
  | none => [stepNodeId step]

/-- What is drawn after these steps. -/
structure Drawing (triggers : List Trigger) (steps : List WorkflowStep) (drawn : Drawn) : Prop where
  ids : drawn.nodes.map (·.id) = triggers.map triggerNodeId ++ steps.flatMap nodeIdsOf
  actions : drawn.nodes.filter (·.kind = .action) = steps.map actionNode
  previous : drawn.previousNodeId = steps.getLast?.map stepNodeId
  forward : Forward (drawn.nodes.map (·.id)) (Leads drawn.edges)
  reached : ∀ trigger ∈ triggers, ∀ step ∈ steps,
    ReflTransGen (Leads drawn.edges) (triggerNodeId trigger) (stepNodeId step)

section Drawing

variable {triggers : List Trigger} {steps : List WorkflowStep} {drawn : Drawn}

lemma leads_append {edges edges' : List DesignerEdge} {a b : String} :
    Leads (edges ++ edges') a b ↔ Leads edges a b ∨ Leads edges' a b := by
  unfold Leads
  simp only [List.mem_append, or_and_right, exists_or]

/-- Nothing leads anywhere yet. -/
lemma drawing_nil : Drawing triggers [] { nodes := triggers.map triggerNode } where
  ids := by
    rw [List.map_map, List.flatMap_nil, List.append_nil]
    rfl
  actions := by
    rw [List.map_nil, List.filter_eq_nil_iff]
    intro node hnode
    obtain ⟨trigger, -, rfl⟩ := List.mem_map.mp hnode
    simp [triggerNode]
  previous := rfl
  forward := by
    rintro a b ⟨edge, hedge, -⟩
    cases hedge
  reached := by simp

/-- What leads to the first node of a step: the step before, or each of the triggers. -/
def sources (triggerNodeIds : List String) (drawn : Drawn) : List String :=
  drawn.previousNodeId.elim triggerNodeIds fun previousNodeId => [previousNodeId]

/-- The first node that is drawn for a step. -/
def gateNodeId (step : WorkflowStep) : String :=
  match step.condition with
  | some _ => conditionNodeId step
  | none => stepNodeId step

lemma leads_sources (triggerNodeIds : List String) (drawn : Drawn) (gate a b : String) :
    Leads (match drawn.previousNodeId with
      | some previousNodeId => [⟨previousNodeId, gate, ""⟩]
      | none => triggerNodeIds.map fun triggerNodeId => ⟨triggerNodeId, gate, ""⟩) a b ↔
      a ∈ sources triggerNodeIds drawn ∧ b = gate := by
  unfold Leads sources
  cases drawn.previousNodeId with
  | none => simp [eq_comm]
  | some previousNodeId => simp [eq_comm]

/-- What the edges of a round lead to. -/
lemma leads_drawStep (triggerNodeIds : List String) (drawn : Drawn) (step : WorkflowStep) (a b : String) :
    Leads (drawStep triggerNodeIds drawn step).edges a b ↔ Leads drawn.edges a b ∨
      (step.condition.isSome ∧ a = conditionNodeId step ∧ b = stepNodeId step) ∨
      (a ∈ sources triggerNodeIds drawn ∧ b = gateNodeId step) := by
  unfold drawStep gateNodeId
  cases step.condition with
  | none =>
    simp only [leads_append, leads_sources]
    simp
  | some condition =>
    simp only [leads_append, leads_sources, or_assoc]
    simp [Leads, eq_comm]

lemma ids_drawStep (triggerNodeIds : List String) (drawn : Drawn) (step : WorkflowStep) :
    (drawStep triggerNodeIds drawn step).nodes.map (·.id) = drawn.nodes.map (·.id) ++ nodeIdsOf step := by
  unfold drawStep nodeIdsOf
  cases step.condition with
  | none => simp [actionNode]
  | some condition => simp [actionNode, conditionNode]

lemma actions_drawStep (triggerNodeIds : List String) (drawn : Drawn) (step : WorkflowStep) :
    (drawStep triggerNodeIds drawn step).nodes.filter (·.kind = .action) =
      drawn.nodes.filter (·.kind = .action) ++ [actionNode step] := by
  unfold drawStep
  cases step.condition with
  | none => simp [actionNode]
  | some condition => simp [actionNode, conditionNode]

lemma gateNodeId_mem (step : WorkflowStep) : gateNodeId step ∈ nodeIdsOf step := by
  unfold gateNodeId nodeIdsOf
  cases step.condition <;> simp

lemma stepNodeId_mem (step : WorkflowStep) : stepNodeId step ∈ nodeIdsOf step := by
  unfold nodeIdsOf
  cases step.condition <;> simp

/-- What leads to a step has been drawn. -/
lemma Drawing.mem_of_sources (h : Drawing triggers steps drawn) {id : String}
    (hid : id ∈ sources (triggers.map triggerNodeId) drawn) : id ∈ drawn.nodes.map (·.id) := by
  rw [h.ids]
  unfold sources at hid
  rw [h.previous] at hid
  cases hlast : steps.getLast? with
  | none =>
    rw [hlast] at hid
    exact List.mem_append_left _ hid
  | some step =>
    rw [hlast] at hid
    obtain rfl := List.mem_singleton.mp hid
    refine List.mem_append_right _ (List.mem_flatMap.mpr ⟨step, List.mem_of_getLast? hlast, stepNodeId_mem step⟩)

/-- Each trigger reaches something that leads to the next step. -/
lemma Drawing.reaches_source (h : Drawing triggers steps drawn) {trigger : Trigger} (htrigger : trigger ∈ triggers) :
    ∃ id ∈ sources (triggers.map triggerNodeId) drawn,
      ReflTransGen (Leads drawn.edges) (triggerNodeId trigger) id := by
  unfold sources
  rw [h.previous]
  cases hlast : steps.getLast? with
  | none => exact ⟨_, List.mem_map_of_mem htrigger, .refl⟩
  | some step =>
    exact ⟨_, List.mem_singleton.mpr rfl, h.reached trigger htrigger step (List.mem_of_getLast? hlast)⟩

/-- **The step lemma.** -/
lemma drawing_step (h : Drawing triggers steps drawn) (step : WorkflowStep) :
    Drawing triggers (steps ++ [step]) (drawStep (triggers.map triggerNodeId) drawn step) where
  ids := by
    rw [ids_drawStep, h.ids, List.flatMap_append, List.append_assoc, List.flatMap_singleton]
  actions := by
    rw [actions_drawStep, h.actions, List.map_append, List.map_singleton]
  previous := by
    rw [List.getLast?_concat]
    rfl
  forward := by
    intro a b hab
    rw [ids_drawStep]
    rcases (leads_drawStep _ _ _ _ _).mp hab with hold | ⟨hsome, rfl, rfl⟩ | ⟨ha, rfl⟩
    · exact (h.forward a b hold).trans (List.sublist_append_left _ _)
    · refine List.Sublist.trans ?_ (List.sublist_append_right _ _)
      obtain ⟨condition, hcondition⟩ := Option.isSome_iff_exists.mp hsome
      simp only [nodeIdsOf, hcondition, List.Sublist.refl]
    · exact pair_sublist_iff.mpr ⟨_, _, rfl, h.mem_of_sources ha, gateNodeId_mem step⟩
  reached := by
    intro trigger htrigger s hs
    have hkept : ∀ a b, Leads drawn.edges a b →
        Leads (drawStep (triggers.map triggerNodeId) drawn step).edges a b :=
      fun a b hab => (leads_drawStep _ _ _ _ _).mpr (Or.inl hab)
    rcases List.mem_append.mp hs with hs | hs
    · exact ReflTransGen.mono hkept _ _ (h.reached trigger htrigger s hs)
    · obtain rfl := List.mem_singleton.mp hs
      obtain ⟨id, hid, hreach⟩ := h.reaches_source htrigger
      have hgate := (ReflTransGen.mono hkept _ _ hreach).tail
        ((leads_drawStep _ _ s _ _).mpr (Or.inr (Or.inr ⟨hid, rfl⟩)))
      cases hcondition : s.condition with
      | none => simpa only [gateNodeId, hcondition] using hgate
      | some condition =>
        simp only [gateNodeId, hcondition] at hgate
        refine hgate.tail ((leads_drawStep _ _ s _ _).mpr (Or.inr (Or.inl ⟨?_, rfl, rfl⟩)))
        rw [hcondition]
        rfl

/-- **The run lemma.** -/
lemma drawing_foldl (triggers : List Trigger) (steps : List WorkflowStep) :
    Drawing triggers steps
      (steps.foldl (drawStep (triggers.map triggerNodeId)) { nodes := triggers.map triggerNode }) := by
  induction steps using List.reverseRecOn with
  | nil => exact drawing_nil
  | append_singleton steps step ih =>
    rw [List.foldl_concat]
    exact drawing_step ih step

end Drawing

/-! ### Distinct nodes -/

lemma stepNodeId_inj {s t : WorkflowStep} (h : stepNodeId s = stepNodeId t) : s.order = t.order :=
  toString_int_inj ((String.append_right_inj _).mp h)

lemma conditionNodeId_inj {s t : WorkflowStep} (h : conditionNodeId s = conditionNodeId t) : s.order = t.order :=
  toString_int_inj ((String.append_right_inj _).mp h)

lemma triggerNodeId_inj {t u : Trigger} (h : triggerNodeId t = triggerNodeId u) : t.id = u.id :=
  toString_nat_inj ((String.append_right_inj _).mp ((String.append_right_inj _).mp h))

lemma mem_nodeIdsOf {step : WorkflowStep} {id : String} (h : id ∈ nodeIdsOf step) :
    id = stepNodeId step ∨ id = conditionNodeId step := by
  unfold nodeIdsOf at h
  cases hcondition : step.condition with
  | none => exact Or.inl (by simpa [hcondition] using h)
  | some condition => exact (by simpa [hcondition] using h : id = _ ∨ id = _).symm

/-- The text before the number tells the kinds of nodes apart. -/
lemma stepNodeId_ne_conditionNodeId (s t : WorkflowStep) : stepNodeId s ≠ conditionNodeId t := by
  intro h
  have hhead := congrArg (fun text => text.toList.head?) h
  simp [stepNodeId, conditionNodeId] at hhead

lemma triggerNodeId_notMem (trigger : Trigger) (step : WorkflowStep) : triggerNodeId trigger ∉ nodeIdsOf step := by
  intro h
  have hhead : (triggerNodeId trigger).toList.head? = some 't' := by simp [triggerNodeId]
  rcases mem_nodeIdsOf h with hid | hid
  · simp [hid, stepNodeId] at hhead
  · simp [hid, conditionNodeId] at hhead

lemma nodup_nodeIdsOf (step : WorkflowStep) : (nodeIdsOf step).Nodup := by
  unfold nodeIdsOf
  cases step.condition with
  | none => exact List.nodup_singleton _
  | some condition => simp [(stepNodeId_ne_conditionNodeId step step).symm]

/-- Steps have nodes in common iff they have the same order. -/
lemma disjoint_nodeIdsOf_iff (s t : WorkflowStep) :
    List.Disjoint (nodeIdsOf s) (nodeIdsOf t) ↔ s.order ≠ t.order := by
  constructor
  · intro h horder
    have hsame : stepNodeId s = stepNodeId t := by rw [stepNodeId, stepNodeId, horder]
    exact h (stepNodeId_mem s) (hsame ▸ stepNodeId_mem t)
  · intro horder id hs ht
    rcases mem_nodeIdsOf hs with rfl | rfl <;> rcases mem_nodeIdsOf ht with heq | heq
    · exact horder (stepNodeId_inj heq)
    · exact stepNodeId_ne_conditionNodeId s t heq
    · exact stepNodeId_ne_conditionNodeId t s heq.symm
    · exact horder (conditionNodeId_inj heq)

lemma nodup_nodeIds_iff {triggers : List Trigger} (h : (triggers.map (·.id)).Nodup) (steps : List WorkflowStep) :
    (triggers.map triggerNodeId ++ steps.flatMap nodeIdsOf).Nodup ↔ (steps.map (·.order)).Nodup := by
  have htriggers : (triggers.map triggerNodeId).Nodup :=
    List.pairwise_map.mpr ((List.pairwise_map.mp h).imp fun hne heq => hne (triggerNodeId_inj heq))
  have hapart : (triggers.map triggerNodeId).Disjoint (steps.flatMap nodeIdsOf) := by
    intro id htrigger hstep
    obtain ⟨trigger, -, rfl⟩ := List.mem_map.mp htrigger
    obtain ⟨step, -, hmem⟩ := List.mem_flatMap.mp hstep
    exact triggerNodeId_notMem trigger step hmem
  rw [List.nodup_append', List.nodup_flatMap]
  simp only [htriggers, hapart, nodup_nodeIdsOf, implies_true, true_and, and_true]
  unfold Function.onFun
  simp only [disjoint_nodeIdsOf_iff]
  exact List.pairwise_map.symm

/-- **The graph of a workflow is well formed** iff no two of its steps have the same order. -/
theorem wellFormed_iff {workflow : Workflow} (h : (workflow.triggers.map (·.id)).Nodup) :
    WellFormed workflow (workflowToGraph workflow) ↔ (workflow.steps.map (·.order)).Nodup := by
  have hperm : (orderedSteps workflow).Perm workflow.steps := List.perm_insertionSort _ _
  have hdrawing := drawing_foldl workflow.triggers (orderedSteps workflow)
  have hdistinct : ((workflowToGraph workflow).nodes.map (·.id)).Nodup ↔ (workflow.steps.map (·.order)).Nodup := by
    rw [← (hperm.map _).nodup_iff, ← nodup_nodeIds_iff h, ← hdrawing.ids]
    exact Iff.rfl
  refine ⟨fun hformed => hdistinct.mp hformed.distinct, fun horders => ?_⟩
  have hnodup := hdistinct.mpr horders
  have hactions : (workflowToGraph workflow).nodes.filter (·.kind = .action) =
      (orderedSteps workflow).map actionNode := hdrawing.actions
  exact
    { distinct := hnodup
      one_per_step := by
        rw [hactions]
        exact hperm.map _
      joined := by
        intro edge hedge
        have hpair := hdrawing.forward _ _ ⟨edge, hedge, rfl, rfl⟩
        exact ⟨hpair.subset (by simp), hpair.subset (by simp)⟩
      acyclic := acyclic_of_forward hnodup hdrawing.forward
      reached := fun trigger htrigger step hstep =>
        hdrawing.reached trigger htrigger step (hperm.mem_iff.mpr hstep) }

end Tmis.WorkflowAutomation
