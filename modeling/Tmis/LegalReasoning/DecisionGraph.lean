import Tmis.LegalReasoning.Reasoning
import Tmis.Lib.Acyclic

/-!
# The decision graph

`legal_reasoning.decision_graph`: what a reasoning run has made, as nodes and edges.  The ends of the edges are put
together again from the identifiers that the engines put into what they make.

* `build` — the graph;
* `Linked` — what is made names what is there; `linked_engines`, the engines keep to it;
* `WellFormed`, `wellFormed_of_linked` — then the edges lead from the question on, and never back;
* `decision_graph_well_formed` — the graph of a run.
-/

namespace Tmis.LegalReasoning

open Tmis.Lib Tmis.CaseIntelligence Tmis.LegalResearch Relation

inductive DecisionNodeType where
  | question | hypothesis | argument | counterArgument | evidence | reference | synthesis
  deriving DecidableEq

structure DecisionNode where
  id : String
  type : DecisionNodeType
  label : String

structure DecisionEdge where
  sourceId : String
  targetId : String
  relation : String

structure DecisionGraph where
  nodes : List DecisionNode
  edges : List DecisionEdge

namespace DecisionGraph

def questionNodeId : String := "question"

def synthesisNodeId : String := "synthesis"

section Build

variable {F : Type} (idText : IdText) (fixed2 : F → String)

def hypothesisNodeId (id : Uuid) : String := "hypothesis:" ++ idText id

def argumentNodeId (id : Uuid) : String := "argument:" ++ idText id

def counterNodeId (id : Uuid) : String := "counter_argument:" ++ idText id

def evidenceNodeId (id : Uuid) : String := "evidence:" ++ idText id

def referenceNodeId (index : ℕ) : String := "reference:" ++ toString index

/-- The evidence that is linked to a hypothesis, with this hypothesis. -/
def grounded (evidenceLinks : List (ReasoningEvidenceLink F)) : List (ReasoningEvidenceLink F × Uuid) :=
  evidenceLinks.filterMap fun link => link.hypothesisId.map fun id => (link, id)

/-- `ChainDecisionGraphBuilder.build`; `fixed2` is the format `.2f`. -/
def build (question : String) (hypotheses : List (Hypothesis F)) (arguments : List (Argument F))
    (counterArguments : List (CounterArgument F)) (evidenceLinks : List (ReasoningEvidenceLink F))
    (references : List String) (synthesis : String) : DecisionGraph where
  nodes :=
    [⟨questionNodeId, .question, question⟩] ++
    hypotheses.map (fun h => ⟨hypothesisNodeId idText h.id, .hypothesis, h.description⟩) ++
    arguments.map (fun a => ⟨argumentNodeId idText a.id, .argument, a.claim⟩) ++
    counterArguments.map (fun c => ⟨counterNodeId idText c.id, .counterArgument, c.claim⟩) ++
    (grounded evidenceLinks).map (fun e =>
      ⟨evidenceNodeId idText e.1.id, .evidence, "Preuve (fiabilité " ++ fixed2 e.1.reliabilityScore ++ ")"⟩) ++
    references.zipIdx.map (fun r => ⟨referenceNodeId r.2, .reference, r.1⟩) ++
    [⟨synthesisNodeId, .synthesis, synthesis⟩]
  edges :=
    hypotheses.map (fun h => ⟨questionNodeId, hypothesisNodeId idText h.id, "considers"⟩) ++
    arguments.map (fun a => ⟨hypothesisNodeId idText a.hypothesisId, argumentNodeId idText a.id, "supported_by"⟩) ++
    counterArguments.map (fun c => ⟨argumentNodeId idText c.argumentId, counterNodeId idText c.id, "challenged_by"⟩) ++
    (grounded evidenceLinks).map (fun e => ⟨hypothesisNodeId idText e.2, evidenceNodeId idText e.1.id, "grounded_by"⟩) ++
    references.zipIdx.map (fun r => ⟨questionNodeId, referenceNodeId r.2, "cites"⟩) ++
    hypotheses.map (fun h => ⟨hypothesisNodeId idText h.id, synthesisNodeId, "feeds_into"⟩)

end Build

/-! ### Well-formed graphs -/

def ids (graph : DecisionGraph) : List String := graph.nodes.map DecisionNode.id

/-- An edge leads from one node to another. -/
def Leads (graph : DecisionGraph) (a b : String) : Prop := ∃ edge ∈ graph.edges, edge.sourceId = a ∧ edge.targetId = b

structure WellFormed (graph : DecisionGraph) : Prop where
  nodup : graph.ids.Nodup
  ends : ∀ edge ∈ graph.edges, edge.sourceId ∈ graph.ids ∧ edge.targetId ∈ graph.ids
  acyclic : Acyclic graph.Leads
  reachable : ∀ id ∈ graph.ids, ReflTransGen graph.Leads questionNodeId id

section WellFormed

variable {F : Type} {idText : IdText} {fixed2 : F → String} {hypotheses : List (Hypothesis F)}
  {arguments : List (Argument F)} {counterArguments : List (CounterArgument F)}
  {evidenceLinks : List (ReasoningEvidenceLink F)}

/-- What the engines have made has identifiers of its own and names what is there. -/
structure Linked (hypotheses : List (Hypothesis F)) (arguments : List (Argument F))
    (counterArguments : List (CounterArgument F)) (evidenceLinks : List (ReasoningEvidenceLink F)) : Prop where
  hypotheses_ne_nil : hypotheses ≠ []
  hypotheses_nodup : (hypotheses.map (·.id)).Nodup
  arguments_nodup : (arguments.map (·.id)).Nodup
  counters_nodup : (counterArguments.map (·.id)).Nodup
  evidence_nodup : (evidenceLinks.map (·.id)).Nodup
  arguments_mem : ∀ argument ∈ arguments, argument.hypothesisId ∈ hypotheses.map (·.id)
  counters_mem : ∀ counter ∈ counterArguments, counter.argumentId ∈ arguments.map (·.id)
  evidence_mem : ∀ link ∈ evidenceLinks, ∀ id, link.hypothesisId = some id → id ∈ hypotheses.map (·.id)

lemma mem_grounded {entry : ReasoningEvidenceLink F × Uuid} (h : entry ∈ grounded evidenceLinks) :
    entry.1 ∈ evidenceLinks ∧ entry.1.hypothesisId = some entry.2 := by
  obtain ⟨link, hlink, h⟩ := List.mem_filterMap.mp h
  obtain ⟨id, hid, rfl⟩ := Option.map_eq_some_iff.mp h
  exact ⟨hlink, hid⟩

lemma grounded_sublist (evidenceLinks : List (ReasoningEvidenceLink F)) :
    ((grounded evidenceLinks).map Prod.fst).Sublist evidenceLinks := by
  induction evidenceLinks with
  | nil => exact List.Sublist.refl _
  | cons link links ih =>
    rw [grounded, List.filterMap_cons]
    cases link.hypothesisId with
    | none => exact ih.cons _
    | some id => exact ih.cons_cons _

/-- The identifiers of the kinds of nodes, kind by kind. -/
def idGroups (idText : IdText) (hypotheses : List (Hypothesis F)) (arguments : List (Argument F))
    (counterArguments : List (CounterArgument F)) (evidenceLinks : List (ReasoningEvidenceLink F))
    (references : List String) : List (Char × List String) :=
  [('q', [questionNodeId]), ('h', hypotheses.map fun h => hypothesisNodeId idText h.id),
    ('a', arguments.map fun a => argumentNodeId idText a.id),
    ('c', counterArguments.map fun c => counterNodeId idText c.id),
    ('e', (grounded evidenceLinks).map fun e => evidenceNodeId idText e.1.id),
    ('r', references.zipIdx.map fun r => referenceNodeId r.2), ('s', [synthesisNodeId])]

lemma ids_build (question : String) (references : List String) (synthesis : String) :
    (build idText fixed2 question hypotheses arguments counterArguments evidenceLinks references synthesis).ids =
      (idGroups idText hypotheses arguments counterArguments evidenceLinks references).flatMap Prod.snd := by
  simp [ids, build, idGroups, Function.comp_def]

/-- Groups of different initials have nothing in common. -/
lemma nodup_groups {groups : List (Char × List String)} (hinitials : (groups.map Prod.fst).Nodup)
    (hgroups : ∀ group ∈ groups, group.2.Nodup ∧ ∀ s ∈ group.2, s.toList.head? = some group.1) :
    (groups.flatMap Prod.snd).Nodup := by
  induction groups with
  | nil => exact List.nodup_nil
  | cons group groups ih =>
    rw [List.map_cons, List.nodup_cons] at hinitials
    obtain ⟨hgroup, hrest⟩ := List.forall_mem_cons.mp hgroups
    rw [List.flatMap_cons]
    refine List.nodup_append.mpr ⟨hgroup.1, ih hinitials.2 hrest, fun s hs t ht heq => ?_⟩
    obtain ⟨other, hother, ht⟩ := List.mem_flatMap.mp ht
    have hinitial := hgroup.2 s hs
    rw [heq, (hrest other hother).2 t ht] at hinitial
    rw [← Option.some.inj hinitial] at hinitials
    exact hinitials.1 (List.mem_map_of_mem hother)

/-- What is written after a prefix keeps its differences. -/
lemma nodup_prefixed {α β : Type} (key : α → β) {write : β → String} {xs : List α} {initial : Char} {rest : List Char}
    {text : β → String} (hwrite : ∀ b, (write b).toList = initial :: rest ++ (text b).toList)
    (htext : Function.Injective text) (hkeys : (xs.map key).Nodup) :
    (xs.map fun x => write (key x)).Nodup ∧ ∀ s ∈ xs.map fun x => write (key x), s.toList.head? = some initial := by
  have hinjective : Function.Injective write := by
    intro b b' h
    have hlist := congrArg String.toList h
    rw [hwrite, hwrite] at hlist
    exact htext (String.toList_injective (List.append_cancel_left hlist))
  constructor
  · have hmap : (xs.map fun x => write (key x)) = (xs.map key).map write := (List.map_map ..).symm
    rw [hmap]
    exact hkeys.map hinjective
  · intro s hs
    obtain ⟨x, -, rfl⟩ := List.mem_map.mp hs
    rw [hwrite]
    rfl

lemma nodup_ids (fixed2 : F → String) (h : Linked hypotheses arguments counterArguments evidenceLinks)
    (hidText : Function.Injective idText) (question : String) (references : List String) (synthesis : String) :
    (build idText fixed2 question hypotheses arguments counterArguments evidenceLinks references synthesis).ids.Nodup := by
  have hgrounded : ((grounded evidenceLinks).map fun e => e.1.id).Nodup := by
    have hsub := ((grounded_sublist evidenceLinks).map (·.id)).nodup h.evidence_nodup
    rwa [List.map_map] at hsub
  have hindexes : (references.zipIdx.map Prod.snd).Nodup := by
    rw [List.zipIdx_map_snd]
    exact List.nodup_range'
  have hinitials : (idGroups idText hypotheses arguments counterArguments evidenceLinks references).map Prod.fst =
      ['q', 'h', 'a', 'c', 'e', 'r', 's'] := rfl
  rw [ids_build]
  refine nodup_groups (hinitials ▸ by decide) ?_
  simp only [idGroups, List.forall_mem_cons, List.not_mem_nil, false_imp_iff, implies_true, and_true]
  refine ⟨⟨List.nodup_singleton _, rfl⟩, ?_, ?_, ?_, ?_, ?_, ⟨List.nodup_singleton _, rfl⟩⟩
  · exact nodup_prefixed (fun x : Hypothesis F => x.id) (fun b => String.toList_append ..) hidText h.hypotheses_nodup
  · exact nodup_prefixed (fun x : Argument F => x.id) (fun b => String.toList_append ..) hidText h.arguments_nodup
  · exact nodup_prefixed (fun x : CounterArgument F => x.id) (fun b => String.toList_append ..) hidText
      h.counters_nodup
  · exact nodup_prefixed (fun x : ReasoningEvidenceLink F × Uuid => x.1.id) (fun b => String.toList_append ..) hidText
      hgrounded
  · exact nodup_prefixed Prod.snd (fun b => String.toList_append ..) (fun _ _ => toString_nat_inj) hindexes

/-! ### The edges -/

section Edges

variable {question : String} {references : List String} {synthesis : String} {edge : DecisionEdge}

/-- What an edge may be. -/
lemma edge_cases (h : edge ∈ (build idText fixed2 question hypotheses arguments counterArguments evidenceLinks
      references synthesis).edges) :
    (∃ x ∈ hypotheses, edge = ⟨questionNodeId, hypothesisNodeId idText x.id, "considers"⟩) ∨
    (∃ x ∈ arguments, edge = ⟨hypothesisNodeId idText x.hypothesisId, argumentNodeId idText x.id, "supported_by"⟩) ∨
    (∃ x ∈ counterArguments,
      edge = ⟨argumentNodeId idText x.argumentId, counterNodeId idText x.id, "challenged_by"⟩) ∨
    (∃ x ∈ grounded evidenceLinks,
      edge = ⟨hypothesisNodeId idText x.2, evidenceNodeId idText x.1.id, "grounded_by"⟩) ∨
    (∃ x ∈ references.zipIdx, edge = ⟨questionNodeId, referenceNodeId x.2, "cites"⟩) ∨
    ∃ x ∈ hypotheses, edge = ⟨hypothesisNodeId idText x.id, synthesisNodeId, "feeds_into"⟩ := by
  simp only [build, List.mem_append, List.mem_map, or_assoc] at h
  simpa only [eq_comm (a := edge)] using h

/-- What stands in an earlier group stands before what stands in a later one. -/
lemma pair_groups {groups : List (Char × List String)} (k : ℕ) {a b : String}
    (ha : a ∈ (groups.take k).flatMap Prod.snd) (hb : b ∈ (groups.drop k).flatMap Prod.snd) :
    [a, b].Sublist (groups.flatMap Prod.snd) := by
  refine pair_sublist_iff.mpr ⟨(groups.take k).flatMap Prod.snd, (groups.drop k).flatMap Prod.snd, ?_, ha, hb⟩
  rw [← List.flatMap_append, List.take_append_drop]

lemma mem_groups {groups : List (Char × List String)} {initial : Char} {group : List String} {a : String}
    (hgroup : (initial, group) ∈ groups) (ha : a ∈ group) : a ∈ groups.flatMap Prod.snd :=
  List.mem_flatMap.mpr ⟨_, hgroup, ha⟩

lemma mem_hypothesisIds {id : Uuid} (hid : id ∈ hypotheses.map (·.id)) :
    hypothesisNodeId idText id ∈ hypotheses.map fun h => hypothesisNodeId idText h.id := by
  obtain ⟨x, hx, rfl⟩ := List.mem_map.mp hid
  exact List.mem_map_of_mem hx

/-- **An edge leads forward** along the nodes. -/
lemma edge_forward (h : Linked hypotheses arguments counterArguments evidenceLinks)
    (hedge : edge ∈ (build idText fixed2 question hypotheses arguments counterArguments evidenceLinks references
      synthesis).edges) :
    [edge.sourceId, edge.targetId].Sublist (build idText fixed2 question hypotheses arguments counterArguments
      evidenceLinks references synthesis).ids := by
  rw [ids_build]
  obtain ⟨x, hx, rfl⟩ | ⟨x, hx, rfl⟩ | ⟨x, hx, rfl⟩ | ⟨x, hx, rfl⟩ | ⟨x, hx, rfl⟩ | ⟨x, hx, rfl⟩ := edge_cases hedge
  · exact pair_groups 1 (mem_groups (List.mem_cons_self) (List.mem_singleton_self _))
      (mem_groups List.mem_cons_self (List.mem_map_of_mem hx))
  · exact pair_groups 2 (mem_groups (.tail _ (.head _)) (mem_hypothesisIds (h.arguments_mem x hx)))
      (mem_groups List.mem_cons_self (List.mem_map_of_mem hx))
  · obtain ⟨argument, hargument, hid⟩ := List.mem_map.mp (h.counters_mem x hx)
    rw [← hid]
    exact pair_groups 3 (mem_groups (.tail _ (.tail _ (.head _))) (List.mem_map_of_mem hargument))
      (mem_groups List.mem_cons_self (List.mem_map_of_mem hx))
  · obtain ⟨hlink, hid⟩ := mem_grounded hx
    exact pair_groups 4 (mem_groups (.tail _ (.head _)) (mem_hypothesisIds (h.evidence_mem _ hlink _ hid)))
      (mem_groups List.mem_cons_self (List.mem_map_of_mem hx))
  · exact pair_groups 5 (mem_groups List.mem_cons_self (List.mem_singleton_self _))
      (mem_groups List.mem_cons_self (List.mem_map_of_mem hx))
  · exact pair_groups 6 (mem_groups (.tail _ (.head _)) (List.mem_map_of_mem hx))
      (mem_groups List.mem_cons_self (List.mem_singleton_self _))

end Edges

/-! ### Ways from the question -/

/-- Each node is at the end of edges that begin at the question. -/
lemma reachable_of_linked (h : Linked hypotheses arguments counterArguments evidenceLinks)
    (question : String) (references : List String) (synthesis : String) :
    ∀ id ∈ (build idText fixed2 question hypotheses arguments counterArguments evidenceLinks references synthesis).ids,
      ReflTransGen (build idText fixed2 question hypotheses arguments counterArguments evidenceLinks references
        synthesis).Leads questionNodeId id := by
  generalize hgraph :
    build idText fixed2 question hypotheses arguments counterArguments evidenceLinks references synthesis = graph
  have hedges : ∀ edge, edge ∈ (build idText fixed2 question hypotheses arguments counterArguments evidenceLinks
      references synthesis).edges → graph.Leads edge.sourceId edge.targetId := by
    intro edge hedge
    exact ⟨edge, hgraph ▸ hedge, rfl, rfl⟩
  simp only [build, List.mem_append, List.mem_map, or_assoc] at hedges
  have hhypothesis : ∀ id ∈ hypotheses.map (·.id),
      ReflTransGen graph.Leads questionNodeId (hypothesisNodeId idText id) := by
    intro id hid
    obtain ⟨x, hx, rfl⟩ := List.mem_map.mp hid
    exact .single (hedges _ (Or.inl ⟨x, hx, rfl⟩))
  have hargument : ∀ x ∈ arguments, ReflTransGen graph.Leads questionNodeId (argumentNodeId idText x.id) := by
    intro x hx
    exact (hhypothesis _ (h.arguments_mem x hx)).tail (hedges _ (Or.inr (Or.inl ⟨x, hx, rfl⟩)))
  intro id hid
  rw [← hgraph, ids_build] at hid
  obtain ⟨group, hgroup, hid⟩ := List.mem_flatMap.mp hid
  simp only [idGroups, List.mem_cons, List.not_mem_nil, or_false] at hgroup
  obtain rfl | rfl | rfl | rfl | rfl | rfl | rfl := hgroup
  · rw [List.mem_singleton.mp hid]
  · obtain ⟨x, hx, rfl⟩ := List.mem_map.mp hid
    exact hhypothesis _ (List.mem_map_of_mem hx)
  · obtain ⟨x, hx, rfl⟩ := List.mem_map.mp hid
    exact hargument x hx
  · obtain ⟨x, hx, rfl⟩ := List.mem_map.mp hid
    obtain ⟨argument, hmem, heq⟩ := List.mem_map.mp (h.counters_mem x hx)
    have hstep := hedges _ (Or.inr (Or.inr (Or.inl ⟨x, hx, rfl⟩)))
    dsimp only at hstep
    rw [← heq] at hstep
    exact (hargument argument hmem).tail hstep
  · obtain ⟨x, hx, rfl⟩ := List.mem_map.mp hid
    obtain ⟨hlink, hgrounds⟩ := mem_grounded hx
    exact (hhypothesis _ (h.evidence_mem _ hlink _ hgrounds)).tail
      (hedges _ (Or.inr (Or.inr (Or.inr (Or.inl ⟨x, hx, rfl⟩)))))
  · obtain ⟨x, hx, rfl⟩ := List.mem_map.mp hid
    exact .single (hedges _ (Or.inr (Or.inr (Or.inr (Or.inr (Or.inl ⟨x, hx, rfl⟩))))))
  · rw [List.mem_singleton.mp hid]
    obtain ⟨x, hx⟩ := List.exists_mem_of_ne_nil _ h.hypotheses_ne_nil
    exact (hhypothesis _ (List.mem_map_of_mem hx)).tail
      (hedges _ (Or.inr (Or.inr (Or.inr (Or.inr (Or.inr ⟨x, hx, rfl⟩))))))

/-- **What names what is there makes a well-formed graph.** -/
theorem wellFormed_of_linked (h : Linked hypotheses arguments counterArguments evidenceLinks)
    (hidText : Function.Injective idText) (question : String) (references : List String) (synthesis : String) :
    (build idText fixed2 question hypotheses arguments counterArguments evidenceLinks references
      synthesis).WellFormed where
  nodup := nodup_ids fixed2 h hidText question references synthesis
  ends := by
    intro edge hedge
    have hpair := (edge_forward h hedge).subset
    exact ⟨hpair List.mem_cons_self, hpair (List.mem_cons_of_mem _ (List.mem_singleton_self _))⟩
  acyclic := by
    refine acyclic_of_forward (nodup_ids fixed2 h hidText question references synthesis) ?_
    rintro a b ⟨edge, hedge, rfl, rfl⟩
    exact edge_forward h hedge
  reachable := reachable_of_linked h question references synthesis

end WellFormed

/-! ### A run -/

section Run

variable {F : Type} [PyFloat F]

/-- Where the engines begin to draw identifiers. -/
structure Draws where
  hypotheses : Uuid
  arguments : Uuid
  counterArguments : Uuid
  evidence : Uuid

/-- The graph of `ReasoningOrchestrator.reason`, for any references and any synthesis. -/
def ofRun (text : PyText) (idText : IdText) (fixed2 : F → String) (order : SetOrder) (draws : Draws)
    (question : String) (facts : List (Fact F)) (researchResults : List (ResearchResult F))
    (references : List String) (synthesis : String) : DecisionGraph :=
  let hypotheses := generateHypotheses text draws.hypotheses question facts researchResults
  let arguments := buildArguments text draws.arguments hypotheses researchResults
  let counterArguments :=
    buildCounterArguments idText draws.counterArguments arguments hypotheses facts researchResults
  let evidenceLinks := linkEvidence order draws.evidence hypotheses arguments facts
  build idText fixed2 question hypotheses arguments counterArguments evidenceLinks references synthesis

/-- The engines name what is there. -/
lemma linked_engines (text : PyText) (idText : IdText) (order : SetOrder) (draws : Draws) (question : String)
    (facts : List (Fact F)) (researchResults : List (ResearchResult F)) (hypotheses : List (Hypothesis F))
    (hhypotheses : hypotheses = generateHypotheses text draws.hypotheses question facts researchResults)
    (arguments : List (Argument F))
    (harguments : arguments = buildArguments text draws.arguments hypotheses researchResults) :
    Linked hypotheses arguments
      (buildCounterArguments idText draws.counterArguments arguments hypotheses facts researchResults)
      (linkEvidence order draws.evidence hypotheses arguments facts) where
  hypotheses_ne_nil := hhypotheses ▸ generateHypotheses_ne_nil question
  hypotheses_nodup := hhypotheses ▸ nodup_generateHypotheses question
  arguments_nodup := harguments ▸ nodup_buildArguments
  counters_nodup := nodup_buildCounterArguments
  evidence_nodup := nodup_linkEvidence
  arguments_mem := fun _ hargument => mem_buildArguments (harguments ▸ hargument)
  counters_mem := fun _ hcounter => mem_buildCounterArguments hcounter
  evidence_mem := by
    intro link hlink id hid
    obtain ⟨hypothesis, hmem, heq⟩ := mem_linkEvidence hlink
    rw [hid] at heq
    exact Option.some.inj heq ▸ List.mem_map_of_mem hmem

/-- **The decision graph of a run is well formed**: distinct nodes, edges between them that never lead back, and every
node on a way from the question, for every question, facts and results of a research. -/
theorem decision_graph_well_formed (text : PyText) {idText : IdText} (hidText : Function.Injective idText)
    (fixed2 : F → String) (order : SetOrder) (draws : Draws) (question : String) (facts : List (Fact F))
    (researchResults : List (ResearchResult F)) (references : List String) (synthesis : String) :
    (ofRun text idText fixed2 order draws question facts researchResults references synthesis).WellFormed :=
  wellFormed_of_linked (linked_engines text idText order draws question facts researchResults _ rfl _ rfl) hidText
    question references synthesis

/-- A question with one contradicted fact. -/
theorem decision_graph_well_formed_one : Function.Injective (toString : ℕ → String) ∧
    (ofRun PyText.ascii toString PyFloat.decimal SetOrder.insertion ⟨10, 20, 30, 40⟩ "Le licenciement est-il nul ?"
      [{ id := 1, description := "licenciement sans motif", confidence := (1 : ℚ),
          contradictingDocumentIds := {"d2"} }] [] [] "").WellFormed :=
  ⟨fun _ _ => toString_nat_inj, decision_graph_well_formed PyText.ascii (fun _ _ => toString_nat_inj) _ _ _ _ _ _ _ _⟩

end Run

end DecisionGraph

end Tmis.LegalReasoning
