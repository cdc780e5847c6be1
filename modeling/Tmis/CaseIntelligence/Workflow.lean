import Tmis.CaseIntelligence.Mergers
import Tmis.Core.Graph

/-!
# The case workflow

`CaseIntelligenceWorkflow.ingest_document`: a document is merged into its case, the issues of the case are
detected anew, and the graph of the cases is updated.  The events that are published, the search index,
the metrics and the log do not come back to the case.

* `HeuristicIssueDetector.detect` — the issues of a case;
* `CaseKnowledgeAggregator.update` — a case is written to the graph;
* `CaseIntelligenceWorkflow.enrich`, `ingestDocument` — one document;
* `adds_update` — the nodes and the edges that an update adds.
-/

namespace Tmis.CaseIntelligence

open Tmis.Lib Tmis.Core

variable {F : Type} [PyFloat F]

/-! ### Issues -/

/-- `HeuristicIssueDetector.detect`, with the number of identifiers drawn. -/
def HeuristicIssueDetector.detect (profile : CaseProfile F) (uuids : ℕ) : List (LegalIssue F) × ℕ :=
  let inconsistent := profile.timelineInconsistencies.map fun inconsistency id =>
    { id
      description := "Incohérence temporelle détectée pour le " ++ inconsistency.date ++ " : " ++
        inconsistency.reason
      confidence := PyFloat.ofRat (3 / 5) : LegalIssue F }
  let contested := (profile.facts.filter (·.contradictingDocumentIds.elems ≠ [])).map fun fact id =>
    { id
      description := "Fait contesté par au moins un document : " ++ fact.description
      relatedFactIds := [fact.id]
      confidence := fact.confidence : LegalIssue F }
  let issues := (inconsistent ++ contested).zipIdx uuids
  (issues.map fun issue => issue.1 issue.2, uuids + issues.length)

/-! ### The graph -/

inductive CaseNodeType where
  | actor | document | event | fact | exhibit | issue
  deriving DecidableEq

structure CaseNode where
  id : String
  type : CaseNodeType
  label : String
  properties : List (String × String) := []
  deriving DecidableEq

structure CaseEdge where
  sourceId : String
  targetId : String
  relation : String
  deriving DecidableEq

instance : HasId CaseNode := ⟨CaseNode.id⟩
instance : HasEndpoints CaseEdge := ⟨CaseEdge.sourceId, CaseEdge.targetId⟩

/-- `InMemoryCaseGraph`. -/
abbrev CaseGraph := AdjacencyGraphStore CaseNode CaseEdge

namespace CaseKnowledgeAggregator

variable (order : SetOrder)

/-! #### The nodes and the edges of the parts of a case -/

def documentNode (documentId : String) : CaseNode :=
  { id := "document::" ++ documentId, type := .document, label := documentId }

def actorNodeId (actor : Actor) : String := "actor::" ++ toString actor.id

def actorNode (actor : Actor) : CaseNode :=
  { id := actorNodeId actor
    type := .actor
    label := actor.name
    properties := [("actor_type", actor.type.value)] }

def mentionedIn (actor : Actor) (documentId : String) : CaseEdge :=
  ⟨actorNodeId actor, "document::" ++ documentId, "mentioned_in"⟩

def eventNodeId (caseId : String) (index : ℕ) : String := "event::" ++ caseId ++ "::" ++ toString index

def eventNode (caseId : String) (entry : CaseTimelineEntry F × ℕ) : CaseNode :=
  { id := eventNodeId caseId entry.2
    type := .event
    label := entry.1.description
    properties := [("date", entry.1.date)] }

def occurredIn (caseId : String) (index : ℕ) (documentId : String) : CaseEdge :=
  ⟨eventNodeId caseId index, "document::" ++ documentId, "occurred_in"⟩

def factNode (fact : Fact F) : CaseNode :=
  { id := "fact::" ++ toString fact.id, type := .fact, label := fact.description }

def exhibitNode (link : EvidenceLink) : CaseNode :=
  { id := "exhibit::" ++ link.documentId
    type := .exhibit
    label := link.documentId
    properties := [("confidence", link.confidence.value)] }

def supportedBy (link : EvidenceLink) : CaseEdge :=
  ⟨"fact::" ++ toString link.factId, "exhibit::" ++ link.documentId, "supported_by"⟩

def issueNode (issue : LegalIssue F) : CaseNode :=
  { id := "issue::" ++ toString issue.id, type := .issue, label := issue.description }

def relatesTo (issue : LegalIssue F) (factId : Uuid) : CaseEdge :=
  ⟨"issue::" ++ toString issue.id, "fact::" ++ toString factId, "relates_to"⟩

/-! #### The update -/

def updateActor (graph : CaseGraph) (actor : Actor) : CaseGraph :=
  (order.list actor.sourceDocumentIds).foldl
    (fun graph documentId => graph.addEdge (mentionedIn actor documentId))
    (graph.addNode (actorNode actor))

def updateEvent (caseId : String) (graph : CaseGraph) (entry : CaseTimelineEntry F × ℕ) : CaseGraph :=
  entry.1.documentIds.foldl
    (fun graph documentId => graph.addEdge (occurredIn caseId entry.2 documentId))
    (graph.addNode (eventNode caseId entry))

def updateIssue (graph : CaseGraph) (issue : LegalIssue F) : CaseGraph :=
  issue.relatedFactIds.foldl (fun graph factId => graph.addEdge (relatesTo issue factId))
    (graph.addNode (issueNode issue))

def update (graph : CaseGraph) (profile : CaseProfile F) : CaseGraph :=
  let graph := (order.list profile.documentIds).foldl
    (fun graph documentId => graph.addNode (documentNode documentId)) graph
  let graph := profile.actors.foldl (updateActor order) graph
  let graph := profile.timeline.zipIdx.foldl (updateEvent profile.caseId) graph
  let graph := profile.facts.foldl (fun graph fact => graph.addNode (factNode fact)) graph
  let graph := profile.evidenceLinks.foldl
    (fun graph link => (graph.addNode (exhibitNode link)).addEdge (supportedBy link)) graph
  profile.legalIssues.foldl updateIssue graph

end CaseKnowledgeAggregator

/-! ### The workflow -/

/-- What the engines are made with: the calls on texts, the order of sets, and the boost of a fact that
is confirmed. -/
structure CaseSettings (F : Type) where
  text : CaseText
  order : SetOrder
  confirmationBoost : F

/-- The workflow with its case store and its graph, and the number of identifiers drawn. -/
structure CaseIntelligenceWorkflow (F : Type) where
  cases : Dict String (CaseProfile F) := ∅
  knowledgeGraph : CaseGraph := {}
  uuids : ℕ := 0

namespace CaseIntelligenceWorkflow

variable (settings : CaseSettings F) (workflow : CaseIntelligenceWorkflow F)

/-- `get_or_create`, with the identifier as the title. -/
def profile (caseId : String) : CaseProfile F :=
  (workflow.cases.get caseId).getD { caseId, title := caseId }

/-- A document is merged into a case; with the number of identifiers drawn. -/
def enrich (profile : CaseProfile F) (uuids : ℕ) (record : DocumentRecord F) : CaseProfile F × ℕ :=
  let profile := { profile with documentIds := profile.documentIds.add record.documentId }
  let (actors, uuids) := ActorMerger.merge settings.text settings.order profile.actors uuids
    record.entities record.documentId
  let profile := { profile with actors }
  let (facts, uuids) := FactEngine.ingest settings.text settings.confirmationBoost profile.facts uuids
    record.timelineEvents record.documentId
  let profile := { profile with facts }
  let timeline := CaseTimelineEngine.consolidate settings.text profile.timeline record.timelineEvents
  let profile := { profile with timeline }
  let profile := { profile with
    timelineInconsistencies := CaseTimelineEngine.detectInconsistencies profile.timeline }
  let profile := { profile with
    evidenceLinks := profile.facts.flatMap (EvidenceLinker.link settings.order) }
  let (legalIssues, uuids) := HeuristicIssueDetector.detect profile uuids
  ({ profile with legalIssues }, uuids)

/-- `ingest_document`. -/
def ingestDocument (caseId : String) (record : DocumentRecord F) :
    CaseProfile F × CaseIntelligenceWorkflow F :=
  let enriched := enrich settings (workflow.profile caseId) workflow.uuids record
  (enriched.1,
    { cases := workflow.cases.set enriched.1.caseId enriched.1
      knowledgeGraph :=
        CaseKnowledgeAggregator.update settings.order workflow.knowledgeGraph enriched.1
      uuids := enriched.2 })

/-- The workflow after one document of one case. -/
def step (workflow : CaseIntelligenceWorkflow F) (item : String × DocumentRecord F) :
    CaseIntelligenceWorkflow F := (workflow.ingestDocument settings item.1 item.2).2

end CaseIntelligenceWorkflow

/-! ### What an update adds -/

namespace CaseKnowledgeAggregator

/-- The nodes that are written for a case. -/
def nodesOf (order : SetOrder) (profile : CaseProfile F) : List CaseNode :=
  (order.list profile.documentIds).map documentNode ++ profile.actors.map actorNode ++
    profile.timeline.zipIdx.map (eventNode profile.caseId) ++ profile.facts.map factNode ++
    profile.evidenceLinks.map exhibitNode ++ profile.legalIssues.map issueNode

/-- The edges that are appended for a case. -/
def edgesOf (order : SetOrder) (profile : CaseProfile F) : List CaseEdge :=
  (profile.actors.flatMap fun actor => (order.list actor.sourceDocumentIds).map (mentionedIn actor)) ++
    (profile.timeline.zipIdx.flatMap fun entry =>
      entry.1.documentIds.map (occurredIn profile.caseId entry.2)) ++
    profile.evidenceLinks.map supportedBy ++
    profile.legalIssues.flatMap fun issue => issue.relatedFactIds.map (relatesTo issue)

/-- Nodes, without edges. -/
lemma adds_nodes {X : Type} (graph : CaseGraph) (node : X → CaseNode) (xs : List X) :
    Adds graph (xs.map node) [] (xs.foldl (fun graph x => graph.addNode (node x)) graph) := by
  have hnodes := adds_foldl (fun graph x => adds_addNode graph (node x)) xs graph
  rwa [← List.map_eq_flatMap, List.flatMap_eq_nil_iff.mpr fun _ _ => rfl] at hnodes

/-- A node, and edges. -/
lemma adds_star {X : Type} (graph : CaseGraph) (node : CaseNode) (edge : X → CaseEdge) (xs : List X) :
    Adds graph [node] (xs.map edge)
      (xs.foldl (fun graph x => graph.addEdge (edge x)) (graph.addNode node)) := by
  have hedges := adds_foldl (fun graph x => adds_addEdge graph (edge x)) xs (graph.addNode node)
  rw [← List.map_eq_flatMap, List.flatMap_eq_nil_iff.mpr fun _ _ => rfl] at hedges
  exact (adds_addNode graph node).trans hedges

omit [PyFloat F] in
/-- **An update** adds the nodes and the edges of the case. -/
theorem adds_update (order : SetOrder) (graph : CaseGraph) (profile : CaseProfile F) :
    Adds graph (nodesOf order profile) (edgesOf order profile) (update order graph profile) := by
  have hlink : ∀ (graph : CaseGraph) (link : EvidenceLink), Adds graph [exhibitNode link]
      [supportedBy link] ((graph.addNode (exhibitNode link)).addEdge (supportedBy link)) :=
    fun graph link => (adds_addNode graph _).trans (adds_addEdge _ _)
  have hactors := adds_foldl (fun graph (actor : Actor) => adds_star graph (actorNode actor)
    (mentionedIn actor) (order.list actor.sourceDocumentIds)) profile.actors
  have hevents := adds_foldl (fun graph (entry : CaseTimelineEntry F × ℕ) => adds_star graph
    (eventNode profile.caseId entry) (occurredIn profile.caseId entry.2) entry.1.documentIds)
    profile.timeline.zipIdx
  have hissues := adds_foldl (fun graph (issue : LegalIssue F) => adds_star graph (issueNode issue)
    (relatesTo issue) issue.relatedFactIds) profile.legalIssues
  have hlinks := adds_foldl hlink profile.evidenceLinks
  simp only [← List.map_eq_flatMap] at hactors hevents hissues hlinks
  have hall := (((((adds_nodes graph documentNode (order.list profile.documentIds)).trans
    (hactors _)).trans (hevents _)).trans (adds_nodes _ factNode profile.facts)).trans
    (hlinks _)).trans (hissues _)
  simp only [List.nil_append, List.append_nil] at hall
  exact hall

end CaseKnowledgeAggregator

end Tmis.CaseIntelligence
