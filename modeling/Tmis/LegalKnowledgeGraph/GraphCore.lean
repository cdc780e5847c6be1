import Tmis.Lib.PyFloat
import Tmis.Lib.PySet
import Tmis.Lib.PyText
import Tmis.Lib.Run
import Tmis.Lib.Store

/-!
# The legal knowledge graph

`legal_knowledge_graph.graph_core`: nodes of all firms in one map, relations in another, each looked up by
its identifier and then by its firm.

* `GraphEngine` — nodes and relations, and the calls;
* `Linked` — both ends of every relation are nodes of its firm; `linked_step`, every call keeps it;
* `mem_neighbors` — who the neighbors of a node are;
* `graph_isolated` — so after every sequence of calls, and neighbors are found, mutual, and of the firm.
-/

namespace Tmis.LegalKnowledgeGraph

open Tmis.Lib

inductive RelationType where
  | cites | supersedes | derivedFrom | relatedTo | contradicts | appliesTo | influences | appearsIn
  | mentions | sameAs
  deriving DecidableEq

/-- `_RELATION_VERBS`: there is a verb for every type. -/
def RelationType.verb : RelationType → String
  | cites => "cite"
  | supersedes => "remplace"
  | derivedFrom => "dérive de"
  | relatedTo => "est lié à"
  | contradicts => "contredit"
  | appliesTo => "s'applique à"
  | influences => "influence"
  | appearsIn => "apparaît dans"
  | mentions => "mentionne"
  | sameAs => "désigne la même entité que"

inductive GraphNodeType where
  | concept | lawArticle | jurisprudence | decision | contract | clause | party | legalEntity | case
  | argument | risk | procedure | document
  deriving DecidableEq

structure GraphNode where
  id : Uuid
  firmId : String
  nodeType : GraphNodeType
  refId : String
  label : String
  deriving DecidableEq

structure KnowledgeRelation (F : Type) where
  id : Uuid
  firmId : String
  sourceId : Uuid
  targetId : Uuid
  relationType : RelationType
  explanation : Option String
  confidence : F

/-- The engine with its in-memory stores; `uuids` counts the identifiers drawn so far. -/
structure GraphEngine (F : Type) where
  nodes : Store Uuid GraphNode GraphNode.id := ∅
  relations : Store Uuid (KnowledgeRelation F) KnowledgeRelation.id := ∅
  uuids : ℕ := 0

namespace GraphEngine

variable {F : Type}

/-! ### The calls -/

section Calls

variable (graph : GraphEngine F)

def addNode (firmId : String) (nodeType : GraphNodeType) (refId label : String) :
    GraphNode × GraphEngine F :=
  let node : GraphNode := { id := graph.uuids, firmId, nodeType, refId, label }
  (node, { graph with nodes := graph.nodes.save node, uuids := graph.uuids + 1 })

/-- `InMemoryGraphNodeStore.get`. -/
def findNode (firmId : String) (nodeId : Uuid) : Option GraphNode :=
  (graph.nodes.get nodeId).filter (·.firmId = firmId)

def getNode (firmId : String) (nodeId : Uuid) : Except PyException GraphNode :=
  match graph.findNode firmId nodeId with
  | none => .error (keyError (toString nodeId))
  | some node => .ok node

def listNodes (firmId : String) (nodeType : Option GraphNodeType) : List GraphNode :=
  let nodes := graph.nodes.values.filter (·.firmId = firmId)
  match nodeType with
  | none => nodes
  | some nodeType => nodes.filter (·.nodeType = nodeType)

def defaultExplanation (source target : GraphNode) (relationType : RelationType) : String :=
  source.label ++ " " ++ relationType.verb ++ " " ++ target.label

def link (firmId : String) (sourceId targetId : Uuid) (relationType : RelationType)
    (explanation : Option String) (confidence : F) :
    Except PyException (KnowledgeRelation F × GraphEngine F) := do
  let source ← graph.getNode firmId sourceId
  let target ← graph.getNode firmId targetId
  let relation : KnowledgeRelation F :=
    { id := graph.uuids, firmId, sourceId, targetId, relationType
      explanation := orText explanation (some (defaultExplanation source target relationType))
      confidence }
  return (relation, { graph with relations := graph.relations.save relation, uuids := graph.uuids + 1 })

def relationsFor (firmId : String) (nodeId : Uuid) : List (KnowledgeRelation F) :=
  graph.relations.values.filter fun r => r.firmId = firmId ∧ (r.sourceId = nodeId ∨ r.targetId = nodeId)

/-- The end of a relation that is not this node, unless both are. -/
def otherEnd (nodeId : Uuid) (r : KnowledgeRelation F) : Uuid :=
  if r.sourceId = nodeId then r.targetId else r.sourceId

/-- `neighbors`.  The nodes are listed in the order of their first relations; the source iterates a set of
their identifiers, in an order of its own. -/
def neighbors (firmId : String) (nodeId : Uuid) : Except PyException (List GraphNode) :=
  let neighborIds := (graph.relationsFor firmId nodeId).foldl
    (fun ids r => ids.add (otherEnd nodeId r)) (∅ : PySet Uuid)
  neighborIds.elems.mapM fun neighborId => graph.getNode firmId neighborId

def explain (firmId : String) (relationId : Uuid) : Except PyException String :=
  match (graph.relations.get relationId).filter (·.firmId = firmId) with
  | none => .error (keyError (toString relationId))
  | some r => .ok (r.explanation.getD "")

end Calls

/-! ### Runs -/

/-- A call that changes the graph; all others read it. -/
inductive GraphOp (F : Type) where
  | addNode (firmId : String) (nodeType : GraphNodeType) (refId label : String)
  | link (firmId : String) (sourceId targetId : Uuid) (relationType : RelationType)
      (explanation : Option String) (confidence : F)

def step (graph : GraphEngine F) : GraphOp F → GraphEngine F
  | .addNode firmId nodeType refId label => (graph.addNode firmId nodeType refId label).2
  | .link firmId sourceId targetId relationType explanation confidence =>
      afterCall graph
        ((graph.link firmId sourceId targetId relationType explanation confidence).map Prod.snd)

/-! ### Links -/

variable {graph : GraphEngine F} {firmId : String} {nodeId : Uuid} {node : GraphNode}
  {r : KnowledgeRelation F}

lemma findNode_eq_some :
    graph.findNode firmId nodeId = some node ↔ graph.nodes.get nodeId = some node ∧ node.firmId = firmId := by
  rw [findNode, Option.filter_eq_some_iff, decide_eq_true_eq]

lemma getNode_eq_ok : graph.getNode firmId nodeId = .ok node ↔ graph.findNode firmId nodeId = some node := by
  unfold getNode
  cases graph.findNode firmId nodeId <;> simp

/-- Both ends of every relation are nodes of its firm, and new identifiers are free. -/
structure Linked (graph : GraphEngine F) : Prop where
  nodesBelow : graph.nodes.Below graph.uuids
  relationsBelow : graph.relations.Below graph.uuids
  source : ∀ id r, graph.relations.get id = some r → ∃ node, graph.findNode r.firmId r.sourceId = some node
  target : ∀ id r, graph.relations.get id = some r → ∃ node, graph.findNode r.firmId r.targetId = some node

lemma linked_empty : Linked ({} : GraphEngine F) where
  nodesBelow := Store.below_empty _
  relationsBelow := Store.below_empty _
  source _ _ h := nomatch h
  target _ _ h := nomatch h

/-- A node that is found stays when another one is added. -/
lemma findNode_addNode (h : graph.nodes.Below graph.uuids) (firmId' : String) (nodeType : GraphNodeType)
    (refId label : String) (hfind : graph.findNode firmId nodeId = some node) :
    (graph.addNode firmId' nodeType refId label).2.findNode firmId nodeId = some node := by
  obtain ⟨hget, hfirm⟩ := findNode_eq_some.mp hfind
  refine findNode_eq_some.mpr ⟨?_, hfirm⟩
  simp only [addNode, Store.get_save, if_neg (h _ _ hget).ne, hget]

/-- **What a link does**: it fails, or both ends are nodes of the firm and the relation is stored under a
new identifier. -/
lemma link_cases (graph : GraphEngine F) (firmId : String) (sourceId targetId : Uuid)
    (relationType : RelationType) (explanation : Option String) (confidence : F) :
    (∃ e, graph.link firmId sourceId targetId relationType explanation confidence = .error e ∧
      (graph.findNode firmId sourceId = none ∨ graph.findNode firmId targetId = none)) ∨
    ∃ source target explanation', graph.findNode firmId sourceId = some source ∧
      graph.findNode firmId targetId = some target ∧
      graph.link firmId sourceId targetId relationType explanation confidence =
        .ok (⟨graph.uuids, firmId, sourceId, targetId, relationType, explanation', confidence⟩,
          { graph with
            relations := graph.relations.save
              ⟨graph.uuids, firmId, sourceId, targetId, relationType, explanation', confidence⟩
            uuids := graph.uuids + 1 }) := by
  unfold link getNode
  cases hsource : graph.findNode firmId sourceId with
  | none => exact Or.inl ⟨_, rfl, Or.inl rfl⟩
  | some source =>
    cases htarget : graph.findNode firmId targetId with
    | none => exact Or.inl ⟨_, rfl, Or.inr rfl⟩
    | some target => exact Or.inr ⟨source, target, _, rfl, rfl, rfl⟩

/-- **The step lemma.** -/
theorem linked_step (h : Linked graph) (op : GraphOp F) : Linked (graph.step op) := by
  cases op with
  | addNode firmId nodeType refId label =>
    have hkeep {firmId' : String} {nodeId : Uuid} :
        (∃ node, graph.findNode firmId' nodeId = some node) →
        ∃ node, (graph.addNode firmId nodeType refId label).2.findNode firmId' nodeId = some node :=
      fun ⟨node, hfind⟩ => ⟨node, findNode_addNode h.nodesBelow firmId nodeType refId label hfind⟩
    exact ⟨(h.nodesBelow.mono (Nat.le_succ _)).save (Nat.lt_succ_self _),
      h.relationsBelow.mono (Nat.le_succ _), fun id r hget => hkeep (h.source id r hget),
      fun id r hget => hkeep (h.target id r hget)⟩
  | link firmId sourceId targetId relationType explanation confidence =>
    simp only [step]
    rcases link_cases graph firmId sourceId targetId relationType explanation confidence with
      ⟨e, herror, -⟩ | ⟨source, target, explanation', hsource, htarget, hok⟩
    · rw [herror]
      exact h
    · rw [hok]
      refine ⟨h.nodesBelow.mono (Nat.le_succ _),
        (h.relationsBelow.mono (Nat.le_succ _)).save (Nat.lt_succ_self _), fun id r hget => ?_,
        fun id r hget => ?_⟩
      · rcases Store.of_get_save hget with rfl | hget
        · exact ⟨source, hsource⟩
        · exact h.source id r hget
      · rcases Store.of_get_save hget with rfl | hget
        · exact ⟨target, htarget⟩
        · exact h.target id r hget

/-- Nodes stay found. -/
lemma findNode_step (h : Linked graph) (op : GraphOp F) (hfind : graph.findNode firmId nodeId = some node) :
    (graph.step op).findNode firmId nodeId = some node := by
  cases op with
  | addNode firmId' nodeType refId label => exact findNode_addNode h.nodesBelow firmId' nodeType refId label hfind
  | link firmId' sourceId targetId relationType explanation confidence =>
    simp only [step]
    rcases link_cases graph firmId' sourceId targetId relationType explanation confidence with
      ⟨e, herror, -⟩ | ⟨source, target, explanation', -, -, hok⟩
    · rw [herror]
      exact hfind
    · rw [hok]
      exact hfind

lemma uuids_le_step (graph : GraphEngine F) (op : GraphOp F) : graph.uuids ≤ (graph.step op).uuids := by
  cases op with
  | addNode firmId nodeType refId label => exact Nat.le_succ _
  | link firmId sourceId targetId relationType explanation confidence =>
    simp only [step]
    rcases link_cases graph firmId sourceId targetId relationType explanation confidence with
      ⟨e, herror, -⟩ | ⟨source, target, explanation', -, -, hok⟩
    · rw [herror]
      exact Nat.le_refl _
    · rw [hok]
      exact Nat.le_succ _

/-! ### Neighbors -/

lemma mem_relationsFor : r ∈ graph.relationsFor firmId nodeId ↔
    graph.relations.get r.id = some r ∧ r.firmId = firmId ∧ (r.sourceId = nodeId ∨ r.targetId = nodeId) := by
  simp only [relationsFor, List.mem_filter, Store.mem_values_iff, decide_eq_true_eq]

/-- Some relation of the firm has the two nodes at its ends. -/
def Adjacent (graph : GraphEngine F) (firmId : String) (a b : Uuid) : Prop :=
  ∃ r, graph.relations.get r.id = some r ∧ r.firmId = firmId ∧
    ((r.sourceId = a ∧ r.targetId = b) ∨ (r.sourceId = b ∧ r.targetId = a))

lemma Adjacent.symm {a b : Uuid} (h : graph.Adjacent firmId a b) : graph.Adjacent firmId b a := by
  obtain ⟨r, hget, hfirm, hends⟩ := h
  exact ⟨r, hget, hfirm, hends.symm⟩

lemma mem_foldl_add {α β : Type*} [DecidableEq β] (f : α → β) {y : β} : ∀ (xs : List α) (s : PySet β),
    y ∈ xs.foldl (fun s x => s.add (f x)) s ↔ y ∈ s ∨ ∃ x ∈ xs, f x = y
  | [], s => by simp
  | x :: xs, s => by
      rw [List.foldl_cons, mem_foldl_add f xs, PySet.mem_add, List.exists_mem_cons_iff, or_assoc, eq_comm]

lemma id_of_findNode (h : graph.findNode firmId nodeId = some node) : node.id = nodeId :=
  Store.key_of_get (findNode_eq_some.mp h).1

/-- Nodes that are there are found, one by one. -/
lemma mapM_getNode : ∀ {ids : List Uuid}, (∀ id ∈ ids, ∃ node, graph.findNode firmId id = some node) →
    ∃ nodes, ids.mapM (fun id => graph.getNode firmId id) = .ok nodes ∧
      ∀ node, node ∈ nodes ↔ graph.findNode firmId node.id = some node ∧ node.id ∈ ids
  | [], _ => ⟨[], rfl, by simp⟩
  | id :: ids, h => by
      obtain ⟨node, hfind⟩ := h id List.mem_cons_self
      obtain ⟨nodes, hnodes, hmem⟩ := mapM_getNode fun id' hid' => h id' (List.mem_cons_of_mem id hid')
      refine ⟨node :: nodes, ?_, fun node' => ?_⟩
      · rw [List.mapM_cons, getNode_eq_ok.mpr hfind, hnodes]
        rfl
      · rw [List.mem_cons, hmem, List.mem_cons, and_or_left]
        refine or_congr_left ⟨?_, ?_⟩
        · rintro rfl
          rw [id_of_findNode hfind]
          exact ⟨hfind, rfl⟩
        · rintro ⟨hfind', hid⟩
          rw [hid, hfind] at hfind'
          exact (Option.some.inj hfind').symm

/-- **The neighbors of a node** are found, and are those that a relation of the firm links it with. -/
theorem mem_neighbors (h : Linked graph) (firmId : String) (nodeId : Uuid) :
    ∃ nodes, graph.neighbors firmId nodeId = .ok nodes ∧ ∀ node, node ∈ nodes ↔
      graph.findNode firmId node.id = some node ∧ graph.Adjacent firmId nodeId node.id := by
  -- The identifiers that are collected are those of the other ends.
  have hids : ∀ id, id ∈ ((graph.relationsFor firmId nodeId).foldl
      (fun ids r => ids.add (otherEnd nodeId r)) (∅ : PySet Uuid)).elems ↔
        graph.Adjacent firmId nodeId id := by
    intro id
    rw [PySet.mem_elems, mem_foldl_add, or_iff_right PySet.not_mem_empty]
    constructor
    · rintro ⟨r, hr, rfl⟩
      obtain ⟨hget, hfirm, hends⟩ := mem_relationsFor.mp hr
      refine ⟨r, hget, hfirm, ?_⟩
      unfold otherEnd
      split_ifs with hsource
      · exact Or.inl ⟨hsource, rfl⟩
      · exact Or.inr ⟨rfl, hends.resolve_left hsource⟩
    · rintro ⟨r, hget, hfirm, hends⟩
      refine ⟨r, mem_relationsFor.mpr ⟨hget, hfirm, hends.imp And.left And.right⟩, ?_⟩
      unfold otherEnd
      rcases hends with ⟨hsource, htarget⟩ | ⟨hsource, htarget⟩
      · rw [if_pos hsource, htarget]
      · split_ifs with hself
        · rw [htarget, ← hself, hsource]
        · exact hsource
  have hfound : ∀ id, graph.Adjacent firmId nodeId id → ∃ node, graph.findNode firmId id = some node := by
    rintro id ⟨r, hget, rfl, ⟨-, rfl⟩ | ⟨rfl, -⟩⟩
    · exact h.target r.id r hget
    · exact h.source r.id r hget
  obtain ⟨nodes, hnodes, hmem⟩ := mapM_getNode fun id hid => hfound id ((hids id).mp hid)
  exact ⟨nodes, hnodes, fun node => by rw [hmem, hids]⟩

/-- **Referential integrity and isolation**: after any calls for any firms, both ends of every relation are
nodes of its firm; the neighbors of a node of any firm are found, and are nodes of that firm; being
neighbors is mutual; and the ends of a relation are neighbors. -/
theorem graph_isolated (ops : List (GraphOp F)) (firmId : String) :
    (∀ id r, (run step {} ops).relations.get id = some r → ∃ source target,
      (run step {} ops).nodes.get r.sourceId = some source ∧ source.firmId = r.firmId ∧
      (run step {} ops).nodes.get r.targetId = some target ∧ target.firmId = r.firmId) ∧
    (∀ nodeId, ∃ nodes, (run step {} ops).neighbors firmId nodeId = .ok nodes ∧
      ∀ node ∈ nodes, node.firmId = firmId) ∧
    (∀ a b, (run step {} ops).findNode firmId a.id = some a → (run step {} ops).findNode firmId b.id = some b →
      ∀ as bs, (run step {} ops).neighbors firmId a.id = .ok as →
        (run step {} ops).neighbors firmId b.id = .ok bs → (b ∈ as ↔ a ∈ bs)) ∧
    ∀ id r, (run step {} ops).relations.get id = some r →
      ∀ source target, (run step {} ops).findNode r.firmId r.sourceId = some source →
        (run step {} ops).findNode r.firmId r.targetId = some target →
        ∀ sources targets, (run step {} ops).neighbors r.firmId r.sourceId = .ok sources →
          (run step {} ops).neighbors r.firmId r.targetId = .ok targets →
          target ∈ sources ∧ source ∈ targets := by
  have h : Linked (run step {} ops) := run_inv ops linked_empty fun graph op hg => linked_step hg op
  refine ⟨fun id r hget => ?_, fun nodeId => ?_, fun a b ha hb as bs has hbs => ?_,
    fun id r hget source target hsource htarget sources targets hsources htargets => ?_⟩
  · obtain ⟨source, hsource⟩ := h.source id r hget
    obtain ⟨target, htarget⟩ := h.target id r hget
    obtain ⟨hs, hsfirm⟩ := findNode_eq_some.mp hsource
    obtain ⟨ht, htfirm⟩ := findNode_eq_some.mp htarget
    exact ⟨source, target, hs, hsfirm, ht, htfirm⟩
  · obtain ⟨nodes, hnodes, hmem⟩ := mem_neighbors h firmId nodeId
    exact ⟨nodes, hnodes, fun node hnode => (findNode_eq_some.mp ((hmem node).mp hnode).1).2⟩
  · obtain ⟨as', has', hmem⟩ := mem_neighbors h firmId a.id
    obtain ⟨bs', hbs', hmem'⟩ := mem_neighbors h firmId b.id
    obtain rfl := Except.ok.inj (has'.symm.trans has)
    obtain rfl := Except.ok.inj (hbs'.symm.trans hbs)
    rw [hmem, hmem', and_iff_right hb, and_iff_right ha]
    exact ⟨Adjacent.symm, Adjacent.symm⟩
  · obtain ⟨sources', hsources', hmem⟩ := mem_neighbors h r.firmId r.sourceId
    obtain ⟨targets', htargets', hmem'⟩ := mem_neighbors h r.firmId r.targetId
    obtain rfl := Except.ok.inj (hsources'.symm.trans hsources)
    obtain rfl := Except.ok.inj (htargets'.symm.trans htargets)
    have hsid := id_of_findNode hsource
    have htid := id_of_findNode htarget
    have hr : (run step {} ops).relations.get r.id = some r := Store.key_of_get hget ▸ hget
    exact ⟨(hmem target).mpr ⟨by rwa [htid], r, hr, rfl, Or.inl ⟨rfl, htid.symm⟩⟩,
      (hmem' source).mpr ⟨by rwa [hsid], r, hr, rfl, Or.inr ⟨hsid.symm, rfl⟩⟩⟩

end GraphEngine

end Tmis.LegalKnowledgeGraph
