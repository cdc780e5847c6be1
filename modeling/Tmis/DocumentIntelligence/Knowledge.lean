import Mathlib.Data.List.TakeWhile
import Tmis.Core.Graph
import Tmis.DocumentIntelligence.Chunking
import Tmis.DocumentIntelligence.KeywordMatches
import Tmis.DocumentIntelligence.Pipeline
import Tmis.Lib.Run

/-!
# The graph of the documents of a firm

`document_intelligence.knowledge`: the sections, entities, events and chunks of a document are written into a graph that
all documents of a firm share.

* `KnowledgeGraphBuilder.update` — the four loops, each of which writes a node and an edge to it;
* `Update.keys`, `map_id_items` — the identifiers that are written, all different;
* `neighbors_run` — what the graph leads to from a document, after any updates;
* `latest_run` — a document has the nodes of its latest update, whatever other documents are written;
* `processedGraph_run` — so it is for the documents that a pipeline processes, whatever the turns are.
-/

namespace Tmis.CaseIntelligence

def EntityType.value : EntityType → String
  | person => "person"
  | company => "company"
  | jurisdiction => "jurisdiction"
  | address => "address"
  | date => "date"
  | amount => "amount"
  | reference => "reference"
  | number => "number"
  | lawArticle => "law_article"
  | decisionReference => "decision_reference"

end Tmis.CaseIntelligence

namespace Tmis.DocumentIntelligence

open Tmis.Ai (Chunk)
open Tmis.CaseIntelligence (EntityType TimelineEvent)
open Tmis.Core Tmis.Lib

inductive NodeType where
  | document | section | entity | date | event | reference | chunk
  deriving DecidableEq

structure KnowledgeNode where
  id : String
  type : NodeType
  label : String
  properties : Dict String String := ∅

structure KnowledgeEdge where
  sourceId : String
  targetId : String
  relation : String

instance : HasId KnowledgeNode := ⟨KnowledgeNode.id⟩
instance : HasEndpoints KnowledgeEdge := ⟨KnowledgeEdge.sourceId, KnowledgeEdge.targetId⟩

abbrev InMemoryKnowledgeGraph := AdjacencyGraphStore KnowledgeNode KnowledgeEdge

variable {F : Type}

/-- What `update` is given. -/
structure Update (F : Type) where
  documentId : String
  filename : String
  layoutBlocks : List LayoutBlock
  entities : List (ExtractedEntity F)
  timelineEvents : List (TimelineEvent F)
  chunks : List Chunk

/-! ### The builder -/

/-- `_ENTITY_NODE_TYPES.get(entity.type, NodeType.ENTITY)`. -/
def entityNodeType : EntityType → NodeType
  | .date => .date
  | .lawArticle | .decisionReference | .reference => .reference
  | _ => .entity

/-- The identifier of a node that is numbered, with what stands between the document and the number. -/
def itemId (documentId kind : String) (index : ℕ) : String := documentId ++ kind ++ toString index

def Update.documentNode (u : Update F) : KnowledgeNode where
  id := u.documentId
  type := .document
  label := u.filename

def sectionNode (documentId : String) (block : LayoutBlock) (index : ℕ) : KnowledgeNode where
  id := itemId documentId "::section::" index
  type := .section
  label := block.content

def entityNode (documentId : String) (entity : ExtractedEntity F) (index : ℕ) : KnowledgeNode where
  id := itemId documentId "::entity::" index
  type := entityNodeType entity.type
  label := entity.value
  properties := Dict.ofEntries [("entity_type", entity.type.value)]

def eventNode (documentId : String) (event : TimelineEvent F) (index : ℕ) : KnowledgeNode where
  id := itemId documentId "::event::" index
  type := .event
  label := event.description
  properties := Dict.ofEntries [("date", event.date)]

def chunkNode (chunk : Chunk) : KnowledgeNode where
  id := chunk.id
  type := .chunk
  label := slice chunk.content 0 80

namespace KnowledgeGraphBuilder

/-- A node, and the edge from the document to it. -/
def addItem (documentId relation : String) (graph : InMemoryKnowledgeGraph) (node : KnowledgeNode) :
    InMemoryKnowledgeGraph := (graph.addNode node).addEdge ⟨documentId, node.id, relation⟩

def update (graph : InMemoryKnowledgeGraph) (u : Update F) : InMemoryKnowledgeGraph :=
  let graph := graph.addNode u.documentNode
  let graph := u.layoutBlocks.zipIdx.foldl (fun graph (block, index) =>
    if isSection block then addItem u.documentId "contains" graph (sectionNode u.documentId block index) else graph)
    graph
  let graph := u.entities.zipIdx.foldl (fun graph (entity, index) =>
    addItem u.documentId "mentions" graph (entityNode u.documentId entity index)) graph
  let graph := u.timelineEvents.zipIdx.foldl (fun graph (event, index) =>
    addItem u.documentId "has_event" graph (eventNode u.documentId event index)) graph
  u.chunks.foldl (fun graph chunk => addItem u.documentId "contains" graph (chunkNode chunk)) graph

end KnowledgeGraphBuilder

/-! ### What an update writes -/

namespace Update

/-- What is written beside the document itself: the relation and the node, in order. -/
def items (u : Update F) : List (String × KnowledgeNode) :=
  (u.layoutBlocks.zipIdx.filter fun x => isSection x.1).map (fun x => ("contains", sectionNode u.documentId x.1 x.2)) ++
    u.entities.zipIdx.map (fun x => ("mentions", entityNode u.documentId x.1 x.2)) ++
    u.timelineEvents.zipIdx.map (fun x => ("has_event", eventNode u.documentId x.1 x.2)) ++
    u.chunks.map fun chunk => ("contains", chunkNode chunk)

def nodes (u : Update F) : List KnowledgeNode := u.documentNode :: u.items.map Prod.snd

def edges (u : Update F) : List KnowledgeEdge := u.items.map fun item => ⟨u.documentId, item.2.id, item.1⟩

/-- The chunks are those of a `StructuralChunker`. -/
def Chunked (u : Update F) : Prop :=
  ∃ (limit : ℕ) (text : String), 0 < limit ∧
    StructuralChunker.chunk ⟨limit⟩ u.documentId text u.layoutBlocks = .ok u.chunks

/-- What stands between the document and the number, and the number, of each item. -/
def keys (u : Update F) : List (String × ℕ) :=
  (u.layoutBlocks.zipIdx.filter fun x => isSection x.1).map (fun x => ("::section::", x.2)) ++
    u.entities.zipIdx.map (fun x => ("::entity::", x.2)) ++
    u.timelineEvents.zipIdx.map (fun x => ("::event::", x.2)) ++
    (List.range u.chunks.length).map fun index => ("::", index)

end Update

open KnowledgeGraphBuilder Update

section Written

variable {u : Update F}

/-- The loops, as one. -/
lemma update_eq (graph : InMemoryKnowledgeGraph) (u : Update F) : update graph u =
    u.items.foldl (fun graph item => addItem u.documentId item.1 graph item.2) (graph.addNode u.documentNode) := by
  rw [items, List.foldl_append, List.foldl_append, List.foldl_append, List.foldl_map, List.foldl_map,
    List.foldl_map, List.foldl_map, List.foldl_filter]
  rfl

lemma adds_update (graph : InMemoryKnowledgeGraph) (u : Update F) : Adds graph u.nodes u.edges (update graph u) := by
  have hitem (graph : InMemoryKnowledgeGraph) (item : String × KnowledgeNode) :
      Adds graph [item.2] [⟨u.documentId, item.2.id, item.1⟩] (addItem u.documentId item.1 graph item.2) :=
    (adds_addNode graph item.2).trans (adds_addEdge _ _)
  rw [update_eq]
  have hall := (adds_addNode graph u.documentNode).trans (adds_foldl hitem u.items _)
  rwa [← List.map_eq_flatMap, ← List.map_eq_flatMap] at hall

/-- The document is there when the edges from it are written. -/
lemma linked_update {graph : InMemoryKnowledgeGraph} (h : graph.Linked) (u : Update F) : (update graph u).Linked := by
  rw [update_eq]
  suffices hrun : ∀ (items : List (String × KnowledgeNode)) (graph : InMemoryKnowledgeGraph), graph.Linked →
      (∃ node, graph.getNode u.documentId = some node) →
      (items.foldl (fun graph item => addItem u.documentId item.1 graph item.2) graph).Linked by
    refine hrun _ _ (h.addNode _) ⟨u.documentNode, ?_⟩
    rw [AdjacencyGraphStore.getNode_addNode]
    exact if_pos rfl
  intro items
  induction items with
  | nil => exact fun _ h _ => h
  | cons item items ih =>
    rintro graph h ⟨node, hnode⟩
    obtain ⟨node', hnode'⟩ := AdjacencyGraphStore.exists_getNode_addNode hnode item.2
    have hitem : (graph.addNode item.2).getNode item.2.id = some item.2 := by
      rw [AdjacencyGraphStore.getNode_addNode]
      exact if_pos rfl
    have hlinked : (addItem u.documentId item.1 graph item.2).Linked := (h.addNode item.2).addEdge hnode' hitem
    exact ih _ hlinked ⟨node', hnode'⟩

/-! ### The identifiers -/

lemma map_id_chunks (h : u.Chunked) :
    u.chunks.map Chunk.id = (List.range u.chunks.length).map (itemId u.documentId "::") := by
  obtain ⟨limit, text, hlimit, hchunks⟩ := h
  obtain ⟨groups, hgroups, -⟩ := chunk_pieces hlimit u.documentId text u.layoutBlocks
  have heq : u.chunks = chunksOf u.documentId groups := Except.ok.inj (hchunks.symm.trans hgroups)
  rw [heq, chunksOf, List.map_map, List.length_map, List.length_zipIdx, List.range_eq_range', ← List.zipIdx_map_snd,
    List.map_map]
  rfl

/-- **The items are identified by their keys.** -/
lemma map_id_items (h : u.Chunked) :
    u.items.map (·.2.id) = u.keys.map fun key => itemId u.documentId key.1 key.2 := by
  have hchunks : u.chunks.map (fun chunk => (chunkNode chunk).id) = _ := map_id_chunks h
  simp only [items, keys, List.map_append, List.map_map, Function.comp_def]
  rw [hchunks]
  rfl

/-- A number at the end of a text, after something that does not end in a digit, is found there. -/
lemma append_toString_inj {s t : List Char} {m n : ℕ} (hs : ∀ c ∈ s.getLast?, c.isDigit = false)
    (ht : ∀ c ∈ t.getLast?, c.isDigit = false) (h : s ++ (toString m).toList = t ++ (toString n).toList) :
    s = t ∧ m = n := by
  have hdigits {s : List Char} (hs : ∀ c ∈ s.getLast?, c.isDigit = false) (n : ℕ) :
      (s ++ (toString n).toList).reverse.takeWhile Char.isDigit = (toString n).toList.reverse := by
    have hnone : s.reverse.takeWhile Char.isDigit = [] := by
      cases hrev : s.reverse with
      | nil => rfl
      | cons c cs =>
        have hlast : s.getLast? = some c := by rw [← List.head?_reverse, hrev]; rfl
        exact List.takeWhile_cons_of_neg (by rw [hs c hlast]; decide)
    rw [List.reverse_append, List.takeWhile_append_of_pos, hnone, List.append_nil]
    exact fun c hc => isDigit_of_mem_toString (List.mem_reverse.mp hc)
  have hsame : (toString m).toList = (toString n).toList := by
    rw [← List.reverse_inj, ← hdigits hs m, h, hdigits ht n]
  rw [hsame] at h
  exact ⟨List.append_cancel_right h, toString_nat_inj (String.toList_injective hsame)⟩

/-- What stands before the number. -/
lemma kind_of_mem_keys {key : String × ℕ} (h : key ∈ u.keys) :
    key.1 ∈ ["::section::", "::entity::", "::event::", "::"] := by
  simp only [keys, List.mem_append, List.mem_map] at h
  rcases h with ((⟨_, _, rfl⟩ | ⟨_, _, rfl⟩) | ⟨_, _, rfl⟩) | ⟨_, _, rfl⟩ <;> simp

lemma nodup_keys (u : Update F) : u.keys.Nodup := by
  have hindexed {α : Type} (xs : List α) (kind : String) : (xs.zipIdx.map fun x => (kind, x.2)).Nodup := by
    have hmap : xs.zipIdx.map (fun x => (kind, x.2)) = (List.range xs.length).map (kind, ·) := by
      rw [List.range_eq_range', ← List.zipIdx_map_snd, List.map_map]
      rfl
    rw [hmap]
    exact List.nodup_range.map fun _ _ h => (Prod.mk.inj h).2
  have hsections : ((u.layoutBlocks.zipIdx.filter fun x => isSection x.1).map fun x => ("::section::", x.2)).Nodup :=
    (hindexed u.layoutBlocks "::section::").sublist (List.filter_sublist.map _)
  have hchunks : ((List.range u.chunks.length).map fun index => ("::", index)).Nodup :=
    List.nodup_range.map fun _ _ h => (Prod.mk.inj h).2
  rw [keys]
  refine ((hsections.append (hindexed _ _) ?_).append (hindexed _ _) ?_).append hchunks ?_ <;>
    intro key hleft hright <;> simp only [List.mem_append, List.mem_map] at hleft hright
  all_goals aesop

lemma itemId_inj {d : String} {key key' : String × ℕ} (h : key ∈ u.keys) (h' : key' ∈ u.keys)
    (heq : itemId d key.1 key.2 = itemId d key'.1 key'.2) : key = key' := by
  have hkind : ∀ kind ∈ ["::section::", "::entity::", "::event::", "::"],
      ∀ c ∈ (d.toList ++ kind.toList).getLast?, c.isDigit = false := by
    simp
  have hlists := congrArg String.toList heq
  simp only [itemId, String.toList_append] at hlists
  obtain ⟨hpre, hnumber⟩ := append_toString_inj (hkind _ (kind_of_mem_keys h)) (hkind _ (kind_of_mem_keys h')) hlists
  exact Prod.ext (String.toList_injective (List.append_cancel_left hpre)) hnumber

/-- The nodes of an update have different identifiers. -/
lemma nodup_nodes (h : u.Chunked) : (u.nodes.map HasId.id).Nodup := by
  have hitems : (u.items.map Prod.snd).map HasId.id = u.keys.map fun key => itemId u.documentId key.1 key.2 := by
    rw [List.map_map]
    exact map_id_items h
  rw [nodes, List.map_cons, hitems, List.nodup_cons]
  refine ⟨fun hmem => ?_, (nodup_keys u).map_on fun key hkey key' hkey' => itemId_inj hkey hkey'⟩
  obtain ⟨key, hkey, heq⟩ := List.mem_map.mp hmem
  have hlength := congrArg String.length heq
  rw [itemId, String.length_append, String.length_append] at hlength
  have hkind : ∀ kind ∈ ["::section::", "::entity::", "::event::", "::"], 0 < kind.length := by decide
  have hpos := hkind _ (kind_of_mem_keys hkey)
  have hid : (HasId.id u.documentNode).length = u.documentId.length := rfl
  omega

/-- The document of a node. -/
def owner (id : String) : List Char := id.toList.takeWhile (· ≠ ':')

lemma owner_of_mem_nodes (hplain : ':' ∉ u.documentId.toList) (h : u.Chunked) :
    ∀ node ∈ u.nodes, owner node.id = u.documentId.toList := by
  have hall : ∀ c ∈ u.documentId.toList, decide (c ≠ ':') = true := fun c hc =>
    decide_eq_true fun heq => hplain (heq ▸ hc)
  have hkind : ∀ kind ∈ ["::section::", "::entity::", "::event::", "::"], kind.toList.head? = some ':' := by decide
  intro node hnode
  rcases List.mem_cons.mp hnode with rfl | hnode
  · exact List.takeWhile_eq_self_iff.mpr hall
  · obtain ⟨item, hitem, rfl⟩ := List.mem_map.mp hnode
    have hid : item.2.id ∈ u.keys.map fun key => itemId u.documentId key.1 key.2 :=
      map_id_items h ▸ List.mem_map.mpr ⟨item, hitem, rfl⟩
    obtain ⟨key, hkey, heq⟩ := List.mem_map.mp hid
    obtain ⟨rest, hrest⟩ := List.head?_eq_some_iff.mp (hkind _ (kind_of_mem_keys hkey))
    rw [← heq, owner, itemId, String.toList_append, String.toList_append, List.append_assoc, hrest,
      List.takeWhile_append_of_pos hall]
    exact List.append_nil _

end Written

/-! ### After any updates -/

section Runs

variable {updates : List (Update F)} {d : String}

/-- The graph after some updates. -/
def updated (updates : List (Update F)) : InMemoryKnowledgeGraph := run update {} updates

lemma updated_snoc (updates : List (Update F)) (u : Update F) :
    updated (updates ++ [u]) = update (updated updates) u := run_snoc ..

lemma linked_updated (updates : List (Update F)) : (updated updates).Linked :=
  run_inv updates AdjacencyGraphStore.linked_empty fun _ u h => linked_update h u

lemma adds_updated (updates : List (Update F)) :
    Adds {} (updates.flatMap nodes) (updates.flatMap edges) (updated updates) :=
  adds_foldl adds_update updates {}

/-- Where what is made of something says what it is made of. -/
lemma filter_flatMap_of_iff {α β : Type} {f : α → List β} {p : α → Bool} {q : β → Bool} {xs : List α}
    (h : ∀ x ∈ xs, ∀ y ∈ f x, q y = p x) : (xs.flatMap f).filter q = (xs.filter p).flatMap f := by
  induction xs with
  | nil => rfl
  | cons x xs ih =>
    have hx := h x List.mem_cons_self
    rw [List.flatMap_cons, List.filter_append, ih fun x hx => h x (List.mem_cons_of_mem _ hx)]
    cases hp : p x with
    | true =>
      rw [List.filter_cons_of_pos hp, List.flatMap_cons, List.filter_eq_self.mpr fun y hy => (hx y hy).trans hp]
    | false =>
      have hnone : (f x).filter q = [] :=
        List.filter_eq_nil_iff.mpr fun y hy => by rw [hx y hy, hp]; exact Bool.false_ne_true
      rw [List.filter_cons_of_neg (by rw [hp]; exact Bool.false_ne_true), hnone, List.nil_append]

lemma map_filter_edges (updates : List (Update F)) (d : String) :
    ((updates.flatMap edges).filter (·.sourceId = d)).map KnowledgeEdge.targetId =
      (updates.filter (·.documentId = d)).flatMap fun u => u.items.map (·.2.id) := by
  have hsource (u : Update F) (e : KnowledgeEdge) (he : e ∈ u.edges) : e.sourceId = u.documentId := by
    obtain ⟨_, -, rfl⟩ := List.mem_map.mp he
    rfl
  rw [filter_flatMap_of_iff fun u _ e he => by rw [hsource u e he], List.map_flatMap]
  simp only [edges, List.map_map, Function.comp_def]

lemma map_id_getNeighbors (updates : List (Update F)) (d : String) :
    ((updated updates).getNeighbors d).map KnowledgeNode.id =
      (updates.filter (·.documentId = d)).flatMap fun u => u.items.map (·.2.id) := by
  have hneighbors := (linked_updated updates).map_getNeighbors d
  rw [(adds_updated updates).edges, List.nil_append] at hneighbors
  exact hneighbors.trans (map_filter_edges updates d)

/-- The nodes of other documents do not matter, and those of the latest update are written last. -/
lemma getNode_latest (hplain : ∀ u ∈ updates, ':' ∉ u.documentId.toList) (hchunked : ∀ u ∈ updates, u.Chunked)
    {u : Update F} (hu : (updates.filter (·.documentId = d)).getLast? = some u) {node : KnowledgeNode}
    (hnode : node ∈ u.nodes) : (updated updates).getNode node.id = some node := by
  obtain ⟨earlier, hearlier⟩ := List.getLast?_eq_some_iff.mp hu
  obtain ⟨hmem, hd⟩ := List.mem_filter.mp (List.mem_of_getLast? hu)
  have howner : owner node.id = d.toList := by
    rw [owner_of_mem_nodes (hplain u hmem) (hchunked u hmem) node hnode, of_decide_eq_true hd]
  have hfilter : (updates.flatMap nodes).filter (fun node => owner node.id = d.toList) =
      (updates.filter (·.documentId = d)).flatMap nodes := by
    refine filter_flatMap_of_iff fun u hu node hnode => decide_eq_decide.mpr ?_
    rw [owner_of_mem_nodes (hplain u hu) (hchunked u hu) node hnode]
    exact String.toList_inj
  show (updated updates).nodes.get (HasId.id node) = some node
  rw [(adds_updated updates).nodes, get_writeNodes_filter (fun node => owner node.id = d.toList), hfilter, hearlier,
    List.flatMap_append, List.flatMap_singleton, writeNodes, List.foldl_append]
  · exact get_writeNodes_mem (nodup_nodes (hchunked u hmem)) hnode _
  · intro node' _ hid
    exact decide_eq_true ((congrArg owner hid).trans howner)

/-- **What the graph leads to from a document**, after any updates: the items of each update of the document, in order,
also those that a later update no longer has, and again those that it has too.  An edge has a node at each end. -/
theorem neighbors_run (updates : List (Update F)) (d : String) :
    ((updated updates).getNeighbors d).map KnowledgeNode.id =
      (updates.filter (·.documentId = d)).flatMap (fun u => u.items.map (·.2.id)) ∧
    ∀ e ∈ (updated updates).edges, (∃ node, (updated updates).getNode e.sourceId = some node) ∧
      ∃ node, (updated updates).getNode e.targetId = some node :=
  ⟨map_id_getNeighbors updates d, (linked_updated updates).ends⟩

/-- **A document has the nodes of its latest update**, whatever other documents are written before it, after it and in
between; a document that is written once leads to exactly what was found in it. -/
theorem latest_run (updates : List (Update F)) (hplain : ∀ u ∈ updates, ':' ∉ u.documentId.toList)
    (hchunked : ∀ u ∈ updates, u.Chunked) (d : String) :
    (∀ u, (updates.filter (·.documentId = d)).getLast? = some u →
      ∀ node ∈ u.nodes, (updated updates).getNode node.id = some node) ∧
    ∀ u, updates.filter (·.documentId = d) = [u] → (updated updates).getNeighbors d = u.items.map Prod.snd := by
  refine ⟨fun u hu node hnode => getNode_latest hplain hchunked hu hnode, fun u hu => ?_⟩
  have hlast : (updates.filter (·.documentId = d)).getLast? = some u := by rw [hu]; rfl
  have hfound (item : String × KnowledgeNode) (hitem : item ∈ u.items) :
      (updated updates).getNode item.2.id = some item.2 :=
    getNode_latest hplain hchunked hlast (List.mem_cons_of_mem _ (List.mem_map.mpr ⟨item, hitem, rfl⟩))
  have htargets := map_filter_edges updates d
  rw [hu, List.flatMap_singleton] at htargets
  rw [(linked_updated updates).getNeighbors_eq, (adds_updated updates).edges, List.nil_append]
  refine (congrArg (List.filterMap _) htargets).trans ?_
  rw [List.filterMap_map]
  exact (List.filterMap_congr hfound).trans (congrFun List.filterMap_eq_map _)

/-- A document with a title and a date. -/
def contract : Update ℚ where
  documentId := "d1"
  filename := "contrat.txt"
  layoutBlocks := [⟨0, .title, "OBJET", some 1, ∅⟩]
  entities := [{ type := .date, value := "3 mai 2024", confidence := 3 / 5 }]
  timelineEvents := []
  chunks := [StructuralChunker.newChunk "d1" 0 ["OBJET"] "OBJET"]

def emptyDocument : Update ℚ := ⟨"d2", "vide.txt", [], [], [], []⟩

theorem latest_run_two : (updated [contract, emptyDocument]).getNeighbors "d1" = contract.items.map Prod.snd := by
  refine (latest_run [contract, emptyDocument] ?_ ?_ "d1").2 contract (by rfl)
  · exact List.forall_mem_cons.mpr ⟨by decide, List.forall_mem_singleton.mpr (by decide)⟩
  · exact List.forall_mem_cons.mpr ⟨⟨800, "", by decide, by rfl⟩,
      List.forall_mem_singleton.mpr ⟨800, "", by decide, by rfl⟩⟩

end Runs

/-! ### The graph of a pipeline -/

section Processed

open Pipeline

/-- What is behind the ports of a pipeline that has the structural chunker, the builder and the graph. -/
structure KnowledgePorts (V : Services) (F : Type) where
  analyze : String → Except PyException (List LayoutBlock)
  extractEntities : String → Except PyException (List (ExtractedEntity F))
  buildTimeline : String → String → List (ExtractedEntity F) → Except PyException (List (TimelineEvent F))
  embedAndIndex : List Chunk → V.Index → Except PyException Unit × V.Index

def KnowledgePorts.services {V : Services} (ports : KnowledgePorts V F) : Services :=
  { V with
    LayoutBlock := LayoutBlock
    Entity := ExtractedEntity F
    TimelineEvent := TimelineEvent F
    Chunk := Chunk
    Graph := InMemoryKnowledgeGraph
    analyze := ports.analyze
    extractEntities := ports.extractEntities
    buildTimeline := ports.buildTimeline
    chunk := StructuralChunker.chunk {}
    chunkId := Chunk.id
    embedAndIndex := ports.embedAndIndex
    updateKnowledge := fun documentId filename layoutBlocks entities timelineEvents chunks graph =>
      (.ok (), update graph (⟨documentId, filename, layoutBlocks, entities, timelineEvents, chunks⟩ : Update F))
    nodeCount := fun graph => graph.nodes.entries.length }

variable {V : Services} {ports : KnowledgePorts V F} {calls : List Call}

/-- What the knowledge stages write are updates of the documents of the calls. -/
lemma updated_of_written {graph : ports.services.Graph}
    (h : Pipeline.Written calls (({} : InMemoryKnowledgeGraph) : ports.services.Graph) graph) :
    ∃ updates : List (Update F), graph = updated updates ∧ ∀ u ∈ updates, u.Chunked ∧
      ∃ call ∈ calls, u.documentId = call.documentId ∧ u.filename = call.filename := by
  induction h with
  | none => exact ⟨[], rfl, nofun⟩
  | @next call graph' graph'' _ hcall hwrites ih =>
    obtain ⟨updates, rfl, hupdates⟩ := ih
    obtain ⟨text, layoutBlocks, entities, timelineEvents, chunks, hchunks, rfl⟩ := hwrites
    let u : Update F := ⟨call.documentId, call.filename, layoutBlocks, entities, timelineEvents, chunks⟩
    refine ⟨updates ++ [u], (updated_snoc updates u).symm, List.forall_mem_append.mpr ⟨hupdates, ?_⟩⟩
    exact List.forall_mem_singleton.mpr ⟨⟨800, text, by decide, hchunks⟩, call, hcall, rfl, rfl⟩

/-- **The graph of a pipeline is that of updates of its documents**, whatever the turns are and whatever raises: a
document leads to the items of each of its updates, in the order of the turns that wrote them, and those of the latest
one are as it wrote them, whatever other documents are processed at the same time. -/
theorem processedGraph_run (ports : KnowledgePorts V F) (handlers : Handlers ports.services)
    (index : ports.services.Index) (turns : List (Turn Call))
    (hplain : ∀ call ∈ turns.filterMap Turn.called, ':' ∉ call.documentId.toList) :
    ∃ (updates : List (Update F)) (graph : InMemoryKnowledgeGraph),
      (after handlers index ({} : InMemoryKnowledgeGraph) turns).state.graph = graph ∧
      (∀ u ∈ updates, ∃ call ∈ turns.filterMap Turn.called,
        u.documentId = call.documentId ∧ u.filename = call.filename) ∧
      ∀ d, (graph.getNeighbors d).map KnowledgeNode.id =
          (updates.filter (·.documentId = d)).flatMap (fun u => u.items.map (·.2.id)) ∧
        ∀ u, (updates.filter (·.documentId = d)).getLast? = some u →
          ∀ node ∈ u.nodes, graph.getNode node.id = some node := by
  obtain ⟨updates, hgraph, hupdates⟩ := updated_of_written (written_after handlers index _ turns)
  have hplain' : ∀ u ∈ updates, ':' ∉ u.documentId.toList := by
    intro u hu
    obtain ⟨-, call, hcall, hid, -⟩ := hupdates u hu
    rw [hid]
    exact hplain call hcall
  refine ⟨updates, updated updates, hgraph, fun u hu => (hupdates u hu).2, fun d => ⟨map_id_getNeighbors updates d, ?_⟩⟩
  exact fun u hu node hnode => getNode_latest hplain' (fun u hu => (hupdates u hu).1) hu hnode

/-- Ports that find a title in every document, and nothing else. -/
def titlePorts : KnowledgePorts
    { Ingested := Unit, Confidence := Unit, LayoutBlock := Unit, Classification := Unit, Metadata := Unit, Entity := Unit,
      TimelineEvent := Unit, Chunk := Unit, Index := Unit, Graph := Unit, validate _ _ := .ok (), scan _ _ := .ok (),
      parse _ _ _ _ := .ok (), extractText _ := .ok ⟨"OBJET", ()⟩, detect _ := .ok none, analyze _ := .ok [],
      classify _ := .ok (), extractMetadata _ _ _ _ := .ok (), extractEntities _ := .ok [],
      buildTimeline _ _ _ := .ok [], chunk _ _ _ := .ok [], chunkId _ := "", embedAndIndex _ index := (.ok (), index),
      updateKnowledge _ _ _ _ _ _ graph := (.ok (), graph), nodeCount _ := 0 } ℚ where
  analyze _ := .ok [⟨0, .title, "OBJET", some 1, ∅⟩]
  extractEntities _ := .ok []
  buildTimeline _ _ _ := .ok []
  embedAndIndex _ index := (.ok (), index)

/-- A document is processed twice. -/
def twoTurns : List (Turn Call) :=
  [.call ⟨"contrat.txt", "text/plain", [], some "d1", "d0", "upload", none, none⟩,
    .call ⟨"avenant.txt", "text/plain", [], some "d1", "d0", "upload", none, none⟩] ++
    (List.replicate 12 [Turn.resume 0, Turn.resume 1]).flatten

theorem processedGraph_run_two : ∃ (updates : List (Update ℚ)) (graph : InMemoryKnowledgeGraph),
    (after (V := titlePorts.services) (fun _ => .ok ()) () ({} : InMemoryKnowledgeGraph) twoTurns).state.graph = graph ∧
      (graph.getNeighbors "d1").map KnowledgeNode.id =
        (updates.filter (·.documentId = "d1")).flatMap fun u => u.items.map (·.2.id) := by
  obtain ⟨updates, graph, hgraph, -, hall⟩ := processedGraph_run titlePorts (fun _ => .ok ()) () twoTurns (by decide)
  exact ⟨updates, graph, hgraph, (hall "d1").1⟩

end Processed

end Tmis.DocumentIntelligence
