import Mathlib.Data.List.Induction
import Tmis.Lib.Dict

/-!
# Graphs in memory

`core.graph.AdjacencyGraphStore`, generic in its nodes and edges: a node is written over the one of the
same identifier, an edge is appended.

* `AdjacencyGraphStore.addNode`, `addEdge`, `getNode`, `getNeighbors` — the calls;
* `Linked` — the neighbours are those that the edges lead to, and an edge has a node at each end;
* `Adds` — what a piece of code adds to a graph, `Adds.trans`, `adds_foldl`, for code in sequence and loops.
-/

namespace Tmis.Core

open Tmis.Lib

class HasId (N : Type) where
  id : N → String

class HasEndpoints (E : Type) where
  sourceId : E → String
  targetId : E → String

structure AdjacencyGraphStore (N E : Type) where
  nodes : Dict String N := ∅
  edges : List E := []
  adjacency : Dict String (List String) := ∅

namespace AdjacencyGraphStore

variable {N E : Type} [HasId N] [HasEndpoints E] (graph : AdjacencyGraphStore N E)

def addNode (node : N) : AdjacencyGraphStore N E :=
  { graph with nodes := graph.nodes.set (HasId.id node) node }

def addEdge (edge : E) : AdjacencyGraphStore N E :=
  { graph with
    edges := graph.edges ++ [edge]
    adjacency := graph.adjacency.set (HasEndpoints.sourceId edge)
      ((graph.adjacency.get (HasEndpoints.sourceId edge)).getD [] ++ [HasEndpoints.targetId edge]) }

def getNode (nodeId : String) : Option N := graph.nodes.get nodeId

def getNeighbors (nodeId : String) : List N :=
  ((graph.adjacency.get nodeId).getD []).filterMap graph.nodes.get

/-- The neighbours are those that the edges lead to, and an edge has a node at each end. -/
structure Linked (graph : AdjacencyGraphStore N E) : Prop where
  stored : ∀ {id node}, graph.getNode id = some node → HasId.id node = id
  adjacency : ∀ id, (graph.adjacency.get id).getD [] =
    (graph.edges.filter (HasEndpoints.sourceId · = id)).map HasEndpoints.targetId
  ends : ∀ e ∈ graph.edges, (∃ node, graph.getNode (HasEndpoints.sourceId e) = some node) ∧
    ∃ node, graph.getNode (HasEndpoints.targetId e) = some node

section Linked

variable {graph}

lemma linked_empty : Linked ({} : AdjacencyGraphStore N E) where
  stored := nofun
  adjacency _ := rfl
  ends _ he := absurd he List.not_mem_nil

omit [HasEndpoints E] in
/-- What is written leaves the other nodes there. -/
lemma getNode_addNode (node : N) (id : String) :
    (graph.addNode node).getNode id = if id = HasId.id node then some node else graph.getNode id := Dict.get_set ..

omit [HasEndpoints E] in
lemma exists_getNode_addNode {node' : N} {id : String} (h : graph.getNode id = some node') (node : N) :
    ∃ node', (graph.addNode node).getNode id = some node' := by
  rw [getNode_addNode]
  split_ifs
  · exact ⟨node, rfl⟩
  · exact ⟨node', h⟩

lemma Linked.addNode (h : graph.Linked) (node : N) : (graph.addNode node).Linked where
  stored := by
    intro id node' hget
    rw [getNode_addNode] at hget
    split_ifs at hget with hid
    · cases hget
      exact hid.symm
    · exact h.stored hget
  adjacency := h.adjacency
  ends e he := by
    obtain ⟨⟨_, hsource⟩, _, htarget⟩ := h.ends e he
    exact ⟨exists_getNode_addNode hsource node, exists_getNode_addNode htarget node⟩

lemma Linked.addEdge (h : graph.Linked) {edge : E} {node node' : N}
    (hsource : graph.getNode (HasEndpoints.sourceId edge) = some node)
    (htarget : graph.getNode (HasEndpoints.targetId edge) = some node') : (graph.addEdge edge).Linked where
  stored := h.stored
  adjacency id := by
    rw [AdjacencyGraphStore.addEdge, Dict.get_set, List.filter_append, List.map_append, ← h.adjacency id]
    split_ifs with hid
    · simp [hid]
    · simp [Ne.symm hid]
  ends e he := by
    rcases List.mem_append.mp he with he | he
    · exact h.ends e he
    · rw [List.mem_singleton.mp he]
      exact ⟨⟨node, hsource⟩, node', htarget⟩

lemma Linked.getNeighbors_eq (h : graph.Linked) (id : String) : graph.getNeighbors id =
    ((graph.edges.filter (HasEndpoints.sourceId · = id)).map HasEndpoints.targetId).filterMap graph.getNode := by
  rw [getNeighbors, h.adjacency]
  rfl

/-- **The neighbours of a node** are the targets of its edges. -/
lemma Linked.map_getNeighbors (h : graph.Linked) (id : String) : (graph.getNeighbors id).map HasId.id =
    (graph.edges.filter (HasEndpoints.sourceId · = id)).map HasEndpoints.targetId := by
  have hids (target : String) : (graph.getNode target).map HasId.id =
      if (graph.getNode target).isSome then some target else none := by
    cases htarget : graph.getNode target with
    | none => rfl
    | some node => rw [Option.map_some, h.stored htarget]; rfl
  rw [h.getNeighbors_eq, List.map_filterMap, List.filterMap_congr fun target _ => hids target]
  refine (List.filterMap_congr fun target htarget => if_pos ?_).trans List.filterMap_some
  obtain ⟨e, he, rfl⟩ := List.mem_map.mp htarget
  obtain ⟨-, node, hnode⟩ := h.ends e (List.mem_filter.mp he).1
  rw [hnode]
  rfl

end Linked

end AdjacencyGraphStore

/-! ### What is added to a graph -/

section Adds

variable {N E X : Type} [HasId N] {graph graph' graph'' : AdjacencyGraphStore N E}
  {nodes nodes' : List N} {edges edges' : List E}

/-- Write nodes, one after the other. -/
def writeNodes (nodes : List N) (written : Dict String N) : Dict String N :=
  nodes.foldl (fun written node => written.set (HasId.id node) node) written

/-- The nodes and the edges are added to the graph, in this order. -/
structure Adds (graph : AdjacencyGraphStore N E) (nodes : List N) (edges : List E)
    (graph' : AdjacencyGraphStore N E) : Prop where
  nodes : graph'.nodes = writeNodes nodes graph.nodes
  edges : graph'.edges = graph.edges ++ edges

lemma Adds.refl (graph : AdjacencyGraphStore N E) : Adds graph [] [] graph :=
  ⟨rfl, (List.append_nil _).symm⟩

lemma adds_addNode (graph : AdjacencyGraphStore N E) (node : N) :
    Adds graph [node] [] (graph.addNode node) :=
  ⟨rfl, (List.append_nil _).symm⟩

lemma adds_addEdge [HasEndpoints E] (graph : AdjacencyGraphStore N E) (edge : E) :
    Adds graph [] [edge] (graph.addEdge edge) := ⟨rfl, rfl⟩

lemma Adds.trans (h : Adds graph nodes edges graph') (h' : Adds graph' nodes' edges' graph'') :
    Adds graph (nodes ++ nodes') (edges ++ edges') graph'' where
  nodes := by rw [h'.nodes, h.nodes, writeNodes, writeNodes, writeNodes, List.foldl_append]
  edges := by rw [h'.edges, h.edges, List.append_assoc]

/-- A loop adds what its turns add. -/
lemma adds_foldl {f : AdjacencyGraphStore N E → X → AdjacencyGraphStore N E} {nodesOf : X → List N}
    {edgesOf : X → List E} (h : ∀ graph x, Adds graph (nodesOf x) (edgesOf x) (f graph x))
    (xs : List X) (graph : AdjacencyGraphStore N E) :
    Adds graph (xs.flatMap nodesOf) (xs.flatMap edgesOf) (xs.foldl f graph) := by
  induction xs generalizing graph with
  | nil => exact .refl graph
  | cons x xs ih => exact (h graph x).trans (ih (f graph x))

/-- The node under an identifier is the last one that was written there. -/
lemma get_writeNodes (nodes : List N) (written : Dict String N) (id : String) :
    (writeNodes nodes written).get id =
      (nodes.reverse.find? fun node => HasId.id node = id).or (written.get id) := by
  induction nodes using List.reverseRecOn with
  | nil => rfl
  | append_singleton nodes node ih =>
    rw [writeNodes, List.foldl_append, List.reverse_append]
    show (Dict.set (writeNodes nodes written) _ _).get id = _
    rw [Dict.get_set, ih, List.reverse_singleton, List.singleton_append, List.find?_cons]
    by_cases hid : id = HasId.id node
    · simp [hid]
    · simp [hid, Ne.symm hid]

/-- Nodes that others stand beside leave them as they are. -/
lemma get_writeNodes_filter (p : N → Bool) {id : String} (h : ∀ node ∈ nodes, HasId.id node = id → p node = true)
    (written : Dict String N) : (writeNodes nodes written).get id = (writeNodes (nodes.filter p) written).get id := by
  have hsame : nodes.reverse.filter (fun node => HasId.id node = id) =
      (nodes.filter p).reverse.filter (fun node => HasId.id node = id) := by
    rw [← List.filter_reverse, List.filter_filter]
    refine List.filter_congr fun node hnode => ?_
    by_cases hid : HasId.id node = id
    · simp [hid, h node (List.mem_reverse.mp hnode) hid]
    · simp [hid]
  rw [get_writeNodes, get_writeNodes, ← List.head?_filter, hsame, List.head?_filter]

/-- Nodes of different identifiers are all there. -/
lemma get_writeNodes_mem (h : (nodes.map HasId.id).Nodup) {node : N} (hnode : node ∈ nodes)
    (written : Dict String N) : (writeNodes nodes written).get (HasId.id node) = some node := by
  rw [get_writeNodes]
  have hfound : (nodes.reverse.find? fun node' => HasId.id node' = HasId.id node) = some node := by
    cases hfind : nodes.reverse.find? fun node' => HasId.id node' = HasId.id node with
    | none =>
      have hnone := List.find?_eq_none.mp hfind node (List.mem_reverse.mpr hnode)
      exact absurd (decide_eq_true rfl) hnone
    | some node' =>
      have hid := List.find?_some hfind
      have hnode' := List.mem_reverse.mp (List.mem_of_find?_eq_some hfind)
      exact congrArg some (List.inj_on_of_nodup_map h hnode' hnode (of_decide_eq_true hid))
  rw [hfound]
  rfl

end Adds

end Tmis.Core
