import Tmis.Ai.Rag
import Tmis.CaseIntelligence.Profile
import Tmis.LegalKnowledgeGraph.GraphCore

/-!
# Which nodes are the same

`legal_knowledge_graph.entity_resolution`: a match says that two nodes of the graph stand for one entity.
A decision on it is appended to its history, and a confirmation links the nodes in the graph.

* `EntityResolutionEngine` — histories and graph, and the calls;
* `Resolution`, `step` — runs, which also note what relation was made for what match;
* `Consistent` — one relation for a confirmed match, none for another;
* `Sound`, `sound_step` — what holds of runs whatever is decided in them;
* `decision_cases`, `consistent_step_iff` — what a call does, and when it keeps the relations consistent;
* `consistent_iff` — a run is consistent all along iff it never decides again on a confirmed match.
-/

namespace Tmis.LegalKnowledgeGraph

open Tmis.Lib
open Tmis.Ai (cosineSimilarity)
open Tmis.CaseIntelligence (CaseText)

inductive ResolutionStatus where
  | pending | confirmed | rejected
  deriving DecidableEq

structure ResolutionMatch (F : Type) where
  id : Uuid
  firmId : String
  nodeIdA : Uuid
  nodeIdB : Uuid
  score : F
  status : ResolutionStatus := .pending
  decidedBy : Option String := none

/-- The engine with its in-memory store and the graph; `proposed` counts the matches proposed so far. -/
structure EntityResolutionEngine (F : Type) where
  store : Dict Uuid (List (ResolutionMatch F)) := ∅
  graph : GraphEngine F := {}
  proposed : ℕ := 0

namespace EntityResolutionEngine

variable {F : Type}

/-! ### The store -/

section Store

variable (engine : EntityResolutionEngine F)

/-- `InMemoryResolutionMatchStore.save`. -/
def save (m : ResolutionMatch F) : EntityResolutionEngine F :=
  { engine with store := engine.store.set m.id ((engine.store.get m.id).getD [] ++ [m]) }

/-- The last version of a match, whoever it belongs to. -/
def latest (matchId : Uuid) : Option (ResolutionMatch F) :=
  ((engine.store.get matchId).getD []).getLast?

/-- `InMemoryResolutionMatchStore.get_latest`. -/
def getLatest (firmId : String) (matchId : Uuid) : Option (ResolutionMatch F) :=
  (engine.latest matchId).filter (·.firmId = firmId)

def get (firmId : String) (matchId : Uuid) : Except PyException (ResolutionMatch F) :=
  match engine.getLatest firmId matchId with
  | none => .error (keyError (toString matchId))
  | some found => .ok found

end Store

/-! ### The calls

`embed` is what the embedding provider answers. -/

section Calls

variable [PyFloat F] (text : CaseText) (engine : EntityResolutionEngine F)

/-- `_AUTO_CONFIRM_THRESHOLD`. -/
def autoConfirmThreshold : F := PyFloat.ofRat (98 / 100)

def score (firmId : String) (nodeIdA nodeIdB : Uuid)
    (embed : List String → Except PyException (List (List F))) : Except PyException F := do
  let nodeA ← engine.graph.getNode firmId nodeIdA
  let nodeB ← engine.graph.getNode firmId nodeIdB
  if text.normalizeName nodeA.label = text.normalizeName nodeB.label then
    return PyFloat.ofRat 1
  match ← embed [nodeA.label, nodeB.label] with
  | a :: b :: _ => cosineSimilarity a b
  | _ => .error ⟨"IndexError", "list index out of range"⟩

/-- `_link_as_same`. -/
def linkAsSame (firmId : String) (m : ResolutionMatch F) (explanation : String) :
    Except PyException (EntityResolutionEngine F) :=
  (engine.graph.link firmId m.nodeIdA m.nodeIdB .sameAs (some explanation) m.score).map
    fun (_, graph) => { engine with graph }

/-- The end of a call that confirms: the match is stored whether or not the nodes can be linked. -/
def saveConfirmed (firmId : String) (m : ResolutionMatch F) (explanation : String) :
    Except PyException (ResolutionMatch F) × EntityResolutionEngine F :=
  let saved := engine.save m
  match saved.linkAsSame firmId m explanation with
  | .error e => (.error e, saved)
  | .ok linked => (.ok m, linked)

def proposeMatch (firmId : String) (nodeIdA nodeIdB : Uuid)
    (embed : List String → Except PyException (List (List F))) :
    Except PyException (ResolutionMatch F) × EntityResolutionEngine F :=
  match engine.score text firmId nodeIdA nodeIdB embed with
  | .error e => (.error e, engine)
  | .ok score =>
    let status := if PyFloat.le autoConfirmThreshold score then .confirmed else .pending
    let m : ResolutionMatch F := { id := engine.proposed, firmId, nodeIdA, nodeIdB, score, status }
    let engine := { engine with proposed := engine.proposed + 1 }
    if status = .confirmed then
      engine.saveConfirmed firmId m "correspondance automatique (nom identique)"
    else (.ok m, engine.save m)

def confirm (firmId : String) (matchId : Uuid) (actor : String) :
    Except PyException (ResolutionMatch F) × EntityResolutionEngine F :=
  match engine.get firmId matchId with
  | .error e => (.error e, engine)
  | .ok found =>
    let confirmed := { found with status := .confirmed, decidedBy := some actor }
    engine.saveConfirmed firmId confirmed ("confirmé par " ++ actor)

def reject (firmId : String) (matchId : Uuid) (actor : String) :
    Except PyException (ResolutionMatch F) × EntityResolutionEngine F :=
  match engine.get firmId matchId with
  | .error e => (.error e, engine)
  | .ok found =>
    let rejected := { found with status := .rejected, decidedBy := some actor }
    (.ok rejected, engine.save rejected)

end Calls

/-! ### Runs -/

/-- A call of the engine, or of the graph by others. -/
inductive ResolutionOp (F : Type) where
  | proposeMatch (firmId : String) (nodeIdA nodeIdB : Uuid)
      (embed : List String → Except PyException (List (List F)))
  | confirm (firmId : String) (matchId : Uuid) (actor : String)
  | reject (firmId : String) (matchId : Uuid) (actor : String)
  | graph (op : GraphEngine.GraphOp F)

variable [PyFloat F]

def call (text : CaseText) (engine : EntityResolutionEngine F) : ResolutionOp F → EntityResolutionEngine F
  | .proposeMatch firmId nodeIdA nodeIdB embed =>
      (engine.proposeMatch text firmId nodeIdA nodeIdB embed).2
  | .confirm firmId matchId actor => (engine.confirm firmId matchId actor).2
  | .reject firmId matchId actor => (engine.reject firmId matchId actor).2
  | .graph op => { engine with graph := engine.graph.step op }

/-- The match a call is about. -/
def matchOf (engine : EntityResolutionEngine F) : ResolutionOp F → Option Uuid
  | .proposeMatch .. => some engine.proposed
  | .confirm _ matchId _ | .reject _ matchId _ => some matchId
  | .graph _ => none

end EntityResolutionEngine

/-! ### What was made for a match -/

/-- The relations of the second graph that the first one does not have. -/
def GraphEngine.newRelations {F : Type} (graph graph' : GraphEngine F) : List (KnowledgeRelation F) :=
  graph'.relations.values.filter fun r => (graph.relations.get r.id).isNone

/-- The engine, and for each relation that a call about a match has made, the match and the relation. -/
structure Resolution (F : Type) where
  engine : EntityResolutionEngine F := {}
  created : List (Uuid × Uuid) := []

namespace Resolution

open EntityResolutionEngine (ResolutionOp)

variable {F : Type}

def step [PyFloat F] (text : CaseText) (s : Resolution F) (op : ResolutionOp F) : Resolution F where
  engine := s.engine.call text op
  created := s.created ++ match s.engine.matchOf op with
    | none => []
    | some matchId =>
        (s.engine.graph.newRelations (s.engine.call text op).graph).map fun r => (matchId, r.id)

/-- How many relations of the graph say that two nodes are the same and were made for this match. -/
def sameAsCount (s : Resolution F) (matchId : Uuid) : ℕ :=
  s.engine.graph.relations.values.countP fun r => r.relationType = .sameAs ∧ (matchId, r.id) ∈ s.created

/-- There is one relation for a match whose last decision is a confirmation, and none for another. -/
def Consistent (s : Resolution F) : Prop :=
  ∀ matchId found, s.engine.latest matchId = some found →
    s.sameAsCount matchId = if found.status = .confirmed then 1 else 0

/-- The call does not decide on a match whose last decision is a confirmation. -/
def Undecided (s : Resolution F) : ResolutionOp F → Prop
  | .confirm firmId matchId _ | .reject firmId matchId _ =>
      ∀ found, s.engine.get firmId matchId = .ok found → found.status ≠ .confirmed
  | _ => True

/-! ### One step -/

variable {text : CaseText} {s : Resolution F}

/-- What holds of runs whatever is decided in them: matches are new when they are proposed and are of nodes
of the graph, and relations were made for matches. -/
structure Sound (s : Resolution F) : Prop where
  linked : s.engine.graph.Linked
  proposed : ∀ matchId found, s.engine.latest matchId = some found → matchId < s.engine.proposed
  nodes : ∀ matchId found, s.engine.latest matchId = some found → found.id = matchId ∧
    (∃ a, s.engine.graph.findNode found.firmId found.nodeIdA = some a) ∧
    ∃ b, s.engine.graph.findNode found.firmId found.nodeIdB = some b
  created : ∀ p ∈ s.created, p.1 < s.engine.proposed ∧ p.2 < s.engine.graph.uuids

lemma sound_empty : Sound ({} : Resolution F) where
  linked := GraphEngine.linked_empty
  proposed _ _ h := nomatch h
  nodes _ _ h := nomatch h
  created _ h := nomatch h

/-- **Counting after a relation is stored** that was made for the matches of `c`, if for any. -/
lemma sameAsCount_save (h : Sound s) (engine : EntityResolutionEngine F) {r : KnowledgeRelation F}
    (hr : r.id = s.engine.graph.uuids)
    (hrelations : engine.graph.relations = s.engine.graph.relations.save r) {c : List (Uuid × Uuid)}
    (hc : ∀ p ∈ c, p.2 = r.id) (matchId : Uuid) :
    sameAsCount ⟨engine, s.created ++ c⟩ matchId =
      s.sameAsCount matchId + (decide (r.relationType = .sameAs ∧ (matchId, r.id) ∈ c)).toNat := by
  have hnew : s.engine.graph.relations.get r.id = none := h.linked.relationsBelow.get_eq_none hr.ge
  unfold sameAsCount
  rw [hrelations, Store.countP_save_new _ hnew]
  congr 1
  · refine List.countP_congr fun r' hr' => ?_
    -- What was there before has another identifier.
    have hne : r'.id ≠ r.id := by
      intro heq
      have hfound := Store.mem_values_iff.mp hr'
      rw [heq, hnew] at hfound
      cases hfound
    have hnot : (matchId, r'.id) ∉ c := fun hmem => hne (hc _ hmem)
    rw [decide_eq_true_eq, decide_eq_true_eq, List.mem_append, or_iff_left hnot]
  · have hnot : (matchId, r.id) ∉ s.created := fun hmem => (hr ▸ (h.created _ hmem).2).ne rfl
    simp only [List.mem_append, hnot, false_or]

lemma newRelations_eq_nil {graph graph' : GraphEngine F} (h : graph'.relations = graph.relations) :
    graph.newRelations graph' = [] := by
  refine List.filter_eq_nil_iff.mpr fun r hr => ?_
  rw [h] at hr
  rw [Store.mem_values_iff.mp hr]
  exact Bool.false_ne_true

lemma newRelations_save {graph graph' : GraphEngine F} {r : KnowledgeRelation F}
    (hnew : graph.relations.get r.id = none) (h : graph'.relations = graph.relations.save r) :
    graph.newRelations graph' = [r] := by
  have hold := newRelations_eq_nil (F := F) (rfl : graph.relations = graph.relations)
  unfold GraphEngine.newRelations at hold ⊢
  rw [h, Store.values_save_new hnew, List.filter_append, hold, List.filter_cons_of_pos (by rw [hnew]; rfl)]
  rfl

/-- A decision on a match is noted, and made into a relation if it is a confirmation. -/
def decided (s : Resolution F) (m : ResolutionMatch F) (proposed : ℕ) (explanation : String) : Resolution F :=
  let saved := { s.engine with proposed }.save m
  if m.status = .confirmed then {
    engine := { saved with
      graph := s.engine.graph.step (.link m.firmId m.nodeIdA m.nodeIdB .sameAs (some explanation) m.score) }
    created := s.created ++ [(m.id, s.engine.graph.uuids)] }
  else { s with engine := saved }

/-- The match is new, or was found, and its ends are nodes of its firm. -/
structure Decides (s : Resolution F) (m : ResolutionMatch F) (proposed : ℕ) : Prop where
  known : (m.id = s.engine.proposed ∧ proposed = s.engine.proposed + 1) ∨
    (proposed = s.engine.proposed ∧ ∃ found, s.engine.latest m.id = some found)
  nodeA : ∃ a, s.engine.graph.findNode m.firmId m.nodeIdA = some a
  nodeB : ∃ b, s.engine.graph.findNode m.firmId m.nodeIdB = some b

lemma latest_save (engine : EntityResolutionEngine F) (m : ResolutionMatch F) (matchId : Uuid) :
    (engine.save m).latest matchId = if matchId = m.id then some m else engine.latest matchId := by
  unfold EntityResolutionEngine.latest EntityResolutionEngine.save
  rw [Dict.get_set]
  split_ifs with heq
  · exact List.getLast?_concat
  · rfl

/-- The link of a match whose ends are there. -/
lemma link_step {m : ResolutionMatch F} {proposed : ℕ} (h : Decides s m proposed) (explanation : Option String) :
    ∃ r : KnowledgeRelation F, r.id = s.engine.graph.uuids ∧ r.relationType = .sameAs ∧
      s.engine.graph.link m.firmId m.nodeIdA m.nodeIdB .sameAs explanation m.score =
        .ok (r, s.engine.graph.step (.link m.firmId m.nodeIdA m.nodeIdB .sameAs explanation m.score)) ∧
      (s.engine.graph.step (.link m.firmId m.nodeIdA m.nodeIdB .sameAs explanation m.score)).relations =
        s.engine.graph.relations.save r := by
  obtain ⟨a, ha⟩ := h.nodeA
  obtain ⟨b, hb⟩ := h.nodeB
  simp only [GraphEngine.step]
  rcases GraphEngine.link_cases s.engine.graph m.firmId m.nodeIdA m.nodeIdB .sameAs explanation m.score with
    ⟨e, -, hnone | hnone⟩ | ⟨source, target, explanation', -, -, hok⟩
  · rw [ha] at hnone
    cases hnone
  · rw [hb] at hnone
    cases hnone
  · rw [hok]
    exact ⟨_, rfl, rfl, rfl, rfl⟩

variable {m : ResolutionMatch F} {proposed : ℕ} {explanation : String}

lemma saveConfirmed_eq (h : Decides s m proposed) (hconfirmed : m.status = .confirmed) :
    ({ s.engine with proposed }.saveConfirmed m.firmId m explanation).2 =
      (s.decided m proposed explanation).engine := by
  obtain ⟨r, -, -, hlink, -⟩ := link_step h (some explanation)
  rw [decided, if_pos hconfirmed]
  simp only [EntityResolutionEngine.saveConfirmed, EntityResolutionEngine.linkAsSame,
    EntityResolutionEngine.save, hlink, Except.map]

/-- The relation that a call has made is noted with its match. -/
lemma step_eq_decided [PyFloat F] (h : Sound s) (hdecides : Decides s m proposed) {op : ResolutionOp F}
    (hmatch : s.engine.matchOf op = some m.id)
    (hcall : s.engine.call text op = (s.decided m proposed explanation).engine) :
    s.step text op = s.decided m proposed explanation := by
  unfold step
  rw [hmatch, hcall]
  unfold decided
  split
  · obtain ⟨r, hr, -, -, hrelations⟩ := link_step hdecides (some explanation)
    have hnew := h.linked.relationsBelow.get_eq_none hr.ge
    simp only [newRelations_save hnew hrelations, List.map_singleton, hr]
  · simp only [EntityResolutionEngine.save, newRelations_eq_nil, List.map_nil, List.append_nil]

lemma get_eq_ok {firmId : String} {matchId : Uuid} {found : ResolutionMatch F} :
    s.engine.get firmId matchId = .ok found ↔
      s.engine.latest matchId = some found ∧ found.firmId = firmId := by
  have hlatest : s.engine.getLatest firmId matchId = some found ↔
      s.engine.latest matchId = some found ∧ found.firmId = firmId := by
    rw [EntityResolutionEngine.getLatest, Option.filter_eq_some_iff, decide_eq_true_eq]
  rw [← hlatest]
  unfold EntityResolutionEngine.get
  cases s.engine.getLatest firmId matchId <;> simp

lemma nodes_of_score [PyFloat F] {firmId : String} {nodeIdA nodeIdB : Uuid}
    {embed : List String → Except PyException (List (List F))} {score : F}
    (h : s.engine.score text firmId nodeIdA nodeIdB embed = .ok score) :
    (∃ a, s.engine.graph.findNode firmId nodeIdA = some a) ∧
      ∃ b, s.engine.graph.findNode firmId nodeIdB = some b := by
  obtain ⟨a, ha, h⟩ := bind_eq_ok.mp h
  obtain ⟨b, hb, -⟩ := bind_eq_ok.mp h
  exact ⟨⟨a, GraphEngine.getNode_eq_ok.mp ha⟩, b, GraphEngine.getNode_eq_ok.mp hb⟩

section Found

variable {firmId : String} {matchId : Uuid} {found : ResolutionMatch F}

lemma decides_of_get (h : Sound s) (hget : s.engine.get firmId matchId = .ok found)
    (status : ResolutionStatus) (actor : String) :
    Decides s { found with status, decidedBy := some actor } s.engine.proposed := by
  obtain ⟨hlatest, -⟩ := get_eq_ok.mp hget
  obtain ⟨rfl, hA, hB⟩ := h.nodes _ _ hlatest
  exact ⟨Or.inr ⟨rfl, found, hlatest⟩, hA, hB⟩

lemma undecided_iff (hget : s.engine.get firmId matchId = .ok found) :
    (∀ found, s.engine.get firmId matchId = .ok found → found.status ≠ .confirmed) ↔
      ∀ found, s.engine.latest matchId = some found → found.status ≠ .confirmed := by
  obtain ⟨hlatest, hfirm⟩ := get_eq_ok.mp hget
  rw [hget, hlatest]
  simp

end Found

/-! ### What a decision leaves -/

lemma latest_decided (s : Resolution F) (m : ResolutionMatch F) (proposed : ℕ) (explanation : String)
    (matchId : Uuid) :
    (s.decided m proposed explanation).engine.latest matchId =
      if matchId = m.id then some m else s.engine.latest matchId := by
  have hsaved := latest_save { s.engine with proposed } m matchId
  unfold decided
  split <;> exact hsaved

lemma proposed_decided (s : Resolution F) (m : ResolutionMatch F) (proposed : ℕ) (explanation : String) :
    (s.decided m proposed explanation).engine.proposed = proposed := by
  unfold decided
  split <;> rfl

/-- The graph after a decision is the one before, or has been linked. -/
lemma graph_decided (s : Resolution F) (m : ResolutionMatch F) (proposed : ℕ) (explanation : String) :
    (s.decided m proposed explanation).engine.graph = s.engine.graph ∨
      ∃ gop, (s.decided m proposed explanation).engine.graph = s.engine.graph.step gop := by
  unfold decided
  split
  · exact Or.inr ⟨.link m.firmId m.nodeIdA m.nodeIdB .sameAs (some explanation) m.score, rfl⟩
  · exact Or.inl rfl

/-- Ends of matches stay nodes. -/
lemma Sound.nodes_kept (h : Sound s) {graph : GraphEngine F}
    (hgraph : graph = s.engine.graph ∨ ∃ gop, graph = s.engine.graph.step gop) {firmId : String} {nodeId : Uuid}
    (hnode : ∃ node, s.engine.graph.findNode firmId nodeId = some node) :
    ∃ node, graph.findNode firmId nodeId = some node := by
  obtain ⟨node, hnode⟩ := hnode
  rcases hgraph with rfl | ⟨gop, rfl⟩
  · exact ⟨node, hnode⟩
  · exact ⟨node, GraphEngine.findNode_step h.linked gop hnode⟩

lemma sound_decided (h : Sound s) (hdecides : Decides s m proposed) (explanation : String) :
    Sound (s.decided m proposed explanation) := by
  have hgraph := graph_decided s m proposed explanation
  have hle : s.engine.proposed ≤ proposed := by
    rcases hdecides.known with ⟨-, rfl⟩ | ⟨rfl, -⟩
    · exact Nat.le_succ _
    · exact Nat.le_refl _
  have hid : m.id < proposed := by
    rcases hdecides.known with ⟨hid, rfl⟩ | ⟨rfl, found, hfound⟩
    · exact hid ▸ Nat.lt_succ_self _
    · exact h.proposed _ _ hfound
  refine ⟨?_, fun matchId found hfound => ?_, fun matchId found hfound => ?_, fun p hp => ?_⟩
  · rcases hgraph with heq | ⟨gop, heq⟩
    · exact heq ▸ h.linked
    · exact heq ▸ GraphEngine.linked_step h.linked gop
  · rw [latest_decided] at hfound
    rw [proposed_decided]
    split_ifs at hfound with heq
    · exact heq ▸ hid
    · exact (h.proposed _ _ hfound).trans_le hle
  · rw [latest_decided] at hfound
    split_ifs at hfound with heq
    · obtain rfl := Option.some.inj hfound
      exact ⟨heq.symm, h.nodes_kept hgraph hdecides.nodeA, h.nodes_kept hgraph hdecides.nodeB⟩
    · obtain ⟨hfoundId, hA, hB⟩ := h.nodes _ _ hfound
      exact ⟨hfoundId, h.nodes_kept hgraph hA, h.nodes_kept hgraph hB⟩
  · rw [proposed_decided]
    unfold decided at hp ⊢
    split at hp
    · rename_i hconfirmed
      rw [if_pos hconfirmed]
      rcases List.mem_append.mp hp with hp | hp
      · obtain ⟨hmatch, hrelation⟩ := h.created p hp
        exact ⟨hmatch.trans_le hle, hrelation.trans_le (GraphEngine.uuids_le_step _ _)⟩
      · obtain rfl := List.mem_singleton.mp hp
        obtain ⟨r, hr, -, -, hrelations⟩ := link_step hdecides (some explanation)
        refine ⟨hid, ?_⟩
        -- The relation that was stored has an identifier that was drawn.
        have hbelow := (GraphEngine.linked_step h.linked
          (.link m.firmId m.nodeIdA m.nodeIdB .sameAs (some explanation) m.score)).relationsBelow
        rw [hrelations] at hbelow
        exact hr ▸ hbelow _ _ (Store.get_save_self ..)
    · rename_i hconfirmed
      rw [if_neg hconfirmed]
      obtain ⟨hmatch, hrelation⟩ := h.created p hp
      exact ⟨hmatch.trans_le hle, hrelation⟩

lemma sound_graph (h : Sound s) (gop : GraphEngine.GraphOp F) :
    Sound { s with engine.graph := s.engine.graph.step gop } where
  linked := GraphEngine.linked_step h.linked gop
  proposed := h.proposed
  nodes matchId found hfound := by
    obtain ⟨hid, hA, hB⟩ := h.nodes matchId found hfound
    exact ⟨hid, h.nodes_kept (Or.inr ⟨gop, rfl⟩) hA, h.nodes_kept (Or.inr ⟨gop, rfl⟩) hB⟩
  created p hp := ⟨(h.created p hp).1, (h.created p hp).2.trans_le (GraphEngine.uuids_le_step _ _)⟩

/-- Relations that others store are made for no match. -/
lemma sameAsCount_graph (h : Sound s) (gop : GraphEngine.GraphOp F) (matchId : Uuid) :
    sameAsCount { s with engine.graph := s.engine.graph.step gop } matchId = s.sameAsCount matchId := by
  cases gop with
  | addNode firmId nodeType refId label => rfl
  | link firmId sourceId targetId relationType explanation confidence =>
    simp only [GraphEngine.step]
    rcases GraphEngine.link_cases s.engine.graph firmId sourceId targetId relationType explanation
      confidence with ⟨e, herror, -⟩ | ⟨source, target, explanation', -, -, hok⟩
    · rw [herror]
      rfl
    · rw [hok]
      have hcount := sameAsCount_save (c := []) h
        { s.engine with graph := { s.engine.graph with
          relations := s.engine.graph.relations.save _, uuids := s.engine.graph.uuids + 1 } }
        (r := ⟨s.engine.graph.uuids, firmId, sourceId, targetId, relationType, explanation', confidence⟩)
        rfl rfl (fun p hp => absurd hp List.not_mem_nil) matchId
      simp only [List.append_nil, List.not_mem_nil, and_false, decide_false, Bool.toNat_false, Nat.add_zero]
        at hcount
      exact hcount

/-- A confirmation adds a relation for its match. -/
lemma sameAsCount_decided (h : Sound s) (hdecides : Decides s m proposed) (explanation : String)
    (matchId : Uuid) :
    (s.decided m proposed explanation).sameAsCount matchId =
      s.sameAsCount matchId + if m.status = .confirmed ∧ matchId = m.id then 1 else 0 := by
  unfold decided
  split
  · rename_i hconfirmed
    obtain ⟨r, hr, htype, -, hrelations⟩ := link_step hdecides (some explanation)
    rw [← hr, sameAsCount_save h _ hr hrelations (by simp)]
    by_cases heq : matchId = m.id <;> simp [htype, hconfirmed, heq]
  · rename_i hconfirmed
    rw [if_neg fun hboth => hconfirmed hboth.1]
    rfl

/-- No relation was made yet for a match that is new. -/
lemma sameAsCount_new (h : Sound s) : s.sameAsCount s.engine.proposed = 0 := by
  refine List.countP_eq_zero.mpr fun r _ => ?_
  rw [decide_eq_true_eq]
  rintro ⟨-, hmem⟩
  exact Nat.lt_irrefl _ (h.created _ hmem).1

/-- A decision on a match leaves one relation for it if it is a confirmation, and none otherwise, iff it was
not confirmed before. -/
lemma consistent_decided_iff (h : Sound s) (hs : s.Consistent) (hdecides : Decides s m proposed)
    (explanation : String) : (s.decided m proposed explanation).Consistent ↔
      ∀ found, s.engine.latest m.id = some found → found.status ≠ .confirmed := by
  constructor
  · intro hconsistent found hfound hconfirmed
    have hcount := hconsistent m.id m (by rw [latest_decided, if_pos rfl])
    rw [sameAsCount_decided h hdecides, hs _ _ hfound, if_pos hconfirmed] at hcount
    split_ifs at hcount <;> simp_all
  · intro hundecided matchId found hfound
    rw [latest_decided] at hfound
    rw [sameAsCount_decided h hdecides]
    split_ifs at hfound with heq
    · obtain rfl := Option.some.inj hfound
      have hzero : s.sameAsCount m.id = 0 := by
        rcases hdecides.known with ⟨hid, -⟩ | ⟨-, found, hfound⟩
        · rw [hid, sameAsCount_new h]
        · rw [hs _ _ hfound, if_neg (hundecided found hfound)]
      rw [heq, hzero, Nat.zero_add]
      simp
    · rw [if_neg fun hboth : _ ∧ _ => heq hboth.2, Nat.add_zero, hs _ _ hfound]

/-! ### Consistency -/

variable [PyFloat F]

/-- **What a call does**: nothing, or it changes the graph for others, or it decides on a match. -/
theorem decision_cases (text : CaseText) (h : Sound s) (op : ResolutionOp F) :
    (s.step text op = s ∧ s.Undecided op) ∨
    (∃ gop, s.step text op = { s with engine.graph := s.engine.graph.step gop } ∧ s.Undecided op) ∨
    ∃ m proposed explanation, Decides s m proposed ∧ s.step text op = s.decided m proposed explanation ∧
      (s.Undecided op ↔ ∀ found, s.engine.latest m.id = some found → found.status ≠ .confirmed) := by
  have hsame {op : ResolutionOp F} (hcall : s.engine.call text op = s.engine) : s.step text op = s := by
    unfold step
    rw [hcall]
    cases s.engine.matchOf op <;> simp [newRelations_eq_nil]
  cases op with
  | graph gop =>
    refine Or.inr (Or.inl ⟨gop, ?_, trivial⟩)
    simp only [step, EntityResolutionEngine.matchOf, EntityResolutionEngine.call, List.append_nil]
  | proposeMatch firmId nodeIdA nodeIdB embed =>
    cases hscore : s.engine.score text firmId nodeIdA nodeIdB embed with
    | error e =>
      refine Or.inl ⟨hsame ?_, trivial⟩
      simp only [EntityResolutionEngine.call, EntityResolutionEngine.proposeMatch, hscore]
    | ok score =>
      obtain ⟨hA, hB⟩ := nodes_of_score hscore
      have hnew : s.engine.latest s.engine.proposed = none := by
        cases hlatest : s.engine.latest s.engine.proposed with
        | none => rfl
        | some found => exact absurd (h.proposed _ _ hlatest) (Nat.lt_irrefl _)
      refine Or.inr (Or.inr ⟨⟨s.engine.proposed, firmId, nodeIdA, nodeIdB, score,
        if PyFloat.le EntityResolutionEngine.autoConfirmThreshold score then .confirmed else .pending, none⟩,
        s.engine.proposed + 1, "correspondance automatique (nom identique)",
        ⟨Or.inl ⟨rfl, rfl⟩, hA, hB⟩, step_eq_decided h ⟨Or.inl ⟨rfl, rfl⟩, hA, hB⟩ rfl ?_, ?_⟩)
      · simp only [EntityResolutionEngine.call, EntityResolutionEngine.proposeMatch, hscore]
        generalize (if PyFloat.le EntityResolutionEngine.autoConfirmThreshold score then
          ResolutionStatus.confirmed else .pending) = status
        split_ifs with hconfirmed
        · exact saveConfirmed_eq (m := ⟨_, _, _, _, _, status, _⟩) ⟨Or.inl ⟨rfl, rfl⟩, hA, hB⟩ hconfirmed
        · rw [decided, if_neg hconfirmed]
      · refine iff_of_true trivial fun found hfound => ?_
        rw [hnew] at hfound
        cases hfound
  | confirm firmId matchId actor =>
    cases hget : s.engine.get firmId matchId with
    | error e =>
      refine Or.inl ⟨hsame ?_, fun found hfound => ?_⟩
      · simp only [EntityResolutionEngine.call, EntityResolutionEngine.confirm, hget]
      · rw [hget] at hfound
        cases hfound
    | ok found =>
      have hdecides := decides_of_get h hget .confirmed actor
      obtain ⟨hlatest, rfl⟩ := get_eq_ok.mp hget
      obtain ⟨rfl, -⟩ := h.nodes _ _ hlatest
      refine Or.inr (Or.inr ⟨_, _, "confirmé par " ++ actor, hdecides,
        step_eq_decided h hdecides rfl ?_, undecided_iff hget⟩)
      simp only [EntityResolutionEngine.call, EntityResolutionEngine.confirm, hget]
      exact saveConfirmed_eq hdecides rfl
  | reject firmId matchId actor =>
    cases hget : s.engine.get firmId matchId with
    | error e =>
      refine Or.inl ⟨hsame ?_, fun found hfound => ?_⟩
      · simp only [EntityResolutionEngine.call, EntityResolutionEngine.reject, hget]
      · rw [hget] at hfound
        cases hfound
    | ok found =>
      have hdecides := decides_of_get h hget .rejected actor
      obtain ⟨hlatest, rfl⟩ := get_eq_ok.mp hget
      obtain ⟨rfl, -⟩ := h.nodes _ _ hlatest
      refine Or.inr (Or.inr ⟨_, _, "", hdecides, step_eq_decided h hdecides rfl ?_, undecided_iff hget⟩)
      simp only [EntityResolutionEngine.call, EntityResolutionEngine.reject, hget]
      rfl

/-- **The step lemma for what holds anyway.** -/
theorem sound_step (text : CaseText) (h : Sound s) (op : ResolutionOp F) : Sound (s.step text op) := by
  rcases decision_cases text h op with ⟨heq, -⟩ | ⟨gop, heq, -⟩ | ⟨m, proposed, explanation, hdecides, heq, -⟩
  · rwa [heq]
  · rw [heq]
    exact sound_graph h gop
  · rw [heq]
    exact sound_decided h hdecides explanation

/-- **The step lemma**: a call keeps the relations consistent iff it decides on no confirmed match. -/
theorem consistent_step_iff (text : CaseText) (h : Sound s) (hs : s.Consistent) (op : ResolutionOp F) :
    (s.step text op).Consistent ↔ s.Undecided op := by
  rcases decision_cases text h op with ⟨heq, hundecided⟩ | ⟨gop, heq, hundecided⟩ |
    ⟨m, proposed, explanation, hdecides, heq, hundecided⟩
  · rw [heq]
    exact iff_of_true hs hundecided
  · rw [heq]
    exact iff_of_true (fun matchId found hfound => (sameAsCount_graph h gop matchId).trans (hs _ _ hfound))
      hundecided
  · rw [heq, hundecided]
    exact consistent_decided_iff h hs hdecides explanation

/-- **The condition**: all along a run, there is one relation for every match whose last decision is a
confirmation and none for another, iff no decision is ever made on a match that is confirmed. -/
theorem consistent_iff (text : CaseText) (ops : List (ResolutionOp F)) :
    Along (step text) (fun s op => Consistent (s.step text op)) {} ops ↔
      Along (step text) Undecided {} ops := by
  refine along_congr (I := fun s => Sound s ∧ Consistent s) ⟨sound_empty, fun _ _ hfound => nomatch hfound⟩
    (fun s op h hop => ⟨sound_step text h.1 op, (consistent_step_iff text h.1 h.2 op).mpr hop⟩)
    fun s op h => consistent_step_iff text h.1 h.2 op

omit [PyFloat F] in
lemma not_consistent_of (matchId : Uuid) (status : ResolutionStatus)
    (hstatus : (s.engine.latest matchId).map ResolutionMatch.status = some status)
    (hcount : s.sameAsCount matchId ≠ if status = .confirmed then 1 else 0) : ¬ Consistent s := by
  intro h
  obtain ⟨found, hfound, rfl⟩ := Option.map_eq_some_iff.mp hstatus
  exact hcount (h matchId found hfound)

/-- Two nodes of one name are matched, and linked at once.  A lawyer who confirms the match links them again;
one who rejects it leaves the link. -/
theorem decided_again :
    let matched : List (ResolutionOp ℚ) := [
      .graph (.addNode "firm-a" .legalEntity "ko-1" "ACME Corp SARL"),
      .graph (.addNode "firm-a" .legalEntity "ko-2" "acme corp sarl"),
      .proposeMatch "firm-a" 0 1 fun _ => .ok []]
    ¬ Consistent (run (step CaseText.ascii) {} (matched ++ [.confirm "firm-a" 0 "Camille Lefèvre"])) ∧
      ¬ Consistent (run (step CaseText.ascii) {} (matched ++ [.reject "firm-a" 0 "Camille Lefèvre"])) :=
  ⟨not_consistent_of 0 .confirmed (by decide +kernel) (by decide +kernel),
    not_consistent_of 0 .rejected (by decide +kernel) (by decide +kernel)⟩

end Resolution

end Tmis.LegalKnowledgeGraph
