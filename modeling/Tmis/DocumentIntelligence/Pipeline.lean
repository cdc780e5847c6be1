import Tmis.Lib.Dict
import Tmis.Lib.Coroutines

/-!
# The document pipeline

`document_intelligence.pipeline`: a document goes through fourteen stages, each of which may raise, and events tell how
far it has come.  Several documents are processed at once: at each `await` another one may go on.

* `Services` — the ports that the stages are behind;
* `process` — the stages, and the events between them;
* `Follows` — what a task has still to publish, and that it stores a record only with the last event;
* `published_run` — whatever the turns are, a document's events come in their order, up to the stage that raised;
* `stored_run` — and what is stored is what went through all the stages;
* `Written` — the graph, as the knowledge stages have made it.
-/

namespace Tmis.DocumentIntelligence.Pipeline

open Tmis.Lib

structure OcrResult (Confidence : Type) where
  text : String
  confidence : Confidence

/-- The ports: what they take and give back, or raise. -/
structure Services where
  (Ingested Confidence LayoutBlock Classification Metadata Entity TimelineEvent Chunk Index Graph : Type)
  validate : (filename : String) → List UInt8 → Except PyException Unit
  scan : (filename : String) → List UInt8 → Except PyException Unit
  parse : (documentId filename contentType : String) → List UInt8 → Except PyException Ingested
  extractText : Ingested → Except PyException (OcrResult Confidence)
  detect : String → Except PyException (Option String)
  analyze : String → Except PyException (List LayoutBlock)
  classify : String → Except PyException Classification
  extractMetadata : Ingested → OcrResult Confidence → (language : Option String) → (source : String) →
    Except PyException Metadata
  extractEntities : String → Except PyException (List Entity)
  buildTimeline : (documentId text : String) → List Entity → Except PyException (List TimelineEvent)
  chunk : (documentId text : String) → List LayoutBlock → Except PyException (List Chunk)
  chunkId : Chunk → String
  embedAndIndex : List Chunk → Index → Except PyException Unit × Index
  updateKnowledge : (documentId filename : String) → List LayoutBlock → List Entity → List TimelineEvent →
    List Chunk → Graph → Except PyException Unit × Graph
  nodeCount : Graph → ℕ

inductive EventDetail (V : Services) where
  | documentUploaded (filename : String) (caseId : Option String)
  | ocrCompleted (confidence : V.Confidence)
  | layoutDetected (blockCount : ℕ)
  | metadataExtracted
  | entitiesExtracted (entityCount : ℕ)
  | timelineBuilt (eventCount : ℕ)
  | embeddingsCreated (chunkCount : ℕ)
  | knowledgeUpdated (nodeCount : ℕ)
  | documentProcessed (success : Bool) (caseId firmId : Option String)

/-- `Event.event_type`. -/
def EventDetail.eventType {V : Services} : EventDetail V → String
  | .documentUploaded .. => "DocumentUploaded"
  | .ocrCompleted _ => "OCRCompleted"
  | .layoutDetected _ => "LayoutDetected"
  | .metadataExtracted => "MetadataExtracted"
  | .entitiesExtracted _ => "EntitiesExtracted"
  | .timelineBuilt _ => "TimelineBuilt"
  | .embeddingsCreated _ => "EmbeddingsCreated"
  | .knowledgeUpdated _ => "KnowledgeUpdated"
  | .documentProcessed .. => "DocumentProcessed"

/-- The identifiers of runs are numbered in the order in which they are drawn. -/
structure Event (V : Services) where
  workflowId : ℕ
  documentId : String
  detail : EventDetail V

inductive ProcessingStatus where
  | received | validated | scanned | ocrDone | structured | classified | metadataExtracted | entitiesExtracted
  | timelineBuilt | chunked | embedded | knowledgeUpdated | stored | processed | failed
  deriving DecidableEq

structure DocumentRecord (V : Services) where
  documentId : String
  filename : String
  status : ProcessingStatus
  rawBytes : List UInt8
  ocrText : String
  layoutBlocks : List V.LayoutBlock
  classification : V.Classification
  metadata : V.Metadata
  entities : List V.Entity
  timelineEvents : List V.TimelineEvent
  chunkIds : List String

structure StageMetric where
  stage : String
  success : Bool
  error : Option String := none
  deriving DecidableEq

structure PipelineMetrics (V : Services) where
  documentId : String
  stageMetrics : List StageMetric
  ocrConfidence : V.Confidence
  entityCount : ℕ
  chunkCount : ℕ
  knowledgeNodeCount : ℕ

/-- What the pipeline shares: the history of its bus, its store, its evaluator, its index and its graph. -/
structure State (V : Services) where
  history : List (Event V) := []
  records : Dict String (DocumentRecord V) := ∅
  metrics : List (PipelineMetrics V) := []
  index : V.Index
  graph : V.Graph

/-- The arguments of `process`, with the identifier that is drawn if none is given. -/
structure Call where
  filename : String
  contentType : String
  rawBytes : List UInt8
  given : Option String := none
  drawn : String
  source : String := "upload"
  caseId : Option String := none
  firmId : Option String := none

/-- `document_id or str(uuid.uuid4())`. -/
def Call.documentId (call : Call) : String :=
  match call.given with
  | some id => if id = "" then call.drawn else id
  | none => call.drawn

/-- What the handlers of an event come to; one of them may raise. -/
abbrev Handlers (V : Services) := Event V → Except PyException Unit

variable {V : Services}

/-! ### The stages -/

def passed (name : String) : StageMetric := { stage := name, success := true }

/-- A stage.  The list of the metrics goes with the call: what a stage that raises adds to it, nobody reads. -/
def stage {α : Type} (name : String) (result : Except PyException α) (stages : List StageMetric) :
    Coroutine (State V) (α × List StageMetric) :=
  .ended (result.map fun a => (a, stages ++ [passed name]))

/-- A stage that works on what the pipeline shares. -/
def stageOn {α : Type} (name : String) (f : State V → Except PyException α × State V) (stages : List StageMetric) :
    Coroutine (State V) (α × List StageMetric) := do
  let a ← Coroutine.atomically f
  stage name (.ok a) stages

def embed (V : Services) (chunks : List V.Chunk) (s : State V) : Except PyException Unit × State V :=
  let (result, index) := V.embedAndIndex chunks s.index
  (result, { s with index })

def updateGraph (V : Services) (call : Call) (layoutBlocks : List V.LayoutBlock) (entities : List V.Entity)
    (timelineEvents : List V.TimelineEvent) (chunks : List V.Chunk) (s : State V) :
    Except PyException Unit × State V :=
  let (result, graph) :=
    V.updateKnowledge call.documentId call.filename layoutBlocks entities timelineEvents chunks s.graph
  (result, { s with graph })

/-- `EventBus.publish`: the event is in the history before its handlers are called. -/
def publish (handlers : Handlers V) (workflowId : ℕ) (call : Call) (detail : EventDetail V) : Coroutine (State V) Unit :=
  .atomically fun s =>
    let event : Event V := ⟨workflowId, call.documentId, detail⟩
    (handlers event, { s with history := s.history ++ [event] })

/-- `node_count`, of the graph as it is. -/
def nodeCount (V : Services) : Coroutine (State V) ℕ := .atomically fun s => (.ok (V.nodeCount s.graph), s)

/-- The last stage, the evaluation and the last event: there is no `await` between them. -/
def finish (handlers : Handlers V) (workflowId : ℕ) (call : Call) (record : DocumentRecord V)
    (stages : List StageMetric) (ocrConfidence : V.Confidence) (entityCount chunkCount : ℕ) : Coroutine (State V) Unit :=
  .atomically fun s =>
    let event : Event V := ⟨workflowId, call.documentId, .documentProcessed true call.caseId call.firmId⟩
    (handlers event,
      { s with
        records := s.records.set record.documentId record
        metrics := s.metrics ++ [⟨call.documentId, stages ++ [passed "storage"], ocrConfidence, entityCount,
          chunkCount, V.nodeCount s.graph⟩]
        history := s.history ++ [event] })

def process (handlers : Handlers V) (workflowId : ℕ) (call : Call) : Coroutine (State V) (DocumentRecord V) := do
  publish handlers workflowId call (.documentUploaded call.filename call.caseId)
  let (_, stages) ← stage "validation" (V.validate call.filename call.rawBytes) []
  let (_, stages) ← stage "virus_scan" (V.scan call.filename call.rawBytes) stages
  let (ingested, stages) ← stage "ingestion"
    (V.parse call.documentId call.filename call.contentType call.rawBytes) stages
  let (ocrResult, stages) ← stage "ocr" (V.extractText ingested) stages
  publish handlers workflowId call (.ocrCompleted ocrResult.confidence)
  let (language, stages) ← stage "language_detection" (V.detect ocrResult.text) stages
  let (layoutBlocks, stages) ← stage "layout" (V.analyze ocrResult.text) stages
  publish handlers workflowId call (.layoutDetected layoutBlocks.length)
  let (classification, stages) ← stage "classification" (V.classify ocrResult.text) stages
  let (metadata, stages) ← stage "metadata" (V.extractMetadata ingested ocrResult language call.source) stages
  publish handlers workflowId call .metadataExtracted
  let (entities, stages) ← stage "entities" (V.extractEntities ocrResult.text) stages
  publish handlers workflowId call (.entitiesExtracted entities.length)
  let (timelineEvents, stages) ← stage "timeline" (V.buildTimeline call.documentId ocrResult.text entities) stages
  publish handlers workflowId call (.timelineBuilt timelineEvents.length)
  let (chunks, stages) ← stage "chunking" (V.chunk call.documentId ocrResult.text layoutBlocks) stages
  let (_, stages) ← stageOn "embeddings" (embed V chunks) stages
  publish handlers workflowId call (.embeddingsCreated chunks.length)
  let (_, stages) ← stageOn "knowledge" (updateGraph V call layoutBlocks entities timelineEvents chunks) stages
  let count ← nodeCount V
  publish handlers workflowId call (.knowledgeUpdated count)
  let record : DocumentRecord V :=
    { documentId := call.documentId, filename := call.filename, status := .processed, rawBytes := call.rawBytes,
      ocrText := ocrResult.text, layoutBlocks, classification, metadata, entities, timelineEvents,
      chunkIds := chunks.map V.chunkId }
  finish handlers workflowId call record stages ocrResult.confidence entities.length chunks.length
  return record

/-! ### What a task has still to publish -/

/-- The events of a document that goes through all the stages. -/
def eventOrder : List String :=
  ["DocumentUploaded", "OCRCompleted", "LayoutDetected", "MetadataExtracted", "EntitiesExtracted", "TimelineBuilt",
    "EmbeddingsCreated", "KnowledgeUpdated", "DocumentProcessed"]

def stageOrder : List String :=
  ["validation", "virus_scan", "ingestion", "ocr", "language_detection", "layout", "classification", "metadata",
    "entities", "timeline", "chunking", "embeddings", "knowledge", "storage"]

/-- The record is of this call. -/
structure DocumentRecord.Of (record : DocumentRecord V) (call : Call) : Prop where
  documentId : record.documentId = call.documentId
  filename : record.filename = call.filename
  rawBytes : record.rawBytes = call.rawBytes
  status : record.status = .processed

/-- What the knowledge stage of a call makes of the graph. -/
def Writes (call : Call) (graph graph' : V.Graph) : Prop :=
  ∃ text layoutBlocks entities timelineEvents chunks, V.chunk call.documentId text layoutBlocks = .ok chunks ∧
    graph' = (V.updateKnowledge call.documentId call.filename layoutBlocks entities timelineEvents chunks graph).2

/-- What the call with the number `i` has done to what is shared, when it has published `new`: with the last event, and
only with it, a record is stored and the metrics of all the stages are. -/
structure Effect (i : ℕ) (call : Call) (new : List String) (s s' : State V) : Prop where
  events : ∃ events, s'.history = s.history ++ events ∧ events.map (·.detail.eventType) = new ∧
    ∀ e ∈ events, e.workflowId = i ∧ e.documentId = call.documentId
  stored : ("DocumentProcessed" ∉ new ∧ s'.records = s.records ∧ s'.metrics = s.metrics) ∨
    (new = ["DocumentProcessed"] ∧ ∃ record m, record.Of call ∧ m.documentId = call.documentId ∧
      m.stageMetrics = stageOrder.map passed ∧ s'.records = s.records.set call.documentId record ∧
      s'.metrics = s.metrics ++ [m])
  graph : s'.graph = s.graph ∨ Writes call s.graph s'.graph

/-- The events that are due, in their order, unless something raises. -/
def Follows (i : ℕ) (call : Call) : Coroutine (State V) (DocumentRecord V) → (due : List String) → Prop
  | .ended (.ok record), due => due = [] ∧ record.Of call
  | .ended (.error _), _ => True
  | .act next rest, due => ∀ s, ∃ new due', due = new ++ due' ∧ Effect i call new s (next s) ∧
      Follows i call (rest s) due'

section Follows

variable {i : ℕ} {call : Call} {handlers : Handlers V} {stages : List StageMetric} {due : List String}

/-- Nothing is published, nor stored. -/
lemma effect_nil {s s' : State V} (hhistory : s'.history = s.history) (hrecords : s'.records = s.records)
    (hmetrics : s'.metrics = s.metrics) (hgraph : s'.graph = s.graph ∨ Writes call s.graph s'.graph) :
    Effect i call [] s s' where
  events := ⟨[], by rw [hhistory, List.append_nil], rfl, nofun⟩
  stored := Or.inl ⟨List.not_mem_nil, hrecords, hmetrics⟩
  graph := hgraph

lemma follows_stage {α : Type} {name : String} {result : Except PyException α}
    {go : α × List StageMetric → Coroutine (State V) (DocumentRecord V)}
    (h : ∀ a, result = .ok a → Follows i call (go (a, stages ++ [passed name])) due) :
    Follows i call (stage name result stages >>= go) due := by
  cases result with
  | error e => exact trivial
  | ok a => exact h a rfl

/-- Where a task acts without an `await`, and goes on or raises. -/
lemma follows_atomically {α : Type} {f : State V → Except PyException α × State V} {new : List String}
    {go : α → Coroutine (State V) (DocumentRecord V)} (heffect : ∀ s, Effect i call new s (f s).2)
    (h : ∀ a, Follows i call (go a) due) : Follows i call (Coroutine.atomically f >>= go) (new ++ due) := by
  intro s
  refine ⟨new, due, rfl, heffect s, ?_⟩
  show Follows i call ((Coroutine.ended (f s).1).bind go) due
  cases (f s).1 with
  | error e => exact trivial
  | ok a => exact h a

lemma follows_stageOn {α : Type} {name : String} {f : State V → Except PyException α × State V}
    {go : α × List StageMetric → Coroutine (State V) (DocumentRecord V)} (heffect : ∀ s, Effect i call [] s (f s).2)
    (h : ∀ a, Follows i call (go (a, stages ++ [passed name])) due) :
    Follows i call (stageOn name f stages >>= go) due := by
  intro s
  refine ⟨[], due, rfl, heffect s, ?_⟩
  show Follows i call (((Coroutine.ended (f s).1).bind fun a => stage name (.ok a) stages).bind go) due
  cases (f s).1 with
  | error e => exact trivial
  | ok a => exact h a

lemma follows_publish {detail : EventDetail V} {eventType : String}
    {go : Unit → Coroutine (State V) (DocumentRecord V)} (htype : detail.eventType = eventType)
    (hlast : eventType ≠ "DocumentProcessed") (h : ∀ a, Follows i call (go a) due) :
    Follows i call (publish handlers i call detail >>= go) (eventType :: due) := by
  refine follows_atomically (fun s => ⟨⟨[_], rfl, congrArg ([·]) htype, ?_⟩, Or.inl ⟨?_, rfl, rfl⟩, Or.inl rfl⟩) h
  · intro e he
    rw [List.mem_singleton.mp he]
    exact ⟨rfl, rfl⟩
  · exact fun hmem => hlast (List.mem_singleton.mp hmem).symm

lemma follows_finish {record : DocumentRecord V} {confidence : V.Confidence} {entityCount chunkCount : ℕ}
    (hrecord : record.Of call) (hstages : stages ++ [passed "storage"] = stageOrder.map passed)
    {go : Unit → Coroutine (State V) (DocumentRecord V)} (h : ∀ a, Follows i call (go a) due) :
    Follows i call (finish handlers i call record stages confidence entityCount chunkCount >>= go)
      ("DocumentProcessed" :: due) := by
  have hevent (e : Event V) (he : e ∈ [⟨i, call.documentId, .documentProcessed true call.caseId call.firmId⟩]) :
      e.workflowId = i ∧ e.documentId = call.documentId := by
    rw [List.mem_singleton.mp he]
    exact ⟨rfl, rfl⟩
  have hstored (s : State V) : s.records.set record.documentId record = s.records.set call.documentId record := by
    rw [hrecord.documentId]
  exact follows_atomically (fun s => ⟨⟨_, rfl, rfl, hevent⟩,
    Or.inr ⟨rfl, record, _, hrecord, rfl, hstages, hstored s, rfl⟩, Or.inl rfl⟩) h

/-- **A call publishes its events in their order**, and stores its record with the last one. -/
theorem follows_process (handlers : Handlers V) (i : ℕ) (call : Call) :
    Follows i call (process handlers i call) eventOrder := by
  unfold process
  refine follows_publish rfl (by decide) fun _ => ?_
  refine follows_stage fun _ _ => follows_stage fun _ _ => ?_
  refine follows_stage fun ingested _ => follows_stage fun ocrResult _ => ?_
  refine follows_publish rfl (by decide) fun _ => ?_
  refine follows_stage fun language _ => follows_stage fun layoutBlocks _ => ?_
  refine follows_publish rfl (by decide) fun _ => ?_
  refine follows_stage fun classification _ => follows_stage fun metadata _ => ?_
  refine follows_publish rfl (by decide) fun _ => ?_
  refine follows_stage fun entities _ => ?_
  refine follows_publish rfl (by decide) fun _ => ?_
  refine follows_stage fun timelineEvents _ => ?_
  refine follows_publish rfl (by decide) fun _ => ?_
  refine follows_stage fun chunks hchunks => ?_
  refine follows_stageOn (fun s => effect_nil rfl rfl rfl (Or.inl rfl)) fun _ => ?_
  refine follows_publish rfl (by decide) fun _ => ?_
  have hwrites (s : State V) :
      Writes call s.graph (updateGraph V call layoutBlocks entities timelineEvents chunks s).2.graph :=
    ⟨ocrResult.text, layoutBlocks, entities, timelineEvents, chunks, hchunks, rfl⟩
  refine follows_stageOn (fun s => effect_nil rfl rfl rfl (Or.inr (hwrites s))) fun _ => ?_
  refine follows_atomically (fun s => effect_nil rfl rfl rfl (Or.inl rfl)) fun count => ?_
  refine follows_publish rfl (by decide) fun _ => ?_
  exact follows_finish ⟨rfl, rfl, rfl, rfl⟩ rfl fun _ => ⟨rfl, rfl, rfl, rfl, rfl⟩

end Follows

/-! ### Whatever the turns are -/

/-- What a call has published. -/
def published (i : ℕ) (s : State V) : List String :=
  (s.history.filter (·.workflowId = i)).map (·.detail.eventType)

/-- What the knowledge stages of some calls make of a graph, one after the other. -/
inductive Written (calls : List Call) (graph : V.Graph) : V.Graph → Prop
  | none : Written calls graph graph
  | next {call : Call} {graph' graph'' : V.Graph} (h : Written calls graph graph') (hcall : call ∈ calls)
      (hwrites : Writes call graph' graph'') : Written calls graph graph''

/-- What is stored is what was processed, and each document that was has a record and the metrics of all its stages. -/
structure Shared (graph : V.Graph) (calls : List Call) (s : State V) : Prop where
  known : ∀ e ∈ s.history, ∃ call, calls[e.workflowId]? = some call ∧ e.documentId = call.documentId
  stored : ∀ d record, s.records.get d = some record →
    ∃ e ∈ s.history, e.detail.eventType = "DocumentProcessed" ∧
    e.documentId = d ∧ ∃ call ∈ calls, call.documentId = d ∧ record.Of call
  kept : ∀ e ∈ s.history, e.detail.eventType = "DocumentProcessed" →
    ∃ record, s.records.get e.documentId = some record
  metrics : s.metrics.map (·.documentId) =
    (s.history.filter fun e => e.detail.eventType = "DocumentProcessed").map (·.documentId)
  passed : ∀ m ∈ s.metrics, m.stageMetrics = stageOrder.map passed
  written : Written calls graph s.graph

/-- Where a task stands: what it has published and what is due come to all the events. -/
def Standing (i : ℕ) (call : Call) (s : State V) (task : Coroutine (State V) (DocumentRecord V)) : Prop :=
  ∃ due, published i s ++ due = eventOrder ∧ Follows i call task due

section Runs

variable {i j : ℕ} {call : Call} {calls : List Call} {new : List String} {s s' : State V} {handlers : Handlers V}
  {graph : V.Graph}

lemma Effect.published_self (h : Effect i call new s s') : published i s' = published i s ++ new := by
  obtain ⟨events, hhistory, rfl, hevents⟩ := h.events
  have hown : events.filter (·.workflowId = i) = events :=
    List.filter_eq_self.mpr fun e he => decide_eq_true (hevents e he).1
  rw [published, published, hhistory, List.filter_append, hown, List.map_append]

lemma Effect.published_other (h : Effect i call new s s') (hij : i ≠ j) : published j s' = published j s := by
  obtain ⟨events, hhistory, -, hevents⟩ := h.events
  have hnone : events.filter (·.workflowId = j) = [] :=
    List.filter_eq_nil_iff.mpr fun e he => by simpa [(hevents e he).1] using hij
  rw [published, published, hhistory, List.filter_append, hnone, List.append_nil]

lemma Effect.shared (h : Effect i call new s s') (hcall : calls[i]? = some call) (hs : Shared graph calls s) :
    Shared graph calls s' := by
  obtain ⟨events, hhistory, htypes, hevents⟩ := h.events
  have hknown : ∀ e ∈ s'.history, ∃ call, calls[e.workflowId]? = some call ∧
      e.documentId = call.documentId := by
    intro e he
    rw [hhistory] at he
    rcases List.mem_append.mp he with he | he
    · exact hs.known e he
    · rw [(hevents e he).1]
      exact ⟨call, hcall, (hevents e he).2⟩
  have hwritten : Written calls graph s'.graph := by
    rcases h.graph with hgraph | hwrites
    · rw [hgraph]
      exact hs.written
    · exact hs.written.next (List.mem_of_getElem? hcall) hwrites
  rcases h.stored with ⟨hnot, hrecords, hmetrics⟩ | ⟨rfl, record, m, hrecord, hid, hstages, hrecords, hmetrics⟩
  · -- Nothing is stored, and none of the events is the last one.
    have hnone (e : Event V) (he : e ∈ events) : e.detail.eventType ≠ "DocumentProcessed" := by
      intro heq
      exact hnot (htypes ▸ List.mem_map.mpr ⟨e, he, heq⟩)
    have hfilter : events.filter (fun e => e.detail.eventType = "DocumentProcessed") = [] :=
      List.filter_eq_nil_iff.mpr fun e he => by simpa using hnone e he
    refine ⟨hknown, fun d record hget => ?_, fun e he htype => ?_, ?_, ?_, hwritten⟩
    · rw [hrecords] at hget
      obtain ⟨e, he, hrest⟩ := hs.stored d record hget
      exact ⟨e, hhistory ▸ List.mem_append_left _ he, hrest⟩
    · rw [hhistory] at he
      rw [hrecords]
      exact hs.kept e ((List.mem_append.mp he).resolve_right fun he => hnone e he htype) htype
    · rw [hmetrics, hhistory, List.filter_append, hfilter, List.append_nil, hs.metrics]
    · rw [hmetrics]
      exact hs.passed
  · -- The last event, and the record that goes with it.
    obtain ⟨event, rfl, htype⟩ := List.map_eq_singleton_iff.mp htypes
    obtain ⟨-, hdocument⟩ := hevents event (List.mem_singleton_self _)
    have hevent : event ∈ s'.history := hhistory ▸ List.mem_append_right _ (List.mem_singleton_self _)
    refine ⟨hknown, fun d record' hget => ?_, fun e he htype' => ?_, ?_, ?_, hwritten⟩
    · rw [hrecords, Dict.get_set] at hget
      split_ifs at hget with hd
      · cases hget
        exact ⟨event, hevent, htype, hdocument.trans hd.symm, call, List.mem_of_getElem? hcall, hd.symm, hrecord⟩
      · obtain ⟨e, he, hrest⟩ := hs.stored d record' hget
        exact ⟨e, hhistory ▸ List.mem_append_left _ he, hrest⟩
    · rw [hrecords, Dict.get_set]
      split_ifs with hd
      · exact ⟨record, rfl⟩
      · rw [hhistory] at he
        refine hs.kept e ((List.mem_append.mp he).resolve_right fun he => ?_) htype'
        rw [List.mem_singleton.mp he] at hd
        exact hd hdocument
    · rw [hmetrics, hhistory, List.filter_append, List.map_append, List.map_append, hs.metrics]
      simp [htype, hid, hdocument]
    · rw [hmetrics]
      intro m' hm'
      rcases List.mem_append.mp hm' with hm' | hm'
      · exact hs.passed m' hm'
      · rw [List.mem_singleton.mp hm']
        exact hstages

lemma Written.snoc {graph' : V.Graph} (h : Written calls graph graph') (call : Call) :
    Written (calls ++ [call]) graph graph' := by
  induction h with
  | none => exact .none
  | next _ hcall hwrites ih => exact ih.next (List.mem_append_left _ hcall) hwrites

/-- A call that comes later changes nothing for what is there. -/
lemma Shared.snoc (hs : Shared graph calls s) (call : Call) : Shared graph (calls ++ [call]) s where
  known e he := by
    obtain ⟨call', hcall', hid⟩ := hs.known e he
    obtain ⟨hlt, -⟩ := List.getElem?_eq_some_iff.mp hcall'
    exact ⟨call', by rw [List.getElem?_append_left hlt, hcall'], hid⟩
  stored d record hget := by
    obtain ⟨e, he, htype, hid, call', hcall', hof⟩ := hs.stored d record hget
    exact ⟨e, he, htype, hid, call', List.mem_append_left _ hcall', hof⟩
  kept := hs.kept
  metrics := hs.metrics
  passed := hs.passed
  written := hs.written.snoc call

/-- Where there is no call, nothing was published. -/
lemma Shared.published_none (hs : Shared graph calls s) (hi : calls[i]? = none) : published i s = [] := by
  refine List.map_eq_nil_iff.mpr (List.filter_eq_nil_iff.mpr fun e he heq => ?_)
  obtain ⟨call, hcall, -⟩ := hs.known e he
  rw [of_decide_eq_true heq, hi] at hcall
  cases hcall

/-- No task disturbs another one. -/
lemma rules (handlers : Handlers V) (graph : V.Graph) :
    Loop.Rules (process handlers) (Shared graph) (fun i call s task => Standing i call s task) where
  call call hs := by
    refine ⟨hs.snoc call, eventOrder, ?_, follows_process handlers _ call⟩
    rw [hs.published_none (List.getElem?_eq_none le_rfl), List.nil_append]
  own hs hcall := by
    rintro ⟨due, hdue, hfollows⟩
    obtain ⟨new, due', rfl, heffect, hrest⟩ := hfollows _
    exact ⟨heffect.shared hcall hs, due', by rw [heffect.published_self, List.append_assoc, hdue], hrest⟩
  other := fun {s _ _ _ _ _ _ _} hij ⟨_, _, hfollows⟩ ⟨due, hdue, hothers⟩ => by
    obtain ⟨_, _, -, heffect, -⟩ := hfollows s
    exact ⟨due, by rw [heffect.published_other hij, hdue], hothers⟩

/-- The loop, after some turns. -/
def after (handlers : Handlers V) (index : V.Index) (graph : V.Graph) (turns : List (Turn Call)) :
    Loop (State V) Call (DocumentRecord V) :=
  run (Loop.step (process handlers)) { state := { index, graph } } turns

lemma sound_after (handlers : Handlers V) (index : V.Index) (graph : V.Graph) (turns : List (Turn Call)) :
    Loop.Sound (Shared graph) (fun i call s task => Standing i call s task) (after handlers index graph turns) := by
  have hnone (e : Event V) (he : e ∈ ({ index, graph } : State V).history) : False := List.not_mem_nil he
  exact (rules handlers graph).sound_run ⟨fun e he => (hnone e he).elim, nofun, fun e he => (hnone e he).elim, rfl,
    fun m hm => absurd hm List.not_mem_nil, .none⟩ turns

lemma calls_after (handlers : Handlers V) (index : V.Index) (graph : V.Graph) (turns : List (Turn Call)) :
    (after handlers index graph turns).calls = turns.filterMap Turn.called := Loop.calls_run ..

/-- The graph is what the knowledge stages of the calls made of it. -/
lemma written_after (handlers : Handlers V) (index : V.Index) (graph : V.Graph) (turns : List (Turn Call)) :
    Written (turns.filterMap Turn.called) graph (after handlers index graph turns).state.graph := by
  rw [← calls_after handlers index graph turns]
  exact (sound_after handlers index graph turns).shared.written

/-- **The events of a document come in their order**, whatever the turns are and whatever raises: those of a call are
the first ones of the nine, about its document, and a call that returns has published them all. -/
theorem published_run (handlers : Handlers V) (index : V.Index) (graph : V.Graph) (turns : List (Turn Call)) (i : ℕ) :
    published i (after handlers index graph turns).state <+: eventOrder ∧
    (∀ e ∈ (after handlers index graph turns).state.history, e.workflowId = i →
      ∃ call, (turns.filterMap Turn.called)[i]? = some call ∧ e.documentId = call.documentId) ∧
    ∀ call record, (after handlers index graph turns).tasks[i]? = some (call, .ended (.ok record)) →
      published i (after handlers index graph turns).state = eventOrder ∧ record.Of call := by
  have hsound := sound_after handlers index graph turns
  refine ⟨?_, fun e he hi => ?_, fun call record hended => ?_⟩
  · cases htask : (after handlers index graph turns).tasks[i]? with
    | none =>
      have hcall : (after handlers index graph turns).calls[i]? = none := by
        rw [Loop.calls, List.getElem?_map, htask]
        rfl
      rw [hsound.shared.published_none hcall]
      exact List.nil_prefix
    | some task =>
      obtain ⟨due, hdue, -⟩ := hsound.each i task.1 task.2 htask
      exact ⟨due, hdue⟩
  · rw [← hi, ← calls_after handlers index graph turns]
    exact hsound.shared.known e he
  · obtain ⟨due, hdue, rfl, hof⟩ := hsound.each i call _ hended
    exact ⟨by rw [← hdue, List.append_nil], hof⟩

/-- A document's last event comes after all the others. -/
lemma eq_eventOrder {events : List String} (h : events <+: eventOrder) (hmem : "DocumentProcessed" ∈ events) :
    events = eventOrder := by
  have hlast : ∀ n < 9, "DocumentProcessed" ∉ eventOrder.take n := by decide
  rw [List.prefix_iff_eq_take] at h
  rw [h] at hmem ⊢
  exact List.take_of_length_le (Nat.le_of_not_lt fun hlt => hlast _ hlt hmem)

/-- **What is stored went through all the stages**, whatever the turns are and whatever raises: there is a record of a
document exactly if a call for it has published all the events, and it is made of what a call for it was given.  The
evaluator has the metrics of the documents that were processed, in order, and of each all fourteen stages, passed. -/
theorem stored_run (handlers : Handlers V) (index : V.Index) (graph : V.Graph) (turns : List (Turn Call)) :
    (∀ d, (∃ record, (after handlers index graph turns).state.records.get d = some record) ↔
      ∃ i call, (turns.filterMap Turn.called)[i]? = some call ∧ call.documentId = d ∧
        published i (after handlers index graph turns).state = eventOrder) ∧
    (∀ d record, (after handlers index graph turns).state.records.get d = some record →
      ∃ call ∈ turns.filterMap Turn.called, call.documentId = d ∧ record.Of call) ∧
    (after handlers index graph turns).state.metrics.map (·.documentId) =
      ((after handlers index graph turns).state.history.filter fun e =>
        e.detail.eventType = "DocumentProcessed").map (·.documentId) ∧
    ∀ m ∈ (after handlers index graph turns).state.metrics, m.stageMetrics = stageOrder.map passed := by
  have hshared := (sound_after handlers index graph turns).shared
  have hpublished := published_run handlers index graph turns
  rw [calls_after] at hshared
  generalize (after handlers index graph turns).state = s at hshared hpublished
  refine ⟨fun d => ⟨?_, ?_⟩, fun d record hget => ?_, hshared.metrics, hshared.passed⟩
  · rintro ⟨record, hget⟩
    obtain ⟨e, he, htype, rfl, -⟩ := hshared.stored d record hget
    obtain ⟨call, hcall, hid⟩ := hshared.known e he
    refine ⟨e.workflowId, call, hcall, hid.symm, eq_eventOrder (hpublished e.workflowId).1 ?_⟩
    exact List.mem_map.mpr ⟨e, List.mem_filter.mpr ⟨he, decide_eq_true rfl⟩, htype⟩
  · rintro ⟨i, call, hcall, rfl, hall⟩
    have hlast : "DocumentProcessed" ∈ published i s := by rw [hall]; decide
    obtain ⟨e, he, htype⟩ := List.mem_map.mp hlast
    obtain ⟨he, hi⟩ := List.mem_filter.mp he
    obtain ⟨call', hcall', hid⟩ := hshared.known e he
    rw [of_decide_eq_true hi, hcall] at hcall'
    cases hcall'
    rw [← hid]
    exact hshared.kept e he htype
  · obtain ⟨e, he, -, -, hstored⟩ := hshared.stored d record hget
    exact hstored

end Runs

end Tmis.DocumentIntelligence.Pipeline
