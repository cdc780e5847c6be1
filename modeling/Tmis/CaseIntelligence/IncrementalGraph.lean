import Tmis.CaseIntelligence.Reingestion

/-!
# The graph that is kept up to date

Every update appends the edges of the whole case to those that are there.  The graph that is updated
after each document is the one that is built of the case at the end only as long as the case has no
edges before its last document.

* `SameGraph` — the same nodes, and the same edges, each as often;
* `Contributes` — a document that gives the case an actor or an event;
* `Bare` — a case with its documents only, and the graph of it;
* `sameGraph_iff` — over every sequence of documents of a case.
-/

namespace Tmis.CaseIntelligence

open Tmis.Lib Tmis.Core CaseIntelligenceWorkflow CaseKnowledgeAggregator

variable {F : Type} [PyFloat F] {settings : CaseSettings F} {profile : CaseProfile F}
  {record : DocumentRecord F} {workflow : CaseIntelligenceWorkflow F} {caseId : String}

/-- The same nodes under the same identifiers, and the same edges, each as often. -/
def SameGraph (graph graph' : CaseGraph) : Prop :=
  (∀ id, graph.getNode id = graph'.getNode id) ∧ graph.edges.Perm graph'.edges

/-- The document names a person, a company or a jurisdiction, or tells of an event. -/
def Contributes (record : DocumentRecord F) : Prop :=
  (∃ entity ∈ record.entities, entityToActorType entity.type ≠ none) ∨ record.timelineEvents ≠ []

/-- The workflow after the documents of a case. -/
def ingested (settings : CaseSettings F) (caseId : String) (records : List (DocumentRecord F)) :
    CaseIntelligenceWorkflow F := (records.map (caseId, ·)).foldl (step settings) {}

/-- The graph that is built at once of the case as it is. -/
def rebuilt (settings : CaseSettings F) (workflow : CaseIntelligenceWorkflow F) (caseId : String) :
    CaseGraph := update settings.order {} (workflow.profile caseId)

/-! ### Cases without edges -/

/-- The case has documents, and nothing else. -/
structure Bare (profile : CaseProfile F) : Prop where
  actors : profile.actors = []
  facts : profile.facts = []
  timeline : profile.timeline = []
  links : profile.evidenceLinks = []
  issues : profile.legalIssues = []

omit [PyFloat F] in
lemma Bare.edgesOf_eq (h : Bare profile) (order : SetOrder) : edgesOf order profile = [] := by
  rw [edgesOf, h.actors, h.timeline, h.links, h.issues]
  rfl

omit [PyFloat F] in
lemma Bare.nodesOf_eq (h : Bare profile) (order : SetOrder) :
    nodesOf order profile = (order.list profile.documentIds).map documentNode := by
  rw [nodesOf, h.actors, h.timeline, h.facts, h.links, h.issues]
  simp

omit [PyFloat F] in
/-- Entities that are not actors are not merged. -/
lemma foldl_mergeItem_eq {items : List (String × ExtractedEntity)}
    (h : ∀ item ∈ items, entityToActorType item.2.type = none) (s : List Actor × ℕ) :
    items.foldl (mergeItem settings) s = s := by
  induction items with
  | nil => rfl
  | cons item items ih =>
    have hitem : mergeItem settings s item = s := by
      rw [mergeItem, ActorMerger.mergeEntity, h item List.mem_cons_self]
    rw [List.foldl_cons, hitem]
    exact ih fun other hother => h other (List.mem_cons_of_mem _ hother)

/-- Without facts and inconsistencies there are no issues. -/
lemma detect_eq_nil (hinconsistencies : profile.timelineInconsistencies = [])
    (hfacts : profile.facts = []) (uuids : ℕ) : (HeuristicIssueDetector.detect profile uuids).1 = [] := by
  rw [HeuristicIssueDetector.detect, hinconsistencies, hfacts]
  rfl

/-- A document that contributes nothing leaves a case bare. -/
lemma Bare.enrich (h : Bare profile) (hsound : ProfileSound settings profile)
    (hrecord : ¬ Contributes record) (uuids : ℕ) :
    Bare (enrich settings profile uuids record).1 := by
  have hmerged := merged_enrich hsound uuids record
  rw [Contributes, not_or, not_exists, not_ne_iff] at hrecord
  obtain ⟨hentities, hevents⟩ := hrecord
  have hfacts : (CaseIntelligenceWorkflow.enrich settings profile uuids record).1.facts = [] := by
    obtain ⟨uuids, hfacts⟩ := hmerged.facts
    rw [hfacts, hevents]
    exact h.facts
  have htimeline : (CaseIntelligenceWorkflow.enrich settings profile uuids record).1.timeline = [] := by
    rw [hmerged.timeline, hevents, h.timeline]
    rfl
  refine ⟨?_, hfacts, htimeline, ?_, ?_⟩
  · obtain ⟨uuids, hactors⟩ := hmerged.actors
    rw [hactors, foldl_mergeItem_eq, h.actors]
    intro item hitem
    obtain ⟨entity, hentity, rfl⟩ := List.mem_map.mp hitem
    exact not_ne_iff.mp fun htype => hentities entity ⟨hentity, htype⟩
  · rw [hmerged.links, hfacts]
    rfl
  · refine detect_eq_nil ?_ hfacts _
    rw [hmerged.inconsistencies, htimeline]
    rfl

omit [PyFloat F] in
/-- A document that contributes gives the case an edge. -/
lemma edgesOf_ne_nil (hknown : RecordKnown settings profile record) (hrecord : Contributes record) :
    edgesOf settings.order profile ≠ [] := by
  rcases hrecord with ⟨entity, hentity, htype⟩ | hevents
  · obtain ⟨actorType, htype⟩ := Option.ne_none_iff_exists'.mp htype
    obtain ⟨actor, hactor, -, -, hdocument⟩ := hknown.entities entity hentity actorType htype
    refine List.ne_nil_of_mem (a := mentionedIn actor record.documentId) ?_
    simp only [edgesOf, List.mem_append, List.mem_flatMap]
    exact Or.inl (Or.inl (Or.inl ⟨actor, hactor, List.mem_map_of_mem (SetOrder.mem_list.mpr hdocument)⟩))
  · obtain ⟨event, hevent⟩ := List.exists_mem_of_ne_nil _ hevents
    obtain ⟨entry, hentry, -, hdocument⟩ := hknown.timeline event hevent
    obtain ⟨i, hi⟩ := List.mem_iff_getElem?.mp hentry
    refine List.ne_nil_of_mem (a := occurredIn profile.caseId i event.documentId) ?_
    simp only [edgesOf, List.mem_append, List.mem_flatMap]
    exact Or.inl (Or.inl (Or.inr ⟨(entry, i), List.mem_zipIdx_iff_getElem?.mpr hi,
      List.mem_map_of_mem hdocument⟩))

/-! ### One document more -/

section Steps

variable {records : List (DocumentRecord F)}

lemma ingested_snoc (records : List (DocumentRecord F)) (record : DocumentRecord F) :
    ingested settings caseId (records ++ [record]) =
      step settings (ingested settings caseId records) (caseId, record) := by
  simp [ingested]

lemma workflowSound_ingested (settings : CaseSettings F) (caseId : String)
    (records : List (DocumentRecord F)) : WorkflowSound settings (ingested settings caseId records) :=
  (retains_step settings).inv_foldl (workflowSound_start settings) _

/-- The last document is known. -/
lemma known_ingested (records : List (DocumentRecord F)) (record : DocumentRecord F) :
    RecordKnown settings ((ingested settings caseId (records ++ [record])).profile caseId) record := by
  rw [ingested_snoc]
  exact (retains_step settings).merged _ (caseId, record) (workflowSound_ingested settings caseId records)

/-- The graph after one document more: that of before, and the case as it is now. -/
lemma adds_ingested (settings : CaseSettings F) (caseId : String) (records : List (DocumentRecord F))
    (record : DocumentRecord F) :
    Adds (ingested settings caseId records).knowledgeGraph
      (nodesOf settings.order ((ingested settings caseId (records ++ [record])).profile caseId))
      (edgesOf settings.order ((ingested settings caseId (records ++ [record])).profile caseId))
      (ingested settings caseId (records ++ [record])).knowledgeGraph := by
  have hprofile := profile_step (workflowSound_ingested settings caseId records) (caseId, record) caseId
  rw [if_pos rfl] at hprofile
  rw [ingested_snoc, hprofile]
  exact adds_update settings.order _ _

/-- A case that is bare, its graph with nodes for its documents only. -/
structure BareGraph (settings : CaseSettings F) (caseId : String) (workflow : CaseIntelligenceWorkflow F) :
    Prop where
  bare : Bare (workflow.profile caseId)
  edges : workflow.knowledgeGraph.edges = []
  nodes : ∀ id node, workflow.knowledgeGraph.nodes.get id = some node →
    ∃ documentId ∈ (workflow.profile caseId).documentIds, (documentNode documentId).id = id

/-- Documents that contribute nothing leave a bare case and its graph. -/
lemma bareGraph_ingested (hrecords : ∀ record ∈ records, ¬ Contributes record) :
    BareGraph settings caseId (ingested settings caseId records) := by
  induction records using List.reverseRecOn with
  | nil => exact ⟨⟨rfl, rfl, rfl, rfl, rfl⟩, rfl, nofun⟩
  | append_singleton records record ih =>
    have hbefore := ih fun record hrecord => hrecords record (List.mem_append_left _ hrecord)
    have hsound := workflowSound_ingested settings caseId records
    have hprofile := profile_step hsound (caseId, record) caseId
    rw [if_pos rfl, ← ingested_snoc] at hprofile
    have hadds := adds_ingested settings caseId records record
    have hbare : Bare ((ingested settings caseId (records ++ [record])).profile caseId) := by
      rw [hprofile]
      exact hbefore.bare.enrich (hsound caseId).2 (hrecords record (by simp)) _
    have hdocuments := (merged_enrich (hsound caseId).2 (ingested settings caseId records).uuids
      record).documents
    rw [← hprofile] at hdocuments
    refine ⟨hbare, ?_, ?_⟩
    · rw [hadds.edges, hbefore.edges, hbare.edgesOf_eq]
      rfl
    · intro id node hget
      rw [hadds.nodes, get_writeNodes, hbare.nodesOf_eq, Option.or_eq_some_iff] at hget
      rcases hget with hfound | ⟨-, hget⟩
      · obtain ⟨documentId, hmem, rfl⟩ :=
          List.mem_map.mp (List.mem_reverse.mp (List.mem_of_find?_eq_some hfound))
        have hid := List.find?_some hfound
        exact ⟨documentId, SetOrder.mem_list.mp hmem, of_decide_eq_true hid⟩
      · obtain ⟨documentId, hmem, hid⟩ := hbefore.nodes id node hget
        rw [hdocuments]
        exact ⟨documentId, PySet.mem_add_of_mem hmem _, hid⟩

/-- As long as the graph has no edges, no document contributed. -/
lemma not_contributes_of_edges (hedges : (ingested settings caseId records).knowledgeGraph.edges = []) :
    ∀ record ∈ records, ¬ Contributes record := by
  induction records using List.reverseRecOn with
  | nil => exact nofun
  | append_singleton records record ih =>
    rw [(adds_ingested settings caseId records record).edges, List.append_eq_nil_iff] at hedges
    intro other hother
    rcases List.mem_append.mp hother with hother | hother
    · exact ih hedges.1 other hother
    · rw [List.mem_singleton.mp hother]
      exact fun hrecord => edgesOf_ne_nil (known_ingested records record) hrecord hedges.2

/-- A bare graph has nothing that the case as it is now has not. -/
lemma BareGraph.sameGraph (hbare : BareGraph settings caseId (ingested settings caseId records))
    (record : DocumentRecord F) :
    SameGraph (ingested settings caseId (records ++ [record])).knowledgeGraph
      (rebuilt settings (ingested settings caseId (records ++ [record])) caseId) := by
  have hadds := adds_ingested settings caseId records record
  have hrebuilt := adds_update settings.order {}
    ((ingested settings caseId (records ++ [record])).profile caseId)
  rw [rebuilt]
  refine ⟨fun id => ?_, ?_⟩
  · show Dict.get _ id = Dict.get _ id
    rw [hadds.nodes, hrebuilt.nodes, get_writeNodes, get_writeNodes]
    -- what was written before the last document is written again
    cases hfind : (nodesOf settings.order ((ingested settings caseId
        (records ++ [record])).profile caseId)).reverse.find? fun node => HasId.id node = id with
    | some node => rfl
    | none =>
      cases hget : (ingested settings caseId records).knowledgeGraph.nodes.get id with
      | none => rfl
      | some node =>
        obtain ⟨documentId, hmem, hid⟩ := hbare.nodes id node hget
        have hprofile :=
          profile_step (workflowSound_ingested settings caseId records) (caseId, record) caseId
        rw [if_pos rfl, ← ingested_snoc] at hprofile
        have hdocument : documentId ∈
            ((ingested settings caseId (records ++ [record])).profile caseId).documentIds := by
          rw [hprofile]
          exact PySet.mem_add_of_mem hmem _
        have hnode : documentNode documentId ∈ (nodesOf settings.order ((ingested settings caseId
            (records ++ [record])).profile caseId)).reverse := by
          simp only [List.mem_reverse, nodesOf, List.mem_append]
          exact Or.inl (Or.inl (Or.inl (Or.inl (Or.inl
            (List.mem_map_of_mem (SetOrder.mem_list.mpr hdocument))))))
        exact absurd (decide_eq_true hid) (List.find?_eq_none.mp hfind _ hnode)
  · rw [hadds.edges, hrebuilt.edges, hbare.edges]

/-- Without documents both graphs are empty. -/
lemma sameGraph_start (settings : CaseSettings F) (caseId : String) :
    SameGraph (ingested settings caseId []).knowledgeGraph
      (rebuilt settings (ingested settings caseId []) caseId) := by
  have hbare : Bare ((ingested settings caseId []).profile caseId) := ⟨rfl, rfl, rfl, rfl, rfl⟩
  have hrebuilt := adds_update settings.order {} ((ingested settings caseId []).profile caseId)
  have hnone : settings.order.list ((ingested settings caseId []).profile caseId).documentIds = [] :=
    SetOrder.list_eq_nil.mpr rfl
  rw [hbare.nodesOf_eq, hbare.edgesOf_eq, hnone] at hrebuilt
  refine ⟨fun id => ?_, ?_⟩
  · show Dict.get _ id = Dict.get _ id
    rw [rebuilt, hrebuilt.nodes]
    rfl
  · rw [rebuilt, hrebuilt.edges]
    exact List.Perm.refl []

end Steps

/-- **The graph is as good as new, exactly.**  The graph that is updated after each document of a case
is the one that is built at once of the case at the end, iff no document but the last names an actor or
tells of an event. -/
theorem sameGraph_iff (settings : CaseSettings F) (caseId : String) (records : List (DocumentRecord F)) :
    SameGraph (ingested settings caseId records).knowledgeGraph
        (rebuilt settings (ingested settings caseId records) caseId) ↔
      ∀ record ∈ records.dropLast, ¬ Contributes record := by
  rcases records.eq_nil_or_concat' with rfl | ⟨records, record, rfl⟩
  · exact iff_of_true (sameGraph_start settings caseId) nofun
  · rw [List.dropLast_concat]
    constructor
    · rintro ⟨-, hedges⟩
      have hlength := hedges.length_eq
      rw [(adds_ingested settings caseId records record).edges, rebuilt,
        (adds_update settings.order {} _).edges, List.length_append, List.length_append] at hlength
      exact not_contributes_of_edges (List.eq_nil_of_length_eq_zero (Nat.add_right_cancel hlength))
    · exact fun hrecords => (bareGraph_ingested hrecords).sameGraph record

/-! ### Two documents that name the same person -/

/-- Exact confidences, and texts of the first 128 characters. -/
def plainSettings : CaseSettings ℚ := ⟨CaseText.ascii, SetOrder.insertion, 1 / 10⟩

/-- Two documents of a case name Jean Dupont. -/
def twoDocuments : List (DocumentRecord ℚ) :=
  [{ documentId := "doc-1", entities := [⟨.person, "Jean Dupont"⟩] },
    { documentId := "doc-2", entities := [⟨.person, "M. Jean Dupont"⟩] }]

/-- The first mention of him is in the graph twice. -/
theorem mentioned_twice :
    ¬ SameGraph (ingested plainSettings "case-1" twoDocuments).knowledgeGraph
      (rebuilt plainSettings (ingested plainSettings "case-1" twoDocuments) "case-1") := by
  rintro ⟨-, hedges⟩
  have hincremental : (ingested plainSettings "case-1" twoDocuments).knowledgeGraph.edges.length = 3 := by
    decide +kernel
  have hrebuilt : (rebuilt plainSettings (ingested plainSettings "case-1" twoDocuments)
      "case-1").edges.length = 2 := by decide +kernel
  have hlength := hedges.length_eq
  rw [hincremental, hrebuilt] at hlength
  exact absurd hlength (by decide)

end Tmis.CaseIntelligence
