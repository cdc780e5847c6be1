import Tmis.CaseIntelligence.Workflow

/-!
# Documents that are ingested again

A document that was ingested before is known to all three mergers: it changes nothing that the case has
gathered.

* `Gathered`, `CaseProfile.gathered` — what a case has gathered of its documents;
* `ProfileSound`, `RecordKnown` — the invariant of a case, and a document that was merged into it;
* `Merged.sound`, `Merged.known`, `Merged.kept`, `Merged.gathered_eq` — one document;
* `retains_step` — whatever is ingested later, into whichever case;
* `gathered_reingested` — over every history.
-/

namespace Tmis.CaseIntelligence

open Tmis.Lib CaseIntelligenceWorkflow

variable {F : Type} [PyFloat F] {settings : CaseSettings F} {profile : CaseProfile F}
  {record other : DocumentRecord F} {workflow : CaseIntelligenceWorkflow F} {caseId : String}

/-- What a case has gathered of its documents. -/
structure Gathered (F : Type) where
  documentIds : PySet String
  actors : List Actor
  facts : List (Fact F)
  timeline : List (CaseTimelineEntry F)
  timelineInconsistencies : List (TimelineInconsistency F)
  evidenceLinks : List EvidenceLink

def CaseProfile.gathered (profile : CaseProfile F) : Gathered F where
  documentIds := profile.documentIds
  actors := profile.actors
  facts := profile.facts
  timeline := profile.timeline
  timelineInconsistencies := profile.timelineInconsistencies
  evidenceLinks := profile.evidenceLinks

/-- No two actors, facts or entries of the case are the same; the timeline is in order; and what is
derived from the timeline and the facts is up to date. -/
structure ProfileSound (settings : CaseSettings F) (profile : CaseProfile F) : Prop where
  actors : ActorMerger.Distinct settings.text profile.actors
  facts : FactEngine.Distinct settings.text profile.facts
  timeline : CaseTimelineEngine.Distinct settings.text profile.timeline
  sorted : profile.timeline.Pairwise (CaseTimelineEngine.before settings.text)
  inconsistencies : profile.timelineInconsistencies =
    CaseTimelineEngine.detectInconsistencies profile.timeline
  links : profile.evidenceLinks = profile.facts.flatMap (EvidenceLinker.link settings.order)

/-- The document has been merged into the case. -/
structure RecordKnown (settings : CaseSettings F) (profile : CaseProfile F) (record : DocumentRecord F) :
    Prop where
  document : record.documentId ∈ profile.documentIds
  entities : ∀ entity ∈ record.entities,
    ActorMerger.Known settings.text (profile.actors, 0) (record.documentId, entity)
  facts : ∀ event ∈ record.timelineEvents,
    FactEngine.Known settings.text (profile.facts, 0) (record.documentId, event)
  timeline : ∀ event ∈ record.timelineEvents,
    CaseTimelineEngine.Known settings.text profile.timeline event

/-! ### The timeline is sorted -/

namespace CaseTimelineEngine

variable {text : CaseText} {entries : List (CaseTimelineEntry F)}

instance : Std.Total (before (F := F) text) := ⟨fun _ _ => le_total _ _⟩
instance : IsTrans (CaseTimelineEntry F) (before text) := ⟨fun _ _ _ => le_trans⟩

omit [PyFloat F] in
lemma Distinct.sort (h : Distinct text entries) :
    Distinct text (entries.insertionSort (before text)) :=
  ((List.perm_insertionSort (before text) entries).map (entryKey text)).nodup_iff.mpr h

omit [PyFloat F] in
lemma Known.sort {event : TimelineEvent F} (h : Known text entries event) :
    Known text (entries.insertionSort (before text)) event := by
  obtain ⟨entry, hmem, hentry⟩ := h
  exact ⟨entry, (List.mem_insertionSort _).mpr hmem, hentry⟩

end CaseTimelineEngine

/-! ### One document -/

section Enrich

/-- The entities of a document, one after the other. -/
def mergeItem (settings : CaseSettings F) (s : List Actor × ℕ) (item : String × ExtractedEntity) :
    List Actor × ℕ := ActorMerger.mergeEntity settings.text item.1 s item.2

/-- The events of a document, one after the other. -/
def ingestItem (settings : CaseSettings F) (s : List (Fact F) × ℕ) (item : String × TimelineEvent F) :
    List (Fact F) × ℕ := FactEngine.ingestEvent settings.text settings.confirmationBoost item.1 s item.2

/-- What the case is after a document is merged into it. -/
structure Merged (settings : CaseSettings F) (profile : CaseProfile F) (record : DocumentRecord F)
    (merged : CaseProfile F) : Prop where
  documents : merged.documentIds = profile.documentIds.add record.documentId
  actors : ∃ uuids, merged.actors =
    ((record.entities.map (record.documentId, ·)).foldl (mergeItem settings) (profile.actors, uuids)).1
  facts : ∃ uuids, merged.facts =
    ((record.timelineEvents.map (record.documentId, ·)).foldl (ingestItem settings)
      (profile.facts, uuids)).1
  timeline : merged.timeline = (record.timelineEvents.foldl
    (CaseTimelineEngine.consolidateEvent settings.text) profile.timeline).insertionSort
    (CaseTimelineEngine.before settings.text)
  inconsistencies : merged.timelineInconsistencies =
    CaseTimelineEngine.detectInconsistencies merged.timeline
  links : merged.evidenceLinks = merged.facts.flatMap (EvidenceLinker.link settings.order)

lemma merged_enrich (h : ProfileSound settings profile) (uuids : ℕ) (record : DocumentRecord F) :
    Merged settings profile record (enrich settings profile uuids record).1 where
  documents := rfl
  actors := by
    refine ⟨uuids, ?_⟩
    rw [List.foldl_map]
    exact congrArg Prod.fst
      (ActorMerger.merge_eq settings.order h.actors uuids record.entities record.documentId)
  facts := by
    refine ⟨(ActorMerger.merge settings.text settings.order profile.actors uuids record.entities
      record.documentId).2, ?_⟩
    rw [List.foldl_map]
    rfl
  timeline := rfl
  inconsistencies := rfl
  links := rfl

namespace Merged

variable {merged : CaseProfile F} (h : Merged settings profile record merged)
  (hsound : ProfileSound settings profile)
include h hsound

/-- The invariant is kept. -/
theorem sound : ProfileSound settings merged where
  actors := by
    obtain ⟨uuids, hactors⟩ := h.actors
    rw [hactors]
    exact ActorMerger.absorbs_mergeEntity.inv_foldl (s := (profile.actors, uuids)) hsound.actors _
  facts := by
    obtain ⟨uuids, hfacts⟩ := h.facts
    rw [hfacts]
    exact FactEngine.absorbs_ingestEvent.inv_foldl (s := (profile.facts, uuids)) hsound.facts _
  timeline := by
    rw [h.timeline]
    exact (CaseTimelineEngine.absorbs_consolidateEvent.inv_foldl hsound.timeline _).sort
  sorted := by
    rw [h.timeline]
    exact List.pairwise_insertionSort _ _
  inconsistencies := h.inconsistencies
  links := h.links

/-- The document is known. -/
theorem known : RecordKnown settings merged record where
  document := by
    rw [h.documents]
    exact PySet.mem_add_self ..
  entities entity hentity := by
    obtain ⟨uuids, hactors⟩ := h.actors
    rw [hactors]
    exact ActorMerger.absorbs_mergeEntity.known_of_mem (s := (profile.actors, uuids)) hsound.actors
      (List.mem_map_of_mem hentity)
  facts event hevent := by
    obtain ⟨uuids, hfacts⟩ := h.facts
    rw [hfacts]
    exact FactEngine.absorbs_ingestEvent.known_of_mem (s := (profile.facts, uuids)) hsound.facts
      (List.mem_map_of_mem hevent)
  timeline event hevent := by
    rw [h.timeline]
    exact (CaseTimelineEngine.absorbs_consolidateEvent.known_of_mem hsound.timeline hevent).sort

/-- What was known stays known. -/
theorem kept (hknown : RecordKnown settings profile other) : RecordKnown settings merged other where
  document := by
    rw [h.documents]
    exact PySet.mem_add_of_mem hknown.document _
  entities entity hentity := by
    obtain ⟨uuids, hactors⟩ := h.actors
    rw [hactors]
    exact ActorMerger.absorbs_mergeEntity.known_foldl (s := (profile.actors, uuids)) hsound.actors
      (hknown.entities entity hentity) _
  facts event hevent := by
    obtain ⟨uuids, hfacts⟩ := h.facts
    rw [hfacts]
    exact FactEngine.absorbs_ingestEvent.known_foldl (s := (profile.facts, uuids)) hsound.facts
      (hknown.facts event hevent) _
  timeline event hevent := by
    rw [h.timeline]
    exact (CaseTimelineEngine.absorbs_consolidateEvent.known_foldl hsound.timeline
      (hknown.timeline event hevent) _).sort

/-- **A document that is known changes nothing.** -/
theorem gathered_eq (hknown : RecordKnown settings profile record) :
    merged.gathered = profile.gathered := by
  have hdocuments : merged.documentIds = profile.documentIds := by
    rw [h.documents, PySet.add_of_mem hknown.document]
  have hactors : merged.actors = profile.actors := by
    obtain ⟨uuids, hactors⟩ := h.actors
    refine hactors.trans (congrArg Prod.fst (ActorMerger.absorbs_mergeEntity.foldl_eq
      (s := (profile.actors, uuids)) hsound.actors fun item hitem => ?_))
    obtain ⟨entity, hentity, rfl⟩ := List.mem_map.mp hitem
    exact hknown.entities entity hentity
  have hfacts : merged.facts = profile.facts := by
    obtain ⟨uuids, hfacts⟩ := h.facts
    refine hfacts.trans (congrArg Prod.fst (FactEngine.absorbs_ingestEvent.foldl_eq
      (s := (profile.facts, uuids)) hsound.facts fun item hitem => ?_))
    obtain ⟨event, hevent, rfl⟩ := List.mem_map.mp hitem
    exact hknown.facts event hevent
  have htimeline : merged.timeline = profile.timeline := by
    rw [h.timeline, CaseTimelineEngine.absorbs_consolidateEvent.foldl_eq hsound.timeline
      hknown.timeline]
    exact hsound.sorted.insertionSort_eq
  rw [CaseProfile.gathered, CaseProfile.gathered, h.inconsistencies, h.links, hsound.inconsistencies,
    hsound.links, hdocuments, hactors, hfacts, htimeline]

end Merged

end Enrich

/-! ### Histories -/

section Histories

/-- The invariant of histories: the case that is found under an identifier has it, and is sound. -/
def WorkflowSound (settings : CaseSettings F) (workflow : CaseIntelligenceWorkflow F) : Prop :=
  ∀ caseId, (workflow.profile caseId).caseId = caseId ∧ ProfileSound settings (workflow.profile caseId)

lemma workflowSound_start (settings : CaseSettings F) : WorkflowSound settings {} := by
  refine fun caseId => ⟨rfl, ⟨⟨List.nodup_nil, nofun⟩, List.nodup_nil, List.nodup_nil, List.Pairwise.nil,
    rfl, rfl⟩⟩

/-- The cases after a document: its own is enriched, the others are as they were. -/
lemma profile_step (h : WorkflowSound settings workflow) (item : String × DocumentRecord F)
    (caseId : String) : (step settings workflow item).profile caseId =
      if caseId = item.1 then (enrich settings (workflow.profile item.1) workflow.uuids item.2).1
      else workflow.profile caseId := by
  have hcase : (enrich settings (workflow.profile item.1) workflow.uuids item.2).1.caseId = item.1 :=
    (h item.1).1
  show (Dict.get (Dict.set _ _ _) caseId).getD _ = _
  rw [hcase, Dict.get_set]
  split <;> rfl

/-- **Ingesting a document** makes it known, and leaves known what was. -/
theorem retains_step (settings : CaseSettings F) : Retains (step settings) (WorkflowSound settings)
    (fun workflow item => RecordKnown settings (workflow.profile item.1) item.2) where
  inv workflow item h caseId := by
    rw [profile_step h]
    split
    · rename_i heq
      subst heq
      exact ⟨(h _).1, (merged_enrich (h _).2 _ _).sound (h _).2⟩
    · exact h caseId
  merged workflow item h := by
    rw [profile_step h, if_pos rfl]
    exact (merged_enrich (h _).2 _ _).known (h _).2
  kept workflow item other h hknown := by
    rw [profile_step h]
    split
    · rename_i heq
      rw [heq] at hknown
      exact (merged_enrich (h _).2 _ _).kept (h _).2 hknown
    · exact hknown

/-- **Ingestion is idempotent.**  A document that was ingested into a case, whatever was ingested before
and since, into this case and others, changes nothing that the case has gathered when it is ingested
again. -/
theorem gathered_reingested (settings : CaseSettings F) (before since : List (String × DocumentRecord F))
    (caseId : String) (record : DocumentRecord F) :
    ((((before ++ (caseId, record) :: since).foldl (step settings) {}).ingestDocument settings caseId
        record).2.profile caseId).gathered =
      (((before ++ (caseId, record) :: since).foldl (step settings) {}).profile caseId).gathered := by
  have hmem : (caseId, record) ∈ before ++ (caseId, record) :: since := by simp
  have hsound := (retains_step settings).inv_foldl (workflowSound_start settings)
    (before ++ (caseId, record) :: since)
  have hknown := (retains_step settings).known_of_mem (workflowSound_start settings) hmem
  have hprofile := profile_step hsound (caseId, record) caseId
  rw [if_pos rfl] at hprofile
  refine (congrArg CaseProfile.gathered hprofile).trans ?_
  exact (merged_enrich (hsound caseId).2 _ record).gathered_eq (hsound caseId).2 hknown

end Histories

end Tmis.CaseIntelligence
