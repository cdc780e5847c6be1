import Mathlib.Data.List.Induction
import Mathlib.Data.List.Sort
import Tmis.CaseIntelligence.Profile
import Tmis.Lib.Merge

/-!
# Mergers

The engines that merge a document into a case: `ActorMerger`, `FactEngine` and `CaseTimelineEngine`, with
`EvidenceLinker`, which looks at the facts.

* `ActorMerger.merge`, `FactEngine.ingest`, `CaseTimelineEngine.consolidate` — the merges;
* `detectInconsistencies`, `EvidenceLinker.link` — what is derived from the timeline and from a fact;
* `ActorMerger.merge_eq` — merging actors through the index of the source is merging by a search;
* `absorbs_mergeEntity`, `absorbs_ingestEvent`, `absorbs_consolidateEvent` — merging what is known
  changes nothing.
-/

namespace Tmis.CaseIntelligence

open Tmis.Lib

/-! ### Actors -/

/-- `_ENTITY_TO_ACTOR_TYPE`. -/
def entityToActorType : EntityType → Option ActorType
  | .person => some .person
  | .company => some .company
  | .jurisdiction => some .jurisdiction
  | _ => none

abbrev ActorKey := ActorType × String

namespace ActorMerger

variable (text : CaseText)

/-- The actor with a name and a document more. -/
def recognise (name documentId : String) (actor : Actor) : Actor :=
  { actor with
    aliases := actor.aliases.add name
    sourceDocumentIds := actor.sourceDocumentIds.add documentId }

/-- A new actor. -/
def newActor (id : Uuid) (type : ActorType) (name documentId : String) : Actor :=
  { id, type, name, aliases := {name}, sourceDocumentIds := {documentId} }

/-- The index of one actor more, at its place in the list. -/
def indexActor (order : SetOrder) (index : Dict ActorKey ℕ) (entry : Actor × ℕ) : Dict ActorKey ℕ :=
  (order.list entry.1.aliases).foldl
    (fun index name => index.set (entry.1.type, text.normalizeName name) entry.2)
    (index.set (entry.1.type, text.normalizeName entry.1.name) entry.2)

/-- The actors by the names they are known under; actors are named by their places in the list. -/
def buildIndex (order : SetOrder) (actors : List Actor) : Dict ActorKey ℕ :=
  actors.zipIdx.foldl (indexActor text order) ∅

/-- What the loop over the entities carries. -/
structure MergeState where
  updated : List Actor
  index : Dict ActorKey ℕ
  uuids : ℕ

/-- One turn of the loop. -/
def mergeStep (documentId : String) (s : MergeState) (entity : ExtractedEntity) : MergeState :=
  match entityToActorType entity.type with
  | none => s
  | some actorType =>
    let key := (actorType, text.normalizeName entity.value)
    match s.index.get key with
    | some i => { s with updated := s.updated.modify i (recognise entity.value documentId) }
    | none =>
      { updated := s.updated ++ [newActor s.uuids actorType entity.value documentId]
        index := s.index.set key s.updated.length
        uuids := s.uuids + 1 }

/-- `merge`, with the number of identifiers drawn. -/
def merge (order : SetOrder) (actors : List Actor) (uuids : ℕ) (entities : List ExtractedEntity)
    (documentId : String) : List Actor × ℕ :=
  let s := entities.foldl (mergeStep text documentId)
    { updated := actors, index := buildIndex text order actors, uuids }
  (s.updated, s.uuids)

end ActorMerger

/-! ### Facts -/

section Facts

variable {F : Type} [PyFloat F] (text : CaseText)

namespace FactEngine

/-- The fact that one document more confirms, unless the document is known to say so. -/
def corroborate (boost : F) (documentId : String) (fact : Fact F) : Fact F :=
  if documentId ∈ fact.sourceDocumentIds ∨ documentId ∈ fact.confirmingDocumentIds then fact
  else
    { fact with
      confirmingDocumentIds := fact.confirmingDocumentIds.add documentId
      confidence := PyFloat.min (PyFloat.ofRat 1) (PyFloat.add fact.confidence boost) }

/-- A new fact, and the facts of the same date that it contradicts. -/
def newFact (facts : List (Fact F)) (id : Uuid) (event : TimelineEvent F) (documentId : String) :
    Fact F :=
  { id
    description := event.description
    confidence := event.confidence
    dates := [event.date]
    sourceDocumentIds := {documentId}
    contradictingDocumentIds :=
      (facts.filter (event.date ∈ ·.dates)).foldl (fun ids other => ids.union other.sourceDocumentIds) ∅ }

/-- The fact, contradicted by a document if it is of that date. -/
def contradict (date documentId : String) (fact : Fact F) : Fact F :=
  if date ∈ fact.dates then
    { fact with contradictingDocumentIds := fact.contradictingDocumentIds.add documentId }
  else fact

/-- One turn of the loop over the events. -/
def ingestEvent (boost : F) (documentId : String) (s : List (Fact F) × ℕ) (event : TimelineEvent F) :
    List (Fact F) × ℕ :=
  let normalized := text.normalizeDescription event.description
  match updateFirst (fun fact : Fact F => text.normalizeDescription fact.description = normalized)
      (corroborate boost documentId) s.1 with
  | some facts => (facts, s.2)
  | none =>
    (s.1.map (contradict event.date documentId) ++ [newFact s.1 s.2 event documentId], s.2 + 1)

def ingest (boost : F) (facts : List (Fact F)) (uuids : ℕ) (events : List (TimelineEvent F))
    (documentId : String) : List (Fact F) × ℕ :=
  events.foldl (ingestEvent text boost documentId) (facts, uuids)

end FactEngine

/-! ### The timeline -/

namespace CaseTimelineEngine

/-- The entry that one document more confirms. -/
def confirm (documentId : String) (entry : CaseTimelineEntry F) : CaseTimelineEntry F :=
  if documentId ∈ entry.documentIds then entry
  else
    { entry with
      documentIds := entry.documentIds ++ [documentId]
      confidence := PyFloat.min (PyFloat.ofRat 1) (PyFloat.add entry.confidence (PyFloat.ofRat (1 / 10))) }

/-- One turn of the loop over the events. -/
def consolidateEvent (entries : List (CaseTimelineEntry F)) (event : TimelineEvent F) :
    List (CaseTimelineEntry F) :=
  let normalized := text.normalizeDescription event.description
  match updateFirst (fun entry : CaseTimelineEntry F =>
      entry.date = event.date ∧ text.normalizeDescription entry.description = normalized)
      (confirm event.documentId) entries with
  | some entries => entries
  | none => entries ++ [⟨event.date, event.description, [event.documentId], event.confidence⟩]

/-- The order of the timeline. -/
def before (entry entry' : CaseTimelineEntry F) : Prop := text.sortKey entry.date ≤ text.sortKey entry'.date

instance : DecidableRel (before (F := F) text) :=
  fun entry entry' => inferInstanceAs (Decidable (text.sortKey entry.date ≤ text.sortKey entry'.date))

def consolidate (entries : List (CaseTimelineEntry F)) (events : List (TimelineEvent F)) :
    List (CaseTimelineEntry F) :=
  (events.foldl (consolidateEvent text) entries).insertionSort (before text)

/-- The entries by their dates. -/
def byDate (entries : List (CaseTimelineEntry F)) : Dict String (List (CaseTimelineEntry F)) :=
  entries.foldl (fun groups entry =>
    groups.set entry.date (((groups.get entry.date).getD []) ++ [entry])) ∅

def detectInconsistencies (entries : List (CaseTimelineEntry F)) : List (TimelineInconsistency F) :=
  (byDate entries).entries.filterMap fun group =>
    if 1 < group.2.length then some { date := group.1, entries := group.2 } else none

end CaseTimelineEngine

/-! ### Evidence -/

namespace EvidenceLinker

/-- `_origin_confidence`. -/
def originConfidence (fact : Fact F) : EvidenceConfidence :=
  if PyFloat.lt fact.confidence (PyFloat.ofRat (1 / 2)) then .weak
  else if PyFloat.le (PyFloat.ofRat (4 / 5)) fact.confidence then .direct
  else .circumstantial

/-- `_corroboration_confidence`. -/
def corroborationConfidence (fact : Fact F) : EvidenceConfidence :=
  if PyFloat.lt fact.confidence (PyFloat.ofRat (1 / 2)) then .weak else .corroborating

def link (order : SetOrder) (fact : Fact F) : List EvidenceLink :=
  (order.list fact.sourceDocumentIds).map (⟨fact.id, ·, originConfidence fact⟩) ++
    (order.list fact.confirmingDocumentIds).map (⟨fact.id, ·, corroborationConfidence fact⟩)

end EvidenceLinker

end Facts

/-! ### Merging what is known: actors -/

section Actors

variable (text : CaseText)

/-- The name an actor is known under. -/
def actorKey (actor : Actor) : ActorKey := (actor.type, text.normalizeName actor.name)

namespace ActorMerger

/-- `mergeStep`, where the actor is searched for. -/
def mergeEntity (documentId : String) (s : List Actor × ℕ) (entity : ExtractedEntity) :
    List Actor × ℕ :=
  match entityToActorType entity.type with
  | none => s
  | some actorType =>
    match updateFirst (fun actor => actorKey text actor = (actorType, text.normalizeName entity.value))
        (recognise entity.value documentId) s.1 with
    | some actors => (actors, s.2)
    | none => (s.1 ++ [newActor s.2 actorType entity.value documentId], s.2 + 1)

/-- No two actors are known under one name, and all the names of an actor come to the same. -/
structure Distinct (actors : List Actor) : Prop where
  keys : (actors.map (actorKey text)).Nodup
  aliases : ∀ actor ∈ actors, ∀ name ∈ actor.aliases, text.normalizeName name =
    text.normalizeName actor.name

/-- The entity is known: an actor has its name and its document. -/
def Known (s : List Actor × ℕ) (item : String × ExtractedEntity) : Prop :=
  ∀ actorType, entityToActorType item.2.type = some actorType → ∃ actor ∈ s.1,
    actorKey text actor = (actorType, text.normalizeName item.2.value) ∧
      item.2.value ∈ actor.aliases ∧ item.1 ∈ actor.sourceDocumentIds

variable {text} {actors : List Actor} {index : Dict ActorKey ℕ} {name documentId : String}

lemma actorKey_recognise (name documentId : String) (actor : Actor) :
    actorKey text (recognise name documentId actor) = actorKey text actor := rfl

lemma Distinct.recognised {actorType : ActorType} {actors' : List Actor} (h : Distinct text actors)
    (hupdate : updateFirst (fun actor => actorKey text actor = (actorType, text.normalizeName name))
      (recognise name documentId) actors = some actors') : Distinct text actors' where
  keys := by
    rw [map_updateFirst (actorKey_recognise name documentId) hupdate]
    exact h.keys
  aliases := by
    obtain ⟨pre, found, post, rfl, -, hkey, rfl⟩ := updateFirst_eq_some.mp hupdate
    intro actor hactor known hknown
    rw [List.mem_append, List.mem_cons] at hactor
    rcases hactor with hactor | rfl | hactor
    · exact h.aliases actor (List.mem_append_left _ hactor) known hknown
    · rcases PySet.mem_add.mp hknown with hknown | rfl
      · exact h.aliases found (by simp) known hknown
      · exact (congrArg Prod.snd (of_decide_eq_true hkey)).symm
    · exact h.aliases actor (List.mem_append_right _ (List.mem_cons_of_mem _ hactor)) known hknown

lemma Distinct.added {actorType : ActorType} (h : Distinct text actors) (id : Uuid)
    (hnone : updateFirst (fun actor => actorKey text actor = (actorType, text.normalizeName name))
      (recognise name documentId) actors = none) :
    Distinct text (actors ++ [newActor id actorType name documentId]) where
  keys := by
    rw [List.map_append, List.nodup_append']
    refine ⟨h.keys, List.nodup_singleton _, ?_⟩
    rw [List.map_singleton, List.disjoint_singleton, List.mem_map]
    rintro ⟨actor, hactor, hkey⟩
    exact of_decide_eq_false (updateFirst_eq_none.mp hnone actor hactor) hkey
  aliases := by
    intro actor hactor known hknown
    rcases List.mem_append.mp hactor with hactor | hactor
    · exact h.aliases actor hactor known hknown
    · obtain rfl := List.mem_singleton.mp hactor
      rw [PySet.mem_singleton.mp hknown]
      rfl

/-- **Merging an entity that is known changes nothing.** -/
theorem absorbs_mergeEntity : Absorbs (fun s (item : String × ExtractedEntity) =>
    mergeEntity text item.1 s item.2) (fun s => Distinct text s.1) (Known text) where
  inv s item h := by
    unfold mergeEntity
    split
    · exact h
    · split
      · exact h.recognised ‹_›
      · exact h.added s.2 ‹_›
  merged s item h := by
    intro actorType htype
    unfold mergeEntity
    rw [htype]
    dsimp only
    split
    · rename_i actors hupdate
      obtain ⟨actor, -, hkey, hactor⟩ := exists_of_updateFirst hupdate
      exact ⟨_, hactor, of_decide_eq_true hkey, PySet.mem_add_self .., PySet.mem_add_self ..⟩
    · exact ⟨_, List.mem_append_right _ (List.mem_singleton_self _), rfl,
        PySet.mem_singleton.mpr rfl, PySet.mem_singleton.mpr rfl⟩
  kept s item other h hknown := by
    intro actorType htype
    obtain ⟨actor, hactor, hkey, hname, hdocument⟩ := hknown actorType htype
    unfold mergeEntity
    split
    · exact ⟨actor, hactor, hkey, hname, hdocument⟩
    · split
      · rename_i hupdate
        rcases mem_of_updateFirst hupdate hactor with hactor | hactor
        · exact ⟨actor, hactor, hkey, hname, hdocument⟩
        · exact ⟨_, hactor, hkey, PySet.mem_add_of_mem hname _, PySet.mem_add_of_mem hdocument _⟩
      · exact ⟨actor, List.mem_append_left _ hactor, hkey, hname, hdocument⟩
  absorb s item h hknown := by
    unfold mergeEntity
    split
    · rfl
    · rename_i actorType htype
      obtain ⟨actor, hactor, hkey, hname, hdocument⟩ := hknown actorType htype
      have hsame : recognise item.2.value item.1 actor = actor := by
        rw [recognise, PySet.add_of_mem hname, PySet.add_of_mem hdocument]
      rw [updateFirst_eq_self (actorKey text) h.keys (fun _ => by rw [hkey, decide_eq_true_eq]) hactor hsame]

/-! #### The index -/

/-- The index gives the place of the actor that is known under a name. -/
def Indexed (text : CaseText) (actors : List Actor) (index : Dict ActorKey ℕ) : Prop :=
  ∀ key, index.get key = (actors.map (actorKey text)).findIdx? (· = key)

lemma findIdx?_map_actorKey (key : ActorKey) : (actors.map (actorKey text)).findIdx? (· = key) =
    actors.findIdx? fun actor => actorKey text actor = key := by
  rw [List.findIdx?_map]
  rfl

/-- An actor more, that was not known under its name. -/
lemma Indexed.snoc {actor : Actor} (h : Indexed text actors index)
    (hnew : index.get (actorKey text actor) = none) {index' : Dict ActorKey ℕ}
    (hindex' : ∀ key, index'.get key =
      if key = actorKey text actor then some actors.length else index.get key) :
    Indexed text (actors ++ [actor]) index' := by
  intro key
  rw [hindex', List.map_append, List.findIdx?_append, ← h key]
  by_cases hkey : key = actorKey text actor
  · subst hkey
    simp [hnew]
  · simp [hkey, Ne.symm hkey]

lemma get_indexActor {actor : Actor} (order : SetOrder) (index : Dict ActorKey ℕ) (i : ℕ)
    (haliases : ∀ name ∈ actor.aliases, text.normalizeName name = text.normalizeName actor.name)
    (key : ActorKey) : (indexActor text order index (actor, i)).get key =
      if key = actorKey text actor then some i else index.get key := by
  have hloop : ∀ (names : List String) (index : Dict ActorKey ℕ),
      (∀ name ∈ names, text.normalizeName name = text.normalizeName actor.name) →
      index.get (actorKey text actor) = some i →
      ∀ key, (names.foldl (fun index name => index.set (actor.type, text.normalizeName name) i)
        index).get key = index.get key := by
    intro names
    induction names with
    | nil => exact fun _ _ _ _ => rfl
    | cons name names ih =>
      intro index hnames hget key
      have hset : ∀ key, (index.set (actor.type, text.normalizeName name) i).get key = index.get key := by
        intro key
        rw [hnames name List.mem_cons_self, Dict.get_set]
        split
        · rename_i hkey
          rw [hkey]
          exact hget.symm
        · rfl
      rw [List.foldl_cons, ih _ (fun name hname => hnames name (List.mem_cons_of_mem _ hname))
        ((hset _).trans hget), hset]
  refine (hloop _ _ (fun name hname => haliases name (SetOrder.mem_list.mp hname)) ?_ key).trans ?_
  · exact Dict.get_set_self ..
  · exact Dict.get_set ..

/-- The index that is built gives the places of the actors. -/
lemma indexed_buildIndex (order : SetOrder) (h : Distinct text actors) :
    Indexed text actors (buildIndex text order actors) := by
  induction actors using List.reverseRecOn with
  | nil => exact fun _ => rfl
  | append_singleton actors actor ih =>
    have hkeys := h.keys
    rw [List.map_append, List.nodup_append'] at hkeys
    obtain ⟨hnodup, -, hdisjoint⟩ := hkeys
    have hbefore := ih ⟨hnodup, fun actor hactor => h.aliases actor (List.mem_append_left _ hactor)⟩
    have hbuild : buildIndex text order (actors ++ [actor]) =
        indexActor text order (buildIndex text order actors) (actor, actors.length) := by
      rw [buildIndex, List.zipIdx_append, List.foldl_append]
      simp [buildIndex]
    rw [hbuild]
    refine hbefore.snoc ?_ (get_indexActor order _ _ (h.aliases actor (by simp)))
    rw [hbefore, List.findIdx?_eq_none_iff]
    intro key hkey
    rw [decide_eq_false_iff_not]
    rintro rfl
    exact hdisjoint hkey (List.mem_singleton_self _)

/-- One turn of the loop finds the actor that a search finds. -/
lemma mergeStep_eq (s : MergeState) (h : Indexed text s.updated s.index) (documentId : String)
    (entity : ExtractedEntity) :
    Indexed text (mergeStep text documentId s entity).updated (mergeStep text documentId s entity).index ∧
      ((mergeStep text documentId s entity).updated, (mergeStep text documentId s entity).uuids) =
        mergeEntity text documentId (s.updated, s.uuids) entity := by
  unfold mergeStep mergeEntity
  cases htype : entityToActorType entity.type with
  | none => exact ⟨h, rfl⟩
  | some actorType =>
    have hfind := h (actorType, text.normalizeName entity.value)
    rw [findIdx?_map_actorKey] at hfind
    dsimp only
    rw [updateFirst_eq_modify, ← hfind]
    cases hget : s.index.get (actorType, text.normalizeName entity.value) with
    | none =>
      let actor := newActor s.uuids actorType entity.value documentId
      have hnew : s.index.get (actorKey text actor) = none := hget
      exact ⟨h.snoc hnew fun key => Dict.get_set .., rfl⟩
    | some i =>
      refine ⟨fun key => ?_, rfl⟩
      rw [h key]
      rw [map_modify (actorKey_recognise entity.value documentId)]

/-- **Merging through the index** merges as by a search. -/
theorem merge_eq (order : SetOrder) (h : Distinct text actors) (uuids : ℕ)
    (entities : List ExtractedEntity) (documentId : String) :
    merge text order actors uuids entities documentId =
      entities.foldl (mergeEntity text documentId) (actors, uuids) := by
  have hloop : ∀ s : MergeState, Indexed text s.updated s.index →
      ((entities.foldl (mergeStep text documentId) s).updated,
        (entities.foldl (mergeStep text documentId) s).uuids) =
      entities.foldl (mergeEntity text documentId) (s.updated, s.uuids) := by
    induction entities with
    | nil => exact fun _ _ => rfl
    | cons entity entities ih =>
      intro s hindexed
      obtain ⟨hindexed', hstep⟩ := mergeStep_eq s hindexed documentId entity
      rw [List.foldl_cons, List.foldl_cons, ih _ hindexed', hstep]
  exact hloop _ (indexed_buildIndex order h)

end ActorMerger

end Actors

/-! ### Merging what is known: facts -/

section Facts

variable {F : Type} [PyFloat F] {text : CaseText} {boost : F}

namespace FactEngine

/-- No two facts have one description. -/
def Distinct (text : CaseText) (facts : List (Fact F)) : Prop :=
  (facts.map fun fact => text.normalizeDescription fact.description).Nodup

/-- The event is known: a fact has its description and its document. -/
def Known (text : CaseText) (s : List (Fact F) × ℕ) (item : String × TimelineEvent F) : Prop :=
  ∃ fact ∈ s.1,
    text.normalizeDescription fact.description = text.normalizeDescription item.2.description ∧
      (item.1 ∈ fact.sourceDocumentIds ∨ item.1 ∈ fact.confirmingDocumentIds)

lemma corroborate_description (boost : F) (documentId : String) (fact : Fact F) :
    (corroborate boost documentId fact).description = fact.description := by
  unfold corroborate
  split <;> rfl

lemma known_corroborate (boost : F) (documentId : String) (fact : Fact F) :
    documentId ∈ (corroborate boost documentId fact).sourceDocumentIds ∨
      documentId ∈ (corroborate boost documentId fact).confirmingDocumentIds := by
  unfold corroborate
  split
  · assumption
  · exact Or.inr (PySet.mem_add_self ..)

lemma mem_corroborate {documentId : String} {fact : Fact F} (boost : F) (other : String)
    (h : documentId ∈ fact.sourceDocumentIds ∨ documentId ∈ fact.confirmingDocumentIds) :
    documentId ∈ (corroborate boost other fact).sourceDocumentIds ∨
      documentId ∈ (corroborate boost other fact).confirmingDocumentIds := by
  unfold corroborate
  split
  · exact h
  · exact h.imp_right fun hmem => PySet.mem_add_of_mem hmem other

omit [PyFloat F] in
lemma contradict_fields (date documentId : String) (fact : Fact F) :
    (contradict date documentId fact).description = fact.description ∧
      (contradict date documentId fact).sourceDocumentIds = fact.sourceDocumentIds ∧
      (contradict date documentId fact).confirmingDocumentIds = fact.confirmingDocumentIds := by
  unfold contradict
  split <;> exact ⟨rfl, rfl, rfl⟩

/-- **Ingesting an event that is known changes nothing.** -/
theorem absorbs_ingestEvent : Absorbs (fun s (item : String × TimelineEvent F) =>
    ingestEvent text boost item.1 s item.2) (fun s => Distinct text s.1) (Known text) where
  inv s item h := by
    unfold ingestEvent
    dsimp only
    split
    · rename_i hupdate
      unfold Distinct
      rw [map_updateFirst (fun fact => by rw [corroborate_description]) hupdate]
      exact h
    · rename_i hnone
      unfold Distinct
      rw [List.map_append, List.map_map, List.nodup_append']
      refine ⟨?_, List.nodup_singleton _, ?_⟩
      · have hsame : (fun fact : Fact F => text.normalizeDescription fact.description) ∘
            contradict item.2.date item.1 = fun fact => text.normalizeDescription fact.description :=
          funext fun fact => congrArg text.normalizeDescription (contradict_fields _ _ fact).1
        rw [hsame]
        exact h
      · rw [List.map_singleton, List.disjoint_singleton, List.mem_map]
        rintro ⟨fact, hfact, heq⟩
        refine of_decide_eq_false (updateFirst_eq_none.mp hnone fact hfact) ?_
        exact (congrArg text.normalizeDescription (contradict_fields _ _ fact).1).symm.trans heq
  merged s item h := by
    unfold ingestEvent
    dsimp only
    split
    · rename_i hupdate
      obtain ⟨fact, -, hfact, hmem⟩ := exists_of_updateFirst hupdate
      refine ⟨_, hmem, ?_, known_corroborate ..⟩
      rw [corroborate_description]
      exact of_decide_eq_true hfact
    · exact ⟨_, List.mem_append_right _ (List.mem_singleton_self _), rfl,
        Or.inl (PySet.mem_singleton.mpr rfl)⟩
  kept s item other h hknown := by
    obtain ⟨fact, hmem, hdescription, hdocument⟩ := hknown
    unfold ingestEvent
    dsimp only
    split
    · rename_i hupdate
      rcases mem_of_updateFirst hupdate hmem with hmem | hmem
      · exact ⟨fact, hmem, hdescription, hdocument⟩
      · refine ⟨_, hmem, ?_, mem_corroborate _ _ hdocument⟩
        rw [corroborate_description]
        exact hdescription
    · obtain ⟨hsame, hsource, hconfirming⟩ := contradict_fields other.2.date other.1 fact
      refine ⟨_, List.mem_append_left _ (List.mem_map_of_mem hmem), ?_, ?_⟩
      · rw [hsame]
        exact hdescription
      · rw [hsource, hconfirming]
        exact hdocument
  absorb s item h hknown := by
    obtain ⟨fact, hmem, hdescription, hdocument⟩ := hknown
    have hsame : corroborate boost item.1 fact = fact := if_pos hdocument
    unfold ingestEvent
    dsimp only
    rw [updateFirst_eq_self (fun fact : Fact F => text.normalizeDescription fact.description) h
      (fun _ => by rw [hdescription, decide_eq_true_eq]) hmem hsame]

end FactEngine

/-! ### Merging what is known: the timeline -/

namespace CaseTimelineEngine

/-- The date and the description of an entry. -/
def entryKey (text : CaseText) (entry : CaseTimelineEntry F) : String × String :=
  (entry.date, text.normalizeDescription entry.description)

/-- No two entries have one date and one description. -/
def Distinct (text : CaseText) (entries : List (CaseTimelineEntry F)) : Prop :=
  (entries.map (entryKey text)).Nodup

/-- The event is known: an entry has its date, its description and its document. -/
def Known (text : CaseText) (entries : List (CaseTimelineEntry F)) (event : TimelineEvent F) : Prop :=
  ∃ entry ∈ entries, (entry.date = event.date ∧
    text.normalizeDescription entry.description = text.normalizeDescription event.description) ∧
      event.documentId ∈ entry.documentIds

lemma confirm_fields (documentId : String) (entry : CaseTimelineEntry F) :
    (confirm documentId entry).date = entry.date ∧
      (confirm documentId entry).description = entry.description := by
  unfold confirm
  split <;> exact ⟨rfl, rfl⟩

lemma entryKey_confirm (documentId : String) (entry : CaseTimelineEntry F) :
    entryKey text (confirm documentId entry) = entryKey text entry := by
  obtain ⟨hdate, hdescription⟩ := confirm_fields documentId entry
  rw [entryKey, hdate, hdescription, entryKey]

lemma mem_confirm {documentId other : String} {entry : CaseTimelineEntry F} :
    documentId ∈ (confirm other entry).documentIds ↔
      documentId ∈ entry.documentIds ∨ documentId = other := by
  unfold confirm
  split
  · refine ⟨Or.inl, ?_⟩
    rintro (h | rfl)
    · exact h
    · assumption
  · exact List.mem_append.trans (or_congr_right List.mem_singleton)

/-- **Consolidating an event that is known changes nothing.** -/
theorem absorbs_consolidateEvent :
    Absorbs (consolidateEvent (F := F) text) (Distinct text) (Known text) where
  inv entries event h := by
    unfold consolidateEvent
    dsimp only
    split
    · rename_i hupdate
      unfold Distinct
      rw [map_updateFirst (entryKey_confirm event.documentId) hupdate]
      exact h
    · rename_i hnone
      unfold Distinct
      rw [List.map_append, List.nodup_append']
      refine ⟨h, List.nodup_singleton _, ?_⟩
      rw [List.map_singleton, List.disjoint_singleton, List.mem_map]
      rintro ⟨entry, hentry, heq⟩
      exact of_decide_eq_false (updateFirst_eq_none.mp hnone entry hentry) (Prod.mk.inj heq)
  merged entries event h := by
    unfold consolidateEvent
    dsimp only
    split
    · rename_i hupdate
      obtain ⟨entry, -, hentry, hmem⟩ := exists_of_updateFirst hupdate
      obtain ⟨hdate, hdescription⟩ := confirm_fields event.documentId entry
      refine ⟨_, hmem, ?_, mem_confirm.mpr (Or.inr rfl)⟩
      rw [hdate, hdescription]
      exact of_decide_eq_true hentry
    · exact ⟨_, List.mem_append_right _ (List.mem_singleton_self _), ⟨rfl, rfl⟩,
        List.mem_singleton_self _⟩
  kept entries event other h hknown := by
    obtain ⟨entry, hmem, hentry, hdocument⟩ := hknown
    unfold consolidateEvent
    dsimp only
    split
    · rename_i hupdate
      rcases mem_of_updateFirst hupdate hmem with hmem | hmem
      · exact ⟨entry, hmem, hentry, hdocument⟩
      · obtain ⟨hdate, hdescription⟩ := confirm_fields other.documentId entry
        refine ⟨_, hmem, ?_, mem_confirm.mpr (Or.inl hdocument)⟩
        rw [hdate, hdescription]
        exact hentry
    · exact ⟨entry, List.mem_append_left _ hmem, hentry, hdocument⟩
  absorb entries event h hknown := by
    obtain ⟨entry, hmem, ⟨hdate, hdescription⟩, hdocument⟩ := hknown
    have hsame : confirm event.documentId entry = entry := if_pos hdocument
    unfold consolidateEvent
    dsimp only
    rw [updateFirst_eq_self (entryKey text) h ?_ hmem hsame]
    intro other
    rw [entryKey, entryKey, hdate, hdescription, decide_eq_true_eq, Prod.mk.injEq]

end CaseTimelineEngine

end Facts

end Tmis.CaseIntelligence
