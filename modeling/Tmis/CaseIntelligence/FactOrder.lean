import Tmis.CaseIntelligence.Mergers
import Tmis.Lib.FirstSource

/-!
# Facts and the order of the documents

What the facts of a case say about its documents should not depend on the order in which these arrive.
The first document that asserts a fact gives it its date and is its source, and a contradiction is recorded
when the second one of two facts is new, between the sources.

* `ingestAll`, `Asserts`, `Contradicts` — the facts after some documents, and what they record of these;
* `Recorded`, `recorded_ingestEvent` — the facts, in terms of what was ingested;
* `SameRecord`, `NoneContradictsItself` — what should hold for all orders;
* `orderFree_iff` — it does iff the dates of the documents are settled.
-/

namespace Tmis.CaseIntelligence

open Tmis.Lib

variable {F : Type} [PyFloat F] {text : CaseText} {boost : F}

/-- The date of the first event of a document with a normalized description. -/
def DocumentRecord.dateOf (text : CaseText) (record : DocumentRecord F) (description : String) :
    Option String :=
  (record.timelineEvents.find? fun event => text.normalizeDescription event.description = description).map
    (·.date)

namespace FactEngine

/-- The facts after some documents, one after the other. -/
def ingestAll (text : CaseText) (boost : F) (records : List (DocumentRecord F)) : List (Fact F) × ℕ :=
  records.foldl (fun s record => ingest text boost s.1 s.2 record.timelineEvents record.documentId) ([], 0)

/-- The document asserts a fact with the normalized description: it is a source of it, or confirms it. -/
def Asserts (text : CaseText) (facts : List (Fact F)) (description documentId : String) : Prop :=
  ∃ fact ∈ facts, text.normalizeDescription fact.description = description ∧
    (documentId ∈ fact.sourceDocumentIds ∨ documentId ∈ fact.confirmingDocumentIds)

/-- The document is recorded as contradicting a fact with the normalized description. -/
def Contradicts (text : CaseText) (facts : List (Fact F)) (description documentId : String) : Prop :=
  ∃ fact ∈ facts, text.normalizeDescription fact.description = description ∧
    documentId ∈ fact.contradictingDocumentIds

/-- The facts record the same of the documents. -/
structure SameRecord (text : CaseText) (facts facts' : List (Fact F)) : Prop where
  asserts : ∀ description documentId,
    Asserts text facts description documentId ↔ Asserts text facts' description documentId
  contradicts : ∀ description documentId,
    Contradicts text facts description documentId ↔ Contradicts text facts' description documentId

/-- No document is recorded as contradicting a fact that it asserts. -/
def NoneContradictsItself (facts : List (Fact F)) : Prop :=
  ∀ fact ∈ facts, ∀ documentId, documentId ∈ fact.contradictingDocumentIds →
    documentId ∉ fact.sourceDocumentIds ∧ documentId ∉ fact.confirmingDocumentIds

/-! ### What the facts record -/

section Recorded

/-- The document and the date of the first item with a normalized description. -/
def firstItem (text : CaseText) (items : List (String × TimelineEvent F)) (description : String) :
    Option (String × String) :=
  (items.find? fun item => text.normalizeDescription item.2.description = description).map fun item =>
    (item.1, item.2.date)

/-- The fields of a fact, in terms of what was ingested. -/
structure Fields (text : CaseText) (items : List (String × TimelineEvent F)) (fact : Fact F)
    (documentId date : String) : Prop where
  first : firstItem text items (text.normalizeDescription fact.description) = some (documentId, date)
  dates : fact.dates = [date]
  source : ∀ id, id ∈ fact.sourceDocumentIds ↔ id = documentId
  asserting : ∀ id, id ∈ fact.sourceDocumentIds ∨ id ∈ fact.confirmingDocumentIds ↔
    ∃ item ∈ items, text.normalizeDescription item.2.description =
      text.normalizeDescription fact.description ∧ item.1 = id
  contradicting : ∀ id, id ∈ fact.contradictingDocumentIds ↔
    ∃ other, other ≠ text.normalizeDescription fact.description ∧
      firstItem text items other = some (id, date)

/-- There is one fact for each description that was ingested, with fields as they should be. -/
structure Recorded (text : CaseText) (items : List (String × TimelineEvent F)) (facts : List (Fact F)) :
    Prop where
  distinct : Distinct text facts
  described : ∀ description, (∃ fact ∈ facts, text.normalizeDescription fact.description = description) ↔
    (firstItem text items description).isSome
  fields : ∀ fact ∈ facts, ∃ documentId date, Fields text items fact documentId date

variable {items : List (String × TimelineEvent F)} {facts : List (Fact F)} {documentId : String}
  {event : TimelineEvent F}

omit [PyFloat F] in
lemma firstItem_snoc (items : List (String × TimelineEvent F)) (documentId : String)
    (event : TimelineEvent F) (description : String) :
    firstItem text (items ++ [(documentId, event)]) description =
      (firstItem text items description).or
        (if text.normalizeDescription event.description = description then some (documentId, event.date)
        else none) := by
  unfold firstItem
  rw [List.find?_append, Option.map_or, List.find?_singleton]
  by_cases h : text.normalizeDescription event.description = description <;> simp [h]

lemma corroborate_fields (boost : F) (documentId : String) (fact : Fact F) :
    (corroborate boost documentId fact).dates = fact.dates ∧
      (corroborate boost documentId fact).sourceDocumentIds = fact.sourceDocumentIds ∧
      (corroborate boost documentId fact).contradictingDocumentIds = fact.contradictingDocumentIds := by
  unfold corroborate
  split <;> exact ⟨rfl, rfl, rfl⟩

lemma mem_corroborate_iff (boost : F) (documentId : String) (fact : Fact F) (id : String) :
    id ∈ (corroborate boost documentId fact).sourceDocumentIds ∨
      id ∈ (corroborate boost documentId fact).confirmingDocumentIds ↔
      (id ∈ fact.sourceDocumentIds ∨ id ∈ fact.confirmingDocumentIds) ∨ id = documentId := by
  unfold corroborate
  split
  · rename_i hknown
    refine ⟨Or.inl, ?_⟩
    rintro (h | rfl)
    · exact h
    · exact hknown
  · rw [PySet.mem_add, or_assoc]

omit [PyFloat F] in
/-- One item more, of a description that was ingested before, is the first of none. -/
lemma firstItem_snoc_of_known (documentId : String)
    (h : (firstItem text items (text.normalizeDescription event.description)).isSome) (description : String) :
    firstItem text (items ++ [(documentId, event)]) description = firstItem text items description := by
  rw [firstItem_snoc]
  split
  · rename_i hsame
    rw [hsame] at h
    obtain ⟨first, hfirst⟩ := Option.isSome_iff_exists.mp h
    rw [hfirst, Option.some_or]
  · rw [Option.or_none]

omit [PyFloat F] in
/-- A fact of another description records the same after an item that is the first of none. -/
lemma Fields.snoc {fact : Fact F} {sourceId date : String} (h : Fields text items fact sourceId date)
    (hother : text.normalizeDescription event.description ≠ text.normalizeDescription fact.description)
    (hfirst : ∀ description, firstItem text (items ++ [(documentId, event)]) description =
      firstItem text items description) :
    Fields text (items ++ [(documentId, event)]) fact sourceId date where
  first := (hfirst _).trans h.first
  dates := h.dates
  source := h.source
  asserting id := by
    rw [h.asserting]
    simp [or_and_right, exists_or, hother]
  contradicting id := by
    simp only [hfirst, h.contradicting]

/-- A fact that is corroborated asserts one document more, and is as it was otherwise. -/
lemma Fields.corroborate {fact : Fact F} {sourceId date : String} (h : Fields text items fact sourceId date)
    (hsame : text.normalizeDescription event.description = text.normalizeDescription fact.description)
    (hfirst : ∀ description, firstItem text (items ++ [(documentId, event)]) description =
      firstItem text items description) :
    Fields text (items ++ [(documentId, event)]) (corroborate boost documentId fact) sourceId date := by
  obtain ⟨hdates, hsource, hcontradicting⟩ := corroborate_fields boost documentId fact
  refine ⟨?_, hdates.trans h.dates, ?_, fun id => ?_, fun id => ?_⟩
  · rw [corroborate_description, hfirst]
    exact h.first
  · rw [hsource]
    exact h.source
  · rw [corroborate_description, mem_corroborate_iff, h.asserting]
    simp [or_and_right, exists_or, hsame, eq_comm]
  · rw [hcontradicting, corroborate_description]
    simp only [hfirst, h.contradicting]

/-- An event of a description that was ingested before. -/
lemma recorded_corroborate (h : Recorded text items facts) {facts' : List (Fact F)}
    (hdistinct : Distinct text facts')
    (hupdate : updateFirst (fun fact : Fact F =>
        text.normalizeDescription fact.description = text.normalizeDescription event.description)
      (corroborate boost documentId) facts = some facts') :
    Recorded text (items ++ [(documentId, event)]) facts' := by
  obtain ⟨pre, fact, post, rfl, -, hfact, rfl⟩ := updateFirst_eq_some.mp hupdate
  have hsame := of_decide_eq_true hfact
  have hfirst := firstItem_snoc_of_known documentId
    ((h.described (text.normalizeDescription event.description)).mp ⟨fact, by simp, hsame⟩)
  refine ⟨hdistinct, fun description => ?_, fun other hother => ?_⟩
  · rw [hfirst, ← h.described]
    simp only [List.mem_append, List.mem_cons, or_and_right, exists_or, exists_eq_left,
      corroborate_description]
  · have hmiddle := h.distinct
    rw [Distinct, List.map_append, List.map_cons, List.nodup_middle, List.nodup_cons, ← List.map_append]
      at hmiddle
    rcases List.mem_append.mp hother with hpre | hrest
    · obtain ⟨sourceId, date, hfields⟩ := h.fields other (by simp [hpre])
      refine ⟨sourceId, date, hfields.snoc (fun heq => hmiddle.1 ?_) hfirst⟩
      exact List.mem_map.mpr ⟨other, by simp [hpre], (hsame.trans heq).symm⟩
    · rcases List.mem_cons.mp hrest with rfl | hpost
      · obtain ⟨sourceId, date, hfields⟩ := h.fields fact (by simp)
        exact ⟨sourceId, date, hfields.corroborate hsame.symm hfirst⟩
      · obtain ⟨sourceId, date, hfields⟩ := h.fields other (by simp [hpost])
        refine ⟨sourceId, date, hfields.snoc (fun heq => hmiddle.1 ?_) hfirst⟩
        exact List.mem_map.mpr ⟨other, by simp [hpost], (hsame.trans heq).symm⟩

omit [PyFloat F] in
/-- A fact that a new one contradicts, if they are of one date, and is as it was otherwise. -/
lemma Fields.contradict {fact : Fact F} {sourceId date : String} (h : Fields text items fact sourceId date)
    (hother : text.normalizeDescription event.description ≠ text.normalizeDescription fact.description)
    (hnew : firstItem text items (text.normalizeDescription event.description) = none) :
    Fields text (items ++ [(documentId, event)]) (contradict event.date documentId fact) sourceId date := by
  obtain ⟨hdescription, hsource, hconfirming⟩ := contradict_fields event.date documentId fact
  refine ⟨?_, ?_, ?_, fun id => ?_, fun id => ?_⟩
  · rw [hdescription, firstItem_snoc, h.first, Option.some_or]
  · rw [← h.dates]
    unfold FactEngine.contradict
    split <;> rfl
  · rw [hsource]
    exact h.source
  · rw [hsource, hconfirming, hdescription, h.asserting]
    simp [or_and_right, exists_or, hother]
  · have hmem : id ∈ (FactEngine.contradict event.date documentId fact).contradictingDocumentIds ↔
        id ∈ fact.contradictingDocumentIds ∨ (id = documentId ∧ event.date = date) := by
      unfold FactEngine.contradict
      rw [h.dates]
      by_cases hdate : event.date = date <;> simp [hdate]
    rw [hmem, hdescription, h.contradicting]
    constructor
    · rintro (⟨other, hne, hfirst⟩ | ⟨rfl, hdate⟩)
      · exact ⟨other, hne, by rw [firstItem_snoc, hfirst, Option.some_or]⟩
      · exact ⟨_, hother, by rw [firstItem_snoc, hnew, if_pos rfl, hdate, Option.none_or]⟩
    · rintro ⟨other, hne, hfirst⟩
      rw [firstItem_snoc] at hfirst
      by_cases heq : text.normalizeDescription event.description = other
      · subst heq
        rw [hnew, if_pos rfl, Option.none_or, Option.some.injEq, Prod.mk.injEq] at hfirst
        exact Or.inr ⟨hfirst.1.symm, hfirst.2⟩
      · rw [if_neg heq, Option.or_none] at hfirst
        exact Or.inl ⟨other, hne, hfirst⟩

omit [PyFloat F] in
lemma mem_foldl_union (ids : PySet String) (others : List (Fact F)) (id : String) :
    id ∈ others.foldl (fun ids other => ids.union other.sourceDocumentIds) ids ↔
      id ∈ ids ∨ ∃ other ∈ others, id ∈ other.sourceDocumentIds := by
  induction others generalizing ids with
  | nil => simp
  | cons other others ih => simp [ih, or_assoc]

omit [PyFloat F] in
/-- The fields of a new fact. -/
lemma fields_newFact (h : Recorded text items facts)
    (hnew : firstItem text items (text.normalizeDescription event.description) = none) (id : Uuid) :
    Fields text (items ++ [(documentId, event)]) (newFact facts id event documentId) documentId
      event.date where
  first := by
    change firstItem text _ (text.normalizeDescription event.description) = _
    rw [firstItem_snoc, hnew, if_pos rfl, Option.none_or]
  dates := rfl
  source id := PySet.mem_singleton
  asserting id := by
    have hnone : ∀ item ∈ items, text.normalizeDescription item.2.description ≠
        text.normalizeDescription event.description := by
      simpa [firstItem] using hnew
    constructor
    · rintro (hid | hid)
      · exact ⟨(documentId, event), by simp, rfl, (PySet.mem_singleton.mp hid).symm⟩
      · exact absurd hid PySet.not_mem_empty
    · rintro ⟨item, hitem, hsame, rfl⟩
      rcases List.mem_append.mp hitem with hold | hadded
      · exact absurd hsame (hnone item hold)
      · rw [List.mem_singleton.mp hadded]
        exact Or.inl (PySet.mem_singleton.mpr rfl)
  contradicting id := by
    change id ∈ (facts.filter fun other => event.date ∈ other.dates).foldl _ ∅ ↔
      ∃ other, other ≠ text.normalizeDescription event.description ∧ _
    rw [mem_foldl_union, or_iff_right PySet.not_mem_empty]
    constructor
    · rintro ⟨fact, hfact, hid⟩
      obtain ⟨hmem, hdate⟩ := List.mem_filter.mp hfact
      obtain ⟨sourceId, date, hfields⟩ := h.fields fact hmem
      rw [hfields.dates, decide_eq_true_eq, List.mem_singleton] at hdate
      refine ⟨text.normalizeDescription fact.description, fun heq => ?_, ?_⟩
      · rw [← heq, hfields.first] at hnew
        cases hnew
      · rw [firstItem_snoc, hfields.first, Option.some_or, (hfields.source id).mp hid, hdate]
    · rintro ⟨other, hne, hfirst⟩
      rw [firstItem_snoc, if_neg hne.symm, Option.or_none] at hfirst
      obtain ⟨fact, hmem, rfl⟩ := (h.described other).mpr (by rw [hfirst]; rfl)
      obtain ⟨sourceId, date, hfields⟩ := h.fields fact hmem
      obtain ⟨rfl, rfl⟩ := Prod.mk.inj (Option.some.inj (hfirst.symm.trans hfields.first))
      exact ⟨fact, List.mem_filter.mpr ⟨hmem, by simp [hfields.dates]⟩, (hfields.source id).mpr rfl⟩

omit [PyFloat F] in
/-- An event of a new description. -/
lemma recorded_new (h : Recorded text items facts) (id : Uuid)
    (hdistinct : Distinct text
      (facts.map (contradict event.date documentId) ++ [newFact facts id event documentId]))
    (hnone : ∀ fact ∈ facts,
      text.normalizeDescription fact.description ≠ text.normalizeDescription event.description) :
    Recorded text (items ++ [(documentId, event)])
      (facts.map (contradict event.date documentId) ++ [newFact facts id event documentId]) := by
  have hnew : firstItem text items (text.normalizeDescription event.description) = none := by
    rw [← Option.not_isSome_iff_eq_none, ← h.described]
    rintro ⟨fact, hfact, hsame⟩
    exact hnone fact hfact hsame
  refine ⟨hdistinct, fun description => ?_, fun fact hfact => ?_⟩
  · have hkept : (∃ fact ∈ facts.map (contradict event.date documentId) ++
          [newFact facts id event documentId], text.normalizeDescription fact.description = description) ↔
        (∃ fact ∈ facts, text.normalizeDescription fact.description = description) ∨
          text.normalizeDescription event.description = description := by
      simp [or_and_right, exists_or, contradict_fields, newFact]
    rw [hkept, h.described, firstItem_snoc]
    by_cases heq : text.normalizeDescription event.description = description <;> simp [heq]
  · rcases List.mem_append.mp hfact with hold | hadded
    · obtain ⟨old, hmem, rfl⟩ := List.mem_map.mp hold
      obtain ⟨sourceId, date, hfields⟩ := h.fields old hmem
      exact ⟨sourceId, date, hfields.contradict (hnone old hmem).symm hnew⟩
    · obtain rfl := List.mem_singleton.mp hadded
      exact ⟨documentId, event.date, fields_newFact h hnew id⟩

/-- What the facts record, one event later. -/
theorem recorded_ingestEvent (boost : F) (h : Recorded text items facts) (uuids : ℕ) (documentId : String)
    (event : TimelineEvent F) :
    Recorded text (items ++ [(documentId, event)])
      (ingestEvent text boost documentId (facts, uuids) event).1 := by
  have hdistinct : Distinct text (ingestEvent text boost documentId (facts, uuids) event).1 :=
    absorbs_ingestEvent.inv (facts, uuids) (documentId, event) h.distinct
  unfold ingestEvent at hdistinct ⊢
  dsimp only at hdistinct ⊢
  split at hdistinct
  · rename_i hupdate
    exact recorded_corroborate h hdistinct hupdate
  · rename_i hnone
    exact recorded_new h uuids hdistinct fun fact hfact =>
      of_decide_eq_false (updateFirst_eq_none.mp hnone fact hfact)

/-- What the facts record after the events of a document. -/
lemma recorded_ingest (boost : F) (h : Recorded text items facts) (uuids : ℕ) (events : List (TimelineEvent F))
    (documentId : String) :
    Recorded text (items ++ events.map (documentId, ·)) (ingest text boost facts uuids events documentId).1 := by
  induction events generalizing items facts uuids with
  | nil => simpa [ingest] using h
  | cons event events ih =>
    have hnext := ih (recorded_ingestEvent boost h uuids documentId event)
      (ingestEvent text boost documentId (facts, uuids) event).2
    rw [List.append_assoc] at hnext
    exact hnext

/-- The events of some documents, in the order in which they are ingested. -/
def itemsOf (records : List (DocumentRecord F)) : List (String × TimelineEvent F) :=
  records.flatMap fun record => record.timelineEvents.map (record.documentId, ·)

/-- What the facts record after some documents. -/
theorem recorded_ingestAll (text : CaseText) (boost : F) (records : List (DocumentRecord F)) :
    Recorded text (itemsOf records) (ingestAll text boost records).1 := by
  have hall : ∀ (records : List (DocumentRecord F)) (s : List (Fact F) × ℕ) (items),
      Recorded text items s.1 → Recorded text (items ++ itemsOf records) (records.foldl
        (fun s record => ingest text boost s.1 s.2 record.timelineEvents record.documentId) s).1 := by
    intro records
    induction records with
    | nil => simp [itemsOf]
    | cons record records ih =>
      intro s items h
      have hnext := ih _ _ (recorded_ingest boost h s.2 record.timelineEvents record.documentId)
      rw [List.append_assoc] at hnext
      exact hnext
  exact hall records ([], 0) [] ⟨List.nodup_nil, by simp [firstItem], by simp⟩

end Recorded

/-! ### Documents -/

section Documents

variable {records : List (DocumentRecord F)} {description documentId : String}

omit [PyFloat F] in
lemma firstItem_itemsOf (records : List (DocumentRecord F)) (description : String) :
    firstItem text (itemsOf records) description =
      (firstSource (DocumentRecord.dateOf text) records description).bind fun record =>
        (record.dateOf text description).map (record.documentId, ·) := by
  induction records with
  | nil => rfl
  | cons record records ih =>
    have hfirst : firstItem text (itemsOf (record :: records)) description =
        ((record.dateOf text description).map (record.documentId, ·)).or
          (firstItem text (itemsOf records) description) := by
      rw [firstItem, itemsOf, List.flatMap_cons, List.find?_append, Option.map_or, List.find?_map,
        Option.map_map, DocumentRecord.dateOf, Option.map_map]
      rfl
    rw [hfirst, ih]
    cases hdate : record.dateOf text description with
    | none => rw [firstSource_cons_of_not (by simp [hdate]), Option.map_none, Option.none_or]
    | some date => rw [firstSource_cons_self (by simp [hdate]), Option.bind_some, hdate, Option.map_some,
        Option.some_or]

omit [PyFloat F] in
/-- The first item with a description is of the first document that asserts it. -/
lemma firstItem_eq_some {date : String} :
    firstItem text (itemsOf records) description = some (documentId, date) ↔
      ∃ record, firstSource (DocumentRecord.dateOf text) records description = some record ∧
        record.documentId = documentId ∧ record.dateOf text description = some date := by
  rw [firstItem_itemsOf]
  simp only [Option.bind_eq_some_iff, Option.map_eq_some_iff, Prod.mk.injEq]
  constructor
  · rintro ⟨record, hfirst, date, hdate, rfl, rfl⟩
    exact ⟨record, hfirst, rfl, hdate⟩
  · rintro ⟨record, hfirst, rfl, hdate⟩
    exact ⟨record, hfirst, date, hdate, rfl, rfl⟩

lemma asserts_iff (boost : F) : Asserts text (ingestAll text boost records).1 description documentId ↔
    ∃ record ∈ records, record.documentId = documentId ∧ (record.dateOf text description).isSome := by
  have hrecorded := recorded_ingestAll text boost records
  have hitems : (∃ item ∈ itemsOf records, text.normalizeDescription item.2.description = description ∧
      item.1 = documentId) ↔
      ∃ record ∈ records, record.documentId = documentId ∧ (record.dateOf text description).isSome := by
    simp only [itemsOf, DocumentRecord.dateOf, List.mem_flatMap, List.mem_map, Option.isSome_map,
      List.find?_isSome, decide_eq_true_eq]
    constructor
    · rintro ⟨-, ⟨record, hrecord, event, hevent, rfl⟩, hsame, hid⟩
      exact ⟨record, hrecord, hid, event, hevent, hsame⟩
    · rintro ⟨record, hrecord, hid, event, hevent, hsame⟩
      exact ⟨_, ⟨record, hrecord, event, hevent, rfl⟩, hsame, hid⟩
  rw [← hitems]
  constructor
  · rintro ⟨fact, hfact, rfl, hasserts⟩
    obtain ⟨sourceId, date, hfields⟩ := hrecorded.fields fact hfact
    exact (hfields.asserting documentId).mp hasserts
  · rintro ⟨item, hitem, hsame, hid⟩
    have hsome : (firstItem text (itemsOf records) description).isSome := by
      simpa [firstItem] using ⟨item.1, item.2, hitem, hsame⟩
    obtain ⟨fact, hfact, hdescription⟩ := (hrecorded.described description).mpr hsome
    obtain ⟨sourceId, date, hfields⟩ := hrecorded.fields fact hfact
    exact ⟨fact, hfact, hdescription,
      (hfields.asserting documentId).mpr ⟨item, hitem, hsame.trans hdescription.symm, hid⟩⟩

lemma contradicts_iff (boost : F) : Contradicts text (ingestAll text boost records).1 description documentId ↔
    ∃ record, record.documentId = documentId ∧
      Opposes (DocumentRecord.dateOf text) records description record := by
  have hrecorded := recorded_ingestAll text boost records
  constructor
  · rintro ⟨fact, hfact, rfl, hcontradicts⟩
    obtain ⟨sourceId, date, hfields⟩ := hrecorded.fields fact hfact
    obtain ⟨other, hne, hother⟩ := (hfields.contradicting documentId).mp hcontradicts
    obtain ⟨source, hsource, -, hdate⟩ := firstItem_eq_some.mp hfields.first
    obtain ⟨record, hrecord, hid, hdate'⟩ := firstItem_eq_some.mp hother
    exact ⟨record, hid, other, source, date, hne, hsource, hdate, hrecord, hdate'⟩
  · rintro ⟨record, hid, other, source, date, hne, hsource, hdate, hrecord, hdate'⟩
    have hfirst := firstItem_eq_some.mpr ⟨source, hsource, rfl, hdate⟩
    obtain ⟨fact, hfact, rfl⟩ := (hrecorded.described description).mpr (by rw [hfirst]; rfl)
    obtain ⟨sourceId, date', hfields⟩ := hrecorded.fields fact hfact
    obtain ⟨-, rfl⟩ := Prod.mk.inj (Option.some.inj (hfirst.symm.trans hfields.first))
    exact ⟨fact, hfact, rfl, (hfields.contradicting documentId).mpr
      ⟨other, hne, firstItem_eq_some.mpr ⟨record, hrecord, hid, hdate'⟩⟩⟩

/-- **Facts and the order of the documents**: for documents with distinct ids, the facts record the same in
all orders, and no document as contradicting what it asserts in any of them, iff the dates are settled:
two descriptions that have one date are asserted by one document each, two different ones, or both by both
documents that give that date. -/
theorem orderFree_iff (text : CaseText) (boost : F) (h : (records.map (·.documentId)).Nodup) :
    (∀ first second, first.Perm records → second.Perm records →
      SameRecord text (ingestAll text boost first).1 (ingestAll text boost second).1 ∧
        NoneContradictsItself (ingestAll text boost first).1) ↔
      Settled (DocumentRecord.dateOf text) records := by
  have hinj : ∀ record ∈ records, ∀ other ∈ records, record.documentId = other.documentId →
      record = other := fun _ hrecord _ hother heq => List.inj_on_of_nodup_map h hrecord hother heq
  rw [← order_free_iff h.of_map]
  constructor
  · intro hall
    have hsame : ∀ first second, first.Perm records → second.Perm records → ∀ description record,
        Opposes (DocumentRecord.dateOf text) first description record →
        Opposes (DocumentRecord.dateOf text) second description record := by
      intro first second hfirst hsecond description record hopposes
      have hcontradicts := ((hall first second hfirst hsecond).1.contradicts description
        record.documentId).mp ((contradicts_iff boost).mpr ⟨record, rfl, hopposes⟩)
      obtain ⟨other, hid, hother⟩ := (contradicts_iff boost).mp hcontradicts
      rwa [← hinj other (hsecond.subset hother.mem) record (hfirst.subset hopposes.mem) hid]
    refine ⟨fun first second hfirst hsecond description record =>
      ⟨hsame first second hfirst hsecond description record,
        hsame second first hsecond hfirst description record⟩, ?_⟩
    intro first hfirst description record hopposes hasserts
    obtain ⟨fact, hfact, hdescription, hcontradicts⟩ :=
      (contradicts_iff boost).mpr ⟨record, rfl, hopposes⟩
    obtain ⟨fact', hfact', hdescription', hsource⟩ :=
      (asserts_iff boost).mpr ⟨record, hopposes.mem, rfl, hasserts⟩
    obtain rfl : fact = fact' := List.inj_on_of_nodup_map (recorded_ingestAll text boost first).distinct hfact hfact'
      (hdescription.trans hdescription'.symm)
    obtain ⟨hnot, hnot'⟩ := (hall first first hfirst hfirst).2 fact hfact _ hcontradicts
    exact hsource.elim hnot hnot'
  · rintro ⟨hfree, hitself⟩ first second hfirst hsecond
    refine ⟨⟨fun description documentId => ?_, fun description documentId => ?_⟩, ?_⟩
    · rw [asserts_iff, asserts_iff]
      simp only [hfirst.mem_iff, hsecond.mem_iff]
    · rw [contradicts_iff, contradicts_iff]
      simp only [hfree first second hfirst hsecond]
    · intro fact hfact documentId hcontradicts
      obtain ⟨record, rfl, hopposes⟩ := (contradicts_iff boost).mp ⟨fact, hfact, rfl, hcontradicts⟩
      rw [← not_or]
      intro hasserting
      obtain ⟨other, hother, hid, hasserts⟩ := (asserts_iff boost).mp ⟨fact, hfact, rfl, hasserting⟩
      rw [hinj other (hfirst.subset hother) record (hfirst.subset hopposes.mem) hid] at hasserts
      exact hitself first hfirst _ record hopposes hasserts

/-- A document with events of one date. -/
def sameDay (documentId : String) (descriptions : List String) : DocumentRecord ℚ where
  documentId
  timelineEvents := descriptions.map fun description =>
    { date := "12/01/2019", description, documentId, confidence := 3 / 5 }

/-- Two documents that disagree. -/
theorem orderFree_iff_disagree :
    let records := [sameDay "doc-1" ["Signature"], sameDay "doc-2" ["Resiliation"]]
    (∀ first second, first.Perm records → second.Perm records →
      SameRecord CaseText.ascii (ingestAll CaseText.ascii (1 / 10) first).1
          (ingestAll CaseText.ascii (1 / 10) second).1 ∧
        NoneContradictsItself (ingestAll CaseText.ascii (1 / 10) first).1) ↔
      Settled (DocumentRecord.dateOf CaseText.ascii) records :=
  orderFree_iff CaseText.ascii (1 / 10) (by decide)

instance (facts : List (Fact F)) (description documentId : String) :
    Decidable (Contradicts text facts description documentId) := by unfold Contradicts; infer_instance

instance (facts : List (Fact F)) (description documentId : String) :
    Decidable (Asserts text facts description documentId) := by unfold Asserts; infer_instance

/-- Of two documents that agree, the third one contradicts the first to come; and a document with two events
of one date contradicts both of them. -/
theorem first_to_come :
    let facts := fun records => (ingestAll CaseText.ascii (1 / 10) records).1
    let a := sameDay "doc-1" ["Signature"]
    let b := sameDay "doc-2" ["Signature"]
    let c := sameDay "doc-3" ["Resiliation"]
    let d := sameDay "doc-4" ["Signature", "Resiliation"]
    Contradicts CaseText.ascii (facts [a, b, c]) "resiliation" "doc-1" ∧
      ¬ Contradicts CaseText.ascii (facts [b, a, c]) "resiliation" "doc-1" ∧
      Contradicts CaseText.ascii (facts [d]) "signature" "doc-4" ∧
      Asserts CaseText.ascii (facts [d]) "signature" "doc-4" := by decide +kernel

end Documents

end FactEngine

end Tmis.CaseIntelligence
