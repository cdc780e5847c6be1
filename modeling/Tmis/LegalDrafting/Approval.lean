import Tmis.LegalDrafting.Orchestrator
import Tmis.Lib.Run

/-!
# What a lawyer's approval covers

A draft that a lawyer has approved should have the sections that were approved.  The operations that
rewrite sections leave the status as it is, so this depends on what they write.

* `Writes` — the sections an operation writes into a draft;
* `step_effect` — all that one operation does to the drafts;
* `LeavesApproved` — the discipline: what is written into an approved draft is what stands there;
* `along_keepsApproval_iff` — the runs in which approvals are kept.
-/

namespace Tmis.LegalDrafting

open Tmis.Lib DocumentOrchestrator

/-! ### What is written into a draft -/

/-- The operation finds the draft `document` and writes `sections` into it. -/
inductive Writes (registry : TemplateRegistry) (s : DocumentOrchestrator) :
    Operation → Document → List Section → Prop
  | regenerateSection {documentId sectionKey document template templateSection paragraphs oldSection}
      (hdocument : s.requireDocument documentId = .ok document)
      (htemplate : requireTemplate registry document.templateId = .ok template)
      (hkey : requireTemplateSection template sectionKey = .ok templateSection)
      (hold : requireSection document sectionKey = .ok oldSection) :
      Writes registry s (.regenerateSection documentId sectionKey (.ok paragraphs)) document
        (document.sections.set (document.sections.idxOf oldSection)
          (buildSection templateSection oldSection.id (inPlacesOf paragraphs oldSection.paragraphs)))
  | regenerateParagraph {documentId sectionKey paragraphId document template templateSection oldSection
        index paragraph new paragraphs}
      (hdocument : s.requireDocument documentId = .ok document)
      (htemplate : requireTemplate registry document.templateId = .ok template)
      (hkey : requireTemplateSection template sectionKey = .ok templateSection)
      (hold : requireSection document sectionKey = .ok oldSection)
      (hparagraph : requireParagraph oldSection paragraphId = .ok (index, paragraph))
      (hnew : regenerateOne paragraph paragraphs = .ok new) :
      Writes registry s (.regenerateParagraph documentId sectionKey paragraphId (.ok paragraphs)) document
        (document.sections.set (document.sections.idxOf oldSection)
          { oldSection with paragraphs := oldSection.paragraphs.set index new })
  | restoreVersion {documentId versionNumber author document sections}
      (hdocument : s.requireDocument documentId = .ok document)
      (hversion : s.restore documentId versionNumber = .ok sections) :
      Writes registry s (.restoreVersion documentId versionNumber author) document sections

/-- All that an operation does to the drafts. -/
inductive Effect (registry : TemplateRegistry) (s : DocumentOrchestrator) :
    Operation → Store Uuid Document Document.id → Prop
  | unchanged {op} (hnone : ∀ document sections, ¬ Writes registry s op document sections)
      (hdecides : ∀ documentId decision author comment,
        op = .validate documentId decision author comment → s.documents.get documentId = none) :
      Effect registry s op s.documents
  | created {documentType generated document} (hstatus : document.status = .underReview) :
      Effect registry s (.createDraft documentType generated) (s.documents.save document)
  | written {op document sections} (hwrites : Writes registry s op document sections) :
      Effect registry s op (s.documents.save { document with sections })
  | decided {documentId decision author comment document}
      (hdocument : s.requireDocument documentId = .ok document) :
      Effect registry s (.validate documentId decision author comment)
        (s.documents.save { document with status := decision.status document.status })

section Step

variable {registry : TemplateRegistry} {s : DocumentOrchestrator}

lemma requireDocument_ok {documentId : Uuid} {document : Document} :
    s.requireDocument documentId = .ok document ↔ s.documents.get documentId = some document := by
  unfold requireDocument
  cases s.documents.get documentId <;> simp

/-- What an operation writes into a draft is saved. -/
lemma Writes.perform_ok {op : Operation} {document : Document} {sections : List Section}
    (h : Writes registry s op document sections) :
    ∃ s', perform registry s op = .ok s' ∧
      s'.documents = s.documents.save { document with sections } := by
  cases h with
  | regenerateSection hdocument htemplate hkey hold =>
    simp only [perform, DocumentOrchestrator.regenerateSection, hdocument, htemplate, hkey, hold, bind,
      Except.bind, pure, Except.pure, Except.map, Except.ok.injEq, exists_eq_left']
    rfl
  | regenerateParagraph hdocument htemplate hkey hold hparagraph hnew =>
    simp only [perform, DocumentOrchestrator.regenerateParagraph, hdocument, htemplate, hkey, hold,
      hparagraph, hnew, bind, Except.bind, pure, Except.pure, Except.map, Except.ok.injEq,
      exists_eq_left']
    rfl
  | restoreVersion hdocument hversion =>
    simp only [perform, DocumentOrchestrator.restoreVersion, hdocument, hversion, bind, Except.bind,
      pure, Except.pure, Except.map, Except.ok.injEq, exists_eq_left']
    rfl

/-- The effect of a call that returns. -/
lemma effect_of_ok {op : Operation} {s' : DocumentOrchestrator} (h : perform registry s op = .ok s') :
    Effect registry s op s'.documents := by
  cases op with
  | createDraft documentType generated =>
    obtain ⟨r, hr, rfl⟩ := map_eq_ok.mp h
    simp only [DocumentOrchestrator.createDraft, bind_eq_ok, pure_eq_ok] at hr
    obtain ⟨template, -, paragraphs, -, rfl⟩ := hr
    exact .created rfl
  | regenerateSection documentId sectionKey generated =>
    obtain ⟨r, hr, rfl⟩ := map_eq_ok.mp h
    simp only [DocumentOrchestrator.regenerateSection, bind_eq_ok, pure_eq_ok] at hr
    obtain ⟨document, hdocument, template, htemplate, templateSection, hkey, paragraphs, rfl,
      oldSection, hold, rfl⟩ := hr
    exact .written (.regenerateSection hdocument htemplate hkey hold)
  | regenerateParagraph documentId sectionKey paragraphId generated =>
    obtain ⟨r, hr, rfl⟩ := map_eq_ok.mp h
    simp only [DocumentOrchestrator.regenerateParagraph, bind_eq_ok, pure_eq_ok] at hr
    obtain ⟨document, hdocument, template, htemplate, templateSection, hkey, oldSection, hold,
      ⟨index, paragraph⟩, hparagraph, paragraphs, rfl, new, hnew, rfl⟩ := hr
    exact .written (.regenerateParagraph hdocument htemplate hkey hold hparagraph hnew)
  | restoreVersion documentId versionNumber author =>
    obtain ⟨r, hr, rfl⟩ := map_eq_ok.mp h
    simp only [DocumentOrchestrator.restoreVersion, bind_eq_ok, pure_eq_ok] at hr
    obtain ⟨document, hdocument, sections, hversion, rfl⟩ := hr
    exact .written (.restoreVersion hdocument hversion)
  | validate documentId decision author comment =>
    obtain ⟨r, hr, rfl⟩ := map_eq_ok.mp h
    simp only [DocumentOrchestrator.validate, bind_eq_ok, pure_eq_ok] at hr
    obtain ⟨document, hdocument, rfl⟩ := hr
    exact .decided hdocument

/-- **All that one operation does to the drafts.** -/
theorem step_effect (registry : TemplateRegistry) (s : DocumentOrchestrator) (op : Operation) :
    Effect registry s op (step registry s op).documents := by
  unfold step
  rcases afterCall_cases s (perform registry s op) with hok | ⟨hfail, hsame⟩
  · exact effect_of_ok hok
  · rw [hsame]
    refine .unchanged (fun document sections hwrites => ?_) ?_
    · obtain ⟨s', hok, -⟩ := hwrites.perform_ok
      exact hfail _ hok
    · rintro documentId decision author comment rfl
      rw [Option.eq_none_iff_forall_ne_some]
      intro document hdocument
      have hok := requireDocument_ok.mpr hdocument
      refine absurd ?_ (not_exists.mpr hfail)
      simp only [perform, DocumentOrchestrator.validate, hok, bind, Except.bind, pure, Except.pure,
        Except.map, Except.ok.injEq, exists_eq']

end Step

/-! ### Writing what stands there -/

/-- The paragraph has the content of the old one; its identifier and its place aside. -/
def Paragraph.SaysAs (new old : Paragraph) : Prop :=
  new.sectionKey = old.sectionKey ∧ new.text = old.text ∧ new.origin = old.origin ∧
    new.factIds = old.factIds ∧ new.referenceIds = old.referenceIds ∧
    new.evidenceIds = old.evidenceIds ∧ new.hypothesisIds = old.hypothesisIds

lemma inPlaceOf_eq_iff {new old : Paragraph} : new.inPlaceOf old = old ↔ new.SaysAs old := by
  obtain ⟨⟩ := new
  obtain ⟨⟩ := old
  simp [Paragraph.inPlaceOf, Paragraph.SaysAs]

lemma inPlacesOf_eq_iff {news olds : List Paragraph} :
    inPlacesOf news olds = olds ↔ List.Forall₂ Paragraph.SaysAs news olds := by
  induction news generalizing olds with
  | nil => cases olds <;> simp [inPlacesOf]
  | cons new news ih =>
    cases olds with
    | nil => simp [inPlacesOf]
    | cons old olds => simp [inPlacesOf, inPlaceOf_eq_iff, ih]

lemma set_eq_iff {α : Type*} {l : List α} {i : ℕ} {a b : α} (h : l[i]? = some a) :
    l.set i b = l ↔ b = a := by
  obtain ⟨hi, ha⟩ := List.getElem?_eq_some_iff.mp h
  constructor
  · intro hset
    have hb : (l.set i b)[i]? = some b := List.getElem?_set_self hi
    rw [hset, h] at hb
    exact (Option.some.inj hb).symm
  · rintro rfl
    rw [← ha, List.set_getElem_self]

lemma getElem?_idxOf {α : Type*} [DecidableEq α] {l : List α} {a : α} (h : a ∈ l) :
    l[l.idxOf a]? = some a := by
  have hlt := List.idxOf_lt_length_of_mem h
  rw [List.getElem?_eq_getElem hlt, List.getElem_idxOf hlt]

lemma requireTemplateSection_key {template : DocumentTemplate} {sectionKey : String}
    {templateSection : TemplateSection}
    (h : requireTemplateSection template sectionKey = .ok templateSection) :
    templateSection.key = sectionKey := by
  unfold requireTemplateSection at h
  split at h
  · rename_i found hfound
    cases h
    have hkey := List.find?_some hfound
    exact of_decide_eq_true hkey
  · cases h

lemma requireSection_ok {document : Document} {sectionKey : String} {oldSection : Section}
    (h : requireSection document sectionKey = .ok oldSection) :
    oldSection.key = sectionKey ∧ oldSection ∈ document.sections := by
  unfold requireSection at h
  split at h
  · rename_i found hfound
    cases h
    have hkey := List.find?_some hfound
    exact ⟨of_decide_eq_true hkey, List.mem_of_find?_eq_some hfound⟩
  · cases h

lemma requireParagraph_ok {oldSection : Section} {paragraphId : Uuid} {index : ℕ}
    {paragraph : Paragraph} (h : requireParagraph oldSection paragraphId = .ok (index, paragraph)) :
    oldSection.paragraphs[index]? = some paragraph := by
  unfold requireParagraph at h
  split at h
  · rename_i found place hfound
    cases h
    exact List.mem_zipIdx_iff_getElem?.mp (List.mem_of_find?_eq_some hfound)
  · cases h

/-! ### Approvals that are kept -/

/-- What is written into an approved draft is what stands there. -/
def LeavesApproved (registry : TemplateRegistry) (s : DocumentOrchestrator) : Operation → Prop
  | .regenerateSection documentId sectionKey generated =>
    ∀ document template templateSection paragraphs oldSection,
      s.requireDocument documentId = .ok document → document.status = .lawyerApproved →
      requireTemplate registry document.templateId = .ok template →
      requireTemplateSection template sectionKey = .ok templateSection →
      requireSection document sectionKey = .ok oldSection → generated = .ok paragraphs →
      templateSection.title = oldSection.title ∧ templateSection.order = oldSection.order ∧
        templateSection.dependsOn = oldSection.dependsOn ∧
        List.Forall₂ Paragraph.SaysAs paragraphs oldSection.paragraphs
  | .regenerateParagraph documentId sectionKey paragraphId generated =>
    ∀ document template templateSection oldSection index paragraph new paragraphs,
      s.requireDocument documentId = .ok document → document.status = .lawyerApproved →
      requireTemplate registry document.templateId = .ok template →
      requireTemplateSection template sectionKey = .ok templateSection →
      requireSection document sectionKey = .ok oldSection →
      requireParagraph oldSection paragraphId = .ok (index, paragraph) →
      generated = .ok (new :: paragraphs) → new.SaysAs paragraph
  | .restoreVersion documentId versionNumber _ =>
    ∀ document sections, s.requireDocument documentId = .ok document →
      document.status = .lawyerApproved → s.restore documentId versionNumber = .ok sections →
      sections = document.sections
  | .createDraft _ _ | .validate _ _ _ _ => True

section Leaves

variable {registry : TemplateRegistry} {s : DocumentOrchestrator}

/-- Writing a section anew leaves the sections as they are iff it says what stands there. -/
lemma set_buildSection_iff {document : Document} {template : DocumentTemplate} {sectionKey : String}
    {templateSection : TemplateSection} {oldSection : Section} {paragraphs : List Paragraph}
    (hkey : requireTemplateSection template sectionKey = .ok templateSection)
    (hold : requireSection document sectionKey = .ok oldSection) :
    document.sections.set (document.sections.idxOf oldSection)
        (buildSection templateSection oldSection.id (inPlacesOf paragraphs oldSection.paragraphs)) =
      document.sections ↔
    templateSection.title = oldSection.title ∧ templateSection.order = oldSection.order ∧
      templateSection.dependsOn = oldSection.dependsOn ∧
      List.Forall₂ Paragraph.SaysAs paragraphs oldSection.paragraphs := by
  obtain ⟨holdKey, hmem⟩ := requireSection_ok hold
  have hkeys : templateSection.key = oldSection.key :=
    (requireTemplateSection_key hkey).trans holdKey.symm
  rw [set_eq_iff (getElem?_idxOf hmem), ← inPlacesOf_eq_iff]
  obtain ⟨⟩ := oldSection
  simp only [buildSection, Section.mk.injEq, true_and]
  tauto

lemma set_regenerateOne_iff {document : Document} {sectionKey : String} {oldSection : Section}
    {paragraphId : Uuid} {index : ℕ} {paragraph new : Paragraph}
    (hold : requireSection document sectionKey = .ok oldSection)
    (hparagraph : requireParagraph oldSection paragraphId = .ok (index, paragraph)) :
    document.sections.set (document.sections.idxOf oldSection)
        { oldSection with paragraphs := oldSection.paragraphs.set index (new.inPlaceOf paragraph) } =
      document.sections ↔ new.SaysAs paragraph := by
  rw [set_eq_iff (getElem?_idxOf (requireSection_ok hold).2), ← inPlaceOf_eq_iff,
    ← set_eq_iff (requireParagraph_ok hparagraph)]
  obtain ⟨⟩ := oldSection
  simp

/-- The discipline, in terms of what is written. -/
lemma leavesApproved_iff {op : Operation} :
    LeavesApproved registry s op ↔ ∀ document sections, Writes registry s op document sections →
      document.status = .lawyerApproved → sections = document.sections := by
  cases op with
  | createDraft documentType generated => exact iff_of_true trivial (by rintro _ _ ⟨⟩)
  | validate documentId decision author comment => exact iff_of_true trivial (by rintro _ _ ⟨⟩)
  | regenerateSection documentId sectionKey generated =>
    constructor
    · intro h document sections hwrites happroved
      cases hwrites with
      | regenerateSection hdocument htemplate hkey hold =>
        exact (set_buildSection_iff hkey hold).mpr
          (h _ _ _ _ _ hdocument happroved htemplate hkey hold rfl)
    · rintro h document template templateSection paragraphs oldSection hdocument happroved htemplate
        hkey hold rfl
      exact (set_buildSection_iff hkey hold).mp
        (h _ _ (.regenerateSection hdocument htemplate hkey hold) happroved)
  | regenerateParagraph documentId sectionKey paragraphId generated =>
    constructor
    · intro h document sections hwrites happroved
      cases hwrites with
      | @regenerateParagraph _ _ _ _ _ _ _ _ _ _ paragraphs hdocument htemplate hkey hold hparagraph
          hnew =>
        cases paragraphs with
        | nil => cases hnew
        | cons generated paragraphs =>
          cases hnew
          exact (set_regenerateOne_iff hold hparagraph).mpr
            (h _ _ _ _ _ _ _ _ hdocument happroved htemplate hkey hold hparagraph rfl)
    · rintro h document template templateSection oldSection index paragraph new paragraphs hdocument
        happroved htemplate hkey hold hparagraph rfl
      exact (set_regenerateOne_iff hold hparagraph).mp
        (h _ _ (.regenerateParagraph hdocument htemplate hkey hold hparagraph rfl) happroved)
  | restoreVersion documentId versionNumber author =>
    constructor
    · intro h document sections hwrites happroved
      cases hwrites with
      | restoreVersion hdocument hversion => exact h _ _ hdocument happroved hversion
    · intro h document sections hdocument happroved hversion
      exact h _ _ (.restoreVersion hdocument hversion) happroved

end Leaves

/-! ### Runs -/

/-- A run watched: beside the orchestrator, the sections each draft had when its last approval was
recorded. -/
structure Watched where
  drafting : DocumentOrchestrator := {}
  approved : Dict Uuid (List Section) := ∅

namespace Watched

/-- The approvals after an operation: one is recorded for a draft that is found. -/
def recorded (w : Watched) : Operation → Dict Uuid (List Section)
  | .validate documentId .approved _ _ =>
    match w.drafting.documents.get documentId with
    | some document => w.approved.set documentId document.sections
    | none => w.approved
  | _ => w.approved

def step (registry : TemplateRegistry) (w : Watched) (op : Operation) : Watched where
  drafting := LegalDrafting.step registry w.drafting op
  approved := w.recorded op

/-- An approved draft has the sections it had when the approval was recorded. -/
def Kept (w : Watched) : Prop :=
  ∀ documentId document, w.drafting.documents.get documentId = some document →
    document.status = .lawyerApproved → w.approved.get documentId = some document.sections

end Watched

/-- After the operation approved drafts are as approved, and it has taken the drafts whose sections it
changed out of the approved status. -/
def KeepsApproval (registry : TemplateRegistry) (w : Watched) (op : Operation) : Prop :=
  (w.step registry op).Kept ∧
    ∀ documentId document document', w.drafting.documents.get documentId = some document →
      (w.step registry op).drafting.documents.get documentId = some document' →
      document'.sections ≠ document.sections → document'.status ≠ .lawyerApproved

section Kept

variable {registry : TemplateRegistry} {w : Watched} {op : Operation}

/-- Only decisions record approvals. -/
lemma Writes.recorded {s : DocumentOrchestrator} {document : Document} {sections : List Section}
    (h : Writes registry s op document sections) : w.recorded op = w.approved := by
  cases h <;> rfl

lemma Writes.get {s : DocumentOrchestrator} {document : Document} {sections : List Section}
    (h : Writes registry s op document sections) : s.documents.get document.id = some document := by
  have hfound : ∃ documentId, s.requireDocument documentId = .ok document := by
    cases h with
    | regenerateSection hdocument => exact ⟨_, hdocument⟩
    | regenerateParagraph hdocument => exact ⟨_, hdocument⟩
    | restoreVersion hdocument => exact ⟨_, hdocument⟩
  obtain ⟨documentId, hdocument⟩ := hfound
  have hget := requireDocument_ok.mp hdocument
  rwa [Store.key_of_get hget]

/-- Approved drafts left as they are stay as approved. -/
lemma kept_step (hkept : w.Kept) (hleaves : LeavesApproved registry w.drafting op) :
    (w.step registry op).Kept := by
  rw [leavesApproved_iff] at hleaves
  intro documentId found hget hstatus
  have heffect := step_effect registry w.drafting op
  change (LegalDrafting.step registry w.drafting op).documents.get documentId = some found at hget
  change (w.recorded op).get documentId = some found.sections
  generalize (LegalDrafting.step registry w.drafting op).documents = after at heffect hget
  cases heffect with
  | unchanged hnone hdecides =>
    have hrecorded : w.recorded op = w.approved := by
      cases op with
      | validate decided decision author comment =>
        cases decision <;> simp [Watched.recorded, hdecides decided _ author comment rfl]
      | _ => rfl
    rw [hrecorded]
    exact hkept _ _ hget hstatus
  | created hnew =>
    rcases Store.of_get_save hget with rfl | hget
    · rw [hnew] at hstatus
      cases hstatus
    · exact hkept _ _ hget hstatus
  | @written _ document sections hwrites =>
    rw [hwrites.recorded]
    rcases Store.of_get_save hget with rfl | hget
    · -- the draft written into was approved, so its sections are the approved ones
      have hid : documentId = document.id := (Store.key_of_get hget).symm
      subst hid
      have hsame : sections = document.sections := hleaves _ _ hwrites hstatus
      subst hsame
      exact hkept _ _ hwrites.get hstatus
    · exact hkept _ _ hget hstatus
  | @decided decidedId decision author comment document hdocument =>
    have hdecided := requireDocument_ok.mp hdocument
    obtain rfl : document.id = decidedId := Store.key_of_get hdecided
    rcases Decidable.em (documentId = document.id) with rfl | hne
    · rw [Store.get_save_self] at hget
      cases hget
      cases decision with
      | approved => simp [Watched.recorded, hdecided]
      | rejected => cases hstatus
      | commented => exact hkept _ _ hdecided hstatus
    · rw [Store.get_save, if_neg hne] at hget
      have hrecorded : (w.recorded (.validate document.id decision author comment)).get documentId =
          w.approved.get documentId := by
        cases decision <;> simp [Watched.recorded, hdecided, Dict.get_set_of_ne _ _ hne]
      rw [hrecorded]
      exact hkept _ _ hget hstatus

/-- A draft that has other sections after the operation had them written. -/
lemma writes_of_ne {documentId : Uuid} {document document' : Document}
    (hget : w.drafting.documents.get documentId = some document)
    (hget' : (w.step registry op).drafting.documents.get documentId = some document')
    (hne : document'.sections ≠ document.sections) (hstatus : document'.status = .lawyerApproved) :
    Writes registry w.drafting op document document'.sections ∧ document.status = .lawyerApproved := by
  have heffect := step_effect registry w.drafting op
  change (LegalDrafting.step registry w.drafting op).documents.get documentId = some document' at hget'
  generalize (LegalDrafting.step registry w.drafting op).documents = after at heffect hget'
  cases heffect with
  | unchanged =>
    rw [hget] at hget'
    cases hget'
    exact absurd rfl hne
  | created hnew =>
    rcases Store.of_get_save hget' with rfl | hget'
    · rw [hnew] at hstatus
      cases hstatus
    · rw [hget] at hget'
      cases hget'
      exact absurd rfl hne
  | @written _ written sections hwrites =>
    rcases Store.of_get_save hget' with rfl | hget'
    · have hid : documentId = written.id := (Store.key_of_get hget').symm
      subst hid
      rw [hwrites.get] at hget
      cases hget
      exact ⟨hwrites, hstatus⟩
    · rw [hget] at hget'
      cases hget'
      exact absurd rfl hne
  | @decided decidedId decision author comment decided hdocument =>
    rcases Store.of_get_save hget' with rfl | hget'
    · have hid : documentId = decided.id := (Store.key_of_get hget').symm
      subst hid
      have hdecided := requireDocument_ok.mp hdocument
      obtain rfl : decided.id = decidedId := Store.key_of_get hdecided
      rw [hdecided] at hget
      cases hget
      exact absurd rfl hne
    · rw [hget] at hget'
      cases hget'
      exact absurd rfl hne

/-- **One operation.**  Where approved drafts are as approved, an operation keeps approvals iff it
leaves the approved drafts as they are. -/
theorem keepsApproval_iff (hkept : w.Kept) :
    KeepsApproval registry w op ↔ LeavesApproved registry w.drafting op := by
  constructor
  · rintro ⟨-, htaken⟩
    rw [leavesApproved_iff]
    intro document sections hwrites hstatus
    by_contra hne
    obtain ⟨s', hok, hdocuments⟩ := hwrites.perform_ok
    have hafter : (w.step registry op).drafting.documents.get document.id =
        some { document with sections } := by
      show (afterCall w.drafting (perform registry w.drafting op)).documents.get document.id = _
      rw [hok, afterCall_ok, hdocuments, Store.get_save_self]
    exact htaken _ _ _ hwrites.get hafter hne hstatus
  · intro hleaves
    refine ⟨kept_step hkept hleaves, fun documentId document document' hget hget' hne hstatus => hne ?_⟩
    obtain ⟨hwrites, happroved⟩ := writes_of_ne hget hget' hne hstatus
    exact leavesApproved_iff.mp hleaves _ _ hwrites happroved

end Kept

lemma kept_start : ({} : Watched).Kept := by
  intro documentId document hget
  cases hget

/-- **Approvals kept, exactly.**  In a run of the orchestrator every approved draft has, after each
operation, the sections it had when the approval was recorded, and every operation that changes the
sections takes the draft out of the approved status, iff each operation that writes into an approved
draft writes what stands there. -/
theorem along_keepsApproval_iff (registry : TemplateRegistry) (ops : List Operation) :
    Along (Watched.step registry) (KeepsApproval registry) {} ops ↔
      Along (Watched.step registry) (fun w op => LeavesApproved registry w.drafting op) {} ops :=
  along_congr kept_start (fun _ _ hkept hleaves => kept_step hkept hleaves)
    fun _ _ hkept => keepsApproval_iff hkept

/-! ### A draft rewritten after its approval -/

/-- A letter is drafted and approved; then its subject is generated again. -/
def approvedThenRegenerated : List Operation :=
  [.createDraft .courrier (.ok fun order =>
      [{ id := 100 + order, sectionKey := "context", order := 0, text := "Objet", origin := "kernel" }]),
    .validate 0 .approved "avocat" none,
    .regenerateSection 0 "context" (.ok
      [{ id := 200, sectionKey := "context", order := 0, text := "Autre objet", origin := "kernel" }])]

/-- The draft is still approved, with a subject the lawyer has not seen. -/
theorem approved_then_regenerated :
    ¬ Along (Watched.step .builtin) (KeepsApproval .builtin) {} approvedThenRegenerated := by
  rintro ⟨-, -, ⟨hkept, -⟩, -⟩
  let w := run (Watched.step .builtin) {} approvedThenRegenerated
  have hbroken : ((w.drafting.documents.get 0).any fun document =>
      document.status = .lawyerApproved ∧ w.approved.get 0 ≠ some document.sections) = true := by
    decide +kernel
  obtain ⟨document, hget, hdocument⟩ := (Option.any_eq_true ..).mp hbroken
  obtain ⟨hstatus, hne⟩ := of_decide_eq_true hdocument
  exact hne (hkept 0 document hget hstatus)

end Tmis.LegalDrafting
