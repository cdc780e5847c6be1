import Tmis.LegalDrafting.CitationIndex

/-!
# What a section cites is decided by its role

The engine grounds a paragraph on the context by the role of its section.  Where a section is regenerated in the
role in which it was generated, all versions of a draft therefore resolve to the same citations, and whichever
version is restored, the citations of the draft are its citations.

* `OneRole` — a key stands for one role, when a draft is created and later;
* `Slot`, `Fills` — the place of a section in all versions of a draft;
* `along_restoresCited` — in every run each version that is restored has the citations of the draft.
-/

namespace Tmis.LegalDrafting

open Tmis.Lib DocumentOrchestrator CitedDrafts

/-- The section that is regenerated under a key has the role in which the first section under this key is
generated. -/
def OneRole (registry : TemplateRegistry) : Prop :=
  ∀ documentType template, registry.getLatest documentType = .ok template →
    ∀ template', requireTemplate registry template.id = .ok template' →
      ∀ sectionKey a b, requireTemplateSection template' sectionKey = .ok a →
        (template.sections.insertionSort fun a b => a.order ≤ b.order).find? (·.key = sectionKey) = some b →
          a.role = b.role

/-- A key stands for one role where the template that is looked up is the latest one, and has its sections in
order. -/
lemma oneRole_of_inOrder {registry : TemplateRegistry}
    (h : ∀ documentType template, registry.getLatest documentType = .ok template →
      requireTemplate registry template.id = .ok template ∧
        template.sections.Pairwise fun a b => a.order ≤ b.order) : OneRole registry := by
  intro documentType template htemplate template' htemplate' sectionKey a b ha hb
  obtain ⟨hlookup, hsorted⟩ := h documentType template htemplate
  rw [htemplate'] at hlookup
  cases hlookup
  rw [hsorted.insertionSort_eq] at hb
  rw [requireTemplateSection, hb] at ha
  cases ha
  rfl

/-- The built-in templates. -/
theorem oneRole_builtin : OneRole TemplateRegistry.builtin := by
  refine oneRole_of_inOrder fun documentType template htemplate => ?_
  have hlatest : (TemplateRegistry.builtin.getLatest documentType).toOption = some (buildTemplate documentType) := by
    cases documentType <;> decide +kernel
  have hlookup : TemplateRegistry.builtin.byId.get (buildTemplate documentType).id =
      some (buildTemplate documentType) := by
    cases documentType <;> decide +kernel
  rw [htemplate] at hlatest
  cases hlatest
  refine ⟨by rw [requireTemplate, hlookup], ?_⟩
  cases documentType <;> decide +kernel

/-! ### Slots -/

/-- The place of a section in the versions of a draft, with the role in which its paragraph is generated. -/
structure Slot where
  sectionId : Uuid
  key : String
  paragraphId : Uuid
  role : SectionRole

/-- The section stands in this place. -/
structure Fills (context : DraftingContext) (slot : Slot) (s : Section) : Prop where
  id : s.id = slot.sectionId
  key : s.key = slot.key
  paragraph : ∃ p order, s.paragraphs = [p] ∧ p.id = slot.paragraphId ∧
    (⟨p.factIds, p.referenceIds, p.evidenceIds, p.hypothesisIds⟩ : Grounds) = context.grounds order slot.role

section Slots

variable {context : DraftingContext} {documentId : Uuid} {slot : Slot} {slots : List Slot} {s t : Section}
  {a b : List Section} {p q : Paragraph} {order order' : SetOrder}

lemma linksTo_perm {α : Type} (link : α → ReferenceLink) (objects : List α) {ids ids' : List String}
    (h : ids.Perm ids') : (linksTo link objects ids).Perm (linksTo link objects ids') := h.filterMap _

/-- The grounds of a role depend on the order of sets in the order of the hypotheses only. -/
lemma grounds_perm (context : DraftingContext) (order order' : SetOrder) (role : SectionRole) :
    (context.grounds order role).factIds = (context.grounds order' role).factIds ∧
      (context.grounds order role).referenceIds = (context.grounds order' role).referenceIds ∧
      (context.grounds order role).evidenceIds = (context.grounds order' role).evidenceIds ∧
      (context.grounds order role).hypothesisIds.Perm (context.grounds order' role).hypothesisIds := by
  have hlist (ids : PySet String) : (order.list ids).Perm (order'.list ids) :=
    (order.perm ids.elems).trans (order'.perm ids.elems).symm
  cases role with
  | legalDiscussion => exact ⟨rfl, rfl, rfl, hlist _⟩
  | arguments => exact ⟨rfl, rfl, rfl, hlist _⟩
  | recommendations => exact ⟨rfl, rfl, rfl, hlist _⟩
  | _ => exact ⟨rfl, rfl, rfl, List.Perm.refl _⟩

/-- The citations of a paragraph, written with its references only. -/
lemma cite_eq (x : Uuid × Paragraph) :
    cite context documentId x = (resolve context x.2).map fun r =>
      ⟨0, documentId, x.1, x.2.id, r.targetType.value, r.targetId, r.label, r.excerpt⟩ := by
  rw [cite, buildForParagraph, List.map_map]
  conv_rhs => rw [← List.zipIdx_map_fst 0 (resolve context x.2), List.map_map]
  rfl

lemma citeSection_single (hs : s.paragraphs = [p]) : citeSection context documentId s = cite context documentId (s.id, p) := by
  simp [citeSection, placed, hs]

/-- Sections in one place have the same citations. -/
lemma Fills.citeSection_perm (hs : Fills context slot s) (ht : Fills context slot t) :
    (citeSection context documentId s).Perm (citeSection context documentId t) := by
  obtain ⟨p, order, hp, hpid, hpgrounds⟩ := hs.paragraph
  obtain ⟨q, order', hq, hqid, hqgrounds⟩ := ht.paragraph
  obtain ⟨hfacts, hreferences, hevidence, hhypotheses⟩ :=
    grounds_perm context order order' slot.role
  rw [← hpgrounds, ← hqgrounds] at hfacts hreferences hevidence hhypotheses
  rw [citeSection_single hp, citeSection_single hq, cite_eq, cite_eq, hs.id, ht.id, hpid, hqid]
  refine List.Perm.map _ ?_
  dsimp only at hfacts hreferences hevidence hhypotheses
  rw [resolve, resolve, hfacts, hreferences, hevidence]
  exact (linksTo_perm _ _ hhypotheses).append_left _

lemma same_of_fills (ha : List.Forall₂ (Fills context) slots a) (hb : List.Forall₂ (Fills context) slots b)
    (uuids : ℕ) : SameCitations (buildCitations context documentId uuids a)
      (buildCitations context documentId uuids b) := by
  rw [SameCitations, anonymous_buildCitations, anonymous_buildCitations, ← flatMap_citeSection, ← flatMap_citeSection]
  induction ha generalizing b with
  | nil =>
    cases hb
    exact List.Perm.refl _
  | cons hs _ ih =>
    cases hb with
    | cons ht hb => exact (hs.citeSection_perm ht).append (ih hb)

lemma exists_split_of_forall₂ {α β : Type} {R : α → β → Prop} {as : List α} {pre post : List β} {b : β}
    (h : List.Forall₂ R as (pre ++ b :: post)) :
    ∃ as₁ a as₂, as = as₁ ++ a :: as₂ ∧ List.Forall₂ R as₁ pre ∧ R a b ∧ List.Forall₂ R as₂ post := by
  induction pre generalizing as with
  | nil =>
    cases h with
    | @cons a _ as₂ _ hab hpost => exact ⟨[], a, as₂, rfl, .nil, hab, hpost⟩
  | cons b' pre ih =>
    cases h with
    | @cons a' _ _ _ hab hrest =>
      obtain ⟨as₁, a, as₂, rfl, hpre, hb, hpost⟩ := ih hrest
      exact ⟨a' :: as₁, a, as₂, rfl, .cons hab hpre, hb, hpost⟩

/-- The first slot under a key, given the first section under it. -/
lemma find?_slots {slots₁ slots₂ : List Slot} {pre : List Section} {key : String}
    (h : List.Forall₂ (Fills context) slots₁ pre) (hpre : ∀ s ∈ pre, s.key ≠ key) (hkey : slot.key = key) :
    (slots₁ ++ slot :: slots₂).find? (·.key = key) = some slot := by
  induction h with
  | nil => exact List.find?_cons_of_pos (by simpa using hkey)
  | cons hs _ ih =>
    obtain ⟨hne, hpre⟩ := List.forall_mem_cons.mp hpre
    rw [List.cons_append, List.find?_cons_of_neg (by simpa [← hs.key] using hne)]
    exact ih hpre

end Slots

/-! ### The invariant -/

section Invariant

variable {registry : TemplateRegistry} {s s' : CitedDrafts} {document document' : Document}

/-- The sections of a draft and of its versions stand in these places, and a section is regenerated in the role
of its place. -/
structure Slotted (registry : TemplateRegistry) (s : CitedDrafts) (document : Document) (slots : List Slot) :
    Prop where
  sections : List.Forall₂ (Fills (s.contextOf document.id)) slots document.sections
  versions : ∀ version ∈ (s.drafts.versions.get document.id).getD [],
    List.Forall₂ (Fills (s.contextOf document.id)) slots version.sections
  roles : ∀ template, requireTemplate registry document.templateId = .ok template →
    ∀ sectionKey a slot, requireTemplateSection template sectionKey = .ok a →
      slots.find? (·.key = sectionKey) = some slot → a.role = slot.role

/-- Every draft has its places, and what is not drawn yet identifies nothing. -/
structure RoleInv (registry : TemplateRegistry) (s : CitedDrafts) : Prop where
  slotted : ∀ documentId document, s.drafts.documents.get documentId = some document →
    ∃ slots, Slotted registry s document slots
  drawn : ∀ documentId document, s.drafts.documents.get documentId = some document →
    documentId < s.drafts.uuids
  fresh : ∀ documentId, s.drafts.uuids ≤ documentId → (s.drafts.versions.get documentId).getD [] = []

/-- A draft is written anew: its sections stand in the places of its versions. -/
lemma RoleInv.of_rewrites (h : RoleInv registry s) (hrewrites : Rewrites s s' document)
    (hdrawn : document.id < s'.drafts.uuids) {slots : List Slot}
    (hsections : List.Forall₂ (Fills (s'.contextOf document.id)) slots document.sections)
    (hversions : ∀ version ∈ (s.drafts.versions.get document.id).getD [],
      List.Forall₂ (Fills (s'.contextOf document.id)) slots version.sections)
    (hroles : ∀ template, requireTemplate registry document.templateId = .ok template →
      ∀ sectionKey a slot, requireTemplateSection template sectionKey = .ok a →
        slots.find? (·.key = sectionKey) = some slot → a.role = slot.role) : RoleInv registry s' where
  slotted documentId other hget := by
    rw [hrewrites.documents, Store.get_save] at hget
    split at hget
    · cases hget
      refine ⟨slots, hsections, fun version hversion => ?_, hroles⟩
      rcases hrewrites.versions _ version hversion with hold | ⟨-, hnew⟩
      · exact hversions version hold
      · rw [hnew]
        exact hsections
    · rename_i hid
      obtain ⟨slots, hslotted⟩ := h.slotted documentId other hget
      obtain rfl : other.id = documentId := Store.key_of_get hget
      have hcontext := hrewrites.contexts other.id hid
      refine ⟨slots, by rw [hcontext]; exact hslotted.sections, fun version hversion => ?_, hslotted.roles⟩
      rw [hcontext]
      rcases hrewrites.versions _ version hversion with hold | ⟨heq, -⟩
      · exact hslotted.versions version hold
      · exact absurd heq hid
  drawn documentId other hget := by
    rw [hrewrites.documents, Store.get_save] at hget
    split at hget
    · rename_i hid
      rw [hid]
      exact hdrawn
    · exact (h.drawn documentId other hget).trans_le hrewrites.uuids
  fresh documentId hle := by
    refine List.eq_nil_iff_forall_not_mem.mpr fun version hversion => ?_
    rcases hrewrites.versions _ version hversion with hold | ⟨heq, -⟩
    · rw [h.fresh documentId (hrewrites.uuids.trans hle)] at hold
      exact absurd hold List.not_mem_nil
    · rw [heq] at hle
      exact absurd hdrawn (not_lt.mpr hle)

/-- A draft that is there is written anew in its places. -/
lemma RoleInv.of_slotted (h : RoleInv registry s) (hrewrites : Rewrites s s' document')
    (hget : s.drafts.documents.get document.id = some document) (hid : document'.id = document.id)
    (htemplate : document'.templateId = document.templateId) (hcontexts : s'.contexts = s.contexts)
    {slots : List Slot} (hslotted : Slotted registry s document slots)
    (hsections : List.Forall₂ (Fills (s.contextOf document.id)) slots document'.sections) : RoleInv registry s' := by
  have hcontext : s'.contextOf document'.id = s.contextOf document.id := by
    rw [contextOf, contextOf, hcontexts, hid]
  rw [← hcontext] at hsections
  refine h.of_rewrites hrewrites ?_ hsections ?_ ?_
  · rw [hid]
    exact (h.drawn _ document hget).trans_le hrewrites.uuids
  · rw [hcontext, hid]
    exact hslotted.versions
  · rw [htemplate]
    exact hslotted.roles

/-- The places of a draft that is created. -/
def slotsOf (s : CitedDrafts) (ordered : List TemplateSection) : List Slot :=
  ordered.zipIdx.map fun x => ⟨s.drafts.uuids + 1 + x.2, x.1.key, s.drawn + x.2, x.1.role⟩

lemma fills_slotsOf (context : DraftingContext) (ordered : List TemplateSection) (completions : ℕ → Completion) :
    List.Forall₂ (Fills context) (slotsOf s ordered) (ordered.zipIdx.map fun x =>
      buildSection x.1 (s.drafts.uuids + 1 + x.2) (s.generated context ordered completions x.2)) := by
  rw [slotsOf, List.forall₂_map_left_iff, List.forall₂_map_right_iff, List.forall₂_same]
  intro x hx
  have hgenerated : s.generated context ordered completions x.2 =
      generate context x.1 (completions x.2) (s.drawn + x.2) := by
    rw [generated, List.mem_zipIdx_iff_getElem?.mp hx]
  exact ⟨rfl, rfl, _, (completions x.2).order, hgenerated, rfl, rfl⟩

/-- The first place under a key is that of the first section under it. -/
lemma find?_slotsOf {ordered : List TemplateSection} {key : String} {slot : Slot}
    (h : (slotsOf s ordered).find? (·.key = key) = some slot) :
    ∃ templateSection, ordered.find? (·.key = key) = some templateSection ∧ slot.role = templateSection.role := by
  rw [slotsOf, List.find?_map] at h
  obtain ⟨x, hx, rfl⟩ := Option.map_eq_some_iff.mp h
  refine ⟨x.1, ?_, rfl⟩
  have hfst : ordered = ordered.zipIdx.map Prod.fst := (List.zipIdx_map_fst 0 ordered).symm
  rw [hfst, List.find?_map]
  exact Option.map_eq_some_iff.mpr ⟨x, hx, rfl⟩

lemma roleInv_createDraft (hone : OneRole registry) (h : RoleInv registry s) {documentType : DocumentType}
    {analysed : Except PyException (DraftingContext × (ℕ → Completion))}
    (hcall : s.createDraft registry documentType analysed = .ok (document, s')) : RoleInv registry s' := by
  obtain ⟨template, context, completions, uuids, htemplate, hid, htemplateId, hsections, hrewrites, huuids,
    hcontext, -⟩ := createDraft_ok hcall
  have hfills := fills_slotsOf (s := s) context (template.sections.insertionSort fun a b => a.order ≤ b.order)
    completions
  rw [← hsections, ← hcontext] at hfills
  refine h.of_rewrites hrewrites ?_ hfills ?_ ?_
  · rw [hid]
    exact huuids
  · intro version hversion
    rw [h.fresh document.id hid.ge] at hversion
    exact absurd hversion List.not_mem_nil
  · intro template' htemplate' sectionKey a slot ha hslot
    obtain ⟨b, hb, hrole⟩ := find?_slotsOf hslot
    rw [htemplateId] at htemplate'
    rw [hrole]
    exact hone documentType template htemplate template' htemplate' sectionKey a b ha hb

/-- A section that is regenerated stands in the place of the old one. -/
lemma roleInv_regenerated (h : RoleInv registry s) {sectionKey : String} {pre post : List Section}
    {old new : Section} {p : Paragraph}
    (hregenerated : Regenerated registry s s' sectionKey document document' pre post old new p) :
    RoleInv registry s' := by
  obtain ⟨slots, hslotted⟩ := h.slotted _ document hregenerated.get
  have hfills := hslotted.sections
  rw [hregenerated.sections] at hfills
  obtain ⟨slots₁, slot, slots₂, rfl, hpre, hold, hpost⟩ := exists_split_of_forall₂ hfills
  obtain ⟨template, templateSection, completion, htemplate, hkey, hnew⟩ := hregenerated.generated
  have hrole : templateSection.role = slot.role :=
    hslotted.roles template htemplate sectionKey templateSection slot hkey
      (find?_slots hpre hregenerated.first (hold.key.symm.trans hregenerated.oldKey))
  obtain ⟨q, -, hq, hqid, -⟩ := hold.paragraph
  rw [hregenerated.paragraphs] at hq
  obtain rfl := List.singleton_inj.mp hq
  have hfill : Fills (s.contextOf document.id) slot new := by
    refine ⟨hregenerated.id.trans hold.id, hregenerated.key.trans hold.key, _, completion.order, hnew, hqid, ?_⟩
    rw [← hrole]
    rfl
  refine h.of_slotted hregenerated.rewrites hregenerated.get ?_ ?_ hregenerated.contexts hslotted ?_
  · rw [hregenerated.written]
  · rw [hregenerated.written]
  · rw [hregenerated.written]
    exact List.rel_append hpre (.cons hfill hpost)

/-! ### Runs -/

/-- A version that is restored stands in the places of its draft. -/
lemma RoleInv.restoresCited (h : RoleInv registry s) (op : CitedOperation) : RestoresCited s op := by
  cases op with
  | restoreVersion documentId versionNumber author =>
    intro document sections hdocument hsections
    have hget := requireDocument_ok.mp hdocument
    obtain rfl : document.id = documentId := Store.key_of_get hget
    obtain ⟨slots, hslotted⟩ := h.slotted document.id document hget
    obtain ⟨version, hversion, rfl⟩ := restore_ok hsections
    exact same_of_fills (hslotted.versions version hversion) hslotted.sections s.drawn
  | _ => trivial

/-- **The step lemma.** -/
theorem roleInv_step (hone : OneRole registry) (hinv : Inv s) (h : RoleInv registry s) (op : CitedOperation) :
    RoleInv registry (s.step registry op) := by
  unfold CitedDrafts.step
  rcases afterCall_cases s (s.perform registry op) with hok | ⟨-, hsame⟩
  · generalize afterCall s (s.perform registry op) = s' at hok ⊢
    cases op with
    | createDraft documentType analysed =>
      obtain ⟨⟨document, _⟩, hcall, rfl⟩ := map_eq_ok.mp hok
      exact roleInv_createDraft hone h hcall
    | regenerateSection documentId sectionKey completion =>
      obtain ⟨⟨document', _⟩, hcall, rfl⟩ := map_eq_ok.mp hok
      obtain ⟨_, _, _, _, _, _, _, hregenerated, -⟩ := regenerateSection_ok hinv hcall
      exact roleInv_regenerated h hregenerated
    | regenerateParagraph documentId sectionKey paragraphId completion =>
      obtain ⟨⟨document', _⟩, hcall, rfl⟩ := map_eq_ok.mp hok
      obtain ⟨_, _, _, _, _, _, _, _, hregenerated, -⟩ := regenerateParagraph_ok hinv hcall
      exact roleInv_regenerated h hregenerated
    | restoreVersion documentId versionNumber author =>
      obtain ⟨⟨restored, _⟩, hcall, rfl⟩ := map_eq_ok.mp hok
      obtain ⟨document, sections, hdocument, hsections⟩ := exists_of_restoreVersion hcall
      obtain ⟨_, hcall', hrewrites, -, hcontexts⟩ := rewrites_restoreVersion author hdocument hsections
      rw [hcall] at hcall'
      obtain ⟨rfl, rfl⟩ := Prod.mk.inj (Except.ok.inj hcall')
      have hget := requireDocument_ok.mp hdocument
      obtain rfl : document.id = documentId := Store.key_of_get hget
      obtain ⟨slots, hslotted⟩ := h.slotted document.id document hget
      obtain ⟨version, hversion, rfl⟩ := restore_ok hsections
      exact h.of_slotted hrewrites hget rfl rfl hcontexts hslotted (hslotted.versions version hversion)
    | validate documentId decision author comment =>
      obtain ⟨⟨record, _⟩, hcall, rfl⟩ := map_eq_ok.mp hok
      obtain ⟨document, hget, hrewrites, -, hcontexts⟩ := rewrites_validate hcall
      obtain rfl : document.id = documentId := Store.key_of_get hget
      obtain ⟨slots, hslotted⟩ := h.slotted document.id document hget
      exact h.of_slotted hrewrites hget rfl rfl hcontexts hslotted hslotted.sections
  · rw [hsame]
    exact h

/-- **Whatever is restored is cited**: where each key stands for one role, every version that is restored in a run
resolves to the citations that its draft has. -/
theorem along_restoresCited (hone : OneRole registry) (ops : List CitedOperation) :
    Along (CitedDrafts.step registry) RestoresCited {} ops := by
  have hall : Along (CitedDrafts.step registry) (fun _ _ => True) {} ops :=
    along_of_forall (P := fun _ => True) (fun _ _ => trivial) _
  refine hall.of_inv (I := fun s => (Inv s ∧ Matched s) ∧ RoleInv registry s) ⟨⟨⟨?_, ?_⟩, ?_⟩, ⟨?_, ?_, ?_⟩⟩
    (fun s op h _ => ?_) fun s op h _ => h.2.restoresCited op
  · rintro documentId document ⟨⟩
  · rintro documentId version ⟨⟩
  · rintro documentId document ⟨⟩
  · rintro documentId document ⟨⟩
  · rintro documentId document ⟨⟩
  · exact fun _ _ => rfl
  · obtain ⟨hinv, hiff⟩ := step_matched registry h.1.1 h.1.2 op
    exact ⟨⟨hinv, hiff.mpr (h.2.restoresCited op)⟩, roleInv_step hone h.1.1 h.2 op⟩

end Invariant

end Tmis.LegalDrafting
