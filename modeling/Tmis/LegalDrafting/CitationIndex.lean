import Tmis.LegalDrafting.Approval
import Tmis.LegalDrafting.Citations
import Tmis.Lib.DerivedIndex

/-!
# Citations that match the text

The citations of a draft are an index of its paragraphs: each operation that rewrites a section builds those of
the section or of the paragraph anew, but the restoration of a version leaves them as they are.

* `SameCitations`, `Matched` — the citations are those the engine builds from the paragraphs;
* `WellPlaced` — no identifier stands twice in the sections, and each section has one paragraph;
* `Rewrites`, `Rewrites.matched_iff` — what an operation changes of the citations;
* `RestoresCited`, `along_matched_iff` — the runs in which the citations match the text.
-/

namespace Tmis.LegalDrafting

open Tmis.Lib DocumentOrchestrator

/-! ### Citations up to their identifiers -/

/-- A citation without its identifier. -/
def DraftCitation.anonymous (c : DraftCitation) : DraftCitation := { c with id := 0 }

/-- The same citations, up to their order and their identifiers. -/
def SameCitations (cs ds : List DraftCitation) : Prop :=
  (cs.map DraftCitation.anonymous).Perm (ds.map DraftCitation.anonymous)

instance (cs ds : List DraftCitation) : Decidable (SameCitations cs ds) := inferInstanceAs (Decidable (List.Perm ..))

lemma SameCitations.trans {cs ds es : List DraftCitation} (h : SameCitations cs ds) (h' : SameCitations ds es) :
    SameCitations cs es := List.Perm.trans h h'

lemma SameCitations.symm {cs ds : List DraftCitation} (h : SameCitations cs ds) : SameCitations ds cs :=
  List.Perm.symm h

section Built

variable (context : DraftingContext) (documentId : Uuid)

/-- The citations of a paragraph of a section. -/
def cite (x : Uuid × Paragraph) : List DraftCitation :=
  (buildForParagraph 0 documentId x.1 x.2 (resolve context x.2)).map DraftCitation.anonymous

/-- The citations of a section. -/
def citeSection (s : Section) : List DraftCitation := (placed [s]).flatMap (cite context documentId)

variable {context documentId}

lemma anonymous_buildForParagraph (uuids : ℕ) (sectionId : Uuid) (paragraph : Paragraph) :
    (buildForParagraph uuids documentId sectionId paragraph (resolve context paragraph)).map
      DraftCitation.anonymous = cite context documentId (sectionId, paragraph) := by
  rw [cite, buildForParagraph, buildForParagraph, List.map_map, List.map_map]
  rfl

lemma anonymous_buildPlaced (uuids : ℕ) (xs : List (Uuid × Paragraph)) :
    (buildPlaced context documentId uuids xs).map DraftCitation.anonymous =
      xs.flatMap (cite context documentId) := by
  induction xs generalizing uuids with
  | nil => rfl
  | cons x xs ih => rw [buildPlaced, List.map_append, ih, anonymous_buildForParagraph, List.flatMap_cons]

lemma placed_cons (s : Section) (sections : List Section) : placed (s :: sections) = placed [s] ++ placed sections := by
  simp [placed]

lemma placed_append (pre post : List Section) : placed (pre ++ post) = placed pre ++ placed post :=
  List.flatMap_append

lemma anonymous_buildCitations (uuids : ℕ) (sections : List Section) :
    (buildCitations context documentId uuids sections).map DraftCitation.anonymous =
      (placed sections).flatMap (cite context documentId) := anonymous_buildPlaced uuids _

lemma flatMap_citeSection (sections : List Section) :
    sections.flatMap (citeSection context documentId) = (placed sections).flatMap (cite context documentId) := by
  induction sections with
  | nil => rfl
  | cons s sections ih => rw [List.flatMap_cons, ih, placed_cons, List.flatMap_append, citeSection]

/-- What a citation of a paragraph says about its place. -/
lemma mem_cite {x : Uuid × Paragraph} {c : DraftCitation} (hc : c ∈ cite context documentId x) :
    c.sectionId = x.1 ∧ c.paragraphId = x.2.id := by
  obtain ⟨b, hb, rfl⟩ := List.mem_map.mp hc
  obtain ⟨y, -, rfl⟩ := List.mem_map.mp hb
  exact ⟨rfl, rfl⟩

lemma keyed_cite : Keyed (cite context documentId) (·.2.id) (·.paragraphId) := fun _ _ hc => (mem_cite hc).2

lemma keyed_citeSection : Keyed (citeSection context documentId) (·.id) (·.sectionId) := by
  intro s c hc
  obtain ⟨x, hx, hc⟩ := List.mem_flatMap.mp hc
  show c.sectionId = s.id
  rw [(mem_cite hc).1]
  simp only [placed, List.flatMap_cons, List.flatMap_nil, List.append_nil, List.mem_map] at hx
  obtain ⟨p, -, rfl⟩ := hx
  rfl

/-- Built citations refer to a section and a paragraph that exist. -/
lemma exists_of_same {cs : List DraftCitation} {uuids : ℕ} {sections : List Section}
    (h : SameCitations cs (buildCitations context documentId uuids sections)) {c : DraftCitation} (hc : c ∈ cs) :
    ∃ s ∈ sections, s.id = c.sectionId ∧ ∃ p ∈ s.paragraphs, p.id = c.paragraphId := by
  rw [SameCitations, anonymous_buildCitations] at h
  obtain ⟨x, hx, hcx⟩ := List.mem_flatMap.mp (h.subset (List.mem_map_of_mem hc))
  obtain ⟨s, hs, hx⟩ := List.mem_flatMap.mp hx
  obtain ⟨p, hp, rfl⟩ := List.mem_map.mp hx
  obtain ⟨hsection, hparagraph⟩ := mem_cite hcx
  exact ⟨s, hs, hsection.symm, p, hp, hparagraph.symm⟩

end Built

/-! ### Sections with their paragraphs in place -/

/-- No section and no paragraph has the identifier of another one, and each section has one paragraph. -/
structure WellPlaced (sections : List Section) : Prop where
  sections_nodup : (sections.map (·.id)).Nodup
  paragraphs_nodup : ((placed sections).map (·.2.id)).Nodup
  single : ∀ s ∈ sections, ∃ p, s.paragraphs = [p]

/-- The section that is found under a key: the first one, which is the one that is written anew. -/
lemma requireSection_split {document : Document} {sectionKey : String} {old : Section}
    (h : requireSection document sectionKey = .ok old) : old.key = sectionKey ∧
      ∃ pre post, document.sections = pre ++ old :: post ∧ (∀ s ∈ pre, s.key ≠ sectionKey) ∧
        ∀ new, document.sections.set (document.sections.idxOf old) new = pre ++ new :: post := by
  unfold requireSection at h
  split at h
  · rename_i hfound
    cases h
    obtain ⟨hkey, pre, post, hsections, hpre⟩ := List.find?_eq_some_iff_append.mp hfound
    simp only [decide_eq_true_eq, Bool.not_eq_true', decide_eq_false_iff_not] at hkey hpre
    have hnotMem : old ∉ pre := fun hmem => hpre old hmem hkey
    refine ⟨hkey, pre, post, hsections, hpre, fun new => ?_⟩
    rw [hsections, List.idxOf_append_of_notMem hnotMem, List.idxOf_cons_self, List.set_append_right _ _ (by simp)]
    simp
  · cases h

section Replaced

variable {context : DraftingContext} {documentId : Uuid} {pre post : List Section} {old new : Section}
  {p q : Paragraph} {cs : List DraftCitation} {uuids uuids' : ℕ}

lemma placed_middle (h : old.paragraphs = [p]) :
    placed (pre ++ old :: post) = placed pre ++ (old.id, p) :: placed post := by
  rw [placed_append, placed_cons, placed, placed, placed]
  simp [h]

/-- A section is written anew, under its identifier and that of its paragraph. -/
lemma WellPlaced.replace (h : WellPlaced (pre ++ old :: post)) (hold : old.paragraphs = [p])
    (hnew : new.paragraphs = [q]) (hsection : new.id = old.id) (hparagraph : q.id = p.id) :
    WellPlaced (pre ++ new :: post) where
  sections_nodup := by
    have hnodup := h.sections_nodup
    rw [List.map_append, List.map_cons] at hnodup ⊢
    rwa [hsection]
  paragraphs_nodup := by
    have hnodup := h.paragraphs_nodup
    rw [placed_middle hold, List.map_append, List.map_cons] at hnodup
    rw [placed_middle hnew, List.map_append, List.map_cons]
    rwa [hparagraph]
  single s hs := by
    rcases List.mem_append.mp hs with hs | hs
    · exact h.single s (List.mem_append_left _ hs)
    · rcases List.mem_cons.mp hs with rfl | hs
      · exact ⟨q, hnew⟩
      · exact h.single s (List.mem_append_right _ (List.mem_cons_of_mem _ hs))

/-- **A section is regenerated**: its citations go, those of the new section are added. -/
lemma same_replaceSection (h : WellPlaced (pre ++ old :: post))
    (hsame : SameCitations cs (buildCitations context documentId uuids (pre ++ old :: post))) (uuids₁ : ℕ) :
    SameCitations (cs.filter (·.sectionId ≠ old.id) ++ buildCitations context documentId uuids' [new])
      (buildCitations context documentId uuids₁ (pre ++ new :: post)) := by
  rw [SameCitations, anonymous_buildCitations, ← flatMap_citeSection] at hsame ⊢
  rw [List.map_append, anonymous_buildCitations]
  have hfilter : (cs.filter (·.sectionId ≠ old.id)).map DraftCitation.anonymous =
      (cs.map DraftCitation.anonymous).filter (·.sectionId ≠ old.id) := by
    rw [List.filter_map]
    rfl
  rw [hfilter]
  exact keyed_citeSection.perm_replace h.sections_nodup hsame

/-- **A paragraph is regenerated**: its citations go, those of the new paragraph are added. -/
lemma same_replaceParagraph (h : WellPlaced (pre ++ old :: post)) (hold : old.paragraphs = [p])
    (hnew : new.paragraphs = [q]) (hsection : new.id = old.id)
    (hsame : SameCitations cs (buildCitations context documentId uuids (pre ++ old :: post))) (uuids₁ : ℕ) :
    SameCitations
      (cs.filter (·.paragraphId ≠ p.id) ++ buildForParagraph uuids' documentId old.id q (resolve context q))
      (buildCitations context documentId uuids₁ (pre ++ new :: post)) := by
  have hnodup := h.paragraphs_nodup
  rw [SameCitations, anonymous_buildCitations, placed_middle hold] at hsame
  rw [placed_middle hold] at hnodup
  rw [SameCitations, anonymous_buildCitations, placed_middle hnew, hsection, List.map_append,
    anonymous_buildForParagraph]
  have hfilter : (cs.filter (·.paragraphId ≠ p.id)).map DraftCitation.anonymous =
      (cs.map DraftCitation.anonymous).filter (·.paragraphId ≠ p.id) := by
    rw [List.filter_map]
    rfl
  rw [hfilter]
  exact keyed_cite.perm_replace (a := (old.id, p)) hnodup hsame

end Replaced

/-! ### What an operation changes -/

namespace CitedDrafts

/-- The citations of each draft are those that the engine builds from its paragraphs in its context, and each
refers to a section and a paragraph of the draft. -/
def Matched (s : CitedDrafts) : Prop :=
  ∀ documentId document, s.drafts.documents.get documentId = some document →
    SameCitations (s.citationsOf documentId)
        (buildCitations (s.contextOf documentId) documentId s.drawn document.sections) ∧
      ∀ c ∈ s.citationsOf documentId,
        ∃ sec ∈ document.sections, sec.id = c.sectionId ∧ ∃ p ∈ sec.paragraphs, p.id = c.paragraphId

/-- Whether the citations of a draft are those that the engine builds. -/
def same (s : CitedDrafts) (documentId : Uuid) : Bool :=
  (s.drafts.documents.get documentId).all fun document => SameCitations (s.citationsOf documentId)
    (buildCitations (s.contextOf documentId) documentId s.drawn document.sections)

lemma Matched.same {s : CitedDrafts} (h : Matched s) (documentId : Uuid) : s.same documentId = true := by
  rw [CitedDrafts.same, Option.all_eq_true]
  exact fun document hget => decide_eq_true (h documentId document hget).1

/-- Drafts and versions have their sections in place. -/
structure Inv (s : CitedDrafts) : Prop where
  documents : ∀ documentId document, s.drafts.documents.get documentId = some document →
    WellPlaced document.sections
  versions : ∀ documentId, ∀ version ∈ (s.drafts.versions.get documentId).getD [], WellPlaced version.sections

/-- The draft is saved with the sections it has now, a version of it is stored, and nothing is changed of
another draft. -/
structure Rewrites (s s' : CitedDrafts) (document : Document) : Prop where
  documents : s'.drafts.documents = s.drafts.documents.save document
  versions : ∀ documentId, ∀ version ∈ (s'.drafts.versions.get documentId).getD [],
    version ∈ (s.drafts.versions.get documentId).getD [] ∨
      (documentId = document.id ∧ version.sections = document.sections)
  citations : ∀ documentId, documentId ≠ document.id → s'.citationsOf documentId = s.citationsOf documentId
  contexts : ∀ documentId, documentId ≠ document.id → s'.contextOf documentId = s.contextOf documentId
  uuids : s.drafts.uuids ≤ s'.drafts.uuids

section Rewrites

variable {s s' : CitedDrafts} {document : Document}

lemma Rewrites.inv (h : Rewrites s s' document) (hinv : Inv s) (hplaced : WellPlaced document.sections) :
    Inv s' where
  documents documentId other hget := by
    rw [h.documents, Store.get_save] at hget
    split at hget
    · cases hget
      exact hplaced
    · exact hinv.documents documentId other hget
  versions documentId version hversion := by
    rcases h.versions documentId version hversion with hold | ⟨-, hsections⟩
    · exact hinv.versions documentId version hold
    · rw [hsections]
      exact hplaced

lemma same_of_same {context : DraftingContext} {documentId : Uuid} {cs : List DraftCitation}
    {sections : List Section} {uuids : ℕ} (h : SameCitations cs (buildCitations context documentId uuids sections))
    (uuids' : ℕ) : SameCitations cs (buildCitations context documentId uuids' sections) := by
  rw [SameCitations, anonymous_buildCitations] at h ⊢
  exact h

/-- Whether the citations match afterwards is decided by those of the draft that is rewritten. -/
lemma Rewrites.matched_iff (h : Rewrites s s' document) (hmatched : Matched s) (uuids : ℕ) :
    Matched s' ↔ SameCitations (s'.citationsOf document.id)
      (buildCitations (s'.contextOf document.id) document.id uuids document.sections) := by
  constructor
  · intro hmatched'
    have hget : s'.drafts.documents.get document.id = some document := by
      rw [h.documents]
      exact Store.get_save_self ..
    exact same_of_same (hmatched' document.id document hget).1 uuids
  · intro hsame documentId other hget
    rw [h.documents, Store.get_save] at hget
    split at hget
    · rename_i hid
      cases hget
      rw [hid]
      exact ⟨same_of_same hsame _, fun c hc => exists_of_same hsame hc⟩
    · rename_i hid
      obtain ⟨hother, hexists⟩ := hmatched documentId other hget
      rw [h.citations documentId hid, h.contexts documentId hid]
      exact ⟨same_of_same hother _, hexists⟩

/-- The versions after a snapshot. -/
lemma mem_versions_snapshot (drafts : DocumentOrchestrator) {documentId documentId' : Uuid}
    {sections : List Section} {author : String} {version : DocumentVersion}
    (h : version ∈ ((drafts.snapshot documentId sections author).versions.get documentId').getD []) :
    version ∈ (drafts.versions.get documentId').getD [] ∨
      (documentId' = documentId ∧ version.sections = sections) := by
  dsimp only [snapshot] at h
  rw [Dict.get_set] at h
  split at h
  · rename_i hid
    rw [Option.getD_some, ← hid] at h
    rcases List.mem_append.mp h with h | h
    · exact Or.inl h
    · rw [List.mem_singleton.mp h]
      exact Or.inr ⟨hid, rfl⟩
  · exact Or.inl h

lemma Rewrites.of_finalizeMutation {drafts : DocumentOrchestrator} {author : String}
    (hdrafts : s'.drafts = drafts.finalizeMutation document author)
    (hdocuments : drafts.documents = s.drafts.documents) (hversions : drafts.versions = s.drafts.versions)
    (huuids : s.drafts.uuids ≤ drafts.uuids)
    (hcitations : ∀ documentId, documentId ≠ document.id → s'.citationsOf documentId = s.citationsOf documentId)
    (hcontexts : ∀ documentId, documentId ≠ document.id → s'.contextOf documentId = s.contextOf documentId) :
    Rewrites s s' document where
  documents := by
    rw [hdrafts, ← hdocuments]
    rfl
  versions documentId version hversion := by
    rw [hdrafts] at hversion
    rw [← hversions]
    exact mem_versions_snapshot { drafts with documents := drafts.documents.save document } hversion
  citations := hcitations
  contexts := hcontexts
  uuids := by
    rw [hdrafts]
    exact huuids.trans (Nat.le_succ _)

lemma citationsOf_set {cs : List DraftCitation} {documentId documentId' : Uuid} {citations contexts drafts drawn} :
    citationsOf ⟨drafts, Dict.set citations documentId cs, contexts, drawn⟩ documentId' =
      if documentId' = documentId then cs else (citations.get documentId').getD [] := by
  rw [citationsOf, Dict.get_set]
  split <;> rfl

lemma contextOf_set {context : DraftingContext} {documentId documentId' : Uuid} {citations contexts drafts drawn} :
    contextOf ⟨drafts, citations, Dict.set contexts documentId context, drawn⟩ documentId' =
      if documentId' = documentId then context else (contexts.get documentId').getD {} := by
  rw [contextOf, Dict.get_set]
  split <;> rfl

end Rewrites

/-! ### The operations -/

section Operations

variable {registry : TemplateRegistry} {s s' : CitedDrafts} {document document' : Document}

/-- A draft is written anew, its citations with it. -/
structure Cites (s s' : CitedDrafts) (document : Document) : Prop extends Rewrites s s' document where
  placed : WellPlaced document.sections
  same : SameCitations (s'.citationsOf document.id)
    (buildCitations (s'.contextOf document.id) document.id 0 document.sections)

/-- The sections of a draft that is created. -/
lemma wellPlaced_created (context : DraftingContext) (ordered : List TemplateSection)
    (completions : ℕ → Completion) (uuids : ℕ) :
    WellPlaced (ordered.zipIdx.map fun x =>
      buildSection x.1 (uuids + 1 + x.2) (s.generated context ordered completions x.2)) := by
  have hgenerated : ∀ x ∈ ordered.zipIdx, s.generated context ordered completions x.2 =
      generate context x.1 (completions x.2) (s.drawn + x.2) := by
    intro x hx
    rw [generated, List.mem_zipIdx_iff_getElem?.mp hx]
  have hids (n : ℕ) : (ordered.zipIdx.map fun x => n + x.2).Nodup := by
    have hmap : (ordered.zipIdx.map fun x => n + x.2) = (List.range' 0 ordered.length).map (n + ·) := by
      rw [← List.zipIdx_map_snd, List.map_map]
      rfl
    rw [hmap]
    exact List.Nodup.map (fun _ _ => Nat.add_left_cancel) List.nodup_range'
  refine ⟨?_, ?_, fun sec hsec => ?_⟩
  · rw [List.map_map]
    exact hids (uuids + 1)
  · have hplaced : (placed (ordered.zipIdx.map fun x => buildSection x.1 (uuids + 1 + x.2)
        (s.generated context ordered completions x.2))).map (·.2.id) =
          ordered.zipIdx.map fun x => s.drawn + x.2 := by
      rw [placed, List.flatMap_map, List.map_flatMap, List.map_eq_flatMap]
      refine List.flatMap_congr fun x hx => ?_
      simp only [buildSection, hgenerated x hx]
      rfl
    rw [hplaced]
    exact hids s.drawn
  · obtain ⟨x, hx, rfl⟩ := List.mem_map.mp hsec
    exact ⟨_, hgenerated x hx⟩

lemma createDraft_ok {documentType : DocumentType}
    {analysed : Except PyException (DraftingContext × (ℕ → Completion))}
    (h : s.createDraft registry documentType analysed = .ok (document, s')) :
    ∃ template context completions uuids, registry.getLatest documentType = .ok template ∧
      document.id = s.drafts.uuids ∧ document.templateId = template.id ∧
      document.sections = ((template.sections.insertionSort fun a b => a.order ≤ b.order).zipIdx.map fun x =>
        buildSection x.1 (s.drafts.uuids + 1 + x.2) (s.generated context
          (template.sections.insertionSort fun a b => a.order ≤ b.order) completions x.2)) ∧
      Rewrites s s' document ∧ s.drafts.uuids < s'.drafts.uuids ∧ s'.contextOf document.id = context ∧
      s'.citationsOf document.id = buildCitations context document.id uuids document.sections := by
  simp only [CitedDrafts.createDraft, DocumentOrchestrator.createDraft, bind_eq_ok, pure_eq_ok] at h
  obtain ⟨template, htemplate, ⟨context, completions⟩, -, ⟨created, drafts⟩,
    ⟨template', htemplate', paragraphs, hparagraphs, hcreated⟩, hs'⟩ := h
  rw [htemplate] at htemplate'
  cases htemplate'
  cases hparagraphs
  obtain ⟨hdocument, hdrafts⟩ := Prod.mk.inj hcreated
  obtain ⟨rfl, rfl⟩ := Prod.mk.inj hs'
  rw [hdocument] at hdrafts
  refine ⟨template, context, completions, _, htemplate, ?_, ?_, ?_,
    .of_finalizeMutation hdrafts.symm rfl rfl ?_ (fun d hd => citationsOf_set.trans (if_neg hd))
      (fun d hd => contextOf_set.trans (if_neg hd)), ?_, contextOf_set.trans (if_pos rfl),
    citationsOf_set.trans (if_pos rfl)⟩
  · rw [← hdocument]
  · rw [← hdocument]
  · rw [← hdocument]
  · dsimp only
    omega
  · rw [← hdrafts]
    show s.drafts.uuids < s.drafts.uuids + 1 + _ + 1
    omega

lemma cites_createDraft {documentType : DocumentType}
    {analysed : Except PyException (DraftingContext × (ℕ → Completion))}
    (h : s.createDraft registry documentType analysed = .ok (document, s')) : Cites s s' document := by
  obtain ⟨template, context, completions, uuids, -, -, -, hsections, hrewrites, -, hcontext, hcitations⟩ :=
    createDraft_ok h
  refine ⟨hrewrites, ?_, ?_⟩
  · rw [hsections]
    exact wellPlaced_created ..
  · rw [hcitations, hcontext]
    exact same_of_same (List.Perm.refl _) 0

/-- The paragraph that is found among one. -/
lemma requireParagraph_single {old : Section} {p paragraph : Paragraph} {paragraphId : Uuid} {index : ℕ}
    (hold : old.paragraphs = [p]) (h : requireParagraph old paragraphId = .ok (index, paragraph)) :
    index = 0 ∧ paragraph = p ∧ p.id = paragraphId := by
  unfold requireParagraph at h
  rw [hold] at h
  split at h
  · rename_i hfound
    cases h
    have hfoundId := List.find?_some hfound
    rw [decide_eq_true_eq] at hfoundId
    obtain ⟨rfl, rfl⟩ := Prod.mk.inj (List.mem_singleton.mp (List.mem_of_find?_eq_some hfound))
    exact ⟨rfl, rfl, hfoundId⟩
  · cases h

/-- A section of a draft is written anew, under its identifier, from the paragraph that is generated for its key
in place of the old one. -/
structure Regenerated (registry : TemplateRegistry) (s s' : CitedDrafts) (sectionKey : String)
    (document document' : Document) (pre post : List Section) (old new : Section) (p : Paragraph) : Prop where
  get : s.drafts.documents.get document.id = some document
  generated : ∃ template templateSection completion, requireTemplate registry document.templateId = .ok template ∧
    requireTemplateSection template sectionKey = .ok templateSection ∧
    new.paragraphs = (generate (s.contextOf document.id) templateSection completion s.drawn).map (·.inPlaceOf p)
  first : ∀ s ∈ pre, s.key ≠ sectionKey
  sections : document.sections = pre ++ old :: post
  written : document' = { document with sections := pre ++ new :: post }
  paragraphs : old.paragraphs = [p]
  id : new.id = old.id
  oldKey : old.key = sectionKey
  key : new.key = old.key
  rewrites : Rewrites s s' document'
  contexts : s'.contexts = s.contexts

lemma regenerateSection_ok (hinv : Inv s) {documentId : Uuid} {sectionKey : String}
    {completion : Except PyException Completion}
    (h : s.regenerateSection registry documentId sectionKey completion = .ok (document', s')) :
    ∃ document pre post old new p uuids,
      Regenerated registry s s' sectionKey document document' pre post old new p ∧
      s'.citationsOf document.id = (s.citationsOf document.id).filter (·.sectionId ≠ old.id) ++
        buildCitations (s.contextOf document.id) document.id uuids [new] := by
  simp only [CitedDrafts.regenerateSection, bind_eq_ok, pure_eq_ok] at h
  obtain ⟨document, hdocument, template, htemplate, templateSection, hkey, completion, -, old, hold, hs'⟩ := h
  have hget := requireDocument_ok.mp hdocument
  obtain rfl : document.id = documentId := Store.key_of_get hget
  obtain ⟨p, hp⟩ := (hinv.documents document.id document hget).single old (requireSection_ok hold).2
  obtain ⟨hkeyOld, pre, post, hsections, hpre, hset⟩ := requireSection_split hold
  rw [hset, hp] at hs'
  obtain ⟨rfl, rfl⟩ := Prod.mk.inj hs'
  refine ⟨document, pre, post, old, _, p, s.drawn + 1, ⟨hget, ⟨template, templateSection, completion, htemplate, hkey, rfl⟩,
    hpre, hsections, rfl, hp, rfl, hkeyOld, (requireTemplateSection_key hkey).trans hkeyOld.symm,
    .of_finalizeMutation rfl rfl rfl (Nat.le_succ _) (fun d hd => citationsOf_set.trans (if_neg hd))
      (fun _ _ => rfl), rfl⟩, ?_⟩
  exact citationsOf_set.trans (if_pos rfl)

lemma regenerateParagraph_ok (hinv : Inv s) {documentId : Uuid} {sectionKey : String} {paragraphId : Uuid}
    {completion : Except PyException Completion}
    (h : s.regenerateParagraph registry documentId sectionKey paragraphId completion = .ok (document', s')) :
    ∃ document pre post old new p q uuids,
      Regenerated registry s s' sectionKey document document' pre post old new p ∧ new.paragraphs = [q] ∧
      s'.citationsOf document.id = (s.citationsOf document.id).filter (·.paragraphId ≠ p.id) ++
        buildForParagraph uuids document.id old.id q (resolve (s.contextOf document.id) q) := by
  simp only [CitedDrafts.regenerateParagraph, bind_eq_ok, pure_eq_ok] at h
  obtain ⟨document, hdocument, template, htemplate, templateSection, hkey, old, hold, ⟨index, paragraph⟩,
    hparagraph, completion, -, new, hnew, hs'⟩ := h
  have hget := requireDocument_ok.mp hdocument
  obtain rfl : document.id = documentId := Store.key_of_get hget
  obtain ⟨p, hp⟩ := (hinv.documents document.id document hget).single old (requireSection_ok hold).2
  obtain ⟨hkeyOld, pre, post, hsections, hpre, hset⟩ := requireSection_split hold
  obtain ⟨rfl, rfl, rfl⟩ := requireParagraph_single hp hparagraph
  cases hnew
  rw [hset, hp] at hs'
  obtain ⟨rfl, rfl⟩ := Prod.mk.inj hs'
  refine ⟨document, pre, post, old, _, paragraph, _, s.drawn + 1, ⟨hget, ⟨template, templateSection, completion, htemplate,
    hkey, rfl⟩, hpre, hsections, rfl, hp, rfl, hkeyOld, rfl,
    .of_finalizeMutation rfl rfl rfl le_rfl (fun d hd => citationsOf_set.trans (if_neg hd)) (fun _ _ => rfl), rfl⟩,
    rfl, ?_⟩
  exact citationsOf_set.trans (if_pos rfl)

section Regenerated

variable {sectionKey : String} {pre post : List Section} {old new : Section} {p : Paragraph}

lemma Regenerated.exists_paragraph (h : Regenerated registry s s' sectionKey document document' pre post old new p) :
    ∃ q, new.paragraphs = [q] ∧ q.id = p.id := by
  obtain ⟨template, templateSection, completion, -, -, hnew⟩ := h.generated
  exact ⟨_, hnew, rfl⟩

lemma Regenerated.wellPlaced (h : Regenerated registry s s' sectionKey document document' pre post old new p)
    (hinv : Inv s) : WellPlaced (pre ++ old :: post) := by
  rw [← h.sections]
  exact hinv.documents _ _ h.get

/-- The citations that are left, with those that are built anew, are those of the draft as it is now. -/
lemma Regenerated.cites (h : Regenerated registry s s' sectionKey document document' pre post old new p)
    (hinv : Inv s) (hsame : SameCitations (s'.citationsOf document.id)
      (buildCitations (s.contextOf document.id) document.id 0 (pre ++ new :: post))) : Cites s s' document' := by
  obtain ⟨q, hq, hqid⟩ := h.exists_paragraph
  have hrewrites := h.rewrites
  rw [h.written] at hrewrites ⊢
  refine ⟨hrewrites, (h.wellPlaced hinv).replace h.paragraphs hq h.id hqid, ?_⟩
  rw [contextOf, h.contexts]
  exact hsame

end Regenerated

lemma cites_regenerateSection (hinv : Inv s) (hmatched : Matched s) {documentId : Uuid} {sectionKey : String}
    {completion : Except PyException Completion}
    (h : s.regenerateSection registry documentId sectionKey completion = .ok (document', s')) :
    Cites s s' document' := by
  obtain ⟨document, pre, post, old, new, p, uuids, hregenerated, hcitations⟩ := regenerateSection_ok hinv h
  have hsame := (hmatched document.id document hregenerated.get).1
  rw [hregenerated.sections] at hsame
  refine hregenerated.cites hinv ?_
  rw [hcitations]
  exact same_replaceSection (hregenerated.wellPlaced hinv) hsame 0

lemma cites_regenerateParagraph (hinv : Inv s) (hmatched : Matched s) {documentId : Uuid} {sectionKey : String}
    {paragraphId : Uuid} {completion : Except PyException Completion}
    (h : s.regenerateParagraph registry documentId sectionKey paragraphId completion = .ok (document', s')) :
    Cites s s' document' := by
  obtain ⟨document, pre, post, old, new, p, q, uuids, hregenerated, hq, hcitations⟩ := regenerateParagraph_ok hinv h
  have hsame := (hmatched document.id document hregenerated.get).1
  rw [hregenerated.sections] at hsame
  refine hregenerated.cites hinv ?_
  rw [hcitations]
  exact same_replaceParagraph (hregenerated.wellPlaced hinv) hregenerated.paragraphs hq hregenerated.id hsame 0

lemma restore_ok {drafts : DocumentOrchestrator} {documentId : Uuid} {versionNumber : ℤ} {sections : List Section}
    (h : drafts.restore documentId versionNumber = .ok sections) :
    ∃ version ∈ (drafts.versions.get documentId).getD [], version.sections = sections := by
  unfold restore at h
  split at h
  · rename_i version hfound
    cases h
    exact ⟨version, List.mem_of_find?_eq_some hfound, rfl⟩
  · cases h

/-- A version is restored, and the citations stay. -/
lemma rewrites_restoreVersion {documentId : Uuid} {versionNumber : ℤ} {sections : List Section} (author : String)
    (hdocument : s.drafts.requireDocument documentId = .ok document)
    (hsections : s.drafts.restore documentId versionNumber = .ok sections) :
    ∃ s', s.restoreVersion documentId versionNumber author = .ok ({ document with sections }, s') ∧
      Rewrites s s' { document with sections } ∧ s'.citations = s.citations ∧ s'.contexts = s.contexts := by
  refine ⟨{ s with drafts := s.drafts.finalizeMutation { document with sections } author }, ?_,
    .of_finalizeMutation rfl rfl rfl le_rfl (fun _ _ => rfl) (fun _ _ => rfl), rfl, rfl⟩
  simp only [CitedDrafts.restoreVersion, DocumentOrchestrator.restoreVersion, hdocument, hsections, bind,
    Except.bind, pure, Except.pure]

lemma exists_of_restoreVersion {documentId : Uuid} {versionNumber : ℤ} {author : String}
    (h : s.restoreVersion documentId versionNumber author = .ok (document', s')) :
    ∃ document sections, s.drafts.requireDocument documentId = .ok document ∧
      s.drafts.restore documentId versionNumber = .ok sections := by
  simp only [CitedDrafts.restoreVersion, DocumentOrchestrator.restoreVersion, bind_eq_ok, pure_eq_ok] at h
  obtain ⟨_, ⟨document, hdocument, sections, hsections, -⟩, -⟩ := h
  exact ⟨document, sections, hdocument, hsections⟩

lemma rewrites_validate {documentId : Uuid} {decision : DraftDecision} {author : String} {comment : Option String}
    {record : DraftValidationRecord} (h : s.validate documentId decision author comment = .ok (record, s')) :
    ∃ document, s.drafts.documents.get documentId = some document ∧
      Rewrites s s' { document with status := decision.status document.status } ∧
      s'.citations = s.citations ∧ s'.contexts = s.contexts := by
  simp only [CitedDrafts.validate, DocumentOrchestrator.validate, bind_eq_ok, pure_eq_ok] at h
  obtain ⟨_, ⟨document, hdocument, rfl⟩, hs'⟩ := h
  obtain ⟨-, rfl⟩ := Prod.mk.inj hs'
  exact ⟨document, requireDocument_ok.mp hdocument, ⟨rfl, fun _ _ hversion => Or.inl hversion, fun _ _ => rfl,
    fun _ _ => rfl, Nat.le_succ _⟩, rfl, rfl⟩

/-- The version that is restored resolves to the citations that the draft has. -/
def RestoresCited (s : CitedDrafts) : CitedOperation → Prop
  | .restoreVersion documentId versionNumber _ => ∀ document sections,
      s.drafts.requireDocument documentId = .ok document →
      s.drafts.restore documentId versionNumber = .ok sections →
      SameCitations (buildCitations (s.contextOf documentId) documentId s.drawn sections)
        (buildCitations (s.contextOf documentId) documentId s.drawn document.sections)
  | _ => True

/-- After a version is restored the citations match iff it resolves to those there were. -/
lemma matched_restoreVersion (hinv : Inv s) (hmatched : Matched s) {documentId : Uuid} {versionNumber : ℤ}
    {author : String} {sections : List Section} (hdocument : s.drafts.requireDocument documentId = .ok document)
    (hsections : s.drafts.restore documentId versionNumber = .ok sections)
    (hcall : s.restoreVersion documentId versionNumber author = .ok (document', s')) :
    Inv s' ∧ (Matched s' ↔ RestoresCited s (.restoreVersion documentId versionNumber author)) := by
  obtain ⟨_, hcall', hrewrites, hcitations, hcontexts⟩ :=
    rewrites_restoreVersion author hdocument hsections
  rw [hcall] at hcall'
  obtain ⟨rfl, rfl⟩ := Prod.mk.inj (Except.ok.inj hcall')
  have hget := requireDocument_ok.mp hdocument
  have hid : document.id = documentId := Store.key_of_get hget
  have hsame := (hmatched documentId document hget).1
  obtain ⟨version, hversion, rfl⟩ := restore_ok hsections
  refine ⟨hrewrites.inv hinv (hinv.versions documentId version hversion),
    (hrewrites.matched_iff hmatched s.drawn).trans ?_⟩
  rw [citationsOf, contextOf, hcitations, hcontexts]
  subst hid
  constructor
  · intro hrestored document' sections' hdocument' hsections'
    rw [hdocument] at hdocument'
    rw [hsections] at hsections'
    cases hdocument'
    cases hsections'
    exact hrestored.symm.trans hsame
  · intro hcited
    exact hsame.trans (hcited document version.sections hdocument hsections).symm

lemma Cites.inv (h : Cites s s' document) (hinv : Inv s) : Inv s' := h.toRewrites.inv hinv h.placed

lemma Cites.matched (h : Cites s s' document) (hmatched : Matched s) : Matched s' :=
  (h.toRewrites.matched_iff hmatched 0).mpr h.same

end Operations

/-! ### Steps and runs -/

section Runs

variable {registry : TemplateRegistry} {s : CitedDrafts}

/-- **The step lemma**: after an operation the citations match iff it restores no other ones. -/
theorem step_matched (registry : TemplateRegistry) (hinv : Inv s) (hmatched : Matched s) (op : CitedOperation) :
    Inv (s.step registry op) ∧ (Matched (s.step registry op) ↔ RestoresCited s op) := by
  unfold step
  rcases afterCall_cases s (s.perform registry op) with hok | ⟨hfail, hsame⟩
  · generalize afterCall s (s.perform registry op) = s' at hok ⊢
    cases op with
    | createDraft documentType analysed =>
      obtain ⟨⟨document, _⟩, hcall, rfl⟩ := map_eq_ok.mp hok
      have hcites := cites_createDraft hcall
      exact ⟨hcites.inv hinv, iff_of_true (hcites.matched hmatched) trivial⟩
    | regenerateSection documentId sectionKey completion =>
      obtain ⟨⟨document, _⟩, hcall, rfl⟩ := map_eq_ok.mp hok
      have hcites := cites_regenerateSection hinv hmatched hcall
      exact ⟨hcites.inv hinv, iff_of_true (hcites.matched hmatched) trivial⟩
    | regenerateParagraph documentId sectionKey paragraphId completion =>
      obtain ⟨⟨document, _⟩, hcall, rfl⟩ := map_eq_ok.mp hok
      have hcites := cites_regenerateParagraph hinv hmatched hcall
      exact ⟨hcites.inv hinv, iff_of_true (hcites.matched hmatched) trivial⟩
    | restoreVersion documentId versionNumber author =>
      obtain ⟨⟨restored, _⟩, hcall, rfl⟩ := map_eq_ok.mp hok
      obtain ⟨document, sections, hdocument, hsections⟩ := exists_of_restoreVersion hcall
      exact matched_restoreVersion hinv hmatched hdocument hsections hcall
    | validate documentId decision author comment =>
      obtain ⟨⟨record, _⟩, hcall, rfl⟩ := map_eq_ok.mp hok
      obtain ⟨document, hget, hrewrites, hcitations, hcontexts⟩ := rewrites_validate hcall
      have hid : document.id = documentId := Store.key_of_get hget
      subst hid
      refine ⟨hrewrites.inv hinv (hinv.documents _ document hget),
        iff_of_true ((hrewrites.matched_iff hmatched s.drawn).mpr ?_) trivial⟩
      rw [citationsOf, contextOf, hcitations, hcontexts]
      exact (hmatched _ document hget).1
  · rw [hsame]
    refine ⟨hinv, iff_of_true hmatched ?_⟩
    cases op with
    | restoreVersion documentId versionNumber author =>
      intro document sections hdocument hsections
      obtain ⟨s', hcall, -⟩ := rewrites_restoreVersion author hdocument hsections
      exact absurd (map_eq_ok.mpr ⟨_, hcall, rfl⟩) (hfail s')
    | _ => trivial

/-- **Citations that match the text**: in every run the citations of each draft are, after each operation, those
that the engine builds from its paragraphs iff each version that is restored resolves to the citations that the
draft has at that moment. -/
theorem along_matched_iff (registry : TemplateRegistry) (ops : List CitedOperation) :
    Along (step registry) (fun s op => Matched (s.step registry op)) {} ops ↔
      Along (step registry) RestoresCited {} ops := by
  refine along_congr (I := fun s => Inv s ∧ Matched s) ⟨⟨?_, ?_⟩, ?_⟩ (fun s op h hop => ?_) fun s op h => ?_
  · rintro documentId document ⟨⟩
  · rintro documentId version ⟨⟩
  · rintro documentId document ⟨⟩
  · obtain ⟨hinv, hiff⟩ := step_matched registry h.1 h.2 op
    exact ⟨hinv, hiff.mpr hop⟩
  · exact (step_matched registry h.1 h.2 op).2

/-- A template in which two sections with different roles have one key; the second one comes first in a draft. -/
def twoElements : DocumentTemplate where
  id := "note_interne:v2"
  documentType := .noteInterne
  version := 2
  sections := [{ key := "elements", role := .facts, title := "Éléments du dossier", order := 1 },
    { key := "elements", role := .legalDiscussion, title := "Analyse", order := 0 }]

/-- The draft is written from it, the section under the key is regenerated, and the first version restored. -/
def regeneratedAndRestored : List CitedOperation :=
  let context : DraftingContext :=
    { facts := [⟨"f1", "Licenciement du 3 mars"⟩], researchResults := [⟨"r1", "Art. L1232-1", "Tout licenciement"⟩] }
  [.createDraft .noteInterne (.ok (context, fun _ => ⟨"Texte", .insertion⟩)),
    .regenerateSection 0 "elements" (.ok ⟨"Texte", .insertion⟩), .restoreVersion 0 1 "avocat"]

/-- The draft has the text of the first version, which cites the research result in its first section, and the
citations of the second one, which cite the fact there. -/
theorem restored_stale :
    ¬ Along (step (TemplateRegistry.builtin.register twoElements))
      (fun s op => Matched (s.step (TemplateRegistry.builtin.register twoElements) op)) {}
      regeneratedAndRestored := by
  intro h
  obtain ⟨-, -, hmatched, -⟩ := h
  have hsame := hmatched.same 0
  revert hsame
  decide +kernel

end Runs

end CitedDrafts

end Tmis.LegalDrafting
