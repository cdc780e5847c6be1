import Tmis.LegalDrafting.Orchestrator
import Tmis.Lib.PySet

/-!
# The citations of a draft

What the paragraphs of a draft are grounded on, the references that they resolve to, and the citations that
the orchestrator keeps beside the text: the operations of `Orchestrator.lean` with the citations they build.
The context that was analysed when a draft was created is the one in which it is written on.

* `DraftingContext`, `generate` — the context, and the paragraph generated from it for a section;
* `resolve`, `buildForParagraph`, `buildCitations` — the reference resolver and the citation engine;
* `CitedDrafts`, `createDraft`, `regenerateSection`, `regenerateParagraph`, `restoreVersion`, `step`;
* `step_drafts` — but for the citations these are the operations on drafts.
-/

namespace Tmis.LegalDrafting

open Tmis.Lib

/-! ### The context -/

structure Fact where
  id : String
  description : String
  deriving DecidableEq

structure ResearchResult where
  id : String
  title : String
  excerpt : String
  deriving DecidableEq

/-- The reliability score is kept as `f"{score:.2f}"` prints it. -/
structure EvidenceLink where
  id : String
  hypothesisId : String
  reliabilityScore : String
  factId : Option String
  deriving DecidableEq

structure Hypothesis where
  id : String
  description : String
  deriving DecidableEq

structure ReasoningStrategy where
  hypothesisId : String
  deriving DecidableEq

structure ReasoningSession where
  hypotheses : List Hypothesis := []
  evidenceLinks : List EvidenceLink := []
  strategies : List ReasoningStrategy := []
  deriving DecidableEq

structure DraftingContext where
  facts : List Fact := []
  researchResults : List ResearchResult := []
  reasoningSession : Option ReasoningSession := none
  deriving DecidableEq

/-! ### The paragraph engine -/

/-- What a paragraph declares to be grounded on. -/
structure Grounds where
  factIds : List String := []
  referenceIds : List String := []
  evidenceIds : List String := []
  hypothesisIds : List String := []

/-- What a call of the kernel decides: a text, and the order in which the sets of the call are iterated. -/
structure Completion where
  text : String
  order : SetOrder

/-- `_MAX_FACTS_PER_PARAGRAPH`. -/
def maxFactsPerParagraph : ℕ := 5

/-- `_MAX_RESEARCH_RESULTS_PER_PARAGRAPH`. -/
def maxResearchResultsPerParagraph : ℕ := 3

def setOf (ids : List String) : PySet String := ids.foldl PySet.add ∅

/-- The identifiers that `generate` gives to a paragraph of a section with this role. -/
def DraftingContext.grounds (context : DraftingContext) (order : SetOrder) : SectionRole → Grounds
  | .facts => { factIds := (context.facts.take maxFactsPerParagraph).map (·.id) }
  | .legalDiscussion | .arguments =>
    let session := context.reasoningSession.getD {}
    let hypothesisIds := setOf (session.hypotheses.map (·.id))
    { referenceIds := (context.researchResults.take maxResearchResultsPerParagraph).map (·.id)
      evidenceIds := (session.evidenceLinks.filter fun e => e.hypothesisId ∈ hypothesisIds).map (·.id)
      hypothesisIds := order.list hypothesisIds }
  | .recommendations =>
    { hypothesisIds := order.list (setOf ((context.reasoningSession.getD {}).strategies.map (·.hypothesisId))) }
  | .header | .signature | .context | .conclusion => {}

def SectionRole.origin : SectionRole → String
  | .header => "template"
  | .signature => "style_engine"
  | _ => "kernel"

/-- `generate`: one paragraph. -/
def generate (context : DraftingContext) (templateSection : TemplateSection) (completion : Completion)
    (id : Uuid) : List Paragraph :=
  let grounds := context.grounds completion.order templateSection.role
  [{ id
     sectionKey := templateSection.key
     order := 0
     text := completion.text
     origin := templateSection.role.origin
     factIds := grounds.factIds
     referenceIds := grounds.referenceIds
     evidenceIds := grounds.evidenceIds
     hypothesisIds := grounds.hypothesisIds }]

/-! ### The reference resolver -/

inductive ReferenceTargetType where
  | fact | researchResult | evidence | hypothesis
  deriving DecidableEq

def ReferenceTargetType.value : ReferenceTargetType → String
  | fact => "fact"
  | researchResult => "research_result"
  | evidence => "evidence"
  | hypothesis => "hypothesis"

structure ReferenceLink where
  targetType : ReferenceTargetType
  targetId : String
  label : String
  excerpt : String

/-- One loop of `resolve`: the links to the objects that have one of the identifiers. -/
def linksTo {α : Type} (link : α → ReferenceLink) (objects : List α) (ids : List String) :
    List ReferenceLink :=
  let byId := Dict.ofEntries (objects.map fun x => ((link x).targetId, link x))
  ids.filterMap byId.get

def resolve (context : DraftingContext) (paragraph : Paragraph) : List ReferenceLink :=
  let session := context.reasoningSession.getD {}
  linksTo (fun f : Fact => ⟨.fact, f.id, f.description, f.description⟩) context.facts paragraph.factIds ++
    linksTo (fun r : ResearchResult => ⟨.researchResult, r.id, r.title, r.excerpt⟩) context.researchResults
      paragraph.referenceIds ++
    linksTo (fun e : EvidenceLink => ⟨.evidence, e.id, "Preuve (fiabilité " ++ e.reliabilityScore ++ ")",
      e.factId.getD ""⟩) session.evidenceLinks paragraph.evidenceIds ++
    linksTo (fun h : Hypothesis => ⟨.hypothesis, h.id, h.description, h.description⟩) session.hypotheses
      paragraph.hypothesisIds

/-! ### The citation engine -/

structure DraftCitation where
  id : Uuid
  documentId : Uuid
  sectionId : Uuid
  paragraphId : Uuid
  sourceType : String
  sourceId : String
  reference : String
  excerpt : String
  deriving DecidableEq

/-- `build_for_paragraph`; `uuids` counts the identifiers drawn so far. -/
def buildForParagraph (uuids : ℕ) (documentId sectionId : Uuid) (paragraph : Paragraph)
    (references : List ReferenceLink) : List DraftCitation :=
  references.zipIdx.map fun x =>
    { id := uuids + x.2
      documentId
      sectionId
      paragraphId := paragraph.id
      sourceType := x.1.targetType.value
      sourceId := x.1.targetId
      reference := x.1.label
      excerpt := x.1.excerpt }

/-- The paragraphs of all sections, each with the identifier of its section. -/
def placed (sections : List Section) : List (Uuid × Paragraph) :=
  sections.flatMap fun s => s.paragraphs.map (s.id, ·)

/-- The loop of `_build_citations`. -/
def buildPlaced (context : DraftingContext) (documentId : Uuid) : ℕ → List (Uuid × Paragraph) →
    List DraftCitation
  | _, [] => []
  | uuids, (sectionId, paragraph) :: rest =>
    let citations := buildForParagraph uuids documentId sectionId paragraph (resolve context paragraph)
    citations ++ buildPlaced context documentId (uuids + citations.length) rest

/-- `_build_citations`. -/
def buildCitations (context : DraftingContext) (documentId : Uuid) (uuids : ℕ) (sections : List Section) :
    List DraftCitation :=
  buildPlaced context documentId uuids (placed sections)

/-! ### The operations -/

/-- The orchestrator with the citations of each draft.  `contexts` has the context that was analysed for each;
`drawn` counts the identifiers of paragraphs and citations drawn so far. -/
structure CitedDrafts where
  drafts : DocumentOrchestrator := {}
  citations : Dict Uuid (List DraftCitation) := ∅
  contexts : Dict Uuid DraftingContext := ∅
  drawn : ℕ := 0

namespace CitedDrafts

variable (registry : TemplateRegistry) (s : CitedDrafts)

/-- `document.citations`. -/
def citationsOf (documentId : Uuid) : List DraftCitation := (s.citations.get documentId).getD []

/-- `_analyze_context`, which finds what it found when the draft was created. -/
def contextOf (documentId : Uuid) : DraftingContext := (s.contexts.get documentId).getD {}

/-- The paragraphs of the sections of a template, from what the kernel answers for each. -/
def generated (context : DraftingContext) (ordered : List TemplateSection) (completions : ℕ → Completion)
    (i : ℕ) : List Paragraph :=
  match ordered[i]? with
  | some templateSection => generate context templateSection (completions i) (s.drawn + i)
  | none => []

def createDraft (documentType : DocumentType)
    (analysed : Except PyException (DraftingContext × (ℕ → Completion))) :
    Except PyException (Document × CitedDrafts) := do
  let template ← registry.getLatest documentType
  let (context, completions) ← analysed
  let ordered := template.sections.insertionSort fun a b => a.order ≤ b.order
  let (document, drafts) ← s.drafts.createDraft registry documentType
    (.ok (s.generated context ordered completions))
  let citations := buildCitations context document.id (s.drawn + ordered.length) document.sections
  return (document,
    { drafts
      citations := s.citations.set document.id citations
      contexts := s.contexts.set document.id context
      drawn := s.drawn + ordered.length + citations.length })

def regenerateSection (documentId : Uuid) (sectionKey : String) (completion : Except PyException Completion) :
    Except PyException (Document × CitedDrafts) := do
  let document ← s.drafts.requireDocument documentId
  let template ← requireTemplate registry document.templateId
  let templateSection ← requireTemplateSection template sectionKey
  let completion ← completion
  let paragraphs := generate (s.contextOf documentId) templateSection completion s.drawn
  let oldSection ← requireSection document sectionKey
  let newSection := buildSection templateSection oldSection.id (inPlacesOf paragraphs oldSection.paragraphs)
  let index := document.sections.idxOf oldSection
  let document := { document with sections := document.sections.set index newSection }
  let built := buildCitations (s.contextOf documentId) document.id (s.drawn + 1) [newSection]
  let citations := (s.citationsOf documentId).filter (·.sectionId ≠ oldSection.id) ++ built
  return (document,
    { s with
      drafts := { s.drafts with uuids := s.drafts.uuids + 1 }.finalizeMutation document "system"
      citations := s.citations.set documentId citations
      drawn := s.drawn + 1 + built.length })

def regenerateParagraph (documentId : Uuid) (sectionKey : String) (paragraphId : Uuid)
    (completion : Except PyException Completion) : Except PyException (Document × CitedDrafts) := do
  let document ← s.drafts.requireDocument documentId
  let template ← requireTemplate registry document.templateId
  let templateSection ← requireTemplateSection template sectionKey
  let oldSection ← requireSection document sectionKey
  let (paragraphIndex, paragraph) ← requireParagraph oldSection paragraphId
  let completion ← completion
  let newParagraph ← regenerateOne paragraph
    (generate (s.contextOf documentId) templateSection completion s.drawn)
  let newSection :=
    { oldSection with paragraphs := oldSection.paragraphs.set paragraphIndex newParagraph }
  let index := document.sections.idxOf oldSection
  let document := { document with sections := document.sections.set index newSection }
  let built := buildForParagraph (s.drawn + 1) document.id oldSection.id newParagraph
    (resolve (s.contextOf documentId) newParagraph)
  let citations := (s.citationsOf documentId).filter (·.paragraphId ≠ paragraphId) ++ built
  return (document,
    { s with
      drafts := s.drafts.finalizeMutation document "system"
      citations := s.citations.set documentId citations
      drawn := s.drawn + 1 + built.length })

/-- The citations are left as they are. -/
def restoreVersion (documentId : Uuid) (versionNumber : ℤ) (author : String) :
    Except PyException (Document × CitedDrafts) := do
  let (document, drafts) ← s.drafts.restoreVersion documentId versionNumber author
  return (document, { s with drafts })

def validate (documentId : Uuid) (decision : DraftDecision) (author : String) (comment : Option String) :
    Except PyException (DraftValidationRecord × CitedDrafts) := do
  let (record, drafts) ← s.drafts.validate documentId decision author comment
  return (record, { s with drafts })

end CitedDrafts

inductive CitedOperation where
  | createDraft (documentType : DocumentType)
      (analysed : Except PyException (DraftingContext × (ℕ → Completion)))
  | regenerateSection (documentId : Uuid) (sectionKey : String) (completion : Except PyException Completion)
  | regenerateParagraph (documentId : Uuid) (sectionKey : String) (paragraphId : Uuid)
      (completion : Except PyException Completion)
  | restoreVersion (documentId : Uuid) (versionNumber : ℤ) (author : String)
  | validate (documentId : Uuid) (decision : DraftDecision) (author : String) (comment : Option String)

namespace CitedDrafts

variable (registry : TemplateRegistry) (s : CitedDrafts)

/-- The call of an operation, without the value it gives. -/
def perform : CitedOperation → Except PyException CitedDrafts
  | .createDraft documentType analysed => (s.createDraft registry documentType analysed).map Prod.snd
  | .regenerateSection documentId sectionKey completion =>
    (s.regenerateSection registry documentId sectionKey completion).map Prod.snd
  | .regenerateParagraph documentId sectionKey paragraphId completion =>
    (s.regenerateParagraph registry documentId sectionKey paragraphId completion).map Prod.snd
  | .restoreVersion documentId versionNumber author =>
    (s.restoreVersion documentId versionNumber author).map Prod.snd
  | .validate documentId decision author comment =>
    (s.validate documentId decision author comment).map Prod.snd

/-- One operation.  All that raises does so before anything is written. -/
def step (op : CitedOperation) : CitedDrafts := afterCall s (s.perform registry op)

/-! ### The drafts alone -/

def templateSectionOf (documentId : Uuid) (sectionKey : String) : Except PyException TemplateSection := do
  let document ← s.drafts.requireDocument documentId
  let template ← requireTemplate registry document.templateId
  requireTemplateSection template sectionKey

/-- The operation on drafts, with the paragraphs that are generated for it. -/
def plain : CitedOperation → Operation
  | .createDraft documentType analysed => .createDraft documentType do
      let template ← registry.getLatest documentType
      let (context, completions) ← analysed
      return s.generated context (template.sections.insertionSort fun a b => a.order ≤ b.order) completions
  | .regenerateSection documentId sectionKey completion => .regenerateSection documentId sectionKey do
      let templateSection ← s.templateSectionOf registry documentId sectionKey
      return generate (s.contextOf documentId) templateSection (← completion) s.drawn
  | .regenerateParagraph documentId sectionKey paragraphId completion =>
    .regenerateParagraph documentId sectionKey paragraphId do
      let templateSection ← s.templateSectionOf registry documentId sectionKey
      return generate (s.contextOf documentId) templateSection (← completion) s.drawn
  | .restoreVersion documentId versionNumber author => .restoreVersion documentId versionNumber author
  | .validate documentId decision author comment => .validate documentId decision author comment

lemma perform_drafts (op : CitedOperation) :
    (s.perform registry op).map drafts = LegalDrafting.perform registry s.drafts (s.plain registry op) := by
  cases op with
  | createDraft documentType analysed =>
    simp only [perform, plain, LegalDrafting.perform, createDraft, DocumentOrchestrator.createDraft]
    cases registry.getLatest documentType with
    | error e => rfl
    | ok template => cases analysed <;> rfl
  | regenerateSection documentId sectionKey completion =>
    simp only [perform, plain, LegalDrafting.perform, regenerateSection, DocumentOrchestrator.regenerateSection,
      templateSectionOf, bind, Except.bind]
    cases s.drafts.requireDocument documentId with
    | error e => rfl
    | ok document =>
      dsimp only
      cases requireTemplate registry document.templateId with
      | error e => rfl
      | ok template =>
        dsimp only
        cases requireTemplateSection template sectionKey with
        | error e => rfl
        | ok templateSection =>
          cases completion with
          | error e => rfl
          | ok completion =>
            dsimp only [pure, Except.pure]
            cases requireSection document sectionKey <;> rfl
  | regenerateParagraph documentId sectionKey paragraphId completion =>
    simp only [perform, plain, LegalDrafting.perform, regenerateParagraph,
      DocumentOrchestrator.regenerateParagraph, templateSectionOf, bind, Except.bind]
    cases s.drafts.requireDocument documentId with
    | error e => rfl
    | ok document =>
      dsimp only
      cases requireTemplate registry document.templateId with
      | error e => rfl
      | ok template =>
        dsimp only
        cases requireTemplateSection template sectionKey with
        | error e => rfl
        | ok templateSection =>
          dsimp only
          cases requireSection document sectionKey with
          | error e => rfl
          | ok oldSection =>
            dsimp only
            cases requireParagraph oldSection paragraphId with
            | error e => rfl
            | ok found => cases completion <;> rfl
  | restoreVersion documentId versionNumber author =>
    simp only [perform, plain, LegalDrafting.perform, restoreVersion]
    cases s.drafts.restoreVersion documentId versionNumber author <;> rfl
  | validate documentId decision author comment =>
    simp only [perform, plain, LegalDrafting.perform, validate]
    cases s.drafts.validate documentId decision author comment <;> rfl

/-- **But for the citations**, an operation is the operation on drafts. -/
theorem step_drafts (op : CitedOperation) :
    (s.step registry op).drafts = LegalDrafting.step registry s.drafts (s.plain registry op) := by
  rw [step, LegalDrafting.step, ← perform_drafts]
  cases s.perform registry op <;> rfl

end CitedDrafts

end Tmis.LegalDrafting
