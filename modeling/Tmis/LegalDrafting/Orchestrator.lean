import Mathlib.Data.List.Sort
import Tmis.Lib.Calls
import Tmis.Lib.Store

/-!
# The drafting orchestrator

The operations of `legal_drafting.documents` that write a draft: creation, the regeneration of a
section or of a paragraph, the restoration of a version, and the decisions of the lawyer.  What is
awaited (the analysis of the context and the paragraphs the kernel generates on it) comes with the
call, or the exception that it raises.

* `DocumentTemplate`, `TemplateRegistry` — what a draft is built from;
* `Document`, `DocumentOrchestrator` — a draft, and the stores behind the orchestrator;
* `createDraft`, `regenerateSection`, `regenerateParagraph`, `restoreVersion`, `validate`;
* `step` — one operation.
-/

namespace Tmis.LegalDrafting

open Tmis.Lib

/-! ### Templates -/

inductive DocumentType where
  | consultation | noteInterne | courrier | miseEnDemeure | requete | assignation | conclusions
  | memoire | synthese
  deriving DecidableEq

def DocumentType.value : DocumentType → String
  | consultation => "consultation"
  | noteInterne => "note_interne"
  | courrier => "courrier"
  | miseEnDemeure => "mise_en_demeure"
  | requete => "requete"
  | assignation => "assignation"
  | conclusions => "conclusions"
  | memoire => "memoire"
  | synthese => "synthese"

/-- `repr` of a member of the enumeration. -/
def DocumentType.repr (t : DocumentType) : String :=
  "<DocumentType." ++ t.value.toUpper ++ ": " ++ pyRepr t.value ++ ">"

inductive SectionRole where
  | header | context | facts | legalDiscussion | arguments | recommendations | conclusion | signature
  deriving DecidableEq

structure TemplateSection where
  key : String
  role : SectionRole
  title : String
  order : ℕ
  dependsOn : List String := []
  deriving DecidableEq

structure DocumentTemplate where
  id : String
  documentType : DocumentType
  version : ℕ
  sections : List TemplateSection
  deriving DecidableEq

structure TemplateRegistry where
  byId : Dict String DocumentTemplate := ∅
  byType : Dict DocumentType (List DocumentTemplate) := ∅

namespace TemplateRegistry

def register (registry : TemplateRegistry) (template : DocumentTemplate) : TemplateRegistry where
  byId := registry.byId.set template.id template
  byType := registry.byType.set template.documentType
    ((registry.byType.get template.documentType).getD [] ++ [template])

/-- `get_latest`: of several templates with the highest version, the one registered first. -/
def getLatest (registry : TemplateRegistry) (documentType : DocumentType) :
    Except PyException DocumentTemplate :=
  match (registry.byType.get documentType).getD [] with
  | [] => .error (valueError ("No template registered for " ++ documentType.repr))
  | template :: templates =>
    .ok (templates.foldl (fun best t => if best.version < t.version then t else best) template)

end TemplateRegistry

/-! ### The built-in templates -/

def SectionRole.argumentative (role : SectionRole) : Bool :=
  role = .facts || role = .legalDiscussion || role = .arguments

/-- The loop of `_build_template`: a section depends on the argumentative one before it. -/
def outlineSections : Option String → ℕ → List (String × SectionRole × String) → List TemplateSection
  | _, _, [] => []
  | previous, order, (key, role, title) :: outline =>
    { key, role, title, order, dependsOn := previous.toList } ::
      outlineSections (if role.argumentative then some key else previous) (order + 1) outline

/-- `_TEMPLATE_OUTLINES`. -/
def templateOutline : DocumentType → List (String × SectionRole × String)
  | .consultation =>
    [("header", .header, "En-tête"), ("context", .context, "Contexte de la consultation"),
      ("facts", .facts, "Exposé des faits"),
      ("legal_discussion", .legalDiscussion, "Analyse juridique"),
      ("recommendations", .recommendations, "Recommandations"),
      ("conclusion", .conclusion, "Conclusion"), ("signature", .signature, "Signature")]
  | .noteInterne =>
    [("header", .header, "En-tête"), ("context", .context, "Objet de la note"),
      ("facts", .facts, "Éléments du dossier"), ("legal_discussion", .legalDiscussion, "Analyse"),
      ("recommendations", .recommendations, "Points d'attention"),
      ("signature", .signature, "Signature")]
  | .courrier =>
    [("header", .header, "En-tête"), ("context", .context, "Objet"),
      ("arguments", .arguments, "Développement"),
      ("conclusion", .conclusion, "Formule de politesse"), ("signature", .signature, "Signature")]
  | .miseEnDemeure =>
    [("header", .header, "En-tête"), ("facts", .facts, "Rappel des faits"),
      ("legal_discussion", .legalDiscussion, "Fondement juridique"),
      ("arguments", .arguments, "Mise en demeure"),
      ("conclusion", .conclusion, "Délai et conséquences"), ("signature", .signature, "Signature")]
  | .requete =>
    [("header", .header, "En-tête"), ("context", .context, "Objet de la requête"),
      ("facts", .facts, "Exposé des faits"), ("legal_discussion", .legalDiscussion, "Discussion"),
      ("arguments", .arguments, "Moyens"), ("conclusion", .conclusion, "Par ces motifs"),
      ("signature", .signature, "Signature")]
  | .assignation =>
    [("header", .header, "En-tête"), ("facts", .facts, "Exposé des faits"),
      ("legal_discussion", .legalDiscussion, "Discussion juridique"),
      ("arguments", .arguments, "Moyens"), ("conclusion", .conclusion, "Par ces motifs"),
      ("signature", .signature, "Signature")]
  | .conclusions =>
    [("header", .header, "En-tête"), ("facts", .facts, "Rappel des faits et de la procédure"),
      ("legal_discussion", .legalDiscussion, "Discussion"),
      ("arguments", .arguments, "Moyens et arguments"), ("conclusion", .conclusion, "Par ces motifs"),
      ("signature", .signature, "Signature")]
  | .memoire =>
    [("header", .header, "En-tête"), ("context", .context, "Objet du mémoire"),
      ("facts", .facts, "Exposé des faits"),
      ("legal_discussion", .legalDiscussion, "Discussion juridique"),
      ("arguments", .arguments, "Argumentation"),
      ("recommendations", .recommendations, "Points de vigilance"),
      ("conclusion", .conclusion, "Conclusion"), ("signature", .signature, "Signature")]
  | .synthese =>
    [("header", .header, "En-tête"), ("context", .context, "Contexte"),
      ("facts", .facts, "Faits marquants"), ("legal_discussion", .legalDiscussion, "Analyse"),
      ("conclusion", .conclusion, "Synthèse")]

/-- `_build_template`, of version 1. -/
def buildTemplate (documentType : DocumentType) : DocumentTemplate where
  id := documentType.value ++ ":v1"
  documentType
  version := 1
  sections := outlineSections none 0 (templateOutline documentType)

/-- The registry as it starts: the nine built-in templates. -/
def TemplateRegistry.builtin : TemplateRegistry :=
  [.consultation, .noteInterne, .courrier, .miseEnDemeure, .requete, .assignation, .conclusions,
    .memoire, .synthese].foldl (fun registry t => registry.register (buildTemplate t)) {}

/-! ### Drafts -/

structure Paragraph where
  id : Uuid
  sectionKey : String
  order : ℕ
  text : String
  origin : String
  factIds : List String := []
  referenceIds : List String := []
  evidenceIds : List String := []
  hypothesisIds : List String := []
  deriving DecidableEq

structure Section where
  id : Uuid
  key : String
  title : String
  order : ℕ
  paragraphs : List Paragraph
  dependsOn : List String
  deriving DecidableEq

inductive DraftWorkflowStatus where
  | generated | underReview | lawyerApproved | rejected
  deriving DecidableEq

structure Document where
  id : Uuid
  templateId : String
  documentType : DocumentType
  sections : List Section
  status : DraftWorkflowStatus := .generated
  deriving DecidableEq

structure DocumentVersion where
  id : Uuid
  documentId : Uuid
  versionNumber : ℤ
  sections : List Section
  author : String
  deriving DecidableEq

inductive DraftDecision where
  | approved | rejected | commented
  deriving DecidableEq

/-- The status a decision leads to: a comment leaves it as it is. -/
def DraftDecision.status (current : DraftWorkflowStatus) : DraftDecision → DraftWorkflowStatus
  | approved => .lawyerApproved
  | rejected => .rejected
  | commented => current

structure DraftValidationRecord where
  id : Uuid
  documentId : Uuid
  decision : DraftDecision
  author : String
  comment : Option String
  deriving DecidableEq

/-- The orchestrator with its stores; `uuids` counts the identifiers drawn so far. -/
structure DocumentOrchestrator where
  documents : Store Uuid Document Document.id := ∅
  versions : Dict Uuid (List DocumentVersion) := ∅
  validations : Dict Uuid (List DraftValidationRecord) := ∅
  uuids : ℕ := 0

/-! ### Looking things up -/

def requireTemplate (registry : TemplateRegistry) (templateId : String) :
    Except PyException DocumentTemplate :=
  match registry.byId.get templateId with
  | some template => .ok template
  | none => .error (valueError ("Unknown template " ++ pyRepr templateId))

def requireTemplateSection (template : DocumentTemplate) (sectionKey : String) :
    Except PyException TemplateSection :=
  match template.sections.find? (·.key = sectionKey) with
  | some templateSection => .ok templateSection
  | none => .error (valueError ("Unknown section " ++ pyRepr sectionKey ++ " for template " ++
      pyRepr template.id))

def requireSection (document : Document) (sectionKey : String) : Except PyException Section :=
  match document.sections.find? (·.key = sectionKey) with
  | some oldSection => .ok oldSection
  | none => .error (valueError ("Unknown section " ++ pyRepr sectionKey ++ " for draft " ++
      pyRepr (toString document.id)))

def requireParagraph (oldSection : Section) (paragraphId : Uuid) : Except PyException (ℕ × Paragraph) :=
  match oldSection.paragraphs.zipIdx.find? (·.1.id = paragraphId) with
  | some (paragraph, index) => .ok (index, paragraph)
  | none => .error (valueError ("Unknown paragraph " ++ pyRepr (toString paragraphId) ++
      " in section " ++ pyRepr oldSection.key))

/-! ### Sections and paragraphs built anew -/

/-- `_build_section`, of the paragraphs generated. -/
def buildSection (templateSection : TemplateSection) (id : Uuid) (paragraphs : List Paragraph) :
    Section where
  id
  key := templateSection.key
  title := templateSection.title
  order := templateSection.order
  paragraphs
  dependsOn := templateSection.dependsOn

/-- A paragraph generated again stands under the identifier and in the place of the old one. -/
def Paragraph.inPlaceOf (new old : Paragraph) : Paragraph := { new with id := old.id, order := old.order }

/-- The loop over `zip(old_section.paragraphs, new_section.paragraphs)`: the new paragraphs beyond the
old ones stay as they are. -/
def inPlacesOf : List Paragraph → List Paragraph → List Paragraph
  | new :: news, old :: olds => new.inPlaceOf old :: inPlacesOf news olds
  | news, _ => news

/-- `regenerate_one`, of the paragraphs generated. -/
def regenerateOne (paragraph : Paragraph) : List Paragraph → Except PyException Paragraph
  | [] => .error ⟨"IndexError", "list index out of range"⟩
  | new :: _ => .ok (new.inPlaceOf paragraph)

/-! ### The operations -/

namespace DocumentOrchestrator

def requireDocument (s : DocumentOrchestrator) (documentId : Uuid) : Except PyException Document :=
  match s.documents.get documentId with
  | some document => .ok document
  | none => .error (valueError ("No draft found for " ++ pyRepr (toString documentId)))

/-- `InMemoryVersioningService.snapshot`. -/
def snapshot (s : DocumentOrchestrator) (documentId : Uuid) (sections : List Section)
    (author : String) : DocumentOrchestrator :=
  let existing := (s.versions.get documentId).getD []
  let version : DocumentVersion :=
    { id := s.uuids, documentId, versionNumber := existing.length + 1, sections, author }
  { s with versions := s.versions.set documentId (existing ++ [version]), uuids := s.uuids + 1 }

/-- `InMemoryVersioningService.restore`. -/
def restore (s : DocumentOrchestrator) (documentId : Uuid) (versionNumber : ℤ) :
    Except PyException (List Section) :=
  match ((s.versions.get documentId).getD []).find? (·.versionNumber = versionNumber) with
  | some version => .ok version.sections
  | none => .error (valueError ("Unknown version " ++ toString versionNumber ++ " for document " ++
      pyRepr (toString documentId)))

/-- Save a draft, and take a snapshot of it. -/
def finalizeMutation (s : DocumentOrchestrator) (document : Document) (author : String) :
    DocumentOrchestrator :=
  { s with documents := s.documents.save document }.snapshot document.id document.sections author

/-- `create_draft`: `generated` has the paragraphs of each section, in the order of the template. -/
def createDraft (registry : TemplateRegistry) (s : DocumentOrchestrator) (documentType : DocumentType)
    (generated : Except PyException (ℕ → List Paragraph)) :
    Except PyException (Document × DocumentOrchestrator) := do
  let template ← registry.getLatest documentType
  let generated ← generated
  let ordered := template.sections.insertionSort fun a b => a.order ≤ b.order
  let document : Document :=
    { id := s.uuids
      templateId := template.id
      documentType
      sections := ordered.zipIdx.map fun x => buildSection x.1 (s.uuids + 1 + x.2) (generated x.2)
      status := .underReview }
  return (document, { s with uuids := s.uuids + 1 + ordered.length }.finalizeMutation document "system")

def regenerateSection (registry : TemplateRegistry) (s : DocumentOrchestrator) (documentId : Uuid)
    (sectionKey : String) (generated : Except PyException (List Paragraph)) :
    Except PyException (Document × DocumentOrchestrator) := do
  let document ← s.requireDocument documentId
  let template ← requireTemplate registry document.templateId
  let templateSection ← requireTemplateSection template sectionKey
  let paragraphs ← generated
  let oldSection ← requireSection document sectionKey
  let newSection := buildSection templateSection oldSection.id (inPlacesOf paragraphs oldSection.paragraphs)
  let index := document.sections.idxOf oldSection
  let document := { document with sections := document.sections.set index newSection }
  return (document, { s with uuids := s.uuids + 1 }.finalizeMutation document "system")

def regenerateParagraph (registry : TemplateRegistry) (s : DocumentOrchestrator) (documentId : Uuid)
    (sectionKey : String) (paragraphId : Uuid) (generated : Except PyException (List Paragraph)) :
    Except PyException (Document × DocumentOrchestrator) := do
  let document ← s.requireDocument documentId
  let template ← requireTemplate registry document.templateId
  let _ ← requireTemplateSection template sectionKey
  let oldSection ← requireSection document sectionKey
  let (paragraphIndex, paragraph) ← requireParagraph oldSection paragraphId
  let paragraphs ← generated
  let newParagraph ← regenerateOne paragraph paragraphs
  -- the paragraph is written into the section as it stands in the draft
  let newSection :=
    { oldSection with paragraphs := oldSection.paragraphs.set paragraphIndex newParagraph }
  let index := document.sections.idxOf oldSection
  let document := { document with sections := document.sections.set index newSection }
  return (document, s.finalizeMutation document "system")

def restoreVersion (s : DocumentOrchestrator) (documentId : Uuid) (versionNumber : ℤ) (author : String) :
    Except PyException (Document × DocumentOrchestrator) := do
  let document ← s.requireDocument documentId
  let sections ← s.restore documentId versionNumber
  let document := { document with sections }
  return (document, s.finalizeMutation document author)

def validate (s : DocumentOrchestrator) (documentId : Uuid) (decision : DraftDecision) (author : String)
    (comment : Option String) : Except PyException (DraftValidationRecord × DocumentOrchestrator) := do
  let document ← s.requireDocument documentId
  let record : DraftValidationRecord := { id := s.uuids, documentId, decision, author, comment }
  let document := { document with status := decision.status document.status }
  return (record,
    { s with
      documents := s.documents.save document
      validations := s.validations.set documentId
        ((s.validations.get documentId).getD [] ++ [record])
      uuids := s.uuids + 1 })

end DocumentOrchestrator

/-! ### Runs -/

inductive Operation where
  | createDraft (documentType : DocumentType) (generated : Except PyException (ℕ → List Paragraph))
  | regenerateSection (documentId : Uuid) (sectionKey : String)
      (generated : Except PyException (List Paragraph))
  | regenerateParagraph (documentId : Uuid) (sectionKey : String) (paragraphId : Uuid)
      (generated : Except PyException (List Paragraph))
  | restoreVersion (documentId : Uuid) (versionNumber : ℤ) (author : String)
  | validate (documentId : Uuid) (decision : DraftDecision) (author : String) (comment : Option String)

/-- The call of an operation, without the value it gives. -/
def perform (registry : TemplateRegistry) (s : DocumentOrchestrator) :
    Operation → Except PyException DocumentOrchestrator
  | .createDraft documentType generated =>
    (s.createDraft registry documentType generated).map Prod.snd
  | .regenerateSection documentId sectionKey generated =>
    (s.regenerateSection registry documentId sectionKey generated).map Prod.snd
  | .regenerateParagraph documentId sectionKey paragraphId generated =>
    (s.regenerateParagraph registry documentId sectionKey paragraphId generated).map Prod.snd
  | .restoreVersion documentId versionNumber author =>
    (s.restoreVersion documentId versionNumber author).map Prod.snd
  | .validate documentId decision author comment =>
    (s.validate documentId decision author comment).map Prod.snd

/-- One operation.  All that raises does so before anything is written. -/
def step (registry : TemplateRegistry) (s : DocumentOrchestrator) (op : Operation) :
    DocumentOrchestrator :=
  afterCall s (perform registry s op)

end Tmis.LegalDrafting
