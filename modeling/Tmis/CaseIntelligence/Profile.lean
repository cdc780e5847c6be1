import Mathlib.Data.Prod.Lex
import Tmis.Lib.Dict
import Tmis.Lib.PyFloat
import Tmis.Lib.PySet
import Tmis.Lib.PyText

/-!
# Case profiles

The data of `case_intelligence` and `document_intelligence.schemas`: what a document says, and what a
case has gathered of its documents.  Confidences are floating-point numbers.

* `DocumentRecord` — the entities and the dated events of a document;
* `Actor`, `Fact`, `CaseTimelineEntry`, `EvidenceLink`, `LegalIssue` — what is gathered;
* `CaseProfile` — the case;
* `CaseText` — what the mergers ask of texts: `normalizeName`, `normalizeDescription`, `sortKey`.
-/

namespace Tmis.CaseIntelligence

open Tmis.Lib

/-! ### Documents -/

inductive EntityType where
  | person | company | jurisdiction | address | date | amount | reference | number | lawArticle
  | decisionReference
  deriving DecidableEq

structure ExtractedEntity where
  type : EntityType
  value : String
  deriving DecidableEq

structure TimelineEvent (F : Type) where
  date : String
  description : String
  documentId : String
  confidence : F

structure DocumentRecord (F : Type) where
  documentId : String
  entities : List ExtractedEntity := []
  timelineEvents : List (TimelineEvent F) := []

/-! ### Cases -/

inductive ActorType where
  | person | company | administration | jurisdiction | expert | witness
  deriving DecidableEq

def ActorType.value : ActorType → String
  | person => "person"
  | company => "company"
  | administration => "administration"
  | jurisdiction => "jurisdiction"
  | expert => "expert"
  | witness => "witness"

structure Actor where
  id : Uuid
  type : ActorType
  name : String
  aliases : PySet String := ∅
  sourceDocumentIds : PySet String := ∅
  deriving DecidableEq

structure Fact (F : Type) where
  id : Uuid
  description : String
  confidence : F
  dates : List String := []
  sourceDocumentIds : PySet String := ∅
  confirmingDocumentIds : PySet String := ∅
  contradictingDocumentIds : PySet String := ∅

structure CaseTimelineEntry (F : Type) where
  date : String
  description : String
  documentIds : List String
  confidence : F

structure TimelineInconsistency (F : Type) where
  date : String
  entries : List (CaseTimelineEntry F)
  reason : String := "Plusieurs descriptions différentes pour la même date."

inductive EvidenceConfidence where
  | direct | corroborating | circumstantial | weak
  deriving DecidableEq

def EvidenceConfidence.value : EvidenceConfidence → String
  | direct => "direct"
  | corroborating => "corroborating"
  | circumstantial => "circumstantial"
  | weak => "weak"

structure EvidenceLink where
  factId : Uuid
  documentId : String
  confidence : EvidenceConfidence
  deriving DecidableEq

inductive IssueStatus where
  | open | resolved
  deriving DecidableEq

structure LegalIssue (F : Type) where
  id : Uuid
  description : String
  relatedFactIds : List Uuid := []
  confidence : F
  status : IssueStatus := .open

structure CaseProfile (F : Type) where
  caseId : String
  title : String
  actors : List Actor := []
  documentIds : PySet String := ∅
  timeline : List (CaseTimelineEntry F) := []
  timelineInconsistencies : List (TimelineInconsistency F) := []
  facts : List (Fact F) := []
  evidenceLinks : List EvidenceLink := []
  legalIssues : List (LegalIssue F) := []

/-! ### Texts -/

/-- The calls on texts of the mergers.  `split` is `str.split()`; `frenchDate` and `numericDate` are the
groups that the two regular expressions for dates match at the beginning of a text; `number` is `int` of
a run of digits. -/
structure CaseText extends PyText where
  split : String → List String
  frenchDate : String → Option (String × String × String)
  numericDate : String → Option (String × String × String)
  number : String → ℤ

/-- `_TITLE_PREFIXES`. -/
def titlePrefixes : List String := ["maître ", "me ", "m. ", "mme ", "mr ", "mrs "]

/-- `_MONTH_NUMBERS.get(name, 0)`. -/
def monthNumber : String → ℤ
  | "janvier" => 1
  | "février" => 2
  | "mars" => 3
  | "avril" => 4
  | "mai" => 5
  | "juin" => 6
  | "juillet" => 7
  | "août" => 8
  | "septembre" => 9
  | "octobre" => 10
  | "novembre" => 11
  | "décembre" => 12
  | _ => 0

namespace CaseText

variable (text : CaseText)

/-- `normalize_name`. -/
def normalizeName (name : String) : String :=
  let lowered := " ".intercalate (text.split (text.lower (text.strip name)))
  match titlePrefixes.find? fun title => title.toList.isPrefixOf lowered.toList with
  | some title => text.strip (String.ofList (lowered.toList.drop title.length))
  | none => lowered

/-- `_normalize`, the same in the facts and in the timeline. -/
def normalizeDescription (description : String) : String :=
  text.squeeze (text.lower (text.strip description))

/-- `_sort_key`: year, month and day. -/
def sortKey (dateValue : String) : ℤ ×ₗ ℤ ×ₗ ℤ :=
  match text.frenchDate dateValue with
  | some (day, monthName, year) =>
    toLex (text.number year, toLex (monthNumber (text.lower monthName), text.number day))
  | none =>
    match text.numericDate dateValue with
    | some (day, month, year) =>
      let year := if year.length = 2 then text.number year + 2000 else text.number year
      toLex (year, toLex (text.number month, text.number day))
    | none => toLex (0, toLex (0, 0))

/-! #### The first 128 characters -/

/-- `\d{1,n}` at the beginning: the digits, and what follows. -/
def digitsAtMost (n : ℕ) (s : List Char) : List Char × List Char :=
  let found := (s.takeWhile Char.isDigit).take n
  (found, s.drop found.length)

/-- `\s+` at the beginning: what follows, if there is white space. -/
def afterSpace (s : List Char) : Option (List Char) :=
  let rest := s.dropWhile PyText.isAsciiSpace
  if rest.length = s.length then none else some rest

def asciiFrenchDate (s : String) : Option (String × String × String) := do
  let (day, rest) := digitsAtMost 2 s.toList
  guard (day ≠ [])
  let rest ← afterSpace rest
  let month := rest.takeWhile fun c => c.isAlphanum || c = '_'
  guard (month ≠ [])
  let rest ← afterSpace (rest.drop month.length)
  let (year, _) := digitsAtMost 4 rest
  guard (year.length = 4)
  return (String.ofList day, String.ofList month, String.ofList year)

def asciiNumericDate (s : String) : Option (String × String × String) := do
  let (day, rest) := digitsAtMost 2 s.toList
  guard (day ≠ [] ∧ rest.head? = some '/')
  let (month, rest) := digitsAtMost 2 rest.tail
  guard (month ≠ [] ∧ rest.head? = some '/')
  let (year, _) := digitsAtMost 4 rest.tail
  guard (2 ≤ year.length)
  return (String.ofList day, String.ofList month, String.ofList year)

/-- The calls on texts of the first 128 characters. -/
def ascii : CaseText where
  toPyText := PyText.ascii
  split := PyText.runs fun c => !PyText.isAsciiSpace c
  frenchDate := asciiFrenchDate
  numericDate := asciiNumericDate
  number := PyText.digits

example : ascii.sortKey "3 mars 2021" = toLex (2021, toLex (3, 3)) := by decide +kernel

end CaseText

end Tmis.CaseIntelligence
