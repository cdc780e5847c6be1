import Tmis.Lib.Dict
import Tmis.Lib.PyText

/-!
# The layout of a document

`document_intelligence.layout`: the pages of a text are cut into lines, and each line that is not blank becomes a block,
of a type that is guessed from the line and from where it stands.

* `HeuristicLayoutAnalyzer` — the guesses, over the answers of the regular expressions;
* `analyzeLines` — the loop over pages and lines, whatever the guesses are;
* `content_analyzeLines`, `order_analyzeLines` — a block for each line, in their order.
-/

namespace Tmis.DocumentIntelligence

open Tmis.Lib

inductive BlockType where
  | title | subtitle | paragraph | list | table | signature | annex | footnote | header | footer
  deriving DecidableEq

structure LayoutBlock where
  order : ℕ
  type : BlockType
  content : String
  pageNumber : Option ℕ := none
  metadata : Dict String String := ∅

/-- The type of a line: the line, whether it is the first or the last one of its page, and the lines that head and that
end several pages. -/
abbrev LineClassifier := String → Bool → Bool → List String → List String → BlockType

/-! ### The guesses -/

/-- What the regular expressions of the analyzer answer, and the tables of the characters. -/
structure HeuristicLayoutAnalyzer where
  signature : String → Bool
  annex : String → Bool
  footnote : String → Bool
  list : String → Bool
  table : String → Bool
  subtitle : String → Bool
  isAlpha : Char → Bool
  isUpper : String → Bool
  isTitle : String → Bool

def maxTitleWords : ℕ := 10

/-- `len(line.split())`. -/
def wordCount (line : String) : ℕ := ((line.toList.splitOnP isSpaceChar).filter (· ≠ [])).length

/-- `_classify_line`. -/
def HeuristicLayoutAnalyzer.classifyLine (analyzer : HeuristicLayoutAnalyzer) : LineClassifier :=
  fun line isFirstLine isLastLine headerCandidates footerCandidates =>
    if isFirstLine ∧ line ∈ headerCandidates then .header
    else if isLastLine ∧ line ∈ footerCandidates then .footer
    else if analyzer.signature line then .signature
    else if analyzer.annex line then .annex
    else if analyzer.footnote line then .footnote
    else if analyzer.list line then .list
    else if analyzer.table line then .table
    else if analyzer.subtitle line then .subtitle
    else if line.toList.any analyzer.isAlpha ∧ wordCount line ≤ maxTitleWords ∧
        line.toList.getLast? ∉ [some '.', some ',', some ';'] ∧ (analyzer.isUpper line ∨ analyzer.isTitle line) then
      .title
    else .paragraph

/-! ### Pages and lines -/

/-- A line that is not blank. -/
def filled (line : String) : Bool := strip line ≠ ""

def pageLines (page : String) : List String := (splitLines page).filter filled

/-- The lines that stand there twice or more often. -/
def repeatedLines (lines : List String) : List String := lines.filter fun line => 2 ≤ lines.count line

/-- `_repeated_edge_lines`. -/
def repeatedEdgeLines (pages : List String) : List String × List String :=
  if pages.length < 2 then ([], [])
  else
    let lines := pages.map fun page => (pageLines page).map strip
    (repeatedLines (lines.filterMap List.head?), repeatedLines (lines.filterMap List.getLast?))

/-- The loop over the lines of a page; `count` is how many it has. -/
def lineBlocks (classify : String → Bool → Bool → BlockType) (pageNumber count : ℕ) :
    (index order : ℕ) → List String → List LayoutBlock
  | _, _, [] => []
  | index, order, line :: lines =>
    { order
      type := classify (strip line) (index = 0) (index + 1 = count)
      content := strip line
      pageNumber := some pageNumber } :: lineBlocks classify pageNumber count (index + 1) (order + 1) lines

/-- The loop over the pages. -/
def pageBlocks (classify : String → Bool → Bool → BlockType) : (pageNumber order : ℕ) → List String → List LayoutBlock
  | _, _, [] => []
  | pageNumber, order, page :: pages =>
    lineBlocks classify pageNumber (pageLines page).length 0 order (pageLines page) ++
      pageBlocks classify (pageNumber + 1) (order + (pageLines page).length) pages

/-- `analyze`, for any classification of lines. -/
def analyzeLines (classifyLine : LineClassifier) (text : String) : List LayoutBlock :=
  let pages := pySplit text '\x0c'
  let (headerCandidates, footerCandidates) := repeatedEdgeLines pages
  pageBlocks (fun line isFirstLine isLastLine =>
    classifyLine line isFirstLine isLastLine headerCandidates footerCandidates) 1 0 pages

def HeuristicLayoutAnalyzer.analyze (analyzer : HeuristicLayoutAnalyzer) (text : String) : List LayoutBlock :=
  analyzeLines analyzer.classifyLine text

/-! ### A block for each line -/

section Blocks

variable {classify : String → Bool → Bool → BlockType}

lemma content_lineBlocks (pageNumber count index order : ℕ) (lines : List String) :
    (lineBlocks classify pageNumber count index order lines).map LayoutBlock.content = lines.map strip := by
  induction lines generalizing index order with
  | nil => rfl
  | cons line lines ih => rw [lineBlocks, List.map_cons, List.map_cons, ih]

lemma order_lineBlocks (pageNumber count index order : ℕ) (lines : List String) :
    (lineBlocks classify pageNumber count index order lines).map LayoutBlock.order =
      List.range' order lines.length := by
  induction lines generalizing index order with
  | nil => rfl
  | cons line lines ih => rw [lineBlocks, List.map_cons, ih, List.length_cons, List.range'_succ]

lemma content_pageBlocks (pageNumber order : ℕ) (pages : List String) :
    (pageBlocks classify pageNumber order pages).map LayoutBlock.content = (pages.flatMap pageLines).map strip := by
  induction pages generalizing pageNumber order with
  | nil => rfl
  | cons page pages ih =>
    rw [pageBlocks, List.map_append, content_lineBlocks, ih, List.flatMap_cons, List.map_append]

lemma order_pageBlocks (pageNumber order : ℕ) (pages : List String) :
    (pageBlocks classify pageNumber order pages).map LayoutBlock.order =
      List.range' order (pages.flatMap pageLines).length := by
  induction pages generalizing pageNumber order with
  | nil => rfl
  | cons page pages ih =>
    rw [pageBlocks, List.map_append, order_lineBlocks, ih, List.flatMap_cons, List.length_append]
    exact (List.range'_append_1).symm ▸ rfl

end Blocks

/-- The lines of a text that are not blank are those of its pages. -/
lemma pageLines_pages (text : String) : (pySplit text '\x0c').flatMap pageLines = pageLines text := by
  have hlines : ∀ cs : List Char, pageLines (String.ofList cs) =
      ((cs.splitOnP isLineBreak).filter fun line => filled (String.ofList line)).map String.ofList := by
    intro cs
    have hfilter := filter_splitLinesFrom (fun line => filled (String.ofList line)) (by decide) [] cs
    have hhead : ∀ pieces : List (List Char), pieces.modifyHead ([] ++ ·) = pieces := by
      intro pieces
      cases pieces <;> rfl
    rw [hhead] at hfilter
    rw [pageLines, splitLines, String.toList_ofList, List.filter_map, ← hfilter]
    rfl
  have hcut : ∀ c : Char, (c == '\x0c') = true → isLineBreak c = true := by
    intro c hc
    rw [beq_iff_eq.mp hc]
    decide
  have hpieces := splitOnP_of_le hcut text.toList
  have htext := hlines text.toList
  rw [String.ofList_toList, hpieces, List.filter_flatMap, List.map_flatMap] at htext
  rw [htext, pySplit, List.splitOn_eq_splitOnP, List.flatMap_map]
  exact List.flatMap_congr fun cs _ => hlines cs

/-- **A block for each line that is not blank**, in the order of the text. -/
theorem content_analyzeLines (classifyLine : LineClassifier) (text : String) :
    (analyzeLines classifyLine text).map LayoutBlock.content = (pageLines text).map strip := by
  rw [← pageLines_pages]
  exact content_pageBlocks ..

theorem order_analyzeLines (classifyLine : LineClassifier) (text : String) :
    (analyzeLines classifyLine text).map LayoutBlock.order =
      List.range (analyzeLines classifyLine text).length := by
  have hlength := congrArg List.length (content_analyzeLines classifyLine text)
  rw [List.length_map, List.length_map, ← pageLines_pages] at hlength
  rw [hlength, List.range_eq_range']
  exact order_pageBlocks ..

end Tmis.DocumentIntelligence
