import Tmis.LegalDrafting.Citations
import Tmis.LegalDrafting.PdfExport
import Tmis.Lib.MarkupText

/-!
# The exporters

The HTML and PDF exporters of `legal_drafting.export`: the sections of a draft, their paragraphs, and under each
paragraph what it cites.

* `ExportedDocument`, `citationsByParagraph` — what the exporters read of a draft;
* `HtmlExporter.exportDocument`, `PdfExporter.exportDocument` — the two files;
* `html_export_read` — the page is read as the draft it was made of, whatever the texts of the draft are;
* `pdf_export_read` — so are the pages of the other one, in one byte for each character.
-/

namespace Tmis.LegalDrafting

open Tmis.Lib

/-- What the exporters read of a `Document`. -/
structure ExportedDocument where
  id : Uuid
  title : String
  sections : List Section := []
  citations : List DraftCitation := []

/-- `ExportResult`; the format is told by the media type. -/
structure ExportResult where
  filename : String
  content : List UInt8
  mediaType : String
  deriving DecidableEq

/-- `PlainTextCitationFormatter.format`. -/
def formatPlainText (citation : DraftCitation) : String :=
  citation.reference ++ " (" ++ citation.sourceType ++ ")"

/-- `_EXCERPT_PREVIEW_CHARS`. -/
def excerptPreviewChars : ℕ := 160

/-- `FootnoteCitationFormatter.format`. -/
def formatFootnote (citation : DraftCitation) : String :=
  let excerpt := String.ofList (citation.excerpt.toList.take excerptPreviewChars)
  let excerpt := if excerptPreviewChars < citation.excerpt.toList.length then excerpt ++ "…" else excerpt
  citation.reference ++ " — « " ++ excerpt ++ " » [" ++ citation.sourceType ++ ":" ++ citation.sourceId ++ "]"

/-- `citations_by_paragraph`, with the formatter that the exporter uses. -/
def citationsByParagraph (format : DraftCitation → String) (citations : List DraftCitation) :
    Dict Uuid (List String) :=
  citations.foldl (fun byParagraph citation => byParagraph.set citation.paragraphId
    ((byParagraph.get citation.paragraphId).getD [] ++ [format citation])) ∅

/-- The citations of a paragraph, in order. -/
def ExportedDocument.cited (document : ExportedDocument) (paragraph : Paragraph) : List DraftCitation :=
  document.citations.filter fun citation => citation.paragraphId = paragraph.id

/-- **Under each paragraph** stands what it cites, in order. -/
theorem get_citationsByParagraph (format : DraftCitation → String) (document : ExportedDocument)
    (paragraph : Paragraph) :
    ((citationsByParagraph format document.citations).get paragraph.id).getD [] =
      (document.cited paragraph).map format := by
  unfold citationsByParagraph ExportedDocument.cited
  induction document.citations using List.reverseRecOn with
  | nil => rfl
  | append_singleton citations citation ih =>
    rw [List.foldl_append, List.foldl_cons, List.foldl_nil, Dict.get_set, List.filter_append, List.map_append, ← ih]
    by_cases h : citation.paragraphId = paragraph.id
    · simp [h]
    · simp [h, Ne.symm h]

/-! ### HTML -/

namespace HtmlExporter

def disclaimer : String :=
  "Document généré par TMIS — brouillon non validé, à relire et valider par un avocat."

/-- `html.escape`. -/
def escape (s : String) : String := String.ofList (Html.escape s.toList)

/-- The lines under `<h2>`, for each section. -/
def sectionParts (byParagraph : Dict Uuid (List String)) (s : Section) : List String :=
  ("<h2>" ++ escape s.title ++ "</h2>") :: s.paragraphs.flatMap fun paragraph =>
    ("<p>" ++ escape paragraph.text ++ "</p>") :: ((byParagraph.get paragraph.id).getD []).map fun formatted =>
      "<p class=\"citation\"><small>" ++ escape formatted ++ "</small></p>"

def parts (document : ExportedDocument) : List String :=
  let byParagraph := citationsByParagraph formatFootnote document.citations
  ["<!doctype html>",
    "<html><head><meta charset=\"utf-8\">",
    "<title>" ++ escape document.title ++ "</title></head><body>",
    "<p><em>" ++ escape disclaimer ++ "</em></p>",
    "<h1>" ++ escape document.title ++ "</h1>"] ++
  document.sections.flatMap (sectionParts byParagraph) ++ ["</body></html>"]

def exportDocument (document : ExportedDocument) : ExportResult where
  filename := toString document.id ++ ".html"
  content := ("\n".intercalate (parts document)).toByteArray.data.toList
  mediaType := "text/html"

/-! #### The page as tags and texts -/

open Html

def tagged (name : String) (text : String) : List Token := element name.toList text.toList

def citationLine (citation : DraftCitation) : List Token :=
  .tag "p class=\"citation\"".toList :: tagged "small" (formatFootnote citation) ++ [.tag "/p".toList]

def sectionLines (document : ExportedDocument) (s : Section) : List (List Token) :=
  tagged "h2" s.title :: s.paragraphs.flatMap fun paragraph =>
    tagged "p" paragraph.text :: (document.cited paragraph).map citationLine

def lines (document : ExportedDocument) : List (List Token) :=
  [[.tag "html".toList, .tag "head".toList, .tag "meta charset=\"utf-8\"".toList],
    tagged "title" document.title ++ [.tag "/head".toList, .tag "body".toList],
    .tag "p".toList :: tagged "em" disclaimer ++ [.tag "/p".toList],
    tagged "h1" document.title] ++
  document.sections.flatMap (sectionLines document) ++ [[.tag "/body".toList, .tag "/html".toList]]

def pageTokens (document : ExportedDocument) : List Token := joined [.tag "!doctype html".toList] (lines document)

/-- What a reader of the page is shown: the titles, the paragraphs and the citations, in order. -/
def shown (document : ExportedDocument) : List (String × String) :=
  [("title", document.title), ("em", disclaimer), ("h1", document.title)] ++
  document.sections.flatMap fun s =>
    ("h2", s.title) :: s.paragraphs.flatMap fun paragraph =>
      ("p", paragraph.text) :: (document.cited paragraph).map fun citation => ("small", formatFootnote citation)

section Read

variable {document : ExportedDocument}

lemma line_citationLine (citation : DraftCitation) : Line (citationLine citation) :=
  ((line_element (by decide) _).cons (by decide)).snoc (by decide)

/-- The page is made of lines. -/
lemma line_lines (document : ExportedDocument) : ∀ line ∈ lines document, Line line := by
  intro line hline
  rcases List.mem_append.mp hline with hline | hline
  · rcases List.mem_append.mp hline with hline | hline
    · simp only [List.mem_cons, List.not_mem_nil, or_false] at hline
      rcases hline with rfl | rfl | rfl | rfl
      · exact ((line_tag (by decide)).cons (by decide)).cons (by decide)
      · have htitle : Line (tagged "title" document.title) := line_element (by decide) _
        have hhead : Line (tagged "title" document.title ++ [.tag "/head".toList]) := htitle.snoc (by decide)
        have hbody : Line (tagged "title" document.title ++ [.tag "/head".toList] ++ [.tag "body".toList]) :=
          hhead.snoc (by decide)
        rwa [List.append_assoc] at hbody
      · exact ((line_element (by decide) _).cons (by decide)).snoc (by decide)
      · exact line_element (by decide) _
    · obtain ⟨s, -, hline⟩ := List.mem_flatMap.mp hline
      rcases List.mem_cons.mp hline with rfl | hline
      · exact line_element (by decide) _
      · obtain ⟨paragraph, -, hline⟩ := List.mem_flatMap.mp hline
        rcases List.mem_cons.mp hline with rfl | hline
        · exact line_element (by decide) _
        · obtain ⟨citation, -, rfl⟩ := List.mem_map.mp hline
          exact line_citationLine citation
  · rw [List.mem_singleton.mp hline]
    exact (line_tag (by decide)).cons (by decide)

lemma toList_escape (text : String) : (escape text).toList = Html.escape text.toList := String.toList_ofList

/-- A text between what opens and what closes its element. -/
lemma toList_between (opening text closing : String) :
    (opening ++ escape text ++ closing).toList = opening.toList ++ (Html.escape text.toList ++ closing.toList) := by
  rw [String.toList_append, String.toList_append, toList_escape, List.append_assoc]

lemma toList_citation (citation : DraftCitation) :
    ("<p class=\"citation\"><small>" ++ escape (formatFootnote citation) ++ "</small></p>").toList =
      render (citationLine citation) := by
  rw [toList_between]
  rfl

lemma map_sectionParts (document : ExportedDocument) (s : Section) :
    (sectionParts (citationsByParagraph formatFootnote document.citations) s).map String.toList =
      (sectionLines document s).map render := by
  have hparagraph (paragraph : Paragraph) :
      (("<p>" ++ escape paragraph.text ++ "</p>") ::
        (((citationsByParagraph formatFootnote document.citations).get paragraph.id).getD []).map fun formatted =>
          "<p class=\"citation\"><small>" ++ escape formatted ++ "</small></p>").map String.toList =
      (tagged "p" paragraph.text :: (document.cited paragraph).map citationLine).map render := by
    rw [get_citationsByParagraph, List.map_cons, List.map_cons, List.map_map, List.map_map, List.map_map,
      toList_between]
    exact congrArg₂ List.cons rfl (List.map_congr_left fun citation _ => toList_citation citation)
  rw [sectionParts, sectionLines, List.map_cons, List.map_cons, List.map_flatMap, List.map_flatMap, toList_between]
  exact congrArg₂ List.cons rfl (List.flatMap_congr fun paragraph _ => hparagraph paragraph)

/-- The parts are the lines, written. -/
lemma map_parts (document : ExportedDocument) :
    (parts document).map String.toList = "<!doctype html>".toList :: (lines document).map render := by
  unfold parts lines
  rw [List.map_append, List.map_append, List.map_append, List.map_append, List.map_flatMap, List.map_flatMap,
    List.flatMap_congr fun s _ => map_sectionParts document s]
  simp only [List.map_cons, List.map_nil, toList_between]
  rfl

lemma intercalate_cons_eq {α : Type*} (sep first : List α) (parts : List (List α)) :
    List.intercalate sep (first :: parts) = first ++ parts.flatMap (sep ++ ·) := by
  induction parts generalizing first with
  | nil => simp
  | cons part parts ih => rw [List.intercalate_cons_cons, ih, List.flatMap_cons, List.append_assoc, List.append_assoc]

/-- **The page** is what its tags and texts are, written. -/
theorem toList_page (document : ExportedDocument) :
    ("\n".intercalate (parts document)).toList = render (pageTokens document) := by
  rw [String.toList_intercalate, map_parts, intercalate_cons_eq, List.flatMap_map, pageTokens, render_joined]
  rfl

/-! #### What is shown -/

/-- A block as a reader finds it. -/
def block (b : String × String) : List Char × List Char := (b.1.toList, b.2.toList)

/-- The line break before a line. -/
def below (line : List Token) : List Token := .text ['\n'] :: line

lemma shows_tagged (name : String) (h : name.toList.head? ≠ some '/') (text : String) {before : List Token}
    (hbefore : ∀ t ∈ before, t.opens) : Shows (before ++ tagged name text) [block (name, text)] :=
  shows_element h text.toList hbefore

lemma shows_citation (citation : DraftCitation) :
    Shows (below (citationLine citation)) [block ("small", formatFootnote citation)] := by
  have hopens : ∀ t ∈ ([.text ['\n'], .tag "p class=\"citation\"".toList] : List Token), t.opens := by decide
  exact (shows_tagged "small" (by decide) _ hopens).append (shows_closing _)

/-- A line with one element. -/
lemma shows_line (name : String) (h : name.toList.head? ≠ some '/') (text : String) :
    Shows (below (tagged name text)) [block (name, text)] := by
  have hopens : ∀ t ∈ ([.text ['\n']] : List Token), t.opens := by decide
  exact shows_tagged name h text hopens

lemma shows_section (document : ExportedDocument) (s : Section) :
    Shows ((sectionLines document s).flatMap below)
      ((("h2", s.title) :: s.paragraphs.flatMap fun paragraph =>
        ("p", paragraph.text) :: (document.cited paragraph).map fun citation =>
          ("small", formatFootnote citation)).map block) := by
  have hparagraph (paragraph : Paragraph) :
      Shows ((tagged "p" paragraph.text :: (document.cited paragraph).map citationLine).flatMap below)
        ((("p", paragraph.text) :: (document.cited paragraph).map fun citation =>
          ("small", formatFootnote citation)).map block) := by
    rw [List.flatMap_cons, List.flatMap_map, List.map_cons, List.map_map, List.map_eq_flatMap]
    exact (shows_line "p" (by decide) paragraph.text).append (shows_flatMap fun citation _ => shows_citation citation)
  rw [sectionLines, List.flatMap_cons, List.flatMap_assoc, List.map_cons, List.map_flatMap]
  exact (shows_line "h2" (by decide) s.title).append (shows_flatMap fun paragraph _ => hparagraph paragraph)

lemma shows_page (document : ExportedDocument) : Shows (pageTokens document) ((shown document).map block) := by
  have hsections : Shows ((document.sections.flatMap (sectionLines document)).flatMap below)
      ((document.sections.flatMap fun s =>
        ("h2", s.title) :: s.paragraphs.flatMap fun paragraph =>
          ("p", paragraph.text) :: (document.cited paragraph).map fun citation =>
            ("small", formatFootnote citation)).map block) := by
    rw [List.flatMap_assoc, List.map_flatMap]
    exact shows_flatMap fun s _ => shows_section document s
  -- What is opened before the title, and before the disclaimer.
  have hopened : ∀ t ∈ ([.tag "!doctype html".toList, .text ['\n'], .tag "html".toList, .tag "head".toList,
      .tag "meta charset=\"utf-8\"".toList, .text ['\n']] : List Token), t.opens := by decide
  have htitle := shows_tagged "title" (by decide) document.title hopened
  have hopened' : ∀ t ∈ ([.tag "body".toList, .text ['\n'], .tag "p".toList] : List Token), t.opens := by decide
  have hdisclaimer := shows_tagged "em" (by decide) disclaimer hopened'
  have hpage := (htitle.append (shows_closing "head".toList)).append <| (hdisclaimer.append
    (shows_closing "p".toList)).append <| (shows_line "h1" (by decide) document.title).append <|
      hsections.append <| (shows_text ['\n']).append <| (shows_closing "body".toList).append
        (shows_closing "html".toList)
  have hbelow : below = fun line : List Token => .text ['\n'] :: line := rfl
  rw [hbelow] at hpage
  simpa [pageTokens, joined, lines, shown, List.append_assoc] using hpage

end Read

/-- **The exported page is read as the draft it was made of**: whatever characters its title, the titles of its
sections, their paragraphs and what they cite are written with, a reader that goes by tags and references finds
these texts, each in its element, in their order, and no others. -/
theorem html_export_read (document : ExportedDocument) :
    ∃ text, String.fromUTF8? ⟨(exportDocument document).content.toArray⟩ = some text ∧
      blocks (tokens text.toList) = (shown document).map fun b => (b.1.toList, b.2.toList) := by
  refine ⟨"\n".intercalate (parts document), ?_, ?_⟩
  · simp [exportDocument, String.fromUTF8?, ("\n".intercalate (parts document)).isValidUTF8, String.fromUTF8]
  · have hdoctype : Line [.tag "!doctype html".toList] := line_tag (by decide)
    have hline := line_joined hdoctype (line_lines document)
    have hshows := shows_page document []
    rw [toList_page, pageTokens, blocks_tokens_render hline.toWellFormed, ← pageTokens]
    rw [List.append_nil] at hshows
    exact hshows.trans (List.append_nil _)

end HtmlExporter

/-! ### PDF -/

namespace PdfExporter

open PdfWriter Pdf

def disclaimer : String := "Document genere par TMIS - brouillon non valide, a relire et valider par un avocat."

def lines (document : ExportedDocument) : List String :=
  let byParagraph := citationsByParagraph formatPlainText document.citations
  [disclaimer, "", document.title, ""] ++ document.sections.flatMap fun s =>
    s.title :: (s.paragraphs.flatMap fun paragraph =>
      paragraph.text :: ((byParagraph.get paragraph.id).getD []).map fun c => "  [" ++ c ++ "]") ++ [""]

def exportDocument (document : ExportedDocument) : Except PyException ExportResult := do
  let content ← buildMinimalPdf (lines document) 45
  return { filename := toString document.id ++ ".pdf", content, mediaType := "application/pdf" }

/-- What a reader of the pages is shown: the titles, the paragraphs and the citations, in order. -/
def shown (document : ExportedDocument) : List String :=
  [disclaimer, "", document.title, ""] ++ document.sections.flatMap fun s =>
    s.title :: (s.paragraphs.flatMap fun paragraph =>
      paragraph.text :: (document.cited paragraph).map fun citation => "  [" ++ formatPlainText citation ++ "]") ++ [""]

lemma lines_eq_shown (document : ExportedDocument) : lines document = shown document := by
  unfold lines shown
  simp only [get_citationsByParagraph, List.map_map]
  rfl

/-- **The exported file is read as the draft it was made of**, in one byte for each character: no more than
forty-five lines a page, each paragraph under the title of its section, and its citations under it. -/
theorem pdf_export_read (document : ExportedDocument) :
    ∃ result, exportDocument document = .ok result ∧ (result.content.length < 10 ^ 10 →
      ∃ file pages, readFile result.content = some file ∧ file.pageTexts = some pages ∧
        pages.flatten = (shown document).map (fun line => line.toList.map replaced) ∧
        ∀ page ∈ pages, page.length ≤ 45) := by
  have hperPage : (1 : ℤ) ≤ 45 := by decide
  obtain ⟨bytes, hbytes, hread⟩ := pages_read (lines document) hperPage
  refine ⟨⟨toString document.id ++ ".pdf", bytes, "application/pdf"⟩, ?_, fun hsize => ?_⟩
  · rw [exportDocument, hbytes]
    rfl
  obtain ⟨file, pages, hfile, htexts, hflatten, hshort⟩ := hread hsize
  rw [lines_eq_shown] at hflatten
  exact ⟨file, pages, hfile, htexts, hflatten, fun page hpage => by exact_mod_cast hshort page hpage⟩

end PdfExporter

end Tmis.LegalDrafting
