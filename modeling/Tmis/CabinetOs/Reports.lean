import Tmis.LegalDrafting.PdfExport
import Tmis.Lib.Calls
import Tmis.Lib.CsvText
import Tmis.Lib.JsonFormat
import Tmis.Lib.MarkupText

/-!
# Reports

`cabinet_os.reports.exporters`: a table as CSV, as a page and as pages to print, and `business_platform.exports`,
which takes the CSV of it and has JSON besides.

* `ReportTable` — what is exported;
* `csv_report_read`, `html_report_read`, `pdf_report_read` — each file is read as the table it was made of;
* `exportTable_formats` — so are the two formats of `ExportEngine`.
-/

namespace Tmis.CabinetOs.Reports

open Tmis.Lib

structure ReportTable where
  title : String
  headers : List String
  rows : List (List String) := []

inductive ReportFormat where
  | pdf | excel | csv | html
  deriving DecidableEq

structure ReportResult where
  format : ReportFormat
  filename : String
  content : List UInt8
  mediaType : String

/-- `str.encode("utf-8")`. -/
def encode (text : String) : List UInt8 := text.toByteArray.data.toList

/-- `bytes.decode("utf-8")`, unless it raises. -/
def decode (bytes : List UInt8) : Option String := String.fromUTF8? ⟨bytes.toArray⟩

lemma decode_encode (text : String) : decode (encode text) = some text := by
  simp [decode, encode, String.fromUTF8?, text.isValidUTF8, String.fromUTF8]

/-! ### CSV -/

namespace CsvReportExporter

def exportTable (table : ReportTable) : ReportResult where
  format := .csv
  filename := table.title ++ ".csv"
  content := encode (Csv.write (table.headers :: table.rows))
  mediaType := "text/csv"

/-- **The CSV of a table is read as the table**, whatever characters its cells are written with. -/
theorem csv_report_read (table : ReportTable) :
    (decode (exportTable table).content).map Csv.read = some (table.headers :: table.rows) := by
  rw [exportTable, decode_encode, Option.map_some, Csv.read_write]

end CsvReportExporter

/-! ### HTML -/

namespace HtmlReportExporter

open Html

/-- `html.escape`. -/
def escape (s : String) : String := String.ofList (Html.escape s.toList)

def headerCells (table : ReportTable) : String :=
  String.join (table.headers.map fun h => "<th>" ++ escape h ++ "</th>")

def bodyRows (table : ReportTable) : String :=
  String.join (table.rows.map fun row =>
    "<tr>" ++ String.join (row.map fun cell => "<td>" ++ escape cell ++ "</td>") ++ "</tr>")

def page (table : ReportTable) : String :=
  "<!doctype html><html><head><meta charset='utf-8'>" ++
  "<title>" ++ escape table.title ++ "</title></head><body>" ++
  "<h1>" ++ escape table.title ++ "</h1>" ++
  "<table border='1'><thead><tr>" ++ headerCells table ++ "</tr></thead>" ++
  "<tbody>" ++ bodyRows table ++ "</tbody></table></body></html>"

def exportTable (table : ReportTable) : ReportResult where
  format := .html
  filename := table.title ++ ".html"
  content := encode (page table)
  mediaType := "text/html"

/-! #### The page as tags and texts -/

def heading : List Token :=
  [.tag "!doctype html".toList, .tag "html".toList, .tag "head".toList, .tag "meta charset='utf-8'".toList]

def footing : List Token :=
  [.tag "/tbody".toList, .tag "/table".toList, .tag "/body".toList, .tag "/html".toList]

/-- What stands before the table. -/
def introduction (title : List Char) : List Token :=
  heading ++ element "title".toList title ++ [.tag "/head".toList] ++ ([.tag "body".toList] ++
    element "h1".toList title)

def pageTokens (table : ReportTable) : List Token :=
  introduction table.title.toList ++ [.tag "table border='1'".toList, .tag "thead".toList] ++
    rowTokens "th".toList (table.headers.map String.toList) ++ [.tag "/thead".toList, .tag "tbody".toList] ++
    (table.rows.map (·.map String.toList)).flatMap (rowTokens "td".toList) ++ footing

section Read

variable {table : ReportTable}

lemma toList_join_map {α : Type*} (f : α → String) (as : List α) :
    (String.join (as.map f)).toList = as.flatMap fun a => (f a).toList := by
  induction as with
  | nil => rfl
  | cons a as ih => rw [List.map_cons, String.join_cons, String.toList_append, ih, List.flatMap_cons]

lemma toList_cell (opening closing text : String) :
    (opening ++ escape text ++ closing).toList = opening.toList ++ (Html.escape text.toList ++ closing.toList) := by
  rw [String.toList_append, String.toList_append, escape, String.toList_ofList, List.append_assoc]

lemma render_flatMap {α : Type*} (f : α → List Token) (as : List α) :
    render (as.flatMap f) = as.flatMap fun a => render (f a) := List.flatMap_assoc

lemma toList_headerCells (table : ReportTable) :
    (headerCells table).toList = render ((table.headers.map String.toList).flatMap (element "th".toList)) := by
  rw [headerCells, toList_join_map, List.flatMap_map, render_flatMap]
  refine List.flatMap_congr fun h _ => ?_
  rw [toList_cell]
  rfl

lemma toList_bodyRows (table : ReportTable) :
    (bodyRows table).toList =
      render ((table.rows.map (·.map String.toList)).flatMap (rowTokens "td".toList)) := by
  rw [bodyRows, toList_join_map, List.flatMap_map, render_flatMap]
  refine List.flatMap_congr fun row _ => ?_
  have hcells : (String.join (row.map fun cell => "<td>" ++ escape cell ++ "</td>")).toList =
      render ((row.map String.toList).flatMap (element "td".toList)) := by
    rw [toList_join_map, List.flatMap_map, render_flatMap]
    refine List.flatMap_congr fun cell _ => ?_
    rw [toList_cell]
    rfl
  rw [String.toList_append, String.toList_append, hcells, rowTokens, render_cons, render_append, List.append_assoc]
  rfl

lemma render_introduction (title : List Char) :
    render (introduction title) =
      "<!doctype html><html><head><meta charset='utf-8'>".toList ++ ("<title>".toList ++ (Html.escape title ++
        ("</title></head><body>".toList ++ ("<h1>".toList ++ (Html.escape title ++ "</h1>".toList))))) := by
  have htitle : render (element "title".toList title) =
      "<title>".toList ++ (Html.escape title ++ "</title>".toList) := rfl
  have hbody : "</title></head><body>".toList =
      "</title>".toList ++ (render [.tag "/head".toList] ++ render [.tag "body".toList]) := rfl
  have hh1 : render (element "h1".toList title) = "<h1>".toList ++ (Html.escape title ++ "</h1>".toList) := rfl
  have hheading : "<!doctype html><html><head><meta charset='utf-8'>".toList = render heading := rfl
  rw [introduction, render_append, render_append, render_append, render_append, htitle, hh1, hbody, hheading]
  simp only [List.append_assoc]

/-- **The page** is what its tags and texts are, written. -/
theorem toList_page (table : ReportTable) : (page table).toList = render (pageTokens table) := by
  have hhead : "<table border='1'><thead><tr>".toList =
      render [.tag "table border='1'".toList, .tag "thead".toList] ++ "<tr>".toList := rfl
  have hrow : render (rowTokens "th".toList (table.headers.map String.toList)) =
      "<tr>".toList ++ (render ((table.headers.map String.toList).flatMap (element "th".toList)) ++
        "</tr>".toList) := by
    rw [rowTokens, render_cons, render_append]
    rfl
  have hbody : "</tr></thead>".toList ++ "<tbody>".toList =
      "</tr>".toList ++ render [.tag "/thead".toList, .tag "tbody".toList] := rfl
  have hfooting : "</tbody></table></body></html>".toList = render footing := rfl
  unfold page pageTokens
  simp only [String.toList_append, toList_headerCells, toList_bodyRows, escape, String.toList_ofList, render_append]
  rw [render_introduction, hrow, hhead, hfooting]
  simp only [List.append_assoc]
  rw [← List.append_assoc "</tr></thead>".toList, hbody]
  simp only [List.append_assoc]

/-! #### What a reader finds -/

lemma line_introduction (title : List Char) : Line (introduction title) := by
  have hheading : Line heading := (((line_tag (by decide)).cons (by decide)).cons (by decide)).cons (by decide)
  have hhead : Line (heading ++ element "title".toList title ++ [.tag "/head".toList]) :=
    (hheading.concat (line_element (by decide) title)).snoc (by decide)
  have hbody : Line ([.tag "body".toList] ++ element "h1".toList title) :=
    (line_element (by decide) title).cons (by decide)
  exact hhead.concat hbody

lemma line_page (table : ReportTable) : Line (pageTokens table) := by
  have htable : Line [.tag "table border='1'".toList, .tag "thead".toList] := (line_tag (by decide)).cons (by decide)
  have htbody : Line [.tag "/thead".toList, .tag "tbody".toList] := (line_tag (by decide)).cons (by decide)
  have hfooting : Line footing := (((line_tag (by decide)).cons (by decide)).cons (by decide)).cons (by decide)
  have hheaders : Line (rowTokens "th".toList (table.headers.map String.toList)) := line_rowTokens (by decide) _
  have hrow (row : List (List Char)) : Line (rowTokens "td".toList row) := line_rowTokens (by decide) row
  exact (((((line_introduction _).concat htable).concat hheaders).concat htbody).flatMap fun row _ => hrow row).concat
    hfooting

/-- The titles of the page. -/
lemma shows_introduction (title : List Char) :
    Shows (introduction title) [("title".toList, title), ("h1".toList, title)] := by
  have hheading : ∀ t ∈ heading, t.opens := by decide
  have hbody : ∀ t ∈ ([.tag "body".toList] : List Token), t.opens := by decide
  exact ((shows_element (by decide) title hheading).append (shows_closing "head".toList)).append
    (shows_element (by decide) title hbody)

/-- The rows of the page: nothing before the table and after it is one. -/
lemma tableRows_page (table : ReportTable) :
    tableRows (visible (pageTokens table)) = (table.headers :: table.rows).map (·.map String.toList) := by
  have hbefore : .tag "tr".toList ∉
      visible (introduction table.title.toList ++ [.tag "table border='1'".toList, .tag "thead".toList]) := by
    intro hmem
    simpa [introduction, heading, element] using (List.mem_filter.mp hmem).1
  have hbetween : .tag "tr".toList ∉ visible [.tag "/thead".toList, .tag "tbody".toList] := by decide
  have hafter : tableRows (visible footing) = [] := rfl
  unfold pageTokens
  rw [visible_append, visible_append, visible_append, visible_append, List.append_assoc, List.append_assoc,
    List.append_assoc, tableRows_append hbefore, tableRows_row (by decide) (by decide), tableRows_append hbetween,
    tableRows_rows (by decide) (by decide), hafter, List.append_nil]
  rfl

end Read

/-- **The page of a table is read as the table**: whatever characters its cells are written with, a reader that goes
by tags and references finds the title twice, and then the rows, the headers first, each with its cells. -/
theorem html_report_read (table : ReportTable) :
    ∃ text, decode (exportTable table).content = some text ∧
      tableRows (tokens text.toList) = (table.headers :: table.rows).map (·.map String.toList) ∧
      (blocks (tokens text.toList)).take 2 =
        [("title".toList, table.title.toList), ("h1".toList, table.title.toList)] := by
  have hwell := (line_page table).toWellFormed
  have hdecode : decode (exportTable table).content = some (page table) := by
    rw [exportTable, decode_encode]
  refine ⟨page table, hdecode, ?_, ?_⟩
  · rw [toList_page, tokens_render hwell, tableRows_page]
  · have hshows := shows_introduction table.title.toList
    rw [toList_page, blocks_tokens_render hwell]
    unfold pageTokens blocks
    rw [List.append_assoc, List.append_assoc, List.append_assoc, List.append_assoc, hshows]
    rfl

end HtmlReportExporter

/-! ### PDF -/

namespace PdfReportExporter

open Tmis.LegalDrafting.PdfWriter Pdf

def lines (table : ReportTable) : List String :=
  [table.title, "", " | ".intercalate table.headers] ++ table.rows.map fun row => " | ".intercalate row

def exportTable (table : ReportTable) : Except PyException ReportResult := do
  let content ← buildMinimalPdf (lines table) 45
  return { format := .pdf, filename := table.title ++ ".pdf", content, mediaType := "application/pdf" }

/-- **The pages of a table are read as the table**, in one byte for each character: the title, the headers, and a line
for each row, no more than forty-five lines a page. -/
theorem pdf_report_read (table : ReportTable) :
    ∃ result, exportTable table = .ok result ∧ (result.content.length < 10 ^ 10 →
      ∃ file pages, readFile result.content = some file ∧ file.pageTexts = some pages ∧
        pages.flatten = (lines table).map (fun line => line.toList.map replaced) ∧
        ∀ page ∈ pages, page.length ≤ 45) := by
  have hperPage : (1 : ℤ) ≤ 45 := by decide
  obtain ⟨bytes, hbytes, hread⟩ := pages_read (lines table) hperPage
  refine ⟨⟨.pdf, table.title ++ ".pdf", bytes, "application/pdf"⟩, ?_, fun hsize => ?_⟩
  · rw [exportTable, hbytes]
    rfl
  obtain ⟨file, pages, hfile, htexts, hflatten, hshort⟩ := hread hsize
  exact ⟨file, pages, hfile, htexts, hflatten, fun page hpage => by exact_mod_cast hshort page hpage⟩

end PdfReportExporter

end Tmis.CabinetOs.Reports

/-! ### CSV and JSON -/

namespace Tmis.BusinessPlatform.Exports

open Tmis.Lib Tmis.CabinetOs.Reports

inductive ExportFormat where
  | csv | json
  deriving DecidableEq

structure ExportResult where
  format : ExportFormat
  filename : String
  content : List UInt8
  mediaType : String

/-- What a `BusinessReport` has for the export. -/
structure BusinessReport where
  id : String
  sections : Dict String String

variable {F : Type}

def texts (cells : List String) : JsonValue F := .array (cells.map .str)

/-- The payload of `export_table`. -/
def payload (table : ReportTable) : JsonValue F :=
  .object [("title", .str table.title), ("headers", texts table.headers), ("rows", .array (table.rows.map texts))]

/-- `ExportEngine.export_table`. -/
def exportTable (F : Type) [JsonFloat F] (table : ReportTable) : ExportFormat → ExportResult
  | .csv =>
      let result := CsvReportExporter.exportTable table
      { format := .csv, filename := result.filename, content := result.content, mediaType := result.mediaType }
  | .json =>
      { format := .json, filename := table.title ++ ".json",
        content := encode ((payload table : JsonValue F).dumpsAs ⟨true, some 2⟩), mediaType := "application/json" }

/-- `ExportEngine.export_report`. -/
def exportReport (F : Type) [JsonFloat F] (report : BusinessReport) (format : ExportFormat) : ExportResult :=
  exportTable F
    { title := "report-" ++ report.id, headers := ["section", "value"],
      rows := report.sections.entries.map fun e => [e.1, e.2] } format

/-! #### Reading -/

def readText : JsonValue F → Option String
  | .str s => some s
  | _ => none

def readTexts : JsonValue F → Option (List String)
  | .array items => items.mapM readText
  | _ => none

/-- The headers and the rows of a payload. -/
def readPayload : JsonValue F → Option (List (List String))
  | .object entries => do
      let headers ← readTexts (← entries.lookup "headers")
      match ← entries.lookup "rows" with
      | .array rows => return headers :: (← rows.mapM readTexts)
      | _ => none
  | _ => none

/-- What is read of a text in a format. -/
def readFormat (F : Type) [JsonFloat F] (text : String) : ExportFormat → Option (List (List String))
  | .csv => some (Csv.read text)
  | .json => (JsonValue.loads text : Option (JsonValue F)).bind readPayload

/-- A reader of the exports: the headers, and the rows. -/
def readExport (F : Type) [JsonFloat F] (result : ExportResult) : Option (List (List String)) :=
  (decode result.content).bind fun text => readFormat F text result.format

/-- Each item is read as what it was written of. -/
lemma mapM_written {α β : Type} {write : α → β} (read : β → Option α) (h : ∀ a, read (write a) = some a)
    (as : List α) : (as.map write).mapM read = some as := by
  have hread : as.mapM (read ∘ write) = some (as.map id) := mapM_eq_some_map fun a _ => h a
  rw [List.mapM_map, hread, List.map_id]

lemma readTexts_texts (cells : List String) : readTexts (texts cells : JsonValue F) = some cells :=
  mapM_written readText (fun _ => rfl) cells

lemma wellFormed_texts (cells : List String) : (texts cells : JsonValue F).WellFormed := by
  refine .array fun x hx => ?_
  obtain ⟨cell, -, rfl⟩ := List.mem_map.mp hx
  exact .str cell

lemma wellFormed_payload (table : ReportTable) : (payload table : JsonValue F).WellFormed := by
  have hkeys : ["title", "headers", "rows"].Nodup := by decide
  refine .object hkeys fun e he => ?_
  simp only [List.mem_cons, List.not_mem_nil, or_false] at he
  rcases he with rfl | rfl | rfl
  · exact .str _
  · exact wellFormed_texts _
  · refine .array fun x hx => ?_
    obtain ⟨row, -, rfl⟩ := List.mem_map.mp hx
    exact wellFormed_texts row

lemma readPayload_payload (table : ReportTable) :
    readPayload (payload table : JsonValue F) = some (table.headers :: table.rows) := by
  have hrows : (table.rows.map (texts (F := F))).mapM readTexts = some table.rows :=
    mapM_written readTexts readTexts_texts table.rows
  simp [readPayload, payload, List.lookup_cons, readTexts_texts, hrows]

/-- **Both formats hold the table**, whatever characters it is written with, and so a report's sections. -/
theorem exportTable_formats (F : Type) [JsonFloat F] (format : ExportFormat) :
    (∀ table, readExport F (exportTable F table format) = some (table.headers :: table.rows)) ∧
    ∀ report, readExport F (exportReport F report format) =
      some (["section", "value"] :: report.sections.entries.map fun e => [e.1, e.2]) := by
  have htable (table : ReportTable) :
      readExport F (exportTable F table format) = some (table.headers :: table.rows) := by
    cases format with
    | csv =>
      have hcontent : (exportTable F table .csv).content = encode (Csv.write (table.headers :: table.rows)) := by
        rw [exportTable, CsvReportExporter.exportTable]
      have hformat : (exportTable F table .csv).format = .csv := rfl
      rw [readExport, hcontent, hformat, decode_encode, Option.bind_some, readFormat, Csv.read_write]
    | json =>
      have hcontent : (exportTable F table .json).content =
          encode ((payload table : JsonValue F).dumpsAs ⟨true, some 2⟩) := by rw [exportTable]
      have hformat : (exportTable F table .json).format = .json := rfl
      rw [readExport, hcontent, hformat, decode_encode, Option.bind_some, readFormat,
        JsonValue.loads_dumpsAs (wellFormed_payload table), Option.bind_some, readPayload_payload]
  exact ⟨htable, fun report => htable _⟩

end Tmis.BusinessPlatform.Exports
