import Tmis.Lib.Dict
import Tmis.Lib.PdfFile
import Tmis.Lib.Slices

/-!
# The PDF writer

`legal_drafting.export.pdf_writer`: lines of text are written as a PDF file, object by object, with the offset of each
in the table at the end.

* `escape`, `streamBody` — a line, and the lines of a page;
* `bodies` — the objects under their numbers, which are computed for each kind apart;
* `writeObjects`, `buildMinimalPdf` — the file.
-/

namespace Tmis.LegalDrafting.PdfWriter

open Tmis.Lib Tmis.Lib.Pdf

abbrev Bytes := List UInt8

/-- A text of ASCII characters as bytes. -/
def bytes (text : String) : Bytes := latin1 text.toList

/-- `str(n).encode()`. -/
def number (n : ℕ) : Bytes := latin1 (Nat.toDigits 10 n)

/-- `f"{n:010d}".encode()`. -/
def number010 (n : ℕ) : Bytes :=
  latin1 (List.replicate (10 - (Nat.toDigits 10 n).length) '0' ++ Nat.toDigits 10 n)

def pageWidth : ℕ := 612

def pageHeight : ℕ := 792

def fontSize : ℕ := 11

def lineHeight : ℕ := 14

def marginLeft : ℕ := 50

def topY : ℕ := 750

/-! ### Lines -/

/-- `text.replace(old, new)` of one character. -/
def replaceChar (old : Char) (new : List Char) (text : List Char) : List Char :=
  text.flatMap fun c => if c = old then new else [c]

/-- `_escape`. -/
def escape (text : String) : Bytes :=
  latin1 (replaceChar ')' ['\\', ')'] (replaceChar '(' ['\\', '('] (replaceChar '\\' ['\\', '\\'] text.toList)))

/-- `pages_lines`.  A step of zero raises, and one below zero leaves no page. -/
def pagesLines (lines : List String) (linesPerPage : ℤ) : Except PyException (List (List String)) :=
  match linesPerPage with
  | .ofNat 0 => .error (valueError "range() arg 3 must not be zero")
  | .ofNat (n + 1) => .ok ((rangeSteps lines.length (n + 1)).map fun i => (lines.drop i).take (n + 1))
  | .negSucc _ => .ok []

/-- The parts of a content stream that show the lines of a page; the first one stands where the stream begins. -/
def lineParts : List (String × ℕ) → List Bytes
  | [] => []
  | (line, index) :: lines =>
    (if index > 0 then [bytes "0 -" ++ number lineHeight ++ bytes " Td"] else []) ++
      (bytes "(" ++ escape line ++ bytes ") Tj") :: lineParts lines

def streamBody (pageLines : List String) : Bytes :=
  List.intercalate (bytes "\n") ([bytes "BT", bytes "/F1 " ++ number fontSize ++ bytes " Tf",
    number marginLeft ++ bytes " " ++ number topY ++ bytes " Td"] ++ lineParts pageLines.zipIdx ++ [bytes "ET"])

/-! ### Objects -/

def pageObjNum (i : ℕ) : ℕ := 3 + 2 * i

def contentObjNum (i : ℕ) : ℕ := 4 + 2 * i

def fontObjNum (numPages : ℕ) : ℕ := 3 + 2 * numPages

def catalogBody : Bytes := bytes "<< /Type /Catalog /Pages 2 0 R >>"

def pageObjNums (numPages : ℕ) : List ℕ := (List.range numPages).map pageObjNum

def kids (numPages : ℕ) : Bytes :=
  List.intercalate (bytes " ") ((pageObjNums numPages).map fun n => number n ++ bytes " 0 R")

def pagesBody (numPages : ℕ) : Bytes :=
  bytes "<< /Type /Pages /Kids [" ++ kids numPages ++ bytes "] /Count " ++ number numPages ++ bytes " >>"

def pageBody (numPages i : ℕ) : Bytes :=
  bytes "<< /Type /Page /Parent 2 0 R " ++ bytes "/Resources << /Font << /F1 " ++ number (fontObjNum numPages) ++
    bytes " 0 R >> >> " ++ bytes "/MediaBox [0 0 " ++ number pageWidth ++ bytes " " ++ number pageHeight ++
    bytes "] /Contents " ++ number (contentObjNum i) ++ bytes " 0 R >>"

def contentBody (pageLines : List String) : Bytes :=
  bytes "<< /Length " ++ number (streamBody pageLines).length ++ bytes " >>\nstream\n" ++ streamBody pageLines ++
    bytes "\nendstream"

def fontBody : Bytes := bytes "<< /Type /Font /Subtype /Type1 /BaseFont /Helvetica /Encoding /WinAnsiEncoding >>"

/-- The entries of a page and of its content, in the order in which they are set. -/
def pageEntries (numPages : ℕ) (page : List String × ℕ) : List (ℕ × Bytes) :=
  [(pageObjNum page.2, pageBody numPages page.2), (contentObjNum page.2, contentBody page.1)]

def bodies (pages : List (List String)) : Dict ℕ Bytes :=
  Dict.ofEntries ([(1, catalogBody), (2, pagesBody pages.length)] ++
    pages.zipIdx.flatMap (pageEntries pages.length) ++ [(fontObjNum pages.length, fontBody)])

/-! ### The file -/

/-- The buffer, and the offsets of the objects in it. -/
structure Buffer where
  written : Bytes
  offsets : Dict ℕ ℕ := ∅

def keyError (n : ℕ) : PyException := ⟨"KeyError", toString n⟩

/-- `d[k]`. -/
def item {V : Type*} (d : Dict ℕ V) (k : ℕ) : Except PyException V :=
  match d.get k with
  | some v => .ok v
  | none => .error (keyError k)

def objectBytes (objNum : ℕ) (body : Bytes) : Bytes := number objNum ++ bytes " 0 obj\n" ++ body ++ bytes "\nendobj\n"

/-- The loop over the objects. -/
def writeObjects (bodies : Dict ℕ Bytes) : List ℕ → Buffer → Except PyException Buffer
  | [], buffer => .ok buffer
  | objNum :: objNums, buffer => do
    let offsets := buffer.offsets.set objNum buffer.written.length
    let body ← item bodies objNum
    writeObjects bodies objNums { written := buffer.written ++ objectBytes objNum body, offsets }

def xrefEntry (offset : ℕ) : Bytes := number010 offset ++ bytes " 00000 n \n"

/-- The loop over the entries of the table. -/
def writeEntries (offsets : Dict ℕ ℕ) : List ℕ → Bytes → Except PyException Bytes
  | [], written => .ok written
  | objNum :: objNums, written => do
    let offset ← item offsets objNum
    writeEntries offsets objNums (written ++ xrefEntry offset)

def trailer (maxObjNum xrefOffset : ℕ) : Bytes :=
  bytes "trailer\n<< /Size " ++ number (maxObjNum + 1) ++ bytes " /Root 1 0 R >>\n" ++
    bytes "startxref\n" ++ number xrefOffset ++ bytes "\n%%EOF"

/-- `build_minimal_pdf`. -/
def buildMinimalPdf (lines : List String) (linesPerPage : ℤ) : Except PyException Bytes := do
  let pagesLines ← pagesLines lines linesPerPage
  let pagesLines := if pagesLines = [] then [[]] else pagesLines
  let maxObjNum := fontObjNum pagesLines.length
  let objNums := List.range' 1 maxObjNum
  let buffer ← writeObjects (bodies pagesLines) objNums { written := bytes "%PDF-1.4\n" }
  let xrefOffset := buffer.written.length
  let written ← writeEntries buffer.offsets objNums
    (buffer.written ++ (bytes "xref\n0 " ++ number (maxObjNum + 1) ++ bytes "\n") ++ bytes "0000000000 65535 f \n")
  return written ++ trailer maxObjNum xrefOffset

end Tmis.LegalDrafting.PdfWriter
