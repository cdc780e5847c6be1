import Mathlib.Algebra.Order.Ring.Nat
import Mathlib.Data.List.Forall2
import Mathlib.Data.List.GetD
import Mathlib.Data.List.Intervals
import Mathlib.Data.List.Range
import Tmis.LegalDrafting.PdfWriter
import Tmis.Lib.Calls

/-!
# The PDF writer and a reader

What the writer writes is read: its table leads to the objects, its references to objects that are there, and its
pages show the lines, in their order.

* `ofLatin1_escape` — what is left of a line that is escaped;
* `catalogPieces`, `treePieces`, `pagePieces`, `streamPieces` — what is written, as words;
* `isObject_page`, `isObject_content` — the objects;
* `buildMinimalPdf_read` — the file;
* `exported_pdf_read` — for every list of lines.
-/

namespace Tmis.LegalDrafting.PdfWriter

open Tmis.Lib Tmis.Lib.Pdf

/-! ### Bytes and characters -/

section Bytes

lemma ofLatin1_bytes (text : String) (h : ∀ c ∈ text.toList, c.toNat < 256) : ofLatin1 (bytes text) = text.toList := by
  rw [bytes, ofLatin1_latin1, map_replaced_eq_self h]

lemma ofLatin1_number (n : ℕ) : ofLatin1 (number n) = Nat.toDigits 10 n := by
  rw [number, ofLatin1_latin1, map_replaced_toDigits]

lemma ofLatin1_number010 (n : ℕ) : ofLatin1 (number010 n) = tenDigits n := by
  rw [number010, ofLatin1_latin1, List.map_append, map_replaced_toDigits, List.map_replicate]
  rfl

/-- The replacements one after the other, as one. -/
lemma replaceChar_replaceChar (cs : List Char) :
    replaceChar ')' ['\\', ')'] (replaceChar '(' ['\\', '('] (replaceChar '\\' ['\\', '\\'] cs)) =
      cs.flatMap escapeChar := by
  unfold replaceChar
  rw [List.flatMap_assoc, List.flatMap_assoc]
  refine List.flatMap_congr fun c _ => ?_
  unfold escapeChar
  by_cases hbackslash : c = '\\'
  · rw [hbackslash]
    rfl
  · by_cases hopen : c = '('
    · rw [hopen]
      rfl
    · by_cases hclose : c = ')'
      · rw [hclose]
        rfl
      · simp [hbackslash, hopen, hclose]

lemma map_replaced_escapeChar (c : Char) : (escapeChar c).map replaced = escapeChar (replaced c) := by
  by_cases hspecial : c = '\\' ∨ c = '(' ∨ c = ')'
  · obtain rfl | rfl | rfl := hspecial <;> rfl
  · have hreplaced : ¬ (replaced c = '\\' ∨ replaced c = '(' ∨ replaced c = ')') := by
      unfold replaced
      split_ifs
      · exact hspecial
      · decide
    rw [escapeChar, escapeChar, if_neg hspecial, if_neg hreplaced]
    rfl

/-- What is left of a line that is escaped is what is left of the line, escaped. -/
lemma ofLatin1_escape (line : String) :
    ofLatin1 (escape line) = (line.toList.map replaced).flatMap escapeChar := by
  rw [escape, ofLatin1_latin1, replaceChar_replaceChar, List.map_flatMap, List.flatMap_map]
  exact List.flatMap_congr fun c _ => map_replaced_escapeChar c

end Bytes

/-! ### What is written, as words -/

section Words

/-- A word and a blank. -/
def word (t : Token) : Token × List Char := (t, [' '])

def referencePieces (id : ℤ) : List (Token × List Char) := [word (.integer id), word (.integer 0), word (.keyword ['R'])]

def catalogPieces : List (Token × List Char) :=
  [word .dictOpen, word (.name "Type".toList), word (.name "Catalog".toList), word (.name "Pages".toList)] ++
    referencePieces 2 ++ [(.dictClose, ['\n'])]

def fontPieces : List (Token × List Char) :=
  [word .dictOpen, word (.name "Type".toList), word (.name "Font".toList), word (.name "Subtype".toList),
    word (.name "Type1".toList), word (.name "BaseFont".toList), word (.name "Helvetica".toList),
    word (.name "Encoding".toList), word (.name "WinAnsiEncoding".toList), (.dictClose, ['\n'])]

def pagePieces (numPages i : ℕ) : List (Token × List Char) :=
  [word .dictOpen, word (.name "Type".toList), word (.name "Page".toList), word (.name "Parent".toList)] ++
    referencePieces 2 ++ [word (.name "Resources".toList), word .dictOpen, word (.name "Font".toList), word .dictOpen,
      word (.name "F1".toList)] ++ referencePieces (fontObjNum numPages) ++ [word .dictClose, word .dictClose,
      word (.name "MediaBox".toList), (.arrayOpen, []), word (.integer 0), word (.integer 0), word (.integer pageWidth),
      (.integer pageHeight, []), word .arrayClose, word (.name "Contents".toList)] ++
    referencePieces (contentObjNum i) ++ [(.dictClose, ['\n'])]

lemma catalogBody_printed : ofLatin1 catalogBody ++ ['\n'] = printed catalogPieces := by
  unfold catalogBody
  rw [ofLatin1_bytes _ (by decide)]
  rfl

lemma fontBody_printed : ofLatin1 fontBody ++ ['\n'] = printed fontPieces := by
  unfold fontBody
  rw [ofLatin1_bytes _ (by decide)]
  rfl

lemma integerChars_natCast (n : ℕ) : integerChars n = Nat.toDigits 10 n := rfl

lemma integerChars_zero : integerChars 0 = ['0'] := rfl

lemma integerChars_two : integerChars 2 = ['2'] := rfl

lemma pageBody_printed (numPages i : ℕ) : ofLatin1 (pageBody numPages i) ++ ['\n'] = printed (pagePieces numPages i) := by
  unfold pageBody
  simp (disch := decide) only [ofLatin1_append, ofLatin1_number, ofLatin1_bytes]
  simp [printed, pagePieces, referencePieces, word, Token.chars, integerChars_natCast, integerChars_zero,
    integerChars_two]

/-- The words of the lines of a page: between two lines the place goes down. -/
def linePieces : List (String × ℕ) → List (Token × List Char)
  | [] => []
  | (line, index) :: lines =>
    (if index > 0 then [word (.integer 0), word (.integer (-lineHeight)), (.keyword "Td".toList, ['\n'])] else []) ++
      [word (.text (line.toList.map replaced)), (.keyword "Tj".toList, ['\n'])] ++ linePieces lines

def streamPieces (pageLines : List String) : List (Token × List Char) :=
  [(.keyword "BT".toList, ['\n']), word (.name "F1".toList), word (.integer fontSize), (.keyword "Tf".toList, ['\n']),
    word (.integer marginLeft), word (.integer topY), (.keyword "Td".toList, ['\n'])] ++
    linePieces pageLines.zipIdx ++ [(.keyword "ET".toList, [])]

lemma intercalate_snoc {α : Type*} (sep : List α) (parts : List (List α)) (last : List α) :
    List.intercalate sep (parts ++ [last]) = parts.flatMap (· ++ sep) ++ last := by
  induction parts with
  | nil => simp
  | cons part parts ih =>
    rw [List.cons_append, List.intercalate_cons_of_ne_nil (List.append_ne_nil_of_right_ne_nil _ (List.cons_ne_nil _ _)), ih]
    simp

lemma lineParts_printed (lines : List (String × ℕ)) :
    ofLatin1 ((lineParts lines).flatMap (· ++ bytes "\n")) = printed (linePieces lines) := by
  induction lines with
  | nil => rfl
  | cons entry lines ih =>
    obtain ⟨line, index⟩ := entry
    have hline : ofLatin1 (bytes "(" ++ escape line ++ bytes ") Tj" ++ bytes "\n") =
        printed [word (.text (line.toList.map replaced)), (.keyword "Tj".toList, ['\n'])] := by
      simp (disch := decide) only [ofLatin1_append, ofLatin1_escape, ofLatin1_bytes]
      simp [printed, word, Token.chars]
    have hdown : ofLatin1 (bytes "0 -" ++ number lineHeight ++ bytes " Td" ++ bytes "\n") =
        printed [word (.integer 0), word (.integer (-lineHeight)), (.keyword "Td".toList, ['\n'])] := by
      simp (disch := decide) only [ofLatin1_append, ofLatin1_number, ofLatin1_bytes]
      rfl
    rw [lineParts, List.flatMap_append, List.flatMap_cons, ofLatin1_append, ofLatin1_append, ih, linePieces,
      printed_append, printed_append, hline]
    split_ifs
    · rw [List.flatMap_singleton, hdown, List.append_assoc]
    · rfl

lemma streamBody_printed (pageLines : List String) :
    ofLatin1 (streamBody pageLines) = printed (streamPieces pageLines) := by
  rw [streamBody, intercalate_snoc, ofLatin1_append, List.flatMap_append, ofLatin1_append, lineParts_printed,
    streamPieces, printed_append, printed_append]
  rfl

/-! ### Pages and what they hold -/

def lengthPieces (length : ℕ) : List (Token × List Char) :=
  [word .dictOpen, word (.name "Length".toList), word (.integer length), (.dictClose, ['\n'])]

lemma contentBody_printed (pageLines : List String) :
    ofLatin1 (contentBody pageLines) = printed (lengthPieces (streamBody pageLines).length) ++
      ("stream\n".toList ++ (ofLatin1 (streamBody pageLines) ++ "\nendstream".toList)) := by
  unfold contentBody
  simp (disch := decide) only [ofLatin1_append, ofLatin1_number, ofLatin1_bytes]
  simp [printed, lengthPieces, word, Token.chars, integerChars_natCast]

/-- The references of the tree of pages; the last one stands before the bracket. -/
def kidsPieces : List ℕ → List (Token × List Char)
  | [] => []
  | id :: ids =>
    [word (.integer id), word (.integer 0), (.keyword ['R'], if ids = [] then [] else [' '])] ++ kidsPieces ids

def treePieces (numPages : ℕ) : List (Token × List Char) :=
  [word .dictOpen, word (.name "Type".toList), word (.name "Pages".toList), word (.name "Kids".toList),
    (.arrayOpen, [])] ++ kidsPieces (pageObjNums numPages) ++
    [word .arrayClose, word (.name "Count".toList), word (.integer numPages), (.dictClose, ['\n'])]

lemma kids_printed (ids : List ℕ) :
    ofLatin1 (List.intercalate (bytes " ") (ids.map fun id => number id ++ bytes " 0 R")) = printed (kidsPieces ids) := by
  induction ids with
  | nil => rfl
  | cons id ids ih =>
    have hreference : ofLatin1 (number id ++ bytes " 0 R") =
        printed [word (.integer id), word (.integer 0), (.keyword ['R'], [])] := by
      simp (disch := decide) only [ofLatin1_append, ofLatin1_number, ofLatin1_bytes]
      simp [printed, word, Token.chars, integerChars_natCast, integerChars_zero]
    cases ids with
    | nil => rw [List.map_singleton, List.intercalate_singleton, hreference, kidsPieces, if_pos rfl]; rfl
    | cons id' ids =>
      have hne : (id' :: ids).map (fun id => number id ++ bytes " 0 R") ≠ [] := List.cons_ne_nil _ _
      have hpieces : kidsPieces (id :: id' :: ids) = referencePieces id ++ kidsPieces (id' :: ids) := rfl
      have hblank : printed [word (.integer id), word (.integer 0), (.keyword ['R'], [])] ++ ofLatin1 (bytes " ") =
          printed (referencePieces id) := by
        simp [printed, referencePieces, word, Token.chars]
        rfl
      rw [List.map_cons, List.intercalate_cons_of_ne_nil hne, ofLatin1_append, ofLatin1_append, ih, hreference,
        hpieces, printed_append, hblank]

lemma pagesBody_printed (numPages : ℕ) : ofLatin1 (pagesBody numPages) ++ ['\n'] = printed (treePieces numPages) := by
  unfold pagesBody kids
  simp (disch := decide) only [ofLatin1_append, ofLatin1_number, ofLatin1_bytes, kids_printed]
  simp [printed, treePieces, word, Token.chars, integerChars_natCast]

end Words

/-! ### The objects that are read -/

section Objects

def catalogObject : Object := .dict [("Type".toList, .name "Catalog".toList), ("Pages".toList, .reference 2 0)]

def treeObject (numPages : ℕ) : Object :=
  .dict [("Type".toList, .name "Pages".toList),
    ("Kids".toList, .array ((pageObjNums numPages).map fun n : ℕ => .reference n 0)), ("Count".toList, .integer numPages)]

def pageObject (numPages i : ℕ) : Object :=
  .dict [("Type".toList, .name "Page".toList), ("Parent".toList, .reference 2 0),
    ("Resources".toList, .dict [("Font".toList, .dict [("F1".toList, .reference (fontObjNum numPages) 0)])]),
    ("MediaBox".toList, .array [.integer 0, .integer 0, .integer pageWidth, .integer pageHeight]),
    ("Contents".toList, .reference (contentObjNum i) 0)]

def lengthObject (length : ℕ) : Object := .dict [("Length".toList, .integer length)]

def fontObject : Object :=
  .dict [("Type".toList, .name "Font".toList), ("Subtype".toList, .name "Type1".toList),
    ("BaseFont".toList, .name "Helvetica".toList), ("Encoding".toList, .name "WinAnsiEncoding".toList)]

lemma value_catalog : Value catalogPieces catalogObject := ⟨List.all_eq_true.mp rfl, rfl⟩

lemma value_font : Value fontPieces fontObject := ⟨List.all_eq_true.mp rfl, rfl⟩

lemma value_page (numPages i : ℕ) : Value (pagePieces numPages i) (pageObject numPages i) :=
  ⟨List.all_eq_true.mp rfl, rfl⟩

lemma value_length (length : ℕ) : Value (lengthPieces length) (lengthObject length) := ⟨List.all_eq_true.mp rfl, rfl⟩

lemma map_fst_kidsPieces (ids : List ℕ) :
    (kidsPieces ids).map Prod.fst = referenceTokens (ids.map fun n : ℕ => (n : ℤ)) := by
  induction ids with
  | nil => rfl
  | cons id ids ih =>
    rw [kidsPieces, List.map_append, ih]
    rfl

lemma parseObject_tree (ids : List ℤ) (count : ℤ) (fuel : ℕ) :
    parseObject (ids.length + (fuel + 2) + 4) ([.dictOpen, .name "Type".toList, .name "Pages".toList,
        .name "Kids".toList, .arrayOpen] ++ (referenceTokens ids ++ [.arrayClose, .name "Count".toList, .integer count,
        .dictClose])) =
      some (.dict [("Type".toList, .name "Pages".toList), ("Kids".toList, .array (ids.map (.reference · 0))),
        ("Count".toList, .integer count)], []) := by
  have hitems := parseItems_references ids [.name "Count".toList, .integer count, .dictClose] fuel
  generalize ids.length + (fuel + 2) = n at hitems ⊢
  cases n with
  | zero => cases hitems
  | succ n =>
    simp only [List.cons_append, List.nil_append, parseObject, parseEntries, Option.bind_eq_bind, Option.bind_some,
      hitems, Option.map_some, Option.pure_def]

lemma value_tree (numPages : ℕ) : Value (treePieces numPages) (treeObject numPages) where
  plain := by
    have hkids : ∀ ids : List ℕ, ∀ piece ∈ kidsPieces ids, isPlain piece.1 = true := by
      intro ids
      induction ids with
      | nil => exact fun piece hpiece => absurd hpiece List.not_mem_nil
      | cons id ids ih => exact List.forall_mem_append.mpr ⟨List.all_eq_true.mp rfl, ih⟩
    exact List.forall_mem_append.mpr ⟨List.forall_mem_append.mpr ⟨List.all_eq_true.mp rfl, hkids _⟩,
      List.all_eq_true.mp rfl⟩
  value := by
    have hparse := parseObject_tree ((pageObjNums numPages).map fun n : ℕ => (n : ℤ)) numPages (2 * numPages + 4)
    have hlength : (referenceTokens ((pageObjNums numPages).map fun n : ℕ => (n : ℤ))).length = 3 * numPages := by
      rw [length_referenceTokens, List.length_map, pageObjNums, List.length_map, List.length_range]
    have htokens : (treePieces numPages).map Prod.fst = [.dictOpen, .name "Type".toList, .name "Pages".toList,
        .name "Kids".toList, .arrayOpen] ++ (referenceTokens ((pageObjNums numPages).map fun n : ℕ => (n : ℤ)) ++
          [.arrayClose, .name "Count".toList, .integer numPages, .dictClose]) := by
      rw [treePieces, List.map_append, List.map_append, map_fst_kidsPieces, List.append_assoc]
      rfl
    have hfuel : ((treePieces numPages).map Prod.fst).length + 1 =
        ((pageObjNums numPages).map fun n : ℕ => (n : ℤ)).length + (2 * numPages + 4 + 2) + 4 := by
      rw [htokens, List.length_append, List.length_append, hlength, List.length_map, pageObjNums, List.length_map,
        List.length_range]
      simp only [List.length_cons, List.length_nil]
      omega
    rw [wholeObject, hfuel, htokens, hparse, List.map_map]
    rfl

/-- Where the references end with a bracket, they are well spaced. -/
lemma wellSpaced_kids (ids : List ℕ) {pieces : List (Token × List Char)}
    (h : wellSpaced (word .arrayClose :: pieces) = true) :
    wellSpaced (kidsPieces ids ++ word .arrayClose :: pieces) = true := by
  induction ids with
  | nil => exact h
  | cons id ids ih =>
    rw [kidsPieces, List.append_assoc]
    cases ids with
    | nil => exact h
    | cons id' ids => exact ih

lemma wellSpaced_tree (numPages : ℕ) : wellSpaced (treePieces numPages) = true := by
  rw [treePieces, List.append_assoc]
  exact wellSpaced_append rfl (wellSpaced_kids _ rfl)

lemma isObject_catalog : IsObject (ofLatin1 catalogBody) ⟨catalogObject, none⟩ :=
  isObject_value catalogBody_printed value_catalog (spaced_of_wellSpaced rfl)

lemma isObject_font : IsObject (ofLatin1 fontBody) ⟨fontObject, none⟩ :=
  isObject_value fontBody_printed value_font (spaced_of_wellSpaced rfl)

lemma isObject_page (numPages i : ℕ) : IsObject (ofLatin1 (pageBody numPages i)) ⟨pageObject numPages i, none⟩ :=
  isObject_value (pageBody_printed numPages i) (value_page numPages i) (spaced_of_wellSpaced rfl)

lemma isObject_tree (numPages : ℕ) : IsObject (ofLatin1 (pagesBody numPages)) ⟨treeObject numPages, none⟩ :=
  isObject_value (pagesBody_printed numPages) (value_tree numPages) (spaced_of_wellSpaced (wellSpaced_tree numPages))

lemma isObject_content (pageLines : List String) :
    IsObject (ofLatin1 (contentBody pageLines))
      ⟨lengthObject (streamBody pageLines).length, some (ofLatin1 (streamBody pageLines))⟩ := by
  refine isObject_stream (contentBody_printed pageLines) (value_length _) (spaced_of_wellSpaced rfl) ?_
  rw [length_ofLatin1]
  rfl

/-- The objects under their numbers, from the first on. -/
def bodyList (pages : List (List String)) : List Bytes :=
  [catalogBody, pagesBody pages.length] ++
    pages.zipIdx.flatMap (fun page => [pageBody pages.length page.2, contentBody page.1]) ++ [fontBody]

def contentObject (pageLines : List String) : Indirect :=
  ⟨lengthObject (streamBody pageLines).length, some (ofLatin1 (streamBody pageLines))⟩

def objectList (pages : List (List String)) : List Indirect :=
  [⟨catalogObject, none⟩, ⟨treeObject pages.length, none⟩] ++
    pages.zipIdx.flatMap (fun page => [⟨pageObject pages.length page.2, none⟩, contentObject page.1]) ++
    [⟨fontObject, none⟩]

lemma isObject_pages (numPages : ℕ) (pages : List (List String × ℕ)) :
    List.Forall₂ IsObject
      ((pages.flatMap fun page => [pageBody numPages page.2, contentBody page.1]).map ofLatin1)
      (pages.flatMap fun page => [⟨pageObject numPages page.2, none⟩, contentObject page.1]) := by
  induction pages with
  | nil => exact List.Forall₂.nil
  | cons page pages ih => exact (ih.cons (isObject_content page.1)).cons (isObject_page numPages page.2)

lemma isObject_bodyList (pages : List (List String)) :
    List.Forall₂ IsObject ((bodyList pages).map ofLatin1) (objectList pages) := by
  have hpages := isObject_pages pages.length pages.zipIdx
  have hfont : List.Forall₂ IsObject [ofLatin1 fontBody] [⟨fontObject, none⟩] := List.Forall₂.nil.cons isObject_font
  have hrest := List.rel_append hpages hfont
  rw [bodyList, objectList, List.append_assoc, List.append_assoc, List.map_append, List.map_append]
  exact (hrest.cons (isObject_tree pages.length)).cons isObject_catalog

/-! ### The numbers of the objects -/

lemma map_fst_pageEntries (numPages : ℕ) (pages : List (List String)) (start : ℕ) :
    ((pages.zipIdx start).flatMap (pageEntries numPages)).map Prod.fst =
      List.range' (3 + 2 * start) (2 * pages.length) := by
  induction pages generalizing start with
  | nil => rfl
  | cons page pages ih =>
    rw [List.zipIdx_cons, List.flatMap_cons, List.map_append, ih, List.length_cons]
    have hlength : 2 * (pages.length + 1) = 2 * pages.length + 1 + 1 := by omega
    have hnext : 3 + 2 * (start + 1) = 3 + 2 * start + 1 + 1 := by omega
    have hcontent : contentObjNum start = 3 + 2 * start + 1 := by
      rw [contentObjNum]
      omega
    rw [hnext, hlength, List.range'_succ, List.range'_succ]
    simp [pageEntries, pageObjNum, hcontent]

lemma lookup_range' {V : Type*} {entries : List (ℕ × V)} {start : ℕ}
    (h : entries.map Prod.fst = List.range' start entries.length) (i : ℕ) :
    entries.lookup (start + i) = (entries.map Prod.snd)[i]? := by
  induction entries generalizing start i with
  | nil => rfl
  | cons entry entries ih =>
    obtain ⟨k, v⟩ := entry
    rw [List.map_cons, List.length_cons, List.range'_succ] at h
    obtain ⟨hk, hrest⟩ := List.cons_eq_cons.mp h
    dsimp only at hk
    rw [hk]
    cases i with
    | zero => simp
    | succ i =>
      have hne : (start + (i + 1) == start) = false := by
        rw [beq_eq_false_iff_ne]
        omega
      rw [List.lookup_cons, hne, ← Nat.add_assoc, Nat.add_right_comm]
      exact ih hrest i

/-- The numbers that the kinds of objects are given are those from the first to the last one, in this order. -/
lemma map_fst_entries (pages : List (List String)) :
    ([(1, catalogBody), (2, pagesBody pages.length)] ++ pages.zipIdx.flatMap (pageEntries pages.length) ++
      [(fontObjNum pages.length, fontBody)]).map Prod.fst = List.range' 1 (fontObjNum pages.length) := by
  have hlength : fontObjNum pages.length = 2 * pages.length + 1 + 1 + 1 := by
    rw [fontObjNum]
    omega
  have hlast : fontObjNum pages.length = 1 + 1 + 1 + 1 * (2 * pages.length) := by
    rw [fontObjNum]
    omega
  rw [List.map_append, List.map_append, map_fst_pageEntries, List.append_assoc, List.map_singleton, hlast,
    ← List.range'_concat, ← hlast, hlength, List.range'_succ, List.range'_succ]
  rfl

/-- **Each object has its own number**, and all numbers from the first to the last one are taken. -/
lemma get_bodies (pages : List (List String)) (i : ℕ) : (bodies pages).get (1 + i) = (bodyList pages)[i]? := by
  have hkeys := map_fst_entries pages
  have hvalues : ([(1, catalogBody), (2, pagesBody pages.length)] ++ pages.zipIdx.flatMap (pageEntries pages.length) ++
      [(fontObjNum pages.length, fontBody)]).map Prod.snd = bodyList pages := by
    rw [List.map_append, List.map_append, List.map_flatMap]
    rfl
  rw [bodies, ← hvalues]
  generalize [(1, catalogBody), (2, pagesBody pages.length)] ++ pages.zipIdx.flatMap (pageEntries pages.length) ++
    [(fontObjNum pages.length, fontBody)] = entries at hkeys
  have hlength : entries.length = fontObjNum pages.length := by
    rw [← List.length_map Prod.fst, hkeys, List.length_range']
  have hnodup : (entries.map Prod.fst).Nodup := hkeys ▸ List.nodup_range'
  rw [Dict.get, Dict.entries_ofEntries hnodup]
  rw [← hlength] at hkeys
  exact lookup_range' hkeys i

lemma length_bodyList (pages : List (List String)) : (bodyList pages).length = fontObjNum pages.length := by
  have hvalues : ([(1, catalogBody), (2, pagesBody pages.length)] ++ pages.zipIdx.flatMap (pageEntries pages.length) ++
      [(fontObjNum pages.length, fontBody)]).map Prod.snd = bodyList pages := by
    rw [List.map_append, List.map_append, List.map_flatMap]
    rfl
  have hkeys := congrArg List.length (map_fst_entries pages)
  rw [List.length_range', List.length_map] at hkeys
  rw [← hvalues, List.length_map, hkeys]

/-! ### The loops -/

lemma ofLatin1_objectBytes (objNum : ℕ) (body : Bytes) :
    ofLatin1 (objectBytes objNum body) = objectChars objNum (ofLatin1 body) := by
  unfold objectBytes
  simp (disch := decide) only [ofLatin1_append, ofLatin1_number, ofLatin1_bytes]
  rw [objectChars, header, List.append_assoc, List.append_assoc]

/-- The loop over the objects writes each of them where the table says. -/
lemma writeObjects_written {bodies : Dict ℕ Bytes} (bs : List Bytes) (start : ℕ)
    (h : ∀ i b, bs[i]? = some b → bodies.get (start + i) = some b) (buffer : Buffer) :
    ∃ after, writeObjects bodies (List.range' start bs.length) buffer = .ok after ∧
      ofLatin1 after.written = ofLatin1 buffer.written ++ objectsChars start (bs.map ofLatin1) ∧
      (∀ i offset, (offsetsFrom buffer.written.length start (bs.map ofLatin1))[i]? = some offset →
        after.offsets.get (start + i) = some offset) ∧
      ∀ j < start, after.offsets.get j = buffer.offsets.get j := by
  induction bs generalizing start buffer with
  | nil => exact ⟨buffer, rfl, (List.append_nil _).symm, fun i offset hi => (by cases hi), fun _ _ => rfl⟩
  | cons b bs ih =>
    have hb : bodies.get start = some b := h 0 b rfl
    have hbs : ∀ i b', bs[i]? = some b' → bodies.get (start + 1 + i) = some b' := by
      intro i b' hi
      rw [Nat.add_assoc, Nat.add_comm 1 i]
      exact h (i + 1) b' hi
    obtain ⟨after, hwrite, hwritten, hoffsets, hkept⟩ := ih (start + 1) hbs
      { written := buffer.written ++ objectBytes start b, offsets := buffer.offsets.set start buffer.written.length }
    have hlength : (buffer.written ++ objectBytes start b).length =
        buffer.written.length + (objectChars start (ofLatin1 b)).length := by
      rw [List.length_append, ← ofLatin1_objectBytes, length_ofLatin1]
    refine ⟨after, ?_, ?_, fun i offset hi => ?_, fun j hj => ?_⟩
    · rw [List.length_cons, List.range'_succ, writeObjects, item, hb]
      exact hwrite
    · rw [hwritten, ofLatin1_append, ofLatin1_objectBytes, List.map_cons, objectsChars, List.append_assoc]
    · rw [List.map_cons, offsetsFrom] at hi
      cases i with
      | zero =>
        cases hi
        rw [Nat.add_zero, hkept start (Nat.lt_succ_self _), Dict.get_set_self]
      | succ i =>
        rw [Nat.add_comm i, ← Nat.add_assoc]
        refine hoffsets i offset ?_
        rw [hlength]
        exact hi
    · rw [hkept j (Nat.lt_succ_of_lt hj), Dict.get_set_of_ne _ _ (Nat.ne_of_lt hj)]

/-- The loop over the entries of the table. -/
lemma writeEntries_written (offsets : Dict ℕ ℕ) (table : List ℕ) (start : ℕ)
    (h : ∀ i offset, table[i]? = some offset → offsets.get (start + i) = some offset) (written : Bytes) :
    ∃ after, writeEntries offsets (List.range' start table.length) written = .ok after ∧
      ofLatin1 after = ofLatin1 written ++ table.flatMap entryChars := by
  induction table generalizing start written with
  | nil => exact ⟨written, rfl, (List.append_nil _).symm⟩
  | cons offset table ih =>
    have htable : ∀ i offset', table[i]? = some offset' → offsets.get (start + 1 + i) = some offset' := by
      intro i offset' hi
      rw [Nat.add_assoc, Nat.add_comm 1 i]
      exact h (i + 1) offset' hi
    obtain ⟨after, hwrite, hwritten⟩ := ih (start + 1) htable (written ++ xrefEntry offset)
    have hoffset : offsets.get start = some offset := h 0 offset rfl
    have hentry : ofLatin1 (xrefEntry offset) = entryChars offset := by
      rw [xrefEntry, ofLatin1_append, ofLatin1_number010, ofLatin1_bytes _ (by decide), entryChars]
    refine ⟨after, ?_, ?_⟩
    · rw [List.length_cons, List.range'_succ, writeEntries, item, hoffset]
      exact hwrite
    · rw [hwritten, ofLatin1_append, hentry, List.flatMap_cons, List.append_assoc]

end Objects

/-! ### The file that is written -/

section Written

def trailerPieces (size : ℕ) : List (Token × List Char) :=
  [word .dictOpen, word (.name "Size".toList), word (.integer size), word (.name "Root".toList)] ++
    referencePieces 1 ++ [(.dictClose, ['\n'])]

def trailerObject (size : ℕ) : Object := .dict [("Size".toList, .integer size), ("Root".toList, .reference 1 0)]

lemma value_trailer (size : ℕ) : Value (trailerPieces size) (trailerObject size) := ⟨List.all_eq_true.mp rfl, rfl⟩

lemma integerChars_one : integerChars 1 = ['1'] := rfl

lemma trailer_printed (maxObjNum xrefOffset : ℕ) :
    ofLatin1 (trailer maxObjNum xrefOffset) = trailerChars (trailerPieces (maxObjNum + 1)) xrefOffset := by
  unfold trailer trailerChars
  have hsize : integerChars (maxObjNum + 1 : ℕ) = Nat.toDigits 10 (maxObjNum + 1) := integerChars_natCast _
  simp (disch := decide) only [ofLatin1_append, ofLatin1_number, ofLatin1_bytes]
  simp [printed, trailerPieces, referencePieces, word, Token.chars, integerChars_one, integerChars_zero, ← hsize]

lemma table_printed (table : List ℕ) :
    ofLatin1 (bytes "xref\n0 " ++ number (table.length + 1) ++ bytes "\n") ++
        (ofLatin1 (bytes "0000000000 65535 f \n") ++ table.flatMap entryChars) = tableChars table := by
  unfold tableChars
  simp (disch := decide) only [ofLatin1_append, ofLatin1_number, ofLatin1_bytes]
  simp

/-- How the file begins. -/
def prolog : List Char := "%PDF-1.4\n".toList

/-- The pages that are written: one at least. -/
def shownPages (pages : List (List String)) : List (List String) := if pages = [] then [[]] else pages

def objectBodies (pages : List (List String)) : List (List Char) := (bodyList pages).map ofLatin1

def fileTable (pages : List (List String)) : List ℕ := offsetsFrom prolog.length 1 (objectBodies pages)

/-- The whole file. -/
def fileChars (pages : List (List String)) : List Char :=
  prolog ++ objectsChars 1 (objectBodies pages) ++ tableChars (fileTable pages) ++
    trailerChars (trailerPieces (fontObjNum pages.length + 1)) (prolog ++ objectsChars 1 (objectBodies pages)).length

lemma length_fileTable (pages : List (List String)) : (fileTable pages).length = fontObjNum pages.length := by
  rw [fileTable, length_offsetsFrom, objectBodies, List.length_map, length_bodyList]

theorem buildMinimalPdf_written {lines : List String} {linesPerPage : ℤ} {pages : List (List String)}
    (h : pagesLines lines linesPerPage = .ok pages) :
    ∃ bytes, buildMinimalPdf lines linesPerPage = .ok bytes ∧ ofLatin1 bytes = fileChars (shownPages pages) := by
  generalize hshown : shownPages pages = shown
  have hobjects : ∀ i b, (bodyList shown)[i]? = some b → (bodies shown).get (1 + i) = some b :=
    fun i b hi => (get_bodies shown i).trans hi
  obtain ⟨buffer, hbuffer, hwritten, hoffsets, -⟩ :=
    writeObjects_written (bodyList shown) 1 hobjects { written := bytes "%PDF-1.4\n" }
  have hprolog : ofLatin1 (bytes "%PDF-1.4\n") = prolog := ofLatin1_bytes _ (by decide)
  have hlength : buffer.written.length = (prolog ++ objectsChars 1 (objectBodies shown)).length := by
    rw [← length_ofLatin1, hwritten, hprolog]
    rfl
  obtain ⟨written, hentries, htable⟩ := writeEntries_written buffer.offsets (fileTable shown) 1 hoffsets
    (buffer.written ++ (bytes "xref\n0 " ++ number (fontObjNum shown.length + 1) ++ bytes "\n") ++
      bytes "0000000000 65535 f \n")
  rw [length_bodyList] at hbuffer
  rw [length_fileTable] at hentries
  refine ⟨written ++ trailer (fontObjNum shown.length) buffer.written.length, ?_, ?_⟩
  · rw [shownPages] at hshown
    rw [buildMinimalPdf, h]
    simp only [bind, Except.bind, hshown, hbuffer, hentries]
    rfl
  · rw [ofLatin1_append, htable, ofLatin1_append, ofLatin1_append, trailer_printed, hwritten, hprolog, hlength,
      fileChars, ← table_printed (fileTable shown), length_fileTable]
    simp only [List.append_assoc]
    rfl

/-- The file as it is read. -/
def fileOf (pages : List (List String)) : File where
  trailer := trailerObject (fontObjNum pages.length + 1)
  offsets := fileTable pages
  objects := objectList pages

lemma length_objectList (pages : List (List String)) : (objectList pages).length = fontObjNum pages.length := by
  rw [← (isObject_bodyList pages).length_eq, List.length_map, length_bodyList]

theorem readFile_written {bytes : Bytes} {pages : List (List String)} (h : ofLatin1 bytes = fileChars pages)
    (hbytes : bytes.length < 10 ^ 10) : readFile bytes = some (fileOf pages) := by
  have hlength : (prolog ++ objectsChars 1 (objectBodies pages)).length ≤ bytes.length := by
    rw [← length_ofLatin1 bytes, h, fileChars, List.append_assoc]
    exact (List.prefix_append _ _).length_le
  have hsize : (trailerObject (fontObjNum pages.length + 1)).get "Size".toList =
      some (.integer ((objectBodies pages).length + 1)) := by
    rw [objectBodies, List.length_map, length_bodyList]
    rfl
  rw [readFile, h]
  exact readChars_written (isObject_bodyList pages) (List.isPrefixOf_iff_prefix.mp rfl) (value_trailer _)
    (spaced_of_wellSpaced rfl) hsize (lt_of_le_of_lt hlength hbytes)

end Written

/-! ### The pages that are read -/

section Pages

variable {pages : List (List String)}

lemma getElem?_pairs {α β : Type*} (f g : α → β) (xs : List α) (i : ℕ) :
    (xs.flatMap fun x => [f x, g x])[2 * i]? = xs[i]?.map f ∧
      (xs.flatMap fun x => [f x, g x])[2 * i + 1]? = xs[i]?.map g := by
  induction xs generalizing i with
  | nil => exact ⟨rfl, rfl⟩
  | cons x xs ih =>
    cases i with
    | zero => exact ⟨rfl, rfl⟩
    | succ i =>
      have hindex : 2 * (i + 1) = 2 * i + 1 + 1 := by omega
      rw [hindex]
      exact ih i

lemma length_pairs (numPages : ℕ) (entries : List (List String × ℕ)) :
    (entries.flatMap fun page => [(⟨pageObject numPages page.2, none⟩ : Indirect), contentObject page.1]).length =
      2 * entries.length := by
  induction entries with
  | nil => rfl
  | cons entry entries ih =>
    rw [List.flatMap_cons, List.length_append, ih, List.length_cons]
    simp only [List.length_cons, List.length_nil]
    omega

/-- The object of a page, and that of its content. -/
lemma object_page {i : ℕ} (hi : i < pages.length) :
    (fileOf pages).object (pageObjNum i : ℕ) = some ⟨pageObject pages.length i, none⟩ ∧
      (fileOf pages).object (contentObjNum i : ℕ) = some (contentObject pages[i]) := by
  obtain ⟨hpage, hcontent⟩ := getElem?_pairs
    (fun page : List String × ℕ => (⟨pageObject pages.length page.2, none⟩ : Indirect))
    (fun page : List String × ℕ => contentObject page.1) pages.zipIdx i
  have hlength := length_pairs pages.length pages.zipIdx
  have hzip : pages.zipIdx[i]? = some (pages[i], i) := by
    rw [List.getElem?_zipIdx, List.getElem?_eq_getElem hi, Option.map_some, Nat.zero_add]
  have hprefixed : ([(⟨catalogObject, none⟩ : Indirect), ⟨treeObject pages.length, none⟩] ++ pages.zipIdx.flatMap
      (fun page => [⟨pageObject pages.length page.2, none⟩, contentObject page.1])).length = 2 + 2 * pages.length := by
    rw [List.length_append, hlength, List.length_zipIdx]
    rfl
  rw [hzip] at hpage hcontent
  have hpageNum : pageObjNum i = 2 * i + 1 + 1 + 1 := by
    rw [pageObjNum]
    omega
  have hcontentNum : contentObjNum i = 2 * i + 1 + 1 + 1 + 1 := by
    rw [contentObjNum]
    omega
  constructor
  · have hlt : 2 * i + 1 + 1 < 2 + 2 * pages.length := by omega
    rw [hpageNum]
    exact (List.getElem?_append_left (hprefixed.symm ▸ hlt)).trans hpage
  · have hlt : 2 * i + 1 + 1 + 1 < 2 + 2 * pages.length := by omega
    rw [hcontentNum]
    exact (List.getElem?_append_left (hprefixed.symm ▸ hlt)).trans hcontent

/-- The tree of pages leads to the pages, in their order. -/
lemma pages_fileOf (pages : List (List String)) :
    (fileOf pages).pages = some ((List.range pages.length).map (pageObject pages.length)) := by
  have hkids : ((List.range pages.length).map fun i => Object.reference (pageObjNum i : ℕ) 0).mapM (fileOf pages).kid =
      some ((List.range pages.length).map (pageObject pages.length)) := by
    rw [List.mapM_map]
    refine mapM_eq_some_map fun i hi => ?_
    rw [Function.comp_apply, File.kid, (object_page (List.mem_range.mp hi)).1]
    rfl
  have hlist : (pageObjNums pages.length).map (fun n : ℕ => Object.reference n 0) =
      (List.range pages.length).map fun i => Object.reference (pageObjNum i : ℕ) 0 := by
    rw [pageObjNums, List.map_map]
    rfl
  have hcount : (pages.length : ℤ) =
      ((List.range pages.length).map fun i => Object.reference (pageObjNum i : ℕ) 0).length := by
    rw [List.length_map, List.length_range]
  have hcatalog : ((fileOf pages).follow (fileOf pages).trailer "Root".toList).bind
      (File.ofType "Catalog".toList) = some catalogObject := rfl
  have htree : ((fileOf pages).follow catalogObject "Pages".toList).bind (File.ofType "Pages".toList) =
      some (treeObject pages.length) := rfl
  have hkidsOf : (treeObject pages.length).get "Kids".toList =
      some (.array ((pageObjNums pages.length).map fun n : ℕ => .reference n 0)) := rfl
  have hcountOf : (treeObject pages.length).get "Count".toList = some (.integer pages.length) := rfl
  rw [File.pages, hcatalog]
  simp only [Option.bind_eq_bind, Option.bind_some, htree, hkidsOf, hcountOf]
  rw [hlist, if_pos hcount]
  exact hkids

/-! ### The lines that are shown -/

lemma wellSpaced_linePieces (lines : List (String × ℕ)) : wellSpaced (linePieces lines) = true := by
  induction lines with
  | nil => rfl
  | cons entry lines ih =>
    rw [linePieces]
    refine wellSpaced_append (wellSpaced_append ?_ rfl) ih
    split_ifs <;> rfl

lemma spaced_streamPieces (pageLines : List String) : Spaced (streamPieces pageLines) [] := by
  have hwords : Spaced [(Token.keyword "ET".toList, [])] [] :=
    ⟨⟨by decide, by decide, by decide⟩, fun c hc => absurd hc List.not_mem_nil, fun _ c hc => (by cases hc), trivial⟩
  exact spaced_append (spaced_of_wellSpaced (wellSpaced_append rfl (wellSpaced_linePieces _)) _) hwords

/-- Each line is shown as a text of its own. -/
lemma shown_linePieces (lines : List (String × ℕ)) (ts : List Token) :
    shown ((linePieces lines).map Prod.fst ++ ts) = lines.map (fun line => line.1.toList.map replaced) ++ shown ts := by
  induction lines with
  | nil => rfl
  | cons entry lines ih =>
    have hline : shown ((linePieces (entry :: lines)).map Prod.fst ++ ts) =
        entry.1.toList.map replaced :: shown ((linePieces lines).map Prod.fst ++ ts) := by
      rw [linePieces, List.map_append, List.map_append, List.append_assoc, List.append_assoc]
      split_ifs <;> rfl
    rw [hline, ih]
    rfl

/-- A page shows its lines. -/
lemma textsOf_page {i : ℕ} (hi : i < pages.length) :
    (fileOf pages).textsOf (pageObject pages.length i) =
      some (pages[i].map fun line => line.toList.map replaced) := by
  have hfollow : (fileOf pages).follow (pageObject pages.length i) "Contents".toList =
      some (contentObject pages[i]) := (object_page hi).2
  have hlex := lexMany_end [] (spaced_streamPieces pages[i])
    (fun piece _ w hw => absurd hw List.not_mem_nil) (length_lt_fuel (spaced_streamPieces pages[i]) [])
  rw [List.append_nil, ← streamBody_printed] at hlex
  have hshown : shown ((streamPieces pages[i]).map Prod.fst) =
      pages[i].map fun line => line.toList.map replaced := by
    have hlines := shown_linePieces pages[i].zipIdx [.keyword "ET".toList]
    have hend : shown [.keyword "ET".toList] = [] := rfl
    rw [hend, List.append_nil] at hlines
    have hzip : pages[i].zipIdx.map (fun line => line.1.toList.map replaced) =
        (pages[i].zipIdx.map Prod.fst).map fun line => line.toList.map replaced := by
      rw [List.map_map]
      rfl
    rw [hzip, List.zipIdx_map_fst] at hlines
    rw [streamPieces, List.map_append, List.map_append]
    exact hlines
  rw [File.textsOf, hfollow]
  simp only [Option.bind_eq_bind, Option.bind_some, contentObject, hlex, hshown]
  rfl

lemma pageTexts_fileOf (pages : List (List String)) :
    (fileOf pages).pageTexts = some (pages.map (List.map fun line => line.toList.map replaced)) := by
  have htexts : ((List.range pages.length).map (pageObject pages.length)).mapM (fileOf pages).textsOf =
      some ((List.range pages.length).map fun i => (pages.getD i []).map fun line => line.toList.map replaced) := by
    rw [List.mapM_map]
    refine mapM_eq_some_map fun i hi => ?_
    have hi := List.mem_range.mp hi
    rw [Function.comp_apply, textsOf_page hi, List.getD_eq_getElem _ _ hi]
  have hpages : pages.map (List.map fun line => line.toList.map replaced) =
      (List.range pages.length).map fun i => (pages.getD i []).map fun line => line.toList.map replaced := by
    refine List.ext_getElem (by rw [List.length_map, List.length_map, List.length_range]) fun i hi _ => ?_
    rw [List.length_map] at hi
    rw [List.getElem_map, List.getElem_map, List.getElem_range, List.getD_eq_getElem _ _ hi]
  rw [File.pageTexts, pages_fileOf, hpages]
  exact htexts

/-! ### References -/

/-- The references name objects from the first to the last one. -/
def InRange (n : ℕ) (refs : List (ℤ × ℤ)) : Prop := ∀ r ∈ refs, r.2 = 0 ∧ 1 ≤ r.1 ∧ r.1 ≤ n

lemma InRange.append {n : ℕ} {refs refs' : List (ℤ × ℤ)} (h : InRange n refs) (h' : InRange n refs') :
    InRange n (refs ++ refs') := List.forall_mem_append.mpr ⟨h, h'⟩

lemma inRange_tree (numPages : ℕ) : InRange (fontObjNum numPages) (treeObject numPages).references := by
  have hrefs : (treeObject numPages).references =
      itemReferences ((pageObjNums numPages).map fun n : ℕ => .reference n 0) ++ [] := rfl
  have hids := itemReferences_references ((pageObjNums numPages).map fun n : ℕ => (n : ℤ))
  rw [List.map_map] at hids
  rw [hrefs, List.append_nil]
  intro r hr
  rw [show itemReferences ((pageObjNums numPages).map fun n : ℕ => .reference n 0) = _ from hids, List.map_map] at hr
  obtain ⟨id, hid, rfl⟩ := List.mem_map.mp hr
  obtain ⟨i, hi, rfl⟩ := List.mem_map.mp hid
  have hi := List.mem_range.mp hi
  have hle : 1 ≤ pageObjNum i ∧ pageObjNum i ≤ fontObjNum numPages := by
    rw [pageObjNum, fontObjNum]
    omega
  exact ⟨rfl, Int.ofNat_le.mpr hle.1, Int.ofNat_le.mpr hle.2⟩

lemma inRange_page {numPages i : ℕ} (hi : i < numPages) :
    InRange (fontObjNum numPages) (pageObject numPages i).references := by
  have hrefs : (pageObject numPages i).references =
      [2, fontObjNum numPages, contentObjNum i].map fun n : ℕ => ((n : ℤ), (0 : ℤ)) := rfl
  have hle : ∀ n ∈ [2, fontObjNum numPages, contentObjNum i], 1 ≤ n ∧ n ≤ fontObjNum numPages := by
    rw [fontObjNum, contentObjNum]
    intro n hn
    simp only [List.mem_cons, List.not_mem_nil, or_false] at hn
    omega
  intro r hr
  rw [hrefs] at hr
  obtain ⟨n, hn, rfl⟩ := List.mem_map.mp hr
  exact ⟨rfl, Int.ofNat_le.mpr (hle n hn).1, Int.ofNat_le.mpr (hle n hn).2⟩

lemma inRange_fileOf (pages : List (List String)) :
    InRange (fontObjNum pages.length) (fileOf pages).references := by
  have hfont : 2 ≤ fontObjNum pages.length := by
    rw [fontObjNum]
    omega
  have hroot : ∀ id : ℤ, 1 ≤ id → id ≤ 2 → InRange (fontObjNum pages.length) [(id, 0)] := by
    intro id hone htwo r hr
    rw [List.mem_singleton.mp hr]
    exact ⟨rfl, hone, htwo.trans (Int.ofNat_le.mpr hfont)⟩
  have hpages : InRange (fontObjNum pages.length) ((pages.zipIdx.flatMap fun page =>
      [(⟨pageObject pages.length page.2, none⟩ : Indirect), contentObject page.1]).flatMap (·.value.references)) := by
    intro r hr
    obtain ⟨x, hx, hr⟩ := List.mem_flatMap.mp hr
    obtain ⟨page, hpage, hx⟩ := List.mem_flatMap.mp hx
    rw [List.mem_cons, List.mem_singleton] at hx
    obtain rfl | rfl := hx
    · have hi := List.snd_lt_of_mem_zipIdx hpage
      exact inRange_page (by omega) r hr
    · cases hr
  have hobjects : (objectList pages).flatMap (·.value.references) = [(2, 0)] ++ ((treeObject pages.length).references ++
      (pages.zipIdx.flatMap fun page =>
        [(⟨pageObject pages.length page.2, none⟩ : Indirect), contentObject page.1]).flatMap (·.value.references)) := by
    rw [objectList, List.append_assoc, List.flatMap_append, List.flatMap_append]
    simp only [List.flatMap_cons, List.flatMap_nil, List.append_nil]
    rw [show fontObject.references = [] from rfl, List.append_nil, List.append_assoc]
    rfl
  have htrailer : (fileOf pages).trailer.references = [(1, 0)] := rfl
  rw [File.references, htrailer, show (fileOf pages).objects = objectList pages from rfl, hobjects]
  exact (hroot 1 (by decide) (by decide)).append ((hroot 2 (by decide) (by decide)).append
    ((inRange_tree _).append hpages))

/-! ### Lines and pages -/

/-- The pages hold the lines, each of them once and in their order. -/
lemma pagesLines_flatten (lines : List String) {linesPerPage : ℤ} (h : 1 ≤ linesPerPage) :
    ∃ pages, pagesLines lines linesPerPage = .ok pages ∧ (shownPages pages).flatten = lines ∧
      ∀ page ∈ shownPages pages, (page.length : ℤ) ≤ linesPerPage := by
  obtain ⟨step, rfl⟩ : ∃ step : ℕ, linesPerPage = .ofNat (step + 1) :=
    ⟨(linesPerPage - 1).toNat, by rw [Int.ofNat_eq_natCast]; omega⟩
  have hflatten : (windows lines (step + 1) (step + 1)).flatten = lines := flatten_windows (Nat.succ_pos _) lines
  refine ⟨_, rfl, ?_, fun page hpage => ?_⟩
  · rw [shownPages]
    split_ifs with hnil
    · have hwindows : windows lines (step + 1) (step + 1) = [] := hnil
      rw [hwindows] at hflatten
      exact hflatten
    · exact hflatten
  · rw [shownPages] at hpage
    split_ifs at hpage with hnil
    · rw [List.mem_singleton.mp hpage]
      exact Int.natCast_nonneg _
    · exact Int.ofNat_le.mpr (length_of_mem_windows hpage)

/-- The pages of a file are read as its lines. -/
lemma pages_read (lines : List String) {linesPerPage : ℤ} (h : 1 ≤ linesPerPage) :
    ∃ bytes, buildMinimalPdf lines linesPerPage = .ok bytes ∧ (bytes.length < 10 ^ 10 →
      ∃ file pages, readFile bytes = some file ∧ file.pageTexts = some pages ∧
        pages.flatten = lines.map (fun line => line.toList.map replaced) ∧
        ∀ page ∈ pages, (page.length : ℤ) ≤ linesPerPage) := by
  obtain ⟨pages, hpages, hflatten, hshort⟩ := pagesLines_flatten lines h
  obtain ⟨bytes, hbytes, hwritten⟩ := buildMinimalPdf_written hpages
  refine ⟨bytes, hbytes, fun hsize => ?_⟩
  refine ⟨fileOf (shownPages pages), _, readFile_written hwritten hsize, pageTexts_fileOf _, ?_, fun page hpage => ?_⟩
  · rw [← List.map_flatten, hflatten]
  · obtain ⟨page', hpage', rfl⟩ := List.mem_map.mp hpage
    rw [List.length_map]
    exact hshort page' hpage'

end Pages

/-- **An exported file is read**: each entry of its table leads to the header of the object with its number, each
stream has the length that is written, each reference names an object of the file, and the pages show the lines, what
is left of them in one byte for each character, each of them once and in their order. -/
theorem exported_pdf_read (lines : List String) (linesPerPage : ℤ) (h : 1 ≤ linesPerPage) :
    ∃ bytes, buildMinimalPdf lines linesPerPage = .ok bytes ∧ (bytes.length < 10 ^ 10 →
      ∃ file pages, readFile bytes = some file ∧ file.offsets.length = file.objects.length ∧
        (∀ k offset, file.offsets[k]? = some offset → header (k + 1) <+: (ofLatin1 bytes).drop offset) ∧
        (∀ x ∈ file.objects, ∀ data, x.stream = some data →
          x.value.get "Length".toList = some (.integer data.length)) ∧
        (∀ r ∈ file.references, r.2 = 0 ∧ 1 ≤ r.1 ∧ r.1 ≤ file.objects.length) ∧
        file.pageTexts = some pages ∧
        pages.flatten = lines.map (fun line => line.toList.map replaced) ∧
        ∀ page ∈ pages, (page.length : ℤ) ≤ linesPerPage) := by
  obtain ⟨pages, hpages, hflatten, hshort⟩ := pagesLines_flatten lines h
  obtain ⟨bytes, hbytes, hwritten⟩ := buildMinimalPdf_written hpages
  refine ⟨bytes, hbytes, fun hsize => ?_⟩
  have hread := readFile_written hwritten hsize
  obtain ⟨hlength, hheaders, hstreams⟩ := readFile_sound hread
  refine ⟨fileOf (shownPages pages), _, hread, hlength, hheaders, hstreams, ?_, pageTexts_fileOf _, ?_, ?_⟩
  · rw [show (fileOf (shownPages pages)).objects = objectList (shownPages pages) from rfl, length_objectList]
    exact inRange_fileOf _
  · rw [← List.map_flatten, hflatten]
  · intro page hpage
    obtain ⟨page', hpage', rfl⟩ := List.mem_map.mp hpage
    rw [List.length_map]
    exact hshort page' hpage'

/-- Three lines, two to a page. -/
theorem exported_pdf_read_three :
    1 ≤ (2 : ℤ) ∧ ∃ bytes, buildMinimalPdf ["a (b", "c\\", "d"] 2 = .ok bytes ∧ (bytes.length < 10 ^ 10 →
      ∃ file pages, readFile bytes = some file ∧ file.pageTexts = some pages ∧
        pages.flatten = ["a (b".toList, "c\\".toList, "d".toList]) := by
  obtain ⟨bytes, hbytes, hread⟩ := exported_pdf_read ["a (b", "c\\", "d"] 2 (by decide)
  refine ⟨by decide, bytes, hbytes, fun hsize => ?_⟩
  obtain ⟨file, pages, hfile, -, -, -, -, htexts, hflatten, -⟩ := hread hsize
  exact ⟨file, pages, hfile, htexts, hflatten⟩

end Tmis.LegalDrafting.PdfWriter
