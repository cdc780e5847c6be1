import Mathlib.Algebra.Order.Ring.Nat
import Tmis.Lib.PdfSyntax

/-!
# PDF files

A reader of PDF files: from the end of the file to its cross-reference table, from there to the objects, and from the
catalogue over the tree of pages to the texts that are shown.  It reads files with one table, of objects of
generation 0 whose streams are not encoded and have their length in their own dictionary.

* `latin1` — characters of one byte each;
* `readStart`, `readXref`, `readTrailer`, `readIndirect` — the parts of a file;
* `File`, `readFile` — a file;
* `File.pages`, `File.pageTexts` — the pages, in their order, and the texts that they show.
-/

namespace Tmis.Lib.Pdf

/-! ### Bytes -/

/-- `encode("latin-1", errors="replace")`. -/
def latin1 (text : List Char) : List UInt8 := text.map fun c => UInt8.ofNat (if c.toNat < 256 then c.toNat else 63)

/-- `decode("latin-1")`. -/
def ofLatin1 (bytes : List UInt8) : List Char := bytes.map fun b => Char.ofNat b.toNat

/-- What is left of a character. -/
def replaced (c : Char) : Char := if c.toNat < 256 then c else '?'

/-! ### The table -/

def readNumber (cs : List Char) : Option (ℕ × List Char) :=
  (readDigits (cs.takeWhile Char.isDigit)).map fun n => (n, cs.dropWhile Char.isDigit)

/-- Where the table begins: the number between `startxref` and the end of the file. -/
def readStart (cs : List Char) : Option ℕ := do
  let before ← cs.reverse.dropPrefix? "\n%%EOF".toList.reverse
  let _ ← (before.dropWhile Char.isDigit).dropPrefix? "startxref\n".toList.reverse
  readDigits (before.takeWhile Char.isDigit).reverse

/-- The entry of an object, of twenty bytes: ten digits for its offset, its generation and its kind. -/
def readEntry (cs : List Char) : Option (ℕ × List Char) := do
  let offset ← readDigits (cs.take 10)
  let rest ← (cs.drop 10).dropPrefix? " 00000 n \n".toList
  return (offset, rest)

def readEntries : ℕ → List Char → Option (List ℕ × List Char)
  | 0, cs => some ([], cs)
  | count + 1, cs => do
    let (offset, cs) ← readEntry cs
    let (offsets, cs) ← readEntries count cs
    return (offset :: offsets, cs)

/-- The offsets of the objects from the first on; the entry before them is free. -/
def readXref (cs : List Char) : Option (List ℕ × List Char) := do
  let cs ← cs.dropPrefix? "xref\n0 ".toList
  let (size, cs) ← readNumber cs
  let cs ← cs.dropPrefix? "\n0000000000 65535 f \n".toList
  match size with
  | 0 => none
  | count + 1 => readEntries count cs

/-- The object that some words stand for, all of them. -/
def wholeObject (ts : List Token) : Option Object :=
  match parseObject (ts.length + 1) ts with
  | some (x, []) => some x
  | _ => none

def readTrailer (cs : List Char) : Option Object := do
  let cs ← cs.dropPrefix? "trailer\n".toList
  let (ts, stop, _) ← lexMany ["startxref".toList] (cs.length + 1) cs
  if stop = some "startxref".toList then wholeObject ts else none

/-! ### Objects -/

/-- An object of the file, with its stream if it has one. -/
structure Indirect where
  value : Object
  stream : Option (List Char)

/-- How an object begins. -/
def header (id : ℕ) : List Char := Nat.toDigits 10 id ++ " 0 obj\n".toList

/-- The stream of an object: as many bytes as its dictionary says, and then the end of the stream and of the object. -/
def readStream (value : Object) (cs : List Char) : Option (List Char) := do
  let cs ← cs.dropPrefix? ['\n']
  match value.get "Length".toList with
  | some (.integer (.ofNat length)) =>
    if cs.length < length then none
    else
      let rest ← (cs.drop length).dropPrefix? "\nendstream".toList
      let (ts, stop, _) ← lexMany ["endobj".toList] (rest.length + 1) rest
      if ts = [] ∧ stop = some "endobj".toList then some (cs.take length) else none
  | _ => none

/-- The object with this number at this offset. -/
def readIndirect (cs : List Char) (offset id : ℕ) : Option Indirect := do
  let cs ← (cs.drop offset).dropPrefix? (header id)
  let (ts, stop, rest) ← lexMany ["endobj".toList, "stream".toList] (cs.length + 1) cs
  let value ← wholeObject ts
  if stop = some "endobj".toList then return { value, stream := none }
  else if stop = some "stream".toList then return { value, stream := some (← readStream value rest) }
  else none

/-! ### Files -/

structure File where
  trailer : Object
  offsets : List ℕ
  objects : List Indirect

def readObjects (cs : List Char) : ℕ → List ℕ → Option (List Indirect)
  | _, [] => some []
  | id, offset :: offsets => do
    let x ← readIndirect cs offset id
    let xs ← readObjects cs (id + 1) offsets
    return x :: xs

def readChars (cs : List Char) : Option File := do
  let _ ← cs.dropPrefix? "%PDF-".toList
  let start ← readStart cs
  let (offsets, rest) ← readXref (cs.drop start)
  let trailer ← readTrailer rest
  match trailer.get "Size".toList with
  | some (.integer size) =>
    if size = offsets.length + 1 then return { trailer, offsets, objects := ← readObjects cs 1 offsets } else none
  | _ => none

def readFile (bytes : List UInt8) : Option File := readChars (ofLatin1 bytes)

namespace File

/-- All references of the file. -/
def references (file : File) : List (ℤ × ℤ) :=
  file.trailer.references ++ file.objects.flatMap (·.value.references)

/-- The object with a number. -/
def object (file : File) : ℤ → Option Indirect
  | .ofNat (id + 1) => file.objects[id]?
  | _ => none

/-- The object that the value under a name refers to. -/
def follow (file : File) (value : Object) (key : List Char) : Option Indirect :=
  match value.get key with
  | some (.reference id _) => file.object id
  | _ => none

/-- The object is a dictionary of this type. -/
def ofType (type : List Char) (x : Indirect) : Option Object :=
  match x.value.get "Type".toList with
  | some (.name n) => if n = type then some x.value else none
  | _ => none

def kid (file : File) : Object → Option Object
  | .reference id _ => (file.object id).bind (ofType "Page".toList)
  | _ => none

/-- The pages, in their order. -/
def pages (file : File) : Option (List Object) := do
  let catalog ← (file.follow file.trailer "Root".toList).bind (ofType "Catalog".toList)
  let tree ← (file.follow catalog "Pages".toList).bind (ofType "Pages".toList)
  match tree.get "Kids".toList, tree.get "Count".toList with
  | some (.array kids), some (.integer count) => if count = kids.length then kids.mapM file.kid else none
  | _, _ => none

end File

/-! ### What is shown -/

/-- The texts that are shown. -/
def shown : List Token → List (List Char)
  | .text s :: .keyword w :: ts => if w = "Tj".toList then s :: shown ts else shown ts
  | _ :: ts => shown ts
  | [] => []

/-- The texts that a page shows. -/
def File.textsOf (file : File) (page : Object) : Option (List (List Char)) := do
  let contents ← file.follow page "Contents".toList
  let data ← contents.stream
  let (ts, _, _) ← lexMany [] (data.length + 1) data
  return shown ts

def File.pageTexts (file : File) : Option (List (List (List Char))) := do (← file.pages).mapM file.textsOf

/-! ### Characters of one byte -/

section Bytes

lemma ofLatin1_append (xs ys : List UInt8) : ofLatin1 (xs ++ ys) = ofLatin1 xs ++ ofLatin1 ys := List.map_append

lemma latin1_append (xs ys : List Char) : latin1 (xs ++ ys) = latin1 xs ++ latin1 ys := List.map_append

lemma length_ofLatin1 (xs : List UInt8) : (ofLatin1 xs).length = xs.length := List.length_map _

/-- What is decoded is what is left of what was encoded. -/
lemma ofLatin1_latin1 (cs : List Char) : ofLatin1 (latin1 cs) = cs.map replaced := by
  rw [ofLatin1, latin1, List.map_map]
  refine List.map_congr_left fun c _ => ?_
  unfold replaced
  rw [Function.comp_apply]
  split_ifs with hc
  · rw [UInt8.toNat_ofNat_of_lt' hc, Char.ofNat_toNat]
  · rfl

lemma replaced_eq_self {c : Char} (hc : c.toNat < 256) : replaced c = c := if_pos hc

lemma map_replaced_eq_self {cs : List Char} (h : ∀ c ∈ cs, c.toNat < 256) : cs.map replaced = cs := by
  have hsame := List.map_congr_left fun c hc => replaced_eq_self (h c hc)
  exact hsame.trans (List.map_id cs)

lemma map_replaced_toDigits (n : ℕ) : (Nat.toDigits 10 n).map replaced = Nat.toDigits 10 n := by
  refine map_replaced_eq_self fun c hc => ?_
  have hdigit := Char.isDigit_iff_toNat.mp (forall_isDigit_toDigits n c hc)
  have hnine : '9'.toNat = 57 := rfl
  omega

end Bytes

/-! ### The end of a file -/

section Table

/-- Nothing follows that goes on with a number. -/
def DigitsEnd (rest : List Char) : Prop := ∀ c ∈ rest.head?, c.isDigit = false

lemma takeWhile_digits {ds rest : List Char} (hds : ∀ c ∈ ds, c.isDigit = true) (hrest : DigitsEnd rest) :
    (ds ++ rest).takeWhile Char.isDigit = ds ∧ (ds ++ rest).dropWhile Char.isDigit = rest := by
  have hnone : rest.takeWhile Char.isDigit = [] ∧ rest.dropWhile Char.isDigit = rest := by
    cases rest with
    | nil => exact ⟨rfl, rfl⟩
    | cons c cs =>
      have hc : c.isDigit = false := hrest c rfl
      simp [hc]
  rw [List.takeWhile_append_of_pos hds, List.dropWhile_append_of_pos hds, hnone.1, hnone.2, List.append_nil]
  exact ⟨rfl, rfl⟩

lemma dropPrefix?_append (xs ys : List Char) : (xs ++ ys).dropPrefix? xs = some ys :=
  List.dropPrefix?_append_of_beq ys (beq_self_eq_true xs)

lemma readNumber_toDigits (n : ℕ) {rest : List Char} (hrest : DigitsEnd rest) :
    readNumber (Nat.toDigits 10 n ++ rest) = some (n, rest) := by
  obtain ⟨htake, hdrop⟩ := takeWhile_digits (forall_isDigit_toDigits n) hrest
  rw [readNumber, htake, hdrop, readDigits_toDigits]
  rfl

/-- The number before the end of a file is read. -/
lemma readStart_written (before : List Char) (n : ℕ) :
    readStart (before ++ "startxref\n".toList ++ Nat.toDigits 10 n ++ "\n%%EOF".toList) = some n := by
  have hdigits : ∀ c ∈ (Nat.toDigits 10 n).reverse, c.isDigit = true :=
    fun c hc => forall_isDigit_toDigits n c (List.mem_reverse.mp hc)
  have hends : DigitsEnd ("startxref\n".toList.reverse ++ before.reverse) := by
    intro c hc
    cases hc
    rfl
  obtain ⟨htake, hdrop⟩ := takeWhile_digits hdigits hends
  rw [readStart, List.reverse_append, List.reverse_append, List.reverse_append, dropPrefix?_append]
  simp only [Option.bind_eq_bind, Option.bind_some, htake, hdrop, dropPrefix?_append, List.reverse_reverse,
    readDigits_toDigits]

/-- Ten digits of a number. -/
def tenDigits (n : ℕ) : List Char := List.replicate (10 - (Nat.toDigits 10 n).length) '0' ++ Nat.toDigits 10 n

def entryChars (offset : ℕ) : List Char := tenDigits offset ++ " 00000 n \n".toList

lemma length_tenDigits {n : ℕ} (hn : n < 10 ^ 10) : (tenDigits n).length = 10 := by
  have hlength : (Nat.toDigits 10 n).length ≤ 10 := (Nat.length_toDigits_le_iff (by decide) (by decide)).mpr hn
  rw [tenDigits, List.length_append, List.length_replicate]
  omega

lemma readDigits_tenDigits (n : ℕ) : readDigits (tenDigits n) = some n := by
  have hall : (tenDigits n).all Char.isDigit = true := by
    rw [tenDigits, List.all_append, List.all_replicate, Bool.and_eq_true]
    refine ⟨?_, List.all_eq_true.mpr (forall_isDigit_toDigits n)⟩
    split_ifs <;> rfl
  have hne : tenDigits n ≠ [] := List.append_ne_nil_of_right_ne_nil _ Nat.toDigits_ne_nil
  rw [readDigits, if_pos ⟨hne, hall⟩, tenDigits, Nat.ofDigitChars_append, Nat.ofDigitChars_replicate_zero, Nat.mul_zero,
    Nat.ofDigitChars_toDigits (by decide) (by decide)]

/-- The entries of a table are read. -/
lemma readEntries_written {offsets : List ℕ} (h : ∀ offset ∈ offsets, offset < 10 ^ 10) (rest : List Char) :
    readEntries offsets.length (offsets.flatMap entryChars ++ rest) = some (offsets, rest) := by
  induction offsets with
  | nil => rfl
  | cons offset offsets ih =>
    obtain ⟨hoffset, hoffsets⟩ := List.forall_mem_cons.mp h
    have hlength := length_tenDigits hoffset
    have hentry : readEntry (entryChars offset ++ (offsets.flatMap entryChars ++ rest)) =
        some (offset, offsets.flatMap entryChars ++ rest) := by
      rw [readEntry, entryChars, List.append_assoc (tenDigits offset), List.take_left' hlength,
        List.drop_left' hlength, readDigits_tenDigits, dropPrefix?_append]
      rfl
    rw [List.length_cons, readEntries, List.flatMap_cons, List.append_assoc, hentry]
    simp only [Option.bind_eq_bind, Option.bind_some, ih hoffsets]
    rfl

/-- A table is read. -/
lemma readXref_written {offsets : List ℕ} (h : ∀ offset ∈ offsets, offset < 10 ^ 10) (rest : List Char) :
    readXref ("xref\n0 ".toList ++ (Nat.toDigits 10 (offsets.length + 1) ++ ("\n0000000000 65535 f \n".toList ++
      (offsets.flatMap entryChars ++ rest)))) = some (offsets, rest) := by
  have hends : DigitsEnd ("\n0000000000 65535 f \n".toList ++ (offsets.flatMap entryChars ++ rest)) := by
    intro c hc
    cases hc
    rfl
  rw [readXref, dropPrefix?_append]
  simp only [Option.bind_eq_bind, Option.bind_some, readNumber_toDigits _ hends, dropPrefix?_append,
    readEntries_written h]

end Table

/-! ### Objects that were written -/

section Objects

variable {stops : List (List Char)} {pieces : List (Token × List Char)} {w rest : List Char}

/-- Words up to a stop. -/
lemma lexMany_stop (stops : List (List Char)) (w rest : List Char) (hspaced : Spaced pieces (w ++ rest))
    (hstops : ∀ piece ∈ pieces, ∀ w ∈ stops, piece.1 ≠ .keyword w) (hw : w ∈ stops) (hvalid : (Token.keyword w).Valid)
    (hrest : WordEnds rest) {fuel : ℕ} (hfuel : pieces.length < fuel) :
    lexMany stops fuel (printed pieces ++ (w ++ rest)) = some (pieces.map Prod.fst, some w, rest) := by
  obtain ⟨more, rfl⟩ := Nat.exists_eq_add_of_lt hfuel
  have hlex := lexToken_chars hvalid fun _ => hrest
  obtain ⟨c, cs, hchars, hwhite⟩ := Token.chars_ne_nil hvalid
  have hfind : stops.find? (fun v => Token.keyword w = .keyword v) = some w := by
    cases hfound : stops.find? (fun v => Token.keyword w = .keyword v) with
    | none => exact absurd (decide_eq_true rfl) (List.find?_eq_none.mp hfound w hw)
    | some v =>
      have hv := List.find?_some hfound
      rw [Token.keyword.inj (of_decide_eq_true hv)]
  rw [Nat.add_assoc, lexMany_printed hspaced hstops]
  rw [Token.chars] at hchars hlex
  subst hchars
  rw [List.cons_append] at hlex ⊢
  rw [lexMany_cons hwhite, hlex]
  dsimp only
  rw [hfind]
  simp

/-- Words up to the end. -/
lemma lexMany_end (stops : List (List Char)) (hspaced : Spaced pieces []) (hstops : ∀ piece ∈ pieces, ∀ w ∈ stops, piece.1 ≠ .keyword w)
    {fuel : ℕ} (hfuel : pieces.length < fuel) :
    lexMany stops fuel (printed pieces) = some (pieces.map Prod.fst, none, []) := by
  obtain ⟨more, rfl⟩ := Nat.exists_eq_add_of_lt hfuel
  have hprinted := lexMany_printed hspaced hstops more
  rw [List.append_nil] at hprinted
  rw [Nat.add_assoc, hprinted, lexMany]
  simp

lemma length_pieces_le (hspaced : Spaced pieces rest) : pieces.length ≤ (printed pieces).length := by
  induction pieces with
  | nil => exact Nat.zero_le _
  | cons piece pieces ih =>
    obtain ⟨ht, -, -, hspaced⟩ := hspaced
    obtain ⟨c, cs, hchars, -⟩ := Token.chars_ne_nil ht
    have hle := ih hspaced
    rw [printed, List.flatMap_cons, hchars, ← printed]
    simp only [List.length_cons, List.length_append]
    omega

lemma length_lt_fuel (hspaced : Spaced pieces []) (rest : List Char) :
    pieces.length < (printed pieces ++ rest).length + 1 := by
  have hle := length_pieces_le hspaced
  rw [List.length_append]
  omega

lemma drop_of_eq_append {cs before rest : List Char} {offset : ℕ} (h : cs.drop offset = before ++ rest) :
    cs.drop (offset + before.length) = rest := by
  rw [← List.drop_drop, h, List.drop_left]

/-- No keyword but that of a reference. -/
def isPlain : Token → Bool
  | .keyword w => w = ['R']
  | _ => true

/-- The words of an object are those of a value, without the keywords that end them. -/
structure Value (pieces : List (Token × List Char)) (value : Object) : Prop where
  plain : ∀ piece ∈ pieces, isPlain piece.1 = true
  value : wholeObject (pieces.map Prod.fst) = some value

lemma Value.not_stop {value : Object} (h : Value pieces value) (hstops : ['R'] ∉ stops) :
    ∀ piece ∈ pieces, ∀ w ∈ stops, piece.1 ≠ .keyword w := by
  intro piece hpiece w hw heq
  have hplain := h.plain piece hpiece
  rw [heq] at hplain
  rw [of_decide_eq_true hplain] at hw
  exact hstops hw

/-- This is how an object is written, wherever it stands. -/
def IsObject (body : List Char) (x : Indirect) : Prop :=
  ∀ cs offset id rest, cs.drop offset = header id ++ (body ++ ("\nendobj\n".toList ++ rest)) →
    readIndirect cs offset id = some x

/-- An object without a stream. -/
lemma isObject_value {body : List Char} {value : Object} (hbody : body ++ ['\n'] = printed pieces)
    (hvalue : Value pieces value) (hspaced : ∀ rest, Spaced pieces rest) :
    IsObject body { value, stream := none } := by
  intro cs offset id rest hat
  have htext : body ++ ("\nendobj\n".toList ++ rest) =
      printed pieces ++ ("endobj".toList ++ '\n' :: rest) := by
    rw [← hbody, List.append_assoc]
    rfl
  have hlex := lexMany_stop ["endobj".toList, "stream".toList] "endobj".toList ('\n' :: rest) (hspaced _)
    (hvalue.not_stop (by decide)) List.mem_cons_self
    ⟨by decide, by decide, by decide⟩ (fun c hc => by cases hc; rfl)
    (length_lt_fuel (hspaced []) ("endobj".toList ++ '\n' :: rest))
  rw [htext] at hat
  rw [readIndirect, hat, dropPrefix?_append]
  simp only [Option.bind_eq_bind, Option.bind_some, hlex, hvalue.value, if_true]
  rfl

/-- The words after a stream. -/
lemma readStream_written {value : Object} {data : List Char}
    (hlength : value.get "Length".toList = some (.integer data.length)) (rest : List Char) :
    readStream value ('\n' :: (data ++ ("\nendstream".toList ++ ("\nendobj\n".toList ++ rest)))) = some data := by
  have hspaced : Spaced [] ("endobj".toList ++ '\n' :: rest) := trivial
  have hlex := lexMany_stop ["endobj".toList] "endobj".toList ('\n' :: rest) hspaced
    (fun piece hpiece => absurd hpiece List.not_mem_nil) (List.mem_singleton_self _)
    ⟨by decide, by decide, by decide⟩ (fun c hc => by cases hc; rfl)
    (Nat.zero_lt_succ ("\nendobj\n".toList ++ rest).length)
  have hgap := lexMany_gap ["endobj".toList] (List.forall_mem_singleton.mpr rfl : ∀ c ∈ ['\n'], isWhite c = true)
    (("\nendobj\n".toList ++ rest).length + 1) ("endobj".toList ++ '\n' :: rest)
  rw [printed, List.flatMap_nil, List.nil_append] at hlex
  have hend := hgap.trans hlex
  have hlt : ¬ (data ++ ("\nendstream".toList ++ ("\nendobj\n".toList ++ rest))).length < data.length := by
    rw [List.length_append]
    omega
  rw [readStream, ← List.singleton_append, dropPrefix?_append]
  simp only [Option.bind_eq_bind, Option.bind_some, hlength, if_neg hlt, List.drop_left, dropPrefix?_append,
    List.take_left]
  erw [hend]
  rfl

/-- An object with a stream. -/
lemma isObject_stream {body data : List Char} {value : Object}
    (hbody : body = printed pieces ++ ("stream\n".toList ++ (data ++ "\nendstream".toList)))
    (hvalue : Value pieces value) (hspaced : ∀ rest, Spaced pieces rest)
    (hlength : value.get "Length".toList = some (.integer data.length)) :
    IsObject body { value, stream := some data } := by
  intro cs offset id rest hat
  have htext : body ++ ("\nendobj\n".toList ++ rest) = printed pieces ++ ("stream".toList ++
      '\n' :: (data ++ ("\nendstream".toList ++ ("\nendobj\n".toList ++ rest)))) := by
    rw [hbody, List.append_assoc, List.append_assoc, List.append_assoc]
    rfl
  have hlex := lexMany_stop ["endobj".toList, "stream".toList] "stream".toList
    ('\n' :: (data ++ ("\nendstream".toList ++ ("\nendobj\n".toList ++ rest)))) (hspaced _)
    (hvalue.not_stop (by decide)) (List.mem_cons_of_mem _ (List.mem_singleton_self _))
    ⟨by decide, by decide, by decide⟩ (fun c hc => by cases hc; rfl)
    (length_lt_fuel (hspaced []) ("stream".toList ++
      '\n' :: (data ++ ("\nendstream".toList ++ ("\nendobj\n".toList ++ rest)))))
  rw [← htext] at hlex
  have hne : ¬ (some "stream".toList = some "endobj".toList) := by decide
  rw [readIndirect, hat, dropPrefix?_append]
  simp only [Option.bind_eq_bind, Option.bind_some, hlex, hvalue.value, if_neg hne, if_true,
    readStream_written hlength]
  rfl

end Objects

/-! ### Files that were written -/

/-- An object as it stands in a file. -/
def objectChars (id : ℕ) (body : List Char) : List Char := header id ++ (body ++ "\nendobj\n".toList)

/-- The objects from a number on. -/
def objectsChars : ℕ → List (List Char) → List Char
  | _, [] => []
  | id, body :: bodies => objectChars id body ++ objectsChars (id + 1) bodies

/-- Where each of them begins. -/
def offsetsFrom : ℕ → ℕ → List (List Char) → List ℕ
  | _, _, [] => []
  | start, id, body :: bodies => start :: offsetsFrom (start + (objectChars id body).length) (id + 1) bodies

def tableChars (offsets : List ℕ) : List Char :=
  "xref\n0 ".toList ++ (Nat.toDigits 10 (offsets.length + 1) ++ ("\n0000000000 65535 f \n".toList ++
    offsets.flatMap entryChars))

lemma tableChars_append (offsets : List ℕ) (rest : List Char) :
    tableChars offsets ++ rest = "xref\n0 ".toList ++ (Nat.toDigits 10 (offsets.length + 1) ++
      ("\n0000000000 65535 f \n".toList ++ (offsets.flatMap entryChars ++ rest))) := by
  unfold tableChars
  simp only [List.append_assoc]

def trailerChars (pieces : List (Token × List Char)) (start : ℕ) : List Char :=
  "trailer\n".toList ++ (printed pieces ++ ("startxref\n".toList ++ (Nat.toDigits 10 start ++ "\n%%EOF".toList)))

section Files

variable {bodies : List (List Char)} {xs : List Indirect}

lemma length_offsetsFrom (start id : ℕ) (bodies : List (List Char)) :
    (offsetsFrom start id bodies).length = bodies.length := by
  induction bodies generalizing start id with
  | nil => rfl
  | cons body bodies ih => rw [offsetsFrom, List.length_cons, List.length_cons, ih]

lemma offsetsFrom_le (start id : ℕ) (bodies : List (List Char)) :
    ∀ offset ∈ offsetsFrom start id bodies, offset ≤ start + (objectsChars id bodies).length := by
  induction bodies generalizing start id with
  | nil => exact fun offset hoffset => absurd hoffset List.not_mem_nil
  | cons body bodies ih =>
    rw [offsetsFrom, objectsChars, List.length_append]
    refine List.forall_mem_cons.mpr ⟨Nat.le_add_right _ _, fun offset hoffset => ?_⟩
    have hle := ih _ _ offset hoffset
    omega

lemma readObjects_written (h : List.Forall₂ IsObject bodies xs) (rest : List Char) {cs : List Char} {start id : ℕ}
    (hat : cs.drop start = objectsChars id bodies ++ rest) :
    readObjects cs id (offsetsFrom start id bodies) = some xs := by
  induction h generalizing start id with
  | nil => rfl
  | cons hbody _ ih =>
    rename_i body x bodies xs _
    rw [objectsChars, List.append_assoc] at hat
    have hobject := hat
    rw [objectChars, List.append_assoc, List.append_assoc] at hobject
    rw [offsetsFrom, readObjects, hbody cs start id _ hobject]
    simp only [Option.bind_eq_bind, Option.bind_some, ih (drop_of_eq_append hat)]
    rfl

/-- The words of a trailer. -/
lemma readTrailer_written {pieces : List (Token × List Char)} {trailer : Object} (hvalue : Value pieces trailer)
    (hspaced : ∀ rest, Spaced pieces rest) (start : ℕ) : readTrailer (trailerChars pieces start) = some trailer := by
  have hlex := lexMany_stop ["startxref".toList] "startxref".toList
    ('\n' :: (Nat.toDigits 10 start ++ "\n%%EOF".toList)) (hspaced _) (hvalue.not_stop (by decide))
    (List.mem_singleton_self _) ⟨by decide, by decide, by decide⟩ (fun c hc => by cases hc; rfl)
    (length_lt_fuel (hspaced []) ("startxref\n".toList ++ (Nat.toDigits 10 start ++ "\n%%EOF".toList)))
  have hfirst : (trailerChars pieces start).dropPrefix? "trailer\n".toList = some (printed pieces ++
      ("startxref\n".toList ++ (Nat.toDigits 10 start ++ "\n%%EOF".toList))) := dropPrefix?_append ..
  have hwords : lexMany ["startxref".toList]
      ((printed pieces ++ ("startxref\n".toList ++ (Nat.toDigits 10 start ++ "\n%%EOF".toList))).length + 1)
      (printed pieces ++ ("startxref\n".toList ++ (Nat.toDigits 10 start ++ "\n%%EOF".toList))) = _ := hlex
  rw [readTrailer, hfirst]
  generalize printed pieces ++ ("startxref\n".toList ++ (Nat.toDigits 10 start ++ "\n%%EOF".toList)) = cs at hwords
  rw [Option.bind_eq_bind, Option.bind_some, hwords]
  simp only [Option.bind_eq_bind, Option.bind_some, if_true, hvalue.value]

/-- **A file that was written**, of less than ten thousand million bytes, is read. -/
theorem readChars_written (h : List.Forall₂ IsObject bodies xs) {prolog : List Char} (hprolog : "%PDF-".toList <+: prolog)
    {pieces : List (Token × List Char)} {trailer : Object} (hvalue : Value pieces trailer)
    (hspaced : ∀ rest, Spaced pieces rest)
    (hsize : trailer.get "Size".toList = some (.integer (bodies.length + 1)))
    (hbytes : (prolog ++ objectsChars 1 bodies).length < 10 ^ 10) :
    readChars (prolog ++ objectsChars 1 bodies ++ tableChars (offsetsFrom prolog.length 1 bodies) ++
        trailerChars pieces (prolog ++ objectsChars 1 bodies).length) =
      some { trailer, offsets := offsetsFrom prolog.length 1 bodies, objects := xs } := by
  generalize hstart : (prolog ++ objectsChars 1 bodies).length = start at hbytes ⊢
  generalize hcs : prolog ++ objectsChars 1 bodies ++ tableChars (offsetsFrom prolog.length 1 bodies) ++
    trailerChars pieces start = cs
  obtain ⟨version, rfl⟩ := hprolog
  have hfirst : cs.dropPrefix? "%PDF-".toList = some (version ++ (objectsChars 1 bodies ++
      (tableChars (offsetsFrom ("%PDF-".toList ++ version).length 1 bodies) ++ trailerChars pieces start))) := by
    rw [← hcs, List.append_assoc, List.append_assoc, List.append_assoc, dropPrefix?_append]
  have hend : readStart cs = some start := by
    have hform : cs = "%PDF-".toList ++ version ++ objectsChars 1 bodies ++
        tableChars (offsetsFrom ("%PDF-".toList ++ version).length 1 bodies) ++ ("trailer\n".toList ++ printed pieces) ++
        "startxref\n".toList ++ Nat.toDigits 10 start ++ "\n%%EOF".toList := by
      rw [← hcs]
      unfold trailerChars
      simp only [List.append_assoc]
    rw [hform]
    exact readStart_written _ start
  have htable : readXref (cs.drop start) =
      some (offsetsFrom ("%PDF-".toList ++ version).length 1 bodies, trailerChars pieces start) := by
    rw [← hcs, List.append_assoc, ← hstart, List.drop_left, tableChars_append]
    refine readXref_written (fun offset hoffset => ?_) _
    have hle := offsetsFrom_le _ _ _ offset hoffset
    rw [← List.length_append, hstart] at hle
    exact lt_of_le_of_lt hle hbytes
  have hobjects : readObjects cs 1 (offsetsFrom ("%PDF-".toList ++ version).length 1 bodies) = some xs := by
    refine readObjects_written h (tableChars (offsetsFrom ("%PDF-".toList ++ version).length 1 bodies) ++
      trailerChars pieces start) ?_
    rw [← hcs, List.append_assoc, List.append_assoc, List.drop_left]
  rw [readChars, hfirst]
  simp only [Option.bind_eq_bind, Option.bind_some, hend, htable, readTrailer_written hvalue hspaced, hsize,
    length_offsetsFrom, hobjects, if_true]
  rfl

end Files

/-! ### What is read -/

section Reading

lemma of_dropPrefix? {xs ys rest : List Char} (h : xs.dropPrefix? ys = some rest) : xs = ys ++ rest := by
  obtain ⟨before, heq, hbefore⟩ := List.dropPrefix?_eq_some_iff.mp h
  rw [heq, beq_iff_eq.mp hbefore]

lemma readStream_length {value : Object} {cs data : List Char} (h : readStream value cs = some data) :
    value.get "Length".toList = some (.integer data.length) := by
  obtain ⟨rest, -, h⟩ := Option.bind_eq_some_iff.mp h
  split at h
  · rename_i length hlength
    split_ifs at h with hlt
    obtain ⟨after, -, h⟩ := Option.bind_eq_some_iff.mp h
    obtain ⟨⟨ts, stop, more⟩, -, h⟩ := Option.bind_eq_some_iff.mp h
    dsimp only at h
    split_ifs at h
    cases h
    rw [hlength, List.length_take, min_eq_left (not_lt.mp hlt)]
    rfl
  · cases h

/-- An object that is read begins where it is said to, and its stream has the length that it says. -/
lemma readIndirect_sound {cs : List Char} {offset id : ℕ} {x : Indirect} (h : readIndirect cs offset id = some x) :
    header id <+: cs.drop offset ∧
      ∀ data, x.stream = some data → x.value.get "Length".toList = some (.integer data.length) := by
  obtain ⟨rest, hheader, h⟩ := Option.bind_eq_some_iff.mp h
  refine ⟨⟨rest, (of_dropPrefix? hheader).symm⟩, ?_⟩
  obtain ⟨⟨ts, stop, after⟩, -, h⟩ := Option.bind_eq_some_iff.mp h
  obtain ⟨value, -, h⟩ := Option.bind_eq_some_iff.mp h
  split_ifs at h
  · cases h
    exact fun data hdata => by cases hdata
  · obtain ⟨data, hstream, h⟩ := Option.bind_eq_some_iff.mp h
    cases h
    intro data' hdata
    cases hdata
    exact readStream_length hstream

lemma readObjects_sound {cs : List Char} {id : ℕ} {offsets : List ℕ} {xs : List Indirect}
    (h : readObjects cs id offsets = some xs) :
    offsets.length = xs.length ∧ (∀ k offset, offsets[k]? = some offset → header (id + k) <+: cs.drop offset) ∧
      ∀ x ∈ xs, ∀ data, x.stream = some data → x.value.get "Length".toList = some (.integer data.length) := by
  induction offsets generalizing id xs with
  | nil =>
    cases h
    exact ⟨rfl, fun k offset hk => (by cases hk), fun x hx => absurd hx List.not_mem_nil⟩
  | cons offset offsets ih =>
    obtain ⟨x, hx, h⟩ := Option.bind_eq_some_iff.mp h
    obtain ⟨xs, hxs, h⟩ := Option.bind_eq_some_iff.mp h
    cases h
    obtain ⟨hlength, hheaders, hstreams⟩ := ih hxs
    obtain ⟨hheader, hstream⟩ := readIndirect_sound hx
    refine ⟨congrArg (· + 1) hlength, fun k offset' hk => ?_, List.forall_mem_cons.mpr ⟨hstream, hstreams⟩⟩
    cases k with
    | zero =>
      cases hk
      exact hheader
    | succ k =>
      rw [Nat.add_comm k, ← Nat.add_assoc]
      exact hheaders k offset' hk

/-- **What is read of a file**: each entry of the table leads to the object with its number, and each stream has the
length that its object says. -/
theorem readFile_sound {bytes : List UInt8} {file : File} (h : readFile bytes = some file) :
    file.offsets.length = file.objects.length ∧
      (∀ k offset, file.offsets[k]? = some offset → header (k + 1) <+: (ofLatin1 bytes).drop offset) ∧
      ∀ x ∈ file.objects, ∀ data, x.stream = some data →
        x.value.get "Length".toList = some (.integer data.length) := by
  obtain ⟨-, -, h⟩ := Option.bind_eq_some_iff.mp h
  obtain ⟨start, -, h⟩ := Option.bind_eq_some_iff.mp h
  obtain ⟨⟨offsets, rest⟩, -, h⟩ := Option.bind_eq_some_iff.mp h
  obtain ⟨trailer, -, h⟩ := Option.bind_eq_some_iff.mp h
  split at h
  · split_ifs at h
    obtain ⟨xs, hxs, h⟩ := Option.bind_eq_some_iff.mp h
    cases h
    obtain ⟨hlength, hheaders, hstreams⟩ := readObjects_sound hxs
    refine ⟨hlength, fun k offset hk => ?_, hstreams⟩
    rw [Nat.add_comm]
    exact hheaders k offset hk
  · cases h

end Reading

end Tmis.Lib.Pdf
