import Tmis.Lib.JsonScan

/-!
# JSON texts

`json.dumps` writes a value into a text of printable ASCII characters, `json.loads` reads a text.

* `JsonValue`, `WellFormed` — the values, with the entries of an object in order;
* `dumps`, `loads`;
* `ReadsAs`, `readsAs_array`, `readsAs_object` — the texts that are read as a value, however they are spaced;
* `loads_dumps` — what was written is read.

The limit on the depth of a value is left out.
-/

namespace Tmis.Lib

/-- What JSON can write.  The entries of an object are those of a `dict`. -/
inductive JsonValue (F : Type) where
  | null
  | bool (b : Bool)
  | int (n : ℤ)
  | float (x : F)
  | str (s : String)
  | array (items : List (JsonValue F))
  | object (entries : List (String × JsonValue F))

namespace JsonValue

variable {F : Type}

/-- The values in which no object has a key twice. -/
inductive WellFormed : JsonValue F → Prop
  | null : WellFormed .null
  | bool (b : Bool) : WellFormed (.bool b)
  | int (n : ℤ) : WellFormed (.int n)
  | float (x : F) : WellFormed (.float x)
  | str (s : String) : WellFormed (.str s)
  | array {items : List (JsonValue F)} (hitems : ∀ x ∈ items, WellFormed x) : WellFormed (.array items)
  | object {entries : List (String × JsonValue F)} (hnodup : (entries.map Prod.fst).Nodup)
      (hentries : ∀ e ∈ entries, WellFormed e.2) : WellFormed (.object entries)

/-! ### Writing -/

variable [JsonFloat F]

open JsonFloat

/-- `floatstr`. -/
def floatText (x : F) : String :=
  if PyFloat.repr x = "nan" then "NaN"
  else if PyFloat.repr x = "inf" then "Infinity"
  else if PyFloat.repr x = "-inf" then "-Infinity"
  else PyFloat.repr x

mutual

def chars : JsonValue F → List Char
  | .null => "null".toList
  | .bool b => if b then "true".toList else "false".toList
  | .int n => intText n
  | .float x => (floatText x).toList
  | .str s => stringText s
  | .array items => '[' :: ([',', ' '].intercalate (itemChars items) ++ [']'])
  | .object entries => '\x7b' :: ([',', ' '].intercalate (entryChars entries) ++ ['\x7d'])

def itemChars : List (JsonValue F) → List (List Char)
  | [] => []
  | x :: items => x.chars :: itemChars items

def entryChars : List (String × JsonValue F) → List (List Char)
  | [] => []
  | (key, x) :: entries => (stringText key ++ ':' :: ' ' :: x.chars) :: entryChars entries

end

/-- `json.dumps`. -/
def dumps (v : JsonValue F) : String := String.ofList v.chars

/-! ### Reading -/

def isSpace (c : Char) : Bool := c = ' ' || c = '\t' || c = '\n' || c = '\r'

def skipSpace (cs : List Char) : List Char := cs.dropWhile isSpace

/-- A key, the colon after it, and the white space around the colon. -/
def scanKey : List Char → Option (String × List Char)
  | '"' :: cs =>
      (scanString cs).bind fun p =>
        match skipSpace p.2 with
        | ':' :: rest => some (p.1, skipSpace rest)
        | _ => none
  | _ => none

/-- A number with a fraction or an exponent is a `float`, one without is an `int`. -/
def ofNumber (n : ScannedNumber) : JsonValue F :=
  if n.more = [] then .int (readInt n.integer) else .float (ofText (String.ofList (n.integer ++ n.more)))

/-- The words that stand for a value. -/
def words : List (String × JsonValue F) :=
  [("null", .null), ("true", .bool true), ("false", .bool false), ("NaN", .float nan),
    ("Infinity", .float infinity), ("-Infinity", .float negInfinity)]

/-- A number or a word at the front of a text. -/
def scanScalar (cs : List Char) : Option (JsonValue F × List Char) :=
  match scanNumber cs with
  | some n => some (ofNumber n, n.rest)
  | none => (words.find? fun w => w.1.toList.isPrefixOf cs).map fun w => (w.2, cs.drop w.1.toList.length)

mutual

/-- `scan_once`: the value at the front of a text, and the text after it. -/
def scanOnce : ℕ → List Char → Option (JsonValue F × List Char)
  | 0, _ => none
  | _ + 1, [] => none
  | fuel + 1, c :: cs =>
      if c = '"' then (scanString cs).map fun p => (.str p.1, p.2)
      else if c = '[' then
        match skipSpace cs with
        | ']' :: rest => some (.array [], rest)
        | cs => (scanItems fuel cs).map fun p => (.array p.1, p.2)
      else if c = '\x7b' then
        match skipSpace cs with
        | '\x7d' :: rest => some (.object [], rest)
        | cs => (scanEntries fuel cs).map fun p => (.object (Dict.ofEntries p.1).entries, p.2)
      else scanScalar (c :: cs)

/-- The items of an array, at least one, up to the bracket that ends it. -/
def scanItems : ℕ → List Char → Option (List (JsonValue F) × List Char)
  | 0, _ => none
  | fuel + 1, cs =>
      match scanOnce fuel cs with
      | none => none
      | some (x, rest) =>
          match skipSpace rest with
          | ']' :: rest => some ([x], rest)
          | ',' :: rest => (scanItems fuel (skipSpace rest)).map fun p => (x :: p.1, p.2)
          | _ => none

/-- The pairs of an object, at least one, up to the brace that ends it. -/
def scanEntries : ℕ → List Char → Option (List (String × JsonValue F) × List Char)
  | 0, _ => none
  | fuel + 1, cs =>
      match scanKey cs with
      | none => none
      | some (key, rest) =>
          match scanOnce fuel rest with
          | none => none
          | some (x, rest) =>
              match skipSpace rest with
              | '\x7d' :: rest => some ([(key, x)], rest)
              | ',' :: rest => (scanEntries fuel (skipSpace rest)).map fun p => ((key, x) :: p.1, p.2)
              | _ => none

end

/-- `json.loads`; where there is no value, it raises a `JSONDecodeError`.  A step of the scanner that takes no
character is followed by one that does. -/
def loads (text : String) : Option (JsonValue F) :=
  (scanOnce (2 * text.length + 1) (skipSpace text.toList)).bind fun p =>
    if skipSpace p.2 = [] then some p.1 else none

/-! ### Texts that are read -/

/-- A character that begins neither a string nor an array nor an object begins a scalar. -/
lemma scanOnce_scalar {fuel : ℕ} {c : Char} {cs : List Char} {p : JsonValue F × List Char}
    (hc : c ≠ '"' ∧ c ≠ '[' ∧ c ≠ '\x7b') (h : scanScalar (c :: cs) = some p) :
    scanOnce (fuel + 1) (c :: cs) = some p := by
  rw [scanOnce, if_neg hc.1, if_neg hc.2.1, if_neg hc.2.2, h]

lemma scanOnce_number {fuel : ℕ} {cs rest integer more : List Char} (hrest : NumberEnds rest)
    (h : scanNumber cs = some ⟨integer, more, []⟩) :
    scanOnce (fuel + 1) (cs ++ rest) = some (ofNumber (F := F) ⟨integer, more, rest⟩, rest) := by
  cases cs with
  | nil => cases h
  | cons c cs =>
    have hchar := isNumberChar_of_scanNumber h
    have hscan : scanScalar (F := F) ((c :: cs) ++ rest) = some (ofNumber ⟨integer, more, rest⟩, rest) := by
      rw [scanScalar, scanNumber_append hrest h]
    refine scanOnce_scalar ⟨?_, ?_, ?_⟩ hscan
    · rintro rfl
      revert hchar
      decide
    · rintro rfl
      revert hchar
      decide
    · rintro rfl
      revert hchar
      decide

/-- A word is read as its value. -/
lemma scanScalar_word (rest : List Char) :
    ∀ w ∈ words (F := F), scanScalar (w.1.toList ++ rest) = some (w.2, rest) := by
  have hnull : "null".toList = ['n', 'u', 'l', 'l'] := by decide
  have htrue : "true".toList = ['t', 'r', 'u', 'e'] := by decide
  have hfalse : "false".toList = ['f', 'a', 'l', 's', 'e'] := by decide
  have hnan : "NaN".toList = ['N', 'a', 'N'] := by decide
  have hinf : "Infinity".toList = ['I', 'n', 'f', 'i', 'n', 'i', 't', 'y'] := by decide
  have hneg : "-Infinity".toList = ['-', 'I', 'n', 'f', 'i', 'n', 'i', 't', 'y'] := by decide
  simp [words, scanScalar, scanNumber, scanInteger, scanDigits, List.find?, List.isPrefixOf, hnull, htrue,
    hfalse, hnan, hinf, hneg]

/-- How the text of a value begins: with no white space, and with nothing that ends an array or an object. -/
def Opens (c : Char) : Prop := isSpace c = false ∧ c ≠ ']' ∧ c ≠ '\x7d'

instance : DecidablePred Opens := fun _ => inferInstanceAs (Decidable (_ ∧ _ ∧ _))

lemma exists_cons_of_mem_words {w : String × JsonValue F} (hw : w ∈ words) : ∃ c cs, w.1.toList = c :: cs ∧
    (c ≠ '"' ∧ c ≠ '[' ∧ c ≠ '\x7b') ∧ Opens c := by
  simp only [words, List.mem_cons, List.not_mem_nil, or_false] at hw
  rcases hw with rfl | rfl | rfl | rfl | rfl | rfl
  · exact ⟨'n', ['u', 'l', 'l'], by simp, by decide, by decide⟩
  · exact ⟨'t', ['r', 'u', 'e'], by simp, by decide, by decide⟩
  · exact ⟨'f', ['a', 'l', 's', 'e'], by simp, by decide, by decide⟩
  · exact ⟨'N', ['a', 'N'], by simp, by decide, by decide⟩
  · exact ⟨'I', ['n', 'f', 'i', 'n', 'i', 't', 'y'], by simp, by decide, by decide⟩
  · exact ⟨'-', ['I', 'n', 'f', 'i', 'n', 'i', 't', 'y'], by simp, by decide, by decide⟩

lemma scanOnce_word {fuel : ℕ} {w : String × JsonValue F} (hw : w ∈ words) (rest : List Char) :
    scanOnce (fuel + 1) (w.1.toList ++ rest) = some (w.2, rest) := by
  have hscan := scanScalar_word rest w hw
  obtain ⟨c, cs, hcs, hc, -⟩ := exists_cons_of_mem_words hw
  rw [hcs, List.cons_append] at hscan ⊢
  exact scanOnce_scalar hc hscan

lemma opens_of_isNumberChar {c : Char} (h : isNumberChar c = true) : Opens c := by
  refine ⟨?_, ?_, ?_⟩
  · by_contra hspace
    simp only [isSpace, Bool.not_eq_false, Bool.or_eq_true, decide_eq_true_eq] at hspace
    rcases hspace with ((rfl | rfl) | rfl) | rfl <;> revert h <;> decide
  · rintro rfl
    revert h
    decide
  · rintro rfl
    revert h
    decide

lemma exists_cons_of_scanNumber {cs : List Char} {n : ScannedNumber} (h : scanNumber cs = some n) :
    ∃ c cs', cs = c :: cs' ∧ Opens c := by
  cases cs with
  | nil => cases h
  | cons c cs => exact ⟨c, cs, rfl, opens_of_isNumberChar (isNumberChar_of_scanNumber h)⟩

/-- A float is written as a word, or as a number that reads back as it. -/
lemma floatText_cases (x : F) : (floatText x, JsonValue.float x) ∈ words ∨
    (IsFloatText (floatText x) ∧ ofText (floatText x) = x) := by
  rcases repr_cases x with ⟨hx, rfl⟩ | ⟨hx, rfl⟩ | ⟨hx, rfl⟩ | ⟨hx, hread⟩
  · exact Or.inl (by simp [floatText, hx, words])
  · exact Or.inl (by simp [floatText, hx, words])
  · exact Or.inl (by simp [floatText, hx, words])
  · have htext : floatText x = PyFloat.repr x := by
      unfold floatText
      split_ifs with hnan hinf hneg
      · exact absurd hx (not_isFloatText (by rw [hnan]; decide))
      · exact absurd hx (not_isFloatText (by rw [hinf]; decide))
      · exact absurd hx (not_isFloatText (by rw [hneg]; decide))
      · rfl
    rw [htext]
    exact Or.inr ⟨hx, hread⟩

lemma skipSpace_cons {c : Char} {cs : List Char} (h : isSpace c = false) : skipSpace (c :: cs) = c :: cs :=
  List.dropWhile_cons_of_neg (by simp [h])

/-- White space. -/
def Blank (gap : List Char) : Prop := ∀ c ∈ gap, isSpace c = true

lemma blank_nil : Blank [] := fun _ h => absurd h List.not_mem_nil

lemma blank_space : Blank [' '] := List.forall_mem_singleton.mpr rfl

lemma skipSpace_blank {gap : List Char} (h : Blank gap) (cs : List Char) :
    skipSpace (gap ++ cs) = skipSpace cs :=
  List.dropWhile_append_of_pos h

lemma numberEnds_blank {gap cs : List Char} (h : Blank gap) (hcs : NumberEnds cs) : NumberEnds (gap ++ cs) := by
  cases gap with
  | nil => exact hcs
  | cons c gap =>
    have hspace : isSpace c = true := h c List.mem_cons_self
    simp only [isSpace, Bool.or_eq_true, decide_eq_true_eq] at hspace
    refine numberEnds_cons ?_
    rcases hspace with ((rfl | rfl) | rfl) | rfl <;> decide

lemma numberEnds_comma (cs : List Char) : NumberEnds (',' :: cs) := numberEnds_cons (by decide)

lemma numberEnds_bracket (cs : List Char) : NumberEnds (']' :: cs) := numberEnds_cons (by decide)

lemma numberEnds_brace (cs : List Char) : NumberEnds ('\x7d' :: cs) := numberEnds_cons (by decide)

lemma skipSpace_comma (cs : List Char) : skipSpace (',' :: cs) = ',' :: cs := skipSpace_cons (by decide)

lemma skipSpace_bracket (cs : List Char) : skipSpace (']' :: cs) = ']' :: cs := skipSpace_cons (by decide)

lemma skipSpace_brace (cs : List Char) : skipSpace ('\x7d' :: cs) = '\x7d' :: cs := skipSpace_cons (by decide)

/-- A text that begins as those of values do, and that is read as this value. -/
structure ReadsAs (text : List Char) (x : JsonValue F) : Prop where
  opens : ∃ c cs, text = c :: cs ∧ Opens c
  scan : ∀ fuel rest, 2 * text.length + 1 ≤ fuel → NumberEnds rest →
    scanOnce fuel (text ++ rest) = some (x, rest)

lemma ReadsAs.skipSpace {text : List Char} {x : JsonValue F} (h : ReadsAs text x) (rest : List Char) :
    skipSpace (text ++ rest) = text ++ rest := by
  obtain ⟨c, cs, rfl, hopens⟩ := h.opens
  exact skipSpace_cons hopens.1

/-- A text that is all of a file. -/
lemma ReadsAs.loads {text : List Char} {x : JsonValue F} (h : ReadsAs text x) :
    loads (String.ofList text) = some x := by
  have hspace : JsonValue.skipSpace text = text := by simpa using h.skipSpace []
  have hscan := h.scan (2 * (String.ofList text).length + 1) [] (by simp) numberEnds_nil
  rw [List.append_nil] at hscan
  rw [JsonValue.loads, String.toList_ofList, hspace, hscan]
  rfl

/-! Scalars. -/

lemma readsAs_word {w : String × JsonValue F} (hw : w ∈ words) : ReadsAs w.1.toList w.2 where
  opens := by
    obtain ⟨c, cs, hcs, -, hopens⟩ := exists_cons_of_mem_words hw
    exact ⟨c, cs, hcs, hopens⟩
  scan := by
    rintro (_ | fuel) rest hfuel -
    · omega
    · exact scanOnce_word hw rest

lemma readsAs_bool (b : Bool) :
    ReadsAs (if b then "true".toList else "false".toList) (.bool b : JsonValue F) := by
  cases b
  · exact readsAs_word (w := ("false", .bool false)) (by simp [words])
  · exact readsAs_word (w := ("true", .bool true)) (by simp [words])

lemma readsAs_int (n : ℤ) : ReadsAs (intText n) (.int n : JsonValue F) where
  opens := exists_cons_of_scanNumber (scanNumber_intText n)
  scan := by
    rintro (_ | fuel) rest hfuel hrest
    · omega
    · rw [scanOnce_number hrest (scanNumber_intText n), ofNumber, if_pos rfl, readInt_intText]

lemma readsAs_float (x : F) : ReadsAs (floatText x).toList (.float x) := by
  rcases floatText_cases x with hword | ⟨⟨integer, more, hscan, hmore⟩, hread⟩
  · exact readsAs_word hword
  · refine ⟨exists_cons_of_scanNumber hscan, ?_⟩
    rintro (_ | fuel) rest hfuel hrest
    · omega
    · obtain ⟨htext, -⟩ := scanNumber_chars hscan
      rw [List.append_nil] at htext
      rw [scanOnce_number hrest hscan, ofNumber, if_neg hmore, ← htext, String.ofList_toList, hread]

/-- A text that is read as this string. -/
def ReadsString (text : List Char) (s : String) : Prop :=
  ∃ cs, text = '"' :: cs ∧ ∀ rest, scanString (cs ++ rest) = some (s, rest)

lemma readsString_of_written {escape : Char → List Char} {partsOf : Char → List StringPart}
    (h : Written escape partsOf) (s : String) : ReadsString ('"' :: (s.toList.flatMap escape ++ ['"'])) s :=
  ⟨_, rfl, fun rest => by rw [List.append_assoc, List.singleton_append, h.scanString]⟩

lemma readsAs_str {text : List Char} {s : String} (h : ReadsString text s) :
    ReadsAs text (.str s : JsonValue F) := by
  obtain ⟨cs, rfl, hscan⟩ := h
  refine ⟨⟨'"', cs, rfl, by decide⟩, ?_⟩
  rintro (_ | fuel) rest hfuel -
  · omega
  · rw [List.cons_append, scanOnce, if_pos rfl, hscan, Option.map_some]

/-! Arrays and objects: their texts with commas between them, and white space wherever it may stand. -/

/-- Joined texts begin as the first one does. -/
lemma exists_cons_intercalate (sep : List Char) (c : Char) (cs : List Char) (ts : List (List Char)) :
    ∃ more, sep.intercalate ((c :: cs) :: ts) = c :: more := by
  cases ts with
  | nil => exact ⟨cs, List.intercalate_singleton⟩
  | cons u ts => exact ⟨cs ++ sep ++ sep.intercalate (u :: ts), by simp [List.intercalate_cons_cons]⟩

section Enclosed

variable {lead gap tail : List Char}

/-- The items of an array are read one after the other. -/
lemma scanItems_intercalate (hgap : Blank gap) (htail : Blank tail) (rest : List Char) :
    ∀ {texts : List (List Char)} {items : List (JsonValue F)} {fuel : ℕ}, texts ≠ [] →
    List.Forall₂ ReadsAs texts items → 2 * ((',' :: gap).intercalate texts).length + 2 ≤ fuel →
    scanItems fuel ((',' :: gap).intercalate texts ++ (tail ++ ']' :: rest)) = some (items, rest)
  | [], _, _, hne, _, _ => absurd rfl hne
  | _, _, 0, _, _, hfuel => by omega
  | [text], [x], fuel + 1, _, .cons hread .nil, hfuel => by
      rw [List.intercalate_singleton] at hfuel ⊢
      rw [scanItems, hread.scan fuel _ (by omega) (numberEnds_blank htail (numberEnds_bracket rest))]
      dsimp only
      simp only [skipSpace_blank htail, skipSpace_bracket]
  | text :: text' :: texts, x :: y :: items, fuel + 1, _, .cons hx (.cons hy hitems), hfuel => by
      rw [List.intercalate_cons_cons] at hfuel ⊢
      simp only [List.length_append, List.length_cons] at hfuel
      have ih := scanItems_intercalate hgap htail rest (List.cons_ne_nil text' texts) (.cons hy hitems)
        (show 2 * ((',' :: gap).intercalate (text' :: texts)).length + 2 ≤ fuel by omega)
      simp only [List.append_assoc, List.cons_append]
      rw [scanItems, hx.scan fuel _ (by omega) (numberEnds_comma _)]
      simp only [skipSpace_comma]
      obtain ⟨c, cs, rfl, hopens⟩ := hy.opens
      obtain ⟨more, hmore⟩ := exists_cons_intercalate (',' :: gap) c cs texts
      rw [hmore] at ih ⊢
      rw [skipSpace_blank hgap, List.cons_append, skipSpace_cons hopens.1, ← List.cons_append, ih,
        Option.map_some]

/-- **An array is read**, if the texts of its items are. -/
lemma readsAs_array (hlead : Blank lead) (hgap : Blank gap) (htail : Blank tail) {texts : List (List Char)}
    {items : List (JsonValue F)} (h : List.Forall₂ ReadsAs texts items) :
    ReadsAs ('[' :: (lead ++ (',' :: gap).intercalate texts ++ tail ++ [']'])) (.array items) := by
  refine ⟨⟨'[', _, rfl, by decide⟩, ?_⟩
  rintro (_ | fuel) rest hfuel -
  · omega
  · simp only [List.length_cons, List.length_append, List.length_nil] at hfuel
    simp only [List.cons_append, List.append_assoc, List.nil_append]
    rw [scanOnce, if_neg (by decide), if_pos rfl, skipSpace_blank hlead]
    cases h with
    | nil =>
      simp only [List.intercalate_nil, List.nil_append, skipSpace_blank htail, skipSpace_bracket]
    | @cons text x texts items hx hitems =>
      have hscan := scanItems_intercalate hgap htail rest (List.cons_ne_nil text texts) (.cons hx hitems)
        (show 2 * ((',' :: gap).intercalate (text :: texts)).length + 2 ≤ fuel by omega)
      obtain ⟨c, cs, rfl, hopens⟩ := hx.opens
      obtain ⟨more, hmore⟩ := exists_cons_intercalate (',' :: gap) c cs texts
      rw [hmore, List.cons_append] at hscan ⊢
      rw [skipSpace_cons hopens.1]
      split
      · rename_i heq
        exact absurd (List.cons.inj heq).1 hopens.2.1
      · rw [hscan, Option.map_some]

/-- A text that is read as this pair of an object. -/
def ReadsEntry (text : List Char) (e : String × JsonValue F) : Prop :=
  ∃ key value, text = key ++ ':' :: ' ' :: value ∧ ReadsString key e.1 ∧ ReadsAs value e.2

lemma scanKey_append {key value : List Char} {name : String} {x : JsonValue F} (hkey : ReadsString key name)
    (hvalue : ReadsAs value x) (rest : List Char) :
    scanKey (key ++ ':' :: ' ' :: (value ++ rest)) = some (name, value ++ rest) := by
  obtain ⟨cs, rfl, hscan⟩ := hkey
  rw [List.cons_append, scanKey, hscan, Option.bind_some]
  dsimp only
  rw [skipSpace_cons (by decide)]
  show some (name, skipSpace ([' '] ++ (value ++ rest))) = _
  rw [skipSpace_blank blank_space, hvalue.skipSpace]

/-- The pairs of an object are read one after the other. -/
lemma scanEntries_intercalate (hgap : Blank gap) (htail : Blank tail) (rest : List Char) :
    ∀ {texts : List (List Char)} {entries : List (String × JsonValue F)} {fuel : ℕ}, texts ≠ [] →
    List.Forall₂ ReadsEntry texts entries → 2 * ((',' :: gap).intercalate texts).length + 2 ≤ fuel →
    scanEntries fuel ((',' :: gap).intercalate texts ++ (tail ++ '\x7d' :: rest)) = some (entries, rest)
  | [], _, _, hne, _, _ => absurd rfl hne
  | _, _, 0, _, _, hfuel => by omega
  | [_], [e], fuel + 1, _, .cons ⟨key, value, rfl, hkey, hvalue⟩ .nil, hfuel => by
      rw [List.intercalate_singleton] at hfuel ⊢
      simp only [List.length_append, List.length_cons] at hfuel
      simp only [List.append_assoc, List.cons_append]
      rw [scanEntries, scanKey_append hkey hvalue]
      dsimp only
      rw [hvalue.scan fuel _ (by omega) (numberEnds_blank htail (numberEnds_brace rest))]
      dsimp only
      simp only [skipSpace_blank htail, skipSpace_brace]
  | _ :: text' :: texts, e :: e' :: entries, fuel + 1, _,
      .cons ⟨key, value, rfl, hkey, hvalue⟩ (.cons he' hentries), hfuel => by
      rw [List.intercalate_cons_cons] at hfuel ⊢
      simp only [List.length_append, List.length_cons] at hfuel
      have ih := scanEntries_intercalate hgap htail rest (List.cons_ne_nil text' texts) (.cons he' hentries)
        (show 2 * ((',' :: gap).intercalate (text' :: texts)).length + 2 ≤ fuel by omega)
      simp only [List.append_assoc, List.cons_append]
      rw [scanEntries, scanKey_append hkey hvalue]
      dsimp only
      rw [hvalue.scan fuel _ (by omega) (numberEnds_comma _)]
      simp only [skipSpace_comma]
      obtain ⟨_, value', rfl, ⟨cs, rfl, -⟩, -⟩ := he'
      rw [List.cons_append] at ih ⊢
      obtain ⟨more, hmore⟩ := exists_cons_intercalate (',' :: gap) '"' (cs ++ ':' :: ' ' :: value') texts
      rw [hmore] at ih ⊢
      rw [skipSpace_blank hgap, List.cons_append, skipSpace_cons (by decide), ← List.cons_append, ih,
        Option.map_some]

/-- **An object is read**, if no key stands twice in it and the texts of its pairs are read. -/
lemma readsAs_object (hlead : Blank lead) (hgap : Blank gap) (htail : Blank tail) {texts : List (List Char)}
    {entries : List (String × JsonValue F)} (hnodup : (entries.map Prod.fst).Nodup)
    (h : List.Forall₂ ReadsEntry texts entries) :
    ReadsAs ('\x7b' :: (lead ++ (',' :: gap).intercalate texts ++ tail ++ ['\x7d'])) (.object entries) := by
  refine ⟨⟨'\x7b', _, rfl, by decide⟩, ?_⟩
  rintro (_ | fuel) rest hfuel -
  · omega
  · simp only [List.length_cons, List.length_append, List.length_nil] at hfuel
    simp only [List.cons_append, List.append_assoc, List.nil_append]
    rw [scanOnce, if_neg (by decide), if_neg (by decide), if_pos rfl, skipSpace_blank hlead]
    cases h with
    | nil =>
      simp only [List.intercalate_nil, List.nil_append, skipSpace_blank htail, skipSpace_brace]
    | @cons text e texts entries he hentries =>
      have hscan := scanEntries_intercalate hgap htail rest (List.cons_ne_nil text texts) (.cons he hentries)
        (show 2 * ((',' :: gap).intercalate (text :: texts)).length + 2 ≤ fuel by omega)
      obtain ⟨_, value, rfl, ⟨cs, rfl, -⟩, -⟩ := he
      rw [List.cons_append] at hscan ⊢
      obtain ⟨more, hmore⟩ := exists_cons_intercalate (',' :: gap) '"' (cs ++ ':' :: ' ' :: value) texts
      rw [hmore, List.cons_append] at hscan ⊢
      rw [skipSpace_cons (by decide)]
      split
      · rename_i heq
        exact absurd (List.cons.inj heq).1 (by decide)
      · rw [hscan, Option.map_some, Dict.entries_ofEntries hnodup]

end Enclosed

/-! ### What is written is read -/

lemma forall₂_itemChars : ∀ {items : List (JsonValue F)}, (∀ x ∈ items, ReadsAs x.chars x) →
    List.Forall₂ ReadsAs (itemChars items) items
  | [], _ => .nil
  | x :: _, h => by
      obtain ⟨hx, hitems⟩ := List.forall_mem_cons.mp h
      exact .cons hx (forall₂_itemChars hitems)

lemma forall₂_entryChars : ∀ {entries : List (String × JsonValue F)}, (∀ e ∈ entries, ReadsAs e.2.chars e.2) →
    List.Forall₂ ReadsEntry (entryChars entries) entries
  | [], _ => .nil
  | e :: _, h => by
      obtain ⟨he, hentries⟩ := List.forall_mem_cons.mp h
      exact .cons ⟨stringText e.1, e.2.chars, rfl, readsString_of_written written_escape e.1, he⟩
        (forall₂_entryChars hentries)

/-- Every well-formed value is read off the front of a text that begins with its own. -/
lemma reads_of_wellFormed {v : JsonValue F} (h : WellFormed v) : ReadsAs v.chars v := by
  induction h with
  | null => exact readsAs_word (w := ("null", .null)) (by simp [words])
  | bool b => exact readsAs_bool b
  | int n => exact readsAs_int n
  | float x => exact readsAs_float x
  | str s => exact readsAs_str (readsString_of_written written_escape s)
  | array _ ih =>
    have hread := readsAs_array blank_nil blank_space blank_nil (forall₂_itemChars ih)
    rwa [List.nil_append, List.append_nil] at hread
  | object hnodup _ ih =>
    have hread := readsAs_object blank_nil blank_space blank_nil hnodup (forall₂_entryChars ih)
    rwa [List.nil_append, List.append_nil] at hread

/-- **The round trip of a value** in which no object has a key twice. -/
theorem loads_dumps {v : JsonValue F} (h : WellFormed v) : loads v.dumps = some v :=
  (reads_of_wellFormed h).loads

end JsonValue

end Tmis.Lib
