import Tmis.Lib.JsonText

/-!
# JSON texts in other formats

`json.dumps` with `ensure_ascii` and `indent`: the items of an array and the entries of an object stand on
lines of their own, which are indented by their depth.

* `JsonFormat`, `dumpsAs` — the formats, and what is written in them;
* `loads_dumpsAs` — what was written is read, whatever the format.
-/

namespace Tmis.Lib

/-- What `json.dumps` is told: whether its text keeps to ASCII, and by how much its lines are indented. -/
structure JsonFormat where
  ensureAscii : Bool := true
  indent : Option ℕ := none

namespace JsonFormat

variable (format : JsonFormat)

/-- A new line at a depth, where there are lines. -/
def newline (depth : ℕ) : List Char :=
  match format.indent with
  | none => []
  | some width => '\n' :: List.replicate (width * depth) ' '

/-- What stands after the comma between two items. -/
def gap (depth : ℕ) : List Char :=
  match format.indent with
  | none => [' ']
  | some _ => format.newline depth

/-- The texts of an array or an object at a depth, between its brackets. -/
def enclose (depth : ℕ) (opening closing : Char) (texts : List (List Char)) : List Char :=
  if texts = [] then [opening, closing]
  else opening :: (format.newline (depth + 1) ++ (',' :: format.gap (depth + 1)).intercalate texts ++
    format.newline depth ++ [closing])

/-- The text of a string. -/
def stringText (s : String) : List Char := if format.ensureAscii then Lib.stringText s else basicStringText s

open JsonValue (Blank blank_nil blank_space ReadsString readsString_of_written)

lemma blank_newline (depth : ℕ) : Blank (format.newline depth) := by
  unfold newline
  split
  · exact blank_nil
  · refine List.forall_mem_cons.mpr ⟨rfl, fun c hc => ?_⟩
    rw [List.eq_of_mem_replicate hc]
    rfl

lemma blank_gap (depth : ℕ) : Blank (format.gap depth) := by
  unfold gap
  split
  · exact blank_space
  · exact format.blank_newline depth

lemma readsString_stringText (s : String) : ReadsString (format.stringText s) s := by
  unfold stringText
  split_ifs
  · exact readsString_of_written written_escape s
  · exact readsString_of_written written_escapeBasic s

end JsonFormat

namespace JsonValue

variable {F : Type} [JsonFloat F] (format : JsonFormat)

mutual

/-- The text of a value at a depth. -/
def textAt (depth : ℕ) : JsonValue F → List Char
  | .str s => format.stringText s
  | .array items => format.enclose depth '[' ']' (itemTexts (depth + 1) items)
  | .object entries => format.enclose depth '\x7b' '\x7d' (entryTexts (depth + 1) entries)
  | x => x.chars

def itemTexts (depth : ℕ) : List (JsonValue F) → List (List Char)
  | [] => []
  | x :: items => x.textAt depth :: itemTexts depth items

def entryTexts (depth : ℕ) : List (String × JsonValue F) → List (List Char)
  | [] => []
  | (key, x) :: entries => (format.stringText key ++ ':' :: ' ' :: x.textAt depth) :: entryTexts depth entries

end

/-- `json.dumps` in a format. -/
def dumpsAs (v : JsonValue F) : String := String.ofList (v.textAt format 0)

lemma enclose_default (depth : ℕ) (opening closing : Char) (texts : List (List Char)) :
    JsonFormat.enclose {} depth opening closing texts = opening :: ([',', ' '].intercalate texts ++ [closing]) := by
  unfold JsonFormat.enclose
  split_ifs with hnone
  · rw [hnone]
    rfl
  · simp [JsonFormat.newline, JsonFormat.gap]

mutual

lemma textAt_default (depth : ℕ) : ∀ v : JsonValue F, v.textAt {} depth = v.chars
  | .null | .bool _ | .int _ | .float _ | .str _ => rfl
  | .array items => by rw [textAt, enclose_default, itemTexts_default, chars]
  | .object entries => by rw [textAt, enclose_default, entryTexts_default, chars]

lemma itemTexts_default (depth : ℕ) : ∀ items : List (JsonValue F), itemTexts {} depth items = itemChars items
  | [] => rfl
  | x :: items => by rw [itemTexts, textAt_default, itemTexts_default, itemChars]

lemma entryTexts_default (depth : ℕ) : ∀ entries : List (String × JsonValue F),
    entryTexts {} depth entries = entryChars entries
  | [] => rfl
  | (key, x) :: entries => by
      rw [entryTexts, textAt_default, entryTexts_default, entryChars]
      rfl

end

/-- The format of `dumps`. -/
theorem dumpsAs_default (v : JsonValue F) : v.dumpsAs {} = v.dumps := by
  rw [dumpsAs, textAt_default, dumps]

variable {format}

lemma forall₂_itemTexts {depth : ℕ} : ∀ {items : List (JsonValue F)},
    (∀ x ∈ items, ReadsAs (x.textAt format depth) x) → List.Forall₂ ReadsAs (itemTexts format depth items) items
  | [], _ => .nil
  | x :: _, h => by
      obtain ⟨hx, hitems⟩ := List.forall_mem_cons.mp h
      exact .cons hx (forall₂_itemTexts hitems)

lemma forall₂_entryTexts {depth : ℕ} : ∀ {entries : List (String × JsonValue F)},
    (∀ e ∈ entries, ReadsAs (e.2.textAt format depth) e.2) →
    List.Forall₂ ReadsEntry (entryTexts format depth entries) entries
  | [], _ => .nil
  | e :: _, h => by
      obtain ⟨he, hentries⟩ := List.forall_mem_cons.mp h
      exact .cons ⟨_, _, rfl, format.readsString_stringText e.1, he⟩ (forall₂_entryTexts hentries)

lemma readsAs_textAt {v : JsonValue F} (h : WellFormed v) : ∀ depth, ReadsAs (v.textAt format depth) v := by
  induction h with
  | null => exact fun _ => reads_of_wellFormed .null
  | bool b => exact fun _ => reads_of_wellFormed (.bool b)
  | int n => exact fun _ => reads_of_wellFormed (.int n)
  | float x => exact fun _ => reads_of_wellFormed (.float x)
  | str s => exact fun _ => readsAs_str (format.readsString_stringText s)
  | @array items _ ih =>
    intro depth
    have hitems := forall₂_itemTexts fun x hx => ih x hx (depth + 1)
    rw [textAt, JsonFormat.enclose]
    split_ifs with hnone
    · rw [hnone] at hitems
      exact readsAs_array blank_nil blank_nil blank_nil hitems
    · exact readsAs_array (format.blank_newline _) (format.blank_gap _) (format.blank_newline _) hitems
  | @object entries hnodup _ ih =>
    intro depth
    have hentries := forall₂_entryTexts fun e he => ih e he (depth + 1)
    rw [textAt, JsonFormat.enclose]
    split_ifs with hnone
    · rw [hnone] at hentries
      exact readsAs_object blank_nil blank_nil blank_nil hnodup hentries
    · exact readsAs_object (format.blank_newline _) (format.blank_gap _) (format.blank_newline _) hnodup hentries

/-- **The round trip of a value**, in whatever format it was written. -/
theorem loads_dumpsAs {v : JsonValue F} (h : WellFormed v) : loads (v.dumpsAs format) = some v :=
  (readsAs_textAt h 0).loads

example : (JsonValue.object [("champ", .str "é\n"), ("pas", .array [.int 1, .null]), ("vide", .array [])] :
    JsonValue WholeFloat).dumpsAs ⟨false, some 2⟩ =
    "\x7b\n  \"champ\": \"é\\n\",\n  \"pas\": [\n    1,\n    null\n  ],\n  \"vide\": []\n\x7d" := by
  decide +kernel

end JsonValue

end Tmis.Lib
