import Mathlib.Data.List.Basic

/-!
# Rows of texts in CSV

`csv.writer` and `csv.reader`, in the dialect they have by default: a field is quoted where it has to be, a
quote is written twice in quotes, and a row ends with `\r\n`.

* `fieldChars`, `rowChars`, `write`, `writeDicts` — rows, written;
* `Reading`, `step`, `read` — the reader, a state machine that is given one character after the other;
* `foldl_fieldChars`, `foldl_rowChars` — what it does with a field and with a row;
* `read_write`, `read_writeDicts` — what is written is read, whatever the texts are.
-/

namespace Tmis.Lib.Csv

/-! ### Writing -/

/-- The characters for which a field is quoted. -/
def special : List Char := [',', '"', '\r', '\n']

def double (c : Char) : List Char := if c = '"' then ['"', '"'] else [c]

/-- A field, quoted where it has to be. -/
def fieldChars (field : List Char) : List Char :=
  if field.any (· ∈ special) then '"' :: (field.flatMap double ++ ['"']) else field

/-- `writerow`.  Where an empty field is all there is, it is quoted: an empty line is a row of no fields. -/
def rowChars (row : List (List Char)) : List Char :=
  (if row = [[]] then ['"', '"'] else [','].intercalate (row.map fieldChars)) ++ ['\r', '\n']

/-- `writerows`. -/
def write (rows : List (List String)) : String :=
  String.ofList (rows.flatMap fun row => rowChars (row.map String.toList))

/-- `DictWriter`, after `writeheader` and a `writerow` of each dictionary, none of which has another key. -/
def writeDicts (fieldnames : List String) (rows : List (List (String × String))) : String :=
  write (fieldnames :: rows.map fun row => fieldnames.map fun name => (row.lookup name).getD "")

/-! ### Reading -/

inductive State where
  | startRecord | startField | inField | inQuotedField | quoteInQuotedField | eatCrnl
  deriving DecidableEq

/-- Where the reader is: what it has of the field, of the row and of the file. -/
structure Reading where
  state : State := .startRecord
  field : List Char := []
  row : List (List Char) := []
  rows : List (List (List Char)) := []

def isNewline (c : Char) : Bool := c = '\r' || c = '\n'

namespace Reading

variable (r : Reading)

def addChar (c : Char) (state : State) : Reading := { r with state, field := r.field ++ [c] }

/-- The field is at its end. -/
def saveField : Reading := { r with state := .startField, field := [], row := r.row ++ [r.field] }

/-- The row is at its end; what ends it may be two characters. -/
def endRow (c : Char) : Reading :=
  { state := if c = '\r' then .eatCrnl else .startRecord, rows := r.rows ++ [r.row] }

/-- A character of a field that is not in quotes, or no longer. -/
def stepField (c : Char) : Reading :=
  if isNewline c then r.saveField.endRow c
  else if c = ',' then r.saveField
  else r.addChar c .inField

def stepStart (c : Char) : Reading := if c = '"' then { r with state := .inQuotedField } else r.stepField c

def stepRecord (c : Char) : Reading := if isNewline c then r.endRow c else r.stepStart c

def step (c : Char) : Reading :=
  match r.state with
  | .startRecord => r.stepRecord c
  | .startField => r.stepStart c
  | .inField => r.stepField c
  | .inQuotedField =>
      if c = '"' then { r with state := .quoteInQuotedField } else r.addChar c .inQuotedField
  | .quoteInQuotedField => if c = '"' then r.addChar c .inQuotedField else r.stepField c
  | .eatCrnl => if c = '\n' then { r with state := .startRecord } else r.stepRecord c

/-- The rows, once the file is at its end. -/
def result : List (List (List Char)) :=
  if r.state = .startRecord ∨ r.state = .eatCrnl then r.rows else r.rows ++ [r.row ++ [r.field]]

end Reading

/-- `list(csv.reader(...))`, with no limit to the length of a field. -/
def read (text : String) : List (List String) :=
  (text.toList.foldl Reading.step {}).result.map fun row => row.map String.ofList

/-! ### What is written is read -/

section RoundTrip

variable {field : List Char} {row : List (List Char)} {rows : List (List (List Char))} {s : State}

lemma notMem_special {c : Char} (h : c ∉ special) : c ≠ '"' ∧ c ≠ ',' ∧ isNewline c = false := by
  simp only [special, List.mem_cons, List.not_mem_nil, or_false, not_or] at h
  obtain ⟨hcomma, hquote, hcr, hnl⟩ := h
  exact ⟨hquote, hcomma, by simp [isNewline, hcr, hnl]⟩

lemma stepField_plain {c : Char} (h : c ∉ special) (r : Reading) : r.stepField c = r.addChar c .inField := by
  obtain ⟨-, hcomma, hnewline⟩ := notMem_special h
  rw [Reading.stepField, hnewline, if_neg Bool.false_ne_true, if_neg hcomma]

/-- A field goes on as it is written. -/
lemma foldl_plain (hplain : ∀ c ∈ field, c ∉ special) (before : List Char) :
    field.foldl Reading.step ⟨.inField, before, row, rows⟩ = ⟨.inField, before ++ field, row, rows⟩ := by
  induction field generalizing before with
  | nil => rw [List.append_nil]; rfl
  | cons c field ih =>
    obtain ⟨hc, hfield⟩ := List.forall_mem_cons.mp hplain
    have hstep : (⟨.inField, before, row, rows⟩ : Reading).step c = ⟨.inField, before ++ [c], row, rows⟩ :=
      stepField_plain hc _
    rw [List.foldl_cons, hstep, ih hfield, List.append_assoc]
    rfl

/-- In quotes, too, and a quote is there twice. -/
lemma foldl_double (field before : List Char) :
    (field.flatMap double).foldl Reading.step ⟨.inQuotedField, before, row, rows⟩ =
      ⟨.inQuotedField, before ++ field, row, rows⟩ := by
  induction field generalizing before with
  | nil => rw [List.append_nil]; rfl
  | cons c field ih =>
    have hstep : (double c).foldl Reading.step ⟨.inQuotedField, before, row, rows⟩ =
        ⟨.inQuotedField, before ++ [c], row, rows⟩ := by
      unfold double
      split_ifs with hc
      · rw [hc]
        rfl
      · simp [Reading.step, Reading.addChar, hc]
    rw [List.flatMap_cons, List.foldl_append, hstep, ih, List.append_assoc]
    rfl

/-- The state after a field that began in `s`. -/
def afterField (s : State) (field : List Char) : State :=
  if field.any (· ∈ special) then .quoteInQuotedField else if field = [] then s else .inField

/-- A field may begin. -/
def State.Begins (s : State) : Prop := s = .startRecord ∨ s = .startField

lemma step_quote (hs : s.Begins) :
    (⟨s, [], row, rows⟩ : Reading).step '"' = ⟨.inQuotedField, [], row, rows⟩ := by
  rcases hs with rfl | rfl <;> rfl

lemma step_first (hs : s.Begins) {c : Char} (hc : c ∉ special) :
    (⟨s, [], row, rows⟩ : Reading).step c = ⟨.inField, [c], row, rows⟩ := by
  obtain ⟨hquote, -, hnewline⟩ := notMem_special hc
  have hfield : (⟨s, [], row, rows⟩ : Reading).stepField c = ⟨.inField, [c], row, rows⟩ := stepField_plain hc _
  rcases hs with rfl | rfl
  · simp only [Reading.step, Reading.stepRecord, Reading.stepStart, hnewline, if_neg hquote, hfield]
    rfl
  · simp only [Reading.step, Reading.stepStart, if_neg hquote, hfield]

/-- **A field is read as it was**, in quotes or not. -/
theorem foldl_fieldChars (hs : s.Begins) (field : List Char) :
    (fieldChars field).foldl Reading.step ⟨s, [], row, rows⟩ = ⟨afterField s field, field, row, rows⟩ := by
  unfold fieldChars afterField
  split_ifs with hspecial hnil
  · rw [List.foldl_cons, step_quote hs, List.foldl_append, foldl_double]
    rfl
  · rw [hnil]
    rfl
  · obtain ⟨c, cs, rfl⟩ := List.exists_cons_of_ne_nil hnil
    have hplain : ∀ d ∈ c :: cs, d ∉ special := fun d hd hmem =>
      hspecial (List.any_eq_true.mpr ⟨d, hd, decide_eq_true hmem⟩)
    obtain ⟨hc, hcs⟩ := List.forall_mem_cons.mp hplain
    rw [List.foldl_cons, step_first hs hc, foldl_plain hcs]
    rfl

lemma step_comma (hs : s.Begins) :
    (⟨afterField s field, field, row, rows⟩ : Reading).step ',' = ⟨.startField, [], row ++ [field], rows⟩ := by
  unfold afterField
  split_ifs with hspecial hnil
  · rfl
  · rcases hs with rfl | rfl <;> rfl
  · rfl

/-- The end of a row, unless nothing was written of it. -/
lemma foldl_newline (hs : s.Begins) (h : s = .startRecord → field ≠ []) :
    ['\r', '\n'].foldl Reading.step ⟨afterField s field, field, row, rows⟩ =
      ⟨.startRecord, [], [], rows ++ [row ++ [field]]⟩ := by
  unfold afterField
  split_ifs with hspecial hnil
  · rfl
  · rcases hs with rfl | rfl
    · exact absurd hnil (h rfl)
    · rfl
  · rfl

lemma foldl_fields (hs : s.Begins) (fields : List (List Char)) (h : s = .startRecord → field :: fields ≠ [[]]) :
    ([','].intercalate ((field :: fields).map fieldChars) ++ ['\r', '\n']).foldl Reading.step ⟨s, [], row, rows⟩ =
      ⟨.startRecord, [], [], rows ++ [row ++ field :: fields]⟩ := by
  induction fields generalizing field row s with
  | nil =>
    have hne : s = .startRecord → field ≠ [] := fun hstart hnil => h hstart (by rw [hnil])
    rw [List.map_singleton, List.intercalate_singleton, List.foldl_append, foldl_fieldChars hs, foldl_newline hs hne]
  | cons next fields ih =>
    have hrest : ([','].intercalate ((next :: fields).map fieldChars) ++ ['\r', '\n']).foldl Reading.step
        ⟨.startField, [], row ++ [field], rows⟩ = ⟨.startRecord, [], [], rows ++ [row ++ [field] ++ next :: fields]⟩ :=
      ih (Or.inr rfl) nofun
    rw [List.map_cons, List.map_cons, List.intercalate_cons_cons, List.append_assoc, List.append_assoc,
      List.foldl_append, foldl_fieldChars hs, List.singleton_append, List.foldl_cons, step_comma hs, ← List.map_cons,
      hrest, List.append_assoc]
    rfl

/-- **A row is read as it was.** -/
theorem foldl_rowChars (row : List (List Char)) (rows : List (List (List Char))) :
    (rowChars row).foldl Reading.step { rows := rows } = { rows := rows ++ [row] } := by
  unfold rowChars
  split_ifs with hlone
  · rw [hlone]
    rfl
  · cases row with
    | nil => rfl
    | cons field fields => exact foldl_fields (Or.inl rfl) fields fun _ => hlone

lemma foldl_rows (written rows : List (List (List Char))) :
    (written.flatMap rowChars).foldl Reading.step { rows := rows } = { rows := rows ++ written } := by
  induction written generalizing rows with
  | nil => rw [List.append_nil]; rfl
  | cons row written ih =>
    rw [List.flatMap_cons, List.foldl_append, foldl_rowChars, ih, List.append_assoc]
    rfl

/-- **What is written is read**: the same rows, of the same fields, whatever characters these are. -/
theorem read_write (rows : List (List String)) : read (write rows) = rows := by
  have hmap : rows.flatMap (fun row => rowChars (row.map String.toList)) =
      (rows.map fun row => row.map String.toList).flatMap rowChars := (List.flatMap_map ..).symm
  have hrows := foldl_rows (rows.map fun row => row.map String.toList) []
  rw [List.nil_append] at hrows
  rw [read, write, String.toList_ofList, hmap, hrows]
  simp [Reading.result, Function.comp_def]

/-- What `DictWriter` writes is read as the names of the fields, and a row for each dictionary. -/
theorem read_writeDicts {E : Type*} {fieldnames : List String} (dict : E → List (String × String))
    (texts : E → List String) (h : ∀ e, (fieldnames.map fun name => ((dict e).lookup name).getD "") = texts e)
    (entries : List E) : read (writeDicts fieldnames (entries.map dict)) = fieldnames :: entries.map texts := by
  rw [writeDicts, read_write, List.map_map]
  exact congrArg _ (List.map_congr_left fun e _ => h e)

/-- The rows with a value in a column are those of the entries that have it. -/
lemma filter_map_texts {E : Type*} (texts : E → List String) (column : ℕ) (field : E → String)
    (h : ∀ e, (texts e)[column]? = some (field e)) (entries : List E) (value : String) :
    (entries.map texts).filter (fun row => row[column]? = some value) =
      (entries.filter fun e => field e = value).map texts := by
  rw [List.filter_map]
  refine congrArg _ (List.filter_congr fun e _ => ?_)
  rw [Function.comp_apply, h]
  exact decide_eq_decide.mpr Option.some_inj

end RoundTrip

end Tmis.Lib.Csv
