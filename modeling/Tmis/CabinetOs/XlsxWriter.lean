import Tmis.Lib.BijectiveBase
import Tmis.Lib.FloatText
import Tmis.Lib.MarkupText

/-!
# Spreadsheets

`cabinet_os.reports.xlsx_writer`: the worksheet of a table.  A cell is a number if `float` can read its
text, and an inline string otherwise.

* `columnRef` — the letters of a column;
* `cellXml`, `sheetXml` — the cells, and the worksheet around them;
* `columnRef_lt_iff` — columns are ordered as their letters are;
* `Cell.Faithful` — what a cell must hold;
* `faithful_iff` — a cell does iff `float` cannot read its text, or the text is plain;
* `sheet_faithful_iff` — the same of all cells of a table.
-/

namespace Tmis.CabinetOs.XlsxWriter

open Tmis.Lib Tmis.Lib.FloatText Tmis.Lib.XmlText

/-! ### Columns -/

def columnLetters : String := "ABCDEFGHIJKLMNOPQRSTUVWXYZ"

def columnLetter (remainder : ℕ) : Char := columnLetters.toList.getD remainder 'A'

/-- The loop of `_column_ref`. -/
def columnLoop (index : ℕ) (letters : List Char) : List Char :=
  if index = 0 then letters
  else columnLoop ((index - 1) / 26) (columnLetter ((index - 1) % 26) :: letters)
termination_by index
decreasing_by omega

/-- `_column_ref`. -/
def columnRef (index : ℤ) : String := String.ofList (columnLoop (index + 1).toNat [])

/-! ### Cells -/

/-- A value of a table. -/
inductive CellValue (doubles : Doubles) where
  | text (s : String)
  | int (n : ℤ)
  | float (x : doubles.Double)

/-- A value in its place. -/
structure Cell (doubles : Doubles) where
  column : ℕ
  row : ℕ
  value : CellValue doubles

def inlineCell (ref text : String) : String :=
  "<c r=\"" ++ ref ++ "\" t=\"inlineStr\"><is><t>" ++ text ++ "</t></is></c>"

def numericCell (ref text : String) : String := "<c r=\"" ++ ref ++ "\"><v>" ++ text ++ "</v></c>"

/-- `_cell_xml`. -/
def cellXml (table : CharTable) (column row : ℕ) (value : String) : String :=
  let ref := columnRef column ++ toString row
  match pyFloat table value with
  | none => inlineCell ref (escape value)
  | some _ => numericCell ref (escape value)

section Sheet

variable {doubles : Doubles} (table : CharTable)

/-- `str(value)`. -/
def CellValue.str : CellValue doubles → String
  | .text s => s
  | .int n => toString n
  | .float x => doubles.repr x

namespace Cell

variable (cell : Cell doubles)

def ref : String := columnRef cell.column ++ toString cell.row

def xml : String := cellXml table cell.column cell.row cell.value.str

end Cell

/-- The cells of a row. -/
def rowCells (rowIndex : ℕ) (row : List (CellValue doubles)) : List (Cell doubles) :=
  row.zipIdx.map fun (value, column) => ⟨column, rowIndex, value⟩

/-- The cells of a table, the headers first. -/
def cells (headers : List (CellValue doubles)) (rows : List (List (CellValue doubles))) :
    List (Cell doubles) :=
  ((headers :: rows).zipIdx 1).flatMap fun (row, rowIndex) => rowCells rowIndex row

def rowXml (rowIndex : ℕ) (row : List (CellValue doubles)) : String :=
  "<row r=\"" ++ toString rowIndex ++ "\">" ++
    String.join ((rowCells rowIndex row).map (·.xml table)) ++ "</row>"

/-- The cells that the worksheet has room for. -/
def dimension (allRows : List (List (CellValue doubles))) : String :=
  "A1:" ++ columnRef ((allRows.map List.length).foldr max 0 - 1) ++ toString allRows.length

/-- The worksheet that `build_minimal_xlsx` puts into the package; `quoteattr` has nothing to escape in the
letters and digits of a dimension. -/
def sheetXml (headers : List (CellValue doubles)) (rows : List (List (CellValue doubles))) : String :=
  let allRows := headers :: rows
  "<?xml version=\"1.0\" encoding=\"UTF-8\" standalone=\"yes\"?>\n" ++
    "<worksheet xmlns=\"http://schemas.openxmlformats.org/spreadsheetml/2006/main\">" ++
    "<dimension ref=\"" ++ dimension allRows ++ "\"/>" ++
    "<sheetData>" ++
    String.join ((allRows.zipIdx 1).map fun (row, rowIndex) => rowXml table rowIndex row) ++
    "</sheetData>" ++ "</worksheet>"

end Sheet

/-! ### The order of columns -/

section Columns

open BijectiveBase

lemma columnLoop_map (n : ℕ) (ds : List ℕ) :
    columnLoop n (ds.map columnLetter) = (digits 26 n ds).map columnLetter := by
  induction n, ds using digits.induct 26 with
  | case1 ds => rw [columnLoop, if_pos rfl, digits_zero]
  | case2 n ds hn ih => rw [columnLoop, if_neg hn, digits_of_pos (Nat.pos_of_ne_zero hn), ← ih, List.map_cons]

/-- The letters of a column are its digits in base 26, without a zero. -/
lemma toList_columnRef (index : ℕ) :
    (columnRef index).toList = (digits 26 (index + 1) []).map columnLetter := by
  have hindex : ((index : ℤ) + 1).toNat = index + 1 := by omega
  rw [columnRef, String.toList_ofList, hindex]
  exact columnLoop_map (index + 1) []

lemma columnLetter_lt_iff : ∀ d < 26, ∀ e < 26, columnLetter d < columnLetter e ↔ d < e := by decide +kernel

lemma columnLetter_inj : ∀ d < 26, ∀ e < 26, columnLetter d = columnLetter e ↔ d = e := by decide +kernel

/-- **The order of columns.**  Of two columns, the one on the left has fewer letters, or as many and the
ones that come first in the alphabet. -/
theorem columnRef_lt_iff (i j : ℕ) :
    List.Shortlex (· < ·) (columnRef i).toList (columnRef j).toList ↔ i < j := by
  have hletters : ∀ n : ℕ, ∀ d ∈ digits 26 n [], d < 26 := fun n => digits_lt (by decide) n (List.forall_mem_nil _)
  have hi := hletters (i + 1)
  have hj := hletters (j + 1)
  rw [toList_columnRef, toList_columnRef, shortlex_map_iff columnLetter_lt_iff columnLetter_inj hi hj,
    ← value_lt_iff hi hj, value_digits, value_digits]
  simp [value]

/-- Two columns have different letters. -/
theorem columnRef_injective : Function.Injective fun i : ℕ => columnRef i := by
  intro i j h
  have h : columnRef i = columnRef j := h
  rcases Nat.lt_trichotomy i j with hlt | heq | hgt
  · rw [← columnRef_lt_iff, h, columnRef_lt_iff] at hlt
    exact absurd hlt (Nat.lt_irrefl j)
  · exact heq
  · rw [← columnRef_lt_iff, h, columnRef_lt_iff] at hgt
    exact absurd hgt (Nat.lt_irrefl j)

end Columns

/-! ### What a cell holds -/

section Faithful

variable {doubles : Doubles} (table : CharTable)

/-- The double that a value is, or that `float` makes of its text. -/
def CellValue.double : CellValue doubles → Option doubles.Double
  | .text s => (pyFloat table s).map doubles.ofReading
  | .int n => some (doubles.ofReading (.finite n))
  | .float x => some x

/-- The cell is an inline string that stands for the very text of the value, or a number whose text is a
valid `xs:double`, and the double is that of the value. -/
def Cell.Faithful (cell : Cell doubles) : Prop :=
  (∃ text, cell.xml table = inlineCell cell.ref text ∧ unescape text = cell.value.str) ∨
  (∃ text reading, cell.xml table = numericCell cell.ref text ∧
    xsdDouble (unescape text) = some reading ∧
    cell.value.double table = some (doubles.ofReading reading))

/-- `float` cannot read the text of the value, or the text is plain. -/
def CellValue.Legible (value : CellValue doubles) : Prop :=
  pyFloat table value.str = none ∨ Plain value.str

variable {table}

lemma numericCell_ne_inlineCell (ref text text' : String) : numericCell ref text ≠ inlineCell ref text' := by
  intro h
  have hlist := congrArg String.toList h
  simp [numericCell, inlineCell, String.toList_append] at hlist

lemma numericCell_inj {ref text text' : String} (h : numericCell ref text = numericCell ref text') :
    text = text' := by
  have hlist := congrArg String.toList h
  simp only [numericCell, String.toList_append, List.append_cancel_right_eq, List.append_cancel_left_eq,
    List.append_assoc] at hlist
  exact String.toList_injective hlist

/-- What `float` reads of the text of a value is the value. -/
lemma double_of_pyFloat {value : CellValue doubles} {reading : Reading}
    (h : pyFloat table value.str = some reading) :
    value.double table = some (doubles.ofReading reading) := by
  cases value with
  | text s =>
    have h : pyFloat table s = some reading := h
    rw [CellValue.double, h]
    rfl
  | int n =>
    have h : pyFloat table (toString n) = some reading := h
    rw [(pyFloat_toString table n).2] at h
    cases h
    rfl
  | float x =>
    have h : pyFloat table (doubles.repr x) = some reading := h
    obtain ⟨reading', hread, hx⟩ := doubles.reads table x
    rw [hread] at h
    cases h
    rw [hx]
    rfl

/-- **A cell is faithful** iff `float` cannot read its text, or the text is plain. -/
theorem faithful_iff (cell : Cell doubles) : cell.Faithful table ↔ cell.value.Legible table := by
  cases hread : pyFloat table cell.value.str with
  | none =>
    refine iff_of_true (Or.inl ⟨escape cell.value.str, ?_, unescape_escape _⟩) (Or.inl hread)
    rw [Cell.xml, cellXml, hread]
    rfl
  | some reading =>
    have hxml : cell.xml table = numericCell cell.ref (escape cell.value.str) := by
      rw [Cell.xml, cellXml, hread]
      rfl
    constructor
    · rintro (⟨text, htext, -⟩ | ⟨text, reading', htext, hvalid, -⟩)
      · exact absurd (hxml.symm.trans htext) (numericCell_ne_inlineCell _ _ _)
      · rw [← numericCell_inj (hxml.symm.trans htext), unescape_escape] at hvalid
        exact Or.inr (plain_of_xsdDouble hvalid)
    · rintro (hnone | hplain)
      · rw [hread] at hnone
        cases hnone
      · refine Or.inr ⟨_, reading, hxml, ?_, double_of_pyFloat hread⟩
        rw [unescape_escape]
        exact (xsdDouble_iff_plain hread).mpr hplain

/-! ### Tables -/

/-- The cells of a table hold its values. -/
lemma map_value_cells (headers : List (CellValue doubles)) (rows : List (List (CellValue doubles))) :
    (cells headers rows).map Cell.value = headers ++ rows.flatten := by
  have hrow : ∀ (rowIndex : ℕ) (row : List (CellValue doubles)),
      (rowCells rowIndex row).map Cell.value = row := by
    intro rowIndex row
    rw [rowCells, List.map_map]
    exact List.zipIdx_map_fst 0 row
  rw [cells, List.map_flatMap, ← List.flatten_cons, List.flatMap]
  refine congrArg List.flatten ((List.map_congr_left fun entry _ => hrow entry.2 entry.1).trans ?_)
  exact List.zipIdx_map_fst 1 (headers :: rows)

/-- **Faithful spreadsheets.**  All cells of a table are faithful, and its columns known by their letters
and ordered as these are, iff each of its values is legible. -/
theorem sheet_faithful_iff (table : CharTable) (headers : List (CellValue doubles))
    (rows : List (List (CellValue doubles))) :
    ((∀ cell ∈ cells headers rows, cell.Faithful table) ∧
      (Function.Injective fun i : ℕ => columnRef i) ∧
      ∀ i j : ℕ, List.Shortlex (· < ·) (columnRef i).toList (columnRef j).toList ↔ i < j) ↔
    ∀ value ∈ headers ++ rows.flatten, value.Legible table := by
  rw [← map_value_cells, List.forall_mem_map, and_iff_left ⟨columnRef_injective, columnRef_lt_iff⟩]
  exact forall₂_congr fun cell _ => faithful_iff cell

/-- A header that `float` takes for no number is written as a number that XML Schema does not know. -/
theorem nanCell_invalid :
    ¬ ∀ (doubles : Doubles) (table : CharTable) (headers : List (CellValue doubles))
      (rows : List (List (CellValue doubles))), ∀ cell ∈ cells headers rows, cell.Faithful table := by
  intro h
  have hcell := h wholeDoubles ⟨fun _ => false, fun _ => none⟩ [.text "nan"] [] ⟨0, 1, .text "nan"⟩
    List.mem_cons_self
  rcases (faithful_iff _).mp hcell with hnone | hplain
  · exact absurd hnone (by decide +kernel)
  · exact absurd hplain (by decide +kernel)

end Faithful

end Tmis.CabinetOs.XlsxWriter
