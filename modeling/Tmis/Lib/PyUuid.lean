import Tmis.Lib.Python

/-!
# Identifiers written as texts

`pyUuid` reads the text of a `uuid.UUID` into its number.  The digits go through `int(text, 16)`, which
takes more than digits: white space around them, a sign, a prefix `0x`, and single underscores.
`uuidText` writes the number, `mem_uuidText` says what with, and `pyUuid_uuidText` that what was written is
read.
-/

namespace Tmis.Lib

/-- The classes of the characters beyond the first 128: which are white space, and the values of those
that are decimal digits. -/
structure CharTables where
  isSpace : Char → Bool
  decimal : Char → Option ℕ

/-- The tables of a text that has no such characters. -/
def CharTables.ascii : CharTables := ⟨fun _ => false, fun _ => none⟩

/-- The character that `int` reads in the place of another one; it reads none in the place of `?`. -/
def CharTables.toAscii (tables : CharTables) (c : Char) : Char :=
  if c.toNat < 128 then c
  else if tables.isSpace c then ' '
  else match tables.decimal c with
    | some d => d.digitChar
    | none => '?'

/-- The white space that `int` skips. -/
def isIntSpace (c : Char) : Bool := c = ' ' || ('\t' ≤ c && c ≤ '\r')

def hexValue (c : Char) : Option ℕ :=
  if '0' ≤ c ∧ c ≤ '9' then some (c.toNat - '0'.toNat)
  else if 'a' ≤ c ∧ c ≤ 'f' then some (c.toNat - 'a'.toNat + 10)
  else if 'A' ≤ c ∧ c ≤ 'F' then some (c.toNat - 'A'.toNat + 10)
  else none

/-- Read digits with single underscores between them, and white space after them. -/
def readHex (n : ℕ) (afterDigit : Bool) : List Char → Option ℕ
  | [] => if afterDigit then some n else none
  | c :: cs =>
      match hexValue c with
      | some d => readHex (16 * n + d) true cs
      | none =>
          if afterDigit && c = '_' then readHex n false cs
          else if afterDigit && (c :: cs).all isIntSpace then some n
          else none

def readSign : List Char → ℤ × List Char
  | '+' :: cs => (1, cs)
  | '-' :: cs => (-1, cs)
  | cs => (1, cs)

/-- Skip `0x`, and one underscore after it. -/
def skipHexPrefix : List Char → List Char
  | '0' :: 'x' :: '_' :: cs => cs
  | '0' :: 'X' :: '_' :: cs => cs
  | '0' :: 'x' :: cs => cs
  | '0' :: 'X' :: cs => cs
  | cs => cs

/-- `int(text, 16)`. -/
def intBase16 (tables : CharTables) (text : String) : Except PyException ℤ :=
  let signed := readSign ((text.toList.map tables.toAscii).dropWhile isIntSpace)
  match readHex 0 false (skipHexPrefix signed.2) with
  | some n => .ok (signed.1 * n)
  | none => .error (valueError ("invalid literal for int() with base 16: " ++ pyRepr text))

/-- `text.replace(pattern, "")`; `skip` characters of the last occurrence are still to be left out. -/
def removeAll (pattern : List Char) : ℕ → List Char → List Char
  | _, [] => []
  | skip + 1, _ :: cs => removeAll pattern skip cs
  | 0, c :: cs =>
      if pattern.isPrefixOf (c :: cs) then removeAll pattern (pattern.length - 1) cs
      else c :: removeAll pattern 0 cs

/-- The digits of a text that is given to `uuid.UUID`. -/
def uuidDigits (text : String) : List Char :=
  let cs := removeAll "uuid:".toList 0 (removeAll "urn:".toList 0 text.toList)
  let isBrace (c : Char) : Bool := c = '\x7b' || c = '\x7d'
  ((cs.dropWhile isBrace).reverse.dropWhile isBrace).reverse.filter (· ≠ '-')

/-- `uuid.UUID(text).int`. -/
def pyUuid (tables : CharTables) (text : String) : Except PyException ℕ :=
  let digits := uuidDigits text
  if digits.length ≠ 32 then .error (valueError "badly formed hexadecimal UUID string")
  else
    (intBase16 tables (String.ofList digits)).bind fun n =>
      if 0 ≤ n ∧ n < 2 ^ 128 then .ok n.toNat
      else .error (valueError "int is out of range (need a 128-bit value)")

/-- The text is that of a UUID. -/
def IsUuid (tables : CharTables) (text : String) : Prop := ∃ n, pyUuid tables text = .ok n

instance (tables : CharTables) (text : String) : Decidable (IsUuid tables text) :=
  match h : pyUuid tables text with
  | .ok n => isTrue ⟨n, h⟩
  | .error _ => isFalse fun ⟨_, hn⟩ => by rw [h] at hn; cases hn

/-- The digits in groups, with dashes between them. -/
def dashed (digits : List Char) : List Char :=
  digits.take 8 ++ '-' :: (digits.drop 8).take 4 ++ '-' :: (digits.drop 12).take 4 ++
    '-' :: (digits.drop 16).take 4 ++ '-' :: digits.drop 20

/-- `str(u)`, where `u` is the UUID with this number. -/
def uuidText (n : ℕ) : String := String.ofList (dashed (padded 16 32 n))

/-! ### What is written is read -/

/-- What is not there is not removed. -/
lemma removeAll_of_not_mem {p : Char} {pattern : List Char} :
    ∀ {cs : List Char}, p ∉ cs → removeAll (p :: pattern) 0 cs = cs
  | [], _ => rfl
  | c :: cs, h => by
      have hpc : (p == c) = false := beq_false_of_ne fun heq => h (heq ▸ List.mem_cons_self)
      rw [removeAll, List.isPrefixOf, hpc, Bool.false_and, if_neg Bool.false_ne_true,
        removeAll_of_not_mem fun hmem => h (List.mem_cons_of_mem c hmem)]

lemma dropWhile_of_all_not {p : Char → Bool} : ∀ {cs : List Char}, (∀ c ∈ cs, p c = false) →
    cs.dropWhile p = cs
  | [], _ => rfl
  | c :: _, h => List.dropWhile_cons_of_neg (by rw [h c List.mem_cons_self]; decide)

/-- What is read in the place of a digit, and what a digit is not. -/
lemma hexValue_digitChar : ∀ d < 16, hexValue d.digitChar = some d ∧ d.digitChar.toNat < 128 ∧
    isIntSpace d.digitChar = false ∧ d.digitChar ≠ '+' ∧ d.digitChar ≠ '-' ∧ d.digitChar ≠ 'x' ∧
    d.digitChar ≠ 'X' ∧ d.digitChar ≠ 'u' ∧ d.digitChar ≠ '\x7b' ∧ d.digitChar ≠ '\x7d' := by
  decide

/-- A number that was written is read, after the digits before it. -/
lemma readHex_padded : ∀ {w n : ℕ} (m : ℕ) (afterDigit : Bool), n < 16 ^ w → (w = 0 → afterDigit = true) →
    readHex m afterDigit (padded 16 w n) = some (m * 16 ^ w + n)
  | 0, n, m, afterDigit, hn, hafter => by
      obtain rfl : n = 0 := Nat.lt_one_iff.mp hn
      rw [padded, readHex, if_pos (hafter rfl), Nat.pow_zero, Nat.mul_one, Nat.add_zero]
  | w + 1, n, m, _, hn, _ => by
      have hdigit : n / 16 ^ w < 16 := Nat.div_lt_of_lt_mul (by rwa [← Nat.pow_succ])
      have hrest : n % 16 ^ w < 16 ^ w := Nat.mod_lt n (Nat.pow_pos (by decide))
      have hvalue := (hexValue_digitChar _ hdigit).1
      rw [padded, readHex, hvalue]
      dsimp only
      rw [readHex_padded _ true hrest fun _ => rfl]
      refine congrArg some ?_
      calc (16 * m + n / 16 ^ w) * 16 ^ w + n % 16 ^ w
          = m * 16 ^ (w + 1) + (n / 16 ^ w * 16 ^ w + n % 16 ^ w) := by ring
        _ = m * 16 ^ (w + 1) + n := by rw [Nat.div_add_mod']

lemma readSign_of_not_mem : ∀ {cs : List Char}, '+' ∉ cs → '-' ∉ cs → readSign cs = (1, cs)
  | [], _, _ => rfl
  | c :: cs, hplus, hminus => by
      unfold readSign
      split <;> simp_all

lemma skipHexPrefix_of_not_mem {cs : List Char} (hx : 'x' ∉ cs) (hX : 'X' ∉ cs) :
    skipHexPrefix cs = cs := by
  unfold skipHexPrefix
  split <;> simp_all

/-- The digits of a number are read as it. -/
lemma intBase16_padded (tables : CharTables) {w n : ℕ} (hw : 0 < w) (hn : n < 16 ^ w) :
    intBase16 tables (String.ofList (padded 16 w n)) = .ok n := by
  have hdigits : ∀ c ∈ padded 16 w n, ∃ d < 16, c = d.digitChar := fun c => exists_of_mem_padded hn
  have hascii : (padded 16 w n).map tables.toAscii = padded 16 w n :=
    (List.map_congr_left fun c hc => by
      obtain ⟨d, hd, rfl⟩ := hdigits c hc
      exact if_pos (hexValue_digitChar d hd).2.1).trans (List.map_id' _)
  have hspace : (padded 16 w n).dropWhile isIntSpace = padded 16 w n :=
    dropWhile_of_all_not fun c hc => by
      obtain ⟨d, hd, rfl⟩ := hdigits c hc
      exact (hexValue_digitChar d hd).2.2.1
  have hnot : '+' ∉ padded 16 w n ∧ '-' ∉ padded 16 w n ∧ 'x' ∉ padded 16 w n ∧ 'X' ∉ padded 16 w n := by
    refine ⟨fun hc => ?_, fun hc => ?_, fun hc => ?_, fun hc => ?_⟩ <;>
      obtain ⟨d, hd, heq⟩ := hdigits _ hc <;>
      obtain ⟨-, -, -, hplus, hminus, hx, hX, -⟩ := hexValue_digitChar d hd
    · exact hplus heq.symm
    · exact hminus heq.symm
    · exact hx heq.symm
    · exact hX heq.symm
  rw [intBase16, String.toList_ofList, hascii, hspace, readSign_of_not_mem hnot.1 hnot.2.1,
    skipHexPrefix_of_not_mem hnot.2.2.1 hnot.2.2.2,
    readHex_padded 0 false hn fun hzero => absurd hzero hw.ne']
  simp

/-- The dashes are what was put between the digits. -/
lemma filter_dashed {digits : List Char} (h : '-' ∉ digits) :
    (dashed digits).filter (· ≠ '-') = digits := by
  have hkept {cs : List Char} (hcs : ∀ c ∈ cs, c ∈ digits) : cs.filter (· ≠ '-') = cs :=
    List.filter_eq_self.mpr fun c hc => decide_eq_true fun heq => h (heq ▸ hcs c hc)
  have hdash (cs : List Char) : ('-' :: cs).filter (· ≠ '-') = cs.filter (· ≠ '-') :=
    List.filter_cons_of_neg (by decide)
  have hpart (i : ℕ) : ∀ c ∈ (digits.drop i).take 4, c ∈ digits := fun c hc =>
    List.mem_of_mem_drop (List.mem_of_mem_take hc)
  have hnext (i : ℕ) : (digits.drop i).take 4 ++ digits.drop (i + 4) = digits.drop i := by
    rw [← List.drop_drop, List.take_append_drop]
  simp only [dashed, List.filter_append, hdash, hkept (hpart 8), hkept (hpart 12), hkept (hpart 16),
    hkept fun c => List.mem_of_mem_take, hkept fun c => List.mem_of_mem_drop]
  rw [List.append_assoc, hnext 16, List.append_assoc, hnext 12, List.append_assoc, hnext 8,
    List.take_append_drop]

/-- The digits of a text that was written are those of its number. -/
lemma uuidDigits_uuidText {n : ℕ} (hn : n < 2 ^ 128) : uuidDigits (uuidText n) = padded 16 32 n := by
  have hn' : n < 16 ^ 32 := by rwa [show (16 : ℕ) ^ 32 = 2 ^ 128 by decide]
  have hdigits {c : Char} (hc : c ∈ padded 16 32 n) : c ≠ 'u' ∧ c ≠ '\x7b' ∧ c ≠ '\x7d' ∧ c ≠ '-' := by
    obtain ⟨d, hd, rfl⟩ := exists_of_mem_padded hn' hc
    obtain ⟨-, -, -, -, hminus, -, -, hu, hleft, hright⟩ := hexValue_digitChar d hd
    exact ⟨hu, hleft, hright, hminus⟩
  have hfilter := filter_dashed fun hc => (hdigits hc).2.2.2 rfl
  have hchars {c : Char} (hc : c ∈ dashed (padded 16 32 n)) : c ≠ 'u' ∧ c ≠ '\x7b' ∧ c ≠ '\x7d' := by
    by_cases hdash : c = '-'
    · exact hdash ▸ by decide
    · have hmem : c ∈ padded 16 32 n := hfilter ▸ List.mem_filter.mpr ⟨hc, decide_eq_true hdash⟩
      exact ⟨(hdigits hmem).1, (hdigits hmem).2.1, (hdigits hmem).2.2.1⟩
  have hu : 'u' ∉ dashed (padded 16 32 n) := fun hc => (hchars hc).1 rfl
  have hbrace {cs : List Char} (hcs : ∀ c ∈ cs, c ∈ dashed (padded 16 32 n)) :
      cs.dropWhile (fun c => decide (c = '\x7b') || decide (c = '\x7d')) = cs :=
    dropWhile_of_all_not fun c hc => by
      simp only [decide_eq_false (hchars (hcs c hc)).2.1, decide_eq_false (hchars (hcs c hc)).2.2,
        Bool.or_self]
  have hremove : removeAll "uuid:".toList 0 (removeAll "urn:".toList 0 (uuidText n).toList) =
      dashed (padded 16 32 n) := by
    have htext : (uuidText n).toList = dashed (padded 16 32 n) := String.toList_ofList
    rw [htext, show "urn:".toList = 'u' :: "rn:".toList by decide, removeAll_of_not_mem hu,
      show "uuid:".toList = 'u' :: "uid:".toList by decide, removeAll_of_not_mem hu]
  unfold uuidDigits
  rw [hremove]
  dsimp only
  rw [hbrace fun _ => id, hbrace fun _ => List.mem_reverse.mp, List.reverse_reverse, hfilter]

/-- A UUID that was written is read. -/
theorem pyUuid_uuidText (tables : CharTables) {n : ℕ} (hn : n < 2 ^ 128) :
    pyUuid tables (uuidText n) = .ok n := by
  have hn' : n < 16 ^ 32 := by rwa [show (16 : ℕ) ^ 32 = 2 ^ 128 by decide]
  rw [pyUuid, uuidDigits_uuidText hn, length_padded, if_neg (not_not.mpr rfl),
    intBase16_padded tables (by decide) hn', Except.bind]
  exact if_pos ⟨Int.natCast_nonneg n, by exact_mod_cast hn⟩

/-- What a UUID is written with. -/
lemma mem_uuidText {n : ℕ} (hn : n < 2 ^ 128) {c : Char} (hc : c ∈ (uuidText n).toList) :
    c = '-' ∨ ∃ d < 16, c = d.digitChar := by
  by_cases hdash : c = '-'
  · exact Or.inl hdash
  · have hmem : c ∈ padded 16 32 n := by
      simp only [uuidText, String.toList_ofList, dashed, List.mem_append, List.mem_cons, hdash, false_or] at hc
      rcases hc with (((hc | hc) | hc) | hc) | hc
      · exact List.mem_of_mem_take hc
      · exact List.mem_of_mem_drop (List.mem_of_mem_take hc)
      · exact List.mem_of_mem_drop (List.mem_of_mem_take hc)
      · exact List.mem_of_mem_drop (List.mem_of_mem_take hc)
      · exact List.mem_of_mem_drop hc
    exact Or.inr (exists_of_mem_padded (show n < 16 ^ 32 from hn.trans_le (by decide)) hmem)

example : uuidText 0x12345678123456781234567812345678 = "12345678-1234-5678-1234-567812345678" := by
  decide +kernel

example : pyUuid .ascii "\x7b12345678-1234-5678-1234-567812345678\x7d" =
    .ok 0x12345678123456781234567812345678 := by decide +kernel

end Tmis.Lib
