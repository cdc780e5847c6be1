import Mathlib.Algebra.Order.Floor.Ring
import Mathlib.Algebra.Order.Ring.Rat
import Mathlib.Data.Rat.Floor
import Mathlib.Data.List.DropRight
import Tmis.Lib.Python

/-!
# Floating-point numbers as texts

What `float` makes of a text, and what XML Schema makes of it: `xs:double`.  Both round the number that
is written to a double, in the same way; here it is that number.

* `Reading` — a number, an infinity, or no number;
* `decimal` — a number in decimal notation, which both accept;
* `CharTable`, `pyFloat` — `float(text)`, where it does not raise;
* `xsdDouble` — the value of a text as a `xs:double`, where it is valid;
* `Plain` — no more than decimal notation, or a name of XML Schema, with white space around it;
* `xsdDouble_iff_plain` — of the texts that `float` reads, the plain ones are valid, and read alike;
* `pyFloat_toString` — the text of an integer is plain;
* `Doubles` — the doubles and their texts, which are read back.
-/

namespace Tmis.Lib.FloatText

inductive Reading where
  | finite (q : ℚ)
  | infinity (negative : Bool)
  | nan
  deriving DecidableEq

/-! ### Decimal notation -/

/-- Whether there is a minus sign, and what comes after the sign, if there is one. -/
def readSign : List Char → Bool × List Char
  | '-' :: cs => (true, cs)
  | '+' :: cs => (false, cs)
  | cs => (false, cs)

/-- The digits after a point, if there is one, and what comes after them. -/
def readFraction : List Char → List Char × List Char
  | '.' :: cs => (cs.takeWhile Char.isDigit, cs.dropWhile Char.isDigit)
  | cs => ([], cs)

/-- The exponent that ends a number, which may be left out. -/
def readExponent : List Char → Option ℤ
  | [] => some 0
  | c :: cs =>
      if c = 'e' ∨ c = 'E' then
        let (negative, ds) := readSign cs
        if ds = [] ∨ ¬ ds.all Char.isDigit then none
        else
          let n : ℤ := Nat.ofDigitChars 10 ds 0
          some (if negative then -n else n)
      else none

/-- A number in decimal notation: digits, with or without a point, and an exponent, if any. -/
def decimal (cs : List Char) : Option ℚ := do
  let (negative, cs) := readSign cs
  let whole := cs.takeWhile Char.isDigit
  let (fraction, rest) := readFraction (cs.dropWhile Char.isDigit)
  if whole = [] ∧ fraction = [] then none
  else
    let exponent ← readExponent rest
    let q : ℚ := Nat.ofDigitChars 10 (whole ++ fraction) 0 * (10 : ℚ) ^ (exponent - fraction.length)
    some (if negative then -q else q)

/-! ### White space around a text -/

/-- A text without the characters of some kind at its ends. -/
def strip (p : Char → Bool) (cs : List Char) : List Char := (cs.dropWhile p).rdropWhile p

/-- The white space of XML. -/
def isXmlSpace (c : Char) : Bool := c = ' ' || c = '\t' || c = '\n' || c = '\r'

/-- `Py_ISSPACE`. -/
def isPySpace (c : Char) : Bool := c = ' ' || ('\t' ≤ c && c ≤ '\r')

/-! ### What `float` reads -/

/-- What the interpreter knows of the characters that are not ASCII: which of them are white space, and
which are digits. -/
structure CharTable where
  space : Char → Bool
  digit : Char → Option (Fin 10)

/-- `_PyUnicode_TransformDecimalAndSpaceToASCII`. -/
def CharTable.toAscii (table : CharTable) (c : Char) : Char :=
  if c.toNat < 127 then c
  else if table.space c then ' '
  else
    match table.digit c with
    | some d => Nat.digitChar d
    | none => '?'

/-- `_Py_string_to_number_with_underscores`: the text without underscores, each of which must stand
between two digits. -/
def removeUnderscores (prev : Char) : List Char → Option (List Char)
  | [] => if prev = '_' then none else some []
  | c :: cs =>
      if c = '_' then if prev.isDigit then removeUnderscores c cs else none
      else if prev = '_' ∧ ¬ c.isDigit then none
      else (removeUnderscores c cs).map (c :: ·)

/-- `_Py_parse_inf_or_nan`. -/
def special (cs : List Char) : Option Reading :=
  let (negative, cs) := readSign cs
  let name := cs.map Char.toLower
  if name = "inf".toList ∨ name = "infinity".toList then some (.infinity negative)
  else if name = "nan".toList then some .nan
  else none

/-- `PyOS_string_to_double`. -/
def readDouble (cs : List Char) : Option Reading :=
  match special cs with
  | some reading => some reading
  | none => (decimal cs).map .finite

/-- `float(text)`, unless it raises. -/
def pyFloat (table : CharTable) (s : String) : Option Reading :=
  (removeUnderscores '\x00' (strip isPySpace (s.toList.map table.toAscii))).bind readDouble

/-! ### What XML Schema reads -/

/-- The names that `xs:double` has for what is no finite number. -/
def xsdSpecial (cs : List Char) : Option Reading :=
  if cs = "INF".toList ∨ cs = "+INF".toList then some (.infinity false)
  else if cs = "-INF".toList then some (.infinity true)
  else if cs = "NaN".toList then some .nan
  else none

/-- The value of a text as a `xs:double`, if it is valid; white space around it does not count. -/
def xsdDouble (s : String) : Option Reading :=
  let cs := strip isXmlSpace s.toList
  match xsdSpecial cs with
  | some reading => some reading
  | none => (decimal cs).map .finite

/-! ### Plain texts -/

/-- A character of decimal notation. -/
def isNumberChar (c : Char) : Bool := c.isDigit || c = '+' || c = '-' || c = '.' || c = 'e' || c = 'E'

/-- Nothing but characters of decimal notation, or one of the names of XML Schema, with white space of
XML around it. -/
def Plain (s : String) : Prop :=
  (∀ c ∈ strip isXmlSpace s.toList, isNumberChar c = true) ∨
    (xsdSpecial (strip isXmlSpace s.toList)).isSome = true

instance : DecidablePred Plain := fun s =>
  -- along the characters of the text, not along all there are
  @instDecidableOr _ _ (List.decidableBAll _ (strip isXmlSpace s.toList)) (instDecidableEqBool _ _)

/-! ### Stripping -/

section Strip

variable {p q : Char → Bool} {cs : List Char} {c : Char}

lemma mem_strip_or (h : c ∈ cs) : p c = true ∨ c ∈ strip p cs := by
  rw [← List.takeWhile_append_dropWhile (p := p) (l := cs), List.mem_append] at h
  rcases h with h | h
  · exact Or.inl (List.all_eq_true.mp List.all_takeWhile c h)
  · rw [← List.rdropWhile_append_rtakeWhile (p := p) (l := cs.dropWhile p), List.mem_append] at h
    rcases h with h | h
    · exact Or.inr h
    · exact Or.inl (List.mem_rtakeWhile_imp h)

lemma dropWhile_congr (h : ∀ c ∈ cs, p c = q c) : cs.dropWhile p = cs.dropWhile q := by
  induction cs with
  | nil => rfl
  | cons c cs ih =>
    obtain ⟨hc, hcs⟩ := List.forall_mem_cons.mp h
    rw [List.dropWhile_cons, List.dropWhile_cons, hc, ih hcs]

lemma strip_congr (h : ∀ c ∈ cs, p c = q c) : strip p cs = strip q cs := by
  rw [strip, strip, dropWhile_congr h, List.rdropWhile, List.rdropWhile]
  refine congrArg List.reverse (dropWhile_congr fun c hc => h c ?_)
  exact (List.dropWhile_sublist q).subset (List.mem_reverse.mp hc)

/-- Where no character is of the kind, nothing is stripped. -/
lemma strip_eq_self (h : ∀ c ∈ cs, p c = false) : strip p cs = cs := by
  have hdrop : ∀ {ds : List Char}, (∀ d ∈ ds, p d = false) → ds.dropWhile p = ds := by
    intro ds hds
    cases ds with
    | nil => rfl
    | cons d ds => exact List.dropWhile_cons_of_neg (Bool.eq_false_iff.mp (hds d List.mem_cons_self))
  rw [strip, hdrop h, List.rdropWhile, hdrop fun c hc => h c (List.mem_reverse.mp hc), List.reverse_reverse]

end Strip

/-! ### The characters of decimal notation -/

section Characters

variable {cs : List Char} {c : Char}

lemma isNumberChar_of_isDigit (h : c.isDigit = true) : isNumberChar c = true := by
  simp [isNumberChar, h]

lemma isDigit_of_mem_takeWhile (h : c ∈ cs.takeWhile Char.isDigit) : c.isDigit = true :=
  List.all_eq_true.mp List.all_takeWhile c h

lemma mem_readSign_or (h : c ∈ cs) : isNumberChar c = true ∨ c ∈ (readSign cs).2 := by
  unfold readSign
  split
  · exact (List.mem_cons.mp h).imp_left fun hc => by rw [hc]; rfl
  · exact (List.mem_cons.mp h).imp_left fun hc => by rw [hc]; rfl
  · exact Or.inr h

lemma mem_readFraction_or (h : c ∈ cs) : isNumberChar c = true ∨ c ∈ (readFraction cs).2 := by
  unfold readFraction
  split
  · rename_i cs
    rcases List.mem_cons.mp h with rfl | h
    · exact Or.inl rfl
    · rw [← List.takeWhile_append_dropWhile (p := Char.isDigit) (l := cs), List.mem_append] at h
      exact h.imp_left fun h => isNumberChar_of_isDigit (isDigit_of_mem_takeWhile h)
  · exact Or.inr h

lemma isNumberChar_of_readExponent {n : ℤ} (hn : readExponent cs = some n) (h : c ∈ cs) :
    isNumberChar c = true := by
  cases cs with
  | nil => cases h
  | cons e cs =>
    by_cases he : e = 'e' ∨ e = 'E'
    · rw [readExponent, if_pos he] at hn
      dsimp only at hn
      by_cases hds : (readSign cs).2 = [] ∨ ¬ (readSign cs).2.all Char.isDigit = true
      · rw [if_pos hds] at hn
        cases hn
      · rcases List.mem_cons.mp h with rfl | h
        · rcases he with rfl | rfl <;> rfl
        · rcases mem_readSign_or h with hc | h
          · exact hc
          · rw [not_or, not_not, List.all_eq_true] at hds
            exact isNumberChar_of_isDigit (hds.2 c h)
    · rw [readExponent, if_neg he] at hn
      cases hn

/-- A number in decimal notation has no other characters. -/
lemma isNumberChar_of_decimal {q : ℚ} (hq : decimal cs = some q) (h : c ∈ cs) : isNumberChar c = true := by
  rcases mem_readSign_or h with hc | h
  · exact hc
  rw [← List.takeWhile_append_dropWhile (p := Char.isDigit) (l := (readSign cs).2), List.mem_append] at h
  rcases h with h | h
  · exact isNumberChar_of_isDigit (isDigit_of_mem_takeWhile h)
  rcases mem_readFraction_or h with hc | h
  · exact hc
  unfold decimal at hq
  dsimp only at hq
  split at hq
  · cases hq
  obtain ⟨n, hn, -⟩ := Option.bind_eq_some_iff.mp hq
  exact isNumberChar_of_readExponent hn h

lemma toNat_of_isNumberChar (h : isNumberChar c = true) : c.toNat < 127 := by
  simp only [isNumberChar, Bool.or_eq_true, decide_eq_true_eq] at h
  rcases h with ((((h | rfl) | rfl) | rfl) | rfl) | rfl
  · rw [Char.isDigit, Bool.and_eq_true, decide_eq_true_eq, decide_eq_true_eq] at h
    have hle : c.toNat ≤ 57 := h.2
    omega
  all_goals decide

/-- What is true of the number characters among the first 127 characters is true of all of them. -/
lemma of_isNumberChar {P : Char → Prop} (hP : ∀ n < 127, isNumberChar (Char.ofNat n) = true → P (Char.ofNat n))
    (h : isNumberChar c = true) : P c := by
  have hc := hP c.toNat (toNat_of_isNumberChar h)
  rw [Char.ofNat_toNat] at hc
  exact hc h

/-- A character that `float` and XML Schema take as it is. -/
structure IsPlainChar (c : Char) : Prop where
  ascii : c.toNat < 127
  notPySpace : isPySpace c = false
  notXmlSpace : isXmlSpace c = false
  notUnderscore : c ≠ '_'

instance : DecidablePred IsPlainChar := fun c =>
  decidable_of_iff (c.toNat < 127 ∧ isPySpace c = false ∧ isXmlSpace c = false ∧ c ≠ '_')
    ⟨fun h => ⟨h.1, h.2.1, h.2.2.1, h.2.2.2⟩,
      fun h => ⟨h.ascii, h.notPySpace, h.notXmlSpace, h.notUnderscore⟩⟩

lemma isPlainChar_of_isNumberChar (h : isNumberChar c = true) : IsPlainChar c :=
  of_isNumberChar (P := IsPlainChar) (by decide +kernel) h

lemma mem_of_mem_readSign (h : c ∈ (readSign cs).2) : c ∈ cs := by
  unfold readSign at h
  split at h
  · exact List.mem_cons_of_mem _ h
  · exact List.mem_cons_of_mem _ h
  · exact h

/-- No name of `float` is written in the characters of decimal notation. -/
lemma special_eq_none (h : ∀ c ∈ cs, isNumberChar c = true) : special cs = none := by
  have hname : ∀ name : List Char, 'n' ∈ name → (readSign cs).2.map Char.toLower ≠ name := by
    rintro name hn rfl
    obtain ⟨c, hc, hlower⟩ := List.mem_map.mp hn
    have hnot : c.toLower ≠ 'n' :=
      of_isNumberChar (P := fun c => c.toLower ≠ 'n') (by decide +kernel) (h c (mem_of_mem_readSign hc))
    exact hnot hlower
  rw [special]
  dsimp only
  rw [if_neg (not_or.mpr ⟨hname _ (by decide), hname _ (by decide)⟩), if_neg (hname _ (by decide))]

/-- No name of XML Schema is, either. -/
lemma xsdSpecial_eq_none (h : ∀ c ∈ cs, isNumberChar c = true) : xsdSpecial cs = none := by
  have hname : ∀ name : List Char, 'N' ∈ name → cs ≠ name := by
    rintro name hn rfl
    exact absurd (h 'N' hn) (by decide)
  rw [xsdSpecial, if_neg (not_or.mpr ⟨hname _ (by decide), hname _ (by decide)⟩),
    if_neg (hname _ (by decide)), if_neg (hname _ (by decide))]

/-- The names of XML Schema are names of `float`, for the same. -/
lemma special_of_xsdSpecial {reading : Reading} (h : xsdSpecial cs = some reading) :
    (∀ c ∈ cs, IsPlainChar c) ∧ special cs = some reading := by
  suffices hall : cs.all (fun c => decide (IsPlainChar c)) = true ∧ special cs = some reading from
    ⟨fun c hc => of_decide_eq_true (List.all_eq_true.mp hall.1 c hc), hall.2⟩
  unfold xsdSpecial at h
  split_ifs at h with hplus hminus hnan
  · cases h
    rcases hplus with rfl | rfl <;> decide +kernel
  · cases h
    subst hminus
    decide +kernel
  · cases h
    subst hnan
    decide +kernel

end Characters

/-! ### Texts that are read alike -/

section Alike

variable {table : CharTable} {s : String} {reading : Reading}

lemma removeUnderscores_eq_self {cs : List Char} (h : ∀ c ∈ cs, c ≠ '_') {prev : Char} (hprev : prev ≠ '_') :
    removeUnderscores prev cs = some cs := by
  induction cs generalizing prev with
  | nil => rw [removeUnderscores, if_neg hprev]
  | cons c cs ih =>
    obtain ⟨hc, hcs⟩ := List.forall_mem_cons.mp h
    rw [removeUnderscores, if_neg hc, if_neg fun hbad => hprev hbad.1, ih hcs hc]
    rfl

/-- `float` only strips a text whose other characters are plain. -/
lemma pyFloat_of_plainChars (h : ∀ c ∈ strip isXmlSpace s.toList, IsPlainChar c) :
    pyFloat table s = readDouble (strip isXmlSpace s.toList) := by
  have hspace : ∀ c, isXmlSpace c = true → c.toNat < 127 ∧ isPySpace c = true := by
    intro c hc
    simp only [isXmlSpace, Bool.or_eq_true, decide_eq_true_eq] at hc
    rcases hc with ((rfl | rfl) | rfl) | rfl <;> decide
  have hascii : s.toList.map table.toAscii = s.toList := by
    refine (List.map_congr_left (g := id) fun c hc => ?_).trans (List.map_id _)
    have hsmall : c.toNat < 127 := by
      rcases mem_strip_or (p := isXmlSpace) hc with hxml | hplain
      · exact (hspace c hxml).1
      · exact (h c hplain).ascii
    exact if_pos hsmall
  have hstrip : strip isPySpace s.toList = strip isXmlSpace s.toList := by
    refine strip_congr fun c hc => ?_
    rcases mem_strip_or (p := isXmlSpace) hc with hxml | hplain
    · rw [hxml, (hspace c hxml).2]
    · rw [(h c hplain).notPySpace, (h c hplain).notXmlSpace]
  rw [pyFloat, hascii, hstrip, removeUnderscores_eq_self (fun c hc => (h c hc).notUnderscore) (by decide)]
  rfl

/-- A valid text is plain. -/
lemma plain_of_xsdDouble (h : xsdDouble s = some reading) : Plain s := by
  rw [xsdDouble] at h
  cases hspecial : xsdSpecial (strip isXmlSpace s.toList) with
  | some reading' => exact Or.inr (by rw [hspecial]; rfl)
  | none =>
    rw [hspecial] at h
    obtain ⟨q, hq, -⟩ := Option.map_eq_some_iff.mp h
    exact Or.inl fun c => isNumberChar_of_decimal hq

/-- **Plain texts** are read alike. -/
theorem xsdDouble_of_plain (h : Plain s) : xsdDouble s = pyFloat table s := by
  rw [xsdDouble]
  rcases h with h | h
  · rw [pyFloat_of_plainChars fun c hc => isPlainChar_of_isNumberChar (h c hc), readDouble,
      special_eq_none h, xsdSpecial_eq_none h]
  · obtain ⟨reading, hreading⟩ := Option.isSome_iff_exists.mp h
    obtain ⟨hchars, hspecial⟩ := special_of_xsdSpecial hreading
    rw [pyFloat_of_plainChars hchars, readDouble, hspecial, hreading]

/-- Of the texts that `float` reads, the plain ones are valid, for the same number, and no other. -/
theorem xsdDouble_iff_plain (h : pyFloat table s = some reading) :
    xsdDouble s = some reading ↔ Plain s := by
  constructor
  · exact plain_of_xsdDouble
  · intro hplain
    rw [xsdDouble_of_plain hplain, h]

/-! ### Integers -/

lemma decimal_of_digits {ds : List Char} (hne : ds ≠ []) (hds : ∀ d ∈ ds, d.isDigit = true) :
    decimal ds = some (Nat.ofDigitChars 10 ds 0 : ℚ) ∧
      decimal ('-' :: ds) = some (-(Nat.ofDigitChars 10 ds 0 : ℚ)) := by
  have hsign : readSign ds = (false, ds) := by
    unfold readSign
    split
    · exact absurd (hds '-' List.mem_cons_self) (by decide)
    · exact absurd (hds '+' List.mem_cons_self) (by decide)
    · rfl
  have hwhole : ds.takeWhile Char.isDigit = ds := List.takeWhile_eq_self_iff.mpr hds
  have hrest : ds.dropWhile Char.isDigit = [] := List.dropWhile_eq_nil_iff.mpr hds
  constructor
  · rw [decimal, hsign]
    simp [hwhole, hrest, readFraction, readExponent, hne]
  · rw [decimal]
    simp [readSign, hwhole, hrest, readFraction, readExponent, hne]

/-- The text of an integer is written in decimal notation. -/
lemma decimal_toString (n : ℤ) : (∀ c ∈ (toString n).toList, isNumberChar c = true) ∧
    decimal (toString n).toList = some (n : ℚ) := by
  have hdigits : ∀ m : ℕ, ∀ c ∈ (toString m).toList, c.isDigit = true := fun m c => isDigit_of_mem_toString
  have hne : ∀ m : ℕ, (toString m).toList ≠ [] := by
    intro m
    show m.repr.toList ≠ []
    rw [Nat.toList_repr]
    exact Nat.toDigits_ne_nil
  have hvalue : ∀ m : ℕ, Nat.ofDigitChars 10 (toString m).toList 0 = m := by
    intro m
    show Nat.ofDigitChars 10 m.repr.toList 0 = m
    rw [Nat.toList_repr, Nat.ofDigitChars_ten_toDigits]
  cases n with
  | ofNat m =>
    refine ⟨fun c hc => isNumberChar_of_isDigit (hdigits m c hc), ?_⟩
    refine (decimal_of_digits (hne m) (hdigits m)).1.trans ?_
    rw [hvalue]
    rfl
  | negSucc m =>
    have htext : (toString (Int.negSucc m)).toList = '-' :: (toString (m + 1)).toList := by
      show ("-" ++ toString (m + 1)).toList = _
      rw [String.toList_append]
      rfl
    rw [htext]
    refine ⟨List.forall_mem_cons.mpr ⟨rfl, fun c hc => isNumberChar_of_isDigit (hdigits _ c hc)⟩, ?_⟩
    rw [(decimal_of_digits (hne _) (hdigits _)).2, hvalue, Int.cast_negSucc]

/-- The text of an integer is plain, and read as the integer. -/
theorem pyFloat_toString (table : CharTable) (n : ℤ) :
    Plain (toString n) ∧ pyFloat table (toString n) = some (.finite n) := by
  obtain ⟨hchars, hdecimal⟩ := decimal_toString n
  have hstrip : strip isXmlSpace (toString n).toList = (toString n).toList :=
    strip_eq_self fun c hc => (isPlainChar_of_isNumberChar (hchars c hc)).notXmlSpace
  have hplain : Plain (toString n) := by
    rw [Plain, hstrip]
    exact Or.inl hchars
  refine ⟨hplain, ?_⟩
  rw [← xsdDouble_of_plain hplain, xsdDouble, hstrip, xsdSpecial_eq_none hchars, hdecimal]
  rfl

end Alike

/-! ### Doubles -/

/-- The doubles, the one that a number is rounded to, and their texts: `float(repr(x))` is `x`. -/
structure Doubles where
  Double : Type
  ofReading : Reading → Double
  repr : Double → String
  reads : ∀ table x, ∃ reading, pyFloat table (repr x) = some reading ∧ ofReading reading = x

/-- The whole numbers among them, with the one that is no number. -/
def wholeDoubles : Doubles where
  Double := Option ℤ
  ofReading
    | .finite q => some ⌊q⌋
    | _ => none
  repr
    | some n => toString n
    | none => "nan"
  reads table x := by
    cases x with
    | none => exact ⟨.nan, rfl, rfl⟩
    | some n => exact ⟨.finite n, (pyFloat_toString table n).2, congrArg some (Int.floor_intCast n)⟩

end Tmis.Lib.FloatText
