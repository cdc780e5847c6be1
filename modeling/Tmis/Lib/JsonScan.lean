import Mathlib.Data.List.TakeWhile
import Tmis.Lib.Dict
import Tmis.Lib.PyFloat
import Tmis.Lib.PyUuid

/-!
# The numbers and the strings of JSON

How the JSON module writes them, and how its scanner reads them at the front of a text.

* `scanNumber`, `scanNumber_append` — the number at the front of a text;
* `JsonFloat` — what is asked of the printed floats, `repr_inj`, `mem_repr`;
* `intText`, `readInt_intText` — integers;
* `escape`, `escapeBasic`, `scanString`, `Written.scanString` — strings, whose characters beyond ASCII are
  written as one or two `\u` codes, or as they are.

Texts hold no lone surrogates, and the limit on the digits of an `int` is left out.
-/

namespace Tmis.Lib

/-! ### Numbers -/

/-- The digits of an integer: a zero, or digits that begin with another one. -/
def scanDigits : List Char → Option (List Char × List Char)
  | [] => none
  | c :: cs =>
      if c = '0' then some (['0'], cs)
      else if c.isDigit then some (c :: cs.takeWhile Char.isDigit, cs.dropWhile Char.isDigit)
      else none

def scanInteger : List Char → Option (List Char × List Char)
  | '-' :: cs => (scanDigits cs).map fun p => ('-' :: p.1, p.2)
  | cs => scanDigits cs

/-- A point and the digits after it, if there are any. -/
def scanFraction : List Char → List Char × List Char
  | '.' :: cs =>
      if cs.takeWhile Char.isDigit = [] then ([], '.' :: cs)
      else ('.' :: cs.takeWhile Char.isDigit, cs.dropWhile Char.isDigit)
  | cs => ([], cs)

def scanSign : List Char → List Char × List Char
  | '+' :: cs => (['+'], cs)
  | '-' :: cs => (['-'], cs)
  | cs => ([], cs)

/-- An exponent, if there is one. -/
def scanExponent : List Char → List Char × List Char
  | [] => ([], [])
  | c :: cs =>
      if c = 'e' ∨ c = 'E' then
        if (scanSign cs).2.takeWhile Char.isDigit = [] then ([], c :: cs)
        else (c :: (scanSign cs).1 ++ (scanSign cs).2.takeWhile Char.isDigit,
          (scanSign cs).2.dropWhile Char.isDigit)
      else ([], c :: cs)

/-- A number: its integer, its fraction with its exponent, and the text after it. -/
structure ScannedNumber where
  integer : List Char
  more : List Char
  rest : List Char
  deriving DecidableEq

/-- `NUMBER_RE.match`. -/
def scanNumber (cs : List Char) : Option ScannedNumber :=
  (scanInteger cs).map fun p =>
    let fraction := scanFraction p.2
    let exponent := scanExponent fraction.2
    ⟨p.1, fraction.1 ++ exponent.1, exponent.2⟩

/-- The text is that of a number with a fraction or an exponent, and of nothing else. -/
def IsFloatText (text : String) : Prop :=
  ∃ integer more, scanNumber text.toList = some ⟨integer, more, []⟩ ∧ more ≠ []

/-- What the JSON module asks of `float`: the printed form of a number reads back as this number. -/
class JsonFloat (F : Type) extends PyFloat F where
  nan : F
  infinity : F
  negInfinity : F
  /-- `float(text)`. -/
  ofText : String → F
  repr_cases : ∀ x : F, (repr x = "nan" ∧ x = nan) ∨ (repr x = "inf" ∧ x = infinity) ∨
    (repr x = "-inf" ∧ x = negInfinity) ∨ (IsFloatText (repr x) ∧ ofText (repr x) = x)

/-- No digit stands at the front of the text. -/
def DigitsEnd (rest : List Char) : Prop := ∀ c ∈ rest.head?, c.isDigit = false

/-- Nothing of a number stands at the front of the text. -/
def NumberEnds (rest : List Char) : Prop :=
  ∀ c ∈ rest.head?, c.isDigit = false ∧ c ≠ '.' ∧ c ≠ 'e' ∧ c ≠ 'E'

lemma NumberEnds.digitsEnd {rest : List Char} (h : NumberEnds rest) : DigitsEnd rest := fun c hc => (h c hc).1

lemma numberEnds_nil : NumberEnds [] := fun _ h => by cases h

lemma numberEnds_cons {c : Char} {cs : List Char}
    (h : c.isDigit = false ∧ c ≠ '.' ∧ c ≠ 'e' ∧ c ≠ 'E') : NumberEnds (c :: cs) := by
  rintro _ ⟨⟩
  exact h

section Ends

variable {cs rest : List Char}

lemma takeWhile_append_rest (hrest : DigitsEnd rest) :
    (cs ++ rest).takeWhile Char.isDigit = cs.takeWhile Char.isDigit := by
  induction cs with
  | nil =>
    cases rest with
    | nil => rfl
    | cons c rest => exact List.takeWhile_cons_of_neg (by simp [hrest c rfl])
  | cons c cs ih =>
    rw [List.cons_append, List.takeWhile_cons, List.takeWhile_cons, ih]

lemma dropWhile_append_rest (hrest : DigitsEnd rest) :
    (cs ++ rest).dropWhile Char.isDigit = cs.dropWhile Char.isDigit ++ rest := by
  induction cs with
  | nil =>
    cases rest with
    | nil => rfl
    | cons c rest => exact List.dropWhile_cons_of_neg (by simp [hrest c rfl])
  | cons c cs ih =>
    rw [List.cons_append, List.dropWhile_cons, List.dropWhile_cons, ih]
    split <;> rfl

lemma scanDigits_append (hrest : DigitsEnd rest) {p : List Char × List Char}
    (h : scanDigits cs = some p) : scanDigits (cs ++ rest) = some (p.1, p.2 ++ rest) := by
  cases cs with
  | nil => cases h
  | cons c cs =>
    rw [scanDigits] at h
    rw [List.cons_append, scanDigits, takeWhile_append_rest hrest, dropWhile_append_rest hrest]
    split_ifs at h ⊢ <;> cases h <;> rfl

lemma scanInteger_append (hrest : DigitsEnd rest) {p : List Char × List Char}
    (h : scanInteger cs = some p) : scanInteger (cs ++ rest) = some (p.1, p.2 ++ rest) := by
  unfold scanInteger at h
  split at h
  · obtain ⟨q, hq, rfl⟩ := Option.map_eq_some_iff.mp h
    simp only [List.cons_append, scanInteger, scanDigits_append hrest hq, Option.map_some]
  · rename_i hminus
    have hscan : scanInteger (cs ++ rest) = scanDigits (cs ++ rest) := by
      unfold scanInteger
      split
      · rename_i ds heq
        cases cs with
        | nil => cases h
        | cons c cs => exact absurd (congrArg (· :: cs) (List.cons.inj heq).1) (hminus cs)
      · rfl
    rw [hscan, scanDigits_append hrest h]

lemma scanFraction_append (hrest : NumberEnds rest) :
    scanFraction (cs ++ rest) = ((scanFraction cs).1, (scanFraction cs).2 ++ rest) := by
  cases cs with
  | nil =>
    cases rest with
    | nil => rfl
    | cons c rest => simp [scanFraction, (hrest c rfl).2.1]
  | cons c cs =>
    by_cases hc : c = '.'
    · subst hc
      simp only [List.cons_append, scanFraction, takeWhile_append_rest hrest.digitsEnd,
        dropWhile_append_rest hrest.digitsEnd]
      split <;> rfl
    · simp [scanFraction, hc]

lemma scanSign_append (h : cs ≠ []) :
    scanSign (cs ++ rest) = ((scanSign cs).1, (scanSign cs).2 ++ rest) := by
  cases cs with
  | nil => exact absurd rfl h
  | cons c cs =>
    by_cases hplus : c = '+'
    · subst hplus; rfl
    · by_cases hminus : c = '-'
      · subst hminus; rfl
      · simp [scanSign, hplus, hminus]

/-- An exponent that nothing follows. -/
lemma scanExponent_append (hrest : NumberEnds rest) {exponent : List Char}
    (h : scanExponent cs = (exponent, [])) : scanExponent (cs ++ rest) = (exponent, rest) := by
  cases cs with
  | nil =>
    obtain rfl : [] = exponent := congrArg Prod.fst h
    cases rest with
    | nil => rfl
    | cons c rest =>
      obtain ⟨-, -, he, hE⟩ := hrest c rfl
      rw [List.nil_append, scanExponent, if_neg (by simp [he, hE])]
  | cons c cs =>
    rw [scanExponent] at h
    by_cases hc : c = 'e' ∨ c = 'E'
    · rw [if_pos hc] at h
      by_cases hnone : (scanSign cs).2.takeWhile Char.isDigit = []
      · rw [if_pos hnone] at h
        cases congrArg Prod.snd h
      · rw [if_neg hnone] at h
        obtain ⟨rfl, hdrop⟩ := Prod.mk.inj h
        have hcs : cs ≠ [] := fun hnil => hnone (by rw [hnil]; rfl)
        rw [List.cons_append, scanExponent, if_pos hc, scanSign_append hcs]
        simp only [takeWhile_append_rest hrest.digitsEnd, dropWhile_append_rest hrest.digitsEnd, if_neg hnone,
          hdrop, List.nil_append]
    · rw [if_neg hc] at h
      cases congrArg Prod.snd h

/-- A number is scanned up to where it ends. -/
lemma scanNumber_append (hrest : NumberEnds rest) {integer more : List Char}
    (h : scanNumber cs = some ⟨integer, more, []⟩) :
    scanNumber (cs ++ rest) = some ⟨integer, more, rest⟩ := by
  obtain ⟨p, hp, hscan⟩ := Option.map_eq_some_iff.mp h
  obtain ⟨rfl, rfl, hend⟩ := ScannedNumber.mk.inj hscan
  have hexponent := scanExponent_append hrest (Prod.ext rfl hend)
  rw [scanNumber, scanInteger_append hrest.digitsEnd hp, Option.map_some]
  simp only [scanFraction_append hrest, hexponent]

end Ends

/-- The characters of numbers. -/
def isNumberChar (c : Char) : Bool := c.isDigit || c ∈ ['-', '+', '.', 'e', 'E']

section Chars

variable {cs : List Char}

lemma isNumberChar_takeWhile : ∀ c ∈ cs.takeWhile Char.isDigit, isNumberChar c = true := by
  intro c hc
  have hdigit : c.isDigit = true := List.all_eq_true.mp List.all_takeWhile c hc
  simp [isNumberChar, hdigit]

lemma scanDigits_chars {p : List Char × List Char} (h : scanDigits cs = some p) :
    cs = p.1 ++ p.2 ∧ ∀ c ∈ p.1, isNumberChar c = true := by
  cases cs with
  | nil => cases h
  | cons c cs =>
    rw [scanDigits] at h
    split_ifs at h with hzero hdigit
    · cases h
      exact ⟨by rw [hzero]; rfl, by simp [isNumberChar]⟩
    · cases h
      refine ⟨by simp, fun x hx => ?_⟩
      rcases List.mem_cons.mp hx with rfl | hx
      · simp [isNumberChar, hdigit]
      · exact isNumberChar_takeWhile x hx

lemma scanInteger_chars {p : List Char × List Char} (h : scanInteger cs = some p) :
    cs = p.1 ++ p.2 ∧ ∀ c ∈ p.1, isNumberChar c = true := by
  unfold scanInteger at h
  split at h
  · obtain ⟨q, hq, rfl⟩ := Option.map_eq_some_iff.mp h
    obtain ⟨rfl, hchars⟩ := scanDigits_chars hq
    exact ⟨rfl, List.forall_mem_cons.mpr ⟨by decide, hchars⟩⟩
  · exact scanDigits_chars h

lemma scanFraction_chars (cs : List Char) : cs = (scanFraction cs).1 ++ (scanFraction cs).2 ∧
    ∀ c ∈ (scanFraction cs).1, isNumberChar c = true := by
  unfold scanFraction
  split
  · split_ifs
    · exact ⟨rfl, fun _ h => absurd h List.not_mem_nil⟩
    · refine ⟨by simp, List.forall_mem_cons.mpr ⟨by decide, isNumberChar_takeWhile⟩⟩
  · exact ⟨rfl, fun _ h => absurd h List.not_mem_nil⟩

lemma scanSign_chars (cs : List Char) : cs = (scanSign cs).1 ++ (scanSign cs).2 ∧
    ∀ c ∈ (scanSign cs).1, isNumberChar c = true := by
  unfold scanSign
  split
  · exact ⟨rfl, by simp [isNumberChar]⟩
  · exact ⟨rfl, by simp [isNumberChar]⟩
  · exact ⟨rfl, fun _ h => absurd h List.not_mem_nil⟩

lemma scanExponent_chars (cs : List Char) : cs = (scanExponent cs).1 ++ (scanExponent cs).2 ∧
    ∀ c ∈ (scanExponent cs).1, isNumberChar c = true := by
  cases cs with
  | nil => exact ⟨rfl, fun _ h => absurd h List.not_mem_nil⟩
  | cons c cs =>
    rw [scanExponent]
    split_ifs with hc
    · exact ⟨rfl, fun _ h => absurd h List.not_mem_nil⟩
    · obtain ⟨hsplit, hsign⟩ := scanSign_chars cs
      constructor
      · conv_lhs => rw [hsplit]
        simp
      · refine List.forall_mem_append.mpr ⟨List.forall_mem_cons.mpr ⟨?_, hsign⟩, isNumberChar_takeWhile⟩
        rcases hc with rfl | rfl <;> decide
    · exact ⟨rfl, fun _ h => absurd h List.not_mem_nil⟩

/-- The parts of a number make up its text, and hold its characters only. -/
lemma scanNumber_chars {n : ScannedNumber} (h : scanNumber cs = some n) :
    cs = n.integer ++ n.more ++ n.rest ∧ ∀ c ∈ n.integer ++ n.more, isNumberChar c = true := by
  obtain ⟨p, hp, rfl⟩ := Option.map_eq_some_iff.mp h
  obtain ⟨hcs, hinteger⟩ := scanInteger_chars hp
  obtain ⟨hfraction, hfchars⟩ := scanFraction_chars p.2
  obtain ⟨hexponent, hechars⟩ := scanExponent_chars (scanFraction p.2).2
  constructor
  · rw [hcs]
    conv_lhs => rw [hfraction, hexponent]
    simp
  · exact List.forall_mem_append.mpr ⟨hinteger, List.forall_mem_append.mpr ⟨hfchars, hechars⟩⟩

/-- A number begins with one of its characters. -/
lemma isNumberChar_of_scanNumber {c : Char} {n : ScannedNumber} (h : scanNumber (c :: cs) = some n) :
    isNumberChar c = true := by
  obtain ⟨p, hp, rfl⟩ := Option.map_eq_some_iff.mp h
  unfold scanInteger at hp
  split at hp
  · rename_i heq
    rw [(List.cons.inj heq).1]
    rfl
  · rw [scanDigits] at hp
    split_ifs at hp with hzero hdigit
    · rw [hzero]
      rfl
    · simp [isNumberChar, hdigit]

end Chars

/-! ### Floats -/

section Floats

variable {F : Type} [JsonFloat F]

open JsonFloat

lemma IsFloatText.chars {text : String} (h : IsFloatText text) :
    ∀ c ∈ text.toList, isNumberChar c = true := by
  obtain ⟨integer, more, hscan, -⟩ := h
  obtain ⟨htext, hchars⟩ := scanNumber_chars hscan
  rw [htext, List.append_nil]
  exact hchars

/-- The printed forms of floats hold no other characters than these. -/
lemma mem_repr {x : F} {c : Char} (hc : c ∈ (PyFloat.repr x).toList) :
    isNumberChar c = true ∨ c ∈ ['n', 'a', 'i', 'f'] := by
  have hnan : ∀ c ∈ "nan".toList, isNumberChar c = true ∨ c ∈ ['n', 'a', 'i', 'f'] := by simp
  have hinf : ∀ c ∈ "inf".toList, isNumberChar c = true ∨ c ∈ ['n', 'a', 'i', 'f'] := by simp
  have hneg : ∀ c ∈ "-inf".toList, isNumberChar c = true ∨ c ∈ ['n', 'a', 'i', 'f'] := by simp [isNumberChar]
  rcases repr_cases x with ⟨hx, -⟩ | ⟨hx, -⟩ | ⟨hx, -⟩ | ⟨hx, -⟩
  · exact hnan c (hx ▸ hc)
  · exact hinf c (hx ▸ hc)
  · exact hneg c (hx ▸ hc)
  · exact Or.inl (hx.chars c hc)

lemma not_isFloatText {text : String} (h : 'n' ∈ text.toList) : ¬ IsFloatText text := fun hf => by
  have hn := hf.chars 'n' h
  revert hn
  decide

/-- The printed form of a float tells it apart. -/
theorem repr_inj {x y : F} (h : PyFloat.repr x = PyFloat.repr y) : x = y := by
  have hy := repr_cases y
  rw [← h] at hy
  rcases repr_cases x with ⟨hx, rfl⟩ | ⟨hx, rfl⟩ | ⟨hx, rfl⟩ | ⟨hx, hread⟩
  · rw [hx] at hy
    rcases hy with ⟨-, hy⟩ | ⟨hy, -⟩ | ⟨hy, -⟩ | ⟨hy, -⟩
    · exact hy.symm
    · exact absurd hy (by decide)
    · exact absurd hy (by decide)
    · exact absurd hy (not_isFloatText (by decide))
  · rw [hx] at hy
    rcases hy with ⟨hy, -⟩ | ⟨-, hy⟩ | ⟨hy, -⟩ | ⟨hy, -⟩
    · exact absurd hy (by decide)
    · exact hy.symm
    · exact absurd hy (by decide)
    · exact absurd hy (not_isFloatText (by decide))
  · rw [hx] at hy
    rcases hy with ⟨hy, -⟩ | ⟨hy, -⟩ | ⟨-, hy⟩ | ⟨hy, -⟩
    · exact absurd hy (by decide)
    · exact absurd hy (by decide)
    · exact hy.symm
    · exact absurd hy (not_isFloatText (by decide))
  · rcases hy with ⟨hy, -⟩ | ⟨hy, -⟩ | ⟨hy, -⟩ | ⟨-, hy⟩
    · exact absurd hx (not_isFloatText (by rw [hy]; decide))
    · exact absurd hx (not_isFloatText (by rw [hy]; decide))
    · exact absurd hx (not_isFloatText (by rw [hy]; decide))
    · rw [← hread, hy]

end Floats

/-! ### Integers -/

/-- `int.__repr__`. -/
def intText (n : ℤ) : List Char :=
  if n < 0 then '-' :: Nat.toDigits 10 n.natAbs else Nat.toDigits 10 n.natAbs

/-- `int(text)` of the integer of a number. -/
def readInt : List Char → ℤ
  | '-' :: ds => -(Nat.ofDigitChars 10 ds 0 : ℕ)
  | ds => (Nat.ofDigitChars 10 ds 0 : ℕ)

/-- The digits of a positive number do not begin with a zero. -/
lemma toDigits_eq_cons (n : ℕ) (hn : 0 < n) : ∃ c cs, Nat.toDigits 10 n = c :: cs ∧ c ≠ '0' ∧
    c.isDigit = true ∧ ∀ d ∈ cs, d.isDigit = true := by
  have hdigits : ∀ d ∈ Nat.toDigits 10 n, d.isDigit = true := fun d =>
    Nat.isDigit_of_mem_toDigits (by decide) (by decide)
  have hhead : (Nat.toDigits 10 n).head? ≠ some '0' := by
    induction n using Nat.strong_induction_on with
    | _ n ih =>
      rw [Nat.toDigits_eq_if (by decide)]
      split_ifs with hsmall
      · simpa using hn.ne'
      · have hdiv := ih (n / 10) (by omega) (by omega) fun d =>
          Nat.isDigit_of_mem_toDigits (by decide) (by decide)
        cases hrec : Nat.toDigits 10 (n / 10) with
        | nil => exact absurd hrec Nat.toDigits_ne_nil
        | cons c cs =>
          rw [hrec] at hdiv
          exact hdiv
  cases h : Nat.toDigits 10 n with
  | nil => exact absurd h Nat.toDigits_ne_nil
  | cons c cs =>
    rw [h] at hhead hdigits
    exact ⟨c, cs, rfl, fun heq => hhead (congrArg some heq), hdigits c List.mem_cons_self,
      fun d hd => hdigits d (List.mem_cons_of_mem _ hd)⟩

lemma scanDigits_toDigits (n : ℕ) : scanDigits (Nat.toDigits 10 n) = some (Nat.toDigits 10 n, []) := by
  rcases Nat.eq_zero_or_pos n with rfl | hn
  · rfl
  · obtain ⟨c, cs, h, hzero, hc, hcs⟩ := toDigits_eq_cons n hn
    rw [h, scanDigits, if_neg hzero, if_pos hc, List.takeWhile_eq_self_iff.mpr hcs,
      List.dropWhile_eq_nil_iff.mpr hcs]

lemma minus_not_mem_toDigits (n : ℕ) : '-' ∉ Nat.toDigits 10 n := fun h => by
  have hdigit := Nat.isDigit_of_mem_toDigits (by decide) (by decide) h
  revert hdigit
  decide

lemma scanInteger_intText (n : ℤ) : scanInteger (intText n) = some (intText n, []) := by
  unfold intText
  split_ifs
  · simp [scanInteger, scanDigits_toDigits]
  · unfold scanInteger
    split
    · rename_i heq
      exact absurd (heq ▸ List.mem_cons_self) (minus_not_mem_toDigits n.natAbs)
    · exact scanDigits_toDigits _

lemma scanNumber_intText (n : ℤ) : scanNumber (intText n) = some ⟨intText n, [], []⟩ := by
  rw [scanNumber, scanInteger_intText]
  rfl

lemma readInt_intText (n : ℤ) : readInt (intText n) = n := by
  unfold intText
  split_ifs with hneg
  · simp only [readInt, Nat.ofDigitChars_ten_toDigits]
    omega
  · have hread : readInt (Nat.toDigits 10 n.natAbs) =
        (Nat.ofDigitChars 10 (Nat.toDigits 10 n.natAbs) 0 : ℕ) := by
      unfold readInt
      split
      · rename_i heq
        exact absurd (heq ▸ List.mem_cons_self) (minus_not_mem_toDigits n.natAbs)
      · rfl
    rw [hread, Nat.ofDigitChars_ten_toDigits]
    omega

/-- The floats without a fraction, as `repr` prints those that need no exponent.  Arithmetic rounds down. -/
structure WholeFloat where
  value : ℤ
  deriving DecidableEq

namespace WholeFloat

instance : PyFloat WholeFloat where
  ofRat q := ⟨⌊q⌋⟩
  add x y := ⟨x.value + y.value⟩
  sub x y := ⟨x.value - y.value⟩
  mul x y := ⟨x.value * y.value⟩
  div x y := ⟨x.value / y.value⟩
  sqrt x := ⟨x.value.toNat.sqrt⟩
  sum xs := ⟨(xs.map value).sum⟩
  le x y := x.value ≤ y.value
  lt x y := x.value < y.value
  repr x := String.ofList (intText x.value ++ ['.', '0'])

lemma scanNumber_repr (x : WholeFloat) :
    scanNumber (PyFloat.repr x).toList = some ⟨intText x.value, ['.', '0'], []⟩ := by
  have hrest : DigitsEnd ['.', '0'] := by
    rintro _ ⟨⟩
    rfl
  show scanNumber (String.ofList (intText x.value ++ ['.', '0'])).toList = _
  rw [String.toList_ofList, scanNumber, scanInteger_append hrest (scanInteger_intText x.value)]
  rfl

/-- There are no infinite ones: what stands for them is not printed. -/
instance : JsonFloat WholeFloat where
  nan := ⟨0⟩
  infinity := ⟨0⟩
  negInfinity := ⟨0⟩
  ofText text := ⟨((scanNumber text.toList).map fun n => readInt n.integer).getD 0⟩
  repr_cases x := by
    refine Or.inr (Or.inr (Or.inr ⟨⟨_, _, scanNumber_repr x, List.cons_ne_nil _ _⟩, ?_⟩))
    rw [scanNumber_repr, Option.map_some, readInt_intText]
    rfl

end WholeFloat

/-! ### Strings -/

/-- The code of a character in four hexadecimal digits. -/
def unicodeEscape (code : ℕ) : List Char := '\\' :: 'u' :: padded 16 4 code

/-- What stands for a character in a string: two surrogates where one code is not enough. -/
def escape (c : Char) : List Char :=
  if c = '"' then ['\\', '"']
  else if c = '\\' then ['\\', '\\']
  else if c = '\n' then ['\\', 'n']
  else if c = '\r' then ['\\', 'r']
  else if c = '\t' then ['\\', 't']
  else if c = '\x0c' then ['\\', 'f']
  else if c = '\x08' then ['\\', 'b']
  else if ' ' ≤ c ∧ c ≤ '~' then [c]
  else if c.toNat < 0x10000 then unicodeEscape c.toNat
  else
    let code := c.toNat - 0x10000
    unicodeEscape (0xd800 + code / 0x400) ++ unicodeEscape (0xdc00 + code % 0x400)

/-- `encode_basestring_ascii`. -/
def stringText (s : String) : List Char := '"' :: (s.toList.flatMap escape ++ ['"'])

/-- What stands for a character where those beyond ASCII stand for themselves. -/
def escapeBasic (c : Char) : List Char := if c = '"' ∨ c = '\\' ∨ c < ' ' then escape c else [c]

/-- `encode_basestring`. -/
def basicStringText (s : String) : List Char := '"' :: (s.toList.flatMap escapeBasic ++ ['"'])

/-- A part of a string: a character, or the code that stands after `\u`. -/
inductive StringPart where
  | char (c : Char)
  | code (n : ℕ)
  deriving DecidableEq

/-- The character that is written with this one after a backslash. -/
def backslash (c : Char) : Option Char :=
  [('"', '"'), ('\\', '\\'), ('/', '/'), ('b', '\x08'), ('f', '\x0c'), ('n', '\n'), ('r', '\r'),
    ('t', '\t')].lookup c

def hexCode (a b c d : Char) : Option ℕ := do
  return ((((← hexValue a) * 16 + (← hexValue b)) * 16 + (← hexValue c)) * 16 + (← hexValue d))

/-- The parts of a string up to the quote that ends it, and the text after this quote. -/
def scanParts : List Char → Option (List StringPart × List Char)
  | [] => none
  | '"' :: cs => some ([], cs)
  | '\\' :: 'u' :: a :: b :: c :: d :: cs => do
      let code ← hexCode a b c d
      let (parts, rest) ← scanParts cs
      return (.code code :: parts, rest)
  | '\\' :: c :: cs => do
      let c ← backslash c
      let (parts, rest) ← scanParts cs
      return (.char c :: parts, rest)
  | c :: cs => do
      guard (0x20 ≤ c.toNat)
      let (parts, rest) ← scanParts cs
      return (.char c :: parts, rest)

def isHighSurrogate (n : ℕ) : Bool := 0xd800 ≤ n && n ≤ 0xdbff

def isLowSurrogate (n : ℕ) : Bool := 0xdc00 ≤ n && n ≤ 0xdfff

/-- The characters of a string: a high surrogate and a low one make up a character. -/
def joinParts : List StringPart → Option (List Char)
  | [] => some []
  | .char c :: parts => (joinParts parts).map (c :: ·)
  | .code high :: parts =>
      if isHighSurrogate high then
        match parts with
        | .code low :: parts =>
            if isLowSurrogate low then
              (joinParts parts).map (Char.ofNat (0x10000 + (high - 0xd800) * 0x400 + (low - 0xdc00)) :: ·)
            else none
        | _ => none
      else if isLowSurrogate high then none
      else (joinParts parts).map (Char.ofNat high :: ·)

/-- `scanstring`, after the quote that begins the string. -/
def scanString (cs : List Char) : Option (String × List Char) := do
  let (parts, rest) ← scanParts cs
  return (String.ofList (← joinParts parts), rest)

example : scanString "d\\u00e9j\\u00E0 \\ud83d\\ude00\", 1".toList = some ("déjà 😀", ", 1".toList) := by
  decide +kernel

/-- The characters that are written as another one after a backslash. -/
def shortEscapes : List Char := ['"', '\\', '\n', '\r', '\t', '\x0c', '\x08']

/-- The parts that stand for a character. -/
def partsOf (c : Char) : List StringPart :=
  if c ∈ shortEscapes ∨ (' ' ≤ c ∧ c ≤ '~') then [.char c]
  else if c.toNat < 0x10000 then [.code c.toNat]
  else [.code (0xd800 + (c.toNat - 0x10000) / 0x400), .code (0xdc00 + (c.toNat - 0x10000) % 0x400)]

lemma partsOf_of_not {c : Char} (hshort : c ∉ shortEscapes) (hprint : ¬ (' ' ≤ c ∧ c ≤ '~')) :
    partsOf c = if c.toNat < 0x10000 then [.code c.toNat]
      else [.code (0xd800 + (c.toNat - 0x10000) / 0x400), .code (0xdc00 + (c.toNat - 0x10000) % 0x400)] :=
  if_neg (not_or.mpr ⟨hshort, hprint⟩)

lemma hexCode_padded {n : ℕ} (h : n < 16 ^ 4) : ∃ a b c d, padded 16 4 n = [a, b, c, d] ∧
    hexCode a b c d = some n := by
  have hdigit {d : ℕ} (hd : d < 16) : hexValue d.digitChar = some d := (hexValue_digitChar d hd).1
  refine ⟨(n / 4096).digitChar, (n % 4096 / 256).digitChar, (n % 4096 % 256 / 16).digitChar,
    (n % 4096 % 256 % 16 / 1).digitChar, rfl, ?_⟩
  rw [hexCode, hdigit (by omega), hdigit (by omega), hdigit (by omega), hdigit (by omega)]
  refine congrArg some ?_
  omega

section Strings

variable (cs : List Char)

lemma scanParts_unicodeEscape {n : ℕ} (h : n < 16 ^ 4) :
    scanParts (unicodeEscape n ++ cs) = (scanParts cs).map fun p => (.code n :: p.1, p.2) := by
  obtain ⟨a, b, c, d, hpadded, hcode⟩ := hexCode_padded h
  simp only [unicodeEscape, hpadded, List.cons_append, List.nil_append, scanParts, hcode]
  cases scanParts cs <;> rfl

lemma scanParts_backslash {c c' : Char} (hu : c' ≠ 'u') (h : backslash c' = some c) :
    scanParts ('\\' :: c' :: cs) = (scanParts cs).map fun p => (.char c :: p.1, p.2) := by
  rw [scanParts, h]
  · cases scanParts cs <;> rfl
  · exact fun _ _ _ _ _ heq => absurd heq hu

lemma scanParts_char {c : Char} (hquote : c ≠ '"') (hslash : c ≠ '\\') (hc : 0x20 ≤ c.toNat) :
    scanParts (c :: cs) = (scanParts cs).map fun p => (.char c :: p.1, p.2) := by
  rw [scanParts, guard, if_pos hc]
  · cases scanParts cs <;> rfl
  · exact hquote
  · exact fun _ _ _ _ _ heq => absurd heq hslash
  · exact fun _ _ heq => absurd heq hslash

/-- What stands for a character is read into its parts. -/
lemma scanParts_escape (c : Char) :
    scanParts (escape c ++ cs) = (scanParts cs).map fun p => (partsOf c ++ p.1, p.2) := by
  have hnot (h₁ : c ≠ '"') (h₂ : c ≠ '\\') (h₃ : c ≠ '\n') (h₄ : c ≠ '\r') (h₅ : c ≠ '\t') (h₆ : c ≠ '\x0c')
      (h₇ : c ≠ '\x08') : c ∉ shortEscapes := by
    simp only [shortEscapes, List.mem_cons, List.not_mem_nil, not_or, not_false_eq_true, and_true]
    exact ⟨h₁, h₂, h₃, h₄, h₅, h₆, h₇⟩
  unfold escape
  split_ifs with hquote hslash hn hr ht hf hb hprint hcode
  · subst hquote; exact scanParts_backslash cs (by decide) (by decide)
  · subst hslash; exact scanParts_backslash cs (by decide) (by decide)
  · subst hn; exact scanParts_backslash cs (by decide) (by decide)
  · subst hr; exact scanParts_backslash cs (by decide) (by decide)
  · subst ht; exact scanParts_backslash cs (by decide) (by decide)
  · subst hf; exact scanParts_backslash cs (by decide) (by decide)
  · subst hb; exact scanParts_backslash cs (by decide) (by decide)
  · rw [partsOf, if_pos (Or.inr hprint)]
    exact scanParts_char cs hquote hslash hprint.1
  · rw [partsOf_of_not (hnot hquote hslash hn hr ht hf hb) hprint, if_pos hcode]
    exact scanParts_unicodeEscape cs hcode
  · have hlt : c.toNat < 0x110000 := by
      rcases c.valid with h | h
      · exact h.trans (by decide)
      · exact h.2
    rw [partsOf_of_not (hnot hquote hslash hn hr ht hf hb) hprint, if_neg hcode]
    dsimp only
    rw [List.append_assoc, scanParts_unicodeEscape _ (by omega), scanParts_unicodeEscape _ (by omega)]
    cases scanParts cs <;> rfl

/-- The parts that stand for a character make it up. -/
lemma joinParts_partsOf (c : Char) (parts : List StringPart) :
    joinParts (partsOf c ++ parts) = (joinParts parts).map (c :: ·) := by
  have hofNat : Char.ofNat c.toNat = c := Char.ofNat_toNat c
  have hvalid : c.toNat < 0xd800 ∨ (0xdfff < c.toNat ∧ c.toNat < 0x110000) := c.valid
  unfold partsOf
  split_ifs with hchar hcode
  · rfl
  · have hhigh : isHighSurrogate c.toNat = false := by
      simp only [isHighSurrogate, Bool.and_eq_false_iff, decide_eq_false_iff_not]
      omega
    have hlow : isLowSurrogate c.toNat = false := by
      simp only [isLowSurrogate, Bool.and_eq_false_iff, decide_eq_false_iff_not]
      omega
    rw [List.cons_append, List.nil_append, joinParts.eq_def]
    simp only [hhigh, hlow, hofNat, Bool.false_eq_true, if_false]
  · have hhigh : isHighSurrogate (0xd800 + (c.toNat - 0x10000) / 0x400) = true := by
      simp only [isHighSurrogate, Bool.and_eq_true, decide_eq_true_eq]
      omega
    have hlow : isLowSurrogate (0xdc00 + (c.toNat - 0x10000) % 0x400) = true := by
      simp only [isLowSurrogate, Bool.and_eq_true, decide_eq_true_eq]
      omega
    have hcode : 0x10000 + (0xd800 + (c.toNat - 0x10000) / 0x400 - 0xd800) * 0x400 +
        (0xdc00 + (c.toNat - 0x10000) % 0x400 - 0xdc00) = c.toNat := by omega
    simp only [List.cons_append, List.nil_append, joinParts, hhigh, hlow, if_true, hcode, hofNat]

/-- The texts that stand for a character are read into the parts that make it up. -/
structure Written (escape : Char → List Char) (partsOf : Char → List StringPart) : Prop where
  scan : ∀ c cs, scanParts (escape c ++ cs) = (scanParts cs).map fun p => (partsOf c ++ p.1, p.2)
  join : ∀ c parts, joinParts (partsOf c ++ parts) = (joinParts parts).map (c :: ·)

namespace Written

variable {escape : Char → List Char} {partsOf : Char → List StringPart}

lemma scanParts_flatMap (h : Written escape partsOf) (chars : List Char) :
    scanParts (chars.flatMap escape ++ '"' :: cs) = some (chars.flatMap partsOf, cs) := by
  induction chars with
  | nil => rfl
  | cons c chars ih => simp only [List.flatMap_cons, List.append_assoc, h.scan, ih, Option.map_some]

lemma joinParts_flatMap (h : Written escape partsOf) (chars : List Char) :
    joinParts (chars.flatMap partsOf) = some chars := by
  induction chars with
  | nil => rfl
  | cons c chars ih => rw [List.flatMap_cons, h.join, ih, Option.map_some]

/-- A string that was written is read. -/
lemma scanString (h : Written escape partsOf) (s : String) :
    scanString (s.toList.flatMap escape ++ '"' :: cs) = some (s, cs) := by
  simp [Lib.scanString, h.scanParts_flatMap, h.joinParts_flatMap]

end Written

lemma written_escape : Written escape partsOf := ⟨fun c cs => scanParts_escape cs c, joinParts_partsOf⟩

/-- The parts that stand for a character among those beyond ASCII. -/
def basicPartsOf (c : Char) : List StringPart :=
  if c = '"' ∨ c = '\\' ∨ c < ' ' then partsOf c else [.char c]

lemma written_escapeBasic : Written escapeBasic basicPartsOf where
  scan c cs := by
    unfold escapeBasic basicPartsOf
    split_ifs with hc
    · exact scanParts_escape cs c
    · obtain ⟨hquote, hslash, hspace⟩ := not_or.mp hc |>.imp_right not_or.mp
      exact scanParts_char cs hquote hslash (not_lt.mp hspace)
  join c parts := by
    unfold basicPartsOf
    split_ifs
    · exact joinParts_partsOf c parts
    · rfl

end Strings

end Tmis.Lib
