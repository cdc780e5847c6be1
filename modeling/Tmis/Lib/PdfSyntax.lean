import Mathlib.Data.List.Basic
import Mathlib.Data.List.TakeWhile
import Mathlib.Data.Nat.Notation
import Mathlib.Tactic.Common

/-!
# The syntax of PDF

The words of a PDF file and the objects they stand for, read from characters of one byte each.  Names stand as they are
written, and so do the line ends of a text.

* `Token`, `Token.chars`, `lexToken` — the words;
* `lexText_escaped` — a text whose parentheses and backslashes are escaped is read as it was;
* `Spaced`, `lexMany_printed` — words with what separates them are read as these words;
* `Object`, `parseObject`, `Object.references` — objects, and those that they refer to.
-/

namespace Tmis.Lib.Pdf

/-- What holds of each character of a text is decided along the text, not over all the characters there are. -/
scoped instance (priority := 2000) decidableForallMem {p : Char → Prop} [DecidablePred p] (cs : List Char) :
    Decidable (∀ c ∈ cs, p c) := List.decidableBAll p cs

/-! ### Words -/

def isWhite (c : Char) : Bool := c ∈ ['\x00', '\t', '\n', '\x0c', '\r', ' ']

def isDelimiter (c : Char) : Bool := c ∈ ['(', ')', '<', '>', '[', ']', '{', '}', '/', '%']

def isRegular (c : Char) : Bool := !isWhite c && !isDelimiter c

inductive Token where
  | dictOpen | dictClose | arrayOpen | arrayClose
  | name (n : List Char)
  | integer (n : ℤ)
  | keyword (w : List Char)
  | text (s : List Char)
  deriving DecidableEq

/-- The characters of a text that are escaped. -/
def escapeChar (c : Char) : List Char := if c = '\\' ∨ c = '(' ∨ c = ')' then ['\\', c] else [c]

def integerChars : ℤ → List Char
  | .ofNat n => Nat.toDigits 10 n
  | .negSucc n => '-' :: Nat.toDigits 10 (n + 1)

def Token.chars : Token → List Char
  | dictOpen => ['<', '<']
  | dictClose => ['>', '>']
  | arrayOpen => ['[']
  | arrayClose => [']']
  | name n => '/' :: n
  | integer n => integerChars n
  | keyword w => w
  | text s => '(' :: s.flatMap escapeChar ++ [')']

/-! ### Texts -/

/-- Where a text stands: after a backslash, after digits of a number, or after a line end that does not count. -/
inductive TextMode where
  | plain | escape | octal (value digits : ℕ) | lineEnd

structure TextState where
  depth : ℕ
  read : List Char
  mode : TextMode

inductive TextStep where
  | more (s : TextState)
  | done (read : List Char)

def TextState.put (s : TextState) (c : Char) : TextState := { s with read := s.read ++ [c], mode := .plain }

def plainStep (s : TextState) (c : Char) : TextStep :=
  if c = '\\' then .more { s with mode := .escape }
  else if c = '(' then .more { s.put c with depth := s.depth + 1 }
  else if c = ')' then
    match s.depth with
    | 0 => .done s.read
    | depth + 1 => .more { s.put c with depth }
  else .more (s.put c)

def isOctal (c : Char) : Bool := '0' ≤ c && c ≤ '7'

/-- The character after a backslash. -/
def escapeStep (s : TextState) (c : Char) : TextState :=
  if c = 'n' then s.put '\n'
  else if c = 'r' then s.put '\r'
  else if c = 't' then s.put '\t'
  else if c = 'b' then s.put '\x08'
  else if c = 'f' then s.put '\x0c'
  else if isOctal c then { s with mode := .octal (c.toNat - 48) 1 }
  else if c = '\r' then { s with mode := .lineEnd }
  else if c = '\n' then { s with mode := .plain }
  else s.put c

def textStep (s : TextState) (c : Char) : TextStep :=
  match s.mode with
  | .plain => plainStep s c
  | .escape => .more (escapeStep s c)
  | .octal value digits =>
    if isOctal c && digits < 3 then
      .more { s with mode := .octal (8 * value + (c.toNat - 48)) (digits + 1) }
    else plainStep (s.put (Char.ofNat (value % 256))) c
  | .lineEnd => if c = '\n' then .more { s with mode := .plain } else plainStep { s with mode := .plain } c

/-- A text up to the parenthesis that closes it. -/
def lexText : TextState → List Char → Option (List Char × List Char)
  | _, [] => none
  | s, c :: cs =>
    match textStep s c with
    | .more s => lexText s cs
    | .done read => some (read, cs)

/-! ### Reading words -/

def readDigits (ds : List Char) : Option ℕ :=
  if ds ≠ [] ∧ ds.all Char.isDigit then some (Nat.ofDigitChars 10 ds 0) else none

def readInteger : List Char → Option ℤ
  | '-' :: ds => (readDigits ds).map fun n => -(n : ℤ)
  | '+' :: ds => (readDigits ds).map (↑)
  | ds => (readDigits ds).map (↑)

def wordToken (w : List Char) : Token :=
  match readInteger w with
  | some n => .integer n
  | none => .keyword w

/-- A character that only counts with another one like it. -/
def lexDouble (c : Char) (t : Token) : List Char → Option (Token × List Char)
  | d :: cs => if d = c then some (t, cs) else none
  | [] => none

def lexToken : List Char → Option (Token × List Char)
  | [] => none
  | c :: cs =>
    if c = '[' then some (.arrayOpen, cs)
    else if c = ']' then some (.arrayClose, cs)
    else if c = '<' then lexDouble '<' .dictOpen cs
    else if c = '>' then lexDouble '>' .dictClose cs
    else if c = '/' then some (.name (cs.takeWhile isRegular), cs.dropWhile isRegular)
    else if c = '(' then (lexText ⟨0, [], .plain⟩ cs).map fun r => (.text r.1, r.2)
    else if isRegular c then
      some (wordToken (c :: cs.takeWhile isRegular), cs.dropWhile isRegular)
    else none

/-- Words up to one of the keywords, or to the end: these, the keyword, and what comes after it. -/
def lexMany (stops : List (List Char)) : ℕ → List Char → Option (List Token × Option (List Char) × List Char)
  | 0, _ => none
  | fuel + 1, cs =>
    match cs.dropWhile isWhite with
    | [] => some ([], none, [])
    | c :: cs =>
      match lexToken (c :: cs) with
      | some (t, rest) =>
        match stops.find? (fun w => t = .keyword w) with
        | some w => some ([], some w, rest)
        | none => (lexMany stops fuel rest).map fun r => (t :: r.1, r.2)
      | none => none

/-! ### Objects -/

inductive Object where
  | integer (n : ℤ)
  | name (n : List Char)
  | text (s : List Char)
  | reference (id generation : ℤ)
  | array (items : List Object)
  | dict (entries : List (List Char × Object))

mutual

/-- The objects that an object refers to. -/
def Object.references : Object → List (ℤ × ℤ)
  | .reference id generation => [(id, generation)]
  | .array items => itemReferences items
  | .dict entries => entryReferences entries
  | _ => []

def itemReferences : List Object → List (ℤ × ℤ)
  | [] => []
  | x :: xs => x.references ++ itemReferences xs

def entryReferences : List (List Char × Object) → List (ℤ × ℤ)
  | [] => []
  | (_, x) :: xs => x.references ++ entryReferences xs

end

/-- The value under a name. -/
def Object.get (key : List Char) : Object → Option Object
  | dict entries => entries.lookup key
  | _ => none

mutual

/-- The object at the beginning of some words. -/
def parseObject : ℕ → List Token → Option (Object × List Token)
  | _ + 1, .integer id :: .integer generation :: .keyword w :: ts =>
    if w = ['R'] then some (.reference id generation, ts)
    else some (.integer id, .integer generation :: .keyword w :: ts)
  | _ + 1, .integer n :: ts => some (.integer n, ts)
  | _ + 1, .name n :: ts => some (.name n, ts)
  | _ + 1, .text s :: ts => some (.text s, ts)
  | fuel + 1, .arrayOpen :: ts => (parseItems fuel ts).map fun r => (.array r.1, r.2)
  | fuel + 1, .dictOpen :: ts => (parseEntries fuel ts).map fun r => (.dict r.1, r.2)
  | _, _ => none

def parseItems : ℕ → List Token → Option (List Object × List Token)
  | 0, _ => none
  | _ + 1, .arrayClose :: ts => some ([], ts)
  | fuel + 1, ts => do
    let (x, ts) ← parseObject fuel ts
    let (xs, ts) ← parseItems fuel ts
    return (x :: xs, ts)

def parseEntries : ℕ → List Token → Option (List (List Char × Object) × List Token)
  | 0, _ => none
  | _ + 1, .dictClose :: ts => some ([], ts)
  | fuel + 1, .name key :: ts => do
    let (x, ts) ← parseObject fuel ts
    let (xs, ts) ← parseEntries fuel ts
    return ((key, x) :: xs, ts)
  | _, _ => none

end

/-! ### What was written is read -/

section Lexing

/-- **A text whose parentheses and backslashes are escaped** is read as it was. -/
lemma lexText_escaped (s read rest : List Char) :
    lexText ⟨0, read, .plain⟩ (s.flatMap escapeChar ++ ')' :: rest) = some (read ++ s, rest) := by
  induction s generalizing read with
  | nil => simp [lexText, textStep, plainStep]
  | cons c s ih =>
    rw [List.flatMap_cons, List.append_assoc, List.append_cons read c s, ← ih (read ++ [c])]
    unfold escapeChar
    split
    · rename_i hescaped
      obtain rfl | rfl | rfl := hescaped <;> rfl
    · rename_i hplain
      obtain ⟨hbackslash, hopen, hclose⟩ : c ≠ '\\' ∧ c ≠ '(' ∧ c ≠ ')' := by simpa using hplain
      rw [List.singleton_append, lexText]
      simp only [textStep, plainStep, if_neg hbackslash, if_neg hopen, if_neg hclose]
      rfl

/-- What comes after does not go on with a word. -/
def WordEnds (rest : List Char) : Prop := ∀ c ∈ rest.head?, isRegular c = false

lemma takeWhile_word {w rest : List Char} (hw : ∀ c ∈ w, isRegular c = true) (hrest : WordEnds rest) :
    (w ++ rest).takeWhile isRegular = w ∧ (w ++ rest).dropWhile isRegular = rest := by
  have hnone : rest.takeWhile isRegular = [] ∧ rest.dropWhile isRegular = rest := by
    cases rest with
    | nil => exact ⟨rfl, rfl⟩
    | cons c cs =>
      have hc : isRegular c = false := hrest c rfl
      simp [hc]
  rw [List.takeWhile_append_of_pos hw, List.dropWhile_append_of_pos hw, hnone.1, hnone.2, List.append_nil]
  exact ⟨rfl, rfl⟩

/-- What may be written: names and keywords of regular characters; a keyword is not a number. -/
def Token.Valid : Token → Prop
  | name n => ∀ c ∈ n, isRegular c = true
  | keyword w => w ≠ [] ∧ (∀ c ∈ w, isRegular c = true) ∧ readInteger w = none
  | _ => True

/-- A word that goes on until something else begins. -/
def Token.Open : Token → Prop
  | name _ | integer _ | keyword _ => True
  | _ => False

lemma isRegular_of_isDigit {c : Char} (h : c.isDigit = true) : isRegular c = true := by
  by_contra hnot
  have hspecial : c ∈ ['\x00', '\t', '\n', '\x0c', '\r', ' '] ∨
      c ∈ ['(', ')', '<', '>', '[', ']', '{', '}', '/', '%'] := by
    simpa only [isRegular, isWhite, isDelimiter, Bool.and_eq_true, Bool.not_eq_true', decide_eq_false_iff_not,
      not_and_or, not_not] using hnot
  have hdigits : ∀ d ∈ ['\x00', '\t', '\n', '\x0c', '\r', ' '] ++
      ['(', ')', '<', '>', '[', ']', '{', '}', '/', '%'], d.isDigit = false := by decide
  rw [hdigits c (List.mem_append.mpr hspecial)] at h
  cases h

lemma forall_isDigit_toDigits (n : ℕ) : ∀ c ∈ Nat.toDigits 10 n, c.isDigit = true :=
  fun _ hc => Nat.isDigit_of_mem_toDigits (by decide) (by decide) hc

lemma readDigits_toDigits (n : ℕ) : readDigits (Nat.toDigits 10 n) = some n := by
  rw [readDigits, if_pos ⟨Nat.toDigits_ne_nil, List.all_eq_true.mpr (forall_isDigit_toDigits n)⟩,
    Nat.ofDigitChars_toDigits (by decide) (by decide)]

lemma readInteger_integerChars (n : ℤ) : readInteger (integerChars n) = some n := by
  cases n with
  | ofNat n =>
    have hdigits := forall_isDigit_toDigits n
    have hread := readDigits_toDigits n
    rw [integerChars]
    cases hchars : Nat.toDigits 10 n with
    | nil => exact absurd hchars Nat.toDigits_ne_nil
    | cons c cs =>
      rw [hchars] at hdigits hread
      have hc := hdigits c List.mem_cons_self
      unfold readInteger
      split
      · rename_i heq
        cases heq
        cases hc
      · rename_i heq
        cases heq
        cases hc
      · rw [hread]
        rfl
  | negSucc n =>
    rw [integerChars, readInteger, readDigits_toDigits]
    rfl

lemma isRegular_integerChars (n : ℤ) : integerChars n ≠ [] ∧ ∀ c ∈ integerChars n, isRegular c = true := by
  cases n with
  | ofNat n => exact ⟨Nat.toDigits_ne_nil, fun c hc => isRegular_of_isDigit (forall_isDigit_toDigits n c hc)⟩
  | negSucc n =>
    refine ⟨List.cons_ne_nil _ _, List.forall_mem_cons.mpr ⟨by decide, fun c hc => ?_⟩⟩
    exact isRegular_of_isDigit (forall_isDigit_toDigits (n + 1) c hc)

lemma lexToken_word {w rest : List Char} (hne : w ≠ []) (hw : ∀ c ∈ w, isRegular c = true) (hrest : WordEnds rest) :
    lexToken (w ++ rest) = some (wordToken w, rest) := by
  cases w with
  | nil => exact absurd rfl hne
  | cons c cs =>
    obtain ⟨hc, hcs⟩ := List.forall_mem_cons.mp hw
    have hother : ∀ d, isRegular d = false → c ≠ d := by
      intro d hd heq
      rw [heq, hd] at hc
      cases hc
    obtain ⟨htake, hdrop⟩ := takeWhile_word hcs hrest
    rw [List.cons_append, lexToken, if_neg (hother '[' rfl), if_neg (hother ']' rfl), if_neg (hother '<' rfl),
      if_neg (hother '>' rfl), if_neg (hother '/' rfl), if_neg (hother '(' rfl), if_pos hc, htake, hdrop]

/-- **A word that was written** is read, if nothing follows that goes on with it. -/
theorem lexToken_chars {t : Token} (ht : t.Valid) {rest : List Char} (hrest : t.Open → WordEnds rest) :
    lexToken (t.chars ++ rest) = some (t, rest) := by
  cases t with
  | dictOpen => rfl
  | dictClose => rfl
  | arrayOpen => rfl
  | arrayClose => rfl
  | name n =>
    obtain ⟨htake, hdrop⟩ := takeWhile_word ht (hrest trivial)
    show some (Token.name ((n ++ rest).takeWhile isRegular), (n ++ rest).dropWhile isRegular) = _
    rw [htake, hdrop]
  | integer n =>
    obtain ⟨hne, hregular⟩ := isRegular_integerChars n
    rw [Token.chars, lexToken_word hne hregular (hrest trivial), wordToken, readInteger_integerChars]
  | keyword w =>
    obtain ⟨hne, hregular, hread⟩ := ht
    rw [Token.chars, lexToken_word hne hregular (hrest trivial), wordToken, hread]
  | text s =>
    show (lexText ⟨0, [], .plain⟩ ((s.flatMap escapeChar ++ [')']) ++ rest)).map _ = _
    rw [List.append_assoc, List.singleton_append, lexText_escaped]
    rfl

lemma Token.chars_ne_nil {t : Token} (ht : t.Valid) : ∃ c cs, t.chars = c :: cs ∧ isWhite c = false := by
  have hregular : ∀ {w : List Char}, w ≠ [] → (∀ c ∈ w, isRegular c = true) →
      ∃ c cs, w = c :: cs ∧ isWhite c = false := by
    intro w hne hw
    cases w with
    | nil => exact absurd rfl hne
    | cons c cs =>
      have hc := hw c List.mem_cons_self
      rw [isRegular, Bool.and_eq_true, Bool.not_eq_true'] at hc
      exact ⟨c, cs, rfl, hc.1⟩
  cases t with
  | integer n => exact hregular (isRegular_integerChars n).1 (isRegular_integerChars n).2
  | keyword w => exact hregular ht.1 ht.2.1
  | _ => exact ⟨_, _, rfl, by decide⟩

/-! ### Words with what separates them -/

/-- Words, each with the white space after it. -/
def printed (pieces : List (Token × List Char)) : List Char := pieces.flatMap fun piece => piece.1.chars ++ piece.2

/-- The words may be told from each other, and from what comes after them. -/
def Spaced : List (Token × List Char) → List Char → Prop
  | [], _ => True
  | (t, gap) :: pieces, rest =>
    t.Valid ∧ (∀ c ∈ gap, isWhite c = true) ∧ (t.Open → WordEnds (gap ++ printed pieces ++ rest)) ∧
      Spaced pieces rest

lemma lexMany_cons {stops : List (List Char)} {c : Char} (hc : isWhite c = false) (fuel : ℕ) (cs : List Char) :
    lexMany stops (fuel + 1) (c :: cs) =
      match lexToken (c :: cs) with
      | some (t, rest) =>
        match stops.find? (fun w => t = .keyword w) with
        | some w => some ([], some w, rest)
        | none => (lexMany stops fuel rest).map fun r => (t :: r.1, r.2)
      | none => none := by
  rw [lexMany, List.dropWhile_cons_of_neg (by rw [hc]; exact Bool.false_ne_true)]

lemma lexMany_gap (stops : List (List Char)) {gap : List Char} (hgap : ∀ c ∈ gap, isWhite c = true) (fuel : ℕ)
    (cs : List Char) : lexMany stops fuel (gap ++ cs) = lexMany stops fuel cs := by
  cases fuel with
  | zero => rfl
  | succ fuel => rw [lexMany, lexMany, List.dropWhile_append_of_pos hgap]

/-! ### Words that can be told from each other -/

def Token.isValid : Token → Bool
  | name n => n.all isRegular
  | keyword w => !w.isEmpty && w.all isRegular && (readInteger w).isNone
  | _ => true

def Token.isOpen : Token → Bool
  | name _ | integer _ | keyword _ => true
  | _ => false

/-- A word that begins with a delimiter. -/
def Token.delimits : Token → Bool
  | integer _ | keyword _ => false
  | _ => true

/-- Each word ends before the next one begins, and the last one before anything does. -/
def wellSpaced : List (Token × List Char) → Bool
  | [] => true
  | (t, gap) :: pieces =>
    t.isValid && gap.all isWhite &&
      (!t.isOpen || !gap.isEmpty || (pieces.head?.map fun piece => piece.1.delimits).getD false) && wellSpaced pieces

lemma Token.isValid_iff (t : Token) : t.isValid = true ↔ t.Valid := by
  cases t <;> simp [isValid, Valid, and_assoc]

lemma isRegular_of_isWhite {c : Char} (h : isWhite c = true) : isRegular c = false := by
  rw [isRegular, h]
  rfl

/-- A word that begins with a delimiter ends the one before. -/
lemma wordEnds_delimits {t : Token} (h : t.delimits = true) (rest : List Char) : WordEnds (t.chars ++ rest) := by
  intro c hc
  cases t with
  | integer n => cases h
  | keyword w => cases h
  | _ =>
    cases hc
    rfl

lemma spaced_of_wellSpaced {pieces : List (Token × List Char)} (h : wellSpaced pieces = true) (rest : List Char) :
    Spaced pieces rest := by
  induction pieces with
  | nil => trivial
  | cons piece pieces ih =>
    obtain ⟨t, gap⟩ := piece
    simp only [wellSpaced, Bool.and_eq_true, Bool.or_eq_true, Bool.not_eq_true'] at h
    obtain ⟨⟨⟨hvalid, hgap⟩, hends⟩, hpieces⟩ := h
    have hgap := List.all_eq_true.mp hgap
    refine ⟨t.isValid_iff.mp hvalid, hgap, fun hopen => ?_, ih hpieces⟩
    cases gap with
    | cons c gap =>
      intro d hd
      cases hd
      exact isRegular_of_isWhite (hgap c List.mem_cons_self)
    | nil =>
      have hopen' : t.isOpen = true := by cases t <;> first | rfl | cases hopen
      have hnext : (pieces.head?.map fun piece => piece.1.delimits).getD false = true := by
        simpa [hopen'] using hends
      cases pieces with
      | nil => cases hnext
      | cons next pieces =>
        rw [List.nil_append, printed, List.flatMap_cons, List.append_assoc, List.append_assoc]
        exact wordEnds_delimits hnext _

lemma wellSpaced_append {pieces pieces' : List (Token × List Char)} (h : wellSpaced pieces = true)
    (h' : wellSpaced pieces' = true) : wellSpaced (pieces ++ pieces') = true := by
  induction pieces with
  | nil => exact h'
  | cons piece pieces ih =>
    obtain ⟨t, gap⟩ := piece
    rw [List.cons_append]
    simp only [wellSpaced, Bool.and_eq_true] at h ⊢
    obtain ⟨⟨hpiece, hends⟩, hpieces⟩ := h
    refine ⟨⟨hpiece, ?_⟩, ih hpieces⟩
    cases pieces with
    | nil =>
      rw [List.head?_nil, Option.map_none, Option.getD_none, Bool.or_false] at hends
      rw [hends, Bool.true_or]
    | cons next pieces => exact hends

lemma printed_append (pieces pieces' : List (Token × List Char)) :
    printed (pieces ++ pieces') = printed pieces ++ printed pieces' := List.flatMap_append

lemma spaced_append {pieces pieces' : List (Token × List Char)} {rest : List Char}
    (h : Spaced pieces (printed pieces' ++ rest)) (h' : Spaced pieces' rest) : Spaced (pieces ++ pieces') rest := by
  induction pieces with
  | nil => exact h'
  | cons piece pieces ih =>
    obtain ⟨hvalid, hgap, hends, hpieces⟩ := h
    refine ⟨hvalid, hgap, fun hopen => ?_, ih hpieces⟩
    have hword := hends hopen
    rw [← List.append_assoc, List.append_assoc piece.2, ← printed_append] at hword
    exact hword

/-- **Words that were written**, none of them a stop, are read, and then what comes after them. -/
theorem lexMany_printed {stops : List (List Char)} {pieces : List (Token × List Char)} {rest : List Char}
    (h : Spaced pieces rest) (hstops : ∀ piece ∈ pieces, ∀ w ∈ stops, piece.1 ≠ .keyword w) (fuel : ℕ) :
    lexMany stops (pieces.length + (fuel + 1)) (printed pieces ++ rest) =
      (lexMany stops (fuel + 1) rest).map fun r => (pieces.map Prod.fst ++ r.1, r.2) := by
  induction pieces with
  | nil =>
    rw [List.length_nil, Nat.zero_add, printed, List.flatMap_nil, List.nil_append]
    cases lexMany stops (fuel + 1) rest <;> rfl
  | cons piece pieces ih =>
    obtain ⟨t, gap⟩ := piece
    obtain ⟨ht, hgap, hends, hspaced⟩ := h
    obtain ⟨hstop, hstops⟩ := List.forall_mem_cons.mp hstops
    have hfind : stops.find? (fun w => t = .keyword w) = none :=
      List.find?_eq_none.mpr fun w hw htrue => hstop w hw (of_decide_eq_true htrue)
    obtain ⟨c, cs, hchars, hwhite⟩ := Token.chars_ne_nil ht
    have hlex := lexToken_chars ht hends
    rw [hchars, List.cons_append] at hlex
    rw [List.length_cons, Nat.add_right_comm, printed, List.flatMap_cons, hchars, List.cons_append, List.cons_append,
      List.cons_append, lexMany_cons hwhite, ← printed, List.append_assoc cs, List.append_assoc cs, hlex]
    dsimp only
    rw [hfind, List.append_assoc gap, lexMany_gap _ hgap, ih hspaced hstops, Option.map_map]
    rfl

/-! ### References that were written -/

/-- The words of references. -/
def referenceTokens (ids : List ℤ) : List Token := ids.flatMap fun id => [.integer id, .integer 0, .keyword ['R']]

lemma length_referenceTokens (ids : List ℤ) : (referenceTokens ids).length = 3 * ids.length := by
  induction ids with
  | nil => rfl
  | cons id ids ih =>
    have hcons : referenceTokens (id :: ids) =
        .integer id :: .integer 0 :: .keyword ['R'] :: referenceTokens ids := rfl
    rw [hcons, List.length_cons, List.length_cons, List.length_cons, ih, List.length_cons]
    omega

lemma parseItems_references (ids : List ℤ) (ts : List Token) (fuel : ℕ) :
    parseItems (ids.length + (fuel + 2)) (referenceTokens ids ++ .arrayClose :: ts) =
      some (ids.map (.reference · 0), ts) := by
  induction ids with
  | nil => rfl
  | cons id ids ih =>
    rw [List.length_cons, Nat.add_right_comm]
    have hcons : referenceTokens (id :: ids) =
        .integer id :: .integer 0 :: .keyword ['R'] :: referenceTokens ids := rfl
    rw [hcons, ← Nat.add_assoc ids.length fuel 2] at *
    simp only [List.cons_append, parseItems, parseObject, if_pos, Option.bind_eq_bind, Option.bind_some, ih]
    rfl

lemma itemReferences_references (ids : List ℤ) : itemReferences (ids.map (.reference · 0)) = ids.map (·, 0) := by
  induction ids with
  | nil => rfl
  | cons id ids ih =>
    rw [List.map_cons, itemReferences, ih]
    rfl

end Lexing

end Tmis.Lib.Pdf
