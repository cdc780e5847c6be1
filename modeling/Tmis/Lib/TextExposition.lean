import Mathlib.Data.List.Perm.Basic
import Mathlib.Data.List.TakeWhile
import Mathlib.Data.String.Basic
import Tmis.Lib.Dict

/-!
# The text format of metrics

The grammar in which Prometheus reads the line of a sample: a name, labels in braces with quoted values, the
value, and perhaps a timestamp.  Blanks may stand between them.  In a quoted value, a backslash escapes a
quote, a backslash or a line feed.

* `readName`, `readValue`, `readLabels`, `readSample` — the parts of a line, and the line;
* `isMetricName`, `isLabelName`, `isPlain` — the names there are, and the values that need no escapes;
* `plainLine` — a line with its names and values written as they are;
* `isPlain_of_readValue` — a value written as it is and read as it is needs no escapes;
* `readSample_plainLine_iff` — which lines so written read as what was written.
-/

namespace Tmis.Lib.TextExposition

/-! ### The grammar -/

def isBlank (c : Char) : Bool := c = ' ' || c = '\t'

def skipBlanks (cs : List Char) : List Char := cs.dropWhile isBlank

def labelStart (c : Char) : Bool := c.isAlpha || c = '_'

def labelChar (c : Char) : Bool := labelStart c || c.isDigit

def metricStart (c : Char) : Bool := labelStart c || c = ':'

def metricChar (c : Char) : Bool := metricStart c || c.isDigit

/-- A name, and what follows it. -/
def readName (start char : Char → Bool) : List Char → Option (List Char × List Char)
  | [] => none
  | c :: cs => if start c then some (c :: cs.takeWhile char, cs.dropWhile char) else none

/-- A character that has to come next. -/
def readChar (expected : Char) : List Char → Option (List Char)
  | [] => none
  | c :: cs => if c = expected then some cs else none

/-- What a character stands for after a backslash. -/
def unescape (c : Char) : Option Char :=
  if c = '\\' ∨ c = '"' then some c else if c = 'n' then some '\n' else none

/-- The value up to its closing quote, and what follows that. -/
def readValue : List Char → Option (List Char × List Char)
  | [] => none
  | '\\' :: c :: cs => do
      let d ← unescape c
      let (value, rest) ← readValue cs
      return (d :: value, rest)
  | c :: cs =>
      if c = '"' then some ([], cs)
      else if c = '\\' ∨ c = '\n' then none
      else (readValue cs).map fun (value, rest) => (c :: value, rest)

/-- A label, and what follows it. -/
def readLabel (cs : List Char) : Option ((String × String) × List Char) := do
  let (name, cs) ← readName labelStart labelChar (skipBlanks cs)
  let cs ← readChar '=' (skipBlanks cs)
  let cs ← readChar '"' (skipBlanks cs)
  let (value, cs) ← readValue cs
  return ((String.ofList name, String.ofList value), skipBlanks cs)

/-- The labels up to the closing brace, and what follows that.  A comma may follow the last one. -/
def readLabels : ℕ → List Char → Option (List (String × String) × List Char)
  | 0, _ => none
  | fuel + 1, cs =>
      if (skipBlanks cs).head? = some '}' then some ([], (skipBlanks cs).tail)
      else
        (readLabel cs).bind fun (label, cs) =>
          match cs with
          | ',' :: cs => (readLabels fuel cs).map fun (labels, rest) => (label :: labels, rest)
          | '}' :: cs => some ([label], cs)
          | _ => none

/-- Milliseconds, at the end of a line. -/
def isTimestamp (cs : List Char) : Bool :=
  let cs := if cs.head? = some '-' then cs.tail else cs
  cs.head?.any Char.isDigit && (skipBlanks (cs.dropWhile Char.isDigit)).isEmpty

structure Sample (F : Type) where
  name : String
  labels : Dict String String
  value : F

/-- The labels in braces, if there are any, and what follows them. -/
def readBraces (cs : List Char) : Option (List (String × String) × List Char) :=
  match cs with
  | '{' :: cs => readLabels cs.length cs
  | cs => some ([], cs)

/-- The value of a sample, at the end of its line. -/
def readNumber {F : Type} (number : String → Option F) (cs : List Char) : Option F :=
  let ends := fun c => !(isBlank c || c = '\n')
  let rest := skipBlanks (cs.dropWhile ends)
  if rest.isEmpty || isTimestamp rest then number (String.ofList (cs.takeWhile ends)) else none

/-- The sample on a line; `number` reads its value.  No two labels have one name. -/
def readSample {F : Type} (number : String → Option F) (line : String) : Option (Sample F) := do
  let (name, cs) ← readName metricStart metricChar (skipBlanks line.toList)
  let (labels, cs) ← readBraces (skipBlanks cs)
  let value ← readNumber number (skipBlanks cs)
  if h : (labels.map Prod.fst).Nodup then some ⟨String.ofList name, ⟨labels, h⟩, value⟩ else none

/-! ### Lines without escapes -/

/-- Whether a text is a name. -/
def isName (start char : Char → Bool) : List Char → Bool
  | [] => false
  | c :: cs => start c && cs.all char

def isMetricName (s : String) : Bool := isName metricStart metricChar s.toList

def isLabelName (s : String) : Bool := isName labelStart labelChar s.toList

/-- Whether a value is written without escapes. -/
def isPlain (s : String) : Bool := s.toList.all fun c => c ≠ '"' && c ≠ '\\' && c ≠ '\n'

/-- A label written as it is, before what follows it. -/
def plainLabel (label : String × String) (rest : List Char) : List Char :=
  label.1.toList ++ '=' :: '"' :: (label.2.toList ++ '"' :: rest)

/-- What stands after a label: the others, each after a comma, and the closing brace. -/
def plainMore : List (String × String) → List Char → List Char
  | [], rest => '}' :: rest
  | label :: labels, rest => ',' :: plainLabel label (plainMore labels rest)

/-- The labels written as they are, before what follows their closing brace. -/
def plainLabels : List (String × String) → List Char → List Char
  | [], rest => '}' :: rest
  | label :: labels, rest => plainLabel label (plainMore labels rest)

/-- The line of a sample with its names and values written as they are. -/
def plainLine (name : String) (labels : List (String × String)) (value : String) : List Char :=
  name.toList ++ (if labels = [] then ' ' :: value.toList else '{' :: plainLabels labels (' ' :: value.toList))

/-! ### Names -/

section Names

variable {start char : Char → Bool} {cs name rest : List Char}

/-- What is read as a name is one. -/
lemma isName_of_readName (h : readName start char cs = some (name, rest)) : isName start char name = true := by
  cases cs with
  | nil => cases h
  | cons c cs =>
    rw [readName] at h
    by_cases hstart : start c = true
    · rw [if_pos hstart] at h
      cases h
      rw [isName, hstart, Bool.true_and, List.all_takeWhile]
    · rw [if_neg hstart] at h
      cases h

/-- A name is read up to what cannot go on with it. -/
lemma readName_append (hname : isName start char name = true) (hrest : ∀ c ∈ rest.head?, char c = false) :
    readName start char (name ++ rest) = some (name, rest) := by
  cases name with
  | nil => cases hname
  | cons c cs =>
    obtain ⟨hstart, hall⟩ := Bool.and_eq_true_iff.mp hname
    have hpos : ∀ d ∈ cs, char d = true := List.all_eq_true.mp hall
    rw [List.cons_append, readName, if_pos hstart, List.takeWhile_append_of_pos hpos,
      List.dropWhile_append_of_pos hpos]
    cases rest with
    | nil => simp
    | cons d rest =>
      have hd : ¬ char d = true := by simp [hrest d rfl]
      rw [List.takeWhile_cons_of_neg hd, List.dropWhile_cons_of_neg hd, List.append_nil]

/-- Nothing is skipped before a name. -/
lemma skipBlanks_name (hname : isName start char name = true) (hstart : ∀ c, start c = true → isBlank c = false) :
    skipBlanks (name ++ rest) = name ++ rest := by
  cases name with
  | nil => cases hname
  | cons c cs =>
    obtain ⟨hc, -⟩ := Bool.and_eq_true_iff.mp hname
    exact List.dropWhile_cons_of_neg (by simp [hstart c hc])

end Names

lemma isBlank_iff {c : Char} : isBlank c = true ↔ c = ' ' ∨ c = '\t' := by
  rw [isBlank, Bool.or_eq_true, decide_eq_true_iff, decide_eq_true_iff]

lemma isBlank_of_labelStart (c : Char) (h : labelStart c = true) : isBlank c = false := by
  by_contra hblank
  rw [Bool.not_eq_false, isBlank_iff] at hblank
  rcases hblank with rfl | rfl
  · exact absurd h (by decide)
  · exact absurd h (by decide)

lemma isBlank_of_metricStart (c : Char) (h : metricStart c = true) : isBlank c = false := by
  by_contra hblank
  rw [Bool.not_eq_false, isBlank_iff] at hblank
  rcases hblank with rfl | rfl
  · exact absurd h (by decide)
  · exact absurd h (by decide)

lemma skipBlanks_cons {c : Char} (h : isBlank c = false) (cs : List Char) : skipBlanks (c :: cs) = c :: cs :=
  List.dropWhile_cons_of_neg (by simp [h])

/-! ### Values -/

section QuotedValues

variable {value rest rest' : List Char}

lemma readValue_cons {c : Char} (hc : c ≠ '\\') (cs : List Char) : readValue (c :: cs) =
    if c = '"' then some ([], cs) else if c = '\n' then none
    else (readValue cs).map fun (value, rest) => (c :: value, rest) := by
  rw [readValue.eq_def]
  split
  · rename_i h
    cases h
  · rename_i h
    cases h
    exact absurd rfl hc
  · rename_i h
    cases h
    simp [hc]

/-- A backslash is read only off two of them. -/
lemma eq_backslash_of_readValue {c : Char} {cs : List Char}
    (h : readValue ('\\' :: c :: cs) = some ('\\' :: value, rest)) : c = '\\' ∧ readValue cs = some (value, rest) := by
  rw [readValue] at h
  obtain ⟨d, hd, h⟩ := Option.bind_eq_some_iff.mp h
  obtain ⟨read, hread, h⟩ := Option.bind_eq_some_iff.mp h
  cases h
  refine ⟨?_, hread⟩
  unfold unescape at hd
  split at hd
  · exact Option.some.inj hd
  · split at hd
    · cases hd
    · cases hd

/-- A value without anything to escape is read as it is. -/
lemma readValue_append (h : ∀ c ∈ value, c ≠ '"' ∧ c ≠ '\\' ∧ c ≠ '\n') :
    readValue (value ++ '"' :: rest) = some (value, rest) := by
  induction value with
  | nil => exact readValue_cons (by decide) rest
  | cons c cs ih =>
    obtain ⟨hquote, hback, hfeed⟩ := h c List.mem_cons_self
    rw [List.cons_append, readValue_cons hback, if_neg hquote, if_neg hfeed,
      ih fun d hd => h d (List.mem_cons_of_mem c hd)]
    rfl

/-- Backslashes cannot be read off a value that has fewer of them: each of them takes two. -/
lemma readValue_ne_backslashes : ∀ {value : List Char} (k : ℕ),
    readValue (value ++ '"' :: rest) ≠ some (List.replicate (k + 1) '\\' ++ value, rest')
  | [], k, h => by
      rw [List.nil_append, readValue_cons (by decide), if_pos rfl] at h
      cases h
  | c :: cs, k, h => by
      by_cases hback : c = '\\'
      · subst hback
        cases cs with
        | nil => exact absurd (eq_backslash_of_readValue h).1 (by decide)
        | cons c cs =>
          obtain ⟨rfl, hread⟩ := eq_backslash_of_readValue h
          have hshift : List.replicate k '\\' ++ '\\' :: '\\' :: cs = List.replicate (k + 1 + 1) '\\' ++ cs := by
            rw [List.replicate_succ', List.replicate_succ', List.append_assoc, List.append_assoc]
            rfl
          exact readValue_ne_backslashes (k + 1) (hread.trans (by rw [← hshift]; rfl))
      · rw [List.cons_append, readValue_cons hback, List.replicate_succ, List.cons_append] at h
        split at h
        · cases h
        · split at h
          · cases h
          · obtain ⟨read, -, heq⟩ := Option.map_eq_some_iff.mp h
            exact hback (List.cons.inj (Prod.mk.inj heq).1).1

/-- **A value that is written as it is and read as it is needs no escapes.** -/
theorem isPlain_of_readValue : ∀ {value rest' : List Char},
    readValue (value ++ '"' :: rest) = some (value, rest') →
      (∀ c ∈ value, c ≠ '"' ∧ c ≠ '\\' ∧ c ≠ '\n') ∧ rest' = rest
  | [], _, h => by
      rw [List.nil_append, readValue_cons (by decide), if_pos rfl] at h
      cases h
      exact ⟨fun c hc => absurd hc List.not_mem_nil, rfl⟩
  | c :: cs, _, h => by
      by_cases hback : c = '\\'
      · subst hback
        cases cs with
        | nil => exact absurd (eq_backslash_of_readValue h).1 (by decide)
        | cons c cs =>
          obtain ⟨rfl, hread⟩ := eq_backslash_of_readValue h
          exact absurd hread (readValue_ne_backslashes 0)
      · rw [List.cons_append, readValue_cons hback] at h
        split at h
        · cases h
        · rename_i hquote
          split at h
          · cases h
          · rename_i hfeed
            obtain ⟨read, hread, heq⟩ := Option.map_eq_some_iff.mp h
            obtain ⟨hvalue, rfl⟩ := Prod.mk.inj heq
            obtain ⟨-, hvalue⟩ := List.cons.inj hvalue
            have hread' : readValue (cs ++ '"' :: rest) = some (cs, read.2) := by rw [hread, ← hvalue]
            obtain ⟨hplain, hrest⟩ := isPlain_of_readValue hread'
            exact ⟨List.forall_mem_cons.mpr ⟨⟨hquote, hback, hfeed⟩, hplain⟩, hrest⟩

lemma isPlain_iff {s : String} : isPlain s = true ↔ ∀ c ∈ s.toList, c ≠ '"' ∧ c ≠ '\\' ∧ c ≠ '\n' := by
  rw [isPlain, List.all_eq_true]
  refine forall₂_congr fun c _ => ?_
  rw [Bool.and_eq_true, Bool.and_eq_true, decide_eq_true_iff, decide_eq_true_iff, decide_eq_true_iff, and_assoc]

end QuotedValues

/-! ### Labels -/

section Labels

variable {label label' : String × String} {labels labels' : List (String × String)} {cs rest rest' : List Char}
  {fuel : ℕ}

/-- A label that is read has a name. -/
lemma isLabelName_of_readLabel (h : readLabel cs = some (label, rest)) : isLabelName label.1 = true := by
  obtain ⟨name, hname, h⟩ := Option.bind_eq_some_iff.mp h
  obtain ⟨_, -, h⟩ := Option.bind_eq_some_iff.mp h
  obtain ⟨_, -, h⟩ := Option.bind_eq_some_iff.mp h
  obtain ⟨value, -, h⟩ := Option.bind_eq_some_iff.mp h
  cases h
  rw [isLabelName, String.toList_ofList]
  exact isName_of_readName hname

/-- Of a label whose name is one, the value is what is to be read. -/
lemma readLabel_plainLabel (hname : isLabelName label.1 = true) : readLabel (plainLabel label rest) =
    (readValue (label.2.toList ++ '"' :: rest)).map fun (value, rest) =>
      ((label.1, String.ofList value), skipBlanks rest) := by
  have hread : readName labelStart labelChar (skipBlanks (plainLabel label rest)) =
      some (label.1.toList, '=' :: '"' :: (label.2.toList ++ '"' :: rest)) := by
    rw [plainLabel, skipBlanks_name hname isBlank_of_labelStart]
    refine readName_append hname ?_
    rintro c ⟨⟩
    decide
  rw [readLabel, hread, Option.bind_eq_bind, Option.bind_some]
  simp only [skipBlanks_cons (show isBlank '=' = false by decide),
    skipBlanks_cons (show isBlank '"' = false by decide), readChar, if_true, Option.bind_eq_bind,
    Option.bind_some, String.ofList_toList]
  cases readValue (label.2.toList ++ '"' :: rest) with
  | none => rfl
  | some read => rfl

/-- A plain label is read as it is. -/
lemma readLabel_of_isPlain (hname : isLabelName label.1 = true) (hvalue : isPlain label.2 = true) :
    readLabel (plainLabel label rest) = some (label, skipBlanks rest) := by
  rw [readLabel_plainLabel hname, readValue_append (isPlain_iff.mp hvalue), Option.map_some]
  dsimp only
  rw [String.ofList_toList]

/-- The name of a label is read as it is. -/
lemma fst_of_readLabel (hname : isLabelName label.1 = true)
    (h : readLabel (plainLabel label rest) = some (label', rest')) : label'.1 = label.1 := by
  rw [readLabel_plainLabel hname] at h
  obtain ⟨read, -, heq⟩ := Option.map_eq_some_iff.mp h
  rw [← (Prod.mk.inj heq).1]

/-- A label that is read as it is is plain. -/
lemma isPlain_of_readLabel (hname : isLabelName label.1 = true)
    (h : readLabel (plainLabel label rest) = some (label, rest')) :
    isPlain label.2 = true ∧ rest' = skipBlanks rest := by
  rw [readLabel_plainLabel hname] at h
  obtain ⟨read, hread, heq⟩ := Option.map_eq_some_iff.mp h
  obtain ⟨hlabel, rfl⟩ := Prod.mk.inj heq
  have hvalue : label.2.toList = read.1 := by
    rw [← congrArg Prod.snd hlabel, String.toList_ofList]
  have hself : readValue (label.2.toList ++ '"' :: rest) = some (label.2.toList, read.2) := by rw [hread, hvalue]
  obtain ⟨hplain, hrest⟩ := isPlain_of_readValue hself
  exact ⟨isPlain_iff.mpr hplain, congrArg skipBlanks hrest⟩

/-- What reading labels comes to: none, one before the brace, or one before a comma and others. -/
lemma readLabels_cases (h : readLabels (fuel + 1) cs = some (labels, rest)) :
    (labels = [] ∧ (skipBlanks cs).head? = some '}') ∨
    ∃ label after, readLabel cs = some (label, after) ∧
      ((after = '}' :: rest ∧ labels = [label]) ∨
        ∃ others cs', after = ',' :: cs' ∧ readLabels fuel cs' = some (others, rest) ∧ labels = label :: others) := by
  rw [readLabels] at h
  split at h
  · rename_i hbrace
    cases h
    exact Or.inl ⟨rfl, hbrace⟩
  · obtain ⟨⟨label, after⟩, hlabel, h⟩ := Option.bind_eq_some_iff.mp h
    refine Or.inr ⟨label, after, hlabel, ?_⟩
    dsimp only at h
    split at h
    · obtain ⟨others, hothers, heq⟩ := Option.map_eq_some_iff.mp h
      obtain ⟨rfl, rfl⟩ := Prod.mk.inj heq
      exact Or.inr ⟨_, _, rfl, hothers, rfl⟩
    · cases h
      exact Or.inl ⟨rfl, rfl⟩
    · cases h

/-- All labels that are read have names. -/
lemma isLabelName_of_readLabels : ∀ {fuel : ℕ} {cs : List Char} {labels : List (String × String)},
    readLabels fuel cs = some (labels, rest) → ∀ label ∈ labels, isLabelName label.1 = true
  | 0, _, _, h => by cases h
  | fuel + 1, cs, labels, h => by
      rcases readLabels_cases h with ⟨rfl, -⟩ | ⟨label, after, hlabel, ⟨-, rfl⟩ | ⟨others, cs', -, hothers, rfl⟩⟩
      · exact fun label hmem => absurd hmem List.not_mem_nil
      · exact List.forall_mem_singleton.mpr (isLabelName_of_readLabel hlabel)
      · exact List.forall_mem_cons.mpr ⟨isLabelName_of_readLabel hlabel, isLabelName_of_readLabels hothers⟩

/-- Before a label whose name is one there is no closing brace. -/
lemma head?_plainLabel_ne (hname : isLabelName label.1 = true) :
    (skipBlanks (plainLabel label rest)).head? ≠ some '}' := by
  rw [plainLabel, skipBlanks_name hname isBlank_of_labelStart]
  intro h
  rw [isLabelName] at hname
  cases hlist : label.1.toList with
  | nil =>
    rw [hlist] at hname
    cases hname
  | cons c cs =>
    rw [hlist] at hname h
    cases h
    exact absurd hname (by simp [isName, show labelStart '}' = false by decide])

/-- Plain labels are read as they are. -/
lemma readLabels_of_isPlain : ∀ {labels : List (String × String)} {fuel : ℕ}, labels.length < fuel →
    (∀ label ∈ labels, isLabelName label.1 = true ∧ isPlain label.2 = true) →
      readLabels fuel (plainLabels labels rest) = some (labels, rest)
  | _, 0, hfuel, _ => absurd hfuel (Nat.not_lt_zero _)
  | [], fuel + 1, _, _ => by
      rw [readLabels, plainLabels, skipBlanks_cons (by decide), if_pos (by rfl)]
      rfl
  | label :: labels, fuel + 1, hfuel, h => by
      obtain ⟨⟨hname, hvalue⟩, hrest⟩ := List.forall_mem_cons.mp h
      rw [readLabels, plainLabels, if_neg (head?_plainLabel_ne hname), readLabel_of_isPlain hname hvalue,
        Option.bind_some]
      cases labels with
      | nil =>
        rw [plainMore, skipBlanks_cons (by decide)]
        rfl
      | cons next labels =>
        rw [plainMore, skipBlanks_cons (by decide)]
        show (readLabels fuel (plainLabels (next :: labels) rest)).map _ = _
        rw [readLabels_of_isPlain (Nat.succ_lt_succ_iff.mp hfuel) hrest]
        rfl

/-- Labels that are read as they are, in whatever order, are plain. -/
lemma isPlain_of_readLabels : ∀ {labels : List (String × String)} {fuel : ℕ} {labels' : List (String × String)},
    readLabels fuel (plainLabels labels rest) = some (labels', rest') → labels'.Perm labels →
    (labels.map Prod.fst).Nodup → (∀ label ∈ labels, isLabelName label.1 = true) →
      ∀ label ∈ labels, isPlain label.2 = true
  | [], _, _, _, _, _, _ => fun label hmem => absurd hmem List.not_mem_nil
  | label :: labels, 0, labels', h, _, _, _ => by cases h
  | label :: labels, fuel + 1, labels', h, hperm, hnodup, hnames => by
      obtain ⟨hname, hnames⟩ := List.forall_mem_cons.mp hnames
      rcases readLabels_cases h with ⟨rfl, -⟩ | ⟨label', after, hlabel, hafter⟩
      · exact absurd hperm.length_eq (by simp)
      · have hmem : label' ∈ label :: labels := by
          refine hperm.subset ?_
          rcases hafter with ⟨-, rfl⟩ | ⟨others, cs', -, -, rfl⟩
          · exact List.mem_cons_self
          · exact List.mem_cons_self
        -- No other label has this name, so that the value that was read is its value.
        obtain rfl : label = label' :=
          List.inj_on_of_nodup_map hnodup List.mem_cons_self hmem (fst_of_readLabel hname hlabel).symm
        obtain ⟨hvalue, hrest⟩ := isPlain_of_readLabel hname hlabel
        refine List.forall_mem_cons.mpr ⟨hvalue, ?_⟩
        cases labels with
        | nil => exact fun label hmem => absurd hmem List.not_mem_nil
        | cons next labels =>
          rw [plainMore, skipBlanks_cons (by decide)] at hrest
          rcases hafter with ⟨rfl, -⟩ | ⟨others, cs', rfl, hothers, rfl⟩
          · cases hrest
          · cases hrest
            exact isPlain_of_readLabels hothers hperm.cons_inv (List.nodup_cons.mp hnodup).2 hnames

end Labels

/-! ### Lines -/

section Lines

variable {F : Type} {number : String → Option F} {name value : String} {labels : List (String × String)} {x : F}

/-- Whether a text is written with what numbers are written with. -/
def isNumeral (s : String) : Bool := s.toList.all fun c => c.isAlphanum || c = '+' || c = '-' || c = '.'

lemma isPlain_of_isNumeral (h : isNumeral value = true) : isPlain value = true := by
  rw [isPlain, List.all_eq_true]
  intro c hc
  have hnumeral := List.all_eq_true.mp h c hc
  by_contra hplain
  have hcases : c = '"' ∨ c = '\\' ∨ c = '\n' := by
    simpa [Decidable.or_iff_not_imp_left, Classical.not_and_iff_not_or_not] using hplain
  rcases hcases with rfl | rfl | rfl <;> exact absurd hnumeral (by decide)

/-- No blank begins a numeral. -/
lemma skipBlanks_of_isNumeral (h : isNumeral value = true) : skipBlanks value.toList = value.toList := by
  rw [isNumeral] at h
  cases hlist : value.toList with
  | nil => rfl
  | cons c cs =>
    rw [hlist] at h
    have hc := List.all_eq_true.mp h c List.mem_cons_self
    refine skipBlanks_cons ?_ cs
    by_contra hblank
    rw [Bool.not_eq_false, isBlank_iff] at hblank
    rcases hblank with rfl | rfl
    · exact absurd hc (by decide)
    · exact absurd hc (by decide)

lemma readNumber_of_isNumeral (h : isNumeral value = true) : readNumber number value.toList = number value := by
  have hends : ∀ c ∈ value.toList, (!(isBlank c || c = '\n')) = true := by
    intro c hc
    have hnumeral := List.all_eq_true.mp h c hc
    by_contra hend
    rw [Bool.not_eq_true, Bool.not_eq_false', Bool.or_eq_true, isBlank_iff, decide_eq_true_iff] at hend
    rcases hend with (rfl | rfl) | rfl <;> exact absurd hnumeral (by decide)
  rw [readNumber, List.takeWhile_eq_self_iff.mpr hends, List.dropWhile_eq_nil_iff.mpr hends, String.ofList_toList]
  rfl

/-- Every label takes room. -/
lemma length_lt_plainMore (rest : List Char) : ∀ labels : List (String × String),
    labels.length < (plainMore labels rest).length
  | [] => Nat.succ_pos _
  | label :: labels => by
      have ih := length_lt_plainMore rest labels
      simp only [plainMore, plainLabel, List.length_cons, List.length_append]
      omega

lemma length_lt_plainLabels (rest : List Char) : ∀ labels : List (String × String),
    labels.length < (plainLabels labels rest).length
  | [] => Nat.succ_pos _
  | label :: labels => by
      have hmore := length_lt_plainMore rest labels
      simp only [plainLabels, plainLabel, List.length_cons, List.length_append]
      omega

/-- What is read of a line whose name is one. -/
lemma readSample_of_isMetricName (hname : isMetricName name = true) :
    readSample number (String.ofList (plainLine name labels value)) = (do
      let (read, cs) ← readBraces (skipBlanks (if labels = [] then ' ' :: value.toList
        else '{' :: plainLabels labels (' ' :: value.toList)))
      let x ← readNumber number (skipBlanks cs)
      if h : (read.map Prod.fst).Nodup then some ⟨name, ⟨read, h⟩, x⟩ else none) := by
  have hread : readName metricStart metricChar (skipBlanks (plainLine name labels value)) =
      some (name.toList, if labels = [] then ' ' :: value.toList
        else '{' :: plainLabels labels (' ' :: value.toList)) := by
    rw [plainLine, skipBlanks_name hname isBlank_of_metricStart]
    refine readName_append hname ?_
    split
    · rintro c ⟨⟩
      decide
    · rintro c ⟨⟩
      decide
  rw [readSample, String.toList_ofList, hread, Option.bind_eq_bind, Option.bind_some]
  dsimp only
  rw [String.ofList_toList]

/-- The name of a sample that is read is one. -/
lemma isMetricName_of_readSample {line : String} {sample : Sample F} (h : readSample number line = some sample) :
    isMetricName sample.name = true := by
  obtain ⟨read, hname, h⟩ := Option.bind_eq_some_iff.mp h
  obtain ⟨_, -, h⟩ := Option.bind_eq_some_iff.mp h
  obtain ⟨_, -, h⟩ := Option.bind_eq_some_iff.mp h
  split at h
  · cases h
    rw [isMetricName, String.toList_ofList]
    exact isName_of_readName hname
  · cases h

variable (name) in
/-- **Lines that read as what was written**: those whose names are names and whose values need no escapes. -/
theorem readSample_plainLine_iff (hnodup : (labels.map Prod.fst).Nodup) (hnumeral : isNumeral value = true)
    (hvalue : number value = some x) :
    (∃ sample, readSample number (String.ofList (plainLine name labels value)) = some sample ∧
      sample.name = name ∧ sample.labels.entries.Perm labels ∧ sample.value = x) ↔
    isMetricName name = true ∧ ∀ label ∈ labels, isLabelName label.1 = true ∧ isPlain label.2 = true := by
  constructor
  · rintro ⟨sample, hread, rfl, hperm, -⟩
    have hname := isMetricName_of_readSample hread
    refine ⟨hname, ?_⟩
    rw [readSample_of_isMetricName hname] at hread
    obtain ⟨⟨read, cs⟩, hbraces, hread⟩ := Option.bind_eq_some_iff.mp hread
    obtain ⟨_, -, hread⟩ := Option.bind_eq_some_iff.mp hread
    have hentries : sample.labels.entries = read := by
      split at hread
      · rw [← Option.some.inj hread]
      · cases hread
    rw [hentries] at hperm
    by_cases hnil : labels = []
    · subst hnil
      exact fun label hmem => absurd hmem List.not_mem_nil
    · rw [if_neg hnil, skipBlanks_cons (by decide)] at hbraces
      have hlabels : readLabels _ (plainLabels labels (' ' :: value.toList)) = some (read, cs) := hbraces
      have hnames : ∀ label ∈ labels, isLabelName label.1 = true := fun label hmem =>
        isLabelName_of_readLabels hlabels label (hperm.symm.subset hmem)
      have hplain := isPlain_of_readLabels hlabels hperm hnodup hnames
      exact fun label hmem => ⟨hnames label hmem, hplain label hmem⟩
  · rintro ⟨hname, hlabels⟩
    have hblank : skipBlanks (' ' :: value.toList) = value.toList := skipBlanks_of_isNumeral hnumeral
    have hbraces : ∃ cs, readBraces (skipBlanks (if labels = [] then ' ' :: value.toList
        else '{' :: plainLabels labels (' ' :: value.toList))) = some (labels, cs) ∧
          skipBlanks cs = value.toList := by
      split
      · rename_i hnil
        refine ⟨value.toList, ?_, skipBlanks_of_isNumeral hnumeral⟩
        rw [hblank, hnil, readBraces.eq_def]
        split
        · rename_i cs hbrace
          have hmem : '{' ∈ value.toList := by
            rw [hbrace]
            exact List.mem_cons_self
          exact absurd (List.all_eq_true.mp hnumeral '{' hmem) (by decide)
        · rfl
      · rw [skipBlanks_cons (by decide)]
        exact ⟨' ' :: value.toList, readLabels_of_isPlain (length_lt_plainLabels _ _) hlabels, hblank⟩
    obtain ⟨cs, hbraces, hcs⟩ := hbraces
    refine ⟨⟨name, ⟨labels, hnodup⟩, x⟩, ?_, rfl, List.Perm.refl _, rfl⟩
    rw [readSample_of_isMetricName hname, hbraces]
    show (readNumber number (skipBlanks cs)).bind _ = _
    rw [hcs, readNumber_of_isNumeral hnumeral, hvalue, Option.bind_some, dif_pos hnodup]

end Lines

end Tmis.Lib.TextExposition
