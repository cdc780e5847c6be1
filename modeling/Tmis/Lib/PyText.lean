import Mathlib.Data.List.Sort
import Tmis.Lib.Python

/-!
# Texts

What the modelled services take from `str` and `re` beyond concatenation.  The case and class tables
of the characters are the interpreter's; here they are parameters.

* `PyText` — the calls that depend on these tables;
* `occursIn`, `joinSorted`, `slice` — the calls that do not;
* `strip`, `splitLines` — white space at the ends, and the lines of a text;
* `filter_splitLinesFrom` — the lines, up to blank ones, are the pieces between line breaks;
* `append_sep_inj` — a text is cut in one way at the last separator;
* `toString_int_inj` — an integer is known by its text;
* `perm_of_joinSorted_eq` — joined names are known up to their order;
* `PyText.ascii` — the tables of the first 128 characters.
-/

namespace Tmis.Lib

/-- `s in t`. -/
def occursIn (s t : String) : Bool := t.toList.tails.any fun rest => s.toList.isPrefixOf rest

/-- `sep.join(sorted(names))`. -/
def joinSorted (sep : String) (names : List String) : String :=
  sep.intercalate (names.insertionSort (· ≤ ·))

/-- `a or b` of two texts, where `None` and the empty text are false. -/
def orText : Option String → Option String → Option String
  | some a, b => if a = "" then b else some a
  | none, b => b

/-- Where an index of a slice points to: a negative one counts from the end. -/
def sliceIndex (length : ℕ) (i : ℤ) : ℕ := if i < 0 then (length + i).toNat else min i.toNat length

/-- `s[start:stop]`. -/
def slice (s : String) (start stop : ℤ) : String :=
  String.ofList ((s.toList.take (sliceIndex s.length stop)).drop (sliceIndex s.length start))

/-- `items[:stop]`. -/
def sliceTo {α : Type*} (items : List α) (stop : ℤ) : List α := items.take (sliceIndex items.length stop)

/-- A slice that begins within a text, or at its end. -/
lemma slice_natCast (s : String) (i n : ℕ) : slice s i (i + n) = String.ofList ((s.toList.drop i).take n) := by
  have hstart : sliceIndex s.length i = min i s.length := by
    rw [sliceIndex, if_neg (by omega), Int.toNat_natCast]
  have hstop : sliceIndex s.length (i + n) = min (i + n) s.length := by
    rw [sliceIndex, if_neg (by omega)]
    congr 1
  have hlength : s.toList.length = s.length := String.length_toList
  rw [slice, hstart, hstop, ← hlength, ← List.take_eq_take_min, List.drop_take]
  congr 1
  rcases Nat.le_total i s.toList.length with hle | hle
  · rw [min_eq_left hle, List.take_eq_take_iff, List.length_drop]
    omega
  · rw [min_eq_right hle, List.drop_length, List.drop_of_length_le hle, List.take_nil, List.take_nil]

/-- A list is cut in one way at the first separator. -/
lemma append_cons_inj {α : Type*} {sep : α} : ∀ {a b s t : List α}, sep ∉ a → sep ∉ b →
    a ++ sep :: s = b ++ sep :: t → a = b ∧ s = t
  | [], [], _, _, _, _, h => ⟨rfl, (List.cons.inj h).2⟩
  | [], y :: b, _, _, _, hb, h => by
      obtain ⟨rfl, -⟩ := List.cons.inj h
      exact absurd List.mem_cons_self hb
  | x :: a, [], _, _, ha, _, h => by
      obtain ⟨rfl, -⟩ := List.cons.inj h
      exact absurd List.mem_cons_self ha
  | x :: a, y :: b, _, _, ha, hb, h => by
      obtain ⟨rfl, htail⟩ := List.cons.inj h
      obtain ⟨rfl, hst⟩ := append_cons_inj (fun hx => ha (List.mem_cons_of_mem _ hx))
        (fun hx => hb (List.mem_cons_of_mem _ hx)) htail
      exact ⟨rfl, hst⟩

/-- A text is cut in one way at the last separator. -/
lemma append_sep_inj {sep : Char} {s t a b : String} (ha : sep ∉ a.toList) (hb : sep ∉ b.toList)
    (h : s ++ String.singleton sep ++ a = t ++ String.singleton sep ++ b) : s = t ∧ a = b := by
  have hlist := congrArg (fun x => x.toList.reverse) h
  simp only [String.toList_append, List.reverse_append, String.toList_singleton,
    List.reverse_cons, List.append_assoc, List.singleton_append] at hlist
  obtain ⟨hab, hst⟩ := append_cons_inj (by simpa using ha) (by simpa using hb) hlist
  exact ⟨String.toList_injective (List.reverse_injective hst),
    String.toList_injective (List.reverse_injective hab)⟩

/-- An integer is known by its text. -/
lemma toString_int_inj {m n : ℤ} (h : toString m = toString n) : m = n := by
  have hminus : ∀ a b : ℕ, toString a ≠ "-" ++ toString b := by
    intro a b heq
    have hmem : '-' ∈ (toString a).toList := by
      rw [heq]
      simp
    exact absurd (isDigit_of_mem_toString hmem) (by decide)
  cases m with
  | ofNat a =>
    cases n with
    | ofNat b => rw [toString_nat_inj h]
    | negSucc b => exact absurd h (hminus a (b + 1))
  | negSucc a =>
    cases n with
    | ofNat b => exact absurd h.symm (hminus b (a + 1))
    | negSucc b =>
      have habs : toString (a + 1) = toString (b + 1) := (String.append_right_inj "-").mp h
      rw [Nat.succ.inj (toString_nat_inj habs)]

lemma mem_intercalate {α : Type*} {x : α} {sep : List α} : ∀ {ls : List (List α)}, x ∈ sep.intercalate ls →
    x ∈ sep ∨ ∃ l ∈ ls, x ∈ l
  | [], h => by simp at h
  | [l], h => Or.inr ⟨l, List.mem_cons_self, by simpa using h⟩
  | l :: m :: ls, h => by
      rw [List.intercalate_cons_cons, List.mem_append, List.mem_append] at h
      rcases h with (h | h) | h
      · exact Or.inr ⟨l, List.mem_cons_self, h⟩
      · exact Or.inl h
      · exact (mem_intercalate h).imp_right fun ⟨k, hk, hx⟩ => ⟨k, List.mem_cons_of_mem _ hk, hx⟩

/-- The characters of joined names are those of the separator and of the names. -/
lemma mem_joinSorted {sep : String} {names : List String} {c : Char} (h : c ∈ (joinSorted sep names).toList) :
    c ∈ sep.toList ∨ ∃ name ∈ names, c ∈ name.toList := by
  rw [joinSorted, String.toList_intercalate] at h
  refine (mem_intercalate h).imp_right ?_
  rintro ⟨l, hl, hc⟩
  obtain ⟨name, hname, rfl⟩ := List.mem_map.mp hl
  exact ⟨name, (List.mem_insertionSort _).mp hname, hc⟩

/-- Joined names that are free of the separator are known up to their order. -/
lemma perm_of_joinSorted_eq {sep : Char} {names names' : List String} (hne : names ≠ []) (hne' : names' ≠ [])
    (hsep : ∀ name ∈ names, sep ∉ name.toList) (hsep' : ∀ name ∈ names', sep ∉ name.toList)
    (h : joinSorted (String.singleton sep) names = joinSorted (String.singleton sep) names') :
    names.Perm names' := by
  have hsplit {xs : List String} (hne : xs ≠ []) (hsep : ∀ x ∈ xs, sep ∉ x.toList) :
      ((joinSorted (String.singleton sep) xs).toList.splitOn sep) =
        (xs.insertionSort (· ≤ ·)).map String.toList := by
    rw [joinSorted, String.toList_intercalate, String.toList_singleton, List.splitOn_intercalate]
    · intro l hl
      obtain ⟨x, hx, rfl⟩ := List.mem_map.mp hl
      exact hsep x ((List.mem_insertionSort _).mp hx)
    · intro hnil
      have hperm := List.perm_insertionSort (· ≤ ·) xs
      rw [List.map_eq_nil_iff.mp hnil] at hperm
      exact hne hperm.nil_eq.symm
  have hlists : names.insertionSort (· ≤ ·) = names'.insertionSort (· ≤ ·) := by
    refine List.map_injective_iff.mpr (fun _ _ => String.toList_injective) ?_
    rw [← hsplit hne hsep, ← hsplit hne' hsep', h]
  exact (List.perm_insertionSort _ names).symm.trans (hlists ▸ List.perm_insertionSort _ names')

/-! ### White space and lines -/

/-- `str.isspace` of one character. -/
def isSpaceChar (c : Char) : Bool :=
  c = ' ' || ('\t' ≤ c && c ≤ '\r') || (28 ≤ c.toNat && c.toNat ≤ 31) || c.toNat = 0x85 || c.toNat = 0xa0 ||
    c.toNat = 0x1680 || (0x2000 ≤ c.toNat && c.toNat ≤ 0x200a) || c.toNat = 0x2028 || c.toNat = 0x2029 ||
    c.toNat = 0x202f || c.toNat = 0x205f || c.toNat = 0x3000

/-- The characters without those that satisfy `p` at both ends. -/
def stripChars (p : Char → Bool) (cs : List Char) : List Char := ((cs.dropWhile p).reverse.dropWhile p).reverse

/-- `str.strip()`. -/
def strip (s : String) : String := String.ofList (stripChars isSpaceChar s.toList)

/-- The characters at which a line ends. -/
def isLineBreak (c : Char) : Bool :=
  ('\n' ≤ c && c ≤ '\r') || (28 ≤ c.toNat && c.toNat ≤ 30) || c.toNat = 0x85 || c.toNat = 0x2028 || c.toNat = 0x2029

/-- The lines from where `line` has been read of one of them. -/
def splitLinesFrom (line : List Char) : List Char → List (List Char)
  | [] => if line = [] then [] else [line]
  | '\r' :: '\n' :: cs => line :: splitLinesFrom [] cs
  | c :: cs => if isLineBreak c then line :: splitLinesFrom [] cs else splitLinesFrom (line ++ [c]) cs

/-- `str.splitlines()`. -/
def splitLines (s : String) : List String := (splitLinesFrom [] s.toList).map String.ofList

/-- The lines, without what is as blank as an empty one, are the pieces between the line breaks. -/
lemma filter_splitLinesFrom (filled : List Char → Bool) (hnil : filled [] = false) (line cs : List Char) :
    (splitLinesFrom line cs).filter filled = ((cs.splitOnP isLineBreak).modifyHead (line ++ ·)).filter filled := by
  induction line, cs using splitLinesFrom.induct with
  | case1 =>
    rw [splitLinesFrom, if_pos rfl, List.splitOnP_nil]
    simp [hnil]
  | case2 line hline =>
    rw [splitLinesFrom, if_neg hline, List.splitOnP_nil]
    simp
  | case3 line cs ih =>
    have hbreaks : isLineBreak '\r' = true ∧ isLineBreak '\n' = true := by decide
    rw [splitLinesFrom, List.filter_cons, ih, List.splitOnP_cons_eq_if_modifyHead, if_pos hbreaks.1,
      List.splitOnP_cons_eq_if_modifyHead, if_pos hbreaks.2]
    simp [List.filter_cons, hnil]
    cases cs.splitOnP isLineBreak <;> rfl
  | case4 line c cs hcr hbreak ih =>
    rw [splitLinesFrom, if_pos hbreak, List.filter_cons, ih, List.splitOnP_cons_eq_if_modifyHead, if_pos hbreak]
    simp [List.filter_cons]
    cases cs.splitOnP isLineBreak <;> rfl
    exact hcr
  | case5 line c cs hcr hbreak ih =>
    rw [splitLinesFrom, if_neg hbreak, ih, List.splitOnP_cons_eq_if_modifyHead, if_neg hbreak]
    cases cs.splitOnP isLineBreak <;> simp
    exact hcr

/-- Who cuts at more places cuts each of the pieces. -/
lemma splitOnP_of_le {p q : Char → Bool} (h : ∀ c, q c = true → p c = true) (cs : List Char) :
    cs.splitOnP p = (cs.splitOnP q).flatMap (·.splitOnP p) := by
  induction cs with
  | nil => rfl
  | cons c cs ih =>
    rw [List.splitOnP_cons_eq_if_modifyHead, List.splitOnP_cons_eq_if_modifyHead]
    by_cases hq : q c = true
    · rw [if_pos hq, if_pos (h c hq), List.flatMap_cons, List.splitOnP_nil, ih]
      rfl
    · rw [if_neg hq, ih]
      obtain ⟨piece, pieces, hpieces⟩ := List.exists_cons_of_ne_nil (List.splitOnP_ne_nil q cs)
      obtain ⟨first, rest, hfirst⟩ := List.exists_cons_of_ne_nil (List.splitOnP_ne_nil p piece)
      rw [hpieces, List.modifyHead_cons, List.flatMap_cons, List.flatMap_cons, List.splitOnP_cons_eq_if_modifyHead,
        hfirst]
      split_ifs <;> rfl

/-- The calls on texts that look at the class or the case of a character.  `words` finds the runs of
letters, `squeeze` replaces each run of white space by one space. -/
structure PyText where
  strip : String → String
  lower : String → String
  squeeze : String → String
  words : String → List String
  isDigit : String → Bool
  int : String → Except PyException ℤ

namespace PyText

/-- `str.isspace` of one character. -/
def isAsciiSpace (c : Char) : Bool :=
  c = ' ' || ('\t' ≤ c && c ≤ '\r') || (28 ≤ c.toNat && c.toNat ≤ 31)

/-- The runs of characters that satisfy `p`. -/
def runs (p : Char → Bool) (s : String) : List String :=
  ((s.toList.splitOnP fun c => !p c).filter (· ≠ [])).map String.ofList

/-- The decimal number written in a text of ASCII digits. -/
def digits (s : String) : ℤ := s.toList.foldl (fun n c => 10 * n + (c.toNat - '0'.toNat)) 0

/-- The calls on texts of the first 128 characters. -/
def ascii : PyText where
  strip s :=
    String.ofList (((s.toList.dropWhile isAsciiSpace).reverse.dropWhile isAsciiSpace).reverse)
  lower s := String.ofList (s.toList.map Char.toLower)
  squeeze s := " ".intercalate ((s.toList.splitOnP isAsciiSpace).filter (· ≠ []) |>.map String.ofList)
  words := runs Char.isAlpha
  isDigit s := s ≠ "" && s.toList.all Char.isDigit
  int s :=
    if s ≠ "" ∧ s.toList.all Char.isDigit then .ok (digits s)
    else .error (valueError ("invalid literal for int() with base 10: " ++ pyRepr s))

end PyText

end Tmis.Lib
