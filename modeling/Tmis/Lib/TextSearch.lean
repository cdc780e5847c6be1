import Mathlib.Data.List.Basic
import Mathlib.Data.List.Count
import Mathlib.Data.List.Infix

/-!
# Lower case and searching

`str.lower`, which writes two characters for one of them, and `str.find`, for each occurrence after the other.

* `CaseTables`, `lowerFrom` — the characters of a text in lower case;
* `position` — where a character of a text stands in its lower case;
* `prefix_lowerFrom_iff`, `prefix_drop_lowerFrom` — a word without the signs that depend on more than one character
  stands in the lower case of a text where it stands in the text, up to case;
* `find`, `Leftmost` — the first occurrence from a place on, and the occurrences that are found one after the other;
* `Unbordered` — words whose occurrences stand apart.
-/

namespace Tmis.Lib

/-! ### Lower case -/

/-- The tables behind `str.lower`: the small letter of a character, and the classes that the small letter of a sigma
depends on. -/
structure CaseTables where
  lowerOf : Char → Char
  cased : Char → Bool
  caseIgnorable : Char → Bool

/-- The dot that is left of `İ`. -/
def dotAbove : Char := Char.ofNat 0x307

/-- A sigma at the end of a word: a letter is before it, and none after it. -/
def finalSigma (tables : CaseTables) (before after : List Char) : Bool :=
  ((before.dropWhile tables.caseIgnorable).head?.any tables.cased) &&
    !((after.dropWhile tables.caseIgnorable).head?.any tables.cased)

/-- The lower case of what comes after the characters `before`, the last one first. -/
def lowerFrom (tables : CaseTables) (before : List Char) : List Char → List Char
  | [] => []
  | c :: cs =>
    if c = 'İ' then 'i' :: dotAbove :: lowerFrom tables (c :: before) cs
    else if c = 'Σ' then (if finalSigma tables before cs then 'ς' else 'σ') :: lowerFrom tables (c :: before) cs
    else tables.lowerOf c :: lowerFrom tables (c :: before) cs

/-- `str.lower`. -/
def CaseTables.lower (tables : CaseTables) (s : String) : String := String.ofList (lowerFrom tables [] s.toList)

/-- A word whose characters are the lower case of one character each, whatever stands around them. -/
structure Plain (word : List Char) : Prop where
  ne_nil : word ≠ []
  chars : ∀ c ∈ word, c ≠ dotAbove ∧ c ≠ 'ς' ∧ c ≠ 'σ'
  last : word.getLast? ≠ some 'i'

instance (word : List Char) : Decidable (Plain word) :=
  decidable_of_iff (word ≠ [] ∧ (word.all fun c => c ≠ dotAbove ∧ c ≠ 'ς' ∧ c ≠ 'σ') ∧ word.getLast? ≠ some 'i') <| by
    rw [List.all_eq_true]
    simp only [decide_eq_true_eq]
    exact ⟨fun h => ⟨h.1, h.2.1, h.2.2⟩, fun h => ⟨h.ne_nil, h.chars, h.last⟩⟩

/-- The word stands at the beginning of the text, up to case. -/
def Begins (tables : CaseTables) : List Char → List Char → Prop
  | [], _ => True
  | _ :: _, [] => False
  | x :: word, c :: cs => (c ≠ 'İ' ∧ c ≠ 'Σ' ∧ tables.lowerOf c = x) ∧ Begins tables word cs

section Lower

variable {tables : CaseTables} {word before cs : List Char}

lemma Plain.tail {x : Char} (h : Plain (x :: word)) (hword : word ≠ []) : Plain word where
  ne_nil := hword
  chars := fun c hc => h.chars c (List.mem_cons_of_mem _ hc)
  last := by
    have hlast := h.last
    rwa [List.getLast?_cons_of_ne_nil hword] at hlast

/-- **The lower case of a text begins with a word** iff the text does, up to case. -/
theorem prefix_lowerFrom_iff (h : Plain word) : word <+: lowerFrom tables before cs ↔ Begins tables word cs := by
  induction word generalizing before cs with
  | nil => exact absurd rfl h.ne_nil
  | cons x word ih =>
    have hrest : ∀ before cs, word <+: lowerFrom tables before cs ↔ Begins tables word cs := by
      intro before cs
      by_cases hword : word = []
      · rw [hword]
        exact iff_of_true List.nil_prefix trivial
      · exact ih (h.tail hword)
    obtain ⟨hdot, hfinal, hsigma⟩ := h.chars x List.mem_cons_self
    cases cs with
    | nil =>
      rw [lowerFrom]
      exact iff_of_false (fun hprefixed => List.cons_ne_nil _ _ (List.prefix_nil.mp hprefixed)) id
    | cons c cs =>
      rw [lowerFrom, Begins]
      by_cases hdotted : c = 'İ'
      · -- After the dot's letter, the word would go on with the dot.
        rw [if_pos hdotted]
        refine iff_of_false (fun hprefixed => ?_) fun hbegins => hbegins.1.1 hdotted
        obtain ⟨hx, hprefixed⟩ := List.cons_prefix_cons.mp hprefixed
        cases word with
        | nil =>
          apply h.last
          rw [hx, List.getLast?_singleton]
        | cons y word =>
          have hy := (List.cons_prefix_cons.mp hprefixed).1
          exact (h.chars y (List.mem_cons_of_mem _ List.mem_cons_self)).1 hy
      rw [if_neg hdotted]
      by_cases hcapital : c = 'Σ'
      · rw [if_pos hcapital]
        refine iff_of_false (fun hprefixed => ?_) fun hbegins => hbegins.1.2.1 hcapital
        have hx := (List.cons_prefix_cons.mp hprefixed).1
        by_cases hend : finalSigma tables before cs = true
        · exact hfinal (hx.trans (if_pos hend))
        · exact hsigma (hx.trans (if_neg hend))
      · rw [if_neg hcapital, List.cons_prefix_cons, hrest]
        exact and_congr_left fun _ => ⟨fun hx => ⟨hdotted, hcapital, hx.symm⟩, fun hx => hx.2.2.symm⟩

/-- So much of the text is written as the word. -/
lemma lowerFrom_take (h : Begins tables word cs) : lowerFrom tables before (cs.take word.length) = word := by
  induction word generalizing before cs with
  | nil => rw [List.length_nil, List.take_zero, lowerFrom]
  | cons x word ih =>
    cases cs with
    | nil => exact h.elim
    | cons c cs =>
      obtain ⟨⟨hdotted, hcapital, hx⟩, h⟩ := h
      rw [List.length_cons, List.take_succ_cons, lowerFrom, if_neg hdotted, if_neg hcapital, hx, ih h]

/-- What is cut off later does not matter. -/
lemma Begins.of_take {n : ℕ} (h : Begins tables word (cs.take n)) : Begins tables word cs := by
  induction word generalizing cs n with
  | nil => trivial
  | cons x word ih =>
    cases cs with
    | nil =>
      rw [List.take_nil] at h
      exact h
    | cons c cs =>
      cases n with
      | zero => exact h.elim
      | succ n => exact ⟨h.1, ih h.2⟩

/-- A part of a text is written as a word iff the word begins there. -/
lemma exists_lowerFrom_take_iff (h : Plain word) :
    (∃ n, lowerFrom tables before (cs.take n) = word) ↔ Begins tables word cs := by
  constructor
  · rintro ⟨n, hn⟩
    have hprefixed : word <+: lowerFrom tables before (cs.take n) := by simp [hn]
    exact ((prefix_lowerFrom_iff h).mp hprefixed).of_take
  · exact fun hbegins => ⟨word.length, lowerFrom_take hbegins⟩

/-- Where the `j`th character of a text stands in its lower case. -/
def position (cs : List Char) (j : ℕ) : ℕ := j + (cs.take j).count 'İ'

lemma position_cons (c : Char) (cs : List Char) (j : ℕ) :
    position (c :: cs) (j + 1) = position cs j + if c = 'İ' then 2 else 1 := by
  rw [position, position, List.take_succ_cons, List.count_cons]
  simp only [beq_iff_eq]
  split_ifs <;> omega

/-- A character keeps its place iff no `İ` is before it. -/
lemma position_eq_self_iff (cs : List Char) (j : ℕ) : position cs j = j ↔ 'İ' ∉ cs.take j := by
  rw [position, ← List.count_eq_zero (α := Char)]
  omega

lemma le_position (cs : List Char) (j : ℕ) : j ≤ position cs j := Nat.le_add_right _ _

lemma drop_position (tables : CaseTables) (before : List Char) {cs : List Char} {j : ℕ} (h : j ≤ cs.length) :
    ∃ before', (lowerFrom tables before cs).drop (position cs j) = lowerFrom tables before' (cs.drop j) := by
  induction cs generalizing before j with
  | nil =>
    obtain rfl := Nat.le_zero.mp h
    exact ⟨before, rfl⟩
  | cons c cs ih =>
    cases j with
    | zero => exact ⟨before, rfl⟩
    | succ j =>
      obtain ⟨before', hdrop⟩ := ih (c :: before) (Nat.le_of_succ_le_succ h)
      refine ⟨before', ?_⟩
      rw [position_cons, lowerFrom, List.drop_succ_cons, ← hdrop]
      split_ifs <;> rfl

/-- **A word in the lower case of a text** stands at the position of where it stands in the text. -/
theorem prefix_drop_lowerFrom (hword : Plain word) {p : ℕ} (h : word <+: (lowerFrom tables before cs).drop p) :
    ∃ j, j ≤ cs.length ∧ p = position cs j ∧ Begins tables word (cs.drop j) := by
  induction cs generalizing before p with
  | nil =>
    rw [lowerFrom, List.drop_nil] at h
    exact absurd (List.prefix_nil.mp h) hword.ne_nil
  | cons c cs ih =>
    cases p with
    | zero =>
      refine ⟨0, Nat.zero_le _, ?_, (prefix_lowerFrom_iff hword).mp h⟩
      rw [position, List.take_zero, List.count_nil]
    | succ p =>
      rw [lowerFrom] at h
      by_cases hdotted : c = 'İ'
      · rw [if_pos hdotted, List.drop_succ_cons] at h
        cases p with
        | zero =>
          -- No word begins with the dot.
          obtain ⟨x, rest, hcons⟩ := List.exists_cons_of_ne_nil hword.ne_nil
          rw [List.drop_zero, hcons] at h
          exact absurd (List.cons_prefix_cons.mp h).1 (hword.chars x (hcons ▸ List.mem_cons_self)).1
        | succ p =>
          obtain ⟨j, hj, rfl, hbegins⟩ := ih h
          refine ⟨j + 1, Nat.succ_le_succ hj, ?_, hbegins⟩
          rw [position_cons, if_pos hdotted]
      · have hrest : word <+: (lowerFrom tables (c :: before) cs).drop p := by
          rw [if_neg hdotted] at h
          split_ifs at h <;> exact h
        obtain ⟨j, hj, rfl, hbegins⟩ := ih hrest
        refine ⟨j + 1, Nat.succ_le_succ hj, ?_, hbegins⟩
        rw [position_cons, if_neg hdotted]

/-- Where a word stands in the lower case of a text. -/
theorem prefix_drop_lowerFrom_iff (hword : Plain word) (p : ℕ) :
    word <+: (lowerFrom tables before cs).drop p ↔ ∃ j, p = position cs j ∧ Begins tables word (cs.drop j) := by
  constructor
  · intro h
    obtain ⟨j, -, hp, hbegins⟩ := prefix_drop_lowerFrom hword h
    exact ⟨j, hp, hbegins⟩
  · rintro ⟨j, rfl, hbegins⟩
    have hj : j ≤ cs.length := by
      by_contra hlt
      rw [List.drop_of_length_le (by omega)] at hbegins
      obtain ⟨x, rest, hcons⟩ := List.exists_cons_of_ne_nil hword.ne_nil
      rw [hcons] at hbegins
      exact hbegins
    obtain ⟨before', hdrop⟩ := drop_position tables before hj
    rw [hdrop, prefix_lowerFrom_iff hword]
    exact hbegins

end Lower

/-! ### Searching -/

section Search

variable {cs sub : List Char} {start i : ℕ}

/-- `str.find(sub, start)`. -/
def find (cs sub : List Char) (start : ℕ) : Option ℕ :=
  (List.range' start (cs.length + 1 - start)).find? fun i => sub.isPrefixOf (cs.drop i)

lemma find_eq_some (h : find cs sub start = some i) :
    start ≤ i ∧ i ≤ cs.length ∧ sub <+: cs.drop i ∧ ∀ j, start ≤ j → j < i → ¬ sub <+: cs.drop j := by
  obtain ⟨hfound, hmem, hfirst⟩ := List.find?_range'_eq_some.mp h
  obtain ⟨hle, hlt⟩ := List.mem_range'_1.mp hmem
  refine ⟨hle, by omega, List.isPrefixOf_iff_prefix.mp hfound, fun j hj hji hprefixed => ?_⟩
  have hnot := hfirst j hj hji
  rw [List.isPrefixOf_iff_prefix.mpr hprefixed] at hnot
  cases hnot

lemma find_eq_none (hsub : sub ≠ []) (h : find cs sub start = none) (hi : start ≤ i) : ¬ sub <+: cs.drop i := by
  intro hprefixed
  by_cases hle : i ≤ cs.length
  · have hnot := List.find?_range'_eq_none.mp h i hi (by omega)
    rw [List.isPrefixOf_iff_prefix.mpr hprefixed] at hnot
    cases hnot
  · rw [List.drop_of_length_le (by omega)] at hprefixed
    exact hsub (List.prefix_nil.mp hprefixed)

/-- Places of length `n` from `start` on, each where `found` holds, and none of them missed that does not begin within
another one. -/
structure Leftmost (found : ℕ → Prop) (n start : ℕ) (places : List ℕ) : Prop where
  genuine : ∀ p ∈ places, start ≤ p ∧ found p
  apart : places.Pairwise fun p q => p + n ≤ q
  covered : ∀ q, start ≤ q → found q → ∃ p ∈ places, p ≤ q ∧ q < p + n

/-- The places after each other. -/
lemma Leftmost.cons {found : ℕ → Prop} {n p : ℕ} {places : List ℕ} (hstart : start ≤ p) (hp : found p)
    (hfirst : ∀ q, start ≤ q → q < p → ¬ found q) (h : Leftmost found n (p + n) places) :
    Leftmost found n start (p :: places) where
  genuine := by
    intro q hq
    obtain rfl | hq := List.mem_cons.mp hq
    · exact ⟨hstart, hp⟩
    · obtain ⟨hle, hq⟩ := h.genuine q hq
      exact ⟨by omega, hq⟩
  apart := List.pairwise_cons.mpr ⟨fun q hq => (h.genuine q hq).1, h.apart⟩
  covered := by
    intro q hq hfound
    by_cases hlt : q < p + n
    · refine ⟨p, List.mem_cons_self, ?_, hlt⟩
      by_contra hbefore
      exact hfirst q hq (Nat.lt_of_not_le hbefore) hfound
    · obtain ⟨p', hp', hle, hlt'⟩ := h.covered q (Nat.le_of_not_lt hlt) hfound
      exact ⟨p', List.mem_cons_of_mem _ hp', hle, hlt'⟩

lemma Leftmost.nil {found : ℕ → Prop} (n : ℕ) (h : ∀ q, start ≤ q → ¬ found q) : Leftmost found n start [] where
  genuine := fun _ hp => absurd hp List.not_mem_nil
  apart := List.Pairwise.nil
  covered := fun q hq hfound => absurd hfound (h q hq)

/-- No end of the word is also its beginning. -/
def Unbordered (word : List Char) : Prop := ∀ k < word.length, k ≠ 0 → ¬ word.drop k <+: word

instance (word : List Char) : Decidable (Unbordered word) :=
  inferInstanceAs (Decidable (∀ k < word.length, k ≠ 0 → ¬ word.drop k <+: word))

/-- Occurrences of such a word do not overlap. -/
lemma Unbordered.apart {p q : ℕ} (h : Unbordered sub) (hp : sub <+: cs.drop p) (hq : sub <+: cs.drop q) (hlt : p < q) :
    p + sub.length ≤ q := by
  by_contra hoverlap
  apply h (q - p) (by omega) (by omega)
  have hrest : sub.drop (q - p) <+: cs.drop q := by
    have hdrop := List.IsPrefix.drop hp (q - p)
    rwa [List.drop_drop, Nat.add_sub_cancel' hlt.le] at hdrop
  exact List.prefix_of_prefix_length_le hrest hq (List.drop_sublist _ _).length_le

/-- The search finds each of its occurrences. -/
lemma Leftmost.mem_of_unbordered {places : List ℕ} {q : ℕ} (h : Unbordered sub)
    (hplaces : Leftmost (fun p => sub <+: cs.drop p) sub.length start places) (hq : start ≤ q)
    (hfound : sub <+: cs.drop q) : q ∈ places := by
  obtain ⟨p, hp, hle, hlt⟩ := hplaces.covered q hq hfound
  have heq : p = q := by
    by_contra hne
    have hapart := h.apart (hplaces.genuine p hp).2 hfound (by omega)
    omega
  rwa [heq] at hp

end Search

end Tmis.Lib
