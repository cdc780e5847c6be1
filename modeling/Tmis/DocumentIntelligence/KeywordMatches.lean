import Tmis.CaseIntelligence.Profile
import Tmis.Lib.Calls
import Tmis.Lib.PyFloat
import Tmis.Lib.PyText
import Tmis.Lib.TextSearch

/-!
# Spans of the extracted entities

`document_intelligence.entities.regex_extractor`: the matches of the regular expressions, and the names of the courts,
which are looked for in the lower case of the text.  A name is cut out of the text itself, at the place where its lower
case has it.

* `keywordLoop`, `keywordMatches`, `extract` — `RegexEntityExtractor`;
* `OccursAt`, `Traceable` — where a name occurs, and that what is reported stands there;
* `exists_keywordLoop` — the search ends, with the occurrences from left to right;
* `jurisdiction_spans_traceable` — when the spans are those of the text.
-/

namespace Tmis.DocumentIntelligence

open Tmis.CaseIntelligence (EntityType)
open Tmis.Lib

structure ExtractedEntity (F : Type) where
  type : EntityType
  value : String
  confidence : F
  spanStart : Option ℕ := none
  spanEnd : Option ℕ := none
  deriving DecidableEq

/-- The compiled patterns. -/
inductive RePattern where
  | dateInWords | dateInDigits | amountRe | decisionReferenceRe | lawArticleRe | personRe | companyRe | addressRe
  | referenceRe | numberRe
  deriving DecidableEq

/-- What a match gives: `group(0)`, `start()` and `end()`. -/
structure ReMatch where
  group : String
  start : ℕ
  stop : ℕ

def datePatterns : List RePattern := [.dateInWords, .dateInDigits]

def jurisdictionKeywords : List String :=
  ["tribunal judiciaire", "tribunal de commerce", "tribunal administratif", "cour d'appel", "cour de cassation",
    "conseil d'état", "conseil de prud'hommes"]

section Extractor

variable {F : Type} [PyFloat F] (tables : CaseTables) (finditer : RePattern → String → List ReMatch)

def heuristicConfidence : F := PyFloat.ofRat (3 / 5)

/-- `_matches`. -/
def patternMatches (pattern : RePattern) (text : String) (entityType : EntityType) : List (ExtractedEntity F) :=
  (finditer pattern text).map fun m =>
    { type := entityType, value := m.group, confidence := heuristicConfidence, spanStart := some m.start,
      spanEnd := some m.stop }

/-- The entity for a keyword that is found at `index`. -/
def keywordEntity (text keyword : String) (entityType : EntityType) (index : ℕ) : ExtractedEntity F :=
  { type := entityType, value := slice text index (index + keyword.length), confidence := heuristicConfidence,
    spanStart := some index, spanEnd := some (index + keyword.length) }

/-- The `while` loop of `_keyword_matches`, in at most `fuel` rounds. -/
def keywordLoop (text lowered keyword : String) (entityType : EntityType) :
    ℕ → ℕ → Option (List (ExtractedEntity F))
  | 0, _ => none
  | fuel + 1, start =>
    match find lowered.toList keyword.toList start with
    | none => some []
    | some index =>
      (keywordLoop text lowered keyword entityType fuel (index + keyword.length)).map
        (keywordEntity text keyword entityType index :: ·)

/-- `_keyword_matches`. -/
def keywordMatches (fuel : ℕ) (text : String) (keywords : List String) (entityType : EntityType) :
    Option (List (ExtractedEntity F)) :=
  let lowered := tables.lower text
  (keywords.mapM fun keyword => keywordLoop text lowered keyword entityType fuel 0).map List.flatten

/-- `extract`. -/
def extract (fuel : ℕ) (text : String) : Option (List (ExtractedEntity F)) := do
  let entities := datePatterns.flatMap fun pattern => patternMatches finditer pattern text .date
  let entities := entities ++ patternMatches finditer .amountRe text .amount
  let entities := entities ++ patternMatches finditer .decisionReferenceRe text .decisionReference
  let entities := entities ++ patternMatches finditer .lawArticleRe text .lawArticle
  let entities := entities ++ patternMatches finditer .personRe text .person
  let entities := entities ++ patternMatches finditer .companyRe text .company
  let entities := entities ++ patternMatches finditer .addressRe text .address
  let entities := entities ++ patternMatches finditer .referenceRe text .reference
  let entities := entities ++ patternMatches finditer .numberRe text .number
  return entities ++ (← keywordMatches tables fuel text jurisdictionKeywords .jurisdiction)

/-! ### What a span is for -/

/-- The keyword stands in the text at the `j`th character, up to case. -/
def OccursAt (keyword text : String) (j : ℕ) : Prop := ∃ n : ℕ, tables.lower (slice text j (j + n)) = keyword

/-- What is reported of a keyword stands in the text where its span says, apart from each other, and each occurrence
is within a span. -/
structure Traceable (keyword text : String) (entities : List (ExtractedEntity F)) : Prop where
  genuine : ∀ e ∈ entities, ∃ start stop : ℕ, e.spanStart = some start ∧ e.spanEnd = some stop ∧
    e.value = slice text start stop ∧ tables.lower e.value = keyword
  apart : entities.Pairwise fun a b => ∀ stop ∈ a.spanEnd, ∀ start ∈ b.spanStart, stop ≤ start
  covered : ∀ j, OccursAt tables keyword text j → ∃ e ∈ entities, ∃ start ∈ e.spanStart, ∃ stop ∈ e.spanEnd,
    start ≤ j ∧ j < stop

end Extractor

/-! ### The search -/

section Search

variable {F : Type} [PyFloat F] {tables : CaseTables} {text keyword : String} {entityType : EntityType} {start : ℕ}

lemma keyword_ne_nil {cs : List Char} (hword : Plain keyword.toList) {i : ℕ} (h : keyword.toList <+: cs.drop i) :
    0 < keyword.length ∧ i + keyword.length ≤ cs.length := by
  have hpos := List.length_pos_of_ne_nil hword.ne_nil
  have hle := h.length_le
  rw [List.length_drop] at hle
  rw [String.length_toList] at hpos hle
  omega

/-- **The loop ends**: with more rounds than there are characters, it reports the occurrences from left to right. -/
lemma exists_keywordLoop {lowered : String} (hword : Plain keyword.toList) (hstart : start ≤ lowered.toList.length) :
    ∃ places, Leftmost (fun p => keyword.toList <+: lowered.toList.drop p) keyword.length start places ∧
      ∀ fuel, lowered.toList.length < fuel + start →
        keywordLoop text lowered keyword entityType fuel start =
          some (places.map (keywordEntity (F := F) text keyword entityType)) := by
  induction hrest : lowered.toList.length - start using Nat.strong_induction_on generalizing start with
  | _ rest ih =>
    cases hfind : find lowered.toList keyword.toList start with
    | none =>
      refine ⟨[], Leftmost.nil _ fun q hq => find_eq_none hword.ne_nil hfind hq, fun fuel hfuel => ?_⟩
      cases fuel with
      | zero => omega
      | succ fuel =>
        rw [keywordLoop, hfind]
        rfl
    | some index =>
      obtain ⟨hle, -, hfound, hfirst⟩ := find_eq_some hfind
      obtain ⟨hpos, hstop⟩ := keyword_ne_nil hword hfound
      obtain ⟨places, hplaces, hloop⟩ := ih (lowered.toList.length - (index + keyword.length)) (by omega) hstop rfl
      refine ⟨index :: places, hplaces.cons hle hfound hfirst, fun fuel hfuel => ?_⟩
      cases fuel with
      | zero => omega
      | succ fuel =>
        rw [keywordLoop, hfind]
        simp only [hloop fuel (by omega), Option.map_some, List.map_cons]

end Search

section Spans

variable {F : Type} [PyFloat F] {tables : CaseTables} {text keyword : String} {entityType : EntityType}

lemma occursAt_iff (hword : Plain keyword.toList) (j : ℕ) :
    OccursAt tables keyword text j ↔ Begins tables keyword.toList (text.toList.drop j) := by
  have hbegins : (∃ n, lowerFrom tables [] ((text.toList.drop j).take n) = keyword.toList) ↔ _ :=
    exists_lowerFrom_take_iff hword
  rw [← hbegins]
  refine exists_congr fun n => ?_
  rw [CaseTables.lower, slice_natCast, String.toList_ofList]
  constructor
  · intro h
    rw [← h, String.toList_ofList]
  · intro h
    rw [h, String.ofList_toList]

/-- As many characters as the keyword has are the keyword, where it occurs. -/
lemma lower_slice_iff (hword : Plain keyword.toList) (p : ℕ) :
    tables.lower (slice text p (p + keyword.length)) = keyword ↔ OccursAt tables keyword text p := by
  constructor
  · exact fun h => ⟨keyword.length, h⟩
  · intro h
    have htake : lowerFrom tables [] ((text.toList.drop p).take keyword.toList.length) = keyword.toList :=
      lowerFrom_take ((occursAt_iff hword p).mp h)
    rw [CaseTables.lower, slice_natCast, String.toList_ofList, ← String.length_toList, htake, String.ofList_toList]

/-- Where the search may find the keyword. -/
lemma found_iff (hword : Plain keyword.toList) (p : ℕ) :
    keyword.toList <+: (tables.lower text).toList.drop p ↔
      ∃ j, p = position text.toList j ∧ OccursAt tables keyword text j := by
  rw [CaseTables.lower, String.toList_ofList, prefix_drop_lowerFrom_iff hword]
  exact exists_congr fun j => and_congr_right fun _ => (occursAt_iff hword j).symm

/-- The search, place for place. -/
lemma traceable_places_iff (places : List ℕ) :
    Traceable tables keyword text (places.map (keywordEntity (F := F) text keyword entityType)) ↔
      (∀ p ∈ places, tables.lower (slice text p (p + keyword.length)) = keyword) ∧
        places.Pairwise (fun p q => p + keyword.length ≤ q) ∧
        ∀ j, OccursAt tables keyword text j → ∃ p ∈ places, p ≤ j ∧ j < p + keyword.length := by
  have happart : (places.map (keywordEntity (F := F) text keyword entityType)).Pairwise
      (fun a b => ∀ stop ∈ a.spanEnd, ∀ start ∈ b.spanStart, stop ≤ start) ↔
      places.Pairwise (fun p q => p + keyword.length ≤ q) := by
    rw [List.pairwise_map]
    simp [keywordEntity]
  constructor
  · intro h
    refine ⟨fun p hp => ?_, happart.mp h.apart, fun j hj => ?_⟩
    · obtain ⟨_, _, -, -, -, hlower⟩ := h.genuine _ (List.mem_map_of_mem hp)
      exact hlower
    · obtain ⟨e, he, start, hstart, stop, hstop, hle, hlt⟩ := h.covered j hj
      obtain ⟨p, hp, rfl⟩ := List.mem_map.mp he
      cases hstart
      cases hstop
      exact ⟨_, hp, hle, hlt⟩
  · rintro ⟨hlower, hapart, hcovered⟩
    refine ⟨fun e he => ?_, happart.mpr hapart, fun j hj => ?_⟩
    · obtain ⟨p, hp, rfl⟩ := List.mem_map.mp he
      exact ⟨p, p + keyword.length, rfl, rfl, by rw [keywordEntity, Nat.cast_add], hlower p hp⟩
    · obtain ⟨p, hp, hle, hlt⟩ := hcovered j hj
      exact ⟨_, List.mem_map_of_mem hp, p, rfl, p + keyword.length, rfl, hle, hlt⟩

/-- **The spans of a keyword** are those of the text iff no `İ` stands before an occurrence: after one, a place in the
lower case is not the place in the text. -/
lemma traceable_iff (hword : Plain keyword.toList) (hborder : Unbordered keyword.toList) {places : List ℕ}
    (hplaces : Leftmost (fun p => keyword.toList <+: (tables.lower text).toList.drop p) keyword.length 0 places) :
    Traceable tables keyword text (places.map (keywordEntity (F := F) text keyword entityType)) ↔
      ∀ j, OccursAt tables keyword text j → 'İ' ∉ text.toList.take j := by
  rw [traceable_places_iff]
  constructor
  · rintro ⟨hlower, -, -⟩ j hj hbefore
    -- A reported occurrence is further on than the occurrence itself, and occurs there: so there is one after it.
    induction hrest : text.length - j using Nat.strong_induction_on generalizing j with
    | _ rest ih =>
      have hfound := (found_iff hword (position text.toList j)).mpr ⟨j, rfl, hj⟩
      have hmem : position text.toList j ∈ places := by
        rw [← String.length_toList] at hplaces
        exact hplaces.mem_of_unbordered hborder (Nat.zero_le _) hfound
      have hnext := (lower_slice_iff hword _).mp (hlower _ hmem)
      have hlt : j < position text.toList j := by
        refine lt_of_le_of_ne (le_position _ _) fun heq => ?_
        exact (position_eq_self_iff _ _).mp heq.symm hbefore
      have hin : j < text.length := by
        by_contra hout
        rw [occursAt_iff hword, List.drop_of_length_le (by rw [String.length_toList]; omega)] at hj
        cases hcs : keyword.toList with
        | nil => exact hword.ne_nil hcs
        | cons c cs =>
          rw [hcs] at hj
          exact hj
      refine ih _ ?_ (position text.toList j) hnext ?_ rfl
      · omega
      · exact (List.take_sublist_take_left hlt.le).subset hbefore
  · intro h
    have hplace : ∀ j, OccursAt tables keyword text j → position text.toList j = j :=
      fun j hj => (position_eq_self_iff _ _).mpr (h j hj)
    refine ⟨fun p hp => ?_, hplaces.apart, fun j hj => ?_⟩
    · obtain ⟨j, hj, hoccurs⟩ := (found_iff hword p).mp (hplaces.genuine p hp).2
      rw [lower_slice_iff hword, hj, hplace j hoccurs]
      exact hoccurs
    · have hfound := (found_iff hword j).mpr ⟨j, (hplace j hj).symm, hj⟩
      exact hplaces.covered j (Nat.zero_le _) hfound

end Spans

/-! ### Traceable spans -/

section Courts

variable {F : Type} [PyFloat F]

lemma plain_of_mem {keyword : String} (h : keyword ∈ jurisdictionKeywords) : Plain keyword.toList := by
  revert keyword
  decide +kernel

lemma unbordered_of_mem {keyword : String} (h : keyword ∈ jurisdictionKeywords) : Unbordered keyword.toList := by
  revert keyword
  decide +kernel

/-- The regular expressions report no court. -/
lemma filter_patternMatches (finditer : RePattern → String → List ReMatch) (pattern : RePattern) (text : String)
    {entityType : EntityType} (h : entityType ≠ .jurisdiction) :
    (patternMatches (F := F) finditer pattern text entityType).filter (fun e => e.type = .jurisdiction) = [] := by
  refine List.filter_eq_nil_iff.mpr fun e he => ?_
  obtain ⟨m, -, rfl⟩ := List.mem_map.mp he
  rw [decide_eq_true_eq]
  exact h

/-- The courts that are reported are those of the search. -/
lemma filter_extract (tables : CaseTables) (finditer : RePattern → String → List ReMatch) {fuel : ℕ} {text : String}
    {found : String → List (ExtractedEntity F)} (hcourt : ∀ keyword, ∀ e ∈ found keyword, e.type = .jurisdiction)
    (h : ∀ keyword ∈ jurisdictionKeywords,
      keywordLoop text (tables.lower text) keyword .jurisdiction fuel 0 = some (found keyword)) :
    (extract tables finditer fuel text).map (List.filter fun e => e.type = .jurisdiction) =
      some (jurisdictionKeywords.flatMap found) := by
  have hmatches : keywordMatches tables fuel text jurisdictionKeywords .jurisdiction =
      some (jurisdictionKeywords.flatMap found) := by
    rw [keywordMatches, mapM_eq_some_map h]
    rfl
  have hself : (jurisdictionKeywords.flatMap found).filter (fun e => e.type = .jurisdiction) =
      jurisdictionKeywords.flatMap found := by
    refine List.filter_eq_self.mpr fun e he => ?_
    obtain ⟨keyword, -, he⟩ := List.mem_flatMap.mp he
    exact decide_eq_true (hcourt keyword e he)
  simp [extract, hmatches, datePatterns, filter_patternMatches, hself]

/-- **The reported courts are traceable**: the search for each of them ends, and what it reports stands in the text
where its span says, iff no `İ` stands before an occurrence. -/
theorem jurisdiction_spans_traceable (tables : CaseTables) (finditer : RePattern → String → List ReMatch)
    (text : String) :
    ∃ found : String → List (ExtractedEntity F),
      (∀ fuel, (tables.lower text).length < fuel →
        (∀ keyword ∈ jurisdictionKeywords,
          keywordLoop text (tables.lower text) keyword .jurisdiction fuel 0 = some (found keyword)) ∧
        (extract tables finditer fuel text).map (List.filter fun e => e.type = .jurisdiction) =
          some (jurisdictionKeywords.flatMap found)) ∧
      ∀ keyword ∈ jurisdictionKeywords, Traceable tables keyword text (found keyword) ↔
        ∀ j, OccursAt tables keyword text j → 'İ' ∉ text.toList.take j := by
  have hsearch : ∀ keyword, ∃ places, keyword ∈ jurisdictionKeywords →
      Leftmost (fun p => keyword.toList <+: (tables.lower text).toList.drop p) keyword.length 0 places ∧
        ∀ fuel, (tables.lower text).toList.length < fuel + 0 →
          keywordLoop text (tables.lower text) keyword .jurisdiction fuel 0 =
            some (places.map (keywordEntity (F := F) text keyword .jurisdiction)) := by
    intro keyword
    by_cases hmem : keyword ∈ jurisdictionKeywords
    · obtain ⟨places, hplaces⟩ :=
        exists_keywordLoop (F := F) (plain_of_mem hmem) (Nat.zero_le _)
      exact ⟨places, fun _ => hplaces⟩
    · exact ⟨[], fun h => absurd h hmem⟩
  choose places hplaces using hsearch
  refine ⟨fun keyword => (places keyword).map (keywordEntity (F := F) text keyword .jurisdiction), fun fuel hfuel => ?_,
    fun keyword hmem => traceable_iff (plain_of_mem hmem) (unbordered_of_mem hmem) (hplaces keyword hmem).1⟩
  have hloop : ∀ keyword ∈ jurisdictionKeywords,
      keywordLoop text (tables.lower text) keyword .jurisdiction fuel 0 =
        some ((places keyword).map (keywordEntity (F := F) text keyword .jurisdiction)) := by
    intro keyword hmem
    apply (hplaces keyword hmem).2
    rw [String.length_toList]
    omega
  refine ⟨hloop, filter_extract tables finditer (fun keyword e he => ?_) hloop⟩
  obtain ⟨p, -, rfl⟩ := List.mem_map.mp he
  rfl

/-- The tables for the letters of ASCII. -/
def asciiCase : CaseTables where
  lowerOf := Char.toLower
  cased := Char.isAlpha
  caseIgnorable c := c ∈ ['\'', '.', ':', '^', '_']

/-- After an `İ`, the name of a court is cut out one character too late. -/
theorem court_after_dotted_i :
    extract (F := ℚ) asciiCase (fun _ _ => []) 24 "İ tribunal judiciaire" =
        some [⟨.jurisdiction, "ribunal judiciaire", 3 / 5, some 3, some 22⟩] ∧
      OccursAt asciiCase "tribunal judiciaire" "İ tribunal judiciaire" 2 ∧
      ¬ Traceable (F := ℚ) asciiCase "tribunal judiciaire" "İ tribunal judiciaire"
        [⟨.jurisdiction, "ribunal judiciaire", 3 / 5, some 3, some 22⟩] := by
  refine ⟨by decide +kernel, ⟨19, by decide +kernel⟩, fun h => ?_⟩
  obtain ⟨_, _, -, -, -, hlower⟩ := h.genuine _ List.mem_cons_self
  revert hlower
  decide +kernel

end Courts

end Tmis.DocumentIntelligence
