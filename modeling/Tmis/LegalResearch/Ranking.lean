import Tmis.LegalResearch.Search

/-!
# Normalizing and ranking

The documents of all connectors become results of one shape, each content once; the results are
scored and sorted.

* `normalize` — `SourceNormalizer.normalize`;
* `RankingWeights`, `rank` — `ConfigurableRanker.rank`;
* `rank_nil`, `normalize_nil` — no documents make no results;
* `rank_singleton` — a result without a date is ranked.
-/

namespace Tmis.LegalResearch

open Tmis.Lib Tmis.Ai PyFloat

structure ResearchResult (F : Type) where
  id : String
  title : String
  excerpt : String
  connector : String
  documentType : String
  reference : String
  date : Option String
  lexicalScore : F
  vectorScore : F
  authorityScore : F
  freshnessScore : F
  finalScore : F
  metadata : Dict String String

variable {F : Type} [PyFloat F]

/-! ### Normalizing -/

/-- `_content_hash`. -/
def contentHash (text : PyText) (sha256 : String → String) (content : String) : String :=
  sha256 (text.lower (text.strip content))

/-- `_to_result`. -/
def toResult (doc : ConnectorDocument) (relevance : RelevanceScores F) : ResearchResult F where
  id := doc.id
  title := doc.title
  excerpt := String.ofList (doc.content.toList.take 400)
  connector := doc.connector
  documentType := (doc.metadata.get "category").getD doc.connector
  reference := (orText (doc.metadata.get "reference") (orText (doc.metadata.get "article")
    (orText (doc.metadata.get "jurisdiction") (some doc.id)))).getD ""
  date := orText (doc.metadata.get "date") (doc.metadata.get "year")
  lexicalScore := relevance.lexicalScore
  vectorScore := relevance.vectorScore
  authorityScore := ofRat 0
  freshnessScore := ofRat 0
  finalScore := ofRat 0
  metadata := doc.metadata

/-- `normalize`: the first document of each id, and of these the most recent of each content. -/
def normalize (text : PyText) (sha256 : String → String) (documents : List ConnectorDocument)
    (scores : Dict String (RelevanceScores F)) : List (ResearchResult F) :=
  let byContentHash := (documents.foldl (fun (s : List String × Dict String (ResearchResult F)) doc =>
    if doc.id ∈ s.1 then s
    else
      let result := toResult doc ((scores.get doc.id).getD ⟨ofRat 0, ofRat 0⟩)
      let hash := contentHash text sha256 doc.content
      (doc.id :: s.1,
        match s.2.get hash with
        | none => s.2.set hash result
        | some existing =>
            if existing.date.getD "" < result.date.getD "" then s.2.set hash result else s.2))
    ([], ∅)).2
  byContentHash.values

/-! ### Ranking -/

structure RankingWeights (F : Type) where
  lexical : F
  vector : F
  authority : F
  freshness : F
  deriving DecidableEq

/-- `RankingWeights()`. -/
def RankingWeights.default : RankingWeights F :=
  ⟨ofRat (3 / 10), ofRat (3 / 10), ofRat (1 / 4), ofRat (3 / 20)⟩

/-- `normalized`: the weights as parts of their sum. -/
def RankingWeights.normalized (w : RankingWeights F) : RankingWeights F :=
  let total := add (add (add w.lexical w.vector) w.authority) w.freshness
  if le total (ofRat 0) then ⟨ofRat (1 / 4), ofRat (1 / 4), ofRat (1 / 4), ofRat (1 / 4)⟩
  else ⟨div w.lexical total, div w.vector total, div w.authority total, div w.freshness total⟩

/-- `_freshness_score`. -/
def freshnessScore (text : PyText) (currentYear : ℤ) (date : Option String) : Except PyException F :=
  let year := String.ofList ((date.getD "").toList.take 4)
  if year.length < 4 || !text.isDigit year then .ok (ofRat (3 / 10))
  else do
    let ageYears := Max.max 0 (currentYear - (← text.int year))
    return PyFloat.max (ofRat 0) (sub (ofRat 1) (div (ofRat ageYears) (ofRat 50)))

/-- The authority of a source; one that is not described has a neutral one. -/
def authorityScore (sources : Dict String F) (connector : String) : F :=
  (sources.get connector).getD (ofRat (3 / 10))

/-- The sources described by default. -/
def defaultSources : Dict String F :=
  ((((∅ : Dict String F).set "codes" (ofRat 1)).set "jurisprudence" (ofRat (9 / 10))).set
    "doctrine" (ofRat (3 / 5))).set "internal_documentation" (ofRat (1 / 2)) |>.set
    "private_database" (ofRat (4 / 5))

/-- One result with its scores. -/
def scored (text : PyText) (currentYear : ℤ) (sources : Dict String F) (weights : RankingWeights F)
    (result : ResearchResult F) : Except PyException (ResearchResult F) := do
  let authority := authorityScore sources result.connector
  let freshness ← freshnessScore text currentYear result.date
  return { result with
    authorityScore := authority
    freshnessScore := freshness
    finalScore := add (add (add (mul weights.lexical result.lexicalScore)
      (mul weights.vector result.vectorScore)) (mul weights.authority authority))
      (mul weights.freshness freshness) }

/-- `rank`: the best results first; the sort is stable. -/
def rank (text : PyText) (currentYear : ℤ) (sources : Dict String F) (weights : RankingWeights F)
    (results : List (ResearchResult F)) : Except PyException (List (ResearchResult F)) := do
  let results ← results.mapM (scored text currentYear sources weights.normalized)
  return results.insertionSort fun a b => lt a.finalScore b.finalScore = false

@[simp] lemma normalize_nil (text : PyText) (sha256 : String → String)
    (scores : Dict String (RelevanceScores F)) : normalize text sha256 [] scores = [] := rfl

@[simp] lemma rank_nil (text : PyText) (currentYear : ℤ) (sources : Dict String F)
    (weights : RankingWeights F) : rank text currentYear sources weights [] = .ok [] := rfl

/-- A result without a date is ranked: no year has to be read. -/
lemma rank_singleton (text : PyText) (currentYear : ℤ) (sources : Dict String F)
    (weights : RankingWeights F) {result : ResearchResult F} (hdate : result.date = none) :
    ∃ r, rank text currentYear sources weights [result] = .ok [r] := by
  have hfresh : freshnessScore text currentYear result.date = .ok (ofRat (F := F) (3 / 10)) := by
    rw [hdate]
    rfl
  obtain ⟨r, hr⟩ : ∃ r, scored text currentYear sources weights.normalized result = .ok r := by
    simp only [scored, hfresh, bind, Except.bind]
    exact ⟨_, rfl⟩
  refine ⟨r, ?_⟩
  simp [rank, hr, bind, Except.bind, pure, Except.pure]

end Tmis.LegalResearch
