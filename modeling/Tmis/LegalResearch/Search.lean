import Tmis.Ai.Connectors
import Tmis.Lib.Dict
import Tmis.Lib.PyFloat
import Tmis.Lib.PyText

/-!
# The query engine

A raw text becomes a query: normalized, its language guessed, its keywords found, and expanded by
legal synonyms.

* `ResearchQuery`, `searchText` — the query, and the text the caches and the embeddings see;
* `build` — `HeuristicQueryEngine.build`;
* `build_congr` — a query depends on the raw text through the normalized text only.
-/

namespace Tmis.LegalResearch

open Tmis.Lib

inductive Language where
  | fr | en
  deriving DecidableEq

def stopwords : Language → List String
  | .fr => ["le", "la", "les", "de", "des", "du", "et", "en", "un", "une",
      "est", "que", "qui", "dans", "pour", "par", "avec", "au", "aux",
      "ce", "cette", "il", "elle", "sont", "sur", "quel", "quelle"]
  | .en => ["the", "of", "and", "a", "an", "is", "that", "which", "in",
      "for", "by", "with", "to", "it", "are", "this", "shall", "be"]

def legalSynonyms : List (String × List String) :=
  [("licenciement", ["rupture du contrat de travail", "congédiement"]),
    ("bail", ["contrat de location", "location"]),
    ("contrat", ["convention", "accord"]),
    ("clause", ["stipulation"]),
    ("responsabilité", ["réparation du dommage", "faute"]),
    ("divorce", ["dissolution du mariage"]),
    ("préjudice", ["dommage"])]

/-- `expand`: the synonyms of all keywords, each once. -/
def expand (text : PyText) (keywords : List String) : List String :=
  (keywords.flatMap fun keyword => (legalSynonyms.lookup (text.lower keyword)).getD []).eraseDups

/-- `_detect_language`: the language with the most stopwords, French in a tie. -/
def detectLanguage (tokens : List String) : Option Language :=
  let score (language : Language) := (tokens.filter (· ∈ stopwords language)).length
  let best : Language := if score .fr < score .en then .en else .fr
  if score best = 0 then none else some best

structure ResearchQuery where
  rawText : String
  normalizedText : String
  language : Option Language
  keywords : List String
  expandedTerms : List String
  filters : Dict String String

/-- `search_text`: the normalized text with the expansions it does not contain. -/
def ResearchQuery.searchText (text : PyText) (query : ResearchQuery) : String :=
  let extra := query.expandedTerms.filter fun term =>
    !occursIn (text.lower term) (text.lower query.normalizedText)
  text.strip (" ".intercalate (query.normalizedText :: extra))

/-- `HeuristicQueryEngine.build`; no filters and empty ones are the same. -/
def build (text : PyText) (rawText : String) (filters : Option (Dict String String)) : ResearchQuery :=
  let normalizedText := text.squeeze (text.strip rawText)
  let tokens := (text.words normalizedText).map text.lower
  let language := detectLanguage tokens
  let stop := stopwords (language.getD .fr)
  let keywords := (tokens.filter fun token => token ∉ stop ∧ 2 < token.length).eraseDups
  { rawText, normalizedText, language, keywords
    expandedTerms := expand text keywords
    filters := filters.getD ∅ }

/-- Two texts that are normalized alike make queries that differ in the raw text and the filters
only. -/
lemma build_congr {text : PyText} {rawText rawText' : String}
    {filters filters' : Option (Dict String String)}
    (h : (build text rawText filters).normalizedText = (build text rawText' filters').normalizedText) :
    (build text rawText filters).keywords = (build text rawText' filters').keywords ∧
      (build text rawText filters).searchText text = (build text rawText' filters').searchText text := by
  have h' : text.squeeze (text.strip rawText) = text.squeeze (text.strip rawText') := h
  simp only [build, ResearchQuery.searchText, h', and_self]

/-- A text that already spells its synonym out is searched like the text that does not. -/
example : (build .ascii "divorce" none).searchText .ascii =
    (build .ascii "divorce  dissolution du mariage" none).searchText .ascii := by decide +kernel

end Tmis.LegalResearch

/-!
## The hybrid search

The documents that the connectors find for a query, with a lexical and a vector score for each.

* `RelevanceScores` — the two scores of a document;
* `ResearchKernel` — the part of the kernel the search uses;
* `cosineSimilarity`, `lexicalScores`, `vectorScores`, `execute` — `HybridResearchSearch`;
* `execute_ok` — the documents of a search.
-/

namespace Tmis.LegalResearch

open Tmis.Lib Tmis.Ai PyFloat

structure RelevanceScores (F : Type) where
  lexicalScore : F
  vectorScore : F

/-- `ResearchKernelPort`: what a search of the connectors finds, and the embeddings of texts.  Either
may raise. -/
structure ResearchKernel (F : Type) where
  searchConnectors : String → Option (List String) → Option (Dict String String) →
    Except PyException (List ConnectorDocument)
  embed : List String → Except PyException (List (List F))

/-- `xs or default`. -/
def orDefault {α : Type} (xs default : Option (List α)) : Option (List α) :=
  match xs with
  | some (x :: xs) => some (x :: xs)
  | _ => default

/-- `filters or None`. -/
def orNone (filters : Dict String String) : Option (Dict String String) :=
  if filters.entries = [] then none else some filters

section Scores

variable {F : Type} [PyFloat F]

/-- `cosine_similarity`. -/
def cosineSimilarity (a b : List F) : Except PyException F :=
  if a = [] ∨ b = [] ∨ a.length ≠ b.length then .ok (ofRat 0)
  else
    let dot := PyFloat.sum (List.zipWith mul a b)
    let normA := sqrt (PyFloat.sum (a.map fun x => mul x x))
    let normB := sqrt (PyFloat.sum (b.map fun y => mul y y))
    if isZero normA || isZero normB then .ok (ofRat 0) else trueDiv dot (mul normA normB)

/-- The text of a document that is embedded and searched for keywords. -/
def documentText (doc : ConnectorDocument) : String := doc.title ++ " " ++ doc.content

/-- `_lexical_scores`: the part of the keywords that occur in each document. -/
def lexicalScores (text : PyText) (query : ResearchQuery) (documents : List ConnectorDocument) :
    Dict String F :=
  if query.keywords = [] then ∅
  else documents.foldl (fun scores doc =>
    let hits := (query.keywords.filter fun keyword => occursIn keyword (text.lower (documentText doc))).length
    scores.set doc.id (div (ofRat hits) (ofRat query.keywords.length))) ∅

/-- The check of `zip(documents, vectors, strict=True)`, made once the shorter one is used up. -/
def zipStrict (documents vectors : ℕ) : Except PyException Unit :=
  if vectors < documents then .error (valueError "zip() argument 2 is shorter than argument 1")
  else if documents < vectors then .error (valueError "zip() argument 2 is longer than argument 1")
  else .ok ()

/-- `_vector_scores`: the first embedding is that of the search text. -/
def vectorScores (kernel : ResearchKernel F) (searchText : String)
    (documents : List ConnectorDocument) : Except PyException (Dict String F) :=
  if documents = [] then .ok ∅
  else do
    match ← kernel.embed (searchText :: documents.map documentText) with
    | [] => .error ⟨"IndexError", "list index out of range"⟩
    | queryVector :: docVectors =>
        let scores ← (documents.zip docVectors).foldlM (fun scores e => do
          return scores.set e.1.id (← cosineSimilarity queryVector e.2)) (∅ : Dict String F)
        zipStrict documents.length docVectors.length
        return scores

/-- What a search found: `RawSearchCacheEntry`. -/
structure RawSearchEntry (F : Type) where
  documents : List ConnectorDocument
  connectorsUsed : List String
  scores : Dict String (RelevanceScores F)

/-- `HybridResearchSearch.execute`: the connectors get the normalized text, the embeddings the search
text. -/
def execute (text : PyText) (kernel : ResearchKernel F) (defaultConnectors : Option (List String))
    (query : ResearchQuery) (connectorNames : Option (List String)) :
    Except PyException (RawSearchEntry F) := do
  let targets := orDefault connectorNames defaultConnectors
  let documents ← kernel.searchConnectors query.normalizedText targets (orNone query.filters)
  let vector ← vectorScores kernel (query.searchText text) documents
  let lexical : Dict String F := lexicalScores text query documents
  let scores := documents.foldl (fun scores doc => scores.set doc.id
    { lexicalScore := (lexical.get doc.id).getD (ofRat 0)
      vectorScore := (vector.get doc.id).getD (ofRat 0) }) ∅
  let connectorsUsed :=
    if documents = [] then targets.getD []
    else (documents.map (·.connector)).dedup.insertionSort (· ≤ ·)
  return { documents, connectorsUsed, scores }

/-- A search that raises nowhere finds the documents of the connectors. -/
lemma execute_ok {text : PyText} {kernel : ResearchKernel F} {defaultConnectors : Option (List String)}
    {query : ResearchQuery} {connectorNames : Option (List String)}
    {documents : List ConnectorDocument} {vector : Dict String F}
    (hsearch : kernel.searchConnectors query.normalizedText (orDefault connectorNames defaultConnectors)
      (orNone query.filters) = .ok documents)
    (hvector : vectorScores kernel (query.searchText text) documents = .ok vector) :
    ∃ entry, execute text kernel defaultConnectors query connectorNames = .ok entry ∧
      entry.documents = documents := by
  simp only [execute, hsearch, hvector, bind, Except.bind]
  exact ⟨_, rfl, rfl⟩

end Scores

end Tmis.LegalResearch
