import Tmis.LegalResearch.ResearchCache

/-!
# The research orchestrator

A search asks the layers of the cache from the most aggregated one down, computes what is missing,
and stores it on the way back.

* `ResearchOrchestrator`, `SearchCall` — the engine with its collaborators, and a call of `search`;
* `resolveRaw`, `resolveNormalized`, `resolveRankedResults` — the three layers;
* `search` — the results of a call, and the cache after it.
-/

namespace Tmis.LegalResearch

open Tmis.Lib

/-- `ResearchOrchestrator` with its collaborators, the kernel apart: the tables of characters, the
hash of the normalizer, the year and the sources of the ranker, the connectors of the search, and the
cache of its firm. -/
structure ResearchOrchestrator (F : Type) where
  text : PyText
  sha256 : String → String
  currentYear : ℤ
  sources : Dict String F
  defaultConnectors : Option (List String)
  cache : ResearchCache

/-- The arguments of `search` that its results depend on. -/
structure SearchCall (F : Type) where
  rawText : String
  filters : Option (Dict String String) := none
  connectorNames : Option (List String) := none
  weights : Option (RankingWeights F) := none

/-- Results with whether they came from a cache, and the part of the documents that was dropped. -/
structure Resolved (F : Type) where
  results : List (ResearchResult F)
  cacheHit : Bool
  duplicateRate : F

namespace ResearchOrchestrator

variable {F : Type} [PyFloat F] (o : ResearchOrchestrator F) (kernel : ResearchKernel F)

/-- The weights of a call. -/
def effectiveWeights (call : SearchCall F) : RankingWeights F := call.weights.getD .default

/-- The query of a call. -/
def query (call : SearchCall F) : ResearchQuery := build o.text call.rawText call.filters

/-- The text under which a call is cached. -/
def searchText (call : SearchCall F) : String := (o.query call).searchText o.text

/-- `_resolve_raw`. -/
def resolveRaw (store : TextCache F) (call : SearchCall F) :
    Except PyException (RawSearchEntry F × Bool) × TextCache F :=
  match o.cache.getRawSearch store (o.searchText call) call.connectorNames with
  | .error e => (.error e, store)
  | .ok (some entry) => (.ok (entry, true), store)
  | .ok none =>
      match execute o.text kernel o.defaultConnectors (o.query call) call.connectorNames with
      | .error e => (.error e, store)
      | .ok entry => (.ok (entry, false),
          o.cache.setRawSearch store (o.searchText call) call.connectorNames entry)

/-- `_resolve_normalized`. -/
def resolveNormalized (store : TextCache F) (call : SearchCall F) :
    Except PyException (Resolved F) × TextCache F :=
  match o.cache.getNormalized store (o.searchText call) call.connectorNames with
  | .error e => (.error e, store)
  | .ok (some results) => (.ok ⟨results, true, PyFloat.ofRat 0⟩, store)
  | .ok none =>
      match o.resolveRaw kernel store call with
      | (.error e, store) => (.error e, store)
      | (.ok (entry, rawCacheHit), store) =>
          let results := normalize o.text o.sha256 entry.documents entry.scores
          let duplicateRate :=
            if entry.documents = [] then PyFloat.ofRat 0
            else PyFloat.sub (PyFloat.ofRat 1)
              (PyFloat.div (PyFloat.ofRat results.length) (PyFloat.ofRat entry.documents.length))
          (.ok ⟨results, rawCacheHit, duplicateRate⟩,
            o.cache.setNormalized store (o.searchText call) call.connectorNames results)

/-- `_resolve_ranked_results`. -/
def resolveRankedResults (store : TextCache F) (call : SearchCall F) :
    Except PyException (Resolved F) × TextCache F :=
  match o.cache.getRanking store (o.searchText call) call.connectorNames (effectiveWeights call) with
  | .error e => (.error e, store)
  | .ok (some results) => (.ok ⟨results, true, PyFloat.ofRat 0⟩, store)
  | .ok none =>
      match o.resolveNormalized kernel store call with
      | (.error e, store) => (.error e, store)
      | (.ok resolved, store) =>
          match rank o.text o.currentYear o.sources (effectiveWeights call) resolved.results with
          | .error e => (.error e, store)
          | .ok ranked => (.ok { resolved with results := ranked },
              o.cache.setRanking store (o.searchText call) call.connectorNames (effectiveWeights call)
                ranked)

/-- The results of `search`. -/
def search (store : TextCache F) (call : SearchCall F) : Except PyException (List (ResearchResult F)) :=
  (o.resolveRankedResults kernel store call).1.map (·.results)

/-- The cache after a call of `search`. -/
def step (store : TextCache F) (call : SearchCall F) : TextCache F :=
  (o.resolveRankedResults kernel store call).2

end ResearchOrchestrator

end Tmis.LegalResearch
