import Tmis.Ai.Cache
import Tmis.LegalResearch.ResearchCache
import Tmis.Lib.JsonText
import Tmis.Lib.Run

/-!
# The research cache over a cache of texts

`ResearchCache` with what `ResearchCache.lean` leaves out: the JSON that is stored, the cache under it,
the clock and the expiration rules.

* `documentJson`, `readDocument`, … — the payloads of the layers, and that they read back;
* `getRawSearch`, `setRawSearch`, … — the layers, and `layers_texts`, that they are those of
  `ResearchCache.lean`;
* `key_inj` — a key names its firm, its layer and what was searched for;
* `answers_set` — a layer answers what was set last for the same search, by the same firm.
-/

namespace Tmis.LegalResearch.CachedTexts

open Tmis.Lib Tmis.Ai

/-! ### Payloads

`dataclasses.asdict` writes the fields of a record in their order. -/

section Payloads

variable {F : Type} {α : Type}

open JsonValue (WellFormed)

def entriesJson (json : α → JsonValue F) (d : Dict String α) : JsonValue F :=
  .object (d.entries.map fun e => (e.1, json e.2))

def itemsJson (json : α → JsonValue F) (xs : List α) : JsonValue F := .array (xs.map json)

def documentJson (doc : ConnectorDocument) : JsonValue F :=
  .object [("id", .str doc.id), ("title", .str doc.title), ("content", .str doc.content),
    ("connector", .str doc.connector), ("metadata", entriesJson .str doc.metadata)]

def scoresJson (scores : RelevanceScores F) : JsonValue F :=
  .object [("lexical_score", .float scores.lexicalScore), ("vector_score", .float scores.vectorScore)]

def entryJson (entry : RawSearchEntry F) : JsonValue F :=
  .object [("documents", itemsJson documentJson entry.documents),
    ("connectors_used", itemsJson .str entry.connectorsUsed), ("scores", entriesJson scoresJson entry.scores)]

def dateJson (date : Option String) : JsonValue F :=
  match date with
  | some text => .str text
  | none => .null

def resultJson (result : ResearchResult F) : JsonValue F :=
  .object [("id", .str result.id), ("title", .str result.title), ("excerpt", .str result.excerpt),
    ("connector", .str result.connector), ("document_type", .str result.documentType),
    ("reference", .str result.reference), ("date", dateJson result.date),
    ("lexical_score", .float result.lexicalScore), ("vector_score", .float result.vectorScore),
    ("authority_score", .float result.authorityScore), ("freshness_score", .float result.freshnessScore),
    ("final_score", .float result.finalScore), ("metadata", entriesJson .str result.metadata)]

/-- The JSON that `Payload` stands for. -/
def payloadJson : Payload F → JsonValue F
  | .raw entry => entryJson entry
  | .results rs => itemsJson resultJson rs

/-! Reading: a value of another type than that of its field is not read. -/

def readText : JsonValue F → Option String
  | .str s => some s
  | _ => none

def readFloat : JsonValue F → Option F
  | .float x => some x
  | _ => none

def readDate : JsonValue F → Option (Option String)
  | .null => some none
  | .str s => some (some s)
  | _ => none

def readItems (read : JsonValue F → Option α) : JsonValue F → Option (List α)
  | .array items => items.mapM read
  | _ => none

def readEntries (read : JsonValue F → Option α) : JsonValue F → Option (Dict String α)
  | .object entries => (entries.mapM fun e => (read e.2).map (e.1, ·)).map Dict.ofEntries
  | _ => none

/-- All names are fields, and the fields without a default are among them. -/
def takes (required optional names : List String) : Bool :=
  names.all (· ∈ required ++ optional) && required.all (· ∈ names)

/-- The keywords of a call `cls(**kwargs)`. -/
def keywords (required optional : List String) : JsonValue F → Option (List (String × JsonValue F))
  | .object kwargs => if takes required optional (kwargs.map Prod.fst) then some kwargs else none
  | _ => none

/-- The value of a field that is given. -/
def field (kwargs : List (String × JsonValue F)) (name : String) (read : JsonValue F → Option α) : Option α :=
  (kwargs.lookup name).bind read

/-- The value of a field, or its default. -/
def fieldOr (default : α) (kwargs : List (String × JsonValue F)) (name : String)
    (read : JsonValue F → Option α) : Option α :=
  match kwargs.lookup name with
  | some value => read value
  | none => some default

/-- `ConnectorDocument(**doc)`. -/
def readDocument (doc : JsonValue F) : Option ConnectorDocument := do
  let kwargs ← keywords ["id", "title", "content", "connector"] ["metadata"] doc
  return ⟨← field kwargs "id" readText, ← field kwargs "title" readText, ← field kwargs "content" readText,
    ← field kwargs "connector" readText, ← fieldOr ∅ kwargs "metadata" (readEntries readText)⟩

variable [PyFloat F]

open PyFloat (ofRat)

/-- `RelevanceScores(**scores)`. -/
def readScores (scores : JsonValue F) : Option (RelevanceScores F) := do
  let kwargs ← keywords [] ["lexical_score", "vector_score"] scores
  return ⟨← fieldOr (ofRat 0) kwargs "lexical_score" readFloat,
    ← fieldOr (ofRat 0) kwargs "vector_score" readFloat⟩

/-- The end of `get_raw_search`. -/
def readEntry : JsonValue F → Option (RawSearchEntry F)
  | .object payload => do
      return ⟨← field payload "documents" (readItems readDocument),
        ← field payload "connectors_used" (readItems readText),
        ← field payload "scores" (readEntries readScores)⟩
  | _ => none

/-- `ResearchResult(**item)`. -/
def readResult (item : JsonValue F) : Option (ResearchResult F) := do
  let kwargs ← keywords ["id", "title", "excerpt", "connector", "document_type", "reference", "date"]
    ["lexical_score", "vector_score", "authority_score", "freshness_score", "final_score", "metadata"] item
  return ⟨← field kwargs "id" readText, ← field kwargs "title" readText, ← field kwargs "excerpt" readText,
    ← field kwargs "connector" readText, ← field kwargs "document_type" readText,
    ← field kwargs "reference" readText, ← field kwargs "date" readDate,
    ← fieldOr (ofRat 0) kwargs "lexical_score" readFloat, ← fieldOr (ofRat 0) kwargs "vector_score" readFloat,
    ← fieldOr (ofRat 0) kwargs "authority_score" readFloat,
    ← fieldOr (ofRat 0) kwargs "freshness_score" readFloat,
    ← fieldOr (ofRat 0) kwargs "final_score" readFloat, ← fieldOr ∅ kwargs "metadata" (readEntries readText)⟩

end Payloads

/-! ### What was written reads back -/

section ReadBack

variable {F : Type} {α : Type} {json : α → JsonValue F} {read : JsonValue F → Option α}

open JsonValue (WellFormed)

lemma mapM_map {β γ : Type} {f : β → γ} {g : γ → Option β} (h : ∀ x, g (f x) = some x) :
    ∀ xs : List β, (xs.map f).mapM g = some xs
  | [] => rfl
  | x :: xs => by
      rw [List.map_cons, List.mapM_cons, h, mapM_map h xs]
      rfl

lemma readItems_itemsJson (h : ∀ x, read (json x) = some x) (xs : List α) :
    readItems read (itemsJson json xs) = some xs :=
  mapM_map h xs

lemma readEntries_entriesJson (h : ∀ x, read (json x) = some x) (d : Dict String α) :
    readEntries read (entriesJson json d) = some d := by
  have hentry : ∀ e : String × α, (read (json e.2)).map (e.1, ·) = some e := fun e => by
    rw [h, Option.map_some]
  have hentries : (d.entries.map fun e => (e.1, json e.2)).mapM (fun e => (read e.2).map (e.1, ·)) =
      some d.entries := mapM_map hentry d.entries
  rw [entriesJson, readEntries, hentries, Option.map_some, Dict.ofEntries_entries]

lemma readText_str (s : String) : readText (.str s : JsonValue F) = some s := rfl

lemma readDate_dateJson (date : Option String) : readDate (dateJson date : JsonValue F) = some date := by
  cases date <;> rfl

lemma keywords_object {required optional : List String} {kwargs : List (String × JsonValue F)}
    (h : takes required optional (kwargs.map Prod.fst) = true) :
    keywords required optional (.object kwargs) = some kwargs := if_pos h

lemma readDocument_documentJson (doc : ConnectorDocument) :
    readDocument (documentJson doc : JsonValue F) = some doc := by
  rw [readDocument, documentJson, keywords_object rfl]
  show ((readEntries readText (entriesJson (F := F) .str doc.metadata)).bind fun metadata =>
    some ⟨doc.id, doc.title, doc.content, doc.connector, metadata⟩) = some doc
  rw [readEntries_entriesJson readText_str, Option.bind_some]

variable [PyFloat F]

lemma readScores_scoresJson (scores : RelevanceScores F) : readScores (scoresJson scores) = some scores := by
  rw [readScores, scoresJson, keywords_object rfl]
  rfl

lemma readEntry_entryJson (entry : RawSearchEntry F) : readEntry (entryJson entry) = some entry := by
  show ((readItems readDocument (itemsJson (F := F) documentJson entry.documents)).bind fun documents =>
    (readItems readText (itemsJson (F := F) .str entry.connectorsUsed)).bind fun connectorsUsed =>
      (readEntries readScores (entriesJson scoresJson entry.scores)).bind fun scores =>
        some ⟨documents, connectorsUsed, scores⟩) = some entry
  rw [readItems_itemsJson readDocument_documentJson, Option.bind_some, readItems_itemsJson readText_str,
    Option.bind_some, readEntries_entriesJson readScores_scoresJson, Option.bind_some]

lemma readResult_resultJson (result : ResearchResult F) : readResult (resultJson result) = some result := by
  rw [readResult, resultJson, keywords_object rfl]
  show ((readDate (F := F) (dateJson result.date)).bind fun date =>
    (readEntries readText (entriesJson (F := F) .str result.metadata)).bind fun metadata =>
      some { result with date, metadata }) = some result
  rw [readDate_dateJson, Option.bind_some, readEntries_entriesJson readText_str, Option.bind_some]

/-! No object has a key twice. -/

omit [PyFloat F]

lemma wellFormed_itemsJson (h : ∀ x, WellFormed (json x)) (xs : List α) : WellFormed (itemsJson json xs) := by
  refine .array fun x hx => ?_
  obtain ⟨y, -, rfl⟩ := List.mem_map.mp hx
  exact h y

lemma wellFormed_entriesJson (h : ∀ x, WellFormed (json x)) (d : Dict String α) :
    WellFormed (entriesJson json d) := by
  refine .object (by simpa [Function.comp_def] using d.nodup) fun e he => ?_
  obtain ⟨x, -, rfl⟩ := List.mem_map.mp he
  exact h x.2

lemma wellFormed_documentJson (doc : ConnectorDocument) : WellFormed (documentJson doc : JsonValue F) := by
  refine .object (show List.Nodup ["id", "title", "content", "connector", "metadata"] by decide) ?_
  simp only [List.forall_mem_cons]
  exact ⟨.str _, .str _, .str _, .str _, wellFormed_entriesJson .str _, fun _ h => absurd h List.not_mem_nil⟩

lemma wellFormed_scoresJson (scores : RelevanceScores F) : WellFormed (scoresJson scores) := by
  refine .object (show List.Nodup ["lexical_score", "vector_score"] by decide) ?_
  simp only [List.forall_mem_cons]
  exact ⟨.float _, .float _, fun _ h => absurd h List.not_mem_nil⟩

lemma wellFormed_entryJson (entry : RawSearchEntry F) : WellFormed (entryJson entry) := by
  refine .object (show List.Nodup ["documents", "connectors_used", "scores"] by decide) ?_
  simp only [List.forall_mem_cons]
  exact ⟨wellFormed_itemsJson wellFormed_documentJson _, wellFormed_itemsJson .str _,
    wellFormed_entriesJson wellFormed_scoresJson _, fun _ h => absurd h List.not_mem_nil⟩

lemma wellFormed_dateJson (date : Option String) : WellFormed (dateJson date : JsonValue F) := by
  cases date
  · exact .null
  · exact .str _

lemma wellFormed_resultJson (result : ResearchResult F) : WellFormed (resultJson result) := by
  refine .object (show List.Nodup ["id", "title", "excerpt", "connector", "document_type", "reference",
    "date", "lexical_score", "vector_score", "authority_score", "freshness_score", "final_score",
    "metadata"] by decide) ?_
  simp only [List.forall_mem_cons]
  exact ⟨.str _, .str _, .str _, .str _, .str _, .str _, wellFormed_dateJson _, .float _, .float _, .float _,
    .float _, .float _, wellFormed_entriesJson .str _, fun _ h => absurd h List.not_mem_nil⟩

lemma wellFormed_payloadJson (p : Payload F) : (payloadJson p).WellFormed := by
  cases p with
  | raw entry => exact wellFormed_entryJson entry
  | results rs => exact wellFormed_itemsJson wellFormed_resultJson rs

end ReadBack

/-! ### Layers -/

/-- `ResearchCacheConfig`. -/
structure ResearchCacheConfig where
  rawSearchTtlSeconds : ℤ := 600
  normalizedTtlSeconds : ℤ := 300
  rankingTtlSeconds : ℤ := 120

/-- What a layer raises at a text that no layer wrote: a `JSONDecodeError`, a `KeyError` or a `TypeError`. -/
def unreadable : PyException := valueError "unreadable"

section Layers

variable {F : Type} [JsonFloat F] {α : Type} (port : CachePort F) (cache : ResearchCache)
  (config : ResearchCacheConfig) (now : F)

/-- The value of a JSON text, read by a layer. -/
def readWith (read : JsonValue F → Option α) (text : String) : Except PyException α :=
  match (JsonValue.loads text).bind read with
  | some value => .ok value
  | none => .error unreadable

/-- The text under a key, read by a layer. -/
def getWith (read : JsonValue F → Option α) (key : String) (s : port.State) :
    Except PyException (Option α) × port.State :=
  match port.get now key s with
  | (.error e, s) => (.error e, s)
  | (.ok none, s) => (.ok none, s)
  | (.ok (some text), s) => ((readWith read text).map some, s)

def getRawSearch (searchText : String) (connectorNames : Option (List String)) :
    port.State → Except PyException (Option (RawSearchEntry F)) × port.State :=
  getWith port now readEntry (cache.rawKey searchText connectorNames)

def setRawSearch (searchText : String) (connectorNames : Option (List String)) (entry : RawSearchEntry F) :
    port.State → Except PyException Unit × port.State :=
  port.set now (cache.rawKey searchText connectorNames) (entryJson entry).dumps
    (some config.rawSearchTtlSeconds)

def getNormalized (searchText : String) (connectorNames : Option (List String)) :
    port.State → Except PyException (Option (List (ResearchResult F))) × port.State :=
  getWith port now (readItems readResult) (cache.normalizedKey searchText connectorNames)

def setNormalized (searchText : String) (connectorNames : Option (List String))
    (results : List (ResearchResult F)) : port.State → Except PyException Unit × port.State :=
  port.set now (cache.normalizedKey searchText connectorNames) (itemsJson resultJson results).dumps
    (some config.normalizedTtlSeconds)

def getRanking (searchText : String) (connectorNames : Option (List String)) (weights : RankingWeights F) :
    port.State → Except PyException (Option (List (ResearchResult F))) × port.State :=
  getWith port now (readItems readResult) (cache.rankingKey searchText connectorNames weights)

def setRanking (searchText : String) (connectorNames : Option (List String)) (weights : RankingWeights F)
    (results : List (ResearchResult F)) : port.State → Except PyException Unit × port.State :=
  port.set now (cache.rankingKey searchText connectorNames weights) (itemsJson resultJson results).dumps
    (some config.rankingTtlSeconds)

/-- A payload that was written is read. -/
lemma readWith_dumps {read : JsonValue F → Option α} {json : JsonValue F} {value : α} (hjson : json.WellFormed)
    (hread : read json = some value) : readWith read json.dumps = .ok value := by
  rw [readWith, JsonValue.loads_dumps hjson, Option.bind_some, hread]

/-- In memory, what a layer wrote is what it reads until it expires. -/
theorem getWith_set {read : JsonValue F → Option α} {json : JsonValue F} {value : α} (hjson : json.WellFormed)
    (hread : read json = some value) {ttl : Option ℤ} {later : F} {expiresAt : Option F}
    (hexpiry : InMemoryCache.expiry now ttl = .ok expiresAt)
    (hlive : InMemoryCache.expired later expiresAt = false) (key : String) (store : TextStore F) :
    (getWith (inMemoryCache F) later read key ((inMemoryCache F).set now key json.dumps ttl store).2).1 =
      .ok (some value) := by
  have hget : ((inMemoryCache F).get later key ((inMemoryCache F).set now key json.dumps ttl store).2).1 =
      .ok (some json.dumps) := congrArg Except.ok (InMemoryCache.get_set hexpiry hlive)
  unfold getWith
  split
  · rename_i heq
    cases (congrArg Prod.fst heq).symm.trans hget
  · rename_i heq
    cases (congrArg Prod.fst heq).symm.trans hget
  · rename_i heq
    cases (congrArg Prod.fst heq).symm.trans hget
    rw [readWith_dumps hjson hread]
    rfl

example : (getRawSearch (inMemoryCache WholeFloat) ⟨uuidText 7⟩ ⟨5⟩ "congé" (some ["b", "a"])
    (setRawSearch (inMemoryCache WholeFloat) ⟨uuidText 7⟩ {} ⟨0⟩ "congé" (some ["a", "b"])
      ⟨[], ["a"], ∅⟩ (∅ : TextStore _)).2).1.toOption.map (·.map (·.connectorsUsed)) = some (some ["a"]) := by
  decide +kernel

/-! What `ResearchCache.lean` stores are these texts, of which it leaves out that they expire. -/

lemma readEntry_payloadJson (p : Payload F) : readEntry (payloadJson p) = p.asRaw.toOption := by
  cases p with
  | raw entry => exact readEntry_entryJson entry
  | results rs => rfl

lemma readResults_payloadJson (p : Payload F) : readItems readResult (payloadJson p) = p.asResults.toOption := by
  cases p with
  | raw entry => rfl
  | results rs => exact readItems_itemsJson readResult_resultJson rs

/-- The texts of payloads, none of which expires. -/
def texts (store : TextCache F) : TextStore F where
  entries := store.entries.map fun e => (e.1, (payloadJson e.2).dumps, none)
  nodup := by simpa [Function.comp_def] using store.nodup

lemma get_texts (store : TextCache F) (key : String) :
    (texts store).get key = (store.get key).map fun p => ((payloadJson p).dumps, none) :=
  Dict.lookup_map (fun _ p => ((payloadJson p).dumps, none)) store.entries key

/-- A layer reads from the texts what it reads from the payloads, up to what it raises at the payload of
another layer. -/
lemma getWith_texts {read : JsonValue F → Option α} {readPayload : Payload F → Except PyException α}
    (hread : ∀ p, read (payloadJson p) = (readPayload p).toOption) (store : TextCache F) (key : String) :
    (getWith (inMemoryCache F) now read key (texts store)).1.toOption =
      (ResearchCache.lookup store key readPayload).toOption := by
  have hget : (inMemoryCache F).get now key (texts store) =
      (.ok ((store.get key).map fun p => (payloadJson p).dumps), texts store) := by
    show (InMemoryCache.get now key (texts store)).map Except.ok id = _
    rw [InMemoryCache.get, get_texts]
    cases store.get key <;> rfl
  unfold getWith ResearchCache.lookup
  rw [hget]
  cases store.get key with
  | none => rfl
  | some p =>
    dsimp only [Option.map_some]
    rw [readWith, JsonValue.loads_dumps (wellFormed_payloadJson p), Option.bind_some, hread]
    cases readPayload p <;> rfl

/-- **The layers over texts are those over payloads.** -/
theorem layers_texts (store : TextCache F) (searchText : String) (connectorNames : Option (List String))
    (weights : RankingWeights F) :
    (getRawSearch (inMemoryCache F) cache now searchText connectorNames (texts store)).1.toOption =
      (cache.getRawSearch store searchText connectorNames).toOption ∧
    (getNormalized (inMemoryCache F) cache now searchText connectorNames (texts store)).1.toOption =
      (cache.getNormalized store searchText connectorNames).toOption ∧
    (getRanking (inMemoryCache F) cache now searchText connectorNames weights (texts store)).1.toOption =
      (cache.getRanking store searchText connectorNames weights).toOption :=
  ⟨getWith_texts now readEntry_payloadJson store _, getWith_texts now readResults_payloadJson store _,
    getWith_texts now readResults_payloadJson store _⟩

end Layers

/-! ### Keys -/

/-- The names of connectors that a key is made of: a star where there are none. -/
def connectorList : Option (List String) → List String
  | some (name :: names) => name :: names
  | _ => ["*"]

/-- What is searched for, by an instance of `ResearchCache`: its firm is given by a UUID, and the names of the
connectors hold no separator of the keys. -/
structure CachedSearch where
  cache : ResearchCache
  config : ResearchCacheConfig
  searchText : String
  connectorNames : Option (List String)
  rendered : ∃ n < 2 ^ 128, cache.firmId = uuidText n
  named : ∀ names ∈ connectorNames, ∀ name ∈ names, ',' ∉ name.toList ∧ ':' ∉ name.toList

/-- The same firm searches for the same text with the same connectors, in whatever order. -/
def CachedSearch.Same (q q' : CachedSearch) : Prop :=
  q.cache.firmId = q'.cache.firmId ∧ q.searchText = q'.searchText ∧
    (connectorList q.connectorNames).Perm (connectorList q'.connectorNames)

inductive Layer (F : Type) where
  | raw
  | normalized
  | ranking (weights : RankingWeights F)

/-- What a key stands for. -/
structure Target (F : Type) where
  search : CachedSearch
  layer : Layer F

def Target.Same {F : Type} (t t' : Target F) : Prop := t.search.Same t'.search ∧ t.layer = t'.layer

def Layer.name {F : Type} : Layer F → String
  | .raw => "raw"
  | .normalized => "normalized"
  | .ranking _ => "ranking"

lemma Layer.colon_not_mem_name {F : Type} (layer : Layer F) : ':' ∉ layer.name.toList := by
  cases layer <;> simp [Layer.name]

section Keys

variable {F : Type} [JsonFloat F]

open ResearchCache

def Target.key (t : Target F) : String :=
  let q := t.search
  match t.layer with
  | .raw => q.cache.rawKey q.searchText q.connectorNames
  | .normalized => q.cache.normalizedKey q.searchText q.connectorNames
  | .ranking weights => q.cache.rankingKey q.searchText q.connectorNames weights

lemma connectorKey_eq (names : Option (List String)) :
    connectorKey names = joinSorted "," (connectorList names) := by
  unfold connectorKey connectorList
  split
  · rfl
  · simp [joinSorted]

lemma connectorList_ne_nil (names : Option (List String)) : connectorList names ≠ [] := by
  unfold connectorList
  split <;> exact List.cons_ne_nil _ _

/-- The characters of a key.  The texts between its parts are variables: rewriting next to the texts
themselves would take them apart. -/
lemma toList_layer (x c firmId name t : String) : (x ++ firmId ++ c ++ name ++ c ++ t).toList =
    x.toList ++ (firmId.toList ++ (c.toList ++ (name.toList ++ (c.toList ++ t.toList)))) := by
  simp only [String.toList_append, List.append_assoc]

section Search

variable (q q' : CachedSearch)

lemma CachedSearch.mem_connectorList {name : String} (h : name ∈ connectorList q.connectorNames) :
    ',' ∉ name.toList ∧ ':' ∉ name.toList := by
  unfold connectorList at h
  split at h
  · rename_i heq
    exact q.named _ heq name h
  · obtain rfl := List.mem_singleton.mp h
    decide

lemma CachedSearch.colon_not_mem_connectorKey : ':' ∉ (connectorKey q.connectorNames).toList := by
  intro h
  rw [connectorKey_eq] at h
  rcases mem_joinSorted h with hsep | ⟨name, hname, hc⟩
  · revert hsep
    decide
  · exact (q.mem_connectorList hname).2 hc

lemma CachedSearch.colon_not_mem_firmId : ':' ∉ q.cache.firmId.toList := by
  obtain ⟨n, hn, hfirm⟩ := q.rendered
  have hdigits : ∀ d < 16, ':' ≠ d.digitChar := by decide
  intro h
  rw [hfirm] at h
  rcases mem_uuidText hn h with hdash | ⟨d, hd, hc⟩
  · revert hdash
    decide
  · exact hdigits d hd hc

variable {q q'}

/-- The text and the connectors are read off the end of a key. -/
lemma CachedSearch.searchKey_inj :
    searchKey q.searchText q.connectorNames = searchKey q'.searchText q'.connectorNames ↔
      q.searchText = q'.searchText ∧
        (connectorList q.connectorNames).Perm (connectorList q'.connectorNames) := by
  constructor
  · intro h
    obtain ⟨htext, hnames⟩ := append_sep_inj q.colon_not_mem_connectorKey q'.colon_not_mem_connectorKey h
    refine ⟨htext, ?_⟩
    rw [connectorKey_eq, connectorKey_eq] at hnames
    exact perm_of_joinSorted_eq (connectorList_ne_nil _) (connectorList_ne_nil _)
      (fun name hname => (q.mem_connectorList hname).1) (fun name hname => (q'.mem_connectorList hname).1) hnames
  · rintro ⟨htext, hperm⟩
    have hsorted : (connectorList q.connectorNames).insertionSort (· ≤ ·) =
        (connectorList q'.connectorNames).insertionSort (· ≤ ·) :=
      List.Perm.eq_of_pairwise' (List.pairwise_insertionSort _ _) (List.pairwise_insertionSort _ _)
        ((List.perm_insertionSort _ _).trans (hperm.trans (List.perm_insertionSort _ _).symm))
    rw [searchKey, searchKey, htext, connectorKey_eq, connectorKey_eq, joinSorted, joinSorted, hsorted]

/-- A key names its firm and its layer. -/
lemma CachedSearch.layer_append_inj {a b t t' : String} (ha : ':' ∉ a.toList) (hb : ':' ∉ b.toList)
    (h : q.cache.layer a ++ t = q'.cache.layer b ++ t') : q.cache.firmId = q'.cache.firmId ∧ a = b := by
  have hcolon : ":".toList = [':'] := by decide
  have hlist := congrArg String.toList h
  unfold ResearchCache.layer at hlist
  rw [toList_layer, toList_layer] at hlist
  have hparts := List.append_cancel_left hlist
  rw [hcolon] at hparts
  obtain ⟨hfirm, hrest⟩ := append_cons_inj q.colon_not_mem_firmId q'.colon_not_mem_firmId hparts
  exact ⟨String.toList_injective hfirm, String.toList_injective (append_cons_inj ha hb hrest).1⟩

end Search

/-- The printed forms of floats tell them apart, and hold no colon. -/
lemma printsApart (xs : List F) : PrintsApart xs where
  injective _ _ _ _ h := repr_inj h
  noColon x _ h := by
    have hchar := mem_repr h
    revert hchar
    decide

/-- What a key begins with. -/
lemma Target.key_eq (t : Target F) : ∃ rest, t.key = t.search.cache.layer t.layer.name ++ rest := by
  obtain ⟨q, layer⟩ := t
  cases layer <;> exact ⟨_, rfl⟩

/-- **A key stands for one target**: two are the same iff the same firm searches for the same in the same
layer. -/
theorem Target.key_inj {t t' : Target F} : t.key = t'.key ↔ t.Same t' := by
  obtain ⟨q, layer⟩ := t
  obtain ⟨q', layer'⟩ := t'
  have hcache (hfirm : q.cache.firmId = q'.cache.firmId) : q.cache = q'.cache := by
    obtain ⟨⟨_⟩, _⟩ := q
    obtain ⟨⟨_⟩, _⟩ := q'
    exact congrArg ResearchCache.mk hfirm
  constructor
  · intro h
    obtain ⟨rest, hrest⟩ := Target.key_eq ⟨q, layer⟩
    obtain ⟨rest', hrest'⟩ := Target.key_eq ⟨q', layer'⟩
    have happend := h
    rw [hrest, hrest'] at happend
    obtain ⟨hfirm, hname⟩ :=
      CachedSearch.layer_append_inj layer.colon_not_mem_name layer'.colon_not_mem_name happend
    cases layer <;> cases layer' <;> try simp [Layer.name] at hname
    · simp only [Target.key, hcache hfirm] at h
      exact ⟨⟨hfirm, CachedSearch.searchKey_inj.mp (rawKey_inj.mp h)⟩, rfl⟩
    · simp only [Target.key, hcache hfirm] at h
      exact ⟨⟨hfirm, CachedSearch.searchKey_inj.mp (normalizedKey_inj.mp h)⟩, rfl⟩
    · simp only [Target.key, hcache hfirm] at h
      obtain ⟨hsearch, hweights⟩ := rankingKey_inj (printsApart _) h
      exact ⟨⟨hfirm, CachedSearch.searchKey_inj.mp hsearch⟩, congrArg Layer.ranking hweights⟩
  · rintro ⟨⟨hfirm, hsearch⟩, hlayer⟩
    obtain rfl : layer = layer' := hlayer
    have hkey := CachedSearch.searchKey_inj.mpr hsearch
    cases layer with
    | raw => simp only [Target.key, hcache hfirm, rawKey, hkey]
    | normalized => simp only [Target.key, hcache hfirm, normalizedKey, hkey]
    | ranking weights => simp only [Target.key, hcache hfirm, rankingKey, hkey]

end Keys

/-! ### Runs -/

/-- A call that sets a value. -/
inductive LayerWrite (F : Type) where
  | raw (q : CachedSearch) (entry : RawSearchEntry F)
  | normalized (q : CachedSearch) (results : List (ResearchResult F))
  | ranking (q : CachedSearch) (weights : RankingWeights F) (results : List (ResearchResult F))

def LayerWrite.target {F : Type} : LayerWrite F → Target F
  | .raw q _ => ⟨q, .raw⟩
  | .normalized q _ => ⟨q, .normalized⟩
  | .ranking q weights _ => ⟨q, .ranking weights⟩

/-- A call of an instance of `ResearchCache`. -/
inductive CacheCall (F : Type) where
  | getRawSearch (q : CachedSearch)
  | getNormalized (q : CachedSearch)
  | getRanking (q : CachedSearch) (weights : RankingWeights F)
  | set (w : LayerWrite F)

section Runs

variable {F : Type} [JsonFloat F]

def LayerWrite.text : LayerWrite F → String
  | .raw _ entry => (entryJson entry).dumps
  | .normalized _ results => (itemsJson resultJson results).dumps
  | .ranking _ _ results => (itemsJson resultJson results).dumps

variable (port : CachePort F)

def LayerWrite.perform (now : F) : LayerWrite F → port.State → Except PyException Unit × port.State
  | .raw q entry => setRawSearch port q.cache q.config now q.searchText q.connectorNames entry
  | .normalized q results => setNormalized port q.cache q.config now q.searchText q.connectorNames results
  | .ranking q weights results =>
      setRanking port q.cache q.config now q.searchText q.connectorNames weights results

/-- The shared cache, and the values that were set, each with whether the call returned.  The newest is the
first. -/
structure World where
  state : port.State
  writes : List (LayerWrite F × Bool)

variable {port}

/-- A call, at a moment that the clock gives. -/
def step (w : World port) (call : F × CacheCall F) : World port :=
  match call with
  | (now, .getRawSearch q) =>
      { w with state := (getRawSearch port q.cache now q.searchText q.connectorNames w.state).2 }
  | (now, .getNormalized q) =>
      { w with state := (getNormalized port q.cache now q.searchText q.connectorNames w.state).2 }
  | (now, .getRanking q weights) =>
      { w with state := (getRanking port q.cache now q.searchText q.connectorNames weights w.state).2 }
  | (now, .set write) =>
      let result := write.perform port now w.state
      { state := result.2, writes := (write, result.1.isOk) :: w.writes }

/-- After calls of any instances, in any order, over one cache that was empty. -/
def after (port : CachePort F) (calls : List (F × CacheCall F)) : World port := run step ⟨port.empty, []⟩ calls

/-- The value was set, and none for the same target since. -/
def SetLast (writes : List (LayerWrite F × Bool)) (write : LayerWrite F) : Prop :=
  ∃ newer returned older, writes = newer ++ (write, returned) :: older ∧
    ∀ x ∈ newer, x.2 = true → ¬ x.1.target.Same write.target

/-- What a layer answers where the cache under it gives an answer: the same error, nothing where there is
nothing, and else a value. -/
inductive Answers {α : Type} (P : α → Prop) :
    Except PyException (Option String) → Except PyException (Option α) → Prop
  | failed (e : PyException) : Answers P (.error e) (.error e)
  | missed : Answers P (.ok none) (.ok none)
  | hit {text : String} {value : α} (hvalue : P value) : Answers P (.ok (some text)) (.ok (some value))

/-- The write that a call makes under the research cache. -/
def cacheWrite (x : LayerWrite F × Bool) : CacheWrite := ⟨x.1.target.key, x.1.text, x.2⟩

lemma perform_eq (port : CachePort F) (now : F) (write : LayerWrite F) :
    ∃ ttl, write.perform port now = port.set now write.target.key write.text ttl := by
  cases write <;> exact ⟨_, rfl⟩

lemma getWith_snd {α : Type} (now : F) (read : JsonValue F → Option α) (key : String) (s : port.State) :
    (getWith port now read key s).2 = (port.get now key s).2 := by
  unfold getWith
  split <;> simp_all

/-- What the cache may answer was set last, through every run. -/
lemma remembers_after (calls : List (F × CacheCall F)) :
    Remembers port (after port calls).state ((after port calls).writes.map cacheWrite) := by
  refine run_inv (I := fun w : World port => Remembers port w.state (w.writes.map cacheWrite)) calls
    remembers_empty ?_
  rintro w ⟨now, q | q | ⟨q, weights⟩ | write⟩ h
  · simp only [step, getRawSearch, getWith_snd]
    exact h.get
  · simp only [step, getNormalized, getWith_snd]
    exact h.get
  · simp only [step, getRanking, getWith_snd]
    exact h.get
  · obtain ⟨ttl, hperform⟩ := perform_eq port now write
    simp only [step, hperform, List.map_cons]
    exact h.set

/-- A text that the cache gives for a target was set for it, and none since. -/
lemma exists_write {calls : List (F × CacheCall F)} {now : F} {t : Target F} {text : String}
    (h : (port.get now t.key (after port calls).state).1 = .ok (some text)) :
    ∃ write, write.target.Same t ∧ write.text = text ∧ SetLast (after port calls).writes write := by
  obtain ⟨newer, x, older, hwrites, hkey, htext, hnewer⟩ := remembers_after calls _ _ (port.get_holds h)
  obtain ⟨newer', rest, hsplit, rfl, hrest⟩ := List.map_eq_append_iff.mp hwrites
  obtain ⟨⟨write, returned⟩, older', rfl, rfl, rfl⟩ := List.map_eq_cons_iff.mp hrest
  refine ⟨write, Target.key_inj.mp hkey, htext, newer', returned, older', hsplit,
    fun y hy hreturned hsame => ?_⟩
  refine hnewer _ (List.mem_map_of_mem hy) hreturned ?_
  exact (Target.key_inj.mpr hsame).trans hkey

lemma getWith_answers {α : Type} {P : α → Prop} {now : F} {read : JsonValue F → Option α} {key : String}
    {s : port.State} (h : ∀ text, (port.get now key s).1 = .ok (some text) →
      ∃ value, readWith read text = .ok value ∧ P value) :
    Answers P (port.get now key s).1 (getWith port now read key s).1 := by
  unfold getWith
  split
  · rename_i heq
    rw [heq]
    exact .failed _
  · rename_i heq
    rw [heq]
    exact .missed
  · rename_i text _ heq
    obtain ⟨value, hread, hvalue⟩ := h text (congrArg Prod.fst heq)
    rw [heq, hread]
    exact .hit hvalue

lemma readItems_results (results : List (ResearchResult F)) :
    readWith (readItems readResult) (itemsJson resultJson results).dumps = .ok results :=
  readWith_dumps (wellFormed_itemsJson wellFormed_resultJson _) (readItems_itemsJson readResult_resultJson _)

/-- **The research cache keeps firms and layers apart, and returns what was set**: over one cache that any
instances of `ResearchCache` share, a layer answers a value only if it was set last, in this layer, for a
search of the same firm, with the same text, the same connectors up to their order and, for rankings, the
same weights. -/
theorem answers_set (port : CachePort F) (calls : List (F × CacheCall F)) (now : F) (q : CachedSearch) :
    let w := after port calls
    Answers (fun entry => ∃ q', q'.Same q ∧ SetLast w.writes (.raw q' entry))
      (port.get now (q.cache.rawKey q.searchText q.connectorNames) w.state).1
      (getRawSearch port q.cache now q.searchText q.connectorNames w.state).1 ∧
    Answers (fun results => ∃ q', q'.Same q ∧ SetLast w.writes (.normalized q' results))
      (port.get now (q.cache.normalizedKey q.searchText q.connectorNames) w.state).1
      (getNormalized port q.cache now q.searchText q.connectorNames w.state).1 ∧
    ∀ weights, Answers (fun results => ∃ q', q'.Same q ∧ SetLast w.writes (.ranking q' weights results))
      (port.get now (q.cache.rankingKey q.searchText q.connectorNames weights) w.state).1
      (getRanking port q.cache now q.searchText q.connectorNames weights w.state).1 := by
  refine ⟨getWith_answers fun text h => ?_, getWith_answers fun text h => ?_,
    fun weights => getWith_answers fun text h => ?_⟩
  · obtain ⟨write, ⟨hsearch, hlayer⟩, rfl, hlast⟩ := exists_write (t := ⟨q, .raw⟩) h
    cases write with
    | raw q' entry =>
      exact ⟨entry, readWith_dumps (wellFormed_entryJson entry) (readEntry_entryJson entry), q', hsearch, hlast⟩
    | normalized => cases hlayer
    | ranking => cases hlayer
  · obtain ⟨write, ⟨hsearch, hlayer⟩, rfl, hlast⟩ := exists_write (t := ⟨q, .normalized⟩) h
    cases write with
    | raw => cases hlayer
    | normalized q' results => exact ⟨results, readItems_results results, q', hsearch, hlast⟩
    | ranking => cases hlayer
  · obtain ⟨write, ⟨hsearch, hlayer⟩, rfl, hlast⟩ := exists_write (t := ⟨q, .ranking weights⟩) h
    cases write with
    | raw => cases hlayer
    | normalized => cases hlayer
    | ranking q' weights' results =>
      obtain rfl : weights' = weights := Layer.ranking.inj hlayer
      exact ⟨results, readItems_results results, q', hsearch, hlast⟩

end Runs

end Tmis.LegalResearch.CachedTexts
