import Tmis.LegalResearch.Ranking

/-!
# The research cache

Three layers over one cache of texts: what the connectors found, the normalized results, and the
ranked ones.  Every key begins with the firm and the layer.

* `Payload` — what is stored under a key;
* `rawKey`, `normalizedKey`, `rankingKey` — the keys, and that no two layers share one;
* `getRawSearch`, `getNormalized`, `getRanking` and their setters — `ResearchCache`.
-/

namespace Tmis.LegalResearch

open Tmis.Lib

/-- What a layer stores: the JSON of a raw entry, or of a list of results.  Reading the JSON gives
back what was written. -/
inductive Payload (F : Type) where
  | raw (entry : RawSearchEntry F)
  | results (rs : List (ResearchResult F))

/-- The cache under all `ResearchCache` instances; nothing in it expires. -/
abbrev TextCache (F : Type) := Dict String (Payload F)

/-- The payload read as a raw entry. -/
def Payload.asRaw {F : Type} : Payload F → Except PyException (RawSearchEntry F)
  | .raw entry => .ok entry
  | .results _ => .error (typeError "list indices must be integers or slices, not str")

/-- The payload read as a list of results. -/
def Payload.asResults {F : Type} : Payload F → Except PyException (List (ResearchResult F))
  | .raw _ => .error (typeError ("tmis.legal_research.search.schemas.ResearchResult() argument after " ++
      "** must be a mapping, not str"))
  | .results rs => .ok rs

/-- The cache of one firm. -/
structure ResearchCache where
  firmId : String

namespace ResearchCache

variable {F : Type} [PyFloat F] (cache : ResearchCache)

/-! ### Keys -/

/-- `_connector_key`: the sorted names, or a star for none. -/
def connectorKey (connectorNames : Option (List String)) : String :=
  match connectorNames with
  | some (name :: names) => joinSorted "," (name :: names)
  | _ => "*"

/-- What the keys of all layers have in common. -/
def searchKey (searchText : String) (connectorNames : Option (List String)) : String :=
  searchText ++ ":" ++ connectorKey connectorNames

/-- How the keys of a layer begin. -/
def layer (name : String) : String := "legal_research:" ++ cache.firmId ++ ":" ++ name ++ ":"

def rawKey (searchText : String) (connectorNames : Option (List String)) : String :=
  cache.layer "raw" ++ searchKey searchText connectorNames

def normalizedKey (searchText : String) (connectorNames : Option (List String)) : String :=
  cache.layer "normalized" ++ searchKey searchText connectorNames

def weightsKey (weights : RankingWeights F) : String :=
  PyFloat.repr weights.lexical ++ ":" ++ PyFloat.repr weights.vector ++ ":" ++
    PyFloat.repr weights.authority ++ ":" ++ PyFloat.repr weights.freshness

def rankingKey (searchText : String) (connectorNames : Option (List String))
    (weights : RankingWeights F) : String :=
  cache.layer "ranking" ++ (searchKey searchText connectorNames ++ ":" ++ weightsKey weights)

/-- Numbers whose printed forms tell them apart, and hold no separator. -/
structure PrintsApart (xs : List F) : Prop where
  injective : ∀ x ∈ xs, ∀ y ∈ xs, PyFloat.repr x = PyFloat.repr y → x = y
  noColon : ∀ x ∈ xs, ':' ∉ (PyFloat.repr x).toList

lemma PrintsApart.subset {xs ys : List F} (h : PrintsApart ys) (hsub : xs ⊆ ys) : PrintsApart xs :=
  ⟨fun x hx y hy => h.injective x (hsub hx) y (hsub hy), fun x hx => h.noColon x (hsub hx)⟩

/-- The four weights. -/
def weightList (weights : RankingWeights F) : List F :=
  [weights.lexical, weights.vector, weights.authority, weights.freshness]

section Keys

variable {cache} {s s' : String} {names names' : Option (List String)} {w w' : RankingWeights F}

lemma rawKey_inj :
    cache.rawKey s names = cache.rawKey s' names' ↔ searchKey s names = searchKey s' names' :=
  String.append_right_inj _

lemma normalizedKey_inj : cache.normalizedKey s names = cache.normalizedKey s' names' ↔
    searchKey s names = searchKey s' names' :=
  String.append_right_inj _

/-- The parts of a ranking key, grouped from the left.  The separator is a variable: rewriting next
to the text itself would take it apart. -/
lemma regroup (x k c l v a f : String) : x ++ (k ++ c ++ (l ++ c ++ v ++ c ++ a ++ c ++ f)) =
    x ++ k ++ c ++ l ++ c ++ v ++ c ++ a ++ c ++ f := by
  simp only [String.append_assoc]

lemma rankingKey_eq : cache.rankingKey s names w =
    cache.layer "ranking" ++ searchKey s names ++ ":" ++ PyFloat.repr w.lexical ++ ":" ++
      PyFloat.repr w.vector ++ ":" ++ PyFloat.repr w.authority ++ ":" ++ PyFloat.repr w.freshness :=
  regroup ..

/-- The weights are read off the end of a ranking key. -/
lemma rankingKey_inj (h : PrintsApart (weightList w ++ weightList w'))
    (hkey : cache.rankingKey s names w = cache.rankingKey s' names' w') :
    searchKey s names = searchKey s' names' ∧ w = w' := by
  rw [rankingKey_eq, rankingKey_eq] at hkey
  have hno : ∀ x ∈ weightList w ++ weightList w', ':' ∉ (PyFloat.repr x).toList := h.noColon
  simp only [weightList, List.cons_append, List.nil_append, List.forall_mem_cons] at hno
  obtain ⟨hl, hv, ha, hf, hl', hv', ha', hf', -⟩ := hno
  obtain ⟨hkey, hfresh⟩ := append_sep_inj hf hf' hkey
  obtain ⟨hkey, hauth⟩ := append_sep_inj ha ha' hkey
  obtain ⟨hkey, hvec⟩ := append_sep_inj hv hv' hkey
  obtain ⟨hkey, hlex⟩ := append_sep_inj hl hl' hkey
  refine ⟨(String.append_right_inj _).mp hkey, ?_⟩
  have hinj := h.injective
  obtain ⟨l, v, a, f⟩ := w
  obtain ⟨l', v', a', f'⟩ := w'
  simp only [weightList, List.cons_append, List.nil_append] at hinj
  rw [hinj l (by simp) l' (by simp) hlex, hinj v (by simp) v' (by simp) hvec,
    hinj a (by simp) a' (by simp) hauth, hinj f (by simp) f' (by simp) hfresh]

lemma toList_append_middle {x a b c t t' : String} (h : x ++ a ++ c ++ t = x ++ b ++ c ++ t') :
    a.toList ++ (c ++ t).toList = b.toList ++ (c ++ t').toList := by
  simp only [String.append_assoc, String.append_right_inj] at h
  simpa only [String.toList_append, List.append_assoc] using congrArg String.toList h

/-- The name of its layer tells a key of a firm from those of the other layers. -/
lemma layer_ne {a b t t' : String} (ha : 2 < a.toList.length) (hb : 2 < b.toList.length)
    (hab : a.toList[2]? ≠ b.toList[2]?) : cache.layer a ++ t ≠ cache.layer b ++ t' := by
  intro h
  have hchar := congrArg (fun cs => cs[2]?) (toList_append_middle h)
  simp only [List.getElem?_append_left ha, List.getElem?_append_left hb] at hchar
  exact hab hchar

lemma rawKey_ne_normalizedKey : cache.rawKey s names ≠ cache.normalizedKey s' names' :=
  layer_ne (by decide) (by decide) (by decide)

lemma rawKey_ne_rankingKey : cache.rawKey s names ≠ cache.rankingKey s' names' w :=
  layer_ne (by decide) (by decide) (by decide)

lemma normalizedKey_ne_rankingKey : cache.normalizedKey s names ≠ cache.rankingKey s' names' w :=
  layer_ne (by decide) (by decide) (by decide)

end Keys

/-! ### Layers -/

/-- An entry read as `read` says, if there is one. -/
def lookup {α : Type} (store : TextCache F) (key : String) (read : Payload F → Except PyException α) :
    Except PyException (Option α) :=
  match store.get key with
  | none => .ok none
  | some payload => (read payload).map some

def getRawSearch (store : TextCache F) (searchText : String) (connectorNames : Option (List String)) :
    Except PyException (Option (RawSearchEntry F)) :=
  lookup store (cache.rawKey searchText connectorNames) Payload.asRaw

def setRawSearch (store : TextCache F) (searchText : String) (connectorNames : Option (List String))
    (entry : RawSearchEntry F) : TextCache F :=
  store.set (cache.rawKey searchText connectorNames) (.raw entry)

def getNormalized (store : TextCache F) (searchText : String) (connectorNames : Option (List String)) :
    Except PyException (Option (List (ResearchResult F))) :=
  lookup store (cache.normalizedKey searchText connectorNames) Payload.asResults

def setNormalized (store : TextCache F) (searchText : String) (connectorNames : Option (List String))
    (results : List (ResearchResult F)) : TextCache F :=
  store.set (cache.normalizedKey searchText connectorNames) (.results results)

def getRanking (store : TextCache F) (searchText : String) (connectorNames : Option (List String))
    (weights : RankingWeights F) : Except PyException (Option (List (ResearchResult F))) :=
  lookup store (cache.rankingKey searchText connectorNames weights) Payload.asResults

def setRanking (store : TextCache F) (searchText : String) (connectorNames : Option (List String))
    (weights : RankingWeights F) (results : List (ResearchResult F)) : TextCache F :=
  store.set (cache.rankingKey searchText connectorNames weights) (.results results)

end ResearchCache

end Tmis.LegalResearch
