import Mathlib.Data.List.Induction
import Tmis.Ai.Connectors
import Tmis.Lib.Memo
import Tmis.Lib.PyText
import Tmis.Lib.Run

/-!
# The search gateway of the kernel

`TMISKernel.search_connectors`, with the cache under it.  The key of a call holds the sorted names of
the connectors and the hash of the query, and nothing else.

* `ConnectorSearch`, `cacheKey`, `searchConnectors` — a call, its key, and what it returns;
* `SameDocuments`, `Transparent` — a cached call returns the documents of the uncached one;
* `Agree`, `KeysDetermine` — the condition on the calls that are cached;
* `Coherent` — what the cache holds after any calls;
* `searchConnectors_transparent_iff` — over every sequence of calls, whatever the connectors find.
-/

namespace Tmis.Ai

open Tmis.Lib

/-- The part of the kernel's configuration and collaborators that a search uses. -/
structure TMISKernel where
  defaultConnectors : List String
  useCache : Bool := true
  sha256 : String → String
  connectorManager : ConnectorManager

/-- A call of `search_connectors`. -/
structure ConnectorSearch (Filters : Type) where
  query : String
  connectorNames : Option (List String) := none
  filters : Option Filters := none
  useCache : Bool := true

/-- The cache: documents under keys; nothing in it expires. -/
abbrev SearchCache := Dict String (List ConnectorDocument)

namespace TMISKernel

variable {Filters : Type} (kernel : TMISKernel) (connectors : Connectors Filters)

/-- `connector_names or default_connectors`. -/
def targets (call : ConnectorSearch Filters) : List String :=
  match call.connectorNames with
  | some (name :: names) => name :: names
  | _ => kernel.defaultConnectors

def cacheKey (call : ConnectorSearch Filters) : String :=
  "search:" ++ joinSorted "," (kernel.targets call) ++ ":" ++ kernel.sha256 call.query

/-- The call reads the cache, and writes it. -/
def cached (call : ConnectorSearch Filters) : Bool := call.useCache && kernel.useCache

/-- The search itself. -/
def searchManager (call : ConnectorSearch Filters) : Except PyException (List ConnectorDocument) :=
  kernel.connectorManager.search connectors call.query call.filters (kernel.targets call)

/-- `search_connectors`: what it returns, and the cache after it. -/
def searchConnectors (cache : SearchCache) (call : ConnectorSearch Filters) :
    Except PyException (List ConnectorDocument) × SearchCache :=
  if kernel.cached call then
    match cache.get (kernel.cacheKey call) with
    | some documents => (.ok documents, cache)
    | none =>
        match kernel.searchManager connectors call with
        | .error e => (.error e, cache)
        | .ok documents => (.ok documents, cache.set (kernel.cacheKey call) documents)
  else (kernel.searchManager connectors call, cache)

/-- The cache after a call. -/
def step (cache : SearchCache) (call : ConnectorSearch Filters) : SearchCache :=
  (kernel.searchConnectors connectors cache call).2

end TMISKernel

/-- Two answers with the same documents, in any order. -/
def SameDocuments :
    Except PyException (List ConnectorDocument) → Except PyException (List ConnectorDocument) → Prop
  | .ok documents, .ok documents' => documents.Perm documents'
  | .error e, .error e' => e = e'
  | _, _ => False

lemma SameDocuments.refl (answer : Except PyException (List ConnectorDocument)) :
    SameDocuments answer answer := by
  cases answer
  · rfl
  · exact List.Perm.refl _

namespace TMISKernel

variable {Filters : Type} {kernel : TMISKernel} {connectors : Connectors Filters} {cache : SearchCache}
  {call c₀ c₁ c₂ : ConnectorSearch Filters} {log calls : List (ConnectorSearch Filters)}
  {documents : List ConnectorDocument}

/-- A call that asks for the cache returns what it returns without it. -/
def Transparent (kernel : TMISKernel) (connectors : Connectors Filters) (cache : SearchCache)
    (call : ConnectorSearch Filters) : Prop :=
  call.useCache = true → SameDocuments (kernel.searchConnectors connectors cache call).1
    (kernel.searchConnectors connectors cache { call with useCache := false }).1

lemma searchConnectors_uncached (h : kernel.cached call = false) :
    kernel.searchConnectors connectors cache call = (kernel.searchManager connectors call, cache) := by
  simp [searchConnectors, h]

/-- Without the cache, a call is the search itself. -/
lemma searchConnectors_useCache_false :
    (kernel.searchConnectors connectors cache { call with useCache := false }).1 =
      kernel.searchManager connectors call := by
  rw [searchConnectors_uncached (by rfl)]
  rfl

/-! ### The condition -/

/-- The connectors that a call asks. -/
def asked (kernel : TMISKernel) (call : ConnectorSearch Filters) : List String :=
  kernel.connectorManager.asked (kernel.targets call)

/-- Two calls ask the same connectors, in any order, and ask them the same. -/
def Agree (kernel : TMISKernel) (c₁ c₂ : ConnectorSearch Filters) : Prop :=
  (kernel.asked c₁).Perm (kernel.asked c₂) ∧
    (kernel.asked c₁ = [] ∨ (c₁.query = c₂.query ∧ c₁.filters = c₂.filters))

/-- The condition: calls that are cached under one key agree. -/
def KeysDetermine (kernel : TMISKernel) (calls : List (ConnectorSearch Filters)) : Prop :=
  ∀ c₁ ∈ calls, ∀ c₂ ∈ calls, kernel.cached c₁ = true → kernel.cached c₂ = true →
    kernel.cacheKey c₁ = kernel.cacheKey c₂ → kernel.Agree c₁ c₂

/-- A digest that does not collide tells the queries apart. -/
lemma query_of_cacheKey (hinj : Function.Injective kernel.sha256)
    (hsep : ∀ query, ':' ∉ (kernel.sha256 query).toList)
    (hkey : kernel.cacheKey c₁ = kernel.cacheKey c₂) : c₁.query = c₂.query :=
  hinj (append_sep_inj (hsep _) (hsep _) hkey).2

lemma Agree.refl (c : ConnectorSearch Filters) : kernel.Agree c c := ⟨.refl _, Or.inr ⟨rfl, rfl⟩⟩

lemma Agree.symm (h : kernel.Agree c₁ c₂) : kernel.Agree c₂ c₁ := by
  obtain ⟨hperm, hnone | ⟨hquery, hfilters⟩⟩ := h
  · exact ⟨hperm.symm, Or.inl (List.perm_nil.mp (hnone ▸ hperm.symm))⟩
  · exact ⟨hperm.symm, Or.inr ⟨hquery.symm, hfilters.symm⟩⟩

/-- Calls that agree find the same documents. -/
lemma Agree.searchManager (h : kernel.Agree c₁ c₂)
    (hok : kernel.searchManager connectors c₁ = .ok documents) :
    ∃ documents', kernel.searchManager connectors c₂ = .ok documents' ∧ documents.Perm documents' := by
  obtain ⟨hperm, hnone | ⟨hquery, hfilters⟩⟩ := h
  · have hnone' : kernel.asked c₂ = [] := List.perm_nil.mp (hnone ▸ hperm.symm)
    obtain ⟨-, rfl⟩ := ConnectorManager.search_eq_ok.mp hok
    refine ⟨_, ConnectorManager.search_eq_ok.mpr ⟨fun name hname => ?_, rfl⟩, ?_⟩
    · rw [show kernel.connectorManager.asked (kernel.targets c₂) = [] from hnone'] at hname
      exact absurd hname List.not_mem_nil
    · rw [show kernel.connectorManager.asked (kernel.targets c₁) = [] from hnone,
        show kernel.connectorManager.asked (kernel.targets c₂) = [] from hnone']
      exact .refl _
  · rw [TMISKernel.searchManager, hquery, hfilters] at hok
    exact ConnectorManager.search_perm hperm hok

/-! ### What the cache holds -/

/-- The cache after the calls of `log` that are cached: every entry is what one of them found, and
whatever one of them found is there. -/
structure Coherent (kernel : TMISKernel) (connectors : Connectors Filters) (cache : SearchCache)
    (log : List (ConnectorSearch Filters)) : Prop where
  traced : Traced kernel.cacheKey id (kernel.searchManager connectors) cache
    (log.filter kernel.cached)
  present : ∀ c ∈ log, kernel.cached c = true →
    ∀ documents, kernel.searchManager connectors c = .ok documents → cache.contains (kernel.cacheKey c)

lemma coherent_empty : kernel.Coherent connectors ∅ [] :=
  ⟨traced_empty, fun _ hc => absurd hc List.not_mem_nil⟩

/-- A call that changes nothing in the cache. -/
lemma Coherent.snoc (h : kernel.Coherent connectors cache log)
    (hpresent : kernel.cached call = true → ∀ documents,
      kernel.searchManager connectors call = .ok documents → cache.contains (kernel.cacheKey call)) :
    kernel.Coherent connectors cache (log ++ [call]) where
  traced := h.traced.mono (List.filter_subset _ (List.subset_append_left ..))
  present c hc := by
    rcases List.mem_append.mp hc with hc | hc
    · exact h.present c hc
    · rw [List.mem_singleton.mp hc]
      exact hpresent

/-- A call that stores what it found. -/
lemma Coherent.set (h : kernel.Coherent connectors cache log) (hcached : kernel.cached call = true)
    (hok : kernel.searchManager connectors call = .ok documents) :
    kernel.Coherent connectors (cache.set (kernel.cacheKey call) documents) (log ++ [call]) where
  traced := (h.traced.mono (List.filter_subset _ (List.subset_append_left ..))).set
    (by simp [hcached]) hok
  present c hc hcached' ds hds := by
    rcases List.mem_append.mp hc with hc | hc
    · exact contains_set (h.present c hc hcached' ds hds)
    · rw [List.mem_singleton.mp hc]
      exact Dict.contains_iff.mpr ⟨_, Dict.get_set_self ..⟩

/-- **One call** leaves the cache coherent. -/
theorem Coherent.step (h : kernel.Coherent connectors cache log) :
    kernel.Coherent connectors (kernel.step connectors cache call) (log ++ [call]) := by
  unfold TMISKernel.step
  cases hcached : kernel.cached call with
  | false =>
    rw [searchConnectors_uncached hcached]
    exact h.snoc fun htrue => by rw [hcached] at htrue; cases htrue
  | true =>
    unfold searchConnectors
    rw [if_pos hcached]
    cases hget : cache.get (kernel.cacheKey call) with
    | some found => exact h.snoc fun _ _ _ => Dict.contains_iff.mpr ⟨found, hget⟩
    | none =>
      cases hvalue : kernel.searchManager connectors call with
      | error e => exact h.snoc fun _ documents hok => by rw [hvalue] at hok; cases hok
      | ok documents => exact h.set hcached hvalue

lemma coherent_run (connectors : Connectors Filters) (calls : List (ConnectorSearch Filters)) :
    kernel.Coherent connectors (run (kernel.step connectors) ∅ calls) calls := by
  induction calls using List.reverseRecOn with
  | nil => exact coherent_empty
  | append_singleton calls call ih =>
    rw [run_snoc]
    exact ih.step

/-- A hit is what an earlier call under the same key found. -/
lemma Coherent.hit (h : kernel.Coherent connectors cache log)
    (hget : cache.get (kernel.cacheKey call) = some documents) :
    ∃ c ∈ log, kernel.cached c = true ∧ kernel.cacheKey c = kernel.cacheKey call ∧
      kernel.searchManager connectors c = .ok documents := by
  obtain ⟨c, hc, hkey, _, hvalue, rfl⟩ := h.traced call documents hget
  obtain ⟨hmem, hcached⟩ := List.mem_filter.mp hc
  exact ⟨c, hmem, hcached, hkey, hvalue⟩

/-- **One call is transparent** if it agrees with the earlier ones under its key. -/
theorem Coherent.transparent (h : kernel.Coherent connectors cache log)
    (hagree : ∀ c ∈ log, kernel.cached c = true → kernel.cached call = true →
      kernel.cacheKey c = kernel.cacheKey call → kernel.Agree c call) :
    kernel.Transparent connectors cache call := by
  intro _
  rw [searchConnectors_useCache_false]
  cases hcached : kernel.cached call with
  | false =>
    rw [searchConnectors_uncached hcached]
    exact .refl _
  | true =>
    unfold searchConnectors
    rw [if_pos hcached]
    cases hget : cache.get (kernel.cacheKey call) with
    | some found =>
      obtain ⟨c, hc, hcached', hkey, hvalue⟩ := h.hit hget
      obtain ⟨documents', hvalue', hperm⟩ := (hagree c hc hcached' hcached hkey).searchManager hvalue
      rw [hvalue']
      exact hperm
    | none =>
      cases kernel.searchManager connectors call
      · exact .refl _
      · exact .refl _

/-! ### Connectors that tell two calls apart -/

/-- A document. -/
def someDocument : ConnectorDocument := { id := "1", title := "", content := "", connector := "" }

/-- Connectors that find one document where `p` holds. -/
def finder (p : String → String → Option Filters → Bool) : Connectors Filters := fun name query filters =>
  .found (if p name query filters then [someDocument] else [])

variable (kernel) in
/-- They find as many documents as there are connectors asked where `p` holds. -/
lemma searchManager_finder (p : String → String → Option Filters → Bool)
    (call : ConnectorSearch Filters) : ∃ documents, kernel.searchManager (finder p) call = .ok documents ∧
      documents.length = (kernel.asked call).countP fun name => p name call.query call.filters := by
  refine ⟨_, ConnectorManager.search_eq_ok.mpr ⟨fun name _ e => by simp [finder], rfl⟩, ?_⟩
  show ((kernel.asked call).flatMap _).length = _
  induction kernel.asked call with
  | nil => rfl
  | cons name names ih =>
    rw [List.flatMap_cons, List.length_append, ih, List.countP_cons, Nat.add_comm]
    cases hp : p name call.query call.filters <;>
      simp [finder, ConnectorManager.documentsOf, hp]

/-- With connectors like these, a call that is served transparently, under the key of an earlier one,
finds as many documents as some earlier one under that key. -/
lemma countP_of_transparent {p : String → String → Option Filters → Bool}
    (h : kernel.Coherent (finder p) cache log) (hc₀ : c₀ ∈ log) (hcached₀ : kernel.cached c₀ = true)
    (hcached : kernel.cached call = true) (hkey : kernel.cacheKey c₀ = kernel.cacheKey call)
    (htransparent : kernel.Transparent (finder p) cache call) :
    ∃ c ∈ log, kernel.cached c = true ∧ kernel.cacheKey c = kernel.cacheKey call ∧
      ((kernel.asked c).countP fun name => p name c.query c.filters) =
        (kernel.asked call).countP fun name => p name call.query call.filters := by
  obtain ⟨documents₀, hvalue₀, -⟩ := searchManager_finder kernel p c₀
  obtain ⟨found, hget⟩ := Dict.contains_iff.mp (hkey ▸ h.present c₀ hc₀ hcached₀ documents₀ hvalue₀)
  obtain ⟨c, hc, hcached', hkey', hvalue⟩ := h.hit hget
  obtain ⟨documents', hvalue', hlength'⟩ := searchManager_finder kernel p c
  obtain ⟨documents, hvalue'', hlength⟩ := searchManager_finder kernel p call
  have hsame := htransparent (Bool.and_eq_true .. ▸ hcached).1
  rw [searchConnectors_useCache_false, hvalue'', searchConnectors, if_pos hcached, hget] at hsame
  rw [hvalue] at hvalue'
  cases hvalue'
  exact ⟨c, hc, hcached', hkey', by rw [← hlength', ← hlength]; exact hsame.length_eq⟩

open Classical in
/-- If every connectors are served transparently, the last call agrees with the earlier ones. -/
lemma agree_of_transparent {pre : List (ConnectorSearch Filters)} (hpre : kernel.KeysDetermine pre)
    (h : ∀ connectors : Connectors Filters,
      kernel.Transparent connectors (run (kernel.step connectors) ∅ pre) call)
    (hc₀ : c₀ ∈ pre) (hcached₀ : kernel.cached c₀ = true) (hcached : kernel.cached call = true)
    (hkey : kernel.cacheKey c₀ = kernel.cacheKey call) : kernel.Agree c₀ call := by
  have hcount (p : String → String → Option Filters → Bool) : ∃ c, kernel.Agree c₀ c ∧
      ((kernel.asked c).countP fun name => p name c.query c.filters) =
        (kernel.asked call).countP fun name => p name call.query call.filters := by
    obtain ⟨c, hc, hcached', hkey', heq⟩ :=
      countP_of_transparent (coherent_run (finder p) pre) hc₀ hcached₀ hcached hkey (h (finder p))
    exact ⟨c, hpre c₀ hc₀ c hc hcached₀ hcached' (hkey.trans hkey'.symm), heq⟩
  have hperm : (kernel.asked c₀).Perm (kernel.asked call) := by
    rw [List.perm_iff_count]
    intro name
    obtain ⟨c, hagree, heq⟩ := hcount fun name' _ _ => name' == name
    exact (hagree.1.count_eq name).trans heq
  refine ⟨hperm, ?_⟩
  by_cases hnone : kernel.asked c₀ = []
  · exact Or.inl hnone
  · -- connectors that answer the last call only
    obtain ⟨c, hagree, heq⟩ := hcount fun _ query filters =>
      decide (query = call.query ∧ filters = call.filters)
    obtain ⟨hquery, hfilters⟩ := hagree.2.resolve_left hnone
    rw [← hquery, ← hfilters] at heq
    by_contra hne
    have hdiff : ¬ (c₀.query = call.query ∧ c₀.filters = call.filters) := fun hsame =>
      hne (Or.inr hsame)
    simp only [hdiff, and_self, decide_false, decide_true, List.countP_false, List.countP_true] at heq
    exact hnone (List.perm_nil.mp (List.length_eq_zero_iff.mp heq.symm ▸ hperm))

lemma keysDetermine_of_transparent
    (h : ∀ connectors : Connectors Filters,
      Along (kernel.step connectors) (kernel.Transparent connectors) ∅ calls) :
    kernel.KeysDetermine calls := by
  induction calls using List.reverseRecOn with
  | nil => exact fun c₁ hc₁ => absurd hc₁ List.not_mem_nil
  | append_singleton pre call ih =>
    have hpre : kernel.KeysDetermine pre := ih fun connectors => ((along_append ..).mp (h connectors)).1
    have hlast : ∀ c₀ ∈ pre, kernel.cached c₀ = true → kernel.cached call = true →
        kernel.cacheKey c₀ = kernel.cacheKey call → kernel.Agree c₀ call := fun _ =>
      agree_of_transparent hpre fun connectors => ((along_append ..).mp (h connectors)).2.1
    intro c₁ hc₁ c₂ hc₂ hcached₁ hcached₂ hkey
    rcases List.mem_append.mp hc₁ with hm₁ | hm₁ <;> rcases List.mem_append.mp hc₂ with hm₂ | hm₂
    · exact hpre c₁ hm₁ c₂ hm₂ hcached₁ hcached₂ hkey
    · rw [List.mem_singleton.mp hm₂] at hcached₂ hkey ⊢
      exact hlast c₁ hm₁ hcached₁ hcached₂ hkey
    · rw [List.mem_singleton.mp hm₁] at hcached₁ hkey ⊢
      exact (hlast c₂ hm₂ hcached₂ hcached₁ hkey.symm).symm
    · rw [List.mem_singleton.mp hm₁, List.mem_singleton.mp hm₂]
      exact .refl _

/-- **When the cache is transparent.**  Every call of a sequence that asks for the cache returns the
documents it returns without it, whatever the connectors find, iff calls that are cached under one key
ask the same connectors with the same query and the same filters. -/
theorem searchConnectors_transparent_iff (kernel : TMISKernel) (calls : List (ConnectorSearch Filters)) :
    (∀ connectors : Connectors Filters,
      Along (kernel.step connectors) (kernel.Transparent connectors) ∅ calls) ↔
      kernel.KeysDetermine calls := by
  refine ⟨keysDetermine_of_transparent, fun hkeys connectors => (along_iff ..).mpr ?_⟩
  rintro pre call post rfl
  exact (coherent_run connectors pre).transparent fun c hc hcached hcached' hkey =>
    hkeys c (by simp [hc]) call (by simp) hcached hcached' hkey

/-! ### A filter that is not in the key -/

/-- A kernel with its three connectors. -/
def defaultKernel : TMISKernel where
  defaultConnectors := ["codes", "jurisprudence", "doctrine"]
  sha256 := id
  connectorManager :=
    ⟨(((∅ : Dict String Bool).set "codes" true).set "jurisprudence" true).set "doctrine" true⟩

/-- Connectors that find one decision, of 1998, unless they are asked for another year. -/
def oldDecision : Connectors (Dict String String) := fun name _ filters =>
  .found (if name = "jurisprudence" ∧ ((filters.getD ∅).get "year").all (· = "1998")
    then [{ id := "1", title := "Bail", content := "ancien", connector := name,
            metadata := (∅ : Dict String String).set "year" "1998" }] else [])

/-- The search with a filter on the year is served the results of the search without one. -/
theorem filter_not_in_key :
    ¬ Along (defaultKernel.step oldDecision) (defaultKernel.Transparent oldDecision) ∅
      [{ query := "bail" },
       { query := "bail", filters := some ((∅ : Dict String String).set "year" "2020") }] := by
  rintro ⟨-, h, -⟩
  have hlength := (h rfl).length_eq
  revert hlength
  decide +kernel

end TMISKernel

end Tmis.Ai
