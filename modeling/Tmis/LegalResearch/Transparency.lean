import Mathlib.Data.List.Induction
import Tmis.LegalResearch.Orchestrator
import Tmis.Lib.Memo
import Tmis.Lib.Run

/-!
# When the research cache is transparent

A search through the cache gives what it gives without one, whatever the connectors and the embeddings
are, exactly when the key of a call determines what its value is computed from: the normalized text,
the connectors asked and the filters.

* `inputs`, `KeysDetermine` — what a search is computed from, and the condition on the calls;
* `rawValue`, `normalizedValue`, `rankedValue` — the values of the three layers without a cache;
* `Coherent` — the entries of the cache, after calls that meet the condition;
* `resolve_spec` — a call that meets the condition gets its own value;
* `transparent_iff` — over every sequence of calls.
-/

namespace Tmis.LegalResearch.ResearchOrchestrator

open Tmis.Lib Tmis.Ai ResearchCache

variable {F : Type} [PyFloat F] {o : ResearchOrchestrator F} {kernel : ResearchKernel F}
  {store : TextCache F} {call : SearchCall F} {log calls : List (SearchCall F)}

/-! ### Values without a cache -/

variable (o kernel) in
/-- The value of the raw layer. -/
def rawValue (call : SearchCall F) : Except PyException (RawSearchEntry F) :=
  execute o.text kernel o.defaultConnectors (o.query call) call.connectorNames

variable (o kernel) in
/-- The value of the normalized layer. -/
def normalizedValue (call : SearchCall F) : Except PyException (List (ResearchResult F)) :=
  (o.rawValue kernel call).map fun entry => normalize o.text o.sha256 entry.documents entry.scores

variable (o kernel) in
/-- The value of the ranked layer. -/
def rankedValue (call : SearchCall F) : Except PyException (List (ResearchResult F)) :=
  (o.normalizedValue kernel call).bind fun results =>
    rank o.text o.currentYear o.sources (effectiveWeights call) results

variable (o) in
/-- What the connectors are asked for a call: the text, the connectors, and the filters. -/
def inputs (call : SearchCall F) : String × Option (List String) × Option (Dict String String) :=
  ((o.query call).normalizedText, orDefault call.connectorNames o.defaultConnectors,
    orNone (call.filters.getD ∅))

variable (o) in
/-- What the keys of a call have in common. -/
def key (call : SearchCall F) : String := searchKey (o.searchText call) call.connectorNames

lemma rawValue_congr {call' : SearchCall F} (h : o.inputs call = o.inputs call') :
    o.rawValue kernel call = o.rawValue kernel call' := by
  simp only [inputs, Prod.mk.injEq] at h
  obtain ⟨htext, htargets, hfilters⟩ := h
  have hquery := build_congr htext
  have hkeywords : (o.query call).keywords = (o.query call').keywords := hquery.1
  have hsearch : (o.query call).searchText o.text = (o.query call').searchText o.text := hquery.2
  have hf : orNone (o.query call).filters = orNone (o.query call').filters := hfilters
  simp only [rawValue, execute, lexicalScores, htext, htargets, hf, hsearch, hkeywords]

lemma normalizedValue_congr {call' : SearchCall F} (h : o.inputs call = o.inputs call') :
    o.normalizedValue kernel call = o.normalizedValue kernel call' := by
  rw [normalizedValue, rawValue_congr h, normalizedValue]

lemma rankedValue_congr {call' : SearchCall F} (h : o.inputs call = o.inputs call')
    (hw : effectiveWeights call = effectiveWeights call') :
    o.rankedValue kernel call = o.rankedValue kernel call' := by
  rw [rankedValue, normalizedValue_congr h, hw, rankedValue]

/-! ### The entries of the cache -/

variable (o) in
/-- The condition: calls with one key have the same inputs. -/
def KeysDetermine (calls : List (SearchCall F)) : Prop :=
  ∀ c₁ ∈ calls, ∀ c₂ ∈ calls, o.key c₁ = o.key c₂ → o.inputs c₁ = o.inputs c₂

/-- The weights of the calls. -/
def weightsOf (calls : List (SearchCall F)) : List F :=
  calls.flatMap fun call => weightList (effectiveWeights call)

variable (o) in
def rawKeyOf (call : SearchCall F) : String := o.cache.rawKey (o.searchText call) call.connectorNames

variable (o) in
def normalizedKeyOf (call : SearchCall F) : String :=
  o.cache.normalizedKey (o.searchText call) call.connectorNames

variable (o) in
def rankingKeyOf (call : SearchCall F) : String :=
  o.cache.rankingKey (o.searchText call) call.connectorNames (effectiveWeights call)

lemma key_of_rankingKeyOf {c₁ c₂ : SearchCall F} (h : PrintsApart (weightsOf calls))
    (h₁ : c₁ ∈ calls) (h₂ : c₂ ∈ calls) (hkey : o.rankingKeyOf c₁ = o.rankingKeyOf c₂) :
    o.key c₁ = o.key c₂ ∧ effectiveWeights c₁ = effectiveWeights c₂ := by
  have hsub : ∀ x ∈ weightList (effectiveWeights c₁) ++ weightList (effectiveWeights c₂),
      x ∈ weightsOf calls := fun x hx => by
    rcases List.mem_append.mp hx with hx | hx
    · exact List.mem_flatMap.mpr ⟨c₁, h₁, hx⟩
    · exact List.mem_flatMap.mpr ⟨c₂, h₂, hx⟩
  exact rankingKey_inj ⟨fun x hx y hy => h.injective x (hsub x hx) y (hsub y hy),
    fun x hx => h.noColon x (hsub x hx)⟩ hkey

/-- Every entry of a layer is the value of a call of the log. -/
structure Traces (o : ResearchOrchestrator F) (kernel : ResearchKernel F) (store : TextCache F)
    (log : List (SearchCall F)) : Prop where
  raw : Traced o.rawKeyOf Payload.raw (o.rawValue kernel) store log
  normalized : Traced o.normalizedKeyOf Payload.results (o.normalizedValue kernel) store log
  ranking : Traced o.rankingKeyOf Payload.results (o.rankedValue kernel) store log

/-- What the calls of the log have left behind. -/
structure Coherent (o : ResearchOrchestrator F) (kernel : ResearchKernel F) (store : TextCache F)
    (log : List (SearchCall F)) : Prop extends Traces o kernel store log where
  present : ∀ c ∈ log, ∀ v, o.normalizedValue kernel c = .ok v → store.contains (o.normalizedKeyOf c)

lemma coherent_empty : Coherent o kernel ∅ [] :=
  ⟨⟨traced_empty, traced_empty, traced_empty⟩, fun _ hc => absurd hc List.not_mem_nil⟩

lemma Traces.mono {log' : List (SearchCall F)} (h : Traces o kernel store log) (hlog : log ⊆ log') :
    Traces o kernel store log' :=
  ⟨h.raw.mono hlog, h.normalized.mono hlog, h.ranking.mono hlog⟩

lemma Traces.setRaw (h : Traces o kernel store log) (hc : call ∈ log) {entry : RawSearchEntry F}
    (hv : o.rawValue kernel call = .ok entry) :
    Traces o kernel (o.cache.setRawSearch store (o.searchText call) call.connectorNames entry) log where
  raw := h.raw.set hc hv
  normalized := h.normalized.set_of_ne fun _ => rawKey_ne_normalizedKey.symm
  ranking := h.ranking.set_of_ne fun _ => rawKey_ne_rankingKey.symm

lemma Traces.setNormalized (h : Traces o kernel store log) (hc : call ∈ log)
    {results : List (ResearchResult F)} (hv : o.normalizedValue kernel call = .ok results) :
    Traces o kernel (o.cache.setNormalized store (o.searchText call) call.connectorNames results)
      log where
  raw := h.raw.set_of_ne fun _ => rawKey_ne_normalizedKey
  normalized := h.normalized.set hc hv
  ranking := h.ranking.set_of_ne fun _ => normalizedKey_ne_rankingKey.symm

lemma Traces.setRanking (h : Traces o kernel store log) (hc : call ∈ log)
    {results : List (ResearchResult F)} (hv : o.rankedValue kernel call = .ok results) :
    Traces o kernel (o.cache.setRanking store (o.searchText call) call.connectorNames
      (effectiveWeights call) results) log where
  raw := h.raw.set_of_ne fun _ => rawKey_ne_rankingKey
  normalized := h.normalized.set_of_ne fun _ => normalizedKey_ne_rankingKey
  ranking := h.ranking.set hc hv

omit [PyFloat F] in
/-- A lookup at the key of a call misses, or finds the value of the call. -/
lemma lookup_cases {α : Type} (call : SearchCall F) {keyOf : SearchCall F → String}
    {stored : α → Payload F} {value : SearchCall F → Except PyException α}
    {read : Payload F → Except PyException α} (hread : ∀ v, read (stored v) = .ok v) (h : Traced keyOf stored value store log)
    (hsame : ∀ c₀ ∈ log, keyOf c₀ = keyOf call → value c₀ = value call) :
    (store.get (keyOf call) = none ∧ lookup store (keyOf call) read = .ok none) ∨
      ∃ v, value call = .ok v ∧ lookup store (keyOf call) read = .ok (some v) := by
  unfold lookup
  cases hget : store.get (keyOf call) with
  | none => exact Or.inl ⟨rfl, rfl⟩
  | some p =>
    obtain ⟨v, hv, rfl⟩ := h.get hget hsame
    exact Or.inr ⟨v, hv, by simp [hread, Except.map]⟩

omit [PyFloat F] in
/-- What is found is there. -/
lemma contains_of_lookup {α : Type} {k : String} {read : Payload F → Except PyException α} {v : α}
    (h : lookup store k read = .ok (some v)) : store.contains k := by
  unfold lookup at h
  cases hget : store.get k with
  | none =>
    rw [hget] at h
    cases h
  | some p => exact Dict.contains_iff.mpr ⟨p, hget⟩

/-! ### One call -/

/-- Whether a call finds the calls of the log with its key to have its inputs. -/
def Agrees (o : ResearchOrchestrator F) (log : List (SearchCall F)) (call : SearchCall F) : Prop :=
  ∀ c₀ ∈ log, o.key c₀ = o.key call → o.inputs c₀ = o.inputs call

lemma getRawSearch_cases (h : Traces o kernel store log) (hagree : Agrees o log call) :
    (store.get (o.rawKeyOf call) = none ∧
      o.cache.getRawSearch store (o.searchText call) call.connectorNames = .ok none) ∨
    ∃ v, o.rawValue kernel call = .ok v ∧
      o.cache.getRawSearch store (o.searchText call) call.connectorNames = .ok (some v) :=
  lookup_cases call (fun _ => rfl) h.raw fun c₀ hc₀ hkey =>
    rawValue_congr (hagree c₀ hc₀ (rawKey_inj.mp hkey))

lemma getNormalized_cases (h : Traces o kernel store log) (hagree : Agrees o log call) :
    (store.get (o.normalizedKeyOf call) = none ∧
      o.cache.getNormalized store (o.searchText call) call.connectorNames = .ok none) ∨
    ∃ v, o.normalizedValue kernel call = .ok v ∧
      o.cache.getNormalized store (o.searchText call) call.connectorNames = .ok (some v) :=
  lookup_cases call (fun _ => rfl) h.normalized fun c₀ hc₀ hkey =>
    normalizedValue_congr (hagree c₀ hc₀ (normalizedKey_inj.mp hkey))

lemma getRanking_cases (h : Traces o kernel store log) (hp : PrintsApart (weightsOf log))
    (hc : call ∈ log) (hagree : Agrees o log call) :
    (store.get (o.rankingKeyOf call) = none ∧
      o.cache.getRanking store (o.searchText call) call.connectorNames (effectiveWeights call) =
        .ok none) ∨
    ∃ v, o.rankedValue kernel call = .ok v ∧
      o.cache.getRanking store (o.searchText call) call.connectorNames (effectiveWeights call) =
        .ok (some v) :=
  lookup_cases call (fun _ => rfl) h.ranking fun c₀ hc₀ hkey => by
    obtain ⟨hkey, hw⟩ := key_of_rankingKeyOf hp hc₀ hc hkey
    exact rankedValue_congr (hagree c₀ hc₀ hkey) hw

lemma resolveRaw_spec (h : Traces o kernel store log) (hc : call ∈ log) (hagree : Agrees o log call) :
    (o.resolveRaw kernel store call).1.map Prod.fst = o.rawValue kernel call ∧
      Traces o kernel (o.resolveRaw kernel store call).2 log ∧
      ∀ k, store.contains k → (o.resolveRaw kernel store call).2.contains k := by
  unfold resolveRaw
  obtain ⟨-, hmiss⟩ | ⟨entry, hv, hhit⟩ := getRawSearch_cases h hagree
  · rw [hmiss]
    cases hexec : execute o.text kernel o.defaultConnectors (o.query call) call.connectorNames with
    | error e => exact ⟨hexec.symm, h, fun _ => id⟩
    | ok entry => exact ⟨hexec.symm, h.setRaw hc hexec, fun _ => contains_set⟩
  · rw [hhit]
    exact ⟨hv.symm, h, fun _ => id⟩

lemma resolveNormalized_spec (h : Traces o kernel store log) (hc : call ∈ log)
    (hagree : Agrees o log call) :
    (o.resolveNormalized kernel store call).1.map (·.results) = o.normalizedValue kernel call ∧
      Traces o kernel (o.resolveNormalized kernel store call).2 log ∧
      (∀ k, store.contains k → (o.resolveNormalized kernel store call).2.contains k) ∧
      ∀ v, o.normalizedValue kernel call = .ok v →
        (o.resolveNormalized kernel store call).2.contains (o.normalizedKeyOf call) := by
  unfold resolveNormalized
  obtain ⟨-, hmiss⟩ | ⟨results, hv, hhit⟩ := getNormalized_cases h hagree
  · rw [hmiss]
    obtain ⟨hraw, htraces, hkeys⟩ := resolveRaw_spec h hc hagree
    dsimp only
    cases hres : o.resolveRaw kernel store call with
    | mk result store' =>
      rw [hres] at hraw htraces hkeys
      cases result with
      | error e =>
        have hnone : o.normalizedValue kernel call = .error e := by
          rw [normalizedValue, ← hraw]
          rfl
        exact ⟨hnone.symm, htraces, hkeys, fun v hv => by rw [hnone] at hv; cases hv⟩
      | ok entry =>
        have hvalue : o.normalizedValue kernel call =
            .ok (normalize o.text o.sha256 entry.1.documents entry.1.scores) := by
          rw [normalizedValue, ← hraw]
          rfl
        refine ⟨hvalue.symm, htraces.setNormalized hc hvalue, fun k hk => contains_set (hkeys k hk),
          fun _ _ => ?_⟩
        exact Dict.contains_iff.mpr ⟨_, Dict.get_set_self ..⟩
  · rw [hhit]
    exact ⟨hv.symm, h, fun _ => id, fun _ _ => contains_of_lookup hhit⟩

lemma present_append {store' : TextCache F}
    (h : ∀ c ∈ log, ∀ v, o.normalizedValue kernel c = .ok v → store.contains (o.normalizedKeyOf c))
    (hkeys : ∀ k, store.contains k → store'.contains k)
    (hnew : ∀ v, o.normalizedValue kernel call = .ok v → store'.contains (o.normalizedKeyOf call)) :
    ∀ c ∈ log ++ [call], ∀ v, o.normalizedValue kernel c = .ok v →
      store'.contains (o.normalizedKeyOf c) := fun c hmem v hv => by
  rcases List.mem_append.mp hmem with hmem | hmem
  · exact hkeys _ (h c hmem v hv)
  · rw [List.mem_singleton.mp hmem] at hv ⊢
    exact hnew v hv

/-- A call whose ranking is there has its normalized results there. -/
lemma present_of_ranking (h : Coherent o kernel store log) (hp : PrintsApart (weightsOf (log ++ [call])))
    (hhit : store.contains (o.rankingKeyOf call)) : store.contains (o.normalizedKeyOf call) := by
  obtain ⟨p, hget⟩ := Dict.contains_iff.mp hhit
  obtain ⟨c₀, hc₀, hkey, v, hv, -⟩ := h.ranking call p hget
  have hsame := (key_of_rankingKeyOf hp (List.mem_append_left _ hc₀)
    (List.mem_append_right _ List.mem_cons_self) hkey).1
  cases hn : o.normalizedValue kernel c₀ with
  | error e =>
    rw [rankedValue, hn] at hv
    cases hv
  | ok w =>
    have hkey' : o.normalizedKeyOf c₀ = o.normalizedKeyOf call := normalizedKey_inj.mpr hsame
    exact hkey' ▸ h.present c₀ hc₀ w hn

/-- **One call.**  A call that agrees with the calls before it gets its own value, and leaves the cache
as the calls before it did. -/
theorem resolve_spec (h : Coherent o kernel store log) (hp : PrintsApart (weightsOf (log ++ [call])))
    (hagree : Agrees o log call) :
    o.search kernel store call = o.rankedValue kernel call ∧
      Coherent o kernel (o.step kernel store call) (log ++ [call]) := by
  have hc : call ∈ log ++ [call] := List.mem_append_right _ List.mem_cons_self
  have hagree' : Agrees o (log ++ [call]) call := fun c₀ hc₀ hkey => by
    rcases List.mem_append.mp hc₀ with hc₀ | hc₀
    · exact hagree c₀ hc₀ hkey
    · rw [List.mem_singleton.mp hc₀]
  have htraces : Traces o kernel store (log ++ [call]) := h.mono (List.subset_append_left ..)
  unfold search step resolveRankedResults
  obtain ⟨-, hmiss⟩ | ⟨results, hv, hhit⟩ := getRanking_cases htraces hp hc hagree'
  · rw [hmiss]
    obtain ⟨hvalue, htraces', hkeys, hnew⟩ := resolveNormalized_spec htraces hc hagree'
    dsimp only
    cases hres : o.resolveNormalized kernel store call with
    | mk result store' =>
      rw [hres] at hvalue htraces' hkeys hnew
      cases result with
      | error e =>
        have hranked : o.rankedValue kernel call = .error e := by
          rw [rankedValue, ← hvalue]
          rfl
        exact ⟨hranked.symm, htraces', present_append h.present hkeys hnew⟩
      | ok resolved =>
        have hranked : o.rankedValue kernel call = rank o.text o.currentYear o.sources
            (effectiveWeights call) resolved.results := by
          rw [rankedValue, ← hvalue]
          rfl
        cases hrank : rank o.text o.currentYear o.sources (effectiveWeights call) resolved.results with
        | error e =>
          dsimp only
          rw [hrank]
          exact ⟨(hranked.trans hrank).symm, htraces', present_append h.present hkeys hnew⟩
        | ok ranked =>
          dsimp only
          rw [hrank]
          exact ⟨(hranked.trans hrank).symm, htraces'.setRanking hc (hranked.trans hrank),
            present_append h.present
            (fun k hk => contains_set (hkeys k hk)) fun v hv => contains_set (hnew v hv)⟩
  · rw [hhit]
    exact ⟨hv.symm, htraces, present_append h.present (fun _ => id) fun _ _ =>
      present_of_ranking h hp (contains_of_lookup hhit)⟩

/-! ### Sequences of calls -/

/-- A call gives what it gives with an empty cache. -/
def Transparent (o : ResearchOrchestrator F) (kernel : ResearchKernel F) (store : TextCache F)
    (call : SearchCall F) : Prop :=
  o.search kernel store call = o.search kernel ∅ call

lemma weightsOf_subset {calls' : List (SearchCall F)} (h : calls ⊆ calls') :
    weightsOf calls ⊆ weightsOf calls' := fun _ hx => by
  obtain ⟨c, hc, hx⟩ := List.mem_flatMap.mp hx
  exact List.mem_flatMap.mpr ⟨c, h hc, hx⟩

lemma search_empty (hp : PrintsApart (weightsOf [call])) :
    o.search kernel ∅ call = o.rankedValue kernel call :=
  (resolve_spec coherent_empty hp fun _ hc₀ => absurd hc₀ List.not_mem_nil).1

/-- The cache after calls that meet the condition, and what these calls get. -/
lemma coherent_run (hp : PrintsApart (weightsOf (log ++ calls))) (hkeys : o.KeysDetermine (log ++ calls))
    (h : Coherent o kernel store log) :
    Along (o.step kernel) (o.Transparent kernel) store calls ∧
      Coherent o kernel (run (o.step kernel) store calls) (log ++ calls) := by
  induction calls generalizing store log with
  | nil => exact ⟨trivial, by simpa using h⟩
  | cons call calls ih =>
    have hsplit : log ++ call :: calls = log ++ [call] ++ calls := by simp
    rw [hsplit] at hp hkeys ⊢
    have hmem : call ∈ log ++ [call] ++ calls := by simp
    have hp' : PrintsApart (weightsOf (log ++ [call])) :=
      hp.subset (weightsOf_subset (List.subset_append_left ..))
    obtain ⟨hvalue, hnext⟩ := resolve_spec h hp' fun c₀ hc₀ =>
      hkeys c₀ (by simp [hc₀]) call hmem
    obtain ⟨hrest, hend⟩ := ih hp hkeys hnext
    refine ⟨⟨?_, hrest⟩, hend⟩
    rw [Transparent, hvalue, search_empty (hp'.subset (weightsOf_subset (by simp)))]

lemma coherent_run_empty (o : ResearchOrchestrator F) (kernel : ResearchKernel F)
    (hp : PrintsApart (weightsOf calls)) (hkeys : o.KeysDetermine calls) :
    Along (o.step kernel) (o.Transparent kernel) ∅ calls ∧
      Coherent o kernel (run (o.step kernel) ∅ calls) calls :=
  @coherent_run _ _ o kernel ∅ [] calls hp hkeys coherent_empty

/-! ### Connectors that tell two calls apart -/

/-- A document. -/
def someDocument : ConnectorDocument := { id := "1", title := "", content := "", connector := "" }

/-- A kernel that finds one document, and only where it is asked `x`. -/
def finder (x : String × Option (List String) × Option (Dict String String)) : ResearchKernel F where
  searchConnectors query targets filters := .ok (if (query, targets, filters) = x then [someDocument] else [])
  embed texts := .ok (texts.map fun _ => [])

lemma vectorScores_finder {x : String × Option (List String) × Option (Dict String String)}
    (searchText : String) : ∃ scores : Dict String F,
      vectorScores (finder x) searchText [someDocument] = .ok scores :=
  ⟨_, rfl⟩

lemma rankedValue_finder (o : ResearchOrchestrator F) (call : SearchCall F) :
    ∃ r, o.rankedValue (finder (o.inputs call)) call = .ok [r] := by
  have hsearch : (finder (o.inputs call) : ResearchKernel F).searchConnectors
      (o.query call).normalizedText (orDefault call.connectorNames o.defaultConnectors)
      (orNone (o.query call).filters) = .ok [someDocument] :=
    congrArg Except.ok (if_pos rfl)
  obtain ⟨scores, hscores⟩ := vectorScores_finder (F := F) (x := o.inputs call) (o.searchText call)
  obtain ⟨entry, hraw, hdocs⟩ : ∃ entry, o.rawValue (finder (o.inputs call)) call = .ok entry ∧
      entry.documents = [someDocument] := execute_ok hsearch hscores
  rw [rankedValue, normalizedValue, hraw]
  simp only [Except.map, Except.bind, hdocs]
  exact rank_singleton _ _ _ _ rfl

lemma normalizedValue_finder {x : String × Option (List String) × Option (Dict String String)}
    (h : o.inputs call ≠ x) : o.normalizedValue (finder x) call = .ok [] := by
  have hsearch : (finder x : ResearchKernel F).searchConnectors (o.query call).normalizedText
      (orDefault call.connectorNames o.defaultConnectors) (orNone (o.query call).filters) = .ok [] :=
    congrArg Except.ok (if_neg h)
  obtain ⟨entry, hraw, hdocs⟩ : ∃ entry, o.rawValue (finder x) call = .ok entry ∧
      entry.documents = [] := execute_ok hsearch rfl
  simp [normalizedValue, hraw, hdocs, Except.map]

/-- A call that comes after calls with its key, all of which found nothing, finds nothing. -/
lemma search_stale {c₀ : SearchCall F} (h : Coherent o kernel store log)
    (hp : PrintsApart (weightsOf (log ++ [call]))) (hc₀ : c₀ ∈ log) (hkey : o.key c₀ = o.key call)
    (hnone : ∀ c ∈ log, o.key c = o.key call → o.normalizedValue kernel c = .ok []) :
    o.search kernel store call = .ok [] := by
  have hranking : o.cache.getRanking store (o.searchText call) call.connectorNames
      (effectiveWeights call) = lookup store (o.rankingKeyOf call) Payload.asResults := rfl
  have hnormalized : o.cache.getNormalized store (o.searchText call) call.connectorNames =
      lookup store (o.normalizedKeyOf call) Payload.asResults := rfl
  unfold search resolveRankedResults
  rw [hranking, lookup]
  cases hget : store.get (o.rankingKeyOf call) with
  | some p =>
    -- the ranking of an earlier call
    obtain ⟨c, hc, hkeyc, v, hv, rfl⟩ := h.ranking call p hget
    have hsame := (key_of_rankingKeyOf hp (List.mem_append_left _ hc)
      (List.mem_append_right _ List.mem_cons_self) hkeyc).1
    rw [rankedValue, hnone c hc hsame] at hv
    cases hv
    rfl
  | none =>
    -- the normalized results of an earlier call
    have hkey' : o.normalizedKeyOf c₀ = o.normalizedKeyOf call := normalizedKey_inj.mpr hkey
    obtain ⟨p, hp'⟩ := Dict.contains_iff.mp (hkey' ▸ h.present c₀ hc₀ [] (hnone c₀ hc₀ hkey))
    obtain ⟨c, hc, hkeyc, v, hv, rfl⟩ := h.normalized call p hp'
    rw [hnone c hc (normalizedKey_inj.mp hkeyc)] at hv
    cases hv
    simp [resolveNormalized, hnormalized, lookup, hp', Payload.asResults, Except.map]

lemma keysDetermine_of_transparent (hp : PrintsApart (weightsOf calls))
    (h : ∀ kernel, Along (o.step kernel) (o.Transparent kernel) ∅ calls) : o.KeysDetermine calls := by
  induction calls using List.reverseRecOn with
  | nil => exact fun c₁ hc₁ => absurd hc₁ List.not_mem_nil
  | append_singleton pre call ih =>
    have hp' : PrintsApart (weightsOf pre) := hp.subset (weightsOf_subset (List.subset_append_left ..))
    have hpre : o.KeysDetermine pre := ih hp' fun kernel => ((along_append ..).mp (h kernel)).1
    -- connectors that answer the last call only show whether an earlier one was served instead
    have hagree : Agrees o pre call := by
      intro c₀ hc₀ hkey
      by_contra hne
      have htransparent := ((along_append ..).mp (h (finder (o.inputs call)))).2.1
      have hcoherent := (coherent_run_empty o (finder (o.inputs call)) hp' hpre).2
      have hstale := search_stale hcoherent hp hc₀ hkey fun c hc hkeyc =>
        normalizedValue_finder fun heq =>
          hne ((hpre c₀ hc₀ c hc (hkey.trans hkeyc.symm)).trans heq)
      obtain ⟨r, hr⟩ := rankedValue_finder o call
      rw [Transparent, hstale, search_empty (hp.subset (weightsOf_subset (by simp))), hr] at htransparent
      cases htransparent
    intro c₁ hc₁ c₂ hc₂ hkey
    rcases List.mem_append.mp hc₁ with hm₁ | hm₁ <;> rcases List.mem_append.mp hc₂ with hm₂ | hm₂
    · exact hpre c₁ hm₁ c₂ hm₂ hkey
    · rw [List.mem_singleton.mp hm₂] at hkey ⊢
      exact hagree c₁ hm₁ hkey
    · rw [List.mem_singleton.mp hm₁] at hkey ⊢
      exact (hagree c₂ hm₂ hkey.symm).symm
    · rw [List.mem_singleton.mp hm₁, List.mem_singleton.mp hm₂]

/-- The calls of the sequence give what they give with an empty cache, whatever the connectors and the
embeddings are. -/
def AllTransparent (o : ResearchOrchestrator F) (calls : List (SearchCall F)) : Prop :=
  ∀ kernel, Along (o.step kernel) (o.Transparent kernel) ∅ calls

/-- **When the cache is transparent.**  Let the weights of the calls print apart.  The calls give what
they give with an empty cache iff calls with one key have the same normalized text, the same connectors
asked in the same order, and the same filters. -/
theorem transparent_iff (o : ResearchOrchestrator F) (calls : List (SearchCall F))
    (hp : PrintsApart (weightsOf calls)) : o.AllTransparent calls ↔ o.KeysDetermine calls :=
  ⟨keysDetermine_of_transparent hp, fun hkeys kernel => (coherent_run_empty o kernel hp hkeys).1⟩

/-! ### A search with and without a filter -/

/-- The orchestrator of a firm, over exact arithmetic. -/
def firmOrchestrator : ResearchOrchestrator ℚ where
  text := .ascii
  sha256 := id
  currentYear := 2026
  sources := defaultSources
  defaultConnectors := some ["codes", "jurisprudence", "doctrine"]
  cache := ⟨"3f0a"⟩

/-- Two decisions, and a filter on their year. -/
def caseLaw : ResearchKernel ℚ where
  searchConnectors _ _ filters := .ok (
    [{ id := "1", title := "Bail", content := "ancien", connector := "jurisprudence",
       metadata := (∅ : Dict String String).set "year" "1998" },
     { id := "2", title := "Bail", content := "récent", connector := "jurisprudence",
       metadata := (∅ : Dict String String).set "year" "2020" }].filter fun doc =>
      ((filters.getD ∅).get "year").all fun year => doc.metadata.get "year" = some year)
  embed texts := .ok (texts.map fun _ => [1])

def leaseSearch : SearchCall ℚ := { rawText := "bail commercial" }

def recentLeaseSearch : SearchCall ℚ :=
  { leaseSearch with filters := some ((∅ : Dict String String).set "year" "2020") }

/-- A search that is repeated, and another text with its own filter. -/
theorem transparent_lease : firmOrchestrator.AllTransparent
    [leaseSearch, leaseSearch, { recentLeaseSearch with rawText := "divorce" }] :=
  (transparent_iff firmOrchestrator _ ⟨by decide +kernel, by decide +kernel⟩).mpr (by
    unfold KeysDetermine
    decide +kernel)

/-- A search with a filter is served the results of the search without one. -/
theorem filter_ignored :
    ¬ Along (firmOrchestrator.step caseLaw) (firmOrchestrator.Transparent caseLaw) ∅
      [leaseSearch, recentLeaseSearch] := by
  rintro ⟨-, h, -⟩
  have hids := congrArg (fun r => r.toOption.map (List.map (·.id))) h
  revert hids
  decide +kernel

end Tmis.LegalResearch.ResearchOrchestrator
