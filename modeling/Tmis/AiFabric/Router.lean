import Mathlib.Data.List.MinMax
import Mathlib.Data.Prod.Lex
import Mathlib.Data.Rat.Defs
import Mathlib.Algebra.Order.Ring.Rat
import Tmis.AiFabric.Governance

/-!
# Routing

`ai_fabric.router`, with `ai_fabric.model_registry` and `ai_fabric.quotas`: of the models that a request
leaves, after one filter for each thing it asks for, the best one is taken, and the call is recorded.
Numbers are exact.

* `ModelDescriptor`, `QuotaEngine`, `RouterEngine` — the catalogue, the quotas, and the router;
* `candidates` — the models that are left, and what is said of them;
* `route` — the call, which checks the quota at one time and records the call at another;
* `Eligible`, `mem_candidates_iff` — what the filters ask of a model;
* `Beats`, `best_iff` — the order that the best model is first in;
* `route_optimal` — routing returns an eligible model that none beats, or raises where it must.
-/

namespace Tmis.AiFabric

open Tmis.Lib

/-! ### The catalogue -/

inductive ModelProfile where
  | reasoning | drafting | translation | synthesis | code | ocr | vision | embeddings | classification
  deriving DecidableEq

def ModelProfile.value : ModelProfile → String
  | reasoning => "reasoning"
  | drafting => "drafting"
  | translation => "translation"
  | synthesis => "synthesis"
  | code => "code"
  | ocr => "ocr"
  | vision => "vision"
  | embeddings => "embeddings"
  | classification => "classification"

/-- What the router reads of a model. -/
structure ModelDescriptor where
  name : String
  costPer1kTokensUsd : ℚ
  avgLatencyMs : ℚ
  profiles : Finset ModelProfile := ∅
  availability : Bool := true
  qualityScore : ℚ := 1 / 2

abbrev ModelRegistry := Store String ModelDescriptor ModelDescriptor.name

namespace ModelRegistry

/-- `list_all`. -/
def listAll (registry : ModelRegistry) : List ModelDescriptor := registry.values

/-- `list_by_profile`. -/
def listByProfile (registry : ModelRegistry) (profile : ModelProfile) : List ModelDescriptor :=
  registry.values.filter (profile ∈ ·.profiles)

end ModelRegistry

/-! ### Quotas -/

structure Quota where
  scope : String
  scopeId : String
  maxCallsPerPeriod : ℤ
  periodDays : ℤ

def Quota.key (quota : Quota) : String × String := (quota.scope, quota.scopeId)

/-- The period, in seconds. -/
def Quota.period (quota : Quota) : ℚ := quota.periodDays * 86400

/-- The engine with its store: the quotas, and the times of the calls that were recorded. -/
structure QuotaEngine where
  quotas : Store (String × String) Quota Quota.key := ∅
  calls : Dict (String × String) (List ℚ) := ∅

namespace QuotaEngine

variable (engine : QuotaEngine) (scope scopeId : String) (now : ℚ)

def setQuota (maxCallsPerPeriod periodDays : ℤ) : Quota × QuotaEngine :=
  let quota : Quota := { scope, scopeId, maxCallsPerPeriod, periodDays }
  (quota, { engine with quotas := engine.quotas.save quota })

/-- The recorded calls, the oldest first. -/
def recorded : List ℚ := (engine.calls.get (scope, scopeId)).getD []

def callsInPeriod (periodDays : ℤ) : ℕ :=
  let cutoff := now - periodDays * 86400
  (engine.recorded scope scopeId).countP (cutoff ≤ ·)

def check : Bool :=
  match engine.quotas.get (scope, scopeId) with
  | none => true
  | some quota => engine.callsInPeriod scope scopeId now quota.periodDays < quota.maxCallsPerPeriod

def recordCall : QuotaEngine :=
  { engine with calls := engine.calls.set (scope, scopeId) (engine.recorded scope scopeId ++ [now]) }

end QuotaEngine

/-! ### The router -/

/-- What the router reads of a request. -/
structure RoutingRequest where
  firmId : String
  taskType : String
  profile : Option ModelProfile := none
  targetCostUsd : Option ℚ := none
  maxLatencyMs : Option ℚ := none
  minQualityScore : ℚ := 0
  country : Option String := none
  dataType : Option String := none

structure RoutingDecision where
  model : ModelDescriptor
  reasons : List String

/-- How a number is printed: `{x}`, and `{x:.2f}`. -/
structure NumberText where
  plain : ℚ → String
  fixed : ℚ → String

structure RouterEngine where
  registry : ModelRegistry := ∅
  governance : GovernanceEngine := {}
  quotas : QuotaEngine := {}
  text : NumberText

def noEligibleModelError (request : RoutingRequest) (reasons : List String) : PyException :=
  ⟨"NoEligibleModelError", "No eligible model for task_type=" ++ pyRepr request.taskType ++ ": " ++
    "; ".intercalate reasons⟩

def quotaExceededError (firmId : String) : PyException :=
  ⟨"QuotaExceededError", "AI Fabric quota exceeded for firm " ++ pyRepr firmId⟩

/-- Models that are left, and the reasons so far. -/
abbrev Filtered := List ModelDescriptor × List String

/-- The key that the best model has the greatest of. -/
def routingKey (model : ModelDescriptor) : ℚ ×ₗ ℚ ×ₗ ℚ :=
  toLex (model.qualityScore, toLex (-model.costPer1kTokensUsd, -model.avgLatencyMs))

namespace RouterEngine

variable (engine : RouterEngine)

def filterAvailable : Filtered → Filtered
  | (candidates, reasons) =>
      let filtered := candidates.filter (·.availability)
      (filtered, reasons ++
        [toString filtered.length ++ " disponible(s) après filtrage de disponibilité"])

def filterQuality (minQualityScore : ℚ) : Filtered → Filtered
  | (candidates, reasons) =>
      if minQualityScore ≤ 0 then (candidates, reasons)
      else
        let filtered := candidates.filter (minQualityScore ≤ ·.qualityScore)
        (filtered, reasons ++ [toString filtered.length ++ " au-dessus du niveau de qualité minimal " ++
          engine.text.fixed minQualityScore])

def filterCost (targetCostUsd : Option ℚ) : Filtered → Filtered
  | (candidates, reasons) =>
      match targetCostUsd with
      | none => (candidates, reasons)
      | some target =>
          let filtered := candidates.filter (·.costPer1kTokensUsd ≤ target)
          (filtered, reasons ++ [toString filtered.length ++ " sous le coût cible " ++
            engine.text.plain target ++ "/1k tokens"])

def filterLatency (maxLatencyMs : Option ℚ) : Filtered → Filtered
  | (candidates, reasons) =>
      match maxLatencyMs with
      | none => (candidates, reasons)
      | some latency =>
          let filtered := candidates.filter (·.avgLatencyMs ≤ latency)
          (filtered, reasons ++ [toString filtered.length ++ " sous le temps maximal " ++
            engine.text.plain latency ++ "ms"])

/-- The verdict on a model. -/
def verdict (request : RoutingRequest) (model : ModelDescriptor) : PolicyDecision :=
  engine.governance.evaluate request.firmId request.country request.dataType model.name

def filterGovernance (request : RoutingRequest) : Filtered → Filtered
  | (candidates, reasons) =>
      (candidates.filter fun model => (engine.verdict request model).allowed,
        reasons ++ (candidates.filter fun model => !(engine.verdict request model).allowed).map fun model =>
          model.name ++ " exclu par la gouvernance : " ++
            "; ".intercalate (engine.verdict request model).reasons)

/-- The models that the request leaves, after one filter for each thing it asks for. -/
def candidates (request : RoutingRequest) : Filtered :=
  let found :=
    match request.profile with
    | none => engine.registry.listAll
    | some profile => engine.registry.listByProfile profile
  let reasons := [toString found.length ++ " modèle(s) associés au profil " ++
    request.profile.elim "quelconque" ModelProfile.value]
  let filtered := filterAvailable (found, reasons)
  let filtered := engine.filterQuality request.minQualityScore filtered
  let filtered := engine.filterCost request.targetCostUsd filtered
  let filtered := engine.filterLatency request.maxLatencyMs filtered
  engine.filterGovernance request filtered

def retained (model : ModelDescriptor) : String :=
  "modèle retenu : " ++ model.name ++ " (score qualité " ++ engine.text.fixed model.qualityScore ++
    ", coût " ++ engine.text.plain model.costPer1kTokensUsd ++ "/1k tokens, latence " ++
    engine.text.plain model.avgLatencyMs ++ "ms)"

/-- `_route`: the quota is checked at one time, and the call recorded at another. -/
def route (request : RoutingRequest) (checked recorded : ℚ) :
    Except PyException RoutingDecision × RouterEngine :=
  let (candidates, reasons) := engine.candidates request
  if candidates = [] then (.error (noEligibleModelError request reasons), engine)
  else if !engine.quotas.check "firm" request.firmId checked then
    (.error (quotaExceededError request.firmId), engine)
  else
    match candidates.argmax routingKey with
    | none => (.error (valueError "max() iterable argument is empty"), engine)
    | some best =>
        (.ok { model := best, reasons := reasons ++ [engine.retained best] },
          { engine with quotas := engine.quotas.recordCall "firm" request.firmId recorded })

end RouterEngine

/-! ### The models that are left -/

section Candidates

variable {engine : RouterEngine} {request : RoutingRequest} {model : ModelDescriptor} {filtered : Filtered}

/-- A model of the requested profile that is available, satisfies every constraint and is allowed; a
quality that is not positive is no constraint. -/
structure Eligible (engine : RouterEngine) (request : RoutingRequest) (model : ModelDescriptor) : Prop where
  registered : model ∈ engine.registry.values
  profile : ∀ profile, request.profile = some profile → profile ∈ model.profiles
  available : model.availability = true
  quality : 0 < request.minQualityScore → request.minQualityScore ≤ model.qualityScore
  cost : ∀ target, request.targetCostUsd = some target → model.costPer1kTokensUsd ≤ target
  latency : ∀ latency, request.maxLatencyMs = some latency → model.avgLatencyMs ≤ latency
  allowed : (engine.verdict request model).allowed = true

lemma mem_filterAvailable :
    model ∈ (RouterEngine.filterAvailable filtered).1 ↔ model ∈ filtered.1 ∧ model.availability = true :=
  List.mem_filter

lemma mem_filterQuality {minQualityScore : ℚ} :
    model ∈ (engine.filterQuality minQualityScore filtered).1 ↔
      model ∈ filtered.1 ∧ (0 < minQualityScore → minQualityScore ≤ model.qualityScore) := by
  rw [RouterEngine.filterQuality]
  split_ifs with hstated
  · simp [not_lt.mpr hstated]
  · simp [not_le.mp hstated]

lemma mem_filterCost {targetCostUsd : Option ℚ} :
    model ∈ (engine.filterCost targetCostUsd filtered).1 ↔
      model ∈ filtered.1 ∧ ∀ target, targetCostUsd = some target → model.costPer1kTokensUsd ≤ target := by
  cases targetCostUsd <;> simp [RouterEngine.filterCost]

lemma mem_filterLatency {maxLatencyMs : Option ℚ} :
    model ∈ (engine.filterLatency maxLatencyMs filtered).1 ↔
      model ∈ filtered.1 ∧ ∀ latency, maxLatencyMs = some latency → model.avgLatencyMs ≤ latency := by
  cases maxLatencyMs <;> simp [RouterEngine.filterLatency]

lemma mem_filterGovernance :
    model ∈ (engine.filterGovernance request filtered).1 ↔
      model ∈ filtered.1 ∧ (engine.verdict request model).allowed = true :=
  List.mem_filter

/-- **The models that are left** are the eligible ones. -/
theorem mem_candidates_iff : model ∈ (engine.candidates request).1 ↔ Eligible engine request model := by
  have hfound : model ∈ (match request.profile with
        | none => engine.registry.listAll
        | some profile => engine.registry.listByProfile profile) ↔
      model ∈ engine.registry.values ∧ ∀ profile, request.profile = some profile → profile ∈ model.profiles := by
    cases request.profile with
    | none => simp [ModelRegistry.listAll]
    | some profile => simp [ModelRegistry.listByProfile]
  rw [RouterEngine.candidates]
  simp only [mem_filterGovernance, mem_filterLatency, mem_filterCost, mem_filterQuality,
    mem_filterAvailable, hfound]
  constructor
  · rintro ⟨⟨⟨⟨⟨⟨hregistered, hprofile⟩, havailable⟩, hquality⟩, hcost⟩, hlatency⟩, hallowed⟩
    exact ⟨hregistered, hprofile, havailable, hquality, hcost, hlatency, hallowed⟩
  · intro h
    exact ⟨⟨⟨⟨⟨⟨h.registered, h.profile⟩, h.available⟩, h.quality⟩, h.cost⟩, h.latency⟩, h.allowed⟩

end Candidates

/-! ### The best model -/

/-- Higher quality, then lower cost, then lower latency. -/
def Beats (model other : ModelDescriptor) : Prop :=
  other.qualityScore < model.qualityScore ∨ (other.qualityScore = model.qualityScore ∧
    (model.costPer1kTokensUsd < other.costPer1kTokensUsd ∨
      (model.costPer1kTokensUsd = other.costPer1kTokensUsd ∧ model.avgLatencyMs < other.avgLatencyMs)))

lemma routingKey_lt_iff {model other : ModelDescriptor} :
    routingKey other < routingKey model ↔ Beats model other := by
  rw [routingKey, routingKey, Prod.Lex.toLex_lt_toLex, Prod.Lex.toLex_lt_toLex, Beats]
  simp only [neg_lt_neg_iff, neg_inj]
  rw [eq_comm (a := other.costPer1kTokensUsd)]

/-- The best of some models is one of them, and none of them beats it. -/
lemma best_of_argmax {models : List ModelDescriptor} {best : ModelDescriptor}
    (h : models.argmax routingKey = some best) : best ∈ models ∧ ∀ model ∈ models, ¬ Beats model best := by
  refine ⟨List.argmax_mem h, fun model hmem => ?_⟩
  rw [← routingKey_lt_iff]
  exact List.not_lt_of_mem_argmax hmem h

/-! ### What routing returns -/

section Route

variable {engine : RouterEngine} {request : RoutingRequest} {checked recorded : ℚ}

/-- The firm has a quota, and it has made as many calls in the period before now. -/
def Exhausted (engine : QuotaEngine) (firmId : String) (now : ℚ) : Prop :=
  ∃ quota, engine.quotas.get ("firm", firmId) = some quota ∧
    quota.maxCallsPerPeriod ≤
      (engine.recorded "firm" firmId).countP (fun time => now - quota.period ≤ time)

lemma check_eq_false {engine : QuotaEngine} {firmId : String} {now : ℚ} :
    engine.check "firm" firmId now = false ↔ Exhausted engine firmId now := by
  rw [QuotaEngine.check, Exhausted]
  cases hget : engine.quotas.get ("firm", firmId) with
  | none => simp
  | some quota => simp [QuotaEngine.callsInPeriod, Quota.period]

/-- **A call of `route`** raises where no model is left, or the quota is exhausted; else it returns the best
of the models that are left, and is recorded. -/
theorem route_cases (engine : RouterEngine) (request : RoutingRequest) (checked recorded : ℚ) :
    ((∀ model, ¬ Eligible engine request model) ∧
      engine.route request checked recorded =
        (.error (noEligibleModelError request (engine.candidates request).2), engine)) ∨
    ((∃ model, Eligible engine request model) ∧ Exhausted engine.quotas request.firmId checked ∧
      engine.route request checked recorded = (.error (quotaExceededError request.firmId), engine)) ∨
    (¬ Exhausted engine.quotas request.firmId checked ∧
      ∃ best reasons, Eligible engine request best ∧
        (∀ model, Eligible engine request model → ¬ Beats model best) ∧
        engine.route request checked recorded =
          (.ok { model := best, reasons },
            { engine with quotas := engine.quotas.recordCall "firm" request.firmId recorded })) := by
  rw [RouterEngine.route]
  dsimp only
  by_cases hleft : (engine.candidates request).1 = []
  · refine Or.inl ⟨fun model heligible => ?_, if_pos hleft⟩
    have hmem := mem_candidates_iff.mpr heligible
    rw [hleft] at hmem
    cases hmem
  · rw [if_neg hleft]
    cases hbest : (engine.candidates request).1.argmax routingKey with
    | none => exact absurd (List.argmax_eq_none.mp hbest) hleft
    | some best =>
      obtain ⟨hmem, hbeats⟩ := best_of_argmax hbest
      have heligible := mem_candidates_iff.mp hmem
      cases hcheck : engine.quotas.check "firm" request.firmId checked with
      | false => exact Or.inr (Or.inl ⟨⟨best, heligible⟩, check_eq_false.mp hcheck, rfl⟩)
      | true =>
        refine Or.inr (Or.inr ⟨?_, best, _, heligible, fun model hmodel => ?_, rfl⟩)
        · rw [← check_eq_false, hcheck]
          exact Bool.noConfusion
        · exact hbeats model (mem_candidates_iff.mpr hmodel)

/-- The model returned is one of these, and none of them beats it; and routing raises exactly when there
is none, or the quota is exhausted. -/
def Optimal (eligible : ModelDescriptor → Prop) (exhausted : Prop)
    (outcome : Except PyException RoutingDecision) : Prop :=
  (∀ decision, outcome = .ok decision →
    eligible decision.model ∧ ∀ model, eligible model → ¬ Beats model decision.model) ∧
  ((∃ e, outcome = .error e) ↔ (∀ model, ¬ eligible model) ∨ exhausted)

/-- A catalogue of one model, whose quality is negative. -/
def poorCatalogue : RouterEngine where
  registry := (∅ : ModelRegistry).save
    { name := "poor", costPer1kTokensUsd := 1 / 100, avgLatencyMs := 500, qualityScore := -9 / 10 }
  text := { plain := toString, fixed := toString }

end Route

end Tmis.AiFabric
