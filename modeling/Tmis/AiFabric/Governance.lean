import Mathlib.Data.Finset.Basic
import Tmis.Lib.Store
import Tmis.Platform.Licensing

/-!
# Policies on models

`ai_fabric.policies` and `ai_fabric.governance`: which models a firm may be routed to, for a request from
some country about some type of data.

* `Policy`, `GovernanceEngine` — the policies, and the licenses of the firms;
* `refusal` — what one policy has against a model;
* `evaluate` — the verdict, with its reasons;
* `allowed_evaluate_iff` — a model is allowed iff no active policy for it has anything against it.
-/

namespace Tmis.AiFabric

open Tmis.Lib Tmis.Platform.Licensing

inductive PolicyType where
  | modelForbidden | enterpriseOnly | countryRestricted | dataTypeRestricted
  deriving DecidableEq

structure Policy where
  id : String
  type : PolicyType
  modelName : String
  reason : String
  allowedCountries : Option (Finset String) := none
  allowedDataTypes : Option (Finset String) := none
  active : Bool := true

/-- A decision that is not recorded. -/
structure PolicyDecision where
  firmId : String
  modelName : String
  allowed : Bool
  reasons : List String

/-- The engine with its policies, and the licenses it asks for features. -/
structure GovernanceEngine where
  policies : Store String Policy Policy.id := ∅
  licenses : LicenseEngine := {}

def enterpriseModelsFeature : String := "enterprise_ai_models"

/-- `{value!r}`. -/
def reprOptional (value : Option String) : String := value.elim "None" pyRepr

namespace GovernanceEngine

variable (engine : GovernanceEngine)

/-- `list_for_model`. -/
def listForModel (modelName : String) : List Policy :=
  engine.policies.values.filter fun policy =>
    policy.active ∧ (policy.modelName = modelName ∨ policy.modelName = "*")

variable (firmId : String) (country dataType : Option String)

/-- What a policy has against a model, if anything. -/
def refusal (policy : Policy) : Option String :=
  match policy.type with
  | .modelForbidden => some ("modèle interdit : " ++ policy.reason)
  | .enterpriseOnly =>
      if engine.licenses.hasFeature firmId enterpriseModelsFeature then none
      else some ("réservé aux offres Enterprise : " ++ policy.reason)
  | .countryRestricted =>
      if country.any (· ∈ policy.allowedCountries.getD ∅) then none
      else some ("pays non autorisé (" ++ reprOptional country ++ ") : " ++ policy.reason)
  | .dataTypeRestricted =>
      if dataType.any (· ∈ policy.allowedDataTypes.getD ∅) then none
      else some ("type de données non autorisé (" ++ reprOptional dataType ++ ") : " ++ policy.reason)

/-- The loop of `evaluate` over the policies. -/
def evaluatePolicies : Bool × List String → List Policy → Bool × List String
  | verdict, [] => verdict
  | (allowed, reasons), policy :: policies =>
      match engine.refusal firmId country dataType policy with
      | some reason => evaluatePolicies (false, reasons ++ [reason]) policies
      | none => evaluatePolicies (allowed, reasons) policies

/-- `evaluate`, without a record. -/
def evaluate (modelName : String) : PolicyDecision :=
  let (allowed, reasons) :=
    engine.evaluatePolicies firmId country dataType (true, []) (engine.listForModel modelName)
  { firmId
    modelName
    allowed
    reasons := if reasons = [] then ["aucune politique restrictive applicable"] else reasons }

variable {engine firmId country dataType}

lemma fst_evaluatePolicies {allowed : Bool} {reasons : List String} {policies : List Policy} :
    (engine.evaluatePolicies firmId country dataType (allowed, reasons) policies).1 = true ↔
      allowed = true ∧ ∀ policy ∈ policies, engine.refusal firmId country dataType policy = none := by
  induction policies generalizing allowed reasons with
  | nil => simp [evaluatePolicies]
  | cons policy policies ih =>
    rw [evaluatePolicies, List.forall_mem_cons]
    cases hrefusal : engine.refusal firmId country dataType policy with
    | none =>
      dsimp only
      rw [ih]
      simp
    | some reason =>
      dsimp only
      rw [ih]
      simp

/-- **A model is allowed** iff no active policy for it, or for all models, has anything against it. -/
theorem allowed_evaluate_iff {modelName : String} :
    (engine.evaluate firmId country dataType modelName).allowed = true ↔
      ∀ policy ∈ engine.policies.values, policy.active = true →
        policy.modelName = modelName ∨ policy.modelName = "*" →
        engine.refusal firmId country dataType policy = none := by
  rw [evaluate]
  dsimp only
  rw [fst_evaluatePolicies, listForModel]
  simp only [true_and, List.mem_filter, decide_eq_true_eq]
  constructor
  · intro h policy hmem hactive hname
    exact h policy ⟨hmem, hactive, hname⟩
  · rintro h policy ⟨hmem, hactive, hname⟩
    exact h policy hmem hactive hname

end GovernanceEngine

end Tmis.AiFabric
