import Tmis.BusinessPlatform.Subscriptions

/-!
# Modules

`business_platform.modules`: which modules a firm has turned on or off.  A module is turned on only where
the firm's plan offers it; the plan that the firm changes to is not asked.

* `ModuleRegistry.isAvailable`, `activate`, `deactivate`, `isActive` — the calls;
* `Offers`, `Available` — a plan offers a module, and the plan of a firm does;
* `Respects` — what is active is available;
* `KeepsModules` — the condition on an operation;
* `along_respects_iff` — over every run.
-/

namespace Tmis.BusinessPlatform

open Tmis.Lib

inductive TmisModule where
  | documentIntelligence | caseIntelligence | legalResearch | legalReasoning | legalDrafting
  | collaboration | cabinetOs | aiTeam | cabinetKnowledge | platformSdk | aiFabric | aiGovernance
  | strategicIntelligence | workflowAutomation | integrationHub | identityPlatform
  | legalCopilotFramework
  deriving DecidableEq

def TmisModule.value : TmisModule → String
  | documentIntelligence => "document_intelligence"
  | caseIntelligence => "case_intelligence"
  | legalResearch => "legal_research"
  | legalReasoning => "legal_reasoning"
  | legalDrafting => "legal_drafting"
  | collaboration => "collaboration"
  | cabinetOs => "cabinet_os"
  | aiTeam => "ai_team"
  | cabinetKnowledge => "cabinet_knowledge"
  | platformSdk => "platform_sdk"
  | aiFabric => "ai_fabric"
  | aiGovernance => "ai_governance"
  | strategicIntelligence => "strategic_intelligence"
  | workflowAutomation => "workflow_automation"
  | integrationHub => "integration_hub"
  | identityPlatform => "identity_platform"
  | legalCopilotFramework => "legal_copilot_framework"

/-- `_MODULE_FEATURE_MAPPING`: the feature of a plan that a module is sold with, if it is not part of
every plan. -/
def moduleFeatureMapping : TmisModule → Option String
  | .documentIntelligence => "documents"
  | .caseIntelligence => "cases"
  | .legalResearch | .legalReasoning | .legalDrafting | .aiTeam | .aiFabric | .aiGovernance
  | .legalCopilotFramework => "ai_assist"
  | .collaboration => "collaboration"
  | .workflowAutomation => "workflow_automation"
  | .integrationHub => "integration_hub"
  | .strategicIntelligence => "advanced_analytics"
  | .platformSdk => "public_api"
  | .cabinetOs | .cabinetKnowledge | .identityPlatform => none

structure ModuleActivation where
  firmId : String
  module : TmisModule
  active : Bool
  updatedAt : ℤ

/-- An activation is stored under its firm and its module. -/
def ModuleActivation.storeKey (activation : ModuleActivation) : String × TmisModule :=
  (activation.firmId, activation.module)

/-- The registry with its store, and the subscriptions with the catalog they share with it. -/
structure ModuleRegistry where
  store : Store (String × TmisModule) ModuleActivation ModuleActivation.storeKey := ∅
  subscriptions : SubscriptionEngine := {}

namespace ModuleRegistry

variable (registry : ModuleRegistry)

def isAvailable (firmId : String) (module : TmisModule) : Except PyException Bool :=
  match moduleFeatureMapping module with
  | none => return true
  | some feature => do
    let subscription ← registry.subscriptions.get firmId
    let plan ← registry.subscriptions.plans.get subscription.planId
    return feature ∈ plan.features

def activate (firmId : String) (module : TmisModule) (now : ℤ) :
    Except PyException (ModuleActivation × ModuleRegistry) := do
  let available ← registry.isAvailable firmId module
  if !available then
    throw ⟨"ModuleNotAvailableError", module.value ++ " is not included in firm " ++ firmId ++ "'s plan"⟩
  let activation : ModuleActivation := { firmId, module, active := true, updatedAt := now }
  return (activation, { registry with store := registry.store.save activation })

def deactivate (firmId : String) (module : TmisModule) (now : ℤ) : ModuleActivation × ModuleRegistry :=
  let activation : ModuleActivation := { firmId, module, active := false, updatedAt := now }
  (activation, { registry with store := registry.store.save activation })

def isActive (firmId : String) (module : TmisModule) : Except PyException Bool :=
  match registry.store.get (firmId, module) with
  | some override => return override.active
  | none => registry.isAvailable firmId module

end ModuleRegistry

/-- A call of the registry, or of the subscriptions, at some time. -/
inductive ModuleOperation where
  | activate (firmId : String) (module : TmisModule) (now : ℤ)
  | deactivate (firmId : String) (module : TmisModule) (now : ℤ)
  | subscriptions (op : SubscriptionOperation) (now : ℤ)

/-- The registry after an operation; a call that raises leaves it as it is. -/
def ModuleRegistry.step (registry : ModuleRegistry) : ModuleOperation → ModuleRegistry
  | .activate firmId module now =>
      afterCall registry ((registry.activate firmId module now).map Prod.snd)
  | .deactivate firmId module now => (registry.deactivate firmId module now).2
  | .subscriptions op now => { registry with subscriptions := registry.subscriptions.after now op }

/-- A module that is active for a firm is available to it. -/
def Respects (registry : ModuleRegistry) : Prop :=
  ∀ firmId module, registry.isActive firmId module = .ok true →
    registry.isAvailable firmId module = .ok true

/-- Every module that the firm has turned on is part of every plan, or of this one. -/
def PlanHas (registry : ModuleRegistry) (firmId planId : String) : Prop :=
  ∀ plan, registry.subscriptions.plans.store.get planId = some plan →
    ∀ module activation, registry.store.get (firmId, module) = some activation →
      activation.active = true →
      ∀ feature, moduleFeatureMapping module = some feature → feature ∈ plan.features

/-- A firm changes to a plan, or starts a trial of one, only if every module it has turned on is part of
that plan. -/
def KeepsModules (registry : ModuleRegistry) : ModuleOperation → Prop
  | .subscriptions (.startTrial firmId planId) _ => PlanHas registry firmId planId
  | .subscriptions (.changePlan firmId planId) _ => PlanHas registry firmId planId
  | _ => True

/-! ### What a plan offers -/

section Offers

variable {subscriptions : SubscriptionEngine} {registry : ModuleRegistry} {firmId planId : String}
  {module : TmisModule} {plan : Plan} {plans plans' : PlanCatalog}

/-- The catalog has the plan, with the feature of the module. -/
def Offers (plans : PlanCatalog) (planId : String) (module : TmisModule) : Prop :=
  ∀ feature, moduleFeatureMapping module = some feature →
    ∃ features, Sells plans planId features ∧ feature ∈ features

/-- The plan of the firm offers the module, or every plan does. -/
def Available (subscriptions : SubscriptionEngine) (firmId : String) (module : TmisModule) : Prop :=
  moduleFeatureMapping module = none ∨
    ∃ subscription, subscriptions.store.get firmId = some subscription ∧
      Offers subscriptions.plans subscription.planId module

lemma offers_iff (hget : plans.store.get planId = some plan) : Offers plans planId module ↔
    ∀ feature, moduleFeatureMapping module = some feature → feature ∈ plan.features := by
  refine forall₂_congr fun feature _ => ?_
  constructor
  · rintro ⟨features, ⟨plan', hget', rfl⟩, hmem⟩
    obtain rfl := Option.some.inj (hget.symm.trans hget')
    exact hmem
  · exact fun hmem => ⟨_, ⟨plan, hget, rfl⟩, hmem⟩

lemma isAvailable_ok : registry.isAvailable firmId module = .ok true ↔
    Available registry.subscriptions firmId module := by
  unfold ModuleRegistry.isAvailable Available Offers
  cases hfeature : moduleFeatureMapping module with
  | none => simp [pure, Except.pure]
  | some feature =>
    simp only [bind_eq_ok, pure_eq_ok, subscription_ok, get_ok, decide_eq_true_eq, reduceCtorEq,
      false_or, Option.some.injEq, forall_eq']
    refine exists_congr fun subscription => and_congr_right fun _ => ?_
    constructor
    · rintro ⟨plan, hplan, hmem⟩
      exact ⟨_, ⟨plan, hplan, rfl⟩, hmem⟩
    · rintro ⟨features, ⟨plan, hplan, rfl⟩, hmem⟩
      exact ⟨plan, hplan, hmem⟩

/-- Only what is turned on matters. -/
lemma respects_iff : Respects registry ↔ ∀ firmId module activation,
    registry.store.get (firmId, module) = some activation → activation.active = true →
      Available registry.subscriptions firmId module := by
  refine forall₂_congr fun firmId module => ?_
  rw [isAvailable_ok, ModuleRegistry.isActive]
  cases hget : registry.store.get (firmId, module) with
  | none =>
    simp only [isAvailable_ok, reduceCtorEq, false_implies, implies_true, iff_true]
    exact id
  | some activation => simp [pure_eq_ok]

lemma available_save_of_ne {saved : Subscription} (hne : firmId ≠ saved.firmId) :
    Available (subscriptions.save saved) firmId module ↔ Available subscriptions firmId module := by
  unfold Available
  rw [show (subscriptions.save saved).store.get firmId = _ from
    (Store.get_save ..).trans (if_neg hne)]
  rfl

lemma available_save_self {saved : Subscription} :
    Available (subscriptions.save saved) saved.firmId module ↔
      Offers subscriptions.plans saved.planId module := by
  unfold Available
  rw [show (subscriptions.save saved).store.get saved.firmId = some saved from
    Store.get_save_self ..]
  constructor
  · rintro (hnone | ⟨_, ⟨⟩, hoffers⟩)
    · intro feature hfeature
      rw [hnone] at hfeature
      cases hfeature
    · exact hoffers
  · exact fun hoffers => Or.inr ⟨saved, rfl, hoffers⟩

end Offers

/-! ### One operation -/

section Steps

variable {registry : ModuleRegistry} {op : ModuleOperation} {firmId planId : String}
  {subscriptions : SubscriptionEngine} {plan : Plan}

/-- The invariant of disciplined runs. -/
structure ModulesSound (registry : ModuleRegistry) : Prop where
  respects : Respects registry
  numbered : Numbered registry.subscriptions.plans

lemma modulesSound_start : ModulesSound {} where
  respects := by
    rw [respects_iff]
    intro _ _ _ h
    cases h
  numbered _ _ h := by cases h

/-- A firm's subscription is saved: what the firm has turned on has to be part of the plan. -/
lemma respects_save_iff (h : Respects registry) (saved : Subscription)
    (hplan : registry.subscriptions.plans.store.get saved.planId = some plan) :
    Respects { registry with subscriptions := registry.subscriptions.save saved } ↔
      PlanHas registry saved.firmId saved.planId := by
  rw [respects_iff] at h ⊢
  constructor
  · intro hafter plan' hplan' module activation hget hactive
    obtain rfl := Option.some.inj (hplan.symm.trans hplan')
    exact (offers_iff hplan).mp (available_save_self.mp (hafter saved.firmId module activation hget hactive))
  · intro hhas firmId module activation hget hactive
    by_cases hfirm : firmId = saved.firmId
    · subst hfirm
      exact available_save_self.mpr ((offers_iff hplan).mpr (hhas plan hplan module activation hget hactive))
    · exact (available_save_of_ne hfirm).mpr (h firmId module activation hget hactive)

/-- A subscription that is saved on the plan it was on offers what it offered. -/
lemma respects_save_stays (h : Respects registry) {before after : Subscription}
    (hget : registry.subscriptions.store.get after.firmId = some before)
    (hplan : after.planId = before.planId) :
    Respects { registry with subscriptions := registry.subscriptions.save after } := by
  rw [respects_iff] at h ⊢
  intro firmId module activation hactivation hactive
  have hbefore := h firmId module activation hactivation hactive
  by_cases hfirm : firmId = after.firmId
  · subst hfirm
    rw [available_save_self, hplan]
    rcases hbefore with hnone | ⟨subscription, hsubscription, hoffers⟩
    · intro feature hfeature
      rw [hnone] at hfeature
      cases hfeature
    · obtain rfl := Option.some.inj (hget.symm.trans hsubscription)
      exact hoffers
  · exact (available_save_of_ne hfirm).mpr hbefore

/-- The catalog changes: what is sold stays sold. -/
lemma respects_catalog (h : Respects registry) {plans : PlanCatalog}
    (hsells : ∀ planId features, Sells registry.subscriptions.plans planId features →
      Sells plans planId features) :
    Respects { registry with subscriptions := { registry.subscriptions with plans } } := by
  rw [respects_iff] at h ⊢
  intro firmId module activation hget hactive
  refine (h firmId module activation hget hactive).imp_right ?_
  rintro ⟨subscription, hsubscription, hoffers⟩
  refine ⟨subscription, hsubscription, fun feature hfeature => ?_⟩
  obtain ⟨features, hsold, hmem⟩ := hoffers feature hfeature
  exact ⟨features, hsells _ features hsold, hmem⟩

/-- A module is turned on that is available, or turned off. -/
lemma respects_toggle (h : Respects registry) (activation : ModuleActivation)
    (havailable : activation.active = true →
      Available registry.subscriptions activation.firmId activation.module) :
    Respects { registry with store := registry.store.save activation } := by
  rw [respects_iff] at h ⊢
  intro firmId module found hget hactive
  obtain ⟨hkey, rfl⟩ | ⟨-, hget⟩ := Store.get_save_cases hget
  · obtain ⟨rfl, rfl⟩ := Prod.mk.inj hkey
    exact havailable hactive
  · exact h firmId module found hget hactive

/-- A firm without a subscription has turned on only what is part of every plan. -/
lemma planHas_of_no_subscription (h : Respects registry)
    (hnone : registry.subscriptions.store.get firmId = none) : PlanHas registry firmId planId := by
  intro plan _ module activation hget hactive feature hfeature
  rcases respects_iff.mp h firmId module activation hget hactive with hfree | ⟨_, hsubscription, -⟩
  · rw [hfree] at hfeature
    cases hfeature
  · rw [hnone] at hsubscription
    cases hsubscription

/-- A firm starts a trial of a plan. -/
lemma respects_startTrial_iff (h : Respects registry) (now : ℤ) :
    Respects (registry.step (.subscriptions (.startTrial firmId planId) now)) ↔
      PlanHas registry firmId planId := by
  cases hplan : registry.subscriptions.plans.store.get planId with
  | none =>
    refine iff_of_true ?_ fun plan hget => ?_
    · rw [ModuleRegistry.step, SubscriptionEngine.after, SubscriptionEngine.startTrial, PlanCatalog.get,
        hplan]
      exact h
    · rw [hplan] at hget
      cases hget
  | some plan =>
    rw [ModuleRegistry.step, SubscriptionEngine.after, SubscriptionEngine.startTrial, get_ok.mpr hplan]
    exact respects_save_iff h _ hplan

/-- A firm changes to a plan. -/
lemma respects_changePlan_iff (h : Respects registry) (now : ℤ) :
    Respects (registry.step (.subscriptions (.changePlan firmId planId) now)) ↔
      PlanHas registry firmId planId := by
  rw [ModuleRegistry.step, SubscriptionEngine.after, SubscriptionEngine.changePlan]
  cases hplan : registry.subscriptions.plans.store.get planId with
  | none =>
    refine iff_of_true ?_ fun plan hget => ?_
    · rw [PlanCatalog.get, hplan]
      exact h
    · rw [hplan] at hget
      cases hget
  | some plan =>
    rw [get_ok.mpr hplan]
    cases hget : registry.subscriptions.store.get firmId with
    | none =>
      rw [SubscriptionEngine.get, hget]
      exact iff_of_true h (planHas_of_no_subscription h hget)
    | some before =>
      rw [subscription_ok.mpr hget]
      obtain rfl := Store.key_of_get hget
      exact respects_save_iff h { before with planId } hplan

/-- An operation of the subscriptions on which every firm keeps its plan. -/
lemma respects_of_change (h : ModulesSound registry) {op : SubscriptionOperation} {now : ℤ}
    (hchange : Change registry.subscriptions now op subscriptions)
    (hop : ∀ firmId planId, op ≠ .startTrial firmId planId ∧ op ≠ .changePlan firmId planId) :
    Respects { registry with subscriptions } := by
  cases hchange with
  | none op _ => exact h.respects
  | catalog op plans _ _ hsells =>
    exact respects_catalog h.respects fun planId features => hsells planId features h.numbered
  | started firmId planId => exact absurd rfl (hop firmId planId).1
  | activated firmId billingCycle before hget =>
    obtain rfl := Store.key_of_get hget
    exact respects_save_stays h.respects hget rfl
  | planChanged firmId planId => exact absurd rfl (hop firmId planId).2
  | stayed op before after _ hget stays => exact respects_save_stays h.respects hget stays.planId

/-- **One operation.**  Where what is active is available, it is so after an operation iff the operation
meets its condition. -/
theorem respects_step_iff (h : ModulesSound registry) (op : ModuleOperation) :
    Respects (registry.step op) ↔ KeepsModules registry op := by
  cases op with
  | activate firmId module now =>
    refine iff_of_true ?_ trivial
    refine (afterCall_map_iff h.respects).mpr fun r hr => ?_
    obtain ⟨available, havailable, hr⟩ := bind_eq_ok.mp hr
    cases available with
    | false => cases hr
    | true =>
      cases hr
      exact respects_toggle h.respects _ fun _ => isAvailable_ok.mp havailable
  | deactivate firmId module now => exact iff_of_true (respects_toggle h.respects _ nofun) trivial
  | subscriptions op now =>
    have hchange := change_after registry.subscriptions now op
    cases op with
    | startTrial firmId planId => exact respects_startTrial_iff h.respects now
    | changePlan firmId planId => exact respects_changePlan_iff h.respects now
    | _ => exact iff_of_true (respects_of_change h hchange fun _ _ => ⟨nofun, nofun⟩) trivial

/-- **One disciplined operation.**  The invariant is kept. -/
theorem ModulesSound.step (h : ModulesSound registry) {op : ModuleOperation}
    (hop : KeepsModules registry op) : ModulesSound (registry.step op) := by
  refine ⟨(respects_step_iff h op).mpr hop, ?_⟩
  cases op with
  | activate firmId module now =>
    refine (afterCall_map_iff (P := fun registry : ModuleRegistry => Numbered registry.subscriptions.plans) h.numbered).mpr
      fun r hr => ?_
    obtain ⟨available, -, hr⟩ := bind_eq_ok.mp hr
    cases available <;> cases hr
    exact h.numbered
  | deactivate firmId module now => exact h.numbered
  | subscriptions op now =>
    have hchange := change_after registry.subscriptions now op
    rw [ModuleRegistry.step]
    generalize registry.subscriptions.after now op = subscriptions at hchange ⊢
    cases hchange with
    | catalog op plans hop hnumbered hsells => exact hnumbered h.numbered
    | _ => exact h.numbered

end Steps

/-- **Modules respect the plan, exactly.**  In every state that a run reaches every module that is active
for a firm is available to it, iff no firm changes to a plan, or starts a trial of one, that lacks a
module it has turned on. -/
theorem along_respects_iff (ops : List ModuleOperation) :
    Along ModuleRegistry.step (fun registry op => Respects (registry.step op)) {} ops ↔
      Along ModuleRegistry.step KeepsModules {} ops :=
  along_congr modulesSound_start (fun _ _ h hop => h.step hop) (fun _ op h => respects_step_iff h op)

/-! ### A downgrade -/

/-- A firm turns on a module of its plan, and changes to a plan without it. -/
def downgraded : List ModuleOperation :=
  [.subscriptions (.publish .basic {"cases"} 49 490) 0,
    .subscriptions (.publish .professional {"cases", "collaboration"} 199 1990) 0,
    .subscriptions (.startTrial "firm-1" "plan-professional-v1") 0,
    .activate "firm-1" .collaboration 0,
    .subscriptions (.changePlan "firm-1" "plan-basic-v1") 0]

/-- The module stays active. -/
theorem active_after_downgrade :
    ¬ Along ModuleRegistry.step (fun registry op => Respects (registry.step op)) {} downgraded := by
  rintro ⟨-, -, -, -, hrespects, -⟩
  have hactive : (run ModuleRegistry.step {} downgraded).isActive "firm-1" .collaboration = .ok true := by
    decide +kernel
  have havailable : (run ModuleRegistry.step {} downgraded).isAvailable "firm-1" .collaboration =
      .ok false := by decide +kernel
  have hcontra := havailable.symm.trans (hrespects "firm-1" .collaboration hactive)
  cases hcontra

end Tmis.BusinessPlatform
