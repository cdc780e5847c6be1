import Tmis.BusinessPlatform.Licenses
import Tmis.BusinessPlatform.Plans

/-!
# Subscriptions

`business_platform.subscriptions`: the subscription of each firm, over the catalog of plans.  A call reads
the clock at most once.

* `SubscriptionEngine.startTrial`, `activate`, `changePlan`, `markPastDue`, `cancel`, `expire`,
  `extendTrial`, `advancePeriod` — the calls;
* `SubscriptionOperation`, `SubscriptionEngine.after` — one call of the engine or of its catalog;
* `Change`, `change_after` — what an operation does to the catalog and to the subscriptions.
-/

namespace Tmis.BusinessPlatform

open Tmis.Lib

inductive SubscriptionStatus where
  | trial | active | pastDue | cancelled | expired
  deriving DecidableEq

inductive BillingCycle where
  | monthly | annual
  deriving DecidableEq

def BillingCycle.value : BillingCycle → String
  | monthly => "monthly"
  | annual => "annual"

structure Subscription where
  id : Uuid
  firmId : String
  planId : String
  billingCycle : BillingCycle := .monthly
  status : SubscriptionStatus := .trial
  startedAt : ℤ
  trialEndsAt : Option ℤ := none
  currentPeriodEnd : Option ℤ := none
  cancelledAt : Option ℤ := none

def defaultTrialEnd (now : ℤ) : ℤ := now + days 14

def BillingCycle.length (cycle : BillingCycle) : ℤ := if cycle = .annual then days 365 else days 30

def periodEndForCycle (cycle : BillingCycle) (now : ℤ) : ℤ := now + cycle.length

/-- The engine with its store, the catalog it is given, and the number of identifiers drawn. -/
structure SubscriptionEngine where
  store : Store String Subscription Subscription.firmId := ∅
  plans : PlanCatalog := {}
  uuids : ℕ := 0

namespace SubscriptionEngine

variable (engine : SubscriptionEngine)

/-- `_require`. -/
def get (firmId : String) : Except PyException Subscription :=
  match engine.store.get firmId with
  | none => .error (keyError firmId)
  | some subscription => .ok subscription

def save (subscription : Subscription) : SubscriptionEngine :=
  { engine with store := engine.store.save subscription }

def startTrial (firmId planId : String) (now : ℤ) :
    Except PyException (Subscription × SubscriptionEngine) := do
  let _ ← engine.plans.get planId
  let subscription : Subscription :=
    { id := engine.uuids
      firmId
      planId
      status := .trial
      startedAt := now
      trialEndsAt := defaultTrialEnd now }
  return (subscription, { engine.save subscription with uuids := engine.uuids + 1 })

def activate (firmId : String) (billingCycle : BillingCycle) (now : ℤ) :
    Except PyException (Subscription × SubscriptionEngine) := do
  let subscription ← engine.get firmId
  let subscription :=
    { subscription with
      status := .active
      billingCycle
      currentPeriodEnd := some (periodEndForCycle billingCycle now) }
  return (subscription, engine.save subscription)

def changePlan (firmId planId : String) : Except PyException (Subscription × SubscriptionEngine) := do
  let _ ← engine.plans.get planId
  let subscription ← engine.get firmId
  let subscription := { subscription with planId }
  return (subscription, engine.save subscription)

def markPastDue (firmId : String) : Except PyException (Subscription × SubscriptionEngine) := do
  let subscription ← engine.get firmId
  let subscription := { subscription with status := .pastDue }
  return (subscription, engine.save subscription)

def cancel (firmId : String) (now : ℤ) : Except PyException (Subscription × SubscriptionEngine) := do
  let subscription ← engine.get firmId
  let subscription := { subscription with status := .cancelled, cancelledAt := some now }
  return (subscription, engine.save subscription)

def expire (firmId : String) : Except PyException (Subscription × SubscriptionEngine) := do
  let subscription ← engine.get firmId
  let subscription := { subscription with status := .expired }
  return (subscription, engine.save subscription)

def extendTrial (firmId : String) (extraDays : ℤ) (now : ℤ) :
    Except PyException (Subscription × SubscriptionEngine) := do
  let subscription ← engine.get firmId
  let base := subscription.trialEndsAt.getD now
  let subscription := { subscription with trialEndsAt := some (base + days extraDays) }
  return (subscription, engine.save subscription)

def advancePeriod (firmId : String) (now : ℤ) :
    Except PyException (Subscription × SubscriptionEngine) := do
  let subscription ← engine.get firmId
  let subscription :=
    { subscription with currentPeriodEnd := some (periodEndForCycle subscription.billingCycle now) }
  return (subscription, engine.save subscription)

end SubscriptionEngine

/-! ### Operations -/

/-- A call of the catalog, or one of the engine by the users of the platform. -/
inductive SubscriptionOperation where
  | publish (name : PlanName) (features : Finset String) (monthlyPriceUsd annualPriceUsd : ℚ)
  | deactivatePlan (planId : String)
  | startTrial (firmId planId : String)
  | activate (firmId : String) (billingCycle : BillingCycle)
  | changePlan (firmId planId : String)
  | markPastDue (firmId : String)
  | cancel (firmId : String)
  | expire (firmId : String)
  | extendTrial (firmId : String) (extraDays : ℤ)

namespace SubscriptionEngine

/-- The engine after an operation; a call that raises leaves it as it is. -/
def after (engine : SubscriptionEngine) (now : ℤ) : SubscriptionOperation → SubscriptionEngine
  | .publish name features monthlyPriceUsd annualPriceUsd =>
      { engine with plans := (engine.plans.publish name features monthlyPriceUsd annualPriceUsd now).2 }
  | .deactivatePlan planId =>
      afterCall engine ((engine.plans.deactivate planId).map fun r => { engine with plans := r.2 })
  | .startTrial firmId planId => afterCall engine ((engine.startTrial firmId planId now).map Prod.snd)
  | .activate firmId billingCycle =>
      afterCall engine ((engine.activate firmId billingCycle now).map Prod.snd)
  | .changePlan firmId planId => afterCall engine ((engine.changePlan firmId planId).map Prod.snd)
  | .markPastDue firmId => afterCall engine ((engine.markPastDue firmId).map Prod.snd)
  | .cancel firmId => afterCall engine ((engine.cancel firmId now).map Prod.snd)
  | .expire firmId => afterCall engine ((engine.expire firmId).map Prod.snd)
  | .extendTrial firmId extraDays =>
      afterCall engine ((engine.extendTrial firmId extraDays now).map Prod.snd)

end SubscriptionEngine

/-! ### What an operation does -/

section Returns

open SubscriptionEngine

variable {engine : SubscriptionEngine} {firmId planId : String} {subscription : Subscription} {now : ℤ}

lemma subscription_ok : engine.get firmId = .ok subscription ↔
    engine.store.get firmId = some subscription := by
  unfold SubscriptionEngine.get
  cases engine.store.get firmId <;> simp

/-- The subscription is on the plan, the cycle and the period it was on, and it has not become active. -/
structure Stays (before after : Subscription) : Prop where
  planId : after.planId = before.planId
  billingCycle : after.billingCycle = before.billingCycle
  currentPeriodEnd : after.currentPeriodEnd = before.currentPeriodEnd
  active : after.status = .active → before.status = .active

/-- **What an operation does.**  It changes the catalog, where what is sold stays sold; it starts a trial,
activates a subscription or changes its plan; it changes something else of a subscription; or it changes
nothing. -/
inductive Change (engine : SubscriptionEngine) (now : ℤ) :
    SubscriptionOperation → SubscriptionEngine → Prop where
  | none (op : SubscriptionOperation)
      (hop : ∀ firmId billingCycle, op = .activate firmId billingCycle →
        engine.store.get firmId = .none) : Change engine now op engine
  | catalog (op : SubscriptionOperation) (plans : PlanCatalog)
      (hop : ∀ firmId billingCycle, op ≠ .activate firmId billingCycle)
      (hnumbered : Numbered engine.plans → Numbered plans)
      (hsells : ∀ planId features, Numbered engine.plans → Sells engine.plans planId features →
        Sells plans planId features) : Change engine now op { engine with plans }
  | started (firmId planId : String) (plan : Plan) (hplan : engine.plans.store.get planId = some plan) :
      Change engine now (.startTrial firmId planId)
        { engine with
          store := engine.store.save
            { id := engine.uuids, firmId, planId, startedAt := now, trialEndsAt := defaultTrialEnd now }
          uuids := engine.uuids + 1 }
  | activated (firmId : String) (billingCycle : BillingCycle) (before : Subscription)
      (hget : engine.store.get firmId = some before) :
      Change engine now (.activate firmId billingCycle)
        (engine.save { before with
          status := .active
          billingCycle
          currentPeriodEnd := some (periodEndForCycle billingCycle now) })
  | planChanged (firmId planId : String) (plan : Plan) (before : Subscription)
      (hplan : engine.plans.store.get planId = some plan)
      (hget : engine.store.get firmId = some before) :
      Change engine now (.changePlan firmId planId) (engine.save { before with planId })
  | stayed (op : SubscriptionOperation) (before after : Subscription)
      (hop : ∀ firmId billingCycle, op ≠ .activate firmId billingCycle)
      (hget : engine.store.get after.firmId = some before) (stays : Stays before after) :
      Change engine now op (engine.save after)

/-- A call that changes one subscription, which stays on its plan, its cycle and its period. -/
lemma Change.of_update (op : SubscriptionOperation) (update : Subscription → Subscription)
    (hop : ∀ firmId billingCycle, op ≠ .activate firmId billingCycle)
    (hfirm : ∀ before, (update before).firmId = before.firmId)
    (hstays : ∀ before, Stays before (update before)) (firmId : String) :
    Change engine now op (afterCall engine
      (((engine.get firmId).bind fun before =>
        .ok (update before, engine.save (update before))).map Prod.snd)) := by
  cases hget : engine.store.get firmId with
  | none =>
    rw [SubscriptionEngine.get, hget]
    exact .none op fun firmId billingCycle heq => absurd heq (hop firmId billingCycle)
  | some before =>
    rw [subscription_ok.mpr hget]
    refine .stayed op before (update before) hop ?_ (hstays before)
    rw [hfirm, Store.key_of_get hget]
    exact hget

theorem change_after (engine : SubscriptionEngine) (now : ℤ) (op : SubscriptionOperation) :
    Change engine now op (engine.after now op) := by
  cases op with
  | publish name features monthlyPriceUsd annualPriceUsd =>
    exact .catalog _ _ (fun _ _ => nofun) (fun hnumbered => hnumbered.publish _ _ _ _ _)
      fun _ _ hnumbered hsells => hsells.publish hnumbered ..
  | deactivatePlan planId =>
    rw [SubscriptionEngine.after]
    cases hcall : engine.plans.deactivate planId with
    | error e => exact .none _ (fun _ _ => nofun)
    | ok r =>
      exact .catalog _ _ (fun _ _ => nofun) (fun hnumbered => hnumbered.deactivate hcall)
        fun _ _ _ hsells => hsells.deactivate hcall
  | startTrial firmId planId =>
    rw [SubscriptionEngine.after, SubscriptionEngine.startTrial]
    cases hplan : engine.plans.get planId with
    | error e => exact .none _ (fun _ _ => nofun)
    | ok plan => exact .started firmId planId plan (get_ok.mp hplan)
  | activate firmId billingCycle =>
    cases hget : engine.store.get firmId with
    | none =>
      rw [SubscriptionEngine.after, SubscriptionEngine.activate, SubscriptionEngine.get, hget]
      refine .none _ ?_
      rintro _ _ ⟨⟩
      exact hget
    | some before =>
      rw [SubscriptionEngine.after, SubscriptionEngine.activate, subscription_ok.mpr hget]
      exact .activated firmId billingCycle before hget
  | changePlan firmId planId =>
    rw [SubscriptionEngine.after, SubscriptionEngine.changePlan]
    cases hplan : engine.plans.get planId with
    | error e => exact .none _ (fun _ _ => nofun)
    | ok plan =>
      cases hget : engine.get firmId with
      | error e => exact .none _ (fun _ _ => nofun)
      | ok before => exact .planChanged firmId planId plan before (get_ok.mp hplan) (subscription_ok.mp hget)
  | markPastDue firmId =>
    exact .of_update (.markPastDue firmId) (fun before => { before with status := .pastDue })
      (fun _ _ => nofun) (fun _ => rfl) (fun _ => ⟨rfl, rfl, rfl, nofun⟩) firmId
  | cancel firmId =>
    exact .of_update (.cancel firmId) (fun before => { before with status := .cancelled, cancelledAt := some now })
      (fun _ _ => nofun) (fun _ => rfl) (fun _ => ⟨rfl, rfl, rfl, nofun⟩) firmId
  | expire firmId =>
    exact .of_update (.expire firmId) (fun before => { before with status := .expired })
      (fun _ _ => nofun) (fun _ => rfl) (fun _ => ⟨rfl, rfl, rfl, nofun⟩) firmId
  | extendTrial firmId extraDays =>
    exact .of_update (.extendTrial firmId extraDays)
      (fun before => { before with trialEndsAt := some (before.trialEndsAt.getD now + days extraDays) })
      (fun _ _ => nofun) (fun _ => rfl) (fun _ => ⟨rfl, rfl, rfl, id⟩) firmId

end Returns

end Tmis.BusinessPlatform
