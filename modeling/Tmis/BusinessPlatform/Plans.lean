import Mathlib.Data.Finset.Basic
import Mathlib.Data.List.Sort
import Mathlib.Data.Rat.Defs
import Tmis.Lib.Calls
import Tmis.Lib.Store

/-!
# Plans

`business_platform.plans`: the catalog of commercial plans, in versions.  A new version never writes over
one that was sold before.

* `PlanCatalog.publish`, `deactivate`, `get` — the calls;
* `Sells` — what a subscription relies on: a plan is there, with its features;
* `newPlanId_inj`, `Numbered.publish_new` — a version that is published stands where no other one stood;
* `Sells.publish`, `Sells.deactivate` — what was sold stays sold.
-/

namespace Tmis.BusinessPlatform

open Tmis.Lib

inductive PlanName where
  | trial | basic | professional | business | enterprise
  deriving DecidableEq

def PlanName.value : PlanName → String
  | trial => "trial"
  | basic => "basic"
  | professional => "professional"
  | business => "business"
  | enterprise => "enterprise"

def newPlanId (name : PlanName) (version : ℕ) : String := "plan-" ++ name.value ++ "-v" ++ toString version

structure Plan where
  id : String
  name : PlanName
  version : ℕ
  features : Finset String := ∅
  monthlyPriceUsd : ℚ := 0
  annualPriceUsd : ℚ := 0
  active : Bool := true
  createdAt : ℤ

/-- The catalog, with its store. -/
structure PlanCatalog where
  store : Store String Plan Plan.id := ∅

namespace PlanCatalog

variable (catalog : PlanCatalog)

/-- `InMemoryPlanStore.list_versions`. -/
def listVersions (name : PlanName) : List Plan :=
  (catalog.store.values.filter (·.name = name)).insertionSort fun p q => p.version ≤ q.version

/-- The version that is published next. -/
def nextVersion (name : PlanName) : ℕ :=
  match (catalog.listVersions name).getLast? with
  | some last => last.version + 1
  | none => 1

def publish (name : PlanName) (features : Finset String) (monthlyPriceUsd annualPriceUsd : ℚ) (now : ℤ) :
    Plan × PlanCatalog :=
  let plan : Plan :=
    { id := newPlanId name (catalog.nextVersion name)
      name
      version := catalog.nextVersion name
      features
      monthlyPriceUsd
      annualPriceUsd
      createdAt := now }
  (plan, { catalog with store := catalog.store.save plan })

def get (planId : String) : Except PyException Plan :=
  match catalog.store.get planId with
  | none => .error (keyError planId)
  | some plan => .ok plan

def deactivate (planId : String) : Except PyException (Plan × PlanCatalog) := do
  let plan ← catalog.get planId
  let updated := { plan with active := false }
  return (updated, { catalog with store := catalog.store.save updated })

end PlanCatalog

/-! ### Versions -/

section Versions

variable {catalog : PlanCatalog} {planId : String} {plan : Plan} {name : PlanName}

lemma value_append_inj {name name' : PlanName} {s s' : String}
    (h : name.value ++ "-v" ++ s = name'.value ++ "-v" ++ s') : name = name' ∧ s = s' := by
  have hchars := congrArg String.toList h
  cases name <;> cases name' <;> simp [PlanName.value] at hchars <;> simp_all

/-- A plan is known by its name and its version. -/
theorem newPlanId_inj {version version' : ℕ} {name' : PlanName}
    (h : newPlanId name version = newPlanId name' version') : name = name' ∧ version = version' := by
  simp only [newPlanId, String.append_assoc, String.append_right_inj] at h
  obtain ⟨rfl, hversion⟩ := value_append_inj (by simpa only [String.append_assoc] using h)
  exact ⟨rfl, toString_nat_inj hversion⟩

lemma get_ok : catalog.get planId = .ok plan ↔ catalog.store.get planId = some plan := by
  unfold PlanCatalog.get
  cases catalog.store.get planId <;> simp

/-- The version that is published next is above all the others. -/
lemma lt_nextVersion (hplan : plan ∈ catalog.store.values) :
    plan.version < catalog.nextVersion plan.name := by
  have hsorted := List.pairwise_insertionSort (fun p q : Plan => p.version ≤ q.version)
    (catalog.store.values.filter (·.name = plan.name))
  have hmem : plan ∈ catalog.listVersions plan.name :=
    (List.mem_insertionSort _).mpr (List.mem_filter.mpr ⟨hplan, decide_eq_true rfl⟩)
  change (catalog.listVersions plan.name).Pairwise _ at hsorted
  unfold PlanCatalog.nextVersion
  generalize catalog.listVersions plan.name = versions at hsorted hmem ⊢
  induction versions using List.reverseRecOn with
  | nil => cases hmem
  | append_singleton versions last _ =>
    rw [List.getLast?_concat]
    rcases List.mem_append.mp hmem with hmem | hmem
    · exact Nat.lt_succ_of_le ((List.pairwise_append.mp hsorted).2.2 plan hmem last
        (List.mem_singleton_self last))
    · rw [List.mem_singleton.mp hmem]
      exact Nat.lt_succ_self _

/-- The plans of the catalog stand under their names and versions. -/
def Numbered (catalog : PlanCatalog) : Prop :=
  ∀ id plan, catalog.store.get id = some plan → id = newPlanId plan.name plan.version

/-- **A version that is published is new.** -/
theorem Numbered.publish_new (h : Numbered catalog) (name : PlanName) :
    catalog.store.get (newPlanId name (catalog.nextVersion name)) = none := by
  cases hget : catalog.store.get (newPlanId name (catalog.nextVersion name)) with
  | none => rfl
  | some plan =>
    obtain ⟨rfl, hversion⟩ := newPlanId_inj (h _ plan hget)
    have hlt := lt_nextVersion (Store.mem_values_of_get hget)
    exact absurd hversion hlt.ne'

lemma Numbered.publish (h : Numbered catalog) (name : PlanName) (features : Finset String)
    (monthlyPriceUsd annualPriceUsd : ℚ) (now : ℤ) :
    Numbered (catalog.publish name features monthlyPriceUsd annualPriceUsd now).2 := by
  intro id plan hget
  obtain ⟨rfl, rfl⟩ | ⟨-, hget⟩ := Store.get_save_cases hget
  · rfl
  · exact h id plan hget

/-! ### What is sold stays sold -/

/-- The catalog has a plan with these features under an identifier. -/
def Sells (catalog : PlanCatalog) (planId : String) (features : Finset String) : Prop :=
  ∃ plan, catalog.store.get planId = some plan ∧ plan.features = features

variable {features : Finset String}

theorem Sells.publish (h : Sells catalog planId features) (hnumbered : Numbered catalog)
    (name : PlanName) (features' : Finset String) (monthlyPriceUsd annualPriceUsd : ℚ) (now : ℤ) :
    Sells (catalog.publish name features' monthlyPriceUsd annualPriceUsd now).2 planId features := by
  obtain ⟨plan, hget, hfeatures⟩ := h
  refine ⟨plan, (Store.get_save ..).trans ((if_neg ?_).trans hget), hfeatures⟩
  rintro rfl
  have hnew := hnumbered.publish_new name
  rw [show catalog.store.get (newPlanId name (catalog.nextVersion name)) = some plan from hget] at hnew
  cases hnew

lemma deactivate_ok {r : Plan × PlanCatalog} : catalog.deactivate planId = .ok r ↔
    ∃ plan, catalog.store.get planId = some plan ∧
      r = ({ plan with active := false }, { catalog with
        store := catalog.store.save { plan with active := false } }) := by
  simp only [PlanCatalog.deactivate, bind_eq_ok, pure_eq_ok, get_ok]
  exact exists_congr fun plan => and_congr_right fun _ => eq_comm

lemma Numbered.deactivate (h : Numbered catalog) {r : Plan × PlanCatalog}
    (hr : catalog.deactivate planId = .ok r) : Numbered r.2 := by
  obtain ⟨plan, hget, rfl⟩ := deactivate_ok.mp hr
  intro id plan' hget'
  obtain ⟨rfl, rfl⟩ | ⟨-, hget'⟩ := Store.get_save_cases hget'
  · exact (Store.key_of_get hget).trans (h planId plan hget)
  · exact h id plan' hget'

theorem Sells.deactivate {planId' : String} (h : Sells catalog planId features)
    {r : Plan × PlanCatalog} (hr : catalog.deactivate planId' = .ok r) : Sells r.2 planId features := by
  obtain ⟨plan, hget, hfeatures⟩ := h
  obtain ⟨plan', hget', rfl⟩ := deactivate_ok.mp hr
  obtain rfl := Store.key_of_get hget'
  by_cases hid : planId = plan'.id
  · subst hid
    obtain rfl := Option.some.inj (hget.symm.trans hget')
    exact ⟨_, Store.get_save_self .., hfeatures⟩
  · exact ⟨plan, (Store.get_save ..).trans ((if_neg hid).trans hget), hfeatures⟩

end Versions

end Tmis.BusinessPlatform
