import Mathlib.Data.Finset.Basic
import Tmis.Lib.Python
import Tmis.Lib.Store

/-!
# Access policies

`identity_platform.policy_engine`: what a firm configures on top of the permissions that its roles grant.

* `Policy`, `PolicyEngine` — the policies of all firms, under the identifiers that were drawn for them;
* `Policy.refusal`, `evaluate` — what one policy says of a request, and what all of them say;
* `allowed_evaluate` — a request is allowed iff every active policy for it passes;
* `honoursDenial_iff` — the effect of a policy is never read, so a policy that denies without a
  restriction denies nobody.
-/

namespace Tmis.IdentityPlatform

open Tmis.Lib

inductive Role where
  | partner | associate | counsel | paralegal | assistant | itAdmin
  deriving DecidableEq

inductive Permission where
  | consultationValidate | aiModelRestrictedUse | exportData | strategyDraftValidate
  | workflowUseTeamRestricted | organizationManage | userManage | secretManage
  | businessPlatformManage | copilotManage | knowledgeGraphManage
  deriving DecidableEq

def Permission.value : Permission → String
  | consultationValidate => "consultation.validate"
  | aiModelRestrictedUse => "ai_model.restricted_use"
  | exportData => "export.data"
  | strategyDraftValidate => "strategy_draft.validate"
  | workflowUseTeamRestricted => "workflow.use_team_restricted"
  | organizationManage => "organization.manage"
  | userManage => "user.manage"
  | secretManage => "secret.manage"
  | businessPlatformManage => "business_platform.manage"
  | copilotManage => "copilot.manage"
  | knowledgeGraphManage => "knowledge_graph.manage"

inductive PolicyEffect where
  | allow | deny
  deriving DecidableEq

structure Policy where
  id : Uuid
  firmId : String
  permission : Permission
  effect : PolicyEffect := .deny
  allowedRoles : Finset Role := ∅
  deniedRoles : Finset Role := ∅
  restrictedToTeamId : Option String := none
  requiresSecondValidation : Bool := false
  reason : String := ""
  active : Bool := true
  deriving DecidableEq

structure PolicyDecision where
  allowed : Bool
  reason : String := ""
  requiresSecondValidation : Bool := false
  deriving DecidableEq

/-- `InMemoryPolicyStore`. -/
abbrev PolicyStore := Store Uuid Policy Policy.id

/-- `list_for_permission`. -/
def PolicyStore.listForPermission (store : PolicyStore) (firmId : String) (permission : Permission) :
    List Policy :=
  store.values.filter fun p => p.firmId = firmId ∧ p.permission = permission ∧ p.active

/-- `PolicyEngine` with its store; identifiers from `uuids` on were not drawn yet. -/
structure PolicyEngine where
  store : PolicyStore := ∅
  uuids : ℕ := 0
  fresh : store.Below uuids := by exact Store.below_empty _

/-- An engine without policies. -/
def PolicyEngine.empty : PolicyEngine := {}

/-! ### Evaluating -/

section Evaluate

variable (permission : Permission) (roles : List Role) (teamId : Option String)

/-- What a policy denies a request with, if it does. -/
def Policy.refusal (policy : Policy) : Option String :=
  let reasonOr (text : String) := if policy.reason = "" then text else policy.reason
  if policy.deniedRoles ≠ ∅ ∧ ∃ r ∈ roles, r ∈ policy.deniedRoles then
    some (reasonOr ("rôle refusé pour " ++ permission.value))
  else if policy.allowedRoles ≠ ∅ ∧ ¬ ∃ r ∈ roles, r ∈ policy.allowedRoles then
    some (reasonOr ("rôle non autorisé pour " ++ permission.value))
  else if policy.restrictedToTeamId ≠ none ∧ policy.restrictedToTeamId ≠ teamId then
    some (reasonOr "réservé à une équipe spécifique")
  else none

/-- The loop of `evaluate` over the policies. -/
def evaluatePolicies : Bool → List Policy → PolicyDecision
  | requiresSecondValidation, [] => { allowed := true, requiresSecondValidation }
  | requiresSecondValidation, policy :: policies =>
      match policy.refusal permission roles teamId with
      | some reason => { allowed := false, reason }
      | none => evaluatePolicies (requiresSecondValidation || policy.requiresSecondValidation) policies

end Evaluate

/-- `PolicyEngine.evaluate`, of the policies in the store. -/
def PolicyStore.evaluate (store : PolicyStore) (firmId : String) (permission : Permission)
    (roles : List Role) (teamId : Option String) : PolicyDecision :=
  evaluatePolicies permission roles teamId false (store.listForPermission firmId permission)

/-- `PolicyEngine.create`. -/
def PolicyEngine.create (engine : PolicyEngine) (firmId : String) (permission : Permission)
    (effect : PolicyEffect) (allowedRoles deniedRoles : Finset Role) (restrictedToTeamId : Option String)
    (requiresSecondValidation : Bool) (reason : String) : Policy × PolicyEngine :=
  let policy : Policy :=
    { id := engine.uuids, firmId, permission, effect, allowedRoles, deniedRoles, restrictedToTeamId,
      requiresSecondValidation, reason }
  (policy,
    { store := engine.store.save policy
      uuids := engine.uuids + 1
      fresh := (engine.fresh.mono (Nat.le_succ _)).save (Nat.lt_succ_self _) })

/-! ### What the policies decide -/

/-- The policy has nothing against a request of somebody with these roles, in this team. -/
structure Policy.Passes (policy : Policy) (roles : List Role) (teamId : Option String) : Prop where
  notDenied : ∀ r ∈ roles, r ∉ policy.deniedRoles
  allowed : policy.allowedRoles = ∅ ∨ ∃ r ∈ roles, r ∈ policy.allowedRoles
  team : policy.restrictedToTeamId = none ∨ policy.restrictedToTeamId = teamId

section Decide

variable {permission : Permission} {roles : List Role} {teamId : Option String} {policy : Policy}

instance : Decidable (policy.Passes roles teamId) :=
  decidable_of_iff ((∀ r ∈ roles, r ∉ policy.deniedRoles) ∧
      (policy.allowedRoles = ∅ ∨ ∃ r ∈ roles, r ∈ policy.allowedRoles) ∧
      (policy.restrictedToTeamId = none ∨ policy.restrictedToTeamId = teamId))
    ⟨fun h => ⟨h.1, h.2.1, h.2.2⟩, fun h => ⟨h.notDenied, h.allowed, h.team⟩⟩

/-- None of three tests applies. -/
lemma firstOf_eq_none {α : Type*} {a b c : Prop} [Decidable a] [Decidable b] [Decidable c] {x y z : α} :
    (if a then some x else if b then some y else if c then some z else none) = none ↔
      ¬ a ∧ ¬ b ∧ ¬ c := by
  split_ifs <;> simp [*]

lemma refusal_eq_none : policy.refusal permission roles teamId = none ↔ policy.Passes roles teamId := by
  have hdenied : ¬ (policy.deniedRoles ≠ ∅ ∧ ∃ r ∈ roles, r ∈ policy.deniedRoles) ↔
      ∀ r ∈ roles, r ∉ policy.deniedRoles := by
    constructor
    · exact fun h r hr hmem => h ⟨Finset.ne_empty_of_mem hmem, r, hr, hmem⟩
    · rintro h ⟨-, r, hr, hmem⟩
      exact h r hr hmem
  have hallowed : ¬ (policy.allowedRoles ≠ ∅ ∧ ¬ ∃ r ∈ roles, r ∈ policy.allowedRoles) ↔
      policy.allowedRoles = ∅ ∨ ∃ r ∈ roles, r ∈ policy.allowedRoles := by
    rw [not_and_or, not_not, not_not]
  have hteam : ¬ (policy.restrictedToTeamId ≠ none ∧ policy.restrictedToTeamId ≠ teamId) ↔
      policy.restrictedToTeamId = none ∨ policy.restrictedToTeamId = teamId := by
    rw [not_and_or, not_not, not_not]
  calc policy.refusal permission roles teamId = none
      ↔ ¬ (policy.deniedRoles ≠ ∅ ∧ ∃ r ∈ roles, r ∈ policy.deniedRoles) ∧
        ¬ (policy.allowedRoles ≠ ∅ ∧ ¬ ∃ r ∈ roles, r ∈ policy.allowedRoles) ∧
        ¬ (policy.restrictedToTeamId ≠ none ∧ policy.restrictedToTeamId ≠ teamId) := by
          exact firstOf_eq_none
    _ ↔ policy.Passes roles teamId := by
          rw [hdenied, hallowed, hteam]
          exact ⟨fun h => ⟨h.1, h.2.1, h.2.2⟩, fun h => ⟨h.notDenied, h.allowed, h.team⟩⟩

/-- The loop allows a request iff every policy passes, and asks for a second validation iff it allows the
request and a policy does, or one before did. -/
lemma evaluatePolicies_spec : ∀ (second : Bool) (policies : List Policy),
    ((evaluatePolicies permission roles teamId second policies).allowed = true ↔
      ∀ p ∈ policies, p.Passes roles teamId) ∧
    ((evaluatePolicies permission roles teamId second policies).requiresSecondValidation = true ↔
      (∀ p ∈ policies, p.Passes roles teamId) ∧
        (second = true ∨ ∃ p ∈ policies, p.requiresSecondValidation = true))
  | second, [] => by simp [evaluatePolicies]
  | second, policy :: policies => by
      have hpasses : policy.refusal permission roles teamId = none ↔ policy.Passes roles teamId :=
        refusal_eq_none
      unfold evaluatePolicies
      cases hrefusal : policy.refusal permission roles teamId with
      | some reason =>
          have hnot : ¬ policy.Passes roles teamId := fun h => by
            rw [hpasses.mpr h] at hrefusal
            cases hrefusal
          simp [hnot]
      | none =>
          obtain ⟨hallowed, hsecond⟩ :=
            evaluatePolicies_spec (second || policy.requiresSecondValidation) policies
          simp [hallowed, hsecond, hpasses.mp hrefusal, or_assoc]

/-- The text of a denial is that of a policy which does not pass. -/
lemma evaluatePolicies_reason : ∀ {second : Bool} {policies : List Policy},
    (evaluatePolicies permission roles teamId second policies).allowed = false →
      ∃ p ∈ policies, p.refusal permission roles teamId =
        some (evaluatePolicies permission roles teamId second policies).reason
  | _, [], h => by simp [evaluatePolicies] at h
  | second, policy :: policies, h => by
      unfold evaluatePolicies at h ⊢
      cases hrefusal : policy.refusal permission roles teamId with
      | some reason => exact ⟨policy, List.mem_cons_self, hrefusal⟩
      | none =>
          rw [hrefusal] at h
          obtain ⟨p, hp, hreason⟩ := evaluatePolicies_reason h
          exact ⟨p, List.mem_cons_of_mem _ hp, hreason⟩

variable {store : PolicyStore} {firmId : String}

/-- The policy is in force for a permission of the firm. -/
def Policy.AppliesTo (policy : Policy) (firmId : String) (permission : Permission) : Prop :=
  policy.firmId = firmId ∧ policy.permission = permission ∧ policy.active = true

instance : Decidable (policy.AppliesTo firmId permission) := by
  unfold Policy.AppliesTo
  infer_instance

lemma mem_listForPermission :
    policy ∈ store.listForPermission firmId permission ↔
      store.get policy.id = some policy ∧ policy.AppliesTo firmId permission := by
  simp only [PolicyStore.listForPermission, List.mem_filter, Store.mem_values_iff, Policy.AppliesTo,
    decide_eq_true_eq]

/-- **A request is allowed** iff every active policy for it passes. -/
theorem allowed_evaluate : (store.evaluate firmId permission roles teamId).allowed = true ↔
    ∀ id p, store.get id = some p → p.AppliesTo firmId permission → p.Passes roles teamId := by
  rw [PolicyStore.evaluate, (evaluatePolicies_spec false _).1]
  constructor
  · intro h id p hget happlies
    exact h p (mem_listForPermission.mpr ⟨Store.key_of_get hget ▸ hget, happlies⟩)
  · intro h p hp
    obtain ⟨hget, happlies⟩ := mem_listForPermission.mp hp
    exact h p.id p hget happlies

/-- It needs a second validation iff it is allowed and one of these policies says so. -/
theorem requiresSecondValidation_evaluate :
    (store.evaluate firmId permission roles teamId).requiresSecondValidation = true ↔
      (store.evaluate firmId permission roles teamId).allowed = true ∧
        ∃ id p, store.get id = some p ∧ p.AppliesTo firmId permission ∧
          p.requiresSecondValidation = true := by
  rw [PolicyStore.evaluate, (evaluatePolicies_spec false _).2, (evaluatePolicies_spec false _).1]
  refine and_congr_right fun _ => ?_
  rw [or_iff_right Bool.false_ne_true]
  constructor
  · rintro ⟨p, hp, hsecond⟩
    obtain ⟨hget, happlies⟩ := mem_listForPermission.mp hp
    exact ⟨p.id, p, hget, happlies, hsecond⟩
  · rintro ⟨id, p, hget, happlies, hsecond⟩
    exact ⟨p, mem_listForPermission.mpr ⟨Store.key_of_get hget ▸ hget, happlies⟩, hsecond⟩

end Decide

/-! ### Explicit denials -/

/-- The policy denies, and nothing else is said of whom. -/
structure Policy.IsExplicitDenial (policy : Policy) : Prop where
  effect : policy.effect = .deny
  allowedRoles : policy.allowedRoles = ∅
  deniedRoles : policy.deniedRoles = ∅
  team : policy.restrictedToTeamId = none
  second : policy.requiresSecondValidation = false

/-- The policy has no restriction, so it passes, whatever its effect is. -/
lemma Policy.IsExplicitDenial.passes {policy : Policy} (h : policy.IsExplicitDenial) (effect : PolicyEffect)
    (roles : List Role) (teamId : Option String) : Policy.Passes { policy with effect } roles teamId where
  notDenied r _ hmem := Finset.notMem_empty r (h.deniedRoles ▸ hmem)
  allowed := Or.inl h.allowedRoles
  team := Or.inl h.team

/-- The store denies a request that an explicit denial is in force for, and if that policy allowed
instead, it would deny it iff another policy does. -/
def HonoursDenial (store : PolicyStore) (firmId : String) (permission : Permission) (roles : List Role)
    (teamId : Option String) : Prop :=
  ∀ id p, store.get id = some p → p.AppliesTo firmId permission → p.IsExplicitDenial →
    (store.evaluate firmId permission roles teamId).allowed = false ∧
    ((PolicyStore.evaluate (store.save { p with effect := .allow }) firmId permission roles
        teamId).allowed = true ↔
      ∀ id' q, id' ≠ id → store.get id' = some q → q.AppliesTo firmId permission →
        q.Passes roles teamId)

section Denial

variable {store : PolicyStore} {firmId : String} {permission : Permission} {roles : List Role}
  {teamId : Option String} {id : Uuid} {p : Policy}

/-- Nobody is denied by the policy once it allows. -/
lemma allowed_save_allow (hget : store.get id = some p) (h : p.IsExplicitDenial) :
    (PolicyStore.evaluate (store.save { p with effect := .allow }) firmId permission roles
        teamId).allowed = true ↔
      ∀ id' q, id' ≠ id → store.get id' = some q → q.AppliesTo firmId permission →
        q.Passes roles teamId := by
  have hid : p.id = id := Store.key_of_get hget
  rw [allowed_evaluate]
  constructor
  · intro hall id' q hne hq happlies
    refine hall id' q ?_ happlies
    rw [Store.get_save, if_neg (hid.symm ▸ hne), hq]
  · intro hall id' q hq happlies
    rcases Store.get_save_cases hq with ⟨-, rfl⟩ | ⟨hne, hq⟩
    · exact h.passes .allow roles teamId
    · exact hall id' q (fun heq => hne (heq.trans hid.symm)) hq happlies

/-- **Explicit denials** are honoured iff there is none, or a policy with a restriction denies the
request. -/
theorem honoursDenial_iff (store : PolicyStore) (firmId : String) (permission : Permission)
    (roles : List Role) (teamId : Option String) :
    HonoursDenial store firmId permission roles teamId ↔
      (∀ id p, store.get id = some p → p.AppliesTo firmId permission → ¬ p.IsExplicitDenial) ∨
      ∃ id q, store.get id = some q ∧ q.AppliesTo firmId permission ∧ ¬ q.Passes roles teamId := by
  have hdenied : (store.evaluate firmId permission roles teamId).allowed = false ↔
      ∃ id q, store.get id = some q ∧ q.AppliesTo firmId permission ∧ ¬ q.Passes roles teamId := by
    rw [← Bool.not_eq_true, allowed_evaluate]
    push Not
    rfl
  rw [← hdenied]
  constructor
  · intro h
    by_cases hallowed : (store.evaluate firmId permission roles teamId).allowed = false
    · exact Or.inr hallowed
    · exact Or.inl fun id p hget happlies hdenial => hallowed (h id p hget happlies hdenial).1
  · rintro (hnone | hfalse) id p hget happlies hdenial
    · exact absurd hdenial (hnone id p hget happlies)
    · exact ⟨hfalse, allowed_save_allow hget hdenial⟩

end Denial

/-- The policy a firm creates to stop all exports. -/
def noExports : PolicyEngine :=
  (({} : PolicyEngine).create "firm-1" .exportData .deny ∅ ∅ none false "").2

theorem export_allowed :
    (noExports.store.evaluate "firm-1" .exportData [.partner] none).allowed = true ∧
    ¬ HonoursDenial noExports.store "firm-1" .exportData [.partner] none := by
  have hallowed : (noExports.store.evaluate "firm-1" .exportData [.partner] none).allowed = true := by
    decide
  refine ⟨hallowed, fun h => ?_⟩
  have hdenied := (h 0 { id := 0, firmId := "firm-1", permission := .exportData } (by decide) (by decide)
    ⟨rfl, rfl, rfl, rfl, rfl⟩).1
  exact Bool.noConfusion (hallowed.symm.trans hdenied)

end Tmis.IdentityPlatform
