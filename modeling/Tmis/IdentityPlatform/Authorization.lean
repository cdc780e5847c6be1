import Mathlib.Data.Finset.Insert
import Mathlib.Data.Finset.SDiff
import Tmis.IdentityPlatform.Policies
import Tmis.Lib.PySet

/-!
# The authorization engine

`identity_platform.authorization`: the permissions that roles grant, conditions on attributes, and the
policies of the firm, each of which may deny what the one before it allowed.

* `RoleEngine`, `RbacEngine`, `AbacEngine` — the engines under it;
* `check` — the decision on a request, and `allowed_check` what it is;
* `Registration`, `register` — a rule or a policy is added;
* `check_conjunction` — decisions depend on what was registered, not on the order, and every
  registration makes them stricter.
-/

namespace Tmis.IdentityPlatform

open Tmis.Lib

/-! ### Roles -/

/-- `RoleEngine` with its store.  The roles of a user are listed in the order of their assignments; no
caller looks at the order. -/
structure RoleEngine where
  assignments : PySet (String × String × Role) := ∅

namespace RoleEngine

def assign (engine : RoleEngine) (firmId userId : String) (role : Role) : RoleEngine :=
  ⟨engine.assignments.add (firmId, userId, role)⟩

def revoke (engine : RoleEngine) (firmId userId : String) (role : Role) : RoleEngine :=
  ⟨engine.assignments.discard (firmId, userId, role)⟩

def rolesForUser (engine : RoleEngine) (firmId userId : String) : List Role :=
  (engine.assignments.elems.filter fun a => a.1 = firmId ∧ a.2.1 = userId).map (·.2.2)

end RoleEngine

/-- The permissions of each role. -/
abbrev Matrix := Dict Role (Finset Permission)

/-- `DEFAULT_ROLE_PERMISSIONS`. -/
def defaultRolePermissions : Matrix :=
  ((∅ : Matrix).set .partner {.consultationValidate, .aiModelRestrictedUse, .exportData,
      .strategyDraftValidate, .workflowUseTeamRestricted, .organizationManage, .userManage,
      .businessPlatformManage, .copilotManage, .knowledgeGraphManage}).set
    .associate {.exportData, .workflowUseTeamRestricted, .knowledgeGraphManage} |>.set
    .counsel {.exportData} |>.set
    .paralegal ∅ |>.set
    .assistant ∅ |>.set
    .itAdmin {.organizationManage, .secretManage, .businessPlatformManage, .copilotManage,
      .knowledgeGraphManage}

structure RbacEngine where
  matrix : Matrix := defaultRolePermissions

namespace RbacEngine

def permissionsFor (engine : RbacEngine) (role : Role) : Finset Permission :=
  (engine.matrix.get role).getD ∅

def grant (engine : RbacEngine) (role : Role) (permission : Permission) : RbacEngine :=
  ⟨engine.matrix.set role (engine.permissionsFor role ∪ {permission})⟩

def revoke (engine : RbacEngine) (role : Role) (permission : Permission) : RbacEngine :=
  ⟨engine.matrix.set role (engine.permissionsFor role \ {permission})⟩

def hasPermission (engine : RbacEngine) (roles : List Role) (permission : Permission) : Bool :=
  roles.any fun role => permission ∈ engine.permissionsFor role

end RbacEngine

/-! ### Attributes -/

structure IdentityContext where
  userId : String
  firmId : String
  specialty : String := ""
  experienceLevel : String := ""
  seniorityYears : ℤ := 0
  teamId : Option String := none
  departmentId : Option String := none
  language : String := "fr"
  writingPreferences : Dict String String := ∅
  allowedAiModels : List String := []
  canValidate : Bool := false
  applicablePolicyIds : List String := []

structure AbacAttributes where
  departmentId : Option String := none
  caseId : Option String := none
  clientId : Option String := none
  confidentialityLevel : String := "standard"
  context : String := ""

/-- An `AbacRulePort`. -/
abbrev AbacRule := IdentityContext → AbacAttributes → Bool

/-- `MinimumSeniorityRule`. -/
def minimumSeniorityRule (minYears : ℤ) : AbacRule := fun identity _ => minYears ≤ identity.seniorityYears

/-- `_CONFIDENTIALITY_RANK`. -/
def confidentialityRank : Dict String ℤ :=
  (((∅ : Dict String ℤ).set "standard" 0).set "confidential" 1).set "privileged" 2

/-- `ConfidentialityRule`. -/
def confidentialityRule (minExperienceRank : Dict String ℤ) : AbacRule := fun identity attributes =>
  let requiredRank := (confidentialityRank.get attributes.confidentialityLevel).getD 0
  let actualRank := (minExperienceRank.get identity.experienceLevel).getD 0
  requiredRank ≤ actualRank

/-- `SameDepartmentRule`. -/
def sameDepartmentRule : AbacRule := fun identity attributes =>
  match attributes.departmentId with
  | none => true
  | some departmentId => identity.departmentId = some departmentId

structure AbacEngine where
  rules : List AbacRule := []

namespace AbacEngine

def register (engine : AbacEngine) (rule : AbacRule) : AbacEngine := ⟨engine.rules ++ [rule]⟩

def evaluate (engine : AbacEngine) (identity : IdentityContext) (attributes : AbacAttributes) : Bool :=
  engine.rules.all fun rule => rule identity attributes

end AbacEngine

/-! ### Authorization -/

structure AuthorizationDecision where
  allowed : Bool
  reason : String := ""
  requiresSecondValidation : Bool := false
  deriving DecidableEq

structure AuthorizationEngine where
  roles : RoleEngine := {}
  rbac : RbacEngine := {}
  abac : AbacEngine := {}
  policies : PolicyEngine := .empty

namespace AuthorizationEngine

def check (engine : AuthorizationEngine) (identity : IdentityContext) (permission : Permission)
    (attributes : Option AbacAttributes) : AuthorizationDecision :=
  let attributes := attributes.getD {}
  let roles := engine.roles.rolesForUser identity.firmId identity.userId
  if engine.rbac.hasPermission roles permission = false then
    { allowed := false
      reason := "aucun rôle de " ++ pyRepr identity.userId ++ " n'accorde " ++ permission.value }
  else if engine.abac.evaluate identity attributes = false then
    { allowed := false, reason := "condition d'accès contextuelle (ABAC) non satisfaite" }
  else
    let policyDecision :=
      engine.policies.store.evaluate identity.firmId permission roles identity.teamId
    if policyDecision.allowed = false then { allowed := false, reason := policyDecision.reason }
    else
      { allowed := true, requiresSecondValidation := policyDecision.requiresSecondValidation }

section Check

variable {engine : AuthorizationEngine} {identity : IdentityContext} {permission : Permission}
  {attributes : Option AbacAttributes}

/-- The roles of the one who asks. -/
def rolesOf (engine : AuthorizationEngine) (identity : IdentityContext) : List Role :=
  engine.roles.rolesForUser identity.firmId identity.userId

/-- What `check` allows, and when it asks for a second validation, by what the three engines say. -/
lemma check_spec :
    ((engine.check identity permission attributes).allowed = true ↔
      engine.rbac.hasPermission (engine.rolesOf identity) permission = true ∧
      engine.abac.evaluate identity (attributes.getD {}) = true ∧
      (engine.policies.store.evaluate identity.firmId permission (engine.rolesOf identity)
        identity.teamId).allowed = true) ∧
    ((engine.check identity permission attributes).requiresSecondValidation = true ↔
      (engine.check identity permission attributes).allowed = true ∧
      (engine.policies.store.evaluate identity.firmId permission (engine.rolesOf identity)
        identity.teamId).requiresSecondValidation = true) := by
  unfold check rolesOf
  dsimp only
  split_ifs <;> simp_all

/-- **A request is allowed** iff a role grants the permission, every rule holds, and every active policy
of the firm for the permission passes. -/
theorem allowed_check : (engine.check identity permission attributes).allowed = true ↔
    (∃ role ∈ engine.rolesOf identity, permission ∈ engine.rbac.permissionsFor role) ∧
    (∀ rule ∈ engine.abac.rules, rule identity (attributes.getD {}) = true) ∧
    ∀ id p, engine.policies.store.get id = some p → p.AppliesTo identity.firmId permission →
      p.Passes (engine.rolesOf identity) identity.teamId := by
  rw [check_spec.1, allowed_evaluate, RbacEngine.hasPermission, List.any_eq_true, AbacEngine.evaluate,
    List.all_eq_true]
  simp only [decide_eq_true_eq]

/-- It needs a second validation iff it is allowed and one of these policies says so. -/
theorem requiresSecondValidation_check :
    (engine.check identity permission attributes).requiresSecondValidation = true ↔
      (engine.check identity permission attributes).allowed = true ∧
        ∃ id p, engine.policies.store.get id = some p ∧ p.AppliesTo identity.firmId permission ∧
          p.requiresSecondValidation = true := by
  rw [check_spec.2, requiresSecondValidation_evaluate]
  refine and_congr_right fun hallowed => ?_
  rw [and_iff_right (check_spec.1.mp hallowed).2.2]

/-- The text of a denial tells which of the three engines denies, and a policy that does not pass. -/
theorem reason_check (h : (engine.check identity permission attributes).allowed = false) :
    (engine.rbac.hasPermission (engine.rolesOf identity) permission = false ∧
      (engine.check identity permission attributes).reason =
        "aucun rôle de " ++ pyRepr identity.userId ++ " n'accorde " ++ permission.value) ∨
    (engine.abac.evaluate identity (attributes.getD {}) = false ∧
      (engine.check identity permission attributes).reason =
        "condition d'accès contextuelle (ABAC) non satisfaite") ∨
    ∃ id p, engine.policies.store.get id = some p ∧ p.AppliesTo identity.firmId permission ∧
      p.refusal permission (engine.rolesOf identity) identity.teamId =
        some (engine.check identity permission attributes).reason := by
  unfold check at h ⊢
  dsimp only at h ⊢
  split_ifs at h ⊢ with hrbac habac hpolicy
  · exact Or.inl ⟨hrbac, rfl⟩
  · exact Or.inr (Or.inl ⟨habac, rfl⟩)
  · obtain ⟨p, hp, hreason⟩ := evaluatePolicies_reason hpolicy
    obtain ⟨hget, happlies⟩ := mem_listForPermission.mp hp
    exact Or.inr (Or.inr ⟨p.id, p, hget, happlies, hreason⟩)

end Check

/-! ### Registering -/

/-- A rule or a policy that is registered.  A policy stands for the arguments of the call: it gets an
identifier of its own, and is active. -/
inductive Registration where
  | rule (holds : AbacRule)
  | policy (policy : Policy)

def register (engine : AuthorizationEngine) : Registration → AuthorizationEngine
  | .rule holds => { engine with abac := engine.abac.register holds }
  | .policy p =>
      { engine with policies := (engine.policies.create p.firmId p.permission p.effect p.allowedRoles
          p.deniedRoles p.restrictedToTeamId p.requiresSecondValidation p.reason).2 }

/-- The registration is a policy for the permission of the firm. -/
def Registration.Concerns (identity : IdentityContext) (permission : Permission) (p : Policy) : Prop :=
  p.firmId = identity.firmId ∧ p.permission = permission

/-- What is registered has nothing against the request. -/
def Registration.Admits (identity : IdentityContext) (permission : Permission)
    (attributes : AbacAttributes) (roles : List Role) : Registration → Prop
  | .rule holds => holds identity attributes = true
  | .policy p => Concerns identity permission p → p.Passes roles identity.teamId

/-- What is registered asks for a second validation. -/
def Registration.Demands (identity : IdentityContext) (permission : Permission) : Registration → Prop
  | .rule _ => False
  | .policy p => Concerns identity permission p ∧ p.requiresSecondValidation = true

/-- A policy in force for the request asks for a second validation. -/
def Demands (engine : AuthorizationEngine) (identity : IdentityContext) (permission : Permission) : Prop :=
  ∃ id p, engine.policies.store.get id = some p ∧ p.AppliesTo identity.firmId permission ∧
    p.requiresSecondValidation = true

section Register

variable {identity : IdentityContext} {permission : Permission} {attributes : Option AbacAttributes}

/-- What is in the store after a policy was created: it, under a new identifier, and what was there. -/
lemma get_create_iff (engine : PolicyEngine) (p q : Policy) (id : Uuid) :
    (engine.create p.firmId p.permission p.effect p.allowedRoles p.deniedRoles p.restrictedToTeamId
        p.requiresSecondValidation p.reason).2.store.get id = some q ↔
      (id = engine.uuids ∧ q = { p with id := engine.uuids, active := true }) ∨
        engine.store.get id = some q := by
  have hfree : engine.store.get engine.uuids = none := engine.fresh.get_eq_none le_rfl
  simp only [PolicyEngine.create, Store.get_save]
  by_cases hid : id = engine.uuids
  · subst hid
    simp [hfree, eq_comm]
  · simp [hid]

/-- **One registration** makes a decision stricter by what is registered. -/
lemma allowed_register (engine : AuthorizationEngine) (registration : Registration) :
    ((engine.register registration).check identity permission attributes).allowed = true ↔
      (engine.check identity permission attributes).allowed = true ∧
      registration.Admits identity permission (attributes.getD {}) (engine.rolesOf identity) := by
  cases registration with
  | rule rule =>
    simp only [allowed_check, register, rolesOf, AbacEngine.register, Registration.Admits,
      List.forall_mem_append, List.forall_mem_singleton]
    tauto
  | policy p =>
    simp only [allowed_check, register, rolesOf, get_create_iff, Registration.Admits,
      Registration.Concerns]
    constructor
    · rintro ⟨hrole, hrules, hpolicies⟩
      refine ⟨⟨hrole, hrules, fun id q hq => hpolicies id q (Or.inr hq)⟩, fun hconcerns => ?_⟩
      obtain ⟨hdenied, hallowed, hteam⟩ := hpolicies _ _ (Or.inl ⟨rfl, rfl⟩) ⟨hconcerns.1, hconcerns.2, rfl⟩
      exact ⟨hdenied, hallowed, hteam⟩
    · rintro ⟨⟨hrole, hrules, hpolicies⟩, hp⟩
      refine ⟨hrole, hrules, fun id q hq happlies => ?_⟩
      rcases hq with ⟨-, rfl⟩ | hq
      · obtain ⟨hdenied, hallowed, hteam⟩ := hp ⟨happlies.1, happlies.2.1⟩
        exact ⟨hdenied, hallowed, hteam⟩
      · exact hpolicies id q hq happlies

lemma demands_register (engine : AuthorizationEngine) (registration : Registration) :
    (engine.register registration).Demands identity permission ↔
      engine.Demands identity permission ∨ registration.Demands identity permission := by
  cases registration with
  | rule rule => simp only [Demands, register, Registration.Demands, or_false]
  | policy p =>
    simp only [Demands, register, get_create_iff, Registration.Demands, Registration.Concerns]
    constructor
    · rintro ⟨id, q, ⟨-, rfl⟩ | hq, happlies, hsecond⟩
      · exact Or.inr ⟨⟨happlies.1, happlies.2.1⟩, hsecond⟩
      · exact Or.inl ⟨id, q, hq, happlies, hsecond⟩
    · rintro (⟨id, q, hq, happlies, hsecond⟩ | ⟨hconcerns, hsecond⟩)
      · exact ⟨id, q, Or.inr hq, happlies, hsecond⟩
      · exact ⟨_, _, Or.inl ⟨rfl, rfl⟩, ⟨hconcerns.1, hconcerns.2, rfl⟩, hsecond⟩

@[simp] lemma rolesOf_register (engine : AuthorizationEngine) (registration : Registration) :
    (engine.register registration).rolesOf identity = engine.rolesOf identity := by
  cases registration <;> rfl

/-- **Any number of registrations** together. -/
lemma check_foldl_register (attributes : Option AbacAttributes) (registrations : List Registration) :
    ∀ engine : AuthorizationEngine,
    (((registrations.foldl register engine).check identity permission attributes).allowed = true ↔
      (engine.check identity permission attributes).allowed = true ∧
      ∀ r ∈ registrations,
        r.Admits identity permission (attributes.getD {}) (engine.rolesOf identity)) ∧
    ((registrations.foldl register engine).Demands identity permission ↔
      engine.Demands identity permission ∨ ∃ r ∈ registrations, r.Demands identity permission) := by
  induction registrations with
  | nil => simp
  | cons r rs ih =>
    intro engine
    obtain ⟨hallowed, hdemands⟩ := ih (engine.register r)
    rw [allowed_register, rolesOf_register] at hallowed
    rw [demands_register] at hdemands
    simp only [List.foldl_cons, hallowed, hdemands, List.forall_mem_cons, List.exists_mem_cons_iff,
      and_assoc, or_assoc, and_self]

end Register

/-- **Authorization is a monotone conjunction**: a request is allowed iff a role grants the permission,
every rule holds, and every active policy of the firm for the permission passes; the decision is the same
in whatever order rules and policies were registered; and registering one more of them never allows what
was denied. -/
theorem check_conjunction (engine : AuthorizationEngine) (identity : IdentityContext)
    (permission : Permission) (attributes : Option AbacAttributes) :
    ((engine.check identity permission attributes).allowed = true ↔
      engine.rbac.hasPermission (engine.rolesOf identity) permission = true ∧
      (∀ rule ∈ engine.abac.rules, rule identity (attributes.getD {}) = true) ∧
      ∀ p ∈ engine.policies.store.values, p.AppliesTo identity.firmId permission →
        p.Passes (engine.rolesOf identity) identity.teamId) ∧
    (∀ registrations registrations' : List Registration, registrations.Perm registrations' →
      ((registrations.foldl register engine).check identity permission attributes).allowed =
        ((registrations'.foldl register engine).check identity permission attributes).allowed ∧
      ((registrations.foldl register engine).check identity permission
          attributes).requiresSecondValidation =
        ((registrations'.foldl register engine).check identity permission
          attributes).requiresSecondValidation) ∧
    ∀ registration : Registration, (engine.check identity permission attributes).allowed = false →
      ((engine.register registration).check identity permission attributes).allowed = false := by
  refine ⟨?_, fun rs rs' hperm => ?_, fun registration hdenied => ?_⟩
  · rw [check_spec.1, allowed_evaluate, AbacEngine.evaluate, List.all_eq_true]
    refine and_congr_right fun _ => and_congr_right fun _ => ?_
    exact ⟨fun h p hp => h p.id p (Store.mem_values_iff.mp hp),
      fun h id p hget => h p (Store.mem_values_of_get hget)⟩
  · have hallowed : ((rs.foldl register engine).check identity permission attributes).allowed =
        ((rs'.foldl register engine).check identity permission attributes).allowed := by
      rw [Bool.eq_iff_iff, (check_foldl_register attributes rs engine).1,
        (check_foldl_register attributes rs' engine).1]
      simp only [hperm.mem_iff]
    refine ⟨hallowed, ?_⟩
    rw [Bool.eq_iff_iff, requiresSecondValidation_check, requiresSecondValidation_check, hallowed]
    refine and_congr_right fun _ => ?_
    refine ((check_foldl_register attributes rs engine).2.trans ?_).trans
      (check_foldl_register attributes rs' engine).2.symm
    simp only [hperm.mem_iff]
  · rw [← Bool.not_eq_true, allowed_register]
    exact fun h => Bool.noConfusion (hdenied.symm.trans h.1)

/-- A partner of a firm that reserves exports to a team. -/
def exportsForTeam : AuthorizationEngine :=
  ({ roles := ({} : RoleEngine).assign "firm-1" "user-1" .partner } : AuthorizationEngine).register
    (.policy { id := 0, firmId := "firm-1", permission := .exportData, restrictedToTeamId := some "team-x" })

example : (exportsForTeam.check { userId := "user-1", firmId := "firm-1", teamId := some "team-y" }
    .exportData none).reason = "réservé à une équipe spécifique" := by decide

end AuthorizationEngine

end Tmis.IdentityPlatform
