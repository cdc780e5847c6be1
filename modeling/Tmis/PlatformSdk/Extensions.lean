import Mathlib.Data.Finset.Basic
import Tmis.Lib.Calls
import Tmis.Lib.Store

/-!
# Plugins and their installation

The catalogue of plugins, what a firm grants to a plugin it installs, and the lifecycle of what it has
installed: `platform_sdk.extensions.ExtensionEngine` over the plugin registry and the permission store.

* `PluginManifest` — an entry of the catalogue;
* `ExtensionPermission`, `granted` — the permission store;
* `install`, `uninstall`, `enable`, `disable`, `update` — the lifecycle of an installed plugin;
* `Operation`, `step` — one call of the engine, or an entry of the catalogue written.
-/

namespace Tmis.PlatformSdk

open Tmis.Lib

/-! ### The catalogue -/

inductive PluginType where
  | agent | connector | workflow | documentTemplate | tool | copilot
  deriving DecidableEq

inductive PublishingStatus where
  | development | validated | signed | published | retired
  deriving DecidableEq

def PublishingStatus.value : PublishingStatus → String
  | development => "development"
  | validated => "validated"
  | signed => "signed"
  | published => "published"
  | retired => "retired"

/-- An entry of the catalogue; its permissions are listed in the order in which the set is iterated. -/
structure PluginManifest where
  id : String
  name : String
  version : String
  pluginType : PluginType
  author : String
  description : String
  license : String
  permissions : List String := []
  dependencies : List String := []
  compatibility : String := "*"
  signature : Option String := none
  status : PublishingStatus := .development
  deriving DecidableEq

/-! ### Permissions -/

inductive ExtensionPermission where
  | readCases | readDocuments | createDrafts | accessResearch | accessKnowledge | manageUsers
  deriving DecidableEq

namespace ExtensionPermission

def value : ExtensionPermission → String
  | readCases => "read_cases"
  | readDocuments => "read_documents"
  | createDrafts => "create_drafts"
  | accessResearch => "access_research"
  | accessKnowledge => "access_knowledge"
  | manageUsers => "manage_users"

/-- The permissions, in the order of their values. -/
def sorted : List ExtensionPermission :=
  [accessKnowledge, accessResearch, createDrafts, manageUsers, readCases, readDocuments]

/-- `ExtensionPermission(value)`. -/
def ofValue (text : String) : Except PyException ExtensionPermission :=
  match sorted.find? (·.value = text) with
  | some permission => .ok permission
  | none => .error (valueError (pyRepr text ++ " is not a valid ExtensionPermission"))

lemma ofValue_value (permission : ExtensionPermission) : ofValue permission.value = .ok permission := by
  cases permission <;> decide +kernel

end ExtensionPermission

/-- The permissions that a manifest declares. -/
def PluginManifest.declared (manifest : PluginManifest) : Except PyException (Finset ExtensionPermission) :=
  (manifest.permissions.mapM ExtensionPermission.ofValue).map List.toFinset

/-- `sorted(p.value for p in permissions)`, as it is printed. -/
def sortedValues (permissions : Finset ExtensionPermission) : String :=
  "[" ++ ", ".intercalate
    ((ExtensionPermission.sorted.filter (· ∈ permissions)).map fun p => pyRepr p.value) ++ "]"

/-! ### Installed plugins -/

inductive ExtensionStatus where
  | active | disabled | uninstalled
  deriving DecidableEq

/-- A firm and a plugin, as instances and grants are keyed. -/
abbrev ExtensionKey := String × String

structure ExtensionInstance where
  id : Uuid
  firmId : String
  pluginId : String
  version : String
  grantedPermissions : Finset ExtensionPermission
  status : ExtensionStatus := .active
  deriving DecidableEq

def ExtensionInstance.key (i : ExtensionInstance) : ExtensionKey := (i.firmId, i.pluginId)

/-- The engine with the registry of manifests and the permission store it is given. -/
structure ExtensionEngine where
  registry : Store String PluginManifest PluginManifest.id := ∅
  store : Store ExtensionKey ExtensionInstance ExtensionInstance.key := ∅
  grants : Dict ExtensionKey (Finset ExtensionPermission) := ∅
  uuids : ℕ := 0

namespace ExtensionEngine

/-- `InMemoryPermissionStore.granted`. -/
def granted (s : ExtensionEngine) (key : ExtensionKey) : Finset ExtensionPermission :=
  (s.grants.get key).getD ∅

/-- `PermissionEngine.check`. -/
def check (s : ExtensionEngine) (firmId pluginId : String) (permission : ExtensionPermission) : Bool :=
  permission ∈ s.granted (firmId, pluginId)

/-- The manifest of a plugin that can be installed. -/
def available (s : ExtensionEngine) (pluginId : String) : Except PyException PluginManifest :=
  match s.registry.get pluginId with
  | none => .error ⟨"PluginNotAvailableError", pluginId ++ " is not published"⟩
  | some manifest =>
    if manifest.status = .published then .ok manifest
    else .error ⟨"PluginNotAvailableError", pluginId ++ " is not published"⟩

/-- An instance for the firm takes the place of the one it had, and so does its grant. -/
def install (s : ExtensionEngine) (firmId pluginId : String)
    (requestedPermissions : Finset ExtensionPermission) :
    Except PyException (ExtensionInstance × ExtensionEngine) := do
  let manifest ← s.available pluginId
  let declared ← manifest.declared
  if requestedPermissions ⊆ declared then
    let found : ExtensionInstance :=
      { id := s.uuids, firmId, pluginId, version := manifest.version,
        grantedPermissions := requestedPermissions }
    return (found, { s with
      store := s.store.save found
      grants := s.grants.set (firmId, pluginId) requestedPermissions
      uuids := s.uuids + 1 })
  else
    throw ⟨"UngrantablePermissionError", pluginId ++ " only declares " ++ sortedValues declared⟩

/-- `_get`. -/
def get (s : ExtensionEngine) (firmId pluginId : String) : Except PyException ExtensionInstance :=
  match s.store.get (firmId, pluginId) with
  | some found => .ok found
  | none => .error ⟨"KeyError", "(" ++ pyRepr firmId ++ ", " ++ pyRepr pluginId ++ ")"⟩

def uninstall (s : ExtensionEngine) (firmId pluginId : String) :
    Except PyException (ExtensionInstance × ExtensionEngine) := do
  let found ← s.get firmId pluginId
  let found := { found with status := .uninstalled }
  return (found, { s with
    store := s.store.save found
    grants := s.grants.pop (firmId, pluginId) })

/-- `_set_status`. -/
def setStatus (s : ExtensionEngine) (firmId pluginId : String) (status : ExtensionStatus) :
    Except PyException (ExtensionInstance × ExtensionEngine) := do
  let found ← s.get firmId pluginId
  let found := { found with status }
  return (found, { s with store := s.store.save found })

def enable (s : ExtensionEngine) (firmId pluginId : String) :
    Except PyException (ExtensionInstance × ExtensionEngine) :=
  s.setStatus firmId pluginId .active

def disable (s : ExtensionEngine) (firmId pluginId : String) :
    Except PyException (ExtensionInstance × ExtensionEngine) :=
  s.setStatus firmId pluginId .disabled

/-- The version follows the manifest, whatever the status of the instance or of the manifest. -/
def update (s : ExtensionEngine) (firmId pluginId : String) :
    Except PyException (ExtensionInstance × ExtensionEngine) :=
  match s.registry.get pluginId with
  | none => .error (keyError pluginId)
  | some manifest => do
    let found ← s.get firmId pluginId
    let found := { found with version := manifest.version }
    return (found, { s with store := s.store.save found })

end ExtensionEngine

/-! ### Runs -/

/-- `register` stands for whatever the registry is told of a manifest: a new one, or one whose
publication has moved on. -/
inductive Operation where
  | register (manifest : PluginManifest)
  | install (firmId pluginId : String) (requestedPermissions : Finset ExtensionPermission)
  | uninstall (firmId pluginId : String)
  | enable (firmId pluginId : String)
  | disable (firmId pluginId : String)
  | update (firmId pluginId : String)

def step (s : ExtensionEngine) : Operation → ExtensionEngine
  | .register manifest => { s with registry := s.registry.save manifest }
  | .install firmId pluginId requestedPermissions =>
    afterCall s ((s.install firmId pluginId requestedPermissions).map Prod.snd)
  | .uninstall firmId pluginId => afterCall s ((s.uninstall firmId pluginId).map Prod.snd)
  | .enable firmId pluginId => afterCall s ((s.enable firmId pluginId).map Prod.snd)
  | .disable firmId pluginId => afterCall s ((s.disable firmId pluginId).map Prod.snd)
  | .update firmId pluginId => afterCall s ((s.update firmId pluginId).map Prod.snd)

/-! ### Calls that return -/

section Returns

open ExtensionEngine

variable {s : ExtensionEngine} {firmId pluginId : String} {r : ExtensionInstance × ExtensionEngine}

lemma get_ok {found : ExtensionInstance} :
    s.get firmId pluginId = .ok found ↔ s.store.get (firmId, pluginId) = some found := by
  unfold ExtensionEngine.get
  cases s.store.get (firmId, pluginId) <;> simp

lemma install_ok {requestedPermissions : Finset ExtensionPermission} :
    s.install firmId pluginId requestedPermissions = .ok r ↔
      ∃ manifest declared, s.available pluginId = .ok manifest ∧ manifest.declared = .ok declared ∧
        requestedPermissions ⊆ declared ∧
        r = ({ id := s.uuids, firmId, pluginId, version := manifest.version,
               grantedPermissions := requestedPermissions },
          { s with
            store := s.store.save
              { id := s.uuids, firmId, pluginId, version := manifest.version,
                grantedPermissions := requestedPermissions }
            grants := s.grants.set (firmId, pluginId) requestedPermissions
            uuids := s.uuids + 1 }) := by
  simp only [install, bind_eq_ok]
  constructor
  · rintro ⟨manifest, hmanifest, declared, hdeclared, hr⟩
    split at hr
    · rename_i hsubset
      exact ⟨manifest, declared, hmanifest, hdeclared, hsubset, (pure_eq_ok.mp hr).symm⟩
    · cases hr
  · rintro ⟨manifest, declared, hmanifest, hdeclared, hsubset, rfl⟩
    refine ⟨manifest, hmanifest, declared, hdeclared, ?_⟩
    rw [if_pos hsubset]
    rfl

lemma uninstall_ok :
    s.uninstall firmId pluginId = .ok r ↔ ∃ found, s.store.get (firmId, pluginId) = some found ∧
      r = ({ found with status := .uninstalled }, { s with
        store := s.store.save { found with status := .uninstalled }
        grants := s.grants.pop (firmId, pluginId) }) := by
  simp only [uninstall, bind_eq_ok, pure_eq_ok, get_ok]
  refine exists_congr fun found => and_congr_right fun _ => ?_
  exact eq_comm

lemma setStatus_ok {status : ExtensionStatus} :
    s.setStatus firmId pluginId status = .ok r ↔ ∃ found,
      s.store.get (firmId, pluginId) = some found ∧
      r = ({ found with status }, { s with store := s.store.save { found with status } }) := by
  simp only [setStatus, bind_eq_ok, pure_eq_ok, get_ok]
  refine exists_congr fun found => and_congr_right fun _ => ?_
  exact eq_comm

lemma update_ok :
    s.update firmId pluginId = .ok r ↔ ∃ manifest found, s.registry.get pluginId = some manifest ∧
      s.store.get (firmId, pluginId) = some found ∧
      r = ({ found with version := manifest.version },
        { s with store := s.store.save { found with version := manifest.version } }) := by
  unfold update
  cases hmanifest : s.registry.get pluginId with
  | none => simp
  | some manifest =>
    simp only [bind_eq_ok, pure_eq_ok, get_ok, Option.some.injEq]
    constructor
    · rintro ⟨found, hget, rfl⟩
      exact ⟨manifest, found, rfl, hget, rfl⟩
    · rintro ⟨_, found, rfl, hget, rfl⟩
      exact ⟨found, hget, rfl⟩

/-- A call that saves an instance keeps what is on record. -/
lemma exists_get_afterCall {key : ExtensionKey} {call : Except PyException (ExtensionInstance × ExtensionEngine)}
    (h : ∃ found, s.store.get key = some found)
    (hcall : ∀ r, call = .ok r → ∃ found, r.2.store = s.store.save found) :
    ∃ found, (afterCall s (call.map Prod.snd)).store.get key = some found := by
  cases call with
  | error e => exact h
  | ok r =>
    obtain ⟨saved, hstore⟩ := hcall r rfl
    show ∃ found, r.2.store.get key = some found
    rw [hstore]
    exact Store.exists_get_save saved h

/-- What is installed stays on record. -/
theorem exists_get_step {key : ExtensionKey} (h : ∃ found, s.store.get key = some found)
    (op : Operation) : ∃ found, (step s op).store.get key = some found := by
  cases op with
  | register manifest => exact h
  | install firmId pluginId requestedPermissions =>
    refine exists_get_afterCall h fun r hr => ?_
    obtain ⟨_, _, _, _, _, rfl⟩ := install_ok.mp hr
    exact ⟨_, rfl⟩
  | uninstall firmId pluginId =>
    refine exists_get_afterCall h fun r hr => ?_
    obtain ⟨_, _, rfl⟩ := uninstall_ok.mp hr
    exact ⟨_, rfl⟩
  | enable firmId pluginId =>
    refine exists_get_afterCall h fun r hr => ?_
    obtain ⟨_, _, rfl⟩ := setStatus_ok.mp hr
    exact ⟨_, rfl⟩
  | disable firmId pluginId =>
    refine exists_get_afterCall h fun r hr => ?_
    obtain ⟨_, _, rfl⟩ := setStatus_ok.mp hr
    exact ⟨_, rfl⟩
  | update firmId pluginId =>
    refine exists_get_afterCall h fun r hr => ?_
    obtain ⟨_, _, _, _, rfl⟩ := update_ok.mp hr
    exact ⟨_, rfl⟩

end Returns

end Tmis.PlatformSdk
