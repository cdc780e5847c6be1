import Mathlib.Data.Rat.Defs
import Tmis.Lib.Run
import Tmis.PlatformSdk.Extensions

/-!
# The sandbox

`platform_sdk.sandbox.SandboxExecutor` with the plugin loader: an execution is refused without the
permission it requires, beyond the quota of calls, or when the plugin cannot be loaded; else it reaches
the plugin.

* `SandboxExecutor` — the executor, beside the extension engine whose registry and grants it reads;
* `load` — the plugin loader;
* `execute` — one execution;
* `Loads`, `Reaches`, `execute_of_reaches`, `execute_of_not_reaches` — when a plugin is invoked;
* `SandboxOperation`, `SandboxExecutor.step` — one execution, or one operation of the engine.
-/

namespace Tmis.PlatformSdk

open Tmis.Lib

/-- `ResourceQuota`, less the seconds an invocation may take: whether it takes longer is told by its
`PluginRun`. -/
structure ResourceQuota where
  maxCallsPerMinute : ℤ := 60

/-- What a plugin is invoked with. -/
structure Invocation (Data : Type) where
  firmId : String
  actorId : String
  pluginId : String
  payload : Data

/-- What the code of a plugin does once it is loaded: its constructor may raise (what the executor
catches, such as a `KeyError`, or not), and so may its invocation, which may also be interrupted, or
take too long. -/
inductive PluginRun (Data : Type) where
  | constructorRaised (e : PyException) (isCaught : Bool)
  | returned (result : Data)
  | raised (e : PyException)
  | timedOut
  | interrupted

structure SandboxExecutionResult (Data : Type) where
  pluginId : String
  success : Bool
  result : Option Data := none
  error : Option String := none

/-- The executor: the engine it shares the registry and the grants with, the implementations that are
registered, the times of the calls that were recorded, and the invocations that have reached a plugin,
oldest first. -/
structure SandboxExecutor (Data : Type) where
  extensions : ExtensionEngine := {}
  implementations : List String := []
  quota : ResourceQuota := {}
  callTimestamps : Dict ExtensionKey (List ℚ) := ∅
  invocations : List (Invocation Data) := []

namespace SandboxExecutor

variable {Data : Type}

/-- `PluginLoader.load`, up to the call of the factory. -/
def load (s : SandboxExecutor Data) (pluginId : String) : Except PyException Unit :=
  match s.extensions.registry.get pluginId with
  | none => .error (keyError pluginId)
  | some manifest =>
    if manifest.status ≠ .published then
      .error ⟨"PluginNotPublishedError", pluginId ++ " is " ++ manifest.status.value ++
        ", expected published"⟩
    else if pluginId ∉ s.implementations then
      .error (keyError pluginId "PluginImplementationMissingError")
    else .ok ()

/-- The recorded calls of the last minute before `now`. -/
def recent (s : SandboxExecutor Data) (key : ExtensionKey) (now : ℚ) : List ℚ :=
  ((s.callTimestamps.get key).getD []).dropWhile (· < now - 60)

/-- `_quota_exceeded`; the calls that are too old are forgotten. -/
def quotaExceeded (s : SandboxExecutor Data) (key : ExtensionKey) (now : ℚ) : Bool × SandboxExecutor Data :=
  (decide (s.quota.maxCallsPerMinute ≤ (s.recent key now).length),
    { s with callTimestamps := s.callTimestamps.set key (s.recent key now) })

/-- `_record_call`. -/
def recordCall (s : SandboxExecutor Data) (key : ExtensionKey) (now : ℚ) : SandboxExecutor Data :=
  { s with callTimestamps := s.callTimestamps.set key ((s.callTimestamps.get key).getD [] ++ [now]) }

/-- `_finish` of an execution that failed. -/
def failed (pluginId error : String) : Except Raised (SandboxExecutionResult Data) :=
  .ok { pluginId, success := false, error := some error }

/-- Whether the permission that is required has been granted; none may be required. -/
def permits (s : SandboxExecutor Data) (firmId pluginId : String)
    (requiredPermission : Option ExtensionPermission) : Bool :=
  match requiredPermission with
  | none => true
  | some permission => s.extensions.check firmId pluginId permission

/-- What an execution returns once the plugin is invoked. -/
def finish (pluginId : String) : PluginRun Data → Except Raised (SandboxExecutionResult Data)
  | .constructorRaised e isCaught =>
    if isCaught then failed pluginId e.text else .error (.exception e)
  | .returned result => .ok { pluginId, success := true, result := some result }
  | .raised e => failed pluginId e.text
  | .timedOut => failed pluginId "délai dépassé"
  | .interrupted => .error .interrupt

/-- Whether the plugin is constructed. -/
def constructed : PluginRun Data → Bool
  | .constructorRaised .. => false
  | _ => true

/-- `execute`; `now` is the time when the quota is checked, `later` the time when the call is
recorded, and `run` what the plugin does. -/
def execute (s : SandboxExecutor Data) (firmId actorId pluginId : String) (payload : Data)
    (requiredPermission : Option ExtensionPermission) (now later : ℚ) (run : PluginRun Data) :
    Except Raised (SandboxExecutionResult Data) × SandboxExecutor Data :=
  if s.permits firmId pluginId requiredPermission then
    let (exceeded, s) := s.quotaExceeded (firmId, pluginId) now
    if exceeded then (failed pluginId "quota d'appels dépassé", s)
    else match s.load pluginId with
      | .error e => (failed pluginId e.text, s)
      | .ok () =>
        if constructed run then
          let s := s.recordCall (firmId, pluginId) later
          (finish pluginId run,
            { s with invocations := s.invocations ++ [{ firmId, actorId, pluginId, payload }] })
        else (finish pluginId run, s)
  else (failed pluginId "permission refusée", s)

end SandboxExecutor

/-! ### When a plugin is invoked -/

section Execute

open SandboxExecutor

variable {Data : Type} {s : SandboxExecutor Data} {firmId actorId pluginId : String} {payload : Data}
  {requiredPermission : Option ExtensionPermission} {now later : ℚ} {run : PluginRun Data}

/-- The quota of calls is not used up, and the plugin is published, implemented and constructed. -/
def Loads (s : SandboxExecutor Data) (firmId pluginId : String) (now : ℚ) (run : PluginRun Data) : Prop :=
  ((s.recent (firmId, pluginId) now).length : ℤ) < s.quota.maxCallsPerMinute ∧
    s.load pluginId = .ok () ∧ constructed run = true

/-- An execution reaches the plugin: the permission that it requires is granted, and the plugin loads. -/
def Reaches (s : SandboxExecutor Data) (firmId pluginId : String)
    (requiredPermission : Option ExtensionPermission) (now : ℚ) (run : PluginRun Data) : Prop :=
  s.permits firmId pluginId requiredPermission = true ∧ Loads s firmId pluginId now run

instance : Decidable (Loads s firmId pluginId now run) := by
  unfold Loads
  infer_instance

instance : Decidable (Reaches s firmId pluginId requiredPermission now run) := by
  unfold Reaches
  infer_instance

lemma quotaExceeded_fst :
    (s.quotaExceeded (firmId, pluginId) now).1 = true ↔
      ¬ ((s.recent (firmId, pluginId) now).length : ℤ) < s.quota.maxCallsPerMinute := by
  rw [quotaExceeded, decide_eq_true_iff, not_lt]

/-- An execution that reaches the plugin invokes it once. -/
lemma execute_of_reaches (h : Reaches s firmId pluginId requiredPermission now run) :
    (s.execute firmId actorId pluginId payload requiredPermission now later run).2.invocations =
      s.invocations ++ [Invocation.mk firmId actorId pluginId payload] := by
  obtain ⟨hpermits, hquota, hload, hconstructed⟩ := h
  have hexceeded : (s.quotaExceeded (firmId, pluginId) now).1 = false := by
    rw [← Bool.not_eq_true, quotaExceeded_fst, not_not]
    exact hquota
  have hload' : (s.quotaExceeded (firmId, pluginId) now).2.load pluginId = .ok () := hload
  simp only [execute, hpermits, if_true, hexceeded, Bool.false_eq_true, if_false, hload', hconstructed]
  rfl

/-- An execution that does not reach the plugin invokes nothing, and does not succeed. -/
lemma execute_of_not_reaches (h : ¬ Reaches s firmId pluginId requiredPermission now run) :
    (s.execute firmId actorId pluginId payload requiredPermission now later run).2.invocations =
        s.invocations ∧
      ∀ result, (s.execute firmId actorId pluginId payload requiredPermission now later run).1 =
        .ok result → result.success = false := by
  have hfailed : ∀ (error : String) (result : SandboxExecutionResult Data),
      failed pluginId error = .ok result → result.success = false := by
    rintro error _ ⟨⟩
    rfl
  unfold execute
  by_cases hpermits : s.permits firmId pluginId requiredPermission = true
  · rw [if_pos hpermits]
    dsimp only
    by_cases hexceeded : (s.quotaExceeded (firmId, pluginId) now).1 = true
    · rw [if_pos hexceeded]
      exact ⟨rfl, hfailed _⟩
    · rw [if_neg hexceeded]
      split
      · exact ⟨rfl, hfailed _⟩
      · rename_i hload
        have hquota := not_not.mp (mt quotaExceeded_fst.mpr hexceeded)
        have hconstructed : ¬ constructed run = true := fun hc => h ⟨hpermits, hquota, hload, hc⟩
        rw [if_neg hconstructed]
        refine ⟨rfl, fun result hresult => ?_⟩
        cases run with
        | constructorRaised e isCaught =>
          cases isCaught with
          | true => exact hfailed _ result hresult
          | false => cases hresult
        | _ => exact absurd rfl hconstructed
  · rw [if_neg hpermits]
    exact ⟨rfl, hfailed _⟩

/-- An execution leaves the engine as it is. -/
lemma execute_extensions :
    (s.execute firmId actorId pluginId payload requiredPermission now later run).2.extensions =
      s.extensions := by
  unfold execute
  split
  · dsimp only
    split
    · rfl
    · split
      · rfl
      · split <;> rfl
  · rfl

end Execute

/-! ### Runs -/

section Runs

variable {Data : Type}

/-- An operation of the extension engine, an implementation that is registered, or an execution. -/
inductive SandboxOperation (Data : Type) where
  | extension (op : Operation)
  | implement (pluginId : String)
  | execute (firmId actorId pluginId : String) (payload : Data)
      (requiredPermission : Option ExtensionPermission) (now later : ℚ) (run : PluginRun Data)

def SandboxExecutor.step (s : SandboxExecutor Data) : SandboxOperation Data → SandboxExecutor Data
  | .extension op => { s with extensions := PlatformSdk.step s.extensions op }
  | .implement pluginId => { s with implementations := s.implementations ++ [pluginId] }
  | .execute firmId actorId pluginId payload requiredPermission now later run =>
    (s.execute firmId actorId pluginId payload requiredPermission now later run).2

end Runs

end Tmis.PlatformSdk

/-!
## Plugins that are invoked for a firm

The code of a plugin should run for a firm only while the firm has it installed and active.  The sandbox
asks for the permission, the quota and the publication, not for the installation.  What is not installed
has no permission granted; what is disabled keeps those it was granted.

* `Active`, `Disabled` — how the plugin stands for the firm;
* `HonoursLifecycle` — the property of one operation;
* `ExecutesActive` — the discipline: an execution that requires no permission is of an active plugin, one
  that requires a permission is not of a disabled plugin that was granted it;
* `GrantsInstalled` — the invariant: only what is installed is granted something;
* `honoursLifecycle_iff`, `along_honoursLifecycle_iff` — the runs in which the lifecycle is honoured.
-/

namespace Tmis.PlatformSdk

open Tmis.Lib ExtensionEngine

section Lifecycle

variable {Data : Type}

/-- The firm has the plugin installed and active. -/
def Active (s : SandboxExecutor Data) (firmId pluginId : String) : Prop :=
  ∃ found, s.extensions.store.get (firmId, pluginId) = some found ∧ found.status = .active

/-- The firm has the plugin installed and disabled. -/
def Disabled (s : SandboxExecutor Data) (firmId pluginId : String) : Prop :=
  ∃ found, s.extensions.store.get (firmId, pluginId) = some found ∧ found.status = .disabled

/-- Plugins are invoked where they are active; elsewhere an execution does not succeed. -/
structure HonoursLifecycle (s : SandboxExecutor Data) (op : SandboxOperation Data) : Prop where
  invoked : ∃ added, (s.step op).invocations = s.invocations ++ added ∧
    ∀ invocation ∈ added, Active s invocation.firmId invocation.pluginId
  refused : ∀ firmId actorId pluginId payload requiredPermission now later run,
    op = .execute firmId actorId pluginId payload requiredPermission now later run →
    ¬ Active s firmId pluginId →
    ∀ result, (s.execute firmId actorId pluginId payload requiredPermission now later run).1 =
      .ok result → result.success = false

/-- Of the executions that find quota left and a plugin to load, those that require no permission are of
active plugins, and those that require one are not of disabled plugins that were granted it. -/
def ExecutesActive (s : SandboxExecutor Data) : SandboxOperation Data → Prop
  | .execute firmId _ pluginId _ requiredPermission now _ run => Loads s firmId pluginId now run →
    match requiredPermission with
    | none => Active s firmId pluginId
    | some permission => Disabled s firmId pluginId →
      s.extensions.check firmId pluginId permission = false
  | _ => True

/-! ### Grants and installations -/

/-- Only what is installed is granted something. -/
def GrantsInstalled (s : ExtensionEngine) : Prop :=
  ∀ key permission, permission ∈ s.granted key →
    ∃ found, s.store.get key = some found ∧ found.status ≠ .uninstalled

/-- An instance is saved that stands installed, and the grants of others stay as they are. -/
lemma GrantsInstalled.save {s : ExtensionEngine} (h : GrantsInstalled s) (found : ExtensionInstance)
    {grants : Dict ExtensionKey (Finset ExtensionPermission)} {uuids : ℕ}
    (hothers : ∀ key, key ≠ found.key → grants.get key = s.grants.get key)
    (hstatus : ∀ permission, permission ∈ (grants.get found.key).getD ∅ →
      found.status ≠ .uninstalled) :
    GrantsInstalled { s with store := s.store.save found, grants, uuids } := by
  intro key permission hmem
  show ∃ x, (s.store.save found).get key = some x ∧ _
  rw [Store.get_save]
  by_cases hkey : key = found.key
  · subst hkey
    rw [if_pos rfl]
    exact ⟨found, rfl, hstatus permission hmem⟩
  · rw [if_neg hkey]
    refine h key permission ?_
    unfold ExtensionEngine.granted at hmem ⊢
    rwa [← hothers key hkey]

/-- **One operation of the extension engine.**  Grants stay with what is installed. -/
theorem GrantsInstalled.step {s : ExtensionEngine} (h : GrantsInstalled s) (op : Operation) :
    GrantsInstalled (step s op) := by
  have hset : ∀ firmId pluginId status, status ≠ ExtensionStatus.uninstalled →
      GrantsInstalled (afterCall s ((s.setStatus firmId pluginId status).map Prod.snd)) := by
    intro firmId pluginId status hstatus
    refine (afterCall_map_iff h).mpr fun r hr => ?_
    obtain ⟨found, -, rfl⟩ := setStatus_ok.mp hr
    exact h.save { found with status } (fun _ _ => rfl) (fun _ _ => hstatus)
  cases op with
  | register manifest => exact h
  | install firmId pluginId requestedPermissions =>
    refine (afterCall_map_iff h).mpr fun r hr => ?_
    obtain ⟨manifest, declared, -, -, -, rfl⟩ := install_ok.mp hr
    refine h.save _ (fun key hne => Dict.get_set_of_ne _ _ hne) fun _ _ hdown => ?_
    cases hdown
  | uninstall firmId pluginId =>
    refine (afterCall_map_iff h).mpr fun r hr => ?_
    obtain ⟨found, hget, rfl⟩ := uninstall_ok.mp hr
    have hkey : found.key = (firmId, pluginId) := Store.key_of_get hget
    refine h.save { found with status := .uninstalled } (fun key hne => ?_) fun permission hmem => ?_
    · exact Dict.get_pop_of_ne _ (hkey ▸ hne)
    · have hnone : (s.grants.pop (firmId, pluginId)).get found.key = none := by
        rw [hkey, Dict.get_pop_self]
      have hempty : permission ∈ ((s.grants.pop (firmId, pluginId)).get found.key).getD ∅ := hmem
      rw [hnone] at hempty
      exact absurd hempty (Finset.notMem_empty _)
  | enable firmId pluginId => exact hset firmId pluginId .active (by decide)
  | disable firmId pluginId => exact hset firmId pluginId .disabled (by decide)
  | update firmId pluginId =>
    refine (afterCall_map_iff h).mpr fun r hr => ?_
    obtain ⟨manifest, found, -, hget, rfl⟩ := update_ok.mp hr
    refine h.save { found with version := manifest.version } (fun _ _ => rfl) fun permission hmem => ?_
    obtain ⟨found', hget', hstatus⟩ := h found.key permission hmem
    rw [Store.key_of_get hget, hget] at hget'
    cases hget'
    exact hstatus

/-- **One operation.**  Executions touch neither the grants nor the installations. -/
theorem GrantsInstalled.sandboxStep {s : SandboxExecutor Data} (h : GrantsInstalled s.extensions)
    (op : SandboxOperation Data) : GrantsInstalled (s.step op).extensions := by
  cases op with
  | extension op => exact h.step op
  | implement pluginId => exact h
  | execute firmId actorId pluginId payload requiredPermission now later run =>
    have hsame : (s.step
        (.execute firmId actorId pluginId payload requiredPermission now later run)).extensions =
        s.extensions := execute_extensions
    rw [hsame]
    exact h

/-! ### Runs -/

/-- What is not active does not pass the checks of the sandbox: the executions that do are as the
discipline asks. -/
lemma executesActive_iff {s : SandboxExecutor Data} (h : GrantsInstalled s.extensions)
    {firmId actorId pluginId : String} {payload : Data}
    {requiredPermission : Option ExtensionPermission} {now later : ℚ} {run : PluginRun Data} :
    ExecutesActive s (.execute firmId actorId pluginId payload requiredPermission now later run) ↔
      (Reaches s firmId pluginId requiredPermission now run → Active s firmId pluginId) := by
  unfold Reaches ExecutesActive
  cases requiredPermission with
  | none =>
    constructor
    · exact fun hactive hreaches => hactive hreaches.2
    · exact fun hactive hloads => hactive ⟨rfl, hloads⟩
  | some permission =>
    constructor
    · rintro hkept ⟨hgranted, hloads⟩
      obtain ⟨found, hget, hinstalled⟩ := h (firmId, pluginId) permission (of_decide_eq_true hgranted)
      cases hstatus : found.status with
      | active => exact ⟨found, hget, hstatus⟩
      | disabled =>
        have hrefused := hkept hloads ⟨found, hget, hstatus⟩
        exact absurd (hgranted.symm.trans hrefused) (by decide)
      | uninstalled => exact absurd hstatus hinstalled
    · rintro hactive hloads ⟨found, hget, hdisabled⟩
      rw [← Bool.not_eq_true]
      intro hgranted
      obtain ⟨found', hget', hstatus⟩ := hactive ⟨hgranted, hloads⟩
      rw [hget] at hget'
      cases hget'
      rw [hdisabled] at hstatus
      cases hstatus

/-- **One operation.**  Where only what is installed is granted something, the lifecycle is honoured iff
the operation executes active plugins, as the discipline asks. -/
theorem honoursLifecycle_iff {s : SandboxExecutor Data} (hgrants : GrantsInstalled s.extensions)
    (op : SandboxOperation Data) : HonoursLifecycle s op ↔ ExecutesActive s op := by
  cases op with
  | execute firmId actorId pluginId payload requiredPermission now later run =>
    rw [executesActive_iff hgrants]
    constructor
    · intro h hreaches
      obtain ⟨added, hadded, hactive⟩ := h.invoked
      have hinvoked : s.invocations ++ added =
          s.invocations ++ [Invocation.mk firmId actorId pluginId payload] :=
        hadded.symm.trans (execute_of_reaches hreaches)
      obtain rfl := List.append_cancel_left hinvoked
      exact hactive _ (List.mem_singleton_self _)
    · intro h
      by_cases hreaches : Reaches s firmId pluginId requiredPermission now run
      · have hactive := h hreaches
        refine ⟨⟨_, execute_of_reaches hreaches, fun invocation hmem => ?_⟩, ?_⟩
        · rw [List.mem_singleton.mp hmem]
          exact hactive
        · rintro _ _ _ _ _ _ _ _ ⟨⟩ hinactive
          exact absurd hactive hinactive
      · obtain ⟨hsame, hrefused⟩ := execute_of_not_reaches hreaches
        refine ⟨⟨[], ?_, fun invocation hmem => absurd hmem List.not_mem_nil⟩, ?_⟩
        · rw [List.append_nil]
          exact hsame
        · rintro _ _ _ _ _ _ _ _ ⟨⟩ -
          exact hrefused
  | _ =>
    -- nothing is executed
    refine iff_of_true ⟨⟨[], (List.append_nil _).symm, fun _ hmem => absurd hmem List.not_mem_nil⟩, ?_⟩
      trivial
    rintro _ _ _ _ _ _ _ _ ⟨⟩

end Lifecycle

/-- **The lifecycle is honoured, exactly.**  In a run every plugin invoked for a firm is installed and
active for it, and no execution of another one succeeds, iff the executions that find quota left and a
plugin to load are of active plugins where no permission is required, and require of a disabled plugin
no permission that it was granted. -/
theorem along_honoursLifecycle_iff {Data : Type} (quota : ResourceQuota)
    (ops : List (SandboxOperation Data)) :
    Along SandboxExecutor.step HonoursLifecycle { quota } ops ↔
      Along SandboxExecutor.step ExecutesActive { quota } ops := by
  have hstart : GrantsInstalled ({ quota } : SandboxExecutor Data).extensions :=
    fun _ _ hmem => absurd hmem (Finset.notMem_empty _)
  exact along_congr (I := fun s => GrantsInstalled s.extensions) hstart
    (fun _ op h _ => h.sandboxStep op) (fun _ op h => honoursLifecycle_iff h op)

/-! ### A disabled plugin that is executed -/

/-- A plugin without permissions is installed, disabled and executed. -/
def disabledExecuted : List (SandboxOperation String) :=
  [.extension (.register
      { id := "workflow-validation", name := "Workflow Validation", version := "1.0.0",
        pluginType := .workflow, author := "TMIS Labs", description := "Workflow de validation",
        license := "MIT", status := .published }),
    .implement "workflow-validation",
    .extension (.install "firm-a" "workflow-validation" ∅),
    .extension (.disable "firm-a" "workflow-validation"),
    .execute "firm-a" "avocat1" "workflow-validation" "500" none 0 0 (.returned "auto-approve")]

/-- The plugin that the firm has disabled is invoked for it. -/
theorem disabled_executed :
    ¬ Along SandboxExecutor.step HonoursLifecycle {} disabledExecuted := by
  rintro ⟨-, -, -, -, hhonours, -⟩
  let s := run SandboxExecutor.step {} (disabledExecuted.take 4)
  have hdisabled : (s.extensions.store.get ("firm-a", "workflow-validation")).map
      ExtensionInstance.status = some .disabled := by decide +kernel
  have hreaches : Reaches s "firm-a" "workflow-validation" none 0 (.returned "auto-approve") := by
    decide +kernel
  obtain ⟨added, hadded, hactive⟩ := hhonours.invoked
  have hinvoked : s.invocations ++ added =
      s.invocations ++ [Invocation.mk "firm-a" "avocat1" "workflow-validation" "500"] :=
    hadded.symm.trans (execute_of_reaches hreaches)
  obtain rfl := List.append_cancel_left hinvoked
  obtain ⟨found, hget, hstatus⟩ := hactive _ (List.mem_singleton_self _)
  have hsame : some found.status = some .disabled :=
    (congrArg (Option.map ExtensionInstance.status) hget).symm.trans hdisabled
  rw [hstatus] at hsame
  cases hsame

end Tmis.PlatformSdk
