import Tmis.Lib.Calls
import Tmis.Lib.Run
import Tmis.PlatformSdk.Validation

/-!
# Publication

`platform_sdk.publishing.PublishingEngine`: the lifecycle of a manifest, from development to retirement.
The manifests are objects that the registry holds: what is written to one is written to the registry.

* `PublishingStatus.allowed` — the transitions;
* `PublishingEngine` — `validateManifest`, `signManifest`, `publish`, `retire`, `sendBackToDevelopment`;
* `Operation`, `perform`, `step` — one operation, or a manifest that is registered;
* `SignsValidated` — what is signed has been validated, or has the signature already;
* `atomic_iff`, `along_publishingAtomic_iff` — the runs in which what raises changes nothing.
-/

namespace Tmis.PlatformSdk

open Tmis.Lib Tmis.Platform.Licensing

/-- `ALLOWED_TRANSITIONS`. -/
def PublishingStatus.allowed : PublishingStatus → List PublishingStatus
  | development => [validated]
  | validated => [signed, development]
  | signed => [published, development]
  | published => [retired]
  | retired => []

structure PublishingEvent where
  id : Uuid
  pluginId : String
  fromStatus : PublishingStatus
  toStatus : PublishingStatus
  actor : String
  reason : Option String := none
  deriving DecidableEq

/-- The engine with its store of events and the registry that it shares with the validator; `uuids` counts
the identifiers drawn so far. -/
structure PublishingEngine where
  registry : PluginRegistry := ∅
  events : List PublishingEvent := []
  uuids : ℕ := 0

namespace PublishingEngine

/-- `InvalidPublishingTransitionError`. -/
def invalidTransition (fromStatus toStatus : PublishingStatus) : PyException :=
  ⟨"InvalidPublishingTransitionError",
    "Cannot transition from " ++ fromStatus.value ++ " to " ++ toStatus.value⟩

/-- `_get`. -/
def get (s : PublishingEngine) (pluginId : String) : Except PyException PluginManifest :=
  match s.registry.get pluginId with
  | some manifest => .ok manifest
  | none => .error (keyError pluginId)

/-- `_transition`, of a manifest that the registry holds. -/
def transition (s : PublishingEngine) (manifest : PluginManifest) (toStatus : PublishingStatus)
    (actor : String) (reason : Option String) : Except PyException PluginManifest × PublishingEngine :=
  if toStatus ∈ manifest.status.allowed then
    let moved := { manifest with status := toStatus }
    let event : PublishingEvent :=
      { id := s.uuids, pluginId := manifest.id, fromStatus := manifest.status, toStatus, actor, reason }
    (.ok moved,
      { registry := s.registry.save moved, events := s.events ++ [event], uuids := s.uuids + 1 })
  else (.error (invalidTransition manifest.status toStatus), s)

/-- The transition of a manifest that is looked up. -/
def transitionOf (s : PublishingEngine) (pluginId : String) (toStatus : PublishingStatus)
    (actor : String) (reason : Option String) : Except PyException PluginManifest × PublishingEngine :=
  match s.get pluginId with
  | .error e => (.error e, s)
  | .ok manifest => s.transition manifest toStatus actor reason

/-- `ValidationFailedError`, with the issues of a report. -/
def validationFailed (pluginId : String) (report : ValidationReport) : PyException :=
  ⟨"ValidationFailedError", pluginId ++ ": " ++
    "; ".intercalate (report.issues.map fun issue => issue.field ++ ": " ++ issue.message)⟩

def validateManifest (signer : LicenseKeySigner) (s : PublishingEngine) (pluginId actor : String) :
    Except PyException PluginManifest × PublishingEngine :=
  match s.get pluginId with
  | .error e => (.error e, s)
  | .ok manifest =>
    match PluginValidator.validate signer s.registry manifest with
    | .error e => (.error e, s)
    | .ok report =>
      if report.isValid then s.transition manifest .validated actor none
      else (.error (validationFailed pluginId report), s)

/-- `sign_manifest`: the signature is put on the manifest before its transition is checked. -/
def signManifest (signer : LicenseKeySigner) (s : PublishingEngine) (pluginId actor : String) :
    Except PyException PluginManifest × PublishingEngine :=
  match s.get pluginId with
  | .error e => (.error e, s)
  | .ok manifest =>
    let manifest := { manifest with signature := some (PluginValidator.sign signer manifest) }
    { s with registry := s.registry.save manifest }.transition manifest .signed actor none

def publish (s : PublishingEngine) (pluginId actor : String) :
    Except PyException PluginManifest × PublishingEngine := s.transitionOf pluginId .published actor none

def retire (s : PublishingEngine) (pluginId actor : String) (reason : Option String) :
    Except PyException PluginManifest × PublishingEngine := s.transitionOf pluginId .retired actor reason

def sendBackToDevelopment (s : PublishingEngine) (pluginId actor : String) (reason : Option String) :
    Except PyException PluginManifest × PublishingEngine := s.transitionOf pluginId .development actor reason

/-! ### Runs -/

/-- An operation of the engine, or a manifest that the registry is given. -/
inductive Operation where
  | register (manifest : PluginManifest)
  | validateManifest (pluginId actor : String)
  | signManifest (pluginId actor : String)
  | publish (pluginId actor : String)
  | retire (pluginId actor : String) (reason : Option String)
  | sendBackToDevelopment (pluginId actor : String) (reason : Option String)

/-- What an operation returns or raises, and the state after it. -/
def perform (signer : LicenseKeySigner) (s : PublishingEngine) :
    Operation → Except PyException PluginManifest × PublishingEngine
  | .register manifest => (.ok manifest, { s with registry := s.registry.save manifest })
  | .validateManifest pluginId actor => s.validateManifest signer pluginId actor
  | .signManifest pluginId actor => s.signManifest signer pluginId actor
  | .publish pluginId actor => s.publish pluginId actor
  | .retire pluginId actor reason => s.retire pluginId actor reason
  | .sendBackToDevelopment pluginId actor reason => s.sendBackToDevelopment pluginId actor reason

def step (signer : LicenseKeySigner) (s : PublishingEngine) (op : Operation) : PublishingEngine :=
  (s.perform signer op).2

/-- A manifest that is found and is not in validation has the signature that would be put on it. -/
def SignsValidated (signer : LicenseKeySigner) (s : PublishingEngine) : Operation → Prop
  | .signManifest pluginId _ => ∀ manifest, s.registry.get pluginId = some manifest →
      manifest.status ≠ .validated → manifest.signature = some (PluginValidator.sign signer manifest)
  | _ => True

/-! ### What raises changes nothing -/

section Atomic

variable {signer : LicenseKeySigner} {s : PublishingEngine} {pluginId actor : String}

lemma transition_atomic (manifest : PluginManifest) (toStatus : PublishingStatus) (reason : Option String) :
    AtomicOn id s (s.transition manifest toStatus actor reason) := by
  unfold transition
  split
  · exact atomicOn_ok _
  · exact atomicOn_error_iff.mpr rfl

lemma transitionOf_atomic (toStatus : PublishingStatus) (reason : Option String) :
    AtomicOn id s (s.transitionOf pluginId toStatus actor reason) := by
  unfold transitionOf
  split
  · exact atomicOn_error_iff.mpr rfl
  · exact transition_atomic _ toStatus reason

lemma validateManifest_atomic : AtomicOn id s (s.validateManifest signer pluginId actor) := by
  unfold validateManifest
  split
  · exact atomicOn_error_iff.mpr rfl
  · split
    · exact atomicOn_error_iff.mpr rfl
    · split
      · exact transition_atomic _ .validated none
      · exact atomicOn_error_iff.mpr rfl

lemma signed_mem_allowed_iff {status : PublishingStatus} :
    PublishingStatus.signed ∈ status.allowed ↔ status = .validated := by
  cases status <;> decide

/-- Putting a signature on a manifest that is found changes the registry, unless it is there already. -/
lemma save_signed_iff {manifest : PluginManifest} (hget : s.registry.get pluginId = some manifest)
    (signature : Option String) :
    { s with registry := s.registry.save { manifest with signature } } = s ↔
      manifest.signature = signature := by
  obtain rfl := Store.key_of_get hget
  constructor
  · intro h
    have hsaved : (s.registry.save { manifest with signature }).get manifest.id = some manifest := by
      rw [show s.registry.save { manifest with signature } = s.registry from congrArg registry h]
      exact hget
    have hself : (s.registry.save { manifest with signature }).get manifest.id =
        some { manifest with signature } := Store.get_save_self ..
    exact congrArg PluginManifest.signature (Option.some.inj (hsaved.symm.trans hself))
  · rintro rfl
    rw [Store.save_self hget]

/-- **Signing.**  It changes nothing when it raises iff what it signs has been validated, or has the
signature already. -/
lemma signManifest_atomic_iff :
    AtomicOn id s (s.signManifest signer pluginId actor) ↔
      SignsValidated signer s (.signManifest pluginId actor) := by
  unfold signManifest get
  dsimp only [SignsValidated]
  cases hget : s.registry.get pluginId with
  | none => exact iff_of_true (atomicOn_error_iff.mpr rfl) fun _ h => by cases h
  | some manifest =>
    simp only [Option.some.injEq, forall_eq', transition, signed_mem_allowed_iff]
    by_cases hvalidated : manifest.status = .validated
    · rw [if_pos hvalidated]
      exact iff_of_true (atomicOn_ok _) fun hne => absurd hvalidated hne
    · rw [if_neg hvalidated, atomicOn_error_iff]
      exact (save_signed_iff hget _).trans ⟨fun h _ => h, fun h => h hvalidated⟩

/-- **One operation.** -/
theorem atomic_iff (op : Operation) : AtomicOn id s (s.perform signer op) ↔ SignsValidated signer s op := by
  cases op with
  | register manifest => exact iff_of_true (atomicOn_ok _) trivial
  | validateManifest pluginId actor => exact iff_of_true validateManifest_atomic trivial
  | signManifest pluginId actor => exact signManifest_atomic_iff
  | publish pluginId actor => exact iff_of_true (transitionOf_atomic _ _) trivial
  | retire pluginId actor reason => exact iff_of_true (transitionOf_atomic _ _) trivial
  | sendBackToDevelopment pluginId actor reason => exact iff_of_true (transitionOf_atomic _ _) trivial

/-- **Publication is atomic, exactly.**  In a run every operation that raises leaves the manifests, the
registry and the history as they were, iff whatever is signed has been validated, or has the signature
that would be put on it. -/
theorem along_publishingAtomic_iff (signer : LicenseKeySigner) (s : PublishingEngine) (ops : List Operation) :
    Along (step signer) (fun s op => AtomicOn id s (s.perform signer op)) s ops ↔
      Along (step signer) (SignsValidated signer) s ops :=
  along_congr (I := fun _ => True) trivial (fun _ _ _ _ => trivial) fun _ op _ => atomic_iff op

/-- A manifest is signed as soon as it is registered. -/
def signedAtOnce : List Operation :=
  [.register
      { id := "p1", name := "Plugin 1", version := "1.0.0", pluginType := .agent, author := "a",
        description := "...", license := "MIT" },
    .signManifest "p1" "dev1"]

/-- Signing it raises, and it has a signature. -/
theorem signedAtOnce_changed :
    ∃ signer : LicenseKeySigner,
      ¬ Along (step signer) (fun s op => AtomicOn id s (s.perform signer op)) {} signedAtOnce := by
  let signer : LicenseKeySigner := ⟨fun _ => "00", fun _ => by decide⟩
  refine ⟨signer, ?_⟩
  rintro ⟨-, hatomic, -⟩
  let s : PublishingEngine := run (step signer) {} (signedAtOnce.take 1)
  have hsame := hatomic (invalidTransition .development .signed) rfl
  have hsignature := congrArg
    (fun s : PublishingEngine => (s.registry.get "p1").map PluginManifest.signature) hsame
  have hbefore : (s.registry.get "p1").map PluginManifest.signature = some none := by decide +kernel
  have hafter : ((s.perform signer (.signManifest "p1" "dev1")).2.registry.get "p1").map
      PluginManifest.signature ≠ some none := by decide +kernel
  exact hafter (hsignature.trans hbefore)

end Atomic

end PublishingEngine

end Tmis.PlatformSdk
