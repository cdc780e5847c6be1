import Mathlib.Data.List.Basic
import Tmis.Platform.Licensing
import Tmis.PlatformSdk.Extensions

/-!
# Validation of manifests

`platform_sdk.validation.PluginValidator`: what is wrong with a manifest before it can be published, and
the signature that is put on it.

* `ValidationIssue`, `ValidationReport` — what is reported;
* `canonicalPayload`, `sign`, `verifySignature` — the signature of a manifest;
* `assertNoCycle`, `checkDependencies` — the search for circular dependencies;
* `validate` — all checks.
-/

namespace Tmis.PlatformSdk

open Tmis.Lib Tmis.Platform.Licensing

abbrev PluginRegistry := Store String PluginManifest PluginManifest.id

def sdkVersion : String := "1.0.0"

structure ValidationIssue where
  field : String
  message : String
  deriving DecidableEq

structure ValidationReport where
  pluginId : String
  issues : List ValidationIssue
  deriving DecidableEq

def ValidationReport.isValid (report : ValidationReport) : Bool := report.issues.isEmpty

namespace PluginValidator

/-! ### Signatures -/

/-- `_canonical_payload`. -/
def canonicalPayload (manifest : PluginManifest) : String :=
  manifest.id ++ ":" ++ manifest.version ++ ":" ++ manifest.author

def sign (signer : LicenseKeySigner) (manifest : PluginManifest) : String :=
  signer.sign (canonicalPayload manifest)

def verifySignature (signer : LicenseKeySigner) (manifest : PluginManifest) : Except PyException Bool :=
  match manifest.signature with
  | none => .ok false
  | some signature => do
    let decoded ← signer.verify signature
    return decoded = some (canonicalPayload manifest)

/-! ### Checks -/

/-- An issue with a field that is left empty. -/
def checkPresent (field value message : String) : List ValidationIssue :=
  if value = "" then [⟨field, message⟩] else []

/-- `_check_conformity`. -/
def checkConformity (manifest : PluginManifest) : List ValidationIssue :=
  checkPresent "id" manifest.id "l'identifiant est obligatoire" ++
  checkPresent "name" manifest.name "le nom est obligatoire" ++
  checkPresent "version" manifest.version "la version est obligatoire" ++
  checkPresent "license" manifest.license "la licence est obligatoire" ++
  checkPresent "description" manifest.description "la description est obligatoire"

/-- `_check_permissions`. -/
def checkPermissions (manifest : PluginManifest) : List ValidationIssue :=
  manifest.permissions.filterMap fun permission =>
    match ExtensionPermission.ofValue permission with
    | .ok _ => none
    | .error _ => some ⟨"permissions", "permission inconnue : " ++ pyRepr permission⟩

/-- `_check_compatibility`. -/
def checkCompatibility (manifest : PluginManifest) : List ValidationIssue :=
  if manifest.compatibility ∈ ["*", sdkVersion] then []
  else [⟨"compatibility", "incompatible avec le SDK " ++ sdkVersion ++ " (déclaré : " ++
    pyRepr manifest.compatibility ++ ")"⟩]

/-! ### Dependencies -/

def circularDependency (id : String) : ValidationIssue :=
  ⟨"dependencies", "dépendance circulaire détectée sur " ++ id⟩

def selfDependency (id : String) : ValidationIssue := ⟨"dependencies", "dépendance vers soi-même : " ++ id⟩

def missingDependency (id : String) : ValidationIssue := ⟨"dependencies", "dépendance introuvable : " ++ id⟩

/-- `CircularDependencyError`, with the text of the issue it becomes. -/
def circularDependencyError (id : String) : PyException :=
  ⟨"CircularDependencyError", (circularDependency id).message⟩

/-- The registered identifiers that a search has not visited. -/
def unvisited (registry : PluginRegistry) (visited : List String) : ℕ :=
  registry.entries.keys.countP (· ∉ visited)

lemma unvisited_lt {registry : PluginRegistry} {visited : List String} {id : String}
    {manifest : PluginManifest} (hget : registry.get id = some manifest) (hfresh : id ∉ visited) :
    unvisited registry (id :: visited) < unvisited registry visited := by
  have hfewer : ∀ ids : List String, ids.countP (· ∉ id :: visited) ≤ ids.countP (· ∉ visited) := by
    refine fun ids => List.countP_mono_left fun x _ hx => ?_
    rw [decide_eq_true_eq] at hx ⊢
    exact fun hmem => hx (List.mem_cons_of_mem _ hmem)
  obtain ⟨before, after, hkeys⟩ := List.append_of_mem (Dict.mem_keys_iff.mpr ⟨manifest, hget⟩)
  have hbefore := hfewer before
  have hafter := hfewer after
  rw [unvisited, unvisited, hkeys, List.countP_append, List.countP_append,
    List.countP_cons_of_neg (by simp), List.countP_cons_of_pos (by simpa using hfresh)]
  omega

/-- `_assert_no_cycle`. -/
def assertNoCycle (registry : PluginRegistry) (rootId currentId : String) (visited : List String) :
    Except PyException Unit :=
  if _ : currentId ∈ visited then .error (circularDependencyError currentId)
  else match _ : registry.get currentId with
    | none => .ok ()
    | some manifest => manifest.dependencies.forM fun dependencyId =>
        if dependencyId = rootId then .error (circularDependencyError rootId)
        else assertNoCycle registry rootId dependencyId (currentId :: visited)
termination_by unvisited registry visited
decreasing_by exact unvisited_lt ‹_› ‹_›

/-- What is reported of one dependency of a manifest. -/
def dependencyIssue (registry : PluginRegistry) (manifest : PluginManifest) (dependencyId : String) :
    Option ValidationIssue :=
  if dependencyId = manifest.id then some (selfDependency dependencyId)
  else if registry.get dependencyId = none then some (missingDependency dependencyId)
  else match assertNoCycle registry manifest.id dependencyId [manifest.id] with
    | .ok () => none
    | .error e => some ⟨"dependencies", e.text⟩

/-- `_check_dependencies`. -/
def checkDependencies (registry : PluginRegistry) (manifest : PluginManifest) : List ValidationIssue :=
  manifest.dependencies.filterMap (dependencyIssue registry manifest)

/-! ### Validation -/

/-- `_check_signature`. -/
def checkSignature (signer : LicenseKeySigner) (manifest : PluginManifest) :
    Except PyException (List ValidationIssue) := do
  if ← verifySignature signer manifest then return []
  else return [⟨"signature", "signature invalide ou altérée"⟩]

def validate (signer : LicenseKeySigner) (registry : PluginRegistry) (manifest : PluginManifest) :
    Except PyException ValidationReport := do
  let issues := checkConformity manifest ++ checkPermissions manifest ++ checkCompatibility manifest ++
    checkDependencies registry manifest
  let signatureIssues ← if manifest.signature = none then pure [] else checkSignature signer manifest
  return ⟨manifest.id, issues ++ signatureIssues⟩

end PluginValidator

end Tmis.PlatformSdk

/-!
## What a signature binds

The signature of a manifest is that of one text made of its identifier, its version and its author.

* `verifySignature_signed` — a signature verifies on the manifests that have the same text;
* `canonicalPayload_inj` — which have the same identifier, version and author, where the text can be taken
  apart;
* `signature_binds` — so a signature binds the text, and no more.
-/

namespace Tmis.PlatformSdk

open Tmis.Lib Tmis.Platform.Licensing PluginValidator

/-- A manifest with the signature of another one. -/
def PluginManifest.signedAs (manifest : PluginManifest) (signer : LicenseKeySigner)
    (other : PluginManifest) : PluginManifest :=
  { manifest with signature := some (sign signer other) }

variable {signer : LicenseKeySigner} {manifest manifest' : PluginManifest}

/-- A signature verifies iff the text that was signed is the manifest's. -/
lemma verifySignature_signed :
    verifySignature signer (manifest'.signedAs signer manifest) =
      .ok (canonicalPayload manifest = canonicalPayload manifest') := by
  unfold verifySignature PluginManifest.signedAs sign
  dsimp only
  rw [verify_sign]
  show Except.ok (decide (some (canonicalPayload manifest) = some (canonicalPayload manifest'))) = _
  simp only [Option.some.injEq]

/-- The text can be taken apart where neither identifiers nor versions have a colon in them. -/
lemma canonicalPayload_inj (hid : ':' ∉ manifest.id.toList) (hversion : ':' ∉ manifest.version.toList)
    (hid' : ':' ∉ manifest'.id.toList) (hversion' : ':' ∉ manifest'.version.toList)
    (h : canonicalPayload manifest = canonicalPayload manifest') :
    manifest.id = manifest'.id ∧ manifest.version = manifest'.version ∧
      manifest.author = manifest'.author := by
  have hlist := congrArg String.toList h
  simp only [canonicalPayload, String.toList_append, List.append_assoc] at hlist
  obtain ⟨hids, hrest⟩ := append_cons_inj hid hid' hlist
  obtain ⟨hversions, hauthors⟩ := append_cons_inj hversion hversion' hrest
  exact ⟨String.toList_injective hids, String.toList_injective hversions,
    String.toList_injective hauthors⟩

/-- **Signatures bind the text.**  The signature of a manifest verifies on the manifests with the same
text, and on no other; they have the same identifier, version and author where neither identifiers nor
versions have a colon in them. -/
theorem signature_binds (signer : LicenseKeySigner) (manifest manifest' : PluginManifest) :
    verifySignature signer (manifest'.signedAs signer manifest) =
        .ok (canonicalPayload manifest = canonicalPayload manifest') ∧
      ((∀ m ∈ [manifest, manifest'], ':' ∉ m.id.toList ∧ ':' ∉ m.version.toList) →
        (canonicalPayload manifest = canonicalPayload manifest' ↔
          manifest.id = manifest'.id ∧ manifest.version = manifest'.version ∧
            manifest.author = manifest'.author)) := by
  refine ⟨verifySignature_signed, fun hcolon => ⟨fun h => ?_, ?_⟩⟩
  · obtain ⟨hid, hversion⟩ := hcolon manifest List.mem_cons_self
    obtain ⟨hid', hversion'⟩ := hcolon manifest' (List.mem_cons_of_mem _ (List.mem_singleton_self _))
    exact canonicalPayload_inj hid hversion hid' hversion' h
  · rintro ⟨hid, hversion, hauthor⟩
    rw [canonicalPayload, canonicalPayload, hid, hversion, hauthor]

/-- A plugin that asks for no permission. -/
def modest : PluginManifest :=
  { id := "p1", name := "Plugin 1", version := "1.0.0", pluginType := .agent, author := "a",
    description := "...", license := "MIT" }

/-- The same one, once it asks for a permission. -/
def greedy : PluginManifest := { modest with permissions := ["manage_users"] }

/-- Another identifier and another version, with the same text. -/
def shifted : PluginManifest := { modest with id := "p1:1.0.0", version := "a", author := "" }

/-- The same text, but for the colon at its end. -/
def unshifted : PluginManifest := { modest with author := "a:" }

/-- Whatever the signer: the signature is that of a plugin that asks for more permissions too, and that of
another version of another plugin. -/
theorem signature_unbound :
    (modest.permissions ≠ greedy.permissions ∧ unshifted.id ≠ shifted.id ∧ unshifted.version ≠ shifted.version) ∧
      ∀ signer : LicenseKeySigner,
        verifySignature signer (greedy.signedAs signer modest) = .ok true ∧
          verifySignature signer (shifted.signedAs signer unshifted) = .ok true := by
  refine ⟨⟨by decide, by decide, by decide⟩, fun signer => ⟨?_, ?_⟩⟩
  · rw [verifySignature_signed, decide_eq_true (show canonicalPayload modest = canonicalPayload greedy from rfl)]
  · rw [verifySignature_signed,
      decide_eq_true (show canonicalPayload unshifted = canonicalPayload shifted by decide)]

end Tmis.PlatformSdk
