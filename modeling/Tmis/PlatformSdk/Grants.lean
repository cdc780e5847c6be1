import Tmis.PlatformSdk.Extensions
import Tmis.Lib.Run

/-!
# What a firm has granted

The permissions a firm grants to a plugin are kept twice, by the instance and by the permission store.
Uninstalling revokes them in the store only, and the status may be set again afterwards: the two agree
as long as what was uninstalled is left alone, or installed anew.

* `Watched` — a run watched: beside the engine, the instances that have been uninstalled;
* `InStep` — the property of a state;
* `LeavesUninstalled` — the discipline: what was uninstalled is not enabled, nor disabled if it holds
  permissions;
* `Sound` — the invariant of disciplined runs;
* `inStep_step_iff`, `along_inStep_iff` — the runs in which grants stay in step.
-/

namespace Tmis.PlatformSdk

open Tmis.Lib ExtensionEngine

/-! ### Runs watched -/

/-- Beside the engine, the instances that have been uninstalled. -/
structure Watched where
  engine : ExtensionEngine := {}
  uninstalled : Finset Uuid := ∅

namespace Watched

/-- The instances that have been uninstalled after an operation. -/
def recorded (w : Watched) : Operation → Finset Uuid
  | .uninstall firmId pluginId =>
    match w.engine.uninstall firmId pluginId with
    | .ok (found, _) => insert found.id w.uninstalled
    | .error _ => w.uninstalled
  | _ => w.uninstalled

def step (w : Watched) (op : Operation) : Watched where
  engine := PlatformSdk.step w.engine op
  uninstalled := w.recorded op

end Watched

/-- The permission store agrees with the instances, and no instance that was uninstalled is active. -/
structure InStep (w : Watched) : Prop where
  grants : ∀ key found, w.engine.store.get key = some found →
    w.engine.granted key = if found.status = .uninstalled then ∅ else found.grantedPermissions
  stays : ∀ key found, w.engine.store.get key = some found → found.status = .active →
    found.id ∉ w.uninstalled

/-- An instance that was uninstalled is not enabled, and one that stands uninstalled is disabled only
if it was granted nothing. -/
def LeavesUninstalled (w : Watched) : Operation → Prop
  | .enable firmId pluginId => ∀ found, w.engine.store.get (firmId, pluginId) = some found →
      found.id ∉ w.uninstalled
  | .disable firmId pluginId => ∀ found, w.engine.store.get (firmId, pluginId) = some found →
      found.status = .uninstalled → found.grantedPermissions = ∅
  | _ => True

/-- The invariant of disciplined runs. -/
structure Sound (w : Watched) : Prop extends InStep w where
  down : ∀ key found, w.engine.store.get key = some found → found.status = .uninstalled →
    found.id ∈ w.uninstalled
  unique : ∀ key key' found found', w.engine.store.get key = some found →
    w.engine.store.get key' = some found' → found'.id = found.id → key' = key
  id_lt : ∀ key found, w.engine.store.get key = some found → found.id < w.engine.uuids
  uninstalled_lt : ∀ id ∈ w.uninstalled, id < w.engine.uuids

lemma sound_start : Sound {} where
  grants _ _ h := by cases h
  stays _ _ h := by cases h
  down _ _ h := by cases h
  unique _ _ _ _ h := by cases h
  id_lt _ _ h := by cases h
  uninstalled_lt _ h := absurd h (Finset.notMem_empty _)

/-! ### What each change does to the invariant -/

section Preserve

variable {w : Watched} {key : ExtensionKey} {found : ExtensionInstance}

/-- An instance is changed under its key; the grants of others stay as they are. -/
lemma Sound.replace (h : Sound w) (hget : w.engine.store.get key = some found)
    (found' : ExtensionInstance) (hid : found'.id = found.id) (hkey : found'.key = found.key)
    (grants : Dict ExtensionKey (Finset ExtensionPermission))
    (hothers : ∀ key', key' ≠ key → grants.get key' = w.engine.grants.get key')
    (hgrant : (grants.get key).getD ∅ =
      if found'.status = .uninstalled then ∅ else found'.grantedPermissions)
    {uninstalled : Finset Uuid}
    (huninstalled : ∀ id, id ∈ uninstalled ↔ id ∈ w.uninstalled ∨
      (found'.status = .uninstalled ∧ id = found.id))
    (hactive : found'.status = .active → found.id ∉ w.uninstalled) :
    Sound { engine := { w.engine with store := w.engine.store.save found', grants }, uninstalled } := by
  have hat : found'.key = key := hkey.trans (Store.key_of_get hget)
  have hread : ∀ {key' x}, (w.engine.store.save found').get key' = some x →
      key' = key ∧ x = found' ∨ key' ≠ key ∧ w.engine.store.get key' = some x := by
    intro key' x hx
    rw [← hat]
    exact Store.get_save_cases hx
  have hother : ∀ {key' x}, key' ≠ key → w.engine.store.get key' = some x → x.id ≠ found.id :=
    fun hne hx hsame => hne (h.unique _ _ _ _ hget hx hsame)
  refine ⟨⟨?grants, ?stays⟩, ?down, ?unique, ?id_lt, ?uninstalled_lt⟩
  case grants =>
    intro key' x hx
    show (grants.get key').getD ∅ = _
    obtain ⟨rfl, rfl⟩ | ⟨hne, hx⟩ := hread hx
    · exact hgrant
    · rw [hothers key' hne]
      exact h.grants key' x hx
  case stays =>
    intro key' x hx hstatus hmem
    obtain ⟨rfl, rfl⟩ | ⟨hne, hx⟩ := hread hx
    · rcases (huninstalled _).mp hmem with hmem | ⟨hdown, -⟩
      · exact hactive hstatus (hid ▸ hmem)
      · rw [hstatus] at hdown
        cases hdown
    · rcases (huninstalled _).mp hmem with hmem | ⟨-, hsame⟩
      · exact h.stays key' x hx hstatus hmem
      · exact hother hne hx hsame
  case down =>
    intro key' x hx hstatus
    obtain ⟨rfl, rfl⟩ | ⟨hne, hx⟩ := hread hx
    · exact (huninstalled _).mpr (Or.inr ⟨hstatus, hid⟩)
    · exact (huninstalled _).mpr (Or.inl (h.down key' x hx hstatus))
  case unique =>
    intro key₁ key₂ x₁ x₂ hx₁ hx₂ hsame
    obtain ⟨rfl, rfl⟩ | ⟨hne₁, hold₁⟩ := hread hx₁
    · obtain ⟨rfl, -⟩ | ⟨hne₂, hold₂⟩ := hread hx₂
      · rfl
      · exact absurd (hsame.trans hid) (hother hne₂ hold₂)
    · obtain ⟨rfl, rfl⟩ | ⟨-, hold₂⟩ := hread hx₂
      · exact absurd (hsame.symm.trans hid) (hother hne₁ hold₁)
      · exact h.unique _ _ _ _ hold₁ hold₂ hsame
  case id_lt =>
    intro key' x hx
    obtain ⟨rfl, rfl⟩ | ⟨-, hx⟩ := hread hx
    · exact hid ▸ h.id_lt _ _ hget
    · exact h.id_lt _ _ hx
  case uninstalled_lt =>
    intro id hmem
    rcases (huninstalled id).mp hmem with hmem | ⟨-, rfl⟩
    · exact h.uninstalled_lt id hmem
    · exact h.id_lt _ _ hget

/-- A new instance takes the place of what was under its key, with its own grant. -/
lemma Sound.install (h : Sound w) (found : ExtensionInstance) (hid : found.id = w.engine.uuids)
    (hstatus : found.status = .active) :
    Sound { w with engine := { w.engine with
      store := w.engine.store.save found
      grants := w.engine.grants.set found.key found.grantedPermissions
      uuids := w.engine.uuids + 1 } } := by
  have hother : ∀ {key' x}, w.engine.store.get key' = some x → x.id ≠ found.id :=
    fun hx hsame => absurd (h.id_lt _ _ hx) (by rw [hsame, hid]; exact Nat.lt_irrefl _)
  refine ⟨⟨?grants, ?stays⟩, ?down, ?unique, ?id_lt, ?uninstalled_lt⟩
  case grants =>
    intro key' x hx
    show ((w.engine.grants.set found.key found.grantedPermissions).get key').getD ∅ = _
    obtain ⟨rfl, rfl⟩ | ⟨hne, hx⟩ := Store.get_save_cases hx
    · rw [Dict.get_set_self, hstatus]
      rfl
    · rw [Dict.get_set_of_ne _ _ hne]
      exact h.grants key' x hx
  case stays =>
    intro key' x hx hactive hmem
    obtain ⟨rfl, rfl⟩ | ⟨-, hx⟩ := Store.get_save_cases hx
    · exact absurd (h.uninstalled_lt _ hmem) (by rw [hid]; exact Nat.lt_irrefl _)
    · exact h.stays key' x hx hactive hmem
  case down =>
    intro key' x hx hdown
    obtain ⟨rfl, rfl⟩ | ⟨-, hx⟩ := Store.get_save_cases hx
    · rw [hstatus] at hdown
      cases hdown
    · exact h.down key' x hx hdown
  case unique =>
    intro key₁ key₂ x₁ x₂ hx₁ hx₂ hsame
    obtain ⟨rfl, rfl⟩ | ⟨-, hold₁⟩ := Store.get_save_cases hx₁
    · obtain ⟨rfl, -⟩ | ⟨-, hold₂⟩ := Store.get_save_cases hx₂
      · rfl
      · exact absurd hsame (hother hold₂)
    · obtain ⟨rfl, rfl⟩ | ⟨-, hold₂⟩ := Store.get_save_cases hx₂
      · exact absurd hsame.symm (hother hold₁)
      · exact h.unique _ _ _ _ hold₁ hold₂ hsame
  case id_lt =>
    intro key' x hx
    obtain ⟨rfl, rfl⟩ | ⟨-, hx⟩ := Store.get_save_cases hx
    · rw [hid]
      exact Nat.lt_succ_self _
    · exact (h.id_lt _ _ hx).trans (Nat.lt_succ_self _)
  case uninstalled_lt =>
    intro id hmem
    exact (h.uninstalled_lt id hmem).trans (Nat.lt_succ_self _)

end Preserve

/-! ### Runs -/

section Runs

variable {w : Watched} {firmId pluginId : String}

/-- The state of a watched run after a call that may raise. -/
lemma sound_call (h : Sound w) {call : Except PyException (ExtensionInstance × ExtensionEngine)}
    (hok : ∀ r, call = .ok r → Sound { w with engine := r.2 }) :
    Sound { w with engine := afterCall w.engine (call.map Prod.snd) } :=
  (afterCall_map_iff (P := fun engine => Sound { w with engine }) h).mpr hok

/-- A status is set, and it is not one that the grants or the instances uninstalled speak against. -/
lemma Sound.setStatus (h : Sound w) {status : ExtensionStatus} (hstatus : status ≠ .uninstalled)
    (hleaves : ∀ found, w.engine.store.get (firmId, pluginId) = some found →
      (status = .active → found.id ∉ w.uninstalled) ∧
      (found.status = .uninstalled → found.grantedPermissions = ∅)) :
    Sound { w with
      engine := afterCall w.engine ((w.engine.setStatus firmId pluginId status).map Prod.snd) } := by
  refine sound_call h fun r hr => ?_
  obtain ⟨found, hget, rfl⟩ := setStatus_ok.mp hr
  obtain ⟨hactive, hnothing⟩ := hleaves found hget
  have hgranted := h.grants _ _ hget
  refine h.replace hget { found with status } rfl rfl w.engine.grants (fun _ _ => rfl) ?_ ?_ hactive
  · rw [if_neg hstatus]
    by_cases hdown : found.status = .uninstalled
    · rw [if_pos hdown] at hgranted
      rw [hnothing hdown]
      exact hgranted
    · rw [if_neg hdown] at hgranted
      exact hgranted
  · intro id
    refine ⟨Or.inl, ?_⟩
    rintro (hmem | ⟨hdown, -⟩)
    · exact hmem
    · exact absurd hdown hstatus

/-- **One disciplined operation.**  The invariant is kept. -/
theorem Sound.step (h : Sound w) {op : Operation} (hop : LeavesUninstalled w op) :
    Sound (w.step op) := by
  cases op with
  | register manifest => exact { h with }
  | install firmId pluginId requestedPermissions =>
    refine sound_call h fun r hr => ?_
    obtain ⟨manifest, declared, -, -, -, rfl⟩ := install_ok.mp hr
    exact h.install _ rfl rfl
  | uninstall firmId pluginId =>
    cases hcall : w.engine.uninstall firmId pluginId with
    | error e =>
      have hstep : w.step (.uninstall firmId pluginId) = w := by
        simp only [Watched.step, Watched.recorded, PlatformSdk.step, hcall]
        rfl
      rw [hstep]
      exact h
    | ok r =>
      obtain ⟨found, hget, rfl⟩ := uninstall_ok.mp hcall
      have hstep : w.step (.uninstall firmId pluginId) =
          { engine := { w.engine with
              store := w.engine.store.save { found with status := .uninstalled }
              grants := w.engine.grants.pop (firmId, pluginId) }
            uninstalled := insert found.id w.uninstalled } := by
        simp only [Watched.step, Watched.recorded, PlatformSdk.step, hcall]
        rfl
      rw [hstep]
      refine h.replace hget { found with status := .uninstalled } rfl rfl _
        (fun key' hne => Dict.get_pop_of_ne _ hne) ?_ ?_ ?_
      · rw [Dict.get_pop_self]
        rfl
      · intro id
        rw [Finset.mem_insert]
        constructor
        · rintro (rfl | hmem)
          · exact Or.inr ⟨rfl, rfl⟩
          · exact Or.inl hmem
        · rintro (hmem | ⟨-, rfl⟩)
          · exact Or.inr hmem
          · exact Or.inl rfl
      · intro hactive
        cases hactive
  | enable firmId pluginId =>
    refine h.setStatus (by decide) fun found hget => ⟨fun _ => hop found hget, fun hdown => ?_⟩
    exact absurd (h.down _ _ hget hdown) (hop found hget)
  | disable firmId pluginId =>
    refine h.setStatus (by decide) fun found hget => ⟨fun hactive => ?_, hop found hget⟩
    cases hactive
  | update firmId pluginId =>
    refine sound_call h fun r hr => ?_
    obtain ⟨manifest, found, -, hget, rfl⟩ := update_ok.mp hr
    have hgranted := h.grants _ _ hget
    have hstays := h.stays _ _ hget
    refine h.replace hget { found with version := manifest.version } rfl rfl w.engine.grants
      (fun _ _ => rfl) hgranted ?_ hstays
    intro id
    refine ⟨Or.inl, ?_⟩
    rintro (hmem | ⟨hdown, rfl⟩)
    · exact hmem
    · exact h.down _ _ hget hdown

/-- **One operation.**  Where the invariant holds, an operation leaves the grants in step iff it leaves
what was uninstalled alone. -/
theorem inStep_step_iff (h : Sound w) (op : Operation) :
    InStep (w.step op) ↔ LeavesUninstalled w op := by
  refine ⟨fun hafter => ?_, fun hop => (h.step hop).toInStep⟩
  cases op with
  | enable firmId pluginId =>
    intro found hget hmem
    have hengine : (w.step (.enable firmId pluginId)).engine =
        { w.engine with store := w.engine.store.save { found with status := .active } } := by
      show afterCall w.engine ((w.engine.setStatus firmId pluginId .active).map Prod.snd) = _
      rw [setStatus_ok.mpr ⟨found, hget, rfl⟩]
      rfl
    refine hafter.stays found.key { found with status := .active } ?_ rfl hmem
    rw [hengine]
    exact Store.get_save_self ..
  | disable firmId pluginId =>
    intro found hget hdown
    have hengine : (w.step (.disable firmId pluginId)).engine =
        { w.engine with store := w.engine.store.save { found with status := .disabled } } := by
      show afterCall w.engine ((w.engine.setStatus firmId pluginId .disabled).map Prod.snd) = _
      rw [setStatus_ok.mpr ⟨found, hget, rfl⟩]
      rfl
    have hfound : (w.step (.disable firmId pluginId)).engine.store.get found.key =
        some { found with status := .disabled } := by
      rw [hengine]
      exact Store.get_save_self ..
    have hgranted := hafter.grants _ _ hfound
    have hbefore := h.grants _ _ hget
    rw [if_pos hdown, ← Store.key_of_get hget] at hbefore
    rw [hengine, if_neg (fun hstands => by cases hstands)] at hgranted
    exact hgranted.symm.trans hbefore
  | _ => trivial

end Runs

/-- **Grants stay in step, exactly.**  In every state that a run reaches the permission store agrees
with the instances, and no instance that was uninstalled is active, iff no operation of the run enables
an instance that was uninstalled, or disables one that stands uninstalled and was granted permissions. -/
theorem along_inStep_iff (ops : List Operation) :
    Along Watched.step (fun w op => InStep (w.step op)) {} ops ↔
      Along Watched.step LeavesUninstalled {} ops :=
  along_congr sound_start (fun _ _ h hop => h.step hop) (fun _ op h => inStep_step_iff h op)

/-! ### An uninstalled plugin that is enabled -/

/-- A plugin is installed, uninstalled and enabled. -/
def enabledAgain : List Operation :=
  [.register
      { id := "agent-fiscal", name := "Agent Fiscal", version := "1.0.0", pluginType := .agent,
        author := "TMIS Labs", description := "Agent d'analyse fiscale", license := "MIT",
        permissions := ["access_knowledge"], status := .published },
    .install "firm-a" "agent-fiscal" {.accessKnowledge},
    .uninstall "firm-a" "agent-fiscal",
    .enable "firm-a" "agent-fiscal"]

/-- The instance that was uninstalled is active, with permissions that the store does not grant. -/
theorem enabled_again :
    ¬ Along Watched.step (fun w op => InStep (w.step op)) {} enabledAgain := by
  rintro ⟨-, -, -, hinStep, -⟩
  let w := run Watched.step {} enabledAgain
  have hactive : (w.engine.store.get ("firm-a", "agent-fiscal")).map
      (fun found => (found.status, found.grantedPermissions)) = some (.active, {.accessKnowledge}) := by
    decide +kernel
  have hrevoked : w.engine.granted ("firm-a", "agent-fiscal") = ∅ := by decide +kernel
  obtain ⟨found, hget, hfound⟩ := Option.map_eq_some_iff.mp hactive
  obtain ⟨hstatus, hpermissions⟩ := Prod.mk.inj hfound
  have hgranted := hinStep.grants _ found hget
  rw [hstatus, if_neg (by decide), hpermissions] at hgranted
  exact absurd (hrevoked.symm.trans hgranted) (by decide)

end Tmis.PlatformSdk
