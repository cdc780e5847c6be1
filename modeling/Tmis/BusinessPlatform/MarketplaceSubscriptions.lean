import Tmis.BusinessPlatform.Licenses
import Tmis.CabinetOs.Billing
import Tmis.PlatformSdk.Extensions

/-!
# Subscriptions to the extensions of the marketplace

`business_platform.marketplace_subscriptions`: subscribing to a plugin installs it, grants it a license
and bills its first month; unsubscribing takes the plugin and the license back.  A firm has one
subscription to a plugin, and it names one grant: a second subscription takes the place of the first.

* `MarketplaceSubscriptionEngine.subscribe`, `unsubscribe` — the calls, under the source's names;
* `MarketplaceOperation`, `step` — one call, a call of the extensions, or time that passes;
* `subscribe_cases`, `unsubscribe_cases` — what a call does;
* `Linked` — every grant has a subscription, and every subscription a grant and an installed plugin;
* `removes_iff` — unsubscribing removes access all along a run iff no grant is left behind in it;
* `noneSuperseded_of_once` — none is where no one subscribes again before access has ended.
-/

namespace Tmis.BusinessPlatform

open Tmis.Lib Tmis.PlatformSdk Tmis.CabinetOs

inductive ExtensionSubscriptionStatus where
  | active | cancelled
  deriving DecidableEq

structure ExtensionSubscription where
  id : Uuid
  firmId : String
  pluginId : String
  licenseGrantId : Uuid
  monthlyPriceUsd : ℚ
  status : ExtensionSubscriptionStatus := .active
  subscribedAt : ℤ

def ExtensionSubscription.key (subscription : ExtensionSubscription) : String × String :=
  (subscription.firmId, subscription.pluginId)

/-- The engine with its store and the engines it is given; `MarketplaceEngine` passes the calls that are
made here on to the extensions. -/
structure MarketplaceSubscriptionEngine where
  extensions : ExtensionEngine := {}
  licenses : LicenseEngine
  billing : BillingEngine := {}
  store : Store (String × String) ExtensionSubscription ExtensionSubscription.key := ∅
  uuids : ℕ := 0

namespace MarketplaceSubscriptionEngine

variable (engine : MarketplaceSubscriptionEngine)

/-- The invoice for a subscription that has a price. -/
def bill (firmId pluginId : String) (monthlyPriceUsd : ℚ) (now : ℤ) : Except PyException BillingEngine := do
  if 0 < monthlyPriceUsd then
    let (invoice, billing) := engine.billing.createInvoice firmId firmId none now
    let (_, billing) ← billing.addInvoiceLine invoice.id
      ("Extension " ++ pluginId ++ " (abonnement mensuel)") 1 monthlyPriceUsd .flatFee
    let (_, billing) ← billing.issueInvoice invoice.id none now
    return billing
  else
    return engine.billing

/-- The subscription, and the engine also where a call raises on the way. -/
def subscribe (firmId pluginId : String) (requestedPermissions : Finset ExtensionPermission)
    (monthlyPriceUsd : ℚ) (now : ℤ) :
    Except PyException ExtensionSubscription × MarketplaceSubscriptionEngine :=
  match engine.extensions.install firmId pluginId requestedPermissions with
  | .error e => (.error e, engine)
  | .ok (_, extensions) =>
    let engine := { engine with extensions }
    match engine.licenses.assign firmId .api pluginId 365 now with
    | .error e => (.error e, engine)
    | .ok (grant, licenses) =>
      let engine := { engine with licenses }
      match engine.bill firmId pluginId monthlyPriceUsd now with
      | .error e => (.error e, engine)
      | .ok billing =>
        let subscription : ExtensionSubscription :=
          { id := engine.uuids
            firmId
            pluginId
            licenseGrantId := grant.id
            monthlyPriceUsd
            subscribedAt := now }
        (.ok subscription,
          { engine with
            billing
            store := engine.store.save subscription
            uuids := engine.uuids + 1 })

/-- `_require`. -/
def require (firmId pluginId : String) : Except PyException ExtensionSubscription :=
  match engine.store.get (firmId, pluginId) with
  | none => .error (keyError ("no extension subscription for firm=" ++ firmId ++ " plugin=" ++ pluginId))
  | some subscription => .ok subscription

/-- The subscription, and the engine also where a call raises on the way. -/
def unsubscribe (firmId pluginId : String) :
    Except PyException ExtensionSubscription × MarketplaceSubscriptionEngine :=
  match engine.require firmId pluginId with
  | .error e => (.error e, engine)
  | .ok subscription =>
    match engine.extensions.uninstall firmId pluginId with
    | .error e => (.error e, engine)
    | .ok (_, extensions) =>
      let engine := { engine with extensions }
      match engine.licenses.revoke firmId subscription.licenseGrantId with
      | .error e => (.error e, engine)
      | .ok (_, licenses) =>
        let subscription := { subscription with status := .cancelled }
        (.ok subscription, { engine with licenses, store := engine.store.save subscription })

end MarketplaceSubscriptionEngine

/-! ### Runs -/

/-- The engine, and the time. -/
structure MarketplaceState where
  engine : MarketplaceSubscriptionEngine
  clock : ℤ

inductive MarketplaceOperation where
  | extensions (op : PlatformSdk.Operation)
  | subscribe (firmId pluginId : String) (requestedPermissions : Finset ExtensionPermission)
      (monthlyPriceUsd : ℚ)
  | unsubscribe (firmId pluginId : String)
  | tick (duration : ℕ)

namespace MarketplaceState

/-- Nothing is installed, granted or subscribed to, at some time. -/
def start (sign : String → String) (clock : ℤ) : MarketplaceState := ⟨{ licenses := { sign } }, clock⟩

def step (s : MarketplaceState) : MarketplaceOperation → MarketplaceState
  | .extensions op =>
      { s with engine := { s.engine with extensions := PlatformSdk.step s.engine.extensions op } }
  | .subscribe firmId pluginId requestedPermissions monthlyPriceUsd =>
      { s with
        engine := (s.engine.subscribe firmId pluginId requestedPermissions monthlyPriceUsd s.clock).2 }
  | .unsubscribe firmId pluginId => { s with engine := (s.engine.unsubscribe firmId pluginId).2 }
  | .tick duration => { s with clock := s.clock + duration }

/-- The grants of a firm for a plugin that are active now. -/
def active (s : MarketplaceState) (firmId pluginId : String) : List LicenseGrant :=
  s.engine.licenses.activeGrantsForHolder firmId pluginId s.clock

/-- Unsubscribing leaves no active grant. -/
def Removes (s : MarketplaceState) : MarketplaceOperation → Prop
  | .unsubscribe firmId pluginId => (s.step (.unsubscribe firmId pluginId)).active firmId pluginId = []
  | _ => True

/-- Where one unsubscribes, the active grants are the one that the subscription names: those of the
subscriptions whose place it took have been revoked or have expired. -/
def NoneSuperseded (s : MarketplaceState) : MarketplaceOperation → Prop
  | .unsubscribe firmId pluginId => ∀ grant ∈ s.active firmId pluginId,
      (s.engine.store.get (firmId, pluginId)).map (·.licenseGrantId) = some grant.id
  | _ => True

/-- One subscribes where no grant is active. -/
def Once (s : MarketplaceState) : MarketplaceOperation → Prop
  | .subscribe firmId pluginId _ _ => s.active firmId pluginId = []
  | _ => True

end MarketplaceState

/-! ### What a call does -/

section Calls

open MarketplaceSubscriptionEngine

variable {engine : MarketplaceSubscriptionEngine} {firmId pluginId : String}

/-- An invoice is always made, gets its line and is issued. -/
lemma bill_ok (engine : MarketplaceSubscriptionEngine) (firmId pluginId : String) (monthlyPriceUsd : ℚ)
    (now : ℤ) : ∃ billing, engine.bill firmId pluginId monthlyPriceUsd now = .ok billing := by
  unfold bill
  by_cases hprice : 0 < monthlyPriceUsd
  · rw [if_pos hprice]
    have hdraft : (engine.billing.createInvoice firmId firmId none now).2.invoices.get
        (engine.billing.createInvoice firmId firmId none now).1.id = some _ := Store.get_save_self ..
    obtain ⟨r, hadd⟩ := BillingEngine.addInvoiceLine_finds hdraft
      ("Extension " ++ pluginId ++ " (abonnement mensuel)") 1 monthlyPriceUsd .flatFee 0
    obtain ⟨hid, hget⟩ := BillingEngine.get_of_addInvoiceLine_ok hadd
    simp only [bind_eq_ok, pure_eq_ok]
    exact ⟨_, r, hadd, _, BillingEngine.issueInvoice_ok.mpr ⟨r.1, hid ▸ hget, rfl⟩, rfl⟩
  · rw [if_neg hprice]
    exact ⟨engine.billing, rfl⟩

/-- The grant that a new subscription makes. -/
def newGrant (engine : LicenseEngine) (firmId pluginId : String) (now : ℤ) : LicenseGrant :=
  { id := engine.uuids
    firmId
    licenseType := .api
    holderId := pluginId
    key := engine.sign (encode engine.uuids firmId .api)
    grantedAt := now
    expiresAt := now + days 365 }

/-- **A call of `subscribe`** raises before it does anything, or installs the plugin and makes a grant and
a subscription that names it. -/
theorem subscribe_cases (engine : MarketplaceSubscriptionEngine) (firmId pluginId : String)
    (requestedPermissions : Finset ExtensionPermission) (monthlyPriceUsd : ℚ) (now : ℤ) :
    (engine.subscribe firmId pluginId requestedPermissions monthlyPriceUsd now).2 = engine ∨
    ∃ found extensions billing subscription,
      engine.extensions.install firmId pluginId requestedPermissions = .ok (found, extensions) ∧
      subscription.key = (firmId, pluginId) ∧ subscription.licenseGrantId = engine.licenses.uuids ∧
      (engine.subscribe firmId pluginId requestedPermissions monthlyPriceUsd now).2 =
        { extensions
          licenses := { engine.licenses with
            grants := engine.licenses.grants.save (newGrant engine.licenses firmId pluginId now)
            uuids := engine.licenses.uuids + 1 }
          billing
          store := engine.store.save subscription
          uuids := engine.uuids + 1 } := by
  cases hinstall : engine.extensions.install firmId pluginId requestedPermissions with
  | error e =>
    refine Or.inl ?_
    rw [subscribe, hinstall]
  | ok installed =>
    obtain ⟨found, extensions⟩ := installed
    refine Or.inr ⟨found, extensions, ?_⟩
    rw [subscribe, hinstall]
    dsimp only [LicenseEngine.assign]
    rw [if_neg (by decide)]
    dsimp only
    obtain ⟨billing, hbill⟩ := bill_ok _ firmId pluginId monthlyPriceUsd now
    rw [hbill]
    exact ⟨billing, _, rfl, rfl, rfl, rfl⟩

/-- Every grant has a subscription of its firm to its holder, and every subscription a grant and an
installed plugin. -/
structure Linked (engine : MarketplaceSubscriptionEngine) : Prop where
  subscribed : ∀ firmId pluginId grant, engine.licenses.grants.get (firmId, grant.id) = some grant →
    grant.holderId = some pluginId →
    ∃ subscription, engine.store.get (firmId, pluginId) = some subscription
  granted : ∀ firmId pluginId subscription, engine.store.get (firmId, pluginId) = some subscription →
    ∃ grant, engine.licenses.grants.get (firmId, subscription.licenseGrantId) = some grant
  installed : ∀ firmId pluginId subscription, engine.store.get (firmId, pluginId) = some subscription →
    ∃ found, engine.extensions.store.get (firmId, pluginId) = some found

/-- **A call of `unsubscribe`** finds no subscription, or revokes the grant that it names. -/
theorem unsubscribe_cases (h : Linked engine) (firmId pluginId : String) :
    (engine.store.get (firmId, pluginId) = none ∧ (engine.unsubscribe firmId pluginId).2 = engine) ∨
    ∃ found extensions subscription grant,
      engine.extensions.uninstall firmId pluginId = .ok (found, extensions) ∧
      engine.store.get (firmId, pluginId) = some subscription ∧
      engine.licenses.grants.get (firmId, subscription.licenseGrantId) = some grant ∧
      (engine.unsubscribe firmId pluginId).2 = { engine with
        extensions
        licenses := engine.licenses.revoked grant
        store := engine.store.save { subscription with status := .cancelled } } := by
  cases hget : engine.store.get (firmId, pluginId) with
  | none =>
    refine Or.inl ⟨rfl, ?_⟩
    rw [unsubscribe, MarketplaceSubscriptionEngine.require, hget]
  | some subscription =>
    obtain ⟨installed, hinstalled⟩ := h.installed _ _ _ hget
    obtain ⟨grant, hgrant⟩ := h.granted _ _ _ hget
    have huninstall := uninstall_ok.mpr ⟨installed, hinstalled, rfl⟩
    refine Or.inr ⟨_, _, subscription, grant, huninstall, rfl, hgrant, ?_⟩
    rw [unsubscribe, MarketplaceSubscriptionEngine.require, hget]
    dsimp only
    rw [huninstall]
    dsimp only [LicenseEngine.revoke]
    rw [require_ok.mpr hgrant]
    rfl

end Calls

/-! ### Subscriptions, grants and plugins -/

section Runs

open MarketplaceState

variable {s : MarketplaceState} {sign : String → String} {clock : ℤ}

lemma linked_start : Linked (start sign clock).engine where
  subscribed _ _ _ h := nomatch h
  granted _ _ _ h := nomatch h
  installed _ _ _ h := nomatch h

lemma Linked.subscribe (h : Linked s.engine) (firmId pluginId : String)
    (requestedPermissions : Finset ExtensionPermission) (monthlyPriceUsd : ℚ) :
    Linked (s.step (.subscribe firmId pluginId requestedPermissions monthlyPriceUsd)).engine := by
  rw [MarketplaceState.step]
  rcases subscribe_cases s.engine firmId pluginId requestedPermissions monthlyPriceUsd s.clock with
    hsame | ⟨found, extensions, billing, subscription, hinstall, hkey, hnamed, hnext⟩
  · rw [hsame]
    exact h
  · rw [hnext]
    constructor
    · intro firmId' pluginId' grant hgrant hholder
      rcases Store.of_get_save hgrant with rfl | hgrant
      · -- the new grant has the new subscription
        obtain rfl : pluginId = pluginId' := Option.some.inj hholder
        have hfirm : firmId = firmId' := congrArg Prod.fst (Store.key_of_get hgrant)
        subst hfirm
        exact ⟨subscription, hkey ▸ Store.get_save_self ..⟩
      · exact Store.exists_get_save _ (h.subscribed _ _ _ hgrant hholder)
    · intro firmId' pluginId' subscription' hget
      rcases Store.get_save_cases hget with ⟨hpair, rfl⟩ | ⟨-, hget⟩
      · rw [hkey] at hpair
        cases hpair
        rw [hnamed]
        exact ⟨_, Store.get_save_self ..⟩
      · exact Store.exists_get_save _ (h.granted _ _ _ hget)
    · intro firmId' pluginId' subscription' hget
      obtain ⟨_, _, _, _, _, hextensions⟩ := install_ok.mp hinstall
      cases hextensions
      rcases Store.get_save_cases hget with ⟨hpair, rfl⟩ | ⟨-, hget⟩
      · rw [hkey] at hpair
        cases hpair
        exact ⟨_, Store.get_save_self ..⟩
      · exact Store.exists_get_save _ (h.installed _ _ _ hget)

lemma Linked.unsubscribe (h : Linked s.engine) (firmId pluginId : String) :
    Linked (s.step (.unsubscribe firmId pluginId)).engine := by
  rw [MarketplaceState.step]
  rcases unsubscribe_cases h firmId pluginId with
    ⟨-, hsame⟩ | ⟨found, extensions, subscription, grant, huninstall, hget, hgrant, hnext⟩
  · rw [hsame]
    exact h
  · rw [hnext]
    have hpair : subscription.key = (firmId, pluginId) := Store.key_of_get hget
    -- a subscription is cancelled in its place, and names the grant it did
    have hnamed : ∀ firmId' pluginId' subscription',
        (s.engine.store.save { subscription with status := .cancelled }).get (firmId', pluginId') =
          some subscription' →
        ∃ subscription'', s.engine.store.get (firmId', pluginId') = some subscription'' ∧
          subscription'.licenseGrantId = subscription''.licenseGrantId := by
      intro firmId' pluginId' subscription' hget'
      rcases Store.get_save_cases hget' with ⟨hkey, rfl⟩ | ⟨-, hget'⟩
      · have hkey : (firmId', pluginId') = subscription.key := hkey
        rw [hkey, hpair]
        exact ⟨subscription, hget, rfl⟩
      · exact ⟨subscription', hget', rfl⟩
    constructor
    · intro firmId' pluginId' grant' hgrant' hholder
      refine Store.exists_get_save _ ?_
      rcases Store.get_save_cases hgrant' with ⟨hkey, rfl⟩ | ⟨-, hgrant'⟩
      · have hkey : (firmId', grant.id) = grant.storeKey := hkey
        obtain rfl : firmId' = grant.firmId := congrArg Prod.fst hkey
        obtain ⟨rfl, hid⟩ := key_of_grant hgrant
        rw [← hid] at hgrant
        exact h.subscribed _ _ grant hgrant hholder
      · exact h.subscribed _ _ _ hgrant' hholder
    · intro firmId' pluginId' subscription' hget'
      obtain ⟨subscription'', hget'', hsame⟩ := hnamed _ _ _ hget'
      rw [hsame]
      exact Store.exists_get_save _ (h.granted _ _ _ hget'')
    · intro firmId' pluginId' subscription' hget'
      obtain ⟨subscription'', hget'', -⟩ := hnamed _ _ _ hget'
      obtain ⟨_, _, hextensions⟩ := uninstall_ok.mp huninstall
      cases hextensions
      exact Store.exists_get_save _ (h.installed _ _ _ hget'')

theorem linked_step (h : Linked s.engine) (op : MarketplaceOperation) : Linked (s.step op).engine := by
  cases op with
  | extensions op =>
    exact ⟨h.subscribed, h.granted, fun firmId pluginId subscription hget =>
      exists_get_step (h.installed firmId pluginId subscription hget) op⟩
  | subscribe firmId pluginId requestedPermissions monthlyPriceUsd => exact h.subscribe ..
  | unsubscribe firmId pluginId => exact h.unsubscribe ..
  | tick duration => exact h

/-! ### What unsubscribing leaves -/

lemma mem_active {firmId pluginId : String} {grant : LicenseGrant} :
    grant ∈ s.active firmId pluginId ↔
      s.engine.licenses.grants.get (firmId, grant.id) = some grant ∧ grant.holderId = some pluginId ∧
        grant.isActive s.clock = true := mem_activeGrantsForHolder

/-- Of the grants that were active, all but the one that the subscription names still are. -/
lemma mem_active_unsubscribe (h : Linked s.engine) {firmId pluginId : String}
    {subscription : ExtensionSubscription}
    (hget : s.engine.store.get (firmId, pluginId) = some subscription) {other : LicenseGrant} :
    other ∈ (s.step (.unsubscribe firmId pluginId)).active firmId pluginId ↔
      other ∈ s.active firmId pluginId ∧ subscription.licenseGrantId ≠ other.id := by
  rcases unsubscribe_cases h firmId pluginId with
    ⟨hnone, -⟩ | ⟨found, extensions, subscription', grant, -, hget', hgrant, hnext⟩
  · rw [hget] at hnone
    cases hnone
  · obtain rfl : subscription = subscription' := Option.some.inj (hget.symm.trans hget')
    obtain ⟨hfirm, hid⟩ := key_of_grant hgrant
    have hkey : ({ grant with revoked := true } : LicenseGrant).storeKey =
        (firmId, subscription.licenseGrantId) := Prod.ext hfirm hid
    have hgrants : (s.step (.unsubscribe firmId pluginId)).engine.licenses.grants =
        s.engine.licenses.grants.save { grant with revoked := true } := by
      rw [MarketplaceState.step, hnext]
      rfl
    rw [mem_active, mem_active, hgrants]
    change _ ∧ _ ∧ other.isActive s.clock = true ↔ _
    constructor
    · rintro ⟨hother, hholder, hactive⟩
      rcases Store.get_save_cases hother with ⟨-, rfl⟩ | ⟨hapart, hother⟩
      · cases hactive
      · exact ⟨⟨hother, hholder, hactive⟩, fun heq => hapart (by rw [← heq]; exact hkey.symm)⟩
    · rintro ⟨⟨hother, hholder, hactive⟩, hne⟩
      refine ⟨?_, hholder, hactive⟩
      rw [Store.get_save, if_neg]
      · exact hother
      · intro hsame
        exact hne (congrArg Prod.snd (hsame.trans hkey)).symm

/-- **What unsubscribing leaves.**  It revokes the grant that the subscription names, and no other. -/
theorem removes_unsubscribe_iff (h : Linked s.engine) (firmId pluginId : String) :
    Removes s (.unsubscribe firmId pluginId) ↔ NoneSuperseded s (.unsubscribe firmId pluginId) := by
  rw [Removes, NoneSuperseded, List.eq_nil_iff_forall_not_mem]
  cases hget : s.engine.store.get (firmId, pluginId) with
  | none =>
    -- without a subscription there was no grant
    have hactive : ∀ grant, grant ∉ s.active firmId pluginId := by
      intro grant hmem
      obtain ⟨hgrant, hholder, -⟩ := mem_active.mp hmem
      obtain ⟨subscription, hsubscription⟩ := h.subscribed _ _ _ hgrant hholder
      rw [hget] at hsubscription
      cases hsubscription
    have hsame : s.step (.unsubscribe firmId pluginId) = s := by
      rw [MarketplaceState.step, MarketplaceSubscriptionEngine.unsubscribe,
        MarketplaceSubscriptionEngine.require, hget]
    rw [hsame]
    exact iff_of_true hactive fun grant hmem => absurd hmem (hactive grant)
  | some subscription =>
    simp only [mem_active_unsubscribe h hget, Option.map_some, Option.some.injEq, not_and, not_not]

/-- **Unsubscribing removes access** all along a run iff no active grant has lost its subscription to
another one where one unsubscribes. -/
theorem removes_iff (sign : String → String) (clock : ℤ) (ops : List MarketplaceOperation) :
    Along MarketplaceState.step Removes (start sign clock) ops ↔
      Along MarketplaceState.step NoneSuperseded (start sign clock) ops := by
  refine along_congr (I := fun s => Linked s.engine) linked_start (fun s op h _ => linked_step h op) ?_
  intro s op h
  cases op with
  | unsubscribe firmId pluginId => exact removes_unsubscribe_iff h firmId pluginId
  | extensions op => exact Iff.rfl
  | subscribe firmId pluginId requestedPermissions monthlyPriceUsd => exact Iff.rfl
  | tick duration => exact Iff.rfl

/-- A published plugin. -/
def publishedPlugin : PluginManifest :=
  { id := "plugin-1"
    name := "Test plugin"
    version := "1.0.0"
    pluginType := .connector
    author := "test-author"
    description := "A test plugin"
    license := "MIT"
    status := .published }

/-- After two subscriptions to a plugin, unsubscribing leaves the grant of the first. -/
theorem subscribedTwice_keepsAccess :
    ¬ ∀ (sign : String → String) (clock : ℤ) (ops : List MarketplaceOperation),
      Along MarketplaceState.step Removes (start sign clock) ops := by
  intro h
  have hlast := (h id 0 [.extensions (.register publishedPlugin), .subscribe "firm-1" "plugin-1" ∅ 29,
    .subscribe "firm-1" "plugin-1" ∅ 29, .unsubscribe "firm-1" "plugin-1"]).2.2.2.1
  exact absurd (congrArg List.length hlast) (by decide +kernel)

/-! ### Subscribing once -/

/-- The active grants are the ones that the subscriptions name. -/
def Named (s : MarketplaceState) : Prop :=
  ∀ firmId pluginId, ∀ grant ∈ s.active firmId pluginId,
    (s.engine.store.get (firmId, pluginId)).map (·.licenseGrantId) = some grant.id

lemma named_start : Named (start sign clock) := by
  intro firmId pluginId grant hmem
  obtain ⟨hget, -, -⟩ := mem_active.mp hmem
  cases hget

lemma Named.subscribe (h : Named s) {firmId pluginId : String} (hnone : s.active firmId pluginId = [])
    (requestedPermissions : Finset ExtensionPermission) (monthlyPriceUsd : ℚ) :
    Named (s.step (.subscribe firmId pluginId requestedPermissions monthlyPriceUsd)) := by
  rw [MarketplaceState.step]
  rcases subscribe_cases s.engine firmId pluginId requestedPermissions monthlyPriceUsd s.clock with
    hsame | ⟨found, extensions, billing, subscription, -, hkey, hnamed, hnext⟩
  · rw [hsame]
    exact h
  · rw [hnext]
    intro firmId' pluginId' grant hmem
    obtain ⟨hgrant, hholder, hactive⟩ := mem_active.mp hmem
    rcases Store.of_get_save hgrant with rfl | hold
    · obtain rfl : pluginId = pluginId' := Option.some.inj hholder
      have hfirm : firmId = firmId' := congrArg Prod.fst (Store.key_of_get hgrant)
      subst hfirm
      show ((s.engine.store.save subscription).get (firmId, pluginId)).map _ = _
      rw [← hkey, Store.get_save_self, Option.map_some, hnamed]
      rfl
    · -- an older grant is of another firm or plugin
      have hmem : grant ∈ s.active firmId' pluginId' := mem_active.mpr ⟨hold, hholder, hactive⟩
      have hapart : (firmId', pluginId') ≠ subscription.key := by
        rw [hkey]
        rintro ⟨⟩
        rw [hnone] at hmem
        cases hmem
      show ((s.engine.store.save subscription).get (firmId', pluginId')).map _ = _
      rw [Store.get_save, if_neg hapart]
      exact h firmId' pluginId' grant hmem

lemma Named.unsubscribe (hlinked : Linked s.engine) (h : Named s) (firmId pluginId : String) :
    Named (s.step (.unsubscribe firmId pluginId)) := by
  rw [MarketplaceState.step]
  rcases unsubscribe_cases hlinked firmId pluginId with
    ⟨-, hsame⟩ | ⟨found, extensions, subscription, grant, -, hget, -, hnext⟩
  · rw [hsame]
    exact h
  · rw [hnext]
    intro firmId' pluginId' other hmem
    obtain ⟨hother, hholder, hactive⟩ := mem_active.mp hmem
    rcases Store.of_get_save hother with rfl | hother
    · cases hactive
    · have hnamed := h firmId' pluginId' other (mem_active.mpr ⟨hother, hholder, hactive⟩)
      show ((s.engine.store.save _).get (firmId', pluginId')).map _ = _
      rw [Store.get_save]
      split
      · rename_i hsame
        have hsame : (firmId', pluginId') = subscription.key := hsame
        rw [hsame, Store.key_of_get hget, hget] at hnamed
        exact hnamed
      · exact hnamed

/-- A grant that is active later is active now. -/
lemma isActive_of_later {grant : LicenseGrant} {now : ℤ} (duration : ℕ)
    (h : grant.isActive (now + duration) = true) : grant.isActive now = true := by
  simp only [LicenseGrant.isActive, LicenseGrant.isExpired, Bool.and_eq_true, Bool.not_eq_true',
    decide_eq_false_iff_not] at h ⊢
  exact ⟨h.1, by omega⟩

lemma named_step (hlinked : Linked s.engine) (h : Named s) {op : MarketplaceOperation} (hop : Once s op) :
    Named (s.step op) := by
  cases op with
  | extensions op => exact h
  | subscribe firmId pluginId requestedPermissions monthlyPriceUsd => exact h.subscribe hop _ _
  | unsubscribe firmId pluginId => exact h.unsubscribe hlinked firmId pluginId
  | tick duration =>
    intro firmId pluginId grant hmem
    obtain ⟨hget, hholder, hactive⟩ := mem_active.mp hmem
    exact h firmId pluginId grant (mem_active.mpr ⟨hget, hholder, isActive_of_later duration hactive⟩)

/-- **Subscribing once.**  No grant loses its subscription in a run in which one subscribes only where no
grant is active. -/
theorem noneSuperseded_of_once {ops : List MarketplaceOperation}
    (h : Along MarketplaceState.step Once (start sign clock) ops) :
    Along MarketplaceState.step NoneSuperseded (start sign clock) ops := by
  refine h.of_inv (I := fun s => Linked s.engine ∧ Named s) ⟨linked_start, named_start⟩ ?_ ?_
  · rintro s op ⟨hlinked, hnamed⟩ hop
    exact ⟨linked_step hlinked op, named_step hlinked hnamed hop⟩
  · rintro s op ⟨-, hnamed⟩ -
    cases op with
    | unsubscribe firmId pluginId => exact hnamed firmId pluginId
    | extensions op => trivial
    | subscribe firmId pluginId requestedPermissions monthlyPriceUsd => trivial
    | tick duration => trivial

end Runs

end Tmis.BusinessPlatform
