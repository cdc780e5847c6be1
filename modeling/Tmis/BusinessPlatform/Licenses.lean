import Mathlib.Algebra.Order.Group.Unbundled.Int
import Tmis.Lib.Calls
import Tmis.Lib.Run
import Tmis.Lib.Store

/-!
# Licenses

`business_platform.licenses`: grants of nominative, floating, guest and API licenses, and the pool of
floating seats of each firm.  A grant is never deleted: it is revoked, or transferred, which revokes it
and makes another one.  The clock reads the same all through a call.

* `LicenseGrant.isActive` — neither revoked nor expired;
* `LicenseEngine.assign`, `revoke`, `transfer`, `checkoutFloating`, `checkinFloating` — the calls;
* `LicenseOperation`, `LicenseState.step` — one call, or time that passes;
* `Effect`, `effect_after` — what an operation does to the grants and the pools.
-/

namespace Tmis.BusinessPlatform

open Tmis.Lib

inductive LicenseType where
  | nominative | floating | guest | api
  deriving DecidableEq

def LicenseType.value : LicenseType → String
  | nominative => "nominative"
  | floating => "floating"
  | guest => "guest"
  | api => "api"

/-- `timedelta(hours=n)`, in microseconds. -/
def hours (n : ℤ) : ℤ := n * 3600000000

/-- `timedelta(days=n)`. -/
def days (n : ℤ) : ℤ := hours (n * 24)

structure LicenseGrant where
  id : Uuid
  firmId : String
  licenseType : LicenseType
  holderId : Option String
  key : String
  grantedAt : ℤ
  expiresAt : ℤ
  revoked : Bool := false
  transferredFrom : Option Uuid := none

namespace LicenseGrant

def isExpired (grant : LicenseGrant) (now : ℤ) : Bool := grant.expiresAt < now

def isActive (grant : LicenseGrant) (now : ℤ) : Bool := !grant.revoked && !grant.isExpired now

end LicenseGrant

structure FloatingLicensePool where
  firmId : String
  totalSeats : ℤ

abbrev GrantKey := String × Uuid

/-- A grant is stored under its firm and its identifier. -/
def LicenseGrant.storeKey (grant : LicenseGrant) : GrantKey := (grant.firmId, grant.id)

/-- The engine with its stores, the signature of the keys it is given, and the number of identifiers
drawn. -/
structure LicenseEngine where
  grants : Store GrantKey LicenseGrant LicenseGrant.storeKey := ∅
  pools : Store String FloatingLicensePool FloatingLicensePool.firmId := ∅
  sign : String → String
  uuids : ℕ := 0

/-- `_encode`. -/
def encode (grantId : Uuid) (firmId : String) (licenseType : LicenseType) : String :=
  "|".intercalate ["lic-" ++ toString grantId, firmId, licenseType.value]

namespace LicenseEngine

variable (engine : LicenseEngine)

def listForFirm (firmId : String) : List LicenseGrant :=
  engine.grants.values.filter (·.firmId = firmId)

def listForHolder (firmId holderId : String) : List LicenseGrant :=
  engine.grants.values.filter fun grant => grant.firmId = firmId ∧ grant.holderId = some holderId

def activeGrantsForHolder (firmId holderId : String) (now : ℤ) : List LicenseGrant :=
  (engine.listForHolder firmId holderId).filter (·.isActive now)

/-- `_require`. -/
def require (firmId : String) (grantId : Uuid) : Except PyException LicenseGrant :=
  match engine.grants.get (firmId, grantId) with
  | none => .error (keyError ("lic-" ++ toString grantId))
  | some grant => .ok grant

def assign (firmId : String) (licenseType : LicenseType) (holderId : String) (durationDays : ℤ)
    (now : ℤ) : Except PyException (LicenseGrant × LicenseEngine) :=
  if licenseType = .floating then .error (valueError "use checkout_floating for FLOATING licenses")
  else
    let grant : LicenseGrant :=
      { id := engine.uuids
        firmId
        licenseType
        holderId
        key := engine.sign (encode engine.uuids firmId licenseType)
        grantedAt := now
        expiresAt := now + days durationDays }
    .ok (grant, { engine with grants := engine.grants.save grant, uuids := engine.uuids + 1 })

def revoke (firmId : String) (grantId : Uuid) : Except PyException (LicenseGrant × LicenseEngine) := do
  let grant ← engine.require firmId grantId
  let grant := { grant with revoked := true }
  return (grant, { engine with grants := engine.grants.save grant })

def transfer (firmId : String) (grantId : Uuid) (newHolderId : String) (now : ℤ) :
    Except PyException (LicenseGrant × LicenseEngine) := do
  let old ← engine.require firmId grantId
  let old := { old with revoked := true }
  let newGrant : LicenseGrant :=
    { id := engine.uuids
      firmId
      licenseType := old.licenseType
      holderId := newHolderId
      key := engine.sign (encode engine.uuids firmId old.licenseType)
      grantedAt := now
      expiresAt := old.expiresAt
      transferredFrom := some old.id }
  return (newGrant,
    { engine with grants := (engine.grants.save old).save newGrant, uuids := engine.uuids + 1 })

def setFloatingPoolCapacity (firmId : String) (totalSeats : ℤ) : FloatingLicensePool × LicenseEngine :=
  let pool : FloatingLicensePool := { firmId, totalSeats }
  (pool, { engine with pools := engine.pools.save pool })

/-- The number of floating seats of the firm that are checked out. -/
def checkedOut (firmId : String) (now : ℤ) : ℕ :=
  (engine.listForFirm firmId).countP fun grant => grant.licenseType = .floating && grant.isActive now

def checkoutFloating (firmId holderId : String) (durationHours : ℤ) (now : ℤ) :
    Except PyException (LicenseGrant × LicenseEngine) :=
  match engine.pools.get firmId with
  | none => .error ⟨"FloatingPoolExhaustedError", "no floating pool configured for firm " ++ pyRepr firmId⟩
  | some pool =>
    if pool.totalSeats ≤ engine.checkedOut firmId now then
      .error ⟨"FloatingPoolExhaustedError", "floating pool exhausted for firm " ++ pyRepr firmId⟩
    else
      let grant : LicenseGrant :=
        { id := engine.uuids
          firmId
          licenseType := .floating
          holderId
          key := engine.sign (encode engine.uuids firmId .floating)
          grantedAt := now
          expiresAt := now + hours durationHours }
      .ok (grant, { engine with grants := engine.grants.save grant, uuids := engine.uuids + 1 })

def checkinFloating (firmId : String) (grantId : Uuid) :
    Except PyException (LicenseGrant × LicenseEngine) := do
  let grant ← engine.require firmId grantId
  let grant := { grant with revoked := true }
  return (grant, { engine with grants := engine.grants.save grant })

end LicenseEngine

/-! ### Runs -/

/-- The engine, and the time. -/
structure LicenseState where
  engine : LicenseEngine
  clock : ℤ

/-- No grant and no pool, at some time. -/
def LicenseState.start (sign : String → String) (clock : ℤ) : LicenseState := ⟨{ sign }, clock⟩

inductive LicenseOperation where
  | assign (firmId : String) (licenseType : LicenseType) (holderId : String) (durationDays : ℤ)
  | revoke (firmId : String) (grantId : Uuid)
  | transfer (firmId : String) (grantId : Uuid) (newHolderId : String)
  | setFloatingPoolCapacity (firmId : String) (totalSeats : ℤ)
  | checkoutFloating (firmId holderId : String) (durationHours : ℤ)
  | checkinFloating (firmId : String) (grantId : Uuid)
  | tick (duration : ℕ)

namespace LicenseState

/-- The engine after an operation; a call that raises leaves it as it is. -/
def after (s : LicenseState) : LicenseOperation → LicenseEngine
  | .assign firmId licenseType holderId durationDays =>
      afterCall s.engine ((s.engine.assign firmId licenseType holderId durationDays s.clock).map Prod.snd)
  | .revoke firmId grantId => afterCall s.engine ((s.engine.revoke firmId grantId).map Prod.snd)
  | .transfer firmId grantId newHolderId =>
      afterCall s.engine ((s.engine.transfer firmId grantId newHolderId s.clock).map Prod.snd)
  | .setFloatingPoolCapacity firmId totalSeats =>
      (s.engine.setFloatingPoolCapacity firmId totalSeats).2
  | .checkoutFloating firmId holderId durationHours =>
      afterCall s.engine
        ((s.engine.checkoutFloating firmId holderId durationHours s.clock).map Prod.snd)
  | .checkinFloating firmId grantId =>
      afterCall s.engine ((s.engine.checkinFloating firmId grantId).map Prod.snd)
  | .tick _ => s.engine

def step (s : LicenseState) (op : LicenseOperation) : LicenseState where
  engine := s.after op
  clock :=
    match op with
    | .tick duration => s.clock + duration
    | _ => s.clock

end LicenseState

/-! ### What an operation does -/

section Returns

open LicenseEngine

variable {engine : LicenseEngine} {s : LicenseState} {firmId : String} {grantId : Uuid}
  {grant : LicenseGrant}

lemma require_ok : engine.require firmId grantId = .ok grant ↔
    engine.grants.get (firmId, grantId) = some grant := by
  unfold LicenseEngine.require
  cases engine.grants.get (firmId, grantId) <;> simp

lemma mem_activeGrantsForHolder {holderId : String} {now : ℤ} :
    grant ∈ engine.activeGrantsForHolder firmId holderId now ↔
      engine.grants.get (firmId, grant.id) = some grant ∧ grant.holderId = some holderId ∧
        grant.isActive now = true := by
  rw [activeGrantsForHolder, listForHolder, List.mem_filter, List.mem_filter, Store.mem_values_iff]
  simp only [decide_eq_true_eq]
  constructor
  · rintro ⟨⟨hget, rfl, hholder⟩, hactive⟩
    exact ⟨hget, hholder, hactive⟩
  · rintro ⟨hget, hholder, hactive⟩
    have hkey : grant.storeKey = (firmId, grant.id) := Store.key_of_get hget
    refine ⟨⟨?_, congrArg Prod.fst hkey, hholder⟩, hactive⟩
    rw [hkey]
    exact hget

lemma key_of_grant (hget : engine.grants.get (firmId, grantId) = some grant) :
    grant.firmId = firmId ∧ grant.id = grantId := by
  have hkey : grant.storeKey = (firmId, grantId) := Store.key_of_get hget
  exact Prod.mk.inj hkey

/-- The engine after a grant is revoked. -/
def LicenseEngine.revoked (engine : LicenseEngine) (grant : LicenseGrant) : LicenseEngine :=
  { engine with grants := engine.grants.save { grant with revoked := true } }

/-- The grant that a transfer makes. -/
def LicenseEngine.successor (engine : LicenseEngine) (old : LicenseGrant) (newHolderId : String)
    (now : ℤ) : LicenseGrant :=
  { id := engine.uuids
    firmId := old.firmId
    licenseType := old.licenseType
    holderId := newHolderId
    key := engine.sign (encode engine.uuids old.firmId old.licenseType)
    grantedAt := now
    expiresAt := old.expiresAt
    transferredFrom := some old.id }

/-- The engine after a grant is transferred. -/
def LicenseEngine.transferred (engine : LicenseEngine) (old : LicenseGrant) (newHolderId : String)
    (now : ℤ) : LicenseEngine :=
  { engine with
    grants := (engine.grants.save { old with revoked := true }).save
      (engine.successor old newHolderId now)
    uuids := engine.uuids + 1 }

lemma after_revoke (hget : s.engine.grants.get (firmId, grantId) = some grant) :
    s.after (.revoke firmId grantId) = s.engine.revoked grant := by
  rw [LicenseState.after, LicenseEngine.revoke, require_ok.mpr hget]
  rfl

lemma after_checkinFloating (hget : s.engine.grants.get (firmId, grantId) = some grant) :
    s.after (.checkinFloating firmId grantId) = s.engine.revoked grant := by
  rw [LicenseState.after, LicenseEngine.checkinFloating, require_ok.mpr hget]
  rfl

lemma after_transfer (hget : s.engine.grants.get (firmId, grantId) = some grant) (newHolderId : String) :
    s.after (.transfer firmId grantId newHolderId) =
      s.engine.transferred grant newHolderId s.clock := by
  obtain ⟨rfl, rfl⟩ := key_of_grant hget
  rw [LicenseState.after, LicenseEngine.transfer, require_ok.mpr hget]
  rfl

/-- The operations that end the term of a holder. -/
def LicenseOperation.Ends (firmId : String) (grantId : Uuid) : LicenseOperation → Prop
  | .revoke firmId' grantId' => firmId' = firmId ∧ grantId' = grantId
  | .checkinFloating firmId' grantId' => firmId' = firmId ∧ grantId' = grantId
  | _ => False

/-- **What an operation does.**  It makes a grant, and a floating one only where the pool has a seat
left; it revokes a grant; it transfers one; it sets the capacity of a pool; or it changes nothing. -/
inductive Effect (s : LicenseState) : LicenseOperation → LicenseEngine → Prop where
  | none (op : LicenseOperation)
      (hop : ∀ firmId grantId, op.Ends firmId grantId → s.engine.grants.get (firmId, grantId) = .none) :
      Effect s op s.engine
  | made (op : LicenseOperation) (grant : LicenseGrant)
      (hop : ∀ firmId grantId, ¬ op.Ends firmId grantId) (hid : grant.id = s.engine.uuids)
      (hanew : grant.transferredFrom = .none) (hrevoked : grant.revoked = false)
      (hseat : grant.licenseType = .floating → ∃ pool, s.engine.pools.get grant.firmId = some pool ∧
        s.engine.checkedOut grant.firmId s.clock < pool.totalSeats) :
      Effect s op { s.engine with
        grants := s.engine.grants.save grant, uuids := s.engine.uuids + 1 }
  | revoked (op : LicenseOperation) (grant : LicenseGrant)
      (hget : s.engine.grants.get grant.storeKey = some grant)
      (hop : op.Ends grant.firmId grant.id) : Effect s op (s.engine.revoked grant)
  | transferred (grant : LicenseGrant) (newHolderId : String)
      (hget : s.engine.grants.get grant.storeKey = some grant) :
      Effect s (.transfer grant.firmId grant.id newHolderId)
        (s.engine.transferred grant newHolderId s.clock)
  | capacity (firmId : String) (totalSeats : ℤ) :
      Effect s (.setFloatingPoolCapacity firmId totalSeats)
        { s.engine with pools := s.engine.pools.save { firmId, totalSeats } }

theorem effect_after (s : LicenseState) (op : LicenseOperation) : Effect s op (s.after op) := by
  cases op with
  | assign firmId licenseType holderId durationDays =>
    rw [LicenseState.after, LicenseEngine.assign]
    split
    · exact .none _ nofun
    · rename_i hfloating
      exact .made _ _ (fun _ _ => id) rfl rfl rfl fun h => absurd h hfloating
  | revoke firmId grantId =>
    cases hget : s.engine.grants.get (firmId, grantId) with
    | none =>
      rw [LicenseState.after, LicenseEngine.revoke, LicenseEngine.require, hget]
      refine .none _ fun firmId' grantId' hends => ?_
      obtain ⟨rfl, rfl⟩ := hends
      exact hget
    | some grant =>
      rw [after_revoke hget]
      obtain ⟨rfl, rfl⟩ := key_of_grant hget
      exact .revoked _ grant hget ⟨rfl, rfl⟩
  | transfer firmId grantId newHolderId =>
    cases hget : s.engine.grants.get (firmId, grantId) with
    | none =>
      rw [LicenseState.after, LicenseEngine.transfer, LicenseEngine.require, hget]
      exact .none _ nofun
    | some grant =>
      rw [after_transfer hget]
      obtain ⟨rfl, rfl⟩ := key_of_grant hget
      exact .transferred grant newHolderId hget
  | setFloatingPoolCapacity firmId totalSeats => exact .capacity firmId totalSeats
  | checkoutFloating firmId holderId durationHours =>
    rw [LicenseState.after, LicenseEngine.checkoutFloating]
    split
    · exact .none _ nofun
    · rename_i pool hpool
      split
      · exact .none _ nofun
      · rename_i hseat
        exact .made _ _ (fun _ _ => id) rfl rfl rfl fun _ => ⟨pool, hpool, not_le.mp hseat⟩
  | checkinFloating firmId grantId =>
    cases hget : s.engine.grants.get (firmId, grantId) with
    | none =>
      rw [LicenseState.after, LicenseEngine.checkinFloating, LicenseEngine.require, hget]
      refine .none _ fun firmId' grantId' hends => ?_
      obtain ⟨rfl, rfl⟩ := hends
      exact hget
    | some grant =>
      rw [after_checkinFloating hget]
      obtain ⟨rfl, rfl⟩ := key_of_grant hget
      exact .revoked _ grant hget ⟨rfl, rfl⟩
  | tick duration => exact .none _ nofun

end Returns

end Tmis.BusinessPlatform
