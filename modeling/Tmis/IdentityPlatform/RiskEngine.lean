import Tmis.Platform.BruteForce

/-!
# The risk of a login

`identity_platform.device_trust` and `identity_platform.risk_engine`: devices are registered to users, and
trusted or revoked by their identifiers; a login is assessed by the lock of the user and by the trust in
the device that is presented.  To whom the device is registered is not looked at.

* `Device`, `Devices` — the devices of all firms, under firm and identifier;
* `assessLogin` — the assessment;
* `Call`, `step`, `Registry` — calls at moments of the clock, and to whom each device was registered;
* `assessLogin_low_iff` — what a low risk comes to;
* `MeansOwn`, `NotBorrowed` — a low risk means the user's own device; no trusted one of another is presented;
* `low_risk_means_own_iff` — over every sequence of calls.
-/

namespace Tmis.IdentityPlatform.RiskEngine

open Tmis.Lib Tmis.Platform.BruteForce

/-! ### Devices -/

inductive DeviceTrustLevel where
  | unknown | trusted | revoked
  deriving DecidableEq

structure Device where
  id : String
  firmId : String
  userId : String
  label : String
  trustLevel : DeviceTrustLevel := .unknown
  firstSeenAt : ℤ
  lastSeenAt : ℤ
  deriving DecidableEq

/-- `InMemoryDeviceStore`. -/
abbrev Devices := Dict (String × String) Device

namespace Devices

def save (devices : Devices) (device : Device) : Devices := devices.set (device.firmId, device.id) device

/-- `register`: `id` is what `new_device_id` draws. -/
def register (devices : Devices) (id firmId userId label : String) (now : ℤ) : Devices :=
  devices.save { id, firmId, userId, label, firstSeenAt := now, lastSeenAt := now }

/-- `_get`. -/
def find (devices : Devices) (firmId deviceId : String) : Except PyException Device :=
  match devices.get (firmId, deviceId) with
  | none => .error (keyError deviceId)
  | some device => .ok device

def trust (devices : Devices) (firmId deviceId : String) : Except PyException Devices := do
  let device ← devices.find firmId deviceId
  return devices.save { device with trustLevel := .trusted }

def revoke (devices : Devices) (firmId deviceId : String) : Except PyException Devices := do
  let device ← devices.find firmId deviceId
  return devices.save { device with trustLevel := .revoked }

def touch (devices : Devices) (firmId deviceId : String) (now : ℤ) : Except PyException Devices := do
  let device ← devices.find firmId deviceId
  return devices.save { device with lastSeenAt := now }

def isTrusted (devices : Devices) (firmId deviceId : String) : Bool :=
  match devices.get (firmId, deviceId) with
  | none => false
  | some device => device.trustLevel = .trusted

end Devices

/-! ### The assessment -/

inductive RiskLevel where
  | low | medium | high
  deriving DecidableEq

structure RiskAssessment where
  level : RiskLevel
  reasons : List String := []
  requiresStepUpMfa : Bool := false
  deriving DecidableEq

/-- `_identity_key`. -/
def identityKey (firmId userId : String) : String := firmId ++ ":" ++ userId

/-- The two engines. -/
structure Engines where
  devices : Devices := ∅
  attempts : Attempts := ∅

section Assessment

variable (F : Type) [PyFloat F] (policy : LockoutPolicy)

/-- The user is locked out. -/
def lockedOut (engines : Engines) (now : ℤ) (firmId userId : String) : Bool :=
  (status (F := F) policy engines.attempts now (identityKey firmId userId)).locked

def assessLogin (engines : Engines) (now : ℤ) (firmId userId : String) (deviceId : Option String) :
    RiskAssessment :=
  let locked := lockedOut F policy engines now firmId userId
  let reasons := if locked then ["verrouillage actif suite à des tentatives répétées"] else []
  let reasons :=
    if deviceId.all fun deviceId => !engines.devices.isTrusted firmId deviceId then
      reasons ++ ["appareil inconnu ou non approuvé"]
    else reasons
  if reasons = [] then { level := .low }
  else
    let level := if locked then .high else .medium
    { level, reasons, requiresStepUpMfa := level ≠ .low }

variable {F policy}

lemma isTrusted_iff {devices : Devices} {firmId id : String} : devices.isTrusted firmId id = true ↔
    ∃ device, devices.get (firmId, id) = some device ∧ device.trustLevel = .trusted := by
  unfold Devices.isTrusted
  cases devices.get (firmId, id) with
  | none => simp
  | some device => simp

/-- **What a low risk comes to**: no lock, and a device that is trusted in the firm. -/
theorem assessLogin_low_iff {engines : Engines} {now : ℤ} {firmId userId : String} {deviceId : Option String} :
    (assessLogin F policy engines now firmId userId deviceId).level = .low ↔
      lockedOut F policy engines now firmId userId = false ∧
        ∃ id device, deviceId = some id ∧ engines.devices.get (firmId, id) = some device ∧
          device.trustLevel = .trusted := by
  have hdevice : (deviceId.all fun deviceId => !engines.devices.isTrusted firmId deviceId) = false ↔
      ∃ id device, deviceId = some id ∧ engines.devices.get (firmId, id) = some device ∧
        device.trustLevel = .trusted := by
    cases deviceId with
    | none => simp
    | some id => simp [isTrusted_iff]
  rw [← hdevice]
  unfold assessLogin
  cases lockedOut F policy engines now firmId userId with
  | true => cases deviceId.all fun deviceId => !engines.devices.isTrusted firmId deviceId <;> simp
  | false => cases deviceId.all fun deviceId => !engines.devices.isTrusted firmId deviceId <;> simp

end Assessment

/-! ### Calls -/

inductive Call where
  | register (id firmId userId label : String)
  | trust (firmId deviceId : String)
  | revoke (firmId deviceId : String)
  | touch (firmId deviceId : String)
  | recordFailure (firmId userId : String)
  | recordSuccess (firmId userId : String)
  | assess (firmId userId : String) (deviceId : Option String)

/-- The engines, and to whom each device was registered last. -/
structure Registry where
  engines : Engines := {}
  registeredTo : Dict (String × String) String := ∅

namespace Registry

def setDevices (s : Registry) (devices : Devices) : Registry := { s with engines.devices := devices }

def setAttempts (s : Registry) (attempts : Attempts) : Registry := { s with engines.attempts := attempts }

end Registry

section Calls

variable (F : Type) [PyFloat F] (policy : LockoutPolicy)

/-- The state after a call at a moment of the clock; one that raises leaves the devices as they are. -/
def step (s : Registry) : ℤ × Call → Registry
  | (now, .register id firmId userId label) =>
      { s.setDevices (s.engines.devices.register id firmId userId label now) with
        registeredTo := s.registeredTo.set (firmId, id) userId }
  | (_, .trust firmId deviceId) =>
      s.setDevices (afterCall s.engines.devices (s.engines.devices.trust firmId deviceId))
  | (_, .revoke firmId deviceId) =>
      s.setDevices (afterCall s.engines.devices (s.engines.devices.revoke firmId deviceId))
  | (now, .touch firmId deviceId) =>
      s.setDevices (afterCall s.engines.devices (s.engines.devices.touch firmId deviceId now))
  | (now, .recordFailure firmId userId) =>
      s.setAttempts (recordFailure (F := F) policy s.engines.attempts now (identityKey firmId userId)).2
  | (_, .recordSuccess firmId userId) =>
      s.setAttempts (recordSuccess s.engines.attempts (identityKey firmId userId))
  | (_, .assess _ _ _) => s

/-- A low risk means that the user is not locked out and presents a device that was registered to the user, and
is trusted. -/
def MeansOwn (s : Registry) : ℤ × Call → Prop
  | (now, .assess firmId userId deviceId) =>
      (assessLogin F policy s.engines now firmId userId deviceId).level = .low →
        lockedOut F policy s.engines now firmId userId = false ∧
          ∃ id, deviceId = some id ∧ s.registeredTo.get (firmId, id) = some userId ∧
            s.engines.devices.isTrusted firmId id = true
  | _ => True

/-- No trusted device of another user of the firm is presented, unless the user is locked out. -/
def NotBorrowed (s : Registry) : ℤ × Call → Prop
  | (now, .assess firmId userId deviceId) =>
      ∀ id device, deviceId = some id → s.engines.devices.get (firmId, id) = some device →
        device.trustLevel = .trusted →
          device.userId = userId ∨ lockedOut F policy s.engines now firmId userId = true
  | _ => True

/-- What is on file: devices under their own keys, for the users they were registered to. -/
structure OnFile (s : Registry) : Prop where
  key : ∀ firmId id device, s.engines.devices.get (firmId, id) = some device →
    device.firmId = firmId ∧ device.id = id
  owner : ∀ firmId id, s.registeredTo.get (firmId, id) =
    (s.engines.devices.get (firmId, id)).map (·.userId)

variable {F policy}

/-- A device that is saved again belongs to whom it belonged. -/
lemma OnFile.save {s : Registry} (h : OnFile s) {firmId id : String} {device device' : Device}
    (hget : s.engines.devices.get (firmId, id) = some device) (hfirm : device'.firmId = device.firmId)
    (hid : device'.id = device.id) (huser : device'.userId = device.userId) :
    OnFile (s.setDevices (s.engines.devices.save device')) := by
  obtain ⟨hkeyfirm, hkeyid⟩ := h.key firmId id device hget
  have hkey : (device'.firmId, device'.id) = (firmId, id) := by rw [hfirm, hid, hkeyfirm, hkeyid]
  have hsaved : ∀ k, (s.engines.devices.save device').get k =
      if k = (firmId, id) then some device' else s.engines.devices.get k := by
    intro k
    rw [Devices.save, hkey, Dict.get_set]
  refine ⟨fun firmId' id' found hfound => ?_, fun firmId' id' => ?_⟩
  · change (s.engines.devices.save device').get (firmId', id') = some found at hfound
    rw [hsaved] at hfound
    split at hfound
    · rename_i heq
      cases hfound
      obtain ⟨rfl, rfl⟩ := Prod.mk.inj heq
      exact Prod.mk.inj hkey
    · exact h.key firmId' id' found hfound
  · show s.registeredTo.get (firmId', id') = ((s.engines.devices.save device').get (firmId', id')).map (·.userId)
    rw [hsaved, h.owner]
    split
    · rename_i heq
      rw [heq, hget, Option.map_some, Option.map_some, huser]
    · rfl

/-- The calls that change a device find it and save it again. -/
lemma OnFile.update {s : Registry} (h : OnFile s) {firmId id : String} (f : Device → Device)
    (hf : ∀ device, (f device).firmId = device.firmId ∧ (f device).id = device.id ∧
      (f device).userId = device.userId) :
    OnFile (s.setDevices (afterCall s.engines.devices ((s.engines.devices.find firmId id).map fun device =>
      s.engines.devices.save (f device)))) := by
  unfold Devices.find
  cases hget : s.engines.devices.get (firmId, id) with
  | none => exact h
  | some device =>
    obtain ⟨hfirm, hid, huser⟩ := hf device
    exact h.save hget hfirm hid huser

/-- What one call preserves. -/
lemma OnFile.step {s : Registry} (h : OnFile s) (call : ℤ × Call) : OnFile (step F policy s call) := by
  obtain ⟨now, call⟩ := call
  cases call with
  | register id firmId userId label =>
    refine ⟨fun firmId' id' device hget => ?_, fun firmId' id' => ?_⟩
    · change (s.engines.devices.set (firmId, id) _).get (firmId', id') = some device at hget
      rw [Dict.get_set] at hget
      split at hget
      · rename_i heq
        cases hget
        obtain ⟨rfl, rfl⟩ := Prod.mk.inj heq
        exact ⟨rfl, rfl⟩
      · exact h.key firmId' id' device hget
    · show (s.registeredTo.set (firmId, id) userId).get (firmId', id') =
        ((s.engines.devices.set (firmId, id) _).get (firmId', id')).map (·.userId)
      rw [Dict.get_set, Dict.get_set]
      split
      · rfl
      · exact h.owner firmId' id'
  | trust firmId id => exact h.update _ fun device => ⟨rfl, rfl, rfl⟩
  | revoke firmId id => exact h.update _ fun device => ⟨rfl, rfl, rfl⟩
  | touch firmId id => exact h.update _ fun device => ⟨rfl, rfl, rfl⟩
  | recordFailure firmId userId => exact ⟨h.key, h.owner⟩
  | recordSuccess firmId userId => exact ⟨h.key, h.owner⟩
  | assess firmId userId deviceId => exact h

/-- Of one call: a low risk means the user's own device iff no trusted one of another is presented. -/
lemma meansOwn_iff {s : Registry} (h : OnFile s) (call : ℤ × Call) :
    MeansOwn F policy s call ↔ NotBorrowed F policy s call := by
  obtain ⟨now, call⟩ := call
  cases call with
  | assess firmId userId deviceId =>
    rw [MeansOwn, NotBorrowed, assessLogin_low_iff]
    constructor
    · intro hmeans id device hid hget htrusted
      by_cases hlocked : lockedOut F policy s.engines now firmId userId = true
      · exact Or.inr hlocked
      · obtain ⟨-, id', hid', howner, -⟩ := hmeans ⟨Bool.not_eq_true _ ▸ hlocked, id, device, hid, hget, htrusted⟩
        obtain rfl : id = id' := Option.some.inj (hid.symm.trans hid')
        rw [h.owner, hget] at howner
        exact Or.inl (Option.some.inj howner)
    · rintro hborrowed ⟨hlocked, id, device, hid, hget, htrusted⟩
      refine ⟨hlocked, id, hid, ?_, isTrusted_iff.mpr ⟨device, hget, htrusted⟩⟩
      rcases hborrowed id device hid hget htrusted with huser | hlocked'
      · rw [h.owner, hget, Option.map_some, huser]
      · rw [hlocked] at hlocked'
        cases hlocked'
  | _ => exact Iff.rfl

/-- **A low risk means the user's own device, in every sequence of calls, iff no trusted device of another user
of the firm is presented**, unless the user is locked out. -/
theorem low_risk_means_own_iff (F : Type) [PyFloat F] (policy : LockoutPolicy) (calls : List (ℤ × Call)) :
    Along (step F policy) (MeansOwn F policy) {} calls ↔ Along (step F policy) (NotBorrowed F policy) {} calls := by
  have hfirst : OnFile {} := ⟨fun _ _ _ hget => (nomatch hget), fun _ _ => rfl⟩
  exact along_congr hfirst (fun _ call h _ => h.step call) (fun _ call h => meansOwn_iff h call)

/-- A device that is registered to one user and trusted, and presented by another. -/
def borrowed : List (ℤ × Call) :=
  [(0, .register "device-1" "firm-1" "alice" "Laptop"), (0, .trust "firm-1" "device-1"),
    (0, .assess "firm-1" "bob" (some "device-1"))]

/-- The risk is low although the device is not the user's. -/
theorem low_risk_borrowed : ¬ Along (step ℚ {}) (MeansOwn ℚ {}) {} borrowed := by
  rintro ⟨-, -, hmeans, -⟩
  obtain ⟨-, id, hid, howner, -⟩ := hmeans (by decide)
  cases hid
  exact absurd howner (by decide)

end Calls

end Tmis.IdentityPlatform.RiskEngine
