import Tmis.Lib.BaseText
import Tmis.Lib.Calls
import Tmis.Lib.PySet
import Tmis.Lib.PyText
import Tmis.Lib.PyUuid
import Tmis.Lib.Run
import Tmis.Lib.Store
import Tmis.Lib.Timedelta

/-!
# License keys

`platform.licensing`: a license is handed out as a key, the text of its fields with a signature.

* `LicenseKeySigner`, `encodePayload`, `decodePayload` — keys;
* `LicenseEngine` — `issue`, `renew`, `validate` and what is asked of a firm's license;
* `encodePayload_inj`, `sign_inj` — different licenses have different keys;
* `decodePayload_encode_iff` — the fields are read back iff the firm's identifier has no separator in it;
* `issue_roundtrip_iff` — and then, and only then, the key of a license is accepted until it expires.
-/

namespace Tmis.Platform.Licensing

open Tmis.Lib Tmis.Lib.Base64

/-! ### Keys -/

inductive PlanTier where
  | solo | cabinet | enterprise
  deriving DecidableEq

def PlanTier.value : PlanTier → String
  | solo => "solo"
  | cabinet => "cabinet"
  | enterprise => "enterprise"

/-- `PlanTier(value)`, unless it raises. -/
def PlanTier.ofValue (value : String) : Option PlanTier :=
  [solo, cabinet, enterprise].find? (·.value = value)

/-- `signature` is `_signature`: the HMAC of a text under the secret, in hexadecimal digits. -/
structure LicenseKeySigner where
  signature : String → String
  ascii : ∀ text, (signature text).toList.all (·.toNat < 128) = true

/-- `hmac.compare_digest` of two texts. -/
def compareDigest (a b : String) : Except PyException Bool :=
  if a.toList.all (·.toNat < 128) ∧ b.toList.all (·.toNat < 128) then .ok (a = b)
  else .error (typeError "comparing strings with non-ASCII characters is not supported")

namespace LicenseKeySigner

variable (signer : LicenseKeySigner)

def sign (payload : String) : String :=
  let payloadB64 := urlsafeB64encode payload
  payloadB64 ++ "." ++ signer.signature payloadB64

def verify (key : String) : Except PyException (Option String) :=
  if '.' ∈ key.toList then do
    let payloadB64 := String.ofList (key.toList.takeWhile (· ≠ '.'))
    let signature := String.ofList (key.toList.dropWhile (· ≠ '.')).tail
    if ← compareDigest signature (signer.signature payloadB64) then return urlsafeB64decode payloadB64
    else return none
  else .ok none

end LicenseKeySigner

/-- `_encode_payload`. -/
def encodePayload (licenseId firmId : String) (plan : PlanTier) (expiresAt : UtcDatetime) : String :=
  "|".intercalate [licenseId, firmId, plan.value, isoformat expiresAt.1]

/-- `_decode_payload`. -/
def decodePayload (payload : String) : Option (String × String × PlanTier × Datetime) :=
  match pySplit payload '|' with
  | [licenseId, firmId, planValue, expiresAtRaw] => do
      let plan ← PlanTier.ofValue planValue
      let expiresAt ← (fromisoformat expiresAtRaw).toOption
      return (licenseId, firmId, plan, expiresAt)
  | _ => none

/-! ### Licenses -/

/-- `_PLAN_FEATURES`. -/
def featuresForPlan : PlanTier → List String
  | .solo => ["cases", "documents", "ai_assist"]
  | .cabinet => ["cases", "documents", "ai_assist", "collaboration", "billing"]
  | .enterprise => ["cases", "documents", "ai_assist", "collaboration", "billing", "sso", "advanced_reporting",
      "audit_export"]

/-- `_PLAN_SEATS`. -/
def defaultSeatsForPlan : PlanTier → ℤ
  | .solo => 1
  | .cabinet => 10
  | .enterprise => 100

structure License where
  id : String
  firmId : String
  plan : PlanTier
  seats : ℤ
  features : List String
  issuedAt : UtcDatetime
  expiresAt : UtcDatetime
  key : String
  renewedAt : Option UtcDatetime := none
  deriving DecidableEq

def License.isExpired (license : License) (now : UtcDatetime) : Bool := license.expiresAt.micros < now.micros

structure LicenseValidationResult where
  valid : Bool
  reason : Option String := none
  deriving DecidableEq

/-- The engine with its in-memory store. -/
structure LicenseEngine where
  store : Store String License License.id := ∅

namespace LicenseEngine

variable (signer : LicenseKeySigner) (engine : LicenseEngine)

/-- `InMemoryLicenseStore.get_for_firm`. -/
def getForFirm (firmId : String) : Option License := engine.store.values.find? (·.firmId = firmId)

/-- The identifier that is drawn, and the moment, are given. -/
def issue (uuid : Fin (2 ^ 128)) (now : UtcDatetime) (firmId : String) (plan : PlanTier)
    (durationDays : ℤ := 365) : Except PyException (License × LicenseEngine) := do
  let licenseId := uuidText uuid
  let expiresAt ← now.addDays durationDays
  let key := signer.sign (encodePayload licenseId firmId plan expiresAt)
  let license : License := {
    id := licenseId
    firmId
    plan
    seats := defaultSeatsForPlan plan
    features := featuresForPlan plan
    issuedAt := now
    expiresAt
    key }
  return (license, { store := engine.store.save license })

def renew (now : UtcDatetime) (firmId : String) (extensionDays : ℤ := 365) :
    Except PyException (License × LicenseEngine) :=
  match engine.getForFirm firmId with
  | none => .error (valueError ("no license on file for firm " ++ firmId))
  | some existing => do
    let newExpiry ←
      (if existing.expiresAt.micros < now.micros then now else existing.expiresAt).addDays extensionDays
    let key := signer.sign (encodePayload existing.id firmId existing.plan newExpiry)
    let renewed := { existing with expiresAt := newExpiry, key, renewedAt := some now }
    return (renewed, { store := engine.store.save renewed })

def validate (now : UtcDatetime) (key : String) : Except PyException LicenseValidationResult := do
  match ← signer.verify key with
  | none => return { valid := false, reason := some "invalid or tampered license key" }
  | some payload =>
    match decodePayload payload with
    | none => return { valid := false, reason := some "malformed license payload" }
    | some (licenseId, firmId, _, _) =>
      match (engine.store.get licenseId).filter (·.firmId = firmId) with
      | none => return { valid := false, reason := some "license not found" }
      | some stored =>
        if stored.key ≠ key then return { valid := false, reason := some "license key has been superseded" }
        else if stored.isExpired now then return { valid := false, reason := some "license expired" }
        else return { valid := true }

def hasFeature (firmId feature : String) : Bool :=
  (engine.getForFirm firmId).any fun license => feature ∈ license.features

def seatsRemaining (firmId : String) (seatsInUse : ℤ) : ℤ :=
  match engine.getForFirm firmId with
  | none => 0
  | some license => max 0 (license.seats - seatsInUse)

/-- A call that writes to the store. -/
inductive LicenseOp where
  | issue (uuid : Fin (2 ^ 128)) (now : UtcDatetime) (firmId : String) (plan : PlanTier) (durationDays : ℤ)
  | renew (now : UtcDatetime) (firmId : String) (extensionDays : ℤ)

def step (engine : LicenseEngine) : LicenseOp → LicenseEngine
  | .issue uuid now firmId plan durationDays =>
      afterCall engine ((engine.issue signer uuid now firmId plan durationDays).map Prod.snd)
  | .renew now firmId extensionDays =>
      afterCall engine ((engine.renew signer now firmId extensionDays).map Prod.snd)

/-- The call issues another license, or renews one of another firm. -/
def LicenseOp.Spares (license : License) : LicenseOp → Prop
  | .issue uuid .. => uuidText uuid ≠ license.id
  | .renew _ firmId _ => firmId ≠ license.firmId

end LicenseEngine

/-! ### Payloads -/

/-- The parts of a text are one more than its separators. -/
lemma length_splitOn {α : Type*} [DecidableEq α] (sep : α) : ∀ xs : List α,
    (xs.splitOn sep).length = xs.count sep + 1
  | [] => by simp [List.splitOn]
  | x :: xs => by
      have ih := length_splitOn sep xs
      rw [List.splitOn, List.splitOnP_cons_eq_if_modifyHead, List.count_cons]
      split
      · rw [List.length_cons, ← List.splitOn, ih]
      · rw [List.length_modifyHead, ← List.splitOn, ih, Nat.add_zero]

section Payload

variable {licenseId firmId : String} {plan : PlanTier} {expiresAt : UtcDatetime}

lemma toList_encodePayload : (encodePayload licenseId firmId plan expiresAt).toList =
    ['|'].intercalate [licenseId.toList, firmId.toList, plan.value.toList, (isoformat expiresAt.1).toList] := by
  show (licenseId ++ "|" ++ firmId ++ "|" ++ plan.value ++ "|" ++ isoformat expiresAt.1).toList = _
  simp [List.intercalate]

lemma not_mem_value : '|' ∉ plan.value.toList := by cases plan <;> decide

lemma ofValue_value : PlanTier.ofValue plan.value = some plan := by cases plan <;> decide

lemma not_mem_isoformat_bar : '|' ∉ (isoformat expiresAt.1).toList :=
  not_mem_isoformat expiresAt.1 (by decide) (by decide)

/-- **Different licenses have different payloads**, whatever there is in the identifiers of their firms. -/
theorem encodePayload_inj {licenseId' firmId' : String} {plan' : PlanTier} {expiresAt' : UtcDatetime}
    (hid : '|' ∉ licenseId.toList) (hid' : '|' ∉ licenseId'.toList)
    (h : encodePayload licenseId firmId plan expiresAt = encodePayload licenseId' firmId' plan' expiresAt') :
    licenseId = licenseId' ∧ firmId = firmId' ∧ plan = plan' ∧ expiresAt = expiresAt' := by
  change licenseId ++ "|" ++ firmId ++ "|" ++ plan.value ++ "|" ++ isoformat expiresAt.1 =
    licenseId' ++ "|" ++ firmId' ++ "|" ++ plan'.value ++ "|" ++ isoformat expiresAt'.1 at h
  obtain ⟨h, hexpires⟩ := append_sep_inj not_mem_isoformat_bar not_mem_isoformat_bar h
  obtain ⟨h, hplan⟩ := append_sep_inj not_mem_value not_mem_value h
  have hplan : plan = plan' := by
    have := congrArg PlanTier.ofValue hplan
    rwa [ofValue_value, ofValue_value, Option.some.injEq] at this
  have hexpires : expiresAt = expiresAt' := by
    have := congrArg fromisoformat hexpires
    rw [fromisoformat_isoformat, fromisoformat_isoformat] at this
    exact Subtype.ext (Except.ok.inj this)
  -- What is left is cut at the first separator.
  have hlist := congrArg String.toList h
  simp only [String.toList_append, List.append_assoc] at hlist
  obtain ⟨hids, hfirms⟩ := append_cons_inj hid hid' hlist
  exact ⟨String.toList_injective hids, String.toList_injective hfirms, hplan, hexpires⟩

/-- **Decoding**: the fields are read back, unless there is a separator in the firm's identifier. -/
theorem decodePayload_encode (hid : '|' ∉ licenseId.toList) :
    decodePayload (encodePayload licenseId firmId plan expiresAt) =
      if '|' ∈ firmId.toList then none else some (licenseId, firmId, plan, expiresAt.1) := by
  have hvalue : '|' ∉ plan.value.toList := not_mem_value
  have hiso : '|' ∉ (isoformat expiresAt.1).toList := not_mem_isoformat_bar
  unfold decodePayload pySplit
  split_ifs with hfirm
  · -- There are too many parts.
    have hlength : ((encodePayload licenseId firmId plan expiresAt).toList.splitOn '|').length ≠ 4 := by
      rw [length_splitOn, toList_encodePayload]
      have hpos := List.count_pos_iff.mpr hfirm
      simp [List.intercalate, List.count_eq_zero.mpr hid, List.count_eq_zero.mpr hvalue,
        List.count_eq_zero.mpr hiso]
      omega
    split
    · rename_i hparts
      rw [← List.length_map (f := String.ofList), hparts] at hlength
      exact absurd rfl hlength
    · rfl
  · rw [toList_encodePayload, List.splitOn_intercalate _ (by simp [hid, hfirm, hvalue, hiso]) (by simp)]
    simp [ofValue_value, fromisoformat_isoformat, Except.toOption]

end Payload

lemma not_mem_uuidText (uuid : Fin (2 ^ 128)) : '|' ∉ (uuidText uuid).toList := by
  intro hmem
  rcases mem_uuidText uuid.isLt hmem with heq | ⟨d, hd, heq⟩
  · exact absurd heq (by decide)
  · exact absurd heq.symm ((by decide : ∀ d < 16, Nat.digitChar d ≠ '|') d hd)

/-! ### Signatures -/

section Signatures

variable {signer : LicenseKeySigner} {payload payload' : String}

lemma toList_sign (signer : LicenseKeySigner) (payload : String) : (signer.sign payload).toList =
    (urlsafeB64encode payload).toList ++ '.' :: (signer.signature (urlsafeB64encode payload)).toList := by
  simp [LicenseKeySigner.sign]

/-- **Different payloads have different keys**, whatever the signatures are. -/
lemma sign_inj (h : signer.sign payload = signer.sign payload') : payload = payload' := by
  have hlist := congrArg String.toList h
  rw [toList_sign, toList_sign] at hlist
  obtain ⟨hpayload, -⟩ := append_cons_inj (dot_not_mem_urlsafeB64encode _) (dot_not_mem_urlsafeB64encode _) hlist
  exact urlsafeB64encode_inj (String.toList_injective hpayload)

/-- A key that was signed is verified. -/
lemma verify_sign (signer : LicenseKeySigner) (payload : String) :
    signer.verify (signer.sign payload) = .ok (some payload) := by
  have hnot : ∀ c ∈ (urlsafeB64encode payload).toList, decide (c ≠ '.') = true := fun c hc =>
    decide_eq_true fun heq => dot_not_mem_urlsafeB64encode payload (heq ▸ hc)
  have htake : (signer.sign payload).toList.takeWhile (· ≠ '.') = (urlsafeB64encode payload).toList := by
    rw [toList_sign, List.takeWhile_append_of_pos hnot, List.takeWhile_cons_of_neg (by simp), List.append_nil]
  have hdrop : ((signer.sign payload).toList.dropWhile (· ≠ '.')).tail =
      (signer.signature (urlsafeB64encode payload)).toList := by
    rw [toList_sign, List.dropWhile_append_of_pos hnot, List.dropWhile_cons_of_neg (by simp), List.tail_cons]
  have hcompare (text : String) (hascii : text.toList.all (·.toNat < 128) = true) :
      compareDigest text text = .ok true := by
    rw [compareDigest, if_pos ⟨hascii, hascii⟩, decide_eq_true rfl]
  unfold LicenseKeySigner.verify
  rw [if_pos (by simp [toList_sign]), htake, hdrop, String.ofList_toList, String.ofList_toList]
  simp only [hcompare _ (signer.ascii _)]
  rw [← urlsafeB64decode_encode payload]
  rfl

end Signatures

/-! ### The key of a license -/

namespace LicenseEngine

variable {signer : LicenseKeySigner} {engine engine' : LicenseEngine} {license : License}

/-- The key is that of the fields. -/
structure Signed (signer : LicenseKeySigner) (license : License) : Prop where
  key : license.key =
    signer.sign (encodePayload license.id license.firmId license.plan license.expiresAt)
  id : '|' ∉ license.id.toList

/-- **What is said of the key of a license** whose identifier is on file for its firm. -/
theorem validate_signed (h : Signed signer license) {stored : License}
    (hget : engine.store.get license.id = some stored) (hstored : stored.firmId = license.firmId)
    (now : UtcDatetime) :
    engine.validate signer now license.key = .ok (
      if '|' ∈ license.firmId.toList then { valid := false, reason := some "malformed license payload" }
      else if stored.key ≠ license.key then { valid := false, reason := some "license key has been superseded" }
      else if stored.isExpired now then { valid := false, reason := some "license expired" }
      else { valid := true }) := by
  have hverify : signer.verify license.key =
      .ok (some (encodePayload license.id license.firmId license.plan license.expiresAt)) := by
    rw [h.key, verify_sign]
  unfold validate
  rw [hverify]
  simp only [bind, Except.bind, decodePayload_encode h.id]
  by_cases hfirm : '|' ∈ license.firmId.toList
  · simp only [if_pos hfirm]
    rfl
  · simp only [if_neg hfirm, hget, Option.filter, hstored, decide_true, if_true]
    split_ifs <;> rfl

/-- What issuing a license does. -/
lemma issue_eq_ok {uuid : Fin (2 ^ 128)} {now : UtcDatetime} {firmId : String} {plan : PlanTier}
    {durationDays : ℤ} (h : engine.issue signer uuid now firmId plan durationDays = .ok (license, engine')) :
    now.addDays durationDays = .ok license.expiresAt ∧ engine' = { store := engine.store.save license } ∧
      license.id = uuidText uuid ∧ license.firmId = firmId ∧ license.plan = plan ∧
      license.seats = defaultSeatsForPlan plan ∧ Signed signer license := by
  obtain ⟨expiresAt, hexpires, h⟩ := bind_eq_ok.mp h
  obtain ⟨rfl, rfl⟩ := Prod.mk.inj (pure_eq_ok.mp h)
  exact ⟨hexpires, rfl, rfl, rfl, rfl, rfl, rfl, not_mem_uuidText uuid⟩

/-- The license of a firm is on file for it. -/
lemma getForFirm_eq_some {firmId : String} (h : engine.getForFirm firmId = some license) :
    engine.store.get license.id = some license ∧ license.firmId = firmId :=
  ⟨Store.mem_values_iff.mp (List.mem_of_find?_eq_some h), of_decide_eq_true (List.find?_some h :)⟩

/-- What renewing a license does. -/
lemma renew_eq_ok {now : UtcDatetime} {firmId : String} {extensionDays : ℤ}
    (h : engine.renew signer now firmId extensionDays = .ok (license, engine')) :
    ∃ existing, engine.getForFirm firmId = some existing ∧ engine' = { store := engine.store.save license } ∧
      license.id = existing.id ∧ license.firmId = firmId ∧
      license.key = signer.sign (encodePayload license.id license.firmId license.plan license.expiresAt) := by
  unfold renew at h
  split at h
  · cases h
  · rename_i existing hexisting
    obtain ⟨newExpiry, -, h⟩ := bind_eq_ok.mp h
    obtain ⟨rfl, rfl⟩ := Prod.mk.inj (pure_eq_ok.mp h)
    obtain ⟨-, rfl⟩ := getForFirm_eq_some hexisting
    exact ⟨existing, hexisting, rfl, rfl, rfl, rfl⟩

/-- A license that a call spares stays on file. -/
lemma get_step (hget : engine.store.get license.id = some license) {op : LicenseOp} (hop : op.Spares license) :
    (engine.step signer op).store.get license.id = some license := by
  have hsave (written : License) (hne : written.id ≠ license.id) :
      (engine.store.save written).get license.id = some license := by
    rw [Store.get_save, if_neg hne.symm, hget]
  cases op with
  | issue uuid now firmId plan durationDays =>
    simp only [step]
    cases hissue : engine.issue signer uuid now firmId plan durationDays with
    | error e => exact hget
    | ok result =>
      obtain ⟨license, engine'⟩ := result
      obtain ⟨-, heq, hid, -⟩ := issue_eq_ok hissue
      simp only [Except.map, afterCall, heq]
      exact hsave _ (hid ▸ hop)
  | renew now firmId extensionDays =>
    simp only [step]
    cases hrenew : engine.renew signer now firmId extensionDays with
    | error e => exact hget
    | ok result =>
      obtain ⟨renewed, engine'⟩ := result
      obtain ⟨existing, hexisting, rfl, hid, -⟩ := renew_eq_ok hrenew
      obtain ⟨hfound, hfirm⟩ := getForFirm_eq_some hexisting
      refine hsave _ fun heq => hop ?_
      -- The license that was renewed is one of the firm.
      rw [← hid, heq, hget] at hfound
      rw [Option.some.inj hfound, hfirm]

/-- The round trip of a license: the key decodes to its fields, and for as long as it is neither replaced
nor renewed, the license is found under them, and its key is accepted until it expires. -/
structure RoundTrips (signer : LicenseKeySigner) (engine : LicenseEngine) (license : License) (expiry : ℤ) :
    Prop where
  decodes : ∃ payload, signer.verify license.key = .ok (some payload) ∧
    decodePayload payload = some (license.id, license.firmId, license.plan, license.expiresAt.1)
  found : ∀ later, (∀ op ∈ later, op.Spares license) →
    (run (step signer) engine later).store.get license.id = some license
  accepted : ∀ later, (∀ op ∈ later, op.Spares license) → ∀ now : UtcDatetime,
    (run (step signer) engine later).validate signer now license.key = .ok { valid := true } ↔ now.micros ≤ expiry

/-- **Keys**: a license that is issued for so many days round trips iff there is no separator in the identifier
of its firm; and different licenses have different keys in any case. -/
theorem issue_roundtrip_iff (signer : LicenseKeySigner) :
    (∀ (engine engine' : LicenseEngine) uuid now firmId plan durationDays license,
      engine.issue signer uuid now firmId plan durationDays = .ok (license, engine') →
      license.firmId = firmId ∧ license.plan = plan ∧ license.seats = defaultSeatsForPlan plan ∧
        license.expiresAt.micros = now.micros + durationDays * dayMicros ∧
        (RoundTrips signer engine' license license.expiresAt.micros ↔ '|' ∉ firmId.toList)) ∧
    ∀ (uuid uuid' : Fin (2 ^ 128)) firmId firmId' plan plan' expiresAt expiresAt',
      signer.sign (encodePayload (uuidText uuid) firmId plan expiresAt) =
          signer.sign (encodePayload (uuidText uuid') firmId' plan' expiresAt') →
        uuidText uuid = uuidText uuid' ∧ firmId = firmId' ∧ plan = plan' ∧ expiresAt = expiresAt' := by
  refine ⟨fun engine engine' uuid now firmId plan durationDays license hissue => ?_,
    fun uuid uuid' firmId firmId' plan plan' expiresAt expiresAt' h =>
      encodePayload_inj (not_mem_uuidText uuid) (not_mem_uuidText uuid') (sign_inj h)⟩
  obtain ⟨hexpires, rfl, -, rfl, rfl, hseats, hsigned⟩ := issue_eq_ok hissue
  refine ⟨rfl, rfl, hseats, UtcDatetime.micros_addDays hexpires, ?_⟩
  have hget : (engine.store.save license).get license.id = some license := Store.get_save_self ..
  have hkept (later : List LicenseOp) (hlater : ∀ op ∈ later, op.Spares license) :
      (run (step signer) { store := engine.store.save license } later).store.get license.id = some license :=
    (along_of_forall hlater _).inv (I := fun engine : LicenseEngine => engine.store.get license.id = some license)
      hget fun engine op hget hop => get_step hget hop
  constructor
  · -- A key with a separator is not even decoded.
    rintro ⟨⟨payload, hverify, hdecode⟩, -, -⟩ hfirm
    rw [hsigned.key, verify_sign] at hverify
    obtain rfl := Option.some.inj (Except.ok.inj hverify)
    rw [decodePayload_encode hsigned.id, if_pos hfirm] at hdecode
    cases hdecode
  · intro hfirm
    refine ⟨⟨_, by rw [hsigned.key, verify_sign], by rw [decodePayload_encode hsigned.id, if_neg hfirm]⟩, hkept,
      fun later hlater now => ?_⟩
    rw [validate_signed hsigned (hkept later hlater) rfl, if_neg hfirm, if_neg (not_not.mpr rfl), License.isExpired]
    by_cases hexpired : license.expiresAt.micros < now.micros
    · simp [hexpired]
    · simp [hexpired, not_lt.mp hexpired]

/-- A firm whose identifier has a separator in it is issued a license, and its key is refused at once.  The
signature is that of this license's payload under the secret `test-signing-secret`. -/
theorem separator_refused :
    let signer : LicenseKeySigner := ⟨fun _ => "ccd67d85beecf2cfdddb7d8fd356345dfef60e807664f532fd16d0e95bfb898f",
      fun _ => by decide⟩
    let now : UtcDatetime := ⟨⟨{ year := 2026, month := 1, day := 1, utcoffset := some 0 }, by decide⟩, rfl⟩
    ∃ license engine', ({} : LicenseEngine).issue signer 0x40008000000000000007 now "a|b" .solo 30 =
        .ok (license, engine') ∧
      engine'.validate signer now license.key =
        .ok { valid := false, reason := some "malformed license payload" } := by
  intro signer now
  obtain ⟨expiresAt, hexpires⟩ : ∃ expiresAt, now.addDays 30 = .ok expiresAt := ⟨_, dif_pos (by decide)⟩
  have hissue : ∃ result,
      ({} : LicenseEngine).issue signer 0x40008000000000000007 now "a|b" .solo 30 = .ok result := by
    unfold issue
    rw [hexpires]
    exact ⟨_, rfl⟩
  obtain ⟨⟨license, engine'⟩, hissue⟩ := hissue
  obtain ⟨-, rfl, -, hfirm, -, -, hsigned⟩ := issue_eq_ok hissue
  refine ⟨license, _, hissue, ?_⟩
  have hget : ({ store := (∅ : Store String License License.id).save license } : LicenseEngine).store.get
      license.id = some license := Store.get_save_self ..
  rw [validate_signed hsigned hget rfl, hfirm]
  rfl

end LicenseEngine

end Tmis.Platform.Licensing

/-!
## The license of a firm

A firm's license is found by going through all licenses, the oldest first, and a license that is issued to a
firm leaves those that it has as they are.  As long as every firm is issued one license only, and renews it,
all that is read of licenses is read of the one that was returned last.

* `Watched`, `Watched.step`, `engine_step` — the engine, the licenses that its calls have returned, and that it
  takes the steps that it takes unwatched;
* `LatestWins` — what is read of a firm's license is read of the latest one;
* `FirstLicense` — a license is issued to a firm that has none, and whose identifier has no separator in it;
* `Current`, `Current.step` — the invariant, and the step lemma;
* `latest_wins_iff` — the latest license wins after each call iff each license that is issued is the firm's
  first one.
-/

namespace Tmis.Platform.Licensing.LicenseEngine

open Tmis.Lib

/-- A call that writes to the store, with what it returns. -/
def LicenseOp.call (signer : LicenseKeySigner) (engine : LicenseEngine) :
    LicenseOp → Except PyException (License × LicenseEngine)
  | .issue uuid now firmId plan durationDays => engine.issue signer uuid now firmId plan durationDays
  | .renew now firmId extensionDays => engine.renew signer now firmId extensionDays

/-- The engine, and the licenses that were issued and renewed, the latest first. -/
structure Watched where
  engine : LicenseEngine := {}
  history : List License := []

namespace Watched

def step (signer : LicenseKeySigner) (s : Watched) (op : LicenseOp) : Watched :=
  match op.call signer s.engine with
  | .ok (license, engine) => { engine, history := license :: s.history }
  | .error _ => s

/-- The license of a firm that was issued or renewed last. -/
def latest (s : Watched) (firmId : String) : Option License := s.history.find? (·.firmId = firmId)

/-- The identifier drawn for a license is not that of another one. -/
def DrawsNew (s : Watched) : LicenseOp → Prop
  | .issue uuid .. => s.engine.store.get (uuidText uuid) = none
  | .renew .. => True

instance (s : Watched) : ∀ op, Decidable (s.DrawsNew op)
  | .issue uuid .. => inferInstanceAs (Decidable (s.engine.store.get (uuidText uuid) = none))
  | .renew .. => isTrue trivial

/-- A license, if it can be issued, is issued to a firm that has none, and whose identifier has no separator
in it. -/
def FirstLicense (s : Watched) : LicenseOp → Prop
  | .issue _ now firmId _ durationDays => (∃ expiresAt, now.addDays durationDays = .ok expiresAt) →
      (∀ license ∈ s.engine.store.values, license.firmId ≠ firmId) ∧ '|' ∉ firmId.toList
  | .renew .. => True

/-- The latest license of a firm is what is found for it, its features and seats are the firm's, and of all
keys that the firm was ever given it is that license's that is accepted, until it expires. -/
structure LatestWins (signer : LicenseKeySigner) (s : Watched) : Prop where
  current : ∀ firmId, s.engine.getForFirm firmId = s.latest firmId
  features : ∀ firmId feature, s.engine.hasFeature firmId feature =
    (s.latest firmId).any fun license => feature ∈ license.features
  seats : ∀ firmId seatsInUse, s.engine.seatsRemaining firmId seatsInUse =
    (s.latest firmId).elim 0 fun license => max 0 (license.seats - seatsInUse)
  keys : ∀ license ∈ s.history, ∀ now, s.engine.validate signer now license.key = .ok { valid := true } ↔
    ∃ latest, s.latest license.firmId = some latest ∧ license.key = latest.key ∧
      now.micros ≤ latest.expiresAt.micros

variable {signer : LicenseKeySigner} {s : Watched} {license : License} {engine : LicenseEngine} {op : LicenseOp}

lemma step_of_call (h : op.call signer s.engine = .ok (license, engine)) :
    s.step signer op = { engine, history := license :: s.history } := by
  rw [step, h]

/-- The engine takes the steps that it takes unwatched. -/
lemma engine_step (signer : LicenseKeySigner) (s : Watched) (op : LicenseOp) :
    (s.step signer op).engine = s.engine.step signer op := by
  have hstep : s.engine.step signer op = afterCall s.engine ((op.call signer s.engine).map Prod.snd) := by
    cases op <;> rfl
  rw [hstep, step]
  cases op.call signer s.engine <;> rfl

@[simp] lemma latest_cons_self (s : Watched) (license : License) (engine : LicenseEngine) :
    latest { engine, history := license :: s.history } license.firmId = some license :=
  List.find?_cons_of_pos (by simp)

lemma latest_cons_of_ne {firmId : String} (h : license.firmId ≠ firmId) :
    latest { engine, history := license :: s.history } firmId = s.latest firmId :=
  List.find?_cons_of_neg (by simpa using h)

/-! ### The invariant -/

/-- All licenses are signed, and a firm has one on file, the latest, if it was ever given any. -/
structure Current (signer : LicenseKeySigner) (s : Watched) : Prop where
  signed : ∀ license ∈ s.history, Signed signer license ∧ '|' ∉ license.firmId.toList
  onFile : ∀ license ∈ s.history, ∃ stored, s.engine.store.get license.id = some stored ∧
    stored.firmId = license.firmId
  latest : ∀ license ∈ s.engine.store.values, s.latest license.firmId = some license

lemma current_empty (signer : LicenseKeySigner) : Current signer {} :=
  ⟨fun _ h => (nomatch h), fun _ h => (nomatch h), fun _ h => (nomatch h)⟩

/-- A license on file is one that was returned. -/
lemma Current.mem_history (h : Current signer s) (hmem : license ∈ s.engine.store.values) :
    license ∈ s.history :=
  List.mem_of_find?_eq_some (h.latest license hmem)

lemma Current.getForFirm (h : Current signer s) (firmId : String) :
    s.engine.getForFirm firmId = s.latest firmId := by
  cases hfound : s.engine.getForFirm firmId with
  | some license =>
    obtain ⟨hget, rfl⟩ := getForFirm_eq_some hfound
    exact (h.latest license (Store.mem_values_of_get hget)).symm
  | none =>
    cases hlatest : s.latest firmId with
    | none => rfl
    | some license =>
      obtain ⟨stored, hget, hfirm⟩ := h.onFile license (List.mem_of_find?_eq_some hlatest)
      have hlicense : license.firmId = firmId := of_decide_eq_true (List.find?_some hlatest :)
      have hnone := List.find?_eq_none.mp hfound stored (Store.mem_values_of_get hget)
      exact absurd (decide_eq_true (hfirm.trans hlicense)) hnone

/-- A firm's license is written in the place of the one on file for it, if there is one. -/
lemma Current.save (h : Current signer s) (hsigned : Signed signer license) (hbar : '|' ∉ license.firmId.toList)
    (hover : ∀ stored, s.engine.store.get license.id = some stored → stored.firmId = license.firmId)
    (honly : ∀ other ∈ s.engine.store.values, other.firmId = license.firmId → other.id = license.id) :
    Current signer { engine := { store := s.engine.store.save license }, history := license :: s.history } := by
  constructor
  · intro other hother
    rcases List.mem_cons.mp hother with rfl | hother
    · exact ⟨hsigned, hbar⟩
    · exact h.signed other hother
  · intro other hother
    show ∃ stored, (s.engine.store.save license).get other.id = some stored ∧ stored.firmId = other.firmId
    rw [Store.get_save]
    split_ifs with hid
    · refine ⟨license, rfl, ?_⟩
      rcases List.mem_cons.mp hother with rfl | hother
      · rfl
      · obtain ⟨stored, hget, hfirm⟩ := h.onFile other hother
        rw [← hfirm, hover stored (hid ▸ hget)]
    · rcases List.mem_cons.mp hother with rfl | hother
      · exact absurd rfl hid
      · exact h.onFile other hother
  · intro other hother
    rcases Store.get_save_cases (Store.mem_values_iff.mp hother) with ⟨-, rfl⟩ | ⟨hid, hget⟩
    · exact latest_cons_self ..
    · have hmem := Store.mem_values_of_get hget
      rw [latest_cons_of_ne fun heq => hid (honly other hmem heq.symm)]
      exact h.latest other hmem

/-- **The step lemma.** -/
theorem Current.step (h : Current signer s) (hnew : s.DrawsNew op) (hfirst : s.FirstLicense op) :
    Current signer (s.step signer op) := by
  cases hcall : op.call signer s.engine with
  | error e =>
    rw [Watched.step, hcall]
    exact h
  | ok result =>
    obtain ⟨license, engine⟩ := result
    rw [step_of_call hcall]
    cases op with
    | issue uuid now firmId plan durationDays =>
      obtain ⟨hexpires, rfl, hid, rfl, -, -, hsigned⟩ := issue_eq_ok hcall
      obtain ⟨hnone, hbar⟩ := hfirst ⟨_, hexpires⟩
      refine h.save hsigned hbar (fun stored hget => ?_) fun other hother hfirm => absurd hfirm (hnone other hother)
      rw [hid, show s.engine.store.get (uuidText uuid) = none from hnew] at hget
      cases hget
    | renew now firmId extensionDays =>
      obtain ⟨existing, hexisting, rfl, hid, rfl, hkey⟩ := renew_eq_ok hcall
      obtain ⟨hget, hfirm⟩ := getForFirm_eq_some hexisting
      have hmem := Store.mem_values_of_get hget
      obtain ⟨hsigned, hbar⟩ := h.signed existing (h.mem_history hmem)
      refine h.save ⟨hkey, hid ▸ hsigned.id⟩ (hfirm ▸ hbar) (fun stored hstored => ?_)
        fun other hother heq => ?_
      · rw [hid, hget] at hstored
        rw [← Option.some.inj hstored, hfirm]
      · -- Both are the latest license of the firm.
        have hother := h.latest other hother
        rw [heq, ← hfirm, h.latest existing hmem] at hother
        rw [hid, ← Option.some.inj hother]

/-- Keys of a firm, apart from that of its license on file, are refused. -/
lemma Current.validate_iff (h : Current signer s) (hmem : license ∈ s.history) (now : UtcDatetime) :
    s.engine.validate signer now license.key = .ok { valid := true } ↔
      ∃ latest, s.latest license.firmId = some latest ∧ license.key = latest.key ∧
        now.micros ≤ latest.expiresAt.micros := by
  obtain ⟨hsigned, hbar⟩ := h.signed license hmem
  obtain ⟨stored, hget, hfirm⟩ := h.onFile license hmem
  have hlatest : s.latest license.firmId = some stored :=
    hfirm ▸ h.latest stored (Store.mem_values_of_get hget)
  rw [validate_signed hsigned hget hfirm, if_neg hbar, hlatest, License.isExpired]
  by_cases hkey : stored.key = license.key
  · by_cases hexpired : stored.expiresAt.micros < now.micros
    · simp [hkey, hexpired]
    · simp [hkey, hexpired, not_lt.mp hexpired]
  · simp [hkey, Ne.symm hkey]

theorem Current.latestWins (h : Current signer s) : LatestWins signer s := by
  refine ⟨h.getForFirm, fun firmId feature => ?_, fun firmId seatsInUse => ?_,
    fun license hmem now => h.validate_iff hmem now⟩
  · rw [hasFeature, h.getForFirm]
  · rw [seatsRemaining, h.getForFirm]
    cases s.latest firmId <;> rfl

/-! ### A second license -/

/-- A license that is issued wins only if it is the first one, and its key can be read. -/
lemma firstLicense_of_latestWins (h : Current signer s) (hnew : s.DrawsNew op)
    (hwins : LatestWins signer (s.step signer op)) : s.FirstLicense op := by
  cases op with
  | renew now firmId extensionDays => trivial
  | issue uuid now firmId plan durationDays =>
    rintro ⟨expiresAt, hexpires⟩
    obtain ⟨⟨license, engine⟩, hcall⟩ :
        ∃ result, s.engine.issue signer uuid now firmId plan durationDays = .ok result := by
      unfold issue
      rw [hexpires]
      exact ⟨_, rfl⟩
    have hstep : s.step signer (.issue uuid now firmId plan durationDays) = _ := step_of_call hcall
    rw [hstep] at hwins
    obtain ⟨-, rfl, hid, rfl, -, -, hsigned⟩ := issue_eq_ok hcall
    have hnone : s.engine.store.get license.id = none := hid ▸ hnew
    constructor
    · intro old hold hfirm
      -- The older license is found before the new one.
      have hfound := hwins.current license.firmId
      rw [latest_cons_self, getForFirm, Store.values_save_new hnone, List.find?_append] at hfound
      have hcurrent : s.engine.getForFirm license.firmId = some old := by
        rw [h.getForFirm, ← hfirm, h.latest old hold]
      rw [show List.find? (·.firmId = license.firmId) s.engine.store.values = some old from hcurrent,
        Option.some_or] at hfound
      rw [← Option.some.inj hfound, Store.mem_values_iff.mp hold] at hnone
      cases hnone
    · intro hbar
      have hvalid := (hwins.keys license List.mem_cons_self license.expiresAt).mpr
        ⟨license, latest_cons_self .., rfl, le_rfl⟩
      have hget : ({ store := s.engine.store.save license } : LicenseEngine).store.get license.id = some license :=
        Store.get_save_self ..
      have hrefused := validate_signed hsigned hget rfl license.expiresAt
      rw [if_pos hbar] at hrefused
      cases hvalid.symm.trans hrefused

/-- **The latest license wins** after each call of a run whose identifiers are new, for every firm and every
key that was handed out, iff each license that is issued in the run is the first one of its firm, and there is
no separator in the identifier of the firm. -/
theorem latest_wins_iff (signer : LicenseKeySigner) {ops : List LicenseOp}
    (hnew : Along (step signer) DrawsNew {} ops) :
    Along (step signer) (fun s op => LatestWins signer (s.step signer op)) {} ops ↔
      Along (step signer) FirstLicense {} ops :=
  along_congr_of hnew (current_empty signer) (fun _ _ h hnew hfirst => h.step hnew hfirst)
    fun _ _ h hnew => ⟨firstLicense_of_latestWins h hnew, fun hfirst => (h.step hnew hfirst).latestWins⟩

def newYear : UtcDatetime := ⟨⟨{ year := 2026, month := 1, day := 1, utcoffset := some 0 }, by decide⟩, rfl⟩

/-- The signatures of the keys of two licenses of `firm-1`, and of the first one when it is renewed, under the
secret `test-signing-secret`. -/
def sampleSigner : LicenseKeySigner where
  signature text :=
    if text =
        "MDAwMDAwMDAtMDAwMC00MDAwLTgwMDAtMDAwMDAwMDAwMDA3fGZpcm0tMXxzb2xvfDIwMjctMDEtMDFUMDA6MDA6MDArMDA6MDA=" then
      "5ff4f3c8d6a4f774c2b45708593551f8717b2b0c38642506fa3c7f664b2072c4"
    else if text =
        "MDAwMDAwMDAtMDAwMC00MDAwLTgwMDAtMDAwMDAwMDAwMDA4fGZpcm0tMXxlbnRlcnByaXNlfDIwMjctMDEtMDFUMDA6MDA6MDArMDA6MDA=" then
      "bc23d5f56b9076e79543da34c5e3f622b7656e4d0d5b1479e5f79d1bc86ec27f"
    else "be3352f17a2a849ab6a97b45bc11c46484428352ffbd391f67db2fb30f306046"
  ascii text := by split_ifs <;> decide

/-- A license is issued to a firm, and renewed. -/
def renewedLicense : List LicenseOp :=
  [.issue 0x40008000000000000007 newYear "firm-1" .solo 365, .renew newYear "firm-1" 365]

theorem latest_wins_renewed :
    Along (step sampleSigner) (fun s op => LatestWins sampleSigner (s.step sampleSigner op)) {} renewedLicense :=
  (latest_wins_iff sampleSigner (by decide +kernel)).mpr
    ⟨fun _ => ⟨fun _ h => (nomatch h), by decide⟩, trivial, trivial⟩

/-- A firm that has a license for one is issued one for an enterprise. -/
def secondLicense : List LicenseOp :=
  [.issue 0x40008000000000000007 newYear "firm-1" .solo 365,
    .issue 0x40008000000000000008 newYear "firm-1" .enterprise 365]

/-- The firm's license is still the first one, and both keys are accepted. -/
theorem second_license_ignored :
    let s := run (step sampleSigner) {} secondLicense
    Along (step sampleSigner) DrawsNew {} secondLicense ∧
      ¬ Along (step sampleSigner) (fun s op => LatestWins sampleSigner (s.step sampleSigner op)) {} secondLicense ∧
      (s.latest "firm-1").map (·.plan) = some .enterprise ∧
      (s.engine.getForFirm "firm-1").map (·.plan) = some .solo ∧
      s.engine.hasFeature "firm-1" "sso" = false ∧ s.engine.seatsRemaining "firm-1" 0 = 1 ∧
      s.history.length = 2 ∧
      ∀ license ∈ s.history, s.engine.validate sampleSigner newYear license.key = .ok { valid := true } := by
  refine ⟨by decide +kernel, ?_, by decide +kernel, by decide +kernel, by decide +kernel, by decide +kernel,
    by decide +kernel, fun license hlicense => ?_⟩
  · rintro ⟨-, hwins, -⟩
    have hplan := congrArg (Option.map (·.plan)) (hwins.current "firm-1")
    exact absurd hplan (by decide +kernel)
  have hfile : ∀ license ∈ (run (step sampleSigner) {} secondLicense).history,
      (license.key = sampleSigner.sign (encodePayload license.id license.firmId license.plan license.expiresAt) ∧
        '|' ∉ license.id.toList) ∧
      (run (step sampleSigner) {} secondLicense).engine.store.get license.id = some license ∧
      '|' ∉ license.firmId.toList ∧ ¬ license.isExpired newYear := by decide +kernel
  obtain ⟨⟨hkey, hid⟩, hget, hfirm, hexpired⟩ := hfile license hlicense
  rw [validate_signed ⟨hkey, hid⟩ hget rfl, if_neg hfirm, if_neg (not_not.mpr rfl), if_neg hexpired]

end Watched

end Tmis.Platform.Licensing.LicenseEngine
