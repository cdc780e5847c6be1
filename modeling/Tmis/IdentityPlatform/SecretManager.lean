import Mathlib.Data.List.Sort
import Tmis.Lib.BaseText
import Tmis.Lib.Run
import Tmis.Lib.Store

/-!
# Managed secrets

The secret store of `identity_platform.secret_manager`, over the rotating encryption of
`platform.security.secrets_rotation`: a secret is encrypted with the newest key, and decrypted with whichever
key it was encrypted with, however often the keys were rotated since.

* `Fernet`, `Fernet.Documented` — the encryption of the cryptography package, and what it documents;
* `RotationStore`, `RotationStore.keys` — the generations of keys, the newest first;
* `SecretManagerEngine.setSecret`, `SecretManagerEngine.getSecret` — the engine over its in-memory store;
* `holds_run` — what is stored after any calls, in terms of the calls;
* `getSecret_run` — a secret reads as the text it was last set to.
-/

namespace Tmis.IdentityPlatform.SecretManager

open Tmis.Lib Tmis.Lib.Base64

/-! ### Encryption -/

/-- `cryptography.fernet`: encryption draws a nonce, and decryption may raise `InvalidToken`. -/
structure Fernet (Key : Type*) where
  encrypt : Key → (nonce : ℕ) → List UInt8 → List UInt8
  decrypt : Key → List UInt8 → Option (List UInt8)
  multiEncrypt : List Key → (nonce : ℕ) → List UInt8 → List UInt8
  multiDecrypt : List Key → List UInt8 → Option (List UInt8)

/-- What the package documents: tokens are authenticated, `MultiFernet` encrypts with its first key and tries
each key in turn to decrypt. -/
structure Fernet.Documented {Key : Type*} (F : Fernet Key) : Prop where
  decrypt_encrypt : ∀ key nonce bytes, F.decrypt key (F.encrypt key nonce bytes) = some bytes
  decrypt_other : ∀ key key' nonce bytes, key ≠ key' → F.decrypt key' (F.encrypt key nonce bytes) = none
  multiEncrypt_cons : ∀ key keys nonce bytes, F.multiEncrypt (key :: keys) nonce bytes = F.encrypt key nonce bytes
  multiDecrypt_eq : ∀ keys token, F.multiDecrypt keys token = keys.findSome? fun key => F.decrypt key token

/-- One generation of a rotating secret. -/
structure SecretVersion (Key : Type*) where
  version : ℕ
  value : Key
  createdAt : ℕ

/-- `InMemorySecretRotationStore`: every key there has been; there is always one. -/
structure RotationStore (Key : Type*) where
  versions : List (SecretVersion Key)
  nonempty : versions ≠ []

namespace RotationStore

variable {Key : Type*}

def start (value : Key) (now : ℕ) : RotationStore Key := ⟨[⟨1, value, now⟩], List.cons_ne_nil _ _⟩

def current (store : RotationStore Key) : SecretVersion Key := store.versions.getLast store.nonempty

def rotate (store : RotationStore Key) (value : Key) (now : ℕ) : RotationStore Key :=
  ⟨store.versions ++ [⟨store.current.version + 1, value, now⟩], List.concat_ne_nil _ _⟩

/-- `RotatingEncryption._multi_fernet`: the keys, of the newest version first. -/
def keys (store : RotationStore Key) : List Key :=
  (store.versions.mergeSort fun a b => b.version ≤ a.version).map (·.value)

end RotationStore

/-! ### The engine -/

structure ManagedSecret where
  key : String
  firmId : String
  encryptedValue : String
  createdAt : ℕ
  rotatedAt : Option ℕ := none
  deriving DecidableEq

/-- The engine with its in-memory store, and the keys its encryption rotates. -/
structure SecretManagerEngine (Key : Type*) where
  store : Store (String × String) ManagedSecret (fun secret => (secret.firmId, secret.key)) := ∅
  rotation : RotationStore Key

variable {Key : Type*}

namespace SecretManagerEngine

/-- `plaintext.encode()`. -/
def encode (plaintext : String) : List UInt8 := plaintext.toByteArray.data.toList

/-- `bytes.decode()`, unless it raises. -/
def decode (bytes : List UInt8) : Option String := String.fromUTF8? ⟨bytes.toArray⟩

def setSecret (F : Fernet Key) (engine : SecretManagerEngine Key) (firmId key plaintext : String) (nonce now : ℕ) :
    ManagedSecret × SecretManagerEngine Key :=
  let existing := engine.store.get (firmId, key)
  let encryptedValue := standardB64encode (F.multiEncrypt engine.rotation.keys nonce (encode plaintext))
  let secret : ManagedSecret :=
    { key, firmId, encryptedValue,
      createdAt := (existing.map (·.createdAt)).getD now,
      rotatedAt := existing.map fun _ => now }
  (secret, { engine with store := engine.store.save secret })

/-- What `get_secret` returns; `none` where it raises. -/
def getSecret (F : Fernet Key) (engine : SecretManagerEngine Key) (firmId key : String) : Option (Option String) :=
  match engine.store.get (firmId, key) with
  | none => some none
  | some record => do
      let token ← standardB64decode record.encryptedValue
      let bytes ← F.multiDecrypt engine.rotation.keys token
      return some (← decode bytes)

def listForFirm (engine : SecretManagerEngine Key) (firmId : String) : List ManagedSecret :=
  engine.store.values.filter (·.firmId = firmId)

def listKeys (engine : SecretManagerEngine Key) (firmId : String) : List String :=
  (engine.listForFirm firmId).map (·.key)

end SecretManagerEngine

/-! ### Runs -/

inductive Action (Key : Type*) where
  | setSecret (firmId key plaintext : String) (nonce now : ℕ)
  | rotate (value : Key) (now : ℕ)

def step (F : Fernet Key) (engine : SecretManagerEngine Key) : Action Key → SecretManagerEngine Key
  | .setSecret firmId key plaintext nonce now => (engine.setSecret F firmId key plaintext nonce now).2
  | .rotate value now => { engine with rotation := engine.rotation.rotate value now }

/-- A text that a secret was set to, and when. -/
structure Setting where
  plaintext : String
  now : ℕ
  deriving DecidableEq

/-- What a secret of a firm was set to, in order. -/
def settings (actions : List (Action Key)) (firmId key : String) : List Setting :=
  actions.filterMap fun
    | .setSecret firmId' key' plaintext _ now =>
        if (firmId, key) = (firmId', key') then some ⟨plaintext, now⟩ else none
    | .rotate .. => none

section Encryption

variable {F : Fernet Key} {engine : SecretManagerEngine Key} {store : RotationStore Key} {firmId key plaintext : String}
  {k : Key} {nonce now : ℕ}

lemma mem_keys_iff : k ∈ store.keys ↔ ∃ version ∈ store.versions, version.value = k := by
  unfold RotationStore.keys
  simp only [List.mem_map, List.mem_mergeSort]

/-- A rotation keeps the keys there were. -/
lemma mem_keys_rotate (value : Key) (now : ℕ) (h : k ∈ store.keys) : k ∈ (store.rotate value now).keys := by
  obtain ⟨version, hversion, rfl⟩ := mem_keys_iff.mp h
  exact mem_keys_iff.mpr ⟨version, List.mem_append_left _ hversion, rfl⟩

/-- The versions are numbered in the order in which they were made. -/
def RotationStore.Ascending (store : RotationStore Key) : Prop :=
  store.versions.Pairwise fun a b => a.version < b.version

lemma RotationStore.Ascending.le_current (h : store.Ascending) {version : SecretVersion Key}
    (hversion : version ∈ store.versions) : version = store.current ∨ version.version < store.current.version := by
  have hsplit : store.versions = store.versions.dropLast ++ [store.current] :=
    (List.dropLast_append_getLast store.nonempty).symm
  unfold RotationStore.Ascending at h
  rw [hsplit] at h hversion
  rcases List.mem_append.mp hversion with hversion | hversion
  · exact Or.inr ((List.pairwise_append.mp h).2.2 _ hversion _ (List.mem_singleton_self _))
  · exact Or.inl (List.mem_singleton.mp hversion)

lemma RotationStore.Ascending.rotate (h : store.Ascending) (value : Key) (now : ℕ) :
    (store.rotate value now).Ascending := by
  refine List.pairwise_append.mpr ⟨h, List.pairwise_singleton .., fun a ha b hb => ?_⟩
  rw [List.mem_singleton.mp hb]
  rcases h.le_current ha with rfl | hlt
  · exact Nat.lt_succ_self _
  · exact hlt.trans (Nat.lt_succ_self _)

/-- **The newest key comes first.** -/
theorem RotationStore.Ascending.head_keys (h : store.Ascending) : ∃ older, store.keys = store.current.value :: older := by
  have hmem : store.current ∈ store.versions.mergeSort fun a b => b.version ≤ a.version :=
    List.mem_mergeSort.mpr (List.getLast_mem _)
  have hsorted : (store.versions.mergeSort fun a b => b.version ≤ a.version).Pairwise
      fun a b => decide (b.version ≤ a.version) = true := by
    refine List.pairwise_mergeSort (fun a b c hab hbc => ?_) (fun a b => ?_) _
    · exact decide_eq_true ((of_decide_eq_true hbc).trans (of_decide_eq_true hab))
    · simpa using Nat.le_total b.version a.version
  unfold RotationStore.keys
  cases hsort : store.versions.mergeSort fun a b => b.version ≤ a.version with
  | nil =>
    rw [hsort] at hmem
    cases hmem
  | cons first older =>
    have hfirst : first ∈ store.versions := List.mem_mergeSort.mp (by rw [hsort]; exact List.mem_cons_self)
    rw [hsort] at hmem hsorted
    rcases List.mem_cons.mp hmem with hcurrent | hcurrent
    · exact ⟨older.map (·.value), by rw [hcurrent, List.map_cons]⟩
    · have hle := of_decide_eq_true ((List.pairwise_cons.mp hsorted).1 _ hcurrent)
      rcases h.le_current hfirst with rfl | hlt
      · exact ⟨older.map (·.value), by rw [List.map_cons]⟩
      · exact absurd hlt (Nat.not_lt.mpr hle)

@[simp] lemma decode_encode (plaintext : String) : SecretManagerEngine.decode (SecretManagerEngine.encode plaintext) = some plaintext := by
  unfold SecretManagerEngine.decode SecretManagerEngine.encode
  simp [String.fromUTF8?, plaintext.isValidUTF8, String.fromUTF8]

/-- **Whichever key it was encrypted with**, as long as it is still there, a token is decrypted. -/
theorem multiDecrypt_encrypt (hF : F.Documented) {keys : List Key} (hk : k ∈ keys) (nonce : ℕ) (bytes : List UInt8) :
    F.multiDecrypt keys (F.encrypt k nonce bytes) = some bytes := by
  rw [hF.multiDecrypt_eq]
  induction keys with
  | nil => cases hk
  | cons k' keys ih =>
    rw [List.findSome?_cons]
    by_cases hsame : k = k'
    · rw [← hsame, hF.decrypt_encrypt]
    · rw [hF.decrypt_other k k' nonce bytes hsame]
      exact ih ((List.mem_cons.mp hk).resolve_left hsame)

end Encryption

section Run

variable {F : Fernet Key} {first : SecretVersion Key} {engine : SecretManagerEngine Key} {firmId key : String}
  {k : Key} {store store' : RotationStore Key} {history : List Setting} {secret : ManagedSecret}

/-- What a stored secret says of the texts it was set to: it was made at the first, rotated at the last of
several, and is the last one encrypted with a key that is still there. -/
structure Holds (F : Fernet Key) (store : RotationStore Key) (history : List Setting) (secret : ManagedSecret) :
    Prop where
  dated : ∃ first rest, history = first :: rest ∧ secret.createdAt = first.now ∧
    secret.rotatedAt = rest.getLast?.map (·.now)
  encrypted : ∃ last ∈ history.getLast?, ∃ k ∈ store.keys, ∃ nonce,
    secret.encryptedValue = standardB64encode (F.encrypt k nonce (SecretManagerEngine.encode last.plaintext))

/-- What is stored is what the texts say that secrets were set to, and only that. -/
structure Sound (F : Fernet Key) (engine : SecretManagerEngine Key) (settings : String → String → List Setting) :
    Prop where
  ascending : engine.rotation.Ascending
  holds : ∀ firmId key secret, engine.store.get (firmId, key) = some secret →
    Holds F engine.rotation (settings firmId key) secret
  unset : ∀ firmId key, engine.store.get (firmId, key) = none → settings firmId key = []

lemma Holds.mono (h : Holds F store history secret) (hkeys : ∀ k ∈ store.keys, k ∈ store'.keys) :
    Holds F store' history secret where
  dated := h.dated
  encrypted := by
    obtain ⟨last, hlast, k, hk, nonce, heq⟩ := h.encrypted
    exact ⟨last, hlast, k, hkeys k hk, nonce, heq⟩

/-- **A stored secret reads as the text it was last set to.** -/
theorem Holds.getSecret (hF : F.Documented) (hget : engine.store.get (firmId, key) = some secret)
    (h : Holds F engine.rotation history secret) :
    engine.getSecret F firmId key = some (history.getLast?.map (·.plaintext)) := by
  obtain ⟨last, hlast, k, hk, nonce, heq⟩ := h.encrypted
  unfold SecretManagerEngine.getSecret
  rw [hget, Option.mem_def.mp hlast]
  simp [heq, standardB64decode_encode, multiDecrypt_encrypt hF hk]

lemma sound_start (F : Fernet Key) (value : Key) (now : ℕ) :
    Sound F { rotation := .start value now } fun firmId key => settings ([] : List (Action Key)) firmId key where
  ascending := List.pairwise_singleton ..
  holds := nofun
  unset _ _ _ := rfl

/-- One more call. -/
lemma Sound.step (hF : F.Documented) {actions : List (Action Key)}
    (h : Sound F engine fun firmId key => settings actions firmId key) (action : Action Key) :
    Sound F (step F engine action) fun firmId key => settings (actions ++ [action]) firmId key := by
  have hset (firmId key : String) : settings (actions ++ [action]) firmId key =
      settings actions firmId key ++ settings [action] firmId key := List.filterMap_append
  simp only [hset]
  cases action with
  | rotate value now =>
    have hnone (firmId key : String) : settings [Action.rotate value now] firmId key = [] := rfl
    simp only [hnone, List.append_nil]
    exact ⟨h.ascending.rotate value now,
      fun firmId key secret hget => (h.holds firmId key secret hget).mono fun k hk => mem_keys_rotate value now hk,
      h.unset⟩
  | setSecret firmId key plaintext nonce now =>
    obtain ⟨older, hkeys⟩ := h.ascending.head_keys
    have hnew (firmId' key' : String) :
        settings [(.setSecret firmId key plaintext nonce now : Action Key)] firmId' key' =
        if (firmId', key') = (firmId, key) then [⟨plaintext, now⟩] else [] := by
      by_cases hkey : (firmId', key') = (firmId, key) <;>
        simp only [settings, List.filterMap_cons, List.filterMap_nil, hkey, if_true, if_false]
    simp only [hnew]
    refine ⟨h.ascending, fun firmId' key' secret hget => ?_, fun firmId' key' hget => ?_⟩
    · obtain ⟨hkey, rfl⟩ | ⟨hkey, hget⟩ := Store.get_save_cases hget
      · cases hkey
        rw [if_pos rfl]
        refine ⟨?_, ?_⟩
        · cases hold : engine.store.get (firmId, key) with
          | none =>
            refine ⟨⟨plaintext, now⟩, [], by rw [h.unset _ _ hold]; rfl, ?_, ?_⟩
            · simp
            · simp
          | some old =>
            obtain ⟨first, rest, hhistory, hcreated, -⟩ := (h.holds _ _ _ hold).dated
            refine ⟨first, rest ++ [⟨plaintext, now⟩], by rw [hhistory]; rfl, ?_, ?_⟩
            · simp [hcreated]
            · simp
        · refine ⟨⟨plaintext, now⟩, List.getLast?_concat, engine.rotation.current.value, ?_, nonce, ?_⟩
          · exact hkeys ▸ List.mem_cons_self
          · show standardB64encode (F.multiEncrypt engine.rotation.keys nonce _) = _
            rw [hkeys, hF.multiEncrypt_cons]
      · rw [if_neg hkey, List.append_nil]
        exact h.holds firmId' key' secret hget
    · have hget : (engine.store.save _).get (firmId', key') = none := hget
      rw [Store.get_save] at hget
      split at hget
      · cases hget
      · rename_i hkey
        rw [if_neg hkey, List.append_nil]
        exact h.unset firmId' key' hget

/-- **What is stored after any calls**, in terms of the calls. -/
theorem sound_run (hF : F.Documented) (value : Key) (now : ℕ) (actions : List (Action Key)) :
    Sound F (run (step F) { rotation := .start value now } actions)
      fun firmId key => settings actions firmId key := by
  induction actions using List.reverseRecOn with
  | nil => exact sound_start F value now
  | append_singleton actions action ih =>
    rw [run_snoc]
    exact ih.step hF action

/-- **A secret is what it was last set to**: after any settings and rotations, for any secret of any firm, the text
it was last set to is read, under whichever key it was encrypted; it was made when it was first set, and rotated
when it was last set again. -/
theorem getSecret_run (F : Fernet Key) (hF : F.Documented) (value : Key) (start : ℕ) (actions : List (Action Key))
    (firmId key : String) :
    (run (step F) { rotation := .start value start } actions).getSecret F firmId key =
      some ((settings actions firmId key).getLast?.map (·.plaintext)) ∧
    ((run (step F) { rotation := .start value start } actions).store.get (firmId, key)).map
      (fun secret => (secret.createdAt, secret.rotatedAt)) =
      (settings actions firmId key).head?.map
        (fun first => (first.now, (settings actions firmId key).tail.getLast?.map (·.now))) := by
  have hsound := sound_run hF value start actions
  generalize run (step F) { rotation := .start value start } actions = engine at hsound ⊢
  cases hget : engine.store.get (firmId, key) with
  | none =>
    rw [hsound.unset firmId key hget, SecretManagerEngine.getSecret, hget]
    exact ⟨rfl, rfl⟩
  | some secret =>
    have hholds := hsound.holds firmId key secret hget
    refine ⟨hholds.getSecret hF hget, ?_⟩
    obtain ⟨first, rest, hhistory, hcreated, hrotated⟩ := hholds.dated
    rw [hhistory, Option.map_some, hcreated, hrotated]
    rfl

/-- **What is newly encrypted** is encrypted with the newest key, after any settings and rotations. -/
theorem multiEncrypt_run (F : Fernet Key) (hF : F.Documented) (value : Key) (start : ℕ) (actions : List (Action Key))
    (nonce : ℕ) (bytes : List UInt8) :
    F.multiEncrypt (run (step F) { rotation := .start value start } actions).rotation.keys nonce bytes =
      F.encrypt (run (step F) { rotation := .start value start } actions).rotation.current.value nonce bytes := by
  obtain ⟨older, hkeys⟩ := (sound_run hF value start actions).ascending.head_keys
  rw [hkeys, hF.multiEncrypt_cons]

/-- Bytes that are known by a key in front of them. -/
def unlabel (key : UInt8) : List UInt8 → Option (List UInt8)
  | [] => none
  | label :: bytes => if label = key then some bytes else none

/-- A cipher that only says which key it used. -/
def labelled : Fernet UInt8 where
  encrypt key _ bytes := key :: bytes
  decrypt := unlabel
  multiEncrypt keys _ bytes := keys.head?.toList ++ bytes
  multiDecrypt keys token := keys.findSome? fun key => unlabel key token

lemma documented_labelled : labelled.Documented where
  decrypt_encrypt _ _ _ := if_pos rfl
  decrypt_other _ _ _ _ h := if_neg h
  multiEncrypt_cons _ _ _ _ := rfl
  multiDecrypt_eq _ _ := rfl

/-- A secret set twice, with rotations before, between and after, and one of another firm. -/
def rotations : List (Action UInt8) :=
  [.rotate 2 1, .setSecret "f" "k" "é" 0 2, .rotate 3 3, .setSecret "g" "k" "x" 0 4, .setSecret "f" "k" "y" 0 5,
    .rotate 4 6]

theorem getSecret_run_rotations :
    (run (step labelled) { rotation := .start 1 0 } rotations).getSecret labelled "f" "k" =
      some ((settings rotations "f" "k").getLast?.map (·.plaintext)) ∧
    ((run (step labelled) { rotation := .start 1 0 } rotations).store.get ("f", "k")).map
      (fun secret => (secret.createdAt, secret.rotatedAt)) =
      (settings rotations "f" "k").head?.map
        (fun first => (first.now, (settings rotations "f" "k").tail.getLast?.map (·.now))) :=
  getSecret_run labelled documented_labelled 1 0 rotations "f" "k"

end Run

end Tmis.IdentityPlatform.SecretManager
