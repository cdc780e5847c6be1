import Tmis.Lib.Dict
import Tmis.Lib.PyFloat

/-!
# Caches of texts

`tmis.ai.cache`: the port that every cache has, and the caches behind it.

* `CachePort` — reading and writing; a cache makes nothing up;
* `inMemoryCache`, `redisCache` — the two caches;
* `Written`, `Remembers` — what a cache may answer was written, and nothing over it.
-/

namespace Tmis.Ai

open Tmis.Lib

/-- `CachePort`, with the reading of the clock that a call makes.  A call may raise, and one that does may
have written.  `Holds s key value` says that the cache may answer `value` to `key`. -/
structure CachePort (F : Type) where
  State : Type
  empty : State
  get : F → String → State → Except PyException (Option String) × State
  set : F → String → String → Option ℤ → State → Except PyException Unit × State
  Holds : State → String → String → Prop
  not_holds_empty : ∀ key value, ¬ Holds empty key value
  get_holds : ∀ {now key s value}, (get now key s).1 = .ok (some value) → Holds s key value
  holds_get : ∀ {now key s key' value}, Holds (get now key s).2 key' value → Holds s key' value
  holds_set : ∀ {now key value ttl s key' value'}, Holds (set now key value ttl s).2 key' value' →
    (key' = key ∧ value' = value) ∨
      (Holds s key' value' ∧ ((set now key value ttl s).1 = .ok () → key' ≠ key))

/-! ### In memory -/

section InMemory

variable {F : Type} [PyFloat F]

/-- Texts, each with the moment at which it expires, if it does. -/
abbrev TextStore (F : Type) := Dict String (String × Option F)

namespace InMemoryCache

def expired (now : F) (expiresAt : Option F) : Bool :=
  match expiresAt with
  | some moment => PyFloat.lt moment now
  | none => false

/-- `get`: a text that has expired is deleted. -/
def get (now : F) (key : String) (store : TextStore F) : Option String × TextStore F :=
  match store.get key with
  | none => (none, store)
  | some (value, expiresAt) => if expired now expiresAt then (none, store.pop key) else (some value, store)

/-- `now + ttl_seconds`: an integer that no float comes near is refused. -/
def expiry (now : F) (ttlSeconds : Option ℤ) : Except PyException (Option F) :=
  match ttlSeconds with
  | none => .ok none
  | some ttl =>
      if ttl.natAbs < 2 ^ 1024 - 2 ^ 970 then .ok (some (PyFloat.add now (PyFloat.ofRat ttl)))
      else .error ⟨"OverflowError", "int too large to convert to float"⟩

def set (now : F) (key value : String) (ttlSeconds : Option ℤ) (store : TextStore F) :
    Except PyException Unit × TextStore F :=
  match expiry now ttlSeconds with
  | .error e => (.error e, store)
  | .ok expiresAt => (.ok (), store.set key (value, expiresAt))

/-- The text stands under the key, until some moment. -/
def Holds (store : TextStore F) (key value : String) : Prop :=
  ∃ expiresAt, store.get key = some (value, expiresAt)

variable {now : F} {key key' value value' : String} {ttl : Option ℤ} {store : TextStore F}

lemma get_holds (h : (get now key store).1 = some value) : Holds store key value := by
  unfold get at h
  split at h
  · cases h
  · rename_i value' expiresAt hfound
    split_ifs at h
    cases h
    exact ⟨expiresAt, hfound⟩

lemma holds_get (h : Holds (get now key store).2 key' value) : Holds store key' value := by
  unfold get at h
  split at h
  · exact h
  · split_ifs at h
    · obtain ⟨expiresAt, hfound⟩ := h
      exact ⟨expiresAt, Dict.get_of_get_pop hfound⟩
    · exact h

lemma holds_set (h : Holds (set now key value ttl store).2 key' value') :
    (key' = key ∧ value' = value) ∨
      (Holds store key' value' ∧ ((set now key value ttl store).1 = .ok () → key' ≠ key)) := by
  unfold set at h ⊢
  split at h
  · exact Or.inr ⟨h, fun hok => by cases hok⟩
  · obtain ⟨expiresAt, hfound⟩ := h
    rw [Dict.get_set] at hfound
    split_ifs at hfound with hkey
    · cases hfound
      exact Or.inl ⟨hkey, rfl⟩
    · exact Or.inr ⟨⟨expiresAt, hfound⟩, fun _ => hkey⟩

/-- What was written is read until it expires. -/
theorem get_set {later : F} {expiresAt : Option F} (hexpiry : expiry now ttl = .ok expiresAt)
    (hlive : expired later expiresAt = false) :
    (get later key (set now key value ttl store).2).1 = some value := by
  simp [set, hexpiry, get, hlive]

end InMemoryCache

/-- `InMemoryCache`. -/
def inMemoryCache (F : Type) [PyFloat F] : CachePort F where
  State := TextStore F
  empty := ∅
  get now key store := ((InMemoryCache.get now key store).map Except.ok id)
  set := InMemoryCache.set
  Holds := InMemoryCache.Holds
  not_holds_empty := fun _ _ ⟨_, h⟩ => by cases h
  get_holds h := InMemoryCache.get_holds (Except.ok.inj h)
  holds_get := InMemoryCache.holds_get
  holds_set := InMemoryCache.holds_set

end InMemory

/-! ### Redis -/

/-- `RedisCache`: the client is a cache too, whose keys begin with a prefix. -/
def redisCache {F : Type} (client : CachePort F) (keyPrefix : String := "tmis:cache:") : CachePort F where
  State := client.State
  empty := client.empty
  get now key := client.get now (keyPrefix ++ key)
  set now key := client.set now (keyPrefix ++ key)
  Holds s key := client.Holds s (keyPrefix ++ key)
  not_holds_empty _ := client.not_holds_empty _
  get_holds := client.get_holds
  holds_get := client.holds_get
  holds_set h := by
    rcases client.holds_set h with ⟨hkey, hvalue⟩ | ⟨hheld, hkey⟩
    · exact Or.inl ⟨(String.append_right_inj _).mp hkey, hvalue⟩
    · exact Or.inr ⟨hheld, fun hok heq => hkey hok (by rw [heq])⟩

/-! ### What was written -/

/-- A call of `set`: what it was to write, and whether it returned. -/
structure CacheWrite where
  key : String
  value : String
  returned : Bool

/-- The value was written under the key, and nothing since: of the writes, the newest is the first. -/
def Written (writes : List CacheWrite) (key value : String) : Prop :=
  ∃ newer write older, writes = newer ++ write :: older ∧ write.key = key ∧ write.value = value ∧
    ∀ w ∈ newer, w.returned = true → w.key ≠ key

/-- What the cache may answer was written, and nothing since. -/
def Remembers {F : Type} (port : CachePort F) (s : port.State) (writes : List CacheWrite) : Prop :=
  ∀ key value, port.Holds s key value → Written writes key value

section Remembers

variable {F : Type} {port : CachePort F} {s : port.State} {writes : List CacheWrite} {now : F}
  {key value : String}

lemma remembers_empty : Remembers port port.empty [] :=
  fun key value h => absurd h (port.not_holds_empty key value)

lemma Remembers.get (h : Remembers port s writes) : Remembers port (port.get now key s).2 writes :=
  fun key value hheld => h key value (port.holds_get hheld)

/-- The write that a call of `set` makes. -/
def writeOf (key value : String) (result : Except PyException Unit) : CacheWrite :=
  ⟨key, value, result.isOk⟩

lemma Remembers.set (h : Remembers port s writes) {ttl : Option ℤ} :
    Remembers port (port.set now key value ttl s).2
      (writeOf key value (port.set now key value ttl s).1 :: writes) := by
  intro key' value' hheld
  rcases port.holds_set hheld with ⟨rfl, rfl⟩ | ⟨hheld, hkey⟩
  · exact ⟨[], _, writes, rfl, rfl, rfl, fun _ hw => absurd hw List.not_mem_nil⟩
  · obtain ⟨newer, write, older, rfl, hwrite, hvalue, hnewer⟩ := h key' value' hheld
    refine ⟨_ :: newer, write, older, rfl, hwrite, hvalue,
      List.forall_mem_cons.mpr ⟨fun hok heq => ?_, hnewer⟩⟩
    refine hkey ?_ heq.symm
    cases hresult : (port.set now key value ttl s).1 with
    | error e => simp [writeOf, hresult, Except.isOk, Except.toBool] at hok
    | ok => rfl

end Remembers

end Tmis.Ai
