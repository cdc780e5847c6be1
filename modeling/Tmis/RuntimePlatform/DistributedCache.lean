import Tmis.Ai.Cache
import Tmis.Lib.Run

/-!
# The distributed cache

`runtime_platform.distributed_cache` puts a cache of its own in front of another one: long texts are
compressed, keys that are read often expire later, and the use of the cache is counted.

* `Packing` — compressed texts;
* `encode`, `decode`, `decode_encode` — what is stored for a text;
* `distributedCache` — the engine is a cache again.

Listeners, invalidation and warming are left out: nothing that is modelled calls them.
-/

namespace Tmis.RuntimePlatform

open Tmis.Lib Tmis.Ai

/-- The Base64 of what `zlib` makes of the bytes of a text, and back. -/
structure Packing where
  pack : String → String
  unpack : String → Except PyException String
  unpack_pack : ∀ value, unpack (pack value) = .ok value

/-- `CacheUsageStats`. -/
structure CacheUsageStats where
  hits : ℕ := 0
  misses : ℕ := 0
  sets : ℕ := 0
  bytesSavedByCompression : ℕ := 0

namespace DistributedCacheEngine

section Codec

variable (packing : Packing)

/-- `_encode`: a text is compressed if that makes it shorter. -/
def encode (value : String) : String × ℕ :=
  if value.length < 256 then ("r:" ++ value, 0)
  else
    let candidate := "z:" ++ packing.pack value
    if value.length ≤ candidate.length then ("r:" ++ value, 0) else (candidate, value.length - candidate.length)

/-- `_decode`. -/
def decode (stored : String) : Except PyException String :=
  let payload := String.ofList (stored.toList.drop 2)
  if ['z', ':'].isPrefixOf stored.toList then packing.unpack payload else .ok payload

lemma decode_raw (value : String) : decode packing ("r:" ++ value) = .ok value := by
  have hchars : ("r:" ++ value).toList = 'r' :: ':' :: value.toList := by simp
  simp [decode, hchars]

lemma decode_packed (value : String) : decode packing ("z:" ++ packing.pack value) = .ok value := by
  have hchars : ("z:" ++ packing.pack value).toList = 'z' :: ':' :: (packing.pack value).toList := by simp
  simp [decode, hchars, packing.unpack_pack]

/-- What is stored for a text is read as this text. -/
theorem decode_encode (value : String) : decode packing (encode packing value).1 = .ok value := by
  unfold encode
  split_ifs
  · exact decode_raw packing value
  · dsimp only
    split_ifs
    · exact decode_raw packing value
    · exact decode_packed packing value

end Codec

section Engine

variable {F : Type} (cache : CachePort F) (packing : Packing)

/-- The engine: the state of the cache behind it, its counters, and how often each key was read. -/
structure State where
  cache : cache.State
  stats : CacheUsageStats
  accessCounts : Dict String ℕ

variable {cache}

/-- `_smart_ttl`. -/
def smartTtl (accessCounts : Dict String ℕ) (key : String) (ttlSeconds : Option ℤ) : Option ℤ :=
  ttlSeconds.map fun ttl => ttl * (min (1 + (accessCounts.get key).getD 0 / 5) 4 : ℕ)

def get (now : F) (key : String) (s : State cache) : Except PyException (Option String) × State cache :=
  match cache.get now key s.cache with
  | (.error e, inner) => (.error e, { s with cache := inner })
  | (.ok none, inner) => (.ok none, { s with cache := inner, stats.misses := s.stats.misses + 1 })
  | (.ok (some raw), inner) =>
      ((decode packing raw).map some,
        { cache := inner
          stats := { s.stats with hits := s.stats.hits + 1 }
          accessCounts := s.accessCounts.set key ((s.accessCounts.get key).getD 0 + 1) })

def set (now : F) (key value : String) (ttlSeconds : Option ℤ) (s : State cache) :
    Except PyException Unit × State cache :=
  let (encoded, savedBytes) := encode packing value
  let stats := { s.stats with bytesSavedByCompression := s.stats.bytesSavedByCompression + savedBytes }
  match cache.set now key encoded (smartTtl s.accessCounts key ttlSeconds) s.cache with
  | (.error e, inner) => (.error e, { s with cache := inner, stats })
  | (.ok (), inner) => (.ok (), { s with cache := inner, stats := { stats with sets := stats.sets + 1 } })

/-- The cache behind the engine may answer what is stored for the value. -/
def Holds (s : State cache) (key value : String) : Prop :=
  ∃ raw, cache.Holds s.cache key raw ∧ decode packing raw = .ok value

lemma get_cache (now : F) (key : String) (s : State cache) :
    (get packing now key s).2.cache = (cache.get now key s.cache).2 := by
  unfold get
  split <;> simp_all

lemma set_spec (now : F) (key value : String) (ttl : Option ℤ) (s : State cache) :
    (set packing now key value ttl s).2.cache =
      (cache.set now key (encode packing value).1 (smartTtl s.accessCounts key ttl) s.cache).2 ∧
    (set packing now key value ttl s).1 =
      (cache.set now key (encode packing value).1 (smartTtl s.accessCounts key ttl) s.cache).1 := by
  unfold set
  dsimp only
  split <;> simp_all

variable {packing} {now : F} {key key' value value' : String} {ttl : Option ℤ} {s : State cache}

lemma get_holds (h : (get packing now key s).1 = .ok (some value)) : Holds packing s key value := by
  unfold get at h
  split at h
  · cases h
  · cases h
  · rename_i raw inner hget
    obtain ⟨value', hdecode, hvalue⟩ : ∃ value', decode packing raw = .ok value' ∧ value' = value := by
      cases hdecode : decode packing raw with
      | error e => simp [hdecode, Except.map] at h
      | ok value' => exact ⟨value', rfl, by simpa [hdecode, Except.map] using h⟩
    exact ⟨raw, cache.get_holds (congrArg Prod.fst hget), hvalue ▸ hdecode⟩

lemma holds_get (h : Holds packing (get packing now key s).2 key' value) : Holds packing s key' value := by
  obtain ⟨raw, hheld, hdecode⟩ := h
  rw [get_cache] at hheld
  exact ⟨raw, cache.holds_get hheld, hdecode⟩

lemma holds_set (h : Holds packing (set packing now key value ttl s).2 key' value') :
    (key' = key ∧ value' = value) ∨
      (Holds packing s key' value' ∧ ((set packing now key value ttl s).1 = .ok () → key' ≠ key)) := by
  obtain ⟨raw, hheld, hdecode⟩ := h
  obtain ⟨hcache, hanswer⟩ := set_spec packing now key value ttl s
  rw [hcache] at hheld
  rw [hanswer]
  rcases cache.holds_set hheld with ⟨rfl, rfl⟩ | ⟨hheld, hkey⟩
  · rw [decode_encode] at hdecode
    exact Or.inl ⟨rfl, (Except.ok.inj hdecode).symm⟩
  · exact Or.inr ⟨⟨raw, hheld, hdecode⟩, hkey⟩

end Engine

end DistributedCacheEngine

open DistributedCacheEngine in
/-- `DistributedCacheEngine` over a cache. -/
def distributedCache {F : Type} (cache : CachePort F) (packing : Packing) : CachePort F where
  State := State cache
  empty := ⟨cache.empty, {}, ∅⟩
  get := get packing
  set := set packing
  Holds := Holds packing
  not_holds_empty := fun _ _ ⟨_, h, _⟩ => cache.not_holds_empty _ _ h
  get_holds := get_holds
  holds_get := holds_get
  holds_set := holds_set

end Tmis.RuntimePlatform

/-!
## The distributed cache over one that keeps its texts

`DistributedCacheEngine` with all of its calls, in front of a cache without expiry: reading, writing,
deleting, invalidation with its listeners, and warming.

* `LastingCache` — a text cache without expiry: what it is asked, and the texts that it holds;
* `LastingCache.recording` — the cache that also writes down the lifetimes it is given;
* `Engine`, `Call`, `step` — the engine and its calls;
* `holding` — what the engine stands for: the text last written for a key and not deleted since;
* `refines` — the engine answers just that, and the lifetimes it passes on.
-/

namespace Tmis.RuntimePlatform

open Tmis.Lib DistributedCacheEngine

/-- A cache of texts without expiry: its calls, and the texts that it holds. -/
structure LastingCache where
  State : Type
  empty : State
  text : State → String → Option String
  get : String → State → Option String × State
  set : String → String → Option ℤ → State → State
  delete : String → State → State
  present : String → State → Bool × State
  text_empty : ∀ key, text empty key = none
  get_eq : ∀ key s, (get key s).1 = text s key
  text_get : ∀ key s k, text (get key s).2 k = text s k
  text_set : ∀ key value ttl s k, text (set key value ttl s) k = if k = key then some value else text s k
  text_delete : ∀ key s k, text (delete key s) k = if k = key then none else text s k
  present_eq : ∀ key s, (present key s).1 = (text s key).isSome
  text_present : ∀ key s k, text (present key s).2 k = text s k

namespace LastingCache

/-- A dictionary. -/
def dict : LastingCache where
  State := Dict String String
  empty := ∅
  text := Dict.get
  get key s := (s.get key, s)
  set key value _ s := s.set key value
  delete key s := s.pop key
  present key s := (s.contains key, s)
  text_empty := Dict.get_empty
  get_eq _ _ := rfl
  text_get _ _ _ := rfl
  text_set key value _ s k := s.get_set key k value
  text_delete key s k := by
    split
    · subst k
      exact s.get_pop_self key
    · exact s.get_pop_of_ne ‹_›
  present_eq _ _ := rfl
  text_present _ _ _ := rfl

/-- The cache that writes down the lifetimes it is given. -/
def recording (cache : LastingCache) : LastingCache where
  State := cache.State × List (Option ℤ)
  empty := (cache.empty, [])
  text s := cache.text s.1
  get key s := ((cache.get key s.1).1, (cache.get key s.1).2, s.2)
  set key value ttl s := (cache.set key value ttl s.1, s.2 ++ [ttl])
  delete key s := (cache.delete key s.1, s.2)
  present key s := ((cache.present key s.1).1, (cache.present key s.1).2, s.2)
  text_empty := cache.text_empty
  get_eq key s := cache.get_eq key s.1
  text_get key s := cache.text_get key s.1
  text_set key value ttl s := cache.text_set key value ttl s.1
  text_delete key s := cache.text_delete key s.1
  present_eq key s := cache.present_eq key s.1
  text_present key s := cache.text_present key s.1

end LastingCache

/-- `CacheUsageStats`, with the counters of invalidation and warming. -/
structure UsageStats extends CacheUsageStats where
  invalidations : ℕ := 0
  warmedKeys : ℕ := 0

/-- The loaders of a call of `warm`: what each of them returns or raises. -/
abbrev Loaders := Dict String (Except PyException String)

namespace LastingCache

/-- The engine: the state of the cache behind it, its counters, how often each key was read, and the
listeners, which may raise. -/
structure Engine (cache : LastingCache) where
  cache : cache.State
  stats : UsageStats := {}
  accessCounts : Dict String ℕ := ∅
  listeners : List (String → Except PyException Unit) := []

namespace Engine

variable {cache : LastingCache} (packing : Packing)

def init (cache : LastingCache) : Engine cache where
  cache := cache.empty

def get (key : String) (s : Engine cache) : Except PyException (Option String) × Engine cache :=
  match cache.get key s.cache with
  | (none, inner) => (.ok none, { s with cache := inner, stats.misses := s.stats.misses + 1 })
  | (some raw, inner) =>
      ((decode packing raw).map some,
        { s with
          cache := inner
          stats.hits := s.stats.hits + 1
          accessCounts := s.accessCounts.set key ((s.accessCounts.get key).getD 0 + 1) })

def set (key value : String) (ttlSeconds : Option ℤ) (s : Engine cache) : Engine cache :=
  let (encoded, savedBytes) := encode packing value
  { s with
    cache := cache.set key encoded (smartTtl s.accessCounts key ttlSeconds) s.cache
    stats.bytesSavedByCompression := s.stats.bytesSavedByCompression + savedBytes
    stats.sets := s.stats.sets + 1 }

def delete (key : String) (s : Engine cache) : Engine cache := { s with cache := cache.delete key s.cache }

def present (key : String) (s : Engine cache) : Bool × Engine cache :=
  ((cache.present key s.cache).1, { s with cache := (cache.present key s.cache).2 })

def registerInvalidationListener (listener : String → Except PyException Unit) (s : Engine cache) :
    Engine cache :=
  { s with listeners := s.listeners ++ [listener] }

/-- `invalidate`: the listeners are called in order, up to one that raises. -/
def invalidate (key : String) (s : Engine cache) : Except PyException Unit × Engine cache :=
  (s.listeners.forM fun listener => listener key,
    { s with cache := cache.delete key s.cache, stats.invalidations := s.stats.invalidations + 1 })

/-- The loop of `warm`: a key that is present is left out, and a loader that raises ends the call. -/
def warmFrom (ttlSeconds : Option ℤ) :
    List (String × Except PyException String) → ℕ → Engine cache → Except PyException ℕ × Engine cache
  | [], warmed, s => (.ok warmed, { s with stats.warmedKeys := s.stats.warmedKeys + warmed })
  | (key, loader) :: loaders, warmed, s =>
      let (there, s) := s.present key
      if there then warmFrom ttlSeconds loaders warmed s
      else
        match loader with
        | .error e => (.error e, s)
        | .ok value => warmFrom ttlSeconds loaders (warmed + 1) (s.set packing key value ttlSeconds)

def warm (loaders : Loaders) (ttlSeconds : Option ℤ) (s : Engine cache) :
    Except PyException ℕ × Engine cache :=
  warmFrom packing ttlSeconds loaders.entries 0 s

/-- A call of the engine. -/
inductive Call where
  | get (key : String)
  | set (key value : String) (ttlSeconds : Option ℤ)
  | present (key : String)
  | delete (key : String)
  | invalidate (key : String)
  | warm (loaders : Loaders) (ttlSeconds : Option ℤ)
  | registerInvalidationListener (listener : String → Except PyException Unit)

/-- The engine after a call. -/
def step (s : Engine cache) : Call → Engine cache
  | .get key => (s.get packing key).2
  | .set key value ttlSeconds => s.set packing key value ttlSeconds
  | .present key => (s.present key).2
  | .delete key => s.delete key
  | .invalidate key => (s.invalidate key).2
  | .warm loaders ttlSeconds => (s.warm packing loaders ttlSeconds).2
  | .registerInvalidationListener listener => s.registerInvalidationListener listener

/-! ### What the engine stands for -/

/-- The texts after the loop of `warm`. -/
def warmed : List (String × Except PyException String) → (String → Option String) → String → Option String
  | [], texts => texts
  | (key, loader) :: loaders, texts =>
      if (texts key).isSome then warmed loaders texts
      else
        match loader with
        | .error _ => texts
        | .ok value => warmed loaders (Function.update texts key (some value))

/-- The texts after a call. -/
def Call.apply (texts : String → Option String) : Call → String → Option String
  | .set key value _ => Function.update texts key (some value)
  | .delete key | .invalidate key => Function.update texts key none
  | .warm loaders _ => warmed loaders.entries texts
  | _ => texts

/-- The text last set or warmed for a key and not deleted or invalidated since. -/
def holding (calls : List Call) : String → Option String := run Call.apply (fun _ => none) calls

/-- What is stored behind the engine decodes to these texts. -/
def Stands (s : Engine cache) (texts : String → Option String) : Prop :=
  ∀ key, (cache.text s.cache key).map (decode packing) = (texts key).map .ok

section Steps

variable {packing} {s : Engine cache} {texts : String → Option String}

lemma stands_init : Stands packing (init cache) fun _ => none := by
  intro key
  rw [init, cache.text_empty]
  rfl

/-- **A text that stands is read.** -/
lemma Stands.get (h : Stands packing s texts) (key : String) : (s.get packing key).1 = .ok (texts key) := by
  have htext := h key
  unfold Engine.get
  rw [← cache.get_eq] at htext
  cases hget : cache.get key s.cache with
  | mk raw inner =>
    rw [hget] at htext
    cases raw with
    | none =>
      have hnone : texts key = none := by simpa [eq_comm] using htext
      simp [hnone]
    | some raw =>
      obtain ⟨value, hvalue, hdecode⟩ := Option.map_eq_some_iff.mp htext.symm
      simp [hvalue, ← hdecode, Except.map]

lemma Stands.present (h : Stands packing s texts) (key : String) : (s.present key).1 = (texts key).isSome := by
  have htext := congrArg Option.isSome (h key)
  rw [Option.isSome_map, Option.isSome_map] at htext
  rw [Engine.present, cache.present_eq, htext]

/-- Reading changes no text. -/
lemma Stands.of_same {s' : Engine cache} (h : Stands packing s texts)
    (htext : ∀ k, cache.text s'.cache k = cache.text s.cache k) : Stands packing s' texts := by
  intro k
  rw [htext]
  exact h k

lemma Stands.set (h : Stands packing s texts) (key value : String) (ttlSeconds : Option ℤ) :
    Stands packing (s.set packing key value ttlSeconds) (Function.update texts key (some value)) := by
  intro k
  rw [Engine.set, cache.text_set]
  by_cases hk : k = key
  · subst hk
    rw [if_pos rfl, Function.update_self, Option.map_some, Option.map_some, decode_encode]
  · rw [if_neg hk, Function.update_of_ne hk]
    exact h k

lemma Stands.delete (h : Stands packing s texts) (key : String) :
    Stands packing (s.delete key) (Function.update texts key none) := by
  intro k
  rw [Engine.delete, cache.text_delete]
  by_cases hk : k = key
  · subst hk
    rw [if_pos rfl, Function.update_self]
    rfl
  · rw [if_neg hk, Function.update_of_ne hk]
    exact h k

lemma text_get_cache (key k : String) : cache.text (s.get packing key).2.cache k = cache.text s.cache k := by
  rw [← cache.text_get key s.cache k]
  unfold Engine.get
  cases cache.get key s.cache with
  | mk raw inner => cases raw <;> rfl

lemma Stands.warmFrom (ttlSeconds : Option ℤ) {loaders : List (String × Except PyException String)} {n : ℕ}
    (h : Stands packing s texts) :
    Stands packing (s.warmFrom packing ttlSeconds loaders n).2 (warmed loaders texts) := by
  induction loaders generalizing s texts n with
  | nil => exact h.of_same fun _ => rfl
  | cons entry loaders ih =>
    obtain ⟨key, loader⟩ := entry
    have hlooked : Stands packing (s.present key).2 texts := h.of_same (cache.text_present key s.cache)
    have hpresent := h.present key
    unfold Engine.warmFrom Engine.warmed
    rw [← hpresent]
    dsimp only
    split
    · exact ih hlooked
    · cases loader with
      | error e => exact hlooked
      | ok value => exact ih (hlooked.set key value ttlSeconds)

/-- **Each call keeps to what the engine stands for.** -/
theorem Stands.step (h : Stands packing s texts) (call : Call) :
    Stands packing (s.step packing call) (call.apply texts) := by
  cases call with
  | get key => exact h.of_same fun k => text_get_cache key k
  | set key value ttlSeconds => exact h.set key value ttlSeconds
  | present key => exact h.of_same (cache.text_present key s.cache)
  | delete key => exact h.delete key
  | invalidate key => exact h.delete key
  | warm loaders ttlSeconds => exact h.warmFrom ttlSeconds
  | registerInvalidationListener listener => exact h.of_same fun _ => rfl

lemma Stands.run (h : Stands packing s texts) (calls : List Call) :
    Stands packing (run (Engine.step packing) s calls) (run Call.apply texts calls) := by
  induction calls generalizing s texts with
  | nil => exact h
  | cons call calls ih => exact ih (h.step call)

end Steps

/-- Warming leaves the text of a key that is there. -/
lemma warmed_of_some {loaders : List (String × Except PyException String)} {texts : String → Option String}
    {key value : String} (h : texts key = some value) : warmed loaders texts key = some value := by
  induction loaders generalizing texts with
  | nil => exact h
  | cons entry loaders ih =>
    obtain ⟨other, loader⟩ := entry
    unfold warmed
    split
    · exact ih h
    · rename_i habsent
      cases loader with
      | error e => exact h
      | ok loaded =>
        have hne : key ≠ other := by
          rintro rfl
          simp [h] at habsent
        exact ih (by rw [Function.update_of_ne hne, h])

/-! ### Lifetimes -/

/-- A lifetime is between one and four times the one that was asked for. -/
def Scaled (requested given : Option ℤ) : Prop := ∃ m : ℤ, 1 ≤ m ∧ m ≤ 4 ∧ given = requested.map (m * ·)

/-- The lifetime that a call asks for, if it may write. -/
def Call.requested : Call → Option (Option ℤ)
  | .set _ _ ttlSeconds | .warm _ ttlSeconds => some ttlSeconds
  | _ => none

lemma scaled_smartTtl (accessCounts : Dict String ℕ) (key : String) (ttlSeconds : Option ℤ) :
    Scaled ttlSeconds (smartTtl accessCounts key ttlSeconds) := by
  refine ⟨(min (1 + (accessCounts.get key).getD 0 / 5) 4 : ℕ), by omega, by omega, ?_⟩
  unfold smartTtl
  cases ttlSeconds with
  | none => rfl
  | some ttl => exact congrArg some (Int.mul_comm _ _)

/-- What is written down by a call are lifetimes that it passes on. -/
def PassesOn (s : Engine cache.recording) (requested : Option (Option ℤ)) (s' : Engine cache.recording) : Prop :=
  ∃ added, s'.cache.2 = s.cache.2 ++ added ∧ ∀ given ∈ added, ∃ asked ∈ requested, Scaled asked given

lemma PassesOn.refl {s s' : Engine cache.recording} (h : s'.cache.2 = s.cache.2) (requested : Option (Option ℤ)) :
    PassesOn s requested s' :=
  ⟨[], by simp [h], by simp⟩

lemma passesOn_set (s : Engine cache.recording) (key value : String) (ttlSeconds : Option ℤ) :
    PassesOn s (some ttlSeconds) (s.set packing key value ttlSeconds) := by
  refine ⟨[smartTtl s.accessCounts key ttlSeconds], rfl, ?_⟩
  intro given hgiven
  obtain rfl := List.mem_singleton.mp hgiven
  exact ⟨ttlSeconds, rfl, scaled_smartTtl _ _ _⟩

lemma PassesOn.trans {s s' s'' : Engine cache.recording} {requested : Option (Option ℤ)}
    (h : PassesOn s requested s') (h' : PassesOn s' requested s'') : PassesOn s requested s'' := by
  obtain ⟨added, heq, hadded⟩ := h
  obtain ⟨added', heq', hadded'⟩ := h'
  refine ⟨added ++ added', by rw [heq', heq, List.append_assoc], ?_⟩
  intro given hgiven
  exact (List.mem_append.mp hgiven).elim (hadded given) (hadded' given)

lemma passesOn_warmFrom {ttlSeconds : Option ℤ} {loaders : List (String × Except PyException String)} {n : ℕ}
    (s : Engine cache.recording) :
    PassesOn s (some ttlSeconds) (s.warmFrom packing ttlSeconds loaders n).2 := by
  induction loaders generalizing s n with
  | nil => exact .refl rfl _
  | cons entry loaders ih =>
    obtain ⟨key, loader⟩ := entry
    have hlooked : PassesOn s (some ttlSeconds) (s.present key).2 := .refl rfl _
    unfold Engine.warmFrom
    dsimp only
    split
    · exact hlooked.trans (ih _)
    · cases loader with
      | error e => exact hlooked
      | ok value => exact (hlooked.trans (passesOn_set packing _ key value ttlSeconds)).trans (ih _)

lemma passesOn_step (s : Engine cache.recording) (call : Call) :
    PassesOn s call.requested (s.step packing call) := by
  cases call with
  | get key =>
    refine .refl ?_ _
    show (s.get packing key).2.cache.2 = s.cache.2
    unfold Engine.get
    cases hget : cache.recording.get key s.cache with
    | mk raw inner =>
      have hinner : inner.2 = s.cache.2 := (congrArg (fun p => p.2.2) hget).symm
      cases raw with
      | none => exact hinner
      | some raw => exact hinner
  | set key value ttlSeconds => exact passesOn_set packing s key value ttlSeconds
  | present key => exact .refl rfl _
  | delete key => exact .refl rfl _
  | invalidate key => exact .refl rfl _
  | warm loaders ttlSeconds => exact passesOn_warmFrom packing s
  | registerInvalidationListener listener => exact .refl rfl _

/-- What the engine answers after the calls, and the lifetimes it passes on in each of them. -/
structure Refines (cache : LastingCache) (packing : Packing) (calls : List Call) : Prop where
  read : ∀ key, ((run (step packing) (init cache) calls).get packing key).1 = .ok (holding calls key)
  present : ∀ key, ((run (step packing) (init cache) calls).present key).1 = (holding calls key).isSome
  kept : ∀ loaders ttlSeconds key value, holding calls key = some value →
    holding (calls ++ [.warm loaders ttlSeconds]) key = some value
  lifetimes : Along (step packing) (fun s call => PassesOn s call.requested (s.step packing call))
    (init cache.recording) calls

/-- **The engine refines what it stands for**, whatever is done with it. -/
theorem refines (cache : LastingCache) (packing : Packing) (calls : List Call) :
    Refines cache packing calls := by
  have hstands : Stands packing (run (step packing) (init cache) calls) (holding calls) := stands_init.run calls
  refine ⟨hstands.get, hstands.present, ?_, ?_⟩
  · intro loaders ttlSeconds key value h
    rw [holding, run_snoc]
    exact warmed_of_some h
  · exact (along_of_forall (P := fun _ => True) (fun _ _ => trivial) _).mono
      fun s call _ => passesOn_step packing s call

end Engine

end LastingCache

end Tmis.RuntimePlatform
