import Tmis.Lib.Dict

/-!
# Memo tables

A table that is shared by several caches, each with its own keys and its own form of storing a value.
What such a table owes to its past is that every entry at the key of a call is the value of a call made
before under the same key.

* `Traced` — the property, for one cache and a log of calls;
* `Traced.set`, `Traced.set_of_ne` — a write of this cache, and of another one;
* `Traced.get` — what is found is the value of the call, if calls with its key have its value.
-/

namespace Tmis.Lib

variable {C K P V E : Type*} [DecidableEq K]

/-- Every entry at the key of a call is the stored value of a logged call with that key. -/
def Traced (key : C → K) (stored : V → P) (value : C → Except E V) (table : Dict K P) (log : List C) :
    Prop :=
  ∀ c p, table.get (key c) = some p →
    ∃ c₀ ∈ log, key c₀ = key c ∧ ∃ v, value c₀ = .ok v ∧ p = stored v

variable {key : C → K} {stored : V → P} {value : C → Except E V} {table : Dict K P} {log log' : List C}

lemma traced_empty : Traced key stored value ∅ log := fun _ _ h => by cases h

lemma Traced.mono (h : Traced key stored value table log) (hlog : log ⊆ log') :
    Traced key stored value table log' := fun c p hget => by
  obtain ⟨c₀, hmem, hkey, v, hv, hp⟩ := h c p hget
  exact ⟨c₀, hlog hmem, hkey, v, hv, hp⟩

/-- The cache stores the value of a logged call. -/
lemma Traced.set (h : Traced key stored value table log) {c : C} {v : V} (hc : c ∈ log)
    (hv : value c = .ok v) : Traced key stored value (table.set (key c) (stored v)) log :=
  fun c' p hget => by
    rw [Dict.get_set] at hget
    split at hget
    · rename_i hkey
      exact ⟨c, hc, hkey.symm, v, hv, (Option.some.inj hget).symm⟩
    · exact h c' p hget

/-- A write under a key that is none of this cache's. -/
lemma Traced.set_of_ne (h : Traced key stored value table log) {k : K} {p : P}
    (hk : ∀ c, key c ≠ k) : Traced key stored value (table.set k p) log := fun c p' hget => by
  rw [Dict.get_set_of_ne table p (hk c)] at hget
  exact h c p' hget

/-- **What is found is right**, if the logged calls with the key of a call have its value. -/
theorem Traced.get (h : Traced key stored value table log) {c : C} {p : P}
    (hget : table.get (key c) = some p) (hsame : ∀ c₀ ∈ log, key c₀ = key c → value c₀ = value c) :
    ∃ v, value c = .ok v ∧ p = stored v := by
  obtain ⟨c₀, hmem, hkey, v, hv, hp⟩ := h c p hget
  exact ⟨v, (hsame c₀ hmem hkey).symm.trans hv, hp⟩

/-- A write removes no key. -/
lemma contains_set {k k' : K} {p : P} (h : table.contains k') : (table.set k p).contains k' := by
  rw [Dict.contains, Dict.get_set]
  split
  · rfl
  · exact h

end Tmis.Lib
