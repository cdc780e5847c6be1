import Mathlib.Data.List.Basic
import Mathlib.Data.List.Lookmap
import Mathlib.Data.List.Nodup

/-!
# Insertion-ordered dictionaries

A dictionary is a list of entries with distinct keys: iteration is in insertion order, writing to a
key that is present keeps its place, writing to a new key appends it.

* `get_set_self`, `get_set_of_ne`, `get_update`, `get_pop_self`, `get_pop_of_ne` — reading after writing;
* `mem_entries_iff` — an entry is present iff its key reads as its value;
* `mem_values_set`, `countP_set` — the values after a write.
-/

namespace Tmis.Lib

/-- A dictionary: entries in insertion order, no key twice. -/
structure Dict (K V : Type*) where
  entries : List (K × V)
  nodup : (entries.map Prod.fst).Nodup
  deriving DecidableEq

namespace Dict

variable {K V : Type*}

instance : EmptyCollection (Dict K V) := ⟨⟨[], List.nodup_nil⟩⟩
instance : Inhabited (Dict K V) := ⟨∅⟩

/-- The keys, in insertion order. -/
def keys (d : Dict K V) : List K := d.entries.map Prod.fst

/-- The values, in insertion order. -/
def values (d : Dict K V) : List V := d.entries.map Prod.snd

variable [DecidableEq K]

/-- The value at a key, if there is one. -/
def get (d : Dict K V) (k : K) : Option V := d.entries.lookup k

/-- Whether a key is present. -/
def contains (d : Dict K V) (k : K) : Bool := (d.get k).isSome

/-- `d == e`: the same keys with the same values, in whatever order. -/
def same [DecidableEq V] (d e : Dict K V) : Bool :=
  d.entries.all (fun entry => e.get entry.1 = some entry.2) &&
    e.entries.all fun entry => d.get entry.1 = some entry.2

/-- The entries after writing `v` at `k`: in place if `k` is present, else at the end. -/
def setEntries (k : K) (v : V) : List (K × V) → List (K × V)
  | [] => [(k, v)]
  | (k', v') :: es => if k' = k then (k, v) :: es else (k', v') :: setEntries k v es

lemma mem_keys_setEntries {k x : K} {v : V} {es : List (K × V)} :
    x ∈ (setEntries k v es).map Prod.fst ↔ x = k ∨ x ∈ es.map Prod.fst := by
  induction es with
  | nil => simp [setEntries]
  | cons e es ih =>
    obtain ⟨k', v'⟩ := e
    unfold setEntries
    split
    · subst k'; simp
    · simp only [List.map_cons, List.mem_cons, ih]
      tauto

lemma nodup_setEntries {k : K} {v : V} {es : List (K × V)} (h : (es.map Prod.fst).Nodup) :
    ((setEntries k v es).map Prod.fst).Nodup := by
  induction es with
  | nil => simp [setEntries]
  | cons e es ih =>
    obtain ⟨k', v'⟩ := e
    rw [List.map_cons, List.nodup_cons] at h
    unfold setEntries
    split
    · subst k'; simpa using h
    · rename_i hne
      rw [List.map_cons, List.nodup_cons, mem_keys_setEntries]
      exact ⟨fun hx => hx.elim hne h.1, ih h.2⟩

/-- Write `v` at `k`. -/
def set (d : Dict K V) (k : K) (v : V) : Dict K V := ⟨setEntries k v d.entries, nodup_setEntries d.nodup⟩

/-- Write the entries of another dictionary, in order. -/
def update (d e : Dict K V) : Dict K V := e.entries.foldl (fun d entry => d.set entry.1 entry.2) d

/-- `dict(entries)`: of a key that occurs twice, the last value counts. -/
def ofEntries (es : List (K × V)) : Dict K V := es.foldl (fun d entry => d.set entry.1 entry.2) ∅

/-- Change every value, under its key. -/
def map (f : K → V → V) (d : Dict K V) : Dict K V :=
  ⟨d.entries.map fun e => (e.1, f e.1 e.2), by simpa [Function.comp_def] using d.nodup⟩

/-- The entries that satisfy `p`. -/
def filter (p : K → V → Bool) (d : Dict K V) : Dict K V :=
  ⟨d.entries.filter fun e => p e.1 e.2, d.nodup.sublist ((List.filter_sublist).map Prod.fst)⟩

/-- Remove the entry at `k`, if there is one. -/
def pop (d : Dict K V) (k : K) : Dict K V :=
  ⟨d.entries.filter (fun e => e.1 ≠ k),
    d.nodup.sublist ((List.filter_sublist).map Prod.fst)⟩

/-! ### Reading -/

@[simp] lemma get_empty (k : K) : (∅ : Dict K V).get k = none := rfl

lemma lookup_eq_some_iff {es : List (K × V)} (h : (es.map Prod.fst).Nodup) {k : K} {v : V} :
    es.lookup k = some v ↔ (k, v) ∈ es := by
  induction es with
  | nil => simp
  | cons e es ih =>
    obtain ⟨k', v'⟩ := e
    rw [List.map_cons, List.nodup_cons] at h
    rw [List.lookup_cons, List.mem_cons]
    by_cases hk : k = k'
    · subst hk
      have hnot : (k, v) ∉ es := fun hm => h.1 (List.mem_map.mpr ⟨_, hm, rfl⟩)
      simp [hnot, eq_comm]
    · simp [hk, beq_eq_false_iff_ne.mpr hk, ih h.2]

/-- An entry is present iff its key reads as its value. -/
theorem mem_entries_iff {d : Dict K V} {k : K} {v : V} : (k, v) ∈ d.entries ↔ d.get k = some v :=
  (lookup_eq_some_iff d.nodup).symm

lemma mem_values_iff {d : Dict K V} {v : V} : v ∈ d.values ↔ ∃ k, d.get k = some v := by
  simp [values, ← mem_entries_iff]

lemma mem_keys_iff {d : Dict K V} {k : K} : k ∈ d.keys ↔ ∃ v, d.get k = some v := by
  simp [keys, ← mem_entries_iff]

/-! ### Reading after writing -/

@[simp] lemma get_set_self (d : Dict K V) (k : K) (v : V) : (d.set k v).get k = some v := by
  show (setEntries k v d.entries).lookup k = some v
  induction d.entries with
  | nil => simp [setEntries]
  | cons e es ih =>
    obtain ⟨k', v'⟩ := e
    unfold setEntries
    split
    · simp
    · rename_i hne
      rw [List.lookup_cons, beq_eq_false_iff_ne.mpr (Ne.symm hne)]
      exact ih

lemma get_set_of_ne (d : Dict K V) {k k' : K} (v : V) (h : k' ≠ k) :
    (d.set k v).get k' = d.get k' := by
  show (setEntries k v d.entries).lookup k' = d.entries.lookup k'
  induction d.entries with
  | nil => simp [setEntries, List.lookup_cons, beq_eq_false_iff_ne.mpr h]
  | cons e es ih =>
    obtain ⟨k₀, v₀⟩ := e
    unfold setEntries
    split
    · subst k₀
      simp [List.lookup_cons, beq_eq_false_iff_ne.mpr h]
    · rw [List.lookup_cons, List.lookup_cons, ih]

lemma get_set (d : Dict K V) (k k' : K) (v : V) :
    (d.set k v).get k' = if k' = k then some v else d.get k' := by
  split
  · subst k'; exact get_set_self d k v
  · exact get_set_of_ne d v ‹_›

/-- The last write to a key is the one that counts. -/
lemma set_set (d : Dict K V) (k : K) (v w : V) : (d.set k v).set k w = d.set k w := by
  have h : ∀ es : List (K × V), setEntries k w (setEntries k v es) = setEntries k w es := by
    intro es
    induction es with
    | nil => simp [setEntries]
    | cons e es ih =>
      obtain ⟨k', v'⟩ := e
      by_cases hk : k' = k <;> simp [setEntries, hk, ih]
  obtain ⟨es, hes⟩ := d
  simp [set, h]

lemma setEntries_self {k : K} {v : V} : ∀ {es : List (K × V)}, es.lookup k = some v → setEntries k v es = es
  | [], h => by cases h
  | (k', v') :: es, h => by
      unfold setEntries
      split
      · subst k'
        rw [List.lookup_cons_self] at h
        cases h
        rfl
      · rename_i hne
        rw [List.lookup_cons, beq_eq_false_iff_ne.mpr (Ne.symm hne)] at h
        rw [setEntries_self h]

/-- Writing what is there already. -/
lemma set_self {d : Dict K V} {k : K} {v : V} (h : d.get k = some v) : d.set k v = d := by
  obtain ⟨es, hnodup⟩ := d
  have hes : setEntries k v es = es := setEntries_self h
  unfold set
  simp only [hes]

lemma setEntries_new {k : K} (v : V) : ∀ {es : List (K × V)}, es.lookup k = none →
    setEntries k v es = es ++ [(k, v)]
  | [], _ => rfl
  | e :: es, h => by
      have hne : k ≠ e.1 := fun heq => by simp [heq] at h
      rw [List.lookup_cons, beq_eq_false_iff_ne.mpr hne] at h
      rw [setEntries, if_neg hne.symm, setEntries_new v h, List.cons_append]

lemma setEntries_present {k : K} (v : V) : ∀ {es : List (K × V)}, (es.map Prod.fst).Nodup → k ∈ es.map Prod.fst →
    setEntries k v es = es.map fun e => if e.1 = k then (k, v) else e
  | (k', v') :: es, hnodup, hk => by
      rw [List.map_cons, List.nodup_cons] at hnodup
      rw [setEntries, List.map_cons]
      split_ifs with hsame
      · -- No other entry has the key.
        have hothers : (es.map fun e => if e.1 = k then (k, v) else e) = es.map id := by
          refine List.map_congr_left fun e he => if_neg fun heq => ?_
          have hmem : e.1 ∈ es.map Prod.fst := List.mem_map_of_mem he
          rw [heq, ← hsame] at hmem
          exact hnodup.1 hmem
        rw [hothers, List.map_id]
      · rw [setEntries_present v hnodup.2 ((List.mem_cons.mp hk).resolve_left (Ne.symm hsame))]

/-- A key that is there is written in its place. -/
lemma entries_set_present {d : Dict K V} {k : K} {w : V} (h : d.get k = some w) (v : V) :
    (d.set k v).entries = d.entries.map fun e => if e.1 = k then (k, v) else e :=
  setEntries_present v d.nodup (List.mem_map_of_mem (mem_entries_iff.mpr h))

/-- A new key is written at the end. -/
lemma entries_set_new {d : Dict K V} {k : K} (h : d.get k = none) (v : V) :
    (d.set k v).entries = d.entries ++ [(k, v)] := setEntries_new v h

/-- Entries with new keys, each other's included, are written at the end. -/
lemma entries_foldl_set : ∀ {es : List (K × V)} {d : Dict K V}, ((d.entries ++ es).map Prod.fst).Nodup →
    (es.foldl (fun d entry => d.set entry.1 entry.2) d).entries = d.entries ++ es
  | [], _, _ => (List.append_nil _).symm
  | e :: es, d, h => by
      have hnew : d.get e.1 = none := by
        refine List.lookup_eq_none_iff.mpr fun e' he' => bne_iff_ne.mpr fun heq => ?_
        rw [List.map_append, List.nodup_append] at h
        exact h.2.2 _ (List.mem_map_of_mem he') _ (List.mem_map_of_mem List.mem_cons_self) heq.symm
      have hset := entries_set_new hnew e.2
      rw [List.foldl_cons, entries_foldl_set (by rw [hset, List.append_assoc]; exact h), hset, List.append_assoc]
      rfl

lemma entries_ofEntries {es : List (K × V)} (h : (es.map Prod.fst).Nodup) : (ofEntries es).entries = es :=
  entries_foldl_set h

@[simp] lemma ofEntries_entries (d : Dict K V) : ofEntries d.entries = d := by
  have h := entries_ofEntries d.nodup
  generalize ofEntries d.entries = d' at h ⊢
  obtain ⟨es, hes⟩ := d
  obtain ⟨es', hes'⟩ := d'
  cases h
  rfl

lemma mem_of_get_foldl_set {es : List (K × V)} {d : Dict K V} {k : K} {v : V}
    (h : (es.foldl (fun d entry => d.set entry.1 entry.2) d).get k = some v) :
    (k, v) ∈ es ∨ d.get k = some v := by
  induction es generalizing d with
  | nil => exact Or.inr h
  | cons e es ih =>
    rcases ih h with hmem | hget
    · exact Or.inl (List.mem_cons_of_mem _ hmem)
    · rw [get_set] at hget
      split at hget
      · rename_i heq
        cases heq
        cases hget
        exact Or.inl List.mem_cons_self
      · exact Or.inr hget

lemma mem_of_get_ofEntries {es : List (K × V)} {k : K} {v : V} (h : (ofEntries es).get k = some v) :
    (k, v) ∈ es :=
  (mem_of_get_foldl_set h).resolve_right (by rw [get_empty]; nofun)

lemma get_foldl_set (d : Dict K V) {es : List (K × V)} (h : (es.map Prod.fst).Nodup) (k : K) :
    (es.foldl (fun d entry => d.set entry.1 entry.2) d).get k = (es.lookup k).or (d.get k) := by
  induction es generalizing d with
  | nil => rfl
  | cons e es ih =>
    obtain ⟨k', v⟩ := e
    rw [List.map_cons, List.nodup_cons] at h
    rw [List.foldl_cons, ih _ h.2, List.lookup_cons, get_set]
    by_cases hk : k = k'
    · subst hk
      have hnone : es.lookup k = none := List.lookup_eq_none_iff.mpr fun e he =>
        bne_iff_ne.mpr fun heq => h.1 (List.mem_map.mpr ⟨e, he, heq.symm⟩)
      simp [hnone]
    · simp [hk, beq_eq_false_iff_ne.mpr hk]

lemma get_update (d e : Dict K V) (k : K) : (d.update e).get k = (e.get k).or (d.get k) :=
  get_foldl_set d e.nodup k

@[simp] lemma get_pop_self (d : Dict K V) (k : K) : (d.pop k).get k = none := by
  rw [Option.eq_none_iff_forall_ne_some]
  intro v hv
  rw [← mem_entries_iff] at hv
  simp [pop] at hv

lemma get_pop_of_ne (d : Dict K V) {k k' : K} (h : k' ≠ k) : (d.pop k).get k' = d.get k' := by
  ext v
  rw [← mem_entries_iff, ← mem_entries_iff]
  simp [pop, h]

lemma get_pop (d : Dict K V) (k k' : K) : (d.pop k).get k' = if k' = k then none else d.get k' := by
  split
  · subst k'; exact get_pop_self d k
  · exact get_pop_of_ne d ‹_›

lemma get_of_get_pop {d : Dict K V} {k k' : K} {v : V} (h : (d.pop k).get k' = some v) :
    d.get k' = some v := by
  by_cases hk : k' = k
  · rw [hk, get_pop_self] at h
    cases h
  · rwa [get_pop_of_ne d hk] at h

lemma get_filter (p : K → V → Bool) (d : Dict K V) (k : K) :
    (d.filter p).get k = (d.get k).filter (p k) := by
  ext v
  rw [← mem_entries_iff, Option.filter_eq_some_iff, ← mem_entries_iff]
  simp [filter]

lemma lookup_map {W : Type*} (f : K → V → W) (es : List (K × V)) (k : K) :
    (es.map fun e => (e.1, f e.1 e.2)).lookup k = (es.lookup k).map (f k) := by
  induction es with
  | nil => rfl
  | cons e es ih =>
    rw [List.map_cons, List.lookup_cons, List.lookup_cons]
    by_cases h : k = e.1
    · simp [h]
    · simp [beq_eq_false_iff_ne.mpr h, ih]

lemma get_map (f : K → V → V) (d : Dict K V) (k : K) : (d.map f).get k = (d.get k).map (f k) :=
  lookup_map f d.entries k

/-- Writing a value for each entry of another dictionary. -/
lemma get_foldl_map {W : Type*} (f : K → V → W) (d : Dict K W) (e : Dict K V) (k : K) :
    (e.entries.foldl (fun d x => d.set x.1 (f x.1 x.2)) d).get k =
      ((e.get k).map (f k)).or (d.get k) := by
  have hnodup : ((e.entries.map fun x => (x.1, f x.1 x.2)).map Prod.fst).Nodup := by
    simpa [Function.comp_def] using e.nodup
  have := get_foldl_set d hnodup k
  rwa [List.foldl_map, lookup_map] at this

lemma mem_values_set {d : Dict K V} {k : K} {v x : V} (h : x ∈ (d.set k v).values) :
    x = v ∨ x ∈ d.values := by
  obtain ⟨k', hk'⟩ := mem_values_iff.mp h
  rw [get_set] at hk'
  split at hk'
  · exact Or.inl (Option.some.inj hk').symm
  · exact Or.inr (mem_values_iff.mpr ⟨k', hk'⟩)

/-! ### Counting values -/

lemma countP_setEntries (p : V → Bool) {es : List (K × V)} (h : (es.map Prod.fst).Nodup) (k : K) (v : V) :
    ((setEntries k v es).map Prod.snd).countP p + ((es.lookup k).map fun u => (p u).toNat).getD 0 =
      (es.map Prod.snd).countP p + (p v).toNat := by
  induction es with
  | nil => cases hv : p v <;> simp [setEntries, hv]
  | cons e es ih =>
    obtain ⟨k', u⟩ := e
    rw [List.map_cons, List.nodup_cons] at h
    have ih := ih h.2
    by_cases hk : k' = k
    · subst hk
      simp only [setEntries, if_true, List.map_cons, List.countP_cons, List.lookup_cons, beq_self_eq_true,
        Option.map_some, Option.getD_some]
      cases p u <;> cases p v <;> simp
    · simp only [setEntries, hk, if_false, List.map_cons, List.countP_cons, List.lookup_cons,
        beq_eq_false_iff_ne.mpr (Ne.symm hk)]
      omega

/-- **Counting after a write**: the new value counts in the place of the old one. -/
theorem countP_set (p : V → Bool) (d : Dict K V) (k : K) (v : V) :
    (d.set k v).values.countP p + ((d.get k).map fun u => (p u).toNat).getD 0 =
      d.values.countP p + (p v).toNat :=
  countP_setEntries p d.nodup k v

/-- **Counting after a removal**: the value that was there counts no more. -/
theorem countP_pop (p : V → Bool) (d : Dict K V) (k : K) :
    (d.pop k).values.countP p + ((d.get k).map fun u => (p u).toNat).getD 0 = d.values.countP p := by
  obtain ⟨es, hnodup⟩ := d
  show ((es.filter fun e => e.1 ≠ k).map Prod.snd).countP p + ((es.lookup k).map fun u => (p u).toNat).getD 0 =
    (es.map Prod.snd).countP p
  induction es with
  | nil => simp
  | cons e es ih =>
    obtain ⟨k', u⟩ := e
    rw [List.map_cons, List.nodup_cons] at hnodup
    by_cases hk : k' = k
    · subst hk
      have hrest : es.filter (fun e => e.1 ≠ k') = es := List.filter_eq_self.mpr fun e he => by
        have hne : e.1 ≠ k' := fun heq => hnodup.1 (List.mem_map.mpr ⟨e, he, heq⟩)
        simpa using hne
      rw [List.filter_cons_of_neg (by simp), hrest]
      cases hu : p u <;> simp [hu]
    · have ih := ih hnodup.2
      rw [List.filter_cons_of_pos (by simpa using hk), List.lookup_cons, beq_eq_false_iff_ne.mpr (Ne.symm hk)]
      simp only [List.map_cons, List.countP_cons]
      omega

@[simp] lemma contains_iff {d : Dict K V} {k : K} : d.contains k = true ↔ ∃ v, d.get k = some v :=
  Option.isSome_iff_exists

end Dict

end Tmis.Lib
