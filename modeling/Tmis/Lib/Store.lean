import Tmis.Lib.Dict

/-!
# In-memory stores

A dictionary whose values stand under a key of their own: `save` writes a value where it says it
belongs, and no other write is offered.

* `get_save` — reading after saving;
* `key_of_get` — a value that is found is found under its own key;
* `saveAt`, `get_saveAt` — the value at a key, if there is one, changed and saved;
* `saveEach`, `get_saveEach` — each of some values changed and saved;
* `countP_save_new`, `countP_save_over` — counting values after saving;
* `OthersKept`, `othersKept_save` — two stores agree on what others than one owner have in them.
-/

namespace Tmis.Lib

/-- A dictionary of values under the keys they carry. -/
structure Store (K V : Type*) [DecidableEq K] (key : V → K) where
  entries : Dict K V := ∅
  keyed : ∀ k v, entries.get k = some v → key v = k := by intro _ _ h; cases h

namespace Store

variable {K V : Type*} [DecidableEq K] {key : V → K}

instance : EmptyCollection (Store K V key) := ⟨{}⟩
instance : Inhabited (Store K V key) := ⟨∅⟩

/-- The value at a key, if there is one. -/
def get (s : Store K V key) (k : K) : Option V := s.entries.get k

/-- The values, in the order in which they were first saved. -/
def values (s : Store K V key) : List V := s.entries.values

/-- Write a value under its key. -/
def save (s : Store K V key) (v : V) : Store K V key where
  entries := s.entries.set (key v) v
  keyed k x h := by
    rw [Dict.get_set] at h
    split at h
    · cases h
      exact Eq.symm ‹_›
    · exact s.keyed k x h

@[simp] lemma get_empty (k : K) : (∅ : Store K V key).get k = none := rfl

lemma get_save (s : Store K V key) (v : V) (k : K) :
    (s.save v).get k = if k = key v then some v else s.get k := Dict.get_set ..

lemma get_save_self (s : Store K V key) (v : V) : (s.save v).get (key v) = some v :=
  Dict.get_set_self ..

/-- Saving what is there already. -/
lemma save_self {s : Store K V key} {v : V} (h : s.get (key v) = some v) : s.save v = s := by
  obtain ⟨entries, keyed⟩ := s
  have hentries : entries.set (key v) v = entries := Dict.set_self h
  unfold save
  simp only [hentries]

/-- Saving twice under one key. -/
lemma get_save_save (s : Store K V key) {u v : V} (hkey : key u = key v) (k : K) :
    ((s.save u).save v).get k = if k = key v then some v else s.get k := by
  rw [get_save, get_save, hkey]
  split_ifs <;> rfl

/-- What is found after saving is what was saved, or was there before. -/
lemma of_get_save {s : Store K V key} {v x : V} {k : K} (h : (s.save v).get k = some x) :
    x = v ∨ s.get k = some x := by
  rw [get_save] at h
  split at h
  · exact Or.inl (Option.some.inj h).symm
  · exact Or.inr h

/-- What is found after saving is what was saved, under its key, or was there before, elsewhere. -/
lemma get_save_cases {s : Store K V key} {v x : V} {k : K} (h : (s.save v).get k = some x) :
    (k = key v ∧ x = v) ∨ (k ≠ key v ∧ s.get k = some x) := by
  rw [get_save] at h
  split at h
  · exact Or.inl ⟨‹_›, (Option.some.inj h).symm⟩
  · exact Or.inr ⟨‹_›, h⟩

/-- What is found before saving leaves something to find. -/
lemma exists_get_save {s : Store K V key} (v : V) {k : K} (h : ∃ x, s.get k = some x) :
    ∃ x, (s.save v).get k = some x := by
  rw [get_save]
  split
  · exact ⟨v, rfl⟩
  · exact h

lemma key_of_get {s : Store K V key} {k : K} {v : V} (h : s.get k = some v) : key v = k :=
  s.keyed k v h

lemma mem_values_iff {s : Store K V key} {v : V} : v ∈ s.values ↔ s.get (key v) = some v := by
  constructor
  · intro h
    obtain ⟨k, hk⟩ := Dict.mem_values_iff.mp h
    obtain rfl := s.keyed k v hk
    exact hk
  · intro h
    exact Dict.mem_values_iff.mpr ⟨_, h⟩

lemma mem_values_of_get {s : Store K V key} {k : K} {v : V} (h : s.get k = some v) : v ∈ s.values :=
  Dict.mem_values_iff.mpr ⟨k, h⟩

/-- A value that is new is the last one. -/
lemma values_save_new {s : Store K V key} {v : V} (h : s.get (key v) = none) :
    (s.save v).values = s.values ++ [v] := by
  show ((s.entries.set (key v) v).entries).map Prod.snd = s.entries.entries.map Prod.snd ++ [v]
  rw [Dict.entries_set_new h, List.map_append, List.map_singleton]

/-! ### Changing values -/

/-- The value at a key, if there is one, changed and saved. -/
def saveAt (s : Store K V key) (k : K) (f : V → V) : Store K V key :=
  match s.get k with
  | none => s
  | some v => s.save (f v)

/-- **After the value at a key was changed and saved**: the others are as they were. -/
theorem get_saveAt {f : V → V} (hf : ∀ v, key (f v) = key v) (s : Store K V key) (k k' : K) :
    (s.saveAt k f).get k' = (s.get k').map fun v => if key v = k then f v else v := by
  unfold saveAt
  cases hget : s.get k with
  | none =>
    cases hget' : s.get k' with
    | none => rfl
    | some v =>
      have hne : key v ≠ k := by
        rintro rfl
        rw [key_of_get hget', hget'] at hget
        cases hget
      rw [Option.map_some, if_neg hne]
  | some v =>
    have hkey := key_of_get hget
    show (s.save (f v)).get k' = _
    rw [get_save, hf, hkey]
    by_cases hk : k' = k
    · rw [if_pos hk, hk, hget, Option.map_some, if_pos hkey]
    · rw [if_neg hk]
      cases hget' : s.get k' with
      | none => rfl
      | some w => rw [Option.map_some, key_of_get hget', if_neg hk]

/-- `for v in [those that p]: change v; save v`. -/
def saveEach (s : Store K V key) (p : V → Bool) (f : V → V) : Store K V key :=
  (s.values.filter p).foldl (fun s v => s.save (f v)) s

/-- Values with different keys, saved one after the other. -/
lemma get_foldl_save {f : V → V} (hf : ∀ v, key (f v) = key v) {vs : List V}
    (hvs : ∀ v ∈ vs, ∀ w ∈ vs, key v = key w → v = w) (s : Store K V key) (k : K) :
    (vs.foldl (fun s v => s.save (f v)) s).get k = ((vs.find? (key · = k)).map f).or (s.get k) := by
  induction vs generalizing s with
  | nil => rfl
  | cons v vs ih =>
    have htail : ∀ x ∈ vs, ∀ y ∈ vs, key x = key y → x = y := fun x hx y hy =>
      hvs x (List.mem_cons_of_mem _ hx) y (List.mem_cons_of_mem _ hy)
    rw [List.foldl_cons, ih htail, get_save, hf, List.find?_cons]
    by_cases hk : key v = k
    · -- If there is another value with the key, it is the same one.
      rw [if_pos hk.symm, decide_eq_true hk]
      cases hfind : vs.find? (key · = k) with
      | none => rfl
      | some w =>
        have hw : key w = k := by simpa using List.find?_some hfind
        rw [hvs v List.mem_cons_self w (List.mem_cons_of_mem _ (List.mem_of_find?_eq_some hfind)) (hk.trans hw.symm)]
        rfl
    · rw [if_neg (Ne.symm hk), decide_eq_false hk]

/-- **After each of some values was changed and saved**: those are changed, and the others are as they were. -/
theorem get_saveEach {f : V → V} (hf : ∀ v, key (f v) = key v) (s : Store K V key) (p : V → Bool) (k : K) :
    (s.saveEach p f).get k = (s.get k).map fun v => if p v then f v else v := by
  have hmem : ∀ v ∈ s.values.filter p, s.get (key v) = some v ∧ p v = true := fun v hv =>
    ⟨mem_values_iff.mp (List.mem_filter.mp hv).1, (List.mem_filter.mp hv).2⟩
  have huniq : ∀ v ∈ s.values.filter p, ∀ w ∈ s.values.filter p, key v = key w → v = w := by
    intro v hv w hw heq
    have hget := (hmem v hv).1
    rw [heq, (hmem w hw).1] at hget
    exact (Option.some.inj hget).symm
  rw [saveEach, get_foldl_save hf huniq]
  cases hfind : (s.values.filter p).find? (key · = k) with
  | some w =>
    have hw : key w = k := by simpa using List.find?_some hfind
    obtain ⟨hget, hp⟩ := hmem w (List.mem_of_find?_eq_some hfind)
    rw [hw] at hget
    rw [hget]
    simp [hp]
  | none =>
    rw [Option.map_none, Option.none_or]
    cases hget : s.get k with
    | none => rfl
    | some v =>
      have hnot := List.find?_eq_none.mp hfind v
      rw [key_of_get hget, List.mem_filter] at hnot
      have hp : p v = false := by
        by_contra hp
        exact hnot ⟨mem_values_of_get hget, Bool.not_eq_false _ ▸ hp⟩ (by simp)
      simp [hp]

/-! ### Counting values -/

section Count

variable (p : V → Bool) {s : Store K V key}

/-- A value that is new counts, if it is counted. -/
lemma countP_save_new {v : V} (h : s.get (key v) = none) :
    (s.save v).values.countP p = s.values.countP p + (p v).toNat := by
  have hcount := Dict.countP_set p s.entries (key v) v
  rwa [show s.entries.get (key v) = none from h] at hcount

/-- A value counts in the place of the one it replaces. -/
lemma countP_save_over {u v : V} (h : s.get (key v) = some u) :
    (s.save v).values.countP p + (p u).toNat = s.values.countP p + (p v).toNat := by
  have hcount := Dict.countP_set p s.entries (key v) v
  rwa [show s.entries.get (key v) = some u from h] at hcount

/-- What is counted is counted of a value that is found. -/
lemma countP_eq_zero_iff : s.values.countP p = 0 ↔ ∀ k v, s.get k = some v → p v = false := by
  rw [List.countP_eq_zero]
  constructor
  · intro h k v hget
    exact Bool.not_eq_true _ ▸ h v (mem_values_of_get hget)
  · intro h v hv
    rw [h _ v (mem_values_iff.mp hv)]
    exact Bool.false_ne_true

end Count

/-! ### Stores of several owners -/

section Owner

variable {O : Type*} {owner : V → O} {o : O} {s : Store K V key} {u v : V}

/-- What others than `o` own is the same in both stores. -/
def OthersKept (owner : V → O) (o : O) (s s' : Store K V key) : Prop :=
  ∀ k v, owner v ≠ o → (s'.get k = some v ↔ s.get k = some v)

lemma OthersKept.refl (owner : V → O) (o : O) (s : Store K V key) : OthersKept owner o s s :=
  fun _ _ _ => Iff.rfl

lemma OthersKept.trans {s' s'' : Store K V key} (h : OthersKept owner o s s')
    (h' : OthersKept owner o s' s'') : OthersKept owner o s s'' :=
  fun k v hother => (h' k v hother).trans (h k v hother)

/-- A write leaves what others own iff it writes what was there, or a value of the owner over a value
of the owner. -/
lemma othersKept_save :
    OthersKept owner o s (s.save v) ↔
      s.get (key v) = some v ∨ (owner v = o ∧ ∀ u, s.get (key v) = some u → owner u = o) := by
  constructor
  · intro h
    by_cases hsame : s.get (key v) = some v
    · exact Or.inl hsame
    · refine Or.inr ⟨?_, fun u hu => ?_⟩
      · by_contra hother
        exact hsame ((h (key v) v hother).mp (get_save_self ..))
      · by_contra hother
        have hfound := (h (key v) u hother).mpr hu
        rw [get_save_self] at hfound
        exact hsame (hu.trans hfound.symm)
  · intro h k x hother
    rw [get_save]
    by_cases hk : k = key v
    · subst hk
      rw [if_pos rfl]
      rcases h with hsame | ⟨hv, hu⟩
      · rw [hsame]
      · refine iff_of_false ?_ fun hx => hother (hu x hx)
        rintro ⟨⟩
        exact hother hv
    · rw [if_neg hk]

/-- Where nothing is stored, the owner may write. -/
lemma othersKept_save_new (hnone : s.get (key v) = none) (hv : owner v = o) :
    OthersKept owner o s (s.save v) := by
  refine othersKept_save.mpr (Or.inr ⟨hv, fun u hu => ?_⟩)
  rw [hnone] at hu
  cases hu

/-- A value that keeps its key and its owner is written by the owner only, unless nothing changes. -/
lemma othersKept_save_over {k : K} (v : V) (hu : s.get k = some u) (hkey : key v = key u)
    (howner : owner v = owner u) : OthersKept owner o s (s.save v) ↔ owner u = o ∨ v = u := by
  have hu : s.get (key v) = some u := by
    rw [hkey, key_of_get hu]
    exact hu
  rw [othersKept_save, hu, howner]
  constructor
  · rintro (hsame | ⟨hmine, -⟩)
    · exact Or.inr (Option.some.inj hsame).symm
    · exact Or.inl hmine
  · rintro (hmine | rfl)
    · refine Or.inr ⟨hmine, ?_⟩
      rintro _ ⟨⟩
      exact hmine
    · exact Or.inl rfl

end Owner

/-! ### Stores keyed by a counter -/

section Below

variable {V : Type*} {key : V → ℕ} {s : Store ℕ V key} {n m : ℕ}

/-- Every value is stored under a key below `n`. -/
def Below (s : Store ℕ V key) (n : ℕ) : Prop := ∀ k v, s.get k = some v → k < n

lemma below_empty (n : ℕ) : Below (∅ : Store ℕ V key) n := by
  intro k v h
  cases h

lemma Below.mono (h : s.Below n) (hle : n ≤ m) : s.Below m :=
  fun k v hget => Nat.lt_of_lt_of_le (h k v hget) hle

lemma Below.save {v : V} (h : s.Below n) (hlt : key v < n) : (s.save v).Below n := by
  intro k x hget
  rcases get_save_cases hget with ⟨rfl, -⟩ | ⟨-, hget⟩
  · exact hlt
  · exact h k x hget

/-- A key at the bound or beyond it is free. -/
lemma Below.get_eq_none (h : s.Below n) {k : ℕ} (hle : n ≤ k) : s.get k = none := by
  cases hget : s.get k with
  | none => rfl
  | some v => exact absurd (h k v hget) (Nat.not_lt_of_le hle)

end Below

end Store

end Tmis.Lib
