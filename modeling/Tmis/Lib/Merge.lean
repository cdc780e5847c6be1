import Mathlib.Data.List.Basic
import Mathlib.Data.List.Sort

/-!
# Merging what is known already

Items are merged, one after the other, into what was merged before.  `Known s i` says that the item `i`
has been merged into `s`.

* `Retains` — what has been merged is known from then on, whatever is merged later;
* `Absorbs` — merging an item that is known changes nothing;
* `Absorbs.foldl_eq` — nor does merging many of them;
* `updateFirst` — change the first entry of a list that satisfies `p`, if there is one;
* `updateFirst_key`, `updateFirst_eq_self` — keys that are kept, entries that are as they should be.
-/

namespace Tmis.Lib

/-! ### Merging -/

section Merging

variable {S I : Type*} {step : S → I → S} {Inv : S → Prop} {Known : S → I → Prop} {s : S} {i : I}

/-- What has been merged is known from then on. -/
structure Retains (step : S → I → S) (Inv : S → Prop) (Known : S → I → Prop) : Prop where
  inv : ∀ s i, Inv s → Inv (step s i)
  merged : ∀ s i, Inv s → Known (step s i) i
  kept : ∀ s i j, Inv s → Known s i → Known (step s j) i

/-- What is known is merged without a change. -/
structure Absorbs (step : S → I → S) (Inv : S → Prop) (Known : S → I → Prop) : Prop
    extends Retains step Inv Known where
  absorb : ∀ s i, Inv s → Known s i → step s i = s

namespace Retains

variable (h : Retains step Inv Known)
include h

lemma inv_foldl (hs : Inv s) (items : List I) : Inv (items.foldl step s) := by
  induction items generalizing s with
  | nil => exact hs
  | cons j items ih => exact ih (h.inv s j hs)

lemma known_foldl (hs : Inv s) (hknown : Known s i) (items : List I) :
    Known (items.foldl step s) i := by
  induction items generalizing s with
  | nil => exact hknown
  | cons j items ih => exact ih (h.inv s j hs) (h.kept s i j hs hknown)

/-- **What has been merged is known**, whatever was merged before and since. -/
theorem known_of_mem (hs : Inv s) {items : List I} (hi : i ∈ items) : Known (items.foldl step s) i := by
  induction items generalizing s with
  | nil => cases hi
  | cons j items ih =>
    rcases List.mem_cons.mp hi with rfl | hi
    · exact h.known_foldl (h.inv s i hs) (h.merged s i hs) items
    · exact ih (h.inv s j hs) hi

end Retains

/-- **Merging what is known changes nothing.** -/
theorem Absorbs.foldl_eq (h : Absorbs step Inv Known) (hs : Inv s) {items : List I}
    (hknown : ∀ i ∈ items, Known s i) : items.foldl step s = s := by
  induction items with
  | nil => rfl
  | cons j items ih =>
    rw [List.foldl_cons, h.absorb s j hs (hknown j List.mem_cons_self)]
    exact ih fun i hi => hknown i (List.mem_cons_of_mem _ hi)

end Merging

/-! ### Lists with keys -/

section Keys

variable {E K : Type*} {p : E → Bool} {f : E → E} {l l' : List E} {x : E}

/-- The list with its first entry that satisfies `p` changed, if there is one. -/
def updateFirst (p : E → Bool) (f : E → E) : List E → Option (List E)
  | [] => none
  | x :: l => if p x then some (f x :: l) else (updateFirst p f l).map (x :: ·)

lemma updateFirst_eq_none : updateFirst p f l = none ↔ ∀ x ∈ l, p x = false := by
  induction l with
  | nil => simp [updateFirst]
  | cons x l ih =>
    unfold updateFirst
    split <;> simp_all

/-- What the list is before and after. -/
lemma updateFirst_eq_some : updateFirst p f l = some l' ↔
    ∃ pre x post, l = pre ++ x :: post ∧ (∀ y ∈ pre, p y = false) ∧ p x = true ∧
      l' = pre ++ f x :: post := by
  induction l generalizing l' with
  | nil => simp [updateFirst]
  | cons y l ih =>
    unfold updateFirst
    split
    · rename_i hy
      constructor
      · rintro ⟨⟩
        exact ⟨[], y, l, rfl, nofun, hy, rfl⟩
      · rintro ⟨pre, x, post, hl, hpre, hx, rfl⟩
        cases pre with
        | nil =>
          obtain ⟨rfl, rfl⟩ := List.cons.inj hl
          rfl
        | cons z pre =>
          obtain ⟨rfl, rfl⟩ := List.cons.inj hl
          rw [hpre y List.mem_cons_self] at hy
          cases hy
    · rename_i hy
      rw [Option.map_eq_some_iff]
      constructor
      · rintro ⟨m, hm, rfl⟩
        obtain ⟨pre, x, post, rfl, hpre, hx, rfl⟩ := ih.mp hm
        refine ⟨y :: pre, x, post, rfl, ?_, hx, rfl⟩
        intro z hz
        rcases List.mem_cons.mp hz with rfl | hz
        · exact Bool.not_eq_true _ ▸ hy
        · exact hpre z hz
      · rintro ⟨pre, x, post, hl, hpre, hx, rfl⟩
        cases pre with
        | nil =>
          obtain ⟨rfl, rfl⟩ := List.cons.inj hl
          exact absurd hx hy
        | cons z pre =>
          obtain ⟨rfl, rfl⟩ := List.cons.inj hl
          exact ⟨_, ih.mpr ⟨pre, x, post, rfl, fun w hw => hpre w (List.mem_cons_of_mem _ hw), hx, rfl⟩, rfl⟩

/-- The same, by position. -/
lemma updateFirst_eq_modify (p : E → Bool) (f : E → E) (l : List E) :
    updateFirst p f l = (l.findIdx? p).map fun i => l.modify i f := by
  induction l with
  | nil => rfl
  | cons x l ih =>
    unfold updateFirst
    rw [List.findIdx?_cons]
    split
    · rfl
    · rw [ih, Option.map_map, Option.map_map]
      rfl

/-- A change that keeps keys keeps the list of keys. -/
lemma map_updateFirst {key : E → K} (hkey : ∀ x, key (f x) = key x) (h : updateFirst p f l = some l') :
    l'.map key = l.map key := by
  obtain ⟨pre, x, post, rfl, -, -, rfl⟩ := updateFirst_eq_some.mp h
  simp [hkey]

lemma map_modify {key : E → K} (hkey : ∀ x, key (f x) = key x) {i : ℕ} :
    (l.modify i f).map key = l.map key := by
  induction l generalizing i with
  | nil => rw [List.modify_nil]
  | cons x l ih =>
    cases i with
    | zero => rw [List.modify_zero_cons, List.map_cons, List.map_cons, hkey]
    | succ i => rw [List.modify_succ_cons, List.map_cons, List.map_cons, ih]

/-- An entry that was there is there, or what it has become is. -/
lemma mem_of_updateFirst (h : updateFirst p f l = some l') (hx : x ∈ l) : x ∈ l' ∨ f x ∈ l' := by
  obtain ⟨pre, y, post, rfl, -, -, rfl⟩ := updateFirst_eq_some.mp h
  simp only [List.mem_append, List.mem_cons] at hx ⊢
  rcases hx with hx | rfl | hx
  · exact Or.inl (Or.inl hx)
  · exact Or.inr (Or.inr (Or.inl rfl))
  · exact Or.inl (Or.inr (Or.inr hx))

/-- The entry that was changed. -/
lemma exists_of_updateFirst (h : updateFirst p f l = some l') : ∃ x ∈ l, p x = true ∧ f x ∈ l' := by
  obtain ⟨pre, x, post, rfl, -, hx, rfl⟩ := updateFirst_eq_some.mp h
  exact ⟨x, by simp, hx, by simp⟩

/-- Where keys are distinct, an entry under the key that is looked for and that the change leaves as it is
stays, and so does the list. -/
lemma updateFirst_eq_self (key : E → K) (hnodup : (l.map key).Nodup)
    (hp : ∀ y, p y = true ↔ key y = key x) (hx : x ∈ l) (hf : f x = x) :
    updateFirst p f l = some l := by
  induction l with
  | nil => cases hx
  | cons y l ih =>
    rw [List.map_cons, List.nodup_cons] at hnodup
    unfold updateFirst
    rcases List.mem_cons.mp hx with rfl | hx
    · rw [if_pos ((hp x).mpr rfl), hf]
    · have hne : ¬ p y = true := fun hy =>
        hnodup.1 (((hp y).mp hy) ▸ List.mem_map_of_mem hx)
      rw [if_neg hne, ih hnodup.2 hx]
      rfl

end Keys

end Tmis.Lib
