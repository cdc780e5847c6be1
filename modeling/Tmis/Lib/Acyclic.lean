import Mathlib.Data.Fintype.Pigeonhole
import Mathlib.Data.List.Nodup
import Mathlib.Data.Set.Finite.List
import Mathlib.Order.Interval.Set.Nat
import Mathlib.Order.SuccPred.Relation
import Mathlib.Order.WellFounded
import Tmis.Lib.Dict

/-!
# Relations without cycles

* `Acyclic` — nothing leads back to itself; `acyclic_of_forward`, along a list nothing does;
* `Acyclic.wellFounded` — then every way comes to an end, where finitely many things lead anywhere;
* `acyclic_update_iff` — when one thing leads elsewhere;
* `Acyclic.insert` — a new thing between another one and what that one led to.
-/

namespace Tmis.Lib

open Relation

variable {α : Type*} {r r' : α → α → Prop} {a b : α}

/-- Nothing leads back to itself. -/
def Acyclic (r : α → α → Prop) : Prop := ∀ a, ¬ TransGen r a a

/-- What leads from earlier elements of a list to later ones only. -/
def Forward (ids : List α) (r : α → α → Prop) : Prop := ∀ a b, r a b → [a, b].Sublist ids

lemma pair_sublist_iff {ids : List α} :
    [a, b].Sublist ids ↔ ∃ before after, ids = before ++ after ∧ a ∈ before ∧ b ∈ after := by
  rw [List.cons_sublist_iff]
  simp only [List.singleton_sublist]

lemma pair_sublist_trans {ids : List α} {c : α} (hnodup : ids.Nodup) (hab : [a, b].Sublist ids)
    (hbc : [b, c].Sublist ids) : [a, c].Sublist ids := by
  obtain ⟨before, after, hsplit, ha, hb⟩ := pair_sublist_iff.mp hab
  obtain ⟨before', after', hsplit', hb', hc⟩ := pair_sublist_iff.mp hbc
  refine pair_sublist_iff.mpr ⟨before, after, hsplit, ha, ?_⟩
  rcases List.append_eq_append_iff.mp (hsplit.symm.trans hsplit') with ⟨_, -, rfl⟩ | ⟨_, rfl, -⟩
  · exact List.mem_append_right _ hc
  · rw [hsplit] at hnodup
    exact absurd rfl ((List.nodup_append.mp hnodup).2.2 b (List.mem_append_left _ hb') b hb)

/-- **Along a list there is no way back.** -/
theorem acyclic_of_forward {ids : List α} (hnodup : ids.Nodup) (h : Forward ids r) : Acyclic r := by
  have hway : ∀ a b, TransGen r a b → [a, b].Sublist ids := by
    intro a b hab
    induction hab with
    | single hab => exact h _ _ hab
    | tail _ hbc ih => exact pair_sublist_trans hnodup ih (h _ _ hbc)
  intro a ha
  exact absurd (hnodup.sublist (hway a a ha)) (by simp)

/-- From where every way comes to an end, there is none back. -/
lemma not_transGen_of_acc (h : Acc (flip r) a) : ¬ TransGen r a a := by
  induction h with
  | intro a _ ih =>
    intro ha
    obtain ⟨b, hab, hba⟩ := TransGen.head'_iff.mp ha
    exact ih b hab (TransGen.tail' hba hab)

/-- **Where there is no way back, every way comes to an end**, if finitely many things lead anywhere. -/
theorem Acyclic.wellFounded (h : Acyclic r) {s : Set α} (hs : s.Finite) (hr : ∀ a b, r a b → a ∈ s) :
    WellFounded (flip r) := by
  rw [wellFounded_iff_isEmpty_descending_chain]
  refine ⟨fun ⟨f, hf⟩ => ?_⟩
  have := hs.to_subtype
  obtain ⟨i, j, hne, heq⟩ := Finite.exists_ne_map_eq_of_infinite fun n => (⟨f n, hr _ _ (hf n)⟩ : s)
  have heq : f i = f j := congrArg Subtype.val heq
  have hway : ∀ i j, i < j → TransGen r (f i) (f j) := by
    intro i j hij
    exact (transGen_of_succ_of_lt (fun i j => r (f i) (f j)) (fun k _ => hf k) hij).lift f fun _ _ h => h
  rcases Nat.lt_or_gt_of_ne hne with hlt | hlt
  · exact h (f i) (by simpa [heq] using hway i j hlt)
  · exact h (f j) (by simpa [heq] using hway j i hlt)

/-- Finitely many keys are in a dictionary. -/
lemma Dict.finite_keys {K V : Type*} [DecidableEq K] (d : Dict K V) : {k | ∃ v, d.get k = some v}.Finite := by
  refine (List.finite_toSet d.keys).subset ?_
  rintro k ⟨v, hv⟩
  exact List.mem_map.mpr ⟨(k, v), Dict.mem_entries_iff.mpr hv, rfl⟩

/-- A way to `a` leads there without anything that `a` leads to. -/
lemma reflTransGen_to_update (hsame : ∀ x y, x ≠ a → r x y → r' x y) (h : ReflTransGen r b a) :
    ReflTransGen r' b a := by
  induction h using ReflTransGen.head_induction_on with
  | refl => exact .refl
  | @head x y hxy _ ih =>
    by_cases hx : x = a
    · rw [hx]
    · exact .head (hsame x y hx hxy) ih

/-- **When one thing leads elsewhere**, there is no way back iff there is none from there. -/
theorem acyclic_update_iff (h : Acyclic r) (hsame : ∀ x y, x ≠ a → (r' x y ↔ r x y)) :
    Acyclic r' ↔ ∀ b, r' a b → ¬ ReflTransGen r b a := by
  constructor
  · intro h' b hab hba
    exact h' a (.head' hab (reflTransGen_to_update (fun x y hx => (hsame x y hx).mpr) hba))
  · intro h' x hx
    -- A cycle that does not go through `a` was there before.
    have hcases : ∀ x y, TransGen r' x y → TransGen r x y ∨ (ReflTransGen r' x a ∧ TransGen r' a y) := by
      intro x y hxy
      induction hxy with
      | @single y hxy =>
        by_cases hxa : x = a
        · exact Or.inr ⟨hxa ▸ .refl, hxa ▸ .single hxy⟩
        · exact Or.inl (.single ((hsame x y hxa).mp hxy))
      | @tail y z hxy hyz ih =>
        rcases ih with hold | ⟨hxa, hay⟩
        · by_cases hya : y = a
          · exact Or.inr ⟨hya ▸ hxy.to_reflTransGen, hya ▸ .single hyz⟩
          · exact Or.inl (hold.tail ((hsame y z hya).mp hyz))
        · exact Or.inr ⟨hxa, hay.tail hyz⟩
    rcases hcases x x hx with hold | ⟨hxa, hax⟩
    · exact h x hold
    · obtain ⟨b, hab, hba⟩ := TransGen.head'_iff.mp (hax.trans_left hxa)
      exact h' b hab (reflTransGen_to_update (fun x y hx => (hsame x y hx).mp) hba)

/-- **A new thing between `a` and what `a` led to** leads nothing back. -/
theorem Acyclic.insert {new : α} (h : Acyclic r) (hne : a ≠ new) (hfresh : ∀ x, ¬ r x new)
    (hr : ∀ x y, r' x y → x = a ∧ y = new ∨ x = new ∧ r a y ∨ x ≠ new ∧ r x y) : Acyclic r' := by
  classical
  -- The way there was before, with `a` in the place of the new thing.
  let old : α → α := fun x => if x = new then a else x
  have hold : ∀ x, x ≠ new → old x = x := fun x hx => if_neg hx
  have hnew : old new = a := if_pos rfl
  have hstep : ∀ x y, r' x y → x = a ∧ y = new ∨ r (old x) (old y) := by
    intro x y hxy
    have htarget : ∀ {x y}, r x y → old y = y := fun {x y} hxy => hold y fun hy => hfresh x (hy ▸ hxy)
    rcases hr x y hxy with hins | ⟨hx, hay⟩ | ⟨hx, hxy⟩
    · exact Or.inl hins
    · rw [hx, hnew, htarget hay]
      exact Or.inr hay
    · rw [hold x hx, htarget hxy]
      exact Or.inr hxy
  have hway : ∀ x y, TransGen r' x y → x = a ∧ y = new ∨ TransGen r (old x) (old y) := by
    intro x y hxy
    induction hxy with
    | single hxy => exact (hstep _ _ hxy).imp_right .single
    | @tail y z _ hyz ih =>
      rcases ih with ⟨hx, hy⟩ | hxy
      · rcases hstep _ _ hyz with ⟨hya, -⟩ | hyz
        · exact absurd (hya.symm.trans hy) hne
        · rw [hy, hnew] at hyz
          rw [hx, hold a hne]
          exact Or.inr (.single hyz)
      · rcases hstep _ _ hyz with ⟨hya, hz⟩ | hyz
        · rw [hya, hold a hne] at hxy
          rw [hz, hnew]
          exact Or.inr hxy
        · exact Or.inr (hxy.tail hyz)
  intro x hx
  rcases hway x x hx with ⟨hxa, hxn⟩ | hold
  · exact hne (hxa.symm.trans hxn)
  · exact h _ hold

end Tmis.Lib

/-!
## Searches that remember their path

A depth-first search for a way back: it follows every way from an element, and fails where it meets an
element of the path it has come by, or the element it started for.

* `Clear r root a path` — the search from `a`, come by `path`, does not fail;
* `LeadsBack r root a` — a way from `a` leads to `root`, or into a cycle;
* `clear_iff` — the search fails iff there is such a way.
-/

namespace Tmis.Lib

open Relation

variable {α : Type*} {r : α → α → Prop} {root : α}

/-- The search from an element, come by `path`, does not fail. -/
inductive Clear (r : α → α → Prop) (root : α) : α → List α → Prop where
  | intro {a : α} {path : List α} (hfresh : a ∉ path) (hroot : ∀ b, r a b → b ≠ root)
      (hnext : ∀ b, r a b → Clear r root b (a :: path)) : Clear r root a path

/-- A way from `a` leads to `root`, or into a cycle. -/
def LeadsBack (r : α → α → Prop) (root a : α) : Prop :=
  ReflTransGen r a root ∨ ∃ x, ReflTransGen r a x ∧ TransGen r x x

lemma clear_cons_iff {a : α} {path : List α} :
    Clear r root a path ↔ a ∉ path ∧ ∀ b, r a b → b ≠ root ∧ Clear r root b (a :: path) := by
  constructor
  · rintro ⟨hfresh, hroot, hnext⟩
    exact ⟨hfresh, fun b hab => ⟨hroot b hab, hnext b hab⟩⟩
  · rintro ⟨hfresh, hnext⟩
    exact ⟨hfresh, fun b hab => (hnext b hab).1, fun b hab => (hnext b hab).2⟩

/-- The search goes everywhere, and still knows where it came from. -/
lemma Clear.of_transGen {a b : α} {path : List α} (h : Clear r root a path) (hab : TransGen r a b) :
    b ≠ root ∧ ∃ path', a ∈ path' ∧ Clear r root b path' := by
  induction hab with
  | single hab =>
    obtain ⟨hne, hclear⟩ := (clear_cons_iff.mp h).2 _ hab
    exact ⟨hne, _, List.mem_cons_self, hclear⟩
  | tail _ hbc ih =>
    obtain ⟨-, path', hmem, hclear⟩ := ih
    obtain ⟨hne, hclear⟩ := (clear_cons_iff.mp hclear).2 _ hbc
    exact ⟨hne, _, List.mem_cons_of_mem _ hmem, hclear⟩

/-- A search that does not fail meets no way back. -/
lemma Clear.not_leadsBack {a : α} {path : List α} (h : Clear r root a path) (hne : a ≠ root) :
    ¬ LeadsBack r root a := by
  have hcycle : ∀ {x path}, Clear r root x path → ¬ TransGen r x x := by
    intro x path hclear hxx
    obtain ⟨-, path', hmem, hclear'⟩ := hclear.of_transGen hxx
    exact (clear_cons_iff.mp hclear').1 hmem
  rintro (hroot | ⟨x, hax, hxx⟩)
  · rcases reflTransGen_iff_eq_or_transGen.mp hroot with heq | hroot
    · exact hne heq.symm
    · exact (h.of_transGen hroot).1 rfl
  · rcases reflTransGen_iff_eq_or_transGen.mp hax with rfl | hax
    · exact hcycle h hxx
    · obtain ⟨-, path', -, hclear⟩ := h.of_transGen hax
      exact hcycle hclear hxx

/-- Where no way leads back, and finitely many elements lead anywhere, the search does not fail. -/
lemma clear_of_not_leadsBack (hfinite : {a | ∃ b, r a b}.Finite) {a : α} (h : ¬ LeadsBack r root a)
    {path : List α} (hpath : ∀ b ∈ path, b = root ∨ TransGen r b a) : Clear r root a path := by
  -- the ways from `a` come to an end
  let s : α → α → Prop := fun x y => ReflTransGen r a x ∧ r x y
  have hacyclic : Acyclic s := by
    intro x hxx
    obtain ⟨y, hxy, -⟩ := TransGen.head'_iff.mp hxx
    exact h (Or.inr ⟨x, hxy.1, hxx.lift id fun _ _ hs => hs.2⟩)
  have hends : WellFounded (flip s) :=
    hacyclic.wellFounded hfinite fun x y hxy => ⟨y, hxy.2⟩
  have hclear : ∀ x, ReflTransGen r a x → ∀ path : List α,
      (∀ b ∈ path, b = root ∨ TransGen r b x) → Clear r root x path := by
    intro x
    induction x using hends.induction with
    | _ x ih =>
      intro hax path hpath
      refine ⟨fun hmem => ?_, fun y hxy => ?_, fun y hxy => ih y ⟨hax, hxy⟩ (hax.tail hxy) _ ?_⟩
      · rcases hpath x hmem with rfl | hxx
        · exact h (Or.inl hax)
        · exact h (Or.inr ⟨x, hax, hxx⟩)
      · rintro rfl
        exact h (Or.inl (hax.tail hxy))
      · intro b hb
        rcases List.mem_cons.mp hb with rfl | hb
        · exact Or.inr (TransGen.single hxy)
        · exact (hpath b hb).imp_right fun hbx => hbx.tail hxy
  exact hclear a ReflTransGen.refl path hpath

/-- **The search fails iff a way leads back.** -/
theorem clear_iff (hfinite : {a | ∃ b, r a b}.Finite) {a : α} (hne : a ≠ root) :
    Clear r root a [root] ↔ ¬ LeadsBack r root a :=
  ⟨fun h => h.not_leadsBack hne, fun h => clear_of_not_leadsBack hfinite h fun _ hb =>
    Or.inl (List.mem_singleton.mp hb)⟩

end Tmis.Lib
