import Mathlib.Data.List.Basic
import Mathlib.Data.List.Perm.Basic

/-!
# The first source that speaks of something

Sources are read one after the other; `tells d x` is the value that the source `d` gives to `x`, if it
speaks of it.  The first source that speaks of something is the one that counts for it.

* `firstSource` — the source that counts for a thing;
* `Opposes` — a source that counts for another thing, with the same value;
* `Settled`, `order_free_iff` — who opposes what depends on the order of the sources, or a source opposes
  what it tells itself, unless the values are settled.
-/

namespace Tmis.Lib

section Sources

variable {D X T : Type*} (tells : D → X → Option T)

/-- The first source that speaks of a thing. -/
def firstSource (l : List D) (x : X) : Option D := l.find? fun d => (tells d x).isSome

/-- The source counts for another thing to which it gives the value that counts for this one. -/
def Opposes (l : List D) (x : X) (e : D) : Prop :=
  ∃ y d t, y ≠ x ∧ firstSource tells l x = some d ∧ tells d x = some t ∧ firstSource tells l y = some e ∧
    tells e y = some t

/-- No other source speaks of the thing. -/
def OnlySource (l : List D) (x : X) (d : D) : Prop := ∀ g ∈ l, (tells g x).isSome → g = d

/-- Two things to which the same value is given are spoken of by one source each, two different ones; or
each of the two sources that give it speaks of both. -/
def Settled (l : List D) : Prop :=
  ∀ d ∈ l, ∀ e ∈ l, ∀ x y t, x ≠ y → tells d x = some t → tells e y = some t →
    d ≠ e ∧ (OnlySource tells l x d ∧ OnlySource tells l y e ∨ (tells d y).isSome ∧ (tells e x).isSome)

variable {tells} {l l' : List D} {x y : X} {d e : D} {t : T}

/-! ### The source that counts -/

lemma mem_of_firstSource (h : firstSource tells l x = some d) : d ∈ l := List.mem_of_find?_eq_some h

lemma isSome_of_firstSource (h : firstSource tells l x = some d) : (tells d x).isSome :=
  List.find?_some (p := fun d => (tells d x).isSome) h

lemma firstSource_cons_self (h : (tells d x).isSome) : firstSource tells (d :: l) x = some d :=
  List.find?_cons_of_pos h

lemma firstSource_cons_of_not (h : ¬ (tells d x).isSome) :
    firstSource tells (d :: l) x = firstSource tells l x := List.find?_cons_of_neg h

lemma firstSource_eq_of_only (h : OnlySource tells l x d) (hd : d ∈ l) (htells : (tells d x).isSome) :
    firstSource tells l x = some d := by
  cases hfirst : firstSource tells l x with
  | none => exact absurd htells (List.find?_eq_none.mp hfirst d hd)
  | some e => rw [h e (mem_of_firstSource hfirst) (isSome_of_firstSource hfirst)]

/-- Two sources that count and that speak of both things are one. -/
lemma firstSource_eq_of_both (hd : firstSource tells l x = some d) (he : firstSource tells l y = some e)
    (hdy : (tells d y).isSome) (hex : (tells e x).isSome) : d = e := by
  induction l with
  | nil => cases hd
  | cons g l ih =>
    by_cases hx : (tells g x).isSome
    · obtain rfl := Option.some.inj ((firstSource_cons_self hx).symm.trans hd)
      exact Option.some.inj ((firstSource_cons_self hdy).symm.trans he)
    · by_cases hy : (tells g y).isSome
      · obtain rfl := Option.some.inj ((firstSource_cons_self hy).symm.trans he)
        exact absurd hex hx
      · rw [firstSource_cons_of_not hx] at hd
        rw [firstSource_cons_of_not hy] at he
        exact ih hd he

/-- The last source counts for what no other one speaks of. -/
lemma not_tells_of_firstSource_last (hd : d ∉ l) (h : firstSource tells (l ++ [d]) x = some d) :
    ∀ g ∈ l, ¬ (tells g x).isSome := by
  intro g hg htells
  rw [firstSource, List.find?_append] at h
  cases hfirst : l.find? fun d => (tells d x).isSome with
  | none => exact List.find?_eq_none.mp hfirst g hg htells
  | some e =>
    rw [hfirst] at h
    obtain rfl : e = d := Option.some.inj h
    exact hd (List.mem_of_find?_eq_some hfirst)

/-! ### Who opposes what -/

lemma Opposes.mem (h : Opposes tells l x e) : e ∈ l := by
  obtain ⟨y, d, t, -, -, -, he, -⟩ := h
  exact mem_of_firstSource he

/-- Who opposes what where the values are settled, in any order of the sources. -/
lemma opposes_iff_of_settled (h : Settled tells l) (hperm : l'.Perm l) (x : X) (e : D) :
    Opposes tells l' x e ↔ ∃ d ∈ l, ∃ y t, y ≠ x ∧ e ∈ l ∧ tells d x = some t ∧ tells e y = some t ∧
      OnlySource tells l x d ∧ OnlySource tells l y e := by
  constructor
  · rintro ⟨y, d, t, hne, hd, hdx, he, hey⟩
    have hdl := hperm.subset (mem_of_firstSource hd)
    have hel := hperm.subset (mem_of_firstSource he)
    obtain ⟨hapart, ⟨honly, honly'⟩ | ⟨hdy, hex⟩⟩ := h d hdl e hel x y t hne.symm hdx hey
    · exact ⟨d, hdl, y, t, hne, hel, hdx, hey, honly, honly'⟩
    · exact absurd (firstSource_eq_of_both hd he hdy hex) hapart
  · rintro ⟨d, hdl, y, t, hne, hel, hdx, hey, honly, honly'⟩
    have hin : ∀ {z : X} {g : D}, g ∈ l → OnlySource tells l z g → (tells g z).isSome →
        firstSource tells l' z = some g := fun hg honly htells =>
      firstSource_eq_of_only (fun k hk => honly k (hperm.subset hk)) (hperm.symm.subset hg) htells
    exact ⟨y, d, t, hne, hin hdl honly (by simp [hdx]), hdx, hin hel honly' (by simp [hey]), hey⟩

/-- No source opposes what it tells itself, in any order. -/
def NoneItself (tells : D → X → Option T) (l : List D) : Prop :=
  ∀ l', l'.Perm l → ∀ x e, Opposes tells l' x e → ¬ (tells e x).isSome

/-- Who opposes what is the same in all orders. -/
def OrderFree (tells : D → X → Option T) (l : List D) : Prop :=
  ∀ l' l'', l'.Perm l → l''.Perm l → ∀ x e, Opposes tells l' x e ↔ Opposes tells l'' x e

lemma exists_perm_cons (hd : d ∈ l) : ∃ rest, (d :: rest).Perm l := by
  obtain ⟨pre, post, rfl⟩ := List.append_of_mem hd
  exact ⟨pre ++ post, List.perm_middle.symm⟩

/-- A source gives one value to one thing only. -/
lemma NoneItself.one (h : NoneItself tells l) (hd : d ∈ l) (hne : x ≠ y) (hdx : tells d x = some t) :
    tells d y ≠ some t := by
  intro hdy
  obtain ⟨rest, hperm⟩ := exists_perm_cons hd
  refine h _ hperm x d ⟨y, d, t, hne.symm, ?_, hdx, ?_, hdy⟩ (by simp [hdx])
  · exact firstSource_cons_self (by simp [hdx])
  · exact firstSource_cons_self (by simp [hdy])

lemma exists_perm_cons_cons (hd : d ∈ l) (he : e ∈ l) (hne : d ≠ e) :
    ∃ rest, (d :: e :: rest).Perm l := by
  obtain ⟨rest, hperm⟩ := exists_perm_cons hd
  obtain ⟨rest', hperm'⟩ := exists_perm_cons
    ((List.mem_cons.mp (hperm.symm.subset he)).resolve_left hne.symm)
  exact ⟨rest', (hperm'.cons d).trans hperm⟩

/-- Of two sources that give one value to two things, none speaks of both things if the other one speaks
only of its own. -/
lemma NoneItself.both (h : NoneItself tells l) (hd : d ∈ l) (he : e ∈ l) (hne : x ≠ y)
    (hdx : tells d x = some t) (hey : tells e y = some t) (hdy : (tells d y).isSome) : (tells e x).isSome := by
  by_contra hex
  have hapart : e ≠ d := by
    rintro rfl
    exact hex (by simp [hdx])
  obtain ⟨rest, hperm⟩ := exists_perm_cons_cons he hd hapart
  refine h _ hperm y d ⟨x, e, t, hne, ?_, hey, ?_, hdx⟩ hdy
  · exact firstSource_cons_self (by simp [hey])
  · rw [firstSource_cons_of_not hex]
    exact firstSource_cons_self (by simp [hdx])

/-- Of two sources that give one value to two things, each speaking only of its own, the first one is the
only one that speaks of it. -/
lemma OrderFree.only (h : OrderFree tells l) (hitself : NoneItself tells l) (hnodup : l.Nodup) (hd : d ∈ l)
    (he : e ∈ l) (hne : x ≠ y) (hdx : tells d x = some t) (hey : tells e y = some t)
    (hdy : ¬ (tells d y).isSome) (hex : ¬ (tells e x).isSome) : OnlySource tells l x d := by
  intro g hg hgx
  by_contra hgd
  have hapart : d ≠ e := by
    rintro rfl
    exact hdy (by simp [hey])
  obtain ⟨rest, hperm⟩ := exists_perm_cons_cons hd he hapart
  -- read `d` first, or last
  have hlast : (e :: rest ++ [d]).Perm l := (List.perm_append_singleton d (e :: rest)).trans hperm
  have hd_not : d ∉ e :: rest := (List.nodup_cons.mp (hperm.nodup_iff.mpr hnodup)).1
  have hfirst : Opposes tells (d :: e :: rest) y d := by
    refine ⟨x, e, t, hne, ?_, hey, firstSource_cons_self (by simp [hdx]), hdx⟩
    rw [firstSource_cons_of_not hdy]
    exact firstSource_cons_self (by simp [hey])
  obtain ⟨z, e', t', hzy, he', hey', hdz, hdz'⟩ := (h _ _ hperm hlast y d).mp hfirst
  obtain rfl : e = e' := Option.some.inj ((firstSource_cons_self (by simp [hey])).symm.trans he')
  obtain rfl : t = t' := Option.some.inj (hey.symm.trans hey')
  have hgrest : g ∈ e :: rest :=
    (List.mem_cons.mp (hperm.symm.subset hg)).resolve_left hgd
  have hzx : x ≠ z := by
    rintro rfl
    exact not_tells_of_firstSource_last hd_not hdz g hgrest hgx
  exact hitself.one hd hzx hdx hdz'

/-- **Order and opposition**: who opposes what is the same in all orders of the sources, and no source
opposes what it tells itself in any of them, iff the values are settled. -/
theorem order_free_iff (hnodup : l.Nodup) :
    OrderFree tells l ∧ NoneItself tells l ↔ Settled tells l := by
  constructor
  · rintro ⟨hfree, hitself⟩ d hd e he x y t hne hdx hey
    have hapart : d ≠ e := by
      rintro rfl
      exact hitself.one hd hne hdx hey
    refine ⟨hapart, ?_⟩
    by_cases hdy : (tells d y).isSome
    · exact Or.inr ⟨hdy, hitself.both hd he hne hdx hey hdy⟩
    · have hex : ¬ (tells e x).isSome := fun hex => hdy (hitself.both he hd hne.symm hey hdx hex)
      exact Or.inl ⟨hfree.only hitself hnodup hd he hne hdx hey hdy hex,
        hfree.only hitself hnodup he hd hne.symm hey hdx hex hdy⟩
  · intro h
    refine ⟨fun l' l'' hperm hperm' x e => ?_, fun l' hperm x e hopposes hex => ?_⟩
    · rw [opposes_iff_of_settled h hperm, opposes_iff_of_settled h hperm']
    · obtain ⟨d, hd, y, t, hne, he, hdx, hey, honly, -⟩ := (opposes_iff_of_settled h hperm x e).mp hopposes
      exact (h d hd e he x y t hne.symm hdx hey).1 (honly e he hex).symm

end Sources

end Tmis.Lib
