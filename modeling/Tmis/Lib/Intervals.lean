import Mathlib.Order.Lattice

/-!
# Intervals that are classes

Half-open intervals of a linear order that are the classes of an equivalence: the windows of a view.

* `IsClass` — an interval holds what is related to a given thing, and nothing else;
* `IsClass.eq_or_disjoint` — two of them are equal or disjoint;
* `IsClass.next` — the one that holds the end of another one begins there.
-/

namespace Tmis.Lib

variable {T : Type*} [LinearOrder T] {same : T → T → Prop}

/-- The interval from `start` up to `stop` holds the things related to `x`. -/
def IsClass (same : T → T → Prop) (x start stop : T) : Prop :=
  ∀ y, (start ≤ y ∧ y < stop) ↔ same y x

namespace IsClass

variable {x x' start start' stop stop' : T}

lemma contains (h : IsClass same x start stop) (hrefl : ∀ y, same y y) : start ≤ x ∧ x < stop :=
  (h x).mpr (hrefl x)

/-- Classes that have an element in common are one interval. -/
lemma eq_of_same (h : IsClass same x start stop) (h' : IsClass same x' start' stop')
    (hsame : ∀ y, same y x ↔ same y x') (hlt : start < stop) (hlt' : start' < stop') :
    start = start' ∧ stop = stop' := by
  have hmem : ∀ y, (start ≤ y ∧ y < stop) ↔ (start' ≤ y ∧ y < stop') := by
    intro y
    rw [h y, h' y, hsame y]
  have hstart : start' ≤ start := ((hmem start).mp ⟨le_rfl, hlt⟩).1
  have hstart' : start ≤ start' := ((hmem start').mpr ⟨le_rfl, hlt'⟩).1
  have hle : stop' ≤ stop := by
    by_contra hnot
    rw [not_le] at hnot
    exact absurd ((hmem stop).mpr ⟨hstart.trans hlt.le, hnot⟩).2 (lt_irrefl _)
  have hle' : stop ≤ stop' := by
    by_contra hnot
    rw [not_le] at hnot
    exact absurd ((hmem stop').mp ⟨hstart'.trans hlt'.le, hnot⟩).2 (lt_irrefl _)
  exact ⟨le_antisymm hstart' hstart, le_antisymm hle' hle⟩

/-- **Two classes are equal or disjoint.** -/
theorem eq_or_disjoint (hequiv : Equivalence same) (h : IsClass same x start stop)
    (h' : IsClass same x' start' stop') :
    (start = start' ∧ stop = stop') ∨ stop ≤ start' ∨ stop' ≤ start := by
  have hlt : start < stop := (h.contains hequiv.refl).1.trans_lt (h.contains hequiv.refl).2
  have hlt' : start' < stop' := (h'.contains hequiv.refl).1.trans_lt (h'.contains hequiv.refl).2
  rcases le_or_gt stop start' with hle | hgt
  · exact Or.inr (Or.inl hle)
  · rcases le_or_gt stop' start with hle' | hgt'
    · exact Or.inr (Or.inr hle')
    · -- The later one of the two starts is in both.
      have hin : start ≤ max start start' ∧ max start start' < stop := ⟨le_max_left _ _, max_lt hlt hgt⟩
      have hin' : start' ≤ max start start' ∧ max start start' < stop' := ⟨le_max_right _ _, max_lt hgt' hlt'⟩
      have hsame : same x x' := hequiv.trans (hequiv.symm ((h _).mp hin)) ((h' _).mp hin')
      refine Or.inl (h.eq_of_same h' (fun y => ?_) hlt hlt')
      exact ⟨fun hy => hequiv.trans hy hsame, fun hy => hequiv.trans hy (hequiv.symm hsame)⟩

/-- **There is no gap**: the class of the end of an interval begins there. -/
theorem next (hequiv : Equivalence same) (h : IsClass same x start stop)
    (h' : IsClass same stop start' stop') : start' = stop := by
  obtain ⟨hle, hlt⟩ := h'.contains hequiv.refl
  have hstart := h.contains hequiv.refl
  rcases h.eq_or_disjoint hequiv h' with ⟨-, heq⟩ | hafter | hbefore
  · exact absurd heq hlt.ne
  · exact le_antisymm hle hafter
  · exact absurd ((hlt.trans_le hbefore).trans_le hstart.1) (not_lt.mpr hstart.2.le)

end IsClass

end Tmis.Lib
