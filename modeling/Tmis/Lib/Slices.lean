import Mathlib.Data.List.Basic
import Tmis.Lib.Python

/-!
# Windows on a list

A list is looked at through windows of one size, the next of which begins some steps after the one before.  Where the
step is the size the windows are slices, one after the other; where it is less, two windows overlap.

* `rangeSteps` — where the windows begin, and `rangeOf`, the call that says so;
* `windows`, `windows_of_ne_nil` — the windows, one after the other;
* `ne_nil_of_mem_windows`, `length_of_mem_windows` — none is empty, and none too long;
* `rejoin_windows` — the list is put together from them; `flatten_windows`, where they do not overlap.
-/

namespace Tmis.Lib

section Windows

variable {α : Type*} {xs window : List α} {stop step size overlap : ℕ}

/-- `range(0, stop, step)` of a positive step. -/
def rangeSteps (stop step : ℕ) : List ℕ := (List.range ((stop + step - 1) / step)).map (· * step)

/-- `range(0, stop, step)`: a step of zero raises, and one below zero leads nowhere. -/
def rangeOf (stop : ℕ) : ℤ → Except PyException (List ℕ)
  | .ofNat 0 => .error (valueError "range() arg 3 must not be zero")
  | .ofNat (n + 1) => .ok (rangeSteps stop (n + 1))
  | .negSucc _ => .ok []

/-- The windows on a list. -/
def windows (xs : List α) (step size : ℕ) : List (List α) :=
  (rangeSteps xs.length step).map fun i => (xs.drop i).take size

lemma rangeSteps_zero (step : ℕ) : rangeSteps 0 step = [] := by
  have hnone : (0 + step - 1) / step = 0 := by
    rcases step.eq_zero_or_pos with rfl | hstep
    · rfl
    · exact Nat.div_eq_of_lt (by omega)
  rw [rangeSteps, hnone, List.range_zero, List.map_nil]

lemma rangeSteps_of_pos (hstep : 0 < step) (hstop : 0 < stop) :
    rangeSteps stop step = 0 :: (rangeSteps (stop - step) step).map (step + ·) := by
  have hfirst : (stop + step - 1) / step = (stop - 1) / step + 1 := by
    rw [← Nat.add_div_right _ hstep]
    congr 1
    omega
  have hrest : (stop - step + step - 1) / step = (stop - 1) / step := by
    rcases Nat.lt_or_ge stop step with hlt | hge
    · rw [Nat.div_eq_of_lt (by omega), Nat.div_eq_of_lt (by omega)]
    · rw [Nat.sub_add_cancel hge]
  rw [rangeSteps, rangeSteps, hfirst, hrest, List.range_succ_eq_map, List.map_cons, List.map_map, List.map_map,
    Nat.zero_mul]
  refine congrArg (0 :: ·) (List.map_congr_left fun i _ => ?_)
  exact (Nat.succ_mul i step).trans (Nat.add_comm _ _)

@[simp] lemma windows_nil : windows ([] : List α) step size = [] := by
  rw [windows, List.length_nil, rangeSteps_zero, List.map_nil]

/-- The first window, and those on what comes after a step. -/
lemma windows_of_ne_nil (hstep : 0 < step) (hxs : xs ≠ []) :
    windows xs step size = xs.take size :: windows (xs.drop step) step size := by
  rw [windows, windows, rangeSteps_of_pos hstep (List.length_pos_of_ne_nil hxs), List.length_drop, List.map_cons,
    List.drop_zero, List.map_map]
  refine congrArg (xs.take size :: ·) (List.map_congr_left fun i _ => ?_)
  rw [Function.comp_apply, List.drop_drop]

/-- The rule of induction: a step leads to a shorter list. -/
lemma windows_induction {P : List α → Prop} (hstep : 0 < step) (hnil : P [])
    (hnext : ∀ xs, xs ≠ [] → P (xs.drop step) → P xs) (xs : List α) : P xs := by
  induction hn : xs.length using Nat.strong_induction_on generalizing xs with
  | h n ih =>
    by_cases hxs : xs = []
    · exact hxs ▸ hnil
    · have hpos := List.length_pos_of_ne_nil hxs
      refine hnext xs hxs (ih _ ?_ _ rfl)
      rw [List.length_drop]
      omega

lemma ne_nil_of_mem_windows (hstep : 0 < step) (hsize : 0 < size) (h : window ∈ windows xs step size) :
    window ≠ [] := by
  induction xs using windows_induction hstep with
  | hnil => simp at h
  | hnext xs hxs ih =>
    rw [windows_of_ne_nil hstep hxs] at h
    rcases List.mem_cons.mp h with rfl | h
    · intro hnil
      have hlength := congrArg List.length hnil
      have hpos := List.length_pos_of_ne_nil hxs
      rw [List.length_take, List.length_nil] at hlength
      omega
    · exact ih h

lemma length_of_mem_windows (h : window ∈ windows xs step size) : window.length ≤ size := by
  obtain ⟨i, -, rfl⟩ := List.mem_map.mp h
  exact List.length_take_le _ _

/-- What the windows add to one another is all that comes after the first of what they share. -/
lemma flatMap_drop_windows (hstep : 0 < step) (overlap : ℕ) (xs : List α) :
    (windows xs step (step + overlap)).flatMap (·.drop overlap) = xs.drop overlap := by
  induction xs using windows_induction hstep with
  | hnil => simp
  | hnext xs hxs ih =>
    rw [windows_of_ne_nil hstep hxs, List.flatMap_cons, ih, List.drop_take, Nat.add_sub_cancel, List.drop_drop,
      Nat.add_comm step, ← List.drop_drop, List.take_append_drop]

/-- **The list is put together from its windows**: the first one, and of each other one what it does not share with
the one before. -/
theorem rejoin_windows (hstep : 0 < step) (overlap : ℕ) (xs : List α) :
    ((windows xs step (step + overlap)).head?.getD [] ++
      (windows xs step (step + overlap)).tail.flatMap (·.drop overlap)) = xs := by
  by_cases hxs : xs = []
  · rw [hxs, windows_nil]
    rfl
  · rw [windows_of_ne_nil hstep hxs, List.head?_cons, Option.getD_some, List.tail_cons, flatMap_drop_windows hstep,
      List.drop_drop, List.take_append_drop]

/-- Slices that do not overlap follow each other. -/
theorem flatten_windows (hstep : 0 < step) (xs : List α) : (windows xs step step).flatten = xs := by
  have hjoined := flatMap_drop_windows hstep 0 xs
  rw [Nat.add_zero, List.drop_zero] at hjoined
  calc (windows xs step step).flatten = (windows xs step step).flatMap id := List.flatMap_id.symm
    _ = (windows xs step step).flatMap (·.drop 0) := List.flatMap_congr fun _ _ => rfl
    _ = xs := hjoined

end Windows

end Tmis.Lib
