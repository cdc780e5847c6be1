import Mathlib.Data.List.Basic
import Mathlib.Data.List.Nodup
import Mathlib.Data.List.Range

/-!
# Numbered journals

A journal is a list that only grows at its end and whose entries carry the numbers 1, 2, 3, ... in their
order.  What a reader has seen is told by one number.

* `Numbered` — the entries carry their numbers;
* `Numbered.pairwise_lt`, `Numbered.eq_of_number_eq` — they are in order, and no two carry one number;
* `Numbered.since` — the entries beyond a number are those that a reader of that many has not seen;
* `Numbered.foldl_since` — folding them from what was folded so far folds the whole journal.
-/

namespace Tmis.Lib

variable {E S : Type*} {number : E → ℕ} {log : List E}

/-- The entries carry the numbers 1, 2, 3, ... in their order. -/
def Numbered (number : E → ℕ) (log : List E) : Prop := log.map number = List.range' 1 log.length

lemma numbered_nil (number : E → ℕ) : Numbered number [] := rfl

lemma numbered_snoc {x : E} :
    Numbered number (log ++ [x]) ↔ Numbered number log ∧ number x = log.length + 1 := by
  unfold Numbered
  rw [List.map_append, List.map_singleton, List.length_append, List.length_singleton,
    List.range'_1_concat, Nat.add_comm 1 log.length]
  constructor
  · intro h
    obtain ⟨hlog, hx⟩ := List.append_inj' h rfl
    exact ⟨hlog, List.singleton_inj.mp hx⟩
  · rintro ⟨hlog, hx⟩
    rw [hlog, hx]

/-- An entry with the next number. -/
lemma Numbered.snoc (h : Numbered number log) {x : E} (hx : number x = log.length + 1) :
    Numbered number (log ++ [x]) := numbered_snoc.mpr ⟨h, hx⟩

/-- The last entry carries their number. -/
lemma Numbered.number_getLast (h : Numbered number log) {x : E} (hx : log.getLast? = some x) :
    number x = log.length := by
  obtain ⟨init, rfl⟩ := List.getLast?_eq_some_iff.mp hx
  rw [(numbered_snoc.mp h).2, List.length_append, List.length_singleton]

/-- The entries are in the order of their numbers. -/
lemma Numbered.pairwise_lt (h : Numbered number log) : log.Pairwise fun x y => number x < number y := by
  have hrange : (log.map number).Pairwise (· < ·) := h ▸ List.pairwise_lt_range'
  exact List.pairwise_map.mp hrange

/-- No two entries carry one number. -/
lemma Numbered.eq_of_number_eq (h : Numbered number log) {x y : E} (hx : x ∈ log) (hy : y ∈ log)
    (heq : number x = number y) : x = y := by
  have hnodup : (log.map number).Nodup := h ▸ List.nodup_range'
  exact List.inj_on_of_nodup_map hnodup hx hy heq

/-- **The entries beyond a number** are those after that many. -/
theorem Numbered.since (h : Numbered number log) (n : ℕ) :
    log.filter (n < number ·) = log.drop n := by
  induction log using List.reverseRecOn with
  | nil => simp
  | append_singleton log x ih =>
    obtain ⟨hlog, hx⟩ := numbered_snoc.mp h
    rw [List.filter_append, ih hlog]
    by_cases hn : n ≤ log.length
    · rw [List.drop_append_of_le_length hn]
      simp [hx, Nat.lt_succ_of_le hn]
    · have hlast : ¬ n < log.length + 1 := by omega
      rw [List.drop_eq_nil_of_le (by omega), List.drop_eq_nil_of_le (by simp; omega)]
      simp [hx, hlast]

/-- **Folding on** from what the first entries were folded to. -/
theorem Numbered.foldl_since (h : Numbered number log) (f : S → E → S) (s : S) (n : ℕ) :
    (log.filter (n < number ·)).foldl f ((log.take n).foldl f s) = log.foldl f s := by
  rw [h.since, ← List.foldl_append, List.take_append_drop]

end Tmis.Lib
