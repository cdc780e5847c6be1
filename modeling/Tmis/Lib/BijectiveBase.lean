import Mathlib.Algebra.Order.Ring.Nat
import Mathlib.Data.List.Shortlex
import Mathlib.Tactic.Linarith
import Mathlib.Tactic.Ring

/-!
# Bijective numeration

Numbers written in a base without a zero: the digit `d`, for `d` below the base, stands for `d + 1`, and
zero is written without a digit.

* `value`, `digits` — the number that digits stand for, the first digit weighing most, and back;
* `value_digits` — the digits of a number stand for it;
* `value_lt_iff` — numbers are ordered as their digits are: the shorter ones first, and of as many digits
  those that come first in the order of words;
* `shortlex_map_iff` — the same order of other signs for the digits.
-/

namespace Tmis.Lib.BijectiveBase

variable {base : ℕ}

def value (base : ℕ) : List ℕ → ℕ
  | [] => 0
  | d :: ds => (d + 1) * base ^ ds.length + value base ds

/-- The digits of a number, in front of other ones. -/
def digits (base n : ℕ) (ds : List ℕ) : List ℕ :=
  if n = 0 then ds else digits base ((n - 1) / base) ((n - 1) % base :: ds)
termination_by n
decreasing_by
  have := Nat.div_le_self (n - 1) base
  omega

@[simp] lemma digits_zero (base : ℕ) (ds : List ℕ) : digits base 0 ds = ds := by
  rw [digits, if_pos rfl]

lemma digits_of_pos {n : ℕ} (h : 0 < n) (ds : List ℕ) :
    digits base n ds = digits base ((n - 1) / base) ((n - 1) % base :: ds) := by
  rw [digits, if_neg (Nat.ne_of_gt h)]

theorem value_digits (n : ℕ) (ds : List ℕ) :
    value base (digits base n ds) = n * base ^ ds.length + value base ds := by
  induction n, ds using digits.induct base with
  | case1 ds => simp
  | case2 n ds hn ih =>
    have hpos : 0 < n := Nat.pos_of_ne_zero hn
    rw [digits_of_pos hpos, ih, value, List.length_cons, pow_succ]
    have hdiv := Nat.div_add_mod (n - 1) base
    calc (n - 1) / base * (base ^ ds.length * base) +
          (((n - 1) % base + 1) * base ^ ds.length + value base ds)
        = (base * ((n - 1) / base) + (n - 1) % base + 1) * base ^ ds.length + value base ds := by ring
      _ = n * base ^ ds.length + value base ds := by
        rw [hdiv, Nat.sub_add_cancel hpos]

lemma digits_lt (hbase : 0 < base) (n : ℕ) {ds : List ℕ} (hds : ∀ d ∈ ds, d < base) :
    ∀ d ∈ digits base n ds, d < base := by
  induction n, ds using digits.induct base with
  | case1 ds => simpa using hds
  | case2 n ds hn ih =>
    rw [digits_of_pos (Nat.pos_of_ne_zero hn)]
    exact ih (List.forall_mem_cons.mpr ⟨Nat.mod_lt _ hbase, hds⟩)

/-! ### The order of numbers -/

/-- The least number of `n` digits. -/
def least (base : ℕ) : ℕ → ℕ
  | 0 => 0
  | n + 1 => base ^ n + least base n

lemma least_mono {m n : ℕ} (h : m ≤ n) : least base m ≤ least base n := by
  induction h with
  | refl => exact Nat.le_refl _
  | step _ ih => exact ih.trans (Nat.le_add_left _ _)

lemma least_le_value (base : ℕ) (ds : List ℕ) : least base ds.length ≤ value base ds := by
  induction ds with
  | nil => exact Nat.le_refl _
  | cons d ds ih =>
    rw [List.length_cons, least, value]
    exact Nat.add_le_add (Nat.le_mul_of_pos_left _ (Nat.succ_pos d)) ih

lemma value_lt_least {ds : List ℕ} (hds : ∀ d ∈ ds, d < base) :
    value base ds < least base (ds.length + 1) := by
  induction ds with
  | nil => simp [value, least]
  | cons d ds ih =>
    obtain ⟨hd, hds⟩ := List.forall_mem_cons.mp hds
    have hweight : (d + 1) * base ^ ds.length ≤ base * base ^ ds.length := Nat.mul_le_mul_right _ hd
    have hrest := ih hds
    rw [value, List.length_cons, least, pow_succ, mul_comm (base ^ ds.length)]
    omega

lemma value_lt_of_lex {ds es : List ℕ} (hds : ∀ d ∈ ds, d < base) (hlen : ds.length = es.length)
    (h : List.Lex (· < ·) ds es) : value base ds < value base es := by
  induction h with
  | nil => cases hlen
  | cons _ ih =>
    have hlen := Nat.succ.inj hlen
    rw [value, value, hlen]
    exact Nat.add_lt_add_left (ih (List.forall_mem_cons.mp hds).2 hlen) _
  | rel hlt =>
    rename_i d ds e es
    have hlen : ds.length = es.length := Nat.succ.inj hlen
    have hrest := value_lt_least (List.forall_mem_cons.mp hds).2
    have hleast := least_le_value base es
    have hweight : (d + 1 + 1) * base ^ es.length ≤ (e + 1) * base ^ es.length :=
      Nat.mul_le_mul_right _ (Nat.succ_le_succ hlt)
    rw [add_mul, one_mul] at hweight
    rw [hlen, least] at hrest
    rw [value, value, hlen]
    omega

lemma value_lt_of_shortlex {ds es : List ℕ} (hds : ∀ d ∈ ds, d < base)
    (h : List.Shortlex (· < ·) ds es) : value base ds < value base es := by
  rcases List.shortlex_def.mp h with hlen | ⟨hlen, hlex⟩
  · exact (value_lt_least hds).trans_le ((least_mono hlen).trans (least_le_value base es))
  · exact value_lt_of_lex hds hlen hlex

/-- **The order of numbers** is that of their digits. -/
theorem value_lt_iff {ds es : List ℕ} (hds : ∀ d ∈ ds, d < base) (hes : ∀ e ∈ es, e < base) :
    value base ds < value base es ↔ List.Shortlex (· < ·) ds es := by
  constructor
  · intro hlt
    by_contra hnot
    rcases eq_or_ne ds es with rfl | hne
    · exact Nat.lt_irrefl _ hlt
    · have hback : List.Shortlex (· < ·) es ds := by
        by_contra hnot'
        exact hne (Std.Trichotomous.trichotomous (r := List.Shortlex (· < ·)) ds es hnot hnot')
      exact Nat.lt_asymm hlt (value_lt_of_shortlex hes hback)
  · exact value_lt_of_shortlex hds

lemma lex_cons_cons_iff {α : Type*} {r : α → α → Prop} {a b : α} {as bs : List α} :
    List.Lex r (a :: as) (b :: bs) ↔ r a b ∨ (a = b ∧ List.Lex r as bs) := by
  constructor
  · intro h
    cases h with
    | rel hlt => exact Or.inl hlt
    | cons hrest => exact Or.inr ⟨rfl, hrest⟩
  · rintro (hlt | ⟨rfl, hrest⟩)
    · exact .rel hlt
    · exact .cons hrest

/-- Digits are ordered as the signs for them are. -/
lemma shortlex_map_iff {α : Type*} {r : α → α → Prop} {sign : ℕ → α}
    (hsign : ∀ d < base, ∀ e < base, r (sign d) (sign e) ↔ d < e)
    (hinj : ∀ d < base, ∀ e < base, sign d = sign e ↔ d = e)
    {ds es : List ℕ} (hds : ∀ d ∈ ds, d < base) (hes : ∀ e ∈ es, e < base) :
    List.Shortlex r (ds.map sign) (es.map sign) ↔ List.Shortlex (· < ·) ds es := by
  have hlex : List.Lex r (ds.map sign) (es.map sign) ↔ List.Lex (· < ·) ds es := by
    induction ds generalizing es with
    | nil => cases es <;> simp
    | cons d ds ih =>
      cases es with
      | nil => simp
      | cons e es =>
        obtain ⟨hd, hds⟩ := List.forall_mem_cons.mp hds
        obtain ⟨he, hes⟩ := List.forall_mem_cons.mp hes
        rw [List.map_cons, List.map_cons, lex_cons_cons_iff, lex_cons_cons_iff, hsign d hd e he,
          hinj d hd e he, ih hds hes]
  rw [List.shortlex_def, List.shortlex_def, hlex, List.length_map, List.length_map]

end Tmis.Lib.BijectiveBase
