import Tmis.Lib.Python

/-!
# Floating-point numbers

What the modelled services take from `float`.  The arithmetic is that of the machine, so nothing is
assumed of it; what a theorem needs of the printed form it states.

* `PyFloat` — the operations;
* `trueDiv` — division, which raises where the divisor is zero;
* the instance on `ℚ` — exact arithmetic, which agrees with `float` where nothing is rounded.
-/

namespace Tmis.Lib

/-- The operations of `float`.  `ofRat` is a literal, or an `int` that meets a `float`. -/
class PyFloat (F : Type) where
  ofRat : ℚ → F
  add : F → F → F
  sub : F → F → F
  mul : F → F → F
  div : F → F → F
  sqrt : F → F
  sum : List F → F
  le : F → F → Bool
  lt : F → F → Bool
  repr : F → String

namespace PyFloat

variable {F : Type} [PyFloat F]

/-- `x == 0`. -/
def isZero (x : F) : Bool := le x (ofRat 0) && le (ofRat 0) x

/-- `x / y`. -/
def trueDiv (x y : F) : Except PyException F :=
  if isZero y then .error ⟨"ZeroDivisionError", "float division by zero"⟩ else .ok (div x y)

/-- `max(x, y)`: the first of equal ones. -/
def max (x y : F) : F := if lt x y then y else x

/-- `min(x, y)`: the first of equal ones. -/
def min (x y : F) : F := if lt y x then y else x

/-- A rational number with at most two decimals, as `repr` prints it. -/
def decimal (q : ℚ) : String :=
  let n := ⌊|q| * 100⌋.toNat
  let decimals := if n % 10 = 0 then toString (n / 10 % 10) else toString (n / 10 % 10) ++ toString (n % 10)
  (if q < 0 then "-" else "") ++ toString (n / 100) ++ "." ++ decimals

/-- Exact arithmetic. -/
instance : PyFloat ℚ where
  ofRat q := q
  add := (· + ·)
  sub := (· - ·)
  mul := (· * ·)
  div := (· / ·)
  sqrt q := (q.num.toNat.sqrt : ℚ) / q.den.sqrt
  sum := List.sum
  le x y := x ≤ y
  lt x y := x < y
  repr := decimal

lemma max_rat (x y : ℚ) : max x y = Max.max x y := by
  by_cases h : x < y
  · rw [max_eq_right h.le]
    exact if_pos (decide_eq_true h)
  · rw [max_eq_left (not_lt.mp h)]
    exact if_neg fun hlt => h (of_decide_eq_true hlt)

lemma min_rat (x y : ℚ) : min x y = Min.min x y := by
  by_cases h : y < x
  · rw [min_eq_right h.le]
    exact if_pos (decide_eq_true h)
  · rw [min_eq_left (not_lt.mp h)]
    exact if_neg fun hlt => h (of_decide_eq_true hlt)

end PyFloat

end Tmis.Lib
