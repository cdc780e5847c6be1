import Mathlib.Data.Rat.Floor

/-!
# Names and errors of the interpreter

What the modelled services take from their language: the identifiers `uuid4` draws, the printed form
of a text, the exceptions a call may raise, and points in time.
-/

namespace Tmis.Lib

/-- An identifier drawn by `uuid4`.  Draws are numbered in the order in which they are made, so that
two of them never coincide; nothing else about them is used. -/
abbrev Uuid := ℕ

/-- One character as `repr` prints it between the quotes `quote`. -/
def reprChar (quote c : Char) : String :=
  if c = '\\' then "\\\\"
  else if c = quote then String.ofList ['\\', quote]
  else if c = '\n' then "\\n"
  else if c = '\r' then "\\r"
  else if c = '\t' then "\\t"
  else if c.toNat < 32 ∨ c.toNat = 127 then
    String.ofList ['\\', 'x', (c.toNat / 16).digitChar, (c.toNat % 16).digitChar]
  else String.ofList [c]

/-- `repr` of a text: in single quotes, unless it holds a single quote and no double one.
Characters beyond the first 128 are taken to be printable. -/
def pyRepr (s : String) : String :=
  let quote := if '\'' ∈ s.toList ∧ '"' ∉ s.toList then '"' else '\''
  String.ofList [quote] ++ String.join (s.toList.map (reprChar quote)) ++ String.ofList [quote]

/-- `f"{q:.1f}"`: one digit after the point, a tie going to the even digit. -/
def tenths (q : ℚ) : String :=
  let n := ⌊q * 10⌋
  let rest := q * 10 - n
  let n := if 1 / 2 < rest ∨ (rest = 1 / 2 ∧ n % 2 = 1) then n + 1 else n
  (if q < 0 then "-" else "") ++ toString (n.natAbs / 10) ++ "." ++ toString (n.natAbs % 10)

/-- `s.split(sep)`, where `sep` is one character. -/
def pySplit (s : String) (sep : Char) : List String := (s.toList.splitOn sep).map String.ofList

/-- A number in base `b`, written with `w` digits: `%0wd` where `b` is ten, and `%0wx` where it is
sixteen. -/
def padded (b : ℕ) : ℕ → ℕ → List Char
  | 0, _ => []
  | w + 1, n => (n / b ^ w).digitChar :: padded b w (n % b ^ w)

/-- An `Exception`: the name of its class and what `str` gives of it. -/
structure PyException where
  className : String
  text : String
  deriving DecidableEq

/-- `KeyError(key)`, or an exception class derived from it: its text is the printed form of the key. -/
def keyError (key : String) (className : String := "KeyError") : PyException :=
  ⟨className, pyRepr key⟩

/-- `ValueError(text)`. -/
def valueError (text : String) : PyException := ⟨"ValueError", text⟩

/-- `TypeError(text)`. -/
def typeError (text : String) : PyException := ⟨"TypeError", text⟩

/-- A failed `assert` without a message. -/
def assertionError : PyException := ⟨"AssertionError", ""⟩

/-- `RecursionError`: the call stack is used up. -/
def recursionError : PyException := ⟨"RecursionError", "maximum recursion depth exceeded"⟩

/-- `TimeoutError()`. -/
def timeoutError : PyException := ⟨"TimeoutError", ""⟩

/-- What may leave a call instead of a value: an `Exception`, or an interrupt, which
`except Exception` does not catch (a cancelled task, an interpreter that shuts down). -/
inductive Raised where
  | exception (e : PyException)
  | interrupt
  deriving DecidableEq

/-- A `datetime`: whether it has a time zone, and the microseconds it counts, in Universal Time if so. -/
structure PyDatetime where
  aware : Bool
  micros : ℤ
  deriving DecidableEq

/-- `a >= b` of two datetimes. -/
def PyDatetime.ge (a b : PyDatetime) : Except PyException Bool :=
  if a.aware = b.aware then .ok (b.micros ≤ a.micros)
  else .error (typeError "can't compare offset-naive and offset-aware datetimes")

/-- The state after a call that may raise: one that does leaves it as it is. -/
def afterCall {S : Type*} (s : S) : Except PyException S → S
  | .ok s' => s'
  | .error _ => s

@[simp] lemma length_padded (b : ℕ) : ∀ w n, (padded b w n).length = w
  | 0, _ => rfl
  | w + 1, n => by rw [padded, List.length_cons, length_padded b w]

/-- What is written are digits. -/
lemma exists_of_mem_padded {b : ℕ} {c : Char} : ∀ {w n : ℕ}, n < b ^ w → c ∈ padded b w n →
    ∃ d < b, c = d.digitChar
  | w + 1, n, hn, hc => by
      rcases List.mem_cons.mp hc with rfl | hc
      · exact ⟨n / b ^ w, Nat.div_lt_of_lt_mul (by rwa [← Nat.pow_succ]), rfl⟩
      · have hpos : 0 < b ^ w := by
          by_contra hzero
          rw [Nat.pow_succ, Nat.eq_zero_of_not_pos hzero, Nat.zero_mul] at hn
          exact absurd hn (Nat.not_lt_zero n)
        exact exists_of_mem_padded (Nat.mod_lt n hpos) hc

/-- The digits of a number. -/
lemma isDigit_of_mem_toString {n : ℕ} {c : Char} (hc : c ∈ (toString n).toList) : c.isDigit = true := by
  refine Nat.isDigit_of_mem_toDigits (b := 10) (n := n) (by decide) (by decide) ?_
  rw [← Nat.toList_repr]
  exact hc

/-- A number is known by its digits. -/
lemma toString_nat_inj {m n : ℕ} (h : toString m = toString n) : m = n := by
  have hdigits : Nat.toDigits 10 m = Nat.toDigits 10 n := by
    rw [← Nat.toList_repr, ← Nat.toList_repr]
    exact congrArg String.toList h
  have hvalue := congrArg (Nat.ofDigitChars 10 · 0) hdigits
  simpa using hvalue

example : pyRepr "it's" = "\"it's\"" := by decide

end Tmis.Lib
