import Tmis.Lib.JsonText
import Tmis.Lib.PyValue

/-!
# Comparing JSON values

What `==`, `<` and `>` make of two values that came out of a JSON text; of a `float` the bits are kept.

* `number` — the number a value is, a boolean being one;
* `pyEq` — `a == b`, which is defined for all values;
* `pyLt` — `a < b` where `a` is a number: it raises unless `b` is one too.
-/

namespace Tmis.Lib

/-- What two numbers are compared by: no order has a `float` that is no number in it. -/
def PrimitiveKey.lt : PrimitiveKey → PrimitiveKey → Bool
  | .number p, .number q => p < q
  | .infinity true, .number _ => true
  | .infinity true, .infinity false => true
  | .number _, .infinity false => true
  | _, _ => false

/-- A JSON value. -/
abbrev Json := JsonValue (BitVec 64)

namespace JsonValue

mutual

/-- A JSON value as a value of the interpreter. -/
def toPy : Json → PyValue
  | .null => .none
  | .bool b => .primitive (.bool b)
  | .int n => .primitive (.int n)
  | .float x => .primitive (.float x)
  | .str s => .primitive (.str s)
  | .array items => .seq .list (toPyItems items)
  | .object entries => .dict (toPyEntries entries)

def toPyItems : List Json → List PyValue
  | [] => []
  | x :: xs => x.toPy :: toPyItems xs

def toPyEntries : List (String × Json) → List (String × PyValue)
  | [] => []
  | (key, x) :: entries => (key, x.toPy) :: toPyEntries entries

end

/-- The number that the value is: an instance of `int | float`. -/
def number : Json → Option PrimitiveKey
  | .bool b => some (Primitive.bool b).key
  | .int n => some (Primitive.int n).key
  | .float x => some (Primitive.float x).key
  | _ => none

/-- The name of the value's class. -/
def className : Json → String
  | .null => "NoneType"
  | .bool _ => "bool"
  | .int _ => "int"
  | .float _ => "float"
  | .str _ => "str"
  | .array _ => "list"
  | .object _ => "dict"

/-- A `float` that is no number is not equal to itself. -/
def isNan (v : Json) : Bool :=
  match v.number with
  | some (.nan _) => true
  | _ => false

/-- `a == b`. -/
def pyEq (a b : Json) : Bool := PyValue.same a.toPy b.toPy && !a.isNan

/-- `a < b`, or `a > b` with the operands changed, where the number `a` stands for the first one. -/
def pyCompare (op : String) (holds : PrimitiveKey → PrimitiveKey → Bool) (a b : Json) :
    Except PyException Bool :=
  match a.number, b.number with
  | some p, some q => .ok (holds p q)
  | _, _ => .error (typeError (pyRepr op ++ " not supported between instances of " ++
      pyRepr a.className ++ " and " ++ pyRepr b.className))

lemma pyCompare_eq_error_iff {op : String} {holds : PrimitiveKey → PrimitiveKey → Bool} {a b : Json}
    (ha : a.number ≠ none) : (∃ e, pyCompare op holds a b = .error e) ↔ b.number = none := by
  unfold pyCompare
  cases hp : a.number with
  | none => exact absurd hp ha
  | some p => cases b.number <;> simp

end JsonValue

end Tmis.Lib
