import Tmis.Lib.Dict
import Tmis.Lib.IsoDatetime
import Tmis.Lib.Python

/-!
# The condition engine

Condition trees over a context of texts, and `ConditionEngine.evaluate` with every error it can
raise: a missing operand, an unknown reference, a text that is no date, a reference that leads back
to itself until the stack is used up.

* `Condition`, `ConditionEngine` — the trees and the library of named ones;
* `evaluate` — one condition in a context;
* `evaluateAll` — `all(...)` over conditions: the first one that fails, or raises, decides.
-/

namespace Tmis.WorkflowAutomation

open Tmis.Lib

inductive Comparator where
  | eq | neq | gt | gte | lt | lte
  deriving DecidableEq

inductive ConditionKind where
  | and | or | not | compare | roleIs | dateBefore | dateAfter | ref
  deriving DecidableEq

structure Condition where
  kind : ConditionKind
  children : List Condition := []
  operand : Option Condition := none
  field : Option String := none
  comparator : Option Comparator := none
  value : Option String := none
  refName : Option String := none

/-- The `context: dict[str, str]` a caller assembles. -/
abbrev Context := Dict String String

/-- The numbers of `float`, as far as conditions use them. -/
structure PyFloat where
  Value : Type
  /-- `float(text)`, if the text is that of a number. -/
  ofString : String → Option Value
  eq : Value → Value → Bool
  lt : Value → Value → Bool
  le : Value → Value → Bool

/-- The interpreter the engine runs in: its numbers, and how deep calls may nest. -/
structure Interpreter where
  float : PyFloat
  recursionLimit : ℕ

/-- An interpreter whose numbers are the natural ones. -/
def Interpreter.nat : Interpreter where
  float := { Value := ℕ, ofString := String.toNat?, eq := (· == ·), lt := (· < ·), le := (· ≤ ·) }
  recursionLimit := 1000

structure ConditionEngine where
  library : Dict String Condition := ∅

namespace ConditionEngine

def registerExpression (engine : ConditionEngine) (name : String) (condition : Condition) :
    ConditionEngine :=
  { engine with library := engine.library.set name condition }

def compareNumeric {float : PyFloat} (actual expected : float.Value) : Comparator → Bool
  | .eq => float.eq actual expected
  | .neq => !float.eq actual expected
  | .gt => float.lt expected actual
  | .gte => float.le expected actual
  | .lt => float.lt actual expected
  | .lte => float.le actual expected

def compareText (actual expected : String) : Comparator → Bool
  | .eq => actual = expected
  | .neq => actual ≠ expected
  | .gt => expected < actual
  | .gte => expected ≤ actual
  | .lt => actual < expected
  | .lte => actual ≤ expected

def evaluateCompare (float : PyFloat) (condition : Condition) (context : Context) :
    Except PyException Bool :=
  match condition.field, condition.comparator with
  | some field, some comparator =>
      match context.get field with
      | none => .ok false
      | some actual =>
          let expected := condition.value.getD ""
          match float.ofString actual, float.ofString expected with
          | some a, some e => .ok (compareNumeric a e comparator)
          | _, _ => .ok (compareText actual expected comparator)
  | _, _ => .error assertionError

/-- `date.fromisoformat`, with its error. -/
def parseDate (text : String) : Except PyException ℕ :=
  match IsoDate.fromIsoFormat text with
  | some date => .ok date
  | none => .error (valueError ("Invalid isoformat string: " ++ pyRepr text))

def evaluateDate (condition : Condition) (context : Context) (before : Bool) :
    Except PyException Bool :=
  match condition.field, condition.value with
  | some field, some value =>
      match context.get field with
      | none => .ok false
      | some actual => do
          let actualDate ← parseDate actual
          let referenceDate ← parseDate value
          return if before then actualDate < referenceDate else referenceDate < actualDate
  | _, _ => .error assertionError

/-- `evaluate`, with `depth` calls left on the stack. -/
def evaluateWithin (float : PyFloat) (engine : ConditionEngine) :
    ℕ → Condition → Context → Except PyException Bool
  | 0, _, _ => .error recursionError
  | depth + 1, condition, context =>
      match condition.kind with
      | .and => condition.children.allM fun child => engine.evaluateWithin float depth child context
      | .or => condition.children.anyM fun child => engine.evaluateWithin float depth child context
      | .not =>
          match condition.operand with
          | none => .error assertionError
          | some operand => return !(← engine.evaluateWithin float depth operand context)
      | .compare => evaluateCompare float condition context
      | .roleIs => .ok (context.get "role" = condition.value)
      | .dateBefore => evaluateDate condition context true
      | .dateAfter => evaluateDate condition context false
      | .ref =>
          match condition.refName with
          | none => .error assertionError
          | some refName =>
              match engine.library.get refName with
              | none => .error (keyError refName "UnknownExpressionError")
              | some referenced => engine.evaluateWithin float depth referenced context

def evaluate (interpreter : Interpreter) (engine : ConditionEngine) (condition : Condition)
    (context : Context) : Except PyException Bool :=
  engine.evaluateWithin interpreter.float interpreter.recursionLimit condition context

/-- `all(evaluate(c, context) for c in conditions)`. -/
def evaluateAll (interpreter : Interpreter) (engine : ConditionEngine) (conditions : List Condition)
    (context : Context) : Except PyException Bool :=
  conditions.allM fun condition => engine.evaluate interpreter condition context

end ConditionEngine

end Tmis.WorkflowAutomation
