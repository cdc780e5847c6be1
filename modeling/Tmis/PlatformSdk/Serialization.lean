import Tmis.Lib.JsonFormat
import Tmis.PlatformSdk.WorkflowExecutor

/-!
# Workflow definitions as JSON

`workflow_sdk/serialization.py`: a workflow written as JSON with all its fields, and read back.

* `toDict`, `fromDict` — the definition as a JSON value, field by field;
* `toJson`, `fromJson` — the texts;
* `fromDict_toDict`, `definition_restored` — what was written is read back.

A document that holds a value of another type than that of its field gives no definition here.
-/

namespace Tmis.PlatformSdk

open Tmis.Lib

namespace ConditionOperator

def value : ConditionOperator → String
  | .equals => "eq"
  | .notEquals => "neq"
  | .exists => "exists"
  | .notExists => "not_exists"
  | .greaterThan => "gt"
  | .lessThan => "lt"

def all : List ConditionOperator := [.equals, .notEquals, .exists, .notExists, .greaterThan, .lessThan]

/-- `ConditionOperator(text)`. -/
def ofValue (text : String) : Except PyException ConditionOperator :=
  match all.find? fun operator => operator.value = text with
  | some operator => .ok operator
  | none => .error (valueError (pyRepr text ++ " is not a valid ConditionOperator"))

lemma ofValue_value (operator : ConditionOperator) : ofValue operator.value = .ok operator := by
  cases operator <;> rfl

end ConditionOperator

namespace Serialization

/-! ### Definitions -/

structure WorkflowCondition (F : Type) where
  field : String
  operator : ConditionOperator
  value : JsonValue F := .null

structure WorkflowStep (F : Type) where
  id : String
  name : String
  action : String
  condition : Option (WorkflowCondition F) := none
  onSuccess : Option String := none
  onFailure : Option String := none

structure WorkflowDefinition (F : Type) where
  id : String
  name : String
  steps : List (WorkflowStep F)
  triggerEvents : List String := []
  validations : List String := []

variable {F : Type}

/-! ### Writing -/

/-- `None`, or what is written of a value. -/
def optional {α : Type} (write : α → JsonValue F) : Option α → JsonValue F
  | none => .null
  | some x => write x

def conditionDict (condition : WorkflowCondition F) : JsonValue F :=
  .object [("field", .str condition.field), ("operator", .str condition.operator.value),
    ("value", condition.value)]

def stepDict (step : WorkflowStep F) : JsonValue F :=
  .object [("id", .str step.id), ("name", .str step.name), ("action", .str step.action),
    ("condition", optional conditionDict step.condition), ("on_success", optional .str step.onSuccess),
    ("on_failure", optional .str step.onFailure)]

def toDict (workflow : WorkflowDefinition F) : JsonValue F :=
  .object [("id", .str workflow.id), ("name", .str workflow.name),
    ("trigger_events", .array (workflow.triggerEvents.map .str)),
    ("validations", .array (workflow.validations.map .str)), ("steps", .array (workflow.steps.map stepDict))]

/-! ### Reading -/

/-- What stands for a definition that has a value of another type than that of its field. -/
def untyped : PyException := typeError "a value of another type than that of its field"

/-- The name of the class of a value that is neither a string nor a collection. -/
def scalarName : JsonValue F → String
  | .null => "NoneType"
  | .bool _ => "bool"
  | .int _ => "int"
  | _ => "float"

/-- `data[key]`. -/
def getItem (data : JsonValue F) (key : String) : Except PyException (JsonValue F) :=
  match data with
  | .object entries =>
      match entries.lookup key with
      | some x => .ok x
      | none => .error (keyError key)
  | .array _ => .error (typeError "list indices must be integers or slices, not str")
  | .str _ => .error (typeError "string indices must be integers, not 'str'")
  | x => .error (typeError (pyRepr (scalarName x) ++ " object is not subscriptable"))

/-- `data.get(key)`, of a value that has been subscripted by a string before: of a `dict`. -/
def get (data : JsonValue F) (key : String) : Option (JsonValue F) :=
  match data with
  | .object entries => entries.lookup key
  | _ => none

/-- What an iteration over a value gives. -/
def iterate : JsonValue F → Except PyException (List (JsonValue F))
  | .array items => .ok items
  | .object entries => .ok (entries.map fun e => .str e.1)
  | .str s => .ok (s.toList.map fun c => .str (String.singleton c))
  | x => .error (typeError (pyRepr (scalarName x) ++ " object is not iterable"))

def text : JsonValue F → Except PyException String
  | .str s => .ok s
  | _ => .error untyped

/-- What is read of `data.get(key)`, unless this is `None`. -/
def optionally {α : Type} (read : JsonValue F → Except PyException α) (data : JsonValue F) (key : String) :
    Except PyException (Option α) :=
  match (get data key).getD .null with
  | .null => .ok none
  | x => (read x).map some

/-- `tuple(data.get(key, ()))`. -/
def texts (data : JsonValue F) (key : String) : Except PyException (List String) :=
  match get data key with
  | none => .ok []
  | some x => do (← iterate x).mapM text

def readCondition (data : JsonValue F) : Except PyException (WorkflowCondition F) := do
  return {
    field := ← text (← getItem data "field")
    operator := ← ConditionOperator.ofValue (← text (← getItem data "operator"))
    value := (get data "value").getD .null }

def readStep (s : JsonValue F) : Except PyException (WorkflowStep F) := do
  return {
    id := ← text (← getItem s "id")
    name := ← text (← getItem s "name")
    action := ← text (← getItem s "action")
    condition := ← optionally readCondition s "condition"
    onSuccess := ← optionally text s "on_success"
    onFailure := ← optionally text s "on_failure" }

def fromDict (data : JsonValue F) : Except PyException (WorkflowDefinition F) := do
  let steps ← (← iterate (← getItem data "steps")).mapM readStep
  return {
    id := ← text (← getItem data "id")
    name := ← text (← getItem data "name")
    steps := steps
    triggerEvents := ← texts data "trigger_events"
    validations := ← texts data "validations" }

/-- `JSONDecodeError`; its text, which says where the document goes wrong, is left out. -/
def jsonDecodeError : PyException := ⟨"JSONDecodeError", ""⟩

variable [JsonFloat F]

def toJson (workflow : WorkflowDefinition F) : String := (toDict workflow).dumpsAs ⟨false, some 2⟩

def fromJson (payload : String) : Except PyException (WorkflowDefinition F) :=
  match JsonValue.loads payload with
  | some data => fromDict data
  | none => .error jsonDecodeError

/-! ### What was written is read back -/

omit [JsonFloat F]

lemma mapM_map_ok {α β : Type} {write : α → β} {read : β → Except PyException α}
    (h : ∀ x, read (write x) = .ok x) : ∀ xs : List α, (xs.map write).mapM read = .ok xs
  | [] => rfl
  | x :: xs => by
      rw [List.map_cons, List.mapM_cons, h, mapM_map_ok h xs]
      rfl

lemma readCondition_conditionDict (condition : WorkflowCondition F) :
    readCondition (conditionDict condition) = .ok condition := by
  show (do
    let operator ← ConditionOperator.ofValue condition.operator.value
    return (⟨condition.field, operator, condition.value⟩ : WorkflowCondition F)) = _
  rw [ConditionOperator.ofValue_value]
  rfl

/-- What is written of a value that may be missing is read back, if it is not `None` itself. -/
lemma optionally_of_get {α : Type} {write : α → JsonValue F} {read : JsonValue F → Except PyException α}
    (hread : ∀ x, read (write x) = .ok x) (hnull : ∀ x, write x ≠ .null) {data : JsonValue F} {key : String}
    {edge : Option α} (hget : get data key = some (optional write edge)) :
    optionally read data key = .ok edge := by
  rw [optionally, hget, Option.getD_some]
  cases edge with
  | none => rfl
  | some x =>
    dsimp only [optional]
    split
    · rename_i heq
      exact absurd heq (hnull x)
    · rw [hread]
      rfl

lemma text_str (s : String) : text (.str s : JsonValue F) = .ok s := rfl

lemma readStep_stepDict (step : WorkflowStep F) : readStep (stepDict step) = .ok step := by
  have hcondition : optionally readCondition (stepDict step) "condition" = .ok step.condition :=
    optionally_of_get readCondition_conditionDict (fun _ h => by cases h) rfl
  have hsuccess : optionally text (stepDict step) "on_success" = .ok step.onSuccess :=
    optionally_of_get text_str (fun _ h => by cases h) rfl
  have hfailure : optionally text (stepDict step) "on_failure" = .ok step.onFailure :=
    optionally_of_get text_str (fun _ h => by cases h) rfl
  show (do
    return (⟨step.id, step.name, step.action, ← optionally readCondition (stepDict step) "condition",
      ← optionally text (stepDict step) "on_success", ← optionally text (stepDict step) "on_failure"⟩ :
        WorkflowStep F)) = _
  rw [hcondition, hsuccess, hfailure]
  rfl

/-- **A definition is read back** from the value that is written of it. -/
theorem fromDict_toDict (workflow : WorkflowDefinition F) : fromDict (toDict workflow) = .ok workflow := by
  show (do
    let steps ← (workflow.steps.map stepDict).mapM readStep
    return (⟨workflow.id, workflow.name, steps, ← (workflow.triggerEvents.map JsonValue.str).mapM text,
      ← (workflow.validations.map JsonValue.str).mapM text⟩ : WorkflowDefinition F)) = _
  rw [mapM_map_ok readStep_stepDict, mapM_map_ok text_str, mapM_map_ok text_str]
  rfl

/-! No object has a key twice. -/

section WellFormed

open JsonValue (WellFormed)

lemma wellFormed_optional {α : Type} {write : α → JsonValue F} {edge : Option α}
    (h : ∀ x ∈ edge, WellFormed (write x)) : WellFormed (optional write edge) := by
  cases edge with
  | none => exact .null
  | some x => exact h x rfl

lemma wellFormed_texts (xs : List String) : WellFormed (.array (xs.map .str) : JsonValue F) := by
  refine .array fun x hx => ?_
  obtain ⟨s, -, rfl⟩ := List.mem_map.mp hx
  exact .str s

lemma wellFormed_conditionDict {condition : WorkflowCondition F} (h : WellFormed condition.value) :
    WellFormed (conditionDict condition) := by
  refine .object (show List.Nodup ["field", "operator", "value"] by decide) ?_
  simp only [List.forall_mem_cons]
  exact ⟨.str _, .str _, h, fun _ he => absurd he List.not_mem_nil⟩

lemma wellFormed_stepDict {step : WorkflowStep F} (h : ∀ condition ∈ step.condition, WellFormed condition.value) :
    WellFormed (stepDict step) := by
  refine .object (show List.Nodup ["id", "name", "action", "condition", "on_success", "on_failure"] by decide) ?_
  simp only [List.forall_mem_cons]
  exact ⟨.str _, .str _, .str _, wellFormed_optional fun c hc => wellFormed_conditionDict (h c hc),
    wellFormed_optional fun s _ => .str s, wellFormed_optional fun s _ => .str s,
    fun _ he => absurd he List.not_mem_nil⟩

lemma wellFormed_toDict {workflow : WorkflowDefinition F}
    (h : ∀ step ∈ workflow.steps, ∀ condition ∈ step.condition, WellFormed condition.value) :
    WellFormed (toDict workflow) := by
  refine .object (show List.Nodup ["id", "name", "trigger_events", "validations", "steps"] by decide) ?_
  simp only [List.forall_mem_cons]
  refine ⟨.str _, .str _, wellFormed_texts _, wellFormed_texts _, .array fun x hx => ?_,
    fun _ he => absurd he List.not_mem_nil⟩
  obtain ⟨step, hstep, rfl⟩ := List.mem_map.mp hx
  exact wellFormed_stepDict (h step hstep)

/-- **The round trip of a definition** whose conditions hold JSON values. -/
theorem definition_restored [JsonFloat F] (workflow : WorkflowDefinition F)
    (h : ∀ step ∈ workflow.steps, ∀ condition ∈ step.condition, WellFormed condition.value) :
    fromJson (toJson workflow) = .ok workflow := by
  rw [toJson, fromJson, JsonValue.loads_dumpsAs (wellFormed_toDict h)]
  exact fromDict_toDict workflow

/-- A step with a condition on a nested value and one edge. -/
def reviewWorkflow : WorkflowDefinition WholeFloat where
  id := "revue"
  name := "Revue \"rapide\""
  steps := [{ id := "s1", name := "Étape", action := "notifier", onFailure := some "s1"
              condition := some ⟨"statut", .equals, .object [("codes", .array [.int (-1), .float ⟨2⟩, .null])]⟩ }]
  triggerEvents := ["document.créé"]

theorem definition_restored_review : fromJson (toJson reviewWorkflow) = .ok reviewWorkflow := by
  refine definition_restored reviewWorkflow ?_
  have hvalue : WellFormed (.object [("codes", .array [.int (-1), .float ⟨2⟩, .null])] : JsonValue WholeFloat) := by
    refine .object (List.nodup_singleton _) (List.forall_mem_singleton.mpr (.array ?_))
    simp only [List.forall_mem_cons]
    exact ⟨.int _, .float _, .null, fun _ he => absurd he List.not_mem_nil⟩
  rintro step hstep condition hcondition
  obtain rfl := List.mem_singleton.mp hstep
  obtain rfl := Option.mem_some.mp hcondition
  exact hvalue

end WellFormed

end Serialization

end Tmis.PlatformSdk
