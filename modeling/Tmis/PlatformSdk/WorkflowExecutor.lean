import Tmis.Lib.BoundedLoop
import Tmis.Lib.Dict
import Tmis.Lib.JsonCompare

/-!
# The workflow SDK

`evaluate` of a condition in a context of JSON values, and `WorkflowExecutor`, which walks a workflow
from its first step along the edges of the branches that are taken.

* `WorkflowCondition`, `evaluate`, `Incomparable` — the conditions, and those whose evaluation raises;
* `WorkflowActionRegistry`, `attempt` — the actions, which see and change a world of their own, and one
  attempt of a step;
* `WorkflowExecutor.iteration`, `WorkflowExecutor.run` — the loop.
-/

namespace Tmis.PlatformSdk

open Tmis.Lib

/-! ### Conditions -/

inductive ConditionOperator where
  | equals | notEquals | exists | notExists | greaterThan | lessThan
  deriving DecidableEq

structure WorkflowCondition where
  field : String
  operator : ConditionOperator
  value : Json := .null

/-- The context of a run. -/
abbrev RunContext := Dict String Json

namespace WorkflowCondition

/-- A comparison by order: only of a number that is there. -/
def compare (condition : WorkflowCondition) (context : RunContext) (op : String)
    (holds : PrimitiveKey → PrimitiveKey → Bool) : Except PyException Bool :=
  match context.get condition.field with
  | none => .ok false
  | some actual =>
    if actual.number = none then .ok false else actual.pyCompare op holds condition.value

/-- `evaluate`, for a condition that is there. -/
def holdsIn (condition : WorkflowCondition) (context : RunContext) : Except PyException Bool :=
  let actual := context.get condition.field
  match condition.operator with
  | .exists => .ok actual.isSome
  | .notExists => .ok (!actual.isSome)
  | .equals => .ok (actual.any fun x => x.pyEq condition.value)
  | .notEquals => .ok (actual.all fun x => !x.pyEq condition.value)
  | .greaterThan => condition.compare context ">" fun p q => q.lt p
  | .lessThan => condition.compare context "<" fun p q => p.lt q

/-- The condition orders a number that is there and something that is no number. -/
def Incomparable (condition : WorkflowCondition) (context : RunContext) : Prop :=
  (condition.operator = .greaterThan ∨ condition.operator = .lessThan) ∧
    (∃ actual ∈ context.get condition.field, actual.number ≠ none) ∧ condition.value.number = none

lemma compare_eq_error_iff {condition : WorkflowCondition} {context : RunContext} {op : String}
    {holds : PrimitiveKey → PrimitiveKey → Bool} :
    (∃ e, condition.compare context op holds = .error e) ↔
      (∃ actual ∈ context.get condition.field, actual.number ≠ none) ∧ condition.value.number = none := by
  unfold compare
  cases hget : context.get condition.field with
  | none => simp
  | some actual =>
    by_cases hnumber : actual.number = none
    · simp [hnumber]
    · simp [hnumber, JsonValue.pyCompare_eq_error_iff hnumber]

/-- **A condition raises** iff it orders a number and something that is none. -/
theorem holdsIn_eq_error_iff {condition : WorkflowCondition} {context : RunContext} :
    (∃ e, condition.holdsIn context = .error e) ↔ condition.Incomparable context := by
  unfold holdsIn Incomparable
  cases condition.operator <;> simp [compare_eq_error_iff]

end WorkflowCondition

/-- `evaluate`. -/
def evaluate (condition : Option WorkflowCondition) (context : RunContext) : Except PyException Bool :=
  match condition with
  | none => .ok true
  | some condition => condition.holdsIn context

/-! ### Steps and actions -/

structure WorkflowStep where
  id : String
  action : String
  condition : Option WorkflowCondition := none
  onSuccess : Option String := none
  onFailure : Option String := none

structure WorkflowDefinition where
  steps : List WorkflowStep

/-- What an action does: the world it leaves, the context as it leaves it, and the values it returns, if
it returns some. -/
structure ActionResult (W : Type) where
  world : W
  runContext : RunContext
  returned : Except Raised RunContext

abbrev ActionHandler (W : Type) := W → RunContext → ActionResult W

/-- The actions by name. -/
abbrev WorkflowActionRegistry (W : Type) := Dict String (ActionHandler W)

structure WorkflowRunResult where
  executedStepIds : List String
  finalContext : RunContext
  success : Bool

variable {W : Type}

/-- The part of an iteration up to the choice of the branch: the world and the context after it, and
whether the step succeeded.  The condition is evaluated outside of the `try`. -/
def attempt (actions : WorkflowActionRegistry W) (step : WorkflowStep) (world : W) (context : RunContext) :
    Except Raised (W × RunContext × Bool) :=
  match evaluate step.condition context with
  | .error e => .error (.exception e)
  | .ok false => .ok (world, context, false)
  | .ok true =>
    match actions.get step.action with
    | none => .ok (world, context, false)
    | some handler =>
      let result := handler world context
      match result.returned with
      | .ok values => .ok (result.world, result.runContext.update values, true)
      | .error (.exception _) => .ok (result.world, result.runContext, false)
      | .error .interrupt => .error .interrupt

/-- `steps_by_id`: of several steps with one identifier the last one counts. -/
def WorkflowDefinition.stepsById (workflow : WorkflowDefinition) : Dict String WorkflowStep :=
  Dict.ofEntries (workflow.steps.map fun step => (step.id, step))

/-- The step an edge leads to: an edge without a name leads nowhere. -/
def WorkflowDefinition.target (workflow : WorkflowDefinition) (nextId : Option String) : Option WorkflowStep :=
  match nextId with
  | none => none
  | some id => if id = "" then none else workflow.stepsById.get id

/-- The edge of a branch. -/
def WorkflowStep.branch (step : WorkflowStep) (succeeded : Bool) : Option String :=
  if succeeded then step.onSuccess else step.onFailure

/-- The variables of the loop. -/
structure Walk (W : Type) where
  world : W
  runContext : RunContext
  executed : List String := []
  current : Option WorkflowStep
  overallSuccess : Bool := true

namespace WorkflowExecutor

variable (workflow : WorkflowDefinition) (actions : WorkflowActionRegistry W)

/-- The body of the loop, at a step. -/
def visit (walk : Walk W) (step : WorkflowStep) : Except Raised (Walk W) :=
  (attempt actions step walk.world walk.runContext).map fun (world, context, succeeded) =>
    { world
      runContext := context
      executed := walk.executed ++ [step.id]
      current := workflow.target (step.branch succeeded)
      overallSuccess := walk.overallSuccess && succeeded }

/-- One iteration: the loop stops where there is no step. -/
def iteration (walk : Walk W) : Option (Except Raised (Walk W)) :=
  walk.current.map (visit workflow actions walk)

/-- The variables before the loop. -/
def start (world : W) (initialContext : RunContext) : Walk W where
  world := world
  runContext := initialContext
  current := workflow.steps.head?

/-- The bound on the number of iterations. -/
def maxIterations : ℕ := workflow.steps.length * 2

/-- The walk: as far as the bound lets it go. -/
def walk (world : W) (initialContext : RunContext) : Except Raised (Walk W) :=
  whileN (iteration workflow actions) (maxIterations workflow) (start workflow world initialContext)

def run (world : W) (initialContext : RunContext) : Except Raised WorkflowRunResult :=
  if workflow.steps = [] then .ok { executedStepIds := [], finalContext := ∅, success := true }
  else (walk workflow actions world initialContext).map fun walk =>
    { executedStepIds := walk.executed, finalContext := walk.runContext, success := walk.overallSuccess }

end WorkflowExecutor

end Tmis.PlatformSdk

/-!
## Errors in a workflow

A step fails where its condition does not hold or cannot be evaluated, and where its action is unknown or
raises.  The run should go on along the failure edge, and report the failure.  What an action raises is
caught; what the evaluation of a condition raises is not.

* `Fails`, `Reached` — a step that fails, and the steps a run comes to;
* `Contained` — the property of a run;
* `contained_iff` — it holds iff no condition that is reached orders a number and something that is none.
-/

namespace Tmis.PlatformSdk

open Tmis.Lib

variable {W : Type}

/-- The step fails in the world and the context. -/
def Fails (actions : WorkflowActionRegistry W) (step : WorkflowStep) (world : W) (context : RunContext) :
    Prop :=
  (∃ e, evaluate step.condition context = .error e) ∨ evaluate step.condition context = .ok false ∨
    (evaluate step.condition context = .ok true ∧ ∀ handler ∈ actions.get step.action,
      ∃ e, (handler world context).returned = .error (.exception e))

/-- The condition of the step, if it has one, orders a number and something that is none. -/
def Unordered (step : WorkflowStep) (context : RunContext) : Prop :=
  ∃ condition ∈ step.condition, condition.Incomparable context

lemma evaluate_eq_error_iff {step : WorkflowStep} {context : RunContext} :
    (∃ e, evaluate step.condition context = .error e) ↔ Unordered step context := by
  unfold evaluate Unordered
  cases step.condition with
  | none => simp
  | some condition => simp [WorkflowCondition.holdsIn_eq_error_iff]

section Attempt

variable {actions : WorkflowActionRegistry W} {step : WorkflowStep} {world : W} {context : RunContext}

/-- What leaves an attempt is raised by the condition, unless it is an interrupt. -/
lemma attempt_exception {e : PyException}
    (h : attempt actions step world context = .error (.exception e)) : Unordered step context := by
  rw [← evaluate_eq_error_iff]
  unfold attempt at h
  cases heval : evaluate step.condition context with
  | error e => exact ⟨e, rfl⟩
  | ok holds =>
    rw [heval] at h
    cases holds with
    | false => cases h
    | true =>
      dsimp only at h
      split at h
      · cases h
      · split at h <;> cases h

lemma attempt_unordered (actions : WorkflowActionRegistry W) (world : W) (h : Unordered step context) :
    ∃ e, attempt actions step world context = .error (.exception e) := by
  obtain ⟨e, he⟩ := evaluate_eq_error_iff.mpr h
  exact ⟨e, by simp [attempt, he]⟩

/-- A step that fails without an exception of its condition is one that did not succeed. -/
lemma attempt_fails (h : Fails actions step world context) (hordered : ¬ Unordered step context) :
    ∃ world' context', attempt actions step world context = .ok (world', context', false) := by
  unfold attempt
  rcases h with h | h | ⟨h, hhandler⟩
  · exact absurd (evaluate_eq_error_iff.mp h) hordered
  · exact ⟨world, context, by rw [h]⟩
  · rw [h]
    cases hget : actions.get step.action with
    | none => exact ⟨world, context, rfl⟩
    | some handler =>
      obtain ⟨e, he⟩ := hhandler handler hget
      dsimp only
      rw [he]
      exact ⟨_, _, rfl⟩

end Attempt

namespace WorkflowExecutor

variable (workflow : WorkflowDefinition) (actions : WorkflowActionRegistry W) (world : W)
  (initialContext : RunContext)

/-- The run comes to the step, with the variables as they are then. -/
def Reached (walk : Walk W) (step : WorkflowStep) : Prop :=
  ∃ n < maxIterations workflow,
    whileN (iteration workflow actions) n (start workflow world initialContext) = .ok walk ∧
      walk.current = some step

/-- **Errors are contained**: no exception leaves the run, a step that fails is followed by the target of
its failure edge, if there is one, and the run is reported as a failure. -/
structure Contained : Prop where
  noException : ∀ e, run workflow actions world initialContext ≠ .error (.exception e)
  failureEdge : ∀ walk step, Reached workflow actions world initialContext walk step →
    Fails actions step walk.world walk.runContext →
    ∃ next, visit workflow actions walk step = .ok next ∧ next.current = workflow.target step.onFailure
  reported : ∀ walk step, Reached workflow actions world initialContext walk step →
    Fails actions step walk.world walk.runContext →
    ∀ result, run workflow actions world initialContext = .ok result → result.success = false

variable {workflow actions world initialContext}

lemma iteration_eq_some {walk : Walk W} {call : Except Raised (Walk W)} :
    iteration workflow actions walk = some call ↔
      ∃ step, walk.current = some step ∧ visit workflow actions walk step = call := by
  simp [iteration]

lemma visit_eq_ok {walk next : Walk W} {step : WorkflowStep} :
    visit workflow actions walk step = .ok next ↔ ∃ world context succeeded,
      attempt actions step walk.world walk.runContext = .ok (world, context, succeeded) ∧
        { world, runContext := context, executed := walk.executed ++ [step.id],
          current := workflow.target (step.branch succeeded),
          overallSuccess := walk.overallSuccess && succeeded } = next := by
  rw [visit, map_eq_ok]
  simp [Prod.exists]

lemma visit_eq_error {walk : Walk W} {step : WorkflowStep} {e : Raised} :
    visit workflow actions walk step = .error e ↔
      attempt actions step walk.world walk.runContext = .error e := by
  unfold visit
  cases attempt actions step walk.world walk.runContext <;> simp [Except.map]

/-- What has failed stays so. -/
lemma overallSuccess_false {n : ℕ} {s t : Walk W} (h : whileN (iteration workflow actions) n s = .ok t)
    (hs : s.overallSuccess = false) : t.overallSuccess = false := by
  refine whileN_inv (I := fun walk => walk.overallSuccess = false) ?_ hs h
  intro s s' hs hstep
  obtain ⟨step, -, hvisit⟩ := iteration_eq_some.mp hstep
  obtain ⟨_, _, succeeded, -, rfl⟩ := visit_eq_ok.mp hvisit
  simp [hs]

lemma run_eq_ok {result : WorkflowRunResult} (hsteps : workflow.steps ≠ []) :
    run workflow actions world initialContext = .ok result ↔ ∃ final,
      walk workflow actions world initialContext = .ok final ∧
        { executedStepIds := final.executed, finalContext := final.runContext,
          success := final.overallSuccess } = result := by
  rw [run, if_neg hsteps, map_eq_ok]

lemma run_eq_error {e : Raised} (h : run workflow actions world initialContext = .error e) :
    walk workflow actions world initialContext = .error e := by
  unfold run at h
  split at h
  · cases h
  · cases hwalk : walk workflow actions world initialContext with
    | error e' =>
      rw [hwalk] at h
      cases h
      rfl
    | ok final =>
      rw [hwalk] at h
      cases h

lemma Reached.steps_ne_nil {s : Walk W} {step : WorkflowStep}
    (h : Reached workflow actions world initialContext s step) : workflow.steps ≠ [] := by
  obtain ⟨n, hn, -⟩ := h
  intro hnil
  simp [maxIterations, hnil] at hn

/-- The run goes on from a step it comes to. -/
lemma Reached.rest {s next final : Walk W} {step : WorkflowStep}
    (h : Reached workflow actions world initialContext s step)
    (hvisit : visit workflow actions s step = .ok next)
    (hwalk : walk workflow actions world initialContext = .ok final) :
    ∃ m, whileN (iteration workflow actions) m next = .ok final := by
  obtain ⟨n, hn, hs, hcurrent⟩ := h
  obtain ⟨m, hm⟩ : ∃ m, maxIterations workflow = n + (m + 1) := ⟨maxIterations workflow - n - 1, by omega⟩
  refine ⟨m, ?_⟩
  rw [walk, hm, whileN_add, hs] at hwalk
  change whileN (iteration workflow actions) (m + 1) s = .ok final at hwalk
  rwa [whileN_next (iteration_eq_some.mpr ⟨step, hcurrent, hvisit⟩)] at hwalk

/-- **The errors of a run are contained** iff no condition it comes to orders a number and something that
is none. -/
theorem contained_iff :
    Contained workflow actions world initialContext ↔
      ∀ s step, Reached workflow actions world initialContext s step → ¬ Unordered step s.runContext := by
  constructor
  · intro h s step hreached hunordered
    have hfails : Fails actions step s.world s.runContext := Or.inl (evaluate_eq_error_iff.mpr hunordered)
    obtain ⟨next, hvisit, -⟩ := h.failureEdge s step hreached hfails
    obtain ⟨e, he⟩ := attempt_unordered actions s.world hunordered
    rw [visit_eq_error.mpr he] at hvisit
    cases hvisit
  · intro h
    have hfailed : ∀ s step, Reached workflow actions world initialContext s step →
        Fails actions step s.world s.runContext → ∃ next, visit workflow actions s step = .ok next ∧
          next.current = workflow.target step.onFailure ∧ next.overallSuccess = false := by
      intro s step hreached hfails
      obtain ⟨world', context', hattempt⟩ := attempt_fails hfails (h s step hreached)
      exact ⟨_, visit_eq_ok.mpr ⟨_, _, _, hattempt, rfl⟩, rfl, by simp⟩
    refine ⟨?_, ?_, ?_⟩
    · intro e hrun
      obtain ⟨n, hn, s, hs, hraise⟩ := whileN_eq_error (run_eq_error hrun)
      obtain ⟨step, hcurrent, hvisit⟩ := iteration_eq_some.mp hraise
      exact h s step ⟨n, hn, hs, hcurrent⟩ (attempt_exception (visit_eq_error.mp hvisit))
    · intro s step hreached hfails
      obtain ⟨next, hvisit, hcurrent, -⟩ := hfailed s step hreached hfails
      exact ⟨next, hvisit, hcurrent⟩
    · intro s step hreached hfails result hrun
      obtain ⟨next, hvisit, -, hfalse⟩ := hfailed s step hreached hfails
      obtain ⟨final, hwalk, rfl⟩ := (run_eq_ok hreached.steps_ne_nil).mp hrun
      obtain ⟨m, hrest⟩ := hreached.rest hvisit hwalk
      exact overallSuccess_false hrest hfalse

/-- A step whose condition orders the amount and a text. -/
def amountAbove : WorkflowDefinition where
  steps := [{ id := "s1", action := "noop", onFailure := none,
              condition := some { field := "amount", operator := .greaterThan, value := .str "1000" } }]

/-- The comparison raises out of the run. -/
theorem amountAbove_raises : ¬ Contained amountAbove ∅ () (Dict.ofEntries [("amount", .int 500)]) := by
  intro h
  have hreached : Reached amountAbove ∅ () (Dict.ofEntries [("amount", .int 500)])
      (start amountAbove () (Dict.ofEntries [("amount", .int 500)])) (amountAbove.steps.head (by decide)) :=
    ⟨0, by decide, rfl, rfl⟩
  have hunordered : Unordered (amountAbove.steps.head (by decide))
      (Dict.ofEntries [("amount", .int 500)]) :=
    ⟨_, rfl, Or.inl rfl, ⟨.int 500, rfl, by decide⟩, rfl⟩
  obtain ⟨e, he⟩ := attempt_unordered (∅ : WorkflowActionRegistry Unit) () hunordered
  obtain ⟨next, hvisit, -⟩ := h.failureEdge _ _ hreached (Or.inl (evaluate_eq_error_iff.mpr hunordered))
  rw [visit_eq_error.mpr he] at hvisit
  cases hvisit

end WorkflowExecutor

end Tmis.PlatformSdk
