import Tmis.Lib.Dict
import Tmis.Lib.Python

/-!
# The action engine and the retry policy

`ActionEngine.execute` runs the handler registered for an action's type and journals what came of
it; `WorkflowRetryPolicy.run` repeats a failing operation.  Handlers are not part of the repository's
engine: what one of them does when it is run is an input, and every time one is run is noted.

* `ActionEngine` — the registered types, the journal, and the handlers run so far;
* `ActionEngine.execute` — one execution of an action;
* `WorkflowRetryPolicy.run` — at most `maxAttempts` attempts of an operation.
-/

namespace Tmis.WorkflowAutomation

open Tmis.Lib

structure Action where
  id : Uuid
  workflowId : String := ""
  actionType : String
  config : Dict String String := ∅
  requiresApproval : Bool := false
  deriving DecidableEq

structure ActionResult where
  success : Bool
  detail : String
  output : Dict String String := ∅
  deriving DecidableEq

structure ActionLogEntry where
  firmId : String
  executionId : Uuid
  actionId : Uuid
  actionType : String
  result : ActionResult
  deriving DecidableEq

/-- What a handler does when it is run. -/
inductive HandlerOutcome where
  | returns (result : ActionResult)
  | raises (e : PyException)
  | interrupts

/-- A handler that was run: for which execution, and on which action. -/
structure Invocation where
  firmId : String
  executionId : Uuid
  action : Action
  deriving DecidableEq

/-- `handlers` are the registered action types.  `invoked` is no data of the source: it notes the
handlers run. -/
structure ActionEngine where
  handlers : List String := []
  log : List ActionLogEntry := []
  invoked : List Invocation := []

namespace ActionEngine

def register (engine : ActionEngine) (actionType : String) : ActionEngine :=
  { engine with handlers := engine.handlers.insert actionType }

/-- The engine once the handler of the action is run, if there is one. -/
def noteInvocation (engine : ActionEngine) (firmId : String) (executionId : Uuid) (action : Action) :
    ActionEngine :=
  if action.actionType ∈ engine.handlers then
    { engine with invoked := engine.invoked ++ [{ firmId, executionId, action }] }
  else engine

/-- The journal with one more entry. -/
def journal (engine : ActionEngine) (firmId : String) (executionId : Uuid) (action : Action)
    (result : ActionResult) : ActionEngine :=
  let entry : ActionLogEntry :=
    { firmId, executionId, actionId := action.id, actionType := action.actionType, result }
  { engine with log := engine.log ++ [entry] }

def execute (engine : ActionEngine) (firmId : String) (executionId : Uuid) (action : Action)
    (outcome : HandlerOutcome) : Except Raised ActionResult × ActionEngine :=
  if action.actionType ∉ engine.handlers then
    (.error (.exception (keyError action.actionType "UnknownActionTypeError")), engine)
  else
    let engine := engine.noteInvocation firmId executionId action
    match outcome with
    | .interrupts => (.error .interrupt, engine)
    | .returns result => (.ok result, engine.journal firmId executionId action result)
    | .raises e =>
        let result : ActionResult := { success := false, detail := e.text }
        (.ok result, engine.journal firmId executionId action result)

def historyForExecution (engine : ActionEngine) (firmId : String) (executionId : Uuid) :
    List ActionLogEntry :=
  engine.log.filter fun e => e.firmId = firmId ∧ e.executionId = executionId

end ActionEngine

/-! ### Retries -/

namespace WorkflowRetryPolicy

variable {T σ : Type}

/-- The loop of `run` from attempt number `attempt` on, with `left` attempts to go. -/
def attempt (operation : ℕ → σ → Except Raised T × σ) :
    ℕ → ℕ → Option PyException → σ → Except Raised T × σ
  | 0, _, none, s => (.error (.exception assertionError), s)
  | 0, _, some lastError, s => (.error (.exception lastError), s)
  | left + 1, n, _, s =>
      match operation n s with
      | (.ok result, s) => (.ok result, s)
      | (.error (.exception e), s) => attempt operation left (n + 1) (some e) s
      | (.error .interrupt, s) => (.error .interrupt, s)

/-- `run`: the operation is told the number of the attempt, and passes the state on. -/
def run (maxAttempts : ℕ) (operation : ℕ → σ → Except Raised T × σ) (s : σ) : Except Raised T × σ :=
  attempt operation maxAttempts 0 none s

/-- What every attempt preserves, the run preserves. -/
theorem run_inv {I : σ → Prop} (operation : ℕ → σ → Except Raised T × σ)
    (hop : ∀ n s, I s → I (operation n s).2) (maxAttempts : ℕ) {s : σ} (hs : I s) :
    I (run maxAttempts operation s).2 := by
  have loop : ∀ left n last s, I s → I (attempt operation left n last s).2 := by
    intro left
    induction left with
    | zero => intro n last s hs; cases last <;> exact hs
    | succ left ih =>
      intro n last s hs
      have hnext := hop n s hs
      unfold attempt
      split
      · simp_all
      · exact ih _ _ _ (by simp_all)
      · simp_all
  exact loop maxAttempts 0 none s hs

end WorkflowRetryPolicy

end Tmis.WorkflowAutomation
