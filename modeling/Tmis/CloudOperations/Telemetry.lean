import Tmis.Lib.Dict
import Tmis.Lib.Python

/-!
# The telemetry an execution feeds

The parts of `cloud_operations` the execution engine calls: the metrics registry, which refuses a
name that is registered with another type, the spans of a trace, and the error events.  The values of
the metrics and the times are left out, as nothing here depends on them.

* `Telemetry.recordCounter` — one measurement of a category that is a counter;
* `Telemetry.startSpan`, `Telemetry.endSpan` — the spans;
* `Telemetry.recordError` — the event is saved before the metric may be refused.
-/

namespace Tmis.CloudOperations

open Tmis.Lib

inductive MetricKind where
  | counter | gauge | histogram
  deriving DecidableEq

inductive SpanStatus where
  | ok | error
  deriving DecidableEq

structure Span where
  id : Uuid
  traceId : String
  name : String
  firmId : Option String
  ended : Bool := false
  status : SpanStatus := .ok
  attributes : List (String × Uuid) := []

structure ErrorEvent where
  source : String
  errorType : String
  message : String
  firmId : Option String

/-- One row of `WorkflowRunMetrics`. -/
structure WorkflowRunMetrics where
  workflowId : Uuid
  executionId : Uuid
  stepCount : ℕ
  errorCount : ℕ
  cancellationCount : ℕ

structure Telemetry where
  registry : Dict String MetricKind := ∅
  spans : Dict Uuid Span := ∅
  errors : List ErrorEvent := []
  runs : List WorkflowRunMetrics := []
  uuids : ℕ := 0

namespace Telemetry

/-- `MetricsRegistry._get_or_create`. -/
def getOrCreate (telemetry : Telemetry) (name : String) (kind : MetricKind) :
    Except PyException Telemetry :=
  match telemetry.registry.get name with
  | none => .ok { telemetry with registry := telemetry.registry.set name kind }
  | some existing =>
      if existing ≠ kind then
        .error (typeError ("Metric " ++ pyRepr name ++ " is already registered with a different type"))
      else .ok telemetry

/-- `MetricsEngine.record` in a category whose kind is `counter`, as `WORKFLOW_COUNT` and `ERRORS`
are. -/
def recordCounter (telemetry : Telemetry) (name : String) : Except PyException Telemetry :=
  telemetry.getOrCreate name .counter

/-- Whether a measurement of the counter `name` is accepted. -/
def AcceptsCounter (telemetry : Telemetry) (name : String) : Prop :=
  telemetry.registry.get name = none ∨ telemetry.registry.get name = some .counter

def startSpan (telemetry : Telemetry) (traceId name : String) (firmId : Option String)
    (attributes : List (String × Uuid)) : Uuid × Telemetry :=
  let span : Span := { id := telemetry.uuids, traceId, name, firmId, attributes }
  (span.id,
    { telemetry with spans := telemetry.spans.set span.id span, uuids := telemetry.uuids + 1 })

def endSpan (telemetry : Telemetry) (spanId : Uuid) (status : SpanStatus) :
    Except PyException Telemetry :=
  match telemetry.spans.get spanId with
  | none => .error (keyError (toString spanId) "UnknownSpanError")
  | some span =>
      .ok { telemetry with spans := telemetry.spans.set span.id { span with ended := true, status } }

/-- `ErrorTrackingEngine.record`. -/
def recordError (telemetry : Telemetry) (source errorType message : String)
    (firmId : Option String) : Option PyException × Telemetry :=
  let event : ErrorEvent := { source, errorType, message, firmId }
  let telemetry := { telemetry with errors := telemetry.errors ++ [event] }
  match telemetry.recordCounter (source ++ "." ++ errorType) with
  | .ok telemetry => (none, telemetry)
  | .error e => (some e, telemetry)

lemma recordCounter_ok_iff {telemetry : Telemetry} {name : String} :
    (∃ t, telemetry.recordCounter name = .ok t) ↔ telemetry.AcceptsCounter name := by
  unfold recordCounter getOrCreate AcceptsCounter
  cases telemetry.registry.get name with
  | none => simp
  | some kind => by_cases h : kind = .counter <;> simp [h]

end Telemetry

end Tmis.CloudOperations
