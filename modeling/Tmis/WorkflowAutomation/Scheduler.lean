import Tmis.Lib.Polling

/-!
# The scheduler of workflow triggers

`SchedulerEngine` fires triggers by time rather than by event: `due` says which ones are to be fired, and
`mark_fired`, after it is done, moves one that recurs to its next moment.

* `ScheduledTrigger` — a trigger of the scheduler, a polled thing;
* `SchedulerEngine`, its `schedule`, `due` and `markFired`.
-/

namespace Tmis.WorkflowAutomation

open Tmis.Lib

/-- A trigger's next firing time; `interval` is there for one that recurs, in microseconds. -/
structure ScheduledTrigger where
  id : Uuid
  firmId : String
  workflowId : String
  triggerId : String
  nextFireAt : PyDatetime
  interval : Option ℤ := none
  deriving DecidableEq

instance : Polled ScheduledTrigger where
  owner := ScheduledTrigger.firmId
  id := ScheduledTrigger.id
  nextFireAt := ScheduledTrigger.nextFireAt
  interval := ScheduledTrigger.interval
  moved scheduled nextFireAt := { scheduled with nextFireAt }
  owner_moved _ _ := rfl
  id_moved _ _ := rfl
  nextFireAt_moved _ _ := rfl

abbrev SchedulerEngine := PollingEngine ScheduledTrigger

namespace SchedulerEngine

/-- A trigger that is to be scheduled. -/
def unscheduled (firmId workflowId triggerId : String) (nextFireAt : PyDatetime) (interval : Option ℤ := none) :
    Unscheduled ScheduledTrigger :=
  ⟨fun id => { id, firmId, workflowId, triggerId, nextFireAt, interval }, fun _ => rfl⟩

def schedule (engine : SchedulerEngine) (firmId workflowId triggerId : String) (nextFireAt : PyDatetime)
    (interval : Option ℤ := none) : ScheduledTrigger × SchedulerEngine :=
  PollingEngine.schedule engine (unscheduled firmId workflowId triggerId nextFireAt interval)

def due (engine : SchedulerEngine) (firmId : String) (now : PyDatetime) :
    Except PyException (List ScheduledTrigger) :=
  PollingEngine.due engine firmId now

def markFired (scheduled : ScheduledTrigger) (now : PyDatetime) : Except PyException ScheduledTrigger :=
  Polling.markFired scheduled now

end SchedulerEngine

end Tmis.WorkflowAutomation
