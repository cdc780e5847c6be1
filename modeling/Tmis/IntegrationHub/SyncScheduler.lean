import Tmis.WorkflowAutomation.Scheduler

/-!
# The scheduler of synchronisations

`SyncSchedulerEngine` fires sync jobs by time.  It is of the same shape as the scheduler of workflow triggers,
reimplemented locally.

* `ScheduledSync` — a job of the scheduler, a polled thing;
* `SyncSchedulerEngine`, its `schedule`, `due` and `markFired`;
* `fires_once_iff` — with either scheduler, what is marked as fired is not due again iff it recurs after a
  positive time; `one_shot_due_again`, a trigger that is to be fired once is.
-/

namespace Tmis.IntegrationHub

open Tmis.Lib
open Tmis.WorkflowAutomation (ScheduledTrigger SchedulerEngine)

/-- A sync job's next firing time; `interval` is there for a recurring schedule, in microseconds. -/
structure ScheduledSync where
  id : Uuid
  firmId : String
  jobId : String
  nextFireAt : PyDatetime
  interval : Option ℤ := none
  deriving DecidableEq

instance : Polled ScheduledSync where
  owner := ScheduledSync.firmId
  id := ScheduledSync.id
  nextFireAt := ScheduledSync.nextFireAt
  interval := ScheduledSync.interval
  moved scheduled nextFireAt := { scheduled with nextFireAt }
  owner_moved _ _ := rfl
  id_moved _ _ := rfl
  nextFireAt_moved _ _ := rfl

abbrev SyncSchedulerEngine := PollingEngine ScheduledSync

namespace SyncSchedulerEngine

/-- A job that is to be scheduled. -/
def unscheduled (firmId jobId : String) (nextFireAt : PyDatetime) (interval : Option ℤ := none) :
    Unscheduled ScheduledSync :=
  ⟨fun id => { id, firmId, jobId, nextFireAt, interval }, fun _ => rfl⟩

def schedule (engine : SyncSchedulerEngine) (firmId jobId : String) (nextFireAt : PyDatetime)
    (interval : Option ℤ := none) : ScheduledSync × SyncSchedulerEngine :=
  PollingEngine.schedule engine (unscheduled firmId jobId nextFireAt interval)

def due (engine : SyncSchedulerEngine) (firmId : String) (now : PyDatetime) :
    Except PyException (List ScheduledSync) :=
  PollingEngine.due engine firmId now

def markFired (scheduled : ScheduledSync) (now : PyDatetime) : Except PyException ScheduledSync :=
  Polling.markFired scheduled now

end SyncSchedulerEngine

open PollingEngine (Call step FiresOnce Recurs)

/-- **What is fired is not due again**, with either scheduler, iff all that is marked as fired recurs after a
positive time, or its next moment is not in the calendar, so that it cannot be marked. -/
theorem fires_once_iff (calls : List (Call ScheduledTrigger)) (syncCalls : List (Call ScheduledSync)) :
    (Along step FiresOnce ({} : SchedulerEngine) calls ↔ Along step Recurs ({} : SchedulerEngine) calls) ∧
    (Along step FiresOnce ({} : SyncSchedulerEngine) syncCalls ↔
      Along step Recurs ({} : SyncSchedulerEngine) syncCalls) :=
  ⟨PollingEngine.along_firesOnce_iff calls, PollingEngine.along_firesOnce_iff syncCalls⟩

/-- A hearing is fired at its time, and it is due once more later; so is a job that is to be run
once. -/
theorem one_shot_due_again :
    let time : PyDatetime := ⟨true, 63871200 * 10 ^ 9⟩
    ¬ Along step FiresOnce ({} : SchedulerEngine)
      [.schedule (SchedulerEngine.unscheduled "f" "w" "t" time), .fire "f" 0 time] ∧
    ¬ Along step FiresOnce ({} : SyncSchedulerEngine)
      [.schedule (SyncSchedulerEngine.unscheduled "f" "j" time), .fire "f" 0 time] := by
  intro time
  constructor
  · rintro ⟨-, h, -⟩
    refine h ⟨0, "f", "w", "t", time, none⟩ _ ⟨_, rfl, List.mem_singleton.mpr rfl, rfl⟩ rfl []
      ⟨true, 63871260 * 10 ^ 9⟩ ?_ (Or.inr rfl) ⟨0, "f", "w", "t", time, none⟩
      ⟨_, rfl, List.mem_singleton.mpr rfl, rfl⟩
    simp [PollingEngine.Between, time]
  · rintro ⟨-, h, -⟩
    refine h ⟨0, "f", "j", time, none⟩ _ ⟨_, rfl, List.mem_singleton.mpr rfl, rfl⟩ rfl []
      ⟨true, 63871260 * 10 ^ 9⟩ ?_ (Or.inr rfl) ⟨0, "f", "j", time, none⟩
      ⟨_, rfl, List.mem_singleton.mpr rfl, rfl⟩
    simp [PollingEngine.Between, time]

end Tmis.IntegrationHub
