import Tmis.AiTeam.Mission
import Tmis.RuntimePlatform.AsyncProcessing

/-!
# Ended items on the three queues

The synchronization queue, the work queue of an AI team and the asynchronous jobs under workers,
cancellations and sweeps in any order.

* `InMemorySyncQueue` — the runs of synchronization jobs that wait for a worker, `integration_hub.queue`;
* `ended_stay_ended_iff` — on each of them what has ended stays so iff no report of a failure, and
  no sweep, meets an ended item with attempts left;
* `cancelled_comes_back` — a worker's report after a cancellation.
-/

/-! ### The synchronization queue -/

namespace Tmis.IntegrationHub

open Tmis.Lib

/-- Which job of which firm is to be run. -/
structure QueuePayload where
  firmId : String
  jobId : String

/-- `QueueItem`; its result is the `detail` of `mark_done`. -/
abbrev QueueItem := Item QueuePayload String

abbrev InMemorySyncQueue := RetryQueue QueuePayload String

/-- The queue as its users see it. -/
abbrev InMemorySyncQueue.calls : QueueCalls InMemorySyncQueue (RetryQueue.NewItem QueuePayload) String :=
  RetryQueue.calls

end Tmis.IntegrationHub

namespace Tmis.RuntimePlatform

open Tmis.Lib Tmis.IntegrationHub Tmis.AiTeam

/-- **Ended items stay ended, exactly.**  On each of the three queues, started empty. -/
theorem ended_stay_ended_iff (baseDelaySeconds : ℚ)
    (syncOps : List (Op (RetryQueue.NewItem QueuePayload) String))
    (workOps : List (Op (RetryQueue.NewItem WorkPayload) AgentOutput))
    (jobOps : List (Op AsyncProcessingEngine.NewJob Unit)) :
    (Along InMemorySyncQueue.calls.step InMemorySyncQueue.calls.Absorbing { queue := {} } syncOps ↔
      Along InMemorySyncQueue.calls.step InMemorySyncQueue.calls.NoRevival { queue := {} } syncOps) ∧
    (Along InMemoryWorkQueue.calls.step InMemoryWorkQueue.calls.Absorbing { queue := {} } workOps ↔
      Along InMemoryWorkQueue.calls.step InMemoryWorkQueue.calls.NoRevival { queue := {} } workOps) ∧
    (Along AsyncProcessingEngine.calls.step AsyncProcessingEngine.calls.Absorbing
        { queue := { baseDelaySeconds } } jobOps ↔
      Along AsyncProcessingEngine.calls.step AsyncProcessingEngine.calls.NoRevival
        { queue := { baseDelaySeconds } } jobOps) :=
  ⟨InMemorySyncQueue.calls.along_absorbing_iff (fun _ => rfl) syncOps,
    InMemoryWorkQueue.calls.along_absorbing_iff (fun _ => rfl) workOps,
    AsyncProcessingEngine.calls.along_absorbing_iff (fun _ => rfl) jobOps⟩

/-- An item cancelled while it runs waits to be run again once its worker reports a failure. -/
theorem cancelled_comes_back : ¬ Along InMemoryWorkQueue.calls.step InMemoryWorkQueue.calls.Absorbing
    { queue := {} }
    [.enqueue { payload := ⟨"research", "jurist"⟩, createdAt := 0 }, .dequeue 0 1, .begin 0 1, .cancel 0 2,
      .fail 0 "unavailable" 3] := by
  rintro ⟨-, -, -, -, ⟨-, hstays⟩, -⟩
  exact hstays 0 (by decide +kernel) (by decide +kernel)

end Tmis.RuntimePlatform
