import Tmis.IntegrationHub.ConflictResolution
import Tmis.Lib.Run

/-!
# Synchronization

`SynchronizationEngine.run_pull` of one job, interleaved with what happens at the source.  A run awaits
the connector once; what comes before is one step, what the connector answers another, and what comes
after a third.

* `SynchronizationEngine.pullRecords` — the loop over the records that were read;
* `pullRecord_eq` — what becomes of a record hangs on the conflict it meets;
* `SyncState`, `SyncAction`, `SynchronizationEngine.step` — the source, the job and its runs;
* `SyncEffect`, `syncEffect_step` — what an action does, and in which states.

`datetime.now` is the clock of the source, a number of microseconds; `isoformat` writes all of it, so
that the text `since` is taken as the time it names.
-/

namespace Tmis.IntegrationHub

open Tmis.Lib Tmis.AiGovernance.HumanValidation

inductive SyncMode where
  | full | incremental
  deriving DecidableEq

/-- What `run_pull` reads of its job, and the one field it writes. -/
structure SyncJobConfig where
  id : String
  connectorId : String
  firmId : String
  entityType : String
  mode : SyncMode := .incremental
  conflictStrategy : ConflictStrategy := .remoteWins
  lastSyncedAt : Option ℕ := none

/-- `last_synced_at` of an incremental job, `None` of another one. -/
def SyncJobConfig.since (job : SyncJobConfig) : Option ℕ :=
  match job.mode with
  | .incremental => job.lastSyncedAt
  | .full => none

structure ConnectorSyncResult where
  recordsRead : ℕ := 0
  recordsWritten : ℕ := 0
  conflicts : ℕ := 0
  deriving DecidableEq

structure SyncRunReport where
  jobId : String
  result : ConnectorSyncResult
  conflictsPendingValidation : ℕ := 0
  deriving DecidableEq

/-! ### The loop over the records -/

/-- The arguments of `run_pull` beside the job and the connector. -/
structure PullPorts where
  mapper : Option (ConnectorRecord → String → Except PyException ConnectorRecord) := none
  localLookup : Option (String → String → String → Except PyException (Option ConnectorRecord)) := none

/-- The counters of the loop. -/
structure PullCounts where
  written : ℕ := 0
  conflicts : ℕ := 0
  pending : ℕ := 0

structure SynchronizationEngine where
  conflictEngine : ConflictResolutionEngine

namespace SynchronizationEngine

variable (engine : SynchronizationEngine) (job : SyncJobConfig) (ports : PullPorts)

/-- The body of the loop. -/
def pullRecord (record : ConnectorRecord) (counts : PullCounts) (validation : HumanValidationEngine) :
    Except PyException (PullCounts × HumanValidationEngine) := do
  let mapped ← match ports.mapper with
    | some map => map record job.entityType
    | none => .ok record
  let found ← match ports.localLookup with
    | some find => find job.firmId job.entityType mapped.externalId
    | none => .ok none
  match found with
  | some localRecord =>
      if !localRecord.data.same mapped.data then do
        let (resolution, validation) ← engine.conflictEngine.resolve validation
          { connectorId := job.connectorId
            firmId := job.firmId
            entityType := job.entityType
            externalId := mapped.externalId
            localRecord
            remoteRecord := mapped } job.conflictStrategy
        if resolution.pendingHumanValidation then
          return ({ counts with conflicts := counts.conflicts + 1, pending := counts.pending + 1 },
            validation)
        else
          return ({ counts with conflicts := counts.conflicts + 1, written := counts.written + 1 },
            validation)
      else return ({ counts with written := counts.written + 1 }, validation)
  | none => return ({ counts with written := counts.written + 1 }, validation)

/-- The loop: the counters at its end if no record raised, and the validation engine it leaves. -/
def pullRecords : List ConnectorRecord → PullCounts → HumanValidationEngine →
    Except PyException PullCounts × HumanValidationEngine
  | [], counts, validation => (.ok counts, validation)
  | record :: records, counts, validation =>
      match engine.pullRecord job ports record counts validation with
      | .error e => (.error e, validation)
      | .ok (counts, validation) => pullRecords records counts validation

end SynchronizationEngine

/-- The conflict of a mapped record with what `local_lookup` found, if there is one. -/
def SyncJobConfig.conflictWith (job : SyncJobConfig) (mapped : ConnectorRecord) :
    Option ConnectorRecord → Option ConflictContext
  | some localRecord =>
      if !localRecord.data.same mapped.data then
        some
          { connectorId := job.connectorId
            firmId := job.firmId
            entityType := job.entityType
            externalId := mapped.externalId
            localRecord
            remoteRecord := mapped }
      else none
  | none => none

/-- The conflict that the record meets in the loop, if it meets one. -/
def SyncJobConfig.conflictOf (job : SyncJobConfig) (ports : PullPorts) (record : ConnectorRecord) :
    Except PyException (Option ConflictContext) := do
  let mapped ← match ports.mapper with
    | some map => map record job.entityType
    | none => .ok record
  let found ← match ports.localLookup with
    | some find => find job.firmId job.entityType mapped.externalId
    | none => .ok none
  return job.conflictWith mapped found

/-- The counters after a conflict. -/
def PullCounts.afterConflict (counts : PullCounts) (resolution : ConflictResolution) : PullCounts :=
  if resolution.pendingHumanValidation then
    { counts with conflicts := counts.conflicts + 1, pending := counts.pending + 1 }
  else { counts with conflicts := counts.conflicts + 1, written := counts.written + 1 }

/-- What becomes of a record that meets the conflict, or none. -/
def SynchronizationEngine.settle (engine : SynchronizationEngine) (job : SyncJobConfig)
    (counts : PullCounts) (validation : HumanValidationEngine) :
    Option ConflictContext → Except PyException (PullCounts × HumanValidationEngine)
  | none => .ok ({ counts with written := counts.written + 1 }, validation)
  | some context =>
      (engine.conflictEngine.resolve validation context job.conflictStrategy).map fun r =>
        (counts.afterConflict r.1, r.2)

/-- **One record**: a conflict goes to the strategy of the job, anything else is written. -/
lemma SynchronizationEngine.pullRecord_eq (engine : SynchronizationEngine) (job : SyncJobConfig)
    (ports : PullPorts) (record : ConnectorRecord) (counts : PullCounts)
    (validation : HumanValidationEngine) :
    engine.pullRecord job ports record counts validation =
      job.conflictOf ports record >>= engine.settle job counts validation := by
  unfold pullRecord SyncJobConfig.conflictOf
  cases ports.mapper <;> cases ports.localLookup <;> simp only [bind_assoc, pure_bind] <;>
    refine bind_congr fun mapped => bind_congr fun found => ?_
  all_goals
    cases found with
    | none => rfl
    | some localRecord =>
      simp only [SyncJobConfig.conflictWith]
      split
      · rw [settle]
        cases engine.conflictEngine.resolve validation _ job.conflictStrategy with
        | error e => rfl
        | ok r =>
          cases hpending : r.1.pendingHumanValidation <;>
            simp [PullCounts.afterConflict, hpending, Except.map, bind, Except.bind, pure, Except.pure]
      · rfl

/-! ### The source and the runs -/

/-- A version of a record at the source: the `serial`-th change, made at the time `stamp`. -/
structure Version where
  serial : ℕ
  stamp : ℕ
  record : ConnectorRecord
  deriving DecidableEq

inductive PullPhase where
  | reading
  | processing
  | returned (report : SyncRunReport)
  | raised (e : Raised)
  deriving DecidableEq

/-- A call of `run_pull`: what it asked for, how many changes had been made when it started, how far it
is, and the versions it was given. -/
structure PullRun where
  since : Option ℕ
  startedAfter : ℕ
  phase : PullPhase := .reading
  versions : List Version := []
  deriving DecidableEq

/-- The clock, the latest version of every record at the source, the job, its runs in the order in which
they started, and the validation engine that conflicts are submitted to. -/
structure SyncState where
  clock : ℕ
  source : Dict String Version := ∅
  changes : ℕ := 0
  job : SyncJobConfig
  runs : List PullRun := []
  validation : HumanValidationEngine := {}

inductive SyncAction where
  | tick (duration : ℕ)
  | change (record : ConnectorRecord)
  | start
  /-- The connector answers the run with this number. -/
  | read (run : ℕ)
  /-- The connector raises instead. -/
  | readRaises (run : ℕ) (e : Raised)
  /-- The run goes through its records. -/
  | process (run : ℕ) (ports : PullPorts)
  | decide (requestId : Uuid) (approverId : String) (decision : ValidationDecisionType)
      (comment : Option String)

/-- The stamp is at or after `since`. -/
def changedSince (since : Option ℕ) (stamp : ℕ) : Bool := since.all (· ≤ stamp)

/-- What the connector returns: exactly the records changed at or after `since`. -/
def SyncState.changedRecords (s : SyncState) (since : Option ℕ) : List Version :=
  s.source.values.filter fun v => changedSince since v.stamp

namespace SynchronizationEngine

variable (engine : SynchronizationEngine)

/-- The rest of `_run_pull`, after the connector answered the run `run` at the index `i`. -/
def process (s : SyncState) (i : ℕ) (run : PullRun) (ports : PullPorts) : SyncState :=
  match engine.pullRecords s.job ports (run.versions.map (·.record)) {} s.validation with
  | (.error e, validation) =>
      { s with runs := s.runs.set i { run with phase := .raised (.exception e) }, validation }
  | (.ok counts, validation) =>
      { s with
        job := { s.job with lastSyncedAt := some s.clock }
        runs := s.runs.set i
          { run with
            phase := .returned
              { jobId := s.job.id
                result :=
                  { recordsRead := run.versions.length
                    recordsWritten := counts.written
                    conflicts := counts.conflicts }
                conflictsPendingValidation := counts.pending } }
        validation }

def step (s : SyncState) : SyncAction → SyncState
  | .tick duration => { s with clock := s.clock + duration }
  | .change record =>
      { s with
        source := s.source.set record.externalId { serial := s.changes, stamp := s.clock, record }
        changes := s.changes + 1 }
  | .start => { s with runs := s.runs ++ [{ since := s.job.since, startedAfter := s.changes }] }
  | .read i =>
      match s.runs[i]? with
      | some run =>
          if run.phase = .reading then
            { s with
              runs := s.runs.set i
                { run with phase := .processing, versions := s.changedRecords run.since } }
          else s
      | none => s
  | .readRaises i e =>
      match s.runs[i]? with
      | some run =>
          if run.phase = .reading then
            { s with runs := s.runs.set i { run with phase := .raised e } }
          else s
      | none => s
  | .process i ports =>
      match s.runs[i]? with
      | some run => if run.phase = .processing then engine.process s i run ports else s
      | none => s
  | .decide requestId approverId decision comment =>
      match s.validation.decide s.job.firmId requestId approverId decision comment with
      | .ok (_, validation) => { s with validation }
      | .error _ => s

end SynchronizationEngine

/-! ### What an action does -/

/-- **What an action does**: it finds nothing to do, or it does what it says. -/
inductive SyncEffect (engine : SynchronizationEngine) (s : SyncState) : SyncAction → SyncState → Prop where
  | idle (a : SyncAction) : SyncEffect engine s a s
  | tick (duration : ℕ) : SyncEffect engine s (.tick duration) { s with clock := s.clock + duration }
  | change (record : ConnectorRecord) :
      SyncEffect engine s (.change record)
        { s with
          source := s.source.set record.externalId { serial := s.changes, stamp := s.clock, record }
          changes := s.changes + 1 }
  | start :
      SyncEffect engine s .start
        { s with runs := s.runs ++ [{ since := s.job.since, startedAfter := s.changes }] }
  | read (i : ℕ) (r : PullRun) (hget : s.runs[i]? = some r) (hphase : r.phase = .reading) :
      SyncEffect engine s (.read i)
        { s with
          runs := s.runs.set i { r with phase := .processing, versions := s.changedRecords r.since } }
  | readRaises (i : ℕ) (r : PullRun) (e : Raised) (hget : s.runs[i]? = some r) (hphase : r.phase = .reading) :
      SyncEffect engine s (.readRaises i e) { s with runs := s.runs.set i { r with phase := .raised e } }
  | processRaises (i : ℕ) (r : PullRun) (ports : PullPorts) (e : PyException)
      (validation : HumanValidationEngine) (hget : s.runs[i]? = some r) (hphase : r.phase = .processing)
      (hpull : engine.pullRecords s.job ports (r.versions.map (·.record)) {} s.validation =
        (.error e, validation)) :
      SyncEffect engine s (.process i ports)
        { s with runs := s.runs.set i { r with phase := .raised (.exception e) }, validation }
  | processReturns (i : ℕ) (r : PullRun) (ports : PullPorts) (counts : PullCounts)
      (validation : HumanValidationEngine) (hget : s.runs[i]? = some r) (hphase : r.phase = .processing)
      (hpull : engine.pullRecords s.job ports (r.versions.map (·.record)) {} s.validation =
        (.ok counts, validation)) :
      SyncEffect engine s (.process i ports)
        { s with
          job := { s.job with lastSyncedAt := some s.clock }
          runs := s.runs.set i
            { r with
              phase := .returned
                { jobId := s.job.id
                  result :=
                    { recordsRead := r.versions.length
                      recordsWritten := counts.written
                      conflicts := counts.conflicts }
                  conflictsPendingValidation := counts.pending } }
          validation }
  | decide (requestId : Uuid) (approverId : String) (decision : ValidationDecisionType)
      (comment : Option String) (request : ValidationRequest) (validation : HumanValidationEngine)
      (hok : s.validation.decide s.job.firmId requestId approverId decision comment =
        .ok (request, validation)) :
      SyncEffect engine s (.decide requestId approverId decision comment) { s with validation }

theorem syncEffect_step (engine : SynchronizationEngine) (s : SyncState) (a : SyncAction) :
    SyncEffect engine s a (engine.step s a) := by
  cases a with
  | tick duration => exact .tick duration
  | change record => exact .change record
  | start => exact .start
  | read i =>
    simp only [SynchronizationEngine.step]
    split
    · split
      · exact .read i _ ‹_› ‹_›
      · exact .idle _
    · exact .idle _
  | readRaises i e =>
    simp only [SynchronizationEngine.step]
    split
    · split
      · exact .readRaises i _ e ‹_› ‹_›
      · exact .idle _
    · exact .idle _
  | process i ports =>
    simp only [SynchronizationEngine.step]
    split
    · split
      · unfold SynchronizationEngine.process
        split
        · exact .processRaises i _ ports _ _ ‹_› ‹_› ‹_›
        · exact .processReturns i _ ports _ _ ‹_› ‹_› ‹_›
      · exact .idle _
    · exact .idle _
  | decide requestId approverId decision comment =>
    simp only [SynchronizationEngine.step]
    split
    · exact .decide requestId approverId decision comment _ _ ‹_›
    · exact .idle _

end Tmis.IntegrationHub
