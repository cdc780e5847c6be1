import Mathlib.Data.List.Sort
import Tmis.Lib.Dict
import Tmis.Lib.WorkerPool

/-!
# Asynchronous processing

`AsyncProcessingEngine`: the queue shape of the other two with a time before which a job is not run,
a growing delay between attempts, and a dead letter queue for jobs whose attempts are used up.

* `AsyncJob`, `AsyncProcessingEngine` — the jobs, and the engine with its store;
* `get_update`, `get_checkTimeouts`, `dequeueReady_ready` — the jobs after a call, and the one
  selected;
* `calls` — the engine as workers, a canceller and a sweeper see it.
-/

namespace Tmis.RuntimePlatform

open Tmis.Lib

inductive AsyncJobStatus where
  | scheduled | pending | running | done | retrying | failed | deadLettered | cancelled | timedOut
  deriving DecidableEq

structure AsyncJob where
  id : Uuid
  queueName : String
  priority : ℤ := 0
  status : AsyncJobStatus := .pending
  attempts : ℕ := 0
  maxAttempts : ℕ := 3
  timeoutSeconds : ℚ := 30
  runAt : Option ℚ := none
  createdAt : ℚ
  startedAt : Option ℚ := none
  completedAt : Option ℚ := none
  error : Option String := none
  deadLetterReason : Option String := none

namespace AsyncJob

/-- The job may be handed out at the time `now`. -/
def Ready (job : AsyncJob) (now : ℚ) : Prop :=
  job.status = .pending ∨ job.status = .retrying ∨
    (job.status = .scheduled ∧ ∃ runAt ∈ job.runAt, runAt ≤ now)

instance (job : AsyncJob) (now : ℚ) : Decidable (job.Ready now) := by
  unfold Ready; infer_instance

/-- The order of selection: the higher priority first, then the older job. -/
def before (a b : AsyncJob) : Prop :=
  b.priority < a.priority ∨ (a.priority = b.priority ∧ a.createdAt ≤ b.createdAt)

instance : DecidableRel before := fun a b => by unfold before; infer_instance

/-- The job after a failed attempt. -/
def failed (job : AsyncJob) (baseDelaySeconds : ℚ) (error : String) (now : ℚ) : AsyncJob :=
  if job.attempts < job.maxAttempts then
    { job with
      error := some error
      status := .retrying
      runAt := some (now + baseDelaySeconds * 2 ^ job.attempts) }
  else
    { job with
      error := some error
      status := .deadLettered
      deadLetterReason := some error
      completedAt := some now }

/-- The job runs for longer than it may. -/
def Overdue (job : AsyncJob) (now : ℚ) : Prop :=
  job.status = .running ∧ ∃ startedAt ∈ job.startedAt, job.timeoutSeconds < now - startedAt

instance (job : AsyncJob) (now : ℚ) : Decidable (job.Overdue now) := by
  unfold Overdue; infer_instance

/-- The job after a sweep. -/
def swept (job : AsyncJob) (baseDelaySeconds now : ℚ) : AsyncJob :=
  if job.Overdue now then
    let job := job.failed baseDelaySeconds
      ("timed out after " ++ tenths job.timeoutSeconds ++ "s") now
    if job.status = .deadLettered then { job with deadLetterReason := some "timeout" } else job
  else job

@[simp] lemma failed_id (job : AsyncJob) (baseDelaySeconds : ℚ) (error : String) (now : ℚ) :
    (job.failed baseDelaySeconds error now).id = job.id := by
  unfold failed
  split <;> rfl

@[simp] lemma swept_id (job : AsyncJob) (baseDelaySeconds now : ℚ) :
    (job.swept baseDelaySeconds now).id = job.id := by
  unfold swept
  dsimp only
  split_ifs <;> simp

lemma failed_status (job : AsyncJob) (baseDelaySeconds : ℚ) (error : String) (now : ℚ) :
    (job.failed baseDelaySeconds error now).status =
      if job.attempts < job.maxAttempts then .retrying else .deadLettered := by
  unfold failed
  split <;> rfl

lemma swept_status (job : AsyncJob) (baseDelaySeconds now : ℚ) :
    (job.swept baseDelaySeconds now).status =
      if job.Overdue now then (if job.attempts < job.maxAttempts then .retrying else .deadLettered)
      else job.status := by
  unfold swept
  dsimp only
  split_ifs <;> simp_all [failed_status]

end AsyncJob

/-- The engine with its in-memory store: every job stands under its identifier. -/
structure AsyncProcessingEngine where
  jobs : Dict Uuid AsyncJob := ∅
  baseDelaySeconds : ℚ := 1 / 2
  keyed : ∀ k x, jobs.get k = some x → x.id = k := by intro _ _ h; cases h

namespace AsyncProcessingEngine

def get (engine : AsyncProcessingEngine) (jobId : Uuid) : Option AsyncJob := engine.jobs.get jobId

def all (engine : AsyncProcessingEngine) : List AsyncJob := engine.jobs.values

/-- `save` of the store. -/
def save (engine : AsyncProcessingEngine) (job : AsyncJob) : AsyncProcessingEngine where
  jobs := engine.jobs.set job.id job
  baseDelaySeconds := engine.baseDelaySeconds
  keyed k x h := by
    rw [Dict.get_set] at h
    split at h
    · cases h
      exact Eq.symm ‹_›
    · exact engine.keyed k x h

def enqueue (engine : AsyncProcessingEngine) (job : AsyncJob) (delaySeconds now : ℚ) :
    AsyncProcessingEngine :=
  if 0 < delaySeconds then
    engine.save { job with runAt := some (now + delaySeconds), status := .scheduled }
  else engine.save job

/-- The first ready job in the order of selection; the sort is stable. -/
def dequeueReady (engine : AsyncProcessingEngine) (now : ℚ) : Option AsyncJob :=
  ((engine.all.filter fun job => job.Ready now).insertionSort AsyncJob.before).head?

/-- `_require`, a change of the job, and `save`. -/
def update (engine : AsyncProcessingEngine) (jobId : Uuid) (f : AsyncJob → AsyncJob) :
    Except PyException AsyncProcessingEngine :=
  match engine.get jobId with
  | none => .error (keyError (toString jobId))
  | some job => .ok (engine.save (f job))

def markRunning (engine : AsyncProcessingEngine) (jobId : Uuid) (now : ℚ) :
    Except PyException AsyncProcessingEngine :=
  engine.update jobId fun job => { job with
    status := .running, attempts := job.attempts + 1, startedAt := some now }

def markDone (engine : AsyncProcessingEngine) (jobId : Uuid) (now : ℚ) :
    Except PyException AsyncProcessingEngine :=
  engine.update jobId fun job => { job with status := .done, completedAt := some now }

def markFailed (engine : AsyncProcessingEngine) (jobId : Uuid) (error : String) (now : ℚ) :
    Except PyException AsyncProcessingEngine :=
  engine.update jobId fun job => job.failed engine.baseDelaySeconds error now

def cancel (engine : AsyncProcessingEngine) (jobId : Uuid) (now : ℚ) :
    Except PyException AsyncProcessingEngine :=
  engine.update jobId fun job => { job with status := .cancelled, completedAt := some now }

/-- The sweep: the jobs it timed out, and the engine. -/
def checkTimeouts (engine : AsyncProcessingEngine) (now : ℚ) :
    List AsyncJob × AsyncProcessingEngine :=
  ((engine.all.filter fun job => job.Overdue now).map (·.swept engine.baseDelaySeconds now),
    { jobs := engine.jobs.map fun _ job => job.swept engine.baseDelaySeconds now
      baseDelaySeconds := engine.baseDelaySeconds
      keyed := fun k x h => by
        rw [Dict.get_map] at h
        obtain ⟨y, hy, rfl⟩ := Option.map_eq_some_iff.mp h
        rw [AsyncJob.swept_id, engine.keyed k y hy] })

def deadLetters (engine : AsyncProcessingEngine) (queueName : Option String) : List AsyncJob :=
  (engine.all.filter fun job => job.status = .deadLettered).filter fun job =>
    ∀ name ∈ queueName, job.queueName = name

/-! ### The jobs after a call -/

lemma get_save (engine : AsyncProcessingEngine) (job : AsyncJob) (id : Uuid) :
    (engine.save job).get id = if id = job.id then some job else engine.get id :=
  Dict.get_set ..

/-- **The jobs after a mark.** -/
theorem get_update {engine : AsyncProcessingEngine} {jobId : Uuid} {f : AsyncJob → AsyncJob}
    (hf : ∀ x, (f x).id = x.id) (id : Uuid) : (afterCall engine (engine.update jobId f)).get id =
      if id = jobId then (engine.get id).map f else engine.get id := by
  unfold update
  cases hget : engine.get jobId with
  | none =>
    by_cases h : id = jobId
    · subst h
      simp [afterCall, hget]
    · simp [afterCall, h]
  | some job =>
    have hid := engine.keyed jobId job hget
    simp only [afterCall, get_save, hf, hid]
    split
    · subst id
      rw [hget]
      rfl
    · rfl

lemma get_checkTimeouts (engine : AsyncProcessingEngine) (now : ℚ) (id : Uuid) :
    (engine.checkTimeouts now).2.get id =
      (engine.get id).map (·.swept engine.baseDelaySeconds now) :=
  Dict.get_map ..

/-- **What is selected** is stored, and ready. -/
theorem dequeueReady_ready {engine : AsyncProcessingEngine} {now : ℚ} {job : AsyncJob}
    (h : engine.dequeueReady now = some job) : engine.get job.id = some job ∧ job.Ready now := by
  have hmem := List.mem_of_mem_head? (Option.mem_def.mpr h)
  rw [List.mem_insertionSort, List.mem_filter] at hmem
  obtain ⟨k, hk⟩ := Dict.mem_values_iff.mp hmem.1
  obtain rfl := engine.keyed k job hk
  exact ⟨hk, by simpa using hmem.2⟩

/-! ### The engine as its users see it -/

/-- What a caller says of a new job, and when. -/
structure NewJob where
  queueName : String
  now : ℚ
  delaySeconds : ℚ := 0
  priority : ℤ := 0
  maxAttempts : ℕ := 3
  timeoutSeconds : ℚ := 30

def NewJob.job (new : NewJob) (id : Uuid) : AsyncJob :=
  { id, queueName := new.queueName, priority := new.priority, maxAttempts := new.maxAttempts,
    timeoutSeconds := new.timeoutSeconds, createdAt := new.now }

/-- Where a job of the status stands: a scheduled one waits to be run. -/
def statusStage : AsyncJobStatus → Stage
  | .scheduled | .pending | .retrying => .runnable
  | .running => .running
  | .done | .failed | .deadLettered | .cancelled | .timedOut => .ended

def stage (engine : AsyncProcessingEngine) (id : Uuid) : Option Stage :=
  (engine.get id).map fun job => statusStage job.status

lemma stage_update {engine : AsyncProcessingEngine} {jobId : Uuid} {f : AsyncJob → AsyncJob}
    (hf : ∀ x, (f x).id = x.id) (id : Uuid) : (afterCall engine (engine.update jobId f)).stage id =
      if id = jobId then ((engine.get id).map f).map fun job => statusStage job.status
      else engine.stage id := by
  rw [stage, get_update hf]
  split <;> rfl

/-- **The engine as its users see it.** -/
def calls : QueueCalls AsyncProcessingEngine NewJob Unit where
  enqueue engine id new := engine.enqueue (new.job id) new.delaySeconds new.now
  dequeue engine now := (engine.dequeueReady now).map (·.id)
  markRunning engine id now := afterCall engine (engine.markRunning id now)
  markDone engine id _ now := afterCall engine (engine.markDone id now)
  markFailed engine id error now := afterCall engine (engine.markFailed id error now)
  cancel engine id now := afterCall engine (engine.cancel id now)
  sweep engine now := (engine.checkTimeouts now).2
  stage := stage
  retries engine id := (engine.get id).any fun job => job.attempts < job.maxAttempts
  overdue engine id now := (engine.get id).any fun job => job.Overdue now
  stage_enqueue engine id new j := by
    simp only [stage, enqueue, NewJob.job]
    split <;> rw [get_save] <;> split <;> rfl
  stage_dequeue engine now id h := by
    obtain ⟨job, hjob, rfl⟩ := Option.map_eq_some_iff.mp h
    obtain ⟨hget, hready⟩ := dequeueReady_ready hjob
    rw [stage, hget, Option.map_some]
    rcases hready with h | h | ⟨h, -⟩ <;> rw [h] <;> rfl
  stage_markRunning engine id now j := by
    rw [markRunning, stage_update, Option.map_map]
    · simp only [stage, Option.map_map]
      rfl
    · exact fun _ => rfl
  stage_markDone engine id _ now j := by
    rw [markDone, stage_update, Option.map_map]
    · simp only [stage, Option.map_map]
      rfl
    · exact fun _ => rfl
  stage_markFailed engine id error now j := by
    rw [markFailed, stage_update fun job => job.failed_id _ error now]
    cases hget : engine.get j with
    | none => simp [stage, hget]
    | some job =>
      by_cases h : job.attempts < job.maxAttempts <;>
        simp [stage, hget, AsyncJob.failed_status, h, statusStage]
  stage_cancel engine id now j := by
    rw [cancel, stage_update, Option.map_map]
    · simp only [stage, Option.map_map]
      rfl
    · exact fun _ => rfl
  stage_sweep engine now j := by
    simp only [stage, get_checkTimeouts]
    cases hget : engine.get j with
    | none => simp
    | some job =>
      by_cases h : job.Overdue now <;> by_cases h' : job.attempts < job.maxAttempts <;>
        simp [AsyncJob.swept_status, h, h', statusStage]

end AsyncProcessingEngine

end Tmis.RuntimePlatform
