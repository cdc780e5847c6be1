import Tmis.Lib.Calls
import Tmis.Lib.Dict
import Tmis.Lib.Run

/-!
# The runtime orchestrator

`runtime_platform.runtime_orchestrator`: long-running tasks under one limit on how many run at once.  A
`run` is cut where it awaits the semaphore and where it awaits its runner; other calls go on meanwhile.
Tasks are objects: a run holds the task it found, whatever is submitted under the same id since.

* `RuntimeTask`, `Run`, `RuntimeOrchestrator` — the tasks, the runs on their way, and the engine;
* `beginRun`, `enter`, `finish`, `cancel`, `resume`, `saveCheckpoint` — the calls, cut where they await;
* `Op`, `step` — what may happen next;
* `RunsEffect`, `runsEffect_step` — what a step does to the runs on their way;
* `TasksEffect`, `tasksEffect_step` — what a step does to the tasks.
-/

namespace Tmis.RuntimePlatform

open Tmis.Lib

inductive RuntimeTaskStatus where
  | pending | running | done | failed | cancelled
  deriving DecidableEq

structure RuntimeTask where
  id : String
  status : RuntimeTaskStatus := .pending
  checkpoint : ℤ := 0
  startedAt : Option ℚ := none
  completedAt : Option ℚ := none
  error : Option String := none
  deriving DecidableEq

/-- What a runner comes to; an interrupt is neither a failure nor a cancellation. -/
inductive Outcome where
  | returned
  | raised (error : String)
  | cancelled
  | interrupted
  deriving DecidableEq

/-- Where a run is: before the semaphore, at its runner, or after it. -/
inductive Stage where
  | waiting | inFlight
  | ended (outcome : Outcome)
  deriving DecidableEq

/-- A call of `run` with the task it has found, and how often its runner was told to stop. -/
structure Run where
  taskId : String
  task : ℕ
  stage : Stage := .waiting
  cancelRequests : ℕ := 0
  deriving DecidableEq

/-- The engine: the tasks there are, the store, the permits of the semaphore that are left, the runs on
their way, and the run that is registered for a task.  `invoked` and `withdrawn` are the tasks whose
runners were invoked, and those that were cancelled before. -/
structure RuntimeOrchestrator where
  objects : List RuntimeTask := []
  store : Dict String ℕ := ∅
  permits : ℕ := 4
  running : Dict String ℕ := ∅
  runs : Dict ℕ Run := ∅
  invoked : List ℕ := []
  withdrawn : List ℕ := []

namespace RuntimeOrchestrator

/-- `store.save` of a task that there is. -/
def save (o : RuntimeOrchestrator) (task : ℕ) : RuntimeOrchestrator :=
  match o.objects[task]? with
  | some object => { o with store := o.store.set object.id task }
  | none => o

/-- A task with fields assigned to. -/
def assign (o : RuntimeOrchestrator) (task : ℕ) (f : RuntimeTask → RuntimeTask) : RuntimeOrchestrator :=
  { o with objects := o.objects.modify task f }

/-- `store.get`, or a `KeyError`. -/
def require (o : RuntimeOrchestrator) (taskId : String) : Except PyException ℕ :=
  match o.store.get taskId with
  | some task => .ok task
  | none => .error (keyError taskId)

/-- `run` up to the semaphore. -/
def beginRun (o : RuntimeOrchestrator) (r : ℕ) (taskId : String) :
    Except PyException RuntimeOrchestrator := do
  let task ← o.require taskId
  return { o with runs := o.runs.set r { taskId, task } }

/-- `run` from the semaphore to its runner, which is invoked. -/
def enter (o : RuntimeOrchestrator) (r : ℕ) (run : Run) (now : ℚ) : RuntimeOrchestrator :=
  let o := (o.assign run.task fun task =>
    { task with status := .running, startedAt := some now }).save run.task
  { o with
    permits := o.permits - 1
    running := o.running.set run.taskId r
    runs := o.runs.set r { run with stage := .inFlight }
    invoked := o.invoked ++ [run.task] }

/-- The task after its runner came to the outcome. -/
def settle (outcome : Outcome) (now : ℚ) (task : RuntimeTask) : RuntimeTask :=
  match outcome with
  | .returned => { task with status := .done, completedAt := some now }
  | .raised error => { task with status := .failed, error := some error, completedAt := some now }
  | .cancelled => { task with status := .cancelled, completedAt := some now }
  | .interrupted => task

/-- `run` from its runner to its end. -/
def finish (o : RuntimeOrchestrator) (r : ℕ) (run : Run) (outcome : Outcome) (now : ℚ) :
    RuntimeOrchestrator :=
  let o := { o.assign run.task (settle outcome now) with running := o.running.pop run.taskId }
  let o := o.save run.task
  { o with permits := o.permits + 1, runs := o.runs.pop r }

/-- `asyncio.Task.cancel` of the runner of a run; one that has ended takes no notice. -/
def requestCancel (o : RuntimeOrchestrator) (r : ℕ) : RuntimeOrchestrator :=
  match o.runs.get r with
  | some run =>
      if run.stage = .inFlight then
        { o with runs := o.runs.set r { run with cancelRequests := run.cancelRequests + 1 } }
      else o
  | none => o

/-- `cancel`: whether there was something to cancel, and the engine. -/
def cancel (o : RuntimeOrchestrator) (taskId : String) (now : ℚ) : Bool × RuntimeOrchestrator :=
  match o.running.get taskId with
  | some r => (true, o.requestCancel r)
  | none =>
      match o.store.get taskId with
      | none => (false, o)
      | some task =>
          if (o.objects[task]?).any (·.status = .pending) then
            let withdrawn := if task ∈ o.invoked then o.withdrawn else o.withdrawn ++ [task]
            let o := (o.assign task fun task =>
              { task with status := .cancelled, completedAt := some now }).save task
            (true, { o with withdrawn })
          else (false, o)

/-- `checkpoint`. -/
def saveCheckpoint (o : RuntimeOrchestrator) (taskId : String) (progress : ℤ) :
    Except PyException RuntimeOrchestrator := do
  let task ← o.require taskId
  return (o.assign task fun task => { task with checkpoint := progress }).save task

/-- `resume` up to the semaphore. -/
def resume (o : RuntimeOrchestrator) (r : ℕ) (taskId : String) :
    Except PyException RuntimeOrchestrator := do
  let task ← o.require taskId
  ((o.assign task fun task => { task with status := .pending }).save task).beginRun r taskId

/-- What may happen: `r` is the run it happens to. -/
inductive Op where
  | newTask (id : String) (checkpoint : ℤ)
  | submit (task : ℕ)
  | run (r : ℕ) (taskId : String)
  | resume (r : ℕ) (taskId : String)
  | enter (r : ℕ) (now : ℚ)
  | runnerEnds (r : ℕ) (outcome : Outcome)
  | finish (r : ℕ) (now : ℚ)
  | abandon (r : ℕ)
  | cancel (taskId : String) (now : ℚ)
  | checkpoint (taskId : String) (progress : ℤ)

/-- What happens next.  A run whose number is taken is not begun, and one that is not at the point where
it may go on does nothing.  A run that its caller abandons leaves the semaphore, or stops its runner, or
takes a runner that has ended for a cancelled one. -/
def step (o : RuntimeOrchestrator) : Op → RuntimeOrchestrator
  | .newTask id checkpoint => { o with objects := o.objects ++ [{ id, checkpoint }] }
  | .submit task => o.save task
  | .run r taskId => if o.runs.contains r then o else afterCall o (o.beginRun r taskId)
  | .resume r taskId => if o.runs.contains r then o else afterCall o (o.resume r taskId)
  | .enter r now =>
      match o.runs.get r with
      | some run => if run.stage = .waiting ∧ 0 < o.permits then o.enter r run now else o
      | none => o
  | .runnerEnds r outcome =>
      match o.runs.get r with
      | some run =>
          if run.stage = .inFlight then
            { o with runs := o.runs.set r { run with stage := .ended outcome } }
          else o
      | none => o
  | .finish r now =>
      match o.runs.get r with
      | some run =>
          match run.stage with
          | .ended outcome => o.finish r run outcome now
          | _ => o
      | none => o
  | .abandon r =>
      match o.runs.get r with
      | some run =>
          match run.stage with
          | .waiting => { o with runs := o.runs.pop r }
          | .inFlight => o.requestCancel r
          | .ended _ => { o with runs := o.runs.set r { run with stage := .ended .cancelled } }
      | none => o
  | .cancel taskId now => (o.cancel taskId now).2
  | .checkpoint taskId progress => afterCall o (o.saveCheckpoint taskId progress)

/-! ### What a save leaves as it is -/

section Save

variable (o : RuntimeOrchestrator) (task : ℕ)

@[simp] lemma save_objects : (o.save task).objects = o.objects := by unfold save; split <;> rfl

@[simp] lemma save_permits : (o.save task).permits = o.permits := by unfold save; split <;> rfl

@[simp] lemma save_running : (o.save task).running = o.running := by unfold save; split <;> rfl

@[simp] lemma save_runs : (o.save task).runs = o.runs := by unfold save; split <;> rfl

@[simp] lemma save_invoked : (o.save task).invoked = o.invoked := by unfold save; split <;> rfl

@[simp] lemma save_withdrawn : (o.save task).withdrawn = o.withdrawn := by unfold save; split <;> rfl

/-- A task in the store after a save was there before, or is one of the tasks there are. -/
lemma get_store_save {id : String} {found : ℕ} (h : (o.save task).store.get id = some found) :
    o.store.get id = some found ∨ found < o.objects.length := by
  unfold save at h
  split at h
  · rename_i object hobject
    dsimp only at h
    rw [Dict.get_set] at h
    split at h
    · exact Or.inr (Option.some.inj h ▸ (List.getElem?_eq_some_iff.mp hobject).1)
    · exact Or.inl h
  · exact Or.inl h

end Save

@[simp] lemma assign_objects (o : RuntimeOrchestrator) (task : ℕ) (f : RuntimeTask → RuntimeTask) :
    (o.assign task f).objects = o.objects.modify task f := rfl

/-! ### What a step does -/

section Effects

variable {o o' : RuntimeOrchestrator}

lemma require_eq_ok {taskId : String} {task : ℕ} :
    o.require taskId = .ok task ↔ o.store.get taskId = some task := by
  unfold require
  split <;> simp_all

lemma beginRun_eq_ok {r : ℕ} {taskId : String} : o.beginRun r taskId = .ok o' ↔
    ∃ task, o.store.get taskId = some task ∧ o' = { o with runs := o.runs.set r { taskId, task } } := by
  simp only [beginRun, bind_eq_ok, require_eq_ok, pure_eq_ok, eq_comm (a := o')]

lemma saveCheckpoint_eq_ok {taskId : String} {progress : ℤ} : o.saveCheckpoint taskId progress = .ok o' ↔
    ∃ task, o.store.get taskId = some task ∧
      o' = (o.assign task fun task => { task with checkpoint := progress }).save task := by
  simp only [saveCheckpoint, bind_eq_ok, require_eq_ok, pure_eq_ok, eq_comm (a := o')]

lemma resume_eq_ok {r : ℕ} {taskId : String} : o.resume r taskId = .ok o' ↔
    ∃ task, o.store.get taskId = some task ∧
      ((o.assign task fun task => { task with status := .pending }).save task).beginRun r taskId =
        .ok o' := by
  simp only [resume, bind_eq_ok, require_eq_ok]

/-- What a step does to the runs on their way, with the permits and the registry. -/
inductive RunsEffect (o : RuntimeOrchestrator) : Op → RuntimeOrchestrator → Prop
  | same (op : Op) (o' : RuntimeOrchestrator) (hpermits : o'.permits = o.permits)
      (hrunning : o'.running = o.running) (hruns : o'.runs = o.runs) : RunsEffect o op o'
  | begins (op : Op) (o' : RuntimeOrchestrator) (r : ℕ) (run : Run) (hfree : o.runs.get r = none)
      (hstage : run.stage = .waiting) (hfound : o'.store.get run.taskId = some run.task)
      (hpermits : o'.permits = o.permits)
      (hrunning : o'.running = o.running) (hruns : o'.runs = o.runs.set r run) : RunsEffect o op o'
  | enters (r : ℕ) (now : ℚ) (o' : RuntimeOrchestrator) (run : Run) (hget : o.runs.get r = some run)
      (hstage : run.stage = .waiting) (hpermit : 0 < o.permits) (hpermits : o'.permits = o.permits - 1)
      (hrunning : o'.running = o.running.set run.taskId r)
      (hruns : o'.runs = o.runs.set r { run with stage := .inFlight })
      (hinvoked : run.task ∈ o'.invoked) : RunsEffect o (.enter r now) o'
  | goesOn (op : Op) (o' : RuntimeOrchestrator) (r : ℕ) (run run' : Run) (hget : o.runs.get r = some run)
      (hstage : run.stage ≠ .waiting) (htaskId : run'.taskId = run.taskId) (htask : run'.task = run.task)
      (hstage' : run'.stage ≠ .waiting) (hinFlight : run'.stage = .inFlight → run.stage = .inFlight)
      (hpermits : o'.permits = o.permits) (hrunning : o'.running = o.running)
      (hruns : o'.runs = o.runs.set r run') : RunsEffect o op o'
  | finishes (op : Op) (o' : RuntimeOrchestrator) (r : ℕ) (run : Run) (outcome : Outcome)
      (hget : o.runs.get r = some run) (hstage : run.stage = .ended outcome)
      (hpermits : o'.permits = o.permits + 1) (hrunning : o'.running = o.running.pop run.taskId)
      (hruns : o'.runs = o.runs.pop r) : RunsEffect o op o'
  | leaves (op : Op) (o' : RuntimeOrchestrator) (r : ℕ) (run : Run) (hget : o.runs.get r = some run)
      (hstage : run.stage = .waiting) (hpermits : o'.permits = o.permits)
      (hrunning : o'.running = o.running) (hruns : o'.runs = o.runs.pop r) : RunsEffect o op o'

/-- A runner that is told to stop goes on until it ends. -/
lemma runsEffect_requestCancel (op : Op) (r : ℕ) : RunsEffect o op (o.requestCancel r) := by
  unfold requestCancel
  split
  · rename_i run hget
    split
    · rename_i hstage
      refine .goesOn op _ r run { run with cancelRequests := run.cancelRequests + 1 } hget ?_ rfl rfl ?_
        (fun _ => hstage) rfl rfl rfl
      · simp [hstage]
      · simp [hstage]
    · exact .same op _ rfl rfl rfl
  · exact .same op _ rfl rfl rfl

/-- A call that returns the engine as it is but for the runs and the tasks. -/
lemma runsEffect_beginRun {op : Op} {r : ℕ} {taskId : String} (hfree : o.runs.get r = none)
    (hpermits : o'.permits = o.permits) (hrunning : o'.running = o.running) (hruns : o'.runs = o.runs)
    {o'' : RuntimeOrchestrator} (h : o'.beginRun r taskId = .ok o'') : RunsEffect o op o'' := by
  obtain ⟨task, hget, rfl⟩ := beginRun_eq_ok.mp h
  exact .begins op _ r { taskId, task } hfree rfl hget hpermits hrunning (congrArg (Dict.set · r _) hruns)

theorem runsEffect_step (o : RuntimeOrchestrator) (op : Op) : RunsEffect o op (o.step op) := by
  cases op with
  | newTask id checkpoint => exact .same _ _ rfl rfl rfl
  | submit task => exact .same _ _ (by simp [step]) (by simp [step]) (by simp [step])
  | run r taskId =>
    unfold step
    dsimp only
    split
    · exact .same _ _ rfl rfl rfl
    · rename_i hfree
      rcases afterCall_cases o (o.beginRun r taskId) with hok | ⟨-, hsame⟩
      · exact runsEffect_beginRun (Option.not_isSome_iff_eq_none.mp hfree) rfl rfl rfl hok
      · rw [hsame]
        exact .same _ _ rfl rfl rfl
  | resume r taskId =>
    unfold step
    dsimp only
    split
    · exact .same _ _ rfl rfl rfl
    · rename_i hfree
      rcases afterCall_cases o (o.resume r taskId) with hok | ⟨-, hsame⟩
      · obtain ⟨task, -, hbegin⟩ := resume_eq_ok.mp hok
        exact runsEffect_beginRun (Option.not_isSome_iff_eq_none.mp hfree) (by simp [assign]) (by simp [assign])
          (by simp [assign]) hbegin
      · rw [hsame]
        exact .same _ _ rfl rfl rfl
  | enter r now =>
    unfold step
    dsimp only
    split
    · rename_i run hget
      split
      · rename_i hwaits
        exact .enters r now _ run hget hwaits.1 hwaits.2 (by simp [enter, assign]) (by simp [enter, assign])
          (by simp [enter, assign]) (by simp [enter])
      · exact .same _ _ rfl rfl rfl
    · exact .same _ _ rfl rfl rfl
  | runnerEnds r outcome =>
    unfold step
    dsimp only
    split
    · rename_i run hget
      split
      · rename_i hstage
        refine .goesOn _ _ r run { run with stage := .ended outcome } hget ?_ rfl rfl ?_ (fun _ => hstage)
          rfl rfl rfl
        · simp [hstage]
        · simp
      · exact .same _ _ rfl rfl rfl
    · exact .same _ _ rfl rfl rfl
  | finish r now =>
    unfold step
    dsimp only
    split
    · rename_i run hget
      split
      · rename_i outcome hstage
        exact .finishes _ _ r run outcome hget hstage (by simp [finish, assign]) (by simp [finish, assign])
          (by simp [finish, assign])
      · exact .same _ _ rfl rfl rfl
    · exact .same _ _ rfl rfl rfl
  | abandon r =>
    unfold step
    dsimp only
    split
    · rename_i run hget
      split
      · rename_i hstage
        exact .leaves _ _ r run hget hstage rfl rfl rfl
      · exact runsEffect_requestCancel _ r
      · rename_i outcome hstage
        refine .goesOn _ _ r run { run with stage := .ended .cancelled } hget ?_ rfl rfl ?_ ?_ rfl rfl rfl
        · simp [hstage]
        · simp
        · simp
    · exact .same _ _ rfl rfl rfl
  | cancel taskId now =>
    unfold step cancel
    dsimp only
    split
    · exact runsEffect_requestCancel _ _
    · split
      · exact .same _ _ rfl rfl rfl
      · split
        · exact .same _ _ (by simp [assign]) (by simp [assign]) (by simp [assign])
        · exact .same _ _ rfl rfl rfl
  | checkpoint taskId progress =>
    unfold step
    dsimp only
    rcases afterCall_cases o (o.saveCheckpoint taskId progress) with hok | ⟨-, hsame⟩
    · obtain ⟨task, -, hsaved⟩ := saveCheckpoint_eq_ok.mp hok
      rw [hsaved]
      exact .same _ _ (by simp [assign]) (by simp [assign]) (by simp [assign])
    · rw [hsame]
      exact .same _ _ rfl rfl rfl

/-- A task in the store after a step was there before, or is one of the tasks there are. -/
def StoreKept (o o' : RuntimeOrchestrator) : Prop :=
  ∀ id task, o'.store.get id = some task → o.store.get id = some task ∨ task < o'.objects.length

lemma storeKept_of_eq (h : o'.store = o.store) : StoreKept o o' := fun id task hget => by
  rw [h] at hget
  exact Or.inl hget

lemma storeKept_save (p : RuntimeOrchestrator) (task : ℕ) (hp : p.store = o.store)
    (hstore : o'.store = (p.save task).store) (hobjects : o'.objects = (p.save task).objects) :
    StoreKept o o' := by
  intro id found hget
  rw [hstore] at hget
  rw [hobjects, save_objects, ← hp]
  exact get_store_save p task hget

/-- What a step does to the tasks, and which runners it invokes or withdraws. -/
inductive TasksEffect (o : RuntimeOrchestrator) : Op → RuntimeOrchestrator → Prop
  | same (op : Op) (o' : RuntimeOrchestrator) (hobjects : o'.objects = o.objects)
      (hinvoked : o'.invoked = o.invoked) (hwithdrawn : o'.withdrawn = o.withdrawn)
      (hstore : StoreKept o o') : TasksEffect o op o'
  | creates (op : Op) (o' : RuntimeOrchestrator) (id : String) (checkpoint : ℤ)
      (hobjects : o'.objects = o.objects ++ [({ id, checkpoint } : RuntimeTask)])
      (hinvoked : o'.invoked = o.invoked) (hwithdrawn : o'.withdrawn = o.withdrawn)
      (hstore : StoreKept o o') : TasksEffect o op o'
  | starts (r : ℕ) (now : ℚ) (o' : RuntimeOrchestrator) (run : Run) (hget : o.runs.get r = some run)
      (hstage : run.stage = .waiting) (hpermit : 0 < o.permits)
      (hobjects : o'.objects = o.objects.modify run.task fun task =>
        { task with status := .running, startedAt := some now })
      (hinvoked : o'.invoked = o.invoked ++ [run.task]) (hwithdrawn : o'.withdrawn = o.withdrawn)
      (hstore : StoreKept o o') : TasksEffect o (.enter r now) o'
  | settles (op : Op) (o' : RuntimeOrchestrator) (r : ℕ) (run : Run) (outcome : Outcome) (now : ℚ)
      (hget : o.runs.get r = some run) (hstage : run.stage = .ended outcome)
      (hobjects : o'.objects = o.objects.modify run.task (settle outcome now))
      (hinvoked : o'.invoked = o.invoked) (hwithdrawn : o'.withdrawn = o.withdrawn)
      (hstore : StoreKept o o') : TasksEffect o op o'
  | withdraws (op : Op) (o' : RuntimeOrchestrator) (task : ℕ) (object : RuntimeTask) (now : ℚ)
      (hobject : o.objects[task]? = some object) (hpending : object.status = .pending)
      (hobjects : o'.objects = o.objects.modify task fun task =>
        { task with status := .cancelled, completedAt := some now })
      (hinvoked : o'.invoked = o.invoked)
      (hwithdrawn : o'.withdrawn = if task ∈ o.invoked then o.withdrawn else o.withdrawn ++ [task])
      (hstore : StoreKept o o') : TasksEffect o op o'
  | checkpoints (op : Op) (o' : RuntimeOrchestrator) (task : ℕ) (progress : ℤ)
      (hobjects : o'.objects = o.objects.modify task fun task => { task with checkpoint := progress })
      (hinvoked : o'.invoked = o.invoked) (hwithdrawn : o'.withdrawn = o.withdrawn)
      (hstore : StoreKept o o') : TasksEffect o op o'
  | resumes (r : ℕ) (taskId : String) (o' : RuntimeOrchestrator) (task : ℕ)
      (hobjects : o'.objects = o.objects.modify task fun task => { task with status := .pending })
      (hinvoked : o'.invoked = o.invoked) (hwithdrawn : o'.withdrawn = o.withdrawn)
      (hstore : StoreKept o o') : TasksEffect o (.resume r taskId) o'

lemma tasksEffect_requestCancel (op : Op) (r : ℕ) : TasksEffect o op (o.requestCancel r) := by
  unfold requestCancel
  split
  · split <;> exact .same op _ rfl rfl rfl (storeKept_of_eq rfl)
  · exact .same op _ rfl rfl rfl (storeKept_of_eq rfl)

theorem tasksEffect_step (o : RuntimeOrchestrator) (op : Op) : TasksEffect o op (o.step op) := by
  cases op with
  | newTask id checkpoint => exact .creates _ _ id checkpoint rfl rfl rfl (storeKept_of_eq rfl)
  | submit task =>
    exact .same _ _ (by simp [step]) (by simp [step]) (by simp [step]) (storeKept_save o task rfl rfl rfl)
  | run r taskId =>
    unfold step
    dsimp only
    split
    · exact .same _ _ rfl rfl rfl (storeKept_of_eq rfl)
    · rcases afterCall_cases o (o.beginRun r taskId) with hok | ⟨-, hsame⟩
      · obtain ⟨task, -, hbegun⟩ := beginRun_eq_ok.mp hok
        rw [hbegun]
        exact .same _ _ rfl rfl rfl (storeKept_of_eq rfl)
      · rw [hsame]
        exact .same _ _ rfl rfl rfl (storeKept_of_eq rfl)
  | resume r taskId =>
    unfold step
    dsimp only
    split
    · exact .same _ _ rfl rfl rfl (storeKept_of_eq rfl)
    · rcases afterCall_cases o (o.resume r taskId) with hok | ⟨-, hsame⟩
      · obtain ⟨task, -, hbegin⟩ := resume_eq_ok.mp hok
        obtain ⟨found, -, hbegun⟩ := beginRun_eq_ok.mp hbegin
        rw [hbegun]
        exact .resumes r taskId _ task (by simp) (by simp [assign]) (by simp [assign])
          (storeKept_save (o.assign task fun task => { task with status := .pending }) task rfl rfl rfl)
      · rw [hsame]
        exact .same _ _ rfl rfl rfl (storeKept_of_eq rfl)
  | enter r now =>
    unfold step
    dsimp only
    split
    · rename_i run hget
      split
      · rename_i hwaits
        exact .starts r now _ run hget hwaits.1 hwaits.2 (by simp [enter]) (by simp [enter, assign])
          (by simp [enter, assign]) (storeKept_save (o.assign run.task fun task =>
            { task with status := .running, startedAt := some now }) run.task rfl rfl rfl)
      · exact .same _ _ rfl rfl rfl (storeKept_of_eq rfl)
    · exact .same _ _ rfl rfl rfl (storeKept_of_eq rfl)
  | runnerEnds r outcome =>
    unfold step
    dsimp only
    split
    · split <;> exact .same _ _ rfl rfl rfl (storeKept_of_eq rfl)
    · exact .same _ _ rfl rfl rfl (storeKept_of_eq rfl)
  | finish r now =>
    unfold step
    dsimp only
    split
    · rename_i run hget
      split
      · rename_i outcome hstage
        exact .settles _ _ r run outcome now hget hstage (by simp [finish, assign]) (by simp [finish, assign])
          (by simp [finish, assign]) (storeKept_save
            { o.assign run.task (settle outcome now) with running := o.running.pop run.taskId } run.task
            rfl rfl rfl)
      · exact .same _ _ rfl rfl rfl (storeKept_of_eq rfl)
    · exact .same _ _ rfl rfl rfl (storeKept_of_eq rfl)
  | abandon r =>
    unfold step
    dsimp only
    split
    · split
      · exact .same _ _ rfl rfl rfl (storeKept_of_eq rfl)
      · exact tasksEffect_requestCancel _ r
      · exact .same _ _ rfl rfl rfl (storeKept_of_eq rfl)
    · exact .same _ _ rfl rfl rfl (storeKept_of_eq rfl)
  | cancel taskId now =>
    unfold step cancel
    dsimp only
    split
    · exact tasksEffect_requestCancel _ _
    · split
      · exact .same _ _ rfl rfl rfl (storeKept_of_eq rfl)
      · rename_i task hget
        split
        · rename_i hpending
          obtain ⟨object, hobject, hstatus⟩ := (Option.any_eq_true _ _).mp hpending
          exact .withdraws _ _ task object now hobject (of_decide_eq_true hstatus) (by simp)
            (by simp [assign]) rfl (storeKept_save (o.assign task fun task =>
              { task with status := .cancelled, completedAt := some now }) task rfl rfl rfl)
        · exact .same _ _ rfl rfl rfl (storeKept_of_eq rfl)
  | checkpoint taskId progress =>
    unfold step
    dsimp only
    rcases afterCall_cases o (o.saveCheckpoint taskId progress) with hok | ⟨-, hsame⟩
    · obtain ⟨task, -, hsaved⟩ := saveCheckpoint_eq_ok.mp hok
      rw [hsaved]
      exact .checkpoints _ _ task progress (by simp) (by simp [assign]) (by simp [assign])
        (storeKept_save (o.assign task fun task => { task with checkpoint := progress }) task rfl rfl rfl)
    · rw [hsame]
      exact .same _ _ rfl rfl rfl (storeKept_of_eq rfl)

end Effects

end RuntimeOrchestrator

end Tmis.RuntimePlatform
