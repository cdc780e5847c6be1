import Tmis.Lib.Run
import Tmis.Lib.Selection
import Tmis.RuntimePlatform.AsyncProcessing

/-!
# Back-off and scheduling

The time before which a job is not run, set by `enqueue` with a delay and by `mark_failed`, and what
`dequeue_ready` makes of it: it looks at the time of a scheduled job, and not at that of a job that is
retried.

* `Due`, `Early` — a waiting job whose time has come, and a job handed out before its time;
* `dequeueReady_iff` — the job that is selected;
* `Respects`, `NoneEarlyFirst` — what a selection should be, and when it is;
* `respected_iff` — both over a whole history of calls.
-/

namespace Tmis.RuntimePlatform

open Tmis.Lib

namespace AsyncJob

/-- The job waits, and its time has come. -/
def Due (job : AsyncJob) (now : ℚ) : Prop :=
  ((job.status = .pending ∨ job.status = .retrying) ∧ ∀ runAt ∈ job.runAt, runAt ≤ now) ∨
    (job.status = .scheduled ∧ ∃ runAt ∈ job.runAt, runAt ≤ now)

/-- The job is pending or retried, and its time has not come. -/
def Early (job : AsyncJob) (now : ℚ) : Prop :=
  (job.status = .pending ∨ job.status = .retrying) ∧ ∃ runAt ∈ job.runAt, now < runAt

lemma ready_iff {job : AsyncJob} {now : ℚ} : job.Ready now ↔ job.Due now ∨ job.Early now := by
  unfold Ready Due Early
  cases job.runAt with
  | none => simp
  | some runAt =>
    have := le_or_gt runAt now
    simp only [Option.mem_def, Option.some.injEq, exists_eq_left', forall_eq']
    tauto

lemma Due.not_after {job : AsyncJob} {now : ℚ} (h : job.Due now) : ∀ runAt ∈ job.runAt, runAt ≤ now := by
  rcases h with ⟨-, h⟩ | ⟨-, t, ht, hle⟩
  · exact h
  · intro runAt hrunAt
    obtain rfl := Option.mem_unique ht hrunAt
    exact hle

lemma Early.not_due {job : AsyncJob} {now : ℚ} (h : job.Early now) : ¬ job.Due now := by
  intro hdue
  obtain ⟨-, runAt, hrunAt, hlt⟩ := h
  exact absurd (hdue.not_after runAt hrunAt) (not_le.mpr hlt)

instance : Std.Total before where
  total a b := by
    unfold before
    have := lt_trichotomy a.priority b.priority
    have := le_total a.createdAt b.createdAt
    grind

instance : IsTrans AsyncJob before where
  trans a b c := by
    unfold before
    grind

end AsyncJob

namespace AsyncProcessingEngine

open AsyncJob

lemma all_nodup (engine : AsyncProcessingEngine) : engine.all.Nodup := by
  have hids : engine.all.map (·.id) = engine.jobs.entries.map Prod.fst := by
    rw [all, Dict.values, List.map_map]
    refine List.map_congr_left fun entry hentry => ?_
    exact engine.keyed _ _ (Dict.mem_entries_iff.mp hentry)
  refine List.Nodup.of_map (·.id) ?_
  rw [hids]
  exact engine.jobs.nodup

/-- `a` stands in front of `b` in the order of selection: by priority, then by age, then by its place in
the store. -/
def InFront (engine : AsyncProcessingEngine) (a b : AsyncJob) : Prop := Ahead before engine.all a b

/-- **The job that is selected** is the ready one in front of all others. -/
theorem dequeueReady_iff {engine : AsyncProcessingEngine} {now : ℚ} {job : AsyncJob} :
    engine.dequeueReady now = some job ↔ (job ∈ engine.all ∧ job.Ready now) ∧
      ∀ other ∈ engine.all, other.Ready now → other ≠ job → engine.InFront job other := by
  rw [dequeueReady, head?_insertionSort_iff (engine.all_nodup.filter _)]
  simp only [List.mem_filter, decide_eq_true_eq]
  refine and_congr_right fun hjob => ?_
  constructor
  · intro h other hother hready hne
    exact (ahead_filter_iff (by simpa using hjob.2) (by simpa using hready)).mp (h other ⟨hother, hready⟩ hne)
  · intro h other hother hne
    exact (ahead_filter_iff (by simpa using hjob.2) (by simpa using hother.2)).mpr
      (h other hother.1 hother.2 hne)

lemma dequeueReady_eq_none {engine : AsyncProcessingEngine} {now : ℚ} :
    engine.dequeueReady now = none ↔ ∀ job ∈ engine.all, ¬ job.Ready now := by
  rw [dequeueReady, head?_insertionSort_eq_none, List.filter_eq_nil_iff]
  simp only [decide_eq_true_eq]

/-! ### What a selection should be -/

/-- What `dequeue_ready` should answer at the time `now`. -/
structure Respects (engine : AsyncProcessingEngine) (now : ℚ) : Prop where
  notEarly : ∀ job, engine.dequeueReady now = some job → ∀ runAt ∈ job.runAt, runAt ≤ now
  noneDue : engine.dequeueReady now = none → ∀ job ∈ engine.all, ¬ job.Due now
  first : ∀ job, engine.dequeueReady now = some job →
    job.Due now ∧ ∀ other ∈ engine.all, other.Due now → AsyncJob.before job other

/-- In front of each pending or retried job whose time has not come stands a job whose time has. -/
def NoneEarlyFirst (engine : AsyncProcessingEngine) (now : ℚ) : Prop :=
  ∀ job ∈ engine.all, job.Early now → ∃ other ∈ engine.all, other.Due now ∧ engine.InFront other job

/-- **A selection is right** iff no job whose time has not come stands in front. -/
theorem respects_iff {engine : AsyncProcessingEngine} {now : ℚ} :
    engine.Respects now ↔ engine.NoneEarlyFirst now := by
  constructor
  · intro h job hjob hearly
    cases hsel : engine.dequeueReady now with
    | none => exact absurd (ready_iff.mpr (Or.inr hearly)) (dequeueReady_eq_none.mp hsel job hjob)
    | some first =>
      obtain ⟨⟨hmem, -⟩, hfront⟩ := dequeueReady_iff.mp hsel
      have hdue := (h.first first hsel).1
      have hne : job ≠ first := fun e => hearly.not_due (e ▸ hdue)
      exact ⟨first, hmem, hdue, hfront job hjob (ready_iff.mpr (Or.inr hearly)) hne⟩
  · intro h
    have hdue : ∀ job, engine.dequeueReady now = some job → job.Due now := by
      intro job hsel
      obtain ⟨⟨hmem, hready⟩, hfront⟩ := dequeueReady_iff.mp hsel
      rcases ready_iff.mp hready with hdue | hearly
      · exact hdue
      · obtain ⟨other, hother, hdue, hahead⟩ := h job hmem hearly
        have hne : other ≠ job := fun e => hearly.not_due (e ▸ hdue)
        have hback := hfront other hother (ready_iff.mpr (Or.inl hdue)) hne
        exact absurd hback (hahead.asymm engine.all_nodup)
    refine ⟨fun job hsel => (hdue job hsel).not_after, ?_, fun job hsel => ⟨hdue job hsel, ?_⟩⟩
    · intro hsel job hjob hd
      exact dequeueReady_eq_none.mp hsel job hjob (ready_iff.mpr (Or.inl hd))
    · intro other hother hd
      by_cases hne : other = job
      · subst hne
        exact (Std.Total.total (r := AsyncJob.before) other other).elim id id
      · exact ((dequeueReady_iff.mp hsel).2 other hother (ready_iff.mpr (Or.inl hd)) hne).rel

/-! ### Histories -/

/-- A call of the engine, with the time it is made at. -/
inductive Call where
  | enqueue (job : AsyncJob) (delaySeconds now : ℚ)
  | markRunning (jobId : Uuid) (now : ℚ)
  | markDone (jobId : Uuid) (now : ℚ)
  | markFailed (jobId : Uuid) (error : String) (now : ℚ)
  | cancel (jobId : Uuid) (now : ℚ)
  | checkTimeouts (now : ℚ)
  | dequeueReady (now : ℚ)

/-- The engine after a call; a mark of a job that is not there raises. -/
def step (engine : AsyncProcessingEngine) : Call → AsyncProcessingEngine
  | .enqueue job delaySeconds now => engine.enqueue job delaySeconds now
  | .markRunning jobId now => afterCall engine (engine.markRunning jobId now)
  | .markDone jobId now => afterCall engine (engine.markDone jobId now)
  | .markFailed jobId error now => afterCall engine (engine.markFailed jobId error now)
  | .cancel jobId now => afterCall engine (engine.cancel jobId now)
  | .checkTimeouts now => (engine.checkTimeouts now).2
  | .dequeueReady _ => engine

/-- What a discipline of selections asks of a call. -/
def OnDequeue (P : AsyncProcessingEngine → ℚ → Prop) (engine : AsyncProcessingEngine) : Call → Prop
  | .dequeueReady now => P engine now
  | _ => True

lemma onDequeue_congr {P Q : AsyncProcessingEngine → ℚ → Prop}
    (h : ∀ engine now, P engine now ↔ Q engine now) (engine : AsyncProcessingEngine) (call : Call) :
    OnDequeue P engine call ↔ OnDequeue Q engine call := by
  cases call with
  | dequeueReady now => exact h engine now
  | _ => exact Iff.rfl

/-- **Back-off and scheduling are respected** by every selection of a history iff, whenever a job is asked
for, a due job stands in front of each pending or retried job whose time has not come. -/
theorem respected_iff (baseDelaySeconds : ℚ) (calls : List Call) :
    Along step (OnDequeue Respects) { baseDelaySeconds } calls ↔
      Along step (OnDequeue NoneEarlyFirst) { baseDelaySeconds } calls :=
  along_congr (I := fun _ => True) trivial (fun _ _ _ _ => trivial) fun engine call _ =>
    onDequeue_congr (fun _ _ => respects_iff) engine call

/-- A job that fails at its first attempt, and is asked for at once. -/
def retriedAtOnce : List Call :=
  [.enqueue { id := 1, queueName := "q", createdAt := 0 } 0 0, .markRunning 1 0, .markFailed 1 "boom" 0,
    .dequeueReady 0]

/-- The retried job is handed out before its time. -/
theorem retried_early : ¬ Along step (OnDequeue Respects) {} retriedAtOnce := by
  rintro ⟨-, -, -, h, -⟩
  have hsel : ((run step {} (retriedAtOnce.take 3)).dequeueReady 0).map (·.runAt) = some (some 1) := by
    decide +kernel
  obtain ⟨job, hjob, hrunAt⟩ := Option.map_eq_some_iff.mp hsel
  have := h.notEarly job hjob 1 hrunAt
  norm_num at this

end AsyncProcessingEngine

end Tmis.RuntimePlatform
