import Tmis.RuntimePlatform.RuntimeOrchestrator

/-!
# One runner for a task

At most one runner of a task should be in flight, at most `maxParallelism` of them over all tasks, and a
`cancel` should reach every runner of the task it is about.  The registry holds one runner for a task: a
run that is let through the semaphore takes the place of the one that is registered, and a run that ends
clears it.

* `inFlight`, `OneRunner`, `Reaches`, `Kept` — what should hold after every step;
* `Alone` — the discipline that it takes;
* `Tracked` — what the registry and the permits say about the runs on their way;
* `along_kept_iff` — the runs keep to it iff they keep the discipline.
-/

namespace Tmis.RuntimePlatform

open Tmis.Lib

namespace RuntimeOrchestrator

/-- The runs whose runners are in flight, with their numbers. -/
def inFlight (o : RuntimeOrchestrator) : List (ℕ × Run) :=
  o.runs.entries.filter fun entry => entry.2.stage = .inFlight

/-- No two runners of one task are in flight. -/
def OneRunner (o : RuntimeOrchestrator) : Prop :=
  ∀ entry ∈ o.inFlight, ∀ entry' ∈ o.inFlight, entry.2.taskId = entry'.2.taskId → entry.1 = entry'.1

instance (o : RuntimeOrchestrator) : Decidable o.OneRunner := by unfold OneRunner; infer_instance

/-- The runner of a run was told to stop once more. -/
def Reached (o' : RuntimeOrchestrator) (entry : ℕ × Run) : Prop :=
  o'.runs.get entry.1 = some { entry.2 with cancelRequests := entry.2.cancelRequests + 1 }

instance (o' : RuntimeOrchestrator) (entry : ℕ × Run) : Decidable (Reached o' entry) := by
  unfold Reached; infer_instance

/-- A `cancel` that returns true reaches every runner of its task. -/
def Reaches (o : RuntimeOrchestrator) : Op → Prop
  | .cancel taskId now => (o.cancel taskId now).1 = true →
      ∀ entry ∈ o.inFlight, entry.2.taskId = taskId → Reached (o.step (.cancel taskId now)) entry
  | _ => True

instance (o : RuntimeOrchestrator) (taskId : String) (now : ℚ) : Decidable (o.Reaches (.cancel taskId now)) :=
  inferInstanceAs (Decidable (_ → ∀ entry ∈ o.inFlight, entry.2.taskId = taskId → Reached _ entry))

/-- What should hold after a step. -/
def Kept (maxParallelism : ℕ) (o : RuntimeOrchestrator) (op : Op) : Prop :=
  (o.step op).OneRunner ∧ (o.step op).inFlight.length ≤ maxParallelism ∧ o.Reaches op

/-- The stored task under an id is pending. -/
def pending (o : RuntimeOrchestrator) (taskId : String) : Bool :=
  (o.store.get taskId).any fun task => (o.objects[task]?).any (·.status = .pending)

/-- The discipline: no run is let through the semaphore while a runner of its task is in flight, and no
`cancel` finds a task pending and unregistered while one is. -/
def Alone (o : RuntimeOrchestrator) : Op → Prop
  | .enter r _ => ∀ run, o.runs.get r = some run → run.stage = .waiting → 0 < o.permits →
      ∀ entry ∈ o.inFlight, entry.2.taskId ≠ run.taskId
  | .cancel taskId _ => o.running.get taskId = none → o.pending taskId →
      ∀ entry ∈ o.inFlight, entry.2.taskId ≠ taskId
  | _ => True

/-! ### The invariant -/

/-- A registered run of a task is the one whose runner is in flight, and every run that was let through
the semaphore and has not ended holds a permit. -/
structure Tracked (maxParallelism : ℕ) (o : RuntimeOrchestrator) : Prop where
  one : o.OneRunner
  registered : ∀ entry ∈ o.inFlight, ∀ r, o.running.get entry.2.taskId = some r → r = entry.1
  permits : o.permits + o.runs.values.countP (·.stage ≠ .waiting) = maxParallelism

section Invariant

variable {o o' : RuntimeOrchestrator} {maxParallelism : ℕ}

lemma mem_inFlight {r : ℕ} {run : Run} :
    (r, run) ∈ o.inFlight ↔ o.runs.get r = some run ∧ run.stage = .inFlight := by
  simp [inFlight, Dict.mem_entries_iff]

/-- A runner that is in flight holds a permit. -/
lemma length_inFlight_le (o : RuntimeOrchestrator) :
    o.inFlight.length ≤ o.runs.values.countP (·.stage ≠ .waiting) := by
  rw [inFlight, ← List.countP_eq_length_filter, Dict.values, List.countP_map]
  refine List.countP_mono_left fun entry _ hstage => ?_
  have hstage : entry.2.stage = .inFlight := of_decide_eq_true hstage
  simp [hstage]

lemma mem_inFlight_set {r : ℕ} {run : Run} (hruns : o'.runs = o.runs.set r run) {entry : ℕ × Run}
    (h : entry ∈ o'.inFlight) :
    entry = (r, run) ∧ run.stage = .inFlight ∨ entry.1 ≠ r ∧ entry ∈ o.inFlight := by
  obtain ⟨r', run'⟩ := entry
  rw [mem_inFlight, hruns, Dict.get_set] at h
  split at h
  · rename_i hr
    obtain ⟨hrun, hstage⟩ := h
    obtain rfl := Option.some.inj hrun
    exact Or.inl ⟨by rw [hr], hstage⟩
  · rename_i hr
    exact Or.inr ⟨hr, mem_inFlight.mpr h⟩

lemma mem_inFlight_pop {r : ℕ} (hruns : o'.runs = o.runs.pop r) {entry : ℕ × Run}
    (h : entry ∈ o'.inFlight) : entry ∈ o.inFlight := by
  obtain ⟨r', run'⟩ := entry
  rw [mem_inFlight, hruns] at h
  exact mem_inFlight.mpr ⟨Dict.get_of_get_pop h.1, h.2⟩

/-- No runner is in flight that was not before, and the registry names no run it did not name. -/
lemma Tracked.of_subset (h : Tracked maxParallelism o)
    (hinFlight : ∀ entry ∈ o'.inFlight, ∃ run, (entry.1, run) ∈ o.inFlight ∧ run.taskId = entry.2.taskId)
    (hrunning : ∀ taskId r, o'.running.get taskId = some r → o.running.get taskId = some r)
    (hpermits : o'.permits + o'.runs.values.countP (·.stage ≠ .waiting) =
      o.permits + o.runs.values.countP (·.stage ≠ .waiting)) : Tracked maxParallelism o' where
  one entry hentry entry' hentry' htask := by
    obtain ⟨run, hrun, hid⟩ := hinFlight entry hentry
    obtain ⟨run', hrun', hid'⟩ := hinFlight entry' hentry'
    exact h.one _ hrun (entry'.1, run') hrun' (hid.trans (htask.trans hid'.symm))
  registered entry hentry r hget := by
    obtain ⟨run, hrun, hid⟩ := hinFlight entry hentry
    exact h.registered _ hrun r (hid ▸ hrunning _ r hget)
  permits := hpermits.trans h.permits

theorem tracked_step (h : Tracked maxParallelism o) {op : Op} (hop : o.Alone op) :
    Tracked maxParallelism (o.step op) := by
  have heffect := runsEffect_step o op
  generalize o.step op = o' at heffect ⊢
  cases heffect with
  | same _ _ hpermits hrunning hruns =>
    refine h.of_subset (fun entry hentry => ⟨entry.2, ?_, rfl⟩) (fun taskId r hget => ?_) ?_
    · rwa [inFlight, hruns] at hentry
    · rwa [hrunning] at hget
    · rw [hpermits, hruns]
  | begins _ _ r run hfree hstage hfound hpermits hrunning hruns =>
    refine h.of_subset (fun entry hentry => ?_) (fun taskId r hget => ?_) ?_
    · rcases mem_inFlight_set hruns hentry with ⟨-, hstage'⟩ | ⟨-, hold⟩
      · rw [hstage] at hstage'
        cases hstage'
      · exact ⟨entry.2, hold, rfl⟩
    · rwa [hrunning] at hget
    · have hcount := Dict.countP_set (fun run : Run => run.stage ≠ .waiting) o.runs r run
      rw [hpermits, hruns]
      simpa [hfree, hstage] using hcount
  | enters r now _ run hget hstage hpermit hpermits hrunning hruns hinvoked =>
    have halone := hop run hget hstage hpermit
    refine ⟨fun entry hentry entry' hentry' htask => ?_, fun entry hentry r' hget' => ?_, ?_⟩
    · rcases mem_inFlight_set hruns hentry with ⟨rfl, -⟩ | ⟨-, hold⟩ <;>
        rcases mem_inFlight_set hruns hentry' with ⟨rfl, -⟩ | ⟨-, hold'⟩
      · rfl
      · exact absurd htask.symm (halone entry' hold')
      · exact absurd htask (halone entry hold)
      · exact h.one entry hold entry' hold' htask
    · rw [hrunning, Dict.get_set] at hget'
      rcases mem_inFlight_set hruns hentry with ⟨rfl, -⟩ | ⟨-, hold⟩
      · rw [if_pos rfl] at hget'
        exact (Option.some.inj hget').symm
      · rw [if_neg (halone entry hold)] at hget'
        exact h.registered entry hold r' hget'
    · have hcount := Dict.countP_set (fun run : Run => run.stage ≠ .waiting) o.runs r
        { run with stage := .inFlight }
      rw [hget] at hcount
      have hpermits' := h.permits
      rw [hpermits, hruns]
      simp [hstage] at hcount hpermits' ⊢
      omega
  | goesOn _ _ r run run' hget hstage htaskId htask hstage' hinFlight hpermits hrunning hruns =>
    refine h.of_subset (fun entry hentry => ?_) (fun taskId r hget => ?_) ?_
    · rcases mem_inFlight_set hruns hentry with ⟨rfl, hflies⟩ | ⟨-, hold⟩
      · exact ⟨run, mem_inFlight.mpr ⟨hget, hinFlight hflies⟩, htaskId.symm⟩
      · exact ⟨entry.2, hold, rfl⟩
    · rwa [hrunning] at hget
    · have hcount := Dict.countP_set (fun run : Run => run.stage ≠ .waiting) o.runs r run'
      rw [hget] at hcount
      rw [hpermits, hruns]
      simpa [hstage, hstage'] using hcount
  | finishes _ _ r run outcome hget hstage hpermits hrunning hruns =>
    refine h.of_subset (fun entry hentry => ⟨entry.2, mem_inFlight_pop hruns hentry, rfl⟩)
      (fun taskId r hget => ?_) ?_
    · rw [hrunning] at hget
      exact Dict.get_of_get_pop hget
    · have hcount := Dict.countP_pop (fun run : Run => run.stage ≠ .waiting) o.runs r
      rw [hget] at hcount
      rw [hpermits, hruns]
      simp [hstage] at hcount ⊢
      omega
  | leaves _ _ r run hget hstage hpermits hrunning hruns =>
    refine h.of_subset (fun entry hentry => ⟨entry.2, mem_inFlight_pop hruns hentry, rfl⟩)
      (fun taskId r hget => ?_) ?_
    · rwa [hrunning] at hget
    · have hcount := Dict.countP_pop (fun run : Run => run.stage ≠ .waiting) o.runs r
      rw [hget] at hcount
      rw [hpermits, hruns]
      simpa [hstage] using hcount

/-- The registered runner of a task is told to stop, and no other one is in flight. -/
lemma reaches_of_running (h : Tracked maxParallelism o) {taskId : String} {r : ℕ} (now : ℚ)
    (hget : o.running.get taskId = some r) : o.Reaches (.cancel taskId now) := by
  rintro - ⟨r', run⟩ hentry rfl
  obtain rfl := h.registered _ hentry r hget
  obtain ⟨hrun, hstage⟩ := mem_inFlight.mp hentry
  have hstep : o.step (.cancel run.taskId now) = o.requestCancel r := by
    unfold step cancel
    dsimp only at hget ⊢
    rw [hget]
  rw [Reached, hstep, requestCancel, hrun]
  simp [hstage]

/-- A `cancel` that finds a task pending and unregistered leaves the runs as they are. -/
lemma cancel_of_pending {taskId : String} (now : ℚ) (hnone : o.running.get taskId = none)
    (hpending : o.pending taskId) :
    (o.cancel taskId now).1 = true ∧ (o.step (.cancel taskId now)).runs = o.runs := by
  obtain ⟨task, htask, hobject⟩ := (Option.any_eq_true _ _).mp hpending
  unfold step cancel
  dsimp only
  rw [hnone, htask]
  dsimp only
  rw [if_pos hobject]
  exact ⟨rfl, by simp [assign]⟩

lemma cancel_of_not_pending {taskId : String} (now : ℚ) (hnone : o.running.get taskId = none)
    (hpending : ¬ o.pending taskId) : (o.cancel taskId now).1 = false := by
  unfold cancel
  rw [hnone]
  dsimp only
  cases htask : o.store.get taskId with
  | none => rfl
  | some task =>
    dsimp only
    rw [if_neg]
    simpa [pending, htask] using hpending

/-- Wherever the invariant holds, a `cancel` that returns true reaches every runner of its task iff it keeps
the discipline. -/
lemma reaches_iff_alone (h : Tracked maxParallelism o) (taskId : String) (now : ℚ) :
    o.Reaches (.cancel taskId now) ↔ o.Alone (.cancel taskId now) := by
  cases hget : o.running.get taskId with
  | some r =>
    refine iff_of_true (reaches_of_running h now hget) fun hnone => ?_
    rw [hget] at hnone
    cases hnone
  | none =>
    by_cases hpending : o.pending taskId
    · obtain ⟨htrue, hruns⟩ := cancel_of_pending now hget hpending
      constructor
      · rintro hreaches - - ⟨r, run⟩ hentry htaskId
        have hreached := hreaches htrue _ hentry htaskId
        rw [Reached, hruns, (mem_inFlight.mp hentry).1] at hreached
        simpa using congrArg Run.cancelRequests (Option.some.inj hreached)
      · intro halone _ entry hentry htaskId
        exact absurd htaskId (halone hget hpending entry hentry)
    · refine iff_of_true (fun htrue => ?_) fun _ h => absurd h hpending
      rw [cancel_of_not_pending now hget hpending] at htrue
      cases htrue

/-- Wherever the invariant holds, a step keeps to what should hold iff it keeps the discipline. -/
lemma kept_iff_alone (h : Tracked maxParallelism o) (op : Op) : Kept maxParallelism o op ↔ o.Alone op := by
  constructor
  · rintro ⟨hone, -, hreaches⟩
    cases op with
    | enter r now =>
      rintro run hget hstage hpermit ⟨r', run'⟩ hentry htaskId
      obtain ⟨hrun', hstage'⟩ := mem_inFlight.mp hentry
      have hruns : (o.step (.enter r now)).runs = o.runs.set r { run with stage := .inFlight } := by
        unfold step
        dsimp only
        rw [hget]
        dsimp only
        rw [if_pos ⟨hstage, hpermit⟩]
        simp [enter, assign]
      have hne : r' ≠ r := by
        rintro rfl
        rw [hget] at hrun'
        rw [← Option.some.inj hrun', hstage] at hstage'
        cases hstage'
      refine hne (hone (r', run') ?_ (r, { run with stage := .inFlight }) ?_ htaskId)
      · rw [mem_inFlight, hruns, Dict.get_set_of_ne _ _ hne]
        exact ⟨hrun', hstage'⟩
      · rw [mem_inFlight, hruns, Dict.get_set_self]
        exact ⟨rfl, rfl⟩
    | cancel taskId now => exact (reaches_iff_alone h taskId now).mp hreaches
    | _ => trivial
  · intro hop
    have hnext := tracked_step h hop
    refine ⟨hnext.one, (length_inFlight_le _).trans ?_, ?_⟩
    · have := hnext.permits
      omega
    · cases op with
      | cancel taskId now => exact (reaches_iff_alone h taskId now).mpr hop
      | _ => trivial

end Invariant

/-! ### Runs -/

/-- **One runner for a task**: in every run no two runners of a task are in flight, no more runners than
the semaphore has permits, and a `cancel` that returns true reaches every runner of its task, iff no run
is let through the semaphore while a runner of its task is in flight and no `cancel` finds a task pending
and unregistered while one is. -/
theorem along_kept_iff (maxParallelism : ℕ) (ops : List Op) :
    Along step (Kept maxParallelism) { permits := maxParallelism } ops ↔
      Along step Alone { permits := maxParallelism } ops :=
  along_congr (I := Tracked maxParallelism)
    ⟨fun _ hentry => absurd hentry List.not_mem_nil, fun _ hentry => absurd hentry List.not_mem_nil, rfl⟩
    (fun _ _ h hop => tracked_step h hop) fun _ op h => kept_iff_alone h op

/-- Two runs of one task are in flight, and a `cancel` reaches the second one only. -/
theorem two_runners :
    let o := run step { permits := 4 } [.newTask "a" 0, .submit 0, .run 0 "a", .enter 0 0, .run 1 "a",
      .enter 1 0]
    ¬ o.OneRunner ∧ ¬ o.Reaches (.cancel "a" 1) := by decide +kernel

end RuntimeOrchestrator

end Tmis.RuntimePlatform
