import Tmis.RuntimePlatform.RuntimeOrchestrator

/-!
# Cancellation before the start

A task that `cancel` marks cancelled before its runner was invoked should never start.  A run does not
look at the status of its task, neither before the semaphore nor after it.

* `Final` — no withdrawn task was invoked, and all of them are cancelled;
* `Uncancelled` — the discipline: no run of a cancelled task is let through the semaphore;
* `Fits`, `Inv` — what the fields of a task say about its runner;
* `along_final_iff` — without `resume`, cancellations are final iff the runs keep the discipline.
-/

namespace Tmis.RuntimePlatform

open Tmis.Lib

namespace RuntimeOrchestrator

/-- No task that was cancelled before its runner was invoked had it invoked since, and each of them is
cancelled. -/
def Final (o : RuntimeOrchestrator) : Prop :=
  ∀ task ∈ o.withdrawn, task ∉ o.invoked ∧ (o.objects[task]?).any (·.status = .cancelled)

instance (o : RuntimeOrchestrator) : Decidable o.Final := by unfold Final; infer_instance

/-- The task is cancelled and was never started. -/
def cancelledUnstarted (o : RuntimeOrchestrator) (task : ℕ) : Bool :=
  (o.objects[task]?).any fun task => task.status = .cancelled ∧ task.startedAt = none

/-- The discipline: no run is let through the semaphore while its task is cancelled and was never
started. -/
def Uncancelled (o : RuntimeOrchestrator) : Op → Prop
  | .enter r _ => ∀ run, o.runs.get r = some run → run.stage = .waiting → 0 < o.permits →
      ¬ o.cancelledUnstarted run.task
  | _ => True

/-- Nothing is resumed. -/
def Op.NoResume : Op → Prop
  | .resume _ _ => False
  | _ => True

instance (op : Op) : Decidable op.NoResume := by cases op <;> unfold Op.NoResume <;> infer_instance

/-! ### The invariant -/

/-- What the fields of a task say about its runner: a task that was never started is pending, or was
withdrawn and is cancelled. -/
def Fits (task : RuntimeTask) (invoked withdrawn : Prop) : Prop :=
  match task.startedAt with
  | none => ¬ invoked ∧ (task.status = .pending ∧ ¬ withdrawn ∨ task.status = .cancelled ∧ withdrawn)
  | some _ => invoked ∧ ¬ withdrawn ∧ task.status ≠ .pending

/-- Every task fits, what is known of runners is about tasks there are, and runs that were let through the
semaphore have had their runners invoked. -/
structure Inv (o : RuntimeOrchestrator) : Prop where
  fits : ∀ task object, o.objects[task]? = some object → Fits object (task ∈ o.invoked) (task ∈ o.withdrawn)
  known : ∀ task, task ∈ o.invoked ∨ task ∈ o.withdrawn → task < o.objects.length
  stored : ∀ id task, o.store.get id = some task → task < o.objects.length
  runs : ∀ r run, o.runs.get r = some run →
    run.task < o.objects.length ∧ (run.stage ≠ .waiting → run.task ∈ o.invoked)

section Invariant

variable {o o' : RuntimeOrchestrator}

lemma Inv.final (h : Inv o) : o.Final := by
  intro task hwithdrawn
  have hlt := h.known task (Or.inr hwithdrawn)
  have hfits := h.fits task _ (List.getElem?_eq_getElem hlt)
  rw [List.getElem?_eq_getElem hlt]
  unfold Fits at hfits
  split at hfits
  · obtain ⟨hinvoked, ⟨-, hnot⟩ | ⟨hstatus, -⟩⟩ := hfits
    · exact absurd hwithdrawn hnot
    · exact ⟨hinvoked, by simp [hstatus]⟩
  · exact absurd hwithdrawn hfits.2.1

/-- A task that is cancelled and was never started was withdrawn. -/
lemma Inv.withdrawn_of_cancelledUnstarted (h : Inv o) {task : ℕ} (hcancelled : o.cancelledUnstarted task) :
    task ∈ o.withdrawn := by
  obtain ⟨object, hobject, hfields⟩ := (Option.any_eq_true _ _).mp hcancelled
  obtain ⟨hstatus, hstarted⟩ := of_decide_eq_true hfields
  have hfits := h.fits task object hobject
  unfold Fits at hfits
  rw [hstarted] at hfits
  rcases hfits.2 with ⟨hpending, -⟩ | ⟨-, hwithdrawn⟩
  · rw [hstatus] at hpending
    cases hpending
  · exact hwithdrawn

/-- One task is assigned to, and its runner is invoked or withdrawn; nothing is known of other tasks that
was not known before. -/
lemma fits_modify {task : ℕ} {f : RuntimeTask → RuntimeTask} {invoked withdrawn : List ℕ}
    (h : ∀ task object, o.objects[task]? = some object →
      Fits object (task ∈ o.invoked) (task ∈ o.withdrawn))
    (hinvoked : ∀ other, other ≠ task → (other ∈ invoked ↔ other ∈ o.invoked))
    (hwithdrawn : ∀ other, other ≠ task → (other ∈ withdrawn ↔ other ∈ o.withdrawn))
    (hnew : ∀ object, o.objects[task]? = some object → Fits object (task ∈ o.invoked) (task ∈ o.withdrawn) →
      Fits (f object) (task ∈ invoked) (task ∈ withdrawn)) :
    ∀ other object, (o.objects.modify task f)[other]? = some object →
      Fits object (other ∈ invoked) (other ∈ withdrawn) := by
  intro other object hobject
  rw [List.getElem?_modify] at hobject
  by_cases hother : other = task
  · subst hother
    obtain ⟨old, hold, rfl⟩ := Option.map_eq_some_iff.mp hobject
    rw [if_pos rfl]
    exact hnew old hold (h other old hold)
  · obtain ⟨old, hold, rfl⟩ := Option.map_eq_some_iff.mp hobject
    rw [if_neg (Ne.symm hother), hinvoked other hother, hwithdrawn other hother]
    exact h other old hold

/-- What a runner comes to leaves its task started, and not pending. -/
lemma Fits.settle {task : RuntimeTask} {invoked withdrawn : Prop} (h : Fits task invoked withdrawn)
    (hinvoked : invoked) (outcome : Outcome) (now : ℚ) : Fits (settle outcome now task) invoked withdrawn := by
  unfold Fits at h ⊢
  cases hstarted : task.startedAt with
  | none =>
    rw [hstarted] at h
    exact absurd hinvoked h.1
  | some startedAt =>
    rw [hstarted] at h
    obtain ⟨-, hwithdrawn, hstatus⟩ := h
    cases outcome <;> simp [RuntimeOrchestrator.settle, hstarted, hinvoked, hwithdrawn, hstatus]

/-- The fields of the tasks say the same about the runners after every step but a `resume`. -/
lemma fits_step (h : Inv o) {op : Op} (hresume : op.NoResume) (hop : o.Uncancelled op) :
    ∀ task object, (o.step op).objects[task]? = some object →
      Fits object (task ∈ (o.step op).invoked) (task ∈ (o.step op).withdrawn) := by
  have heffect := tasksEffect_step o op
  generalize o.step op = o' at heffect ⊢
  cases heffect with
  | same op o' hobjects hinvoked hwithdrawn hstore =>
    rw [hobjects, hinvoked, hwithdrawn]
    exact h.fits
  | creates op o' id checkpoint hobjects hinvoked hwithdrawn hstore =>
    rw [hobjects, hinvoked, hwithdrawn]
    intro task object hobject
    rw [List.getElem?_append] at hobject
    split at hobject
    · exact h.fits task object hobject
    · rename_i hge
      obtain rfl := List.mem_singleton.mp (List.mem_of_getElem? hobject)
      have hunknown : ¬ (task ∈ o.invoked ∨ task ∈ o.withdrawn) := fun hmem => by
        have := h.known task hmem
        omega
      exact ⟨fun hmem => hunknown (Or.inl hmem), Or.inl ⟨rfl, fun hmem => hunknown (Or.inr hmem)⟩⟩
  | starts r now o' run hget hstage hpermit hobjects hinvoked hwithdrawn hstore =>
    rw [hobjects, hinvoked, hwithdrawn]
    refine fits_modify h.fits (fun other hne => by simp [hne]) (by simp) fun object hobject hfits => ?_
    have hnot : ¬ run.task ∈ o.withdrawn := by
      intro hmem
      unfold Fits at hfits
      split at hfits
      · rename_i hstarted
        obtain ⟨-, ⟨-, hnot⟩ | ⟨hstatus, -⟩⟩ := hfits
        · exact hnot hmem
        · exact hop run hget hstage hpermit (by simp [cancelledUnstarted, hobject, hstatus, hstarted])
      · exact hfits.2.1 hmem
    exact ⟨by simp, hnot, by simp⟩
  | settles op o' r run outcome now hget hstage hobjects hinvoked hwithdrawn hstore =>
    rw [hobjects, hinvoked, hwithdrawn]
    refine fits_modify h.fits (by simp) (by simp) fun object _ hfits => hfits.settle ?_ outcome now
    exact (h.runs r run hget).2 (by simp [hstage])
  | withdraws op o' task object now hobject hpending hobjects hinvoked hwithdrawn hstore =>
    rw [hobjects, hinvoked, hwithdrawn]
    have hfits := h.fits task object hobject
    have hunstarted : object.startedAt = none ∧ task ∉ o.invoked := by
      unfold Fits at hfits
      split at hfits
      · rename_i hstarted
        exact ⟨hstarted, hfits.1⟩
      · exact absurd hpending hfits.2.2
    rw [if_neg hunstarted.2]
    refine fits_modify h.fits (by simp) (fun other hne => by simp [hne]) fun object' hobject' _ => ?_
    obtain rfl : object = object' := Option.some.inj (hobject.symm.trans hobject')
    unfold Fits
    dsimp only
    rw [hunstarted.1]
    exact ⟨hunstarted.2, Or.inr ⟨rfl, by simp⟩⟩
  | checkpoints op o' task progress hobjects hinvoked hwithdrawn hstore =>
    rw [hobjects, hinvoked, hwithdrawn]
    exact fits_modify h.fits (by simp) (by simp) fun object _ hfits => hfits
  | resumes r taskId o' task hobjects hinvoked hwithdrawn hstore => exact hresume.elim

/-- There are never fewer tasks than before. -/
lemma length_le_step (o : RuntimeOrchestrator) (op : Op) :
    o.objects.length ≤ (o.step op).objects.length := by
  have heffect := tasksEffect_step o op
  generalize o.step op = o' at heffect ⊢
  cases heffect <;> simp [*]

/-- What is known of runners after a step is about tasks there are. -/
lemma known_step (h : Inv o) (op : Op) :
    ∀ task, task ∈ (o.step op).invoked ∨ task ∈ (o.step op).withdrawn →
      task < (o.step op).objects.length := by
  intro task hmem
  refine lt_of_lt_of_le ?_ (length_le_step o op)
  have heffect := tasksEffect_step o op
  generalize o.step op = o' at heffect hmem
  cases heffect with
  | same _ _ hobjects hinvoked hwithdrawn 
  | creates _ _ id checkpoint hobjects hinvoked hwithdrawn hstore
  | settles _ _ r run outcome now hget hstage hobjects hinvoked hwithdrawn hstore
  | checkpoints _ _ changed progress hobjects hinvoked hwithdrawn hstore
  | resumes r taskId _ changed hobjects hinvoked hwithdrawn hstore =>
    rw [hinvoked, hwithdrawn] at hmem
    exact h.known task hmem
  | starts r now _ run hget hstage hpermit hobjects hinvoked hwithdrawn hstore =>
    rw [hinvoked, hwithdrawn, List.mem_append, List.mem_singleton, or_right_comm] at hmem
    rcases hmem with hold | rfl
    · exact h.known task hold
    · exact (h.runs r run hget).1
  | withdraws _ _ found object now hobject hpending hobjects hinvoked hwithdrawn hstore =>
    rw [hinvoked, hwithdrawn] at hmem
    have hold : (task ∈ o.invoked ∨ task ∈ o.withdrawn) ∨ task = found := by
      split at hmem
      · exact Or.inl hmem
      · rwa [List.mem_append, List.mem_singleton, ← or_assoc] at hmem
    rcases hold with hold | rfl
    · exact h.known task hold
    · exact (List.getElem?_eq_some_iff.mp hobject).1

/-- The tasks in the store after a step are tasks there are. -/
lemma stored_step (h : Inv o) (op : Op) :
    ∀ id task, (o.step op).store.get id = some task → task < (o.step op).objects.length := by
  intro id task hget
  have hkept : StoreKept o (o.step op) := by
    have heffect := tasksEffect_step o op
    generalize o.step op = o' at heffect
    cases heffect <;> assumption
  rcases hkept id task hget with hold | hnew
  · exact lt_of_lt_of_le (h.stored id task hold) (length_le_step o op)
  · exact hnew

/-- A runner that was invoked stays so. -/
lemma invoked_step {task : ℕ} (op : Op) (h : task ∈ o.invoked) : task ∈ (o.step op).invoked := by
  have heffect := tasksEffect_step o op
  generalize o.step op = o' at heffect ⊢
  cases heffect <;> simp [*]

/-- The runs on their way hold tasks that there are, invoked once they are through the semaphore. -/
lemma runs_step (h : Inv o) (op : Op) : ∀ r run, (o.step op).runs.get r = some run →
    run.task < (o.step op).objects.length ∧ (run.stage ≠ .waiting → run.task ∈ (o.step op).invoked) := by
  intro r run hget
  have hold : ∀ r run, o.runs.get r = some run → run.task < (o.step op).objects.length ∧
      (run.stage ≠ .waiting → run.task ∈ (o.step op).invoked) := fun r run hget =>
    ⟨lt_of_lt_of_le (h.runs r run hget).1 (length_le_step o op),
      fun hstage => invoked_step op ((h.runs r run hget).2 hstage)⟩
  have hstored := stored_step h op
  have heffect := runsEffect_step o op
  generalize o.step op = o' at heffect hget hold hstored ⊢
  cases heffect with
  | same _ _ hpermits hrunning hruns => exact hold r run (hruns ▸ hget)
  | begins _ _ r' begun hfree hstage hfound hpermits hrunning hruns =>
    rw [hruns, Dict.get_set] at hget
    split at hget
    · obtain rfl := Option.some.inj hget
      exact ⟨hstored _ _ hfound, fun hnot => absurd hstage hnot⟩
    · exact hold r run hget
  | enters r' now _ entered hentered hstage hpermit hpermits hrunning hruns hinvoked =>
    rw [hruns, Dict.get_set] at hget
    split at hget
    · obtain rfl := Option.some.inj hget
      exact ⟨(hold r' entered hentered).1, fun _ => hinvoked⟩
    · exact hold r run hget
  | goesOn _ _ r' before after hbefore hstage htaskId htask hstage' hinFlight hpermits hrunning hruns =>
    rw [hruns, Dict.get_set] at hget
    split at hget
    · obtain rfl := Option.some.inj hget
      rw [htask]
      exact ⟨(hold r' before hbefore).1, fun _ => (hold r' before hbefore).2 hstage⟩
    · exact hold r run hget
  | finishes _ _ r' ended outcome hended hstage hpermits hrunning hruns =>
    rw [hruns] at hget
    exact hold r run (Dict.get_of_get_pop hget)
  | leaves _ _ r' left hleft hstage hpermits hrunning hruns =>
    rw [hruns] at hget
    exact hold r run (Dict.get_of_get_pop hget)

theorem inv_step (h : Inv o) {op : Op} (hresume : op.NoResume) (hop : o.Uncancelled op) :
    Inv (o.step op) where
  fits := fits_step h hresume hop
  known := known_step h op
  stored := stored_step h op
  runs := runs_step h op

/-- Wherever the invariant holds, cancellations are final after a step but a `resume` iff the step keeps
the discipline. -/
lemma final_step_iff (h : Inv o) {op : Op} (hresume : op.NoResume) :
    (o.step op).Final ↔ o.Uncancelled op := by
  refine ⟨fun hfinal => ?_, fun hop => (inv_step h hresume hop).final⟩
  cases op with
  | enter r now =>
    intro run hget hstage hpermit hcancelled
    have hwithdrawn := h.withdrawn_of_cancelledUnstarted hcancelled
    unfold step at hfinal
    dsimp only at hfinal
    rw [hget] at hfinal
    dsimp only at hfinal
    rw [if_pos ⟨hstage, hpermit⟩] at hfinal
    refine (hfinal run.task ?_).1 (by simp [enter])
    simpa [enter, assign] using hwithdrawn
  | _ => trivial

end Invariant

/-! ### Runs -/

/-- An engine with nothing in it. -/
def initial (maxParallelism : ℕ) : RuntimeOrchestrator := { permits := maxParallelism }

lemma inv_initial (maxParallelism : ℕ) : Inv (initial maxParallelism) where
  fits task object h := by simp [initial] at h
  known task h := by simp [initial] at h
  stored id task h := by simp [initial] at h
  runs r run h := by simp [initial] at h

/-- **Cancellation before the start**: in every run without `resume` the tasks that were cancelled before
their runners were invoked stay cancelled and never have them invoked, iff no run is let through the
semaphore while its task is cancelled and was never started. -/
theorem along_final_iff (maxParallelism : ℕ) (ops : List Op) (h : ∀ op ∈ ops, op.NoResume) :
    Along step (fun o op => (o.step op).Final) (initial maxParallelism) ops ↔
      Along step Uncancelled (initial maxParallelism) ops :=
  along_congr_of (I := Inv) (P := fun _ op => op.NoResume) (along_of_forall h _) (inv_initial maxParallelism)
    (fun _ _ hinv hresume hop => inv_step hinv hresume hop) fun _ _ hinv hresume => final_step_iff hinv hresume

/-- Two tasks, one permit: the second one's run waits when the task is cancelled. -/
theorem along_final_iff_waiting :
    let ops : List Op := [.newTask "a" 0, .newTask "b" 0, .submit 0, .submit 1, .run 0 "a", .enter 0 0,
      .run 1 "b", .cancel "b" 1]
    Along step (fun o op => (o.step op).Final) (initial 1) ops ↔ Along step Uncancelled (initial 1) ops :=
  along_final_iff 1 _ (by decide)

/-- The second task's run waits when the task is cancelled, and starts when the first one's ends. -/
theorem started_after_cancel :
    let o := run step (initial 1) [.newTask "a" 0, .newTask "b" 0, .submit 0, .submit 1, .run 0 "a",
      .enter 0 0, .run 1 "b"]
    (o.cancel "b" 1).1 = true ∧ 1 ∉ o.invoked ∧ ¬ Final (run step o [.cancel "b" 1,
      .runnerEnds 0 .returned, .finish 0 2, .enter 1 2]) := by decide +kernel

end RuntimeOrchestrator

end Tmis.RuntimePlatform
