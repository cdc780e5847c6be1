import Mathlib.Data.Rat.Defs
import Mathlib.Logic.Function.Basic
import Tmis.Lib.Python
import Tmis.Lib.Run

/-!
# Workers, a canceller and a sweeper on one queue

A worker selects an item, marks it running, and reports on it once; cancellations and sweeps land in
between.  Whether an item that has ended can come back is a question of the reports and the sweeps
only, and of what they find.

* `QueueCalls` — a queue as its users see it, with the laws of its calls;
* `Pool`, `Op`, `step` — the users of one queue, and what each of them may do next;
* `Absorbing` — what has ended is not handed out, and does not wait to be run;
* `NoRevival` — no report of a failure, and no time-out, meets an ended item with attempts left;
* `along_absorbing_iff` — over whole runs the two are the same.
-/

namespace Tmis.Lib

/-- Where an item stands: it waits to be run, it runs, or it has come to an end. -/
inductive Stage where
  | runnable | running | ended
  deriving DecidableEq

/-- A queue as its users see it.  A call that raises leaves the queue as it is.  `retries` says
whether a failure would be tried again, `overdue` whether a sweep would time the item out. -/
structure QueueCalls (Q E R : Type) where
  enqueue : Q → Uuid → E → Q
  dequeue : Q → ℚ → Option Uuid
  markRunning : Q → Uuid → ℚ → Q
  markDone : Q → Uuid → R → ℚ → Q
  markFailed : Q → Uuid → String → ℚ → Q
  cancel : Q → Uuid → ℚ → Q
  sweep : Q → ℚ → Q
  stage : Q → Uuid → Option Stage
  retries : Q → Uuid → Bool
  overdue : Q → Uuid → ℚ → Bool
  stage_enqueue : ∀ q id e j,
    stage (enqueue q id e) j = if j = id then some .runnable else stage q j
  stage_dequeue : ∀ q now id, dequeue q now = some id → stage q id = some .runnable
  stage_markRunning : ∀ q id now j, stage (markRunning q id now) j =
    if j = id then (stage q j).map fun _ => .running else stage q j
  stage_markDone : ∀ q id r now j, stage (markDone q id r now) j =
    if j = id then (stage q j).map fun _ => .ended else stage q j
  stage_markFailed : ∀ q id error now j, stage (markFailed q id error now) j =
    if j = id then (stage q j).map fun _ => if retries q j then .runnable else .ended else stage q j
  stage_cancel : ∀ q id now j, stage (cancel q id now) j =
    if j = id then (stage q j).map fun _ => .ended else stage q j
  stage_sweep : ∀ q now j, stage (sweep q now) j =
    if overdue q j now then (stage q j).map fun _ => if retries q j then .runnable else .ended
    else stage q j

/-- What a worker is at: the item it selected, or the item it runs. -/
inductive Task where
  | selected (id : Uuid)
  | running (id : Uuid)

/-- The queue, its workers, the items seen to have ended so far, and the identifiers drawn. -/
structure Pool (Q : Type) where
  queue : Q
  workers : ℕ → Option Task := fun _ => none
  ended : Uuid → Bool := fun _ => false
  uuids : ℕ := 0

/-- What may happen: `w` is the worker that acts. -/
inductive Op (E R : Type) where
  | enqueue (e : E)
  | dequeue (w : ℕ) (now : ℚ)
  | begin (w : ℕ) (now : ℚ)
  | done (w : ℕ) (result : R) (now : ℚ)
  | fail (w : ℕ) (error : String) (now : ℚ)
  | cancel (id : Uuid) (now : ℚ)
  | sweep (now : ℚ)

namespace QueueCalls

variable {Q E R : Type} (calls : QueueCalls Q E R)

/-- The pool after a change of the queue, with what has ended by it noted. -/
def observe (pool : Pool Q) (queue : Q) : Pool Q :=
  { pool with
    queue
    ended := fun id => pool.ended id || calls.stage queue id = some .ended }

/-- The pool after the worker `w` turned to `task`. -/
def turn (pool : Pool Q) (w : ℕ) (task : Option Task) : Pool Q :=
  { pool with workers := Function.update pool.workers w task }

/-- What happens next.  A worker that is not at the point where it may do it does nothing: it selects
when idle, begins what it selected, and reports on what it runs. -/
def step (pool : Pool Q) : Op E R → Pool Q
  | .enqueue e => calls.observe { pool with uuids := pool.uuids + 1 }
      (calls.enqueue pool.queue pool.uuids e)
  | .dequeue w now =>
      match pool.workers w, calls.dequeue pool.queue now with
      | none, some id => turn pool w (some (.selected id))
      | _, _ => pool
  | .begin w now =>
      match pool.workers w with
      | some (.selected id) =>
          calls.observe (turn pool w (some (.running id))) (calls.markRunning pool.queue id now)
      | _ => pool
  | .done w result now =>
      match pool.workers w with
      | some (.running id) =>
          calls.observe (turn pool w none) (calls.markDone pool.queue id result now)
      | _ => pool
  | .fail w error now =>
      match pool.workers w with
      | some (.running id) =>
          calls.observe (turn pool w none) (calls.markFailed pool.queue id error now)
      | _ => pool
  | .cancel id now => calls.observe pool (calls.cancel pool.queue id now)
  | .sweep now => calls.observe pool (calls.sweep pool.queue now)

/-- An item that has ended is not handed out, and no item that has ended waits to be run. -/
structure Absorbing (pool : Pool Q) (op : Op E R) : Prop where
  handed : ∀ w now id, op = .dequeue w now → calls.dequeue pool.queue now = some id →
    pool.ended id = false
  stays : ∀ id, (calls.step pool op).ended id = true →
    calls.stage (calls.step pool op).queue id ≠ some .runnable

/-- The discipline: no report of a failure meets an ended item with attempts left, and no sweep times
such an item out. -/
def NoRevival (pool : Pool Q) : Op E R → Prop
  | .fail w _ _ => ∀ id, pool.workers w = some (.running id) → pool.ended id = true →
      calls.retries pool.queue id = false
  | .sweep now => ∀ id, pool.ended id = true → calls.overdue pool.queue id now = true →
      calls.retries pool.queue id = false
  | _ => True

/-! ### The invariant -/

/-- What has ended is in the queue and does not wait to be run; identifiers to come are new. -/
structure Inv (pool : Pool Q) : Prop where
  ended : ∀ id, pool.ended id = true →
    ∃ stage, calls.stage pool.queue id = some stage ∧ stage ≠ .runnable
  fresh : ∀ id, pool.uuids ≤ id → calls.stage pool.queue id = none

variable {calls} {pool : Pool Q} {op : Op E R}

lemma Inv.not_ended (h : calls.Inv pool) {id : Uuid} (hid : pool.uuids ≤ id) :
    pool.ended id = false := by
  by_contra hne
  obtain ⟨stage, hstage, -⟩ := h.ended id (by simpa using hne)
  rw [h.fresh id hid] at hstage
  cases hstage

/-- What a change of the queue owes: no item is lost or comes from nowhere, and none that has ended
is made to wait. -/
lemma inv_observe (h : calls.Inv pool) {pool' : Pool Q} {queue : Q}
    (hended : pool'.ended = pool.ended) (huuids : pool.uuids ≤ pool'.uuids)
    (hnone : ∀ id, calls.stage pool.queue id = none → calls.stage queue id = none ∨ id < pool'.uuids)
    (hsome : ∀ id, pool.ended id = true →
      ∃ stage, calls.stage queue id = some stage ∧ stage ≠ .runnable) :
    calls.Inv (calls.observe pool' queue) where
  ended id hid := by
    simp only [observe, hended, Bool.or_eq_true, decide_eq_true_eq] at hid
    rcases hid with hid | hid
    · exact hsome id hid
    · exact ⟨.ended, hid, nofun⟩
  fresh id hid := (hnone id (h.fresh id (huuids.trans hid))).resolve_right (not_lt.mpr hid)

/-- A mark that ends or runs one item. -/
lemma inv_mark (h : calls.Inv pool) {pool' : Pool Q} {queue : Q} {id : Uuid} {f : Uuid → Stage}
    (hended : pool'.ended = pool.ended) (huuids : pool.uuids = pool'.uuids)
    (hstage : ∀ j, calls.stage queue j =
      if j = id then (calls.stage pool.queue j).map fun _ => f j else calls.stage pool.queue j)
    (hf : pool.ended id = true → f id ≠ .runnable) : calls.Inv (calls.observe pool' queue) := by
  refine inv_observe h hended huuids.le (fun j hj => Or.inl ?_) fun j hj => ?_
  · rw [hstage, hj]
    split <;> rfl
  · obtain ⟨stage, hs, hne⟩ := h.ended j hj
    rw [hstage, hs]
    split
    · subst j
      exact ⟨f id, rfl, hf hj⟩
    · exact ⟨stage, rfl, hne⟩

/-- **The step lemma**: under the discipline, what has ended does not come to wait again. -/
theorem inv_step (h : calls.Inv pool) (hc : calls.NoRevival pool op) : calls.Inv (calls.step pool op) := by
  cases op with
  | enqueue e =>
    refine inv_observe h rfl (Nat.le_succ _) (fun id hid => ?_) fun id hid => ?_
    · rw [calls.stage_enqueue]
      split
      · subst id
        exact Or.inr (Nat.lt_succ_self _)
      · exact Or.inl hid
    · have hne : id ≠ pool.uuids := by
        rintro rfl
        rw [h.not_ended le_rfl] at hid
        cases hid
      rw [calls.stage_enqueue, if_neg hne]
      exact h.ended id hid
  | dequeue w now =>
    unfold step
    dsimp only
    split
    · exact ⟨h.ended, h.fresh⟩
    · exact h
  | begin w now =>
    unfold step
    dsimp only
    split
    · exact inv_mark h rfl rfl (calls.stage_markRunning _ _ _) (f := fun _ => .running) fun _ => nofun
    · exact h
  | done w result now =>
    unfold step
    dsimp only
    split
    · exact inv_mark h rfl rfl (calls.stage_markDone _ _ _ _) (f := fun _ => .ended) fun _ => nofun
    · exact h
  | fail w error now =>
    unfold step
    dsimp only
    split
    · rename_i id hw
      refine inv_mark h rfl rfl (calls.stage_markFailed _ _ _ _)
        (f := fun j => if calls.retries pool.queue j then .runnable else .ended) fun hid => ?_
      simp [hc id hw hid]
    · exact h
  | cancel id now =>
    exact inv_mark h rfl rfl (calls.stage_cancel _ _ _) (f := fun _ => .ended) fun _ => nofun
  | sweep now =>
    refine inv_observe h rfl le_rfl (fun id hid => Or.inl ?_) fun id hid => ?_
    · rw [calls.stage_sweep, hid]
      split <;> rfl
    · obtain ⟨stage, hs, hne⟩ := h.ended id hid
      rw [calls.stage_sweep, hs]
      split
      · rename_i hover
        exact ⟨.ended, by simp [hc id hid hover], nofun⟩
      · exact ⟨stage, rfl, hne⟩

/-- Where the invariant holds, a step is absorbing iff it meets the discipline. -/
theorem absorbing_iff (h : calls.Inv pool) : calls.Absorbing pool op ↔ calls.NoRevival pool op := by
  constructor
  · intro hab
    cases op with
    | fail w error now =>
      intro id hw hid
      by_contra hretry
      obtain ⟨stage, hs, -⟩ := h.ended id hid
      have hstep : calls.step pool (.fail w error now) =
          calls.observe (turn pool w none) (calls.markFailed pool.queue id error now) := by
        simp only [step, hw]
      have hstays := hab.stays id
      rw [hstep] at hstays
      simp only [observe, turn, hid, Bool.true_or, calls.stage_markFailed, hs] at hstays
      simp [hretry] at hstays
    | sweep now =>
      intro id hid hover
      by_contra hretry
      obtain ⟨stage, hs, -⟩ := h.ended id hid
      have hstays := hab.stays id
      simp only [step, observe, hid, Bool.true_or, calls.stage_sweep, hover, hs] at hstays
      simp [hretry] at hstays
    | _ => trivial
  · intro hc
    refine ⟨fun w now id hop hdeq => ?_, fun id hid hrun => ?_⟩
    · have hrun := calls.stage_dequeue _ _ _ hdeq
      by_contra hne
      obtain ⟨stage, hs, hstage⟩ := h.ended id (by simpa using hne)
      rw [hs] at hrun
      exact hstage (Option.some.inj hrun)
    · obtain ⟨stage, hs, hstage⟩ := (inv_step h hc).ended id hid
      rw [hs] at hrun
      exact hstage (Option.some.inj hrun)

/-- **Ended items stay ended, exactly.**  From an empty queue, nothing that has ended is handed out
or waits to be run at any point of a run iff the run meets the discipline. -/
theorem along_absorbing_iff {q : Q} (hq : ∀ id, calls.stage q id = none) (ops : List (Op E R)) :
    Along calls.step calls.Absorbing { queue := q } ops ↔
      Along calls.step calls.NoRevival { queue := q } ops :=
  along_congr (I := calls.Inv) ⟨nofun, fun id _ => hq id⟩
    (fun _ _ => inv_step) (fun _ _ => absorbing_iff)

end QueueCalls

end Tmis.Lib
