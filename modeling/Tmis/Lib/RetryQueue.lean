import Mathlib.Data.List.Sort
import Tmis.Lib.Dict
import Tmis.Lib.WorkerPool

/-!
# A priority queue with retries

Items with a priority, a number of attempts and a time they may run for.  Selecting an item and
marking it are separate calls; none of the marks looks at the status it replaces, the sweep apart.

* `Item`, `RetryQueue` — the items, each under its identifier;
* `dequeueNext`, `markRunning`, `markDone`, `markFailed`, `cancel`, `checkTimeouts` — the calls;
* `get_update`, `get_checkTimeouts` — the items after a call;
* `dequeueNext_runnable` — what is selected waits to be run;
* `calls` — the queue as workers, a canceller and a sweeper see it.
-/

namespace Tmis.Lib

inductive ItemStatus where
  | pending | running | done | failed | retrying | cancelled | timedOut
  deriving DecidableEq

/-- An item with its payload, and the result it may come to. -/
structure Item (P R : Type) where
  id : Uuid
  payload : P
  priority : ℤ := 0
  status : ItemStatus := .pending
  attempts : ℕ := 0
  maxAttempts : ℕ := 3
  timeoutSeconds : ℚ := 60
  createdAt : ℚ
  startedAt : Option ℚ := none
  completedAt : Option ℚ := none
  result : Option R := none
  error : Option String := none

namespace Item

variable {P R : Type}

/-- The item waits to be run. -/
def Runnable (item : Item P R) : Prop := item.status = .pending ∨ item.status = .retrying

instance (item : Item P R) : Decidable item.Runnable := by unfold Runnable; infer_instance

/-- The order of selection: the higher priority first, then the older item. -/
def before (a b : Item P R) : Prop :=
  b.priority < a.priority ∨ (a.priority = b.priority ∧ a.createdAt ≤ b.createdAt)

instance : DecidableRel (before (P := P) (R := R)) := fun a b => by unfold before; infer_instance

/-- The item after a failed attempt. -/
def failed (item : Item P R) (error : String) (now : ℚ) : Item P R :=
  if item.attempts < item.maxAttempts then { item with error := some error, status := .retrying }
  else { item with error := some error, status := .failed, completedAt := some now }

/-- The time the item has been running for, if it is longer than it may. -/
def overdue (item : Item P R) (now : ℚ) : Option ℚ :=
  match item.status, item.startedAt with
  | .running, some startedAt =>
      if now - startedAt ≤ item.timeoutSeconds then none else some (now - startedAt)
  | _, _ => none

/-- The item after a sweep. -/
def swept (item : Item P R) (now : ℚ) : Item P R :=
  match item.overdue now with
  | none => item
  | some elapsed =>
      let item := item.failed ("timed out after " ++ tenths elapsed ++ "s") now
      if item.status = .failed then { item with status := .timedOut } else item

@[simp] lemma failed_id (item : Item P R) (error : String) (now : ℚ) :
    (item.failed error now).id = item.id := by
  unfold failed
  split <;> rfl

@[simp] lemma swept_id (item : Item P R) (now : ℚ) : (item.swept now).id = item.id := by
  unfold swept
  split
  · rfl
  · dsimp only
    split <;> simp

@[simp] lemma failed_payload (item : Item P R) (error : String) (now : ℚ) :
    (item.failed error now).payload = item.payload := by
  unfold failed
  split <;> rfl

lemma failed_status (item : Item P R) (error : String) (now : ℚ) : (item.failed error now).status =
    if item.attempts < item.maxAttempts then .retrying else .failed := by
  unfold failed
  split <;> rfl

lemma swept_status (item : Item P R) (now : ℚ) : (item.swept now).status =
    if item.overdue now = none then item.status
    else if item.attempts < item.maxAttempts then .retrying else .timedOut := by
  unfold swept
  cases item.overdue now with
  | none => simp
  | some elapsed =>
    simp only [failed_status, reduceCtorEq, if_false]
    by_cases h : item.attempts < item.maxAttempts
    · simp [h, failed_status]
    · simp [h]

end Item

/-- The queue: every item stands under its identifier. -/
structure RetryQueue (P R : Type) where
  items : Dict Uuid (Item P R) := ∅
  keyed : ∀ k x, items.get k = some x → x.id = k := by intro _ _ h; cases h

namespace RetryQueue

variable {P R : Type}

instance : Inhabited (RetryQueue P R) := ⟨{}⟩

def get (q : RetryQueue P R) (id : Uuid) : Option (Item P R) := q.items.get id

def listAll (q : RetryQueue P R) : List (Item P R) := q.items.values

def enqueue (q : RetryQueue P R) (item : Item P R) : RetryQueue P R where
  items := q.items.set item.id item
  keyed k x h := by
    rw [Dict.get_set] at h
    split at h
    · cases h
      exact Eq.symm ‹_›
    · exact q.keyed k x h

/-- The first runnable item in the order of selection; the sort is stable. -/
def dequeueNext (q : RetryQueue P R) : Option (Item P R) :=
  ((q.listAll.filter fun item => item.Runnable).insertionSort Item.before).head?

/-- The queue with every item changed, identifiers apart. -/
def map (q : RetryQueue P R) (f : Item P R → Item P R) (hf : ∀ x, (f x).id = x.id) :
    RetryQueue P R where
  items := q.items.map fun _ => f
  keyed k x h := by
    rw [Dict.get_map] at h
    obtain ⟨y, hy, rfl⟩ := Option.map_eq_some_iff.mp h
    rw [hf, q.keyed k y hy]

/-- The queue with one item changed, if it is there. -/
def modify (q : RetryQueue P R) (id : Uuid) (f : Item P R → Item P R) (hf : ∀ x, (f x).id = x.id) :
    RetryQueue P R :=
  q.map (fun x => if x.id = id then f x else x) fun x => by split <;> simp [hf]

/-- The queue with one item changed, or a `KeyError`. -/
def update (q : RetryQueue P R) (id : Uuid) (f : Item P R → Item P R) (hf : ∀ x, (f x).id = x.id) :
    Except PyException (RetryQueue P R) :=
  match q.get id with
  | none => .error (keyError (toString id))
  | some _ => .ok (q.modify id f hf)

def markRunning (q : RetryQueue P R) (id : Uuid) (now : ℚ) : Except PyException (RetryQueue P R) :=
  q.update id (fun item => { item with
    status := .running, attempts := item.attempts + 1, startedAt := some now }) fun _ => rfl

def markDone (q : RetryQueue P R) (id : Uuid) (result : R) (now : ℚ) :
    Except PyException (RetryQueue P R) :=
  q.update id (fun item => { item with
    status := .done, result := some result, completedAt := some now }) fun _ => rfl

def markFailed (q : RetryQueue P R) (id : Uuid) (error : String) (now : ℚ) :
    Except PyException (RetryQueue P R) :=
  q.update id (fun item => item.failed error now) fun item => item.failed_id error now

def cancel (q : RetryQueue P R) (id : Uuid) (now : ℚ) : Except PyException (RetryQueue P R) :=
  q.update id (fun item => { item with status := .cancelled, completedAt := some now }) fun _ => rfl

/-- The sweep: the items it timed out, and the queue. -/
def checkTimeouts (q : RetryQueue P R) (now : ℚ) : List (Item P R) × RetryQueue P R :=
  ((q.listAll.filter fun item => item.overdue now ≠ none).map (·.swept now),
    q.map (·.swept now) fun item => item.swept_id now)

/-! ### The items after a call -/

@[simp] lemma get_empty (id : Uuid) : ({} : RetryQueue P R).get id = none := rfl

lemma get_enqueue (q : RetryQueue P R) (item : Item P R) (id : Uuid) :
    (q.enqueue item).get id = if id = item.id then some item else q.get id :=
  Dict.get_set ..

lemma get_modify (q : RetryQueue P R) (id j : Uuid) (f : Item P R → Item P R)
    (hf : ∀ x, (f x).id = x.id) :
    (q.modify id f hf).get j = if j = id then (q.get j).map f else q.get j := by
  have h := Dict.get_map (fun _ x => if x.id = id then f x else x) q.items j
  have hq : ∀ x, q.get j = some x → x.id = j := q.keyed j
  change (q.modify id f hf).get j = (q.get j).map _ at h
  rw [h]
  cases hget : q.get j with
  | none => simp
  | some x =>
    obtain rfl := hq x hget
    simp only [Option.map_some]
    split <;> rfl

/-- **The items after a mark.** -/
theorem get_update {q q' : RetryQueue P R} {id : Uuid} {f : Item P R → Item P R}
    {hf : ∀ x, (f x).id = x.id} (h : q.update id f hf = .ok q') (j : Uuid) :
    q'.get j = if j = id then (q.get j).map f else q.get j := by
  unfold update at h
  split at h
  · cases h
  · cases h
    exact get_modify ..

lemma update_error {q : RetryQueue P R} {id : Uuid} {f : Item P R → Item P R}
    {hf : ∀ x, (f x).id = x.id} {e : PyException} (h : q.update id f hf = .error e) :
    q.get id = none := by
  unfold update at h
  split at h
  · assumption
  · cases h

lemma get_checkTimeouts (q : RetryQueue P R) (now : ℚ) (id : Uuid) :
    (q.checkTimeouts now).2.get id = (q.get id).map (·.swept now) :=
  Dict.get_map ..

/-- **What is selected** is stored, and waits to be run. -/
theorem dequeueNext_runnable {q : RetryQueue P R} {item : Item P R}
    (h : q.dequeueNext = some item) : q.get item.id = some item ∧ item.Runnable := by
  have hmem := List.mem_of_mem_head? (Option.mem_def.mpr h)
  rw [List.mem_insertionSort, List.mem_filter] at hmem
  obtain ⟨k, hk⟩ := Dict.mem_values_iff.mp hmem.1
  obtain rfl := q.keyed k item hk
  exact ⟨hk, by simpa using hmem.2⟩

/-! ### The queue as its users see it -/

/-- What a caller says of a new item. -/
structure NewItem (P : Type) where
  payload : P
  createdAt : ℚ
  priority : ℤ := 0
  maxAttempts : ℕ := 3
  timeoutSeconds : ℚ := 60

def NewItem.item (new : NewItem P) (id : Uuid) : Item P R :=
  { id, payload := new.payload, priority := new.priority, maxAttempts := new.maxAttempts,
    timeoutSeconds := new.timeoutSeconds, createdAt := new.createdAt }

/-- Where an item of the status stands. -/
def statusStage : ItemStatus → Stage
  | .pending | .retrying => .runnable
  | .running => .running
  | .done | .failed | .cancelled | .timedOut => .ended

def stageOf (item : Item P R) : Stage := statusStage item.status

lemma stageOf_runnable {item : Item P R} (h : item.Runnable) : stageOf item = .runnable := by
  unfold stageOf
  rcases h with h | h <;> rw [h] <;> rfl

lemma stageOf_failed (item : Item P R) (error : String) (now : ℚ) :
    stageOf (item.failed error now) =
      if item.attempts < item.maxAttempts then .runnable else .ended := by
  rw [stageOf, Item.failed_status]
  split <;> rfl

lemma stageOf_swept (item : Item P R) (now : ℚ) : stageOf (item.swept now) =
    if item.overdue now = none then stageOf item
    else if item.attempts < item.maxAttempts then .runnable else .ended := by
  rw [stageOf, Item.swept_status]
  split_ifs <;> rfl

def stage (q : RetryQueue P R) (id : Uuid) : Option Stage := (q.get id).map stageOf

lemma stage_update {q : RetryQueue P R} {id : Uuid} {f : Item P R → Item P R}
    {hf : ∀ x, (f x).id = x.id} (j : Uuid) : (afterCall q (q.update id f hf)).stage j =
      if j = id then ((q.get j).map f).map stageOf else q.stage j := by
  cases h : q.update id f hf with
  | ok q' =>
    simp only [afterCall, stage, get_update h]
    split <;> rfl
  | error e =>
    have hnone := update_error h
    simp only [afterCall, stage]
    split
    · subst j
      rw [hnone]
      rfl
    · rfl

/-- **The queue as its users see it.** -/
def calls : QueueCalls (RetryQueue P R) (NewItem P) R where
  enqueue q id new := q.enqueue (new.item id)
  dequeue q _ := q.dequeueNext.map (·.id)
  markRunning q id now := afterCall q (q.markRunning id now)
  markDone q id result now := afterCall q (q.markDone id result now)
  markFailed q id error now := afterCall q (q.markFailed id error now)
  cancel q id now := afterCall q (q.cancel id now)
  sweep q now := (q.checkTimeouts now).2
  stage := stage
  retries q id := (q.get id).any fun item => item.attempts < item.maxAttempts
  overdue q id now := (q.get id).any fun item => (item.overdue now).isSome
  stage_enqueue q id new j := by
    simp only [stage, get_enqueue, NewItem.item]
    split <;> rfl
  stage_dequeue q now id h := by
    obtain ⟨item, hitem, rfl⟩ := Option.map_eq_some_iff.mp h
    obtain ⟨hget, hrun⟩ := dequeueNext_runnable hitem
    rw [stage, hget, Option.map_some, stageOf_runnable hrun]
  stage_markRunning q id now j := by
    rw [markRunning, stage_update, Option.map_map]
    simp only [stage, Option.map_map]
    rfl
  stage_markDone q id result now j := by
    rw [markDone, stage_update, Option.map_map]
    simp only [stage, Option.map_map]
    rfl
  stage_markFailed q id error now j := by
    rw [markFailed, stage_update]
    cases hget : q.get j <;> simp [stage, hget, stageOf_failed]
  stage_cancel q id now j := by
    rw [cancel, stage_update, Option.map_map]
    simp only [stage, Option.map_map]
    rfl
  stage_sweep q now j := by
    simp only [stage, get_checkTimeouts]
    cases hget : q.get j with
    | none => simp
    | some item => cases h : item.overdue now <;> simp [stageOf_swept, h]

end RetryQueue

end Tmis.Lib
