import Mathlib.Data.List.Sort
import Tmis.WorkflowAutomation.ActionEngine
import Tmis.WorkflowAutomation.ConditionEngine

/-!
# The workflow engine

Workflows in versions, and `WorkflowEngine`, which creates, versions, activates and archives them.

* `Workflow`, `orderedSteps` — one version, and its steps in the order they are run in;
* `WorkflowEngine` — the registry of versions;
* `create_keeps`, `newVersion_keeps`, `activate_keeps`, `archive_keeps` — no operation takes a
  workflow out of the store or changes its steps.
-/

namespace Tmis.WorkflowAutomation

open Tmis.Lib

inductive WorkflowStatus where
  | draft | active | archived
  deriving DecidableEq

inductive TriggerType where
  | businessEvent | schedule | deadline | documentCreated | caseUpdated | validation
  | integrationEvent
  deriving DecidableEq

structure Trigger where
  id : Uuid
  workflowId : String
  triggerType : TriggerType
  config : Dict String String := ∅

structure WorkflowStep where
  order : ℤ
  name : String
  action : Action
  condition : Option Condition := none
  parallelGroup : Option String := none

structure Workflow where
  id : Uuid
  workflowKey : Uuid
  firmId : String
  name : String
  version : ℕ
  owner : String
  description : String := ""
  triggers : List Trigger := []
  conditions : List Condition := []
  steps : List WorkflowStep := []
  status : WorkflowStatus := .draft

/-- `sorted(workflow.steps, key=lambda s: s.order)`: a stable sort. -/
def orderedSteps (workflow : Workflow) : List WorkflowStep :=
  workflow.steps.insertionSort fun s t => s.order ≤ t.order

/-- The engine with its in-memory store; `uuids` counts the identifiers drawn so far. -/
structure WorkflowEngine where
  store : Dict (String × Uuid) Workflow := ∅
  uuids : ℕ := 0

namespace WorkflowEngine

/-- `InMemoryWorkflowStore.add`. -/
def add (engine : WorkflowEngine) (workflow : Workflow) : WorkflowEngine :=
  { engine with store := engine.store.set (workflow.firmId, workflow.id) workflow }

def create (engine : WorkflowEngine) (firmId name owner description : String)
    (triggers : List Trigger) (conditions : List Condition) (steps : List WorkflowStep) :
    Workflow × WorkflowEngine :=
  let workflow : Workflow :=
    { id := engine.uuids, workflowKey := engine.uuids + 1, firmId, name, version := 1, owner,
      description, triggers, conditions, steps }
  (workflow, { engine with uuids := engine.uuids + 2 }.add workflow)

def listVersions (engine : WorkflowEngine) (firmId : String) (workflowKey : Uuid) : List Workflow :=
  let versions := engine.store.entries.filterMap fun e =>
    if e.1.1 = firmId ∧ e.2.workflowKey = workflowKey then some e.2 else none
  versions.insertionSort fun v w => v.version ≤ w.version

def newVersion (engine : WorkflowEngine) (firmId : String) (workflowKey : Uuid) (owner : String)
    (description : Option String) (triggers : Option (List Trigger))
    (conditions : Option (List Condition)) (steps : Option (List WorkflowStep)) :
    Except PyException (Workflow × WorkflowEngine) :=
  match (engine.listVersions firmId workflowKey).getLast? with
  | none => .error (keyError (toString workflowKey))
  | some latest =>
      let workflow : Workflow :=
        { id := engine.uuids, workflowKey, firmId, name := latest.name,
          version := latest.version + 1, owner,
          description := description.getD latest.description,
          triggers := triggers.getD latest.triggers,
          conditions := conditions.getD latest.conditions,
          steps := steps.getD latest.steps }
      .ok (workflow, { engine with uuids := engine.uuids + 1 }.add workflow)

def get (engine : WorkflowEngine) (firmId : String) (workflowId : Uuid) :
    Except PyException Workflow :=
  match engine.store.get (firmId, workflowId) with
  | none => .error (keyError (toString workflowId))
  | some workflow => .ok workflow

def getActive (engine : WorkflowEngine) (firmId : String) (workflowKey : Uuid) : Option Workflow :=
  (engine.listVersions firmId workflowKey).find? (·.status = .active)

def activate (engine : WorkflowEngine) (firmId : String) (workflowId : Uuid) :
    Except PyException (Workflow × WorkflowEngine) := do
  let workflow ← engine.get firmId workflowId
  let engine := match engine.getActive firmId workflow.workflowKey with
    | some previousActive =>
        if previousActive.id ≠ workflow.id then engine.add { previousActive with status := .archived }
        else engine
    | none => engine
  let workflow := { workflow with status := .active }
  return (workflow, engine.add workflow)

def archive (engine : WorkflowEngine) (firmId : String) (workflowId : Uuid) :
    Except PyException (Workflow × WorkflowEngine) := do
  let workflow ← engine.get firmId workflowId
  let workflow := { workflow with status := .archived }
  return (workflow, engine.add workflow)

/-! ### The store -/

/-- The entries stand under the keys of their workflows, and the identifiers to come are new. -/
def WellKeyed (engine : WorkflowEngine) : Prop :=
  ∀ key w, engine.store.get key = some w → key = (w.firmId, w.id) ∧ w.id < engine.uuids

/-- What is stored stays stored, with the same steps. -/
def Keeps (engine engine' : WorkflowEngine) : Prop :=
  ∀ key w, engine.store.get key = some w → ∃ w', engine'.store.get key = some w' ∧ w'.steps = w.steps

variable {engine : WorkflowEngine}

lemma Keeps.refl (engine : WorkflowEngine) : Keeps engine engine := fun _ w h => ⟨w, h, rfl⟩

lemma Keeps.trans {e₁ e₂ e₃ : WorkflowEngine} (h : Keeps e₁ e₂) (h' : Keeps e₂ e₃) : Keeps e₁ e₃ := by
  intro key w hw
  obtain ⟨w', hw', hs⟩ := h key w hw
  obtain ⟨w'', hw'', hs'⟩ := h' key w' hw'
  exact ⟨w'', hw'', hs'.trans hs⟩

/-- A workflow under a new identifier. -/
lemma add_new {w : Workflow} {n : ℕ} (h : WellKeyed engine) (hid : engine.uuids ≤ w.id)
    (hn : w.id < n) :
    WellKeyed ({ engine with uuids := n }.add w) ∧ Keeps engine ({ engine with uuids := n }.add w) := by
  constructor
  · intro key v hv
    simp only [add, Dict.get_set] at hv ⊢
    split at hv
    · cases hv
      exact ⟨‹_›, hn⟩
    · obtain ⟨hkey, hlt⟩ := h key v hv
      exact ⟨hkey, hlt.trans_le (hid.trans hn.le)⟩
  · intro key v hv
    obtain ⟨rfl, hlt⟩ := h key v hv
    refine ⟨v, ?_, rfl⟩
    have hne : (v.firmId, v.id) ≠ (w.firmId, w.id) := fun heq =>
      (hlt.trans_le hid).ne (congrArg Prod.snd heq)
    simp only [add, Dict.get_set_of_ne _ _ hne, hv]

/-- A new status for a stored workflow. -/
lemma add_status {key : String × Uuid} {w : Workflow} (h : WellKeyed engine)
    (hw : engine.store.get key = some w) (status : WorkflowStatus) :
    WellKeyed (engine.add { w with status }) ∧ Keeps engine (engine.add { w with status }) := by
  obtain ⟨rfl, hlt⟩ := h key w hw
  constructor
  · intro key v hv
    simp only [add, Dict.get_set] at hv ⊢
    split at hv
    · cases hv
      exact ⟨‹_›, hlt⟩
    · exact h key v hv
  · intro key v hv
    simp only [add, Dict.get_set]
    split
    · rename_i heq
      rw [heq, hw] at hv
      cases hv
      exact ⟨_, rfl, rfl⟩
    · exact ⟨v, hv, rfl⟩

lemma get_ok_iff {firmId : String} {workflowId : Uuid} {w : Workflow} :
    engine.get firmId workflowId = .ok w ↔ engine.store.get (firmId, workflowId) = some w := by
  unfold get
  cases engine.store.get (firmId, workflowId) <;> simp

lemma stored_of_mem_listVersions {firmId : String} {workflowKey : Uuid} {w : Workflow}
    (h : w ∈ engine.listVersions firmId workflowKey) : ∃ key, engine.store.get key = some w := by
  rw [listVersions, List.mem_insertionSort, List.mem_filterMap] at h
  obtain ⟨⟨key, v⟩, hentry, hsome⟩ := h
  split at hsome
  · cases hsome
    exact ⟨key, Dict.mem_entries_iff.mp hentry⟩
  · cases hsome

lemma getActive_stored {firmId : String} {workflowKey : Uuid} {w : Workflow}
    (h : engine.getActive firmId workflowKey = some w) : ∃ key, engine.store.get key = some w :=
  stored_of_mem_listVersions (List.mem_of_find?_eq_some h)

/-! ### The operations keep the store -/

lemma create_keeps (h : WellKeyed engine) (firmId name owner description : String)
    (triggers : List Trigger) (conditions : List Condition) (steps : List WorkflowStep) :
    WellKeyed (engine.create firmId name owner description triggers conditions steps).2 ∧
      Keeps engine (engine.create firmId name owner description triggers conditions steps).2 :=
  add_new h le_rfl (Nat.lt_add_of_pos_right (by decide))

lemma newVersion_keeps (h : WellKeyed engine) {firmId owner : String} {workflowKey : Uuid}
    {description : Option String} {triggers : Option (List Trigger)}
    {conditions : Option (List Condition)} {steps : Option (List WorkflowStep)}
    {r : Workflow × WorkflowEngine}
    (hok : engine.newVersion firmId workflowKey owner description triggers conditions steps = .ok r) :
    WellKeyed r.2 ∧ Keeps engine r.2 := by
  unfold newVersion at hok
  split at hok
  · cases hok
  · cases hok
    exact add_new h le_rfl (Nat.lt_succ_self _)

lemma archive_keeps (h : WellKeyed engine) {firmId : String} {workflowId : Uuid}
    {r : Workflow × WorkflowEngine} (hok : engine.archive firmId workflowId = .ok r) :
    WellKeyed r.2 ∧ Keeps engine r.2 := by
  unfold archive at hok
  cases hget : engine.get firmId workflowId with
  | error e => rw [hget] at hok; cases hok
  | ok w =>
    rw [hget] at hok
    cases hok
    exact add_status h (get_ok_iff.mp hget) .archived

lemma activate_keeps (h : WellKeyed engine) {firmId : String} {workflowId : Uuid}
    {r : Workflow × WorkflowEngine} (hok : engine.activate firmId workflowId = .ok r) :
    WellKeyed r.2 ∧ Keeps engine r.2 := by
  unfold activate at hok
  cases hget : engine.get firmId workflowId with
  | error e => rw [hget] at hok; cases hok
  | ok w =>
    rw [hget] at hok
    have hw := get_ok_iff.mp hget
    cases hact : engine.getActive firmId w.workflowKey with
    | none =>
      simp only [hact, bind, Except.bind, pure, Except.pure] at hok
      cases hok
      exact add_status h hw .active
    | some p =>
      simp only [hact, bind, Except.bind, pure, Except.pure] at hok
      cases hok
      split
      · -- the version that was active is archived first
        rename_i hne
        obtain ⟨key, hp⟩ := getActive_stored hact
        obtain ⟨hkeyed, hkeeps⟩ := add_status h hp .archived
        have hw' : (engine.add { p with status := .archived }).store.get (firmId, workflowId) =
            some w := by
          obtain ⟨rfl, -⟩ := h key p hp
          obtain ⟨heq, -⟩ := h _ w hw
          have hkey : (firmId, workflowId) ≠ (p.firmId, p.id) := fun hk =>
            hne (congrArg Prod.snd (hk.symm.trans heq))
          simp only [add, Dict.get_set_of_ne _ _ hkey, hw]
        obtain ⟨hkeyed', hkeeps'⟩ := add_status hkeyed hw' .active
        exact ⟨hkeyed', hkeeps.trans hkeeps'⟩
      · exact add_status h hw .active

end WorkflowEngine

end Tmis.WorkflowAutomation
