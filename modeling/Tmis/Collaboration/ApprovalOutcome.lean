import Mathlib.Data.List.Induction
import Tmis.Collaboration.Workspace
import Tmis.Lib.Run

/-!
# The outcome of an approval

`collaboration.approvals.ApprovalEngine` over its in-memory store.  The decisions on a request are kept in a
history that only grows, and the status is computed from it anew each time.  What it comes to is decided by
the latest decision of each approver alone.

* `ApprovalEngine`, `Call`, `step` — the engine, and its calls;
* `latestDecision`, `get_latestDecisions` — the latest decision of an approver, and that the engine's table
  holds it;
* `computeStatus_congr`, `computeStatus_eq_approved`, … — what the status says of the latest decisions;
* `Outcome`, `OrderFree`, `OutsidersRaise` — the properties of an engine;
* `approval_outcome` — after every sequence of calls.
-/

namespace Tmis.Collaboration

open Tmis.Lib

/-- The engine with its in-memory store; `uuids` counts the identifiers drawn so far. -/
structure ApprovalEngine where
  approvals : Store Uuid ApprovalRequest ApprovalRequest.id := ∅
  uuids : ℕ := 0

namespace ApprovalEngine

def request (engine : ApprovalEngine) (workspaceId : Uuid) (targetType targetId requestedBy : String)
    (approverIds : List String) (mode : ApprovalMode) : ApprovalRequest × ApprovalEngine :=
  let approval : ApprovalRequest :=
    { id := engine.uuids, workspaceId, targetType, targetId, requestedBy, approverIds, mode }
  (approval, { approvals := engine.approvals.save approval, uuids := engine.uuids + 1 })

def decide (engine : ApprovalEngine) (approvalId : Uuid) (approverId : String)
    (decision : ApprovalDecisionType) (comment : Option String) :
    Except PyException (ApprovalRequest × ApprovalEngine) := do
  let approval ← requireFound (engine.approvals.get approvalId) "approval request" approvalId
  let approval ← approvalDecide approval approverId decision comment
  return (approval, { engine with approvals := engine.approvals.save approval })

/-- The calls that change the store. -/
inductive Call where
  | request (workspaceId : Uuid) (targetType targetId requestedBy : String) (approverIds : List String)
      (mode : ApprovalMode)
  | decide (approvalId : Uuid) (approverId : String) (decision : ApprovalDecisionType)
      (comment : Option String)

/-- The engine after a call; one that raises leaves it as it is. -/
def step (engine : ApprovalEngine) : Call → ApprovalEngine
  | .request workspaceId targetType targetId requestedBy approverIds mode =>
      (engine.request workspaceId targetType targetId requestedBy approverIds mode).2
  | .decide approvalId approverId decision comment =>
      afterCall engine ((engine.decide approvalId approverId decision comment).map Prod.snd)

end ApprovalEngine

/-! ### The latest decisions -/

/-- The latest decision of an approver, if there is one. -/
def latestDecision (history : List ApprovalDecision) (approverId : String) : Option ApprovalDecisionType :=
  (history.reverse.find? fun entry => entry.approverId = approverId).map ApprovalDecision.decision

section Latest

variable {history : List ApprovalDecision} {a : String} {d : ApprovalDecisionType}

lemma latestDecision_snoc (history : List ApprovalDecision) (entry : ApprovalDecision) (a : String) :
    latestDecision (history ++ [entry]) a =
      if a = entry.approverId then some entry.decision else latestDecision history a := by
  unfold latestDecision
  rw [List.reverse_append, List.reverse_singleton, List.singleton_append, List.find?_cons]
  by_cases ha : a = entry.approverId
  · simp [ha]
  · simp [ha, Ne.symm ha]

/-- **The table of the engine** holds the latest decision of each approver. -/
theorem get_latestDecisions (history : List ApprovalDecision) (a : String) :
    (latestDecisions history).get a = latestDecision history a := by
  induction history using List.reverseRecOn with
  | nil => rfl
  | append_singleton history entry ih =>
    have hsnoc : latestDecisions (history ++ [entry]) =
        (latestDecisions history).set entry.approverId entry.decision := by simp [latestDecisions]
    rw [hsnoc, Dict.get_set, latestDecision_snoc, ih]

lemma exists_of_latestDecision (h : latestDecision history a = some d) :
    ∃ entry ∈ history, entry.approverId = a ∧ entry.decision = d := by
  obtain ⟨entry, hfind, hd⟩ := Option.map_eq_some_iff.mp h
  have hmem := List.mem_of_find?_eq_some hfind
  have ha := List.find?_some hfind
  exact ⟨entry, List.mem_reverse.mp hmem, of_decide_eq_true ha, hd⟩

lemma latestDecision_eq_none : (∀ a, latestDecision history a = none) ↔ history = [] := by
  constructor
  · intro h
    cases history using List.reverseRecOn with
    | nil => rfl
    | append_singleton history entry =>
      have hnone := h entry.approverId
      rw [latestDecision_snoc, if_pos rfl] at hnone
      cases hnone
  · rintro rfl a
    rfl

/-- Somebody's latest decision is this one. -/
lemma any_latestDecisions (history : List ApprovalDecision) (d : ApprovalDecisionType) :
    (latestDecisions history).values.any (fun x => decide (x = d)) = true ↔
      ∃ a, latestDecision history a = some d := by
  rw [List.any_eq_true]
  constructor
  · rintro ⟨x, hx, hd⟩
    obtain rfl := of_decide_eq_true hd
    obtain ⟨a, ha⟩ := Dict.mem_values_iff.mp hx
    exact ⟨a, get_latestDecisions history a ▸ ha⟩
  · rintro ⟨a, ha⟩
    exact ⟨d, Dict.mem_values_iff.mpr ⟨a, (get_latestDecisions history a).trans ha⟩, decide_eq_true rfl⟩

/-! ### The status -/

variable {mode : ApprovalMode} {approverIds : List String} {history' : List ApprovalDecision}

/-- **The status depends on the latest decisions only.** -/
theorem computeStatus_congr (h : ∀ a, latestDecision history a = latestDecision history' a) :
    computeStatus mode approverIds history = computeStatus mode approverIds history' := by
  have hany : ∀ d, ((latestDecisions history).values.any fun x => decide (x = d)) =
      (latestDecisions history').values.any fun x => decide (x = d) := by
    intro d
    rw [Bool.eq_iff_iff, any_latestDecisions, any_latestDecisions]
    simp only [h]
  have hget : ∀ a, (latestDecisions history).get a = (latestDecisions history').get a := by
    intro a
    rw [get_latestDecisions, get_latestDecisions, h]
  unfold computeStatus
  simp only [hany, hget]

lemma computeStatus_of_reject (h : ∃ a, latestDecision history a = some .reject) :
    computeStatus mode approverIds history = .rejected := by
  rw [computeStatus, if_pos ((any_latestDecisions history .reject).mpr h)]

lemma computeStatus_of_requestChanges (hno : ¬ ∃ a, latestDecision history a = some .reject)
    (h : ∃ a, latestDecision history a = some .requestChanges) :
    computeStatus mode approverIds history = .changesRequested := by
  rw [computeStatus, if_neg (mt (any_latestDecisions history .reject).mp hno),
    if_pos ((any_latestDecisions history .requestChanges).mpr h)]

/-- With decisions of those who are asked only, and at least one of them, all of them must approve. -/
lemma computeStatus_eq_approved (hlisted : ∀ entry ∈ history, entry.approverId ∈ approverIds) :
    computeStatus .multiple approverIds history = .approved ↔
      ∀ a ∈ approverIds, latestDecision history a = some .approve := by
  have hall : (approverIds.all fun a => decide ((latestDecisions history).get a = some .approve)) = true ↔
      ∀ a ∈ approverIds, latestDecision history a = some .approve := by
    simp only [List.all_eq_true, decide_eq_true_eq, get_latestDecisions]
  have hother : ∀ d, d ≠ .approve → (∀ a ∈ approverIds, latestDecision history a = some .approve) →
      ¬ ((latestDecisions history).values.any fun x => decide (x = d)) = true := by
    intro d hd happrove hany
    obtain ⟨a, ha⟩ := (any_latestDecisions history d).mp hany
    obtain ⟨entry, hentry, rfl, -⟩ := exists_of_latestDecision ha
    rw [happrove _ (hlisted entry hentry)] at ha
    exact hd (Option.some.inj ha).symm
  unfold computeStatus
  dsimp only
  constructor
  · intro h
    split_ifs at h
    · rename_i hmode _
      cases hmode
    · rename_i happrove
      exact hall.mp happrove
  · intro happrove
    rw [if_neg (hother .reject (by decide) happrove), if_neg (hother .requestChanges (by decide) happrove),
      if_neg (by decide), if_pos (hall.mpr happrove)]

end Latest

/-! ### What is to hold -/

/-- What the status of a request says of the latest decisions. -/
structure Outcome (approval : ApprovalRequest) : Prop where
  multiple : approval.mode = .multiple → approval.approverIds ≠ [] →
    (approval.status = .approved ↔
      ∀ a ∈ approval.approverIds, latestDecision approval.history a = some .approve)
  rejected : (∃ a, latestDecision approval.history a = some .reject) → approval.status = .rejected
  changesRequested : (¬ ∃ a, latestDecision approval.history a = some .reject) →
    (∃ a, latestDecision approval.history a = some .requestChanges) → approval.status = .changesRequested

namespace ApprovalEngine

def Outcomes (engine : ApprovalEngine) : Prop := ∀ approval ∈ engine.approvals.values, Outcome approval

/-- Whatever is called from here on, in whichever order: the status of a request comes out the same if the
latest decision of each approver does. -/
def OrderFree (engine : ApprovalEngine) : Prop :=
  ∀ id, (engine.approvals.get id).isSome → ∀ (calls calls' : List Call) approval approval',
    (run step engine calls).approvals.get id = some approval →
    (run step engine calls').approvals.get id = some approval' →
    (∀ a, latestDecision approval.history a = latestDecision approval'.history a) →
    approval.status = approval'.status

/-- Somebody who is not asked cannot decide, and changes nothing by it. -/
def OutsidersRaise (engine : ApprovalEngine) : Prop :=
  ∀ id approval, engine.approvals.get id = some approval → ∀ approverId ∉ approval.approverIds,
    ∀ decision comment, engine.decide id approverId decision comment =
        .error (valueError (pyRepr approverId ++ " is not an approver for " ++ pyRepr (toString approval.id))) ∧
      step engine (.decide id approverId decision comment) = engine

/-! ### The invariant -/

/-- The status is computed from the history, which holds decisions of those who are asked only; before the
first decision the request is pending. -/
structure Derived (approval : ApprovalRequest) : Prop where
  status_eq : (approval.history = [] ∧ approval.status = .pending) ∨ (approval.history ≠ [] ∧
    approval.status = computeStatus approval.mode approval.approverIds approval.history)
  listed : ∀ entry ∈ approval.history, entry.approverId ∈ approval.approverIds

lemma Derived.outcome {approval : ApprovalRequest} (h : Derived approval) : Outcome approval := by
  rcases h.status_eq with ⟨hempty, hpending⟩ | ⟨-, hstatus⟩
  · have hnone : ∀ a, latestDecision approval.history a = none := latestDecision_eq_none.mpr hempty
    refine ⟨fun _ hasked => ?_, ?_, fun _ => ?_⟩
    · obtain ⟨a, ha⟩ := List.exists_mem_of_ne_nil _ hasked
      refine iff_of_false (by rw [hpending]; decide) fun happrove => ?_
      have hsome := happrove a ha
      rw [hnone a] at hsome
      cases hsome
    · rintro ⟨a, ha⟩
      rw [hnone a] at ha
      cases ha
    · rintro ⟨a, ha⟩
      rw [hnone a] at ha
      cases ha
  · refine ⟨fun hmode _ => ?_, fun hreject => ?_, fun hno hchanges => ?_⟩
    · rw [hstatus, hmode]
      exact computeStatus_eq_approved h.listed
    · rw [hstatus]
      exact computeStatus_of_reject hreject
    · rw [hstatus]
      exact computeStatus_of_requestChanges hno hchanges

lemma derived_decided {approval : ApprovalRequest} (h : Derived approval) {approverId : String}
    (hlisted : approverId ∈ approval.approverIds) (decision : ApprovalDecisionType) (comment : Option String) :
    Derived (approval.decided approverId decision comment) := by
  refine ⟨Or.inr ⟨?_, rfl⟩, ?_⟩
  · simp [ApprovalRequest.decided]
  · intro entry hentry
    rcases List.mem_append.mp hentry with hentry | hentry
    · exact h.listed entry hentry
    · rw [List.mem_singleton.mp hentry]
      exact hlisted

/-- The requests are as their decisions say, and the identifiers to come are new. -/
structure Inv (engine : ApprovalEngine) : Prop where
  derived : ∀ id approval, engine.approvals.get id = some approval → Derived approval
  below : engine.approvals.Below engine.uuids

section Steps

variable {engine : ApprovalEngine} {call : Call}

lemma decide_ok {id : Uuid} {approverId : String} {decision : ApprovalDecisionType} {comment : Option String}
    {r : ApprovalRequest × ApprovalEngine} : engine.decide id approverId decision comment = .ok r ↔
      ∃ approval, engine.approvals.get id = some approval ∧ approverId ∈ approval.approverIds ∧
        r = (approval.decided approverId decision comment,
          { engine with approvals := engine.approvals.save (approval.decided approverId decision comment) }) := by
  simp only [decide, bind_eq_ok, pure_eq_ok, requireFound_ok, approvalDecide_ok]
  constructor
  · rintro ⟨approval, hget, approval', ⟨hlisted, rfl⟩, rfl⟩
    exact ⟨approval, hget, hlisted, rfl⟩
  · rintro ⟨approval, hget, hlisted, rfl⟩
    exact ⟨approval, hget, _, ⟨hlisted, rfl⟩, rfl⟩

/-- All that one call does. -/
lemma step_cases (engine : ApprovalEngine) (call : Call) : step engine call = engine ∨
    (∃ approval : ApprovalRequest, approval.id = engine.uuids ∧ approval.history = [] ∧
      approval.status = .pending ∧
      step engine call = { approvals := engine.approvals.save approval, uuids := engine.uuids + 1 }) ∨
    ∃ approval approverId decision comment, engine.approvals.get approval.id = some approval ∧
      approverId ∈ approval.approverIds ∧
      step engine call =
        { engine with approvals := engine.approvals.save (approval.decided approverId decision comment) } := by
  cases call with
  | request workspaceId targetType targetId requestedBy approverIds mode =>
    exact Or.inr (Or.inl ⟨_, rfl, rfl, rfl, rfl⟩)
  | decide id approverId decision comment =>
    cases hcall : engine.decide id approverId decision comment with
    | error e =>
      refine Or.inl ?_
      simp only [step, hcall, Except.map, afterCall_error]
    | ok r =>
      obtain ⟨approval, hget, hlisted, rfl⟩ := decide_ok.mp hcall
      refine Or.inr (Or.inr ⟨approval, approverId, decision, comment, ?_, hlisted, ?_⟩)
      · rw [Store.key_of_get hget]
        exact hget
      · simp only [step, hcall, Except.map, afterCall_ok]

/-- **The step lemma.** -/
theorem Inv.step (h : Inv engine) (call : Call) : Inv (step engine call) := by
  rcases step_cases engine call with hsame | ⟨approval, hid, hempty, hpending, hstep⟩ |
    ⟨approval, approverId, decision, comment, hget, hlisted, hstep⟩
  · rw [hsame]
    exact h
  · rw [hstep]
    refine ⟨fun id found hfound => ?_, ?_⟩
    · rcases Store.of_get_save hfound with rfl | hfound
      · refine ⟨Or.inl ⟨hempty, hpending⟩, fun entry hentry => ?_⟩
        rw [hempty] at hentry
        cases hentry
      · exact h.derived id found hfound
    · refine (h.below.mono (Nat.le_succ _)).save ?_
      rw [hid]
      exact Nat.lt_succ_self _
  · rw [hstep]
    refine ⟨fun id found hfound => ?_, h.below.save (h.below _ _ hget)⟩
    rcases Store.of_get_save hfound with rfl | hfound
    · exact derived_decided (h.derived _ _ hget) hlisted decision comment
    · exact h.derived id found hfound

/-- Who is asked, and how many of them must agree, stays as it is. -/
lemma asked_step (h : Inv engine) {id : Uuid} {approval : ApprovalRequest}
    (hget : engine.approvals.get id = some approval) (call : Call) :
    ∃ approval', (step engine call).approvals.get id = some approval' ∧ approval'.mode = approval.mode ∧
      approval'.approverIds = approval.approverIds := by
  rcases step_cases engine call with hsame | ⟨new, hid, -, -, hstep⟩ |
    ⟨decided, approverId, decision, comment, hdecided, -, hstep⟩
  · rw [hsame]
    exact ⟨approval, hget, rfl, rfl⟩
  · have hne : id ≠ new.id := by
      rw [hid]
      exact (h.below _ _ hget).ne
    rw [hstep]
    exact ⟨approval, by rw [Store.get_save, if_neg hne, hget], rfl, rfl⟩
  · rw [hstep]
    dsimp only
    rw [Store.get_save]
    split_ifs with hid
    · rw [show id = decided.id from hid, hdecided] at hget
      obtain rfl := Option.some.inj hget
      exact ⟨_, rfl, rfl, rfl⟩
    · exact ⟨approval, hget, rfl, rfl⟩

lemma asked_run (h : Inv engine) {id : Uuid} {approval : ApprovalRequest}
    (hget : engine.approvals.get id = some approval) (calls : List Call) :
    ∃ approval', (run ApprovalEngine.step engine calls).approvals.get id = some approval' ∧
      approval'.mode = approval.mode ∧ approval'.approverIds = approval.approverIds := by
  induction calls generalizing engine approval with
  | nil => exact ⟨approval, hget, rfl, rfl⟩
  | cons call calls ih =>
    obtain ⟨approval₁, hget₁, hmode₁, hasked₁⟩ := asked_step h hget call
    obtain ⟨approval₂, hget₂, hmode₂, hasked₂⟩ := ih (h.step call) hget₁
    exact ⟨approval₂, hget₂, hmode₂.trans hmode₁, hasked₂.trans hasked₁⟩

lemma inv_run (h : Inv engine) (calls : List Call) : Inv (run ApprovalEngine.step engine calls) :=
  run_inv calls h fun _ call h => h.step call

lemma orderFree_of_inv (h : Inv engine) : OrderFree engine := by
  intro id hsome calls calls' approval approval' hget hget' hlatest
  obtain ⟨asked, hasked⟩ := Option.isSome_iff_exists.mp hsome
  obtain ⟨found, hfound, hmode, hids⟩ := asked_run h hasked calls
  obtain ⟨found', hfound', hmode', hids'⟩ := asked_run h hasked calls'
  obtain rfl : found = approval := Option.some.inj (hfound.symm.trans hget)
  obtain rfl : found' = approval' := Option.some.inj (hfound'.symm.trans hget')
  rcases ((inv_run h calls).derived _ _ hget).status_eq with ⟨hempty, hpending⟩ | ⟨hne, hstatus⟩
  · -- Nobody has decided in either run.
    have hempty' : found'.history = [] :=
      latestDecision_eq_none.mp fun a => (hlatest a).symm.trans (latestDecision_eq_none.mpr hempty a)
    rcases ((inv_run h calls').derived _ _ hget').status_eq with ⟨-, hpending'⟩ | ⟨hne', -⟩
    · rw [hpending, hpending']
    · exact absurd hempty' hne'
  · have hne' : found'.history ≠ [] := fun hempty' =>
      hne (latestDecision_eq_none.mp fun a => (hlatest a).trans (latestDecision_eq_none.mpr hempty' a))
    rcases ((inv_run h calls').derived _ _ hget').status_eq with ⟨hempty', -⟩ | ⟨-, hstatus'⟩
    · exact absurd hempty' hne'
    · rw [hstatus, hstatus', hmode, hmode', hids, hids']
      exact computeStatus_congr hlatest

lemma outsidersRaise (engine : ApprovalEngine) : OutsidersRaise engine := by
  intro id approval hget approverId hnot decision comment
  have hraise : engine.decide id approverId decision comment =
      .error (valueError (pyRepr approverId ++ " is not an approver for " ++ pyRepr (toString approval.id))) := by
    simp only [ApprovalEngine.decide, hget, requireFound, approvalDecide, hnot, if_false, bind, Except.bind]
  refine ⟨hraise, ?_⟩
  simp only [step, hraise, Except.map, afterCall_error]

end Steps

/-- **The outcome of an approval**, after whatever was requested and decided.  A request that asks somebody,
and all of them, is approved exactly when the latest decision of each is to approve; a rejection or a request
for changes that is somebody's latest decision counts before all approvals; the order in which decisions were
taken does not matter; and nobody decides who is not asked. -/
theorem approval_outcome (calls : List Call) :
    Outcomes (run step {} calls) ∧ OrderFree (run step {} calls) ∧ OutsidersRaise (run step {} calls) := by
  have hinv : Inv (run step {} calls) := by
    refine inv_run ⟨?_, Store.below_empty 0⟩ calls
    intro id approval hget
    cases hget
  refine ⟨fun approval hmem => ?_, orderFree_of_inv hinv, outsidersRaise _⟩
  exact (hinv.derived _ _ (Store.mem_values_iff.mp hmem)).outcome

/-- Nobody is asked: there is no decision to wait for, and the request stays pending. -/
theorem nobody_asked : ¬ ∀ approval ∈
    (run step {} [.request 0 "document" "doc-1" "requester" [] .multiple]).approvals.values,
    approval.mode = .multiple → (approval.status = .approved ↔
      ∀ a ∈ approval.approverIds, latestDecision approval.history a = some .approve) := by
  decide

end ApprovalEngine

end Tmis.Collaboration
