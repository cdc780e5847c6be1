import Mathlib.Data.Finset.Card
import Mathlib.Data.List.GetD
import Tmis.Lib.Dict
import Tmis.Lib.Python

/-!
# Human validation

The validation engine of `ai_governance.human_validation`: requests with ordered tiers of approvers,
a history of decisions that only grows, and a status that is recomputed from the history.

* `ValidationRequest`, `HumanValidationEngine` — the request, and the store the engine works on;
* `tierIsApproved_iff` — what a tier needs, in terms of the approvals recorded for it;
* `recomputeStatus_eq_approved`, `recomputeStatus_eq_pending` — what the status says of the history;
* `currentTierIndex_eq` — the tier a decision is recorded for is the first open one;
* `HumanValidationEngine.Keyed` — requests are kept under their identifiers, and identifiers are new.
-/

namespace Tmis.AiGovernance.HumanValidation

open Tmis.Lib

inductive ValidationMode where
  | simple | multiple | hierarchical
  deriving DecidableEq

inductive ValidationStatus where
  | pending | approved | rejected | revisionRequested
  deriving DecidableEq

inductive ValidationDecisionType where
  | approve | reject | requestRevision
  deriving DecidableEq

/-- One approver's decision, appended to the history of a request. -/
structure ValidationDecisionEntry where
  approverId : String
  decision : ValidationDecisionType
  tier : ℕ
  comment : Option String
  deriving DecidableEq

structure ValidationRequest where
  id : Uuid
  firmId : String
  productionId : String
  requestedBy : String
  approverTiers : List (List String)
  mode : ValidationMode
  status : ValidationStatus := .pending
  history : List ValidationDecisionEntry := []
  deriving DecidableEq

/-! ### The status of a request -/

def tierIsApproved (tierApproverIds : List String) (tierIndex : ℕ)
    (history : List ValidationDecisionEntry) (mode : ValidationMode) : Bool :=
  let tierApprovals := ((history.filter fun entry =>
    entry.tier = tierIndex ∧ entry.decision = .approve).map (·.approverId)).toFinset
  if mode = .multiple then tierApproverIds.toFinset ⊆ tierApprovals
  else 0 < tierApprovals.card

def recomputeStatus (request : ValidationRequest) : ValidationStatus :=
  if request.history.any (·.decision = .reject) then .rejected
  else if request.history.any (·.decision = .requestRevision) then .revisionRequested
  else if request.approverTiers.zipIdx.any
      (fun t => !tierIsApproved t.1 t.2 request.history request.mode) then .pending
  else .approved

def currentTierIndex (request : ValidationRequest) : ℕ :=
  match request.approverTiers.zipIdx.find?
      (fun t => !tierIsApproved t.1 t.2 request.history request.mode) with
  | some t => t.2
  | none => request.approverTiers.length - 1

/-! ### The engine -/

/-- The engine with its in-memory store; `uuids` counts the identifiers drawn so far. -/
structure HumanValidationEngine where
  store : Dict Uuid ValidationRequest := ∅
  uuids : ℕ := 0

namespace HumanValidationEngine

/-- `InMemoryValidationStore.get`. -/
def get (engine : HumanValidationEngine) (firmId : String) (requestId : Uuid) :
    Option ValidationRequest :=
  match engine.store.get requestId with
  | none => none
  | some request => if request.firmId ≠ firmId then none else some request

/-- `_request`: the three public variants differ in the tiers and the mode they pass. -/
def request (engine : HumanValidationEngine) (firmId productionId requestedBy : String)
    (approverTiers : List (List String)) (mode : ValidationMode) :
    ValidationRequest × HumanValidationEngine :=
  let request : ValidationRequest :=
    { id := engine.uuids, firmId, productionId, requestedBy, approverTiers, mode }
  (request, { store := engine.store.set request.id request, uuids := engine.uuids + 1 })

def requestSimple (engine : HumanValidationEngine) (firmId productionId requestedBy : String)
    (approverIds : List String) : ValidationRequest × HumanValidationEngine :=
  engine.request firmId productionId requestedBy [approverIds] .simple

def requestMultiple (engine : HumanValidationEngine) (firmId productionId requestedBy : String)
    (approverIds : List String) : ValidationRequest × HumanValidationEngine :=
  engine.request firmId productionId requestedBy [approverIds] .multiple

def requestHierarchical (engine : HumanValidationEngine) (firmId productionId requestedBy : String)
    (approverTiers : List (List String)) : ValidationRequest × HumanValidationEngine :=
  engine.request firmId productionId requestedBy approverTiers .hierarchical

/-- The request after a decision: the entry is appended, then the status is recomputed. -/
def record (request : ValidationRequest) (approverId : String) (decision : ValidationDecisionType)
    (comment : Option String) : ValidationRequest :=
  let tier := currentTierIndex request
  let entry : ValidationDecisionEntry := { approverId, decision, tier, comment }
  let request := { request with history := request.history ++ [entry] }
  { request with status := recomputeStatus request }

def decide (engine : HumanValidationEngine) (firmId : String) (requestId : Uuid)
    (approverId : String) (decision : ValidationDecisionType) (comment : Option String) :
    Except PyException (ValidationRequest × HumanValidationEngine) :=
  match engine.get firmId requestId with
  | none => .error (keyError ("validation request " ++ toString requestId ++
      " not found for firm " ++ firmId))
  | some request =>
    let request := record request approverId decision comment
    .ok (request, { engine with store := engine.store.set request.id request })

/-- `history`: the requests of a production, oldest first. -/
def history (engine : HumanValidationEngine) (firmId productionId : String) :
    List ValidationRequest :=
  engine.store.values.filter fun r => r.firmId = firmId ∧ r.productionId = productionId

def isValidated (engine : HumanValidationEngine) (firmId productionId : String) : Bool :=
  (engine.history firmId productionId).any (·.status = .approved)

end HumanValidationEngine

/-! ### Identifiers -/

/-- Every request is kept under its identifier, and the next identifier is new. -/
def HumanValidationEngine.Keyed (engine : HumanValidationEngine) : Prop :=
  ∀ id r, engine.store.get id = some r → r.id = id ∧ id < engine.uuids

namespace HumanValidationEngine

variable {engine engine' : HumanValidationEngine} {firmId productionId requestedBy : String}
  {approverTiers : List (List String)} {mode : ValidationMode} {requestId : Uuid} {r : ValidationRequest}

lemma keyed_empty : Keyed {} := fun _ _ h => by cases h

lemma store_get_of_get (h : engine.get firmId requestId = some r) : engine.store.get requestId = some r := by
  unfold get at h
  split at h
  · cases h
  · split at h
    · cases h
    · rwa [← h]

/-- A request takes no other one's place. -/
lemma Keyed.get_request (h : engine.Keyed) (hr : engine.store.get requestId = some r) :
    (engine.request firmId productionId requestedBy approverTiers mode).2.store.get requestId = some r := by
  rw [request, Dict.get_set_of_ne _ _ (h requestId r hr).2.ne, hr]

lemma Keyed.request (h : engine.Keyed) :
    (engine.request firmId productionId requestedBy approverTiers mode).2.Keyed := by
  intro id r hr
  simp only [HumanValidationEngine.request, Dict.get_set] at hr ⊢
  split at hr
  · rename_i hid
    cases hr
    exact ⟨hid.symm, hid ▸ Nat.lt_succ_self _⟩
  · exact ⟨(h id r hr).1, (h id r hr).2.trans (Nat.lt_succ_self _)⟩

lemma Keyed.decide {approverId : String} {decision : ValidationDecisionType} {comment : Option String}
    (h : engine.Keyed) (hok : engine.decide firmId requestId approverId decision comment = .ok (r, engine')) :
    engine'.Keyed := by
  unfold HumanValidationEngine.decide at hok
  split at hok
  · cases hok
  · rename_i request hget
    cases hok
    obtain ⟨rfl, hlt⟩ := h requestId request (store_get_of_get hget)
    intro id r hr
    rw [Dict.get_set] at hr
    split at hr
    · rename_i hid
      cases hr
      exact ⟨hid.symm, hid ▸ hlt⟩
    · exact h id r hr

end HumanValidationEngine

/-! ### What a tier needs -/

/-- `a` has an approval recorded for the tier `i`. -/
def ApprovedBy (history : List ValidationDecisionEntry) (i : ℕ) (a : String) : Prop :=
  ∃ e ∈ history, e.tier = i ∧ e.decision = .approve ∧ e.approverId = a

lemma approvedBy_append {h h' : List ValidationDecisionEntry} {i : ℕ} {a : String} :
    ApprovedBy (h ++ h') i a ↔ ApprovedBy h i a ∨ ApprovedBy h' i a := by
  simp only [ApprovedBy, List.mem_append, or_and_right, exists_or]

lemma approvedBy_singleton {e : ValidationDecisionEntry} {i : ℕ} {a : String} :
    ApprovedBy [e] i a ↔ e.tier = i ∧ e.decision = .approve ∧ e.approverId = a := by
  simp [ApprovedBy]

/-- **What a tier needs.**  Under `multiple` the approval of each of its members, else an approval
of anybody. -/
theorem tierIsApproved_iff {t : List String} {i : ℕ} {h : List ValidationDecisionEntry}
    {m : ValidationMode} : tierIsApproved t i h m = true ↔
      if m = .multiple then ∀ a ∈ t, ApprovedBy h i a else ∃ a, ApprovedBy h i a := by
  have hmem : ∀ a, a ∈ ((h.filter fun entry => entry.tier = i ∧ entry.decision = .approve).map
      (·.approverId)).toFinset ↔ ApprovedBy h i a := by
    intro a
    simp only [List.mem_toFinset, List.mem_map, List.mem_filter, ApprovedBy, decide_eq_true_eq]
    exact exists_congr fun e => by tauto
  unfold tierIsApproved
  split
  · simp only [decide_eq_true_eq, Finset.subset_iff, List.mem_toFinset, ← hmem]
  · rw [decide_eq_true_eq, Finset.card_pos]
    exact exists_congr hmem

lemma tierIsApproved_append {t : List String} {i : ℕ} {h h' : List ValidationDecisionEntry}
    {m : ValidationMode} (ha : tierIsApproved t i h m = true) :
    tierIsApproved t i (h ++ h') m = true := by
  rw [tierIsApproved_iff] at ha ⊢
  split_ifs at ha ⊢
  · exact fun a hat => approvedBy_append.mpr (Or.inl (ha a hat))
  · exact ha.imp fun a h => approvedBy_append.mpr (Or.inl h)

/-! ### The open tier -/

/-- Whether the tier `t` at the index `i` of the request has what it needs. -/
def TierDone (r : ValidationRequest) (t : List String × ℕ) : Bool :=
  tierIsApproved t.1 t.2 r.history r.mode

lemma tierDone_iff_all {r : ValidationRequest} {t : List String} {i : ℕ} (hm : r.mode = .multiple) :
    TierDone r (t, i) = true ↔ ∀ a ∈ t, ApprovedBy r.history i a := by
  rw [TierDone, tierIsApproved_iff, if_pos hm]

lemma tierDone_iff_exists {r : ValidationRequest} {t : List String} {i : ℕ}
    (hm : r.mode ≠ .multiple) : TierDone r (t, i) = true ↔ ∃ a, ApprovedBy r.history i a := by
  rw [TierDone, tierIsApproved_iff, if_neg hm]

/-- The number of leading tiers that have what they need. -/
def approvedTiers (r : ValidationRequest) : ℕ :=
  r.approverTiers.zipIdx.findIdx fun t => !TierDone r t

/-- The tier a decision taken now is recorded for. -/
def currentTier (r : ValidationRequest) : List String := r.approverTiers.getD (currentTierIndex r) []

/-- Some tier of the request still misses an approval. -/
def HasOpenTier (r : ValidationRequest) : Prop := approvedTiers r < r.approverTiers.length

instance (r : ValidationRequest) : Decidable (HasOpenTier r) := by
  unfold HasOpenTier; infer_instance

section Open

variable {r : ValidationRequest}

lemma approvedTiers_le (r : ValidationRequest) : approvedTiers r ≤ r.approverTiers.length := by
  have := @List.findIdx_le_length _ (fun t => !TierDone r t) r.approverTiers.zipIdx
  rwa [List.length_zipIdx] at this

/-- The tiers before the open one have what they need. -/
lemma tierDone_of_lt {i : ℕ} (h : i < approvedTiers r) (hi : i < r.approverTiers.length) :
    TierDone r (r.approverTiers[i], i) = true := by
  have := List.not_of_lt_findIdx h
  simpa using this

lemma lt_approvedTiers {i : ℕ} (hi : i < r.approverTiers.length)
    (h : ∀ j (hj : j < r.approverTiers.length), j ≤ i → TierDone r (r.approverTiers[j], j) = true) :
    i < approvedTiers r := by
  refine List.lt_findIdx_of_not (by simpa using hi) fun j hj => ?_
  simpa using h j (hj.trans_lt hi) hj

/-- The open tier misses something. -/
lemma tierDone_open (h : HasOpenTier r) :
    TierDone r (r.approverTiers.get ⟨approvedTiers r, h⟩, approvedTiers r) = false := by
  have hlt : approvedTiers r < r.approverTiers.length := h
  have hopen : (!TierDone r (r.approverTiers[approvedTiers r], approvedTiers r)) = true := by
    have := ((List.findIdx_eq (by simpa using hlt)).mp (rfl : _ = approvedTiers r)).1
    simpa using this
  exact Bool.not_eq_true' _ ▸ hopen

lemma not_hasOpenTier_iff : ¬ HasOpenTier r ↔
    ∀ i (hi : i < r.approverTiers.length), TierDone r (r.approverTiers[i], i) = true := by
  constructor
  · intro h i hi
    exact tierDone_of_lt (hi.trans_le (not_lt.mp h)) hi
  · intro h ho
    exact Bool.false_ne_true ((tierDone_open ho).symm.trans (h _ ho))

/-- **The tier of a decision** is the first open one, the last one when none is open. -/
theorem currentTierIndex_eq (r : ValidationRequest) : currentTierIndex r =
    if HasOpenTier r then approvedTiers r else r.approverTiers.length - 1 := by
  unfold currentTierIndex
  split
  · rename_i t ht
    obtain ⟨hp, i, hi, e, hbefore⟩ := List.find?_eq_some_iff_getElem.mp ht
    have hidx : approvedTiers r = i := by
      unfold approvedTiers
      rw [List.findIdx_eq hi, e]
      exact ⟨hp, fun j hj => by simpa [TierDone] using hbefore j hj⟩
    have hlen : i < r.approverTiers.length := by simpa using hi
    rw [if_pos (show HasOpenTier r by unfold HasOpenTier; omega), hidx, ← e]
    simp
  · rename_i hnone
    rw [List.find?_eq_none] at hnone
    rw [if_neg]
    rw [not_hasOpenTier_iff]
    intro i hi
    have := hnone (r.approverTiers[i], i) (by
      rw [List.mem_zipIdx_iff_getElem?]; simp [hi])
    simpa [TierDone] using this

lemma currentTier_of_open (h : HasOpenTier r) : currentTier r =
    r.approverTiers.get ⟨approvedTiers r, h⟩ := by
  unfold currentTier
  rw [currentTierIndex_eq, if_pos h, List.getD_eq_getElem _ _ h]
  rfl

/-- Everybody who decided approved. -/
def AllApprove (r : ValidationRequest) : Prop := ∀ e ∈ r.history, e.decision = .approve

lemma any_not_approved_iff :
    r.approverTiers.zipIdx.any (fun t => !tierIsApproved t.1 t.2 r.history r.mode) = true ↔
      HasOpenTier r := by
  rw [List.any_eq_true, ← List.findIdx_lt_length, List.length_zipIdx]
  rfl

/-- While everybody approves, the status says whether a tier is open. -/
lemma recomputeStatus_of_allApprove (h : AllApprove r) :
    recomputeStatus r = if HasOpenTier r then .pending else .approved := by
  have hno : ∀ d, d ≠ .approve → ¬ r.history.any (fun e => decide (e.decision = d)) = true := by
    intro d hd hany
    obtain ⟨e, he, hed⟩ := List.any_eq_true.mp hany
    exact hd ((of_decide_eq_true hed).symm.trans (h e he))
  unfold recomputeStatus
  rw [if_neg (hno _ (by decide)), if_neg (hno _ (by decide))]
  simp only [any_not_approved_iff]

/-- A rejection or a request for a revision is never forgotten. -/
lemma recomputeStatus_of_not_allApprove (h : ¬ AllApprove r) :
    recomputeStatus r = .rejected ∨ recomputeStatus r = .revisionRequested := by
  unfold recomputeStatus
  split
  · exact Or.inl rfl
  split
  · exact Or.inr rfl
  rename_i h1 h2
  refine absurd (fun e he => ?_) h
  cases hd : e.decision with
  | approve => rfl
  | reject => exact absurd (List.any_eq_true.mpr ⟨e, he, decide_eq_true hd⟩) h1
  | requestRevision => exact absurd (List.any_eq_true.mpr ⟨e, he, decide_eq_true hd⟩) h2

/-- **When a request is approved**: everybody who decided approved, and no tier is open. -/
theorem recomputeStatus_eq_approved :
    recomputeStatus r = .approved ↔ AllApprove r ∧ ¬ HasOpenTier r := by
  by_cases h : AllApprove r
  · rw [recomputeStatus_of_allApprove h]
    split_ifs with ho <;> simp [h, ho]
  · rcases recomputeStatus_of_not_allApprove h with e | e <;> simp [e, h]

theorem recomputeStatus_eq_pending :
    recomputeStatus r = .pending ↔ AllApprove r ∧ HasOpenTier r := by
  by_cases h : AllApprove r
  · rw [recomputeStatus_of_allApprove h]
    split_ifs with ho <;> simp [h, ho]
  · rcases recomputeStatus_of_not_allApprove h with e | e <;> simp [e, h]

end Open

end Tmis.AiGovernance.HumanValidation
