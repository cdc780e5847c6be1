import Tmis.AiGovernance.HumanValidation
import Tmis.Lib.Run

/-!
# Quorum soundness of human validation

What a request needs to be approved is an approval from within each tier.  The engine counts the
approvals of anybody in the modes `simple` and `hierarchical`, so this holds of a run of the engine
exactly as long as no outsider's approval is counted.

* `Inv` — the status follows the history, and approvals of outsiders come with one of a member;
* `inv_record` — a decision that meets the discipline `Counted` preserves the invariant;
* `movesTowardApproval_iff` — the discipline is exactly what keeps outsiders from moving a request;
* `along_quorumSafe_iff` — a run is sound iff it meets the discipline.
-/

namespace Tmis.AiGovernance.HumanValidation

open Tmis.Lib

/-! ### Runs of the engine -/

/-- The calls that change the store. -/
inductive Call where
  | request (firmId productionId requestedBy : String) (approverTiers : List (List String))
      (mode : ValidationMode)
  | decide (firmId : String) (requestId : Uuid) (approverId : String)
      (decision : ValidationDecisionType) (comment : Option String)

/-- The engine after a call; a call that raises leaves it as it is. -/
def step (engine : HumanValidationEngine) : Call → HumanValidationEngine
  | .request firmId productionId requestedBy approverTiers mode =>
      (engine.request firmId productionId requestedBy approverTiers mode).2
  | .decide firmId requestId approverId decision comment =>
      match engine.decide firmId requestId approverId decision comment with
      | .ok (_, engine') => engine'
      | .error _ => engine

/-! ### What is to hold -/

/-- An approved request has, for each tier that names somebody, the approval of one of its members;
of all of them under `multiple`. -/
def QuorumSound (r : ValidationRequest) : Prop :=
  r.status = .approved → ∀ i (h : i < r.approverTiers.length), r.approverTiers[i] ≠ [] →
    if r.mode = .multiple then ∀ a ∈ r.approverTiers[i], ApprovedBy r.history i a
    else ∃ a ∈ r.approverTiers[i], ApprovedBy r.history i a

instance (h : List ValidationDecisionEntry) (i : ℕ) (a : String) : Decidable (ApprovedBy h i a) := by
  unfold ApprovedBy; infer_instance

instance (r : ValidationRequest) : Decidable (QuorumSound r) := by
  unfold QuorumSound; infer_instance

/-- The step from `r` to `r'` brings the request nearer to approval: it becomes approved, or, still
pending, has more of its tiers behind it. -/
def MovesTowardApproval (r r' : ValidationRequest) : Prop :=
  (r.status ≠ .approved ∧ r'.status = .approved) ∨
    (r'.status = .pending ∧ approvedTiers r < approvedTiers r')

/-- What a call owes: the requests stored after it are sound, and a decision of somebody who is not
an approver of the current tier does not move its request toward approval. -/
def QuorumSafe (engine : HumanValidationEngine) (call : Call) : Prop :=
  (∀ r ∈ (step engine call).store.values, QuorumSound r) ∧
    match call with
    | .request .. => True
    | .decide firmId requestId approverId decision comment =>
        ∀ r r' engine', engine.get firmId requestId = some r →
          engine.decide firmId requestId approverId decision comment = .ok (r', engine') →
          approverId ∉ currentTier r → ¬ MovesTowardApproval r r'

/-- The discipline: an approval of a pending request comes from the current tier, or the mode is
`multiple` and a tier is open. -/
def Counted (r : ValidationRequest) (approverId : String) (decision : ValidationDecisionType) :
    Prop :=
  approverId ∈ currentTier r ∨ decision ≠ .approve ∨ r.status ≠ .pending ∨
    (HasOpenTier r ∧ r.mode = .multiple)

/-- The discipline on calls. -/
def CountedCall (engine : HumanValidationEngine) : Call → Prop
  | .request .. => True
  | .decide firmId requestId approverId decision _ =>
      ∀ r, engine.get firmId requestId = some r → Counted r approverId decision

/-! ### The invariant -/

/-- The status follows the history, and outside `multiple` every approval of a request that nobody
rejected stands beside the approval of a member of its tier. -/
structure Inv (r : ValidationRequest) : Prop where
  status_eq : r.status = recomputeStatus r ∨ (r.status = .pending ∧ r.history = [])
  member : r.mode ≠ .multiple → AllApprove r →
    ∀ e ∈ r.history, ∀ h : e.tier < r.approverTiers.length,
      ∃ a ∈ r.approverTiers[e.tier], ApprovedBy r.history e.tier a

namespace Inv

variable {r : ValidationRequest}

lemma allApprove (h : Inv r) (hs : r.status = .pending ∨ r.status = .approved) : AllApprove r := by
  rcases h.status_eq with e | ⟨-, e⟩
  · rw [e, recomputeStatus_eq_pending, recomputeStatus_eq_approved] at hs
    exact hs.elim And.left And.left
  · simp [AllApprove, e]

lemma not_hasOpenTier (h : Inv r) (hs : r.status = .approved) : ¬ HasOpenTier r := by
  rcases h.status_eq with e | ⟨e, -⟩
  · exact (recomputeStatus_eq_approved.mp (e.symm.trans hs)).2
  · rw [e] at hs
    cases hs

/-- A request that is neither pending nor approved holds a decision that is no approval. -/
lemma not_allApprove (h : Inv r) (hp : r.status ≠ .pending) (ha : r.status ≠ .approved) :
    ¬ AllApprove r := by
  intro hall
  rcases h.status_eq with e | ⟨e, -⟩
  · rw [e, recomputeStatus_of_allApprove hall] at hp ha
    split_ifs at hp ha
    · exact hp rfl
    · exact ha rfl
  · exact hp e

/-- **The invariant gives soundness.** -/
theorem quorumSound (h : Inv r) : QuorumSound r := by
  intro hs i hi _
  have hdone := not_hasOpenTier_iff.mp (h.not_hasOpenTier hs) i hi
  split_ifs with hm
  · exact (tierDone_iff_all hm).mp hdone
  · obtain ⟨a, e, he, rfl, -, -⟩ := (tierDone_iff_exists hm).mp hdone
    exact h.member hm (h.allApprove (Or.inr hs)) e he hi

end Inv

/-! ### One decision -/

section Record

open HumanValidationEngine (record)

variable {r : ValidationRequest} {a : String} {d : ValidationDecisionType} {c : Option String}

@[simp] lemma record_history :
    (record r a d c).history = r.history ++ [⟨a, d, currentTierIndex r, c⟩] := rfl
@[simp] lemma record_mode : (record r a d c).mode = r.mode := rfl
@[simp] lemma record_approverTiers : (record r a d c).approverTiers = r.approverTiers := rfl
lemma record_status : (record r a d c).status = recomputeStatus (record r a d c) := rfl

lemma allApprove_record : AllApprove (record r a d c) ↔ AllApprove r ∧ d = .approve := by
  simp [AllApprove, or_imp, forall_and]

/-- An approval that is there stays there; the new one is of `a`, for the current tier. -/
lemma approvedBy_record {i : ℕ} {b : String} : ApprovedBy (record r a d c).history i b ↔
    ApprovedBy r.history i b ∨ (currentTierIndex r = i ∧ d = .approve ∧ a = b) := by
  rw [record_history, approvedBy_append, approvedBy_singleton]

lemma tierDone_record_of_done {t : List String × ℕ} (h : TierDone r t = true) :
    TierDone (record r a d c) t = true :=
  tierIsApproved_append h

/-- **The step lemma**: a decision under the discipline preserves the invariant. -/
theorem inv_record (h : Inv r) (hc : Counted r a d) : Inv (record r a d c) := by
  refine ⟨Or.inl record_status, fun hm hall e he ht => ?_⟩
  rw [record_mode] at hm
  obtain ⟨hall, hd⟩ := allApprove_record.mp hall
  rw [record_history, List.mem_append, List.mem_singleton] at he
  rcases he with he | rfl
  · -- an old entry keeps its member
    obtain ⟨b, hb, happ⟩ := h.member hm hall e he ht
    exact ⟨b, hb, approvedBy_record.mpr (Or.inl happ)⟩
  · -- the new entry: its author is a member, or the tier was approved before
    change currentTierIndex r < r.approverTiers.length at ht
    rcases hc with hmem | hne | hs | ⟨-, hmul⟩
    · rw [currentTier, List.getD_eq_getElem _ _ ht] at hmem
      exact ⟨a, hmem, approvedBy_record.mpr (Or.inr ⟨rfl, hd, rfl⟩)⟩
    · exact absurd hd hne
    · have hs' : r.status = .approved := by
        by_contra hna
        exact h.not_allApprove hs hna hall
      have hdone := not_hasOpenTier_iff.mp (h.not_hasOpenTier hs') _ ht
      obtain ⟨b, e, he, htier, -, -⟩ := (tierDone_iff_exists hm).mp hdone
      obtain ⟨x, hx, hxa⟩ := h.member hm hall e he (htier ▸ ht)
      exact ⟨x, by simpa [htier] using hx, approvedBy_record.mpr (Or.inl (htier ▸ hxa))⟩
    · exact absurd hmul hm

/-- An outsider's approval leaves a tier that needs all its members as it is. -/
lemma tierDone_record_multiple (hm : r.mode = .multiple) (ho : HasOpenTier r)
    (ha : a ∉ currentTier r) :
    TierDone (record r a d c) (r.approverTiers.get ⟨approvedTiers r, ho⟩, approvedTiers r) = false := by
  rw [← Bool.not_eq_true, tierDone_iff_all (r := record r a d c) hm]
  refine fun hdone => Bool.eq_false_iff.mp (tierDone_open ho) ?_
  rw [tierDone_iff_all hm]
  intro b hb
  rcases approvedBy_record.mp (hdone b hb) with happ | ⟨-, -, rfl⟩
  · exact happ
  · exact absurd (currentTier_of_open ho ▸ hb) ha

/-- An approval of anybody closes an open tier that asks for one approval. -/
lemma approvedTiers_lt_record (hm : r.mode ≠ .multiple) (ho : HasOpenTier r) :
    approvedTiers r < approvedTiers (record r a .approve c) := by
  refine lt_approvedTiers (r := record r a .approve c) ho fun j hj hji => ?_
  rcases hji.lt_or_eq with hlt | rfl
  · exact tierDone_record_of_done (tierDone_of_lt hlt hj)
  · rw [tierDone_iff_exists (r := record r a .approve c) hm]
    exact ⟨a, approvedBy_record.mpr (Or.inr ⟨by rw [currentTierIndex_eq, if_pos ho], rfl, rfl⟩)⟩

/-- **Who moves a request.**  A decision of an outsider leaves the request where it is exactly when
it meets the discipline. -/
theorem not_movesTowardApproval_iff (h : Inv r) (ha : a ∉ currentTier r) :
    ¬ MovesTowardApproval r (record r a d c) ↔ Counted r a d := by
  constructor
  · -- an approval of a pending request that is counted for an outsider moves it
    intro hmove
    by_contra hc
    simp only [Counted, not_or, not_not] at hc
    obtain ⟨-, rfl, hs, hno⟩ := hc
    have hall : AllApprove (record r a .approve c) :=
      allApprove_record.mpr ⟨h.allApprove (Or.inl hs), rfl⟩
    refine hmove ?_
    by_cases ho' : HasOpenTier (record r a .approve c)
    · refine Or.inr ⟨recomputeStatus_eq_pending.mpr ⟨hall, ho'⟩, ?_⟩
      have ho : HasOpenTier r := by
        by_contra ho
        exact not_hasOpenTier_iff.mpr
          (fun i hi => tierDone_record_of_done (not_hasOpenTier_iff.mp ho i hi)) ho'
      exact approvedTiers_lt_record (fun hm => hno ⟨ho, hm⟩) ho
    · exact Or.inl ⟨by simp [hs], recomputeStatus_eq_approved.mpr ⟨hall, ho'⟩⟩
  · rintro hc (⟨hna, happ⟩ | ⟨hpend, hlt⟩)
    · -- it cannot become approved
      obtain ⟨hall, hno⟩ := recomputeStatus_eq_approved.mp happ
      obtain ⟨hall, hd⟩ := allApprove_record.mp hall
      rcases hc with hmem | hne | hs | ⟨ho, hm⟩
      · exact ha hmem
      · exact hne hd
      · exact h.not_allApprove hs hna hall
      · have hdone := not_hasOpenTier_iff.mp hno (approvedTiers r) ho
        exact Bool.false_ne_true ((tierDone_record_multiple hm ho ha).symm.trans hdone)
    · -- it has no more tiers behind it
      obtain ⟨hall, ho'⟩ := recomputeStatus_eq_pending.mp hpend
      obtain ⟨hall, hd⟩ := allApprove_record.mp hall
      rcases hc with hmem | hne | hs | ⟨ho, hm⟩
      · exact ha hmem
      · exact hne hd
      · have hs' : r.status = .approved := by
          by_contra hna
          exact h.not_allApprove hs hna hall
        exact h.not_hasOpenTier hs' (hlt.trans_le (approvedTiers_le (record r a d c)))
      · have hdone := tierDone_of_lt hlt ho
        exact Bool.false_ne_true ((tierDone_record_multiple hm ho ha).symm.trans hdone)

end Record

/-! ### Runs -/

/-- Every stored request meets the invariant. -/
def StoreInv (engine : HumanValidationEngine) : Prop := ∀ r ∈ engine.store.values, Inv r

lemma get_mem_values {engine : HumanValidationEngine} {firmId : String} {requestId : Uuid}
    {r : ValidationRequest} (h : engine.get firmId requestId = some r) :
    r ∈ engine.store.values := by
  unfold HumanValidationEngine.get at h
  split at h
  · cases h
  · rename_i r' hr
    split at h
    · cases h
    · exact Option.some.inj h ▸ Dict.mem_values_iff.mpr ⟨_, hr⟩

lemma inv_request (id : Uuid) (firmId productionId requestedBy : String)
    (approverTiers : List (List String)) (mode : ValidationMode) :
    Inv { id, firmId, productionId, requestedBy, approverTiers, mode } :=
  ⟨Or.inr ⟨rfl, rfl⟩, fun _ _ _ he => absurd he (List.not_mem_nil)⟩

lemma decide_eq_ok {engine : HumanValidationEngine} {firmId : String} {requestId : Uuid}
    {a : String} {d : ValidationDecisionType} {c : Option String} {r : ValidationRequest}
    (h : engine.get firmId requestId = some r) :
    engine.decide firmId requestId a d c = .ok (HumanValidationEngine.record r a d c,
      { engine with store := engine.store.set r.id (HumanValidationEngine.record r a d c) }) := by
  unfold HumanValidationEngine.decide
  rw [h]
  rfl

/-- Calls under the discipline keep the invariant of the store. -/
theorem storeInv_step {engine : HumanValidationEngine} {call : Call} (h : StoreInv engine)
    (hc : CountedCall engine call) : StoreInv (step engine call) := by
  cases call with
  | request firmId productionId requestedBy approverTiers mode =>
    intro r hr
    rcases Dict.mem_values_set hr with rfl | hr
    · exact inv_request ..
    · exact h r hr
  | decide firmId requestId a d c =>
    cases hget : engine.get firmId requestId with
    | none => simpa [step, HumanValidationEngine.decide, hget] using h
    | some r =>
      intro r' hr'
      simp only [step, decide_eq_ok hget] at hr'
      rcases Dict.mem_values_set hr' with rfl | hr'
      · exact inv_record (h r (get_mem_values hget)) (hc r hget)
      · exact h r' hr'

/-- In a store that meets the invariant a call is safe iff it meets the discipline. -/
lemma quorumSafe_iff {engine : HumanValidationEngine} {call : Call} (h : StoreInv engine) :
    QuorumSafe engine call ↔ CountedCall engine call := by
  constructor
  · cases call with
    | request => exact fun _ => trivial
    | decide firmId requestId a d c =>
      rintro ⟨-, hmove⟩ r hget
      by_cases ha : a ∈ currentTier r
      · exact Or.inl ha
      · exact (not_movesTowardApproval_iff (h r (get_mem_values hget)) ha).mp
          (hmove r _ _ hget (decide_eq_ok hget) ha)
  · intro hc
    refine ⟨fun r hr => (storeInv_step h hc r hr).quorumSound, ?_⟩
    cases call with
    | request => exact trivial
    | decide firmId requestId a d c =>
      intro r r' engine' hget hok ha
      obtain ⟨rfl, -⟩ := Prod.mk.inj (Except.ok.inj ((decide_eq_ok hget).symm.trans hok))
      exact (not_movesTowardApproval_iff (h r (get_mem_values hget)) ha).mpr (hc r hget)

/-- **Quorum soundness, exactly.**  Whatever is requested and decided, every call of the run is safe
iff every approval of a pending request was given from within its current tier, or in the mode
`multiple` while a tier was open. -/
theorem along_quorumSafe_iff (calls : List Call) :
    Along step QuorumSafe {} calls ↔ Along step CountedCall {} calls :=
  along_congr (I := StoreInv) (fun _ hr => absurd hr (List.not_mem_nil))
    (fun _ _ => storeInv_step) (fun _ _ => quorumSafe_iff)

/-- One approval by somebody whom the request does not name, and it is approved. -/
theorem outsider_approves : ¬ Along step QuorumSafe {}
    [.request "firm" "production" "owner" [["alice"]] .simple,
      .decide "firm" 0 "mallory" .approve none] := by
  rintro ⟨-, ⟨hsound, -⟩, -⟩
  revert hsound
  decide

end Tmis.AiGovernance.HumanValidation

/-!
## Tiers in order, and decisions that stay

The tier of a decision is found by going through the whole history.  It never goes back, so the tiers are
decided in their order; and what was rejected, or sent back for a revision, is never open again.

* `InOrder`, `Final` — the two properties of a request;
* `currentTierIndex_record` — a decision does not take the current tier back;
* `Ordered`, `ordered_record` — the invariant of a request, and that a decision keeps it;
* `Continues`, `continues_run` — what later calls leave of the requests that are there;
* `tiers_in_order` — over every sequence of calls.
-/

namespace Tmis.AiGovernance.HumanValidation

open Tmis.Lib
open HumanValidationEngine (record)

/-! ### What is to hold -/

/-- The tiers of the history do not decrease, and a decision is for a tier only once all the tiers before it
have what they need, by the decisions before it. -/
structure InOrder (r : ValidationRequest) : Prop where
  nondecreasing : r.history.Pairwise fun e e' => e.tier ≤ e'.tier
  satisfied : ∀ earlier e later, r.history = earlier ++ e :: later → ∀ k < e.tier,
    ∃ h : k < r.approverTiers.length, tierIsApproved r.approverTiers[k] k earlier r.mode = true

/-- A request with this history is rejected once somebody has rejected it, and neither pending nor approved
once somebody has asked for a revision. -/
structure Final (history : List ValidationDecisionEntry) (status : ValidationStatus) : Prop where
  rejected : (∃ e ∈ history, e.decision = .reject) → status = .rejected
  revision : (∃ e ∈ history, e.decision = .requestRevision) → status ≠ .pending ∧ status ≠ .approved

/-- The requests of `engine` are in `engine'` with all their decisions, and with a status that minds those. -/
def Continues (engine engine' : HumanValidationEngine) : Prop :=
  ∀ id r, engine.store.get id = some r → ∃ r', engine'.store.get id = some r' ∧
    r.history <+: r'.history ∧ Final r.history r'.status

/-! ### One decision -/

section Record

variable {r : ValidationRequest} {a : String} {d : ValidationDecisionType} {c : Option String}

lemma approvedTiers_le_record : approvedTiers r ≤ approvedTiers (record r a d c) := by
  by_contra hlt
  have hlt : approvedTiers (record r a d c) < approvedTiers r := not_le.mp hlt
  have hopen : HasOpenTier (record r a d c) := hlt.trans_le (approvedTiers_le r)
  have hdone := tierDone_record_of_done (a := a) (d := d) (c := c) (tierDone_of_lt hlt hopen)
  exact Bool.false_ne_true ((tierDone_open hopen).symm.trans hdone)

/-- A decision does not take the current tier back. -/
lemma currentTierIndex_record : currentTierIndex r ≤ currentTierIndex (record r a d c) := by
  have hle := approvedTiers_le_record (r := r) (a := a) (d := d) (c := c)
  have hlength : (record r a d c).approverTiers.length = r.approverTiers.length := rfl
  rw [currentTierIndex_eq, currentTierIndex_eq, hlength]
  split_ifs with hopen hopen' hopen'
  · exact hle
  · unfold HasOpenTier at hopen
    omega
  · unfold HasOpenTier at hopen
    omega
  · exact le_rfl

/-- The tiers before the current one have what they need. -/
lemma tierDone_of_lt_current {k : ℕ} (h : k < currentTierIndex r) :
    ∃ hk : k < r.approverTiers.length, TierDone r (r.approverTiers[k], k) = true := by
  rw [currentTierIndex_eq] at h
  split_ifs at h with hopen
  · have hk : k < r.approverTiers.length := h.trans hopen
    exact ⟨hk, tierDone_of_lt h hk⟩
  · have hk : k < r.approverTiers.length := by omega
    exact ⟨hk, not_hasOpenTier_iff.mp hopen k hk⟩

/-- What the status says of the history. -/
lemma final_recomputeStatus (r : ValidationRequest) : Final r.history (recomputeStatus r) where
  rejected h := by
    obtain ⟨e, he, hd⟩ := h
    have hany : r.history.any (fun e => decide (e.decision = .reject)) = true :=
      List.any_eq_true.mpr ⟨e, he, decide_eq_true hd⟩
    rw [recomputeStatus, if_pos hany]
  revision h := by
    obtain ⟨e, he, hd⟩ := h
    have hnot : ¬ AllApprove r := by
      intro hall
      have happrove := hall e he
      rw [hd] at happrove
      cases happrove
    rcases recomputeStatus_of_not_allApprove hnot with hstatus | hstatus <;> rw [hstatus]
    · exact ⟨nofun, nofun⟩
    · exact ⟨nofun, nofun⟩

lemma Final.of_isPrefix {history history' : List ValidationDecisionEntry} {status : ValidationStatus}
    (h : Final history' status) (hbefore : history <+: history') : Final history status where
  rejected hreject := by
    obtain ⟨e, he, hd⟩ := hreject
    exact h.rejected ⟨e, hbefore.subset he, hd⟩
  revision hrevision := by
    obtain ⟨e, he, hd⟩ := hrevision
    exact h.revision ⟨e, hbefore.subset he, hd⟩

/-- The invariant: the tiers are in order, up to the current one, and the status minds the decisions. -/
structure Ordered (r : ValidationRequest) : Prop where
  inOrder : InOrder r
  le_current : ∀ e ∈ r.history, e.tier ≤ currentTierIndex r
  final : Final r.history r.status

/-- **The step lemma**: a decision, of whomever, keeps the tiers in order. -/
theorem ordered_record (h : Ordered r) : Ordered (record r a d c) := by
  refine ⟨⟨?_, ?_⟩, ?_, ?_⟩
  · rw [record_history, List.pairwise_append]
    refine ⟨h.inOrder.nondecreasing, List.pairwise_singleton _ _, ?_⟩
    intro e he e' he'
    rw [List.mem_singleton.mp he']
    exact h.le_current e he
  · intro earlier e later hsplit k hk
    rw [record_history] at hsplit
    rcases List.append_eq_append_iff.mp hsplit with ⟨as, hearlier, has⟩ | ⟨as, hhistory, has⟩
    · -- It is the new decision, with the whole history before it.
      rcases List.cons_eq_append_iff.mp has with ⟨rfl, hcons⟩ | ⟨as', rfl, hcons⟩
      · obtain ⟨rfl, -⟩ := List.cons.inj hcons
        rw [hearlier, List.append_nil]
        exact tierDone_of_lt_current hk
      · cases as' <;> cases hcons
    · rcases List.append_eq_cons_iff.mp has.symm with ⟨rfl, hcons⟩ | ⟨as', rfl, hlater⟩
      · obtain ⟨rfl, -⟩ := List.cons.inj hcons
        rw [List.append_nil] at hhistory
        rw [← hhistory]
        exact tierDone_of_lt_current hk
      · exact h.inOrder.satisfied earlier e as' hhistory k hk
  · intro e he
    rw [record_history, List.mem_append, List.mem_singleton] at he
    rcases he with he | rfl
    · exact (h.le_current e he).trans currentTierIndex_record
    · exact currentTierIndex_record
  · rw [record_status]
    exact final_recomputeStatus (record r a d c)

end Record

/-! ### Runs -/

section Runs

variable {engine e₁ e₂ : HumanValidationEngine} {call : Call}

/-- Every stored request meets the invariant. -/
def StoreOrdered (engine : HumanValidationEngine) : Prop := ∀ r ∈ engine.store.values, Ordered r

lemma ordered_request (id : Uuid) (firmId productionId requestedBy : String)
    (approverTiers : List (List String)) (mode : ValidationMode) :
    Ordered { id, firmId, productionId, requestedBy, approverTiers, mode } := by
  refine ⟨⟨List.Pairwise.nil, ?_⟩, fun _ he => absurd he List.not_mem_nil, ⟨?_, ?_⟩⟩
  · intro earlier e later hsplit
    cases earlier <;> cases hsplit
  · rintro ⟨e, he, -⟩
    cases he
  · rintro ⟨e, he, -⟩
    cases he

lemma storeOrdered_step (h : StoreOrdered engine) : StoreOrdered (step engine call) := by
  cases call with
  | request firmId productionId requestedBy approverTiers mode =>
    intro r hr
    rcases Dict.mem_values_set hr with rfl | hr
    · exact ordered_request ..
    · exact h r hr
  | decide firmId requestId a d c =>
    cases hget : engine.get firmId requestId with
    | none => simpa [step, HumanValidationEngine.decide, hget] using h
    | some r =>
      intro r' hr'
      simp only [step, decide_eq_ok hget] at hr'
      rcases Dict.mem_values_set hr' with rfl | hr'
      · exact ordered_record (h r (get_mem_values hget))
      · exact h r' hr'

lemma keyed_step (h : engine.Keyed) : (step engine call).Keyed := by
  cases call with
  | request firmId productionId requestedBy approverTiers mode => exact h.request
  | decide firmId requestId a d c =>
    cases hget : engine.get firmId requestId with
    | none => simpa [step, HumanValidationEngine.decide, hget] using h
    | some r =>
      have hkeyed := h.decide (decide_eq_ok (a := a) (d := d) (c := c) hget)
      simpa only [step, decide_eq_ok hget] using hkeyed

lemma Continues.refl (h : StoreOrdered engine) : Continues engine engine := fun id r hr =>
  ⟨r, hr, List.prefix_rfl, (h r (Dict.mem_values_iff.mpr ⟨id, hr⟩)).final⟩

lemma Continues.trans (h : Continues engine e₁) (h' : Continues e₁ e₂) : Continues engine e₂ := by
  intro id r hr
  obtain ⟨r₁, hr₁, hbefore, -⟩ := h id r hr
  obtain ⟨r₂, hr₂, hbefore', hfinal⟩ := h' id r₁ hr₁
  exact ⟨r₂, hr₂, hbefore.trans hbefore', hfinal.of_isPrefix hbefore⟩

/-- One call leaves the requests that are there, with one decision more at most. -/
lemma continues_step (hkeyed : engine.Keyed) (h : StoreOrdered engine) : Continues engine (step engine call) := by
  cases call with
  | request firmId productionId requestedBy approverTiers mode =>
    intro id r hr
    exact ⟨r, hkeyed.get_request hr, List.prefix_rfl, (h r (Dict.mem_values_iff.mpr ⟨id, hr⟩)).final⟩
  | decide firmId requestId a d c =>
    cases hget : engine.get firmId requestId with
    | none => simpa [step, HumanValidationEngine.decide, hget] using Continues.refl h
    | some r₀ =>
      intro id r hr
      simp only [step, decide_eq_ok hget, Dict.get_set]
      split_ifs with hid
      · have hr₀ := HumanValidationEngine.store_get_of_get hget
        rw [hid, (hkeyed requestId r₀ hr₀).1, hr₀] at hr
        obtain rfl := Option.some.inj hr
        have hbefore : r₀.history <+: (record r₀ a d c).history := List.prefix_append ..
        exact ⟨_, rfl, hbefore, (ordered_record (h r₀ (get_mem_values hget))).final.of_isPrefix hbefore⟩
      · exact ⟨r, hr, List.prefix_rfl, (h r (Dict.mem_values_iff.mpr ⟨id, hr⟩)).final⟩

/-- **The run lemma.** -/
theorem continues_run (hkeyed : engine.Keyed) (h : StoreOrdered engine) (calls : List Call) :
    Continues engine (run step engine calls) := by
  induction calls generalizing engine with
  | nil => exact Continues.refl h
  | cons call calls ih =>
    exact (continues_step hkeyed h).trans (ih (keyed_step hkeyed) (storeOrdered_step h))

/-- The tiers of all the requests are in order. -/
def TiersInOrder (engine : HumanValidationEngine) : Prop := ∀ r ∈ engine.store.values, InOrder r

/-- **Tiers are decided in order, and rejections stay.**  Whatever is requested and decided, by whomever, the
decisions on each request are on its tiers in their order; and whatever is called after that, a request that
was rejected is rejected, and one that was sent back for a revision is neither pending nor approved. -/
theorem tiers_in_order (calls later : List Call) :
    TiersInOrder (run step {} calls) ∧ Continues (run step {} calls) (run step {} (calls ++ later)) := by
  have hordered : StoreOrdered (run step {} calls) :=
    run_inv calls (fun _ hr => absurd hr List.not_mem_nil) fun _ _ => storeOrdered_step
  have hkeyed : (run step {} calls).Keyed :=
    run_inv calls HumanValidationEngine.keyed_empty fun _ _ => keyed_step
  rw [run_append]
  exact ⟨fun r hr => (hordered r hr).inOrder, continues_run hkeyed hordered later⟩

end Runs

end Tmis.AiGovernance.HumanValidation
