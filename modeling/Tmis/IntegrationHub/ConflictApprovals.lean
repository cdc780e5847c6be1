import Tmis.AiGovernance.Quorum
import Tmis.IntegrationHub.Synchronization
import Tmis.Lib.Calls

/-!
# What an approval was given for

The strategy that asks a human looks for requests under the connector and the external identifier of a
conflict.  The text says neither the type of entity nor the version that was read, so that one request
stands for the conflicts of all of them.

* `ConflictContext.SameConflict`, `HubState.raised` — conflicts, and the one each request was raised for;
* `SynchronizationEngine.submitted`, `pullRecords_validation` — the conflicts of a synchronization;
* `HubState.Sound` — one request at most under each text;
* `Settles`, `Separate` — what is wanted of a conflict, and the condition on the request it finds;
* `along_settles_iff` — over every sequence of synchronizations and decisions.
-/

namespace Tmis.IntegrationHub

open Tmis.Lib Tmis.AiGovernance.HumanValidation

/-! ### Conflicts -/

/-- `==` of two records. -/
def ConnectorRecord.Same (a b : ConnectorRecord) : Prop :=
  a.externalId = b.externalId ∧ a.data.same b.data = true ∧ a.updatedAt = b.updatedAt

namespace ConflictContext

/-- `production_id`. -/
def productionId (c : ConflictContext) : String := c.connectorId ++ ":" ++ c.externalId

lemma productionId_def (c : ConflictContext) : c.connectorId ++ ":" ++ c.externalId = c.productionId := rfl

/-- Conflicts over one record. -/
def SameRecord (c d : ConflictContext) : Prop :=
  c.firmId = d.firmId ∧ c.connectorId = d.connectorId ∧ c.entityType = d.entityType ∧
    c.externalId = d.externalId

/-- Conflicts over one record, with the same remote version. -/
def SameConflict (c d : ConflictContext) : Prop :=
  c.SameRecord d ∧ c.remoteRecord.Same d.remoteRecord

instance (c d : ConflictContext) : Decidable (c.SameRecord d) := by
  unfold SameRecord; infer_instance

instance (c d : ConflictContext) : Decidable (c.SameConflict d) := by
  unfold SameConflict ConnectorRecord.Same; infer_instance

end ConflictContext

/-! ### The hub -/

/-- The validation engine, and the conflict that each of its requests was raised for. -/
structure HubState where
  validation : HumanValidationEngine := {}
  raised : Dict Uuid ConflictContext := ∅

/-- A conflict, and the approvers of the strategy it is submitted to. -/
structure Submission where
  approverIds : List String
  context : ConflictContext

namespace HubState

/-- A conflict is resolved. -/
def resolve (s : HubState) (x : Submission) : HubState :=
  let validation := (HumanValidationStrategy.resolve x.approverIds s.validation x.context).2
  { validation
    raised :=
      if validation.uuids = s.validation.uuids then s.raised
      else s.raised.set s.validation.uuids x.context }

/-- The request was raised for this very conflict. -/
def RaisedFor (s : HubState) (r : ValidationRequest) (c : ConflictContext) : Prop :=
  ∃ d ∈ s.raised.get r.id, d.SameConflict c

/-- The request was raised for this version of the record or another one. -/
def RaisedForRecord (s : HubState) (r : ValidationRequest) (c : ConflictContext) : Prop :=
  ∃ d ∈ s.raised.get r.id, d.SameRecord c

instance (s : HubState) (r : ValidationRequest) (c : ConflictContext) : Decidable (s.RaisedFor r c) := by
  unfold RaisedFor; infer_instance

instance (s : HubState) (r : ValidationRequest) (c : ConflictContext) :
    Decidable (s.RaisedForRecord r c) := by
  unfold RaisedForRecord; infer_instance

end HubState

/-- The conflicts that the loop meets, up to the record at which it raises. -/
def SyncJobConfig.conflicts (job : SyncJobConfig) (ports : PullPorts) :
    List ConnectorRecord → List ConflictContext
  | [] => []
  | record :: records =>
      match job.conflictOf ports record with
      | .error _ => []
      | .ok none => job.conflicts ports records
      | .ok (some context) => context :: job.conflicts ports records

namespace SynchronizationEngine

/-- The conflicts that a synchronization submits to the strategy that asks a human. -/
def submitted (engine : SynchronizationEngine) (job : SyncJobConfig) (ports : PullPorts)
    (records : List ConnectorRecord) : List Submission :=
  match engine.conflictEngine.strategies.get job.conflictStrategy with
  | some (.humanValidation approverIds) => (job.conflicts ports records).map (Submission.mk approverIds)
  | _ => []

end SynchronizationEngine

inductive HubAction where
  /-- A job goes through the records it has read. -/
  | pull (job : SyncJobConfig) (ports : PullPorts) (records : List ConnectorRecord)
  | decide (firmId : String) (requestId : Uuid) (approverId : String) (decision : ValidationDecisionType)
      (comment : Option String)

/-- The hub after an action. -/
def HubState.step (engine : SynchronizationEngine) (s : HubState) : HubAction → HubState
  | .pull job ports records =>
      { validation := (engine.pullRecords job ports records {} s.validation).2
        raised := (run HubState.resolve s (engine.submitted job ports records)).raised }
  | .decide firmId requestId approverId decision comment =>
      match s.validation.decide firmId requestId approverId decision comment with
      | .ok (_, validation) => { s with validation }
      | .error _ => s

/-! ### What is wanted -/

/-- What is wanted of a conflict that is submitted. -/
structure Settles (s : HubState) (x : Submission) : Prop where
  /-- The remote version is kept only if a human approved a request raised for this very conflict. -/
  approved : (HumanValidationStrategy.resolve x.approverIds s.validation x.context).1.resolvedRecord =
      some x.context.remoteRecord →
    ∃ r ∈ s.validation.store.values, r.status = .approved ∧ (∃ e ∈ r.history, e.decision = .approve) ∧
      s.RaisedFor r x.context
  /-- After a rejection over the record a new request is raised, unless one that was raised for this very
  conflict is not rejected. -/
  afresh : (∃ r ∈ s.validation.store.values, r.status = .rejected ∧ s.RaisedForRecord r x.context) →
    (∀ r ∈ s.validation.store.values, s.RaisedFor r x.context → r.status = .rejected) →
    ∃ r ∈ (s.resolve x).validation.store.values,
      s.validation.store.get r.id = none ∧ (s.resolve x).RaisedFor r x.context

/-- The condition on a conflict: of the requests that are found for it, one that is approved was raised
for this very conflict, and one that is rejected for another record. -/
def Separate (s : HubState) (x : Submission) : Prop :=
  ∀ r ∈ s.validation.history x.context.firmId x.context.productionId,
    (r.status = .approved → s.RaisedFor r x.context) ∧
      (r.status = .rejected → ¬ s.RaisedForRecord r x.context)

/-- All the conflicts that the action submits meet `P`. -/
def EachConflict (engine : SynchronizationEngine) (P : HubState → Submission → Prop) (s : HubState) :
    HubAction → Prop
  | .pull job ports records => Along HubState.resolve P s (engine.submitted job ports records)
  | .decide .. => True

/-! ### The conflicts of a synchronization -/

section Pull

variable {engine : SynchronizationEngine} {job : SyncJobConfig} {ports : PullPorts}
  {approverIds : List String} {context : ConflictContext} {validation validation' : HumanValidationEngine}

lemma resolve_of_asks {strategy : ConflictStrategy}
    (h : engine.conflictEngine.strategies.get strategy = some (.humanValidation approverIds)) :
    engine.conflictEngine.resolve validation context strategy =
      .ok (HumanValidationStrategy.resolve approverIds validation context) := by
  simp [ConflictResolutionEngine.resolve, h, Strategy.resolve]

/-- A conflict is resolved by the strategy that asks a human, or by one that leaves nothing pending and the
validation engine alone. -/
lemma resolve_eq_ok {strategy : ConflictStrategy} {resolution : ConflictResolution}
    (h : engine.conflictEngine.resolve validation context strategy = .ok (resolution, validation')) :
    (∃ approverIds, engine.conflictEngine.strategies.get strategy = some (.humanValidation approverIds)) ∨
      (resolution.pendingHumanValidation = false ∧ validation' = validation) := by
  unfold ConflictResolutionEngine.resolve at h
  cases hget : engine.conflictEngine.strategies.get strategy with
  | none => simp [hget] at h
  | some impl =>
    rw [hget] at h
    cases impl with
    | localWins => cases h; exact Or.inr ⟨rfl, rfl⟩
    | remoteWins => cases h; exact Or.inr ⟨rfl, rfl⟩
    | lastWriteWins =>
      obtain ⟨resolution', hres, hpair⟩ := map_eq_ok.mp h
      obtain ⟨newer, -, hnewer⟩ := map_eq_ok.mp hres
      cases hpair
      subst hnewer
      cases newer <;> exact Or.inr ⟨rfl, rfl⟩
    | humanValidation approverIds => exact Or.inl ⟨approverIds, rfl⟩

lemma pullRecords_validation_of_not_asks (records : List ConnectorRecord) (counts : PullCounts)
    (h : ∀ approverIds, engine.conflictEngine.strategies.get job.conflictStrategy ≠
      some (.humanValidation approverIds)) :
    (engine.pullRecords job ports records counts validation).2 = validation := by
  induction records generalizing counts with
  | nil => rfl
  | cons record records ih =>
    rw [SynchronizationEngine.pullRecords]
    split
    · rfl
    · rename_i counts' validation' hrecord
      have hsame : validation' = validation := by
        rw [SynchronizationEngine.pullRecord_eq, bind_eq_ok] at hrecord
        obtain ⟨conflict, -, hsettle⟩ := hrecord
        cases conflict with
        | none => cases hsettle; rfl
        | some context =>
          obtain ⟨r, hres, hpair⟩ := map_eq_ok.mp hsettle
          cases hpair
          rcases resolve_eq_ok hres with ⟨approverIds, hasks⟩ | ⟨-, hsame⟩
          · exact absurd hasks (h approverIds)
          · exact hsame
      rw [hsame]
      exact ih counts'

lemma pullRecords_validation_of_asks (records : List ConnectorRecord) (counts : PullCounts) (s : HubState)
    (h : engine.conflictEngine.strategies.get job.conflictStrategy = some (.humanValidation approverIds)) :
    (engine.pullRecords job ports records counts s.validation).2 =
      (run HubState.resolve s
        ((job.conflicts ports records).map (Submission.mk approverIds))).validation := by
  induction records generalizing counts s with
  | nil => rfl
  | cons record records ih =>
    rw [SynchronizationEngine.pullRecords, SynchronizationEngine.pullRecord_eq, SyncJobConfig.conflicts]
    cases job.conflictOf ports record with
    | error e => rfl
    | ok conflict =>
      cases conflict with
      | none => exact ih _ s
      | some context =>
        rw [List.map_cons, run_cons]
        simp only [bind, Except.bind, SynchronizationEngine.settle, resolve_of_asks h, Except.map]
        exact ih _ (s.resolve ⟨approverIds, context⟩)

/-- **A synchronization** leaves the validation engine as the conflicts it submits leave it, one after the
other. -/
theorem pullRecords_validation (engine : SynchronizationEngine) (job : SyncJobConfig) (ports : PullPorts)
    (records : List ConnectorRecord) (s : HubState) :
    (engine.pullRecords job ports records {} s.validation).2 =
      (run HubState.resolve s (engine.submitted job ports records)).validation := by
  unfold SynchronizationEngine.submitted
  split
  · exact pullRecords_validation_of_asks records {} s ‹_›
  · exact pullRecords_validation_of_not_asks records {} (by assumption)

lemma step_pull (s : HubState) (records : List ConnectorRecord) :
    s.step engine (.pull job ports records) =
      run HubState.resolve s (engine.submitted job ports records) := by
  simp only [HubState.step, pullRecords_validation]

end Pull

/-! ### One request under each text -/

/-- Every request is kept under its identifier and was raised for a conflict that it is found for; no other
one is found for that conflict; and it is approved only by an approval. -/
structure HubState.Sound (s : HubState) : Prop where
  key : s.validation.Keyed
  raised : ∀ id r, s.validation.store.get id = some r →
    ∃ c ∈ s.raised.get id, r.firmId = c.firmId ∧ r.productionId = c.productionId
  unique : ∀ id id' r r', s.validation.store.get id = some r → s.validation.store.get id' = some r' →
    r.firmId = r'.firmId → r.productionId = r'.productionId → id = id'
  approved : ∀ id r, s.validation.store.get id = some r → r.status = .approved →
    ∃ e ∈ r.history, e.decision = .approve

section Sound

variable {s : HubState} {x : Submission} {r : ValidationRequest}

lemma mem_history {engine : HumanValidationEngine} {firmId productionId : String} :
    r ∈ engine.history firmId productionId ↔
      (∃ id, engine.store.get id = some r) ∧ r.firmId = firmId ∧ r.productionId = productionId := by
  simp [HumanValidationEngine.history, Dict.mem_values_iff]

lemma isValidated_iff {engine : HumanValidationEngine} {firmId productionId : String} :
    engine.isValidated firmId productionId = true ↔
      ∃ r ∈ engine.history firmId productionId, r.status = .approved := by
  simp [HumanValidationEngine.isValidated]

/-- Without a request there is no approved one. -/
lemma isValidated_of_history_nil {engine : HumanValidationEngine} {firmId productionId : String}
    (h : engine.history firmId productionId = []) : engine.isValidated firmId productionId = false := by
  simp [HumanValidationEngine.isValidated, h]

section Resolve

variable {validation : HumanValidationEngine} {c : ConflictContext} {approverIds : List String}

/-- The remote version is kept iff an approved request is found. -/
lemma resolvedRecord_iff :
    (HumanValidationStrategy.resolve approverIds validation c).1.resolvedRecord = some c.remoteRecord ↔
      ∃ r ∈ validation.history c.firmId c.productionId, r.status = .approved := by
  rw [← isValidated_iff]
  cases hval : validation.isValidated c.firmId c.productionId <;>
    simp [HumanValidationStrategy.resolve, ConflictContext.productionId_def, hval]

lemma resolve_validation_of_found (h : validation.history c.firmId c.productionId ≠ []) :
    (HumanValidationStrategy.resolve approverIds validation c).2 = validation := by
  cases hval : validation.isValidated c.firmId c.productionId <;>
    simp [HumanValidationStrategy.resolve, ConflictContext.productionId_def, hval, h]

lemma resolve_validation_of_none (h : validation.history c.firmId c.productionId = []) :
    (HumanValidationStrategy.resolve approverIds validation c).2 =
      (validation.requestSimple c.firmId c.productionId "integration_hub" approverIds).2 := by
  have hval := isValidated_of_history_nil h
  simp [HumanValidationStrategy.resolve, ConflictContext.productionId_def, hval, h]

end Resolve

/-- **What resolving a conflict does**: it raises a request where none is found, and nothing else. -/
lemma resolve_cases (s : HubState) (x : Submission) :
    (s.validation.history x.context.firmId x.context.productionId ≠ [] ∧ s.resolve x = s) ∨
      (s.validation.history x.context.firmId x.context.productionId = [] ∧
        s.resolve x =
          { validation := (s.validation.requestSimple x.context.firmId x.context.productionId
              "integration_hub" x.approverIds).2
            raised := s.raised.set s.validation.uuids x.context }) := by
  by_cases hnone : s.validation.history x.context.firmId x.context.productionId = []
  · refine Or.inr ⟨hnone, ?_⟩
    rw [HubState.resolve, resolve_validation_of_none hnone]
    exact congrArg _ (if_neg (Nat.succ_ne_self _))
  · refine Or.inl ⟨hnone, ?_⟩
    rw [HubState.resolve, resolve_validation_of_found hnone]
    exact congrArg _ (if_pos rfl)

lemma sound_empty : HubState.Sound {} where
  key := HumanValidationEngine.keyed_empty
  raised _ _ h := by cases h
  unique _ _ _ _ h := by cases h
  approved _ _ h := by cases h

/-- A conflict that finds no request gets its own. -/
lemma HubState.Sound.resolve (h : s.Sound) (x : Submission) : (s.resolve x).Sound := by
  rcases resolve_cases s x with ⟨-, heq⟩ | ⟨hnone, heq⟩ <;> rw [heq]
  · exact h
  have hother : ∀ id r, s.validation.store.get id = some r →
      ¬ (r.firmId = x.context.firmId ∧ r.productionId = x.context.productionId) := fun id r hr hsame =>
    List.ne_nil_of_mem (mem_history.mpr ⟨⟨id, hr⟩, hsame⟩) hnone
  refine ⟨h.key.request, ?_, ?_, ?_⟩ <;>
    simp only [HumanValidationEngine.requestSimple, HumanValidationEngine.request]
  · intro id r hr
    rw [Dict.get_set] at hr ⊢
    split at hr
    · cases hr
      exact ⟨x.context, by simp [*], rfl, rfl⟩
    · simpa [*] using h.raised id r hr
  · intro id id' r r' hr hr' hfirm hproduction
    rw [Dict.get_set] at hr hr'
    split at hr <;> split at hr'
    · exact Eq.trans ‹_› (Eq.symm ‹_›)
    · cases hr
      exact absurd ⟨hfirm.symm, hproduction.symm⟩ (hother id' r' hr')
    · cases hr'
      exact absurd ⟨hfirm, hproduction⟩ (hother id r hr)
    · exact h.unique id id' r r' hr hr' hfirm hproduction
  · intro id r hr hstatus
    rw [Dict.get_set] at hr
    split at hr
    · cases hr
      cases hstatus
    · exact h.approved id r hr hstatus

/-- A request that a decision leaves approved holds the approval that was just given. -/
lemma approve_of_record {approverId : String} {decision : ValidationDecisionType} {comment : Option String}
    (h : (HumanValidationEngine.record r approverId decision comment).status = .approved) :
    ∃ e ∈ (HumanValidationEngine.record r approverId decision comment).history, e.decision = .approve := by
  rw [record_status, recomputeStatus_eq_approved, allApprove_record] at h
  obtain ⟨⟨-, rfl⟩, -⟩ := h
  exact ⟨_, by rw [record_history]; exact List.mem_append_right _ (List.mem_singleton_self _), rfl⟩

/-- A decision is appended to the history of its request. -/
lemma HubState.Sound.decide (h : s.Sound) (engine : SynchronizationEngine) (firmId : String)
    (requestId : Uuid) (approverId : String) (decision : ValidationDecisionType) (comment : Option String) :
    (s.step engine (.decide firmId requestId approverId decision comment)).Sound := by
  unfold HubState.step
  cases hget : s.validation.get firmId requestId with
  | none => simpa [HumanValidationEngine.decide, hget] using h
  | some request =>
    have hrequest := HumanValidationEngine.store_get_of_get hget
    obtain ⟨rfl, hlt⟩ := h.key requestId request hrequest
    simp only [decide_eq_ok hget]
    -- a stored request is the one that was there, with its history and status perhaps
    have hold : ∀ id r, (s.validation.store.set request.id
        (HumanValidationEngine.record request approverId decision comment)).get id = some r →
        ∃ r₀, s.validation.store.get id = some r₀ ∧ r.firmId = r₀.firmId ∧
          r.productionId = r₀.productionId := by
      intro id r hr
      rw [Dict.get_set] at hr
      split at hr
      · cases hr
        exact ⟨request, by simp [*], rfl, rfl⟩
      · exact ⟨r, hr, rfl, rfl⟩
    refine ⟨h.key.decide (decide_eq_ok hget), ?_, ?_, ?_⟩
    · intro id r hr
      obtain ⟨r₀, hr₀, hfirm, hproduction⟩ := hold id r hr
      obtain ⟨c, hc, hsame⟩ := h.raised id r₀ hr₀
      exact ⟨c, hc, hfirm.trans hsame.1, hproduction.trans hsame.2⟩
    · intro id id' r r' hr hr' hfirm hproduction
      obtain ⟨r₀, hr₀, hfirm₀, hproduction₀⟩ := hold id r hr
      obtain ⟨r₀', hr₀', hfirm₀', hproduction₀'⟩ := hold id' r' hr'
      exact h.unique id id' r₀ r₀' hr₀ hr₀' (hfirm₀ ▸ hfirm₀' ▸ hfirm)
        (hproduction₀ ▸ hproduction₀' ▸ hproduction)
    · intro id r hr hstatus
      rw [Dict.get_set] at hr
      split at hr
      · cases hr
        exact approve_of_record hstatus
      · exact h.approved id r hr hstatus

lemma HubState.Sound.step (h : s.Sound) (engine : SynchronizationEngine) (a : HubAction) :
    (s.step engine a).Sound := by
  cases a with
  | pull job ports records =>
    rw [step_pull]
    exact run_inv _ h fun s x h => h.resolve x
  | decide firmId requestId approverId decision comment => exact h.decide engine ..

/-! ### One conflict -/

/-- A request that was raised for a record is the one that a conflict over the record finds. -/
lemma mem_history_of_raisedForRecord {c : ConflictContext} (h : s.Sound)
    (hr : r ∈ s.validation.store.values) (hraised : s.RaisedForRecord r c) :
    r ∈ s.validation.history c.firmId c.productionId := by
  obtain ⟨id, hget⟩ := Dict.mem_values_iff.mp hr
  obtain ⟨d, hd, hfirm, hproduction⟩ := h.raised id r hget
  obtain ⟨d', hd', hfirm', hconnector, -, hexternal⟩ := hraised
  rw [(h.key id r hget).1] at hd'
  cases Option.mem_unique hd hd'
  refine mem_history.mpr ⟨⟨id, hget⟩, hfirm.trans hfirm', hproduction.trans ?_⟩
  rw [ConflictContext.productionId, ConflictContext.productionId, hconnector, hexternal]

lemma HubState.RaisedFor.forRecord {c : ConflictContext} (h : s.RaisedFor r c) : s.RaisedForRecord r c := by
  obtain ⟨d, hd, hsame⟩ := h
  exact ⟨d, hd, hsame.1⟩

/-- At most one request is found. -/
lemma eq_of_mem_history {firmId productionId : String} {r' : ValidationRequest} (h : s.Sound)
    (hr : r ∈ s.validation.history firmId productionId)
    (hr' : r' ∈ s.validation.history firmId productionId) : r = r' := by
  obtain ⟨⟨id, hget⟩, hfirm, hproduction⟩ := mem_history.mp hr
  obtain ⟨⟨id', hget'⟩, hfirm', hproduction'⟩ := mem_history.mp hr'
  have hid := h.unique id id' r r' hget hget' (hfirm.trans hfirm'.symm)
    (hproduction.trans hproduction'.symm)
  subst hid
  exact Option.some.inj (hget.symm.trans hget')

lemma mem_values_of_mem_history {firmId productionId : String}
    (hr : r ∈ s.validation.history firmId productionId) : r ∈ s.validation.store.values :=
  Dict.mem_values_iff.mpr (mem_history.mp hr).1

/-- **One conflict** is settled as it should be iff it meets the condition. -/
theorem settles_iff (h : s.Sound) : Settles s x ↔ Separate s x := by
  constructor
  · rintro ⟨happroved, hafresh⟩ r hr
    constructor
    · -- the approval that is asked for is the one that was found
      intro hstatus
      obtain ⟨r', hr', -, -, hraised⟩ := happroved (resolvedRecord_iff.mpr ⟨r, hr, hstatus⟩)
      rwa [eq_of_mem_history h hr (mem_history_of_raisedForRecord h hr' hraised.forRecord)]
    · -- no request is raised, since one was found
      intro hstatus hraised
      have hkept : s.resolve x = s := by
        rcases resolve_cases s x with ⟨-, heq⟩ | ⟨hnone, -⟩
        · exact heq
        · exact absurd hnone (List.ne_nil_of_mem hr)
      obtain ⟨r', hr', hnew, -⟩ := hafresh ⟨r, mem_values_of_mem_history hr, hstatus, hraised⟩
        fun r' hr' hraised' => by
          rwa [← eq_of_mem_history h hr (mem_history_of_raisedForRecord h hr' hraised'.forRecord)]
      rw [hkept] at hr'
      obtain ⟨id, hget⟩ := Dict.mem_values_iff.mp hr'
      rw [(h.key id r' hget).1, hget] at hnew
      cases hnew
  · intro hsep
    constructor
    · intro hremote
      obtain ⟨r, hr, hstatus⟩ := resolvedRecord_iff.mp hremote
      obtain ⟨id, hget⟩ := (mem_history.mp hr).1
      exact ⟨r, mem_values_of_mem_history hr, hstatus, h.approved id r hget hstatus, (hsep r hr).1 hstatus⟩
    · rintro ⟨r, hr, hstatus, hraised⟩
      exact absurd hraised ((hsep r (mem_history_of_raisedForRecord h hr hraised)).2 hstatus)

end Sound

/-! ### Every sequence of synchronizations and decisions -/

/-- **Approvals of conflicts, exactly.**  Whatever is synchronized and decided, every conflict is settled on
an approval of its own, and raises a request after a rejection, iff every conflict meets the condition. -/
theorem along_settles_iff (engine : SynchronizationEngine) (actions : List HubAction) :
    Along (HubState.step engine) (EachConflict engine Settles) {} actions ↔
      Along (HubState.step engine) (EachConflict engine Separate) {} actions := by
  refine along_congr (I := HubState.Sound) sound_empty (fun s a h _ => h.step engine a) ?_
  intro s a h
  cases a with
  | pull job ports records =>
    exact along_congr (I := HubState.Sound) h (fun s x h _ => h.resolve x) fun s x h => settles_iff h
  | decide => exact Iff.rfl

/-! ### A later version of the record -/

def askPartner : SynchronizationEngine :=
  ⟨ConflictResolutionEngine.default.register (.humanValidation ["partner-1"])⟩

def clientJob : SyncJobConfig :=
  { id := "job-1"
    connectorId := "c1"
    firmId := "f1"
    entityType := "client"
    conflictStrategy := .humanValidation }

/-- A client with this name. -/
def client (name : String) : ConnectorRecord :=
  { externalId := "e1", data := (∅ : Dict String String).set "name" name }

def clientPorts : PullPorts := { localLookup := some fun _ _ _ => .ok (some (client "local")) }

/-- One version is approved, and the next one is kept on that approval. -/
theorem approval_used_again : ¬ Along (HubState.step askPartner) (EachConflict askPartner Settles) {}
    [.pull clientJob clientPorts [client "first"],
      .decide "f1" 0 "partner-1" .approve none,
      .pull clientJob clientPorts [client "second"]] := by
  rintro ⟨-, -, ⟨hsettles, -⟩, -⟩
  have happroved := hsettles.approved (by decide +kernel)
  revert happroved
  decide +kernel

end Tmis.IntegrationHub
