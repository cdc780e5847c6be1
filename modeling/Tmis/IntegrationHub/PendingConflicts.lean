import Tmis.IntegrationHub.ConflictApprovals
import Tmis.IntegrationHub.Watermark

/-!
# What becomes of a pending conflict

A record that a run leaves to a human is read but not written, and `last_synced_at` moves past it all the
same.  Once the human has approved, a later run writes it only if a later run reads it.

* `SynchronizationEngine.leftAfter`, `PendingState` — the versions that were left pending and have not been
  written since;
* `Awaited` — a run under way goes through the version, or the next one will;
* `forgotten_for_good` — a version that is not awaited is written by no run until the source changes it;
* `written_of_awaited` — one that is awaited is written once it is approved;
* `along_writesApproved_iff` — over every history.
-/

namespace Tmis.IntegrationHub

open Tmis.Lib Tmis.AiGovernance.HumanValidation

/-! ### Versions left pending -/

/-- What a record makes of the versions left pending: one that is written is taken away, one that is left to
a human is added with its conflict. -/
def SyncJobConfig.leftAfterRecord (job : SyncJobConfig) (ports : PullPorts) (v : Version) (written : Prop)
    [Decidable written] (left : Dict Version ConflictContext) : Dict Version ConflictContext :=
  match job.conflictOf ports v.record with
  | .ok (some context) => if written then left.pop v else left.set v context
  | _ => left.pop v

/-- What the loop makes of them. -/
def SynchronizationEngine.leftAfter (engine : SynchronizationEngine) (job : SyncJobConfig)
    (ports : PullPorts) : List Version → PullCounts → HumanValidationEngine → Dict Version ConflictContext →
      Dict Version ConflictContext
  | [], _, _, left => left
  | v :: vs, counts, validation, left =>
      match engine.pullRecord job ports v.record counts validation with
      | .error _ => left
      | .ok (counts', validation') =>
          engine.leftAfter job ports vs counts' validation'
            (job.leftAfterRecord ports v (counts.written < counts'.written) left)

/-- The synchronization, and the versions whose last resolution was left pending, each with its conflict. -/
structure PendingState where
  sync : SyncState
  left : Dict Version ConflictContext := ∅

/-- The state after an action. -/
def PendingState.step (engine : SynchronizationEngine) (p : PendingState) (a : SyncAction) :
    PendingState where
  sync := engine.step p.sync a
  left :=
    match a with
    | .process i ports =>
        match p.sync.runs[i]? with
        | some run =>
            if run.phase = .processing then
              engine.leftAfter p.sync.job ports run.versions {} p.sync.validation p.left
            else p.left
        | none => p.left
    | _ => p.left

/-- A job that has never run, and a source that is still empty. -/
def newPending (job : SyncJobConfig) (clock : ℕ) : PendingState := { sync := newJob job clock }

/-! ### What is wanted -/

/-- The ports raise for no record, and the version meets the approved conflict or none. -/
structure PullPorts.Take (ports : PullPorts) (job : SyncJobConfig) (v : Version)
    (context : ConflictContext) : Prop where
  total : ∀ record, ∃ conflict, job.conflictOf ports record = .ok conflict
  same : ∀ c, job.conflictOf ports v.record = .ok (some c) → c.externalId = context.externalId

/-- A step of a run with these ports. -/
inductive OfRun (ports : PullPorts) : SyncAction → Prop where
  | start : OfRun ports .start
  | read (i : ℕ) : OfRun ports (.read i)
  | process (i : ℕ) : OfRun ports (.process i ports)

/-- With any ports that take it, some run goes on to count the version as written, though the source changes
nothing. -/
def WrittenLater (engine : SynchronizationEngine) (p : PendingState) (v : Version)
    (context : ConflictContext) : Prop :=
  ∀ ports : PullPorts, ports.Take p.sync.job v context →
    ∃ as : List SyncAction, (∀ a ∈ as, OfRun ports a) ∧
      (run (PendingState.step engine) p as).left.get v = none

/-- The version was left pending in this conflict, is still the latest, and has been approved. -/
structure ApprovedSince (p : PendingState) (v : Version) (context : ConflictContext) : Prop where
  left : p.left.get v = some context
  latest : v ∈ p.sync.source.values
  approved : p.sync.validation.isValidated context.firmId context.productionId = true

/-- Every version that was left pending and has been approved is written by a later run. -/
def WritesApproved (engine : SynchronizationEngine) (p : PendingState) : Prop :=
  ∀ v context, ApprovedSince p v context → WrittenLater engine p v context

/-- The run is going through the version, or will if it is answered now. -/
def PullRun.GoesThrough (r : PullRun) (v : Version) : Prop :=
  (r.phase = .reading ∧ changedSince r.since v.stamp = true) ∨ (r.phase = .processing ∧ v ∈ r.versions)

/-- `last_synced_at` is not after the version, or a run under way goes through it. -/
def Awaited (s : SyncState) (v : Version) : Prop :=
  changedSince s.job.since v.stamp = true ∨ ∃ r ∈ s.runs, r.GoesThrough v

/-- The condition on a state: what was left pending and has been approved is awaited. -/
def ApprovedAwaited (p : PendingState) : Prop := ∀ v context, ApprovedSince p v context → Awaited p.sync v

instance (r : PullRun) (v : Version) : Decidable (r.GoesThrough v) := by
  unfold PullRun.GoesThrough; infer_instance

instance (s : SyncState) (v : Version) : Decidable (Awaited s v) := by
  unfold Awaited; infer_instance

/-! ### One record -/

section Record

variable {engine : SynchronizationEngine} {job : SyncJobConfig} {ports : PullPorts}
  {record : ConnectorRecord} {counts counts' : PullCounts} {validation validation' : HumanValidationEngine}
  {approverIds : List String} {c : ConflictContext} {resolution : ConflictResolution}

/-- A conflict of the job is one of its firm and its connector. -/
lemma conflictOf_ids (h : job.conflictOf ports record = .ok (some c)) :
    c.firmId = job.firmId ∧ c.connectorId = job.connectorId := by
  have hwith : ∃ mapped found, job.conflictWith mapped found = some c := by
    unfold SyncJobConfig.conflictOf at h
    cases hmapper : ports.mapper <;> cases hlookup : ports.localLookup <;>
      simp only [hmapper, hlookup, bind_eq_ok, pure_eq_ok] at h <;>
      obtain ⟨mapped, -, found, -, hwith⟩ := h <;> exact ⟨mapped, found, hwith⟩
  obtain ⟨mapped, _ | localRecord, hwith⟩ := hwith
  · cases hwith
  · rw [SyncJobConfig.conflictWith] at hwith
    split at hwith <;> cases hwith
    exact ⟨rfl, rfl⟩

lemma written_afterConflict : counts.written < (counts.afterConflict resolution).written ↔
    resolution.pendingHumanValidation = false := by
  unfold PullCounts.afterConflict
  cases resolution.pendingHumanValidation <;> simp

/-- A conflict that has been approved is not left pending. -/
lemma not_pending_of_isValidated (h : validation.isValidated c.firmId c.productionId = true) :
    (HumanValidationStrategy.resolve approverIds validation c).1.pendingHumanValidation = false := by
  simp [HumanValidationStrategy.resolve, ConflictContext.productionId_def, h]

lemma resolve_validation_cases (approverIds : List String) (validation : HumanValidationEngine)
    (c : ConflictContext) :
    (HumanValidationStrategy.resolve approverIds validation c).2 = validation ∨
      (HumanValidationStrategy.resolve approverIds validation c).2 =
        (validation.requestSimple c.firmId c.productionId "integration_hub" approverIds).2 := by
  by_cases h : validation.history c.firmId c.productionId = []
  · exact Or.inr (resolve_validation_of_none h)
  · exact Or.inl (resolve_validation_of_found h)

/-- What has been approved stays so when a conflict raises a request. -/
lemma isValidated_resolve {firmId productionId : String} (hkeyed : validation.Keyed)
    (h : validation.isValidated firmId productionId = true) :
    (HumanValidationStrategy.resolve approverIds validation c).2.isValidated firmId productionId = true := by
  rcases resolve_validation_cases approverIds validation c with heq | heq <;> rw [heq]
  · exact h
  · obtain ⟨r, hr, hstatus⟩ := isValidated_iff.mp h
    obtain ⟨⟨id, hget⟩, hids⟩ := mem_history.mp hr
    exact isValidated_iff.mpr ⟨r, mem_history.mpr ⟨⟨id, hkeyed.get_request hget⟩, hids⟩, hstatus⟩

lemma keyed_resolve (hkeyed : validation.Keyed) :
    (HumanValidationStrategy.resolve approverIds validation c).2.Keyed := by
  rcases resolve_validation_cases approverIds validation c with heq | heq <;> rw [heq]
  · exact hkeyed
  · exact hkeyed.request

end Record

/-! ### The loop -/

/-- The conflict is one of the job, and the job asks a human. -/
structure SynchronizationEngine.LeavesToHuman (engine : SynchronizationEngine) (job : SyncJobConfig)
    (c : ConflictContext) : Prop where
  firm : c.firmId = job.firmId
  connector : c.connectorId = job.connectorId
  asks : ∃ approverIds, engine.conflictEngine.strategies.get job.conflictStrategy =
    some (.humanValidation approverIds)

section Loop

variable {engine : SynchronizationEngine} {job : SyncJobConfig} {ports : PullPorts}
  {counts : PullCounts} {validation : HumanValidationEngine}
  {context : ConflictContext} {left : Dict Version ConflictContext} {v w : Version} {vs : List Version}

lemma leftAfterRecord_of_ne {written : Prop} [Decidable written] (h : v ≠ w) :
    (job.leftAfterRecord ports w written left).get v = left.get v := by
  unfold SyncJobConfig.leftAfterRecord
  split
  · split
    · exact Dict.get_pop_of_ne _ h
    · exact Dict.get_set_of_ne _ _ h
  · exact Dict.get_pop_of_ne _ h

/-- The loop does nothing to a version that it does not go through. -/
lemma leftAfter_of_notMem (h : v ∉ vs) :
    (engine.leftAfter job ports vs counts validation left).get v = left.get v := by
  induction vs generalizing counts validation left with
  | nil => rfl
  | cons w vs ih =>
    rw [List.mem_cons, not_or] at h
    rw [SynchronizationEngine.leftAfter]
    split
    · rfl
    · rw [ih h.2, leftAfterRecord_of_ne h.1]

/-- What the loop leaves pending was so before, or is left to a human now. -/
lemma leftAfter_cases (h : (engine.leftAfter job ports vs counts validation left).get v = some context) :
    left.get v = some context ∨ engine.LeavesToHuman job context := by
  induction vs generalizing counts validation left with
  | nil => exact Or.inl h
  | cons w vs ih =>
    rw [SynchronizationEngine.leftAfter] at h
    split at h
    · exact Or.inl h
    rename_i counts' validation' hrecord
    rcases ih h with h | h
    · by_cases hvw : v = w
      · subst hvw
        unfold SyncJobConfig.leftAfterRecord at h
        split at h
        · rename_i c hconflict
          split at h
          · simp at h
          · rename_i hnot
            rw [Dict.get_set_self] at h
            cases h
            rw [SynchronizationEngine.pullRecord_eq, hconflict] at hrecord
            obtain ⟨r, hres, hpair⟩ := map_eq_ok.mp hrecord
            cases hpair
            rcases resolve_eq_ok hres with hasks | ⟨hpending, -⟩
            · exact Or.inr ⟨(conflictOf_ids hconflict).1, (conflictOf_ids hconflict).2, hasks⟩
            · exact absurd (written_afterConflict.mpr hpending) hnot
        · simp at h
      · rw [leftAfterRecord_of_ne hvw] at h
        exact Or.inl h
    · exact Or.inr h

/-- **The loop writes what has been approved.** -/
lemma leftAfter_eq_none (hleaves : engine.LeavesToHuman job context) (htake : ports.Take job v context)
    (hkeyed : validation.Keyed)
    (happroved : validation.isValidated context.firmId context.productionId = true)
    (h : v ∈ vs ∨ left.get v = none) :
    (engine.leftAfter job ports vs counts validation left).get v = none := by
  obtain ⟨approverIds, hasks⟩ := hleaves.asks
  induction vs generalizing counts validation left with
  | nil => exact h.resolve_left List.not_mem_nil
  | cons w vs ih =>
    -- what one record leaves of the version
    have hone : ∀ written [Decidable written],
        (v = w → job.conflictOf ports w.record = .ok none ∨ written) →
        v ∈ vs ∨ (job.leftAfterRecord ports w written left).get v = none := by
      intro written _ hwritten
      by_cases hvw : v = w
      · subst hvw
        refine Or.inr ?_
        unfold SyncJobConfig.leftAfterRecord
        rcases hwritten rfl with hnone | hwritten
        · simp [hnone]
        · split <;> simp [hwritten]
      · rw [leftAfterRecord_of_ne hvw]
        exact h.imp_left fun hmem => (List.mem_cons.mp hmem).resolve_left hvw
    rw [SynchronizationEngine.leftAfter, SynchronizationEngine.pullRecord_eq]
    obtain ⟨conflict, hconflict⟩ := htake.total w.record
    simp only [hconflict, bind, Except.bind]
    cases conflict with
    | none => exact ih hkeyed happroved (hone _ fun _ => Or.inl hconflict)
    | some c =>
      simp only [SynchronizationEngine.settle, resolve_of_asks hasks, Except.map]
      refine ih (keyed_resolve hkeyed) (isValidated_resolve hkeyed happroved) (hone _ fun hvw => Or.inr ?_)
      subst hvw
      obtain ⟨hfirm, hconnector⟩ := conflictOf_ids hconflict
      rw [written_afterConflict]
      refine not_pending_of_isValidated ?_
      rwa [ConflictContext.productionId, hfirm, hconnector, htake.same c hconflict, ← hleaves.firm,
        ← hleaves.connector, ← ConflictContext.productionId]

end Loop

/-! ### States that are reached -/

/-- The states that are reached. -/
structure PendingSound (engine : SynchronizationEngine) (p : PendingState) : Prop where
  wellFormed : WellFormed p.sync
  keyed : p.sync.validation.Keyed
  left : ∀ v context, p.left.get v = some context → engine.LeavesToHuman p.sync.job context

section Reached

variable {engine : SynchronizationEngine} {p : PendingState} {s : SyncState} {a : SyncAction}
  {as : List SyncAction} {ports : PullPorts} {v : Version} {context : ConflictContext} {i : ℕ} {r : PullRun}

/-- Of the job only `last_synced_at` changes. -/
lemma job_step (engine : SynchronizationEngine) (s : SyncState) (a : SyncAction) :
    ∃ lastSyncedAt, (engine.step s a).job = { s.job with lastSyncedAt } := by
  have heffect := syncEffect_step engine s a
  generalize engine.step s a = s' at heffect ⊢
  cases heffect <;> exact ⟨_, rfl⟩

lemma keyed_pullRecords {job : SyncJobConfig} {records : List ConnectorRecord}
    {validation validation' : HumanValidationEngine}
    (hpull : (engine.pullRecords job ports records {} validation).2 = validation')
    (h : validation.Keyed) : validation'.Keyed := by
  rw [← hpull, pullRecords_validation engine job ports records { validation }]
  exact run_inv (I := fun s : HubState => s.validation.Keyed) _ h fun s x h => keyed_resolve h

lemma keyed_step (h : s.validation.Keyed) : (engine.step s a).validation.Keyed := by
  have heffect := syncEffect_step engine s a
  generalize engine.step s a = s' at heffect ⊢
  cases heffect with
  | processRaises i r ports e validation hget hphase hpull =>
    exact keyed_pullRecords (congrArg Prod.snd hpull) h
  | processReturns i r ports counts validation hget hphase hpull =>
    exact keyed_pullRecords (congrArg Prod.snd hpull) h
  | decide requestId approverId decision comment request validation hok => exact h.decide hok
  | _ => exact h

lemma pendingSound_new (engine : SynchronizationEngine) (job : SyncJobConfig) (clock : ℕ) :
    PendingSound engine (newPending job clock) where
  wellFormed := wellFormed_newJob job clock
  keyed := HumanValidationEngine.keyed_empty
  left _ _ h := by cases h

lemma PendingSound.step (h : PendingSound engine p) (a : SyncAction) :
    PendingSound engine (p.step engine a) where
  wellFormed := h.wellFormed.step engine a
  keyed := keyed_step h.keyed
  left v context hv := by
    obtain ⟨lastSyncedAt, hjob⟩ := job_step engine p.sync a
    have hcases : p.left.get v = some context ∨ engine.LeavesToHuman p.sync.job context := by
      cases a with
      | process i ports =>
        simp only [PendingState.step] at hv
        split at hv
        · split at hv
          · exact leftAfter_cases hv
          · exact Or.inl hv
        · exact Or.inl hv
      | _ => exact Or.inl hv
    have hleaves := hcases.elim (h.left v context) id
    change engine.LeavesToHuman (engine.step p.sync a).job context
    rw [hjob]
    exact ⟨hleaves.firm, hleaves.connector, hleaves.asks⟩

/-! ### A version that is not awaited -/

/-- The run at the index `i` goes on, without going through the version. -/
lemma awaited_of_set {r' : PullRun} (hr' : ¬ r'.GoesThrough v)
    (h : ∃ r₁ ∈ s.runs.set i r', r₁.GoesThrough v) : ∃ r₁ ∈ s.runs, r₁.GoesThrough v := by
  obtain ⟨r₁, hmem, hgoes⟩ := h
  rcases List.mem_or_eq_of_mem_set hmem with hmem | rfl
  · exact ⟨r₁, hmem, hgoes⟩
  · exact absurd hgoes hr'

/-- **No step** makes a version awaited that was not. -/
lemma awaited_of_step (h : WellFormed s) (hstep : Awaited (engine.step s a) v) : Awaited s v := by
  have heffect := syncEffect_step engine s a
  generalize engine.step s a = s' at heffect hstep
  cases heffect with
  | start =>
    rcases hstep with hsince | ⟨r, hr, hgoes⟩
    · exact Or.inl hsince
    · rcases List.mem_append.mp hr with hr | hr
      · exact Or.inr ⟨r, hr, hgoes⟩
      · cases List.mem_singleton.mp hr
        rcases hgoes with ⟨-, hsince⟩ | ⟨hphase, -⟩
        · exact Or.inl hsince
        · cases hphase
  | read i r hget hphase =>
    refine hstep.imp_right ?_
    rintro ⟨r₁, hmem, hgoes⟩
    rcases List.mem_or_eq_of_mem_set hmem with hmem | rfl
    · exact ⟨r₁, hmem, hgoes⟩
    · -- what the connector returned was asked for
      rcases hgoes with ⟨hreading, -⟩ | ⟨-, hread⟩
      · cases hreading
      · exact ⟨r, List.mem_of_getElem? hget, Or.inl ⟨hphase, (List.mem_filter.mp hread).2⟩⟩
  | readRaises i r e => exact hstep.imp_right (awaited_of_set (by simp [PullRun.GoesThrough]))
  | processRaises i r ports e => exact hstep.imp_right (awaited_of_set (by simp [PullRun.GoesThrough]))
  | processReturns i r ports counts =>
    rcases hstep with hsince | hruns
    · -- the clock is not before the old watermark
      refine Or.inl ?_
      cases hmode : s.job.mode with
      | full => simp [SyncJobConfig.since, hmode, changedSince]
      | incremental => exact changedSince_clock h (changedSince_some.mp hsince hmode)
    · exact Or.inr (awaited_of_set (by simp [PullRun.GoesThrough]) hruns)
  | _ => exact hstep

lemma left_step_of_not_awaited (h : ¬ Awaited p.sync v) : (p.step engine a).left.get v = p.left.get v := by
  cases a with
  | process i ports =>
    simp only [PendingState.step]
    split
    · rename_i r hget
      split
      · refine leftAfter_of_notMem fun hread => h (Or.inr ?_)
        exact ⟨r, List.mem_of_getElem? hget, Or.inr ⟨‹_›, hread⟩⟩
      · rfl
    · rfl
  | _ => rfl

/-- **A version that is not awaited** is written by no run, whatever happens. -/
theorem forgotten_for_good (h : WellFormed p.sync) (hnot : ¬ Awaited p.sync v) :
    (run (PendingState.step engine) p as).left.get v = p.left.get v := by
  induction as generalizing p with
  | nil => rfl
  | cons a as ih =>
    have hnext : ¬ Awaited (p.step engine a).sync v := fun hstep => hnot (awaited_of_step h hstep)
    rw [run_cons, ih (h.step engine a) hnext, left_step_of_not_awaited hnot]

/-! ### A version that is awaited -/

/-- A run that goes through its records writes those that have been approved. -/
lemma written_of_processing (h : PendingSound engine p) (hv : ApprovedSince p v context)
    (htake : ports.Take p.sync.job v context) (hget : p.sync.runs[i]? = some r)
    (hphase : r.phase = .processing) (hread : v ∈ r.versions) : (p.step engine (.process i ports)).left.get v = none := by
  simp only [PendingState.step, hget, hphase, if_true]
  exact leftAfter_eq_none (h.left v context hv.left) htake h.keyed hv.approved (Or.inl hread)

/-- A run that awaits the connector reads the version and goes through it. -/
lemma written_of_reading (h : PendingSound engine p) (hv : ApprovedSince p v context)
    (htake : ports.Take p.sync.job v context) (hget : p.sync.runs[i]? = some r)
    (hphase : r.phase = .reading) (hsince : changedSince r.since v.stamp = true) :
    (run (PendingState.step engine) p [.read i, .process i ports]).left.get v = none := by
  have hlt : i < p.sync.runs.length := (List.getElem?_eq_some_iff.mp hget).1
  have hsync : (p.step engine (.read i)).sync =
      { p.sync with
        runs := p.sync.runs.set i
          { r with phase := .processing, versions := p.sync.changedRecords r.since } } := by
    simp [PendingState.step, SynchronizationEngine.step, hget, hphase]
  refine written_of_processing (r := ⟨r.since, r.startedAfter, .processing, p.sync.changedRecords r.since⟩)
    (h.step (.read i)) ⟨hv.left, ?_, ?_⟩ ?_ ?_ rfl ?_
  · rw [hsync]
    exact hv.latest
  · rw [hsync]
    exact hv.approved
  · rw [hsync]
    exact htake
  · rw [hsync]
    exact List.getElem?_set_self hlt
  · exact List.mem_filter.mpr ⟨hv.latest, hsince⟩

/-- **A version that is awaited** is written once it has been approved. -/
theorem written_of_awaited (h : PendingSound engine p) (hv : ApprovedSince p v context)
    (hawaited : Awaited p.sync v) : WrittenLater engine p v context := by
  intro ports htake
  rcases hawaited with hsince | ⟨r, hr, hgoes⟩
  · -- a new run
    have hget : (p.step engine .start).sync.runs[p.sync.runs.length]? =
        some { since := p.sync.job.since, startedAfter := p.sync.changes } := List.getElem?_concat_length
    refine ⟨[.start, .read p.sync.runs.length, .process p.sync.runs.length ports], ?_, ?_⟩
    · simp [OfRun.start, OfRun.read, OfRun.process]
    · exact written_of_reading (h.step .start) ⟨hv.left, hv.latest, hv.approved⟩ htake hget rfl hsince
  · -- the run that goes through it
    obtain ⟨i, hget⟩ := List.mem_iff_getElem?.mp hr
    rcases hgoes with ⟨hphase, hsince⟩ | ⟨hphase, hread⟩
    · refine ⟨[.read i, .process i ports], ?_, written_of_reading h hv htake hget hphase hsince⟩
      simp [OfRun.read, OfRun.process]
    · refine ⟨[.process i ports], ?_, written_of_processing h hv htake hget hphase hread⟩
      simp [OfRun.process]

/-- With these ports no record is in conflict. -/
lemma take_unchecked (job : SyncJobConfig) (v : Version) (context : ConflictContext) :
    PullPorts.Take {} job v context where
  total _ := ⟨none, rfl⟩
  same _ hc := by cases hc

/-- **One state**: what was approved is written by a later run iff it is awaited. -/
theorem writesApproved_iff (h : PendingSound engine p) : WritesApproved engine p ↔ ApprovedAwaited p := by
  refine forall_congr' fun v => forall_congr' fun context => forall_congr' fun hv => ?_
  constructor
  · intro hwritten
    obtain ⟨as, -, hnone⟩ := hwritten {} (take_unchecked p.sync.job v context)
    by_contra hnot
    rw [forgotten_for_good h.wellFormed hnot, hv.left] at hnone
    cases hnone
  · exact written_of_awaited h hv

end Reached

/-! ### Every history -/

/-- **Pending conflicts, exactly.**  In every history of runs, at every point, all that was left pending and
has been approved is written by a later run iff all of it is awaited. -/
theorem along_writesApproved_iff (engine : SynchronizationEngine) (job : SyncJobConfig) (clock : ℕ)
    (as : List SyncAction) :
    Along (PendingState.step engine) (fun p a => WritesApproved engine (p.step engine a))
        (newPending job clock) as ↔
      Along (PendingState.step engine) (fun p a => ApprovedAwaited (p.step engine a))
        (newPending job clock) as :=
  along_congr (pendingSound_new engine job clock) (fun _ a h _ => h.step a)
    fun _ a h => writesApproved_iff (h.step a)

/-! ### A watermark past a pending record -/

/-- A client is changed, a run leaves it to a partner a moment later, and the partner approves. -/
def approvedTooLate : List SyncAction :=
  [.change (client "remote"), .tick 1, .start, .read 0, .process 0 clientPorts,
    .decide 0 "partner-1" .approve none]

/-- No later run writes the client. -/
theorem approved_and_forgotten :
    ¬ Along (PendingState.step askPartner) (fun p a => WritesApproved askPartner (p.step askPartner a))
      (newPending clientJob 0) approvedTooLate := by
  rintro ⟨-, -, -, -, -, hwrites, -⟩
  have hsound : PendingSound askPartner
      (run (PendingState.step askPartner) (newPending clientJob 0) approvedTooLate) :=
    run_inv _ (pendingSound_new ..) fun _ a h => h.step a
  have hawaited := (writesApproved_iff hsound).mp hwrites
    { serial := 0, stamp := 0, record := client "remote" }
    { connectorId := "c1"
      firmId := "f1"
      entityType := "client"
      externalId := "e1"
      localRecord := client "local"
      remoteRecord := client "remote" }
    ⟨by decide +kernel, by decide +kernel, by decide +kernel⟩
  revert hawaited
  decide +kernel

end Tmis.IntegrationHub
