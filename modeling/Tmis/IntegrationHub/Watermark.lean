import Tmis.IntegrationHub.Synchronization

/-!
# No update is lost

A version at the source is covered if a run that started after it was made has read it or is about to,
or else the next run will.  Coverage is lost where `last_synced_at` moves past a version, or where the
run that was about to read it fails.

* `UpToDate`, `catchUp`, `NothingSkipped` — one more run reads what no run has read;
* `KeepsUp` — the condition on the steps;
* `covered_step_iff` — what a step keeps covered;
* `skipped_for_good` — no later run makes up for a version that is not covered;
* `no_update_lost_iff` — over every interleaving.
-/

namespace Tmis.IntegrationHub

open Tmis.Lib

variable {engine : SynchronizationEngine} {s : SyncState} {a : SyncAction} {as : List SyncAction}
  {v : Version} {i j : ℕ} {r r' : PullRun}

/-! ### What is to be read -/

/-- Every latest version was read by a run that started after it was made. -/
def UpToDate (s : SyncState) : Prop :=
  ∀ v ∈ s.source.values, ∃ r ∈ s.runs, v.serial < r.startedAfter ∧ v ∈ r.versions

instance (s : SyncState) : Decidable (UpToDate s) := by unfold UpToDate; infer_instance

/-- One more run starts, and all runs that await the connector are answered. -/
def SynchronizationEngine.catchUp (engine : SynchronizationEngine) (s : SyncState) : SyncState :=
  run engine.step s (.start :: (List.range (s.runs.length + 1)).map .read)

/-- Left alone, the source is read in full by the runs under way and one more. -/
def SynchronizationEngine.NothingSkipped (engine : SynchronizationEngine) (s : SyncState) : Prop :=
  UpToDate (engine.catchUp s)

instance (s : SyncState) : Decidable (engine.NothingSkipped s) := by
  unfold SynchronizationEngine.NothingSkipped
  infer_instance

/-- The run started after the version was made, and has read it or will if it is answered now. -/
def PullRun.Reads (r : PullRun) (v : Version) : Prop :=
  v.serial < r.startedAfter ∧
    (v ∈ r.versions ∨ (r.phase = .reading ∧ changedSince r.since v.stamp = true))

/-- Some run reads the version. -/
def Seen (s : SyncState) (v : Version) : Prop := ∃ r ∈ s.runs, r.Reads v

/-- Some run other than the one at the index `i` reads the version. -/
def SeenByOther (s : SyncState) (i : ℕ) (v : Version) : Prop :=
  ∃ j r, j ≠ i ∧ s.runs[j]? = some r ∧ r.Reads v

/-- Some run reads the version, or the next one will. -/
def Covered (s : SyncState) (v : Version) : Prop :=
  changedSince s.job.since v.stamp = true ∨ Seen s v

/-- What the step must leave of the coverage of a version. -/
def SynchronizationEngine.Keeps (engine : SynchronizationEngine) (s : SyncState) (v : Version) :
    SyncAction → Prop
  | .process i ports => ∀ r, s.runs[i]? = some r → r.phase = .processing →
      (∃ counts, (engine.pullRecords s.job ports (r.versions.map (·.record)) {} s.validation).1 =
        .ok counts) →
      s.job.mode = .incremental → v.stamp < s.clock → Seen s v
  | .readRaises i _ => ∀ r, s.runs[i]? = some r → r.phase = .reading → r.Reads v →
      changedSince s.job.since v.stamp = true ∨ SeenByOther s i v
  | _ => True

/-- The condition on a step.  Where a run moves `last_synced_at` to the clock, every latest version
that is older than the clock is read by a run that started after it was made; where a run fails that
was about to read such a version, another run reads it, or the next one will. -/
def SynchronizationEngine.KeepsUp (engine : SynchronizationEngine) (s : SyncState) (a : SyncAction) :
    Prop :=
  ∀ v ∈ s.source.values, engine.Keeps s v a

/-! ### Runs in a list -/

lemma seen_iff_of_get (h : s.runs[i]? = some r) : Seen s v ↔ r.Reads v ∨ SeenByOther s i v := by
  constructor
  · rintro ⟨r₁, hmem, hreads⟩
    obtain ⟨j, hj⟩ := List.mem_iff_getElem?.mp hmem
    by_cases hji : j = i
    · subst hji
      rw [h] at hj
      cases hj
      exact Or.inl hreads
    · exact Or.inr ⟨j, r₁, hji, hj, hreads⟩
  · rintro (hreads | ⟨j, r₁, -, hj, hreads⟩)
    · exact ⟨r, List.mem_of_getElem? h, hreads⟩
    · exact ⟨r₁, List.mem_of_getElem? hj, hreads⟩

/-- A run is replaced in the list of runs. -/
lemma seen_set_iff {s' : SyncState} (h : s.runs[i]? = some r) (hs' : s'.runs = s.runs.set i r') :
    Seen s' v ↔ r'.Reads v ∨ SeenByOther s i v := by
  have hlt : i < s.runs.length := (List.getElem?_eq_some_iff.mp h).1
  have hget : s'.runs[i]? = some r' := by rw [hs', List.getElem?_set_self hlt]
  rw [seen_iff_of_get hget]
  refine or_congr_right (exists_congr fun j => exists_congr fun r₁ => and_congr_right fun hji => ?_)
  rw [hs', List.getElem?_set_ne (Ne.symm hji)]

/-- A run that reads as much as before takes the place of the old one. -/
lemma seen_set_congr {s' : SyncState} (h : s.runs[i]? = some r) (hs' : s'.runs = s.runs.set i r')
    (hreads : r'.Reads v ↔ r.Reads v) : Seen s' v ↔ Seen s v := by
  rw [seen_set_iff h hs', seen_iff_of_get h, hreads]

/-! ### States that are reached -/

structure WellFormed (s : SyncState) : Prop where
  serial : ∀ v ∈ s.source.values, v.serial < s.changes
  synced : ∀ t, s.job.lastSyncedAt = some t → t ≤ s.clock
  reading : ∀ r ∈ s.runs, r.phase = .reading → r.versions = []

lemma WellFormed.set (h : WellFormed s) (hr : r'.phase ≠ .reading) :
    ∀ r ∈ s.runs.set i r', r.phase = .reading → r.versions = [] := fun r hmem hphase => by
  rcases List.mem_or_eq_of_mem_set hmem with hmem | rfl
  · exact h.reading r hmem hphase
  · exact absurd hphase hr

lemma WellFormed.step (h : WellFormed s) (engine : SynchronizationEngine) (a : SyncAction) :
    WellFormed (engine.step s a) := by
  have heffect := syncEffect_step engine s a
  generalize engine.step s a = s' at heffect ⊢
  cases heffect with
  | idle => exact h
  | tick duration => exact ⟨h.serial, fun t ht => (h.synced t ht).trans (Nat.le_add_right ..), h.reading⟩
  | change record =>
    refine ⟨fun v hv => ?_, h.synced, h.reading⟩
    rcases Dict.mem_values_set hv with rfl | hv
    · exact Nat.lt_succ_self _
    · exact (h.serial v hv).trans (Nat.lt_succ_self _)
  | start =>
    refine ⟨h.serial, h.synced, fun r hr hphase => ?_⟩
    rcases List.mem_append.mp hr with hr | hr
    · exact h.reading r hr hphase
    · rw [List.mem_singleton.mp hr]
  | read i r => exact ⟨h.serial, h.synced, h.set nofun⟩
  | readRaises i r e => exact ⟨h.serial, h.synced, h.set nofun⟩
  | processRaises i r ports e => exact ⟨h.serial, h.synced, h.set nofun⟩
  | processReturns i r ports counts =>
    exact ⟨h.serial, fun t ht => (Option.some.inj ht).ge, h.set nofun⟩
  | decide => exact ⟨h.serial, h.synced, h.reading⟩

/-! ### What a step keeps covered -/

lemma reads_read (h : WellFormed s) (hr : r ∈ s.runs) (hphase : r.phase = .reading)
    (hv : v ∈ s.source.values) :
    PullRun.Reads { r with phase := .processing, versions := s.changedRecords r.since } v ↔
      r.Reads v := by
  simp [PullRun.Reads, SyncState.changedRecords, h.reading r hr hphase, hphase, hv]

lemma seen_read (h : WellFormed s) (hv : v ∈ s.source.values) :
    Seen (engine.step s (.read i)) v ↔ Seen s v := by
  simp only [SynchronizationEngine.step]
  split
  · rename_i r hget
    split
    · exact seen_set_congr hget rfl (reads_read h (List.mem_of_getElem? hget) ‹_› hv)
    · rfl
  · rfl

lemma seen_start : Seen (engine.step s .start) v ↔
    Seen s v ∨ (v.serial < s.changes ∧ changedSince s.job.since v.stamp = true) := by
  simp [Seen, SynchronizationEngine.step, or_and_right, exists_or, PullRun.Reads]

lemma changedSince_clock (h : WellFormed s) (hclock : s.clock ≤ v.stamp) :
    changedSince s.job.since v.stamp = true := by
  unfold SyncJobConfig.since
  cases s.job.mode with
  | full => rfl
  | incremental =>
    cases hsynced : s.job.lastSyncedAt with
    | none => rfl
    | some t => exact decide_eq_true ((h.synced t hsynced).trans hclock)

/-- A version covers by the clock. -/
lemma changedSince_some : changedSince (SyncJobConfig.since { s.job with lastSyncedAt := some s.clock })
    v.stamp = true ↔ (s.job.mode = .incremental → s.clock ≤ v.stamp) := by
  unfold SyncJobConfig.since
  cases s.job.mode <;> simp [changedSince]

lemma covered_readRaises {e : Raised} (h : WellFormed s) :
    Covered (engine.step s (.readRaises i e)) v ↔ Covered s v ∧ engine.Keeps s v (.readRaises i e) := by
  simp only [SynchronizationEngine.step, SynchronizationEngine.Keeps]
  cases hget : s.runs[i]? with
  | none => simp
  | some r =>
    by_cases hphase : r.phase = .reading
    · have hraised : ¬ PullRun.Reads { r with phase := .raised e } v := by
        simp [PullRun.Reads, h.reading r (List.mem_of_getElem? hget) hphase]
      simp only [hphase, if_true]
      rw [Covered, seen_set_iff hget rfl, Covered, seen_iff_of_get hget]
      simp only [hraised, false_or, Option.some.injEq, forall_eq', hphase, true_implies]
      tauto
    · simp [hphase]

lemma covered_process {ports : PullPorts} (h : WellFormed s) :
    Covered (engine.step s (.process i ports)) v ↔
      Covered s v ∧ engine.Keeps s v (.process i ports) := by
  simp only [SynchronizationEngine.step, SynchronizationEngine.Keeps]
  cases hget : s.runs[i]? with
  | none => simp
  | some r =>
    by_cases hphase : r.phase = .processing
    · simp only [hphase, if_true, SynchronizationEngine.process, Option.some.injEq, forall_eq',
        true_implies]
      cases hres : engine.pullRecords s.job ports (r.versions.map (·.record)) {} s.validation with
      | mk result validation =>
        cases result with
        | error e =>
          rw [Covered, seen_set_congr hget rfl (by simp [PullRun.Reads, hphase])]
          simp [Covered]
        | ok counts =>
          rw [Covered, seen_set_congr hget rfl (by simp [PullRun.Reads, hphase]), changedSince_some]
          simp only [Except.ok.injEq, exists_eq', true_implies]
          by_cases hclock : s.clock ≤ v.stamp
          · simp [Covered, hclock, changedSince_clock h hclock]
          · -- the watermark moves past the version
            simp only [hclock, imp_false, not_le.mp hclock, true_implies, Covered]
            cases hmode : s.job.mode with
            | full => simp [SyncJobConfig.since, hmode, changedSince]
            | incremental => simpa using Or.inr
    · simp [hphase]

/-- **What a step keeps covered**: what was covered, where the step meets its condition. -/
theorem covered_step_iff (h : WellFormed s) (hv : v ∈ s.source.values) :
    Covered (engine.step s a) v ↔ Covered s v ∧ engine.Keeps s v a := by
  cases a with
  | tick duration => exact (and_iff_left trivial).symm
  | change record => exact (and_iff_left trivial).symm
  | start =>
    rw [Covered, seen_start]
    simp only [SynchronizationEngine.Keeps, and_true, Covered, SynchronizationEngine.step]
    tauto
  | read i =>
    rw [Covered, seen_read h hv]
    simp only [SynchronizationEngine.Keeps, and_true, Covered, SynchronizationEngine.step]
    split
    · split <;> rfl
    · rfl
  | readRaises i e => exact covered_readRaises h
  | process i ports => exact covered_process h
  | decide requestId approverId decision comment =>
    simp only [SynchronizationEngine.Keeps, and_true, SynchronizationEngine.step]
    split <;> rfl

/-- Only a change at the source changes it. -/
lemma source_step_eq (ha : ∀ record, a ≠ .change record) : (engine.step s a).source = s.source := by
  have heffect := syncEffect_step engine s a
  generalize engine.step s a = s' at heffect ⊢
  cases heffect with
  | change record => exact absurd rfl (ha record)
  | _ => rfl

/-- Every version at the source is covered. -/
def AllCovered (s : SyncState) : Prop := ∀ v ∈ s.source.values, Covered s v

/-- **One step** leaves everything covered iff it meets the condition. -/
theorem allCovered_step_iff (h : WellFormed s) (hall : AllCovered s) :
    AllCovered (engine.step s a) ↔ engine.KeepsUp s a := by
  by_cases ha : ∃ record, a = .change record
  · obtain ⟨record, rfl⟩ := ha
    refine iff_of_true (fun v hv => ?_) fun v _ => trivial
    rcases Dict.mem_values_set hv with rfl | hv
    · exact Or.inl (changedSince_clock (h.step engine (.change record)) le_rfl)
    · exact (covered_step_iff h hv).mpr ⟨hall v hv, trivial⟩
  · rw [AllCovered, source_step_eq fun record heq => ha ⟨record, heq⟩]
    refine forall_congr' fun v => forall_congr' fun hv => ?_
    rw [covered_step_iff h hv, and_iff_right (hall v hv)]

/-! ### One more run -/

variable (engine) in
/-- After an answer, the runs that still wait are the other ones that waited before. -/
lemma reading_of_read (h : (engine.step s (.read i)).runs[j]? = some r) (hphase : r.phase = .reading) :
    j ≠ i ∧ s.runs[j]? = some r := by
  simp only [SynchronizationEngine.step] at h
  cases hget : s.runs[i]? with
  | none =>
    rw [hget] at h
    refine ⟨fun hji => ?_, h⟩
    rw [hji, hget] at h
    cases h
  | some r₀ =>
    simp only [hget] at h
    have hlt : i < s.runs.length := (List.getElem?_eq_some_iff.mp hget).1
    split at h
    · by_cases hji : j = i
      · rw [hji, List.getElem?_set_self hlt] at h
        cases h
        cases hphase
      · exact ⟨hji, by rwa [List.getElem?_set_ne (Ne.symm hji)] at h⟩
    · rename_i hne
      refine ⟨fun hji => hne ?_, h⟩
      rw [hji, hget] at h
      cases h
      exact hphase

lemma length_read : (engine.step s (.read i)).runs.length = s.runs.length := by
  have heffect := syncEffect_step engine s (.read i)
  generalize engine.step s (.read i) = s' at heffect ⊢
  cases heffect with
  | idle => rfl
  | read => exact List.length_set

/-- The runs with a number below `n` have been answered. -/
lemma reads_answered (n : ℕ) (h : (run engine.step s ((List.range n).map .read)).runs[j]? = some r)
    (hj : j < n) : r.phase ≠ .reading := by
  intro hphase
  induction n with
  | zero => exact absurd hj (Nat.not_lt_zero j)
  | succ n ih =>
    rw [List.range_succ, List.map_append, run_append] at h
    obtain ⟨hne, h⟩ := reading_of_read engine h hphase
    exact ih h (by omega)

variable (engine) in
/-- Answers change neither the source nor what is seen of it. -/
lemma reads_spec (h : WellFormed s) (is : List ℕ) :
    (run engine.step s (is.map .read)).source = s.source ∧
      (run engine.step s (is.map .read)).runs.length = s.runs.length ∧
      ∀ v ∈ s.source.values, (Seen (run engine.step s (is.map .read)) v ↔ Seen s v) := by
  induction is generalizing s with
  | nil => exact ⟨rfl, rfl, fun _ _ => Iff.rfl⟩
  | cons i is ih =>
    obtain ⟨hsource, hlength, hseen⟩ := ih (h.step engine (.read i))
    have hsame : (engine.step s (.read i)).source = s.source := source_step_eq nofun
    refine ⟨hsource.trans hsame, hlength.trans length_read, fun v hv => ?_⟩
    exact (hseen v (by rwa [hsame])).trans (seen_read h hv)

/-- **What one more run reads** is what is covered. -/
theorem nothingSkipped_iff (h : WellFormed s) : engine.NothingSkipped s ↔ AllCovered s := by
  have hlength : (engine.step s .start).runs.length = s.runs.length + 1 := List.length_append
  obtain ⟨hsource, hlength', hseen⟩ :=
    reads_spec engine (h.step engine .start) (List.range (s.runs.length + 1))
  rw [SynchronizationEngine.NothingSkipped, SynchronizationEngine.catchUp, run_cons, UpToDate, hsource]
  refine forall_congr' fun v => forall_congr' fun hv => ?_
  calc _ ↔ Seen (run engine.step (engine.step s .start) _) v := by
        refine exists_congr fun r => and_congr_right fun hr => ?_
        obtain ⟨j, hj⟩ := List.mem_iff_getElem?.mp hr
        have hanswered := reads_answered _ hj
          (hlength ▸ hlength' ▸ (List.getElem?_eq_some_iff.mp hj).1)
        simp [PullRun.Reads, hanswered]
    _ ↔ Seen (engine.step s .start) v := hseen v hv
    _ ↔ Seen s v ∨ (v.serial < s.changes ∧ changedSince s.job.since v.stamp = true) := seen_start
    _ ↔ Covered s v := by rw [and_iff_right (h.serial v hv), or_comm, Covered]

/-- **A version that is skipped** is read by no run that started after it was made, for as long as it is
the latest one. -/
theorem skipped_for_good (h : WellFormed s) (hskip : ¬ Covered s v)
    (hlatest : Along engine.step (fun s _ => v ∈ s.source.values) s as) :
    ¬ ∃ r ∈ (run engine.step s as).runs, v.serial < r.startedAfter ∧ v ∈ r.versions := by
  have hend := hlatest.inv (I := fun s => WellFormed s ∧ ¬ Covered s v) ⟨h, hskip⟩
    fun s a hinv hv => ⟨hinv.1.step engine a, fun hc => hinv.2 ((covered_step_iff hinv.1 hv).mp hc).1⟩
  rintro ⟨r, hr, hserial, hread⟩
  exact hend.2 (Or.inr ⟨r, hr, hserial, Or.inl hread⟩)

/-! ### Interleavings -/

/-- A job that has never run, and a source that is still empty. -/
def newJob (job : SyncJobConfig) (clock : ℕ) : SyncState :=
  { clock, job := { job with lastSyncedAt := none } }

lemma wellFormed_newJob (job : SyncJobConfig) (clock : ℕ) : WellFormed (newJob job clock) where
  serial _ hv := absurd hv List.not_mem_nil
  synced _ ht := by cases ht
  reading _ hr := absurd hr List.not_mem_nil

/-- **No update is lost.**  In every interleaving, at every point, the runs under way and one more read
every latest version by a run that started after it was made, iff every step meets its condition. -/
theorem no_update_lost_iff (engine : SynchronizationEngine) (job : SyncJobConfig) (clock : ℕ)
    (as : List SyncAction) :
    Along engine.step (fun s a => engine.NothingSkipped (engine.step s a)) (newJob job clock) as ↔
      Along engine.step engine.KeepsUp (newJob job clock) as := by
  refine along_congr (I := fun s => WellFormed s ∧ AllCovered s)
    ⟨wellFormed_newJob job clock, fun v hv => absurd hv List.not_mem_nil⟩ ?_ ?_
  · exact fun s a hinv hkeeps => ⟨hinv.1.step engine a, (allCovered_step_iff hinv.1 hinv.2).mpr hkeeps⟩
  · exact fun s a hinv => (nothingSkipped_iff (hinv.1.step engine a)).trans (allCovered_step_iff hinv.1 hinv.2)

/-! ### A change while a run is under way -/

def clientSync : SyncJobConfig :=
  { id := "job-1", connectorId := "c1", firmId := "f1", entityType := "client" }

/-- The connector answers, a client is changed, and the run goes on to set its watermark past it. -/
def changeDuringRun : List SyncAction :=
  [.start, .read 0, .tick 1, .change { externalId := "e1" }, .tick 1, .process 0 {}]

/-- The change is read by no later run. -/
theorem change_during_run_skipped :
    ¬ Along (SynchronizationEngine.mk .default).step
      (fun s a => (SynchronizationEngine.mk .default).NothingSkipped
        ((SynchronizationEngine.mk .default).step s a)) (newJob clientSync 0) changeDuringRun := by
  decide +kernel

end Tmis.IntegrationHub
