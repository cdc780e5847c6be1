import Mathlib.Data.List.Chain
import Mathlib.Dynamics.PeriodicPts.Defs
import Tmis.Lib.Acyclic
import Tmis.PlatformSdk.WorkflowExecutor

/-!
# Walks that are cut off

The bound on the iterations of a run ends the walks that go round in a cycle.  A run should report a
success only of a walk that came to its end by itself; the loop does not tell the two apart.

* `Edge` — the edges between the steps of a workflow;
* `successStep`, `SuccessCycle`, `AllSucceed` — the way along the success edges, and the attempts on it;
* `EndReached` — the property of a run;
* `ends_of_acyclic` — without a cycle the walk comes to its end before the bound;
* `endReached_iff` — the runs that have the property.
-/

namespace Tmis.PlatformSdk

open Tmis.Lib Relation

variable {W : Type}

namespace WorkflowDefinition

variable (workflow : WorkflowDefinition)

/-- An edge leads from one step to the other. -/
def Edge (a b : WorkflowStep) : Prop :=
  workflow.target a.onSuccess = some b ∨ workflow.target a.onFailure = some b

/-- The step that is next where a step succeeds. -/
def afterSuccess (step : Option WorkflowStep) : Option WorkflowStep :=
  step.bind fun step => workflow.target step.onSuccess

/-- The step that is `n` success edges behind the first one. -/
def successStep (n : ℕ) : Option WorkflowStep := workflow.afterSuccess^[n] workflow.steps.head?

/-- The success edges lead from the first step into a cycle: the way along them has no end. -/
def SuccessCycle : Prop := ∀ n, workflow.successStep n ≠ none

/-- The first `n` attempts along the success edges succeed. -/
def AllSucceed (actions : WorkflowActionRegistry W) :
    ℕ → Option WorkflowStep → W → RunContext → Prop
  | n + 1, some step, world, context => ∃ world' context',
      attempt actions step world context = .ok (world', context', true) ∧
        AllSucceed actions n (workflow.target step.onSuccess) world' context'
  | _, _, _, _ => True

variable {workflow}

/-- An edge leads to a step of the workflow. -/
lemma mem_of_target {nextId : Option String} {step : WorkflowStep}
    (h : workflow.target nextId = some step) : step ∈ workflow.steps := by
  unfold target at h
  split at h
  · cases h
  · split at h
    · cases h
    · obtain ⟨found, hmem, heq⟩ := List.mem_map.mp (Dict.mem_of_get_ofEntries h)
      cases heq
      exact hmem

lemma mem_of_successStep {n : ℕ} {step : WorkflowStep} (h : workflow.successStep n = some step) :
    step ∈ workflow.steps := by
  cases n with
  | zero => exact List.mem_of_mem_head? (Option.mem_def.mpr h)
  | succ n =>
    rw [successStep, Function.iterate_succ_apply'] at h
    obtain ⟨before, -, htarget⟩ := Option.bind_eq_some_iff.mp h
    exact mem_of_target htarget

/-- Where the way along the success edges has ended, it goes no further. -/
lemma successStep_none {m n : ℕ} (h : workflow.successStep m = none) (hle : m ≤ n) :
    workflow.successStep n = none := by
  obtain ⟨k, rfl⟩ := Nat.exists_eq_add_of_le' hle
  rw [successStep, Function.iterate_add_apply]
  change workflow.afterSuccess^[k] (workflow.successStep m) = none
  rw [h]
  exact Function.iterate_fixed rfl k

/-- Of more steps than there are, two are the same one. -/
lemma successStep_repeats {n : ℕ} (hn : workflow.steps.length ≤ n) (h : workflow.successStep n ≠ none) :
    ∃ i j, i < j ∧ i ≤ n ∧ workflow.successStep i = workflow.successStep j := by
  classical
  have hcard : ((workflow.steps.map some).toFinset).card < (Finset.range (n + 1)).card := by
    have := List.toFinset_card_le (workflow.steps.map some)
    rw [List.length_map] at this
    rw [Finset.card_range]
    omega
  have hmaps : ∀ k ∈ Finset.range (n + 1), workflow.successStep k ∈ (workflow.steps.map some).toFinset := by
    intro k hk
    have hle : k ≤ n := Nat.lt_succ_iff.mp (Finset.mem_range.mp hk)
    obtain ⟨step, hstep⟩ := Option.ne_none_iff_exists'.mp fun hnone => h (successStep_none hnone hle)
    rw [hstep]
    simpa using mem_of_successStep hstep
  obtain ⟨i, hi, j, hj, hne, heq⟩ := Finset.exists_ne_map_eq_of_card_lt_of_maps_to hcard hmaps
  rw [Finset.mem_range] at hi hj
  rcases Nat.lt_or_gt_of_ne hne with hlt | hlt
  · exact ⟨i, j, hlt, by omega, heq⟩
  · exact ⟨j, i, hlt, by omega, heq.symm⟩

/-- **A way with more steps than there are goes round in a cycle.** -/
theorem successCycle_of_long {n : ℕ} (hn : workflow.steps.length ≤ n)
    (h : workflow.successStep n ≠ none) : workflow.SuccessCycle := by
  obtain ⟨i, j, hlt, hi, heq⟩ := successStep_repeats hn h
  have hperiod : Function.IsPeriodicPt workflow.afterSuccess (j - i) (workflow.successStep i) := by
    show workflow.afterSuccess^[j - i] (workflow.successStep i) = workflow.successStep i
    rw [successStep, ← Function.iterate_add_apply, Nat.sub_add_cancel hlt.le]
    exact heq.symm
  intro m hm
  have hround : workflow.successStep (m * (j - i) + i) = workflow.successStep i := by
    rw [successStep, Function.iterate_add_apply]
    exact hperiod.const_mul m
  have hle : m ≤ m * (j - i) + i := by
    have := Nat.le_mul_of_pos_right m (Nat.sub_pos_of_lt hlt)
    omega
  have hnone : workflow.successStep i = none := hround.symm.trans (successStep_none hm hle)
  exact h (successStep_none hnone hi)

end WorkflowDefinition

namespace WorkflowExecutor

open WorkflowDefinition

variable (workflow : WorkflowDefinition) (actions : WorkflowActionRegistry W) (world : W)
  (initialContext : RunContext)

/-- **Success means the end was reached**: a run visits no more steps than its bound allows, it reports a
success only of a walk that the loop without a bound ends with too, and without a cycle among the edges it
visits the steps that the loop without a bound visits. -/
structure EndReached : Prop where
  bounded : ∀ result, run workflow actions world initialContext = .ok result →
    result.executedStepIds.length ≤ maxIterations workflow
  ended : ∀ result, run workflow actions world initialContext = .ok result → result.success = true →
    ∃ final, walk workflow actions world initialContext = .ok final ∧
      result.executedStepIds = final.executed ∧
      Ends (iteration workflow actions) (start workflow world initialContext) (.ok final)
  unbounded : Acyclic workflow.Edge →
    ∃ r, Ends (iteration workflow actions) (start workflow world initialContext) r ∧
      (run workflow actions world initialContext).map (·.executedStepIds) = r.map (·.executed)

variable {workflow actions world initialContext}

lemma iteration_eq_none {s : Walk W} : iteration workflow actions s = none ↔ s.current = none := by
  simp [iteration]

lemma executed_length {s s' : Walk W} (h : iteration workflow actions s = some (.ok s')) :
    s'.executed.length = s.executed.length + 1 := by
  obtain ⟨step, -, hvisit⟩ := iteration_eq_some.mp h
  obtain ⟨_, _, _, -, rfl⟩ := visit_eq_ok.mp hvisit
  simp

/-! ### Without a cycle -/

/-- The steps visited so far, and the one that is next, are a way along the edges. -/
def OnPath (workflow : WorkflowDefinition) (s : Walk W) : Prop :=
  ∃ path : List WorkflowStep, s.executed = path.map (·.id) ∧
    (path ++ s.current.toList).IsChain workflow.Edge ∧ ∀ step ∈ path ++ s.current.toList, step ∈ workflow.steps

lemma onPath_start : OnPath workflow (start workflow world initialContext) := by
  refine ⟨[], rfl, ?_, ?_⟩
  · cases h : workflow.steps.head? <;> simp [start, h]
  · intro step hstep
    exact List.mem_of_mem_head? (by simpa [start] using hstep)

lemma OnPath.step {s s' : Walk W} (h : OnPath workflow s)
    (hstep : iteration workflow actions s = some (.ok s')) : OnPath workflow s' := by
  obtain ⟨path, hids, hchain, hmem⟩ := h
  obtain ⟨step, hcurrent, hvisit⟩ := iteration_eq_some.mp hstep
  obtain ⟨_, _, succeeded, -, rfl⟩ := visit_eq_ok.mp hvisit
  rw [hcurrent, Option.toList_some] at hchain hmem
  have hedge : ∀ next, workflow.target (step.branch succeeded) = some next → workflow.Edge step next := by
    intro next hnext
    cases succeeded with
    | true => exact Or.inl hnext
    | false => exact Or.inr hnext
  refine ⟨path ++ [step], by simp [hids], ?_, ?_⟩
  · refine List.isChain_append.mpr ⟨hchain, ?_, ?_⟩
    · cases workflow.target (step.branch succeeded) <;> simp
    · intro a ha b hb
      obtain rfl : step = a := by simpa using ha
      exact hedge b (by simpa using hb)
  · intro other hother
    rcases List.mem_append.mp hother with hother | hother
    · exact hmem other hother
    · exact mem_of_target (by simpa using hother)

/-- A way along the edges comes to no step twice. -/
lemma length_le_of_acyclic (hacyclic : Acyclic workflow.Edge) {path : List WorkflowStep}
    (hchain : path.IsChain workflow.Edge) (hmem : ∀ step ∈ path, step ∈ workflow.steps) :
    path.length ≤ workflow.steps.length := by
  have hway : path.Pairwise (TransGen workflow.Edge) :=
    List.isChain_iff_pairwise.mp (hchain.imp fun _ _ h => TransGen.single h)
  have hnodup : path.Nodup := by
    refine hway.imp ?_
    rintro a b hab rfl
    exact hacyclic a hab
  exact (List.subperm_of_subset hnodup hmem).length_le

/-- **Without a cycle** the walk of a run is the one without a bound. -/
theorem ends_of_acyclic (hacyclic : Acyclic workflow.Edge) :
    Ends (iteration workflow actions) (start workflow world initialContext)
      (walk workflow actions world initialContext) := by
  cases hwalk : walk workflow actions world initialContext with
  | error e => exact ends_of_raised hwalk
  | ok final =>
    refine ends_of_stopped hwalk (iteration_eq_none.mpr ?_)
    by_contra hcurrent
    obtain ⟨step, hstep⟩ := Option.ne_none_iff_exists'.mp hcurrent
    obtain ⟨path, hids, hchain, hmem⟩ :=
      whileN_inv (I := OnPath workflow) (fun _ _ h hstep => h.step hstep) onPath_start hwalk
    have hcount := (whileN_count (fun s : Walk W => s.executed.length)
      (fun _ _ h => executed_length h) hwalk).2 (fun h => hcurrent (iteration_eq_none.mp h))
    have hlength := length_le_of_acyclic hacyclic hchain hmem
    simp only [hids, List.length_map, start, maxIterations, List.length_nil] at hcount
    rw [hstep, List.length_append, Option.toList_some, List.length_singleton] at hlength
    omega

/-! ### Where a walk is cut off -/

/-- A walk without a failure is cut off iff the way along the success edges is as long as the bound, and
every attempt on it succeeds. -/
lemma cut_off_iff (workflow : WorkflowDefinition) (actions : WorkflowActionRegistry W) (n : ℕ) {s : Walk W}
    (hs : s.overallSuccess = true) :
    (∃ t, whileN (iteration workflow actions) n s = .ok t ∧ t.current ≠ none ∧ t.overallSuccess = true) ↔
      workflow.afterSuccess^[n] s.current ≠ none ∧
        AllSucceed workflow actions n s.current s.world s.runContext := by
  induction n generalizing s with
  | zero =>
    simp [whileN, AllSucceed, hs]
  | succ n ih =>
    cases hcurrent : s.current with
    | none =>
      rw [whileN_stop (iteration_eq_none.mpr hcurrent)]
      have hend : workflow.afterSuccess^[n + 1] none = none := Function.iterate_fixed rfl _
      simp [hcurrent, hend]
    | some step =>
      cases hattempt : attempt actions step s.world s.runContext with
      | error e =>
        rw [whileN_raise (iteration_eq_some.mpr ⟨step, hcurrent, visit_eq_error.mpr hattempt⟩)]
        simp [AllSucceed, hattempt]
      | ok r =>
        obtain ⟨world', context', succeeded⟩ := r
        have hvisit : visit workflow actions s step = .ok _ := visit_eq_ok.mpr ⟨_, _, _, hattempt, rfl⟩
        rw [whileN_next (iteration_eq_some.mpr ⟨step, hcurrent, hvisit⟩)]
        cases succeeded with
        | false =>
          constructor
          · rintro ⟨t, ht, -, hsuccess⟩
            have := overallSuccess_false ht (by simp)
            rw [this] at hsuccess
            cases hsuccess
          · rintro ⟨-, _, _, hok, -⟩
            rw [hattempt] at hok
            cases hok
        | true =>
          rw [ih (by simp [hs]), Function.iterate_succ_apply]
          simp only [AllSucceed, hattempt, Except.ok.injEq, Prod.mk.injEq, and_true]
          constructor
          · rintro ⟨hmore, hall⟩
            exact ⟨hmore, world', context', ⟨rfl, rfl⟩, hall⟩
          · rintro ⟨hmore, _, _, ⟨rfl, rfl⟩, hall⟩
            exact ⟨hmore, hall⟩

lemma walk_of_run {result : WorkflowRunResult} (h : run workflow actions world initialContext = .ok result) :
    ∃ final, walk workflow actions world initialContext = .ok final ∧
      result.executedStepIds = final.executed := by
  by_cases hsteps : workflow.steps = []
  · rw [run, if_pos hsteps] at h
    cases h
    exact ⟨start workflow world initialContext, by rw [walk, maxIterations, hsteps]; rfl, rfl⟩
  · obtain ⟨final, hwalk, rfl⟩ := (run_eq_ok hsteps).mp h
    exact ⟨final, hwalk, rfl⟩

lemma run_executed : (run workflow actions world initialContext).map (·.executedStepIds) =
    (walk workflow actions world initialContext).map (·.executed) := by
  cases hrun : run workflow actions world initialContext with
  | error e => rw [run_eq_error hrun]; rfl
  | ok result =>
    obtain ⟨final, hwalk, hids⟩ := walk_of_run hrun
    rw [hwalk]
    exact congrArg Except.ok hids

/-- **Success means the end was reached** iff the walk does not go round in a cycle of success edges with
every attempt succeeding, up to the bound. -/
theorem endReached_iff :
    EndReached workflow actions world initialContext ↔ ¬ (workflow.SuccessCycle ∧
      AllSucceed workflow actions (maxIterations workflow) workflow.steps.head? world initialContext) := by
  have hcut := cut_off_iff workflow actions (maxIterations workflow)
    (s := start workflow world initialContext) rfl
  constructor
  · rintro h ⟨hcycle, hall⟩
    obtain ⟨final, hwalk, hcurrent, hsuccess⟩ := hcut.mpr ⟨hcycle _, hall⟩
    have hsteps : workflow.steps ≠ [] := by
      intro hnil
      exact hcycle 0 (by simp [successStep, hnil])
    obtain ⟨t, ht, -, hends⟩ := h.ended _ ((run_eq_ok hsteps).mpr ⟨final, hwalk, rfl⟩) hsuccess
    obtain rfl : final = t := Except.ok.inj (hwalk.symm.trans ht)
    exact hcurrent (iteration_eq_none.mp hends.stopped)
  · intro h
    refine ⟨?_, ?_, fun hacyclic => ⟨_, ends_of_acyclic hacyclic, run_executed⟩⟩
    · intro result hrun
      obtain ⟨final, hwalk, hids⟩ := walk_of_run hrun
      have := (whileN_count (fun s : Walk W => s.executed.length)
        (fun _ _ h => executed_length h) hwalk).1
      simpa [hids, start] using this
    · intro result hrun hsuccess
      obtain ⟨final, hwalk, hids⟩ := walk_of_run hrun
      refine ⟨final, hwalk, hids, ends_of_stopped hwalk (iteration_eq_none.mpr ?_)⟩
      by_contra hcurrent
      have hsteps : workflow.steps ≠ [] := by
        intro hnil
        rw [walk, maxIterations, hnil] at hwalk
        cases hwalk
        exact hcurrent (by simp [start, hnil])
      obtain ⟨final', hwalk', rfl⟩ := (run_eq_ok hsteps).mp hrun
      obtain rfl : final = final' := Except.ok.inj (hwalk.symm.trans hwalk')
      obtain ⟨hend, hall⟩ := hcut.mp ⟨final, hwalk, hcurrent, hsuccess⟩
      exact h ⟨successCycle_of_long (by unfold maxIterations; omega) hend, hall⟩

/-- Two steps, each with the other one behind its success edge. -/
def twoStepCycle : WorkflowDefinition where
  steps := [{ id := "s1", action := "noop", onSuccess := some "s2" },
    { id := "s2", action := "noop", onSuccess := some "s1" }]

/-- An action that does nothing. -/
def noopActions : WorkflowActionRegistry Unit :=
  Dict.ofEntries [("noop", fun _ context => { world := (), runContext := context, returned := .ok ∅ })]

/-- The walk that is cut off after four steps is reported as a success. -/
theorem cycle_reported : ¬ EndReached twoStepCycle noopActions () ∅ := by
  intro h
  obtain ⟨final, hwalk, hcurrent⟩ : ∃ final, walk twoStepCycle noopActions () ∅ = .ok final ∧
      final.current ≠ none := ⟨_, rfl, by decide⟩
  obtain ⟨t, ht, -, hends⟩ := h.ended _ ((run_eq_ok (by decide)).mpr ⟨final, hwalk, rfl⟩) (by cases hwalk; rfl)
  obtain rfl : final = t := Except.ok.inj (hwalk.symm.trans ht)
  exact hcurrent (iteration_eq_none.mp hends.stopped)

end WorkflowExecutor

end Tmis.PlatformSdk
