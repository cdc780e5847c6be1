import Tmis.AiTeam.MissionRun
import Tmis.AiTeam.Planner

/-!
# The context of a mission

An agent is handed the outputs of the sub-tasks that are done, under the names of their types.  A run collects
them from its own agents; what an earlier run, or another one, has stored in the mission is not among them.

* `calls`, `dependencies`, `DependenciesReach` — the agent that a step calls, and whether it is handed what its
  sub-task depends on;
* `Watched`, `producedAfter` — the platform, and of each run the outputs that it has stored itself;
* `OwnDependencies` — a sub-task that is taken up depends on results of its run;
* `Collected`, `Collected.step` — the invariant: a context holds what its run has produced, and nothing else;
* `dependencies_reach_iff` — the stored results reach every agent iff they are its run's own.
-/

namespace Tmis.AiTeam

open Tmis.Lib

/-- `output.result.get("text", "")`. -/
def AgentOutput.text (output : AgentOutput) : String := (output.result.get "text").getD ""

/-- The key of a sub-task's output in the context. -/
def SubTask.resultKey (subTask : SubTask) : String := subTask.taskType.value ++ "_result"

lemma SubTask.resultKey_ne (subTask : SubTask) : subTask.resultKey ≠ "case_summary" :=
  (by decide : ∀ type ∈ [TaskType.documentAnalysis, .legalResearch, .jurisprudenceResearch, .riskAnalysis,
    .reasoning, .drafting, .verification, .qualityControl, .coordination, .critique],
    type.value ++ "_result" ≠ "case_summary") subTask.taskType (by cases subTask.taskType <;> decide)

lemma SubTask.taskType_of_resultKey {a b : SubTask} (h : a.resultKey = b.resultKey) :
    a.taskType = b.taskType := by
  have hlist := congrArg String.toList h
  rw [resultKey, resultKey, String.toList_append, String.toList_append] at hlist
  exact TaskType.value_injective (String.toList_injective (List.append_cancel_right hlist))

namespace Platform

open CoordinatorEngine

/-- The agent that the step calls. -/
def calls (p : Platform) : Op → Option Invocation
  | .iterate r now => do
      let run ← p.runs r
      if run.awaiting.isSome then none
      else
        let mission ← p.coordinator.missions.get run.missionId
        match p.coordinator.pass mission now with
        | .awaits _ item subTask =>
            some {
              missionId := mission.id
              subTask
              agentId := item.payload.agentId
              missionContext := run.missionContext
              results := mission.results }
        | _ => none
  | _ => none

/-- The sub-tasks that the agent's sub-task depends on. -/
def dependencies (p : Platform) (i : Invocation) : List SubTask :=
  match p.coordinator.missions.get i.missionId with
  | some mission => mission.plan.subTasks.filter fun subTask => subTask.id ∈ i.subTask.dependsOn
  | none => []

/-- The agents are handed the output of each dependency of their sub-task that has a stored result. -/
def DependenciesReach (p : Platform) (invocations : List Invocation) : Prop :=
  ∀ i ∈ invocations, ∀ dep ∈ p.dependencies i, ∀ output ∈ i.results.get dep.id,
    i.missionContext.get dep.resultKey = some output.text

instance (p : Platform) (invocations : List Invocation) : Decidable (p.DependenciesReach invocations) := by
  unfold DependenciesReach
  infer_instance

/-- The plan of a mission is one that the planner makes for the domain of its team. -/
def Planned (p : Platform) : Op → Prop
  | .launch _ _ teamId plan => ∀ team ∈ p.teams.get teamId, ∃ newSubtaskId caseType,
      plan.subTasks = Planner.decompose newSubtaskId team.domain caseType
  | _ => True

/-- What a run has produced, if the step takes it from `before` to `after`: an output is its own if its agent
has returned it, and the run goes on. -/
def producedAfter (op : Op) (before after : Option MissionRun) (outputs : Dict String AgentOutput) :
    Dict String AgentOutput :=
  match before, after, op with
  | none, _, _ => ∅
  | some run, some run', .agentReturns _ output _ =>
      match run.awaiting, run'.awaiting with
      | some (_, subTask), none => outputs.set subTask.id output
      | _, _ => outputs
  | _, _, _ => outputs

variable {p : Platform} {clock : Uuid → ℚ} {op : Op} {r : ℕ}

/-! ### What a step does to runs -/

/-- An agent that is called is called with what the run has collected, and the mission has stored. -/
lemma of_mem_calls {i : Invocation} {now : ℚ} (h : i ∈ p.calls (.iterate r now)) :
    ∃ run mission, p.runs r = some run ∧ p.coordinator.missions.get run.missionId = some mission ∧
      i.missionId = run.missionId ∧ i.missionContext = run.missionContext ∧ i.results = mission.results := by
  obtain ⟨run, hrun, h⟩ := Option.bind_eq_some_iff.mp h
  split at h
  · cases h
  · obtain ⟨mission, hmission, h⟩ := Option.bind_eq_some_iff.mp h
    have hid : mission.id = run.missionId := Store.key_of_get hmission
    split at h
    · obtain rfl := Option.some.inj h
      exact ⟨run, mission, hrun, hmission, hid, rfl, rfl⟩
    · cases h

/-- A step calls this agent, and no other. -/
lemma invocations_step (clock : Uuid → ℚ) (p : Platform) (op : Op) :
    (p.step clock op).invocations = p.invocations ++ (p.calls op).toList := by
  have hnone {invocations : List Invocation} : invocations = invocations ++ (none : Option Invocation).toList :=
    (List.append_nil _).symm
  cases op with
  | register | buildTeam | interrupt => exact hnone
  | launch =>
    unfold step
    dsimp only
    split <;> exact hnone
  | decide =>
    unfold step
    dsimp only
    split
    · exact hnone
    · split <;> exact hnone
  | begin =>
    unfold step
    dsimp only
    split <;> exact hnone
  | agentReturns =>
    unfold step
    dsimp only
    split
    · split
      · split <;> exact hnone
      · exact hnone
    · exact hnone
  | agentRaises =>
    unfold step
    dsimp only
    split
    · split
      · split <;> exact hnone
      · exact hnone
    · exact hnone
  | iterate r now =>
    unfold step calls
    dsimp only
    cases hrun : p.runs r with
    | none => exact hnone
    | some run =>
      dsimp only [Option.bind_eq_bind, Option.bind_some]
      cases hawait : run.awaiting with
      | some awaiting => exact hnone
      | none =>
        cases hmission : p.coordinator.missions.get run.missionId with
        | none => exact hnone
        | some mission =>
          dsimp only [Option.isSome_none, Option.bind_some]
          unfold iterate
          cases p.coordinator.pass mission now <;> first | rfl | exact hnone

/-- What a step makes of the run with the context: a new one, the same, or one with an output more. -/
inductive Carries (op : Op) : Option MissionRun → MissionRun → Prop
  | begins {run' : MissionRun} (summary : String)
      (hcontext : run'.missionContext = (∅ : Dict String String).set "case_summary" summary) : Carries op none run'
  | kept {run run' : MissionRun} (hid : run'.missionId = run.missionId)
      (hcontext : run'.missionContext = run.missionContext)
      (hproduced : ∀ outputs, producedAfter op (some run) (some run') outputs = outputs) :
      Carries op (some run) run'
  | produced {run run' : MissionRun} {itemId : Uuid} {subTask : SubTask} {output : AgentOutput}
      (hawait : run.awaiting = some (itemId, subTask)) (hid : run'.missionId = run.missionId)
      (hcontext : run'.missionContext = run.missionContext.set subTask.resultKey output.text)
      (hproduced : ∀ outputs, producedAfter op (some run) (some run') outputs = outputs.set subTask.id output) :
      Carries op (some run) run'

lemma producedAfter_self (op : Op) (run : MissionRun) (outputs : Dict String AgentOutput) :
    producedAfter op (some run) (some run) outputs = outputs := by
  cases op with
  | agentReturns =>
    unfold producedAfter
    dsimp only
    cases run.awaiting <;> rfl
  | _ => rfl

lemma Carries.refl (op : Op) (run : MissionRun) : Carries op (some run) run :=
  .kept rfl rfl (producedAfter_self op run)

/-- **What a step does to the context of a run.** -/
lemma carries_step {run' : MissionRun} (h : (p.step clock op).runs r = some run') :
    Carries op (p.runs r) run' := by
  have hidle (heq : p.runs r = some run') : Carries op (p.runs r) run' := by
    rw [heq]
    exact .refl op run'
  by_cases hrun : op.run = some r
  · cases op with
    | register | buildTeam | launch | decide => cases hrun
    | begin r' missionId teamId =>
      obtain rfl := Option.some.inj hrun
      unfold step at h
      dsimp only at h
      split at h
      · rename_i missionContext coordinator hnone hbegin
        rw [turn_runs_self] at h
        obtain rfl := Option.some.inj h
        rw [hnone]
        obtain ⟨mission, -, rfl, -⟩ := beginRun_eq_ok hbegin
        exact .begins _ rfl
      · exact hidle h
    | iterate r' now =>
      obtain rfl := Option.some.inj hrun
      unfold step at h
      dsimp only at h
      cases hr : p.runs r' with
      | none => simp [hr] at h
      | some run =>
        simp only [hr] at h
        split at h
        · unfold iterate at h
          split at h
          · rw [turn_runs_self] at h
            cases h
          · exact hr ▸ hidle h
          · rw [turn_runs_self] at h
            obtain rfl := Option.some.inj h
            exact .kept rfl rfl fun _ => rfl
          · rw [turn_runs_self] at h
            cases h
        · exact hr ▸ hidle h
    | agentReturns r' output now =>
      obtain rfl := Option.some.inj hrun
      unfold step at h
      dsimp only at h
      cases hr : p.runs r' with
      | none => simp [hr] at h
      | some run =>
        simp only [hr] at h
        split at h
        · rename_i itemId subTask mission team hawait hmission hteam
          split at h
          · rename_i missionContext coordinator hok
            rw [turn_runs_self] at h
            obtain rfl := Option.some.inj h
            obtain ⟨workQueue, -, rfl, -⟩ := agentReturned_eq_ok hok
            refine .produced hawait rfl rfl fun outputs => ?_
            simp only [producedAfter, hawait]
          · rw [turn_runs_self] at h
            cases h
        · exact hr ▸ hidle h
    | agentRaises r' error now =>
      obtain rfl := Option.some.inj hrun
      unfold step at h
      dsimp only at h
      cases hr : p.runs r' with
      | none => simp [hr] at h
      | some run =>
        simp only [hr] at h
        split at h
        · split at h
          · rw [turn_runs_self] at h
            obtain rfl := Option.some.inj h
            exact .kept rfl rfl fun _ => rfl
          · rw [turn_runs_self] at h
            cases h
        · exact hr ▸ hidle h
    | interrupt r' =>
      obtain rfl := Option.some.inj hrun
      rw [step, turn_runs_self] at h
      cases h
  · exact hidle ((runs_step hrun).symm.trans h)

/-! ### Plans -/

/-- Missions keep their plans, and those of new ones are launched. -/
lemma plans_step (clock : Uuid → ℚ) (horderly : Orderly p) {D : MissionPlan → Prop}
    (h : ∀ id mission, p.coordinator.missions.get id = some mission → D mission.plan)
    (hop : ∀ firmId requestDescription teamId plan, op = .launch firmId requestDescription teamId plan →
      ∀ team ∈ p.teams.get teamId, D plan) (id : Uuid) (mission : Mission)
    (hmission : (p.step clock op).coordinator.missions.get id = some mission) : D mission.plan := by
  have hsave (saved : Mission) {missions : Store Uuid Mission Mission.id} (heq : missions = p.coordinator.missions)
      (hplan : D saved.plan) (hget : (missions.save saved).get id = some mission) : D mission.plan := by
    rcases Store.of_get_save hget with rfl | hget
    · exact hplan
    · exact h id mission (heq ▸ hget)
  cases op with
  | register | buildTeam | interrupt => exact h id mission hmission
  | launch firmId requestDescription teamId plan =>
    unfold step at hmission
    dsimp only at hmission
    split at hmission
    · exact h id mission hmission
    · rename_i team hteam
      have hdel := delegated_enqueueReadySubtasks clock
        { p.coordinator with uuids := p.coordinator.uuids + 1 }
        (newMission p.coordinator.uuids firmId requestDescription team plan) team
      refine hsave _ hdel.missions ?_ hmission
      rw [hdel.plan]
      exact hop _ _ _ _ rfl team hteam
  | decide missionId teamId decision =>
    unfold step at hmission
    dsimp only at hmission
    split at hmission
    · exact h id mission hmission
    · rename_i team hteam
      split at hmission
      · exact h id mission hmission
      · rename_i decided team' coordinator hok
        obtain ⟨existing, hexisting, rfl | ⟨subTaskIds, -, rfl⟩⟩ := applyHumanDecision_eq_ok hok
        · exact h id mission hmission
        · have hdel := delegated_rerunSubTasks clock p.coordinator existing team subTaskIds
          have hplan := h _ _ hexisting
          exact hsave _ hdel.missions (hdel.plan ▸ hplan) hmission
  | begin r missionId teamId =>
    unfold step at hmission
    dsimp only at hmission
    split at hmission
    · rename_i missionContext coordinator hnone hbegin
      obtain ⟨existing, hexisting, -, rfl⟩ := beginRun_eq_ok hbegin
      have hplan := h _ _ hexisting
      exact hsave { existing with status := .running } rfl hplan hmission
    · exact h id mission hmission
  | iterate r now =>
    unfold step at hmission
    dsimp only at hmission
    split at hmission
    · rename_i run hrun
      split at hmission
      · rename_i existing hawait hexisting
        have hpass := pass_spec horderly.tidy.bounded (horderly.tidy.owns _ _ hexisting).2 now
        unfold iterate at hmission
        split at hmission
        · rename_i hfinished
          rw [hfinished] at hpass
          obtain ⟨-, rfl⟩ := hpass
          refine hsave _ rfl ?_ hmission
          rw [(finished_same existing now).2.1]
          exact h _ _ hexisting
        · rename_i hmissing
          rw [hmissing] at hpass
          obtain ⟨item, -, hran⟩ := hpass
          exact h id mission (hran.missions ▸ hmission)
        · rename_i hawaits
          rw [hawaits] at hpass
          exact h id mission (hpass.2.1.missions ▸ hmission)
        · exact h id mission hmission
      · exact h id mission hmission
    · exact h id mission hmission
  | agentReturns r output now =>
    unfold step at hmission
    dsimp only at hmission
    split at hmission
    · split at hmission
      · rename_i itemId subTask existing team hawait hexisting hteam
        split at hmission
        · rename_i hok
          obtain ⟨workQueue, -, -, rfl⟩ := agentReturned_eq_ok hok
          have hdel := delegated_enqueueReadySubtasks clock { p.coordinator with workQueue }
            { existing with results := existing.results.set subTask.id output } team
          have hplan := h _ _ hexisting
          refine hsave _ hdel.missions ?_ hmission
          rw [hdel.plan]
          exact hplan
        · exact h id mission hmission
      · exact h id mission hmission
    · exact h id mission hmission
  | agentRaises r error now =>
    unfold step at hmission
    dsimp only at hmission
    split at hmission
    · split at hmission
      · split at hmission
        · rename_i hok
          obtain ⟨workQueue, -, rfl⟩ := agentRaised_eq_ok hok
          exact h id mission hmission
        · exact h id mission hmission
      · exact h id mission hmission
    · exact h id mission hmission

end Platform

/-! ### The outputs of a run -/

/-- The platform, and of each run on its way the outputs that it has stored itself, by sub-task. -/
structure Watched where
  platform : Platform
  produced : ℕ → Dict String AgentOutput := fun _ => ∅

namespace Watched

open CoordinatorEngine Platform

def step (clock : Uuid → ℚ) (s : Watched) (op : Op) : Watched :=
  let platform := s.platform.step clock op
  { platform
    produced := fun r => producedAfter op (s.platform.runs r) (platform.runs r) (s.produced r) }

/-- Nothing has happened. -/
def initial (agents : List String) : Watched := { platform := Platform.initial agents }

/-- If the step calls an agent, the stored results that its sub-task depends on are, to their texts, outputs
that the same run has produced. -/
def OwnDependencies (s : Watched) : Op → Prop
  | .iterate r now => ∀ i ∈ s.platform.calls (.iterate r now), ∀ dep ∈ s.platform.dependencies i,
      ∀ output ∈ i.results.get dep.id, ∃ own ∈ (s.produced r).get dep.id, own.text = output.text
  | _ => True

instance (s : Watched) : ∀ op, Decidable (s.OwnDependencies op)
  | .iterate r now => inferInstanceAs (Decidable (∀ i ∈ s.platform.calls (.iterate r now),
      ∀ dep ∈ s.platform.dependencies i, ∀ output ∈ i.results.get dep.id,
        ∃ own ∈ (s.produced r).get dep.id, own.text = output.text))
  | .register _ | .buildTeam _ | .launch .. | .decide .. | .begin .. | .agentReturns .. | .agentRaises ..
  | .interrupt _ => isTrue trivial

/-- The agents that the step calls are handed what their sub-tasks depend on. -/
def CallsComplete (clock : Uuid → ℚ) (s : Watched) (op : Op) : Prop :=
  (s.step clock op).platform.DependenciesReach
    ((s.step clock op).platform.invocations.drop s.platform.invocations.length)

instance (clock : Uuid → ℚ) (s : Watched) (op : Op) : Decidable (CallsComplete clock s op) := by
  unfold CallsComplete
  infer_instance

variable {s : Watched} {clock : Uuid → ℚ} {op : Op}

/-- The context of each run holds the outputs that the run has produced, under the types of their sub-tasks,
and no other sub-task's. -/
structure Collected (s : Watched) : Prop where
  orderly : Orderly s.platform
  types : ∀ id mission, s.platform.coordinator.missions.get id = some mission →
    (mission.plan.subTasks.map SubTask.taskType).Nodup
  contexts : ∀ r run mission, s.platform.runs r = some run →
    s.platform.coordinator.missions.get run.missionId = some mission → ∀ subTask ∈ mission.plan.subTasks,
      run.missionContext.get subTask.resultKey = ((s.produced r).get subTask.id).map AgentOutput.text

lemma collected_initial (agents : List String) : Collected (initial agents) where
  orderly := orderly_run (fun _ => 0) agents []
  types _ _ hget := nomatch hget
  contexts _ _ _ hrun := nomatch hrun

/-- A plan of the planner has sub-tasks of different types. -/
lemma nodup_types_of_planned (hplanned : s.platform.Planned op) (firmId requestDescription teamId : String)
    (plan : MissionPlan) (hop : op = .launch firmId requestDescription teamId plan) (team : Team)
    (hteam : team ∈ s.platform.teams.get teamId) : (plan.subTasks.map SubTask.taskType).Nodup := by
  subst hop
  obtain ⟨newSubtaskId, caseType, hplan⟩ := hplanned team hteam
  rw [hplan]
  refine Planner.nodup_types_decompose ?_
  rw [← hplan]
  exact plan.nodup

/-- **The step lemma.** -/
theorem Collected.step (h : Collected s) (hplanned : s.platform.Planned op) : Collected (s.step clock op) := by
  obtain ⟨horderly, hadvances, -⟩ := orderly_step clock h.orderly op
  refine ⟨horderly, plans_step clock h.orderly h.types (nodup_types_of_planned hplanned),
    fun r run' mission' hrun' hmission' subTask hsubTask => ?_⟩
  show _ = ((producedAfter op (s.platform.runs r) ((s.platform.step clock op).runs r) (s.produced r)).get
    subTask.id).map AgentOutput.text
  rw [show (s.platform.step clock op).runs r = some run' from hrun']
  -- The plan of a run that was on its way is what it was.
  have hplan {run : MissionRun} (hrun : s.platform.runs r = some run) (hid : run'.missionId = run.missionId) :
      ∃ mission, s.platform.coordinator.missions.get run.missionId = some mission ∧
        subTask ∈ mission.plan.subTasks ∧
          ∀ id st, run.awaiting = some (id, st) → st ∈ mission.plan.subTasks := by
    obtain ⟨mission, hmission, hawait⟩ := h.orderly.runs r run hrun
    obtain ⟨mission'', hmission'', heq, -⟩ := hadvances.missions _ _ hmission
    rw [← hid, show (s.platform.step clock op).coordinator.missions.get run'.missionId = some mission'
      from hmission'] at hmission''
    obtain rfl := Option.some.inj hmission''
    exact ⟨mission, hmission, heq ▸ hsubTask, fun id st hst => (hawait id st hst).1⟩
  have hcarries : Carries op (s.platform.runs r) run' := carries_step hrun'
  cases hrun : s.platform.runs r with
  | none =>
    rw [hrun] at hcarries
    obtain ⟨summary, hcontext⟩ | - := hcarries
    rw [hcontext, Dict.get_set_of_ne _ _ subTask.resultKey_ne]
    rfl
  | some run =>
    rw [hrun] at hcarries
    cases hcarries with
    | kept hid hcontext hproduced =>
      obtain ⟨mission, hmission, hmem, -⟩ := hplan hrun hid
      rw [hcontext, hproduced]
      exact h.contexts r run mission hrun hmission subTask hmem
    | @produced _ _ itemId done output hawait hid hcontext hproduced =>
      obtain ⟨mission, hmission, hmem, hst⟩ := hplan hrun hid
      have hdone := hst itemId done hawait
      rw [hcontext, hproduced]
      by_cases heq : subTask = done
      · rw [heq, Dict.get_set_self, Dict.get_set_self, Option.map_some]
      · have hid : subTask.id ≠ done.id := fun hid =>
          heq (List.inj_on_of_nodup_map mission.plan.nodup hmem hdone hid)
        have hkey : subTask.resultKey ≠ done.resultKey := fun hkey =>
          heq (List.inj_on_of_nodup_map (h.types _ _ hmission) hmem hdone (SubTask.taskType_of_resultKey hkey))
        rw [Dict.get_set_of_ne _ _ hkey, Dict.get_set_of_ne _ _ hid]
        exact h.contexts r run mission hrun hmission subTask hmem

/-- An agent is handed what its sub-task depends on iff it is what the run has produced. -/
lemma Collected.callsComplete_iff (h : Collected s) : CallsComplete clock s op ↔ s.OwnDependencies op := by
  obtain ⟨-, hadvances, -⟩ := orderly_step clock h.orderly op
  have hcalled : (s.step clock op).platform.invocations.drop s.platform.invocations.length =
      (s.platform.calls op).toList := by
    show (s.platform.step clock op).invocations.drop _ = _
    rw [invocations_step, List.drop_left]
  rw [CallsComplete, hcalled]
  cases op with
  | iterate r now =>
    unfold DependenciesReach OwnDependencies
    simp only [Option.mem_toList]
    refine forall₂_congr fun i hi => ?_
    obtain ⟨run, mission, hrun, hmission, hid, hcontext, hresults⟩ := of_mem_calls hi
    obtain ⟨mission', hmission', hplan, -⟩ := hadvances.missions _ _ hmission
    have hdependencies : (s.step clock (.iterate r now)).platform.dependencies i = s.platform.dependencies i := by
      rw [dependencies, dependencies, hid, hmission,
        show (s.step clock (.iterate r now)).platform.coordinator.missions.get run.missionId = some mission'
          from hmission']
      show List.filter _ mission'.plan.subTasks = _
      rw [hplan]
    rw [hdependencies]
    refine forall₂_congr fun dep hdep => forall₂_congr fun output _ => ?_
    have hmem : dep ∈ mission.plan.subTasks := by
      rw [dependencies, hid, hmission] at hdep
      exact List.mem_of_mem_filter hdep
    rw [hcontext, h.contexts r run mission hrun hmission dep hmem]
    exact Option.map_eq_some_iff
  | _ => exact iff_of_true (fun _ hi => absurd hi List.not_mem_nil) trivial

/-- **Dependency outputs reach the agent** throughout a run of the platform whose missions have plans of the
planner iff, whenever a sub-task is taken up, each of its dependencies that has a stored result was done by
the same call of `run_mission`, with this text. -/
theorem dependencies_reach_iff (clock : Uuid → ℚ) (agents : List String) {ops : List Op}
    (hplanned : Along (step clock) (fun s op => s.platform.Planned op) (initial agents) ops) :
    Along (step clock) (CallsComplete clock) (initial agents) ops ↔
      Along (step clock) OwnDependencies (initial agents) ops :=
  along_congr_of hplanned (collected_initial agents) (fun _ _ h hplanned _ => h.step hplanned)
    fun _ _ h _ => h.callsComplete_iff

/-! ### A review -/

def sampleId (n : ℕ) : String := "s" ++ toString n

def reviewPlan : MissionPlan where
  subTasks := Planner.decompose sampleId .general "quick_review"
  nodup := by decide

def checked (text : String) : AgentOutput := { result := (∅ : Dict String String).set "text" text }

/-- A case is verified and its quality is controlled, a sub-task is rerun, and the next run calls its agent. -/
def reviewAgain (subTaskId : String) : List Op :=
  [.register ⟨"a", .verifier⟩, .register ⟨"b", .qualityController⟩,
    .buildTeam { id := "t", memberAgentIds := ["a", "b"] }, .launch "firm" "lease" "t" reviewPlan,
    .begin 0 0 "t", .iterate 0 1, .agentReturns 0 (checked "sound") 2, .iterate 0 3,
    .agentReturns 0 (checked "good") 4, .iterate 0 5,
    .decide 0 "t"
      { decisionType := .rerunSteps, payload := (∅ : Dict String String).set "sub_task_ids" subTaskId },
    .begin 1 0 "t", .iterate 1 6]

lemma planned_reviewAgain (subTaskId : String) : Along (step fun id => id)
    (fun s op => s.platform.Planned op) (initial ["a", "b"]) (reviewAgain subTaskId) := by
  refine ⟨trivial, trivial, trivial, fun team hteam => ⟨sampleId, "quick_review", ?_⟩, trivial, trivial, trivial,
    trivial, trivial, trivial, trivial, trivial, trivial, trivial⟩
  obtain rfl : { id := "t", memberAgentIds := ["a", "b"] } = team := Option.some.inj hteam
  rfl

/-- The verification is rerun, which depends on nothing. -/
theorem dependencies_reach_first : Along (step fun id => id) (CallsComplete fun id => id)
    (initial ["a", "b"]) (reviewAgain "s0") :=
  (dependencies_reach_iff (fun id => id) ["a", "b"] (planned_reviewAgain "s0")).mpr (by decide +kernel)

/-- The control of quality is rerun.  What its agent is handed leaves out the verification, which the mission
has stored. -/
theorem verification_left_out :
    let p := (run (step fun id => id) (initial ["a", "b"]) (reviewAgain "s1")).platform
    Along (step fun id => id) (fun s op => s.platform.Planned op) (initial ["a", "b"]) (reviewAgain "s1") ∧
      ¬ Along (step fun id => id) (CallsComplete fun id => id) (initial ["a", "b"]) (reviewAgain "s1") ∧
      p.invocations.getLast?.map (fun i => (i.subTask.dependsOn, i.missionContext.keys)) =
        some (["s0"], ["case_summary"]) ∧
      p.invocations.getLast?.map (fun i => i.results.get "s0") = some (some (checked "sound")) := by
  refine ⟨planned_reviewAgain "s1", ?_, ?_, ?_⟩ <;> decide +kernel

end Watched

end Tmis.AiTeam
