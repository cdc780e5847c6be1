import Tmis.AiTeam.Coordinator
import Tmis.Lib.Calls
import Tmis.Lib.Run

/-!
# Dependencies of sub-tasks

An agent is called for a sub-task whose dependencies have their results, as long as no human decision
takes away a result that a sub-task still to be run depends on.

* `Live`, `MayRun` — the work items, and the sub-tasks, for which an agent may still be called;
* `KeepsDependencies` — the discipline on human decisions;
* `Sound`, `Follows` — what holds of a mission's live items, and what the engine does to items;
* `inv_step`, `dependencies_met` — every agent is called with the results it depends on;
* `rerun_before_dependency` — a rerun that names a sub-task before the one it depends on.
-/

namespace Tmis.AiTeam

open Tmis.Lib

/-- The sub-tasks a decision reruns, if it is one that does. -/
def HumanDecision.reruns (decision : HumanDecision) : Option (List String) :=
  match decision.decisionType with
  | .requestNewAnalysis | .rerunSteps => decision.subTaskIdsFrom.toOption
  | _ => none

namespace CoordinatorEngine

variable {c c' : CoordinatorEngine} {mission : Mission} {P Q : SubTask → Prop}

/-- An agent may still be called for the item: it waits, or it runs and may be tried again. -/
def Live (c : CoordinatorEngine) (item : WorkItem) : Prop :=
  c.HasAgent item.payload.agentId ∧
    (item.Runnable ∨ (item.status = .running ∧ item.attempts < item.maxAttempts))

instance (item : WorkItem) : Decidable (c.Live item) := by unfold Live; infer_instance

/-- An agent may be called for the sub-task once the named ones are rerun. -/
def MayRun (c : CoordinatorEngine) (mission : Mission) (team : Team) (subTaskIds : List String)
    (subTask : SubTask) : Prop :=
  (subTask.id ∈ subTaskIds ∧ ∃ agentId ∈ assignAgent c.registry subTask team, c.HasAgent agentId) ∨
    ∃ item ∈ c.workItems mission, item.payload.subTaskId = subTask.id ∧ c.Live item

instance (team : Team) (subTaskIds : List String) (subTask : SubTask) :
    Decidable (c.MayRun mission team subTaskIds subTask) := by unfold MayRun; infer_instance

lemma mem_workItems {item : WorkItem} :
    item ∈ c.workItems mission ↔ ∃ id ∈ mission.workItemIds, c.workQueue.get id = some item :=
  List.mem_filterMap

/-! ### What calls return -/

section Calls

variable {clock : Uuid → ℚ} {missionId : Uuid} {mission' : Mission} {team team' : Team}
  {missionContext missionContext' : Dict String String}

lemma require_eq_ok (h : c.require missionId = .ok mission) : c.missions.get missionId = some mission := by
  unfold require at h
  split at h
  · rename_i hget
    rw [hget, Except.ok.inj h]
  · cases h

lemma beginRun_eq_ok (h : c.beginRun missionId = .ok (missionContext, c')) :
    ∃ mission, c.missions.get missionId = some mission ∧
      missionContext = (∅ : Dict String String).set "case_summary" mission.requestDescription ∧
      c' = { c with missions := c.missions.save { mission with status := .running } } := by
  obtain ⟨mission, hrequire, h⟩ := bind_eq_ok.mp h
  obtain ⟨rfl, rfl⟩ := Prod.mk.inj (pure_eq_ok.mp h)
  exact ⟨mission, require_eq_ok hrequire, rfl, rfl⟩

/-- A decision leaves the engine as it is, or reruns sub-tasks of the mission. -/
lemma applyHumanDecision_eq_ok {decision : HumanDecision}
    (h : c.applyHumanDecision clock missionId team decision = .ok (mission', team', c')) :
    ∃ mission, c.missions.get missionId = some mission ∧
      (c' = c ∨ ∃ subTaskIds, decision.reruns = some subTaskIds ∧
        let s := c.rerunSubTasks clock mission team subTaskIds
        c' = { s.1 with missions := s.1.missions.save s.2 }) := by
  obtain ⟨mission, hrequire, h⟩ := bind_eq_ok.mp h
  refine ⟨mission, require_eq_ok hrequire, ?_⟩
  cases htype : decision.decisionType with
  | approve | modifyPlan =>
    simp only [htype] at h
    obtain ⟨-, -, rfl⟩ := h
    exact Or.inl rfl
  | excludeAgent | addAgent =>
    simp only [htype] at h
    obtain ⟨agentId, -, h⟩ := bind_eq_ok.mp h
    obtain ⟨-, -, rfl⟩ := h
    exact Or.inl rfl
  | requestNewAnalysis | rerunSteps =>
    simp only [htype] at h
    obtain ⟨subTaskIds, hids, h⟩ := bind_eq_ok.mp h
    obtain ⟨-, -, rfl⟩ := h
    refine Or.inr ⟨subTaskIds, ?_, rfl⟩
    simp only [HumanDecision.reruns, htype, hids, Except.toOption]

lemma agentReturned_eq_ok {itemId : Uuid} {subTask : SubTask} {output : AgentOutput} {now : ℚ}
    (h : c.agentReturned clock mission team missionContext itemId subTask output now = .ok (missionContext', c')) :
    ∃ workQueue, c.workQueue.markDone itemId output now = .ok workQueue ∧
      missionContext' = missionContext.set (subTask.taskType.value ++ "_result")
        ((output.result.get "text").getD "") ∧
      let s := enqueueReadySubtasks clock { c with workQueue }
        { mission with results := mission.results.set subTask.id output } team
      c' = { s.1 with missions := s.1.missions.save s.2 } := by
  obtain ⟨workQueue, hmark, h⟩ := bind_eq_ok.mp h
  obtain ⟨rfl, rfl⟩ := Prod.mk.inj (pure_eq_ok.mp h)
  exact ⟨workQueue, hmark, rfl, rfl⟩

lemma agentRaised_eq_ok {itemId : Uuid} {error : String} {now : ℚ}
    (h : c.agentRaised itemId error now = .ok c') :
    ∃ workQueue, c.workQueue.markFailed itemId error now = .ok workQueue ∧ c' = { c with workQueue } := by
  obtain ⟨workQueue, hmark, h⟩ := bind_eq_ok.mp h
  exact ⟨workQueue, hmark, (pure_eq_ok.mp h).symm⟩

/-- A mission that ends keeps its plan, its items and its results. -/
lemma finished_same (mission : Mission) (now : ℚ) :
    (finished mission now).id = mission.id ∧ (finished mission now).plan = mission.plan ∧
      (finished mission now).workItemIds = mission.workItemIds ∧
      (finished mission now).results = mission.results := by
  unfold finished
  split <;> exact ⟨rfl, rfl, rfl, rfl⟩

end Calls

/-! ### Live items of a mission -/

/-- The mission's items are drawn, and the sub-task of each live one satisfies `P`. -/
structure Sound (P : SubTask → Prop) (c : CoordinatorEngine) (mission : Mission) : Prop where
  drawn : ∀ id ∈ mission.workItemIds, id < c.uuids
  live : ∀ item ∈ c.workItems mission, c.Live item →
    ∀ subTask ∈ mission.plan.subTasks, subTask.id = item.payload.subTaskId → P subTask

lemma Sound.mono (h : Sound P c mission)
    (hPQ : ∀ subTask ∈ mission.plan.subTasks, P subTask → Q subTask) : Sound Q c mission :=
  ⟨h.drawn, fun item hitem hlive st hst hid => hPQ st hst (h.live item hitem hlive st hst hid)⟩

/-- The engine went on: identifiers were drawn, and no item that was there came to life. -/
structure Follows (c c' : CoordinatorEngine) : Prop where
  agents : c'.agents = c.agents
  uuids : c.uuids ≤ c'.uuids
  live : ∀ id < c.uuids, ∀ item, c'.workQueue.get id = some item → c'.Live item →
    ∃ item₀, c.workQueue.get id = some item₀ ∧ c.Live item₀ ∧ item₀.payload = item.payload

lemma Follows.refl (c : CoordinatorEngine) : Follows c c :=
  ⟨rfl, le_rfl, fun _ _ item hget hlive => ⟨item, hget, hlive, rfl⟩⟩

/-- Saving a mission changes no item. -/
lemma Follows.save (h : Follows c c') (missions : Store Uuid Mission Mission.id) :
    Follows c { c' with missions } := ⟨h.agents, h.uuids, h.live⟩

lemma Follows.trans {c'' : CoordinatorEngine} (h : Follows c c') (h' : Follows c' c'') :
    Follows c c'' where
  agents := h'.agents.trans h.agents
  uuids := h.uuids.trans h'.uuids
  live id hid item hget hlive := by
    obtain ⟨item₁, hget₁, hlive₁, hp₁⟩ := h'.live id (hid.trans_le h.uuids) item hget hlive
    obtain ⟨item₀, hget₀, hlive₀, hp₀⟩ := h.live id hid item₁ hget₁ hlive₁
    exact ⟨item₀, hget₀, hlive₀, hp₀.trans hp₁⟩

lemma Sound.follows (h : Sound P c mission) (hf : Follows c c') : Sound P c' mission where
  drawn id hid := (h.drawn id hid).trans_le hf.uuids
  live item hitem hlive subTask hst hid := by
    obtain ⟨id, hmem, hget⟩ := mem_workItems.mp hitem
    obtain ⟨item₀, hget₀, hlive₀, hp⟩ := hf.live id (h.drawn id hmem) item hget hlive
    exact h.live item₀ (mem_workItems.mpr ⟨id, hmem, hget₀⟩) hlive₀ subTask hst (by rw [hp, hid])

/-! ### Delegation -/

section Delegation

variable {clock : Uuid → ℚ} {team : Team} {subTask : SubTask} {priority : ℤ}

lemma get_delegate (id : Uuid) (hid : id < c.uuids) :
    (c.delegate clock mission subTask team priority).1.workQueue.get id = c.workQueue.get id := by
  rw [delegate, RetryQueue.get_enqueue, if_neg (ne_of_lt hid)]

lemma follows_delegate : Follows c (c.delegate clock mission subTask team priority).1 :=
  ⟨rfl, Nat.le_succ _, fun id hid item hget hlive => ⟨item, get_delegate id hid ▸ hget, hlive, rfl⟩⟩

/-- A delegation adds one item, live only if its agent is there. -/
lemma Sound.delegate (h : Sound P c mission) (hst : subTask ∈ mission.plan.subTasks)
    (hP : (∃ agentId ∈ assignAgent c.registry subTask team, c.HasAgent agentId) → P subTask) :
    Sound P (c.delegate clock mission subTask team priority).1
      (c.delegate clock mission subTask team priority).2 where
  drawn id hid := by
    rcases List.mem_append.mp hid with hid | hid
    · exact (h.drawn id hid).trans (Nat.lt_succ_self _)
    · rw [List.mem_singleton.mp hid]
      exact Nat.lt_succ_self _
  live item hitem hlive st hst' hid := by
    obtain ⟨id, hmem, hget⟩ := mem_workItems.mp hitem
    rcases List.mem_append.mp hmem with hmem | hmem
    · rw [get_delegate id (h.drawn id hmem)] at hget
      exact h.live item (mem_workItems.mpr ⟨id, hmem, hget⟩) hlive st hst' hid
    · -- the new item
      rw [List.mem_singleton.mp hmem, CoordinatorEngine.delegate, RetryQueue.get_enqueue, if_pos rfl] at hget
      cases hget
      have : st = subTask := List.inj_on_of_nodup_map mission.plan.nodup hst' hst hid
      subst this
      have hagent : c.HasAgent ((assignAgent c.registry st team).getD "") := hlive.1
      refine hP ?_
      cases hassign : assignAgent c.registry st team with
      | none =>
        rw [hassign] at hagent
        exact absurd rfl hagent.1
      | some agentId =>
        rw [hassign] at hagent
        exact ⟨agentId, rfl, hagent⟩

/-- What the loops over sub-tasks keep: the engine goes on, and the mission stays itself. -/
structure Delegated (c : CoordinatorEngine) (mission : Mission) (s : CoordinatorEngine × Mission) :
    Prop where
  follows : Follows c s.1
  kept : ∀ id < c.uuids, s.1.workQueue.get id = c.workQueue.get id
  missions : s.1.missions = c.missions
  registry : s.1.registry = c.registry
  id : s.2.id = mission.id
  plan : s.2.plan = mission.plan

lemma Delegated.refl (c : CoordinatorEngine) (mission : Mission) : Delegated c mission (c, mission) :=
  ⟨.refl c, fun _ _ => rfl, rfl, rfl, rfl, rfl⟩

lemma Delegated.delegate {s : CoordinatorEngine × Mission} (h : Delegated c mission s)
    (results : Dict String AgentOutput) :
    Delegated c mission (s.1.delegate clock { s.2 with results } subTask team priority) where
  follows := h.follows.trans follows_delegate
  kept id hid := by rw [get_delegate id (hid.trans_le h.follows.uuids), h.kept id hid]
  missions := h.missions
  registry := h.registry
  id := h.id
  plan := h.plan

lemma delegated_enqueueReadySubtasks (clock : Uuid → ℚ) (c : CoordinatorEngine) (mission : Mission) (team : Team) :
    Delegated c mission (c.enqueueReadySubtasks clock mission team) := by
  unfold enqueueReadySubtasks
  refine List.foldlRecOn mission.plan.subTasks _ (motive := Delegated c mission) (.refl c mission)
    fun s hs subTask _ => ?_
  split
  · exact hs
  · exact hs.delegate s.2.results

lemma delegated_rerunSubTasks (clock : Uuid → ℚ) (c : CoordinatorEngine) (mission : Mission) (team : Team)
    (subTaskIds : List String) : Delegated c mission (c.rerunSubTasks clock mission team subTaskIds) := by
  have hfold := List.foldlRecOn subTaskIds (rerunSubTask clock mission.plan team) (motive := Delegated c mission)
    (b := (c, mission)) (.refl c mission) fun s hs subTaskId _ => by
      unfold rerunSubTask
      cases mission.plan.subTask subTaskId with
      | none => exact hs
      | some subTask => exact hs.delegate _
  exact ⟨hfold.follows, hfold.kept, hfold.missions, hfold.registry, hfold.id, hfold.plan⟩

/-- `_enqueue_ready_subtasks` adds items of ready sub-tasks only. -/
lemma enqueueReadySubtasks_spec (clock : Uuid → ℚ) (team : Team)
    (h : Sound (Ready mission.results) c mission) :
    Delegated c mission (c.enqueueReadySubtasks clock mission team) ∧
      (c.enqueueReadySubtasks clock mission team).2.results = mission.results ∧
      Sound (Ready mission.results) (c.enqueueReadySubtasks clock mission team).1
        (c.enqueueReadySubtasks clock mission team).2 := by
  unfold enqueueReadySubtasks
  refine List.foldlRecOn mission.plan.subTasks _ (motive := fun s => Delegated c mission s ∧
    s.2.results = mission.results ∧ Sound (Ready mission.results) s.1 s.2)
    ⟨.refl c mission, rfl, h⟩ fun s hs subTask hst => ?_
  obtain ⟨hdel, hres, hsound⟩ := hs
  split
  · exact ⟨hdel, hres, hsound⟩
  · rename_i hcond
    rw [not_or, not_not, hres] at hcond
    refine ⟨hdel.delegate s.2.results, hres, hsound.delegate ?_ fun _ => hcond.2⟩
    rw [hdel.plan]
    exact hst

variable (team) in
/-- `_rerun_sub_tasks` keeps what the discipline says of the sub-tasks that may run. -/
lemma rerunSubTasks_spec (clock : Uuid → ℚ) {subTaskIds : List String} (h : Sound P c mission)
    (hP : ∀ subTask ∈ mission.plan.subTasks, subTask.id ∈ subTaskIds →
      (∃ agentId ∈ assignAgent c.registry subTask team, c.HasAgent agentId) → P subTask) :
    Delegated c mission (c.rerunSubTasks clock mission team subTaskIds) ∧
      (∀ k, k ∉ subTaskIds → (c.rerunSubTasks clock mission team subTaskIds).2.results.get k =
        mission.results.get k) ∧
      Sound P (c.rerunSubTasks clock mission team subTaskIds).1
        (c.rerunSubTasks clock mission team subTaskIds).2 := by
  have hfold := List.foldlRecOn subTaskIds (rerunSubTask clock mission.plan team)
    (motive := fun s => Delegated c mission s ∧
      (∀ k, k ∉ subTaskIds → s.2.results.get k = mission.results.get k) ∧ Sound P s.1 s.2)
    (b := (c, mission)) ⟨.refl c mission, fun _ _ => rfl, h⟩ fun s hs subTaskId hmem => by
      obtain ⟨hdel, hres, hsound⟩ := hs
      unfold rerunSubTask
      cases hst : mission.plan.subTask subTaskId with
      | none => exact ⟨hdel, hres, hsound⟩
      | some subTask =>
        obtain ⟨hplan, rfl⟩ := MissionPlan.subTask_eq_some.mp hst
        refine ⟨hdel.delegate _, fun k hk => ?_, ?_⟩
        · have hne : k ≠ subTask.id := fun heq => hk (heq ▸ hmem)
          exact (Dict.get_pop_of_ne _ hne).trans (hres k hk)
        · refine Sound.delegate ⟨hsound.drawn, hsound.live⟩ (hdel.plan ▸ hplan) ?_
          simp only [HasAgent, hdel.registry, hdel.follows.agents]
          exact hP subTask hplan hmem
  exact ⟨⟨hfold.1.follows, hfold.1.kept, hfold.1.missions, hfold.1.registry, hfold.1.id, hfold.1.plan⟩,
    hfold.2.1, hfold.2.2.drawn, hfold.2.2.live⟩

end Delegation

/-! ### Marks -/

section Marks

variable {id : Uuid} {item : WorkItem} {workQueue : InMemoryWorkQueue} {now : ℚ}

/-- The item is drawn, and an agent works on it. -/
def Running (c : CoordinatorEngine) (id : Uuid) : Prop :=
  id < c.uuids ∧ ∃ item, c.workQueue.get id = some item ∧ item.status = .running

lemma Delegated.running {s : CoordinatorEngine × Mission} (h : Delegated c mission s)
    (hid : c.Running id) : s.1.Running id := by
  obtain ⟨hdrawn, item, hget, hstatus⟩ := hid
  exact ⟨hdrawn.trans_le h.follows.uuids, item, by rw [h.kept id hdrawn, hget], hstatus⟩

/-- A mark that brings no item to life. -/
lemma follows_update {f : WorkItem → WorkItem} {hf : ∀ x, (f x).id = x.id}
    (h : c.workQueue.update id f hf = .ok workQueue) (hpayload : ∀ x, (f x).payload = x.payload)
    (hlive : ∀ x, c.workQueue.get id = some x → c.Live (f x) → c.Live x) :
    Follows c { c with workQueue } := by
  refine ⟨rfl, le_rfl, fun j _ x hget hx => ?_⟩
  rw [RetryQueue.get_update h] at hget
  split at hget
  · subst j
    obtain ⟨x₀, hget₀, rfl⟩ := Option.map_eq_some_iff.mp hget
    exact ⟨x₀, hget₀, hlive x₀ hget₀ hx, (hpayload x₀).symm⟩
  · exact ⟨x, hget, hx, rfl⟩

lemma running_update {f : WorkItem → WorkItem} {hf : ∀ x, (f x).id = x.id}
    (h : c.workQueue.update id f hf = .ok workQueue) {j : Uuid} (hj : c.Running j) (hne : j ≠ id) :
    Running { c with workQueue } j := by
  obtain ⟨hdrawn, x, hget, hstatus⟩ := hj
  exact ⟨hdrawn, x, by rw [RetryQueue.get_update h, if_neg hne, hget], hstatus⟩

lemma follows_markRunning (hget : c.workQueue.get id = some item) (hrun : item.Runnable)
    (h : c.workQueue.markRunning id now = .ok workQueue) : Follows c { c with workQueue } := by
  refine follows_update h (fun _ => rfl) fun x hx hlive => ⟨hlive.1, Or.inl ?_⟩
  rw [hget] at hx
  cases hx
  exact hrun

lemma running_markRunning (hget : c.workQueue.get id = some item) (hid : id < c.uuids)
    (h : c.workQueue.markRunning id now = .ok workQueue) : Running { c with workQueue } id := by
  have hget' := RetryQueue.get_update h id
  rw [if_pos rfl, hget] at hget'
  exact ⟨hid, _, hget', rfl⟩

lemma follows_markDone {result : AgentOutput}
    (h : c.workQueue.markDone id result now = .ok workQueue) : Follows c { c with workQueue } := by
  refine follows_update h (fun _ => rfl) fun x _ hlive => absurd hlive.2 ?_
  simp [Item.Runnable]

/-- A failure of a running item leaves it live only if it could be tried again. -/
lemma follows_markFailed {error : String} (hrun : c.Running id)
    (h : c.workQueue.markFailed id error now = .ok workQueue) : Follows c { c with workQueue } := by
  obtain ⟨-, item, hget, hstatus⟩ := hrun
  refine follows_update h (fun x => x.failed_payload error now) fun x hx hlive => ?_
  rw [hget] at hx
  cases hx
  rw [Live, Item.failed_payload] at hlive
  refine ⟨hlive.1, Or.inr ⟨hstatus, ?_⟩⟩
  by_contra hno
  have hend : (item.failed error now).status = .failed := by rw [Item.failed_status, if_neg hno]
  simp [Item.Runnable, hend] at hlive

/-- An item without an agent is not live, whatever its marks. -/
lemma follows_update_of_not_hasAgent {f : WorkItem → WorkItem} {hf : ∀ x, (f x).id = x.id}
    (h : c.workQueue.update id f hf = .ok workQueue) (hpayload : ∀ x, (f x).payload = x.payload)
    (hget : c.workQueue.get id = some item) (hno : ¬ c.HasAgent item.payload.agentId) :
    Follows c { c with workQueue } := by
  refine follows_update h hpayload fun x hx hlive => absurd hlive.1 ?_
  rw [hget] at hx
  cases hx
  rw [hpayload]
  exact hno

end Marks

/-- What one pass of the loop can do. -/
lemma pass_cases (hmission : ∀ id ∈ mission.workItemIds, id < c.uuids) (now : ℚ) :
    match c.pass mission now with
    | .finished c' => c' = { c with missions := c.missions.save (finished mission now) }
    | .agentMissing c' => ∃ item ∈ c.workItems mission, item.Runnable ∧ Follows c c' ∧
        c'.missions = c.missions ∧ ∀ id, id ≠ item.id → c.Running id → c'.Running id
    | .awaits c' item subTask => item ∈ c.workItems mission ∧ item.Runnable ∧ Follows c c' ∧
        c'.missions = c.missions ∧ (∀ id, id ≠ item.id → c.Running id → c'.Running id) ∧
        c'.Running item.id ∧ c.Live item ∧ subTask ∈ mission.plan.subTasks ∧
        subTask.id = item.payload.subTaskId
    | .raised _ => True := by
  unfold pass
  cases hnext : c.nextRunnableItem mission with
  | none => rfl
  | some item =>
    have hmem := List.mem_of_mem_head? (Option.mem_def.mpr hnext)
    rw [List.mem_insertionSort, List.mem_filter, decide_eq_true_eq] at hmem
    obtain ⟨hitem, hrun⟩ := hmem
    obtain ⟨id, hid, hget⟩ := mem_workItems.mp hitem
    obtain rfl : item.id = id := c.workQueue.keyed _ _ hget
    dsimp only
    cases hst : mission.plan.subTask item.payload.subTaskId with
    | none => trivial
    | some subTask =>
      obtain ⟨hplan, hsub⟩ := MissionPlan.subTask_eq_some.mp hst
      dsimp only
      by_cases hagent : c.HasAgent item.payload.agentId
      · rw [if_pos hagent]
        cases hmark : c.workQueue.markRunning item.id now with
        | error e => trivial
        | ok workQueue =>
          exact ⟨hitem, hrun, follows_markRunning hget hrun hmark, rfl,
            fun id hne hid => running_update hmark hid hne,
            running_markRunning hget (hmission _ hid) hmark, ⟨hagent, Or.inl hrun⟩, hplan, hsub⟩
      · rw [if_neg hagent]
        cases hmark : c.workQueue.markRunning item.id now with
        | error e => trivial
        | ok workQueue =>
          cases hfail : workQueue.markFailed item.id
              ("no agent available for " ++ subTask.assignedRole.value) now with
          | error e => simp [bind, Except.bind, hfail]
          | ok workQueue' =>
            simp only [bind, Except.bind, hfail]
            have hget' := RetryQueue.get_update hmark item.id
            rw [if_pos rfl, hget] at hget'
            refine ⟨item, hitem, hrun, ?_, trivial, fun id hne hid => ?_⟩
            · exact (follows_markRunning hget hrun hmark).trans
                (follows_update_of_not_hasAgent (c := { c with workQueue }) hfail
                  (fun x => x.failed_payload _ now) hget' hagent)
            · exact running_update (c := { c with workQueue }) hfail
                (running_update hmark hid hne) hne

end CoordinatorEngine

namespace Platform

open CoordinatorEngine

/-- The discipline: a decision to rerun sub-tasks takes no result away that a sub-task depends on for
which an agent may still be called, and each of these has the results it depends on. -/
def KeepsDependencies (p : Platform) : Op → Prop
  | .decide missionId teamId decision =>
      match p.teams.get teamId, p.coordinator.missions.get missionId, decision.reruns with
      | some team, some mission, some subTaskIds =>
          ∀ subTask ∈ mission.plan.subTasks,
            p.coordinator.MayRun mission team subTaskIds subTask →
              ∀ dep ∈ subTask.dependsOn, mission.results.contains dep ∧ dep ∉ subTaskIds
      | _, _, _ => True
  | _ => True

instance (p : Platform) (op : Op) : Decidable (p.KeepsDependencies op) := by
  unfold KeepsDependencies
  split
  · split <;> infer_instance
  · infer_instance

/-! ### The invariant -/

/-- Live items have their dependencies' results, an awaited item runs and is awaited once, and the
agents called so far had what they depend on. -/
structure Inv (p : Platform) : Prop where
  missions : ∀ missionId mission, p.coordinator.missions.get missionId = some mission →
    Sound (Ready mission.results) p.coordinator mission
  running : ∀ r run id subTask, p.runs r = some run → run.awaiting = some (id, subTask) →
    p.coordinator.Running id
  apart : ∀ r r' run run' id subTask subTask', p.runs r = some run → p.runs r' = some run' →
    run.awaiting = some (id, subTask) → run'.awaiting = some (id, subTask') → r = r'
  met : ∀ i ∈ p.invocations, Ready i.results i.subTask

variable {p : Platform} {clock : Uuid → ℚ}

/-- A change of the engine alone. -/
lemma Inv.engine (h : Inv p) {c : CoordinatorEngine} {teams : Store String Team Team.id}
    (hf : Follows p.coordinator c) (hrun : ∀ id, p.coordinator.Running id → c.Running id)
    (hm : ∀ missionId mission, c.missions.get missionId = some mission →
      p.coordinator.missions.get missionId = some mission ∨ Sound (Ready mission.results) c mission) :
    Inv { p with coordinator := c, teams } where
  missions missionId mission hget :=
    (hm missionId mission hget).elim (fun hget => (h.missions _ _ hget).follows hf) id
  running r run id subTask hr hid := hrun id (h.running r run id subTask hr hid)
  apart := h.apart
  met := h.met

/-- A change of the engine by one run, which comes to await another item or none. -/
lemma Inv.turn (h : Inv p) {c : CoordinatorEngine} {r : ℕ} {run' : Option MissionRun}
    {invocations : List Invocation} (hf : Follows p.coordinator c)
    (hm : ∀ missionId mission, c.missions.get missionId = some mission →
      p.coordinator.missions.get missionId = some mission ∨ Sound (Ready mission.results) c mission)
    (hother : ∀ r' ≠ r, ∀ run id subTask, p.runs r' = some run →
      run.awaiting = some (id, subTask) → c.Running id)
    (hnew : ∀ run id subTask, run' = some run → run.awaiting = some (id, subTask) →
      c.Running id ∧ ∀ r' ≠ r, ∀ run' subTask', p.runs r' = some run' →
        run'.awaiting ≠ some (id, subTask'))
    (hmet : ∀ i ∈ invocations, Ready i.results i.subTask) :
    Inv (Platform.turn { p with coordinator := c, invocations } r run') where
  missions missionId mission hget :=
    (hm missionId mission hget).elim (fun hget => (h.missions _ _ hget).follows hf) id
  running r' run id subTask hr hid := by
    by_cases hrr : r' = r
    · subst r'
      rw [turn_runs_self] at hr
      exact (hnew run id subTask hr hid).1
    · rw [turn_runs_of_ne hrr] at hr
      exact hother r' hrr run id subTask hr hid
  apart r₁ r₂ run₁ run₂ id st₁ st₂ hr₁ hr₂ hid₁ hid₂ := by
    by_cases h₁ : r₁ = r <;> by_cases h₂ : r₂ = r
    · rw [h₁, h₂]
    · rw [h₁, turn_runs_self] at hr₁
      rw [turn_runs_of_ne h₂] at hr₂
      exact absurd hid₂ ((hnew run₁ id st₁ hr₁ hid₁).2 r₂ h₂ run₂ st₂ hr₂)
    · rw [h₂, turn_runs_self] at hr₂
      rw [turn_runs_of_ne h₁] at hr₁
      exact absurd hid₁ ((hnew run₂ id st₂ hr₂ hid₂).2 r₁ h₁ run₁ st₁ hr₁)
    · rw [turn_runs_of_ne h₁] at hr₁
      rw [turn_runs_of_ne h₂] at hr₂
      exact h.apart r₁ r₂ run₁ run₂ id st₁ st₂ hr₁ hr₂ hid₁ hid₂
  met := hmet

/-- A run that is over. -/
lemma Inv.release (h : Inv p) (r : ℕ) : Inv (p.turn r none) :=
  h.turn (.refl _) (fun _ _ => Or.inl) (fun r' _ run id subTask => h.running r' run id subTask)
    (fun run id subTask hrun => by cases hrun) h.met

/-! ### The step -/

/-- The missions after `save` of one that is sound. -/
lemma saved {c : CoordinatorEngine} (c' : CoordinatorEngine) {mission : Mission}
    (hmissions : c'.missions = c.missions)
    (hsound : Sound (Ready mission.results) c' mission) (missionId : Uuid) (m : Mission)
    (hget : (c'.missions.save mission).get missionId = some m) :
    c.missions.get missionId = some m ∨
      Sound (Ready m.results) { c' with missions := c'.missions.save mission } m := by
  rcases Store.of_get_save hget with rfl | hget
  · exact Or.inr ⟨hsound.drawn, hsound.live⟩
  · exact Or.inl (hmissions ▸ hget)

/-- A launch: all its items are of sub-tasks without dependencies. -/
lemma inv_launch (h : Inv p) (firmId requestDescription : String) (team : Team) (plan : MissionPlan) :
    Inv { p with coordinator :=
      (p.coordinator.launchMission clock firmId requestDescription team plan).2 } := by
  let mission := newMission p.coordinator.uuids firmId requestDescription team plan
  have hempty : Sound (Ready mission.results) { p.coordinator with uuids := p.coordinator.uuids + 1 }
      mission :=
    ⟨fun id hid => absurd hid List.not_mem_nil, fun item hitem => absurd hitem List.not_mem_nil⟩
  obtain ⟨hdel, hres, hsound⟩ := enqueueReadySubtasks_spec clock team hempty
  have hdrawn : Follows p.coordinator { p.coordinator with uuids := p.coordinator.uuids + 1 } :=
    ⟨rfl, Nat.le_succ _, fun _ _ item hget hlive => ⟨item, hget, hlive, rfl⟩⟩
  refine h.engine ((hdrawn.trans hdel.follows).save _) (fun id hid => ?_) (saved _ hdel.missions ?_)
  · exact hdel.running ⟨hid.1.trans (Nat.lt_succ_self _), hid.2⟩
  · rw [hres]
    exact hsound

/-- A decision under the discipline. -/
lemma inv_decide (h : Inv p) {missionId : Uuid} {teamId : String} {decision : HumanDecision}
    {team team' : Team} {mission : Mission} {c : CoordinatorEngine}
    (hc : p.KeepsDependencies (.decide missionId teamId decision))
    (hteam : p.teams.get teamId = some team)
    (hok : p.coordinator.applyHumanDecision clock missionId team decision = .ok (mission, team', c)) :
    Inv { p with coordinator := c, teams := p.teams.save team' } := by
  have hsame : Inv { p with coordinator := p.coordinator, teams := p.teams.save team' } :=
    h.engine (.refl _) (fun _ => id) fun _ _ => Or.inl
  obtain ⟨mission₀, hget, rfl | ⟨subTaskIds, hreruns, rfl⟩⟩ := applyHumanDecision_eq_ok hok
  · exact hsame
  · simp only [KeepsDependencies, hteam, hget, hreruns] at hc
    -- what the discipline says of the live items, and of the items to come
    have hsound := h.missions missionId mission₀ hget
    obtain ⟨hdel, hres, hnew⟩ := rerunSubTasks_spec team clock
      (P := fun subTask => ∀ dep ∈ subTask.dependsOn,
        mission₀.results.contains dep ∧ dep ∉ subTaskIds)
      ⟨hsound.drawn, fun item hitem hlive subTask hst hid =>
        hc subTask hst (Or.inr ⟨item, hitem, hid.symm, hlive⟩)⟩
      fun subTask hst hmem hagent => hc subTask hst (Or.inl ⟨hmem, hagent⟩)
    refine h.engine (hdel.follows.save _) (fun _ => hdel.running) (saved _ hdel.missions ?_)
    refine hnew.mono fun subTask _ hdeps dep hdep => ?_
    rw [Dict.contains, hres dep (hdeps dep hdep).2]
    exact (hdeps dep hdep).1

/-- An item that waits is not one that runs. -/
lemma ne_of_running {c : CoordinatorEngine} {mission : Mission} {item : WorkItem} {id : Uuid}
    (hitem : item ∈ c.workItems mission) (hwaits : item.Runnable) (hid : c.Running id) :
    id ≠ item.id := by
  rintro rfl
  obtain ⟨j, -, hget⟩ := mem_workItems.mp hitem
  obtain rfl : item.id = j := c.workQueue.keyed _ _ hget
  obtain ⟨-, x, hx, hstatus⟩ := hid
  rw [hget] at hx
  cases hx
  rcases hwaits with h | h <;> rw [hstatus] at h <;> cases h

/-- One pass of a run that is at the top of its loop. -/
lemma inv_iterate (h : Inv p) {r : ℕ} {missionRun : MissionRun} {mission : Mission}
    (hmission : p.coordinator.missions.get missionRun.missionId = some mission) (now : ℚ) :
    Inv (p.iterate r missionRun mission now) := by
  have hsound := h.missions _ _ hmission
  have hpass := pass_cases hsound.drawn now
  unfold iterate
  cases hp : p.coordinator.pass mission now with
  | finished c =>
    rw [hp] at hpass
    subst hpass
    refine h.turn ((Follows.refl _).save _) (saved p.coordinator rfl ?_)
      (fun r' _ run id subTask => h.running r' run id subTask)
      (fun run id subTask hrun => by cases hrun) h.met
    unfold finished
    split <;> exact ⟨hsound.drawn, hsound.live⟩
  | agentMissing c =>
    rw [hp] at hpass
    obtain ⟨item, hitem, hwaits, hfollows, hmissions, hrunning⟩ := hpass
    refine h.engine hfollows (fun id hid => hrunning id (ne_of_running hitem hwaits hid) hid)
      fun missionId m hget => Or.inl (hmissions ▸ hget)
  | awaits c item subTask =>
    rw [hp] at hpass
    obtain ⟨hitem, hwaits, hfollows, hmissions, hrunning, hstarted, hlive, hplan, hsub⟩ := hpass
    refine h.turn hfollows (fun missionId m hget => Or.inl (hmissions ▸ hget))
      (fun r' _ run id st hr hid => ?_) ?_ fun i hi => ?_
    · have hrun := h.running r' run id st hr hid
      exact hrunning id (ne_of_running hitem hwaits hrun) hrun
    · rintro run id st hrun hid
      cases hrun
      cases hid
      exact ⟨hstarted, fun r' _ run' st' hr' hid' =>
        ne_of_running hitem hwaits (h.running r' run' _ st' hr' hid') rfl⟩
    · rcases List.mem_append.mp hi with hi | hi
      · exact h.met i hi
      · rw [List.mem_singleton.mp hi]
        exact hsound.live item hitem hlive subTask hplan hsub
  | raised e =>
    exact h.release r

/-- The output of an awaited agent. -/
lemma inv_agentReturned (h : Inv p) {r : ℕ} {missionRun : MissionRun} {itemId : Uuid}
    {subTask : SubTask} {mission : Mission} {team : Team} {output : AgentOutput} {now : ℚ}
    {missionContext : Dict String String} {c : CoordinatorEngine}
    (hrun : p.runs r = some missionRun) (hawait : missionRun.awaiting = some (itemId, subTask))
    (hmission : p.coordinator.missions.get missionRun.missionId = some mission)
    (hok : p.coordinator.agentReturned clock mission team missionRun.missionContext itemId subTask
      output now = .ok (missionContext, c)) :
    Inv (Platform.turn { p with coordinator := c } r
      (some { missionRun with missionContext, awaiting := none })) := by
  obtain ⟨workQueue, hmark, rfl, rfl⟩ := agentReturned_eq_ok hok
  have hfollows := follows_markDone hmark
  have hsound := (h.missions _ _ hmission).follows hfollows
  let mission' : Mission := { mission with results := mission.results.set subTask.id output }
  have hready : Sound (Ready mission'.results) { p.coordinator with workQueue } mission' := by
    refine Sound.mono ⟨hsound.drawn, hsound.live⟩ fun st _ hst dep hdep => ?_
    have hdep' := hst dep hdep
    rw [Dict.contains, Dict.get_set]
    split
    · rfl
    · exact hdep'
  obtain ⟨hdel, hres, hnew⟩ := enqueueReadySubtasks_spec clock team hready
  refine h.turn ((hfollows.trans hdel.follows).save _) (saved _ hdel.missions ?_)
    (fun r' hr' run id st hr hid => ?_) ?_ h.met
  · rw [hres]
    exact hnew
  · have hne : id ≠ itemId := by
      rintro rfl
      exact hr' (h.apart r' r run missionRun id st subTask hr hrun hid hawait)
    exact hdel.running (running_update hmark (h.running r' run id st hr hid) hne)
  · rintro run id st hrun' hid
    cases hrun'
    cases hid

/-- The exception of an awaited agent. -/
lemma inv_agentRaised (h : Inv p) {r : ℕ} {missionRun : MissionRun} {itemId : Uuid}
    {subTask : SubTask} {error : String} {now : ℚ} {c : CoordinatorEngine}
    (hrun : p.runs r = some missionRun) (hawait : missionRun.awaiting = some (itemId, subTask))
    (hok : p.coordinator.agentRaised itemId error now = .ok c) :
    Inv (Platform.turn { p with coordinator := c } r (some { missionRun with awaiting := none })) := by
  obtain ⟨workQueue, hmark, rfl⟩ := agentRaised_eq_ok hok
  refine h.turn (follows_markFailed (h.running r missionRun itemId subTask hrun hawait) hmark)
    (fun _ _ => Or.inl) (fun r' hr' run id st hr hid => ?_) ?_ h.met
  · have hne : id ≠ itemId := by
      rintro rfl
      exact hr' (h.apart r' r run missionRun id st subTask hr hrun hid hawait)
    exact running_update hmark (h.running r' run id st hr hid) hne
  · rintro run id st hrun' hid
    cases hrun'
    cases hid

/-- **The step lemma**: whatever happens, a decision apart that breaks the discipline, the invariant
holds after it. -/
theorem inv_step (h : Inv p) {op : Op} (hc : p.KeepsDependencies op) : Inv (p.step clock op) := by
  cases op with
  | register descriptor =>
    exact h.engine ⟨rfl, le_rfl, fun _ _ item hget hlive => ⟨item, hget, hlive, rfl⟩⟩ (fun _ => id)
      fun _ _ => Or.inl
  | buildTeam team => exact h.engine (.refl _) (fun _ => id) fun _ _ => Or.inl
  | launch firmId requestDescription teamId plan =>
    unfold step
    dsimp only
    cases p.teams.get teamId with
    | none => exact h
    | some team => exact inv_launch h firmId requestDescription team plan
  | decide missionId teamId decision =>
    unfold step
    dsimp only
    cases hteam : p.teams.get teamId with
    | none => exact h
    | some team =>
      dsimp only
      cases hok : p.coordinator.applyHumanDecision clock missionId team decision with
      | error e => exact h
      | ok result => exact inv_decide h hc hteam hok
  | begin r missionId teamId =>
    unfold step
    dsimp only
    split
    · rename_i missionContext coordinator hrun hbegin
      obtain ⟨mission, hget, rfl, rfl⟩ := beginRun_eq_ok hbegin
      have hsound := h.missions missionId mission hget
      refine h.turn ((Follows.refl _).save _) (saved p.coordinator rfl ⟨hsound.drawn, hsound.live⟩)
        (fun r' _ run id subTask => h.running r' run id subTask) (fun run id subTask hrun hid => ?_) h.met
      cases hrun
      cases hid
    · exact h
  | iterate r now =>
    unfold step
    dsimp only
    cases hrun : p.runs r with
    | none => exact h
    | some run =>
      dsimp only
      split
      · rename_i hmission
        exact inv_iterate h hmission now
      · exact h
  | agentReturns r output now =>
    unfold step
    dsimp only
    cases hrun : p.runs r with
    | none => exact h
    | some run =>
      dsimp only
      split
      · rename_i itemId subTask mission team hawait hmission hteam
        split
        · rename_i hok
          exact inv_agentReturned h hrun hawait hmission hok
        · exact h.release r
      · exact h
  | agentRaises r error now =>
    unfold step
    dsimp only
    cases hrun : p.runs r with
    | none => exact h
    | some run =>
      dsimp only
      split
      · rename_i itemId subTask hawait
        split
        · rename_i hok
          exact inv_agentRaised h hrun hawait hok
        · exact h.release r
      · exact h
  | interrupt r => exact h.release r

/-- The platform before anything happened. -/
def initial (agents : List String) : Platform := { coordinator := { agents } }

lemma inv_initial (agents : List String) : Inv (initial agents) where
  missions _ _ hget := by cases hget
  running _ _ _ _ hrun := by cases hrun
  apart _ _ _ _ _ _ _ hrun := by cases hrun
  met i hi := absurd hi List.not_mem_nil

/-- Each agent was called for a sub-task whose dependencies all had a stored result at that moment. -/
def DependenciesMet (p : Platform) : Prop := ∀ i ∈ p.invocations, Ready i.results i.subTask

instance (p : Platform) : Decidable (DependenciesMet p) := by
  unfold DependenciesMet
  infer_instance

/-- **Dependencies are met** in every run under the discipline. -/
theorem dependencies_met (clock : Uuid → ℚ) (agents : List String) (ops : List Op)
    (h : Along (step clock) KeepsDependencies (initial agents) ops) :
    DependenciesMet (run (step clock) (initial agents) ops) := by
  have hinv : Inv (run (step clock) (initial agents) ops) :=
    h.inv (inv_initial agents) fun _ _ hinv hc => inv_step hinv hc
  exact hinv.met

/-! ### A mission of two steps -/

/-- A document is analysed, then the law is researched. -/
def twoSteps : MissionPlan where
  subTasks := [⟨"s1", .documentAnalysis, .documentAnalyst, "", []⟩,
    ⟨"s2", .legalResearch, .legalResearcher, "", ["s1"]⟩]
  nodup := by decide

/-- The mission is launched and run to its end, the named sub-tasks are rerun, and the next run calls
its first agent. -/
def rerunAfterEnd (subTaskIds : String) : List Op :=
  [.register ⟨"a", .documentAnalyst⟩, .register ⟨"b", .legalResearcher⟩,
    .buildTeam { id := "t", memberAgentIds := ["a", "b"] }, .launch "firm" "lease" "t" twoSteps,
    .begin 0 0 "t", .iterate 0 1, .agentReturns 0 {} 2, .iterate 0 3, .agentReturns 0 {} 4,
    .iterate 0 5,
    .decide 0 "t"
      { decisionType := .rerunSteps, payload := (∅ : Dict String String).set "sub_task_ids" subTaskIds },
    .begin 1 0 "t", .iterate 1 6]

/-- A rerun of the second step alone. -/
theorem dependencies_met_second_step :
    DependenciesMet (run (step fun id => id) (initial ["a", "b"]) (rerunAfterEnd "s2")) :=
  dependencies_met (fun id => id) ["a", "b"] (rerunAfterEnd "s2") (by decide +kernel)

/-- A rerun that names a sub-task before the one it depends on calls its agent without that result. -/
theorem rerun_before_dependency :
    ¬ DependenciesMet (run (step fun id => id) (initial ["a", "b"]) (rerunAfterEnd "s2,s1")) := by
  decide +kernel

end Platform

end Tmis.AiTeam
