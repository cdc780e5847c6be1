import Mathlib.Algebra.Order.BigOperators.Group.List
import Tmis.AiTeam.WorkItems

/-!
# Runs of a mission

One `run_mission` from its call to its return, with whatever else happens while it awaits its agents:
other missions, other runs of this one, whatever becomes of their agents, but no human decision on it.

* `Turn`, `runMission` — a pass of the loop, and the loop;
* `runsLeft` — how many passes may still run an item;
* `Spares` — what may happen meanwhile;
* `runMission_ends` — the run ends, and what it has done then.
-/

namespace Tmis.AiTeam

open Tmis.Lib

namespace CoordinatorEngine

variable {c c' : CoordinatorEngine} {mission mission' : Mission} {id : Uuid}

/-! ### Passes that are left -/

/-- The number of sub-tasks that have no item. -/
def unassigned (c : CoordinatorEngine) (mission : Mission) : ℕ :=
  mission.plan.subTasks.countP fun subTask => some subTask.id ∉ mission.workItemIds.map c.subTaskOf

/-- The passes that may still run an item: those for the items that are there, and three for the item
of each sub-task that has none. -/
def runsLeft (c : CoordinatorEngine) (mission : Mission) : ℕ :=
  (mission.workItemIds.map c.attemptsLeft).sum + 3 * c.unassigned mission

/-- Of distinct names, those that were not among the old ones are among the new ones, or still not. -/
lemma countP_not_mem_append {α : Type*} [BEq α] [LawfulBEq α] {l old new : List α} (hl : l.Nodup)
    (hnew : new.Nodup) (hsub : ∀ x ∈ new, x ∈ l) (hold : ∀ x ∈ new, x ∉ old) :
    l.countP (fun x => x ∉ old ++ new) + new.length = l.countP fun x => x ∉ old := by
  have hperm : (l.filter fun x => decide (x ∈ new)).Perm new := by
    refine (List.perm_ext_iff_of_nodup (hl.filter _) hnew).mpr fun x => ?_
    rw [List.mem_filter, decide_eq_true_eq]
    exact ⟨And.right, fun hx => ⟨hsub x hx, hx⟩⟩
  have hsplit := List.countP_eq_countP_filter_add l (fun x => decide (x ∉ old)) fun x => decide (x ∈ new)
  rw [hsplit, List.countP_filter, List.countP_filter, Nat.add_comm]
  refine congrArg₂ (· + ·) ?_ (List.countP_congr fun x _ => ?_)
  · rw [← hperm.length_eq, ← List.countP_eq_length_filter]
    refine List.countP_congr fun x _ => ?_
    by_cases hx : x ∈ new
    · simp [hx, hold x hx]
    · simp [hx]
  · simp [not_or]

/-- The sub-tasks of a mission that went on: each of the new items has taken one that had none. -/
lemma unassigned_extends (hgrows : Grows c c') (howns : Owns c mission) (howns' : Owns c' mission')
    (hext : Extends c' mission mission') {items : List Uuid}
    (hids : mission'.workItemIds = mission.workItemIds ++ items) :
    c'.unassigned mission' + items.length = c.unassigned mission := by
  obtain ⟨hplan, items', hids', hnodup, honce⟩ := hext
  obtain rfl : items' = items := List.append_cancel_left (hids'.symm.trans hids)
  have hcount {c : CoordinatorEngine} {mission : Mission} : c.unassigned mission =
      (mission.plan.subTasks.map fun subTask => some subTask.id).countP
        fun x => x ∉ mission.workItemIds.map c.subTaskOf := by
    rw [List.countP_map]
    rfl
  have hsubTasks : (mission.plan.subTasks.map fun subTask => some subTask.id).Nodup := by
    have hnodup := mission.plan.nodup.map (Option.some_injective String)
    rwa [List.map_map] at hnodup
  have hlength : (items'.map c'.subTaskOf).length = items'.length := List.length_map _
  rw [hcount, hcount, hplan, hids, List.map_append, ← map_subTaskOf hgrows howns.stored, ← hlength]
  refine countP_not_mem_append hsubTasks hnodup (fun x hx => ?_) fun x hx => ?_
  · obtain ⟨id, hid, rfl⟩ := List.mem_map.mp hx
    obtain ⟨subTask, hst, hstored⟩ := howns'.items id (hids ▸ List.mem_append_right _ hid)
    exact hstored ▸ List.mem_map.mpr ⟨subTask, hplan ▸ hst, rfl⟩
  · obtain ⟨id, hid, rfl⟩ := List.mem_map.mp hx
    exact honce id hid

/-- A mission that goes on has no more passes left, apart from those its old items have lost. -/
lemma runsLeft_extends (hgrows : Grows c c') (hb : Bounded c') (howns : Owns c mission)
    (howns' : Owns c' mission') (hext : Extends c' mission mission') :
    c'.runsLeft mission' ≤ (mission.workItemIds.map c'.attemptsLeft).sum + 3 * c.unassigned mission := by
  obtain ⟨items, hids, -⟩ := hext.2
  have hunassigned := unassigned_extends hgrows howns howns' hext hids
  have hitems : (items.map c'.attemptsLeft).sum ≤ items.length * 3 := by
    have hle := List.sum_le_card_nsmul (items.map c'.attemptsLeft) 3 fun n hn => by
      obtain ⟨id, -, rfl⟩ := List.mem_map.mp hn
      exact hb.attemptsLeft_le id
    rwa [List.length_map] at hle
  rw [runsLeft, hids, List.map_append, List.sum_append]
  omega

lemma runsLeft_le (hgrows : Grows c c') (hb : Bounded c') (howns : Owns c mission)
    (howns' : Owns c' mission') (hext : Extends c' mission mission') :
    c'.runsLeft mission' ≤ c.runsLeft mission := by
  refine (runsLeft_extends hgrows hb howns howns' hext).trans (Nat.add_le_add_right ?_ _)
  refine List.sum_le_sum fun id hid => ?_
  obtain ⟨st, hstored⟩ := howns.stored id hid
  exact hgrows.attemptsLeft hstored

/-- A pass that runs an item is used up. -/
lemma runsLeft_ran (howns : Owns c mission) (h : Ran c mission id c') :
    c'.runsLeft mission < c.runsLeft mission := by
  refine (runsLeft_extends h.grows h.bounded howns (howns.grows h.grows)
    (Extends.of_eq c' rfl rfl)).trans_lt (Nat.add_lt_add_right ?_ _)
  refine List.sum_lt_sum _ _ (fun j hj => ?_) ⟨id, h.mem, h.attemptsLeft⟩
  obtain ⟨st, hstored⟩ := howns.stored j hj
  exact h.grows.attemptsLeft hstored

/-- As many results as sub-tasks: every sub-task has a result. -/
lemma length_results_iff (howns : Owns c mission) :
    mission.results.keys.length = mission.plan.subTasks.length ↔
      ∀ subTask ∈ mission.plan.subTasks, mission.results.contains subTask.id = true := by
  have hkeys : mission.results.keys.Nodup := mission.results.nodup
  have hmem {k : String} : k ∈ mission.results.keys ↔ mission.results.contains k = true := by
    rw [Dict.mem_keys_iff, Dict.contains_iff]
  have hsub : mission.results.keys ⊆ mission.plan.subTasks.map SubTask.id := fun k hk =>
    List.mem_map.mpr (howns.results k (hmem.mp hk))
  have hsubperm := List.subperm_of_subset hkeys hsub
  have hlength : (mission.plan.subTasks.map SubTask.id).length = mission.plan.subTasks.length :=
    List.length_map _
  rw [← hlength]
  constructor
  · intro heq subTask hst
    exact hmem.mp ((hsubperm.perm_of_length_le heq.ge).mem_iff.mpr (List.mem_map_of_mem hst))
  · intro hall
    refine (List.Perm.length_eq ?_)
    refine (List.perm_ext_iff_of_nodup hkeys mission.plan.nodup).mpr fun k => ⟨fun hk => hsub hk, ?_⟩
    rintro hk
    obtain ⟨subTask, hst, rfl⟩ := List.mem_map.mp hk
    exact hmem.mpr (hall subTask hst)

/-- The status in which a mission ends. -/
def finalStatus (mission : Mission) : MissionStatus :=
  if ∀ subTask ∈ mission.plan.subTasks, mission.results.contains subTask.id = true then .completed
  else .failed

lemma finished_status (howns : Owns c mission) (now : ℚ) :
    (finished mission now).status = finalStatus (finished mission now) := by
  unfold finished
  split
  · rename_i hlength
    exact (if_pos ((length_results_iff howns).mp hlength)).symm
  · rename_i hlength
    exact (if_neg fun hall => hlength ((length_results_iff howns).mpr hall)).symm

end CoordinatorEngine

namespace Platform

open CoordinatorEngine

/-! ### The loop -/

/-- One pass of a run: when it begins, what happens while an agent is awaited, and what that agent comes
to at which time. -/
structure Turn where
  now : ℚ
  meanwhile : List Op
  outcome : Except String AgentOutput
  ended : ℚ

/-- The agent is done. -/
def Turn.resume (turn : Turn) (r : ℕ) : Op :=
  match turn.outcome with
  | .ok output => .agentReturns r output turn.ended
  | .error error => .agentRaises r error turn.ended

/-- The item that the run takes next. -/
def nextItem (p : Platform) (r : ℕ) : Option Uuid := do
  let run ← p.runs r
  let mission ← p.coordinator.missions.get run.missionId
  let item ← p.coordinator.nextRunnableItem mission
  return item.id

/-- `run_mission` from the top of its loop to its return: the platform then, and the items it ran in
their order.  The fuel bounds the number of passes. -/
def runMission (clock : Uuid → ℚ) (r : ℕ) : ℕ → (ℕ → Turn) → Platform → Option (Platform × List Uuid)
  | 0, _, _ => none
  | fuel + 1, turns, p =>
      let started := p.step clock (.iterate r (turns 0).now)
      match started.runs r with
      | none => some (started, [])
      | some missionRun =>
          -- A pass that finds no agent goes back to the top without awaiting one.
          let next :=
            match missionRun.awaiting with
            | none => started
            | some _ => (run (step clock) started (turns 0).meanwhile).step clock ((turns 0).resume r)
          (runMission clock r fuel (fun k => turns (k + 1)) next).map fun ended =>
            (ended.1, (p.nextItem r).toList ++ ended.2)

/-- The run that something happens to, if it happens to one. -/
def Op.run : Op → Option ℕ
  | .begin r _ _ | .iterate r _ | .agentReturns r _ _ | .agentRaises r _ _ | .interrupt r => some r
  | _ => none

/-- What may happen while the run awaits an agent: it happens to the others, and is no human decision on
the mission. -/
def Spares (r : ℕ) (missionId : Uuid) (op : Op) : Prop := op.run ≠ some r ∧ Undecided missionId op

variable {p : Platform} {clock : Uuid → ℚ} {r : ℕ} {missionId : Uuid} {teamId : String}
  {mission : Mission}

lemma runs_step {op : Op} (h : op.run ≠ some r) : (p.step clock op).runs r = p.runs r := by
  have hne {r' : ℕ} (hop : op.run = some r') : r ≠ r' := fun heq => h (heq ▸ hop)
  cases op with
  | register | buildTeam => rfl
  | launch | decide =>
    unfold step
    dsimp only
    split
    · rfl
    · first
        | rfl
        | split <;> rfl
  | begin r' =>
    unfold step
    dsimp only
    split
    · exact turn_runs_of_ne (hne rfl)
    · rfl
  | iterate r' now =>
    unfold step
    dsimp only
    split
    · split
      · unfold iterate
        split
        · exact turn_runs_of_ne (hne rfl)
        · rfl
        · exact turn_runs_of_ne (hne rfl)
        · exact turn_runs_of_ne (hne rfl)
      · rfl
    · rfl
  | agentReturns r' =>
    unfold step
    dsimp only
    split
    · split
      · split <;> exact turn_runs_of_ne (hne rfl)
      · rfl
    · rfl
  | agentRaises r' =>
    unfold step
    dsimp only
    split
    · split
      · split <;> exact turn_runs_of_ne (hne rfl)
      · rfl
    · rfl
  | interrupt r' => exact turn_runs_of_ne (hne rfl)

/-- Teams stay. -/
lemma teams_step (op : Op) (h : ∃ team, p.teams.get teamId = some team) :
    ∃ team, (p.step clock op).teams.get teamId = some team := by
  have hsave (team : Team) : ∃ team', (p.teams.save team).get teamId = some team' := by
    rw [Store.get_save]
    split
    · exact ⟨team, rfl⟩
    · exact h
  cases op with
  | register | interrupt => exact h
  | buildTeam team => exact hsave team
  | launch =>
    unfold step
    dsimp only
    split <;> exact h
  | decide =>
    unfold step
    dsimp only
    split
    · exact h
    · split
      · exact h
      · exact hsave _
  | begin =>
    unfold step
    dsimp only
    split <;> exact h
  | iterate =>
    unfold step
    dsimp only
    split
    · split
      · unfold iterate
        split <;> exact h
      · exact h
    · exact h
  | agentReturns | agentRaises =>
    unfold step
    dsimp only
    split
    · split
      · split <;> exact h
      · exact h
    · exact h

/-- A mission went on: it is there, with one new item at most for each sub-task that had none, and no
item was lost. -/
structure WentOn (p : Platform) (mission : Mission) (p' : Platform) (mission' : Mission) : Prop where
  orderly : Orderly p'
  grows : Grows p.coordinator p'.coordinator
  found : p'.coordinator.missions.get mission.id = some mission'
  extended : Extends p'.coordinator mission mission'

lemma WentOn.owns {p' : Platform} {mission' : Mission} (h : WentOn p mission p' mission') :
    Owns p'.coordinator mission' := (h.orderly.tidy.owns _ _ h.found).2

lemma WentOn.id {p' : Platform} {mission' : Mission} (h : WentOn p mission p' mission') :
    mission'.id = mission.id := Store.key_of_get h.found

lemma WentOn.refl (h : Orderly p) (hmission : p.coordinator.missions.get mission.id = some mission) :
    WentOn p mission p mission :=
  ⟨h, .refl _, hmission, Extends.of_eq _ rfl rfl⟩

lemma WentOn.trans {p' p'' : Platform} {mission' mission'' : Mission} (h : WentOn p mission p' mission')
    (h' : WentOn p' mission' p'' mission'') : WentOn p mission p'' mission'' :=
  ⟨h'.orderly, h.grows.trans h'.grows, h.id ▸ h'.found, h.extended.trans h'.extended h'.grows h.owns⟩

/-- Whatever happens that is no human decision on it, a mission goes on. -/
lemma wentOn_step (clock : Uuid → ℚ) (h : Orderly p)
    (hmission : p.coordinator.missions.get mission.id = some mission) {op : Op}
    (hop : Undecided mission.id op) : ∃ mission', WentOn p mission (p.step clock op) mission' := by
  obtain ⟨horderly, hadvances, hkept⟩ := orderly_step clock h op
  obtain ⟨mission', hget, hextends⟩ := hkept mission.id hop mission hmission
  exact ⟨mission', horderly, hadvances.grows, hget, hextends⟩

/-- So it does while an agent is awaited, and the run awaits it still. -/
lemma wentOn_meanwhile (clock : Uuid → ℚ) {ops : List Op} : ∀ {p : Platform} {mission : Mission},
    Orderly p → p.coordinator.missions.get mission.id = some mission →
    (∃ team, p.teams.get teamId = some team) → (∀ op ∈ ops, Spares r mission.id op) →
    (∃ mission', WentOn p mission (run (step clock) p ops) mission') ∧
      (run (step clock) p ops).runs r = p.runs r ∧
      ∃ team, (run (step clock) p ops).teams.get teamId = some team := by
  induction ops with
  | nil => exact fun h hmission hteam _ => ⟨⟨_, .refl h hmission⟩, rfl, hteam⟩
  | cons op ops ih =>
    intro p mission h hmission hteam hspares
    obtain ⟨hrun, hundecided⟩ := hspares op List.mem_cons_self
    obtain ⟨mission', hfirst⟩ := wentOn_step clock h hmission hundecided
    obtain ⟨⟨mission'', hrest⟩, hruns, hteam'⟩ := ih hfirst.orderly (hfirst.id.symm ▸ hfirst.found)
      (teams_step op hteam) fun op' hop' => hfirst.id.symm ▸ hspares op' (List.mem_cons_of_mem _ hop')
    exact ⟨⟨mission'', hfirst.trans hrest⟩, hruns.trans (runs_step hrun), hteam'⟩

lemma undecided_resume (turn : Turn) (r : ℕ) (missionId : Uuid) :
    Undecided missionId (turn.resume r) := by
  unfold Turn.resume
  split <;> exact trivial

/-- A run that awaits an agent comes back to the top of its loop, whatever the agent comes to. -/
lemma runs_resume (clock : Uuid → ℚ) (h : Orderly p) {missionRun : MissionRun} {id : Uuid} {subTask : SubTask}
    (hrun : p.runs r = some missionRun) (hawait : missionRun.awaiting = some (id, subTask))
    (hteam : ∃ team, p.teams.get missionRun.teamId = some team) (turn : Turn) :
    ∃ missionRun', (p.step clock (turn.resume r)).runs r = some missionRun' ∧
      missionRun'.missionId = missionRun.missionId ∧ missionRun'.teamId = missionRun.teamId ∧
      missionRun'.awaiting = none := by
  obtain ⟨mission, hmission, hitem⟩ := h.runs r missionRun hrun
  obtain ⟨team, hteam⟩ := hteam
  obtain ⟨st, hstored⟩ := (h.tidy.owns _ _ hmission).2.stored id (hitem id subTask hawait).2
  unfold Turn.resume
  cases turn.outcome with
  | ok output =>
    obtain ⟨workQueue, hmark⟩ : ∃ workQueue,
        p.coordinator.workQueue.markDone id output turn.ended = .ok workQueue := update_ok hstored _ _
    simp only [step, hrun, hawait, hmission, hteam, agentReturned, hmark, bind, Except.bind, pure,
      Except.pure]
    exact ⟨_, turn_runs_self _ _ _, rfl, rfl, rfl⟩
  | error error =>
    obtain ⟨workQueue, hmark⟩ : ∃ workQueue,
        p.coordinator.workQueue.markFailed id error turn.ended = .ok workQueue := update_ok hstored _ _
    simp only [step, hrun, hawait, agentRaised, hmark, bind, Except.bind, pure, Except.pure]
    exact ⟨_, turn_runs_self _ _ _, rfl, rfl, rfl⟩

/-! ### The run ends -/

/-- The run of the mission is at the top of its loop. -/
structure AtTop (p : Platform) (r : ℕ) (teamId : String) (mission : Mission) : Prop where
  orderly : Orderly p
  found : p.coordinator.missions.get mission.id = some mission
  team : ∃ team, p.teams.get teamId = some team
  run : ∃ missionRun, p.runs r = some missionRun ∧ missionRun.missionId = mission.id ∧
    missionRun.teamId = teamId ∧ missionRun.awaiting = none

/-- What the run has done when it ends: every item it ran is one of the mission, was run no less often
than that, and the mission ended in the status that its results call for. -/
structure Ended (p : Platform) (r : ℕ) (mission : Mission) (p' : Platform) (mission' : Mission)
    (ran : List Uuid) : Prop where
  wentOn : WentOn p mission p' mission'
  returned : p'.runs r = none
  items : ∀ id ∈ ran, id ∈ mission'.workItemIds
  attempts : ∀ id, ran.count id + p.coordinator.attemptsOf id ≤ p'.coordinator.attemptsOf id
  status : mission'.status = finalStatus mission'

/-- One pass more. -/
lemma Ended.cons {q p' : Platform} {mission' mission'' : Mission} {ran : List Uuid} {id : Uuid}
    (h : Ended q r mission' p' mission'' ran) (hnext : WentOn p mission q mission')
    (hid : id ∈ mission.workItemIds)
    (hattempts : p.coordinator.attemptsOf id + 1 ≤ q.coordinator.attemptsOf id) :
    Ended p r mission p' mission'' (id :: ran) where
  wentOn := hnext.trans h.wentOn
  returned := h.returned
  items j hj := by
    rcases List.mem_cons.mp hj with rfl | hj
    · obtain ⟨-, items, hids, -⟩ := (hnext.trans h.wentOn).extended
      exact hids ▸ List.mem_append_left _ hid
    · exact h.items j hj
  attempts j := by
    have hlater := h.attempts j
    by_cases hj : j = id
    · subst hj
      rw [List.count_cons_self]
      omega
    · have hgrown := hnext.grows.attemptsOf j
      rw [List.count_cons_of_ne (Ne.symm hj)]
      omega
  status := h.status

/-- What one pass of the run comes to. -/
lemma step_iterate (clock : Uuid → ℚ) (h : AtTop p r teamId mission) (now : ℚ) : ∃ missionRun, p.runs r = some missionRun ∧
    missionRun.missionId = mission.id ∧ missionRun.teamId = teamId ∧ missionRun.awaiting = none ∧
    p.step clock (.iterate r now) = p.iterate r missionRun mission now ∧
    p.nextItem r = (p.coordinator.nextRunnableItem mission).map (·.id) := by
  obtain ⟨missionRun, hrun, hid, hteam, hawait⟩ := h.run
  have hmission : p.coordinator.missions.get missionRun.missionId = some mission := hid ▸ h.found
  refine ⟨missionRun, hrun, hid, hteam, hawait, ?_, ?_⟩
  · simp only [step, hrun, hawait, hmission]
  · simp only [nextItem, hrun, hmission, Option.bind_eq_bind, Option.bind_some, pure, Option.map_eq_bind]
    rfl

/-- **The loop ends** before more passes than there were left, whatever the agents come to. -/
theorem runMission_ended (clock : Uuid → ℚ) (r : ℕ) (teamId : String) : ∀ (fuel : ℕ) (turns : ℕ → Turn)
    {p : Platform} {mission : Mission}, AtTop p r teamId mission →
    (∀ k, ∀ op ∈ (turns k).meanwhile, Spares r mission.id op) →
    p.coordinator.runsLeft mission < fuel →
    ∃ p' mission' ran, runMission clock r fuel turns p = some (p', ran) ∧
      Ended p r mission p' mission' ran
  | 0, _, _, _, _, _, hfuel => absurd hfuel (Nat.not_lt_zero _)
  | fuel + 1, turns, p, mission, h, hturns, hfuel => by
      obtain ⟨missionRun, hrun, hid, hteam, hawait, hiterate, hitem⟩ :=
        step_iterate clock h (turns 0).now
      obtain ⟨mission₁, hstarted⟩ := wentOn_step clock h.orderly h.found
        (show Undecided mission.id (.iterate r (turns 0).now) from trivial)
      obtain ⟨-, howns⟩ := h.orderly.tidy.owns _ _ h.found
      have hpass := pass_spec h.orderly.tidy.bounded howns (turns 0).now
      -- The passes that follow, from wherever this one leads back to the top.
      have hrest {q : Platform} {mission₁ : Mission} {item : WorkItem} {c : CoordinatorEngine}
          (htop : AtTop q r teamId mission₁) (hwentOn : WentOn p mission q mission₁)
          (hran : Ran p.coordinator mission item.id c) (hgrows : Grows c q.coordinator)
          (hleft : q.coordinator.runsLeft mission₁ ≤ c.runsLeft mission) :
          ∃ p' mission' ran, runMission clock r fuel (fun k => turns (k + 1)) q = some (p', ran) ∧
            Ended p r mission p' mission' (item.id :: ran) := by
        obtain ⟨p', mission', ran, hended, hdone⟩ := runMission_ended clock r teamId fuel
          (fun k => turns (k + 1)) htop (fun k => hwentOn.id.symm ▸ hturns (k + 1))
          (hleft.trans_lt ((runsLeft_ran howns hran).trans_le (Nat.le_of_lt_succ hfuel)))
        exact ⟨p', mission', ran, hended, hdone.cons hwentOn hran.mem
          (hran.attemptsOf ▸ hgrows.attemptsOf item.id)⟩
      rw [hiterate] at hstarted
      simp only [runMission, hiterate]
      unfold iterate at hstarted ⊢
      cases hp : p.coordinator.pass mission (turns 0).now with
      | finished c =>
        rw [hp] at hpass
        simp only [hp] at hstarted ⊢
        obtain ⟨-, rfl⟩ := hpass
        refine ⟨_, mission₁, [], by rw [turn_runs_self], hstarted, turn_runs_self _ _ _,
          fun _ hj => absurd hj List.not_mem_nil, fun j => ?_, ?_⟩
        · rw [List.count_nil, Nat.zero_add]
          exact hstarted.grows.attemptsOf j
        · have hid' := (finished_same mission (turns 0).now).1
          have hfound : (p.coordinator.missions.save (finished mission (turns 0).now)).get mission.id =
              some (finished mission (turns 0).now) := by rw [Store.get_save, if_pos hid'.symm]
          obtain rfl := Option.some.inj (hstarted.found.symm.trans hfound)
          exact finished_status howns _
      | agentMissing c =>
        rw [hp] at hpass
        simp only [hp] at hstarted ⊢
        obtain ⟨item, hnext, hran⟩ := hpass
        obtain rfl : mission₁ = mission :=
          Option.some.inj (hstarted.found.symm.trans (hran.missions ▸ h.found))
        obtain ⟨p', mission', ran, hended, hdone⟩ :=
          hrest ⟨hstarted.orderly, hstarted.found, h.team, missionRun, hrun, hid, hteam, hawait⟩ hstarted
            hran (.refl c) le_rfl
        refine ⟨p', mission', item.id :: ran, ?_, hdone⟩
        simp only [hrun, hawait, hended, hitem, hnext, Option.map_some, Option.toList_some,
          List.singleton_append]
      | awaits c item subTask =>
        rw [hp] at hpass
        simp only [hp] at hstarted ⊢
        obtain ⟨hnext, hran, -⟩ := hpass
        obtain rfl : mission₁ = mission :=
          Option.some.inj (hstarted.found.symm.trans (hran.missions ▸ h.found))
        obtain ⟨⟨mission₂, hmeanwhile⟩, hruns, hteams⟩ :=
          wentOn_meanwhile clock hstarted.orderly hstarted.found h.team (hturns 0)
        obtain ⟨missionRun', hrun', hid', hteam', hawait'⟩ := runs_resume clock
          hmeanwhile.orderly (hruns.trans (turn_runs_self _ _ _)) rfl (hteam ▸ hteams) (turns 0)
        obtain ⟨mission₃, hresumed⟩ := wentOn_step clock hmeanwhile.orderly
          (hmeanwhile.id.symm ▸ hmeanwhile.found) (undecided_resume (turns 0) r mission₂.id)
        have hwentOn := hmeanwhile.trans hresumed
        obtain ⟨p', mission', ran, hended, hdone⟩ :=
          hrest ⟨hresumed.orderly, hresumed.id.symm ▸ hresumed.found, teams_step _ hteams, missionRun', hrun',
              hid'.trans (hid.trans hwentOn.id.symm), hteam'.trans hteam, hawait'⟩
            (hstarted.trans hwentOn) hran hwentOn.grows
            (runsLeft_le hwentOn.grows hwentOn.orderly.tidy.bounded hstarted.owns hwentOn.owns
              hwentOn.extended)
        refine ⟨p', mission', item.id :: ran, ?_, hdone⟩
        simp only [turn_runs_self, hended, hitem, hnext, Option.map_some, Option.toList_some,
          List.singleton_append]
      | raised e =>
        rw [hp] at hpass
        exact hpass.elim

/-- **A run of a mission ends.**  Whatever happened before, one call of `run_mission` returns whatever its
agents come to and whatever happens meanwhile, a human decision on the mission apart.  It ran items of
the mission only, and each of them as often as it may be at most; the mission got one new item at most
for each sub-task that had none; and it is completed if every sub-task has a result, and failed if not. -/
theorem runMission_ends (clock : Uuid → ℚ) (agents : List String) (ops : List Op) {r : ℕ}
    {missionId : Uuid} {teamId : String} {p : Platform} {mission : Mission} {team : Team}
    (turns : ℕ → Turn) (hp : p = run (step clock) (initial agents) ops) (hrun : p.runs r = none)
    (hmission : p.coordinator.missions.get missionId = some mission)
    (hteam : p.teams.get teamId = some team)
    (hturns : ∀ k, ∀ op ∈ (turns k).meanwhile, Spares r missionId op) :
    ∃ p' mission' ran,
      runMission clock r (p.coordinator.runsLeft mission + 1) turns
        (p.step clock (.begin r missionId teamId)) = some (p', ran) ∧
      p'.runs r = none ∧ p'.coordinator.missions.get missionId = some mission' ∧
      (∀ id ∈ ran, id ∈ mission'.workItemIds ∧ ∀ otherId other,
        p'.coordinator.missions.get otherId = some other → id ∈ other.workItemIds →
          otherId = missionId) ∧
      (∀ id item, p'.coordinator.workQueue.get id = some item → ran.count id ≤ item.maxAttempts) ∧
      (∃ items, mission'.workItemIds = mission.workItemIds ++ items ∧
        Once p'.coordinator mission.workItemIds items) ∧
      mission'.status =
        if ∀ subTask ∈ mission.plan.subTasks, mission'.results.contains subTask.id = true then .completed
        else .failed := by
  have horderly : Orderly p := hp ▸ orderly_run clock agents ops
  obtain rfl := Store.key_of_get hmission
  obtain ⟨-, howns⟩ := horderly.tidy.owns _ _ hmission
  obtain ⟨mission₁, hbegun⟩ := wentOn_step clock horderly hmission
    (show Undecided mission.id (.begin r mission.id teamId) from trivial)
  have hruns : (p.step clock (.begin r mission.id teamId)).runs r = some
      { missionId := mission.id, teamId,
        missionContext := (∅ : Dict String String).set "case_summary" mission.requestDescription } := by
    simp only [step, hrun, beginRun, require, hmission, bind, Except.bind, pure, Except.pure]
    exact turn_runs_self _ _ _
  have htop : AtTop (p.step clock (.begin r mission.id teamId)) r teamId mission₁ :=
    ⟨hbegun.orderly, hbegun.id.symm ▸ hbegun.found, teams_step _ ⟨team, hteam⟩, _, hruns, hbegun.id.symm,
      rfl, rfl⟩
  have hleft := runsLeft_le hbegun.grows hbegun.orderly.tidy.bounded howns hbegun.owns hbegun.extended
  obtain ⟨p', mission', ran, hended, hdone⟩ := runMission_ended clock r teamId _ turns htop
    (hbegun.id.symm ▸ hturns) (Nat.lt_succ_of_le hleft)
  have hwentOn := hbegun.trans hdone.wentOn
  have htidy := hwentOn.orderly.tidy
  refine ⟨p', mission', ran, hended, hdone.returned, hwentOn.found, fun id hid => ⟨hdone.items id hid, ?_⟩,
    fun id item hget => ?_, hwentOn.extended.2, ?_⟩
  · intro otherId other hother hid'
    exact htidy.apart _ _ _ _ id hother hwentOn.found hid' (hdone.items id hid)
  · have hattempts := (Nat.le_add_right _ _).trans (hdone.attempts id)
    rw [(htidy.bounded id item hget).2.1]
    exact hattempts.trans (htidy.bounded.attemptsOf_le id)
  · rw [hdone.status, finalStatus, hwentOn.extended.1]

/-- A mission of two steps is launched; the team has an agent for the first one only. -/
def oneAgent : Platform :=
  run (step fun id => id) (initial ["a"]) [.register ⟨"a", .documentAnalyst⟩,
    .buildTeam { id := "t", memberAgentIds := ["a"] }, .launch "firm" "lease" "t" twoSteps]

/-- The mission as it was launched. -/
def launched : Mission :=
  { newMission 0 "firm" "lease" { id := "t", memberAgentIds := ["a"] } twoSteps with workItemIds := [1] }

/-- The agent returns, while another run of the mission begins. -/
def returns : Turn := ⟨1, [.begin 1 0 "t", .iterate 1 1], .ok {}, 2⟩

theorem runMission_ends_oneAgent : ∃ p' mission' ran,
    runMission (fun id => id) 0 (oneAgent.coordinator.runsLeft launched + 1) (fun _ => returns)
      (oneAgent.step (fun id => id) (.begin 0 0 "t")) = some (p', ran) ∧
    p'.coordinator.missions.get 0 = some mission' ∧
    mission'.status =
      if ∀ subTask ∈ launched.plan.subTasks, mission'.results.contains subTask.id = true then .completed
      else .failed := by
  obtain ⟨p', mission', ran, hended, -, hget, -, -, -, hstatus⟩ :=
    runMission_ends (fun id => id) ["a"] _ (fun _ => returns) (rfl : oneAgent = _)
      (rfl : oneAgent.runs 0 = none) (rfl : oneAgent.coordinator.missions.get 0 = some launched)
      (rfl : oneAgent.teams.get "t" = some { id := "t", memberAgentIds := ["a"] }) fun k op hop => by
        simp only [returns, List.mem_cons, List.not_mem_nil, or_false] at hop
        rcases hop with rfl | rfl <;> exact ⟨by decide, trivial⟩
  exact ⟨p', mission', ran, hended, hget, hstatus⟩

/-- The item that has no agent is run three times. -/
example : (runMission (fun id => id) 0 (oneAgent.coordinator.runsLeft launched + 1) (fun _ => returns)
    (oneAgent.step (fun id => id) (.begin 0 0 "t"))).map Prod.snd = some [1, 2, 2, 2] := by
  decide +kernel

end Platform

end Tmis.AiTeam
