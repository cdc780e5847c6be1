import Tmis.AiTeam.Dependencies

/-!
# The work items of missions

Whatever happens, work items stay with the mission they were made for, and are run as often as they
may be at most.

* `Grows` — no item is lost, and none may be run more often than before;
* `Bounded`, `Owns`, `Tidy` — what holds of the items, of a mission, and of the engine;
* `Once`, `Extends` — a mission that got one new item at most for each sub-task that had none;
* `Advances`, `orderly_step` — what happens keeps the engine tidy, and extends every mission that no
  human decides on.
-/

namespace Tmis.AiTeam

open Tmis.Lib

namespace CoordinatorEngine

variable {c c' c'' : CoordinatorEngine} {mission mission' mission'' : Mission} {id : Uuid}

/-- The sub-task that the item was made for. -/
def subTaskOf (c : CoordinatorEngine) (id : Uuid) : Option String :=
  (c.workQueue.get id).map (·.payload.subTaskId)

/-- How often the item was run. -/
def attemptsOf (c : CoordinatorEngine) (id : Uuid) : ℕ := ((c.workQueue.get id).map (·.attempts)).getD 0

/-- How often the item may still be run. -/
def attemptsLeft (c : CoordinatorEngine) (id : Uuid) : ℕ :=
  ((c.workQueue.get id).map fun item => item.maxAttempts - item.attempts).getD 0

/-! ### Items -/

/-- The item went on: it is for the same sub-task, and was run as often as before or more often. -/
def Grown (item item' : WorkItem) : Prop :=
  item'.payload = item.payload ∧ item'.maxAttempts = item.maxAttempts ∧ item.attempts ≤ item'.attempts

/-- Every item that is there went on. -/
structure Grows (c c' : CoordinatorEngine) : Prop where
  uuids : c.uuids ≤ c'.uuids
  items : ∀ id item, c.workQueue.get id = some item →
    ∃ item', c'.workQueue.get id = some item' ∧ Grown item item'

lemma Grown.refl (item : WorkItem) : Grown item item := ⟨rfl, rfl, le_rfl⟩

lemma Grown.trans {x y z : WorkItem} (h : Grown x y) (h' : Grown y z) : Grown x z :=
  ⟨h'.1.trans h.1, h'.2.1.trans h.2.1, h.2.2.trans h'.2.2⟩

lemma Grown.failed (item : WorkItem) (error : String) (now : ℚ) : Grown item (item.failed error now) := by
  unfold Item.failed
  split <;> exact ⟨rfl, rfl, le_rfl⟩

lemma Grows.refl (c : CoordinatorEngine) : Grows c c :=
  ⟨le_rfl, fun _ item hget => ⟨item, hget, .refl item⟩⟩

lemma Grows.trans (h : Grows c c') (h' : Grows c' c'') : Grows c c'' where
  uuids := h.uuids.trans h'.uuids
  items id item hget := by
    obtain ⟨item', hget', hgrown⟩ := h.items id item hget
    obtain ⟨item'', hget'', hgrown'⟩ := h'.items id item' hget'
    exact ⟨item'', hget'', hgrown.trans hgrown'⟩

/-- Saving a mission changes no item. -/
lemma Grows.save (h : Grows c c') (missions : Store Uuid Mission Mission.id) :
    Grows c { c' with missions } := ⟨h.uuids, h.items⟩

lemma Grows.subTaskOf (h : Grows c c') {s : String} (hid : c.subTaskOf id = some s) :
    c'.subTaskOf id = some s := by
  obtain ⟨item, hget, rfl⟩ := Option.map_eq_some_iff.mp hid
  obtain ⟨item', hget', hpayload, -⟩ := h.items id item hget
  rw [CoordinatorEngine.subTaskOf, hget', Option.map_some, hpayload]

lemma Grows.attemptsOf (h : Grows c c') (id : Uuid) : c.attemptsOf id ≤ c'.attemptsOf id := by
  unfold CoordinatorEngine.attemptsOf
  cases hget : c.workQueue.get id with
  | none => exact Nat.zero_le _
  | some item =>
    obtain ⟨item', hget', -, -, hattempts⟩ := h.items id item hget
    rw [hget']
    exact hattempts

/-- Items that are there may not be run more often than before. -/
lemma Grows.attemptsLeft (h : Grows c c') {s : String} (hid : c.subTaskOf id = some s) :
    c'.attemptsLeft id ≤ c.attemptsLeft id := by
  obtain ⟨item, hget, -⟩ := Option.map_eq_some_iff.mp hid
  obtain ⟨item', hget', -, hmax, hattempts⟩ := h.items id item hget
  rw [CoordinatorEngine.attemptsLeft, CoordinatorEngine.attemptsLeft, hget, hget', Option.map_some,
    Option.map_some, hmax]
  exact Nat.sub_le_sub_left hattempts _

/-- The item was run three times at most, and only twice if it waits. -/
def WithinAttempts (item : WorkItem) : Prop :=
  item.maxAttempts = 3 ∧ item.attempts ≤ 3 ∧ (item.Runnable → item.attempts < 3)

/-- Every item is drawn, and was run as often as it may be at most. -/
def Bounded (c : CoordinatorEngine) : Prop :=
  ∀ id item, c.workQueue.get id = some item → id < c.uuids ∧ WithinAttempts item

lemma WithinAttempts.failed {item : WorkItem} (h : WithinAttempts item) (error : String) (now : ℚ) :
    WithinAttempts (item.failed error now) := by
  obtain ⟨hmax, hattempts, -⟩ := h
  unfold Item.failed
  split
  · rename_i hlt
    exact ⟨hmax, hattempts, fun _ => hmax ▸ hlt⟩
  · exact ⟨hmax, hattempts, fun hrunnable => absurd hrunnable (by simp [Item.Runnable])⟩

lemma Bounded.attemptsOf_le (h : Bounded c) (id : Uuid) : c.attemptsOf id ≤ 3 := by
  unfold CoordinatorEngine.attemptsOf
  cases hget : c.workQueue.get id with
  | none => exact Nat.zero_le _
  | some item => exact (h id item hget).2.2.1

lemma Bounded.attemptsLeft_le (h : Bounded c) (id : Uuid) : c.attemptsLeft id ≤ 3 := by
  unfold CoordinatorEngine.attemptsLeft
  cases hget : c.workQueue.get id with
  | none => exact Nat.zero_le _
  | some item => exact (Nat.sub_le _ _).trans (h id item hget).2.1.le

section Update

variable {f : WorkItem → WorkItem} {hf : ∀ x, (f x).id = x.id} {workQueue : InMemoryWorkQueue}

lemma grows_update (h : c.workQueue.update id f hf = .ok workQueue) (hgrown : ∀ x, Grown x (f x)) :
    Grows c { c with workQueue } := by
  refine ⟨le_rfl, fun j item hget => ?_⟩
  have hget' := RetryQueue.get_update h j
  rw [hget] at hget'
  split at hget'
  · exact ⟨f item, hget', hgrown item⟩
  · exact ⟨item, hget', .refl item⟩

lemma bounded_update (h : c.workQueue.update id f hf = .ok workQueue) (hb : Bounded c)
    (hitem : ∀ item, c.workQueue.get id = some item → WithinAttempts item → WithinAttempts (f item)) :
    Bounded { c with workQueue } := by
  intro j item' hget
  rw [RetryQueue.get_update h] at hget
  split at hget
  · subst j
    obtain ⟨item, hitem', rfl⟩ := Option.map_eq_some_iff.mp hget
    exact ⟨(hb id item hitem').1, hitem item hitem' (hb id item hitem').2⟩
  · exact hb j item' hget

/-- An item that is there can be marked. -/
lemma update_ok {s : String} (hid : c.subTaskOf id = some s) (f : WorkItem → WorkItem)
    (hf : ∀ x, (f x).id = x.id) : ∃ workQueue, c.workQueue.update id f hf = .ok workQueue := by
  obtain ⟨item, hget, -⟩ := Option.map_eq_some_iff.mp hid
  exact ⟨_, by rw [RetryQueue.update, hget]⟩

end Update

/-! ### Missions -/

/-- The items of a mission are distinct, each was made for a sub-task of its plan, and its results are
of such sub-tasks. -/
structure Owns (c : CoordinatorEngine) (mission : Mission) : Prop where
  nodup : mission.workItemIds.Nodup
  items : ∀ id ∈ mission.workItemIds, ∃ subTask ∈ mission.plan.subTasks, c.subTaskOf id = some subTask.id
  results : ∀ k, mission.results.contains k = true → ∃ subTask ∈ mission.plan.subTasks, subTask.id = k

lemma Owns.grows (h : Owns c mission) (hgrows : Grows c c') : Owns c' mission where
  nodup := h.nodup
  items id hid := (h.items id hid).imp fun _ hst => ⟨hst.1, hgrows.subTaskOf hst.2⟩
  results := h.results

/-- The items are for different sub-tasks, and none of these has an item among the earlier ones. -/
def Once (c : CoordinatorEngine) (earlier items : List Uuid) : Prop :=
  (items.map c.subTaskOf).Nodup ∧ ∀ id ∈ items, c.subTaskOf id ∉ earlier.map c.subTaskOf

/-- The mission got new items, one at most for each sub-task that had none. -/
def Extends (c : CoordinatorEngine) (mission mission' : Mission) : Prop :=
  mission'.plan = mission.plan ∧
    ∃ items, mission'.workItemIds = mission.workItemIds ++ items ∧ Once c mission.workItemIds items

/-- A mission that got no item. -/
lemma Extends.of_eq (c : CoordinatorEngine) (hplan : mission'.plan = mission.plan)
    (hids : mission'.workItemIds = mission.workItemIds) : Extends c mission mission' :=
  ⟨hplan, [], by rw [hids, List.append_nil], List.nodup_nil, fun _ h => absurd h List.not_mem_nil⟩

lemma map_subTaskOf (hgrows : Grows c c') {ids : List Uuid}
    (hids : ∀ id ∈ ids, ∃ s, c.subTaskOf id = some s) : ids.map c'.subTaskOf = ids.map c.subTaskOf :=
  List.map_congr_left fun id hid => by
    obtain ⟨s, hs⟩ := hids id hid
    rw [hs, hgrows.subTaskOf hs]

lemma Owns.stored (h : Owns c mission) : ∀ id ∈ mission.workItemIds, ∃ s, c.subTaskOf id = some s :=
  fun id hid => (h.items id hid).imp' SubTask.id fun _ hst => hst.2

lemma Extends.trans (h : Extends c' mission mission') (h' : Extends c'' mission' mission'')
    (hgrows : Grows c' c'') (howns : Owns c' mission') : Extends c'' mission mission'' := by
  obtain ⟨hplan, items, hids, hnodup, honce⟩ := h
  obtain ⟨hplan', items', hids', hnodup', honce'⟩ := h'
  have hsame := map_subTaskOf hgrows howns.stored
  rw [hids, List.map_append, List.map_append] at hsame
  obtain ⟨hearlier, hitems⟩ := List.append_inj hsame (by simp)
  refine ⟨hplan'.trans hplan, items ++ items', by rw [hids', hids, List.append_assoc], ?_, ?_⟩
  · rw [List.map_append, hitems]
    refine hnodup.append hnodup' fun s hs hs' => ?_
    obtain ⟨id, hid, rfl⟩ := List.mem_map.mp hs'
    refine honce' id hid ?_
    rw [hids, List.map_append, hitems]
    exact List.mem_append_right _ hs
  · intro id hid hmem
    rcases List.mem_append.mp hid with hid | hid
    · refine honce id hid ?_
      have hid' : c''.subTaskOf id = c'.subTaskOf id :=
        List.map_inj_left.mp hitems id hid
      rwa [hearlier, hid'] at hmem
    · refine honce' id hid ?_
      rw [hids, List.map_append]
      exact List.mem_append_left _ hmem

/-! ### Delegation -/

section Delegation

variable {clock : Uuid → ℚ} {team : Team} {subTask : SubTask} {priority : ℤ}
  {s : CoordinatorEngine × Mission} {items : List Uuid}

/-- A delegation went through: the mission got the items, made for sub-tasks of its plan and drawn
since. -/
structure Adds (c : CoordinatorEngine) (mission : Mission) (items : List Uuid)
    (s : CoordinatorEngine × Mission) : Prop where
  delegated : Delegated c mission s
  bounded : Bounded s.1
  ids : s.2.workItemIds = mission.workItemIds ++ items
  nodup : items.Nodup
  drawn : ∀ id ∈ items, c.uuids ≤ id
  made : ∀ id ∈ items, ∃ subTask ∈ mission.plan.subTasks, s.1.subTaskOf id = some subTask.id

lemma Adds.refl (hb : Bounded c) (mission : Mission) : Adds c mission [] (c, mission) :=
  ⟨.refl c mission, hb, (List.append_nil _).symm, List.nodup_nil, fun _ h => absurd h List.not_mem_nil,
    fun _ h => absurd h List.not_mem_nil⟩

lemma Delegated.grows (h : Delegated c mission s) (hb : Bounded c) : Grows c s.1 :=
  ⟨h.follows.uuids, fun id item hget => ⟨item, by rw [h.kept id (hb id item hget).1, hget], .refl item⟩⟩

lemma Adds.grows (h : Adds c mission items s) (hb : Bounded c) : Grows c s.1 := h.delegated.grows hb

lemma Adds.stored (h : Adds c mission items s) : ∀ id ∈ items, ∃ st, s.1.subTaskOf id = some st :=
  fun id hid => (h.made id hid).imp' SubTask.id fun _ hst => hst.2

lemma grows_delegate (hb : Bounded c) :
    Grows c (c.delegate clock mission subTask team priority).1 :=
  ⟨Nat.le_succ _, fun id item hget => ⟨item, by rw [get_delegate id (hb id item hget).1, hget], .refl item⟩⟩

lemma subTaskOf_delegate :
    (c.delegate clock mission subTask team priority).1.subTaskOf c.uuids = some subTask.id := by
  rw [subTaskOf, delegate, RetryQueue.get_enqueue, if_pos rfl]
  rfl

lemma bounded_delegate (hb : Bounded c) :
    Bounded (c.delegate clock mission subTask team priority).1 := by
  intro id item hget
  rw [delegate, RetryQueue.get_enqueue] at hget
  split at hget
  · rename_i hid
    cases hget
    subst hid
    exact ⟨Nat.lt_succ_self _, rfl, Nat.zero_le _, fun _ => Nat.succ_pos 2⟩
  · exact ⟨(hb id item hget).1.trans (Nat.lt_succ_self _), (hb id item hget).2⟩

/-- One more delegation. -/
lemma Adds.delegate (h : Adds c mission items s) (hst : subTask ∈ mission.plan.subTasks)
    (results : Dict String AgentOutput) :
    Adds c mission (items ++ [s.1.uuids])
      (s.1.delegate clock { s.2 with results } subTask team priority) where
  delegated := h.delegated.delegate results
  bounded := bounded_delegate h.bounded
  ids := by
    change s.2.workItemIds ++ [s.1.uuids] = _
    rw [h.ids, List.append_assoc]
  nodup := by
    refine h.nodup.append (List.nodup_singleton _) fun id hid hnew => ?_
    obtain ⟨st, hstored⟩ := h.stored id hid
    obtain ⟨item, hget, -⟩ := Option.map_eq_some_iff.mp hstored
    exact absurd (h.bounded id item hget).1 (List.mem_singleton.mp hnew ▸ lt_irrefl _)
  drawn id hid := by
    rcases List.mem_append.mp hid with hid | hid
    · exact h.drawn id hid
    · exact List.mem_singleton.mp hid ▸ h.delegated.follows.uuids
  made id hid := by
    rcases List.mem_append.mp hid with hid | hid
    · exact (h.made id hid).imp fun _ hst => ⟨hst.1, (grows_delegate h.bounded).subTaskOf hst.2⟩
    · exact ⟨subTask, hst, List.mem_singleton.mp hid ▸ subTaskOf_delegate⟩

variable (clock team) in
/-- The loop of `_enqueue_ready_subtasks` over the sub-tasks that are left: the items that were made and
the sub-tasks that are left are for different sub-tasks. -/
lemma enqueueLoop_adds (enqueuedSubTaskIds : List String)
    (step : CoordinatorEngine × Mission → SubTask → CoordinatorEngine × Mission)
    (hstep : ∀ s subTask, step s subTask = s ∨ (subTask.id ∉ enqueuedSubTaskIds ∧
      ∃ priority, step s subTask = s.1.delegate clock s.2 subTask team priority)) :
    ∀ {left : List SubTask} {s : CoordinatorEngine × Mission} {items : List Uuid},
      Adds c mission items s → (∀ subTask ∈ left, subTask ∈ mission.plan.subTasks) →
      (items.map s.1.subTaskOf ++ left.map fun subTask => some subTask.id).Nodup →
      (∀ id ∈ items, ∀ subTaskId ∈ enqueuedSubTaskIds, s.1.subTaskOf id ≠ some subTaskId) →
      ∃ items', Adds c mission items' (left.foldl step s) ∧
        (left.foldl step s).2.results = s.2.results ∧
        (items'.map (left.foldl step s).1.subTaskOf).Nodup ∧
        ∀ id ∈ items', ∀ subTaskId ∈ enqueuedSubTaskIds,
          (left.foldl step s).1.subTaskOf id ≠ some subTaskId
  | [], s, items, hadds, _, hnodup, hnew => by
      rw [List.map_nil, List.append_nil] at hnodup
      exact ⟨items, hadds, rfl, hnodup, hnew⟩
  | subTask :: left, s, items, hadds, hplan, hnodup, hnew => by
      have hplan' : ∀ st ∈ left, st ∈ mission.plan.subTasks := fun st hst =>
        hplan st (List.mem_cons_of_mem _ hst)
      rw [List.foldl_cons]
      rcases hstep s subTask with hskip | ⟨hfresh, priority, hdelegate⟩
      · rw [hskip]
        refine enqueueLoop_adds enqueuedSubTaskIds step hstep hadds hplan' (hnodup.sublist ?_) hnew
        exact List.Sublist.append_left (List.sublist_cons_self _ _) _
      · rw [hdelegate]
        have hadds' : Adds c mission (items ++ [s.1.uuids])
            (s.1.delegate clock s.2 subTask team priority) :=
          hadds.delegate (hplan subTask List.mem_cons_self) s.2.results
        have hkept : items.map (s.1.delegate clock s.2 subTask team priority).1.subTaskOf =
            items.map s.1.subTaskOf := map_subTaskOf (grows_delegate hadds.bounded) hadds.stored
        refine enqueueLoop_adds enqueuedSubTaskIds step hstep hadds' hplan' ?_ fun id hid subTaskId hmem => ?_
        · rwa [List.map_append, hkept, List.map_singleton, subTaskOf_delegate, List.append_assoc]
        · rcases List.mem_append.mp hid with hid | hid
          · rw [List.map_inj_left.mp hkept id hid]
            exact hnew id hid subTaskId hmem
          · rw [List.mem_singleton.mp hid, subTaskOf_delegate]
            exact fun heq => hfresh (Option.some.inj heq ▸ hmem)

lemma subTaskIds_workItems {s : String} :
    s ∈ (c.workItems mission).map (·.payload.subTaskId) ↔
      some s ∈ mission.workItemIds.map c.subTaskOf := by
  simp only [List.mem_map, mem_workItems, subTaskOf, Option.map_eq_some_iff]
  constructor
  · rintro ⟨item, ⟨id, hid, hget⟩, rfl⟩
    exact ⟨id, hid, item, hget, rfl⟩
  · rintro ⟨id, hid, item, hget, rfl⟩
    exact ⟨item, ⟨id, hid, hget⟩, rfl⟩

/-- `_enqueue_ready_subtasks` makes one item at most for each sub-task that has none. -/
lemma enqueueReadySubtasks_adds (clock : Uuid → ℚ) (team : Team) (hb : Bounded c)
    (howns : Owns c mission) :
    ∃ items, Adds c mission items (c.enqueueReadySubtasks clock mission team) ∧
      (c.enqueueReadySubtasks clock mission team).2.results = mission.results ∧
      Once (c.enqueueReadySubtasks clock mission team).1 mission.workItemIds items := by
  have hplan : (mission.plan.subTasks.map fun subTask => some subTask.id).Nodup := by
    have hnodup := mission.plan.nodup.map (Option.some_injective String)
    rwa [List.map_map] at hnodup
  obtain ⟨items, hadds, hresults, hnodup, hnew⟩ :
      ∃ items, Adds c mission items (c.enqueueReadySubtasks clock mission team) ∧
        (c.enqueueReadySubtasks clock mission team).2.results = mission.results ∧
        (items.map (c.enqueueReadySubtasks clock mission team).1.subTaskOf).Nodup ∧
        ∀ id ∈ items, ∀ subTaskId ∈ (c.workItems mission).map (·.payload.subTaskId),
          (c.enqueueReadySubtasks clock mission team).1.subTaskOf id ≠ some subTaskId := by
    refine enqueueLoop_adds clock team _ _ (fun s subTask => ?_) (Adds.refl hb mission) (fun _ => id)
      (by simpa using hplan) (fun _ h => absurd h List.not_mem_nil)
    split
    · exact Or.inl rfl
    · rename_i hcond
      exact Or.inr ⟨fun hmem => hcond (Or.inl hmem), _, rfl⟩
  refine ⟨items, hadds, hresults, hnodup, fun id hid hmem => ?_⟩
  rw [map_subTaskOf (hadds.grows hb) howns.stored] at hmem
  obtain ⟨st, hst⟩ := hadds.stored id hid
  refine hnew id hid st (subTaskIds_workItems.mpr ?_) hst
  rwa [← hst]

/-- `_rerun_sub_tasks` makes items for sub-tasks of the plan, and takes results away. -/
lemma rerunSubTasks_adds (clock : Uuid → ℚ) (mission : Mission) (team : Team) (hb : Bounded c)
    (subTaskIds : List String) :
    ∃ items, Adds c mission items (c.rerunSubTasks clock mission team subTaskIds) ∧
      ∀ k, (c.rerunSubTasks clock mission team subTaskIds).2.results.contains k = true →
        mission.results.contains k = true := by
  have hfold := List.foldlRecOn subTaskIds (rerunSubTask clock mission.plan team)
    (motive := fun s => ∃ items, Adds c mission items s ∧
      ∀ k, s.2.results.contains k = true → mission.results.contains k = true)
    (b := (c, mission)) ⟨[], .refl hb mission, fun _ => id⟩ fun s hs subTaskId _ => by
      obtain ⟨items, hadds, hresults⟩ := hs
      unfold rerunSubTask
      cases hst : mission.plan.subTask subTaskId with
      | none => exact ⟨items, hadds, hresults⟩
      | some subTask =>
        refine ⟨_, hadds.delegate (MissionPlan.subTask_eq_some.mp hst).1 _, fun k hk => hresults k ?_⟩
        obtain ⟨v, hv⟩ := Dict.contains_iff.mp hk
        exact Dict.contains_iff.mpr ⟨v, Dict.get_of_get_pop hv⟩
  obtain ⟨items, hadds, hresults⟩ := hfold
  obtain ⟨hfollows, hkept, hmissions, hregistry, hid, hplan⟩ := hadds.delegated
  exact ⟨items, ⟨⟨hfollows, hkept, hmissions, hregistry, hid, hplan⟩, hadds.bounded, hadds.ids,
    hadds.nodup, hadds.drawn, hadds.made⟩, hresults⟩

end Delegation

/-! ### The engine -/

/-- What holds of the engine: its items are bounded, every mission is drawn and owns its items, and no
item belongs to two missions. -/
structure Tidy (c : CoordinatorEngine) : Prop where
  bounded : Bounded c
  owns : ∀ missionId mission, c.missions.get missionId = some mission →
    missionId < c.uuids ∧ Owns c mission
  apart : ∀ missionId mission missionId' mission' id, c.missions.get missionId = some mission →
    c.missions.get missionId' = some mission' → id ∈ mission.workItemIds → id ∈ mission'.workItemIds →
    missionId = missionId'

/-- The engine went on: it is tidy, no item is lost, and every mission kept its plan and its items. -/
structure Advances (c c' : CoordinatorEngine) : Prop where
  tidy : Tidy c'
  grows : Grows c c'
  missions : ∀ missionId mission, c.missions.get missionId = some mission →
    ∃ mission', c'.missions.get missionId = some mission' ∧ mission'.plan = mission.plan ∧
      mission.workItemIds ⊆ mission'.workItemIds

/-- The mission is still there, with one new item at most for each sub-task that had none. -/
def Kept (c c' : CoordinatorEngine) (missionId : Uuid) : Prop :=
  ∀ mission, c.missions.get missionId = some mission →
    ∃ mission', c'.missions.get missionId = some mission' ∧ Extends c' mission mission'

lemma Tidy.drawn (h : Tidy c) (hmission : c.missions.get mission.id = some mission) :
    ∀ id ∈ mission.workItemIds, id < c.uuids := fun id hid => by
  obtain ⟨st, hstored⟩ := (h.owns _ _ hmission).2.stored id hid
  obtain ⟨item, hget, -⟩ := Option.map_eq_some_iff.mp hstored
  exact (h.bounded id item hget).1

lemma Kept.of_eq (h : c'.missions = c.missions) (missionId : Uuid) : Kept c c' missionId :=
  fun mission hget => ⟨mission, h ▸ hget, Extends.of_eq c' rfl rfl⟩

/-- Items alone were marked. -/
lemma Tidy.mark (h : Tidy c) (hgrows : Grows c c') (hbounded : Bounded c')
    (hmissions : c'.missions = c.missions) : Advances c c' where
  tidy :=
    { bounded := hbounded
      owns := fun missionId mission hget =>
        ⟨(h.owns _ _ (hmissions ▸ hget)).1.trans_le hgrows.uuids,
          (h.owns _ _ (hmissions ▸ hget)).2.grows hgrows⟩
      apart := by
        rw [hmissions]
        exact h.apart }
  grows := hgrows
  missions missionId mission hget := ⟨mission, hmissions ▸ hget, rfl, List.Subset.refl _⟩

/-- A mission was saved, with items that it had or that were drawn since. -/
lemma Tidy.save (h : Tidy c) (hgrows : Grows c c') (hbounded : Bounded c')
    (hmissions : c'.missions = c.missions) (howns : Owns c' mission') (hdrawn : mission'.id < c'.uuids)
    (hold : ∀ mission, c.missions.get mission'.id = some mission →
      mission'.plan = mission.plan ∧ mission.workItemIds ⊆ mission'.workItemIds)
    (hnew : ∀ id ∈ mission'.workItemIds, c.uuids ≤ id ∨
      ∃ mission, c.missions.get mission'.id = some mission ∧ id ∈ mission.workItemIds) :
    Advances c { c' with missions := c'.missions.save mission' } where
  tidy :=
    { bounded := hbounded
      owns := fun missionId mission hget => by
        rcases Store.get_save_cases hget with ⟨rfl, rfl⟩ | ⟨-, hget⟩
        · exact ⟨hdrawn, howns.nodup, howns.items, howns.results⟩
        · obtain ⟨hlt, hmission⟩ := h.owns _ _ (hmissions ▸ hget)
          have hmission' := hmission.grows hgrows
          exact ⟨hlt.trans_le hgrows.uuids, hmission'.nodup, hmission'.items, hmission'.results⟩
      apart := fun k m k' m' id hm hm' hid hid' => by
        -- An item of the saved mission that another one has was there before.
        have hother : ∀ {k m}, k ≠ mission'.id → c'.missions.get k = some m → id ∈ m.workItemIds →
            id ∈ mission'.workItemIds → False := by
          intro k m hne hget hid hid'
          rw [hmissions] at hget
          have hlt := h.drawn ((Store.key_of_get hget).symm ▸ hget) id hid
          rcases hnew id hid' with hle | ⟨mission, hget', hid''⟩
          · exact absurd hlt (Nat.not_lt.mpr hle)
          · exact hne (h.apart _ _ _ _ id hget hget' hid hid'')
        rcases Store.get_save_cases hm with ⟨rfl, rfl⟩ | ⟨hne, hget⟩ <;>
          rcases Store.get_save_cases hm' with ⟨rfl, rfl⟩ | ⟨hne', hget'⟩
        · rfl
        · exact (hother hne' hget' hid' hid).elim
        · exact (hother hne hget hid hid').elim
        · rw [hmissions] at hget hget'
          exact h.apart k m k' m' id hget hget' hid hid' }
  grows := hgrows.save _
  missions missionId mission hget := by
    by_cases hid : missionId = mission'.id
    · subst hid
      exact ⟨mission', Store.get_save_self _ _, hold mission hget⟩
    · refine ⟨mission, ?_, rfl, List.Subset.refl _⟩
      rw [Store.get_save, if_neg hid, hmissions, hget]

lemma Kept.save_of_ne (hmissions : c'.missions = c.missions) {missionId : Uuid}
    (hne : missionId ≠ mission'.id) :
    Kept c { c' with missions := c'.missions.save mission' } missionId := fun mission hget =>
  ⟨mission, by rw [Store.get_save, if_neg hne, hmissions, hget], Extends.of_eq _ rfl rfl⟩

/-- What was delegated is saved. -/
lemma Tidy.save_adds (h : Tidy c) {items : List Uuid} {s : CoordinatorEngine × Mission}
    (hgrows : Grows c c') (hmissions : c'.missions = c.missions)
    (hmission : c.missions.get mission.id = some mission)
    (hadds : Adds c' mission' items s) (hgrows' : Grows c' s.1) (hid : mission'.id = mission.id)
    (hplan : mission'.plan = mission.plan) (hids : mission'.workItemIds = mission.workItemIds)
    (hresults : ∀ k, s.2.results.contains k = true →
      ∃ subTask ∈ mission.plan.subTasks, subTask.id = k) :
    Advances c { s.1 with missions := s.1.missions.save s.2 } := by
  obtain ⟨hlt, howns⟩ := h.owns _ _ hmission
  have hid' : s.2.id = mission.id := hadds.delegated.id.trans hid
  have hplan' : s.2.plan = mission.plan := hadds.delegated.plan.trans hplan
  have hids' : s.2.workItemIds = mission.workItemIds ++ items := hids ▸ hadds.ids
  refine h.save (hgrows.trans hgrows') hadds.bounded (hadds.delegated.missions.trans hmissions)
    ⟨?_, fun id hmem => ?_, ?_⟩ ?_ (fun m hget => ?_) fun id hmem => ?_
  · rw [hids']
    refine howns.nodup.append hadds.nodup fun id hold hnew => ?_
    exact absurd (h.drawn hmission id hold)
      (Nat.not_lt.mpr (hgrows.uuids.trans (hadds.drawn id hnew)))
  · rw [hplan']
    rcases List.mem_append.mp (hids' ▸ hmem) with hold | hnew
    · obtain ⟨st, hst, hstored⟩ := howns.items id hold
      exact ⟨st, hst, (hgrows.trans hgrows').subTaskOf hstored⟩
    · exact hplan ▸ hadds.made id hnew
  · rw [hplan']
    exact hresults
  · rw [hid']
    exact hlt.trans_le (hgrows.trans hgrows').uuids
  · rw [hid', hmission] at hget
    cases hget
    rw [hids']
    exact ⟨hplan', List.subset_append_left _ _⟩
  · rcases List.mem_append.mp (hids' ▸ hmem) with hold | hnew
    · exact Or.inr ⟨mission, hid' ▸ hmission, hold⟩
    · exact Or.inl (hgrows.uuids.trans (hadds.drawn id hnew))

/-- A mission was saved that differs in neither its plan, its items nor its results. -/
lemma Tidy.save_same (h : Tidy c) (hmission : c.missions.get mission.id = some mission)
    (hid : mission'.id = mission.id) (hplan : mission'.plan = mission.plan)
    (hids : mission'.workItemIds = mission.workItemIds) (hresults : mission'.results = mission.results) :
    Advances c { c with missions := c.missions.save mission' } ∧
      ∀ missionId, Kept c { c with missions := c.missions.save mission' } missionId := by
  obtain ⟨hlt, howns⟩ := h.owns _ _ hmission
  have hfound {m : Mission} (hget : c.missions.get mission'.id = some m) : m = mission := by
    rw [hid, hmission] at hget
    exact (Option.some.inj hget).symm
  refine ⟨h.save (.refl c) h.bounded rfl ⟨hids ▸ howns.nodup, ?_, ?_⟩ (hid ▸ hlt) (fun m hget => ?_)
    fun id hmem => Or.inr ⟨mission, hid ▸ hmission, hids ▸ hmem⟩, fun missionId m hget => ?_⟩
  · rw [hids, hplan]
    exact howns.items
  · rw [hresults, hplan]
    exact howns.results
  · obtain rfl := hfound hget
    exact ⟨hplan, hids ▸ List.Subset.refl _⟩
  · by_cases heq : missionId = mission'.id
    · subst heq
      obtain rfl := hfound hget
      exact ⟨mission', Store.get_save_self _ _, Extends.of_eq _ hplan hids⟩
    · exact Kept.save_of_ne rfl heq m hget

/-! ### What the calls do -/

lemma advances_beginRun (h : Tidy c) {missionId : Uuid} {missionContext : Dict String String}
    (hok : c.beginRun missionId = .ok (missionContext, c')) :
    Advances c c' ∧ ∀ missionId', Kept c c' missionId' := by
  obtain ⟨mission, hget, -, rfl⟩ := beginRun_eq_ok hok
  obtain rfl := Store.key_of_get hget
  exact h.save_same hget rfl rfl rfl rfl

lemma advances_launchMission (h : Tidy c) (clock : Uuid → ℚ) (firmId requestDescription : String)
    (team : Team) (plan : MissionPlan) :
    Advances c (c.launchMission clock firmId requestDescription team plan).2 ∧
      ∀ missionId, Kept c (c.launchMission clock firmId requestDescription team plan).2 missionId := by
  have hgrows : Grows c { c with uuids := c.uuids + 1 } :=
    ⟨Nat.le_succ _, fun _ item hget => ⟨item, hget, .refl item⟩⟩
  have hbounded : Bounded { c with uuids := c.uuids + 1 } := fun id item hget =>
    ⟨(h.bounded id item hget).1.trans (Nat.lt_succ_self _), (h.bounded id item hget).2⟩
  let mission := newMission c.uuids firmId requestDescription team plan
  have hnew : c.missions.get c.uuids = none := by
    cases hget : c.missions.get c.uuids with
    | none => rfl
    | some m => exact absurd (h.owns _ _ hget).1 (lt_irrefl _)
  obtain ⟨items, hadds, hresults, -⟩ := enqueueReadySubtasks_adds clock team hbounded
    (⟨List.nodup_nil, fun _ hid => absurd hid List.not_mem_nil, fun _ hk => nomatch hk⟩ :
      Owns { c with uuids := c.uuids + 1 } mission)
  have hgrows' := hgrows.trans (hadds.grows hbounded)
  have hid : (enqueueReadySubtasks clock { c with uuids := c.uuids + 1 } mission team).2.id = c.uuids :=
    hadds.delegated.id
  have hids : (enqueueReadySubtasks clock { c with uuids := c.uuids + 1 } mission team).2.workItemIds =
      items := hadds.ids
  refine ⟨h.save hgrows' hadds.bounded hadds.delegated.missions ⟨?_, fun id hmem => ?_, fun k hk => ?_⟩
    ?_ (fun m hget => ?_) fun id hmem => Or.inl ?_, fun missionId m hget => ?_⟩
  · rw [hids]
    exact hadds.nodup
  · rw [hadds.delegated.plan]
    exact hadds.made id (hids ▸ hmem)
  · rw [hresults] at hk
    cases hk
  · rw [hid]
    exact Nat.lt_of_succ_le (hadds.grows hbounded).uuids
  · rw [hid, hnew] at hget
    cases hget
  · exact (Nat.le_succ _).trans (hadds.drawn id (hids ▸ hmem))
  · refine Kept.save_of_ne hadds.delegated.missions (fun heq => ?_) m hget
    rw [heq, hid, hnew] at hget
    cases hget

/-- A decision keeps every mission but the one it is on. -/
lemma advances_applyHumanDecision (h : Tidy c) {clock : Uuid → ℚ} {missionId : Uuid} {team team' : Team}
    {decision : HumanDecision}
    (hok : c.applyHumanDecision clock missionId team decision = .ok (mission', team', c')) :
    Advances c c' ∧ ∀ missionId' ≠ missionId, Kept c c' missionId' := by
  have hsame : Advances c c ∧ ∀ missionId' ≠ missionId, Kept c c missionId' :=
    ⟨h.mark (.refl c) h.bounded rfl, fun missionId' _ => .of_eq rfl missionId'⟩
  obtain ⟨mission, hget, rfl | ⟨subTaskIds, -, rfl⟩⟩ := applyHumanDecision_eq_ok hok
  · exact hsame
  · obtain rfl := Store.key_of_get hget
    obtain ⟨items, hadds, hresults⟩ := rerunSubTasks_adds clock mission team h.bounded subTaskIds
    refine ⟨h.save_adds (.refl c) rfl hget hadds (hadds.grows h.bounded) rfl rfl rfl fun k hk =>
      (h.owns _ _ hget).2.results k (hresults k hk), fun missionId' hne => ?_⟩
    exact Kept.save_of_ne hadds.delegated.missions (hadds.delegated.id.symm ▸ hne)

/-- The item of the mission was run once more. -/
structure Ran (c : CoordinatorEngine) (mission : Mission) (id : Uuid) (c' : CoordinatorEngine) : Prop where
  grows : Grows c c'
  bounded : Bounded c'
  missions : c'.missions = c.missions
  mem : id ∈ mission.workItemIds
  attemptsOf : c'.attemptsOf id = c.attemptsOf id + 1
  attemptsLeft : c'.attemptsLeft id < c.attemptsLeft id

lemma nextRunnableItem_mem {item : WorkItem} (h : c.nextRunnableItem mission = some item) :
    item.id ∈ mission.workItemIds ∧ c.workQueue.get item.id = some item ∧ item.Runnable := by
  have hmem := List.mem_of_mem_head? (Option.mem_def.mpr h)
  rw [List.mem_insertionSort, List.mem_filter, decide_eq_true_eq] at hmem
  obtain ⟨id, hid, hget⟩ := mem_workItems.mp hmem.1
  obtain rfl : item.id = id := c.workQueue.keyed _ _ hget
  exact ⟨hid, hget, hmem.2⟩

/-- Marking the next item as running uses up one of its attempts. -/
lemma ran_markRunning {item : WorkItem} {workQueue : InMemoryWorkQueue} {now : ℚ} (hb : Bounded c)
    (hnext : c.nextRunnableItem mission = some item)
    (hmark : c.workQueue.markRunning item.id now = .ok workQueue) :
    Ran c mission item.id { c with workQueue } := by
  obtain ⟨hmem, hget, hrun⟩ := nextRunnableItem_mem hnext
  obtain ⟨-, hmax, -, hlt⟩ := hb item.id item hget
  have hlt := hlt hrun
  have hget' := RetryQueue.get_update hmark item.id
  rw [if_pos rfl, hget] at hget'
  refine ⟨grows_update hmark fun x => ⟨rfl, rfl, Nat.le_succ _⟩, bounded_update hmark hb ?_, rfl, hmem,
    ?_, ?_⟩
  · intro x hx _
    rw [hget] at hx
    cases hx
    exact ⟨hmax, hlt, fun hrunnable => absurd hrunnable (by simp [Item.Runnable])⟩
  · simp only [CoordinatorEngine.attemptsOf, hget, hget', Option.map_some, Option.getD_some]
  · simp only [CoordinatorEngine.attemptsLeft, hget, hget', Option.map_some, Option.getD_some]
    omega

lemma Ran.failed {error : String} {now : ℚ} {workQueue : InMemoryWorkQueue} (h : Ran c mission id c')
    (hmark : c'.workQueue.markFailed id error now = .ok workQueue) :
    Ran c mission id { c' with workQueue } := by
  have hget' := RetryQueue.get_update hmark id
  rw [if_pos rfl] at hget'
  have hfailed : ∀ x : WorkItem, (x.failed error now).attempts = x.attempts ∧
      (x.failed error now).maxAttempts = x.maxAttempts := fun x => by
    unfold Item.failed
    split <;> exact ⟨rfl, rfl⟩
  have hattempts : CoordinatorEngine.attemptsOf { c' with workQueue } id = c'.attemptsOf id := by
    simp only [CoordinatorEngine.attemptsOf, hget', Option.map_map, Function.comp_def, hfailed]
  have hleft : CoordinatorEngine.attemptsLeft { c' with workQueue } id = c'.attemptsLeft id := by
    simp only [CoordinatorEngine.attemptsLeft, hget', Option.map_map, Function.comp_def, hfailed]
  exact ⟨h.grows.trans (grows_update hmark fun x => .failed x error now),
    bounded_update hmark h.bounded fun x _ hx => hx.failed error now, h.missions, h.mem,
    hattempts.trans h.attemptsOf, hleft ▸ h.attemptsLeft⟩

/-- One pass of the loop: it ends it, or runs the next item once more. -/
lemma pass_spec (hb : Bounded c) (howns : Owns c mission) (now : ℚ) :
    match c.pass mission now with
    | .finished c' => c.nextRunnableItem mission = none ∧
        c' = { c with missions := c.missions.save (finished mission now) }
    | .agentMissing c' => ∃ item, c.nextRunnableItem mission = some item ∧ Ran c mission item.id c'
    | .awaits c' item subTask => c.nextRunnableItem mission = some item ∧ Ran c mission item.id c' ∧
        subTask ∈ mission.plan.subTasks
    | .raised _ => False := by
  unfold pass
  cases hnext : c.nextRunnableItem mission with
  | none => exact ⟨rfl, rfl⟩
  | some item =>
    obtain ⟨hmem, hget, -⟩ := nextRunnableItem_mem hnext
    obtain ⟨subTask, hplan, hst⟩ := howns.items item.id hmem
    have hsubTask : mission.plan.subTask item.payload.subTaskId = some subTask := by
      refine MissionPlan.subTask_eq_some.mpr ⟨hplan, ?_⟩
      rw [subTaskOf, hget] at hst
      exact (Option.some.inj hst).symm
    obtain ⟨workQueue, hmark⟩ : ∃ workQueue, c.workQueue.markRunning item.id now = .ok workQueue :=
      update_ok hst _ _
    have hran := ran_markRunning hb hnext hmark
    simp only [hsubTask, hmark, bind, Except.bind]
    by_cases hagent : c.HasAgent item.payload.agentId
    · simp only [if_pos hagent]
      exact ⟨trivial, hran, hplan⟩
    · simp only [if_neg hagent]
      obtain ⟨workQueue', hfail⟩ : ∃ workQueue', workQueue.markFailed item.id
          ("no agent available for " ++ subTask.assignedRole.value) now = .ok workQueue' :=
        update_ok (c := { c with workQueue }) (hran.grows.subTaskOf hst) _ _
      simp only [hfail]
      exact ⟨item, rfl, hran.failed hfail⟩

/-- Items alone were marked, so that every mission is kept. -/
lemma Tidy.advances_mark (h : Tidy c) (hgrows : Grows c c') (hbounded : Bounded c')
    (hmissions : c'.missions = c.missions) : Advances c c' ∧ ∀ missionId, Kept c c' missionId :=
  ⟨h.mark hgrows hbounded hmissions, fun missionId => .of_eq hmissions missionId⟩

/-- The mission that ended is kept. -/
lemma advances_finished (h : Tidy c) (hmission : c.missions.get mission.id = some mission) (now : ℚ) :
    Advances c { c with missions := c.missions.save (finished mission now) } ∧
      ∀ missionId, Kept c { c with missions := c.missions.save (finished mission now) } missionId := by
  obtain ⟨hid, hplan, hids, hresults⟩ := finished_same mission now
  exact h.save_same hmission hid hplan hids hresults

/-- The output of an agent: its item is done, and items for what is ready now are made. -/
lemma advances_agentReturned (h : Tidy c) {clock : Uuid → ℚ} {team : Team}
    {missionContext missionContext' : Dict String String} {subTask : SubTask} {output : AgentOutput}
    {now : ℚ} (hmission : c.missions.get mission.id = some mission)
    (hst : subTask ∈ mission.plan.subTasks)
    (hok : c.agentReturned clock mission team missionContext id subTask output now =
      .ok (missionContext', c')) :
    Advances c c' ∧ ∀ missionId, Kept c c' missionId := by
  obtain ⟨workQueue, hmark, -, rfl⟩ := agentReturned_eq_ok hok
  have hgrows : Grows c { c with workQueue } := grows_update hmark fun x => ⟨rfl, rfl, le_rfl⟩
  have hbounded : Bounded { c with workQueue } := bounded_update hmark h.bounded fun x _ hx =>
    ⟨hx.1, hx.2.1, fun hrunnable => absurd hrunnable (by simp [Item.Runnable])⟩
  obtain ⟨hlt, howns⟩ := h.owns _ _ hmission
  let mission' : Mission := { mission with results := mission.results.set subTask.id output }
  have howns' : Owns { c with workQueue } mission' := by
    refine ⟨howns.nodup, (howns.grows hgrows).items, fun k hk => ?_⟩
    obtain ⟨v, hv⟩ := Dict.contains_iff.mp hk
    rw [Dict.get_set] at hv
    split at hv
    · exact ⟨subTask, hst, Eq.symm ‹_›⟩
    · exact howns.results k (Dict.contains_iff.mpr ⟨v, hv⟩)
  obtain ⟨items, hadds, hresults, honce⟩ := enqueueReadySubtasks_adds clock team hbounded howns'
  have hgrows' := hadds.grows hbounded
  refine ⟨h.save_adds hgrows rfl hmission hadds hgrows' rfl rfl rfl fun k hk => ?_,
    fun missionId m hget => ?_⟩
  · rw [hresults] at hk
    exact howns'.results k hk
  · by_cases heq : missionId = mission.id
    · subst heq
      rw [hmission] at hget
      cases hget
      refine ⟨_, ?_, hadds.delegated.plan, items, hadds.ids, honce⟩
      rw [Store.get_save, if_pos hadds.delegated.id.symm]
    · exact Kept.save_of_ne hadds.delegated.missions (hadds.delegated.id.symm ▸ heq) m hget

/-- The exception of an agent: its item is tried again, or has failed. -/
lemma advances_agentRaised (h : Tidy c) {error : String} {now : ℚ}
    (hok : c.agentRaised id error now = .ok c') :
    Advances c c' ∧ ∀ missionId, Kept c c' missionId := by
  obtain ⟨workQueue, hmark, rfl⟩ := agentRaised_eq_ok hok
  exact h.advances_mark (grows_update hmark fun x => .failed x error now)
    (bounded_update hmark h.bounded fun x _ hx => hx.failed error now) rfl

end CoordinatorEngine

namespace Platform

open CoordinatorEngine

variable {p : Platform} {clock : Uuid → ℚ}

/-- The engine is tidy, and every run is of a mission that is there; the item it awaits is of this
mission, and was made for a sub-task of its plan. -/
structure Orderly (p : Platform) : Prop where
  tidy : p.coordinator.Tidy
  runs : ∀ r run, p.runs r = some run → ∃ mission,
    p.coordinator.missions.get run.missionId = some mission ∧
      ∀ id subTask, run.awaiting = some (id, subTask) →
        subTask ∈ mission.plan.subTasks ∧ id ∈ mission.workItemIds

/-- What happens is not a human decision on the mission. -/
def Undecided (missionId : Uuid) : Op → Prop
  | .decide missionId' _ _ => missionId' ≠ missionId
  | _ => True

/-- The runs go on with the engine. -/
lemma Orderly.engine (h : Orderly p) {c : CoordinatorEngine} {teams : Store String Team Team.id}
    {invocations : List Invocation} {runs : ℕ → Option MissionRun} (hc : Advances p.coordinator c)
    (hruns : ∀ r run, runs r = some run → p.runs r = some run ∨
      ∃ mission, c.missions.get run.missionId = some mission ∧
        ∀ id subTask, run.awaiting = some (id, subTask) →
          subTask ∈ mission.plan.subTasks ∧ id ∈ mission.workItemIds) :
    Orderly ⟨c, teams, runs, invocations⟩ where
  tidy := hc.tidy
  runs r run hrun := by
    rcases hruns r run hrun with hrun | hnew
    · obtain ⟨mission, hget, hawait⟩ := h.runs r run hrun
      obtain ⟨mission', hget', hplan, hids⟩ := hc.missions _ _ hget
      refine ⟨mission', hget', fun id subTask hid => ?_⟩
      obtain ⟨hst, hmem⟩ := hawait id subTask hid
      exact ⟨hplan ▸ hst, hids hmem⟩
    · exact hnew

/-- The runs but one are as they were. -/
lemma runs_turn {r : ℕ} {new : Option MissionRun} {Q : MissionRun → Prop}
    (hnew : ∀ run, new = some run → Q run) (r' : ℕ) (run : MissionRun)
    (hrun : (Function.update p.runs r new) r' = some run) : p.runs r' = some run ∨ Q run := by
  by_cases h : r' = r
  · subst h
    rw [Function.update_self] at hrun
    exact Or.inr (hnew run hrun)
  · rw [Function.update_of_ne h] at hrun
    exact Or.inl hrun

/-- The platform is orderly after a step that loses no item, and every mission is kept. -/
structure Moves (p q : Platform) : Prop where
  orderly : Orderly q
  advances : Advances p.coordinator q.coordinator
  kept : ∀ missionId, Kept p.coordinator q.coordinator missionId

namespace Orderly

lemma moves_self (h : Orderly p) : Moves p p :=
  ⟨h, h.tidy.mark (.refl _) h.tidy.bounded rfl, .of_eq rfl⟩

/-- A run is over, and the engine is as it was. -/
lemma moves_over (h : Orderly p) (r : ℕ) : Moves p (p.turn r none) :=
  ⟨h.engine h.moves_self.advances (runs_turn fun _ hrun => nomatch hrun), h.moves_self.advances, .of_eq rfl⟩

/-- A step that changes the engine in a way that keeps every mission. -/
lemma moves (h : Orderly p) {c : CoordinatorEngine} {teams : Store String Team Team.id}
    {invocations : List Invocation} {runs : ℕ → Option MissionRun}
    (hc : Advances p.coordinator c ∧ ∀ k, Kept p.coordinator c k)
    (hruns : ∀ r run, runs r = some run → p.runs r = some run ∨
      ∃ mission, c.missions.get run.missionId = some mission ∧
        ∀ id subTask, run.awaiting = some (id, subTask) →
          subTask ∈ mission.plan.subTasks ∧ id ∈ mission.workItemIds) :
    Moves p ⟨c, teams, runs, invocations⟩ :=
  ⟨h.engine hc.1 hruns, hc.1, hc.2⟩

lemma moves_begin (h : Orderly p) (r : ℕ) (missionId : Uuid) (teamId : String) :
    Moves p (p.step clock (.begin r missionId teamId)) := by
  unfold step
  dsimp only
  split
  · rename_i missionContext coordinator hrun hok
    have hadvances := advances_beginRun h.tidy hok
    refine h.moves hadvances (runs_turn fun run hrun => ?_)
    cases hrun
    obtain ⟨mission, hget, -⟩ := beginRun_eq_ok hok
    obtain ⟨mission', hget', -⟩ := hadvances.1.missions _ _ hget
    exact ⟨mission', hget', fun id subTask hid => nomatch hid⟩
  · exact h.moves_self

lemma moves_iterate (h : Orderly p) (r : ℕ) (now : ℚ) : Moves p (p.step clock (.iterate r now)) := by
  unfold step
  dsimp only
  cases hrun : p.runs r with
  | none => exact h.moves_self
  | some run =>
    dsimp only
    split
    · rename_i mission hawait hmission
      obtain ⟨-, howns⟩ := h.tidy.owns _ _ hmission
      have hpass := pass_spec h.tidy.bounded howns now
      unfold iterate
      cases hp : p.coordinator.pass mission now with
      | finished c =>
        rw [hp] at hpass
        obtain ⟨-, rfl⟩ := hpass
        exact h.moves (advances_finished h.tidy ((Store.key_of_get hmission).symm ▸ hmission) now)
          (runs_turn fun run hrun => nomatch hrun)
      | agentMissing c =>
        rw [hp] at hpass
        obtain ⟨item, -, hran⟩ := hpass
        exact h.moves (h.tidy.advances_mark hran.grows hran.bounded hran.missions) fun _ _ => Or.inl
      | awaits c item subTask =>
        rw [hp] at hpass
        obtain ⟨-, hran, hst⟩ := hpass
        refine h.moves (h.tidy.advances_mark hran.grows hran.bounded hran.missions)
          (runs_turn fun run' hrun' => ?_)
        cases hrun'
        refine ⟨mission, hran.missions ▸ hmission, fun id st hid => ?_⟩
        cases hid
        exact ⟨hst, hran.mem⟩
      | raised e =>
        rw [hp] at hpass
        exact hpass.elim
    · exact h.moves_self

lemma moves_agentReturns (h : Orderly p) (r : ℕ) (output : AgentOutput) (now : ℚ) :
    Moves p (p.step clock (.agentReturns r output now)) := by
  unfold step
  dsimp only
  cases hrun : p.runs r with
  | none => exact h.moves_self
  | some run =>
    dsimp only
    split
    · rename_i itemId subTask mission team hawait hmission hteam
      obtain ⟨mission', hget, hitem⟩ := h.runs r run hrun
      rw [hmission] at hget
      cases hget
      split
      · rename_i missionContext coordinator hok
        have hadvances := advances_agentReturned h.tidy ((Store.key_of_get hmission).symm ▸ hmission)
          (hitem itemId subTask hawait).1 hok
        refine h.moves hadvances (runs_turn fun run' hrun' => ?_)
        cases hrun'
        obtain ⟨mission', hget', -⟩ := hadvances.1.missions _ _ hmission
        exact ⟨mission', hget', fun id st hid => nomatch hid⟩
      · exact h.moves_over r
    · exact h.moves_self

lemma moves_agentRaises (h : Orderly p) (r : ℕ) (error : String) (now : ℚ) :
    Moves p (p.step clock (.agentRaises r error now)) := by
  unfold step
  dsimp only
  cases hrun : p.runs r with
  | none => exact h.moves_self
  | some run =>
    dsimp only
    split
    · rename_i itemId subTask hawait
      split
      · rename_i coordinator hok
        have hadvances := advances_agentRaised h.tidy hok
        refine h.moves hadvances (runs_turn fun run' hrun' => ?_)
        cases hrun'
        obtain ⟨mission, hget, -⟩ := h.runs r run hrun
        obtain ⟨mission', hget', -⟩ := hadvances.1.missions _ _ hget
        exact ⟨mission', hget', fun id st hid => nomatch hid⟩
      · exact h.moves_over r
    · exact h.moves_self

end Orderly

/-- **The step lemma**: whatever happens, the platform stays orderly and no item is lost; and a mission
that is not decided on gets one new item at most for each sub-task that had none. -/
theorem orderly_step (clock : Uuid → ℚ) (h : Orderly p) (op : Op) : Orderly (p.step clock op) ∧
    Advances p.coordinator (p.step clock op).coordinator ∧
    ∀ missionId, Undecided missionId op → Kept p.coordinator (p.step clock op).coordinator missionId := by
  -- only a decision changes a mission that is not kept
  have hmoves {q : Platform} (hq : Moves p q) : Orderly q ∧ Advances p.coordinator q.coordinator ∧
      ∀ missionId, Undecided missionId op → Kept p.coordinator q.coordinator missionId :=
    ⟨hq.orderly, hq.advances, fun missionId _ => hq.kept missionId⟩
  cases op with
  | register descriptor =>
    exact hmoves <| h.moves (h.tidy.advances_mark ⟨le_rfl, fun _ item hget => ⟨item, hget, .refl item⟩⟩
      h.tidy.bounded rfl) fun _ _ => Or.inl
  | buildTeam team =>
    exact hmoves <| h.moves (h.tidy.advances_mark (.refl _) h.tidy.bounded rfl) fun _ _ => Or.inl
  | launch firmId requestDescription teamId plan =>
    unfold step
    dsimp only
    cases p.teams.get teamId with
    | none => exact hmoves h.moves_self
    | some team =>
      exact hmoves <| h.moves (advances_launchMission h.tidy clock firmId requestDescription team plan)
        fun _ _ => Or.inl
  | decide missionId teamId decision =>
    unfold step
    dsimp only
    cases p.teams.get teamId with
    | none => exact hmoves h.moves_self
    | some team =>
      dsimp only
      cases hok : p.coordinator.applyHumanDecision clock missionId team decision with
      | error e => exact hmoves h.moves_self
      | ok result =>
        obtain ⟨hadvances, hkept⟩ := advances_applyHumanDecision h.tidy hok
        exact ⟨h.engine hadvances fun _ _ => Or.inl, hadvances, fun missionId' hne =>
          hkept missionId' fun heq => hne heq.symm⟩
  | begin r missionId teamId => exact hmoves (h.moves_begin r missionId teamId)
  | iterate r now => exact hmoves (h.moves_iterate r now)
  | agentReturns r output now => exact hmoves (h.moves_agentReturns r output now)
  | agentRaises r error now => exact hmoves (h.moves_agentRaises r error now)
  | interrupt r => exact hmoves (h.moves_over r)

/-- **The run lemma**: every platform that is reached is orderly. -/
theorem orderly_run (clock : Uuid → ℚ) (agents : List String) (ops : List Op) :
    Orderly (run (step clock) (initial agents) ops) := by
  refine run_inv ops ⟨⟨fun _ _ hget => ?_, fun _ _ hget => ?_, fun _ _ _ _ _ hget => ?_⟩,
    fun _ _ hrun => ?_⟩ fun p op h => (orderly_step clock h op).1
  · cases hget
  · cases hget
  · cases hget
  · cases hrun

end Platform

end Tmis.AiTeam
