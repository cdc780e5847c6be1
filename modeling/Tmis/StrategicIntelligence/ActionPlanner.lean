import Mathlib.Data.List.Nodup
import Mathlib.Data.List.Sort
import Mathlib.Data.List.TakeWhile
import Tmis.Lib.Calls
import Tmis.Lib.Dict
import Tmis.Lib.Run

/-!
# The action planner

`strategic_intelligence.action_planner`: the steps of a strategy, each with an order.  A new step takes the number of
steps there are for its order, and a reordering gives new orders to some of the steps, one after the other.

* `addStep`, `removeStep`, `reorder`, `markDone`, `listForStrategy` — `ActionPlannerEngine` over its store;
* `lastPosition`, `moved` — the order that a reordering leaves a step with;
* `stepsOf_add`, `stepsOf_remove`, `reorderFrom_cases` — what a call does to the steps of a strategy;
* `action_plan_orders` — when the orders of a strategy stay distinct, and the listing is as it was asked for.
-/

namespace Tmis.StrategicIntelligence

open Tmis.Lib

structure ActionStep where
  id : Uuid
  strategyId : String
  description : String
  category : String
  order : ℤ
  done : Bool := false
  deriving DecidableEq

/-- The engine with its store; `uuids` counts the identifiers drawn so far. -/
structure ActionPlanner where
  steps : Dict (String × Uuid) ActionStep := ∅
  uuids : ℕ := 0

/-- The text of a step's identifier. -/
def actionStepIdText (id : Uuid) : String := "action-" ++ toString id

namespace ActionPlanner

/-- The steps of a strategy, in the order of the store. -/
def stepsOf (s : ActionPlanner) (firmId strategyId : String) : List ActionStep :=
  (s.steps.entries.filter fun e => e.1.1 = firmId ∧ e.2.strategyId = strategyId).map Prod.snd

/-- `list_for_strategy`: the sort is stable. -/
def listForStrategy (s : ActionPlanner) (firmId strategyId : String) : List ActionStep :=
  (s.stepsOf firmId strategyId).insertionSort fun a b => a.order ≤ b.order

/-- `add_step`. -/
def addStep (s : ActionPlanner) (firmId strategyId description category : String) (order : Option ℤ) :
    ActionStep × ActionPlanner :=
  let order := order.getD (s.listForStrategy firmId strategyId).length
  let step : ActionStep := { id := s.uuids, strategyId, description, category, order }
  (step, { steps := s.steps.set (firmId, s.uuids) step, uuids := s.uuids + 1 })

/-- `remove_step`. -/
def removeStep (s : ActionPlanner) (firmId : String) (stepId : Uuid) : ActionPlanner :=
  { s with steps := s.steps.pop (firmId, stepId) }

/-- `mark_done`. -/
def markDone (s : ActionPlanner) (firmId : String) (stepId : Uuid) (done : Bool) : Except PyException ActionPlanner :=
  match s.steps.get (firmId, stepId) with
  | none => .error (keyError (actionStepIdText stepId))
  | some step => .ok { s with steps := s.steps.set (firmId, stepId) { step with done } }

/-- The loop of `reorder`, from a position on, with the planner as it is when the loop returns or raises. -/
def reorderFrom (firmId strategyId : String) : ℕ → List Uuid → ActionPlanner → Except PyException Unit × ActionPlanner
  | _, [], s => (.ok (), s)
  | newOrder, stepId :: stepIds, s =>
    match s.steps.get (firmId, stepId) with
    | none => (.error (keyError (actionStepIdText stepId)), s)
    | some step =>
      if step.strategyId ≠ strategyId then (.error (keyError (actionStepIdText stepId)), s)
      else reorderFrom firmId strategyId (newOrder + 1) stepIds
        { s with steps := s.steps.set (firmId, stepId) { step with order := newOrder } }

/-- `reorder`. -/
def reorder (s : ActionPlanner) (firmId strategyId : String) (orderedStepIds : List Uuid) :
    Except PyException Unit × ActionPlanner := reorderFrom firmId strategyId 0 orderedStepIds s

end ActionPlanner

/-! ### The position that counts -/

section Positions

variable {ids : List Uuid} {id id' : Uuid} {n k : ℕ}

/-- The last position of an id, where the first one is `n`. -/
def lastPosition (n : ℕ) : List Uuid → Uuid → Option ℕ
  | [], _ => none
  | x :: xs, id => (lastPosition (n + 1) xs id).or (if x = id then some n else none)

lemma getElem?_lastPosition (h : lastPosition n ids id = some k) : n ≤ k ∧ ids[k - n]? = some id := by
  induction ids generalizing n with
  | nil => cases h
  | cons x xs ih =>
    rw [lastPosition] at h
    rcases Option.or_eq_some_iff.mp h with h | ⟨-, h⟩
    · obtain ⟨hle, hget⟩ := ih h
      obtain ⟨j, rfl⟩ := Nat.exists_eq_add_of_le hle
      refine ⟨by omega, ?_⟩
      rw [Nat.add_sub_cancel_left] at hget
      rw [Nat.add_assoc, Nat.add_sub_cancel_left, Nat.add_comm, List.getElem?_cons_succ, hget]
    · split_ifs at h with hx
      obtain rfl := Option.some.inj h
      rw [Nat.sub_self, hx]
      exact ⟨le_refl _, rfl⟩

/-- Two ids have not the same last position. -/
lemma lastPosition_inj (h : lastPosition n ids id = some k) (h' : lastPosition n ids id' = some k) : id = id' := by
  have hget := (getElem?_lastPosition h).2
  rw [(getElem?_lastPosition h').2] at hget
  exact (Option.some.inj hget).symm

lemma lastPosition_eq_none_iff : lastPosition n ids id = none ↔ id ∉ ids := by
  induction ids generalizing n with
  | nil => exact iff_of_true rfl List.not_mem_nil
  | cons x xs ih =>
    rw [lastPosition, Option.or_eq_none_iff, ih, List.mem_cons, not_or, and_comm]
    refine and_congr_left fun _ => ?_
    by_cases hx : x = id
    · rw [if_pos hx]
      exact iff_of_false (Option.some_ne_none n) fun hne => hne hx.symm
    · rw [if_neg hx]
      exact iff_of_true rfl (Ne.symm hx)

lemma exists_lastPosition (n : ℕ) (h : id ∈ ids) : ∃ k, lastPosition n ids id = some k := by
  cases hlast : lastPosition n ids id with
  | none => exact absurd h (lastPosition_eq_none_iff.mp hlast)
  | some k => exact ⟨k, rfl⟩

/-- An id that occurs once has one position. -/
lemma lastPosition_getElem (hnodup : ids.Nodup) {i : ℕ} (hi : i < ids.length) :
    lastPosition n ids ids[i] = some (n + i) := by
  induction ids generalizing n i with
  | nil => cases hi
  | cons x xs ih =>
    obtain ⟨hx, hxs⟩ := List.nodup_cons.mp hnodup
    rw [lastPosition]
    cases i with
    | zero =>
      rw [List.getElem_cons_zero, lastPosition_eq_none_iff.mpr hx, if_pos rfl]
      rfl
    | succ i =>
      rw [List.getElem_cons_succ, ih hxs (Nat.lt_of_succ_lt_succ hi), Nat.add_right_comm]
      rfl

/-- A step with its last position for its order, if it has one. -/
def moved (n : ℕ) (ids : List Uuid) (step : ActionStep) : ActionStep :=
  match lastPosition n ids step.id with
  | some k => { step with order := k }
  | none => step

lemma moved_of_some {step : ActionStep} (h : lastPosition n ids step.id = some k) :
    moved n ids step = { step with order := k } := by rw [moved, h]

lemma moved_of_not_mem {step : ActionStep} (h : step.id ∉ ids) : moved n ids step = step := by
  rw [moved, lastPosition_eq_none_iff.mpr h]

lemma id_moved (n : ℕ) (ids : List Uuid) (step : ActionStep) : (moved n ids step).id = step.id := by
  unfold moved
  split <;> rfl

lemma moved_cons (n : ℕ) (ids : List Uuid) (id : Uuid) (step : ActionStep) :
    moved (n + 1) ids (if step.id = id then { step with order := n } else step) = moved n (id :: ids) step := by
  have hid : (if step.id = id then ({ step with order := n } : ActionStep) else step).id = step.id := by
    split <;> rfl
  unfold moved
  rw [hid, lastPosition]
  cases lastPosition (n + 1) ids step.id with
  | some k => split_ifs <;> rfl
  | none =>
    by_cases h : step.id = id
    · rw [if_pos h, if_pos h.symm]
      rfl
    · rw [if_neg h, if_neg (Ne.symm h)]
      rfl

end Positions

/-! ### The steps of a strategy -/

namespace ActionPlanner

section Steps

variable {s : ActionPlanner} {firmId strategyId firmId' strategyId' : String} {id : Uuid} {step : ActionStep}

/-- A step stands under its own identifier, and this has been drawn. -/
structure Fresh (s : ActionPlanner) : Prop where
  ids : ∀ e ∈ s.steps.entries, e.2.id = e.1.2
  drawn : ∀ e ∈ s.steps.entries, e.1.2 < s.uuids

lemma mem_stepsOf : step ∈ s.stepsOf firmId strategyId ↔
    ∃ id, s.steps.get (firmId, id) = some step ∧ step.strategyId = strategyId := by
  simp only [stepsOf, List.mem_map, List.mem_filter, decide_eq_true_eq]
  constructor
  · rintro ⟨⟨⟨firm, id⟩, step⟩, ⟨hmem, rfl, rfl⟩, rfl⟩
    exact ⟨id, Dict.mem_entries_iff.mp hmem, rfl⟩
  · rintro ⟨id, hget, hstrategy⟩
    exact ⟨((firmId, id), step), ⟨Dict.mem_entries_iff.mpr hget, rfl, hstrategy⟩, rfl⟩

lemma Fresh.id_eq (hs : s.Fresh) (hget : s.steps.get (firmId, id) = some step) : step.id = id :=
  hs.ids _ (Dict.mem_entries_iff.mpr hget)

/-- The steps of a strategy have different identifiers. -/
lemma Fresh.nodup_ids (hs : s.Fresh) (firmId strategyId : String) :
    ((s.stepsOf firmId strategyId).map (·.id)).Nodup := by
  have hkeys := (List.filter_sublist (p := fun e => decide (e.1.1 = firmId ∧ e.2.strategyId = strategyId)) |>.map
    Prod.fst).nodup s.steps.nodup
  rw [stepsOf, List.map_map]
  refine List.Nodup.map_on (fun e he e' he' heq => ?_) (List.Nodup.of_map _ hkeys)
  obtain ⟨hmem, hfirm⟩ := List.mem_filter.mp he
  obtain ⟨hmem', hfirm'⟩ := List.mem_filter.mp he'
  have hkey : e.1 = e'.1 := by
    refine Prod.ext ((of_decide_eq_true hfirm).1.trans (of_decide_eq_true hfirm').1.symm) ?_
    rw [← hs.ids e hmem, ← hs.ids e' hmem']
    exact heq
  exact List.inj_on_of_nodup_map hkeys he he' hkey

lemma Fresh.get_new (hs : s.Fresh) (firmId : String) : s.steps.get (firmId, s.uuids) = none := by
  cases hget : s.steps.get (firmId, s.uuids) with
  | none => rfl
  | some step => exact absurd (hs.drawn _ (Dict.mem_entries_iff.mpr hget)) (lt_irrefl _)

/-- What a new step does. -/
lemma stepsOf_add (hs : s.Fresh) (description category : String) (order : Option ℤ) (firmId' strategyId' : String) :
    (s.addStep firmId strategyId description category order).2.stepsOf firmId' strategyId' =
      if firmId' = firmId ∧ strategyId' = strategyId then
        s.stepsOf firmId strategyId ++ [(s.addStep firmId strategyId description category order).1]
      else s.stepsOf firmId' strategyId' := by
  rw [addStep, stepsOf]
  dsimp only
  rw [Dict.entries_set_new (hs.get_new firmId), List.filter_append, List.map_append]
  split_ifs with hsame
  · obtain ⟨rfl, rfl⟩ := hsame
    simp [stepsOf]
  · have hother : ¬ (firmId = firmId' ∧ strategyId = strategyId') := fun h => hsame ⟨h.1.symm, h.2.symm⟩
    simp [stepsOf, hother]

lemma Fresh.add (hs : s.Fresh) (firmId strategyId description category : String) (order : Option ℤ) :
    (s.addStep firmId strategyId description category order).2.Fresh := by
  rw [addStep]
  dsimp only
  constructor
  · rw [Dict.entries_set_new (hs.get_new firmId)]
    exact List.forall_mem_append.mpr ⟨hs.ids, List.forall_mem_singleton.mpr rfl⟩
  · rw [Dict.entries_set_new (hs.get_new firmId)]
    exact List.forall_mem_append.mpr ⟨fun e he => Nat.lt_succ_of_lt (hs.drawn e he),
      List.forall_mem_singleton.mpr (Nat.lt_succ_self _)⟩

/-- What a removal does. -/
lemma stepsOf_remove (s : ActionPlanner) (firmId : String) (id : Uuid) (firmId' strategyId' : String) :
    ((s.removeStep firmId id).stepsOf firmId' strategyId').Sublist (s.stepsOf firmId' strategyId') :=
  (List.filter_sublist.filter _).map _

lemma Fresh.remove (hs : s.Fresh) (firmId : String) (id : Uuid) : (s.removeStep firmId id).Fresh where
  ids e he := hs.ids e (List.mem_of_mem_filter he)
  drawn e he := hs.drawn e (List.mem_of_mem_filter he)

/-- What a step does that is changed in its place. -/
lemma stepsOf_set (hs : s.Fresh) (step' : ActionStep) (hget : s.steps.get (firmId, id) = some step)
    (hstrategy : step'.strategyId = step.strategyId) (firmId' strategyId' : String) :
    stepsOf { s with steps := s.steps.set (firmId, id) step' } firmId' strategyId' =
      (s.stepsOf firmId' strategyId').map fun x => if firmId' = firmId ∧ x.id = id then step' else x := by
  have hkey : ∀ e ∈ s.steps.entries, e.1 = (firmId, id) → e.2 = step := by
    rintro ⟨key, x⟩ hmem rfl
    rw [Dict.mem_entries_iff.mp hmem] at hget
    exact Option.some.inj hget
  have hfilter : ∀ e ∈ s.steps.entries,
      decide ((if e.1 = (firmId, id) then ((firmId, id), step') else e).1.1 = firmId' ∧
        (if e.1 = (firmId, id) then ((firmId, id), step') else e).2.strategyId = strategyId') =
      decide (e.1.1 = firmId' ∧ e.2.strategyId = strategyId') := by
    intro e he
    split_ifs with h
    · rw [hkey e he h, h, hstrategy]
    · rfl
  rw [stepsOf, stepsOf, Dict.entries_set_present hget, List.filter_map, List.map_map, List.map_map]
  rw [List.filter_congr (q := fun e => decide (e.1.1 = firmId' ∧ e.2.strategyId = strategyId')) hfilter]
  refine List.map_congr_left fun e he => ?_
  obtain ⟨hmem, hfirm⟩ := List.mem_filter.mp he
  have hsame : e.1 = (firmId, id) ↔ firmId' = firmId ∧ e.2.id = id := by
    rw [hs.ids e hmem, ← (of_decide_eq_true hfirm).1]
    exact Prod.ext_iff
  simp only [Function.comp_apply, hsame]
  split_ifs <;> rfl

lemma Fresh.set (hs : s.Fresh) (step' : ActionStep) (hget : s.steps.get (firmId, id) = some step) (hid : step'.id = step.id) :
    ({ s with steps := s.steps.set (firmId, id) step' } : ActionPlanner).Fresh := by
  have hentries : ∀ e ∈ (s.steps.set (firmId, id) step').entries,
      ∃ e' ∈ s.steps.entries, e.1 = e'.1 ∧ e.2.id = e'.2.id := by
    intro e he
    rw [Dict.entries_set_present hget] at he
    obtain ⟨e', he', rfl⟩ := List.mem_map.mp he
    by_cases h : e'.1 = (firmId, id)
    · refine ⟨((firmId, id), step), Dict.mem_entries_iff.mpr hget, ?_⟩
      rw [if_pos h]
      exact ⟨rfl, hid⟩
    · exact ⟨e', he', by rw [if_neg h], by rw [if_neg h]⟩
  constructor
  · intro e he
    obtain ⟨e', he', hkey, hid'⟩ := hentries e he
    rw [hid', hkey, hs.ids e' he']
  · intro e he
    obtain ⟨e', he', hkey, -⟩ := hentries e he
    rw [hkey]
    exact hs.drawn e' he'

/-- The step under an identifier is the one of its strategy. -/
lemma Fresh.eq_of_id (hs : s.Fresh) (hget : s.steps.get (firmId, id) = some step) {x : ActionStep}
    (hx : x ∈ s.stepsOf firmId strategyId) (hid : x.id = id) : x = step := by
  obtain ⟨id', hget', -⟩ := mem_stepsOf.mp hx
  rw [← hs.id_eq hget', hid, hget] at hget'
  exact (Option.some.inj hget').symm

lemma Fresh.known_iff (hs : s.Fresh) : id ∈ (s.stepsOf firmId strategyId).map (·.id) ↔
    ∃ step, s.steps.get (firmId, id) = some step ∧ step.strategyId = strategyId := by
  constructor
  · intro h
    obtain ⟨step, hstep, rfl⟩ := List.mem_map.mp h
    obtain ⟨id, hget, hstrategy⟩ := mem_stepsOf.mp hstep
    exact ⟨step, hs.id_eq hget ▸ hget, hstrategy⟩
  · rintro ⟨step, hget, hstrategy⟩
    exact List.mem_map.mpr ⟨step, mem_stepsOf.mpr ⟨id, hget, hstrategy⟩, hs.id_eq hget⟩

/-- What a new order of a step does. -/
lemma stepsOf_setOrder (hs : s.Fresh) (hget : s.steps.get (firmId, id) = some step)
    (hstrategy : step.strategyId = strategyId) (n : ℕ) (firmId' strategyId' : String) :
    stepsOf { s with steps := s.steps.set (firmId, id) { step with order := n } } firmId' strategyId' =
      if firmId' = firmId ∧ strategyId' = strategyId then
        (s.stepsOf firmId strategyId).map fun x => if x.id = id then { x with order := n } else x
      else s.stepsOf firmId' strategyId' := by
  rw [stepsOf_set hs { step with order := n } hget rfl]
  split_ifs with hsame
  · obtain ⟨rfl, rfl⟩ := hsame
    refine List.map_congr_left fun x hx => ?_
    by_cases hid : x.id = id
    · rw [if_pos ⟨rfl, hid⟩, if_pos hid, hs.eq_of_id hget hx hid]
    · rw [if_neg fun h => hid h.2, if_neg hid]
  · have hsteps : (s.stepsOf firmId' strategyId').map (fun x => if firmId' = firmId ∧ x.id = id then
        { step with order := n } else x) = (s.stepsOf firmId' strategyId').map fun x => x := by
      refine List.map_congr_left fun x hx => if_neg ?_
      rintro ⟨rfl, hid⟩
      obtain ⟨-, -, hstrategy'⟩ := mem_stepsOf.mp hx
      rw [hs.eq_of_id hget hx hid] at hstrategy'
      exact hsame ⟨rfl, hstrategy'.symm.trans hstrategy⟩
    rw [hsteps, List.map_id']

end Steps

/-! ### A reordering -/

section Reorder

variable {s : ActionPlanner} {firmId strategyId : String} {ids : List Uuid}

/-- The ids up to the first one that is none of a step of the strategy. -/
def knownIds (s : ActionPlanner) (firmId strategyId : String) (ids : List Uuid) : List Uuid :=
  ids.takeWhile fun id => id ∈ (s.stepsOf firmId strategyId).map (·.id)

lemma knownIds_congr {s' : ActionPlanner}
    (h : (s'.stepsOf firmId strategyId).map (·.id) = (s.stepsOf firmId strategyId).map (·.id)) (ids : List Uuid) :
    s'.knownIds firmId strategyId ids = s.knownIds firmId strategyId ids := by
  rw [knownIds, knownIds, h]

lemma map_id_moved (n : ℕ) (ids : List Uuid) (plan : List ActionStep) :
    (plan.map (moved n ids)).map (·.id) = plan.map (·.id) := by
  rw [List.map_map]
  exact List.map_congr_left fun x _ => id_moved n ids x

/-- A reordering that comes to no step. -/
lemma stepsOf_moved_nil (s : ActionPlanner) (n : ℕ) (firmId' strategyId' : String) : s.stepsOf firmId' strategyId' =
    if firmId' = firmId ∧ strategyId' = strategyId then (s.stepsOf firmId strategyId).map (moved n [])
    else s.stepsOf firmId' strategyId' := by
  split_ifs with hsame
  · rw [hsame.1, hsame.2, List.map_congr_left fun x _ => moved_of_not_mem List.not_mem_nil, List.map_id']
  · rfl

/-- **What a reordering does**: the steps it comes to get their last positions, and the others stay. -/
theorem reorderFrom_cases (hs : s.Fresh) (firmId strategyId : String) (n : ℕ) (ids : List Uuid) :
    ((reorderFrom firmId strategyId n ids s).1 = .ok () ↔ s.knownIds firmId strategyId ids = ids) ∧
      (reorderFrom firmId strategyId n ids s).2.Fresh ∧
      ∀ firmId' strategyId', (reorderFrom firmId strategyId n ids s).2.stepsOf firmId' strategyId' =
        if firmId' = firmId ∧ strategyId' = strategyId then
          (s.stepsOf firmId strategyId).map (moved n (s.knownIds firmId strategyId ids))
        else s.stepsOf firmId' strategyId' := by
  induction ids generalizing s n with
  | nil => exact ⟨iff_of_true rfl rfl, hs, stepsOf_moved_nil s n⟩
  | cons id ids ih =>
    by_cases hknown : id ∈ (s.stepsOf firmId strategyId).map (·.id)
    · obtain ⟨step, hget, hstrategy⟩ := hs.known_iff.mp hknown
      have hsteps := stepsOf_setOrder hs hget hstrategy n
      have hstep : reorderFrom firmId strategyId n (id :: ids) s = reorderFrom firmId strategyId (n + 1) ids
          { s with steps := s.steps.set (firmId, id) { step with order := n } } := by
        rw [reorderFrom, hget]
        exact if_neg (not_not.mpr hstrategy)
      have hids : (stepsOf { s with steps := s.steps.set (firmId, id) { step with order := n } } firmId
          strategyId).map (·.id) = (s.stepsOf firmId strategyId).map (·.id) := by
        rw [hsteps, if_pos ⟨rfl, rfl⟩, List.map_map]
        refine List.map_congr_left fun x _ => ?_
        dsimp only [Function.comp_apply]
        split_ifs <;> rfl
      have hprefixed : s.knownIds firmId strategyId (id :: ids) = id :: s.knownIds firmId strategyId ids :=
        List.takeWhile_cons_of_pos (decide_eq_true hknown)
      obtain ⟨hok, hfresh, hrest⟩ := ih (hs.set { step with order := n } hget rfl) (n + 1)
      rw [hstep, hprefixed, hok, knownIds_congr hids, List.cons.injEq, eq_self, true_and]
      refine ⟨Iff.rfl, hfresh, fun firmId' strategyId' => ?_⟩
      rw [hrest, knownIds_congr hids]
      split_ifs with hsame
      · rw [hsteps, if_pos ⟨rfl, rfl⟩, List.map_map]
        exact List.map_congr_left fun x _ => moved_cons ..
      · rw [hsteps, if_neg hsame]
    · have hstep : ∃ e, reorderFrom firmId strategyId n (id :: ids) s = (.error e, s) := by
        rw [reorderFrom]
        cases hget : s.steps.get (firmId, id) with
        | none => exact ⟨_, rfl⟩
        | some step =>
          have hstrategy : step.strategyId ≠ strategyId := fun h => hknown (hs.known_iff.mpr ⟨step, hget, h⟩)
          exact ⟨_, if_pos hstrategy⟩
      obtain ⟨e, hstep⟩ := hstep
      have hprefixed : s.knownIds firmId strategyId (id :: ids) = [] :=
        List.takeWhile_cons_of_neg (by simpa using hknown)
      rw [hstep, hprefixed]
      refine ⟨iff_of_false ?_ ?_, hs, stepsOf_moved_nil s n⟩
      · intro h
        cases h
      · exact (List.cons_ne_nil _ _).symm

end Reorder

/-! ### Orders of a plan -/

section Orders

variable {plan : List ActionStep} {ids : List Uuid} {new : ActionStep}

instance : Std.Total fun a b : ActionStep => a.order ≤ b.order := ⟨fun a b => le_total a.order b.order⟩

instance : IsTrans ActionStep fun a b => a.order ≤ b.order := ⟨fun _ _ _ => le_trans⟩

/-- Steps in their order. -/
def sorted (plan : List ActionStep) : List ActionStep := plan.insertionSort fun a b => a.order ≤ b.order

lemma orderedInsert_concat {α : Type} {r : α → α → Prop} [DecidableRel r] {x y : α} (hxy : r x y) (xs : List α) :
    (xs ++ [y]).orderedInsert r x = xs.orderedInsert r x ++ [y] := by
  induction xs with
  | nil => simp [hxy]
  | cons z zs ih =>
    rw [List.cons_append, List.orderedInsert_cons, List.orderedInsert_cons, ih]
    split_ifs <;> rfl

/-- What comes last in the order comes last in the sorted list. -/
lemma insertionSort_concat {α : Type} {r : α → α → Prop} [DecidableRel r] {y : α} {xs : List α}
    (h : ∀ x ∈ xs, r x y) : (xs ++ [y]).insertionSort r = xs.insertionSort r ++ [y] := by
  induction xs with
  | nil => rfl
  | cons x xs ih =>
    obtain ⟨hx, hxs⟩ := List.forall_mem_cons.mp h
    rw [List.cons_append, List.insertionSort_cons, ih hxs, List.insertionSort_cons, orderedInsert_concat hx]

/-- A step that is added is listed last, beside other orders, iff its order is above the others. -/
lemma added_iff (hplan : (plan.map (·.order)).Nodup) :
    ((plan ++ [new]).map (·.order)).Nodup ∧ (sorted (plan ++ [new])).getLast? = some new ↔
      ∀ x ∈ plan, x.order < new.order := by
  constructor
  · rintro ⟨hnodup, hlast⟩ x hx
    rw [List.map_append, List.nodup_append] at hnodup
    have hne : x.order ≠ new.order :=
      hnodup.2.2 _ (List.mem_map_of_mem hx) _ (List.mem_singleton_self _)
    have hpairwise := List.pairwise_insertionSort (fun a b : ActionStep => a.order ≤ b.order) (plan ++ [new])
    obtain ⟨before, hbefore⟩ := List.getLast?_eq_some_iff.mp hlast
    rw [sorted] at hbefore
    have hmem : x ∈ (plan ++ [new]).insertionSort fun a b => a.order ≤ b.order :=
      (List.mem_insertionSort _).mpr (List.mem_append_left _ hx)
    rw [hbefore] at hpairwise hmem
    rcases List.mem_append.mp hmem with hmem | hmem
    · exact lt_of_le_of_ne ((List.pairwise_append.mp hpairwise).2.2 x hmem new (List.mem_singleton_self _)) hne
    · exact absurd (congrArg ActionStep.order (List.mem_singleton.mp hmem)) hne
  · intro h
    constructor
    · rw [List.map_append]
      refine List.nodup_append.mpr ⟨hplan, List.nodup_singleton _, ?_⟩
      rintro n hn m hm rfl
      obtain ⟨x, hx, hxn⟩ := List.mem_map.mp hn
      rw [List.mem_singleton.mp hm] at hxn
      exact (h x hx).ne hxn
    · rw [sorted, insertionSort_concat fun x hx => (h x hx).le, List.getLast?_concat]

/-- The order of a step of the tuple is its last position. -/
lemma exists_moved {x : ActionStep} (hx : x.id ∈ ids) :
    ∃ k : ℕ, lastPosition 0 ids x.id = some k ∧ (moved 0 ids x).order = k := by
  obtain ⟨k, hk⟩ := exists_lastPosition 0 hx
  exact ⟨k, hk, by rw [moved_of_some hk]⟩

/-- The orders after a reordering by known ids are distinct iff no step that is left has a position that is given. -/
lemma moved_nodup_iff (hids : (plan.map (·.id)).Nodup) (hplan : (plan.map (·.order)).Nodup)
    (hknown : ∀ id ∈ ids, id ∈ plan.map (·.id)) :
    ((plan.map (moved 0 ids)).map (·.order)).Nodup ↔
      ∀ x ∈ plan, x.id ∉ ids → ∀ id ∈ ids, ∀ k : ℕ, lastPosition 0 ids id = some k → x.order ≠ k := by
  rw [List.map_map, List.nodup_map_iff_inj_on (List.Nodup.of_map _ hids)]
  constructor
  · intro hinj x hx hleft id hid k hk horder
    obtain ⟨y, hy, rfl⟩ := List.mem_map.mp (hknown id hid)
    have hsame := hinj x hx y hy
    simp only [Function.comp_apply, moved_of_not_mem hleft, moved_of_some hk] at hsame
    exact hleft (hsame horder ▸ hid)
  · intro h x hx y hy horder
    simp only [Function.comp_apply] at horder
    by_cases hxids : x.id ∈ ids <;> by_cases hyids : y.id ∈ ids
    · obtain ⟨k, hk, hxk⟩ := exists_moved hxids
      obtain ⟨k', hk', hyk⟩ := exists_moved hyids
      rw [hxk, hyk] at horder
      rw [Nat.cast_inj.mp horder] at hk
      exact List.inj_on_of_nodup_map hids hx hy (lastPosition_inj hk hk')
    · obtain ⟨k, hk, hxk⟩ := exists_moved hxids
      rw [hxk, moved_of_not_mem hyids] at horder
      exact absurd horder.symm (h y hy hyids x.id hxids k hk)
    · obtain ⟨k, hk, hyk⟩ := exists_moved hyids
      rw [hyk, moved_of_not_mem hxids] at horder
      exact absurd horder (h x hx hxids y.id hyids k hk)
    · rw [moved_of_not_mem hxids, moved_of_not_mem hyids] at horder
      exact List.inj_on_of_nodup_map hplan hx hy horder

/-- A reordering leaves the steps iff those it comes to have their last positions already. -/
lemma moved_eq_iff : plan.map (moved 0 ids) = plan ↔
    ∀ x ∈ plan, ∀ k : ℕ, lastPosition 0 ids x.id = some k → x.order = k := by
  have hmap : plan.map (moved 0 ids) = plan ↔ ∀ x ∈ plan, moved 0 ids x = x := by
    have hid : plan = plan.map id := (List.map_id plan).symm
    conv_lhs => rhs; rw [hid]
    exact List.map_inj_left
  rw [hmap]
  refine forall_congr' fun x => imp_congr_right fun _ => ?_
  constructor
  · intro h k hk
    rw [← h, moved_of_some hk]
  · intro h
    cases hlast : lastPosition 0 ids x.id with
    | none => exact moved_of_not_mem (lastPosition_eq_none_iff.mp hlast)
    | some k =>
      rw [moved_of_some hlast, ← h k hlast]

/-- The last position of `a` is not after that of `b`. -/
def NotAfter (ids : List Uuid) (a b : Uuid) : Prop :=
  ∀ i j : ℕ, lastPosition 0 ids a = some i → lastPosition 0 ids b = some j → i ≤ j

lemma pairwise_notAfter (hnodup : ids.Nodup) : ids.Pairwise (NotAfter ids) := by
  refine List.pairwise_iff_getElem.mpr fun i j hi hj hlt m n hm hn => ?_
  rw [lastPosition_getElem hnodup hi, Nat.zero_add] at hm
  rw [lastPosition_getElem hnodup hj, Nat.zero_add] at hn
  obtain rfl := Option.some.inj hm
  obtain rfl := Option.some.inj hn
  exact hlt.le

/-- **A permutation is listed as it is.** -/
theorem sorted_moved (hids : (plan.map (·.id)).Nodup) (hperm : ids.Perm (plan.map (·.id))) :
    (sorted (plan.map (moved 0 ids))).map (·.id) = ids := by
  have hmem : ∀ x ∈ sorted (plan.map (moved 0 ids)), ∃ k : ℕ, lastPosition 0 ids x.id = some k ∧ x.order = k := by
    intro x hx
    obtain ⟨y, hy, rfl⟩ := List.mem_map.mp ((List.mem_insertionSort _).mp hx)
    rw [id_moved]
    exact exists_moved (hperm.mem_iff.mpr (List.mem_map_of_mem hy))
  have hlisted : ((sorted (plan.map (moved 0 ids))).map (·.id)).Perm ids := by
    have hsorted := (List.perm_insertionSort (fun a b : ActionStep => a.order ≤ b.order)
      (plan.map (moved 0 ids))).map (·.id)
    rw [map_id_moved] at hsorted
    exact hsorted.trans hperm.symm
  have hpairwise : ((sorted (plan.map (moved 0 ids))).map (·.id)).Pairwise (NotAfter ids) := by
    rw [List.pairwise_map]
    refine (List.pairwise_insertionSort (fun a b : ActionStep => a.order ≤ b.order) _).imp_of_mem
      fun {x y} hx hy hle i j hi hj => ?_
    obtain ⟨k, hk, hxk⟩ := hmem x hx
    obtain ⟨k', hk', hyk⟩ := hmem y hy
    rw [hi] at hk
    rw [hj] at hk'
    obtain rfl := Option.some.inj hk
    obtain rfl := Option.some.inj hk'
    rw [hxk, hyk] at hle
    exact Int.ofNat_le.mp hle
  refine List.Perm.eq_of_pairwise (fun a b ha hb hab hba => ?_) hpairwise
    (pairwise_notAfter (hperm.nodup_iff.mpr hids)) hlisted
  obtain ⟨i, hi⟩ := exists_lastPosition 0 (hlisted.subset ha)
  obtain ⟨j, hj⟩ := exists_lastPosition 0 hb
  rw [le_antisymm (hab i j hi hj) (hba j i hj hi)] at hi
  exact lastPosition_inj hi hj

end Orders

end ActionPlanner

/-! ### Runs -/

/-- The calls that change the plans; no order is given for a new step. -/
inductive PlanCall where
  | addStep (firmId strategyId description category : String)
  | removeStep (firmId : String) (stepId : Uuid)
  | markDone (firmId : String) (stepId : Uuid) (done : Bool)
  | reorder (firmId strategyId : String) (orderedStepIds : List Uuid)

namespace ActionPlanner

/-- The planner after a call. -/
def step (s : ActionPlanner) : PlanCall → ActionPlanner
  | .addStep firmId strategyId description category => (s.addStep firmId strategyId description category none).2
  | .removeStep firmId stepId => s.removeStep firmId stepId
  | .markDone firmId stepId done => afterCall s (s.markDone firmId stepId done)
  | .reorder firmId strategyId orderedStepIds => (s.reorder firmId strategyId orderedStepIds).2

/-- The steps of a strategy have different orders. -/
def DistinctOrders (s : ActionPlanner) : Prop :=
  ∀ firmId strategyId, ((s.listForStrategy firmId strategyId).map (·.order)).Nodup

/-- What is asked of a call: the orders stay distinct, a new step is listed last, a reordering that raises leaves all
steps as they are, and one by a permutation of the steps is listed as this permutation. -/
def InOrder (s : ActionPlanner) (call : PlanCall) : Prop :=
  (s.step call).DistinctOrders ∧
    match call with
    | .addStep firmId strategyId description category =>
      ((s.step call).listForStrategy firmId strategyId).getLast? =
        some (s.addStep firmId strategyId description category none).1
    | .reorder firmId strategyId ids =>
      (∀ e, (s.reorder firmId strategyId ids).1 = .error e →
        ∀ firmId' strategyId', (s.step call).stepsOf firmId' strategyId' = s.stepsOf firmId' strategyId') ∧
      (ids.Perm ((s.listForStrategy firmId strategyId).map (·.id)) →
        ((s.step call).listForStrategy firmId strategyId).map (·.id) = ids)
    | _ => True

/-- When it does so: each order is below the number of steps when one is added; and a reordering gives no position that
a step has which it leaves, or moves no step before it raises. -/
def Compact (s : ActionPlanner) : PlanCall → Prop
  | .addStep firmId strategyId _ _ =>
    ∀ x ∈ s.stepsOf firmId strategyId, x.order < (s.stepsOf firmId strategyId).length
  | .reorder firmId strategyId ids =>
    if s.knownIds firmId strategyId ids = ids then
      ∀ x ∈ s.stepsOf firmId strategyId, x.id ∉ ids → ∀ id ∈ ids, ∀ k : ℕ, lastPosition 0 ids id = some k → x.order ≠ k
    else ∀ x ∈ s.stepsOf firmId strategyId, ∀ k : ℕ,
      lastPosition 0 (s.knownIds firmId strategyId ids) x.id = some k → x.order = k
  | _ => True

section Runs

variable {s : ActionPlanner}

lemma distinctOrders_iff : s.DistinctOrders ↔
    ∀ firmId strategyId, ((s.stepsOf firmId strategyId).map (·.order)).Nodup :=
  forall_congr' fun _ => forall_congr' fun _ => ((List.perm_insertionSort _ _).map _).nodup_iff

/-- Where a call changes the steps of one strategy only, the orders stay distinct iff those of this strategy do. -/
lemma distinctOrders_iff_of_eq {s' : ActionPlanner} (hs : s.DistinctOrders) {firmId strategyId : String}
    {plan : List ActionStep} (h : ∀ firmId' strategyId', s'.stepsOf firmId' strategyId' =
      if firmId' = firmId ∧ strategyId' = strategyId then plan else s.stepsOf firmId' strategyId') :
    s'.DistinctOrders ↔ (plan.map (·.order)).Nodup := by
  rw [distinctOrders_iff]
  constructor
  · intro hdistinct
    have hplan := hdistinct firmId strategyId
    rwa [h, if_pos ⟨rfl, rfl⟩] at hplan
  · intro hplan firmId' strategyId'
    rw [h]
    split_ifs
    · exact hplan
    · exact distinctOrders_iff.mp hs firmId' strategyId'

lemma orders_markDone (hs : s.Fresh) (firmId : String) (id : Uuid) (done : Bool) :
    (afterCall s (s.markDone firmId id done)).Fresh ∧ ∀ firmId' strategyId',
      ((afterCall s (s.markDone firmId id done)).stepsOf firmId' strategyId').map (·.order) =
        (s.stepsOf firmId' strategyId').map (·.order) := by
  rw [markDone]
  cases hget : s.steps.get (firmId, id) with
  | none => exact ⟨hs, fun _ _ => rfl⟩
  | some step =>
    refine ⟨hs.set { step with done } hget rfl, fun firmId' strategyId' => ?_⟩
    rw [afterCall_ok, stepsOf_set hs { step with done } hget rfl, List.map_map]
    refine List.map_congr_left fun x hx => ?_
    dsimp only [Function.comp_apply]
    split_ifs with hsame
    · obtain ⟨rfl, hid⟩ := hsame
      rw [hs.eq_of_id hget hx hid]
    · rfl

lemma fresh_step (hs : s.Fresh) (call : PlanCall) : (s.step call).Fresh := by
  cases call with
  | addStep firmId strategyId description category => exact hs.add ..
  | removeStep firmId id => exact hs.remove ..
  | markDone firmId id done => exact (orders_markDone hs firmId id done).1
  | reorder firmId strategyId ids => exact (reorderFrom_cases hs firmId strategyId 0 ids).2.1

/-- A call is in order iff the plan is compact for it. -/
lemma inOrder_iff (hs : s.Fresh) (hdistinct : s.DistinctOrders) (call : PlanCall) : s.InOrder call ↔ s.Compact call := by
  cases call with
  | addStep firmId strategyId description category =>
    have hsteps : ∀ firmId' strategyId', (s.addStep firmId strategyId description category none).2.stepsOf firmId'
        strategyId' = _ := stepsOf_add hs description category none
    have horder : (s.addStep firmId strategyId description category none).1.order =
        (s.stepsOf firmId strategyId).length := congrArg Nat.cast (List.length_insertionSort _ _)
    have hadded : ((_ ++ [(s.addStep firmId strategyId description category none).1]).map (·.order)).Nodup ∧ _ ↔ _ :=
      added_iff (distinctOrders_iff.mp hdistinct firmId strategyId)
    rw [horder] at hadded
    rw [InOrder, Compact, ← hadded, step, distinctOrders_iff_of_eq hdistinct hsteps,
      listForStrategy, hsteps, if_pos ⟨rfl, rfl⟩]
    rfl
  | removeStep firmId id =>
    refine iff_of_true ⟨distinctOrders_iff.mpr fun firmId' strategyId' => ?_, trivial⟩ trivial
    exact ((stepsOf_remove s firmId id firmId' strategyId').map _).nodup
      (distinctOrders_iff.mp hdistinct firmId' strategyId')
  | markDone firmId id done =>
    refine iff_of_true ⟨distinctOrders_iff.mpr fun firmId' strategyId' => ?_, trivial⟩ trivial
    rw [step, (orders_markDone hs firmId id done).2]
    exact distinctOrders_iff.mp hdistinct firmId' strategyId'
  | reorder firmId strategyId ids =>
    obtain ⟨hok, -, hsteps⟩ := reorderFrom_cases hs firmId strategyId 0 ids
    have hids := hs.nodup_ids firmId strategyId
    have horders := distinctOrders_iff.mp hdistinct firmId strategyId
    rw [InOrder, Compact, step, reorder, distinctOrders_iff_of_eq hdistinct hsteps]
    by_cases hknown : s.knownIds firmId strategyId ids = ids
    · -- The call returns: what is left is that the orders are distinct.
      have hmem : ∀ id ∈ ids, id ∈ (s.stepsOf firmId strategyId).map (·.id) := by
        rw [knownIds, List.takeWhile_eq_self_iff] at hknown
        exact fun id hid => of_decide_eq_true (hknown id hid)
      rw [if_pos hknown, hknown, moved_nodup_iff hids horders hmem]
      refine and_iff_left ⟨fun e he => ?_, fun hperm => ?_⟩
      · rw [hok.mpr hknown] at he
        cases he
      · rw [listForStrategy, hsteps, if_pos ⟨rfl, rfl⟩, hknown]
        exact sorted_moved hids (hperm.trans ((List.perm_insertionSort _ _).map _))
    · -- It raises: what is left is that no step has been moved.
      have herror : ∃ e, (reorderFrom firmId strategyId 0 ids s).1 = .error e := by
        cases hresult : (reorderFrom firmId strategyId 0 ids s).1 with
        | error e => exact ⟨e, rfl⟩
        | ok _ => exact absurd (hok.mp hresult) hknown
      obtain ⟨e, he⟩ := herror
      rw [if_neg hknown, ← moved_eq_iff]
      constructor
      · rintro ⟨-, hunchanged, -⟩
        have hsame := hunchanged e he firmId strategyId
        rwa [hsteps, if_pos ⟨rfl, rfl⟩] at hsame
      · intro hsame
        refine ⟨by rwa [hsame], fun _ _ firmId' strategyId' => ?_, fun hperm => absurd ?_ hknown⟩
        · rw [hsteps, hsame]
          split_ifs with hpair
          · rw [hpair.1, hpair.2]
          · rfl
        · refine List.takeWhile_eq_self_iff.mpr fun id hid => decide_eq_true ?_
          exact (hperm.trans ((List.perm_insertionSort _ _).map _)).subset hid

lemma fresh_empty : ({} : ActionPlanner).Fresh where
  ids := fun _ he => absurd he List.not_mem_nil
  drawn := fun _ he => absurd he List.not_mem_nil

lemma distinctOrders_empty : ({} : ActionPlanner).DistinctOrders := fun _ _ => List.nodup_nil

/-- **The orders of plans**: all calls of a run are in order iff each finds the plan compact; and then the steps of
every strategy have different orders after it. -/
theorem action_plan_orders (calls : List PlanCall) :
    (Along step InOrder {} calls ↔ Along step Compact {} calls) ∧
      (Along step Compact {} calls → (run step {} calls).DistinctOrders) := by
  have hkeeps : ∀ (s : ActionPlanner) (call : PlanCall), s.Fresh ∧ s.DistinctOrders → s.Compact call →
      (s.step call).Fresh ∧ (s.step call).DistinctOrders :=
    fun s call hs hcompact => ⟨fresh_step hs.1 call, ((inOrder_iff hs.1 hs.2 call).mpr hcompact).1⟩
  refine ⟨along_congr ⟨fresh_empty, distinctOrders_empty⟩ hkeeps fun s call hs => inOrder_iff hs.1 hs.2 call, ?_⟩
  intro h
  exact (h.inv ⟨fresh_empty, distinctOrders_empty⟩ hkeeps).2

/-- Three steps, of which the first one is removed: the next one has the order of the last one. -/
theorem order_twice :
    ∃ calls, ¬ (run step {} calls).DistinctOrders ∧
      ((run step {} calls).listForStrategy "firm" "strategy").map (fun x => (x.id, x.order)) =
        [(1, 1), (2, 2), (3, 2)] :=
  ⟨[.addStep "firm" "strategy" "Étape 1" "preuve", .addStep "firm" "strategy" "Étape 2" "preuve",
    .addStep "firm" "strategy" "Étape 3" "preuve", .removeStep "firm" 0,
    .addStep "firm" "strategy" "Étape 4" "preuve"],
    fun h => absurd (h "firm" "strategy") (by decide +kernel), by decide +kernel⟩

end Runs

end ActionPlanner

end Tmis.StrategicIntelligence
