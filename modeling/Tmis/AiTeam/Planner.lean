import Tmis.AiTeam.Mission
import Tmis.Lib.Acyclic
import Tmis.Lib.Run

/-!
# The planner

`ai_team.planner`: a mission is a chain of steps that a template lists, each after the one before it, with an
analysis of risks after the last research where the domain has an expert.

* `templateFor`, `chain`, `spliceAfter`, `decompose` — templates, and the plan made of one;
* `nodup_types_decompose` — the sub-tasks of a plan are of different types;
* `Ordered`, `Needs`, `ValidPlan` — dependencies that stand before what depends on them;
* `ValidPlan.threads`, `splices_keep_chain` — what a sub-task that is spliced in does to them, and any number of them.
-/

namespace Tmis.AiTeam

open Tmis.Lib

def LegalDomain.value : LegalDomain → String
  | .general => "general"
  | .civil => "civil"
  | .commercial => "commercial"
  | .social => "social"
  | .fiscal => "fiscal"
  | .dataProtection => "data_protection"
  | .penal => "penal"

/-- The value of an enumeration's member names it. -/
lemma TaskType.value_injective : Function.Injective TaskType.value := by
  intro a b h
  revert h
  cases a <;> cases b <;> decide

namespace Planner

abbrev MissionStep := TaskType × AgentRole

/-- `template_for`: an unknown type of case is a full analysis. -/
def templateFor (caseType : String) : List MissionStep :=
  if caseType = "quick_review" then
    [(.verification, .verifier), (.qualityControl, .qualityController)]
  else if caseType = "drafting_only" then
    [(.drafting, .drafter), (.verification, .verifier)]
  else if caseType = "standard_analysis" then
    [(.documentAnalysis, .documentAnalyst), (.legalResearch, .legalResearcher), (.verification, .verifier),
      (.qualityControl, .qualityController)]
  else
    [(.documentAnalysis, .documentAnalyst), (.legalResearch, .legalResearcher),
      (.jurisprudenceResearch, .jurisprudenceExpert), (.reasoning, .drafter), (.drafting, .drafter),
      (.verification, .verifier), (.qualityControl, .qualityController)]

def domainExpertRole : LegalDomain → Option AgentRole
  | .dataProtection => some .gdprExpert
  | .fiscal => some .taxExpert
  | .social => some .socialLawExpert
  | _ => none

/-- `_DESCRIPTIONS.get(task_type, task_type.value)`. -/
def description : TaskType → String
  | .documentAnalysis => "Analyser les documents du dossier."
  | .legalResearch => "Rechercher les textes juridiques applicables."
  | .jurisprudenceResearch => "Rechercher la jurisprudence pertinente."
  | .reasoning => "Construire le raisonnement juridique."
  | .drafting => "Rédiger le document à partir du raisonnement établi."
  | .verification => "Vérifier la fiabilité et la cohérence du contenu."
  | .qualityControl => "Contrôler la qualité finale du livrable."
  | taskType => taskType.value

/-- A sub-task for each step, after that of the step before it.  `newSubtaskId n` is the identifier that is
drawn for the step `n`. -/
def chain (newSubtaskId : ℕ → String) : ℕ → Option String → List MissionStep → List SubTask
  | _, _, [] => []
  | n, previousId, (taskType, role) :: steps =>
      { id := newSubtaskId n
        taskType
        assignedRole := role
        description := description taskType
        dependsOn := previousId.toList } :: chain newSubtaskId (n + 1) (some (newSubtaskId n)) steps

/-- The sub-task on its way through `_splice_after`. -/
def rewire (afterId : String) (newSubTask subTask : SubTask) : SubTask :=
  if afterId ∈ subTask.dependsOn ∧ subTask.id ≠ newSubTask.id then
    { subTask with dependsOn := subTask.dependsOn.map fun dep => if dep = afterId then newSubTask.id else dep }
  else subTask

/-- `_splice_after`. -/
def spliceAfter (afterId : String) (newSubTask : SubTask) : List SubTask → List SubTask
  | [] => []
  | subTask :: rest =>
      rewire afterId newSubTask subTask ::
        if subTask.id = afterId then newSubTask :: spliceAfter afterId newSubTask rest
        else spliceAfter afterId newSubTask rest

/-- `Planner.decompose`: the sub-tasks of the plan. -/
def decompose (newSubtaskId : ℕ → String) (domain : LegalDomain) (caseType : String) : List SubTask :=
  let steps := templateFor caseType
  let subTasks := chain newSubtaskId 0 none steps
  let research := subTasks.filter fun subTask =>
    subTask.taskType = .jurisprudenceResearch ∨ subTask.taskType = .legalResearch
  match domainExpertRole domain, research.getLast? with
  | some expertRole, some lastResearch =>
      spliceAfter lastResearch.id
        { id := newSubtaskId steps.length
          taskType := .riskAnalysis
          assignedRole := expertRole
          description := "Analyser les risques spécifiques au domaine " ++ domain.value ++ "."
          dependsOn := [lastResearch.id] } subTasks
  | _, _ => subTasks

/-! ### The types of sub-tasks -/

section Types

variable {newSubtaskId : ℕ → String} {afterId : String} {newSubTask : SubTask} {subTasks : List SubTask}

@[simp] lemma rewire_id (subTask : SubTask) : (rewire afterId newSubTask subTask).id = subTask.id := by
  unfold rewire
  split <;> rfl

@[simp] lemma rewire_taskType (subTask : SubTask) :
    (rewire afterId newSubTask subTask).taskType = subTask.taskType := by
  unfold rewire
  split <;> rfl

lemma taskType_chain (steps : List MissionStep) : ∀ (n : ℕ) (previousId : Option String),
    (chain newSubtaskId n previousId steps).map SubTask.taskType = steps.map Prod.fst := by
  induction steps with
  | nil => exact fun _ _ => rfl
  | cons step steps ih =>
    intro n previousId
    rw [chain, List.map_cons, List.map_cons, ih]

/-- Sub-tasks keep their identifiers, and one is added. -/
lemma sublist_spliceAfter :
    (subTasks.map SubTask.id).Sublist ((spliceAfter afterId newSubTask subTasks).map SubTask.id) := by
  induction subTasks with
  | nil => exact List.Sublist.refl _
  | cons subTask rest ih =>
    rw [spliceAfter, List.map_cons, List.map_cons, rewire_id]
    refine List.Sublist.cons_cons _ ?_
    split
    · exact ih.cons _
    · exact ih

lemma taskType_spliceAfter_of_not_mem (h : afterId ∉ subTasks.map SubTask.id) :
    (spliceAfter afterId newSubTask subTasks).map SubTask.taskType = subTasks.map SubTask.taskType := by
  induction subTasks with
  | nil => rfl
  | cons subTask rest ih =>
    rw [List.map_cons, List.mem_cons, not_or] at h
    rw [spliceAfter, if_neg (Ne.symm h.1), List.map_cons, List.map_cons, rewire_taskType, ih h.2]

/-- The sub-task that is spliced in stands once among them. -/
lemma perm_spliceAfter (hids : (subTasks.map SubTask.id).Nodup) (hafter : afterId ∈ subTasks.map SubTask.id) :
    ((spliceAfter afterId newSubTask subTasks).map SubTask.taskType).Perm
      (newSubTask.taskType :: subTasks.map SubTask.taskType) := by
  induction subTasks with
  | nil => exact absurd hafter List.not_mem_nil
  | cons subTask rest ih =>
    rw [List.map_cons, List.nodup_cons] at hids
    rw [spliceAfter, List.map_cons, List.map_cons, rewire_taskType]
    split_ifs with hid
    · rw [List.map_cons, taskType_spliceAfter_of_not_mem (hid ▸ hids.1)]
      exact List.Perm.swap ..
    · rw [List.map_cons, List.mem_cons, or_iff_right (Ne.symm hid)] at hafter
      exact ((ih hids.2 hafter).cons _).trans (List.Perm.swap ..)

lemma nodup_templateFor (caseType : String) :
    (.riskAnalysis :: (templateFor caseType).map Prod.fst : List TaskType).Nodup := by
  unfold templateFor
  split_ifs <;> decide

/-- **The sub-tasks of a plan are of different types**, if their identifiers differ. -/
theorem nodup_types_decompose {domain : LegalDomain} {caseType : String}
    (hids : ((decompose newSubtaskId domain caseType).map SubTask.id).Nodup) :
    ((decompose newSubtaskId domain caseType).map SubTask.taskType).Nodup := by
  have htypes := nodup_templateFor caseType
  have hchain : (chain newSubtaskId 0 none (templateFor caseType)).map SubTask.taskType = _ := taskType_chain ..
  rw [← hchain] at htypes
  unfold decompose at hids ⊢
  dsimp only at hids ⊢
  split at hids
  · rename_i expertRole lastResearch hexpert hlast
    have hmem := List.mem_of_mem_filter (List.mem_of_getLast? hlast)
    exact (perm_spliceAfter (hids.sublist sublist_spliceAfter) (List.mem_map_of_mem hmem)).nodup_iff.mpr htypes
  · exact htypes.of_cons

end Types

/-! ### The dependencies -/

/-- The dependencies of each sub-task are among `earlier` or the sub-tasks before it. -/
def Ordered : List String → List SubTask → Prop
  | _, [] => True
  | earlier, subTask :: rest => (∀ dep ∈ subTask.dependsOn, dep ∈ earlier) ∧ Ordered (subTask.id :: earlier) rest

instance decidableOrdered : ∀ earlier subTasks, Decidable (Ordered earlier subTasks)
  | _, [] => isTrue trivial
  | earlier, subTask :: rest =>
    have := decidableOrdered (subTask.id :: earlier) rest
    inferInstanceAs (Decidable ((∀ dep ∈ subTask.dependsOn, dep ∈ earlier) ∧ Ordered (subTask.id :: earlier) rest))

/-- The sub-task `b` depends on `a`. -/
def Needs (subTasks : List SubTask) (a b : String) : Prop := ∃ subTask ∈ subTasks, subTask.id = b ∧ a ∈ subTask.dependsOn

/-- Each dependency is the identifier of a sub-task before, and none leads back. -/
structure ValidPlan (subTasks : List SubTask) : Prop where
  ordered : Ordered [] subTasks
  acyclic : Acyclic (Needs subTasks)

section Dependencies

variable {afterId : String} {newSubTask : SubTask} {subTasks : List SubTask} {earlier : List String} {a b : String}

/-- What a sub-task depends on is before it. -/
lemma Ordered.before (h : Ordered earlier subTasks) (hneeds : Needs subTasks a b) :
    a ∈ earlier ∨ [a, b].Sublist (subTasks.map SubTask.id) := by
  obtain ⟨subTask, hmem, hid, hdep⟩ := hneeds
  induction subTasks generalizing earlier with
  | nil => exact absurd hmem List.not_mem_nil
  | cons first rest ih =>
    obtain ⟨hfirst, hrest⟩ := h
    obtain rfl | hmem := List.mem_cons.mp hmem
    · exact Or.inl (hfirst a hdep)
    · rcases ih hrest hmem with hearlier | hsublist
      · obtain rfl | hearlier := List.mem_cons.mp hearlier
        · right
          rw [List.map_cons]
          exact List.Sublist.cons_cons _ (List.singleton_sublist.mpr (List.mem_map.mpr ⟨subTask, hmem, hid⟩))
        · exact Or.inl hearlier
      · exact Or.inr (hsublist.cons _)

lemma Ordered.forward (h : Ordered [] subTasks) : Forward (subTasks.map SubTask.id) (Needs subTasks) :=
  fun _ _ hneeds => (h.before hneeds).resolve_left List.not_mem_nil

/-- Where an identifier names one sub-task, the order is enough. -/
theorem ValidPlan.of_nodup (hids : (subTasks.map SubTask.id).Nodup) (h : Ordered [] subTasks) : ValidPlan subTasks where
  ordered := h
  acyclic := acyclic_of_forward hids h.forward

/-- No sub-task depends on what is not in the plan, and it does not depend on anything. -/
lemma ValidPlan.fresh (h : ValidPlan subTasks) (ha : a ∉ subTasks.map SubTask.id) (x : String) :
    ¬ Needs subTasks a x ∧ ¬ Needs subTasks x a := by
  constructor
  · intro hneeds
    exact ha ((h.ordered.forward a x hneeds).subset List.mem_cons_self)
  · intro hneeds
    exact ha ((h.ordered.forward x a hneeds).subset (List.mem_cons_of_mem _ List.mem_cons_self))

/-! ### A sub-task that is spliced in -/

/-- What the planner splices in: a new sub-task that depends on the one before it, which is in the plan. -/
structure Insertion where
  afterId : String
  newSubTask : SubTask

def Insertion.Fits (subTasks : List SubTask) (insertion : Insertion) : Prop :=
  insertion.afterId ∈ subTasks.map SubTask.id ∧ insertion.newSubTask.id ∉ subTasks.map SubTask.id ∧
    insertion.newSubTask.dependsOn = [insertion.afterId]

instance (subTasks : List SubTask) (insertion : Insertion) : Decidable (insertion.Fits subTasks) :=
  inferInstanceAs (Decidable (_ ∧ _ ∧ _))

def Insertion.apply (subTasks : List SubTask) (insertion : Insertion) : List SubTask :=
  spliceAfter insertion.afterId insertion.newSubTask subTasks

/-- The dependencies of a sub-task after the insertion. -/
def redirect (afterId newId : String) (subTask : SubTask) : SubTask :=
  { subTask with dependsOn := subTask.dependsOn.map fun dep => if dep = afterId then newId else dep }

lemma rewire_eq_redirect {subTask : SubTask} (h : subTask.id ≠ newSubTask.id) :
    rewire afterId newSubTask subTask = redirect afterId newSubTask.id subTask := by
  by_cases hdep : afterId ∈ subTask.dependsOn
  · exact if_pos ⟨hdep, h⟩
  · have hsame : subTask.dependsOn.map (fun dep => if dep = afterId then newSubTask.id else dep) =
        subTask.dependsOn := by
      refine (List.map_congr_left fun dep hmem => ?_).trans (List.map_id _)
      refine if_neg fun heq => hdep ?_
      rwa [heq] at hmem
    rw [rewire, if_neg fun h => hdep h.1, redirect, hsame]

lemma mem_spliceAfter {subTask : SubTask} : subTask ∈ spliceAfter afterId newSubTask subTasks ↔
    (∃ old ∈ subTasks, rewire afterId newSubTask old = subTask) ∨
      afterId ∈ subTasks.map SubTask.id ∧ subTask = newSubTask := by
  induction subTasks with
  | nil => simp [spliceAfter]
  | cons first rest ih =>
    rw [spliceAfter, List.mem_cons, eq_comm (a := subTask) (b := rewire afterId newSubTask first)]
    split_ifs with hid
    · rw [List.mem_cons, ih]
      simp only [List.mem_cons, List.map_cons, exists_eq_or_imp, hid]
      grind
    · rw [ih]
      simp only [List.mem_cons, List.map_cons, exists_eq_or_imp, Ne.symm hid, false_or]
      grind

/-- The new sub-task stands right after the one it depends on. -/
lemma map_id_spliceAfter : (spliceAfter afterId newSubTask subTasks).map SubTask.id =
    (subTasks.map SubTask.id).flatMap fun id => if id = afterId then [id, newSubTask.id] else [id] := by
  induction subTasks with
  | nil => rfl
  | cons first rest ih =>
    rw [spliceAfter, List.map_cons, List.map_cons, List.flatMap_cons, rewire_id, ← ih]
    split_ifs <;> rfl

/-- Everything else is as it was, but for the dependencies on the sub-task before. -/
lemma filter_spliceAfter (hfresh : newSubTask.id ∉ subTasks.map SubTask.id) :
    (spliceAfter afterId newSubTask subTasks).filter (fun subTask => subTask.id ≠ newSubTask.id) =
      subTasks.map (redirect afterId newSubTask.id) := by
  induction subTasks with
  | nil => rfl
  | cons first rest ih =>
    rw [List.map_cons, List.mem_cons, not_or] at hfresh
    rw [spliceAfter, List.filter_cons, if_pos (by rw [rewire_id, decide_eq_true_eq]; exact Ne.symm hfresh.1),
      rewire_eq_redirect (Ne.symm hfresh.1), List.map_cons, ← ih hfresh.2]
    split_ifs
    · rw [List.filter_cons, if_neg (by simp)]
    · rfl

/-- **The order is kept**, with the new sub-task after the one it depends on. -/
lemma Ordered.spliceAfter {earlier' : List String} (hnew : newSubTask.dependsOn = [afterId])
    (hearlier : ∀ dep ∈ earlier, dep ∈ earlier') (hafter : afterId ∈ earlier → newSubTask.id ∈ earlier')
    (h : Ordered earlier subTasks) : Ordered earlier' (spliceAfter afterId newSubTask subTasks) := by
  induction subTasks generalizing earlier earlier' with
  | nil => trivial
  | cons first rest ih =>
    obtain ⟨hfirst, hrest⟩ := h
    have hdeps : ∀ dep ∈ (rewire afterId newSubTask first).dependsOn, dep ∈ earlier' := by
      intro dep hdep
      unfold rewire at hdep
      split_ifs at hdep
      · obtain ⟨old, hold, rfl⟩ := List.mem_map.mp hdep
        split_ifs with heq
        · exact hafter (heq ▸ hfirst old hold)
        · exact hearlier old (hfirst old hold)
      · exact hearlier dep (hfirst dep hdep)
    rw [Planner.spliceAfter]
    refine ⟨hdeps, ?_⟩
    rw [rewire_id]
    split_ifs with hid
    · refine ⟨?_, ih (fun dep hdep => ?_) (fun _ => List.mem_cons_self) hrest⟩
      · intro dep hdep
        rw [hnew, List.mem_singleton] at hdep
        rw [hdep, hid]
        exact List.mem_cons_self
      · obtain rfl | hdep := List.mem_cons.mp hdep
        · exact List.mem_cons_of_mem _ List.mem_cons_self
        · exact List.mem_cons_of_mem _ (List.mem_cons_of_mem _ (hearlier dep hdep))
    · refine ih (fun dep hdep => ?_) (fun hmem => ?_) hrest
      · obtain rfl | hdep := List.mem_cons.mp hdep
        · exact List.mem_cons_self
        · exact List.mem_cons_of_mem _ (hearlier dep hdep)
      · obtain heq | hmem := List.mem_cons.mp hmem
        · exact absurd heq.symm hid
        · exact List.mem_cons_of_mem _ (hafter hmem)

/-- **The new sub-task stands between** the one before it and what depended on that one; nothing else changes. -/
lemma needs_spliceAfter (hafter : afterId ∈ subTasks.map SubTask.id)
    (hfresh : newSubTask.id ∉ subTasks.map SubTask.id) (hnew : newSubTask.dependsOn = [afterId]) :
    Needs (spliceAfter afterId newSubTask subTasks) a b ↔
      a = afterId ∧ b = newSubTask.id ∨ a = newSubTask.id ∧ Needs subTasks afterId b ∨
        a ≠ afterId ∧ Needs subTasks a b := by
  have hne : ∀ old ∈ subTasks, old.id ≠ newSubTask.id := fun old hold heq =>
    hfresh (List.mem_map.mpr ⟨old, hold, heq⟩)
  constructor
  · rintro ⟨subTask, hmem, hid, hdep⟩
    rcases mem_spliceAfter.mp hmem with ⟨old, hold, hrewire⟩ | ⟨-, hsubTask⟩
    · rw [rewire_eq_redirect (hne old hold)] at hrewire
      rw [← hrewire] at hid hdep
      obtain ⟨dep, hdep, ha⟩ := List.mem_map.mp hdep
      split_ifs at ha with heq
      · rw [heq] at hdep
        exact Or.inr (Or.inl ⟨ha.symm, old, hold, hid, hdep⟩)
      · rw [ha] at hdep heq
        exact Or.inr (Or.inr ⟨heq, old, hold, hid, hdep⟩)
    · rw [hsubTask, hnew, List.mem_singleton] at hdep
      rw [hsubTask] at hid
      exact Or.inl ⟨hdep, hid.symm⟩
  · rintro (⟨ha, hb⟩ | ⟨ha, old, hold, hid, hdep⟩ | ⟨ha, old, hold, hid, hdep⟩)
    · refine ⟨newSubTask, mem_spliceAfter.mpr (Or.inr ⟨hafter, rfl⟩), hb.symm, ?_⟩
      rw [hnew, ha]
      exact List.mem_cons_self
    · refine ⟨_, mem_spliceAfter.mpr (Or.inl ⟨old, hold, rewire_eq_redirect (hne old hold)⟩), hid, ?_⟩
      exact List.mem_map.mpr ⟨afterId, hdep, (if_pos rfl).trans ha.symm⟩
    · refine ⟨_, mem_spliceAfter.mpr (Or.inl ⟨old, hold, rewire_eq_redirect (hne old hold)⟩), hid, ?_⟩
      exact List.mem_map.mpr ⟨a, hdep, if_neg ha⟩

/-- What an insertion does: the plan is valid again, the new sub-task is threaded into it, and the rest is as before. -/
structure Insertion.Threads (subTasks : List SubTask) (insertion : Insertion) : Prop where
  valid : ValidPlan (insertion.apply subTasks)
  ids : (insertion.apply subTasks).map SubTask.id = (subTasks.map SubTask.id).flatMap fun id =>
    if id = insertion.afterId then [id, insertion.newSubTask.id] else [id]
  inserted : ∀ subTask ∈ insertion.apply subTasks, subTask.id = insertion.newSubTask.id → subTask = insertion.newSubTask
  others : (insertion.apply subTasks).filter (fun subTask => subTask.id ≠ insertion.newSubTask.id) =
    subTasks.map (redirect insertion.afterId insertion.newSubTask.id)
  needs : ∀ a b, Needs (insertion.apply subTasks) a b ↔
    a = insertion.afterId ∧ b = insertion.newSubTask.id ∨
      a = insertion.newSubTask.id ∧ Needs subTasks insertion.afterId b ∨
      a ≠ insertion.afterId ∧ Needs subTasks a b
  between : ∀ b, Needs subTasks insertion.afterId b →
    [insertion.afterId, insertion.newSubTask.id].Sublist ((insertion.apply subTasks).map SubTask.id) ∧
      [insertion.newSubTask.id, b].Sublist ((insertion.apply subTasks).map SubTask.id)

lemma ValidPlan.spliceAfter (h : ValidPlan subTasks) (hafter : afterId ∈ subTasks.map SubTask.id)
    (hfresh : newSubTask.id ∉ subTasks.map SubTask.id) (hnew : newSubTask.dependsOn = [afterId]) :
    ValidPlan (spliceAfter afterId newSubTask subTasks) where
  ordered := h.ordered.spliceAfter hnew (fun _ => id) fun hmem => absurd hmem List.not_mem_nil
  acyclic := by
    have hne : afterId ≠ newSubTask.id := by
      intro heq
      rw [heq] at hafter
      exact hfresh hafter
    refine h.acyclic.insert hne (fun x => (h.fresh hfresh x).2) fun x y hxy => ?_
    rcases (needs_spliceAfter hafter hfresh hnew).mp hxy with hins | hthrough | ⟨-, hold⟩
    · exact Or.inl hins
    · exact Or.inr (Or.inl hthrough)
    · refine Or.inr (Or.inr ⟨fun hx => ?_, hold⟩)
      rw [hx] at hold
      exact (h.fresh hfresh y).1 hold

/-- One insertion. -/
lemma ValidPlan.threads {insertion : Insertion} (h : ValidPlan subTasks) (hfits : insertion.Fits subTasks) :
    insertion.Threads subTasks := by
  obtain ⟨hafter, hfresh, hnew⟩ := hfits
  have hvalid : ValidPlan (insertion.apply subTasks) := h.spliceAfter hafter hfresh hnew
  have hneeds : ∀ a b, Needs (insertion.apply subTasks) a b ↔ _ :=
    fun a b => needs_spliceAfter hafter hfresh hnew
  refine ⟨hvalid, map_id_spliceAfter, fun subTask hmem hid => ?_, filter_spliceAfter hfresh, hneeds, fun b hb => ?_⟩
  · rcases mem_spliceAfter.mp hmem with ⟨old, hold, hrewire⟩ | ⟨-, hsubTask⟩
    · rw [← hrewire, rewire_id] at hid
      exact absurd (List.mem_map.mpr ⟨old, hold, hid⟩) hfresh
    · exact hsubTask
  · have hbefore := (hneeds insertion.afterId insertion.newSubTask.id).mpr (Or.inl ⟨rfl, rfl⟩)
    have hafter := (hneeds insertion.newSubTask.id b).mpr (Or.inr (Or.inl ⟨rfl, hb⟩))
    exact ⟨hvalid.ordered.forward _ _ hbefore, hvalid.ordered.forward _ _ hafter⟩

/-- **Splicing keeps a chain**: each of any number of insertions, one into the result of the other, leaves a valid plan
with the new sub-task between the one before it and what depended on that one. -/
theorem splices_keep_chain {insertions : List Insertion} (h : ValidPlan subTasks)
    (hfits : Along Insertion.apply (fun subTasks insertion => insertion.Fits subTasks) subTasks insertions) :
    Along Insertion.apply (fun subTasks insertion => insertion.Threads subTasks) subTasks insertions :=
  hfits.of_inv h (fun _ _ hvalid hfits => (hvalid.threads hfits).valid) fun _ _ hvalid hfits => hvalid.threads hfits

/-- A chain of three steps, with an expert spliced in after the first one and another after that expert. -/
theorem splices_keep_chain_two :
    Along Insertion.apply (fun subTasks insertion => insertion.Threads subTasks)
      [⟨"a", .legalResearch, .legalResearcher, "", []⟩, ⟨"b", .drafting, .drafter, "", ["a"]⟩,
        ⟨"c", .verification, .verifier, "", ["b"]⟩]
      [⟨"a", ⟨"d", .riskAnalysis, .taxExpert, "", ["a"]⟩⟩, ⟨"d", ⟨"e", .riskAnalysis, .gdprExpert, "", ["d"]⟩⟩] :=
  splices_keep_chain (ValidPlan.of_nodup (by decide) (by decide)) (by decide)

/-! ### The plans of the planner -/

/-- Each step of a chain depends on the one before it. -/
lemma ordered_chain {newSubtaskId : ℕ → String} (steps : List MissionStep) (n : ℕ) {previousId : Option String}
    (h : ∀ id ∈ previousId, id ∈ earlier) : Ordered earlier (chain newSubtaskId n previousId steps) := by
  induction steps generalizing n previousId earlier with
  | nil => trivial
  | cons step steps ih =>
    rw [chain]
    refine ⟨fun dep hdep => h dep (Option.mem_toList.mp hdep), ih (n + 1) fun id hid => ?_⟩
    rw [← Option.mem_some_iff.mp hid]
    exact List.mem_cons_self

lemma map_id_chain {newSubtaskId : ℕ → String} (steps : List MissionStep) (n : ℕ) (previousId : Option String) :
    (chain newSubtaskId n previousId steps).map SubTask.id = (List.range' n steps.length).map newSubtaskId := by
  induction steps generalizing n previousId with
  | nil => rfl
  | cons step steps ih => rw [chain, List.map_cons, ih, List.length_cons, List.range'_succ, List.map_cons]

/-- **The planner makes valid plans**, where the identifiers that it draws differ. -/
theorem valid_decompose {newSubtaskId : ℕ → String} (hids : Function.Injective newSubtaskId) (domain : LegalDomain)
    (caseType : String) : ValidPlan (decompose newSubtaskId domain caseType) := by
  have hchain : ValidPlan (chain newSubtaskId 0 none (templateFor caseType)) := by
    refine ValidPlan.of_nodup ?_ (ordered_chain _ _ fun id hid => absurd hid (Option.not_mem_none id))
    rw [map_id_chain]
    exact (List.nodup_range').map hids
  unfold decompose
  dsimp only
  split
  · rename_i expertRole lastResearch hexpert hlast
    have hmem := List.mem_of_mem_filter (List.mem_of_getLast? hlast)
    refine hchain.spliceAfter (List.mem_map_of_mem hmem) ?_ rfl
    rw [map_id_chain, List.mem_map]
    rintro ⟨i, hi, heq⟩
    have hlt := (List.mem_range'_1.mp hi).2
    have hi := hids heq
    omega
  · exact hchain

end Dependencies

end Planner

end Tmis.AiTeam
