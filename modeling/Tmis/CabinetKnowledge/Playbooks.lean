import Tmis.CabinetKnowledge.Publication
import Tmis.Lib.PySet
import Tmis.Lib.PyValue

/-!
# Playbooks

A playbook is a knowledge object whose content lists steps, and an instance of it keeps the orders of the steps
that were completed.  The steps may be edited while there are instances, and nothing checks their orders.

* `playbookToContent`, `playbookFromKnowledgeObject` — a playbook as content and back; `playbook_roundtrip`;
* `startInstance`, `completeStep`, `progress` — `PlaybookEngine`;
* `Fits`, `Fitting` — the playbooks and the edits under which an instance counts its steps one by one;
* `progress_of_fitting` — in every run of such acts `progress` and `completed_at` tell which steps are completed;
  `completed_twice`, one of other acts where they do not.
-/

namespace Tmis.CabinetKnowledge

open Tmis.Lib KnowledgeEngines
open PyValue (same anySame pySet iterate Distinct)

def KnowledgeType.value : KnowledgeType → String
  | playbook => "playbook"
  | clause => "clause"
  | template => "template"
  | reasoningPattern => "reasoning_pattern"
  | writingStyle => "writing_style"
  | bestPractice => "best_practice"
  | lessonLearned => "lesson_learned"
  | note => "note"
  | checklist => "checklist"
  | guide => "guide"
  | internalRule => "internal_rule"
  | jurisprudenceNote => "jurisprudence_note"
  | comment => "comment"
  | decision => "decision"
  | contract => "contract"

/-- A step.  Nothing checks the values that are read from a content. -/
structure PlaybookStep where
  order : PyValue
  title : PyValue
  description : PyValue
  documents : List PyValue := []
  risks : List PyValue := []
  vigilancePoints : List PyValue := []

structure Playbook where
  id : String
  caseType : PyValue
  title : String
  steps : List PlaybookStep
  checklist : List PyValue := []

structure PlaybookInstance where
  id : Uuid
  firmId : String
  playbookId : Uuid
  caseReference : Option String
  startedAt : ℤ
  completedStepOrders : PySet ℤ := ∅
  completedAt : Option ℤ := none
  deriving DecidableEq

/-- The content of a knowledge object. -/
abbrev PyContent := Dict String PyValue

/-! ### Playbooks as contents -/

def PlaybookStep.toValue (step : PlaybookStep) : PyValue :=
  .dict [("order", step.order), ("title", step.title), ("description", step.description),
    ("documents", .seq .list step.documents), ("risks", .seq .list step.risks),
    ("vigilance_points", .seq .list step.vigilancePoints)]

def playbookToContent (playbook : Playbook) : PyContent :=
  Dict.ofEntries [("case_type", playbook.caseType),
    ("steps", .seq .list (playbook.steps.map PlaybookStep.toValue)), ("checklist", .seq .list playbook.checklist)]

/-- `PlaybookStep(order=s["order"], …)`. -/
def PlaybookStep.ofValue (s : PyValue) : Except PyException PlaybookStep := do
  let order ← s.item "order"
  let title ← s.item "title"
  let description ← s.item "description"
  let documents ← iterate (← s.getOr "documents" (.seq .tuple []))
  let risks ← iterate (← s.getOr "risks" (.seq .tuple []))
  let vigilancePoints ← iterate (← s.getOr "vigilance_points" (.seq .tuple []))
  return { order, title, description, documents, risks, vigilancePoints }

/-- `content[key]`. -/
def contentItem (content : PyContent) (key : String) : Except PyException PyValue :=
  match content.get key with
  | some x => .ok x
  | none => .error (keyError key)

def playbookFromKnowledgeObject (obj : KnowledgeObject PyContent) : Except PyException Playbook := do
  if obj.type ≠ .playbook then
    .error (valueError (knowledgeId obj.id ++ " is not a playbook (type=" ++ obj.type.value ++ ")"))
  else
    let steps ← (← iterate (← contentItem obj.content "steps")).mapM PlaybookStep.ofValue
    let caseType ← contentItem obj.content "case_type"
    let checklist ← iterate ((obj.content.get "checklist").getD (.seq .tuple []))
    return { id := knowledgeId obj.id, caseType, title := obj.title, steps, checklist }

lemma ofValue_toValue (step : PlaybookStep) : PlaybookStep.ofValue step.toValue = .ok step := rfl

/-- **The round trip.**  An object that has a playbook as its content is read as this playbook. -/
theorem playbook_roundtrip (playbook : Playbook) {obj : KnowledgeObject PyContent} (htype : obj.type = .playbook)
    (hcontent : obj.content = playbookToContent playbook) :
    playbookFromKnowledgeObject obj = .ok { playbook with id := knowledgeId obj.id, title := obj.title } := by
  have hsteps : (playbook.steps.map PlaybookStep.toValue).mapM PlaybookStep.ofValue = .ok playbook.steps := by
    refine mapM_eq_ok.mpr ?_
    rw [List.forall₂_map_left_iff]
    exact List.forall₂_same.mpr fun step _ => ofValue_toValue step
  have hitem : contentItem obj.content "steps" = .ok (.seq .list (playbook.steps.map PlaybookStep.toValue)) := by
    rw [hcontent]
    rfl
  have hcase : contentItem obj.content "case_type" = .ok playbook.caseType := by
    rw [hcontent]
    rfl
  have hchecklist : obj.content.get "checklist" = some (.seq .list playbook.checklist) := by
    rw [hcontent]
    rfl
  simp only [playbookFromKnowledgeObject, htype, hitem, hcase, hchecklist, iterate, ne_eq, not_true_eq_false,
    if_false, Option.getD_some]
  show ((playbook.steps.map PlaybookStep.toValue).mapM PlaybookStep.ofValue >>= _) = _
  rw [hsteps]
  rfl

/-- Of an object only these are read. -/
lemma playbookFromKnowledgeObject_congr {obj obj' : KnowledgeObject PyContent} (hid : obj'.id = obj.id)
    (htype : obj'.type = obj.type) (htitle : obj'.title = obj.title) (hcontent : obj'.content = obj.content) :
    playbookFromKnowledgeObject obj' = playbookFromKnowledgeObject obj := by
  unfold playbookFromKnowledgeObject
  rw [hid, htype, htitle, hcontent]

/-! ### What stays of an object -/

namespace KnowledgeBase

/-- An object before and after: it is known by the same, whatever else was written. -/
structure SameObject {Content : Type} (obj obj' : KnowledgeObject Content) : Prop where
  id : obj'.id = obj.id
  firmId : obj'.firmId = obj.firmId
  type : obj'.type = obj.type
  title : obj'.title = obj.title

section Stays

variable {Content Score : Type} {s s' : KnowledgeEngines Content} {act : Act Content Score}
variable {objectId : Uuid} {obj old new : KnowledgeObject Content}

lemma uuids_le (heffect : Effect s act s') : s.uuids ≤ s'.uuids := by
  cases heffect with
  | created => exact Nat.le_succ _
  | moved _ _ _ _ huuids => exact huuids.le
  | published _ _ => exact Nat.le_succ _
  | kept | updated _ | tagged _ _ | statusSet _ | unpublished _ => exact le_rfl

/-- An object that is there after another version of one was written is as it was, or this version. -/
lemma object_saved {firmId : String} {writtenId : Uuid} (hget : s.get firmId writtenId = .ok old)
    (hsame : SameObject old new) (hobj : s.objects.get objectId = some obj) :
    ∃ obj', (s.objects.save new).get objectId = some obj' ∧ SameObject obj obj' ∧
      (obj' = obj ∨ (objectId = writtenId ∧ obj = old ∧ obj' = new)) := by
  obtain ⟨hold, -⟩ := get_ok.mp hget
  by_cases hid : objectId = writtenId
  · subst hid
    obtain rfl := Option.some.inj (hobj.symm.trans hold)
    refine ⟨new, ?_, hsame, Or.inr ⟨rfl, rfl, rfl⟩⟩
    rw [Store.get_save, if_pos]
    rw [hsame.id, Store.key_of_get hold]
  · refine ⟨obj, ?_, ⟨rfl, rfl, rfl, rfl⟩, Or.inl rfl⟩
    rw [Store.get_save, if_neg, hobj]
    rw [hsame.id, Store.key_of_get hold]
    exact hid

/-- Only an update of the content writes the content. -/
def ContentStays (s : KnowledgeEngines Content) (act : Act Content Score) (objectId : Uuid)
    (obj obj' : KnowledgeObject Content) : Prop :=
  obj'.content = obj.content ∨ ∃ firmId content actor, act = .perform (.updateContent firmId objectId content actor) ∧
    s.get firmId objectId = .ok obj ∧ obj'.content = content

/-- **What stays of an object.** -/
lemma object_effect (hdrawn : Drawn s) (heffect : Effect s act s') (hobj : s.objects.get objectId = some obj) :
    ∃ obj', s'.objects.get objectId = some obj' ∧ SameObject obj obj' ∧ ContentStays s act objectId obj obj' := by
  -- a version that is written but in an update has the content of the one before
  have hwritten : ∀ {old new : KnowledgeObject Content} {firmId writtenId}, s.get firmId writtenId = .ok old →
      SameObject old new → new.content = old.content →
      ∃ obj', (s.objects.save new).get objectId = some obj' ∧ SameObject obj obj' ∧
        ContentStays s act objectId obj obj' := by
    intro old new firmId writtenId hget hsame hcontent
    obtain ⟨obj', hobj', hsame', rfl | ⟨-, rfl, rfl⟩⟩ := object_saved hget hsame hobj
    · exact ⟨obj', hobj', hsame', Or.inl rfl⟩
    · exact ⟨obj', hobj', hsame', Or.inl hcontent⟩
  cases heffect with
  | kept => exact ⟨obj, hobj, ⟨rfl, rfl, rfl, rfl⟩, Or.inl rfl⟩
  | created =>
    refine ⟨obj, ?_, ⟨rfl, rfl, rfl, rfl⟩, Or.inl rfl⟩
    have hne : objectId ≠ s.uuids := (hdrawn.objects objectId obj hobj).ne
    show (s.objects.save _).get objectId = some obj
    rw [Store.get_save, if_neg hne, hobj]
  | @updated firmId writtenId content actor old hget =>
    have hsame : SameObject old
        { old with content, version := old.version + 1, status := .draft, isPublished := false } :=
      ⟨rfl, rfl, rfl, rfl⟩
    obtain ⟨obj', hobj', hsame', rfl | ⟨rfl, rfl, rfl⟩⟩ := object_saved hget hsame hobj
    · exact ⟨obj', hobj', hsame', Or.inl rfl⟩
    · exact ⟨_, hobj', hsame', Or.inr ⟨firmId, content, actor, rfl, hget, rfl⟩⟩
  | moved hget _ hobjects _ _ =>
    rw [hobjects]
    exact hwritten hget ⟨rfl, rfl, rfl, rfl⟩ rfl
  | tagged hget _ | statusSet hget | published hget _ | unpublished hget =>
    exact hwritten hget ⟨rfl, rfl, rfl, rfl⟩ rfl

end Stays

end KnowledgeBase

/-! ### `PlaybookEngine` -/

/-- The engine, with the knowledge and its own store. -/
structure PlaybookEngine (Score : Type) where
  base : KnowledgeBase PyContent Score := {}
  instances : Store Uuid PlaybookInstance PlaybookInstance.id := ∅

/-- `new_playbook_instance_id`, of the identifier drawn. -/
def playbookInstanceId (id : Uuid) : String := "pbi-" ++ toString id

def playbookNotValidatedError (playbookId : Uuid) (status : KnowledgeStatus) : PyException :=
  ⟨"PlaybookNotValidatedError",
    "Playbook " ++ knowledgeId playbookId ++ " is " ++ status.value ++ ", expected validated"⟩

/-- The instance after a step was completed, of a playbook that has this many. -/
def PlaybookInstance.complete (inst : PlaybookInstance) (steps : ℕ) (stepOrder now : ℤ) : PlaybookInstance :=
  let completedStepOrders := inst.completedStepOrders.add stepOrder
  { inst with
    completedStepOrders
    completedAt := if completedStepOrders.elems.length = steps then some now else inst.completedAt }

/-- The orders of the steps. -/
def Playbook.orders (playbook : Playbook) : List PyValue := playbook.steps.map PlaybookStep.order

namespace PlaybookEngine

variable {Score : Type}

def createPlaybook (s : PlaybookEngine Score) (firmId title caseType : String) (steps : List PlaybookStep)
    (checklist : List PyValue) (author : String) : Except PyException (Playbook × PlaybookEngine Score) := do
  let shell : Playbook := { id := "", caseType := .primitive (.str caseType), title, steps, checklist }
  let (obj, engines) := s.base.engines.create firmId .playbook title (playbookToContent shell) author [caseType]
  let playbook ← playbookFromKnowledgeObject obj
  return (playbook, { s with base := { s.base with engines } })

def getPlaybook (s : PlaybookEngine Score) (firmId : String) (playbookId : Uuid) : Except PyException Playbook := do
  let obj ← s.base.engines.get firmId playbookId
  playbookFromKnowledgeObject obj

def startInstance (s : PlaybookEngine Score) (firmId : String) (playbookId : Uuid) (caseReference : Option String)
    (now : ℤ) : Except PyException (PlaybookInstance × PlaybookEngine Score) := do
  let obj ← s.base.engines.get firmId playbookId
  if obj.status ≠ .validated then .error (playbookNotValidatedError playbookId obj.status)
  else
    let (_, base) ← s.base.recordUsage firmId playbookId
    let inst : PlaybookInstance :=
      { id := base.engines.uuids, firmId, playbookId, caseReference, startedAt := now }
    return (inst,
      { base := { base with engines := { base.engines with uuids := base.engines.uuids + 1 } }
        instances := s.instances.save inst })

/-- The instance that `complete_step` and `progress` are called for. -/
def getInstance (s : PlaybookEngine Score) (firmId : String) (instanceId : Uuid) :
    Except PyException PlaybookInstance :=
  match s.instances.get instanceId with
  | none => .error (keyError (playbookInstanceId instanceId))
  | some inst =>
    if inst.firmId ≠ firmId then .error (keyError (playbookInstanceId instanceId)) else .ok inst

/-- `complete_step`; `isFrozen` tells the classes of the objects that a set can hold. -/
def completeStep (isFrozen : String → Bool) (s : PlaybookEngine Score) (firmId : String) (instanceId : Uuid)
    (stepOrder now : ℤ) : Except PyException (PlaybookInstance × PlaybookEngine Score) := do
  let inst ← s.getInstance firmId instanceId
  let playbook ← s.getPlaybook firmId inst.playbookId
  let orders ← pySet isFrozen playbook.orders
  if ¬ anySame orders (.primitive (.int stepOrder)) then
    .error (valueError ("Unknown step order " ++ toString stepOrder ++ " for playbook " ++ playbook.id))
  else
    let inst := inst.complete playbook.steps.length stepOrder now
    return (inst, { s with instances := s.instances.save inst })

def progress (s : PlaybookEngine Score) (firmId : String) (instanceId : Uuid) : Except PyException ℚ := do
  let inst ← s.getInstance firmId instanceId
  let playbook ← s.getPlaybook firmId inst.playbookId
  if playbook.steps.isEmpty then return 1
  else return inst.completedStepOrders.elems.length / playbook.steps.length

/-! ### Acts -/

inductive Act (Score : Type) where
  | knowledge (act : KnowledgeBase.Act PyContent Score)
  | createPlaybook (firmId title caseType : String) (steps : List PlaybookStep) (checklist : List PyValue)
      (author : String)
  | startInstance (firmId : String) (playbookId : Uuid) (caseReference : Option String) (now : ℤ)
  | completeStep (firmId : String) (instanceId : Uuid) (stepOrder now : ℤ)

/-- One act; a call that raises changes nothing. -/
def step (isFrozen : String → Bool) (s : PlaybookEngine Score) : Act Score → PlaybookEngine Score
  | .knowledge act => { s with base := s.base.step act }
  | .createPlaybook firmId title caseType steps checklist author =>
    afterCall s ((s.createPlaybook firmId title caseType steps checklist author).map Prod.snd)
  | .startInstance firmId playbookId caseReference now =>
    afterCall s ((s.startInstance firmId playbookId caseReference now).map Prod.snd)
  | .completeStep firmId instanceId stepOrder now =>
    afterCall s ((s.completeStep isFrozen firmId instanceId stepOrder now).map Prod.snd)

/-! ### What the steps of an instance tell -/

/-- Every order of a step is among the completed ones. -/
def AllCompleted (playbook : Playbook) (inst : PlaybookInstance) : Prop :=
  ∀ order ∈ playbook.orders, ∃ i ∈ inst.completedStepOrders, same order (.primitive (.int i)) = true

/-- `progress` is between nothing and one, and one iff all steps are completed. -/
def ProgressTells (s : PlaybookEngine Score) (instanceId : Uuid) : Prop :=
  ∀ inst playbook, s.instances.get instanceId = some inst →
    s.getPlaybook inst.firmId inst.playbookId = .ok playbook →
    ∃ p, s.progress inst.firmId instanceId = .ok p ∧ 0 ≤ p ∧ p ≤ 1 ∧ (p = 1 ↔ AllCompleted playbook inst)

/-- All steps of the playbook as it is now are completed. -/
def AllDone (s : PlaybookEngine Score) (instanceId : Uuid) : Prop :=
  ∃ inst playbook, s.instances.get instanceId = some inst ∧
    s.getPlaybook inst.firmId inst.playbookId = .ok playbook ∧ AllCompleted playbook inst

/-- `completed_at` is set. -/
def Completed (s : PlaybookEngine Score) (instanceId : Uuid) : Prop :=
  ∃ inst, s.instances.get instanceId = some inst ∧ inst.completedAt.isSome

/-- What was completed is among the steps. -/
def Among (playbook : Playbook) (inst : PlaybookInstance) : Prop :=
  ∀ i ∈ inst.completedStepOrders, ∃ order ∈ playbook.orders, same (.primitive (.int i)) order = true

/-- The instance counts the steps of the playbook one by one: no two have one order, what was completed is still a
step, and if nothing is left to complete this was noted. -/
structure Fits (playbook : Playbook) (inst : PlaybookInstance) : Prop where
  distinct : Distinct playbook.orders
  kept : playbook.steps = [] ∨ Among playbook inst
  noted : AllCompleted playbook inst → inst.completedAt.isSome = true

/-- Instances are started on playbooks that have steps, no two of one order; and playbooks are updated to playbooks
that fit their instances. -/
def Fitting (s : PlaybookEngine Score) : Act Score → Prop
  | .knowledge (.perform (.updateContent firmId objectId content _)) =>
    ∀ obj playbook, s.base.engines.get firmId objectId = .ok obj →
      playbookFromKnowledgeObject { obj with content } = .ok playbook →
      ∀ instanceId inst, s.instances.get instanceId = some inst → inst.playbookId = objectId → Fits playbook inst
  | .startInstance firmId playbookId _ _ =>
    ∀ playbook, s.getPlaybook firmId playbookId = .ok playbook → playbook.steps ≠ [] ∧ Distinct playbook.orders
  | _ => True

/-! ### Counting the steps of an instance -/

section Count

variable {playbook : Playbook} {inst : PlaybookInstance}

/-- The completed orders as values. -/
def completedValues (inst : PlaybookInstance) : List PyValue :=
  inst.completedStepOrders.elems.map fun i => .primitive (.int i)

lemma same_int {i j : ℤ} : same (.primitive (.int i)) (.primitive (.int j)) = true ↔ i = j := by
  simp [same, Primitive.key]

lemma distinct_completed (inst : PlaybookInstance) : Distinct (completedValues inst) := by
  refine List.pairwise_map.mpr (inst.completedStepOrders.nodup.imp ?_)
  intro i j hne hsame
  exact hne (same_int.mp hsame)

lemma allCompleted_iff : AllCompleted playbook inst ↔
    ∀ order ∈ playbook.orders, ∃ x ∈ completedValues inst, same order x = true := by
  simp only [AllCompleted, completedValues, List.mem_map, exists_exists_and_eq_and, PySet.mem_elems]

lemma Among.values (h : Among playbook inst) :
    ∀ x ∈ completedValues inst, ∃ order ∈ playbook.orders, same x order = true := List.forall_mem_map.mpr h

lemma Among.length_le (h : Among playbook inst) :
    inst.completedStepOrders.elems.length ≤ playbook.steps.length := by
  have hle := (distinct_completed inst).length_le h.values
  simpa only [completedValues, Playbook.orders, List.length_map] using hle

/-- As many steps are completed as there are iff all are. -/
lemma Among.length_eq_iff (h : Among playbook inst) (hdistinct : Distinct playbook.orders) :
    inst.completedStepOrders.elems.length = playbook.steps.length ↔ AllCompleted playbook inst := by
  have hiff := (distinct_completed inst).length_eq_iff hdistinct h.values
  rw [allCompleted_iff, ← hiff]
  simp only [completedValues, Playbook.orders, List.length_map]

/-- A step that is completed is among the steps, if it is one. -/
lemma Among.complete (h : Among playbook inst) {stepOrder : ℤ} (now : ℤ)
    (hknown : anySame playbook.orders (.primitive (.int stepOrder)) = true) :
    Among playbook (inst.complete playbook.steps.length stepOrder now) := by
  intro i hi
  rcases PySet.mem_add.mp hi with hbefore | rfl
  · exact h i hbefore
  · obtain ⟨order, horder, hsame⟩ := PyValue.anySame_iff.mp hknown
    exact ⟨order, horder, PyValue.same_symm hsame⟩

/-- `completed_at` is set when a step is the last one, and stays set. -/
lemma isSome_complete_iff {steps : ℕ} {stepOrder now : ℤ} : (inst.complete steps stepOrder now).completedAt.isSome =
    true ↔ (inst.completedStepOrders.add stepOrder).elems.length = steps ∨ inst.completedAt.isSome = true := by
  unfold PlaybookInstance.complete
  dsimp only
  split_ifs with hlast
  · simp [hlast]
  · simp [hlast]

lemma Fits.among (h : Fits playbook inst) {stepOrder : ℤ}
    (hknown : anySame playbook.orders (.primitive (.int stepOrder)) = true) : Among playbook inst := by
  refine h.kept.resolve_left fun hnil => ?_
  obtain ⟨order, horder, -⟩ := PyValue.anySame_iff.mp hknown
  rw [Playbook.orders, hnil] at horder
  cases horder

/-- It is noted when it was the last one. -/
lemma Fits.complete (h : Fits playbook inst) {stepOrder : ℤ} (now : ℤ)
    (hknown : anySame playbook.orders (.primitive (.int stepOrder)) = true) :
    Fits playbook (inst.complete playbook.steps.length stepOrder now) := by
  have hamong := (h.among hknown).complete now hknown
  refine ⟨h.distinct, Or.inr hamong, fun hall => ?_⟩
  exact isSome_complete_iff.mpr (Or.inl ((hamong.length_eq_iff h.distinct).mpr hall))

/-- A new instance fits what has steps, no two of one order. -/
lemma fits_new (hsteps : playbook.steps ≠ []) (hdistinct : Distinct playbook.orders)
    (hnone : inst.completedStepOrders = ∅) : Fits playbook inst := by
  refine ⟨hdistinct, Or.inr ?_, fun hall => ?_⟩
  · intro i hi
    rw [hnone] at hi
    exact absurd hi PySet.not_mem_empty
  · obtain ⟨step, hstep⟩ := List.exists_mem_of_ne_nil _ hsteps
    obtain ⟨i, hi, -⟩ := hall step.order (List.mem_map_of_mem hstep)
    rw [hnone] at hi
    exact absurd hi PySet.not_mem_empty

end Count

/-! ### All that one act does -/

section Step

variable {isFrozen : String → Bool} {s : PlaybookEngine Score}

lemma getInstance_ok {firmId : String} {instanceId : Uuid} {inst : PlaybookInstance} :
    s.getInstance firmId instanceId = .ok inst ↔ s.instances.get instanceId = some inst ∧ inst.firmId = firmId := by
  unfold getInstance
  cases hget : s.instances.get instanceId with
  | none => simp
  | some found =>
    by_cases hfirm : found.firmId = firmId
    · simp only [hfirm, ne_eq, not_true_eq_false, if_false, Except.ok.injEq, Option.some.injEq]
      constructor
      · rintro rfl
        exact ⟨rfl, hfirm⟩
      · exact fun h => h.1
    · simp only [hfirm, ne_eq, not_false_eq_true, if_true, reduceCtorEq, Option.some.injEq, false_iff]
      rintro ⟨rfl, h⟩
      exact hfirm h

/-- What an act does to the knowledge and to the instances, from this engine to that. -/
inductive Effect (isFrozen : String → Bool) (s : PlaybookEngine Score) : Act Score → PlaybookEngine Score → Prop
  | kept {act} : Effect isFrozen s act s
  | knowledge {act} : Effect isFrozen s (.knowledge act) { s with base := s.base.step act }
  | created {firmId title caseType steps checklist author content tags} :
      Effect isFrozen s (.createPlaybook firmId title caseType steps checklist author)
        { s with base := s.base.step (.perform (.create firmId .playbook title content author tags)) }
  | started {firmId playbookId caseReference now obj usageCounts}
      (hget : s.base.engines.get firmId playbookId = .ok obj) :
      Effect isFrozen s (.startInstance firmId playbookId caseReference now)
        { base := { s.base with engines := { s.base.engines with uuids := s.base.engines.uuids + 1 }, usageCounts }
          instances := s.instances.save
            { id := s.base.engines.uuids, firmId, playbookId, caseReference, startedAt := now } }
  | completed {firmId instanceId stepOrder now inst playbook orders}
      (hinst : s.instances.get instanceId = some inst) (hfirm : inst.firmId = firmId)
      (hplaybook : s.getPlaybook firmId inst.playbookId = .ok playbook)
      (horders : pySet isFrozen playbook.orders = .ok orders)
      (hknown : anySame orders (.primitive (.int stepOrder)) = true) :
      Effect isFrozen s (.completeStep firmId instanceId stepOrder now)
        { s with instances := s.instances.save (inst.complete playbook.steps.length stepOrder now) }

lemma step_completeStep {firmId : String} {instanceId : Uuid} {stepOrder now : ℤ}
    {r : PlaybookInstance × PlaybookEngine Score}
    (h : s.completeStep isFrozen firmId instanceId stepOrder now = .ok r) :
    Effect isFrozen s (.completeStep firmId instanceId stepOrder now) r.2 := by
  obtain ⟨inst, hinst, hrest⟩ := bind_eq_ok.mp h
  obtain ⟨playbook, hplaybook, hrest⟩ := bind_eq_ok.mp hrest
  obtain ⟨orders, horders, hrest⟩ := bind_eq_ok.mp hrest
  dsimp only at hrest
  split at hrest
  · cases hrest
  · rename_i hknown
    obtain rfl := pure_eq_ok.mp hrest
    obtain ⟨hfound, hfirm⟩ := getInstance_ok.mp hinst
    exact .completed hfound hfirm hplaybook horders (not_not.mp hknown)

lemma step_startInstance {firmId : String} {playbookId : Uuid} {caseReference : Option String} {now : ℤ}
    {r : PlaybookInstance × PlaybookEngine Score} (h : s.startInstance firmId playbookId caseReference now = .ok r) :
    Effect isFrozen s (.startInstance firmId playbookId caseReference now) r.2 := by
  obtain ⟨obj, hget, hrest⟩ := bind_eq_ok.mp h
  dsimp only at hrest
  split at hrest
  · cases hrest
  · obtain ⟨used, hused, hrest⟩ := bind_eq_ok.mp hrest
    obtain rfl := pure_eq_ok.mp hrest
    obtain ⟨_, -, hused⟩ := bind_eq_ok.mp hused
    obtain rfl := pure_eq_ok.mp hused
    exact .started hget

/-- A playbook is created as the knowledge object that has it as its content. -/
lemma createPlaybook_eq (s : PlaybookEngine Score) (firmId title caseType : String) (steps : List PlaybookStep)
    (checklist : List PyValue) (author : String) :
    s.createPlaybook firmId title caseType steps checklist author =
      .ok (
        { id := knowledgeId s.base.engines.uuids, caseType := .primitive (.str caseType), title, steps, checklist },
        { s with base := s.base.step (.perform (.create firmId .playbook title
            (playbookToContent { id := "", caseType := .primitive (.str caseType), title, steps, checklist })
            author [caseType])) }) := by
  let shell : Playbook := { id := "", caseType := .primitive (.str caseType), title, steps, checklist }
  let obj := (s.base.engines.create firmId .playbook title (playbookToContent shell) author [caseType]).1
  have hread : playbookFromKnowledgeObject obj = .ok { shell with id := knowledgeId s.base.engines.uuids } :=
    playbook_roundtrip shell rfl rfl
  show (playbookFromKnowledgeObject obj >>= _) = _
  rw [hread]
  rfl

/-- A step that is known is completed. -/
lemma step_completeStep_eq {firmId : String} {instanceId : Uuid} {stepOrder : ℤ} (now : ℤ) {inst : PlaybookInstance}
    {playbook : Playbook} {orders : List PyValue} (hinst : s.getInstance firmId instanceId = .ok inst)
    (hplaybook : s.getPlaybook firmId inst.playbookId = .ok playbook)
    (horders : pySet isFrozen playbook.orders = .ok orders)
    (hknown : anySame orders (.primitive (.int stepOrder)) = true) :
    step isFrozen s (.completeStep firmId instanceId stepOrder now) =
      { s with instances := s.instances.save (inst.complete playbook.steps.length stepOrder now) } := by
  simp only [step, completeStep, hinst, hplaybook, horders, hknown, not_true_eq_false, if_false, bind, Except.bind]
  rfl

/-- A call that returns has an effect, and one that raises has none. -/
lemma effect_afterCall {X : Type} {act : Act Score} {call : Except PyException (X × PlaybookEngine Score)}
    (h : ∀ r, call = .ok r → Effect isFrozen s act r.2) :
    Effect isFrozen s act (afterCall s (call.map Prod.snd)) := by
  rcases afterCall_cases s (call.map Prod.snd) with hok | ⟨-, hsame⟩
  · obtain ⟨r, hr, heq⟩ := map_eq_ok.mp hok
    rw [← heq]
    exact h r hr
  · rw [hsame]
    exact .kept

variable (isFrozen s) in
/-- **All that one act does.** -/
theorem step_effect (act : Act Score) : Effect isFrozen s act (step isFrozen s act) := by
  cases act with
  | knowledge act => exact .knowledge
  | createPlaybook firmId title caseType steps checklist author =>
    rw [step, createPlaybook_eq]
    exact .created
  | startInstance firmId playbookId caseReference now => exact effect_afterCall fun _ => step_startInstance
  | completeStep firmId instanceId stepOrder now => exact effect_afterCall fun _ => step_completeStep

end Step

/-! ### The invariant -/

structure Inv (s : PlaybookEngine Score) : Prop where
  drawn : KnowledgeBase.Drawn s.base.engines
  below : s.instances.Below s.base.engines.uuids
  found : ∀ instanceId inst, s.instances.get instanceId = some inst →
    ∃ obj, s.base.engines.get inst.firmId inst.playbookId = .ok obj
  fits : ∀ instanceId inst playbook, s.instances.get instanceId = some inst →
    s.getPlaybook inst.firmId inst.playbookId = .ok playbook → Fits playbook inst

section Inv

variable {isFrozen : String → Bool} {s : PlaybookEngine Score}

lemma progressTells (h : Inv s) (instanceId : Uuid) : ProgressTells s instanceId := by
  intro inst playbook hinst hplaybook
  have hfits := h.fits instanceId inst playbook hinst hplaybook
  have hprogress : s.progress inst.firmId instanceId =
      .ok (if playbook.steps.isEmpty then 1 else inst.completedStepOrders.elems.length / playbook.steps.length) := by
    simp only [progress, getInstance_ok.mpr ⟨hinst, rfl⟩, hplaybook, bind, Except.bind]
    split <;> rfl
  refine ⟨_, hprogress, ?_⟩
  by_cases hsteps : playbook.steps = []
  · have hall : AllCompleted playbook inst := by simp [AllCompleted, Playbook.orders, hsteps]
    simp [hsteps, hall]
  · have hamong := hfits.kept.resolve_left hsteps
    have hpos : (0 : ℚ) < playbook.steps.length := Nat.cast_pos.mpr (List.length_pos_of_ne_nil hsteps)
    rw [if_neg (by simpa using hsteps)]
    refine ⟨div_nonneg (Nat.cast_nonneg _) hpos.le, ?_, ?_⟩
    · rw [div_le_one hpos]
      exact_mod_cast hamong.length_le
    · rw [div_eq_one_iff_eq hpos.ne', Nat.cast_inj]
      exact hamong.length_eq_iff hfits.distinct

/-- What was done to the knowledge alone. -/
lemma Inv.knowledge (h : Inv s) {act : KnowledgeBase.Act PyContent Score} (hfitting : Fitting s (.knowledge act)) :
    Inv { s with base := s.base.step act } := by
  have heffect := KnowledgeBase.step_effect s.base act
  have hobject : ∀ instanceId inst, s.instances.get instanceId = some inst → ∃ obj obj',
      s.base.engines.get inst.firmId inst.playbookId = .ok obj ∧
      (s.base.step act).engines.get inst.firmId inst.playbookId = .ok obj' ∧ KnowledgeBase.SameObject obj obj' ∧
      KnowledgeBase.ContentStays s.base.engines act inst.playbookId obj obj' := by
    intro instanceId inst hinst
    obtain ⟨obj, hget⟩ := h.found instanceId inst hinst
    obtain ⟨hfound, hfirm⟩ := get_ok.mp hget
    obtain ⟨obj', hfound', hsame, hcontent⟩ := KnowledgeBase.object_effect h.drawn heffect hfound
    exact ⟨obj, obj', hget, get_ok.mpr ⟨hfound', hfirm.trans hsame.firmId.symm⟩, hsame, hcontent⟩
  constructor
  · exact h.drawn.effect heffect
  · exact h.below.mono (KnowledgeBase.uuids_le heffect)
  · intro instanceId inst hinst
    obtain ⟨-, obj', -, hget', -, -⟩ := hobject instanceId inst hinst
    exact ⟨obj', hget'⟩
  · intro instanceId inst playbook hinst hplaybook
    obtain ⟨obj, obj', hget, hget', hsame, hcontent⟩ := hobject instanceId inst hinst
    obtain ⟨read, hread, hparsed⟩ := bind_eq_ok.mp hplaybook
    obtain rfl := Except.ok.inj (hget'.symm.trans hread)
    rcases hcontent with hcontent | ⟨firmId, content, actor, rfl, hupdated, hcontent⟩
    · rw [playbookFromKnowledgeObject_congr hsame.id hsame.type hsame.title hcontent] at hparsed
      exact h.fits instanceId inst playbook hinst (bind_eq_ok.mpr ⟨obj, hget, hparsed⟩)
    · have hreads : playbookFromKnowledgeObject obj' = playbookFromKnowledgeObject { obj with content } :=
        playbookFromKnowledgeObject_congr hsame.id hsame.type hsame.title hcontent
      exact hfitting obj playbook hupdated (hreads.symm.trans hparsed) instanceId inst hinst rfl

/-- **The step lemma.** -/
lemma Inv.step (h : Inv s) {act : Act Score} (hfitting : Fitting s act) : Inv (step isFrozen s act) := by
  have heffect := step_effect isFrozen s act
  generalize PlaybookEngine.step isFrozen s act = s' at heffect ⊢
  cases heffect with
  | kept => exact h
  | knowledge => exact h.knowledge hfitting
  | created => exact h.knowledge trivial
  | @started firmId playbookId caseReference now obj usageCounts hget =>
    constructor
    · exact ⟨h.drawn.objects.mono (Nat.le_succ _), fun e he => (h.drawn.events e he).trans (Nat.lt_succ_self _)⟩
    · exact (h.below.mono (Nat.le_succ _)).save (Nat.lt_succ_self _)
    · intro instanceId inst hinst
      rcases Store.of_get_save hinst with rfl | hold
      · exact ⟨obj, hget⟩
      · exact h.found instanceId inst hold
    · intro instanceId inst playbook hinst hplaybook
      rcases Store.of_get_save hinst with rfl | hold
      · obtain ⟨hsteps, hdistinct⟩ := hfitting playbook hplaybook
        exact fits_new hsteps hdistinct rfl
      · exact h.fits instanceId inst playbook hold hplaybook
  | @completed firmId completedId stepOrder now completed playbook orders hcompleted hfirm hplaybook horders hknown =>
    have hid : completed.id = completedId := Store.key_of_get hcompleted
    subst hid hfirm
    have hfits := h.fits _ completed playbook hcompleted hplaybook
    rw [PyValue.eq_of_pySet isFrozen hfits.distinct horders] at hknown
    constructor
    · exact h.drawn
    · exact h.below.save (h.below _ completed hcompleted)
    · intro instanceId inst hinst
      rcases Store.of_get_save hinst with rfl | hold
      · exact h.found _ completed hcompleted
      · exact h.found instanceId inst hold
    · intro instanceId inst playbook' hinst hplaybook'
      rcases Store.of_get_save hinst with rfl | hold
      · obtain rfl := Except.ok.inj (hplaybook.symm.trans hplaybook')
        exact hfits.complete now hknown
      · exact h.fits instanceId inst playbook' hold hplaybook'

lemma completed_iff {inst : PlaybookInstance} {instanceId : Uuid} (hinst : s.instances.get instanceId = some inst) :
    Completed s instanceId ↔ inst.completedAt.isSome = true := by
  constructor
  · rintro ⟨found, hfound, hat⟩
    obtain rfl := Option.some.inj (hinst.symm.trans hfound)
    exact hat
  · exact fun hat => ⟨inst, hinst, hat⟩

/-- After an instance was saved `completed_at` is set as it has it, and as before of the others. -/
lemma completed_save_iff {s' : PlaybookEngine Score} {inst : PlaybookInstance} {instanceId : Uuid}
    (hsaved : s'.instances = s.instances.save inst) :
    Completed s' instanceId ↔
      (instanceId = inst.id ∧ inst.completedAt.isSome = true) ∨ (instanceId ≠ inst.id ∧ Completed s instanceId) := by
  by_cases hid : instanceId = inst.id
  · subst hid
    have hfound : s'.instances.get inst.id = some inst := by
      rw [hsaved]
      exact Store.get_save_self _ _
    simp [completed_iff hfound]
  · simp only [Completed, hsaved, Store.get_save, hid, if_false, false_and, false_or, ne_eq, not_false_eq_true, true_and]

/-- `completed_at` is set after an act iff it was before, or all steps are completed now. -/
lemma completed_step_iff (h : Inv s) {act : Act Score} (hfitting : Fitting s act) (instanceId : Uuid) :
    Completed (step isFrozen s act) instanceId ↔
      Completed s instanceId ∨ AllDone (step isFrozen s act) instanceId := by
  have hinv : Inv (step isFrozen s act) := h.step hfitting
  have heffect := step_effect isFrozen s act
  generalize PlaybookEngine.step isFrozen s act = s' at heffect hinv ⊢
  have hdone : AllDone s' instanceId → Completed s' instanceId := by
    rintro ⟨inst, playbook, hinst, hplaybook, hall⟩
    exact ⟨inst, hinst, (hinv.fits instanceId inst playbook hinst hplaybook).noted hall⟩
  refine ⟨?_, Or.rec ?_ hdone⟩
  · intro hnow
    cases heffect with
    | kept | knowledge | created => exact Or.inl hnow
    | started hget =>
      rcases (completed_save_iff rfl).mp hnow with ⟨-, hat⟩ | ⟨-, hbefore⟩
      · cases hat
      · exact Or.inl hbefore
    | @completed firmId completedId _ now completed playbook orders hcompleted hfirm hplaybook horders hknown =>
      have hid : completed.id = completedId := Store.key_of_get hcompleted
      subst hid hfirm
      have hfits := h.fits _ completed playbook hcompleted hplaybook
      rw [PyValue.eq_of_pySet isFrozen hfits.distinct horders] at hknown
      rcases (completed_save_iff rfl).mp hnow with ⟨rfl, hat⟩ | ⟨-, hbefore⟩
      · rcases isSome_complete_iff.mp hat with hlast | hbefore
        · have hamong := (hfits.among hknown).complete now hknown
          exact Or.inr ⟨_, playbook, Store.get_save_self _ _, hplaybook, (hamong.length_eq_iff hfits.distinct).mp hlast⟩
        · exact Or.inl ⟨completed, hcompleted, hbefore⟩
      · exact Or.inl hbefore
  · intro hbefore
    cases heffect with
    | kept | knowledge | created => exact hbefore
    | started hget =>
      have ⟨inst, hinst, _⟩ := hbefore
      exact (completed_save_iff rfl).mpr (Or.inr ⟨(h.below instanceId inst hinst).ne, hbefore⟩)
    | @completed _ completedId stepOrder now completed playbook _ hcompleted _ _ _ _ =>
      have hid : completed.id = completedId := Store.key_of_get hcompleted
      subst hid
      let after := completed.complete playbook.steps.length stepOrder now
      have hsaved : Completed { s with instances := s.instances.save after } instanceId ↔ _ := completed_save_iff rfl
      by_cases hsame : instanceId = completed.id
      · subst hsame
        have hat := (completed_iff hcompleted).mp hbefore
        exact hsaved.mpr (Or.inl ⟨rfl, isSome_complete_iff.mpr (Or.inr hat)⟩)
      · exact hsaved.mpr (Or.inr ⟨hsame, hbefore⟩)

lemma inv_start : Inv ({} : PlaybookEngine Score) :=
  ⟨⟨Store.below_empty 0, nofun⟩, Store.below_empty 0, fun _ _ h => (by cases h), fun _ _ _ h => by cases h⟩

/-- **What the steps of an instance tell.**  After every run in which instances are started on playbooks with steps
of distinct orders, and updates of playbooks fit the instances, `progress` is the share of completed steps, and
`completed_at` is set iff at some moment all steps were completed. -/
theorem progress_of_fitting (isFrozen : String → Bool) (acts : List (Act Score))
    (h : Along (PlaybookEngine.step isFrozen) Fitting {} acts) (instanceId : Uuid) :
    ProgressTells (run (PlaybookEngine.step isFrozen) {} acts) instanceId ∧
      (Completed (run (PlaybookEngine.step isFrozen) {} acts) instanceId ↔
        ∃ pre, pre <+: acts ∧ AllDone (run (PlaybookEngine.step isFrozen) {} pre) instanceId) := by
  constructor
  · exact progressTells (h.inv inv_start fun _ _ hinv hfitting => hinv.step hfitting) instanceId
  · refine h.since_iff (P := fun s => Completed s instanceId) (Q := fun s => AllDone s instanceId) inv_start
      (fun _ _ hinv hfitting => hinv.step hfitting) ?_ fun _ _ hinv hfitting =>
        completed_step_iff hinv hfitting instanceId
    constructor
    · rintro ⟨_, hinst, -⟩
      cases hinst
    · rintro ⟨_, _, hinst, -⟩
      cases hinst

/-- A step of order one. -/
def stepOne : PlaybookStep where
  order := .primitive (.int 1)
  title := .primitive (.str "t")
  description := .primitive (.str "d")

/-- A playbook is created and approved, and an instance of it started. -/
def started (steps : List PlaybookStep) : List (Act ℕ) :=
  [.createPlaybook "f" "p" "c" steps [] "a",
    .knowledge (.perform (.submitForValidation "f" 0 "a")),
    .knowledge (.perform (.decide "f" 2 .approve "r" none)),
    .startInstance "f" 0 none 0]

/-- The instance that is started. -/
def startedInstance : PlaybookInstance where
  id := 4
  firmId := "f"
  playbookId := 0
  caseReference := none
  startedAt := 0

lemma known_one : anySame [.primitive (.int 1)] (.primitive (.int 1)) = true :=
  PyValue.anySame_iff.mpr ⟨_, List.mem_singleton.mpr rfl, same_int.mpr rfl⟩

theorem progress_of_fitting_one_step :
    ∃ pre, pre <+: started [stepOne] ++ [.completeStep "f" 4 1 5] ∧
      AllDone (run (PlaybookEngine.step fun _ => true) {} pre) 4 := by
  have hstart : Fitting (run (PlaybookEngine.step fun _ => true) ({} : PlaybookEngine ℕ)
      ((started [stepOne]).take 3)) (.startInstance "f" 0 none 0) := by
    intro playbook hplaybook
    have hsteps : playbook.steps = [stepOne] := by
      obtain rfl := Except.ok.inj hplaybook
      rfl
    rw [Playbook.orders, hsteps]
    exact ⟨nofun, List.pairwise_singleton _ _⟩
  have hfitting : Along (PlaybookEngine.step fun _ => true) Fitting ({} : PlaybookEngine ℕ)
      (started [stepOne] ++ [.completeStep "f" 4 1 5]) :=
    And.intro trivial <| And.intro trivial <| And.intro trivial <| And.intro hstart <| And.intro trivial trivial
  refine (progress_of_fitting (fun _ => true) _ hfitting 4).2.mp ?_
  have horders : pySet (fun _ => true) [.primitive (.int 1)] = .ok [.primitive (.int 1)] :=
    PyValue.pySet_eq_ok _ (by simp [PyValue.unhashableItem, PyValue.unhashable]) (List.pairwise_singleton _ _)
  have hinst : (run (PlaybookEngine.step fun _ => true) {} (started [stepOne])).getInstance "f" 4 =
      .ok startedInstance := rfl
  rw [run_snoc, step_completeStep_eq 5 hinst rfl horders known_one]
  exact ⟨_, Store.get_save_self _ _, rfl⟩

/-- Two steps have one order: after it was completed all steps are, and `progress` is one half. -/
theorem completed_twice :
    ¬ ProgressTells (run (PlaybookEngine.step fun _ => true) {}
      (started [stepOne, stepOne] ++ [.completeStep "f" 4 1 5])) 4 := by
  intro h
  have horders : pySet (fun _ => true) [.primitive (.int 1), .primitive (.int 1)] = .ok [.primitive (.int 1)] := by
    simp [pySet, PyValue.unhashableItem, PyValue.unhashable, PyValue.addItem, same_int]
  have hinst : (run (PlaybookEngine.step fun _ => true) {} (started [stepOne, stepOne])).getInstance "f" 4 =
      .ok startedInstance := rfl
  rw [run_snoc, step_completeStep_eq 5 hinst rfl horders known_one] at h
  obtain ⟨p, hp, -, -, hone⟩ := h (startedInstance.complete 2 1 5)
    { id := knowledgeId 0, caseType := .primitive (.str "c"), title := "p", steps := [stepOne, stepOne] } rfl rfl
  have hhalf : (1 : ℚ) / 2 = p := Except.ok.inj hp
  have hall := hone.mpr fun order horder => by
    refine ⟨1, PySet.mem_add_self _ _, ?_⟩
    simp only [Playbook.orders, stepOne, List.map_cons, List.map_nil, List.mem_cons, or_self, List.not_mem_nil,
      or_false] at horder
    rw [horder]
    exact same_int.mpr rfl
  rw [← hhalf] at hall
  norm_num at hall

end Inv

end PlaybookEngine

end Tmis.CabinetKnowledge
