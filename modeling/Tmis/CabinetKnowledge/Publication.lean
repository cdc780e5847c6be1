import Tmis.CabinetKnowledge.Reviewed

/-!
# Publication

`ApprovalEngine`, which publishes validated knowledge, beside the engines that write its content and its status,
and the calls of `KnowledgeSpace` that write neither.

* `KnowledgeBase`, `Act`, `step` — the engines together, and all that can be done with an object;
* `Effect`, `step_effect` — what an act does to the objects and to the journal;
* `Drawn` — the identifiers that are in use have been drawn;
* `only_validated_published` — over every run, what is published is validated, and what stops being validated
  stops being published.
-/

namespace Tmis.CabinetKnowledge

open Tmis.Lib KnowledgeEngines

structure ApprovalRecord where
  id : Uuid
  firmId : String
  knowledgeObjectId : Uuid
  approver : String
  deriving DecidableEq

/-- The engines with their stores.  How often an object was used and what it scores are kept beside it; an object
without an entry has not been used, and scores nothing. -/
structure KnowledgeBase (Content Score : Type) where
  engines : KnowledgeEngines Content := {}
  records : List ApprovalRecord := []
  usageCounts : Dict Uuid ℕ := ∅
  qualityScores : Dict Uuid Score := ∅

def notValidatedError (objectId : Uuid) (status : KnowledgeStatus) : PyException :=
  ⟨"NotValidatedError", knowledgeId objectId ++ " is " ++ status.value ++ ", expected validated"⟩

namespace KnowledgeBase

variable {Content Score : Type}

/-! ### `KnowledgeSpace` -/

/-- The objects after one was written. -/
def saved (s : KnowledgeEngines Content) (obj : KnowledgeObject Content) : KnowledgeEngines Content :=
  { s with objects := s.objects.save obj }

def addTags (base : KnowledgeBase Content Score) (firmId : String) (objectId : Uuid) (tags : List String) :
    Except PyException (KnowledgeObject Content × KnowledgeBase Content Score) := do
  let obj ← base.engines.get firmId objectId
  let obj := { obj with tags := obj.tags ++ tags.filter (· ∉ obj.tags) }
  return (obj, { base with engines := saved base.engines obj })

def setQualityScore (base : KnowledgeBase Content Score) (firmId : String) (objectId : Uuid) (score : Score) :
    Except PyException (KnowledgeObject Content × KnowledgeBase Content Score) := do
  let obj ← base.engines.get firmId objectId
  return (obj, { base with qualityScores := base.qualityScores.set objectId score })

/-- `KnowledgeSpace.set_status`, which trusts its caller. -/
def setStatus (base : KnowledgeBase Content Score) (firmId : String) (objectId : Uuid) (status : KnowledgeStatus) :
    Except PyException (KnowledgeObject Content × KnowledgeBase Content Score) := do
  let obj ← base.engines.get firmId objectId
  let obj := withStatus obj status
  return (obj, { base with engines := saved base.engines obj })

def recordUsage (base : KnowledgeBase Content Score) (firmId : String) (objectId : Uuid) :
    Except PyException (KnowledgeObject Content × KnowledgeBase Content Score) := do
  let obj ← base.engines.get firmId objectId
  let usageCount := (base.usageCounts.get objectId).getD 0
  return (obj, { base with usageCounts := base.usageCounts.set objectId (usageCount + 1) })

/-! ### `ApprovalEngine` -/

/-- `publish`: the object that was found is the one that is stored. -/
def publish (base : KnowledgeBase Content Score) (firmId : String) (objectId : Uuid) (approver : String) :
    Except PyException (KnowledgeObject Content × KnowledgeBase Content Score) := do
  let obj ← base.engines.get firmId objectId
  if obj.status ≠ .validated then .error (notValidatedError objectId obj.status)
  else
    let obj := { obj with isPublished := true }
    let engines := saved base.engines obj
    let record : ApprovalRecord := { id := engines.uuids, firmId, knowledgeObjectId := objectId, approver }
    return (obj, { base with
      engines := { engines with uuids := engines.uuids + 1 }
      records := base.records ++ [record] })

def unpublish (base : KnowledgeBase Content Score) (firmId : String) (objectId : Uuid) :
    Except PyException (KnowledgeObject Content × KnowledgeBase Content Score) := do
  let obj ← base.engines.get firmId objectId
  let obj := { obj with isPublished := false }
  return (obj, { base with engines := saved base.engines obj })

/-! ### Acts -/

/-- An operation of the engines of content, status and validation, or another call. -/
inductive Act (Content Score : Type) where
  | perform (operation : Operation Content)
  | addTags (firmId : String) (objectId : Uuid) (tags : List String)
  | setQualityScore (firmId : String) (objectId : Uuid) (score : Score)
  | setStatus (firmId : String) (objectId : Uuid) (status : KnowledgeStatus)
  | recordUsage (firmId : String) (objectId : Uuid)
  | publish (firmId : String) (objectId : Uuid) (approver : String)
  | unpublish (firmId : String) (objectId : Uuid)

/-- The call of an act, without the value it gives. -/
def call (base : KnowledgeBase Content Score) : Act Content Score → Except PyException (KnowledgeBase Content Score)
  | .perform operation => (perform base.engines operation).map fun engines => { base with engines }
  | .addTags firmId objectId tags => (base.addTags firmId objectId tags).map Prod.snd
  | .setQualityScore firmId objectId score => (base.setQualityScore firmId objectId score).map Prod.snd
  | .setStatus firmId objectId status => (base.setStatus firmId objectId status).map Prod.snd
  | .recordUsage firmId objectId => (base.recordUsage firmId objectId).map Prod.snd
  | .publish firmId objectId approver => (base.publish firmId objectId approver).map Prod.snd
  | .unpublish firmId objectId => (base.unpublish firmId objectId).map Prod.snd

/-- One act; one that raises changes nothing. -/
def step (base : KnowledgeBase Content Score) (act : Act Content Score) : KnowledgeBase Content Score :=
  afterCall base (base.call act)

/-! ### All that one act does -/

/-- What an act does to the objects and to the journal, from these engines to those. -/
inductive Effect (s : KnowledgeEngines Content) : Act Content Score → KnowledgeEngines Content → Prop
  | kept {act} : Effect s act s
  | created {firmId type title content author tags} :
      Effect s (.perform (.create firmId type title content author tags))
        (s.create firmId type title content author tags).2
  | updated {firmId objectId content actor obj} (hget : s.get firmId objectId = .ok obj) :
      Effect s (.perform (.updateContent firmId objectId content actor))
        (saved s { obj with content, version := obj.version + 1, status := .draft, isPublished := false })
  | moved {operation firmId objectId toStatus actor reason obj s'} (hget : s.get firmId objectId = .ok obj)
      (hoperation : ∀ firmId objectId content actor, operation ≠ .updateContent firmId objectId content actor)
      (hobjects : s'.objects = s.objects.save (withStatus obj toStatus))
      (hevents : s'.events = s.events ++ [⟨s.uuids, firmId, objectId, obj.status, toStatus, actor, reason⟩])
      (huuids : s.uuids < s'.uuids) : Effect s (.perform operation) s'
  | tagged {firmId objectId tags obj} (hget : s.get firmId objectId = .ok obj) (tags' : List String) :
      Effect s (.addTags firmId objectId tags) (saved s { obj with tags := tags' })
  | statusSet {firmId objectId status obj} (hget : s.get firmId objectId = .ok obj) :
      Effect s (.setStatus firmId objectId status) (saved s (withStatus obj status))
  | published {firmId objectId approver obj} (hget : s.get firmId objectId = .ok obj)
      (hvalidated : obj.status = .validated) :
      Effect s (.publish firmId objectId approver)
        { saved s { obj with isPublished := true } with uuids := s.uuids + 1 }
  | unpublished {firmId objectId obj} (hget : s.get firmId objectId = .ok obj) :
      Effect s (.unpublish firmId objectId) (saved s { obj with isPublished := false })

section Step

variable {base : KnowledgeBase Content Score} {s s' : KnowledgeEngines Content}

lemma effect_perform {operation : Operation Content} (h : perform s operation = .ok s') :
    Effect s (.perform operation : Act Content Score) s' := by
  cases operation with
  | create firmId type title content author tags =>
    obtain rfl := Except.ok.inj h
    exact .created
  | updateContent firmId objectId content actor =>
    obtain ⟨r, hr, rfl⟩ := map_eq_ok.mp h
    obtain ⟨obj, hget, hrest⟩ := bind_eq_ok.mp hr
    obtain rfl := pure_eq_ok.mp hrest
    exact .updated hget
  | transition firmId objectId toStatus actor reason =>
    obtain ⟨r, hr, rfl⟩ := map_eq_ok.mp h
    obtain ⟨obj, hget, -, rfl⟩ := transition_ok.mp hr
    exact .moved hget nofun rfl rfl (Nat.lt_succ_self _)
  | submitForValidation firmId objectId requestedBy =>
    obtain ⟨r, hr, rfl⟩ := map_eq_ok.mp h
    obtain ⟨x, hmoved, hrest⟩ := bind_eq_ok.mp hr
    obtain rfl := pure_eq_ok.mp hrest
    obtain ⟨obj, hget, -, rfl⟩ := transition_ok.mp hmoved
    exact .moved hget nofun rfl rfl (Nat.lt_succ_of_lt (Nat.lt_succ_self _))
  | decide firmId requestId decision reviewer comment =>
    obtain ⟨r, hr, rfl⟩ := map_eq_ok.mp h
    dsimp only [KnowledgeEngines.decide] at hr
    split at hr
    · cases hr
    · split at hr
      · cases hr
      · split at hr
        · cases hr
        · obtain ⟨x, hmoved, hrest⟩ := bind_eq_ok.mp hr
          obtain rfl := pure_eq_ok.mp hrest
          obtain ⟨obj, hget, -, rfl⟩ := transition_ok.mp hmoved
          exact .moved hget nofun rfl rfl (Nat.lt_succ_self _)

lemma effect_call {act : Act Content Score} {base' : KnowledgeBase Content Score} (h : base.call act = .ok base') :
    Effect base.engines act base'.engines := by
  cases act with
  | perform operation =>
    obtain ⟨engines, hperform, rfl⟩ := map_eq_ok.mp h
    exact effect_perform hperform
  | publish firmId objectId approver =>
    obtain ⟨r, hr, rfl⟩ := map_eq_ok.mp h
    obtain ⟨obj, hget, hrest⟩ := bind_eq_ok.mp hr
    dsimp only at hrest
    split at hrest
    · cases hrest
    · rename_i hvalidated
      obtain rfl := pure_eq_ok.mp hrest
      exact .published hget (not_not.mp hvalidated)
  | _ =>
    obtain ⟨r, hr, rfl⟩ := map_eq_ok.mp h
    obtain ⟨obj, hget, hrest⟩ := bind_eq_ok.mp hr
    obtain rfl := pure_eq_ok.mp hrest
    first
      | exact .tagged hget _
      | exact .kept
      | exact .statusSet hget
      | exact .unpublished hget

variable (base) in
/-- **All that one act does.** -/
theorem step_effect (act : Act Content Score) : Effect base.engines act (base.step act).engines := by
  unfold step
  rcases afterCall_cases base (base.call act) with hok | ⟨-, hsame⟩
  · exact effect_call hok
  · rw [hsame]
    exact .kept

end Step

/-! ### Identifiers -/

/-- Objects and events are known by identifiers that have been drawn. -/
structure Drawn (s : KnowledgeEngines Content) : Prop where
  objects : s.objects.Below s.uuids
  events : ∀ e ∈ s.events, e.knowledgeObjectId < s.uuids

section Drawn

variable {s s' : KnowledgeEngines Content} {act : Act Content Score} {obj : KnowledgeObject Content}

/-- The object that was found is found under its own identifier. -/
lemma get_id {firmId : String} {objectId : Uuid} (hget : s.get firmId objectId = .ok obj) :
    s.objects.get obj.id = some obj := by
  obtain ⟨hfound, -⟩ := get_ok.mp hget
  rw [Store.key_of_get hfound]
  exact hfound

lemma Drawn.write (h : Drawn s) {n : ℕ} (hle : s.uuids ≤ n) (hid : obj.id < n) :
    Drawn { saved s obj with uuids := n } where
  objects := (h.objects.mono hle).save hid
  events e he := (h.events e he).trans_le hle

lemma Drawn.id_lt (h : Drawn s) {firmId : String} {objectId : Uuid} (hget : s.get firmId objectId = .ok obj) :
    obj.id < s.uuids := h.objects obj.id obj (get_id hget)

lemma Drawn.effect (h : Drawn s) (heffect : Effect s act s') : Drawn s' := by
  cases heffect with
  | kept => exact h
  | created => exact h.write (Nat.le_succ _) (Nat.lt_succ_self s.uuids)
  | @moved _ _ objectId toStatus _ _ obj _ hget _ hobjects hevents huuids =>
    constructor
    · rw [hobjects]
      have hlt : (withStatus obj toStatus).id < s'.uuids := (h.id_lt hget).trans huuids
      exact (h.objects.mono huuids.le).save hlt
    · intro e he
      rw [hevents] at he
      rcases List.mem_append.mp he with hbefore | hnew
      · exact (h.events e hbefore).trans huuids
      · obtain rfl := List.mem_singleton.mp hnew
        exact (h.objects objectId obj (get_ok.mp hget).1).trans huuids
  | published hget _ =>
    have hlt := h.id_lt hget
    exact h.write (Nat.le_succ _) (Nat.lt_succ_of_lt hlt)
  | updated hget | tagged hget _ | statusSet hget | unpublished hget =>
    have hlt := h.id_lt hget
    exact h.write le_rfl hlt

end Drawn

/-! ### What is published -/

/-- What is published is validated. -/
def OnlyValidated (s : KnowledgeEngines Content) : Prop :=
  ∀ objectId obj, s.objects.get objectId = some obj → obj.isPublished = true → obj.status = .validated

/-- What was validated and is not any more is not published. -/
def Unpublishes (s s' : KnowledgeEngines Content) : Prop :=
  ∀ objectId obj obj', s.objects.get objectId = some obj → obj.status = .validated →
    s'.objects.get objectId = some obj' → obj'.status ≠ .validated → obj'.isPublished = false

section Published

variable {s s' : KnowledgeEngines Content} {obj : KnowledgeObject Content}

lemma isPublished_withStatus {status : KnowledgeStatus} (h : (withStatus obj status).status ≠ .validated) :
    (withStatus obj status).isPublished = false := if_pos h

lemma OnlyValidated.write (h : OnlyValidated s) (hobj : obj.isPublished = true → obj.status = .validated) :
    OnlyValidated (saved s obj) := by
  intro objectId found hget hpublished
  rcases Store.of_get_save hget with rfl | hold
  · exact hobj hpublished
  · exact h objectId found hold hpublished

/-- **The step lemma.** -/
lemma OnlyValidated.effect (h : OnlyValidated s) {act : Act Content Score} (heffect : Effect s act s') :
    OnlyValidated s' := by
  have hstatus : ∀ {obj : KnowledgeObject Content} {status}, (withStatus obj status).isPublished = true →
      (withStatus obj status).status = .validated := by
    intro obj status hpublished
    by_contra hne
    rw [isPublished_withStatus hne] at hpublished
    cases hpublished
  cases heffect with
  | kept => exact h
  | created => exact h.write nofun
  | updated hget => exact h.write nofun
  | moved hget _ hobjects _ _ =>
    intro objectId found hget' hpublished
    rw [hobjects] at hget'
    exact h.write hstatus objectId found hget' hpublished
  | @tagged _ objectId _ obj hget tags' =>
    have hfound : obj.isPublished = true → obj.status = .validated := h objectId obj (get_ok.mp hget).1
    exact h.write hfound
  | statusSet hget => exact h.write hstatus
  | published hget hvalidated => exact h.write fun _ => hvalidated
  | unpublished hget => exact h.write nofun

lemma unpublishes_write (hobj : ∀ old, s.objects.get obj.id = some old → old.status = .validated →
    obj.status ≠ .validated → obj.isPublished = false) : Unpublishes s (saved s obj) := by
  intro objectId old found hold hvalidated hget hne
  rcases Store.get_save_cases hget with ⟨rfl, rfl⟩ | ⟨-, hkept⟩
  · exact hobj old hold hvalidated hne
  · rw [hold] at hkept
    obtain rfl := Option.some.inj hkept
    exact absurd hvalidated hne

lemma unpublishes_effect {act : Act Content Score} (heffect : Effect s act s') : Unpublishes s s' := by
  cases heffect with
  | kept =>
    intro objectId old found hold hvalidated hget hne
    rw [hold] at hget
    obtain rfl := Option.some.inj hget
    exact absurd hvalidated hne
  | created => exact unpublishes_write fun _ _ _ _ => rfl
  | updated hget => exact unpublishes_write fun _ _ _ _ => rfl
  | moved hget _ hobjects _ _ =>
    intro objectId old found hold hvalidated hget'
    rw [hobjects] at hget'
    exact unpublishes_write (fun _ _ _ => isPublished_withStatus) objectId old found hold hvalidated hget'
  | tagged hget tags' =>
    refine unpublishes_write fun old hold hvalidated hne => absurd ?_ hne
    obtain ⟨hfound, -⟩ := get_ok.mp hget
    rw [Store.key_of_get hfound, hfound] at hold
    obtain rfl := Option.some.inj hold
    exact hvalidated
  | statusSet hget => exact unpublishes_write fun _ _ _ => isPublished_withStatus
  | published hget hvalidated => exact unpublishes_write fun _ _ _ hne => absurd hvalidated hne
  | unpublished hget => exact unpublishes_write fun _ _ _ _ => rfl

end Published

/-- **Only validated objects are published**, in every state of every run; and every act, in any state, that
takes an object out of `VALIDATED` unpublishes it. -/
theorem only_validated_published (acts : List (Act Content Score)) (base : KnowledgeBase Content Score)
    (act : Act Content Score) :
    OnlyValidated (run step ({} : KnowledgeBase Content Score) acts).engines ∧
      Unpublishes base.engines (base.step act).engines := by
  refine ⟨?_, unpublishes_effect (step_effect base act)⟩
  exact run_inv (I := fun base : KnowledgeBase Content Score => OnlyValidated base.engines) acts
    (fun _ _ h => by cases h) fun base act h => h.effect (step_effect base act)

end KnowledgeBase

end Tmis.CabinetKnowledge
