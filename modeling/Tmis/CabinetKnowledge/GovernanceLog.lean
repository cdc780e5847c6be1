import Tmis.CabinetKnowledge.Publication

/-!
# The journal of the statuses

`GovernanceEngine` journals every transition it makes.  The status of an object is written elsewhere too: an
update makes the object a draft again, and `set_status` writes any status.

* `replay`, `history` — the status that events lead to, and the events of an object;
* `Logged`, `Recorded` — the journal tells the statuses; each event starts at the status its object had;
* `Governed` — the acts that leave the status to the journal;
* `log_complete_iff` — in a run the journal is complete iff all acts do; `updated_unlogged`, one that does not.
-/

namespace Tmis.CabinetKnowledge

open Tmis.Lib KnowledgeEngines

namespace KnowledgeBase

variable {Content Score : Type}

/-- The status after an event, if it starts at this one. -/
def applyEvent (status : KnowledgeStatus) (event : GovernanceEvent) : Option KnowledgeStatus :=
  if event.fromStatus = status then some event.toStatus else none

/-- The status after these events, if each of them starts at the one before. -/
def replay (status : KnowledgeStatus) (events : List GovernanceEvent) : Option KnowledgeStatus :=
  events.foldlM applyEvent status

/-- `GovernanceEngine.history`. -/
def history (s : KnowledgeEngines Content) (firmId : String) (objectId : Uuid) : List GovernanceEvent :=
  s.events.filter fun e => e.firmId = firmId ∧ e.knowledgeObjectId = objectId

/-- The events of every object lead from a draft to its status. -/
def Logged (s : KnowledgeEngines Content) : Prop :=
  ∀ objectId obj, s.objects.get objectId = some obj → replay .draft (history s obj.firmId objectId) = some obj.status

/-- What was recorded between these states starts at the status its object had before. -/
def Recorded (s s' : KnowledgeEngines Content) : Prop :=
  ∃ recorded, s'.events = s.events ++ recorded ∧ ∀ e ∈ recorded, ∃ obj,
    s.objects.get e.knowledgeObjectId = some obj ∧ obj.firmId = e.firmId ∧ obj.status = e.fromStatus

/-- The journal is complete after the act. -/
def Complete (base : KnowledgeBase Content Score) (act : Act Content Score) : Prop :=
  Logged (base.step act).engines ∧ Recorded base.engines (base.step act).engines

/-- Only drafts are updated, and `set_status` is not called for another status but by the journal's engine. -/
def Governed (base : KnowledgeBase Content Score) : Act Content Score → Prop
  | .perform (.updateContent firmId objectId _ _) =>
    ∀ obj, base.engines.get firmId objectId = .ok obj → obj.status = .draft
  | .setStatus firmId objectId status =>
    ∀ obj, base.engines.get firmId objectId = .ok obj → obj.status = status
  | _ => True

/-! ### The journal after a write -/

section Write

variable {s s' : KnowledgeEngines Content} {obj obj' : KnowledgeObject Content}

lemma replay_append (status : KnowledgeStatus) (events : List GovernanceEvent) (event : GovernanceEvent) :
    replay status (events ++ [event]) = (replay status events).bind fun status => applyEvent status event := by
  unfold replay
  rw [List.foldlM_append]
  simp

/-- The journal tells the statuses after an object was written that keeps its status. -/
lemma logged_write {firmId : String} {objectId : Uuid} (h : Logged s) (hget : s.get firmId objectId = .ok obj)
    (hid : obj'.id = obj.id) (hfirm : obj'.firmId = obj.firmId) (hstatus : obj.status = obj'.status) :
    Logged (saved s obj') := by
  intro objectId found hfound
  rcases Store.get_save_cases hfound with ⟨rfl, rfl⟩ | ⟨-, hold⟩
  · rw [← hstatus, hfirm, hid]
    exact h obj.id obj (get_id hget)
  · exact h objectId found hold

/-- If it still tells them, the object kept its status. -/
lemma status_eq_of_logged_write (hlogged : Logged (saved s obj')) {firmId : String} {objectId : Uuid} (h : Logged s)
    (hget : s.get firmId objectId = .ok obj) (hid : obj'.id = obj.id) (hfirm : obj'.firmId = obj.firmId) :
    obj.status = obj'.status := by
  have hbefore := h obj.id obj (get_id hget)
  have hafter : replay .draft (history s obj'.firmId obj'.id) = some obj'.status :=
    hlogged obj'.id obj' (Store.get_save_self _ _)
  rw [hfirm, hid] at hafter
  exact Option.some.inj (hbefore.symm.trans hafter)

/-- A new object is a draft, and nothing is recorded of it. -/
lemma logged_create (h : Logged s) (hdrawn : Drawn s) (hid : obj.id = s.uuids) (hstatus : obj.status = .draft) :
    Logged { saved s obj with uuids := s.uuids + 1 } := by
  intro objectId found hget
  rcases Store.get_save_cases hget with ⟨rfl, rfl⟩ | ⟨-, hold⟩
  · have hnone : history s found.firmId found.id = [] := by
      refine List.filter_eq_nil_iff.mpr fun e he hmatch => ?_
      have hlt := hdrawn.events e he
      rw [(of_decide_eq_true hmatch).2, hid] at hlt
      exact lt_irrefl _ hlt
    show replay .draft (history s found.firmId found.id) = some found.status
    rw [hnone, hstatus]
    rfl
  · exact h objectId found hold

/-- A transition is recorded. -/
lemma logged_move (h : Logged s) {event : GovernanceEvent} (hobjects : s'.objects = s.objects.save obj')
    (hevents : s'.events = s.events ++ [event]) (hobj : s.objects.get obj.id = some obj) (hid : obj'.id = obj.id)
    (hfirm : obj'.firmId = obj.firmId) (hevent : event.firmId = obj.firmId)
    (hevent' : event.knowledgeObjectId = obj.id) (hfrom : event.fromStatus = obj.status)
    (hto : event.toStatus = obj'.status) : Logged s' := by
  intro objectId found hget
  rw [hobjects] at hget
  unfold history
  rw [hevents, List.filter_append]
  rcases Store.get_save_cases hget with ⟨rfl, rfl⟩ | ⟨hne, hold⟩
  · have hmatch : [event].filter (fun e => e.firmId = found.firmId ∧ e.knowledgeObjectId = found.id) = [event] := by
      simp [hevent, hevent', hid, hfirm]
    rw [hmatch, replay_append, hfirm, hid]
    show (replay .draft (history s obj.firmId obj.id)).bind _ = _
    rw [h obj.id obj hobj, Option.bind_some, applyEvent, if_pos hfrom, hto]
  · have hnone : [event].filter (fun e => e.firmId = found.firmId ∧ e.knowledgeObjectId = objectId) = [] := by
      rw [hid] at hne
      simp [hevent', hne.symm]
    rw [hnone, List.append_nil]
    exact h objectId found hold

end Write

/-! ### The journal after an act -/

section Effect

variable {s s' : KnowledgeEngines Content} {act : Act Content Score} {obj : KnowledgeObject Content}

lemma recorded_of_events_eq (h : s'.events = s.events) : Recorded s s' :=
  ⟨[], by rw [h, List.append_nil], nofun⟩

/-- Every transition is recorded from the status that the object had. -/
lemma recorded_effect (heffect : Effect s act s') : Recorded s s' := by
  cases heffect with
  | @moved _ _ objectId _ _ _ obj _ hget _ hobjects hevents huuids =>
    refine ⟨_, hevents, fun e he => ?_⟩
    obtain rfl := List.mem_singleton.mp he
    obtain ⟨hfound, hfirm⟩ := get_ok.mp hget
    exact ⟨obj, hfound, hfirm.symm, rfl⟩
  | _ => exact recorded_of_events_eq rfl

/-- **The step lemma.**  An act that leaves the status to the journal keeps the journal complete. -/
lemma Logged.effect {base : KnowledgeBase Content Score} (h : Logged base.engines) (hdrawn : Drawn base.engines)
    (hact : Governed base act) (heffect : Effect base.engines act s') : Logged s' := by
  cases heffect with
  | kept => exact h
  | created => exact logged_create h hdrawn rfl rfl
  | updated hget => exact logged_write h hget rfl rfl (hact _ hget)
  | moved hget _ hobjects hevents _ =>
    obtain ⟨hfound, hfirm⟩ := get_ok.mp hget
    exact logged_move h hobjects hevents (get_id hget) rfl rfl hfirm (Store.key_of_get hfound).symm rfl rfl
  | tagged hget tags' => exact logged_write h hget rfl rfl rfl
  | statusSet hget => exact logged_write h hget rfl rfl (hact _ hget)
  | published hget _ => exact logged_write h hget rfl rfl rfl
  | unpublished hget => exact logged_write h hget rfl rfl rfl

end Effect

/-! ### Runs -/

section Runs

variable {base : KnowledgeBase Content Score}

/-- What is drawn is drawn, and the journal tells the statuses. -/
def Inv (base : KnowledgeBase Content Score) : Prop := Drawn base.engines ∧ Logged base.engines

lemma Inv.step (h : Inv base) {act : Act Content Score} (hact : Governed base act) : Inv (base.step act) :=
  ⟨h.1.effect (step_effect base act), h.2.effect h.1 hact (step_effect base act)⟩

/-- An act keeps the journal complete iff it leaves the status to it. -/
lemma complete_iff (h : Inv base) (act : Act Content Score) : Complete base act ↔ Governed base act := by
  refine ⟨?_, fun hact => ⟨(h.step hact).2, recorded_effect (step_effect base act)⟩⟩
  rintro ⟨hlogged, -⟩
  cases act with
  | perform operation =>
    cases operation with
    | updateContent firmId objectId content actor =>
      intro obj hget
      have hstep : (base.step (.perform (.updateContent firmId objectId content actor))).engines =
          saved base.engines
            { obj with content, version := obj.version + 1, status := .draft, isPublished := false } := by
        simp only [step, call, CabinetKnowledge.perform, updateContent, hget]
        rfl
      rw [hstep] at hlogged
      exact status_eq_of_logged_write hlogged h.2 hget rfl rfl
    | _ => trivial
  | setStatus firmId objectId status =>
    intro obj hget
    have hstep : (base.step (.setStatus firmId objectId status)).engines =
        saved base.engines (withStatus obj status) := by
      simp only [step, call, setStatus, hget]
      rfl
    rw [hstep] at hlogged
    exact status_eq_of_logged_write hlogged h.2 hget rfl rfl
  | _ => trivial

lemma inv_start : Inv ({} : KnowledgeBase Content Score) :=
  ⟨⟨Store.below_empty 0, nofun⟩, fun _ _ h => by cases h⟩

/-- **The journal of the statuses.**  In a run it is complete after every act iff every act leaves the status
to it: no object is updated but drafts, and no status is set directly but the one the object has. -/
theorem log_complete_iff (acts : List (Act Content Score)) :
    Along step Complete ({} : KnowledgeBase Content Score) acts ↔
      Along step Governed ({} : KnowledgeBase Content Score) acts :=
  along_congr inv_start (fun _ _ h hact => h.step hact) fun _ act h => complete_iff h act

/-- A note is sent to review and then updated: it is a draft, and the journal says that it is in review. -/
theorem updated_unlogged :
    ¬ Along step Complete ({} : KnowledgeBase String ℕ)
      [.perform (.create "f" .note "n" "old" "a" []), .perform (.submitForValidation "f" 0 "a"),
        .perform (.updateContent "f" 0 "new" "a")] := by
  rintro ⟨-, -, ⟨hlogged, -⟩, -⟩
  have hreplay := hlogged 0 _ rfl
  exact absurd hreplay (by decide)

end Runs

end KnowledgeBase

end Tmis.CabinetKnowledge
