import Tmis.CabinetKnowledge.Validation
import Tmis.Lib.Run

/-!
# Validated knowledge is reviewed knowledge

A validated object should stand at the version that was under review in a request that was approved,
and have a pending request only while it is in review.  Updates and transitions do not look at the
requests, so this depends on when they are made.

* `Effect`, `step_effect` — all that one operation does;
* `Reviewed` — the property of a state;
* `Minds` — the discipline: an object with a pending request is left to the decision, and only
  decisions validate;
* `Sound` — the invariant of disciplined runs;
* `along_reviewed_iff` — the runs in which validated knowledge is reviewed knowledge.
-/

namespace Tmis.CabinetKnowledge

open Tmis.Lib KnowledgeEngines

variable {Content : Type}

/-! ### Runs watched -/

/-- A run watched: beside the engines, the version each request was made for. -/
structure Watched (Content : Type) where
  engines : KnowledgeEngines Content := {}
  underReview : Dict Uuid ℕ := ∅

namespace Watched

/-- The versions under review after an operation: a request is for the version of its object. -/
def recorded (w : Watched Content) : Operation Content → Dict Uuid ℕ
  | .submitForValidation firmId objectId requestedBy =>
    match w.engines.submitForValidation firmId objectId requestedBy, w.engines.objects.get objectId with
    | .ok (request, _), some obj => w.underReview.set request.id obj.version
    | _, _ => w.underReview
  | _ => w.underReview

def step (w : Watched Content) (op : Operation Content) : Watched Content where
  engines := CabinetKnowledge.step w.engines op
  underReview := w.recorded op

end Watched

/-- Validated objects stand at a version that was under review in a request that was approved; an
object has at most one pending request, and only while it is in review. -/
structure Reviewed (w : Watched Content) : Prop where
  validated : ∀ objectId obj, w.engines.objects.get objectId = some obj → obj.status = .validated →
    ∃ requestId request, w.engines.requests.get requestId = some request ∧
      request.knowledgeObjectId = objectId ∧ request.status = .approved ∧
      w.underReview.get requestId = some obj.version
  single : ∀ requestId requestId' request request', w.engines.requests.get requestId = some request →
    w.engines.requests.get requestId' = some request' → request.status = .pending →
    request'.status = .pending → request'.knowledgeObjectId = request.knowledgeObjectId →
    requestId' = requestId
  inReview : ∀ requestId request, w.engines.requests.get requestId = some request →
    request.status = .pending →
    ∃ obj, w.engines.objects.get request.knowledgeObjectId = some obj ∧ obj.status = .inReview

/-! ### All that one operation does -/

inductive Effect (w : Watched Content) : Operation Content → Watched Content → Prop
  | raised {op} : Effect w op w
  | created {firmId type title content author tags}
      {obj : KnowledgeObject Content} (hid : obj.id = w.engines.uuids) (hstatus : obj.status = .draft) :
      Effect w (.create firmId type title content author tags)
        { w with engines := { w.engines with
            objects := w.engines.objects.save obj, uuids := w.engines.uuids + 1 } }
  | updated {firmId objectId content actor obj} (hget : w.engines.get firmId objectId = .ok obj) :
      Effect w (.updateContent firmId objectId content actor)
        { w with engines := { w.engines with
            objects := w.engines.objects.save { obj with
              content, version := obj.version + 1, status := .draft, isPublished := false } } }
  | moved {firmId objectId toStatus actor reason obj events}
      (hget : w.engines.get firmId objectId = .ok obj)
      (hallowed : toStatus ∈ allowedTransitions obj.status) :
      Effect w (.transition firmId objectId toStatus actor reason)
        { w with engines := { w.engines with
            objects := w.engines.objects.save (withStatus obj toStatus)
            events
            uuids := w.engines.uuids + 1 } }
  | submitted {firmId objectId requestedBy obj events}
      (hget : w.engines.get firmId objectId = .ok obj)
      (hallowed : KnowledgeStatus.inReview ∈ allowedTransitions obj.status) :
      Effect w (.submitForValidation firmId objectId requestedBy)
        { engines :=
            { objects := w.engines.objects.save (withStatus obj .inReview)
              events
              requests := w.engines.requests.save
                { id := w.engines.uuids + 1, firmId, knowledgeObjectId := objectId, requestedBy }
              uuids := w.engines.uuids + 2 }
          underReview := w.underReview.set (w.engines.uuids + 1) obj.version }
  | decided {firmId requestId decision reviewer comment request obj events}
      (hrequest : w.engines.requests.get requestId = some request)
      (hpending : request.status = .pending)
      (hget : w.engines.get firmId request.knowledgeObjectId = .ok obj)
      (hallowed : decision.toStatus ∈ allowedTransitions obj.status) :
      Effect w (.decide firmId requestId decision reviewer comment)
        { w with engines :=
          { objects := w.engines.objects.save (withStatus obj decision.toStatus)
            events
            requests := w.engines.requests.save { request with
              status := decision.requestStatus, reviewer := some reviewer, comment }
            uuids := w.engines.uuids + 1 } }

section Step

variable {w : Watched Content} {s : KnowledgeEngines Content}

lemma get_ok {firmId : String} {objectId : Uuid} {obj : KnowledgeObject Content} :
    s.get firmId objectId = .ok obj ↔ s.objects.get objectId = some obj ∧ firmId = obj.firmId := by
  unfold KnowledgeEngines.get
  cases hobj : s.objects.get objectId with
  | none => simp
  | some found =>
    by_cases hfirm : firmId = found.firmId
    · simp only [hfirm, if_true, Except.ok.injEq, Option.some.injEq]
      constructor
      · rintro rfl
        exact ⟨rfl, rfl⟩
      · exact fun h => h.1
    · simp only [hfirm, if_false, reduceCtorEq, Option.some.injEq, false_iff]
      rintro ⟨rfl, h⟩
      exact hfirm h

lemma transition_ok {firmId : String} {objectId : Uuid} {toStatus : KnowledgeStatus} {actor : String}
    {reason : Option String} {r : KnowledgeObject Content × KnowledgeEngines Content} :
    s.transition firmId objectId toStatus actor reason = .ok r ↔
      ∃ obj, s.get firmId objectId = .ok obj ∧ toStatus ∈ allowedTransitions obj.status ∧
        r = (withStatus obj toStatus, { s with
          objects := s.objects.save (withStatus obj toStatus)
          events := s.events ++ [⟨s.uuids, firmId, objectId, obj.status, toStatus, actor, reason⟩]
          uuids := s.uuids + 1 }) := by
  simp only [KnowledgeEngines.transition, bind_eq_ok]
  refine exists_congr fun obj => and_congr_right fun _ => ?_
  split
  · rename_i h
    simp only [pure_eq_ok, h, true_and]
    exact eq_comm
  · rename_i h
    simp [h]

/-- The effect of a call that returns. -/
lemma effect_of_ok {op : Operation Content} {s' : KnowledgeEngines Content}
    (h : perform w.engines op = .ok s') : Effect w op { engines := s', underReview := w.recorded op } := by
  cases op with
  | create firmId type title content author tags =>
    cases h
    exact .created rfl rfl
  | updateContent firmId objectId content actor =>
    obtain ⟨r, hr, rfl⟩ := map_eq_ok.mp h
    simp only [KnowledgeEngines.updateContent, bind_eq_ok, pure_eq_ok] at hr
    obtain ⟨obj, hget, rfl⟩ := hr
    exact .updated hget
  | transition firmId objectId toStatus actor reason =>
    obtain ⟨r, hr, rfl⟩ := map_eq_ok.mp h
    obtain ⟨obj, hget, hallowed, rfl⟩ := transition_ok.mp hr
    exact .moved hget hallowed
  | submitForValidation firmId objectId requestedBy =>
    obtain ⟨r, hr, rfl⟩ := map_eq_ok.mp h
    have hcall := hr
    simp only [KnowledgeEngines.submitForValidation, bind_eq_ok, pure_eq_ok] at hr
    obtain ⟨x, hmoved, rfl⟩ := hr
    obtain ⟨obj, hget, hallowed, rfl⟩ := transition_ok.mp hmoved
    have hrecorded : w.recorded (.submitForValidation firmId objectId requestedBy) =
        w.underReview.set (w.engines.uuids + 1) obj.version := by
      simp only [Watched.recorded, hcall, (get_ok.mp hget).1]
    rw [hrecorded]
    exact .submitted hget hallowed
  | decide firmId requestId decision reviewer comment =>
    obtain ⟨r, hr, rfl⟩ := map_eq_ok.mp h
    dsimp only [KnowledgeEngines.decide] at hr
    split at hr
    · cases hr
    · rename_i request hrequest
      split at hr
      · cases hr
      · split at hr
        · cases hr
        · rename_i hpending
          simp only [bind_eq_ok, pure_eq_ok] at hr
          obtain ⟨x, hmoved, rfl⟩ := hr
          obtain ⟨obj, hget, hallowed, rfl⟩ := transition_ok.mp hmoved
          exact .decided hrequest (not_not.mp hpending) hget hallowed

/-- **All that one operation does.** -/
theorem step_effect (w : Watched Content) (op : Operation Content) : Effect w op (w.step op) := by
  rcases afterCall_cases w.engines (perform w.engines op) with hok | ⟨hfail, hsame⟩
  · exact effect_of_ok hok
  · -- a call that raises leaves the engines, and asks for no review
    have hrecorded : w.recorded op = w.underReview := by
      cases op with
      | submitForValidation firmId objectId requestedBy =>
        dsimp only [Watched.recorded]
        split
        · rename_i request s' obj hcall _
          exact absurd (map_eq_ok.mpr ⟨_, hcall, rfl⟩) (hfail s')
        · rfl
      | _ => rfl
    have hstep : w.step op = w := by
      unfold Watched.step CabinetKnowledge.step
      rw [hsame, hrecorded]
    rw [hstep]
    exact .raised

end Step

/-! ### The discipline, and the invariant of disciplined runs -/

/-- The object has a pending request. -/
def HasPending (s : KnowledgeEngines Content) (objectId : Uuid) : Prop :=
  ∃ requestId request, s.requests.get requestId = some request ∧
    request.knowledgeObjectId = objectId ∧ request.status = .pending

/-- Only objects without a pending request are updated or taken back from review, and no transition
made on its own takes an object out of review into validated. -/
def Minds (s : KnowledgeEngines Content) : Operation Content → Prop
  | .updateContent firmId objectId _ _ =>
    ∀ obj, s.get firmId objectId = .ok obj → ¬ HasPending s objectId
  | .transition firmId objectId toStatus _ _ =>
    ∀ obj, s.get firmId objectId = .ok obj → obj.status = .inReview →
      toStatus ≠ .validated ∧ (toStatus = .draft → ¬ HasPending s objectId)
  | _ => True

/-- The request is for the version at which the object stands, or for an earlier one, as the statuses
of the two say. -/
structure Fits (request : ValidationRequest) (reviewed : ℕ) (obj : KnowledgeObject Content) : Prop where
  le : reviewed ≤ obj.version
  pending : request.status = .pending → obj.status = .inReview ∧ reviewed = obj.version
  approved : request.status = .approved → reviewed = obj.version →
    obj.status ≠ .draft ∧ obj.status ≠ .inReview

/-- The invariant of disciplined runs. -/
structure Sound (w : Watched Content) : Prop where
  object_lt : ∀ objectId obj, w.engines.objects.get objectId = some obj → objectId < w.engines.uuids
  request_lt : ∀ requestId request, w.engines.requests.get requestId = some request →
    requestId < w.engines.uuids
  fits : ∀ requestId request, w.engines.requests.get requestId = some request →
    ∃ obj reviewed, w.engines.objects.get request.knowledgeObjectId = some obj ∧
      w.underReview.get requestId = some reviewed ∧ Fits request reviewed obj
  single : ∀ requestId requestId' request request', w.engines.requests.get requestId = some request →
    w.engines.requests.get requestId' = some request' → request.status = .pending →
    request'.status = .pending → request'.knowledgeObjectId = request.knowledgeObjectId →
    requestId' = requestId
  validated : ∀ objectId obj, w.engines.objects.get objectId = some obj →
    obj.status = .validated ∨ obj.status = .obsolete →
    ∃ requestId request, w.engines.requests.get requestId = some request ∧
      request.knowledgeObjectId = objectId ∧ request.status = .approved ∧
      w.underReview.get requestId = some obj.version

lemma Sound.reviewed {w : Watched Content} (h : Sound w) : Reviewed w where
  validated objectId obj hget hstatus := h.validated objectId obj hget (Or.inl hstatus)
  single := h.single
  inReview requestId request hget hpending := by
    obtain ⟨obj, reviewed, hobj, -, hfits⟩ := h.fits requestId request hget
    exact ⟨obj, hobj, (hfits.pending hpending).1⟩

lemma sound_start : Sound ({} : Watched Content) where
  object_lt _ _ h := by cases h
  request_lt _ _ h := by cases h
  fits _ _ h := by cases h
  single _ _ _ _ h := by cases h
  validated _ _ h := by cases h

section Preserve

variable {w : Watched Content} {obj : KnowledgeObject Content}

/-- An object is replaced, and the requests for it fit it as before. -/
lemma Sound.saveObject (h : Sound w) (hobj : w.engines.objects.get obj.id = some obj)
    (obj' : KnowledgeObject Content) (hid : obj'.id = obj.id)
    (hfits : ∀ requestId request reviewed, w.engines.requests.get requestId = some request →
      request.knowledgeObjectId = obj.id → Fits request reviewed obj → Fits request reviewed obj')
    (hvalid : obj'.status = .validated ∨ obj'.status = .obsolete →
      (obj.status = .validated ∨ obj.status = .obsolete) ∧ obj'.version = obj.version)
    (events : List GovernanceEvent) {uuids : ℕ} (hle : w.engines.uuids ≤ uuids) :
    Sound { w with engines := { w.engines with
      objects := w.engines.objects.save obj', events, uuids } } where
  object_lt objectId found hget := by
    rcases Store.get_save_cases hget with ⟨rfl, rfl⟩ | ⟨-, hget⟩
    · rw [hid]
      exact (h.object_lt _ _ hobj).trans_le hle
    · exact (h.object_lt _ _ hget).trans_le hle
  request_lt requestId request hget := (h.request_lt _ _ hget).trans_le hle
  fits requestId request hget := by
    obtain ⟨found, reviewed, hfound, hreviewed, hfit⟩ := h.fits _ _ hget
    by_cases hsame : request.knowledgeObjectId = obj.id
    · rw [hsame, hobj] at hfound
      cases hfound
      refine ⟨obj', reviewed, ?_, hreviewed, hfits _ _ _ hget hsame hfit⟩
      rw [Store.get_save, hid, if_pos hsame]
    · refine ⟨found, reviewed, ?_, hreviewed, hfit⟩
      rw [Store.get_save, hid, if_neg hsame]
      exact hfound
  single := h.single
  validated objectId found hget hstatus := by
    by_cases hsame : objectId = obj.id
    · subst hsame
      rw [Store.get_save, hid, if_pos rfl] at hget
      cases hget
      obtain ⟨hwas, hversion⟩ := hvalid hstatus
      rw [hversion]
      exact h.validated _ _ hobj hwas
    · rw [Store.get_save, hid, if_neg hsame] at hget
      exact h.validated _ _ hget hstatus

/-- A request is made for an object that is in review and has none pending. -/
lemma Sound.addRequest (h : Sound w) (hobj : w.engines.objects.get obj.id = some obj)
    (hstatus : obj.status = .inReview) (hnone : ¬ HasPending w.engines obj.id)
    (firmId requestedBy : String) :
    Sound { engines := { w.engines with
              requests := w.engines.requests.save
                { id := w.engines.uuids, firmId, knowledgeObjectId := obj.id, requestedBy }
              uuids := w.engines.uuids + 1 }
            underReview := w.underReview.set w.engines.uuids obj.version } where
  object_lt objectId found hget := Nat.lt_succ_of_lt (h.object_lt _ _ hget)
  request_lt requestId request hget := by
    rcases Store.get_save_cases hget with ⟨rfl, rfl⟩ | ⟨-, hget⟩
    · exact Nat.lt_succ_self _
    · exact Nat.lt_succ_of_lt (h.request_lt _ _ hget)
  fits requestId request hget := by
    rw [Store.get_save] at hget
    split at hget
    · subst requestId
      cases hget
      refine ⟨obj, obj.version, hobj, Dict.get_set_self .., le_rfl, fun _ => ⟨hstatus, rfl⟩, ?_⟩
      rintro ⟨⟩
    · rename_i hne
      obtain ⟨found, reviewed, hfound, hreviewed, hfit⟩ := h.fits _ _ hget
      exact ⟨found, reviewed, hfound, (Dict.get_set_of_ne _ _ hne).trans hreviewed, hfit⟩
  single requestId requestId' request request' hget hget' hpending hpending' hsame := by
    rw [Store.get_save] at hget hget'
    split at hget <;> split at hget'
    · exact ‹requestId' = _›.trans ‹requestId = _›.symm
    · cases hget
      exact absurd ⟨requestId', request', hget', hsame, hpending'⟩ hnone
    · cases hget'
      exact absurd ⟨requestId, request, hget, hsame.symm, hpending⟩ hnone
    · exact h.single _ _ _ _ hget hget' hpending hpending' hsame
  validated objectId found hget hstatus' := by
    obtain ⟨requestId, request, hrequest, hof, happroved, hreviewed⟩ :=
      h.validated _ _ hget hstatus'
    have hne : requestId ≠ w.engines.uuids := (h.request_lt _ _ hrequest).ne
    refine ⟨requestId, request, ?_, hof, happroved, (Dict.get_set_of_ne _ _ hne).trans hreviewed⟩
    rw [Store.get_save, if_neg hne]
    exact hrequest

/-- The pending request is decided, and its object takes the status of the decision. -/
lemma Sound.decideRequest (h : Sound w) {request : ValidationRequest}
    (hrequest : w.engines.requests.get request.id = some request) (hpending : request.status = .pending)
    (hobj : w.engines.objects.get request.knowledgeObjectId = some obj)
    (decision : ValidationDecision) (reviewer : String) (comment : Option String)
    (events : List GovernanceEvent) :
    Sound { w with engines :=
      { objects := w.engines.objects.save (withStatus obj decision.toStatus)
        events
        requests := w.engines.requests.save { request with
          status := decision.requestStatus, reviewer := some reviewer, comment }
        uuids := w.engines.uuids + 1 } } := by
  obtain ⟨found, reviewed, hfound, hreviewed, hfit⟩ := h.fits _ _ hrequest
  rw [hobj] at hfound
  cases hfound
  obtain ⟨hstatus, rfl⟩ := hfit.pending hpending
  have hid : obj.id = request.knowledgeObjectId := Store.key_of_get hobj
  have hdecided : decision.requestStatus ≠ .pending := by cases decision <;> decide
  constructor
  · intro objectId found hget
    rcases Store.get_save_cases hget with ⟨rfl, rfl⟩ | ⟨-, hget⟩
    · exact Nat.lt_succ_of_lt (h.object_lt _ _ (hid ▸ hobj))
    · exact Nat.lt_succ_of_lt (h.object_lt _ _ hget)
  · intro requestId found hget
    rcases Store.get_save_cases hget with ⟨rfl, rfl⟩ | ⟨-, hget⟩
    · exact Nat.lt_succ_of_lt (h.request_lt _ _ hrequest)
    · exact Nat.lt_succ_of_lt (h.request_lt _ _ hget)
  · intro requestId other hget
    rw [Store.get_save] at hget
    split at hget
    · subst requestId
      cases hget
      refine ⟨withStatus obj decision.toStatus, obj.version, ?_, hreviewed, le_rfl,
        fun hp => absurd hp hdecided, fun happroved _ => ?_⟩
      · rw [Store.get_save]
        exact if_pos hid.symm
      · cases decision with
        | approve => exact ⟨by rintro ⟨⟩, by rintro ⟨⟩⟩
        | reject => cases happroved
        | requestChanges => cases happroved
    · rename_i hne
      obtain ⟨found, reviewed, hfound, hreviewed', hfit'⟩ := h.fits _ _ hget
      by_cases hsame : other.knowledgeObjectId = request.knowledgeObjectId
      · -- another request for the same object: it is decided, and was for an earlier version
        rw [hsame, hobj] at hfound
        cases hfound
        refine ⟨withStatus obj decision.toStatus, reviewed, ?_, hreviewed', hfit'.le, fun hp => ?_,
          fun happroved heq => ?_⟩
        · rw [Store.get_save]
          exact if_pos (hsame.trans hid.symm)
        · exact absurd (h.single _ _ _ _ hrequest hget hpending hp hsame) hne
        · exact absurd hstatus (hfit'.approved happroved heq).2
      · refine ⟨found, reviewed, ?_, hreviewed', hfit'⟩
        rw [Store.get_save]
        exact (if_neg fun heq => hsame (heq.trans hid)).trans hfound
  · intro requestId requestId' first second hget hget' hp hp' hsame
    rcases Store.of_get_save hget with rfl | hget
    · exact absurd hp hdecided
    · rcases Store.of_get_save hget' with rfl | hget'
      · exact absurd hp' hdecided
      · exact h.single _ _ _ _ hget hget' hp hp' hsame
  · intro objectId found hget hvalid
    rw [Store.get_save] at hget
    split at hget
    · subst objectId
      cases hget
      cases decision with
      | approve =>
        refine ⟨request.id, _, Store.get_save_self .., hid.symm, rfl, hreviewed⟩
      | reject => obtain hvalid | hvalid := hvalid <;> cases hvalid
      | requestChanges => obtain hvalid | hvalid := hvalid <;> cases hvalid
    · obtain ⟨requestId, other, hother, hof, happroved, hreviewed'⟩ := h.validated _ _ hget hvalid
      refine ⟨requestId, other, ?_, hof, happroved, hreviewed'⟩
      have hne : requestId ≠ request.id := by
        rintro rfl
        rw [hrequest] at hother
        cases hother
        rw [hpending] at happroved
        cases happroved
      rw [Store.get_save]
      exact (if_neg hne).trans hother

lemma Sound.created (h : Sound w) (hid : obj.id = w.engines.uuids) (hstatus : obj.status = .draft) :
    Sound { w with engines := { w.engines with
      objects := w.engines.objects.save obj, uuids := w.engines.uuids + 1 } } where
  object_lt objectId found hget := by
    rcases Store.get_save_cases hget with ⟨rfl, -⟩ | ⟨-, hget⟩
    · exact hid ▸ Nat.lt_succ_self _
    · exact Nat.lt_succ_of_lt (h.object_lt _ _ hget)
  request_lt requestId request hget := Nat.lt_succ_of_lt (h.request_lt _ _ hget)
  fits requestId request hget := by
    obtain ⟨found, reviewed, hfound, hreviewed, hfit⟩ := h.fits _ _ hget
    have hne : request.knowledgeObjectId ≠ obj.id := hid ▸ (h.object_lt _ _ hfound).ne
    exact ⟨found, reviewed, (Store.get_save ..).trans ((if_neg hne).trans hfound), hreviewed, hfit⟩
  single := h.single
  validated objectId found hget hvalid := by
    rcases Store.get_save_cases hget with ⟨-, rfl⟩ | ⟨-, hget⟩
    · rw [hstatus] at hvalid
      obtain hvalid | hvalid := hvalid <;> cases hvalid
    · exact h.validated _ _ hget hvalid

/-- A transition keeps the requests of an object fitting, unless it takes it out of review. -/
lemma Fits.moved {request : ValidationRequest} {reviewed : ℕ} (h : Fits request reviewed obj)
    {toStatus : KnowledgeStatus} (hallowed : toStatus ∈ allowedTransitions obj.status)
    (hreview : obj.status = .inReview → request.status ≠ .pending) :
    Fits request reviewed (withStatus obj toStatus) where
  le := h.le
  pending hpending := absurd hpending (hreview (h.pending hpending).1)
  approved happroved heq := by
    obtain ⟨hdraft, hinReview⟩ := h.approved happroved heq
    show toStatus ≠ .draft ∧ toStatus ≠ .inReview
    cases hstatus : obj.status <;> simp_all [allowedTransitions]
    all_goals rcases hallowed with rfl | rfl <;> simp

/-- A draft has no pending request. -/
lemma Sound.not_hasPending (h : Sound w) (hobj : w.engines.objects.get obj.id = some obj)
    (hstatus : obj.status ≠ .inReview) : ¬ HasPending w.engines obj.id := by
  rintro ⟨requestId, request, hrequest, hof, hpending⟩
  obtain ⟨found, reviewed, hfound, -, hfit⟩ := h.fits _ _ hrequest
  rw [hof, hobj] at hfound
  cases hfound
  exact hstatus (hfit.pending hpending).1

lemma get_self {firmId : String} {objectId : Uuid} (hget : w.engines.get firmId objectId = .ok obj) :
    obj.id = objectId ∧ w.engines.objects.get obj.id = some obj := by
  have hobj := (get_ok.mp hget).1
  have hid : obj.id = objectId := Store.key_of_get hobj
  exact ⟨hid, hid ▸ hobj⟩

/-- **The step lemma.**  What a disciplined operation does keeps the invariant. -/
theorem Sound.effect {w' : Watched Content} {op : Operation Content} (h : Sound w)
    (heffect : Effect w op w') (hminds : Minds w.engines op) : Sound w' := by
  cases heffect with
  | raised => exact h
  | created hid hstatus => exact h.created hid hstatus
  | @updated firmId objectId content actor obj hget =>
    obtain ⟨rfl, hobj⟩ := get_self hget
    refine h.saveObject hobj
      { obj with content, version := obj.version + 1, status := .draft, isPublished := false } rfl
      (fun requestId request reviewed hrequest hof hfit => ?_) ?_ _ le_rfl
    · refine ⟨Nat.le_succ_of_le hfit.le, fun hpending => ?_, fun _ heq => ?_⟩
      · exact absurd ⟨requestId, request, hrequest, hof, hpending⟩ (hminds _ hget)
      · have := hfit.le
        dsimp only at heq
        omega
    · rintro (⟨⟨⟩⟩ | ⟨⟨⟩⟩)
  | @moved firmId objectId toStatus actor reason obj events hget hallowed =>
    obtain ⟨rfl, hobj⟩ := get_self hget
    have hleaves := hminds _ hget
    refine h.saveObject hobj (withStatus obj toStatus) rfl
      (fun requestId request reviewed hrequest hof hfit => ?_) ?_ _ (Nat.le_succ _)
    · refine hfit.moved hallowed fun hstatus hpending => ?_
      obtain ⟨hvalidated, hdraft⟩ := hleaves hstatus
      rw [hstatus] at hallowed
      simp only [allowedTransitions, List.mem_cons, List.not_mem_nil, or_false] at hallowed
      exact hdraft (hallowed.resolve_left hvalidated) ⟨requestId, request, hrequest, hof, hpending⟩
    · intro hvalid
      refine ⟨?_, rfl⟩
      change toStatus = .validated ∨ toStatus = .obsolete at hvalid
      cases hstatus : obj.status with
      | inReview =>
        have hnot := (hleaves hstatus).1
        rw [hstatus] at hallowed
        rcases hvalid with rfl | rfl
        · exact absurd rfl hnot
        · simp [allowedTransitions] at hallowed
      | draft =>
        rw [hstatus] at hallowed
        rcases hvalid with rfl | rfl <;> simp [allowedTransitions] at hallowed
      | archived =>
        rw [hstatus] at hallowed
        simp [allowedTransitions] at hallowed
      | validated => simp
      | obsolete => simp
  | @submitted firmId objectId requestedBy obj events hget hallowed =>
    obtain ⟨rfl, hobj⟩ := get_self hget
    have hdraft : obj.status = .draft := by
      cases hstatus : obj.status <;> simp_all [allowedTransitions]
    have hnone := h.not_hasPending hobj (by simp [hdraft])
    -- the object goes into review, then the request is made
    have hmoved := h.saveObject hobj (withStatus obj .inReview) rfl
      (fun requestId request reviewed hrequest hof hfit => hfit.moved hallowed (by simp [hdraft]))
      (by rintro (⟨⟨⟩⟩ | ⟨⟨⟩⟩)) events (Nat.le_succ _)
    have hreview : (w.engines.objects.save (withStatus obj .inReview)).get (withStatus obj .inReview).id =
        some (withStatus obj .inReview) := Store.get_save_self ..
    exact hmoved.addRequest hreview rfl hnone firmId requestedBy
  | @decided firmId requestId decision reviewer comment request obj events hrequest hpending hget =>
    obtain rfl : request.id = requestId := Store.key_of_get hrequest
    exact h.decideRequest hrequest hpending (get_ok.mp hget).1 decision reviewer comment events

end Preserve

/-! ### Runs -/

section Runs

variable {w : Watched Content} {op : Operation Content}

lemma Sound.step (h : Sound w) (hminds : Minds w.engines op) : Sound (w.step op) :=
  h.effect (step_effect w op) hminds

/-- A call that returns leads to the state it returns. -/
lemma step_engines {s' : KnowledgeEngines Content} (hok : perform w.engines op = .ok s') :
    (w.step op).engines = s' := by
  show afterCall w.engines (perform w.engines op) = s'
  rw [hok, afterCall_ok]

/-- **One operation.**  Where the invariant holds, an operation leaves validated knowledge reviewed
iff it minds the requests. -/
theorem reviewed_step_iff (h : Sound w) : Reviewed (w.step op) ↔ Minds w.engines op := by
  refine ⟨fun hreviewed => ?_, fun hminds => (h.step hminds).reviewed⟩
  cases op with
  | updateContent firmId objectId content actor =>
    rintro obj hget ⟨requestId, request, hrequest, rfl, hpending⟩
    have hengines : (w.step (.updateContent firmId _ content actor)).engines = _ := step_engines
      (map_eq_ok.mpr ⟨_, bind_eq_ok.mpr ⟨obj, hget, rfl⟩, rfl⟩)
    obtain ⟨found, hfound, hstatus⟩ := hreviewed.inReview requestId request
      (by rw [hengines]; exact hrequest) hpending
    rw [hengines] at hfound
    rcases Store.get_save_cases hfound with ⟨-, rfl⟩ | ⟨hne, -⟩
    · cases hstatus
    · exact hne (get_self hget).1.symm
  | transition firmId objectId toStatus actor reason =>
    intro obj hget hstatus
    obtain ⟨rfl, hobj⟩ := get_self hget
    constructor
    · rintro rfl
      have hengines : (w.step (.transition firmId obj.id .validated actor reason)).engines = _ := step_engines
        (map_eq_ok.mpr ⟨_, transition_ok.mpr ⟨obj, hget, by simp [hstatus, allowedTransitions], rfl⟩, rfl⟩)
      obtain ⟨requestId, request, hrequest, hof, happroved, hversion⟩ := hreviewed.validated obj.id
        (withStatus obj .validated)
        (by rw [hengines]; exact Store.get_save_self ..) rfl
      rw [hengines] at hrequest
      obtain ⟨found, reviewed, hfound, hreview, hfit⟩ := h.fits _ _ hrequest
      rw [hof, hobj] at hfound
      cases hfound
      have heq : some reviewed = some obj.version := hreview.symm.trans hversion
      exact (hfit.approved happroved (Option.some.inj heq)).2 hstatus
    · rintro rfl ⟨requestId, request, hrequest, hof, hpending⟩
      have hengines : (w.step (.transition firmId obj.id .draft actor reason)).engines = _ := step_engines
        (map_eq_ok.mpr ⟨_, transition_ok.mpr ⟨obj, hget, by simp [hstatus, allowedTransitions], rfl⟩, rfl⟩)
      obtain ⟨found, hfound, hinReview⟩ := hreviewed.inReview requestId request
        (by rw [hengines]; exact hrequest) hpending
      rw [hengines, hof] at hfound
      rcases Store.get_save_cases hfound with ⟨-, rfl⟩ | ⟨hne, -⟩
      · cases hinReview
      · exact hne rfl
  | _ => trivial

end Runs

/-- **Validated knowledge is reviewed knowledge, exactly.**  In a run every state reached has its
validated objects at a version that was under review in a request that was approved, and its pending
requests one to an object and only on objects in review, iff the run leaves objects with a pending
request to the decision and validates by decisions only. -/
theorem along_reviewed_iff (ops : List (Operation Content)) :
    Along Watched.step (fun w op => Reviewed (w.step op)) ({} : Watched Content) ops ↔
      Along Watched.step (fun w op => Minds w.engines op) ({} : Watched Content) ops :=
  along_congr sound_start (fun _ _ h hminds => h.step hminds) fun _ _ h => reviewed_step_iff h

/-! ### A request approved for what it did not ask -/

/-- A note is submitted, rewritten and submitted again; then the first request is approved. -/
def staleRequestApproved : List (Operation String) :=
  [.create "firm-a" .note "N" "v1" "avocat1" [],
    .submitForValidation "firm-a" 0 "avocat1",
    .updateContent "firm-a" 0 "v2" "avocat1",
    .submitForValidation "firm-a" 0 "avocat1",
    .decide "firm-a" 2 .approve "associe1" none]

/-- The note is validated at its second version, and only its first one was approved. -/
theorem stale_request_approved :
    ¬ Along Watched.step (fun w op => Reviewed (w.step op)) ({} : Watched String)
      staleRequestApproved := by
  rintro ⟨-, -, -, -, hreviewed, -⟩
  let w := run Watched.step ({} : Watched String) staleRequestApproved
  have hvalidated : (w.engines.objects.get 0).map (fun obj => (obj.status, obj.version)) =
      some (.validated, 2) := by decide +kernel
  obtain ⟨obj, hget, hobj⟩ := Option.map_eq_some_iff.mp hvalidated
  obtain ⟨hstatus, hversion⟩ := Prod.mk.inj hobj
  obtain ⟨requestId, request, hrequest, -, happroved, hreview⟩ :=
    hreviewed.validated 0 obj hget hstatus
  have hstale : ∀ e ∈ w.engines.requests.entries.entries, e.2.status = .approved →
      w.underReview.get e.1 ≠ some 2 := by decide +kernel
  exact hstale (requestId, request) (Dict.mem_entries_iff.mpr hrequest) happroved (hversion ▸ hreview)

end Tmis.CabinetKnowledge
