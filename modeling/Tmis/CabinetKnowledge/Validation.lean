import Tmis.Lib.Calls
import Tmis.Lib.Store

/-!
# Cabinet knowledge and its validation

The three engines that write a knowledge object: `KnowledgeSpace` its content, `GovernanceEngine` its
status, and `ValidationEngine`, which asks for a validation and records the decision.

* `KnowledgeObject`, `ValidationRequest`, `KnowledgeEngines` — what the engines store;
* `allowedTransitions`, `transition` — the state machine of the statuses;
* `updateContent`, `submitForValidation`, `decide`;
* `step` — one operation.
-/

namespace Tmis.CabinetKnowledge

open Tmis.Lib

inductive KnowledgeType where
  | playbook | clause | template | reasoningPattern | writingStyle | bestPractice | lessonLearned | note
  | checklist | guide | internalRule | jurisprudenceNote | comment | decision | contract
  deriving DecidableEq

inductive KnowledgeStatus where
  | draft | inReview | validated | obsolete | archived
  deriving DecidableEq

def KnowledgeStatus.value : KnowledgeStatus → String
  | draft => "draft"
  | inReview => "in_review"
  | validated => "validated"
  | obsolete => "obsolete"
  | archived => "archived"

/-- A knowledge object; what its content is depends on its type. -/
structure KnowledgeObject (Content : Type) where
  id : Uuid
  firmId : String
  type : KnowledgeType
  title : String
  content : Content
  author : String
  version : ℕ := 1
  status : KnowledgeStatus := .draft
  tags : List String := []
  isPublished : Bool := false
  deriving DecidableEq

/-- `ALLOWED_TRANSITIONS`. -/
def allowedTransitions : KnowledgeStatus → List KnowledgeStatus
  | .draft => [.inReview]
  | .inReview => [.validated, .draft]
  | .validated => [.obsolete, .archived]
  | .obsolete => [.archived, .validated]
  | .archived => []

structure GovernanceEvent where
  id : Uuid
  firmId : String
  knowledgeObjectId : Uuid
  fromStatus : KnowledgeStatus
  toStatus : KnowledgeStatus
  actor : String
  reason : Option String
  deriving DecidableEq

inductive ValidationDecision where
  | approve | reject | requestChanges
  deriving DecidableEq

inductive ValidationRequestStatus where
  | pending | approved | rejected | changesRequested
  deriving DecidableEq

/-- The status a decision takes the object to. -/
def ValidationDecision.toStatus : ValidationDecision → KnowledgeStatus
  | approve => .validated
  | reject | requestChanges => .draft

/-- The status a decision leaves the request in. -/
def ValidationDecision.requestStatus : ValidationDecision → ValidationRequestStatus
  | approve => .approved
  | reject => .rejected
  | requestChanges => .changesRequested

structure ValidationRequest where
  id : Uuid
  firmId : String
  knowledgeObjectId : Uuid
  requestedBy : String
  status : ValidationRequestStatus := .pending
  reviewer : Option String := none
  comment : Option String := none
  deriving DecidableEq

/-- The three engines with their stores; `uuids` counts the identifiers drawn so far. -/
structure KnowledgeEngines (Content : Type) where
  objects : Store Uuid (KnowledgeObject Content) KnowledgeObject.id := ∅
  events : List GovernanceEvent := []
  requests : Store Uuid ValidationRequest ValidationRequest.id := ∅
  uuids : ℕ := 0

/-- `new_knowledge_id`, of the identifier drawn. -/
def knowledgeId (id : Uuid) : String := "know-" ++ toString id

/-- `new_validation_request_id`, of the identifier drawn. -/
def validationRequestId (id : Uuid) : String := "valreq-" ++ toString id

/-- What `require_same_firm` raises. -/
def tenantAccessError (firmId resourceFirmId : String) : PyException :=
  ⟨"TenantAccessError", "Actor " ++ pyRepr "system" ++ " in firm " ++ pyRepr firmId ++
    " attempted to access a resource of firm " ++ pyRepr resourceFirmId⟩

def invalidTransitionError (fromStatus toStatus : KnowledgeStatus) : PyException :=
  ⟨"InvalidTransitionError", "Cannot transition from " ++ fromStatus.value ++ " to " ++ toStatus.value⟩

namespace KnowledgeEngines

variable {Content : Type}

/-! ### `KnowledgeSpace` -/

/-- `KnowledgeSpace.create`: a new object is a draft. -/
def create (s : KnowledgeEngines Content) (firmId : String) (type : KnowledgeType) (title : String)
    (content : Content) (author : String) (tags : List String) :
    KnowledgeObject Content × KnowledgeEngines Content :=
  let obj : KnowledgeObject Content := { id := s.uuids, firmId, type, title, content, author, tags }
  (obj, { s with objects := s.objects.save obj, uuids := s.uuids + 1 })

/-- `KnowledgeSpace.get`, where the callers raise `KeyError` for an object that is not there. -/
def get (s : KnowledgeEngines Content) (firmId : String) (objectId : Uuid) :
    Except PyException (KnowledgeObject Content) :=
  match s.objects.get objectId with
  | none => .error (keyError (knowledgeId objectId))
  | some obj => if firmId = obj.firmId then .ok obj else .error (tenantAccessError firmId obj.firmId)

/-- `KnowledgeSpace.update_content`: the object is a draft again, whatever it was. -/
def updateContent (s : KnowledgeEngines Content) (firmId : String) (objectId : Uuid)
    (content : Content) (_actor : String) :
    Except PyException (KnowledgeObject Content × KnowledgeEngines Content) := do
  let obj ← s.get firmId objectId
  let obj := { obj with content, version := obj.version + 1, status := .draft, isPublished := false }
  return (obj, { s with objects := s.objects.save obj })

/-- `KnowledgeSpace.set_status`, of an object that was found. -/
def withStatus (obj : KnowledgeObject Content) (status : KnowledgeStatus) : KnowledgeObject Content :=
  { obj with status, isPublished := if status ≠ .validated then false else obj.isPublished }

/-! ### `GovernanceEngine` -/

def transition (s : KnowledgeEngines Content) (firmId : String) (objectId : Uuid)
    (toStatus : KnowledgeStatus) (actor : String) (reason : Option String) :
    Except PyException (KnowledgeObject Content × KnowledgeEngines Content) := do
  let obj ← s.get firmId objectId
  if toStatus ∈ allowedTransitions obj.status then
    let updated := withStatus obj toStatus
    let event : GovernanceEvent :=
      { id := s.uuids, firmId, knowledgeObjectId := objectId, fromStatus := obj.status, toStatus,
        actor, reason }
    return (updated,
      { s with
        objects := s.objects.save updated
        events := s.events ++ [event]
        uuids := s.uuids + 1 })
  else .error (invalidTransitionError obj.status toStatus)

/-! ### `ValidationEngine` -/

def submitForValidation (s : KnowledgeEngines Content) (firmId : String) (objectId : Uuid)
    (requestedBy : String) : Except PyException (ValidationRequest × KnowledgeEngines Content) := do
  let (_, s) ← s.transition firmId objectId .inReview requestedBy (some "soumis pour validation")
  let request : ValidationRequest := { id := s.uuids, firmId, knowledgeObjectId := objectId, requestedBy }
  return (request, { s with requests := s.requests.save request, uuids := s.uuids + 1 })

def decide (s : KnowledgeEngines Content) (firmId : String) (requestId : Uuid)
    (decision : ValidationDecision) (reviewer : String) (comment : Option String) :
    Except PyException (ValidationRequest × KnowledgeEngines Content) := do
  match s.requests.get requestId with
  | none => .error (keyError (validationRequestId requestId))
  | some request =>
    if request.firmId ≠ firmId then .error (keyError (validationRequestId requestId))
    else if request.status ≠ .pending then
      .error (valueError ("Validation request " ++ validationRequestId requestId ++ " already decided"))
    else
      let (_, s) ← s.transition firmId request.knowledgeObjectId decision.toStatus reviewer comment
      let request := { request with status := decision.requestStatus, reviewer := some reviewer, comment }
      return (request, { s with requests := s.requests.save request })

end KnowledgeEngines

/-! ### Runs -/

inductive Operation (Content : Type) where
  | create (firmId : String) (type : KnowledgeType) (title : String) (content : Content)
      (author : String) (tags : List String)
  | updateContent (firmId : String) (objectId : Uuid) (content : Content) (actor : String)
  | transition (firmId : String) (objectId : Uuid) (toStatus : KnowledgeStatus) (actor : String)
      (reason : Option String)
  | submitForValidation (firmId : String) (objectId : Uuid) (requestedBy : String)
  | decide (firmId : String) (requestId : Uuid) (decision : ValidationDecision) (reviewer : String)
      (comment : Option String)

variable {Content : Type}

/-- The call of an operation, without the value it gives. -/
def perform (s : KnowledgeEngines Content) :
    Operation Content → Except PyException (KnowledgeEngines Content)
  | .create firmId type title content author tags =>
    .ok (s.create firmId type title content author tags).2
  | .updateContent firmId objectId content actor =>
    (s.updateContent firmId objectId content actor).map Prod.snd
  | .transition firmId objectId toStatus actor reason =>
    (s.transition firmId objectId toStatus actor reason).map Prod.snd
  | .submitForValidation firmId objectId requestedBy =>
    (s.submitForValidation firmId objectId requestedBy).map Prod.snd
  | .decide firmId requestId decision reviewer comment =>
    (s.decide firmId requestId decision reviewer comment).map Prod.snd

/-- One operation.  All that raises does so before anything is written. -/
def step (s : KnowledgeEngines Content) (op : Operation Content) : KnowledgeEngines Content :=
  afterCall s (perform s op)

end Tmis.CabinetKnowledge
