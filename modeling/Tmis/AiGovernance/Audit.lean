import Tmis.Lib.CsvText
import Tmis.Lib.IsoDatetime
import Tmis.Lib.PyFloat
import Tmis.Lib.PyUuid
import Tmis.Lib.Run

/-!
# Audit journals

`ai_governance.audit`, and `workflow_automation.audit`, which mirrors it: entries are added to one store for all
firms, and those of a firm are exported as CSV.

* `AIAuditEngine`, `WorkflowAuditEngine` — the journals, and their exports;
* `Recording`, `step` — what is written down;
* `exportCsv_run` — the file is read as what was recorded for the firm, in order, and what it holds of a production
  is what the journal lists for it;
* `workflowCsv_run` — the same of the journal of automations.
-/

/-! ### Productions of the models -/

namespace Tmis.AiGovernance.Audit

open Tmis.Lib

structure AIAuditEntry (F : Type) where
  id : String
  firmId : String
  productionId : String
  actorId : String
  action : String
  prompt : Option String
  modelName : Option String
  costUsd : Option F
  durationMs : Option F
  decisionId : Option String
  policyIds : List String
  validationId : Option String
  recordedAt : Datetime

/-- A call of `record`, with the identifier that it draws and the moment it reads. -/
structure Recording (F : Type) where
  uuid : Fin (2 ^ 128)
  firmId : String
  productionId : String
  actorId : String
  action : String
  prompt : Option String := none
  modelName : Option String := none
  costUsd : Option F := none
  durationMs : Option F := none
  decisionId : Option String := none
  policyIds : List String := []
  validationId : Option String := none
  now : Datetime

/-- `AIAuditEngine`, with the list that `InMemoryAIAuditStore` keeps. -/
structure AIAuditEngine (F : Type) where
  entries : List (AIAuditEntry F) := []

variable {F : Type}

def Recording.entry (r : Recording F) : AIAuditEntry F :=
  { id := "aiaudit-" ++ uuidText r.uuid, firmId := r.firmId, productionId := r.productionId, actorId := r.actorId,
    action := r.action, prompt := r.prompt, modelName := r.modelName, costUsd := r.costUsd,
    durationMs := r.durationMs, decisionId := r.decisionId, policyIds := r.policyIds,
    validationId := r.validationId, recordedAt := r.now }

def csvFields : List String :=
  ["id", "production_id", "actor_id", "action", "prompt", "model_name", "cost_usd", "duration_ms", "decision_id",
    "policy_ids", "validation_id", "recorded_at"]

/-- The dictionary that `export_csv` writes for an entry, with the texts of its values. -/
def csvRow [PyFloat F] (entry : AIAuditEntry F) : List (String × String) :=
  [("id", entry.id), ("production_id", entry.productionId), ("actor_id", entry.actorId), ("action", entry.action),
    ("prompt", entry.prompt.getD ""), ("model_name", entry.modelName.getD ""),
    ("cost_usd", (entry.costUsd.map PyFloat.repr).getD ""),
    ("duration_ms", (entry.durationMs.map PyFloat.repr).getD ""), ("decision_id", entry.decisionId.getD ""),
    ("policy_ids", "|".intercalate entry.policyIds), ("validation_id", entry.validationId.getD ""),
    ("recorded_at", isoformat entry.recordedAt)]

namespace AIAuditEngine

def record (engine : AIAuditEngine F) (r : Recording F) : AIAuditEntry F × AIAuditEngine F :=
  (r.entry, { entries := engine.entries ++ [r.entry] })

def listForFirm (engine : AIAuditEngine F) (firmId : String) : List (AIAuditEntry F) :=
  engine.entries.filter (·.firmId = firmId)

def listForProduction (engine : AIAuditEngine F) (firmId productionId : String) : List (AIAuditEntry F) :=
  engine.entries.filter fun entry => entry.firmId = firmId ∧ entry.productionId = productionId

def exportCsv [PyFloat F] (engine : AIAuditEngine F) (firmId : String) : String :=
  Csv.writeDicts csvFields ((engine.listForFirm firmId).map csvRow)

end AIAuditEngine

def step (engine : AIAuditEngine F) (r : Recording F) : AIAuditEngine F := (engine.record r).2

/-! #### The export -/

/-- The texts of an entry in the file, one for each field. -/
def texts [PyFloat F] (entry : AIAuditEntry F) : List String :=
  [entry.id, entry.productionId, entry.actorId, entry.action, entry.prompt.getD "", entry.modelName.getD "",
    (entry.costUsd.map PyFloat.repr).getD "", (entry.durationMs.map PyFloat.repr).getD "",
    entry.decisionId.getD "", "|".intercalate entry.policyIds, entry.validationId.getD "",
    isoformat entry.recordedAt]

lemma map_csvFields [PyFloat F] (entry : AIAuditEntry F) :
    csvFields.map (fun name => ((csvRow entry).lookup name).getD "") = texts entry := rfl

/-- All that was recorded is there, in order. -/
lemma entries_run (recordings : List (Recording F)) :
    (run step {} recordings).entries = recordings.map Recording.entry :=
  run_recorded (fun engine : AIAuditEngine F => engine.entries) _ (fun _ _ => rfl) {} recordings

/-- **The exported journal** of a firm after any recordings, of any firms: it is read as what was recorded for this
firm, in order, whatever characters that is written with; and its rows of a production are what the journal lists for
the production. -/
theorem exportCsv_run [PyFloat F] (recordings : List (Recording F)) (firmId : String) :
    Csv.read ((run step {} recordings).exportCsv firmId) =
      csvFields :: (recordings.filter (·.firmId = firmId)).map (fun r => texts r.entry) ∧
    ∀ productionId, (Csv.read ((run step {} recordings).exportCsv firmId)).tail.filter
        (fun row => row[1]? = some productionId) =
      ((run step {} recordings).listForProduction firmId productionId).map texts := by
  have hread : Csv.read ((run step {} recordings).exportCsv firmId) =
      csvFields :: ((run step {} recordings).listForFirm firmId).map texts :=
    Csv.read_writeDicts csvRow texts map_csvFields _
  refine ⟨?_, fun productionId => ?_⟩
  · rw [hread, AIAuditEngine.listForFirm, entries_run, List.filter_map, List.map_map]
    rfl
  · have hrows := Csv.filter_map_texts texts 1 (fun entry : AIAuditEntry F => entry.productionId) (fun _ => rfl)
      ((run step {} recordings).listForFirm firmId) productionId
    rw [hread, List.tail_cons, hrows, AIAuditEngine.listForFirm, List.filter_filter, AIAuditEngine.listForProduction]
    refine congrArg _ (List.filter_congr fun entry _ => ?_)
    rw [← Bool.decide_and]
    exact decide_eq_decide.mpr and_comm

end Tmis.AiGovernance.Audit

/-! ### Automations -/

namespace Tmis.WorkflowAutomation.Audit

open Tmis.Lib

structure WorkflowAuditEntry where
  id : String
  firmId : String
  workflowId : String
  executionId : Option String
  actorId : String
  action : String
  detail : String
  metadata : List (String × String)
  recordedAt : Datetime

/-- A call of `record`, with the identifier that it draws and the moment it reads. -/
structure Recording where
  uuid : Fin (2 ^ 128)
  firmId : String
  workflowId : String
  actorId : String
  action : String
  executionId : Option String := none
  detail : String := ""
  metadata : Option (List (String × String)) := none
  now : Datetime

/-- `WorkflowAuditEngine`, with the list that `InMemoryWorkflowAuditStore` keeps. -/
structure WorkflowAuditEngine where
  entries : List WorkflowAuditEntry := []

def Recording.entry (r : Recording) : WorkflowAuditEntry :=
  { id := "wf-audit-" ++ uuidText r.uuid, firmId := r.firmId, workflowId := r.workflowId,
    executionId := r.executionId, actorId := r.actorId, action := r.action, detail := r.detail,
    metadata := r.metadata.getD [], recordedAt := r.now }

def csvFields : List String :=
  ["id", "workflow_id", "execution_id", "actor_id", "action", "detail", "recorded_at"]

/-- The dictionary that `export_csv` writes for an entry. -/
def csvRow (entry : WorkflowAuditEntry) : List (String × String) :=
  [("id", entry.id), ("workflow_id", entry.workflowId), ("execution_id", entry.executionId.getD ""),
    ("actor_id", entry.actorId), ("action", entry.action), ("detail", entry.detail),
    ("recorded_at", isoformat entry.recordedAt)]

namespace WorkflowAuditEngine

def record (engine : WorkflowAuditEngine) (r : Recording) : WorkflowAuditEntry × WorkflowAuditEngine :=
  (r.entry, { entries := engine.entries ++ [r.entry] })

def listForFirm (engine : WorkflowAuditEngine) (firmId : String) : List WorkflowAuditEntry :=
  engine.entries.filter (·.firmId = firmId)

def listForWorkflow (engine : WorkflowAuditEngine) (firmId workflowId : String) : List WorkflowAuditEntry :=
  engine.entries.filter fun entry => entry.firmId = firmId ∧ entry.workflowId = workflowId

def exportCsv (engine : WorkflowAuditEngine) (firmId : String) : String :=
  Csv.writeDicts csvFields ((engine.listForFirm firmId).map csvRow)

end WorkflowAuditEngine

def step (engine : WorkflowAuditEngine) (r : Recording) : WorkflowAuditEngine := (engine.record r).2

/-! #### The export -/

/-- The texts of an entry in the file, one for each field. -/
def texts (entry : WorkflowAuditEntry) : List String :=
  [entry.id, entry.workflowId, entry.executionId.getD "", entry.actorId, entry.action, entry.detail,
    isoformat entry.recordedAt]

lemma map_csvFields (entry : WorkflowAuditEntry) :
    csvFields.map (fun name => ((csvRow entry).lookup name).getD "") = texts entry := rfl

/-- All that was recorded is there, in order. -/
lemma entries_run (recordings : List Recording) :
    (run step {} recordings).entries = recordings.map Recording.entry :=
  run_recorded (fun engine : WorkflowAuditEngine => engine.entries) _ (fun _ _ => rfl) {} recordings

/-- **The exported journal** of a firm after any recordings, of any firms: it is read as what was recorded for this
firm, in order, and its rows of a workflow are what the journal lists for the workflow. -/
theorem workflowCsv_run (recordings : List Recording) (firmId : String) :
    Csv.read ((run step {} recordings).exportCsv firmId) =
      csvFields :: (recordings.filter (·.firmId = firmId)).map (fun r => texts r.entry) ∧
    ∀ workflowId, (Csv.read ((run step {} recordings).exportCsv firmId)).tail.filter
        (fun row => row[1]? = some workflowId) =
      ((run step {} recordings).listForWorkflow firmId workflowId).map texts := by
  have hread : Csv.read ((run step {} recordings).exportCsv firmId) =
      csvFields :: ((run step {} recordings).listForFirm firmId).map texts :=
    Csv.read_writeDicts csvRow texts map_csvFields _
  refine ⟨?_, fun workflowId => ?_⟩
  · rw [hread, WorkflowAuditEngine.listForFirm, entries_run, List.filter_map, List.map_map]
    rfl
  · have hrows := Csv.filter_map_texts texts 1 (fun entry : WorkflowAuditEntry => entry.workflowId) (fun _ => rfl)
      ((run step {} recordings).listForFirm firmId) workflowId
    rw [hread, List.tail_cons, hrows, WorkflowAuditEngine.listForFirm, List.filter_filter,
      WorkflowAuditEngine.listForWorkflow]
    refine congrArg _ (List.filter_congr fun entry _ => ?_)
    rw [← Bool.decide_and]
    exact decide_eq_decide.mpr and_comm

end Tmis.WorkflowAutomation.Audit
