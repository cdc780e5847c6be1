import Tmis.Lib.Dict
import Tmis.Lib.Lineage
import Tmis.Lib.Python
import Tmis.Lib.Run

/-!
# Lineage of AI productions

The lineage engine of `ai_governance.lineage`: where the inputs of a production came from and, where it
revises an earlier one, the chain of revisions back to the original.

* `LineageEngine.recordOrigin`, `LineageEngine.explain` — the engine over its in-memory store;
* `listForProduction_run`, `getLatest_run` — what the store holds after any calls, in terms of the calls;
* `explain_run` — the explanation after any calls, also where productions revise one another in a circle.
-/

namespace Tmis.AiGovernance.Lineage

open Tmis.Lib

structure LineageRecord where
  id : Uuid
  firmId : String
  productionId : String
  sourceRefs : List String
  actor : String
  revisedFromId : Option String := none
  createdAt : ℕ
  deriving DecidableEq

/-- Where a production comes from: `revisionChain` goes from the earliest ancestor to the production. -/
structure LineageExplanation where
  productionId : String
  originRecords : List LineageRecord
  revisionChain : List String
  deriving DecidableEq

/-- The engine with its in-memory store; `uuids` counts the identifiers drawn so far. -/
structure LineageEngine where
  records : Dict (String × String) (List LineageRecord) := ∅
  uuids : ℕ := 0

namespace LineageEngine

/-- `InMemoryLineageStore.add`. -/
def add (engine : LineageEngine) (record : LineageRecord) : LineageEngine :=
  let key := (record.firmId, record.productionId)
  { engine with records := engine.records.set key ((engine.records.get key).getD [] ++ [record]) }

/-- `InMemoryLineageStore.list_for_production`. -/
def listForProduction (engine : LineageEngine) (firmId productionId : String) : List LineageRecord :=
  (engine.records.get (firmId, productionId)).getD []

/-- `InMemoryLineageStore.get_latest`. -/
def getLatest (engine : LineageEngine) (firmId productionId : String) : Option LineageRecord :=
  (engine.listForProduction firmId productionId).getLast?

def recordOrigin (engine : LineageEngine) (firmId productionId : String) (sourceRefs : List String)
    (actor : String) (revisedFromId : Option String) (now : ℕ) : LineageRecord × LineageEngine :=
  let record : LineageRecord :=
    { id := engine.uuids, firmId, productionId, sourceRefs, actor, revisedFromId, createdAt := now }
  (record, { engine.add record with uuids := engine.uuids + 1 })

/-- The loop goes from a production to the one its latest record revises, `fuel` times at most. -/
def explain (engine : LineageEngine) (firmId productionId : String) (fuel : ℕ) : Option LineageExplanation :=
  let records := engine.listForProduction firmId productionId
  let revisedFrom := fun currentId => (engine.getLatest firmId currentId).bind (·.revisedFromId)
  (walk revisedFrom fuel (some productionId) ∅ []).map fun chain =>
    { productionId, originRecords := records, revisionChain := chain.reverse }

end LineageEngine

/-! ### Runs -/

/-- A call of `record_origin`, at a moment. -/
structure Origin where
  firmId : String
  productionId : String
  sourceRefs : List String
  actor : String
  revisedFromId : Option String := none
  now : ℕ := 0

def step (engine : LineageEngine) (call : Origin) : LineageEngine :=
  (engine.recordOrigin call.firmId call.productionId call.sourceRefs call.actor call.revisedFromId call.now).2

/-- The record of the call that draws the identifier `id`. -/
def Origin.record (call : Origin) (id : Uuid) : LineageRecord :=
  { id, firmId := call.firmId, productionId := call.productionId, sourceRefs := call.sourceRefs,
    actor := call.actor, revisedFromId := call.revisedFromId, createdAt := call.now }

/-- The records of all the calls, in order. -/
def recordsOf (calls : List Origin) : List LineageRecord := calls.zipIdx.map fun call => call.1.record call.2

/-- What a production was said to revise, the last time its origin was recorded. -/
def revisedFrom (calls : List Origin) (firmId productionId : String) : Option String :=
  (lastWrite (fun call => if call.firmId = firmId ∧ call.productionId = productionId then
    some call.revisedFromId else none) calls).join

/-- The productions of the calls, each as often as its origin is recorded. -/
def productions (calls : List Origin) : List String := calls.map (·.productionId)

section Run

variable {engine : LineageEngine} {calls : List Origin} {call : Origin} {firmId productionId : String} {fuel : ℕ}

lemma recordsOf_snoc (calls : List Origin) (call : Origin) :
    recordsOf (calls ++ [call]) = recordsOf calls ++ [call.record calls.length] := by
  simp [recordsOf, List.zipIdx_append]

@[simp] lemma step_uuids (engine : LineageEngine) (call : Origin) : (step engine call).uuids = engine.uuids + 1 := rfl

/-- A call appends its record to those of its production, and leaves the others alone. -/
lemma listForProduction_step (engine : LineageEngine) (call : Origin) (firmId productionId : String) :
    (step engine call).listForProduction firmId productionId =
      engine.listForProduction firmId productionId ++
        if call.firmId = firmId ∧ call.productionId = productionId then [call.record engine.uuids] else [] := by
  unfold step LineageEngine.recordOrigin LineageEngine.add LineageEngine.listForProduction
  rw [Dict.get_set]
  by_cases hkey : call.firmId = firmId ∧ call.productionId = productionId
  · obtain ⟨rfl, rfl⟩ := hkey
    simp [Origin.record]
  · have hne : (firmId, productionId) ≠ (call.firmId, call.productionId) := by
      rintro heq
      cases heq
      exact hkey ⟨rfl, rfl⟩
    rw [if_neg hne, if_neg hkey, List.append_nil]

lemma uuids_run (calls : List Origin) : (run step {} calls).uuids = calls.length := by
  induction calls using List.reverseRecOn with
  | nil => rfl
  | append_singleton calls call ih => rw [run_snoc, step_uuids, ih, List.length_append, List.length_singleton]

/-- After any calls, the records of a production are those of its calls, in order. -/
theorem listForProduction_run (calls : List Origin) (firmId productionId : String) :
    (run step {} calls).listForProduction firmId productionId =
      (recordsOf calls).filter fun record => record.firmId = firmId ∧ record.productionId = productionId := by
  induction calls using List.reverseRecOn with
  | nil => rfl
  | append_singleton calls call ih =>
    rw [run_snoc, listForProduction_step, ih, uuids_run, recordsOf_snoc, List.filter_append]
    by_cases hkey : call.firmId = firmId ∧ call.productionId = productionId <;>
      simp [Origin.record, hkey]

/-- After any calls, the latest record of a production says what its last call said. -/
theorem getLatest_run (calls : List Origin) (firmId productionId : String) :
    ((run step {} calls).getLatest firmId productionId).bind (·.revisedFromId) =
      revisedFrom calls firmId productionId := by
  have hstep (engine : LineageEngine) (call : Origin) :
      ((step engine call).getLatest firmId productionId).map (·.revisedFromId) =
        (if call.firmId = firmId ∧ call.productionId = productionId then some call.revisedFromId else none).or
          ((engine.getLatest firmId productionId).map (·.revisedFromId)) := by
    unfold LineageEngine.getLatest
    rw [listForProduction_step]
    split
    · rw [List.getLast?_concat]
      rfl
    · rw [List.append_nil]
      rfl
  have hread := run_read (fun engine : LineageEngine => (engine.getLatest firmId productionId).map (·.revisedFromId)) _
    hstep {} calls
  have hempty : (({} : LineageEngine).getLatest firmId productionId).map (·.revisedFromId) = none := rfl
  rw [hempty, Option.or_none] at hread
  rw [revisedFrom, ← hread]
  cases (run step {} calls).getLatest firmId productionId <;> rfl

/-- What revises something is a production of the calls. -/
lemma mem_productions {k p : String} (h : revisedFrom calls firmId k = some p) : k ∈ productions calls := by
  obtain ⟨call, hcall, hwrite⟩ := List.exists_of_findSome?_eq_some (Option.join_eq_some_iff.mp h)
  split at hwrite
  · rename_i hkey
    exact List.mem_map.mpr ⟨call, List.mem_reverse.mp hcall, hkey.2⟩
  · cases hwrite

/-- **The explanation after any calls**, of any production of any firm: the records of its calls, in order, and
a chain without repetition that ends with the production, in which each one is what the next one was last said to
revise, and which holds all that the production goes back to — also where productions revise one another in a
circle. -/
theorem explain_run (calls : List Origin) (firmId productionId : String) (fuel : ℕ) (hfuel : calls.length < fuel) :
    ∃ explanation, (run step {} calls).explain firmId productionId fuel = some explanation ∧
      explanation.productionId = productionId ∧
      explanation.originRecords = (recordsOf calls).filter (fun record =>
        record.firmId = firmId ∧ record.productionId = productionId) ∧
      explanation.revisionChain.Nodup ∧
      explanation.revisionChain.getLast? = some productionId ∧
      explanation.revisionChain.IsChain (fun p k => revisedFrom calls firmId k = some p) ∧
      ∀ k, k ∈ explanation.revisionChain ↔
        Relation.ReflTransGen (fun k p => revisedFrom calls firmId k = some p) productionId k := by
  have hparent : (fun currentId => ((run step {} calls).getLatest firmId currentId).bind (·.revisedFromId)) =
      revisedFrom calls firmId := funext fun currentId => getLatest_run calls firmId currentId
  have hlength : (productions calls).length < fuel := by
    rw [productions, List.length_map]
    exact hfuel
  have hmem (k p : String) (h : revisedFrom calls firmId k = some p) : k ∈ productions calls := mem_productions h
  obtain ⟨chain, hchain⟩ := exists_walk hmem hlength productionId
  have hwalked := walk_walked hchain
  refine ⟨⟨productionId, (run step {} calls).listForProduction firmId productionId, chain.reverse⟩, ?_, rfl,
    listForProduction_run .., ?_, ?_, ?_, fun k => ?_⟩
  · unfold LineageEngine.explain
    simp only [hparent, hchain, Option.map_some]
  · exact List.nodup_reverse.mpr hwalked.nodup
  · rw [List.getLast?_reverse]
    exact hwalked.head
  · exact List.isChain_reverse.mpr hwalked.linked
  · rw [List.mem_reverse, hwalked.mem_iff]

/-- A production that was revised twice, the second time into one of its own revisions. -/
def circle : List Origin :=
  [⟨"f", "a", ["s"], "u", none, 0⟩, ⟨"f", "b", [], "u", some "a", 1⟩, ⟨"g", "b", [], "u", none, 2⟩,
    ⟨"f", "a", [], "v", some "b", 3⟩]

theorem explain_run_circle :
    ∃ explanation, (run step {} circle).explain "f" "b" 5 = some explanation ∧
      explanation.productionId = "b" ∧
      explanation.originRecords = (recordsOf circle).filter (fun record =>
        record.firmId = "f" ∧ record.productionId = "b") ∧
      explanation.revisionChain.Nodup ∧
      explanation.revisionChain.getLast? = some "b" ∧
      explanation.revisionChain.IsChain (fun p k => revisedFrom circle "f" k = some p) ∧
      ∀ k, k ∈ explanation.revisionChain ↔
        Relation.ReflTransGen (fun k p => revisedFrom circle "f" k = some p) "b" k :=
  explain_run circle "f" "b" 5 (by decide)

end Run

end Tmis.AiGovernance.Lineage
