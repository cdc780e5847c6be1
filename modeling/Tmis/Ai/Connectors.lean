import Tmis.Lib.Dict
import Tmis.Lib.Python

/-!
# Connectors

A search fans out to the enabled connectors among those it names, one after the other; a connector
that fails is left out.

* `SearchOutcome`, `Connectors` — what a connector answers, and the connectors under their names;
* `ConnectorManager.search` — the documents of all connectors;
* `search_eq_ok` — a search that returns found what its enabled connectors found, in order;
* `search_perm` — up to order, the order of the connectors does not matter.
-/

namespace Tmis.Ai

open Tmis.Lib

structure ConnectorDocument where
  id : String
  title : String
  content : String
  connector : String
  metadata : Dict String String := ∅
  deriving DecidableEq

/-- What a connector's search comes to: documents, a `ConnectorError`, or another exception. -/
inductive SearchOutcome where
  | found (documents : List ConnectorDocument)
  | connectorError
  | raised (e : PyException)

/-- The search of the connector under each name, as a function of the query and the filters. -/
abbrev Connectors (Filters : Type) := String → String → Option Filters → SearchOutcome

/-- The names under which connectors are registered, each with whether it is enabled. -/
structure ConnectorManager where
  entries : Dict String Bool

namespace ConnectorManager

variable {Filters : Type} (manager : ConnectorManager) (connectors : Connectors Filters)

def isEnabled (name : String) : Prop := manager.entries.get name = some true

instance (name : String) : Decidable (manager.isEnabled name) := by unfold isEnabled; infer_instance

/-- The loop of `search` over its targets. -/
def searchTargets (query : String) (filters : Option Filters) :
    List String → Except PyException (List ConnectorDocument)
  | [] => .ok []
  | name :: names =>
      if manager.isEnabled name then
        match connectors name query filters with
        | .raised e => .error e
        | .connectorError => searchTargets query filters names
        | .found documents => (searchTargets query filters names).map (documents ++ ·)
      else searchTargets query filters names

/-- `connector_names or list(self._entries)`. -/
def targets (connectorNames : List String) : List String :=
  if connectorNames = [] then manager.entries.keys else connectorNames

/-- `search`. -/
def search (query : String) (filters : Option Filters) (connectorNames : List String) :
    Except PyException (List ConnectorDocument) :=
  manager.searchTargets connectors query filters (manager.targets connectorNames)

/-! ### What a search finds -/

/-- The targets that are asked. -/
def asked (connectorNames : List String) : List String :=
  (manager.targets connectorNames).filter fun name => manager.isEnabled name

/-- What one connector adds to the documents. -/
def documentsOf : SearchOutcome → List ConnectorDocument
  | .found documents => documents
  | _ => []

variable {manager connectors} {query : String} {filters : Option Filters} {names names' : List String}
  {documents : List ConnectorDocument}

lemma searchTargets_eq_ok : manager.searchTargets connectors query filters names = .ok documents ↔
    (∀ name ∈ names, manager.isEnabled name → ∀ e, connectors name query filters ≠ .raised e) ∧
      documents = (names.filter fun name => manager.isEnabled name).flatMap fun name =>
        documentsOf (connectors name query filters) := by
  induction names generalizing documents with
  | nil => simp [searchTargets, eq_comm]
  | cons name names ih =>
    by_cases hname : manager.isEnabled name
    · cases hout : connectors name query filters with
      | raised e => simp [searchTargets, hname, hout]
      | connectorError => simp [searchTargets, hname, hout, ih, documentsOf]
      | found ds =>
        simp only [searchTargets, hname, hout, if_true, List.forall_mem_cons, List.filter_cons,
          decide_true, List.flatMap_cons, documentsOf, reduceCtorEq, ne_eq, not_false_eq_true,
          implies_true, true_and]
        cases hrest : manager.searchTargets connectors query filters names with
        | error e =>
          have hno : ∀ ds, manager.searchTargets connectors query filters names ≠ .ok ds := by
            simp [hrest]
          simp only [Except.map, reduceCtorEq, false_iff, not_and]
          exact fun h _ => hno _ (ih.mpr ⟨h, rfl⟩)
        | ok ds' =>
          obtain ⟨hall, rfl⟩ := ih.mp hrest
          simp only [Except.map, Except.ok.injEq]
          exact ⟨fun h => ⟨hall, h.symm⟩, fun h => h.2.symm⟩
    · simp [searchTargets, hname, ih]

/-- **What a search finds**: the documents of the connectors it asks, in order. -/
theorem search_eq_ok : manager.search connectors query filters names = .ok documents ↔
    (∀ name ∈ manager.asked names, ∀ e, connectors name query filters ≠ .raised e) ∧
      documents = (manager.asked names).flatMap fun name =>
        documentsOf (connectors name query filters) := by
  rw [search, searchTargets_eq_ok, asked]
  simp only [List.mem_filter, decide_eq_true_eq, and_imp]

/-- **The order of the connectors** does not matter but for the order of the documents. -/
theorem search_perm (h : (manager.asked names).Perm (manager.asked names'))
    (hsearch : manager.search connectors query filters names = .ok documents) :
    ∃ documents', manager.search connectors query filters names' = .ok documents' ∧
      documents.Perm documents' := by
  obtain ⟨hall, rfl⟩ := search_eq_ok.mp hsearch
  refine ⟨_, search_eq_ok.mpr ⟨fun name hname => hall name (h.mem_iff.mpr hname), rfl⟩, ?_⟩
  exact h.flatMap_right _

end ConnectorManager

end Tmis.Ai
