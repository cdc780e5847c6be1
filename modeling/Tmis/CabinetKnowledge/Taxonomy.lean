import Tmis.Lib.Acyclic
import Tmis.Lib.Run
import Tmis.Lib.Store

/-!
# The taxonomy

The tree of legal categories that knowledge objects are classified against, and the walk from one of its nodes
to the root.

* `TaxonomyNode`, `TaxonomyStore`, `seedDefaultTaxonomy` — the nodes and the store;
* `ancestors` — the walk, a loop that looks up one parent after the other;
* `WalksEnd` — it comes to an end from every node, with the chain of its parents;
* `walksEnd_iff` — it does iff no node is above itself;
* `ancestors_iff` — in a run it does after every operation iff no node is put below itself;
  `own_parent`, one that is.
-/

namespace Tmis.CabinetKnowledge

open Tmis.Lib Relation

inductive LegalDomain where
  | general | civil | commercial | social | fiscal | dataProtection | penal
  deriving DecidableEq

namespace LegalDomain

def value : LegalDomain → String
  | general => "general"
  | civil => "civil"
  | commercial => "commercial"
  | social => "social"
  | fiscal => "fiscal"
  | dataProtection => "data_protection"
  | penal => "penal"

def all : List LegalDomain := [general, civil, commercial, social, fiscal, dataProtection, penal]

end LegalDomain

structure TaxonomyNode where
  id : String
  label : String
  domain : LegalDomain
  parentId : Option String := none
  deriving DecidableEq

/-- The in-memory store. -/
abbrev TaxonomyStore := Store String TaxonomyNode TaxonomyNode.id

namespace Taxonomy

/-- The rounds of the loop that are left, from the node that is looked at; `fuel` bounds how many there are. -/
def ancestorsFrom (store : TaxonomyStore) : ℕ → Option TaxonomyNode → Option (List TaxonomyNode)
  | 0, _ => none
  | _ + 1, none => some []
  | fuel + 1, some current =>
    match current.parentId with
    | none => some []
    | some parentId =>
      match store.get parentId with
      | none => some []
      | some parent => (ancestorsFrom store fuel (some parent)).map fun chain => parent :: chain

/-- `TaxonomyEngine.ancestors`, if it returns within so many rounds. -/
def ancestors (store : TaxonomyStore) (fuel : ℕ) (nodeId : String) : Option (List TaxonomyNode) :=
  ancestorsFrom store fuel (store.get nodeId)

def rootId (domain : LegalDomain) : String := "taxo-root-" ++ domain.value

/-- The nodes of the default tree. -/
def defaultNodes : List TaxonomyNode :=
  LegalDomain.all.map (fun domain => ⟨rootId domain, domain.value, domain, none⟩) ++
    [⟨"taxo-social-licenciement", "Licenciement", .social, some (rootId .social)⟩,
      ⟨"taxo-social-contrat-travail", "Contrat de travail", .social, some (rootId .social)⟩,
      ⟨"taxo-commercial-contentieux", "Contentieux commercial", .commercial, some (rootId .commercial)⟩,
      ⟨"taxo-commercial-societes", "Droit des sociétés", .commercial, some (rootId .commercial)⟩,
      ⟨"taxo-civil-recouvrement", "Recouvrement de créances", .civil, some (rootId .civil)⟩]

/-- `seed_default_taxonomy`: nothing is done to a store that has nodes. -/
def seedDefaultTaxonomy (store : TaxonomyStore) : TaxonomyStore :=
  if store.values = [] then defaultNodes.foldl Store.save store else store

inductive Operation where
  | add (node : TaxonomyNode)
  | seedDefaultTaxonomy

def step (store : TaxonomyStore) : Operation → TaxonomyStore
  | .add node => store.save node
  | .seedDefaultTaxonomy => seedDefaultTaxonomy store

/-! ### What is to hold -/

/-- The parent of a node, if it is in the store. -/
def parentOf (store : TaxonomyStore) (nodeId : String) : Option TaxonomyNode := do
  let node ← store.get nodeId
  let parentId ← node.parentId
  store.get parentId

/-- These are the parents of a node, one above the other, up to one that has none. -/
def IsChain (store : TaxonomyStore) : String → List TaxonomyNode → Prop
  | nodeId, [] => parentOf store nodeId = none
  | nodeId, parent :: rest => parentOf store nodeId = some parent ∧ IsChain store parent.id rest

/-- From every node the walk comes to an end, with the chain of its parents, no two of which are the same. -/
def WalksEnd (store : TaxonomyStore) : Prop :=
  ∀ nodeId, ∃ fuel chain, ancestors store fuel nodeId = some chain ∧ IsChain store nodeId chain ∧
    (nodeId :: chain.map (·.id)).Nodup

/-- The parent a node names. -/
def IsBelow (store : TaxonomyStore) (nodeId parentId : String) : Prop :=
  ∃ node, store.get nodeId = some node ∧ node.parentId = some parentId

/-- No node is put below itself, or below one that is below it. -/
def Rooted (store : TaxonomyStore) : Operation → Prop
  | .add node => ∀ parentId, node.parentId = some parentId → ¬ ReflTransGen (IsBelow store) parentId node.id
  | .seedDefaultTaxonomy => True

/-! ### The walk -/

section Walk

variable {store : TaxonomyStore} {nodeId parentId : String} {parent : TaxonomyNode}

lemma get_of_parentOf (h : parentOf store nodeId = some parent) : store.get parent.id = some parent := by
  obtain ⟨node, -, hrest⟩ := Option.bind_eq_some_iff.mp h
  obtain ⟨parentId, -, hget⟩ := Option.bind_eq_some_iff.mp hrest
  rwa [Store.key_of_get hget]

/-- One round of the loop. -/
lemma ancestors_succ (store : TaxonomyStore) (fuel : ℕ) (nodeId : String) :
    ancestors store (fuel + 1) nodeId =
      match parentOf store nodeId with
      | none => some []
      | some parent => (ancestors store fuel parent.id).map fun chain => parent :: chain := by
  cases hparent : parentOf store nodeId with
  | none =>
    unfold parentOf at hparent
    unfold ancestors
    cases hget : store.get nodeId with
    | none => rfl
    | some node =>
      cases hid : node.parentId with
      | none => simp only [ancestorsFrom, hid]
      | some parentId =>
        have hnone : store.get parentId = none := by simpa [hget, hid] using hparent
        simp only [ancestorsFrom, hid, hnone]
  | some parent =>
    have hstored := get_of_parentOf hparent
    obtain ⟨node, hget, hrest⟩ := Option.bind_eq_some_iff.mp hparent
    obtain ⟨parentId, hid, hget'⟩ := Option.bind_eq_some_iff.mp hrest
    unfold ancestors
    simp only [hget, ancestorsFrom, hid, hget', hstored]

lemma isBelow_of_parentOf (h : parentOf store nodeId = some parent) : IsBelow store nodeId parent.id := by
  obtain ⟨node, hget, hrest⟩ := Option.bind_eq_some_iff.mp h
  obtain ⟨parentId, hid, hget'⟩ := Option.bind_eq_some_iff.mp hrest
  exact ⟨node, hget, hid.trans (congrArg some (Store.key_of_get hget').symm)⟩

lemma parentOf_of_isBelow (h : IsBelow store nodeId parentId) : parentOf store nodeId = store.get parentId := by
  obtain ⟨node, hget, hid⟩ := h
  simp [parentOf, hget, hid]

/-- The parents of a chain are above the node. -/
lemma IsChain.above {chain : List TaxonomyNode} (h : IsChain store nodeId chain) :
    ∀ parent ∈ chain, TransGen (IsBelow store) nodeId parent.id := by
  induction chain generalizing nodeId with
  | nil => simp
  | cons first rest ih =>
    obtain ⟨hparent, hrest⟩ := h
    have hbelow := isBelow_of_parentOf hparent
    intro parent hmem
    rcases List.mem_cons.mp hmem with rfl | hmem
    · exact .single hbelow
    · exact .head hbelow (ih hrest parent hmem)

/-- A walk that comes to an end has nothing above its start that goes on for ever. -/
lemma acc_of_ancestors {fuel : ℕ} {chain : List TaxonomyNode} (h : ancestors store fuel nodeId = some chain) :
    Acc (flip (IsBelow store)) nodeId := by
  induction fuel generalizing nodeId chain with
  | zero => cases h
  | succ fuel ih =>
    constructor
    intro parentId hbelow
    rw [ancestors_succ, parentOf_of_isBelow hbelow] at h
    cases hget : store.get parentId with
    | none =>
      constructor
      rintro next ⟨node, hnode, -⟩
      rw [hget] at hnode
      cases hnode
    | some parent =>
      simp only [hget, Option.map_eq_some_iff] at h
      obtain ⟨rest, hrest, -⟩ := h
      rw [Store.key_of_get hget] at hrest
      exact ih hrest

/-- **Every walk comes to an end** iff no node is above itself. -/
theorem walksEnd_iff : WalksEnd store ↔ Acyclic (IsBelow store) := by
  constructor
  · intro h nodeId
    obtain ⟨fuel, chain, hwalk, -⟩ := h nodeId
    exact not_transGen_of_acc (acc_of_ancestors hwalk)
  · intro h
    have hwf : WellFounded (flip (IsBelow store)) :=
      h.wellFounded store.entries.finite_keys fun _ _ ⟨node, hget, _⟩ => ⟨node, hget⟩
    intro nodeId
    induction nodeId using hwf.induction with
    | _ nodeId ih =>
      cases hparent : parentOf store nodeId with
      | none => exact ⟨1, [], by rw [ancestors_succ, hparent], hparent, List.nodup_singleton _⟩
      | some parent =>
        obtain ⟨fuel, chain, hwalk, hchain, hnodup⟩ := ih parent.id (isBelow_of_parentOf hparent)
        have hchain' : IsChain store nodeId (parent :: chain) := ⟨hparent, hchain⟩
        refine ⟨fuel + 1, parent :: chain, ?_, hchain', List.nodup_cons.mpr ⟨?_, hnodup⟩⟩
        · rw [ancestors_succ, hparent]
          simp only [hwalk, Option.map_some]
        · intro hmem
          obtain ⟨above, habove, heq⟩ := List.mem_map.mp hmem
          exact h nodeId (heq ▸ hchain'.above above habove)

end Walk

/-! ### The operations -/

section Operations

variable {store : TaxonomyStore}

lemma isBelow_save_self {node : TaxonomyNode} {parentId : String} :
    IsBelow (store.save node) node.id parentId ↔ node.parentId = some parentId := by
  unfold IsBelow
  rw [Store.get_save_self]
  simp

lemma isBelow_save_of_ne {node : TaxonomyNode} {nodeId parentId : String} (h : nodeId ≠ node.id) :
    IsBelow (store.save node) nodeId parentId ↔ IsBelow store nodeId parentId := by
  unfold IsBelow
  rw [Store.get_save, if_neg h]

/-- Where no node is above itself, none is after a node is put elsewhere iff it is not put below itself. -/
lemma acyclic_save_iff (h : Acyclic (IsBelow store)) (node : TaxonomyNode) :
    Acyclic (IsBelow (store.save node)) ↔ Rooted store (.add node) := by
  rw [acyclic_update_iff h fun nodeId parentId hne => isBelow_save_of_ne hne]
  simp only [isBelow_save_self]
  exact Iff.rfl

lemma acyclic_empty : Acyclic (IsBelow (∅ : TaxonomyStore)) := by
  intro nodeId hway
  obtain ⟨_, ⟨node, hget, -⟩, -⟩ := TransGen.head'_iff.mp hway
  cases hget

/-- The store with the default tree in it. -/
def defaultTaxonomy : TaxonomyStore := defaultNodes.foldl Store.save ∅

/-- The parents in the default tree are roots. -/
lemma acyclic_default : Acyclic (IsBelow defaultTaxonomy) := by
  have hroots : (defaultTaxonomy.values.all fun node =>
      (node.parentId.bind defaultTaxonomy.get).all fun parent => parent.parentId.isNone) = true := by
    decide
  have htwo : ∀ a b c, IsBelow defaultTaxonomy a b → ¬ IsBelow defaultTaxonomy b c := by
    rintro a b c ⟨node, hget, hid⟩ ⟨parent, hget', hid'⟩
    have hmem : node ∈ defaultTaxonomy.values := Store.mem_values_of_get hget
    have hroot := List.all_eq_true.mp hroots node hmem
    rw [hid] at hroot
    simp [hget', hid'] at hroot
  intro nodeId hway
  obtain ⟨parentId, hbelow, hback⟩ := TransGen.head'_iff.mp hway
  rcases hback.cases_head with rfl | ⟨next, hnext, -⟩
  · exact htwo _ _ _ hbelow hbelow
  · exact htwo _ _ _ hbelow hnext

lemma acyclic_seed (h : Acyclic (IsBelow store)) : Acyclic (IsBelow (seedDefaultTaxonomy store)) := by
  unfold seedDefaultTaxonomy
  split_ifs with hempty
  · obtain ⟨⟨entries, _⟩, _⟩ := store
    obtain rfl : entries = [] := List.map_eq_nil_iff.mp hempty
    exact acyclic_default
  · exact h

lemma acyclic_step_iff (h : Acyclic (IsBelow store)) (operation : Operation) :
    Acyclic (IsBelow (step store operation)) ↔ Rooted store operation := by
  cases operation with
  | add node => exact acyclic_save_iff h node
  | seedDefaultTaxonomy => exact iff_of_true (acyclic_seed h) trivial

end Operations

/-- **The walk to the root comes to an end** in every state of a run, from every node and with the chain of its
parents, iff no node is put below itself or below one that is below it. -/
theorem ancestors_iff (operations : List Operation) :
    Along step (fun store operation => WalksEnd (step store operation)) ∅ operations ↔
      Along step Rooted ∅ operations := by
  refine along_congr acyclic_empty (fun store operation h hrooted => (acyclic_step_iff h operation).mpr hrooted)
    fun store operation h => ?_
  rw [walksEnd_iff, acyclic_step_iff h]

/-- A node that is its own parent: the walk from it does not come to an end. -/
theorem own_parent : ¬ WalksEnd (step ∅ (.add ⟨"a", "A", .general, some "a"⟩)) := by
  have hwalk : ∀ fuel, ancestors (step ∅ (.add ⟨"a", "A", .general, some "a"⟩)) fuel "a" = none := by
    intro fuel
    induction fuel with
    | zero => rfl
    | succ fuel ih =>
      rw [ancestors_succ]
      show (ancestors (step ∅ (.add ⟨"a", "A", .general, some "a"⟩)) fuel "a").map _ = none
      rw [ih]
      rfl
  intro h
  obtain ⟨fuel, chain, hreturns, -⟩ := h "a"
  rw [hwalk] at hreturns
  cases hreturns

end Taxonomy

end Tmis.CabinetKnowledge
