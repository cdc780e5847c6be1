import Tmis.Lib.Journal
import Tmis.Lib.Run
import Tmis.WorkflowAutomation.WorkflowEngine

/-!
# The versions of workflows

What `WorkflowEngine` is for: the versions of each workflow are numbered in sequence, and one of them at
most is active.

* `WorkflowOp`, `step` — the calls that change the registry;
* `mem_listVersions`, `listVersions_eq` — the list of versions is known by what is in it;
* `listVersions_add_new`, `listVersions_setStatus`, `listVersions_activate` — the list after a write;
* `Registered`, `registered_step` — the registry invariant;
* `versions_registered` — over every sequence of calls.
-/

namespace Tmis.WorkflowAutomation

open Tmis.Lib

namespace WorkflowEngine

/-- A call of the engine. -/
inductive WorkflowOp where
  | create (firmId name owner description : String) (triggers : List Trigger)
      (conditions : List Condition) (steps : List WorkflowStep)
  | newVersion (firmId : String) (workflowKey : Uuid) (owner : String) (description : Option String)
      (triggers : Option (List Trigger)) (conditions : Option (List Condition))
      (steps : Option (List WorkflowStep))
  | activate (firmId : String) (workflowId : Uuid)
  | archive (firmId : String) (workflowId : Uuid)

def step (engine : WorkflowEngine) : WorkflowOp → WorkflowEngine
  | .create firmId name owner description triggers conditions steps =>
      (engine.create firmId name owner description triggers conditions steps).2
  | .newVersion firmId workflowKey owner description triggers conditions steps =>
      afterCall engine
        ((engine.newVersion firmId workflowKey owner description triggers conditions steps).map Prod.snd)
  | .activate firmId workflowId => afterCall engine ((engine.activate firmId workflowId).map Prod.snd)
  | .archive firmId workflowId => afterCall engine ((engine.archive firmId workflowId).map Prod.snd)

/-- The call is one on a version of this workflow of the firm; a workflow that is created gets a key of its
own. -/
def Concerns (engine : WorkflowEngine) (firmId : String) (workflowKey : Uuid) : WorkflowOp → Prop
  | .create firmId' .. => firmId' = firmId ∧ workflowKey = engine.uuids + 1
  | .newVersion firmId' workflowKey' .. => firmId' = firmId ∧ workflowKey' = workflowKey
  | .activate firmId' workflowId | .archive firmId' workflowId =>
      firmId' = firmId ∧ ∃ w, engine.get firmId' workflowId = .ok w ∧ w.workflowKey = workflowKey

/-! ### The list of versions -/

variable {engine : WorkflowEngine} {firmId : String} {workflowKey : Uuid} {v w : Workflow}

lemma mem_listVersions (h : WellKeyed engine) : v ∈ engine.listVersions firmId workflowKey ↔
    engine.store.get (firmId, v.id) = some v ∧ v.workflowKey = workflowKey := by
  rw [listVersions, List.mem_insertionSort, List.mem_filterMap]
  constructor
  · rintro ⟨⟨key, u⟩, hentry, hsome⟩
    split at hsome
    · rename_i hmatch
      obtain rfl := Option.some.inj hsome
      have hget := Dict.mem_entries_iff.mp hentry
      obtain ⟨rfl, -⟩ := h key u hget
      exact ⟨by rwa [← hmatch.1], hmatch.2⟩
    · cases hsome
  · rintro ⟨hget, hkey⟩
    exact ⟨((firmId, v.id), v), Dict.mem_entries_iff.mpr hget, if_pos ⟨rfl, hkey⟩⟩

/-- A version is known by its firm and its identifier. -/
lemma eq_of_mem (h : WellKeyed engine) {key : String × Uuid} (hw : engine.store.get key = some w)
    (hv : v ∈ engine.listVersions firmId workflowKey) (heq : v.firmId = w.firmId ∧ v.id = w.id) : v = w := by
  have hget := ((mem_listVersions h).mp hv).1
  rw [(h _ _ hw).1, ← heq.1, ← heq.2, ← (h _ _ hget).1, hget] at hw
  exact Option.some.inj hw

lemma firmId_of_mem (h : WellKeyed engine) (hv : v ∈ engine.listVersions firmId workflowKey) :
    v.firmId = firmId :=
  (congrArg Prod.fst (h _ _ ((mem_listVersions h).mp hv).1).1).symm

/-- The versions have different identifiers. -/
lemma pairwise_listVersions (h : WellKeyed engine) (firmId : String) (workflowKey : Uuid) :
    (engine.listVersions firmId workflowKey).Pairwise fun v w => v.id ≠ w.id := by
  have hentries : engine.store.entries.Pairwise fun a b => (a.2.firmId, a.2.id) ≠ (b.2.firmId, b.2.id) := by
    refine (List.pairwise_map.mp engine.store.nodup).imp_of_mem fun {a b} ha hb hne heq => hne ?_
    rw [(h _ _ (Dict.mem_entries_iff.mp ha)).1, (h _ _ (Dict.mem_entries_iff.mp hb)).1, heq]
  have hversions : (engine.listVersions firmId workflowKey).Pairwise
      fun v w => (v.firmId, v.id) ≠ (w.firmId, w.id) := by
    rw [listVersions, (List.perm_insertionSort _ _).pairwise_iff fun hne => hne.symm]
    refine hentries.filterMap _ fun a b hne v hv w hw => ?_
    simp only [Option.ite_none_right_eq_some, Option.some.injEq] at hv hw
    rw [← hv.2, ← hw.2]
    exact hne
  refine hversions.imp_of_mem fun {v w} hv hw hne heq => hne ?_
  rw [firmId_of_mem h hv, firmId_of_mem h hw, heq]

/-- **The list of versions** is the one in sequence that has these versions in it. -/
theorem listVersions_eq (h : WellKeyed engine) {versions : List Workflow}
    (hversions : Numbered Workflow.version versions)
    (hmem : ∀ v, v ∈ engine.listVersions firmId workflowKey ↔ v ∈ versions) :
    engine.listVersions firmId workflowKey = versions := by
  have hlt := hversions.pairwise_lt
  have hnodup : versions.Nodup := hlt.imp fun hvw heq => (heq ▸ hvw).ne rfl
  have hnodup' : (engine.listVersions firmId workflowKey).Nodup :=
    (pairwise_listVersions h firmId workflowKey).imp fun hne heq => hne (congrArg Workflow.id heq)
  have hsorted : (engine.listVersions firmId workflowKey).Pairwise fun v w => v.version ≤ w.version :=
    List.pairwise_insertionSort _ _
  refine ((List.perm_ext_iff_of_nodup hnodup' hnodup).mpr hmem).eq_of_pairwise ?_ hsorted
    (hlt.imp Nat.le_of_lt)
  exact fun v w hv hw hvw hwv => hversions.eq_of_number_eq ((hmem v).mp hv) hw (Nat.le_antisymm hvw hwv)

/-! ### The list after a write -/

/-- What is in a list after a workflow was written. -/
lemma mem_listVersions_add (h : WellKeyed engine) (h' : WellKeyed (engine.add w)) :
    v ∈ (engine.add w).listVersions firmId workflowKey ↔
      (v = w ∧ w.firmId = firmId ∧ w.workflowKey = workflowKey) ∨
      (v ∈ engine.listVersions firmId workflowKey ∧ ¬ (v.firmId = w.firmId ∧ v.id = w.id)) := by
  rw [mem_listVersions h', mem_listVersions h]
  simp only [add, Dict.get_set, Prod.mk.injEq]
  by_cases hkey : firmId = w.firmId ∧ v.id = w.id
  · rw [if_pos hkey]
    constructor
    · rintro ⟨hv, rfl⟩
      obtain rfl := Option.some.inj hv
      exact Or.inl ⟨rfl, hkey.1.symm, rfl⟩
    · rintro (⟨rfl, -, rfl⟩ | ⟨⟨hget, -⟩, hne⟩)
      · exact ⟨rfl, rfl⟩
      · refine absurd ⟨?_, hkey.2⟩ hne
        rw [← hkey.1]
        exact (congrArg Prod.fst (h _ _ hget).1).symm
  · rw [if_neg hkey]
    constructor
    · rintro ⟨hget, rfl⟩
      refine Or.inr ⟨⟨hget, rfl⟩, fun heq => hkey ⟨?_, heq.2⟩⟩
      rw [← heq.1]
      exact congrArg Prod.fst (h _ _ hget).1
    · rintro (⟨rfl, rfl, rfl⟩ | ⟨hold, -⟩)
      · exact absurd ⟨rfl, rfl⟩ hkey
      · exact hold

/-- **A new version** is the last one of its workflow. -/
theorem listVersions_add_new (h : WellKeyed engine) {n : ℕ} (hid : engine.uuids ≤ w.id) (hn : w.id < n)
    (hnumbered : Numbered Workflow.version (engine.listVersions firmId workflowKey))
    (hversion : w.firmId = firmId → w.workflowKey = workflowKey →
      w.version = (engine.listVersions firmId workflowKey).length + 1) :
    ({ engine with uuids := n }.add w).listVersions firmId workflowKey =
      if w.firmId = firmId ∧ w.workflowKey = workflowKey then
        engine.listVersions firmId workflowKey ++ [w]
      else engine.listVersions firmId workflowKey := by
  have hbase : WellKeyed { engine with uuids := n } := fun key v hv =>
    ⟨(h key v hv).1, ((h key v hv).2.trans_le hid).trans hn⟩
  have hnew : WellKeyed ({ engine with uuids := n }.add w) := (add_new h hid hn).1
  have hother : ∀ v ∈ engine.listVersions firmId workflowKey, ¬ (v.firmId = w.firmId ∧ v.id = w.id) := by
    intro v hv heq
    exact ((h _ _ ((mem_listVersions h).mp hv).1).2.trans_le hid).ne heq.2
  have hmem : ∀ v, v ∈ ({ engine with uuids := n }.add w).listVersions firmId workflowKey ↔
      (v = w ∧ w.firmId = firmId ∧ w.workflowKey = workflowKey) ∨
        v ∈ engine.listVersions firmId workflowKey := fun v =>
    (mem_listVersions_add hbase hnew).trans (or_congr_right (and_iff_left_of_imp (hother v)))
  split_ifs with hmatch
  · refine listVersions_eq hnew (hnumbered.snoc (hversion hmatch.1 hmatch.2)) fun v => ?_
    rw [hmem, List.mem_append, List.mem_singleton, and_iff_left hmatch, or_comm]
  · refine listVersions_eq hnew hnumbered fun v => ?_
    rw [hmem, or_iff_right fun hv => hmatch hv.2]

/-- The workflow with a new status, if it is this one. -/
def withStatus (w : Workflow) (status : WorkflowStatus) (v : Workflow) : Workflow :=
  if v.firmId = w.firmId ∧ v.id = w.id then { v with status } else v

@[simp] lemma withStatus_id (w : Workflow) (status : WorkflowStatus) (v : Workflow) :
    (withStatus w status v).id = v.id := by
  unfold withStatus
  split_ifs <;> rfl

@[simp] lemma withStatus_firmId (w : Workflow) (status : WorkflowStatus) (v : Workflow) :
    (withStatus w status v).firmId = v.firmId := by
  unfold withStatus
  split_ifs <;> rfl

@[simp] lemma withStatus_version (w : Workflow) (status : WorkflowStatus) (v : Workflow) :
    (withStatus w status v).version = v.version := by
  unfold withStatus
  split_ifs <;> rfl

/-- **A new status** is that of the one version. -/
theorem listVersions_setStatus (h : WellKeyed engine) {key : String × Uuid}
    (hw : engine.store.get key = some w) (status : WorkflowStatus)
    (hnumbered : Numbered Workflow.version (engine.listVersions firmId workflowKey)) :
    (engine.add { w with status }).listVersions firmId workflowKey =
      (engine.listVersions firmId workflowKey).map (withStatus w status) := by
  obtain ⟨rfl, -⟩ := h key w hw
  have hnew : WellKeyed (engine.add { w with status }) := (add_status h hw status).1
  refine listVersions_eq hnew ?_ fun v => ?_
  · unfold Numbered at hnumbered ⊢
    rw [List.length_map, ← hnumbered, List.map_map]
    exact List.map_congr_left fun v _ => withStatus_version w status v
  · rw [mem_listVersions_add h hnew, List.mem_map]
    constructor
    · rintro (⟨rfl, rfl, rfl⟩ | ⟨hv, hne⟩)
      · exact ⟨w, (mem_listVersions h).mpr ⟨hw, rfl⟩, if_pos ⟨rfl, rfl⟩⟩
      · exact ⟨v, hv, if_neg hne⟩
    · rintro ⟨u, hu, rfl⟩
      by_cases heq : u.firmId = w.firmId ∧ u.id = w.id
      · obtain rfl := eq_of_mem h hw hu heq
        have hfirm := firmId_of_mem h hu
        exact Or.inl ⟨if_pos heq, hfirm, ((mem_listVersions h).mp hu).2⟩
      · rw [withStatus, if_neg heq]
        exact Or.inr ⟨hu, heq⟩

/-! ### The registry -/

/-- The versions of every workflow are numbered in sequence, and one of them at most is active.  Keys are
drawn before the workflows are stored. -/
structure Registered (engine : WorkflowEngine) : Prop where
  keyed : WellKeyed engine
  keysDrawn : ∀ key w, engine.store.get key = some w → w.workflowKey < engine.uuids
  numbered : ∀ firmId workflowKey, Numbered Workflow.version (engine.listVersions firmId workflowKey)
  oneActive : ∀ firmId workflowKey, ∀ v ∈ engine.listVersions firmId workflowKey,
    ∀ w ∈ engine.listVersions firmId workflowKey, v.status = .active → w.status = .active → v = w

lemma registered_empty : Registered {} where
  keyed _ _ h := nomatch h
  keysDrawn _ _ h := nomatch h
  numbered _ _ := numbered_nil _
  oneActive _ _ _ hv := absurd hv List.not_mem_nil

/-- **`getActive` finds the active version.** -/
theorem Registered.getActive_iff (h : Registered engine) :
    engine.getActive firmId workflowKey = some w ↔
      w ∈ engine.listVersions firmId workflowKey ∧ w.status = .active := by
  unfold getActive
  constructor
  · intro hfind
    exact ⟨List.mem_of_find?_eq_some hfind, by simpa using List.find?_some hfind⟩
  · rintro ⟨hw, hactive⟩
    cases hfind : (engine.listVersions firmId workflowKey).find? fun v => v.status = .active with
    | none => exact absurd (decide_eq_true hactive) (List.find?_eq_none.mp hfind w hw)
    | some v =>
      have hv := List.mem_of_find?_eq_some hfind
      have hvactive : v.status = .active := by simpa using List.find?_some hfind
      rw [h.oneActive _ _ v hv w hw hvactive hactive]

/-- A version that is not active is written after the others. -/
lemma Registered.add_new (h : Registered engine) {n : ℕ} (hid : engine.uuids ≤ w.id) (hn : w.id < n)
    (hkey : w.workflowKey < n) (hstatus : w.status = .draft)
    (hversion : w.version = (engine.listVersions w.firmId w.workflowKey).length + 1) :
    Registered ({ engine with uuids := n }.add w) := by
  have hlist : ∀ firmId workflowKey,
      ({ engine with uuids := n }.add w).listVersions firmId workflowKey =
        if w.firmId = firmId ∧ w.workflowKey = workflowKey then
          engine.listVersions firmId workflowKey ++ [w]
        else engine.listVersions firmId workflowKey := fun firmId workflowKey =>
    listVersions_add_new h.keyed hid hn (h.numbered firmId workflowKey)
      (fun hfirm hkey => by rw [← hfirm, ← hkey]; exact hversion)
  refine ⟨(WorkflowEngine.add_new h.keyed hid hn).1, fun key v hv => ?_, fun firmId workflowKey => ?_,
    fun firmId workflowKey => ?_⟩
  · simp only [add, Dict.get_set] at hv
    split_ifs at hv
    · cases hv
      exact hkey
    · exact (h.keysDrawn key v hv).trans_le (hid.trans hn.le)
  · rw [hlist]
    split_ifs with hmatch
    · refine (h.numbered firmId workflowKey).snoc ?_
      rw [← hmatch.1, ← hmatch.2]
      exact hversion
    · exact h.numbered firmId workflowKey
  · rw [hlist]
    split_ifs
    · have hold : ∀ v ∈ engine.listVersions firmId workflowKey ++ [w], v.status = .active →
          v ∈ engine.listVersions firmId workflowKey := by
        intro v hv hactive
        rcases List.mem_append.mp hv with hv | hv
        · exact hv
        · rw [List.mem_singleton.mp hv, hstatus] at hactive
          cases hactive
      intro v hv u hu hva hua
      exact h.oneActive firmId workflowKey v (hold v hv hva) u (hold u hu hua) hva hua
    · exact h.oneActive firmId workflowKey

/-- A version gets a status: the sequence stays, and one version at most is active if it is the one that
becomes active, in the place of no other. -/
lemma Registered.setStatus (h : Registered engine) {key : String × Uuid}
    (hw : engine.store.get key = some w) (status : WorkflowStatus)
    (honly : status = .active → ∀ v ∈ engine.listVersions w.firmId w.workflowKey,
      v.status = .active → v = w) : Registered (engine.add { w with status }) := by
  have hlist := fun firmId workflowKey =>
    listVersions_setStatus h.keyed hw status (h.numbered firmId workflowKey)
  refine ⟨(add_status h.keyed hw status).1, fun key' v hv => ?_, fun firmId workflowKey => ?_,
    fun firmId workflowKey => ?_⟩
  · simp only [add, Dict.get_set] at hv
    split_ifs at hv
    · cases hv
      exact h.keysDrawn key w hw
    · exact h.keysDrawn key' v hv
  · rw [hlist]
    have hnumbered := h.numbered firmId workflowKey
    unfold Numbered at hnumbered ⊢
    rw [List.length_map, ← hnumbered, List.map_map]
    exact List.map_congr_left fun v _ => withStatus_version w status v
  · -- What is active afterwards is the version itself, or was active before.
    have hafter : ∀ v ∈ engine.listVersions firmId workflowKey, (withStatus w status v).status = .active →
        (v = w ∧ status = .active) ∨ v.status = .active := by
      intro v hv hactive
      by_cases heq : v.firmId = w.firmId ∧ v.id = w.id
      · rw [withStatus, if_pos heq] at hactive
        exact Or.inl ⟨eq_of_mem h.keyed hw hv heq, hactive⟩
      · rw [withStatus, if_neg heq] at hactive
        exact Or.inr hactive
    have hwhere : w ∈ engine.listVersions firmId workflowKey → status = .active →
        ∀ v ∈ engine.listVersions firmId workflowKey, v.status = .active → v = w := by
      intro hmem hstatus v hv hactive
      refine honly hstatus v ?_ hactive
      rwa [firmId_of_mem h.keyed hmem, ((mem_listVersions h.keyed).mp hmem).2]
    rw [hlist]
    intro v' hv' u' hu' hva hua
    obtain ⟨v, hv, rfl⟩ := List.mem_map.mp hv'
    obtain ⟨u, hu, rfl⟩ := List.mem_map.mp hu'
    refine congrArg _ ?_
    rcases hafter v hv hva with ⟨rfl, hstatus⟩ | hvactive <;>
      rcases hafter u hu hua with ⟨rfl, hstatus'⟩ | huactive
    · rfl
    · exact (hwhere hv hstatus u hu huactive).symm
    · exact hwhere hu hstatus' v hv hvactive
    · exact h.oneActive firmId workflowKey v hv u hu hvactive huactive

/-- The other workflows keep their versions. -/
lemma listVersions_setStatus_other (h : Registered engine) {key : String × Uuid}
    (hw : engine.store.get key = some w) (status : WorkflowStatus)
    (hother : ¬ (w.firmId = firmId ∧ w.workflowKey = workflowKey)) :
    (engine.add { w with status }).listVersions firmId workflowKey =
      engine.listVersions firmId workflowKey := by
  rw [listVersions_setStatus h.keyed hw status (h.numbered firmId workflowKey)]
  refine (List.map_congr_left fun v hv => if_neg fun heq => hother ?_).trans (List.map_id' _)
  obtain rfl := eq_of_mem h.keyed hw hv heq
  exact ⟨firmId_of_mem h.keyed hv, ((mem_listVersions h.keyed).mp hv).2⟩

/-! ### The calls -/

/-- A write of the engine keeps the registry, and the versions of other workflows. -/
def KeepsOthers (engine engine' : WorkflowEngine) (op : WorkflowOp) : Prop :=
  Registered engine' ∧ ∀ firmId workflowKey, ¬ engine.Concerns firmId workflowKey op →
    engine'.listVersions firmId workflowKey = engine.listVersions firmId workflowKey

/-- A call that raises changes nothing. -/
lemma Registered.afterCall (h : Registered engine) {op : WorkflowOp}
    {result : Except PyException (Workflow × WorkflowEngine)}
    (hok : ∀ r, result = .ok r → KeepsOthers engine r.2 op) :
    KeepsOthers engine (Lib.afterCall engine (result.map Prod.snd)) op := by
  cases result with
  | error e => exact ⟨h, fun _ _ _ => rfl⟩
  | ok r => exact hok r rfl

lemma create_keepsOthers (h : Registered engine) (firmId name owner description : String)
    (triggers : List Trigger) (conditions : List Condition) (steps : List WorkflowStep) :
    KeepsOthers engine (engine.create firmId name owner description triggers conditions steps).2
      (.create firmId name owner description triggers conditions steps) := by
  have hid : engine.uuids < engine.uuids + 2 := Nat.lt_add_of_pos_right (by decide)
  have hempty : engine.listVersions firmId (engine.uuids + 1) = [] := by
    refine List.eq_nil_iff_forall_not_mem.mpr fun v hv => ?_
    obtain ⟨hget, hkey⟩ := (mem_listVersions h.keyed).mp hv
    exact absurd (hkey ▸ h.keysDrawn _ v hget) (Nat.not_succ_le_self _ ∘ Nat.le_of_lt)
  refine ⟨h.add_new le_rfl hid (Nat.lt_succ_self _) rfl (by rw [hempty]; rfl), fun firmId' key hother => ?_⟩
  refine (listVersions_add_new h.keyed le_rfl hid (h.numbered firmId' key) fun hfirm hkey => ?_).trans
    (if_neg fun hmatch => hother ⟨hmatch.1, hmatch.2.symm⟩)
  exact absurd ⟨hfirm, hkey.symm⟩ hother

lemma newVersion_keepsOthers (h : Registered engine) {firmId : String} {workflowKey : Uuid} {owner : String}
    {description : Option String} {triggers : Option (List Trigger)}
    {conditions : Option (List Condition)} {steps : Option (List WorkflowStep)}
    {r : Workflow × WorkflowEngine}
    (hok : engine.newVersion firmId workflowKey owner description triggers conditions steps = .ok r) :
    KeepsOthers engine r.2
      (.newVersion firmId workflowKey owner description triggers conditions steps) := by
  unfold newVersion at hok
  split at hok
  · cases hok
  · rename_i latest hlast
    cases hok
    have hid : engine.uuids < engine.uuids + 1 := Nat.lt_succ_self _
    have hversion : latest.version + 1 = (engine.listVersions firmId workflowKey).length + 1 :=
      congrArg (· + 1) ((h.numbered firmId workflowKey).number_getLast hlast)
    obtain ⟨hget, hkey⟩ := (mem_listVersions h.keyed).mp (List.mem_of_getLast? hlast)
    have hdrawn : workflowKey < engine.uuids + 1 := (hkey ▸ h.keysDrawn _ latest hget).trans hid
    refine ⟨h.add_new le_rfl hid hdrawn rfl hversion, fun firmId' key hother => ?_⟩
    refine (listVersions_add_new h.keyed le_rfl hid (h.numbered firmId' key) fun hfirm hkey => ?_).trans
      (if_neg hother)
    exact absurd ⟨hfirm, hkey⟩ hother

lemma archive_keepsOthers (h : Registered engine) {firmId : String} {workflowId : Uuid}
    {r : Workflow × WorkflowEngine} (hok : engine.archive firmId workflowId = .ok r) :
    KeepsOthers engine r.2 (.archive firmId workflowId) := by
  unfold archive at hok
  cases hget : engine.get firmId workflowId with
  | error e => rw [hget] at hok; cases hok
  | ok w =>
    rw [hget] at hok
    cases hok
    have hw := get_ok_iff.mp hget
    refine ⟨h.setStatus hw .archived fun hstatus => (nomatch hstatus), fun firmId' key hother => ?_⟩
    refine listVersions_setStatus_other h hw .archived fun hmatch => hother ?_
    exact ⟨(congrArg Prod.fst (h.keyed _ _ hw).1).trans hmatch.1, w, hget, hmatch.2⟩

/-- The version that was active is archived first; it is one of the same workflow. -/
lemma activate_keepsOthers (h : Registered engine) {firmId : String} {workflowId : Uuid}
    {r : Workflow × WorkflowEngine} (hok : engine.activate firmId workflowId = .ok r) :
    KeepsOthers engine r.2 (.activate firmId workflowId) := by
  unfold activate at hok
  cases hget : engine.get firmId workflowId with
  | error e => rw [hget] at hok; cases hok
  | ok w =>
    rw [hget] at hok
    have hw := get_ok_iff.mp hget
    have hfirm : w.firmId = firmId := (congrArg Prod.fst (h.keyed _ _ hw).1).symm
    have hother' {firmId' : String} {key : Uuid}
        (hother : ¬ engine.Concerns firmId' key (.activate firmId workflowId)) :
        ¬ (w.firmId = firmId' ∧ w.workflowKey = key) := fun hmatch =>
      hother ⟨hfirm.symm.trans hmatch.1, w, hget, hmatch.2⟩
    cases hactive : engine.getActive firmId w.workflowKey with
    | none =>
      simp only [hactive, bind, Except.bind, pure, Except.pure] at hok
      cases hok
      refine ⟨h.setStatus hw .active fun _ v hv hva => ?_, fun firmId' key hother =>
        listVersions_setStatus_other h hw .active (hother' hother)⟩
      have hfound : engine.getActive firmId w.workflowKey = some v := h.getActive_iff.mpr ⟨hfirm ▸ hv, hva⟩
      rw [hactive] at hfound
      cases hfound
    | some p =>
      simp only [hactive, bind, Except.bind, pure, Except.pure] at hok
      cases hok
      obtain ⟨hp, hpa⟩ := h.getActive_iff.mp hactive
      have honly : ∀ v ∈ engine.listVersions firmId w.workflowKey, v.status = .active → v = p :=
        fun v hv hva => h.oneActive _ _ v hv p hp hva hpa
      obtain ⟨hpget, hpkey⟩ := (mem_listVersions h.keyed).mp hp
      have hpfirm := firmId_of_mem h.keyed hp
      split
      · rename_i hid
        have hwid : w.id = workflowId := (congrArg Prod.snd (h.keyed _ _ hw).1).symm
        have h' := h.setStatus hpget .archived fun hstatus => (nomatch hstatus)
        have hw' : (engine.add { p with status := .archived }).store.get (firmId, workflowId) = some w := by
          have hkey : (firmId, workflowId) ≠ (p.firmId, p.id) := fun heq =>
            hid ((congrArg Prod.snd heq).symm.trans hwid.symm)
          simp only [add, Dict.get_set_of_ne _ _ hkey, hw]
        refine ⟨h'.setStatus hw' .active fun _ v' hv' hva => ?_, fun firmId' key hother => ?_⟩
        · -- None is active once the one that was is archived.
          rw [listVersions_setStatus h.keyed hpget .archived (h.numbered _ _), hfirm] at hv'
          obtain ⟨v, hv, rfl⟩ := List.mem_map.mp hv'
          by_cases heq : v.firmId = p.firmId ∧ v.id = p.id
          · rw [withStatus, if_pos heq] at hva
            cases hva
          · rw [withStatus, if_neg heq] at hva
            exact absurd ⟨congrArg Workflow.firmId (honly v hv hva),
              congrArg Workflow.id (honly v hv hva)⟩ heq
        · refine (listVersions_setStatus_other h' hw' .active (hother' hother)).trans ?_
          refine listVersions_setStatus_other h hpget .archived fun hmatch => hother' hother ?_
          exact ⟨hfirm.trans (hpfirm.symm.trans hmatch.1), hpkey.symm.trans hmatch.2⟩
      · -- The version itself is active already.
        rename_i hid
        have hpw : p = w := eq_of_mem h.keyed hw hp ⟨hpfirm.trans hfirm.symm, not_not.mp hid⟩
        exact ⟨h.setStatus hw .active fun _ v hv hva => hpw ▸ honly v (hfirm ▸ hv) hva,
          fun firmId' key hother => listVersions_setStatus_other h hw .active (hother' hother)⟩

/-- **The step lemma**: every call keeps the registry, and the versions of the workflows it is not on. -/
theorem registered_step (h : Registered engine) (op : WorkflowOp) :
    KeepsOthers engine (engine.step op) op := by
  cases op with
  | create firmId name owner description triggers conditions steps =>
      exact create_keepsOthers h firmId name owner description triggers conditions steps
  | newVersion firmId workflowKey owner description triggers conditions steps =>
      exact h.afterCall fun r hok => newVersion_keepsOthers h hok
  | activate firmId workflowId => exact h.afterCall fun r hok => activate_keepsOthers h hok
  | archive firmId workflowId => exact h.afterCall fun r hok => archive_keepsOthers h hok

/-- **The registry of versions**: after any calls, the versions of each workflow of each firm are numbered
1, 2, ..., n, one of them at most is active, `getActive` finds it, and a call on another workflow or of
another firm leaves them as they are. -/
theorem versions_registered (ops : List WorkflowOp) (firmId : String) (workflowKey : Uuid) :
    (∃ n, ((run step {} ops).listVersions firmId workflowKey).map Workflow.version = List.range' 1 n) ∧
    (((run step {} ops).listVersions firmId workflowKey).filter (·.status = .active)).length ≤ 1 ∧
    (∀ w, (run step {} ops).getActive firmId workflowKey = some w ↔
      w ∈ (run step {} ops).listVersions firmId workflowKey ∧ w.status = .active) ∧
    ∀ op, ¬ (run step {} ops).Concerns firmId workflowKey op →
      ((run step {} ops).step op).listVersions firmId workflowKey =
        (run step {} ops).listVersions firmId workflowKey := by
  have h : Registered (run step {} ops) :=
    run_inv ops registered_empty fun engine op hr => (registered_step hr op).1
  refine ⟨⟨_, h.numbered firmId workflowKey⟩, ?_, fun w => h.getActive_iff, fun op hop =>
    (registered_step h op).2 firmId workflowKey hop⟩
  -- The active ones are all equal, and no version is listed twice.
  have hnodup : ((run step {} ops).listVersions firmId workflowKey).Nodup :=
    (pairwise_listVersions h.keyed firmId workflowKey).imp fun hne heq => hne (congrArg Workflow.id heq)
  have hfilter := hnodup.filter fun v => decide (v.status = .active)
  have hactive : ∀ v ∈ ((run step {} ops).listVersions firmId workflowKey).filter (·.status = .active),
      v ∈ (run step {} ops).listVersions firmId workflowKey ∧ v.status = .active := fun v hv =>
    (List.mem_filter.mp hv).imp_right of_decide_eq_true
  generalize ((run step {} ops).listVersions firmId workflowKey).filter (·.status = .active) = active at *
  match active with
  | [] | [_] => simp
  | v :: w :: rest =>
    obtain ⟨hv, hva⟩ := hactive v List.mem_cons_self
    obtain ⟨hw, hwa⟩ := hactive w (List.mem_cons_of_mem _ List.mem_cons_self)
    have hvw := h.oneActive _ _ v hv w hw hva hwa
    exact absurd (hvw ▸ List.mem_cons_self) (List.nodup_cons.mp hfilter).1

end WorkflowEngine

end Tmis.WorkflowAutomation
