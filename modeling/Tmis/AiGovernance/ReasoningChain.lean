import Tmis.Lib.Acyclic
import Tmis.Lib.Python
import Tmis.Lib.Run
import Tmis.Lib.Store

/-!
# Reasoning chains

The chain of recorded steps of `ai_governance.reasoning_chain`: eight stages in their canonical order, and an
engine that appends steps and refuses one that goes back to an earlier stage.

* `ReasoningChainEngine.recordStep`, `ReasoningChainEngine.toGraph` — the engine over its in-memory store;
* `kept` — of some recordings, those that no earlier one is ahead of;
* `stepsOf_run` — the steps of a production after any calls are those that are kept of its recordings;
* `chain_run` — with that, what the chain holds, which step is refused, and what the graph shows.
-/

namespace Tmis.AiGovernance.Reasoning

open Tmis.Lib

inductive ChainStageType where
  | question | analysis | research | arguments | counterArguments | consensus | validation | draft
  deriving DecidableEq

namespace ChainStageType

def value : ChainStageType → String
  | question => "question"
  | analysis => "analyse"
  | research => "recherche"
  | arguments => "arguments"
  | counterArguments => "contre_arguments"
  | consensus => "consensus"
  | validation => "validation"
  | draft => "brouillon"

/-- `_STAGE_ORDER`: the order of declaration. -/
def order : ChainStageType → ℕ
  | question => 0
  | analysis => 1
  | research => 2
  | arguments => 3
  | counterArguments => 4
  | consensus => 5
  | validation => 6
  | draft => 7

end ChainStageType

structure ChainStep where
  id : Uuid
  stage : ChainStageType
  summary : String
  references : List String := []
  recordedAt : ℕ
  deriving DecidableEq

structure ReasoningChain where
  id : Uuid
  firmId : String
  productionId : String
  steps : List ChainStep := []
  deriving DecidableEq

structure ChainNode where
  id : Uuid
  stage : ChainStageType
  label : String
  deriving DecidableEq

structure ChainEdge where
  sourceId : Uuid
  targetId : Uuid
  deriving DecidableEq

structure ReasoningChainGraph where
  nodes : List ChainNode
  edges : List ChainEdge
  deriving DecidableEq

structure OutOfOrderStepError where
  fromStage : ChainStageType
  toStage : ChainStageType
  deriving DecidableEq

def OutOfOrderStepError.text (error : OutOfOrderStepError) : String :=
  "Cannot record stage " ++ pyRepr error.toStage.value ++ " after " ++ pyRepr error.fromStage.value ++
    ": the reasoning chain only moves forward through its canonical stages."

/-! ### The engine -/

/-- The engine with its in-memory store; `uuids` counts the identifiers drawn so far. -/
structure ReasoningChainEngine where
  store : Store (String × String) ReasoningChain (fun chain => (chain.firmId, chain.productionId)) := ∅
  uuids : ℕ := 0

namespace ReasoningChainEngine

def getOrCreate (engine : ReasoningChainEngine) (firmId productionId : String) :
    ReasoningChain × ReasoningChainEngine :=
  match engine.store.get (firmId, productionId) with
  | some existing => (existing, engine)
  | none =>
    let chain : ReasoningChain := { id := engine.uuids, firmId, productionId }
    (chain, { store := engine.store.save chain, uuids := engine.uuids + 1 })

/-- What is wrong with a step of this stage, if something is. -/
def outOfOrder (chain : ReasoningChain) (stage : ChainStageType) : Option OutOfOrderStepError :=
  match chain.steps.getLast? with
  | some last => if stage.order < last.stage.order then some ⟨last.stage, stage⟩ else none
  | none => none

def recordStep (engine : ReasoningChainEngine) (firmId productionId : String) (stage : ChainStageType)
    (summary : String) (references : List String) (now : ℕ) :
    Except OutOfOrderStepError ChainStep × ReasoningChainEngine :=
  let (chain, engine) := engine.getOrCreate firmId productionId
  match outOfOrder chain stage with
  | some error => (.error error, engine)
  | none =>
    let step : ChainStep := { id := engine.uuids, stage, summary, references, recordedAt := now }
    (.ok step, { store := engine.store.save { chain with steps := chain.steps ++ [step] },
                 uuids := engine.uuids + 1 })

def chainFor (engine : ReasoningChainEngine) (firmId productionId : String) :
    ReasoningChain × ReasoningChainEngine :=
  engine.getOrCreate firmId productionId

/-- One node for each step, and an edge from each step to the next one. -/
def graph (chain : ReasoningChain) : ReasoningChainGraph where
  nodes := chain.steps.map fun step => { id := step.id, stage := step.stage, label := step.summary }
  edges := (chain.steps.zip chain.steps.tail).map fun pair => { sourceId := pair.1.id, targetId := pair.2.id }

def toGraph (engine : ReasoningChainEngine) (firmId productionId : String) :
    ReasoningChainGraph × ReasoningChainEngine :=
  let (chain, engine) := engine.getOrCreate firmId productionId
  (graph chain, engine)

/-- The steps recorded for a production; none where there is no chain yet. -/
def stepsOf (engine : ReasoningChainEngine) (firmId productionId : String) : List ChainStep :=
  ((engine.store.get (firmId, productionId)).map (·.steps)).getD []

end ReasoningChainEngine

/-! ### What is kept of some recordings -/

/-- What a call of `record_step` says of the step, and when. -/
structure Recording where
  stage : ChainStageType
  summary : String
  references : List String := []
  recordedAt : ℕ := 0
  deriving DecidableEq

def ChainStep.recording (step : ChainStep) : Recording :=
  ⟨step.stage, step.summary, step.references, step.recordedAt⟩

/-- None of the recordings before is of a later stage. -/
def InOrder (before : List Recording) (stage : ChainStageType) : Prop :=
  ∀ earlier ∈ before, earlier.stage.order ≤ stage.order

instance (before : List Recording) (stage : ChainStageType) : Decidable (InOrder before stage) :=
  inferInstanceAs (Decidable (∀ earlier ∈ before, earlier.stage.order ≤ stage.order))

/-- The recordings that no earlier one, kept or not, is ahead of. -/
def kept (recordings : List Recording) : List Recording :=
  (recordings.zipIdx.filter fun r => InOrder (recordings.take r.2) r.1.stage).map Prod.fst

section Kept

variable {recordings : List Recording} {r : Recording} {stage : ChainStageType}

lemma kept_snoc (recordings : List Recording) (r : Recording) :
    kept (recordings ++ [r]) = kept recordings ++ if InOrder recordings r.stage then [r] else [] := by
  have hbefore : ∀ e ∈ recordings.zipIdx, decide (InOrder ((recordings ++ [r]).take e.2) e.1.stage) =
      decide (InOrder (recordings.take e.2) e.1.stage) := by
    intro e he
    rw [List.take_append_of_le_length (List.snd_lt_of_mem_zipIdx he).le]
  unfold kept
  rw [List.zipIdx_append, List.filter_append, List.map_append, List.filter_congr hbefore]
  by_cases h : InOrder recordings r.stage <;> simp [h]

lemma inOrder_snoc : InOrder (recordings ++ [r]) stage ↔ InOrder recordings stage ∧ r.stage.order ≤ stage.order := by
  simp [InOrder, or_imp, forall_and]

/-- **The last one kept** is as far as any recording has been. -/
theorem inOrder_iff_getLast :
    InOrder recordings stage ↔ ∀ last ∈ (kept recordings).getLast?, last.stage.order ≤ stage.order := by
  induction recordings using List.reverseRecOn with
  | nil => simp [InOrder, kept]
  | append_singleton recordings r ih =>
    rw [inOrder_snoc, kept_snoc]
    split
    · rename_i hr
      rw [List.getLast?_concat]
      constructor
      · rintro ⟨-, hle⟩ last hlast
        cases hlast
        exact hle
      · intro hle
        have hrle : r.stage.order ≤ stage.order := hle r rfl
        exact ⟨fun earlier hearlier => (hr earlier hearlier).trans hrle, hrle⟩
    · rename_i hr
      rw [List.append_nil, ← ih]
      refine and_iff_left_of_imp fun hstage => ?_
      -- An earlier recording is ahead of `r`, and `stage` is no earlier than that one.
      unfold InOrder at hr
      push Not at hr
      obtain ⟨earlier, hearlier, hlt⟩ := hr
      exact hlt.le.trans (hstage earlier hearlier)

lemma mem_of_mem_kept (hr : r ∈ kept recordings) : r ∈ recordings := by
  obtain ⟨e, he, rfl⟩ := List.mem_map.mp hr
  exact List.fst_mem_of_mem_zipIdx (List.mem_filter.mp he).1

/-- What is kept goes forward through the stages. -/
lemma pairwise_kept (recordings : List Recording) :
    (kept recordings).Pairwise fun a b => a.stage.order ≤ b.stage.order := by
  induction recordings using List.reverseRecOn with
  | nil => exact .nil
  | append_singleton recordings r ih =>
    rw [kept_snoc]
    split
    · rename_i hr
      refine List.pairwise_append.mpr ⟨ih, List.pairwise_singleton .., fun a ha b hb => ?_⟩
      rw [List.mem_singleton.mp hb]
      exact hr a (mem_of_mem_kept ha)
    · rwa [List.append_nil]

end Kept

/-! ### Single calls -/

namespace ReasoningChainEngine

variable {engine : ReasoningChainEngine} {firmId productionId firmId' productionId' : String}
  {stage : ChainStageType} {summary : String} {references : List String} {now : ℕ}

/-- The chain of a production has its steps. -/
lemma getOrCreate_steps (engine : ReasoningChainEngine) (firmId productionId : String) :
    (engine.getOrCreate firmId productionId).1.steps = engine.stepsOf firmId productionId := by
  unfold getOrCreate stepsOf
  split
  · rename_i existing hget
    rw [hget]
    rfl
  · rename_i hget
    rw [hget]
    rfl

lemma getOrCreate_key (engine : ReasoningChainEngine) (firmId productionId : String) :
    (engine.getOrCreate firmId productionId).1.firmId = firmId ∧
      (engine.getOrCreate firmId productionId).1.productionId = productionId := by
  unfold getOrCreate
  split
  · rename_i existing hget
    exact Prod.mk.inj (engine.store.keyed _ existing hget)
  · exact ⟨rfl, rfl⟩

/-- The steps of a production after a chain was saved. -/
lemma stepsOf_save (engine : ReasoningChainEngine) (chain : ReasoningChain) (uuids : ℕ) (firmId productionId : String) :
    ({ store := engine.store.save chain, uuids } : ReasoningChainEngine).stepsOf firmId productionId =
      if (firmId, productionId) = (chain.firmId, chain.productionId) then chain.steps
      else engine.stepsOf firmId productionId := by
  unfold stepsOf
  rw [Store.get_save]
  split <;> rfl

/-- Creating a chain records no step. -/
lemma stepsOf_getOrCreate (engine : ReasoningChainEngine) (firmId productionId firmId' productionId' : String) :
    (engine.getOrCreate firmId productionId).2.stepsOf firmId' productionId' =
      engine.stepsOf firmId' productionId' := by
  unfold getOrCreate
  split
  · rfl
  · rename_i hget
    rw [stepsOf_save]
    split
    · rename_i hkey
      unfold stepsOf
      rw [hkey, hget]
      rfl
    · rfl

lemma uuids_getOrCreate (engine : ReasoningChainEngine) (firmId productionId : String) :
    engine.uuids ≤ (engine.getOrCreate firmId productionId).2.uuids := by
  unfold getOrCreate
  split
  · exact le_rfl
  · exact Nat.le_succ _

/-- A step of this stage may follow the steps. -/
def Follows (steps : List ChainStep) (stage : ChainStageType) : Prop :=
  ∀ last ∈ steps.getLast?, last.stage.order ≤ stage.order

instance (steps : List ChainStep) (stage : ChainStageType) : Decidable (Follows steps stage) :=
  inferInstanceAs (Decidable (∀ last ∈ steps.getLast?, last.stage.order ≤ stage.order))

lemma outOfOrder_eq_none_iff {chain : ReasoningChain} : outOfOrder chain stage = none ↔ Follows chain.steps stage := by
  unfold outOfOrder Follows
  cases chain.steps.getLast? with
  | none => simp
  | some last => simp

lemma outOfOrder_eq_some_iff {chain : ReasoningChain} {error : OutOfOrderStepError} :
    outOfOrder chain stage = some error ↔
      ∃ last ∈ chain.steps.getLast?, stage.order < last.stage.order ∧ error = ⟨last.stage, stage⟩ := by
  unfold outOfOrder
  cases chain.steps.getLast? with
  | none => simp
  | some last => simp [eq_comm]

/-- A refused step leaves a chain. -/
lemma recordStep_of_some {error : OutOfOrderStepError}
    (h : outOfOrder (engine.getOrCreate firmId productionId).1 stage = some error) :
    engine.recordStep firmId productionId stage summary references now =
      (.error error, (engine.getOrCreate firmId productionId).2) := by
  unfold recordStep
  simp only [h]

lemma recordStep_of_none (h : outOfOrder (engine.getOrCreate firmId productionId).1 stage = none) :
    engine.recordStep firmId productionId stage summary references now =
      let (chain, engine) := engine.getOrCreate firmId productionId
      let step : ChainStep := { id := engine.uuids, stage, summary, references, recordedAt := now }
      (.ok step, { store := engine.store.save { chain with steps := chain.steps ++ [step] },
                   uuids := engine.uuids + 1 }) := by
  unfold recordStep
  simp only [h]

/-- The steps of a production after a step was recorded for one, or refused. -/
lemma stepsOf_recordStep (engine : ReasoningChainEngine) (firmId productionId : String) (stage : ChainStageType)
    (summary : String) (references : List String) (now : ℕ) (firmId' productionId' : String) :
    (engine.recordStep firmId productionId stage summary references now).2.stepsOf firmId' productionId' =
      engine.stepsOf firmId' productionId' ++
        if (firmId', productionId') = (firmId, productionId) ∧ Follows (engine.stepsOf firmId productionId) stage then
          [⟨(engine.getOrCreate firmId productionId).2.uuids, stage, summary, references, now⟩]
        else [] := by
  have hsteps := getOrCreate_steps engine firmId productionId
  cases hout : outOfOrder (engine.getOrCreate firmId productionId).1 stage with
  | some error =>
    have hnot : ¬ Follows (engine.stepsOf firmId productionId) stage := by
      rw [← hsteps, ← outOfOrder_eq_none_iff, hout]
      nofun
    rw [recordStep_of_some hout, stepsOf_getOrCreate, if_neg fun h => hnot h.2, List.append_nil]
  | none =>
    have hfollows : Follows (engine.stepsOf firmId productionId) stage := by
      rwa [← hsteps, ← outOfOrder_eq_none_iff]
    obtain ⟨hfirm, hproduction⟩ := getOrCreate_key engine firmId productionId
    rw [recordStep_of_none hout]
    simp only [stepsOf_save, hfirm, hproduction, hsteps, hfollows, and_true, stepsOf_getOrCreate]
    split
    · rename_i hkey
      cases hkey
      rfl
    · rw [List.append_nil]

lemma uuids_recordStep (engine : ReasoningChainEngine) (firmId productionId : String) (stage : ChainStageType)
    (summary : String) (references : List String) (now : ℕ) :
    (engine.recordStep firmId productionId stage summary references now).2.uuids =
      (engine.getOrCreate firmId productionId).2.uuids +
        if Follows (engine.stepsOf firmId productionId) stage then 1 else 0 := by
  rw [← getOrCreate_steps engine firmId productionId]
  cases hout : outOfOrder (engine.getOrCreate firmId productionId).1 stage with
  | some error =>
    have hnot : ¬ Follows (engine.getOrCreate firmId productionId).1.steps stage := by
      rw [← outOfOrder_eq_none_iff, hout]
      nofun
    rw [recordStep_of_some hout, if_neg hnot, Nat.add_zero]
  | none => rw [recordStep_of_none hout, if_pos (outOfOrder_eq_none_iff.mp hout)]

end ReasoningChainEngine

/-! ### Runs -/

inductive Call where
  | recordStep (firmId productionId : String) (stage : ChainStageType) (summary : String)
      (references : List String) (now : ℕ)
  | chainFor (firmId productionId : String)
  | toGraph (firmId productionId : String)

/-- A call changes the engine also where it raises. -/
def step (engine : ReasoningChainEngine) : Call → ReasoningChainEngine
  | .recordStep firmId productionId stage summary references now =>
      (engine.recordStep firmId productionId stage summary references now).2
  | .chainFor firmId productionId => (engine.chainFor firmId productionId).2
  | .toGraph firmId productionId => (engine.toGraph firmId productionId).2

/-- What the calls say for one production of one firm, recorded or refused. -/
def recordings (calls : List Call) (firmId productionId : String) : List Recording :=
  calls.filterMap fun
    | .recordStep firmId' productionId' stage summary references now =>
        if (firmId, productionId) = (firmId', productionId') then some ⟨stage, summary, references, now⟩ else none
    | .chainFor .. => none
    | .toGraph .. => none

section Run

open ReasoningChainEngine

/-- What holds of any two in order holds of neighbours. -/
lemma rel_of_mem_zip_tail {α : Type*} {R : α → α → Prop} {pair : α × α} : ∀ {as : List α}, as.Pairwise R →
    pair ∈ as.zip as.tail → R pair.1 pair.2
  | [], _, h => nomatch h
  | [_], _, h => nomatch h
  | a :: b :: as, hpairwise, h => by
      obtain ⟨ha, hpairwise⟩ := List.pairwise_cons.mp hpairwise
      rcases List.mem_cons.mp h with rfl | h
      · exact ha b List.mem_cons_self
      · exact rel_of_mem_zip_tail hpairwise h

variable {calls : List Call} {firmId productionId : String} {stage : ChainStageType}

/-- The steps are those kept of the recordings, with identifiers in the order in which they were drawn. -/
structure Records (engine : ReasoningChainEngine) (recordings : List Recording) (steps : List ChainStep) : Prop where
  kept : steps.map ChainStep.recording = kept recordings
  ascending : steps.Pairwise fun a b => a.id < b.id
  drawn : ∀ step ∈ steps, step.id < engine.uuids

/-- What is kept of the recordings decides what may follow. -/
lemma Records.follows_iff {engine : ReasoningChainEngine} {recordings : List Recording} {steps : List ChainStep}
    (h : Records engine recordings steps) : Follows steps stage ↔ InOrder recordings stage := by
  rw [inOrder_iff_getLast, ← h.kept, List.getLast?_map]
  unfold Follows
  cases steps.getLast? with
  | none => simp
  | some last => simp [ChainStep.recording]

lemma Records.mono {engine engine' : ReasoningChainEngine} {recordings : List Recording} {steps : List ChainStep}
    (h : Records engine recordings steps) (hle : engine.uuids ≤ engine'.uuids) : Records engine' recordings steps where
  kept := h.kept
  ascending := h.ascending
  drawn step hstep := (h.drawn step hstep).trans_le hle

/-- **The steps after any calls** are what is kept of the recordings. -/
theorem records_run (calls : List Call) (firmId productionId : String) :
    Records (run step {} calls) (recordings calls firmId productionId)
      ((run step {} calls).stepsOf firmId productionId) := by
  induction calls using List.reverseRecOn generalizing firmId productionId with
  | nil => exact ⟨rfl, .nil, nofun⟩
  | append_singleton calls call ih =>
    have hrec : recordings (calls ++ [call]) firmId productionId =
        recordings calls firmId productionId ++ recordings [call] firmId productionId := List.filterMap_append
    rw [run_snoc, hrec]
    generalize run step {} calls = engine at ih ⊢
    cases call with
    | chainFor firmId' productionId' | toGraph firmId' productionId' =>
      show Records (engine.getOrCreate firmId' productionId').2 (_ ++ [])
        ((engine.getOrCreate firmId' productionId').2.stepsOf firmId productionId)
      rw [List.append_nil, stepsOf_getOrCreate]
      exact (ih firmId productionId).mono (uuids_getOrCreate ..)
    | recordStep firmId' productionId' stage summary references now =>
      show Records (engine.recordStep firmId' productionId' stage summary references now).2 _
        ((engine.recordStep firmId' productionId' stage summary references now).2.stepsOf firmId productionId)
      have hle := uuids_getOrCreate engine firmId' productionId'
      have huuids := uuids_recordStep engine firmId' productionId' stage summary references now
      have hmono : engine.uuids ≤
          (engine.recordStep firmId' productionId' stage summary references now).2.uuids := by
        rw [huuids]
        exact hle.trans (Nat.le_add_right _ _)
      rw [stepsOf_recordStep]
      by_cases hkey : (firmId, productionId) = (firmId', productionId')
      · cases hkey
        have hown := ih firmId productionId
        have hself : recordings [.recordStep firmId productionId stage summary references now] firmId productionId =
            [⟨stage, summary, references, now⟩] := by simp [recordings]
        rw [hself]
        by_cases hfollows : Follows (engine.stepsOf firmId productionId) stage
        · rw [if_pos ⟨rfl, hfollows⟩]
          rw [if_pos hfollows] at huuids
          refine ⟨?_, ?_, ?_⟩
          · rw [kept_snoc, if_pos (hown.follows_iff.mp hfollows), List.map_append, hown.kept]
            rfl
          · refine List.pairwise_append.mpr ⟨hown.ascending, List.pairwise_singleton .., fun a ha b hb => ?_⟩
            rw [List.mem_singleton.mp hb]
            exact (hown.drawn a ha).trans_le hle
          · intro step hstep
            rcases List.mem_append.mp hstep with hstep | hstep
            · exact (hown.drawn step hstep).trans_le hmono
            · rw [List.mem_singleton.mp hstep, huuids]
              exact Nat.lt_succ_self _
        · rw [if_neg fun h => hfollows h.2, List.append_nil]
          refine ⟨?_, hown.ascending, fun step hstep => (hown.drawn step hstep).trans_le hmono⟩
          rw [kept_snoc, if_neg (hown.follows_iff.not.mp hfollows), List.append_nil]
          exact hown.kept
      · have hother : recordings [.recordStep firmId' productionId' stage summary references now] firmId productionId =
            [] := by simp only [recordings, List.filterMap_cons, if_neg hkey, List.filterMap_nil]
        rw [hother, if_neg fun h => hkey h.1, List.append_nil, List.append_nil]
        exact (ih firmId productionId).mono hmono

/-- **Which step is refused**: one of an earlier stage than some recording, recorded or refused itself; the error
names the latest stage there has been. -/
theorem recordStep_run (calls : List Call) (firmId productionId : String) (stage : ChainStageType)
    (summary : String) (references : List String) (now : ℕ) :
    (InOrder (recordings calls firmId productionId) stage ∧
      ∃ recorded, ((run step {} calls).recordStep firmId productionId stage summary references now).1 =
          .ok recorded ∧
        recorded.recording = ⟨stage, summary, references, now⟩) ∨
    ∃ latest ∈ recordings calls firmId productionId,
      (∀ r ∈ recordings calls firmId productionId, r.stage.order ≤ latest.stage.order) ∧
      stage.order < latest.stage.order ∧
      ((run step {} calls).recordStep firmId productionId stage summary references now).1 =
        .error ⟨latest.stage, stage⟩ := by
  have hrun := records_run calls firmId productionId
  generalize run step {} calls = engine at hrun ⊢
  rw [← getOrCreate_steps] at hrun
  cases hout : outOfOrder (engine.getOrCreate firmId productionId).1 stage with
  | none =>
    refine Or.inl ⟨hrun.follows_iff.mp (outOfOrder_eq_none_iff.mp hout), ?_⟩
    rw [recordStep_of_none hout]
    exact ⟨_, rfl, rfl⟩
  | some error =>
    obtain ⟨last, hlast, hlt, rfl⟩ := outOfOrder_eq_some_iff.mp hout
    have hkept : last.recording ∈ (kept (recordings calls firmId productionId)).getLast? := by
      rw [← hrun.kept, List.getLast?_map, hlast]
      rfl
    refine Or.inr ⟨last.recording, mem_of_mem_kept (List.mem_of_getLast? hkept), ?_, hlt, ?_⟩
    · -- A step of the last stage kept may follow, so that no recording is ahead of it.
      refine inOrder_iff_getLast.mpr fun r hr => ?_
      cases hkept.symm.trans hr
      exact le_rfl
    · rw [recordStep_of_some hout]
      rfl

/-- **The chain after any calls**, for any production of any firm: its steps are the recordings no earlier one was
ahead of, in order, and go forward through the stages. -/
theorem chainFor_run (calls : List Call) (firmId productionId : String) :
    (((run step {} calls).chainFor firmId productionId).1.firmId = firmId ∧
      ((run step {} calls).chainFor firmId productionId).1.productionId = productionId) ∧
    ((run step {} calls).chainFor firmId productionId).1.steps.map ChainStep.recording =
      kept (recordings calls firmId productionId) ∧
    ((run step {} calls).chainFor firmId productionId).1.steps.Pairwise
      fun a b => a.stage.order ≤ b.stage.order := by
  have hrun := records_run calls firmId productionId
  have hordered := pairwise_kept (recordings calls firmId productionId)
  unfold chainFor
  rw [getOrCreate_steps]
  rw [← hrun.kept, List.pairwise_map] at hordered
  exact ⟨getOrCreate_key .., hrun.kept, hordered⟩

/-- **The graph after any calls** is a path through all that was kept, and leads nowhere back. -/
theorem toGraph_run (calls : List Call) (firmId productionId : String) :
    (((run step {} calls).toGraph firmId productionId).1.nodes.map fun node => (node.stage, node.label)) =
      (kept (recordings calls firmId productionId)).map (fun r => (r.stage, r.summary)) ∧
    (((run step {} calls).toGraph firmId productionId).1.edges.map fun edge => (edge.sourceId, edge.targetId)) =
      (((run step {} calls).toGraph firmId productionId).1.nodes.map (·.id)).zip
        (((run step {} calls).toGraph firmId productionId).1.nodes.map (·.id)).tail ∧
    (((run step {} calls).toGraph firmId productionId).1.nodes.map (·.id)).Nodup ∧
    Acyclic fun a b => ⟨a, b⟩ ∈ ((run step {} calls).toGraph firmId productionId).1.edges := by
  have hrun := records_run calls firmId productionId
  have hnodes : ((run step {} calls).toGraph firmId productionId).1.nodes =
      ((run step {} calls).stepsOf firmId productionId).map
        fun step => { id := step.id, stage := step.stage, label := step.summary } := by
    rw [← getOrCreate_steps]
    rfl
  have hedges : ((run step {} calls).toGraph firmId productionId).1.edges =
      (((run step {} calls).stepsOf firmId productionId).zip
        ((run step {} calls).stepsOf firmId productionId).tail).map
        fun pair => { sourceId := pair.1.id, targetId := pair.2.id } := by
    rw [← getOrCreate_steps]
    rfl
  rw [hnodes, hedges]
  generalize (run step {} calls).stepsOf firmId productionId = steps at hrun ⊢
  refine ⟨?_, ?_, ?_, ?_⟩
  · rw [← hrun.kept, List.map_map, List.map_map]
    rfl
  · rw [List.map_map, List.map_map, ← List.map_tail, List.zip_map]
    rfl
  · rw [List.map_map]
    exact (List.pairwise_map.mpr hrun.ascending).imp Nat.ne_of_lt
  · -- An edge leads from an identifier to a later one.
    have hedge : ∀ a b, (⟨a, b⟩ : ChainEdge) ∈ (steps.zip steps.tail).map
        (fun pair => { sourceId := pair.1.id, targetId := pair.2.id }) → a < b := by
      intro a b hab
      obtain ⟨pair, hpair, heq⟩ := List.mem_map.mp hab
      cases heq
      exact rel_of_mem_zip_tail hrun.ascending hpair
    have hway : ∀ a b, Relation.TransGen (fun a b => (⟨a, b⟩ : ChainEdge) ∈ (steps.zip steps.tail).map
        (fun pair => { sourceId := pair.1.id, targetId := pair.2.id })) a b → a < b := by
      intro a b hab
      induction hab with
      | single hab => exact hedge _ _ hab
      | tail _ hbc ih => exact ih.trans (hedge _ _ hbc)
    exact fun a ha => Nat.lt_irrefl a (hway a a ha)

end Run

end Tmis.AiGovernance.Reasoning
