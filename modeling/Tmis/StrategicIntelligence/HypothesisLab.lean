import Tmis.Lib.Calls
import Tmis.Lib.Dict
import Tmis.Lib.Run

/-!
# The hypothesis lab

`strategic_intelligence.hypothesis_lab`: hypotheses of a case, each with a status that changes by the transitions that
are allowed.  A merge makes a new hypothesis, and then takes its parents to `MERGED`, one after the other.

* `create`, `transition`, `merge`, `invalidate`, `support`, `archive` — `HypothesisLabEngine`;
* `merge_cases` — what a merge can do: it also may raise when its new hypothesis is there already;
* `Kept` — what no call changes of the hypotheses there are;
* `merge_all_or_nothing` — where the parents can be merged, a merge is all or nothing, and no hypothesis is merged
  twice.
-/

namespace Tmis.StrategicIntelligence

open Tmis.Lib

inductive HypothesisStatus where
  | proposed | supported | merged | invalidated | archived
  deriving DecidableEq

namespace HypothesisStatus

def value : HypothesisStatus → String
  | proposed => "proposed"
  | supported => "supported"
  | merged => "merged"
  | invalidated => "invalidated"
  | archived => "archived"

/-- `ALLOWED_TRANSITIONS`. -/
def allowedTransitions : HypothesisStatus → List HypothesisStatus
  | proposed => [supported, merged, invalidated, archived]
  | supported => [merged, invalidated, archived]
  | merged => [archived]
  | invalidated => [archived]
  | archived => []

/-- Merged, and perhaps archived since. -/
def Settled (status : HypothesisStatus) : Prop := status = merged ∨ status = archived

instance : DecidablePred Settled := fun status => inferInstanceAs (Decidable (status = merged ∨ status = archived))

/-- What is merged stays so. -/
lemma Settled.of_transition {status status' : HypothesisStatus} (h : status.Settled)
    (hallowed : status' ∈ status.allowedTransitions) : status'.Settled := by
  rcases h with rfl | rfl
  · exact Or.inr (List.mem_singleton.mp hallowed)
  · exact absurd hallowed List.not_mem_nil

/-- What is merged is not merged again. -/
lemma Settled.not_merged {status : HypothesisStatus} (h : status.Settled) : merged ∉ status.allowedTransitions := by
  rcases h with rfl | rfl <;> decide

end HypothesisStatus

structure StrategicHypothesis where
  id : Uuid
  caseId : String
  description : String
  status : HypothesisStatus := .proposed
  parentIds : List Uuid := []
  deriving DecidableEq

structure HypothesisEvent where
  id : Uuid
  firmId : String
  hypothesisId : Uuid
  fromStatus : HypothesisStatus
  toStatus : HypothesisStatus
  actor : String
  reason : Option String
  deriving DecidableEq

/-- The engine with its store; `uuids` counts the identifiers drawn so far. -/
structure HypothesisLab where
  hypotheses : Dict (String × Uuid) StrategicHypothesis := ∅
  events : List HypothesisEvent := []
  uuids : ℕ := 0

/-- The text of a hypothesis' identifier. -/
def hypothesisIdText (id : Uuid) : String := "hyp-" ++ toString id

def invalidHypothesisTransitionError (fromStatus toStatus : HypothesisStatus) : PyException :=
  ⟨"InvalidHypothesisTransitionError", "Cannot transition from " ++ fromStatus.value ++ " to " ++ toStatus.value⟩

namespace HypothesisLab

/-- `create`. -/
def create (s : HypothesisLab) (firmId caseId description : String) (parentIds : List Uuid) :
    StrategicHypothesis × HypothesisLab :=
  let hypothesis : StrategicHypothesis := { id := s.uuids, caseId, description, parentIds }
  (hypothesis, { s with hypotheses := s.hypotheses.set (firmId, s.uuids) hypothesis, uuids := s.uuids + 1 })

/-- `get`. -/
def get (s : HypothesisLab) (firmId : String) (hypothesisId : Uuid) : Except PyException StrategicHypothesis :=
  match s.hypotheses.get (firmId, hypothesisId) with
  | none => .error (keyError (hypothesisIdText hypothesisId))
  | some hypothesis => .ok hypothesis

/-- `get` and then `_transition`: the hypothesis that is passed on is the one in the store, as it is by then. -/
def transition (s : HypothesisLab) (firmId : String) (hypothesisId : Uuid) (toStatus : HypothesisStatus)
    (actor : String) (reason : Option String) : Except PyException HypothesisLab := do
  let hypothesis ← s.get firmId hypothesisId
  if toStatus ∈ hypothesis.status.allowedTransitions then
    return {
      hypotheses := s.hypotheses.set (firmId, hypothesisId) { hypothesis with status := toStatus }
      events := s.events ++ [{
        id := s.uuids, firmId, hypothesisId, fromStatus := hypothesis.status, toStatus, actor, reason }]
      uuids := s.uuids + 1 }
  else .error (invalidHypothesisTransitionError hypothesis.status toStatus)

/-- `merged_description or f"{a.description} / {b.description}"`. -/
def mergedText (mergedDescription : Option String) (a b : StrategicHypothesis) : String :=
  match mergedDescription with
  | some text => if text = "" then a.description ++ " / " ++ b.description else text
  | none => a.description ++ " / " ++ b.description

/-- `merge`, with the lab as it is when the call returns or raises. -/
def merge (s : HypothesisLab) (firmId : String) (hypothesisAId hypothesisBId : Uuid) (actor : String)
    (mergedDescription : Option String) : Except PyException StrategicHypothesis × HypothesisLab :=
  match s.get firmId hypothesisAId with
  | .error e => (.error e, s)
  | .ok a =>
    match s.get firmId hypothesisBId with
    | .error e => (.error e, s)
    | .ok b =>
      let (merged, s) :=
        s.create firmId a.caseId (mergedText mergedDescription a b) [hypothesisAId, hypothesisBId]
      match s.transition firmId hypothesisAId .merged actor (some "Fusionnée") with
      | .error e => (.error e, s)
      | .ok s =>
        match s.transition firmId hypothesisBId .merged actor (some "Fusionnée") with
        | .error e => (.error e, s)
        | .ok s => (.ok merged, s)

def invalidate (s : HypothesisLab) (firmId : String) (hypothesisId : Uuid) (actor reason : String) :
    Except PyException HypothesisLab :=
  s.transition firmId hypothesisId .invalidated actor (some reason)

def support (s : HypothesisLab) (firmId : String) (hypothesisId : Uuid) (actor : String) :
    Except PyException HypothesisLab :=
  s.transition firmId hypothesisId .supported actor (some "Élément de soutien ajouté")

def archive (s : HypothesisLab) (firmId : String) (hypothesisId : Uuid) (actor : String) (reason : Option String) :
    Except PyException HypothesisLab :=
  s.transition firmId hypothesisId .archived actor reason

end HypothesisLab

/-- The calls that change the lab. -/
inductive LabCall where
  | create (firmId caseId description : String) (parentIds : List Uuid)
  | merge (firmId : String) (hypothesisAId hypothesisBId : Uuid) (actor : String) (mergedDescription : Option String)
  | invalidate (firmId : String) (hypothesisId : Uuid) (actor reason : String)
  | support (firmId : String) (hypothesisId : Uuid) (actor : String)
  | archive (firmId : String) (hypothesisId : Uuid) (actor : String) (reason : Option String)

namespace HypothesisLab

/-- The lab after a call. -/
def step (s : HypothesisLab) : LabCall → HypothesisLab
  | .create firmId caseId description parentIds => (s.create firmId caseId description parentIds).2
  | .merge firmId a b actor mergedDescription => (s.merge firmId a b actor mergedDescription).2
  | .invalidate firmId id actor reason => afterCall s (s.invalidate firmId id actor reason)
  | .support firmId id actor => afterCall s (s.support firmId id actor)
  | .archive firmId id actor reason => afterCall s (s.archive firmId id actor reason)

/-! ### One call -/

section Calls

variable {s s' : HypothesisLab} {firmId actor : String} {a b id : Uuid} {reason mergedDescription : Option String}
  {toStatus : HypothesisStatus}

/-- Only identifiers that have been drawn are in use. -/
def Fresh (s : HypothesisLab) : Prop := ∀ key, s.hypotheses.get key ≠ none → key.2 < s.uuids

/-- The hypotheses that are there stay, with their parents; and what is merged stays so. -/
def Kept (s s' : HypothesisLab) : Prop :=
  ∀ key h, s.hypotheses.get key = some h → ∃ h', s'.hypotheses.get key = some h' ∧ h'.parentIds = h.parentIds ∧
    (h.status.Settled → h'.status.Settled)

lemma Kept.refl (s : HypothesisLab) : s.Kept s := fun _ h hget => ⟨h, hget, rfl, fun hsettled => hsettled⟩

lemma Kept.trans {s₁ s₂ s₃ : HypothesisLab} (h₁ : s₁.Kept s₂) (h₂ : s₂.Kept s₃) : s₁.Kept s₃ := by
  intro key h hget
  obtain ⟨h', hget', hparents', hsettled'⟩ := h₁ key h hget
  obtain ⟨h'', hget'', hparents'', hsettled''⟩ := h₂ key h' hget'
  exact ⟨h'', hget'', hparents''.trans hparents', fun hsettled => hsettled'' (hsettled' hsettled)⟩

lemma get_eq_ok {h : StrategicHypothesis} : s.get firmId id = .ok h ↔ s.hypotheses.get (firmId, id) = some h := by
  unfold get
  cases s.hypotheses.get (firmId, id) <;> simp

/-- What a transition does. -/
lemma transition_eq_ok (h : s.transition firmId id toStatus actor reason = .ok s') :
    ∃ hypothesis, s.hypotheses.get (firmId, id) = some hypothesis ∧ toStatus ∈ hypothesis.status.allowedTransitions ∧
      s'.hypotheses = s.hypotheses.set (firmId, id) { hypothesis with status := toStatus } ∧
      s'.uuids = s.uuids + 1 := by
  obtain ⟨hypothesis, hget, h⟩ := bind_eq_ok.mp h
  split_ifs at h with hallowed
  obtain rfl := Except.ok.inj h
  exact ⟨hypothesis, get_eq_ok.mp hget, hallowed, rfl, rfl⟩

lemma transition_of_allowed {hypothesis : StrategicHypothesis} (actor : String) (reason : Option String)
    (hget : s.hypotheses.get (firmId, id) = some hypothesis)
    (hallowed : toStatus ∈ hypothesis.status.allowedTransitions) :
    ∃ s', s.transition firmId id toStatus actor reason = .ok s' := by
  rw [transition, get_eq_ok.mpr hget]
  exact ⟨_, if_pos hallowed⟩

lemma transition_of_not_allowed {hypothesis : StrategicHypothesis}
    (hget : s.hypotheses.get (firmId, id) = some hypothesis) (hallowed : toStatus ∉ hypothesis.status.allowedTransitions) :
    s.transition firmId id toStatus actor reason =
      .error (invalidHypothesisTransitionError hypothesis.status toStatus) := by
  rw [transition, get_eq_ok.mpr hget]
  exact if_neg hallowed

lemma kept_create (hs : s.Fresh) (firmId caseId description : String) (parentIds : List Uuid) :
    (s.create firmId caseId description parentIds).2.Fresh ∧
      s.Kept (s.create firmId caseId description parentIds).2 := by
  constructor
  · intro key hkey
    rw [create, Dict.get_set] at hkey
    show key.2 < s.uuids + 1
    split_ifs at hkey with hnew
    · rw [hnew]
      exact Nat.lt_succ_self _
    · exact Nat.lt_succ_of_lt (hs key hkey)
  · intro key h hget
    have hne : key ≠ (firmId, s.uuids) := by
      rintro rfl
      exact lt_irrefl _ (hs _ (hget ▸ Option.some_ne_none h))
    exact ⟨h, (Dict.get_set_of_ne _ _ hne).trans hget, rfl, fun hsettled => hsettled⟩

lemma kept_transition (hs : s.Fresh) (h : s.transition firmId id toStatus actor reason = .ok s') :
    s'.Fresh ∧ s.Kept s' := by
  obtain ⟨hypothesis, hget, hallowed, hset, huuids⟩ := transition_eq_ok h
  constructor
  · intro key hkey
    rw [huuids]
    rw [hset, Dict.get_set] at hkey
    split_ifs at hkey with hsame
    · rw [hsame]
      exact Nat.lt_succ_of_lt (hs _ (hget ▸ Option.some_ne_none hypothesis))
    · exact Nat.lt_succ_of_lt (hs key hkey)
  · intro key h hkey
    rw [hset]
    by_cases hsame : key = (firmId, id)
    · subst hsame
      rw [hget] at hkey
      obtain rfl := Option.some.inj hkey
      exact ⟨_, Dict.get_set_self .., rfl, fun hsettled => hsettled.of_transition hallowed⟩
    · exact ⟨h, (Dict.get_set_of_ne _ _ hsame).trans hkey, rfl, fun hsettled => hsettled⟩

/-! ### A merge -/

/-- A merge that is all or nothing: an id is not known, or there are two hypotheses that can be merged. -/
def Mergeable (s : HypothesisLab) (firmId : String) (a b : Uuid) : Prop :=
  s.hypotheses.get (firmId, a) = none ∨ s.hypotheses.get (firmId, b) = none ∨
    (a ≠ b ∧ ∀ id ∈ [a, b], ∀ h ∈ s.hypotheses.get (firmId, id), h.status = .proposed ∨ h.status = .supported)

lemma merged_mem_iff {status : HypothesisStatus} :
    HypothesisStatus.merged ∈ status.allowedTransitions ↔ status = .proposed ∨ status = .supported := by
  cases status <;> decide

/-- The hypothesis is merged, and perhaps archived since. -/
def SettledAt (s : HypothesisLab) (firmId : String) (id : Uuid) : Prop :=
  ∃ h, s.hypotheses.get (firmId, id) = some h ∧ h.status.Settled

lemma SettledAt.of_kept (hkept : s.Kept s') (h : s.SettledAt firmId id) : s'.SettledAt firmId id := by
  obtain ⟨h, hget, hsettled⟩ := h
  obtain ⟨h', hget', -, hsettled'⟩ := hkept _ h hget
  exact ⟨h', hget', hsettled' hsettled⟩

/-- What is settled when a merge begins is not merged by it. -/
lemma SettledAt.not_mergeable (h : s.SettledAt firmId id) (hid : id ∈ [a, b])
    (ha : s.hypotheses.get (firmId, a) ≠ none) (hb : s.hypotheses.get (firmId, b) ≠ none) :
    ¬ s.Mergeable firmId a b := by
  obtain ⟨h, hget, hsettled⟩ := h
  rintro (hnone | hnone | ⟨-, hopen⟩)
  · exact ha hnone
  · exact hb hnone
  · exact hsettled.not_merged (merged_mem_iff.mpr (hopen id hid h hget))

/-- The two transitions at the end of a merge. -/
def mergeParents (created : StrategicHypothesis × HypothesisLab) (firmId : String) (a b : Uuid) (actor : String) :
    Except PyException StrategicHypothesis × HypothesisLab :=
  match created.2.transition firmId a .merged actor (some "Fusionnée") with
  | .error e => (.error e, created.2)
  | .ok s =>
    match s.transition firmId b .merged actor (some "Fusionnée") with
    | .error e => (.error e, s)
    | .ok s => (.ok created.1, s)

lemma mergeParents_cases {created : StrategicHypothesis × HypothesisLab} {x y : StrategicHypothesis}
    (hfresh : created.2.Fresh) (ha : created.2.hypotheses.get (firmId, a) = some x)
    (hb : created.2.hypotheses.get (firmId, b) = some y) (actor : String) :
    (∃ e s', mergeParents created firmId a b actor = (.error e, s') ∧ s'.Fresh ∧ created.2.Kept s' ∧
      ¬ (a ≠ b ∧ .merged ∈ x.status.allowedTransitions ∧ .merged ∈ y.status.allowedTransitions)) ∨
    ∃ s', mergeParents created firmId a b actor = (.ok created.1, s') ∧ s'.Fresh ∧ created.2.Kept s' ∧
      (a ≠ b ∧ .merged ∈ x.status.allowedTransitions ∧ .merged ∈ y.status.allowedTransitions) ∧
      (∀ id ∈ [a, b], s'.SettledAt firmId id) ∧
      ∀ key, created.2.hypotheses.get key = none → s'.hypotheses.get key = none := by
  by_cases hx : HypothesisStatus.merged ∈ x.status.allowedTransitions
  · obtain ⟨s₁, hs₁⟩ := transition_of_allowed actor (some "Fusionnée") ha hx
    obtain ⟨hfresh₁, hkept₁⟩ := kept_transition hfresh hs₁
    obtain ⟨x', hx', -, hset₁, -⟩ := transition_eq_ok hs₁
    have hsettled₁ : s₁.SettledAt firmId a :=
      ⟨_, by rw [hset₁]; exact Dict.get_set_self .., Or.inl rfl⟩
    by_cases hab : a = b
    · -- The first transition has taken the second parent away.
      obtain ⟨h, hget, hsettled⟩ := hab ▸ hsettled₁
      refine Or.inl ⟨invalidHypothesisTransitionError h.status .merged, s₁, ?_, hfresh₁, hkept₁, fun hall => hall.1 hab⟩
      rw [mergeParents, hs₁]
      dsimp only
      rw [transition_of_not_allowed hget hsettled.not_merged]
    · have hb₁ : s₁.hypotheses.get (firmId, b) = some y := by
        rw [hset₁, Dict.get_set_of_ne _ _ fun heq => hab (congrArg Prod.snd heq).symm, hb]
      by_cases hy : HypothesisStatus.merged ∈ y.status.allowedTransitions
      · obtain ⟨s₂, hs₂⟩ := transition_of_allowed actor (some "Fusionnée") hb₁ hy
        obtain ⟨hfresh₂, hkept₂⟩ := kept_transition hfresh₁ hs₂
        obtain ⟨y', hy', -, hset₂, -⟩ := transition_eq_ok hs₂
        have hsettled₂ : s₂.SettledAt firmId b :=
          ⟨_, by rw [hset₂]; exact Dict.get_set_self .., Or.inl rfl⟩
        refine Or.inr ⟨s₂, ?_, hfresh₂, hkept₁.trans hkept₂, ⟨hab, hx, hy⟩, ?_, ?_⟩
        · rw [mergeParents, hs₁]
          dsimp only
          rw [hs₂]
        · intro id hid
          rcases List.mem_cons.mp hid with rfl | hid
          · exact hsettled₁.of_kept hkept₂
          · rw [List.mem_singleton.mp hid]
            exact hsettled₂
        · intro key hnone
          have hne₁ : key ≠ (firmId, a) := by
            rintro rfl
            rw [ha] at hnone
            cases hnone
          have hne₂ : key ≠ (firmId, b) := by
            rintro rfl
            rw [hb] at hnone
            cases hnone
          rw [hset₂, Dict.get_set_of_ne _ _ hne₂, hset₁, Dict.get_set_of_ne _ _ hne₁, hnone]
      · refine Or.inl ⟨invalidHypothesisTransitionError y.status .merged, s₁, ?_, hfresh₁, hkept₁, fun hall =>
          hy hall.2.2⟩
        rw [mergeParents, hs₁]
        dsimp only
        rw [transition_of_not_allowed hb₁ hy]
  · refine Or.inl ⟨invalidHypothesisTransitionError x.status .merged, created.2, ?_, hfresh, Kept.refl _, fun hall =>
      hx hall.2.1⟩
    rw [mergeParents, transition_of_not_allowed ha hx]

/-- What a merge that returns has done, from `s` to `s'`. -/
structure MergedFrom (s s' : HypothesisLab) (firmId : String) (a b : Uuid) : Prop where
  known : s.hypotheses.get (firmId, a) ≠ none ∧ s.hypotheses.get (firmId, b) ≠ none
  child : ∃ h, s'.hypotheses.get (firmId, s.uuids) = some h ∧ h.parentIds = [a, b]
  others : ∀ key, key ≠ (firmId, s.uuids) → s.hypotheses.get key = none → s'.hypotheses.get key = none
  parents : ∀ id ∈ [a, b], s'.SettledAt firmId id

/-- **What a merge can do**: an id is not known, and nothing happens; or it raises, and its new hypothesis is there; or
it returns. -/
theorem merge_cases (hs : s.Fresh) (firmId : String) (a b : Uuid) (actor : String) (mergedDescription : Option String) :
    (∃ e, s.merge firmId a b actor mergedDescription = (.error e, s) ∧ s.Mergeable firmId a b) ∨
    (∃ e s', s.merge firmId a b actor mergedDescription = (.error e, s') ∧ s'.Fresh ∧ s.Kept s' ∧
      ¬ s.Mergeable firmId a b ∧ s'.hypotheses ≠ s.hypotheses) ∨
    ∃ merged s', s.merge firmId a b actor mergedDescription = (.ok merged, s') ∧ s'.Fresh ∧ s.Kept s' ∧
      s.Mergeable firmId a b ∧ s.MergedFrom s' firmId a b := by
  cases ha : s.hypotheses.get (firmId, a) with
  | none =>
    refine Or.inl ⟨keyError (hypothesisIdText a), ?_, Or.inl ha⟩
    rw [merge, get, ha]
  | some x =>
  cases hb : s.hypotheses.get (firmId, b) with
  | none =>
    refine Or.inl ⟨keyError (hypothesisIdText b), ?_, Or.inr (Or.inl hb)⟩
    rw [merge, get_eq_ok.mpr ha]
    dsimp only
    rw [get, hb]
  | some y =>
  -- Both are there, and so the new hypothesis comes first.
  have hmerge : s.merge firmId a b actor mergedDescription =
      mergeParents (s.create firmId x.caseId (mergedText mergedDescription x y) [a, b]) firmId a b actor := by
    rw [merge, get_eq_ok.mpr ha]
    dsimp only
    rw [get_eq_ok.mpr hb]
    rfl
  have hmergeable : s.Mergeable firmId a b ↔
      a ≠ b ∧ .merged ∈ x.status.allowedTransitions ∧ .merged ∈ y.status.allowedTransitions := by
    simp [Mergeable, ha, hb, merged_mem_iff]
  have hne : ∀ id h, s.hypotheses.get (firmId, id) = some h → (firmId, id) ≠ (firmId, s.uuids) := by
    rintro id h hget heq
    exact (hs _ (hget ▸ Option.some_ne_none h)).ne (congrArg Prod.snd heq)
  have hnew : s.hypotheses.get (firmId, s.uuids) = none := by
    cases hget : s.hypotheses.get (firmId, s.uuids) with
    | none => rfl
    | some h => exact absurd rfl (hne _ _ hget)
  obtain ⟨hfresh₀, hkept₀⟩ := kept_create hs firmId x.caseId (mergedText mergedDescription x y) [a, b]
  have ha₀ := (Dict.get_set_of_ne s.hypotheses (s.create firmId x.caseId (mergedText mergedDescription x y) [a, b]).1
    (hne a x ha)).trans ha
  have hb₀ := (Dict.get_set_of_ne s.hypotheses (s.create firmId x.caseId (mergedText mergedDescription x y) [a, b]).1
    (hne b y hb)).trans hb
  rw [hmerge, hmergeable]
  rcases mergeParents_cases hfresh₀ ha₀ hb₀ actor with ⟨e, s', heq, hfresh, hkept, hnot⟩ |
    ⟨s', heq, hfresh, hkept, hall, hparents, hothers⟩
  · refine Or.inr (Or.inl ⟨e, s', heq, hfresh, hkept₀.trans hkept, hnot, fun hsame => ?_⟩)
    obtain ⟨h, hget, -⟩ := hkept _ _ (Dict.get_set_self ..)
    rw [hsame, hnew] at hget
    cases hget
  · refine Or.inr (Or.inr ⟨_, s', heq, hfresh, hkept₀.trans hkept, hall, ?_, ?_, ?_, hparents⟩)
    · exact ⟨ha ▸ Option.some_ne_none x, hb ▸ Option.some_ne_none y⟩
    · obtain ⟨h, hget, hids, -⟩ := hkept _ _ (Dict.get_set_self ..)
      exact ⟨h, hget, hids⟩
    · intro key hkey hnone
      exact hothers key ((Dict.get_set_of_ne _ _ hkey).trans hnone)

end Calls

/-! ### Runs -/

/-- A merge that raises leaves the hypotheses and the events. -/
def AllOrNothing (s : HypothesisLab) : LabCall → Prop
  | .merge firmId a b actor mergedDescription =>
    AtomicOn (fun s => (s.hypotheses, s.events)) s (s.merge firmId a b actor mergedDescription)
  | _ => True

/-- The merges of a run that are all or nothing. -/
def Mergeables (s : HypothesisLab) : LabCall → Prop
  | .merge firmId a b _ _ => s.Mergeable firmId a b
  | _ => True

/-- A merge of the run has made the hypothesis, of these parents. -/
def CreatedByMerge (calls : List LabCall) (firmId : String) (id : Uuid) (parents : List Uuid) : Prop :=
  ∃ before a b actor mergedDescription after, calls = before ++ .merge firmId a b actor mergedDescription :: after ∧
    parents = [a, b] ∧ (run step {} before).hypotheses.get (firmId, id) = none ∧
    (step (run step {} before) (.merge firmId a b actor mergedDescription)).hypotheses.get (firmId, id) ≠ none

section Runs

variable {s : HypothesisLab} {calls : List LabCall}

lemma fresh_empty : ({} : HypothesisLab).Fresh := fun _ hkey => absurd rfl hkey

lemma kept_afterCall (hs : s.Fresh) {call : Except PyException HypothesisLab}
    (hcall : ∀ s', call = .ok s' → s'.Fresh ∧ s.Kept s') : (afterCall s call).Fresh ∧ s.Kept (afterCall s call) := by
  cases call with
  | error e => exact ⟨hs, Kept.refl s⟩
  | ok s' => exact hcall s' rfl

lemma kept_step (hs : s.Fresh) (call : LabCall) : (s.step call).Fresh ∧ s.Kept (s.step call) := by
  cases call with
  | create firmId caseId description parentIds => exact kept_create hs ..
  | merge firmId a b actor mergedDescription =>
    rw [step]
    rcases merge_cases hs firmId a b actor mergedDescription with ⟨e, heq, -⟩ | ⟨e, s', heq, hfresh, hkept, -⟩ |
      ⟨merged, s', heq, hfresh, hkept, -⟩
    · rw [heq]
      exact ⟨hs, Kept.refl s⟩
    · rw [heq]
      exact ⟨hfresh, hkept⟩
    · rw [heq]
      exact ⟨hfresh, hkept⟩
  | invalidate firmId id actor reason => exact kept_afterCall hs fun s' => kept_transition hs
  | support firmId id actor => exact kept_afterCall hs fun s' => kept_transition hs
  | archive firmId id actor reason => exact kept_afterCall hs fun s' => kept_transition hs

lemma kept_run (hs : s.Fresh) (calls : List LabCall) : (run step s calls).Fresh ∧ s.Kept (run step s calls) := by
  induction calls generalizing s with
  | nil => exact ⟨hs, Kept.refl s⟩
  | cons call calls ih =>
    obtain ⟨hfresh, hkept⟩ := kept_step hs call
    obtain ⟨hfresh', hkept'⟩ := ih hfresh
    exact ⟨hfresh', hkept.trans hkept'⟩

/-- A merge is all or nothing iff it may be made. -/
lemma allOrNothing_iff (hs : s.Fresh) (call : LabCall) : s.AllOrNothing call ↔ s.Mergeables call := by
  cases call with
  | merge firmId a b actor mergedDescription =>
    rw [AllOrNothing, Mergeables]
    rcases merge_cases hs firmId a b actor mergedDescription with ⟨e, heq, hmergeable⟩ |
      ⟨e, s', heq, -, -, hnot, hne⟩ | ⟨merged, s', heq, -, -, hmergeable, -⟩
    · rw [heq, atomicOn_error_iff]
      exact iff_of_true rfl hmergeable
    · rw [heq, atomicOn_error_iff]
      exact iff_of_false (fun hsame => hne (congrArg Prod.fst hsame)) hnot
    · rw [heq]
      exact iff_of_true (atomicOn_ok merged) hmergeable
  | create | invalidate | support | archive => exact Iff.rfl

/-- What is made by a merge of such a run, is made by one that returns. -/
lemma CreatedByMerge.merged (h : Along step Mergeables {} calls) {firmId : String} {id : Uuid} {parents : List Uuid}
    (hcreated : CreatedByMerge calls firmId id parents) :
    ∃ before a b actor mergedDescription after, calls = before ++ .merge firmId a b actor mergedDescription :: after ∧
      parents = [a, b] ∧ id = (run step {} before).uuids ∧ (run step {} before).Mergeable firmId a b ∧
      (run step {} before).MergedFrom
        (step (run step {} before) (.merge firmId a b actor mergedDescription)) firmId a b := by
  obtain ⟨before, a, b, actor, mergedDescription, after, rfl, hparents, hnone, hsome⟩ := hcreated
  have hmergeable : (run step {} before).Mergeable firmId a b := (along_iff _ _).mp h before _ after rfl
  refine ⟨before, a, b, actor, mergedDescription, after, rfl, hparents, ?_⟩
  rw [step] at hsome ⊢
  rcases merge_cases (kept_run fresh_empty before).1 firmId a b actor mergedDescription with ⟨e, heq, -⟩ |
    ⟨e, s', -, -, -, hnot, -⟩ | ⟨merged, s', heq, -, -, -, hmerged⟩
  · rw [heq] at hsome
    exact absurd hnone hsome
  · exact absurd hmergeable hnot
  · rw [heq] at hsome ⊢
    refine ⟨?_, hmergeable, hmerged⟩
    by_contra hne
    exact hsome (hmerged.others _ (fun heq => hne (congrArg Prod.snd heq)) hnone)

/-- A hypothesis that has been merged is not merged again later in the run. -/
lemma not_merged_twice {before mid : List LabCall} {call : LabCall} {firmId : String} {a b a' b' p : Uuid}
    (hmerged : (run step {} before).MergedFrom (step (run step {} before) call) firmId a b)
    (hp : p ∈ [a, b]) (hp' : p ∈ [a', b']) (hmergeable : (run step {} (before ++ call :: mid)).Mergeable firmId a' b')
    (ha : (run step {} (before ++ call :: mid)).hypotheses.get (firmId, a') ≠ none)
    (hb : (run step {} (before ++ call :: mid)).hypotheses.get (firmId, b') ≠ none) : False := by
  have hfresh := (kept_run (kept_run fresh_empty before).1 [call]).1
  have hsettled := (hmerged.parents p hp).of_kept (kept_run hfresh mid).2
  rw [run_append, run_cons] at hmergeable ha hb
  exact hsettled.not_mergeable hp' ha hb hmergeable

/-- **All or nothing**: the merges of a run that raise leave the hypotheses and the events, if and only if each merge is
of an id that is not known, or of two different hypotheses that are proposed or supported.  In such a run, the parents
of a hypothesis that a merge has made are merged, and perhaps archived since; and a hypothesis is a parent of one of
them at most. -/
theorem merge_all_or_nothing (calls : List LabCall) :
    (Along step AllOrNothing {} calls ↔ Along step Mergeables {} calls) ∧
    (Along step Mergeables {} calls →
      (∀ firmId id parents, CreatedByMerge calls firmId id parents →
        (∃ h, (run step {} calls).hypotheses.get (firmId, id) = some h ∧ h.parentIds = parents) ∧
          ∀ p ∈ parents, (run step {} calls).SettledAt firmId p) ∧
      ∀ firmId id id' parents parents' p, CreatedByMerge calls firmId id parents →
        CreatedByMerge calls firmId id' parents' → p ∈ parents → p ∈ parents' → id = id') := by
  refine ⟨along_congr fresh_empty (fun s call hs _ => (kept_step hs call).1) fun s call hs => allOrNothing_iff hs call,
    fun h => ⟨?_, ?_⟩⟩
  · intro firmId id parents hcreated
    obtain ⟨before, a, b, actor, mergedDescription, after, rfl, rfl, rfl, -, hmerged⟩ := hcreated.merged h
    have hkept := (kept_run (kept_step (kept_run fresh_empty before).1
      (.merge firmId a b actor mergedDescription)).1 after).2
    rw [run_append, run_cons]
    obtain ⟨child, hget, hids⟩ := hmerged.child
    obtain ⟨child', hget', hids', -⟩ := hkept _ child hget
    exact ⟨⟨child', hget', hids'.trans hids⟩, fun p hp => (hmerged.parents p hp).of_kept hkept⟩
  · intro firmId id id' parents parents' p hcreated hcreated' hp hp'
    obtain ⟨before, a, b, actor, mergedDescription, after, hsplit, rfl, rfl, hmergeable, hmerged⟩ := hcreated.merged h
    obtain ⟨before', a', b', actor', mergedDescription', after', hsplit', rfl, rfl, hmergeable', hmerged'⟩ :=
      hcreated'.merged h
    rw [hsplit] at hsplit'
    -- One of the two merges is the other one, or comes later.
    rcases List.append_eq_append_iff.mp hsplit' with ⟨mid, rfl, hmid⟩ | ⟨mid, rfl, hmid⟩
    · cases mid with
      | nil => rw [List.append_nil]
      | cons call mid =>
        obtain ⟨rfl, -⟩ := List.cons.inj hmid
        exact (not_merged_twice hmerged hp hp' hmergeable' hmerged'.known.1 hmerged'.known.2).elim
    · cases mid with
      | nil => rw [List.append_nil]
      | cons call mid =>
        obtain ⟨rfl, -⟩ := List.cons.inj hmid
        exact (not_merged_twice hmerged' hp' hp hmergeable hmerged.known.1 hmerged.known.2).elim

/-- A merge with a hypothesis that has been invalidated raises, and its hypothesis has been made: the other parent is
merged, the invalidated one is not. -/
theorem merge_of_invalidated :
    ∃ calls call e, call = .merge "firm" 0 1 "avocat-1" none ∧
      (merge (run step {} calls) "firm" 0 1 "avocat-1" none).1 = .error e ∧
      (run step {} calls).hypotheses.get ("firm", 3) = none ∧
      (step (run step {} calls) call).hypotheses.get ("firm", 3) =
        some { id := 3, caseId := "case", description := "A / B", parentIds := [0, 1] } ∧
      (step (run step {} calls) call).hypotheses.get ("firm", 1) =
        some { id := 1, caseId := "case", description := "B", status := .invalidated } :=
  ⟨[.create "firm" "case" "A" [], .create "firm" "case" "B" [], .invalidate "firm" 1 "avocat-1" "Non corroborée"],
    _, invalidHypothesisTransitionError .invalidated .merged, rfl, by decide +kernel, by decide +kernel,
    by decide +kernel, by decide +kernel⟩

end Runs

end HypothesisLab

end Tmis.StrategicIntelligence
