import Mathlib.Algebra.BigOperators.Group.List.Basic
import Mathlib.Data.Rat.Floor
import Tmis.Lib.Dict
import Tmis.Lib.Run
import Tmis.Lib.Timedelta

/-!
# Control of costs

`platform.cost_control`: the cost of each call of a model is recorded under a firm and a user, and alert
thresholds are set for firms and for users.  The thresholds of a firm are checked with those of all users,
and a user's costs are taken from all firms.  Costs are exact where `float` would round.

* `CostTracker`, `record`, `setAlertThreshold`, `checkThresholds` — the engine and its stores;
* `Op`, `after` — histories;
* `Agree` — two states with the same costs of a firm and the same thresholds of it and its users;
* `Allowed` — a history sets thresholds for some users, and records costs of users under some firms;
* `alerts_isolated_iff` — the alerts of a firm depend on its own costs and thresholds iff the users who have
  thresholds are its own, and have costs under no other firm.
-/

namespace Tmis.Platform.CostControl

open Tmis.Lib

/-- `round(q, digits)`: a tie goes to the even digit. -/
def roundTo (q : ℚ) (digits : ℕ) : ℚ :=
  let n := ⌊q * 10 ^ digits⌋
  let rest := q * 10 ^ digits - n
  let n := if 1 / 2 < rest ∨ (rest = 1 / 2 ∧ n % 2 = 1) then n + 1 else n
  n / 10 ^ digits

/-- `_COST_PER_1K_TOKENS_USD.get(provider, _DEFAULT_COST_PER_1K_TOKENS_USD)`. -/
def costPer1kTokensUsd (provider : String) : ℚ :=
  if provider = "openai" then 5 / 1000
  else if provider = "anthropic" then 6 / 1000
  else if provider = "mistral" then 2 / 1000
  else if provider = "local" then 0
  else 5 / 1000

/-- `estimate_cost(provider, token_count)`. -/
def estimateCost (provider : String) (tokenCount : ℤ) : ℚ :=
  roundTo (tokenCount / 1000 * costPer1kTokensUsd provider) 6

structure CostEntry where
  id : String
  firmId : String
  userId : String
  caseId : Option String
  workflowId : Option String
  provider : String
  model : String
  tokenCount : ℤ
  costUsd : ℚ
  cacheHit : Bool
  recordedAt : ℤ
  deriving DecidableEq

structure AlertThreshold where
  scope : String
  scopeId : String
  maxCostUsd : ℚ
  periodDays : ℤ := 30
  deriving DecidableEq

structure CostBreach where
  threshold : AlertThreshold
  currentCostUsd : ℚ
  checkedAt : ℤ
  deriving DecidableEq

/-- The engine with its two stores. -/
structure CostTracker where
  entries : List CostEntry := []
  thresholds : Dict (String × String) AlertThreshold := ∅

namespace CostTracker

def listForFirm (tracker : CostTracker) (firmId : String) : List CostEntry :=
  tracker.entries.filter fun e => e.firmId = firmId

def listForUser (tracker : CostTracker) (userId : String) : List CostEntry :=
  tracker.entries.filter fun e => e.userId = userId

/-- `set_alert_threshold`. -/
def setAlertThreshold (tracker : CostTracker) (threshold : AlertThreshold) : CostTracker :=
  { tracker with thresholds := tracker.thresholds.set (threshold.scope, threshold.scopeId) threshold }

/-- The entries that a threshold is about, if it is looked at for the firm. -/
def entriesFor (tracker : CostTracker) (firmId : String) (threshold : AlertThreshold) : Option (List CostEntry) :=
  if threshold.scope = "firm" ∧ threshold.scopeId = firmId then some (tracker.listForFirm firmId)
  else if threshold.scope = "user" then some (tracker.listForUser threshold.scopeId)
  else none

/-- The loop of `check_thresholds`. -/
def check (tracker : CostTracker) (firmId : String) (now : ℤ) :
    List AlertThreshold → Except PyException (List CostBreach)
  | [] => .ok []
  | threshold :: rest =>
      match tracker.entriesFor firmId threshold with
      | none => check tracker firmId now rest
      | some entries => do
          let period ← timedelta (threshold.periodDays * dayMicros)
          let cutoff ← addTimedelta now (-period)
          let currentCost := ((entries.filter fun e => cutoff ≤ e.recordedAt).map (·.costUsd)).sum
          let breaches ← check tracker firmId now rest
          return if threshold.maxCostUsd < currentCost then ⟨threshold, currentCost, now⟩ :: breaches
            else breaches

def checkThresholds (tracker : CostTracker) (firmId : String) (now : ℤ) : Except PyException (List CostBreach) :=
  tracker.check firmId now tracker.thresholds.values

end CostTracker

/-! ### Histories -/

/-- What a call of `record` is given; `id` is drawn. -/
structure Usage where
  id : String
  firmId : String
  userId : String
  provider : String
  model : String
  tokenCount : ℤ
  caseId : Option String := none
  workflowId : Option String := none
  cacheHit : Bool := false

inductive Op where
  | record (usage : Usage) (now : ℤ)
  | setAlertThreshold (threshold : AlertThreshold)

namespace CostTracker

def record (tracker : CostTracker) (usage : Usage) (now : ℤ) : CostTracker :=
  let costUsd := if usage.cacheHit then 0 else estimateCost usage.provider usage.tokenCount
  { tracker with
    entries := tracker.entries ++
      [{ id := usage.id, firmId := usage.firmId, userId := usage.userId, caseId := usage.caseId
         workflowId := usage.workflowId, provider := usage.provider, model := usage.model
         tokenCount := usage.tokenCount, costUsd, cacheHit := usage.cacheHit, recordedAt := now }] }

def step (tracker : CostTracker) : Op → CostTracker
  | .record usage now => tracker.record usage now
  | .setAlertThreshold threshold => tracker.setAlertThreshold threshold

/-- The state after a history. -/
def after (ops : List Op) : CostTracker := ops.foldl step {}

end CostTracker

/-! ### Two histories -/

/-- A threshold of a firm: its own, or one of its users. -/
def isOwn (users : String → Bool) (firmId : String) (threshold : AlertThreshold) : Bool :=
  threshold.scope = "firm" && threshold.scopeId = firmId || threshold.scope = "user" && users threshold.scopeId

/-- The same costs of the firm, and the same thresholds of it and its users. -/
structure Agree (users : String → Bool) (firmId : String) (s s' : CostTracker) : Prop where
  entries : s.listForFirm firmId = s'.listForFirm firmId
  thresholds : s.thresholds.values.filter (isOwn users firmId) = s'.thresholds.values.filter (isOwn users firmId)

/-- Thresholds are set for these users, and costs recorded of users under these firms. -/
def Allowed (limited : String → Prop) (works : String → String → Prop) : Op → Prop
  | .record usage _ => works usage.firmId usage.userId
  | .setAlertThreshold threshold => threshold.scope = "user" → limited threshold.scopeId

section

variable {users : String → Bool} {firmId : String} {limited : String → Prop} {works : String → String → Prop}
  {s s' : CostTracker}

/-- What is on file after histories of this kind. -/
structure Kept (limited : String → Prop) (works : String → String → Prop) (s : CostTracker) : Prop where
  entries : ∀ e ∈ s.entries, works e.firmId e.userId
  thresholds : ∀ t ∈ s.thresholds.values, t.scope = "user" → limited t.scopeId

lemma Kept.step (h : Kept limited works s) {op : Op} (hop : Allowed limited works op) :
    Kept limited works (s.step op) := by
  cases op with
  | record usage now =>
    refine ⟨fun e he => ?_, h.thresholds⟩
    rcases List.mem_append.mp he with he | he
    · exact h.entries e he
    · obtain rfl := List.mem_singleton.mp he
      exact hop
  | setAlertThreshold threshold =>
    refine ⟨h.entries, fun t ht => ?_⟩
    rcases Dict.mem_values_set ht with rfl | ht
    · exact hop
    · exact h.thresholds t ht

lemma kept_after {ops : List Op} (hops : ∀ op ∈ ops, Allowed limited works op) :
    Kept limited works (CostTracker.after ops) :=
  have halong : Along CostTracker.step (fun _ op => Allowed limited works op) {} ops := along_of_forall hops _
  halong.inv (I := Kept limited works) ⟨fun _ he => (nomatch he), fun _ ht => (nomatch ht)⟩
    fun _ _ h hop => h.step hop

namespace CostTracker

/-- Thresholds that are about no entries may be left out. -/
lemma check_filter (own : AlertThreshold → Bool) (now : ℤ) {thresholds : List AlertThreshold}
    (h : ∀ t ∈ thresholds, own t = false → s.entriesFor firmId t = none) :
    s.check firmId now (thresholds.filter own) = s.check firmId now thresholds := by
  induction thresholds with
  | nil => rfl
  | cons t rest ih =>
    have ih := ih fun t ht => h t (List.mem_cons_of_mem _ ht)
    cases hown : own t with
    | true => rw [List.filter_cons_of_pos hown, check, check, ih]
    | false =>
      rw [List.filter_cons_of_neg (by simp [hown]), ih]
      simp only [check, h t List.mem_cons_self hown]

/-- The check sees of a state the entries that each threshold is about. -/
lemma check_congr (now : ℤ) {thresholds : List AlertThreshold}
    (h : ∀ t ∈ thresholds, s.entriesFor firmId t = s'.entriesFor firmId t) :
    s.check firmId now thresholds = s'.check firmId now thresholds := by
  induction thresholds with
  | nil => rfl
  | cons t rest ih => rw [check, check, h t List.mem_cons_self, ih fun t ht => h t (List.mem_cons_of_mem _ ht)]

/-- The costs of a user who has none under other firms are costs of the firm. -/
lemma listForUser_eq (h : Kept limited works s) {userId : String}
    (hworks : ∀ firm, works firm userId → firm = firmId) :
    s.listForUser userId = (s.listForFirm firmId).filter fun e => e.userId = userId := by
  rw [listForUser, listForFirm, List.filter_filter]
  refine List.filter_congr fun e he => ?_
  have hfirm : e.userId = userId → e.firmId = firmId := fun huser => hworks _ (huser ▸ h.entries e he)
  simpa using hfirm

/-- For users like these, the check goes by the firm's own costs and thresholds. -/
lemma checkThresholds_eq (h : Kept limited works s) (h' : Kept limited works s')
    (hisolated : ∀ u, limited u → users u = true ∧ ∀ firm, works firm u → firm = firmId)
    (hagree : Agree users firmId s s') (now : ℤ) :
    s.checkThresholds firmId now = s'.checkThresholds firmId now := by
  -- A threshold that is not the firm's own is one of another firm.
  have hother {s : CostTracker} (h : Kept limited works s) : ∀ t ∈ s.thresholds.values,
      isOwn users firmId t = false → s.entriesFor firmId t = none := by
    intro t ht hown
    have huser : t.scope ≠ "user" := fun huser => by
      simp [isOwn, huser, (hisolated _ (h.thresholds t ht huser)).1] at hown
    have hfirm : ¬ (t.scope = "firm" ∧ t.scopeId = firmId) := fun hfirm => by simp [isOwn, hfirm] at hown
    rw [entriesFor, if_neg hfirm, if_neg huser]
  rw [checkThresholds, checkThresholds, ← check_filter _ now (hother h), ← check_filter _ now (hother h'),
    ← hagree.thresholds]
  refine check_congr now fun t ht => ?_
  have ht := (List.mem_filter.mp ht).1
  unfold entriesFor
  split_ifs with hfirm huser
  · rw [hagree.entries]
  · have hworks := (hisolated _ (h.thresholds t ht huser)).2
    rw [listForUser_eq h hworks, listForUser_eq h' hworks, hagree.entries]
  · rfl

end CostTracker

end

/-! ### What shows in the alerts of another firm -/

/-- A threshold that any cost exceeds. -/
def limitOf (userId : String) : AlertThreshold := { scope := "user", scopeId := userId, maxCostUsd := -1 }

def someMoment : ℤ := 738000 * dayMicros

/-- A thousand tokens. -/
def thousandTokens (firmId userId : String) : Usage :=
  { id := "e1", firmId, userId, provider := "openai", model := "gpt", tokenCount := 1000 }

lemma estimateCost_thousand : estimateCost "openai" 1000 = 5 / 1000 := by decide +kernel

lemma someMoment_period : timedelta (30 * dayMicros) = .ok (30 * dayMicros) ∧
    addTimedelta someMoment (-(30 * dayMicros)) = .ok (someMoment - 30 * dayMicros) := by
  constructor <;> rfl

/-- The check of one such threshold. -/
lemma check_limitOf (s : CostTracker) (firmId userId : String) :
    s.check firmId someMoment [limitOf userId] =
      let cost := (((s.listForUser userId).filter fun e => someMoment - 30 * dayMicros ≤ e.recordedAt).map
        (·.costUsd)).sum
      .ok (if -1 < cost then [⟨limitOf userId, cost, someMoment⟩] else []) := by
  have hentries : s.entriesFor firmId (limitOf userId) = some (s.listForUser userId) := by
    rw [CostTracker.entriesFor, if_neg (by simp [limitOf])]
    rfl
  have hperiod : (limitOf userId).periodDays = 30 := rfl
  simp only [CostTracker.check, hentries, hperiod, someMoment_period, bind, Except.bind]
  rfl

/-- A history that sets a threshold for the user. -/
def limitSet (userId : String) : List Op := [.setAlertThreshold (limitOf userId)]

/-- A history in which the user has costs under the firm, too. -/
def limitSetAndUsed (firmId userId : String) : List Op :=
  [.setAlertThreshold (limitOf userId), .record (thousandTokens firmId userId) someMoment]

lemma checkThresholds_limitSet (firmId userId : String) :
    (CostTracker.after (limitSet userId)).checkThresholds firmId someMoment =
      .ok [⟨limitOf userId, 0, someMoment⟩] := by
  show (CostTracker.after (limitSet userId)).check firmId someMoment [limitOf userId] = _
  rw [check_limitOf]
  rfl

lemma checkThresholds_limitSetAndUsed (firmId firmId' userId : String) :
    (CostTracker.after (limitSetAndUsed firmId' userId)).checkThresholds firmId someMoment =
      .ok [⟨limitOf userId, 5 / 1000, someMoment⟩] := by
  show (CostTracker.after (limitSetAndUsed firmId' userId)).check firmId someMoment [limitOf userId] = _
  rw [check_limitOf, CostTracker.listForUser]
  simp [CostTracker.after, limitSetAndUsed, CostTracker.step, CostTracker.record, thousandTokens,
    CostTracker.setAlertThreshold, estimateCost_thousand]
  norm_num

/-- The users who have thresholds must be the firm's own, and have costs under no other firm. -/
lemma isolated_of_eq {users : String → Bool} {firmId : String} {limited : String → Prop}
    {works : String → String → Prop}
    (h : ∀ ops ops' now, (∀ op ∈ ops, Allowed limited works op) →
      (∀ op ∈ ops', Allowed limited works op) → Agree users firmId (CostTracker.after ops) (CostTracker.after ops') →
      (CostTracker.after ops).checkThresholds firmId now = (CostTracker.after ops').checkThresholds firmId now)
    {u : String} (hu : limited u) : users u = true ∧ ∀ firm, works firm u → firm = firmId := by
  have hset : ∀ op ∈ limitSet u, Allowed limited works op := fun op hop => by
    obtain rfl := List.mem_singleton.mp hop
    exact fun _ => hu
  constructor
  · by_contra huser
    have hagree : Agree users firmId (CostTracker.after []) (CostTracker.after (limitSet u)) := by
      refine ⟨rfl, ?_⟩
      show [] = [limitOf u].filter (isOwn users firmId)
      simp [isOwn, limitOf, huser]
    have heq := h [] (limitSet u) someMoment (fun _ hop => (nomatch hop)) hset hagree
    rw [checkThresholds_limitSet] at heq
    cases heq
  · intro firm hworks
    by_contra hfirm
    have hused : ∀ op ∈ limitSetAndUsed firm u, Allowed limited works op := fun op hop => by
      rcases List.mem_cons.mp hop with rfl | hop
      · exact fun _ => hu
      · obtain rfl := List.mem_singleton.mp hop
        exact hworks
    have hagree : Agree users firmId (CostTracker.after (limitSet u))
        (CostTracker.after (limitSetAndUsed firm u)) := by
      refine ⟨?_, rfl⟩
      simp [CostTracker.listForFirm, CostTracker.after, limitSet, limitSetAndUsed, CostTracker.step,
        CostTracker.setAlertThreshold, CostTracker.record, thousandTokens, hfirm]
    have heq := h _ _ someMoment hset hused hagree
    rw [checkThresholds_limitSet, checkThresholds_limitSetAndUsed] at heq
    injection heq with heq
    injection heq with heq
    injection heq with _ heq
    norm_num at heq

/-- **Isolation of alerts.**  Let histories set thresholds for some users, and record costs of users under
some firms.  Any two of them with the same costs of a firm and the same thresholds of it and its users give
the firm the same alerts iff every user who may have a threshold is one of the firm's, and has costs under
this firm only. -/
theorem alerts_isolated_iff (firmId : String) (users : String → Bool) (limited : String → Prop)
    (works : String → String → Prop) :
    (∀ ops ops' now, (∀ op ∈ ops, Allowed limited works op) → (∀ op ∈ ops', Allowed limited works op) →
      Agree users firmId (CostTracker.after ops) (CostTracker.after ops') →
      (CostTracker.after ops).checkThresholds firmId now = (CostTracker.after ops').checkThresholds firmId now) ↔
    ∀ u, limited u → users u = true ∧ ∀ firm, works firm u → firm = firmId := by
  constructor
  · intro h u hu
    exact isolated_of_eq h hu
  · intro hisolated ops ops' now hops hops' hagree
    exact CostTracker.checkThresholds_eq (kept_after hops) (kept_after hops') hisolated hagree now

/-- A threshold and the costs of a user of another firm show in the alerts. -/
theorem alerts_leak :
    let users : String → Bool := fun u => u = "ada"
    let other := CostTracker.after (limitSetAndUsed "firm-b" "bob")
    Agree users "firm-a" (CostTracker.after []) other ∧
      (CostTracker.after []).checkThresholds "firm-a" someMoment = .ok [] ∧
      other.checkThresholds "firm-a" someMoment = .ok [⟨limitOf "bob", 5 / 1000, someMoment⟩] := by
  refine ⟨⟨?_, ?_⟩, ?_, ?_⟩ <;> decide +kernel

end Tmis.Platform.CostControl
