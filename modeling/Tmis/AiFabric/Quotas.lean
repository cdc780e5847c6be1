import Tmis.AiFabric.Router
import Tmis.Lib.Run
import Tmis.Lib.CallWindows

/-!
# What a quota lets through

Calls of the router at any times, with whatever changes of the catalogue, the policies and the licenses
between them: the calls of a firm that return are the ones that its usage log holds.

* `Watched`, `RouterOperation`, `step` — the router, and the calls of it that have returned;
* `Logged` — the log of a firm holds its calls, and each of them was let in by its quota;
* `route_error` — a call that raises changes nothing;
* `quota_kept` — no period of a quota has more calls in it than the quota allows.
-/

namespace Tmis.AiFabric

open Tmis.Lib Tmis.Lib.SlidingWindow

/-- The router, and the calls that have returned, the last one first. -/
structure Watched where
  router : RouterEngine
  routed : List (String × Span ℚ) := []

/-- A call, or a change of what it reads besides the quotas. -/
inductive RouterOperation where
  | route (request : RoutingRequest) (checked recorded : ℚ)
  | change (registry : ModelRegistry) (governance : GovernanceEngine)

namespace Watched

/-- A router with some quotas, before its first call. -/
def start (quotas : Store (String × String) Quota Quota.key) (text : NumberText) : Watched where
  router := { quotas := { quotas }, text }

def step (s : Watched) : RouterOperation → Watched
  | .route request checked recorded =>
      let (outcome, router) := s.router.route request checked recorded
      { router
        routed :=
          match outcome with
          | .ok _ => (request.firmId, ⟨checked, recorded⟩) :: s.routed
          | .error _ => s.routed }
  | .change registry governance => { s with router := { s.router with registry, governance } }

/-- The calls of a firm that have returned. -/
def routedOf (s : Watched) (firmId : String) : List (Span ℚ) :=
  (s.routed.filter (·.1 = firmId)).map Prod.snd

/-- The quotas stay, the log of a firm holds its calls, and each of them was let in by its quota. -/
structure Logged (quotas : Store (String × String) Quota Quota.key) (s : Watched) : Prop where
  kept : s.router.quotas.quotas = quotas
  log : ∀ firmId, s.router.quotas.recorded "firm" firmId = ((s.routedOf firmId).map Span.recorded).reverse
  admitted : ∀ firmId quota, quotas.get ("firm", firmId) = some quota →
    Admitted quota.period quota.maxCallsPerPeriod (s.routedOf firmId)

variable {quotas : Store (String × String) Quota Quota.key} {text : NumberText} {s : Watched}

lemma logged_start : Logged quotas (start quotas text) where
  kept := rfl
  log _ := rfl
  admitted _ _ _ := trivial

lemma routedOf_cons_self (router : RouterEngine) (firmId : String) (call : Span ℚ)
    (routed : List (String × Span ℚ)) :
    routedOf ⟨router, (firmId, call) :: routed⟩ firmId = call :: routedOf ⟨router, routed⟩ firmId := by
  simp [routedOf]

lemma routedOf_cons_of_ne (router : RouterEngine) {firmId other : String} (h : firmId ≠ other)
    (call : Span ℚ) (routed : List (String × Span ℚ)) :
    routedOf ⟨router, (firmId, call) :: routed⟩ other = routedOf ⟨router, routed⟩ other := by
  simp [routedOf, h]

lemma recorded_recordCall (engine : QuotaEngine) (firmId other : String) (now : ℚ) :
    (engine.recordCall "firm" firmId now).recorded "firm" other =
      engine.recorded "firm" other ++ if other = firmId then [now] else [] := by
  rw [QuotaEngine.recordCall, QuotaEngine.recorded, Dict.get_set]
  by_cases hfirm : other = firmId
  · subst hfirm
    simp
  · simp [hfirm, QuotaEngine.recorded]

/-- A call that is let in found fewer calls in the log than its quota allows. -/
lemma Logged.fewer (h : Logged quotas s) {firmId : String} {checked : ℚ} {quota : Quota}
    (hleft : ¬ Exhausted s.router.quotas firmId checked) (hget : quotas.get ("firm", firmId) = some quota) :
    ((s.routedOf firmId).countP (fun other => checked - quota.period ≤ other.recorded) : ℤ) <
      quota.maxCallsPerPeriod := by
  rw [← h.kept] at hget
  have hfew := not_le.mp fun hmany => hleft ⟨quota, hget, hmany⟩
  rw [h.log, List.countP_reverse, List.countP_map] at hfew
  exact hfew

theorem Logged.step (h : Logged quotas s) (op : RouterOperation) : Logged quotas (s.step op) := by
  cases op with
  | change registry governance => exact ⟨h.kept, h.log, h.admitted⟩
  | route request checked recorded =>
    rw [Watched.step]
    rcases route_cases s.router request checked recorded with
      ⟨-, hroute⟩ | ⟨-, -, hroute⟩ | ⟨hleft, best, reasons, -, -, hroute⟩
    · rw [hroute]
      exact h
    · rw [hroute]
      exact h
    · rw [hroute]
      refine ⟨h.kept, fun firmId => ?_, fun firmId quota hget => ?_⟩
      · dsimp only
        rw [recorded_recordCall]
        by_cases hfirm : firmId = request.firmId
        · subst hfirm
          rw [routedOf_cons_self, List.map_cons, List.reverse_cons, if_pos rfl]
          exact congrArg (· ++ [recorded]) (h.log request.firmId)
        · rw [routedOf_cons_of_ne _ (Ne.symm hfirm), if_neg hfirm, List.append_nil]
          exact h.log firmId
      · by_cases hfirm : firmId = request.firmId
        · subst hfirm
          rw [routedOf_cons_self]
          exact ⟨h.fewer hleft hget, h.admitted request.firmId quota hget⟩
        · rw [routedOf_cons_of_ne _ (Ne.symm hfirm)]
          exact h.admitted firmId quota hget

/-- A call that raises changes nothing. -/
lemma route_error {router : RouterEngine} {request : RoutingRequest} {checked recorded : ℚ}
    {e : PyException} (h : (router.route request checked recorded).1 = .error e) :
    (router.route request checked recorded).2 = router := by
  rcases route_cases router request checked recorded with
    ⟨-, hroute⟩ | ⟨-, -, hroute⟩ | ⟨-, best, reasons, -, -, hroute⟩
  · rw [hroute]
  · rw [hroute]
  · rw [hroute] at h
    cases h

/-- **The quota is kept, and not wasted.**  However calls that return and calls that raise follow each
other, no period of the quota of a firm has more calls of the firm in it than the quota allows, and the
next call that raises leaves the usage log as it is. -/
theorem quota_kept (text : NumberText) (ops : List RouterOperation) {firmId : String} {quota : Quota}
    (hget : quotas.get ("firm", firmId) = some quota) (stop : ℚ) :
    (((run Watched.step (start quotas text) ops).routedOf firmId).countP
        (fun call => Overlaps quota.period stop call) : ℤ) ≤ max quota.maxCallsPerPeriod 0 ∧
      ∀ request checked recorded e,
        ((run Watched.step (start quotas text) ops).router.route request checked recorded).1 = .error e →
        ((run Watched.step (start quotas text) ops).router.route request checked recorded).2.quotas.calls =
          (run Watched.step (start quotas text) ops).router.quotas.calls := by
  have hlogged : Logged quotas (run Watched.step (start quotas text) ops) :=
    run_inv ops logged_start fun s op h => h.step op
  refine ⟨countP_overlaps_le (hlogged.admitted firmId quota hget) stop, ?_⟩
  intro request checked recorded e herror
  rw [route_error herror]

/-- The quotas once a firm has been given one, for a day. -/
def daily (maxCallsPerPeriod : ℤ) : Store (String × String) Quota Quota.key :=
  (QuotaEngine.setQuota {} "firm" "firm-a" maxCallsPerPeriod 1).2.quotas

lemma get_daily (maxCallsPerPeriod : ℤ) :
    (daily maxCallsPerPeriod).get ("firm", "firm-a") = some ⟨"firm", "firm-a", maxCallsPerPeriod, 1⟩ :=
  Store.get_save_self ..

/-- Two calls, a second after each other. -/
def twoCalls : List RouterOperation :=
  let request : RoutingRequest := { firmId := "firm-a", taskType := "Rédaction" }
  [.change poorCatalogue.registry {}, .route request 0 0, .route request 1 1]

theorem quota_kept_daily :
    (((run Watched.step (start (daily 1) poorCatalogue.text) twoCalls).routedOf "firm-a").countP
        (fun call => Overlaps (Quota.period ⟨"firm", "firm-a", 1, 1⟩) 1 call) : ℤ) ≤ max 1 0 :=
  (quota_kept poorCatalogue.text twoCalls (get_daily 1) 1).1

/-- Not even no call is at most a negative number of them. -/
theorem negativeQuota_exceeded :
    ¬ ∀ (quotas : Store (String × String) Quota Quota.key) (text : NumberText) (ops : List RouterOperation)
      (firmId : String) (quota : Quota), quotas.get ("firm", firmId) = some quota → ∀ stop,
      (((run Watched.step (start quotas text) ops).routedOf firmId).countP
        (fun call => Overlaps quota.period stop call) : ℤ) ≤ quota.maxCallsPerPeriod := by
  intro h
  have hnone := h (daily (-1)) poorCatalogue.text [] "firm-a" _ (get_daily (-1)) 0
  exact absurd hnone (by decide)

end Watched

end Tmis.AiFabric
