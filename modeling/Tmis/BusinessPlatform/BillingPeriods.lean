import Tmis.BusinessPlatform.Invoicing

/-!
# The periods that are billed

A run of the billing cycle that finds an invoice due rolls the period forward from the time it reads, not
from the end of the period it bills.  Every run that comes late moves all later periods.

* `Term`, `WatchedBilling` — a run of the platform with the periods billed since each activation;
* `Covered`, `BillsExactly` — what is asked of a subscription, and of an operation;
* `RunsOnTime` — the condition on an operation;
* `run_due` — what a run does that is due;
* `along_billsExactly_iff` — over every run.
-/

namespace Tmis.BusinessPlatform

open Tmis.Lib Tmis.CabinetOs

/-- A subscription since it was activated: when that was, the ends of the periods that were billed, and
the number of invoices the firm had before. -/
structure Term where
  start : ℤ
  before : ℕ
  billed : List ℤ := []

/-- The end of a period of the term; they are counted from zero. -/
def Term.periodEnd (term : Term) (cycle : BillingCycle) (k : ℕ) : ℤ :=
  term.start + (k + 1) * cycle.length

/-- The platform, and the term of each firm. -/
structure WatchedBilling where
  state : PlatformState
  terms : Dict String Term := ∅

namespace WatchedBilling

def subscriptions (w : WatchedBilling) : SubscriptionEngine := w.state.engine.subscriptions

def billing (w : WatchedBilling) : BillingEngine := w.state.engine.billing

/-- The terms after an operation: one begins at each activation, and a run that makes an invoice bills the
period of the subscription. -/
def recorded (w : WatchedBilling) : PlatformOperation → Dict String Term
  | .subscriptions (.activate firmId billingCycle) =>
    match w.subscriptions.activate firmId billingCycle w.state.clock with
    | .ok _ => w.terms.set firmId { start := w.state.clock, before := invoicesOf w.billing firmId }
    | .error _ => w.terms
  | .runBillingCycle firmId beforeCreated beforeIssued beforeAdvanced =>
    match w.state.engine.runBillingCycle firmId
        (w.state.readings beforeCreated beforeIssued beforeAdvanced), w.terms.get firmId with
    | .ok (some _, _), some term =>
      let periodEnd := (w.subscriptions.store.get firmId).bind (·.currentPeriodEnd)
      w.terms.set firmId { term with billed := term.billed ++ periodEnd.toList }
    | _, _ => w.terms
  | _ => w.terms

def step (w : WatchedBilling) (op : PlatformOperation) : WatchedBilling where
  state := w.state.step op
  terms := w.recorded op

end WatchedBilling

/-- The periods billed of a subscription follow one another from its activation, each of the length of
the cycle; the next one is under way; and there is one invoice for each that was billed. -/
structure Covered (term : Term) (subscription : Subscription) (billing : BillingEngine) : Prop where
  billed : term.billed =
    (List.range term.billed.length).map (term.periodEnd subscription.billingCycle)
  current : subscription.currentPeriodEnd =
    some (term.periodEnd subscription.billingCycle term.billed.length)
  invoices : invoicesOf billing subscription.firmId = term.before + term.billed.length

/-- Every active subscription has a term, whose periods cover the time since its activation. -/
def Contiguous (subscriptions : SubscriptionEngine) (billing : BillingEngine)
    (terms : Dict String Term) : Prop :=
  ∀ firmId subscription, subscriptions.store.get firmId = some subscription →
    subscription.status = .active → ∃ term, terms.get firmId = some term ∧
      Covered term subscription billing

/-- After the operation the periods billed cover the time; and after a run of the billing cycle each
period of the subscription that has elapsed is billed exactly once. -/
structure BillsExactly (w : WatchedBilling) (op : PlatformOperation) : Prop where
  contiguous : Contiguous (w.step op).subscriptions (w.step op).billing (w.step op).terms
  once : ∀ firmId beforeCreated beforeIssued beforeAdvanced,
    op = .runBillingCycle firmId beforeCreated beforeIssued beforeAdvanced →
    ∀ subscription term, (w.step op).subscriptions.store.get firmId = some subscription →
      subscription.status = .active → (w.step op).terms.get firmId = some term →
      ∀ k, term.periodEnd subscription.billingCycle k ≤ w.state.clock →
        term.billed.count (term.periodEnd subscription.billingCycle k) = 1

/-- A run of the billing cycle that finds an invoice due is over when the period ends. -/
def RunsOnTime (w : WatchedBilling) : PlatformOperation → Prop
  | .runBillingCycle firmId beforeCreated beforeIssued beforeAdvanced =>
      ∀ subscription periodEnd, w.subscriptions.store.get firmId = some subscription →
        subscription.status = .active → subscription.currentPeriodEnd = some periodEnd →
        periodEnd ≤ w.state.clock →
        (w.state.readings beforeCreated beforeIssued beforeAdvanced).advanced = periodEnd
  | _ => True

/-! ### Periods -/

section Periods

variable {term : Term} {subscription : Subscription} {billing : BillingEngine} {cycle : BillingCycle}
  {j k : ℕ}

lemma BillingCycle.length_pos (cycle : BillingCycle) : 0 < cycle.length := by
  cases cycle <;> decide

lemma periodEnd_le_iff (term : Term) (cycle : BillingCycle) {j k : ℕ} :
    term.periodEnd cycle j ≤ term.periodEnd cycle k ↔ j ≤ k := by
  rw [Term.periodEnd, Term.periodEnd, Int.add_le_add_iff_left,
    Int.mul_le_mul_iff_of_pos_right cycle.length_pos]
  omega

lemma periodEnd_injective (term : Term) (cycle : BillingCycle) :
    Function.Injective (term.periodEnd cycle) := fun _ _ heq =>
  le_antisymm ((periodEnd_le_iff term cycle).mp heq.le) ((periodEnd_le_iff term cycle).mp heq.ge)

/-- The first period ends one cycle after the activation. -/
lemma periodEnd_zero (term : Term) (cycle : BillingCycle) :
    term.periodEnd cycle 0 = periodEndForCycle cycle term.start := by
  simp [Term.periodEnd, periodEndForCycle]

/-- The next period ends one cycle later. -/
lemma periodEnd_succ (term : Term) (cycle : BillingCycle) (k : ℕ) :
    term.periodEnd cycle (k + 1) = periodEndForCycle cycle (term.periodEnd cycle k) := by
  unfold Term.periodEnd periodEndForCycle
  push_cast
  ring

/-- What is billed is billed once. -/
lemma Covered.count_eq_one (h : Covered term subscription billing) (hlt : k < term.billed.length) :
    term.billed.count (term.periodEnd subscription.billingCycle k) = 1 := by
  have hnodup : term.billed.Nodup := by
    rw [h.billed]
    exact List.nodup_range.map (periodEnd_injective _ _)
  refine List.count_eq_one_of_mem hnodup ?_
  rw [h.billed]
  exact List.mem_map_of_mem (List.mem_range.mpr hlt)

end Periods

/-! ### One operation -/

section Steps

variable {w : WatchedBilling} {op : PlatformOperation} {firmId : String} {subscription : Subscription}
  {subscriptions : SubscriptionEngine} {billing billing' : BillingEngine} {terms terms' : Dict String Term}

/-- A subscription is saved: the others stay covered. -/
lemma Contiguous.save (h : Contiguous subscriptions billing terms) (saved : Subscription)
    (hterms : ∀ firmId ≠ saved.firmId, terms'.get firmId = terms.get firmId)
    (hinvoices : ∀ firmId ≠ saved.firmId, invoicesOf billing' firmId = invoicesOf billing firmId)
    (hsaved : saved.status = .active → ∃ term, terms'.get saved.firmId = some term ∧
      Covered term saved billing') :
    Contiguous (subscriptions.save saved) billing' terms' := by
  intro firmId subscription hget hactive
  obtain ⟨rfl, rfl⟩ | ⟨hne, hget⟩ := Store.get_save_cases hget
  · exact hsaved hactive
  · obtain ⟨term, hterm, hcovered⟩ := h firmId subscription hget hactive
    refine ⟨term, (hterms firmId hne).trans hterm, hcovered.billed, hcovered.current, ?_⟩
    rw [hinvoices _ (Store.key_of_get hget ▸ hne)]
    exact hcovered.invoices

/-- A subscription is saved on the cycle and the period it was on. -/
lemma Contiguous.save_stays (h : Contiguous subscriptions billing terms) {before : Subscription}
    (after : Subscription) (hget : subscriptions.store.get after.firmId = some before)
    (hcycle : after.billingCycle = before.billingCycle)
    (hend : after.currentPeriodEnd = before.currentPeriodEnd)
    (hactive : after.status = .active → before.status = .active) :
    Contiguous (subscriptions.save after) billing terms := by
  refine h.save after (fun _ _ => rfl) (fun _ _ => rfl) fun hafter => ?_
  obtain ⟨term, hterm, hbilled, hcurrent, hinvoices⟩ := h _ before hget (hactive hafter)
  rw [Store.key_of_get hget] at hinvoices
  exact ⟨term, hterm, hcycle ▸ hbilled, by rw [hend, hcurrent, hcycle], hinvoices⟩

/-- The invariant of disciplined runs. -/
structure BillingSound (w : WatchedBilling) : Prop where
  contiguous : Contiguous w.subscriptions w.billing w.terms
  numbered : Numbered w.subscriptions.plans
  sold : ∀ firmId subscription, w.subscriptions.store.get firmId = some subscription →
    ∃ features, Sells w.subscriptions.plans subscription.planId features
  below : w.billing.invoices.Below w.billing.uuids

lemma billingSound_start (clock : ℤ) (discountPercent : ℚ) :
    BillingSound ⟨⟨{ discountPercent }, clock⟩, ∅⟩ where
  contiguous _ _ h := by cases h
  numbered _ _ h := by cases h
  sold _ _ h := by cases h
  below := Store.below_empty _

/-- Terms begin at activations only. -/
lemma recorded_subscriptions {op : SubscriptionOperation} (hop : ∀ firmId billingCycle,
    op = .activate firmId billingCycle → w.subscriptions.store.get firmId = none) :
    w.recorded (.subscriptions op) = w.terms := by
  cases op with
  | activate firmId billingCycle =>
    rw [WatchedBilling.recorded, SubscriptionEngine.activate, SubscriptionEngine.get,
      hop firmId billingCycle rfl]
    rfl
  | _ => rfl

lemma recorded_activate (hget : w.subscriptions.store.get firmId = some subscription)
    (billingCycle : BillingCycle) : w.recorded (.subscriptions (.activate firmId billingCycle)) =
      w.terms.set firmId { start := w.state.clock, before := invoicesOf w.billing firmId } := by
  rw [WatchedBilling.recorded, SubscriptionEngine.activate, subscription_ok.mpr hget]
  rfl

/-- The plans of the subscriptions stay sold when one is saved whose plan is. -/
lemma sold_save {saved : Subscription} (h : BillingSound w)
    (hsaved : ∃ features, Sells w.subscriptions.plans saved.planId features) :
    ∀ firmId subscription, (w.subscriptions.save saved).store.get firmId = some subscription →
      ∃ features, Sells w.subscriptions.plans subscription.planId features := by
  intro firmId subscription hget
  rcases Store.of_get_save hget with rfl | hget
  · exact hsaved
  · exact h.sold firmId subscription hget

/-- **A call of the subscriptions** keeps the invariant. -/
theorem BillingSound.step_subscriptions (h : BillingSound w) (op : SubscriptionOperation) :
    BillingSound (w.step (.subscriptions op)) := by
  have hchange : Change w.subscriptions w.state.clock op (w.step (.subscriptions op)).subscriptions :=
    change_after w.subscriptions w.state.clock op
  refine ⟨?_, ?_, ?_, h.below⟩ <;>
    generalize (w.step (.subscriptions op)).subscriptions = subscriptions at hchange ⊢
  · show Contiguous subscriptions w.billing (w.recorded (.subscriptions op))
    cases hchange with
    | none op hop =>
      rw [recorded_subscriptions hop]
      exact h.contiguous
    | catalog op plans hop hnumbered hsells =>
      rw [recorded_subscriptions fun firmId billingCycle heq => absurd heq (hop firmId billingCycle)]
      exact h.contiguous
    | started firmId planId plan hplan =>
      exact h.contiguous.save
        { id := w.subscriptions.uuids, firmId, planId, startedAt := w.state.clock,
          trialEndsAt := defaultTrialEnd w.state.clock }
        (fun _ _ => rfl) (fun _ _ => rfl) nofun
    | activated firmId billingCycle before hget =>
      rw [recorded_activate hget]
      obtain rfl := Store.key_of_get hget
      let term : Term := { start := w.state.clock, before := invoicesOf w.billing before.firmId }
      exact h.contiguous.save _ (fun other hne => Dict.get_set_of_ne _ _ hne) (fun _ _ => rfl) fun _ =>
        ⟨term, Dict.get_set_self .., rfl, congrArg some (periodEnd_zero term billingCycle).symm,
          (Nat.add_zero _).symm⟩
    | planChanged firmId planId plan before hplan hget =>
      obtain rfl := Store.key_of_get hget
      exact h.contiguous.save_stays { before with planId } hget rfl rfl id
    | stayed op before after hop hget stays =>
      rw [recorded_subscriptions fun firmId billingCycle heq => absurd heq (hop firmId billingCycle)]
      exact h.contiguous.save_stays after hget stays.billingCycle stays.currentPeriodEnd stays.active
  · cases hchange with
    | catalog op plans hop hnumbered hsells => exact hnumbered h.numbered
    | _ => exact h.numbered
  · cases hchange with
    | none op hop => exact h.sold
    | catalog op plans hop hnumbered hsells =>
      intro firmId subscription hget
      obtain ⟨features, hsold⟩ := h.sold firmId subscription hget
      exact ⟨features, hsells _ features h.numbered hsold⟩
    | started firmId planId plan hplan => exact sold_save h ⟨_, plan, hplan, rfl⟩
    | activated firmId billingCycle before hget => exact sold_save h (h.sold _ before hget)
    | planChanged firmId planId plan before hplan hget => exact sold_save h ⟨_, plan, hplan, rfl⟩
    | stayed op before after hop hget stays =>
      exact sold_save h (stays.planId ▸ h.sold _ before hget)

variable {beforeCreated beforeIssued beforeAdvanced : ℕ} {periodEnd : ℤ}

/-- **A run that is due** bills the period of the subscription, and begins the next one when it reads the
clock last. -/
theorem run_due (h : BillingSound w) (hget : w.subscriptions.store.get firmId = some subscription)
    (hactive : subscription.status = .active) (hend : subscription.currentPeriodEnd = some periodEnd)
    (hdue : periodEnd ≤ w.state.clock) (beforeCreated beforeIssued beforeAdvanced : ℕ) :
    ∃ billing term, w.terms.get firmId = some term ∧ Covered term subscription w.billing ∧
      Invoiced firmId w.billing billing ∧
      w.step (.runBillingCycle firmId beforeCreated beforeIssued beforeAdvanced) =
        { state :=
            { engine :=
                { w.state.engine with
                  billing
                  subscriptions := w.subscriptions.save { subscription with
                    currentPeriodEnd := some (periodEndForCycle subscription.billingCycle
                      (w.state.readings beforeCreated beforeIssued beforeAdvanced).advanced) } }
              clock := (w.state.readings beforeCreated beforeIssued beforeAdvanced).advanced }
          terms := w.terms.set firmId { term with billed := term.billed ++ [periodEnd] } } := by
  obtain ⟨features, plan, hplan, -⟩ := h.sold firmId subscription hget
  obtain ⟨term, hterm, hcovered⟩ := h.contiguous firmId subscription hget hactive
  let times := w.state.readings beforeCreated beforeIssued beforeAdvanced
  obtain ⟨invoice, billing, hrun, hinvoiced⟩ :
      ∃ invoice billing, w.state.engine.runBillingCycle firmId times = .ok (some invoice, _) ∧ _ :=
    runBillingCycle_due times h.below hget hplan hactive hend hdue
  refine ⟨billing, term, hterm, hcovered, hinvoiced, ?_⟩
  rw [WatchedBilling.step, PlatformState.step, WatchedBilling.recorded, hrun, hterm, hget]
  dsimp only [Option.bind_some]
  rw [hend]
  rfl

/-- A run that is not due changes nothing. -/
theorem run_not_due (hnot : ∀ subscription periodEnd,
    w.subscriptions.store.get firmId = some subscription → subscription.status = .active →
    subscription.currentPeriodEnd = some periodEnd → w.state.clock < periodEnd)
    (beforeCreated beforeIssued beforeAdvanced : ℕ) :
    w.step (.runBillingCycle firmId beforeCreated beforeIssued beforeAdvanced) =
      { w with state := { w.state with
        clock := (w.state.readings beforeCreated beforeIssued beforeAdvanced).advanced } } := by
  have hrun := runBillingCycle_not_due (w.state.readings beforeCreated beforeIssued beforeAdvanced) hnot
  rw [WatchedBilling.step, PlatformState.step, WatchedBilling.recorded]
  obtain ⟨e, hrun⟩ | hrun := hrun <;> rw [hrun] <;> rfl

/-- The period that a run bills on time is followed by the next one. -/
lemma Covered.billed_next {term : Term} (h : Covered term subscription billing)
    (hinvoiced : Invoiced subscription.firmId billing billing')
    (hend : subscription.currentPeriodEnd = some periodEnd) :
    Covered { term with billed := term.billed ++ [periodEnd] } { subscription with
      currentPeriodEnd := some (periodEndForCycle subscription.billingCycle periodEnd) } billing' where
  billed := by
    have hperiodEnd := Option.some.inj (hend.symm.trans h.current)
    rw [List.length_append, List.length_singleton, List.range_succ, List.map_append, hperiodEnd]
    exact congrArg (· ++ _) h.billed
  current := by
    have hperiodEnd := Option.some.inj (hend.symm.trans h.current)
    rw [List.length_append, List.length_singleton, hperiodEnd]
    exact congrArg some (periodEnd_succ term subscription.billingCycle term.billed.length).symm
  invoices := by
    rw [List.length_append, List.length_singleton, ← Nat.add_assoc, ← h.invoices]
    exact (hinvoiced.count _).trans (congrArg _ (if_pos rfl))

/-- The clock is read last when the run is over. -/
lemma clock_le_advanced (s : PlatformState) (beforeCreated beforeIssued beforeAdvanced : ℕ) :
    s.clock ≤ (s.readings beforeCreated beforeIssued beforeAdvanced).advanced := by
  show s.clock ≤ s.clock + beforeCreated + beforeIssued + beforeAdvanced
  omega

/-- A run finds the subscription of the firm due. -/
def FindsDue (w : WatchedBilling) (firmId : String) (subscription : Subscription) (periodEnd : ℤ) : Prop :=
  w.subscriptions.store.get firmId = some subscription ∧ subscription.status = .active ∧
    subscription.currentPeriodEnd = some periodEnd ∧ periodEnd ≤ w.state.clock

lemma not_due (hnot : ¬ ∃ subscription periodEnd, FindsDue w firmId subscription periodEnd) :
    ∀ subscription periodEnd, w.subscriptions.store.get firmId = some subscription →
      subscription.status = .active → subscription.currentPeriodEnd = some periodEnd →
      w.state.clock < periodEnd := by
  intro subscription periodEnd hget hactive hend
  by_contra hle
  exact hnot ⟨subscription, periodEnd, hget, hactive, hend, not_lt.mp hle⟩

/-- **One disciplined operation.**  The invariant is kept. -/
theorem BillingSound.step (h : BillingSound w) (hop : RunsOnTime w op) : BillingSound (w.step op) := by
  cases op with
  | subscriptions op => exact h.step_subscriptions op
  | tick duration => exact ⟨h.contiguous, h.numbered, h.sold, h.below⟩
  | runBillingCycle firmId beforeCreated beforeIssued beforeAdvanced =>
    by_cases hdue : ∃ subscription periodEnd, FindsDue w firmId subscription periodEnd
    · obtain ⟨subscription, periodEnd, hget, hactive, hend, hle⟩ := hdue
      obtain ⟨billing, term, hterm, hcovered, hinvoiced, hstep⟩ :=
        run_due h hget hactive hend hle beforeCreated beforeIssued beforeAdvanced
      rw [hop subscription periodEnd hget hactive hend hle] at hstep
      obtain rfl := Store.key_of_get hget
      rw [hstep]
      refine ⟨?_, h.numbered, sold_save h (h.sold _ subscription hget), hinvoiced.below⟩
      refine h.contiguous.save _ (fun other hne => Dict.get_set_of_ne _ _ hne) (fun other hne => ?_)
        fun _ => ⟨_, Dict.get_set_self .., hcovered.billed_next hinvoiced hend⟩
      exact (hinvoiced.count other).trans (congrArg _ (if_neg hne))
    · rw [run_not_due (not_due hdue)]
      exact ⟨h.contiguous, h.numbered, h.sold, h.below⟩

/-- **One operation.**  Where the invariant holds, an operation bills exactly the time that has passed iff
it is not a run that comes late. -/
theorem billsExactly_iff (h : BillingSound w) (op : PlatformOperation) :
    BillsExactly w op ↔ RunsOnTime w op := by
  constructor
  · intro hafter
    cases op with
    | runBillingCycle firmId beforeCreated beforeIssued beforeAdvanced =>
      intro subscription periodEnd hget hactive hend hle
      obtain ⟨billing, term, -, hcovered, -, hstep⟩ :=
        run_due h hget hactive hend hle beforeCreated beforeIssued beforeAdvanced
      obtain rfl := Store.key_of_get hget
      have hcontiguous := hafter.contiguous
      rw [hstep] at hcontiguous
      obtain ⟨term', hterm', hcovered'⟩ :=
        hcontiguous subscription.firmId _ (Store.get_save_self ..) hactive
      obtain rfl := Option.some.inj ((Dict.get_set_self ..).symm.trans hterm')
      -- the next period should end one cycle after this one, and ends one cycle after the last reading
      have hnext := Option.some.inj hcovered'.current
      rw [List.length_append, List.length_singleton] at hnext
      have hends := hnext.trans (periodEnd_succ term subscription.billingCycle term.billed.length)
      rw [← Option.some.inj (hend.symm.trans hcovered.current)] at hends
      exact add_right_cancel hends
    | _ => trivial
  · intro hop
    refine ⟨(h.step hop).contiguous, ?_⟩
    rintro firmId beforeCreated beforeIssued beforeAdvanced rfl saved after hsaved hactive hafter k hk
    by_cases hdue : ∃ subscription periodEnd, FindsDue w firmId subscription periodEnd
    · obtain ⟨subscription, periodEnd, hget, hactive, hend, hle⟩ := hdue
      obtain ⟨billing, term, hterm, hcovered, hinvoiced, hstep⟩ :=
        run_due h hget hactive hend hle beforeCreated beforeIssued beforeAdvanced
      have hadvanced := hop subscription periodEnd hget hactive hend hle
      have hclock := clock_le_advanced w.state beforeCreated beforeIssued beforeAdvanced
      rw [hadvanced] at hstep hclock
      obtain rfl := Store.key_of_get hget
      rw [hstep] at hsaved hafter
      obtain rfl := Option.some.inj ((Store.get_save_self ..).symm.trans hsaved)
      obtain rfl := Option.some.inj ((Dict.get_set_self ..).symm.trans hafter)
      refine (hcovered.billed_next hinvoiced hend).count_eq_one ?_
      rw [List.length_append, List.length_singleton, Nat.lt_succ_iff]
      refine (periodEnd_le_iff term subscription.billingCycle).mp ?_
      rw [← Option.some.inj (hend.symm.trans hcovered.current)]
      exact hk.trans hclock
    · have hnot := not_due hdue
      rw [run_not_due hnot] at hsaved hafter
      obtain ⟨term, hterm, hcovered⟩ := h.contiguous firmId saved hsaved hactive
      obtain rfl := Option.some.inj (hterm.symm.trans hafter)
      refine hcovered.count_eq_one ?_
      rw [← not_le, ← periodEnd_le_iff term saved.billingCycle, not_le]
      exact hk.trans_lt (hnot saved _ hsaved hactive hcovered.current)

end Steps

/-- **Time is billed exactly, exactly.**  In every state that a run reaches, the periods billed of
every active subscription follow one another from its activation, each of the length of the cycle, and
after each run of the billing cycle all those that have elapsed are billed, once; iff no run of the
billing cycle that finds an invoice due is over later than the period. -/
theorem along_billsExactly_iff (clock : ℤ) (discountPercent : ℚ) (ops : List PlatformOperation) :
    Along WatchedBilling.step BillsExactly ⟨⟨{ discountPercent }, clock⟩, ∅⟩ ops ↔
      Along WatchedBilling.step RunsOnTime ⟨⟨{ discountPercent }, clock⟩, ∅⟩ ops :=
  along_congr (billingSound_start clock discountPercent) (fun _ _ h hop => h.step hop)
    (fun _ op h => billsExactly_iff h op)

/-! ### A run that comes late -/

/-- A monthly subscription is billed one day after its first period has ended. -/
def billedLate : List PlatformOperation :=
  [.subscriptions (.publish .basic ∅ 49 490),
    .subscriptions (.startTrial "firm-1" "plan-basic-v1"),
    .subscriptions (.activate "firm-1" .monthly),
    .tick 2678400000000,
    .runBillingCycle "firm-1" 0 0 0]

/-- The second period ends 61 days after the activation. -/
theorem billed_a_day_late :
    ¬ Along WatchedBilling.step BillsExactly ⟨⟨{}, 0⟩, ∅⟩ billedLate := by
  rintro ⟨-, -, -, -, hexactly, -⟩
  let w := run WatchedBilling.step ⟨⟨{}, 0⟩, ∅⟩ billedLate
  have hnow : (w.subscriptions.store.get "firm-1").map (fun subscription =>
      (subscription.status, subscription.billingCycle, subscription.currentPeriodEnd)) =
      some (.active, .monthly, some (days 61)) := by decide +kernel
  have hbilled : (w.terms.get "firm-1").map (fun term => (term.start, term.billed.length)) = some (0, 1) := by
    decide +kernel
  obtain ⟨subscription, hget, hsubscription⟩ := Option.map_eq_some_iff.mp hnow
  simp only [Prod.mk.injEq] at hsubscription
  obtain ⟨hactive, hcycle, hend⟩ := hsubscription
  obtain ⟨term, hterm, hcovered⟩ := hexactly.contiguous "firm-1" subscription hget hactive
  rw [show (w.terms.get "firm-1") = some term from hterm, Option.map_some, Option.some.injEq,
    Prod.mk.injEq] at hbilled
  have hcurrent := hcovered.current
  rw [hend, hcycle, Term.periodEnd, hbilled.1, hbilled.2] at hcurrent
  exact absurd hcurrent (by decide)

end Tmis.BusinessPlatform
