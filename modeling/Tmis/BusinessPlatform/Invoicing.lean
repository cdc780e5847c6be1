import Tmis.BusinessPlatform.Subscriptions
import Tmis.CabinetOs.Billing

/-!
# Invoices for subscriptions

`business_platform.pricing`, `billing` and `invoicing`: what a period of a subscription costs, the invoice
for it, and when it is due.  A run of the billing cycle reads the clock when it looks whether an invoice
is due, when it makes the invoice and issues it, and once more when it rolls the period forward.

* `priceFor` — `PricingEngine.price_for`;
* `InvoicingEngine.invoiceForSubscription` — `SubscriptionBillingEngine.invoice_for_subscription`;
* `InvoicingEngine.isDue`, `runBillingCycle` — the calls of `InvoicingEngine`;
* `PlatformOperation`, `PlatformState.step` — one call, or time that passes;
* `runBillingCycle_due`, `runBillingCycle_not_due` — what a run does.
-/

namespace Tmis.BusinessPlatform

open Tmis.Lib Tmis.CabinetOs

structure PriceQuote where
  planId : String
  billingCycle : BillingCycle
  baseAmount : ℚ
  discountPercent : ℚ
  finalAmount : ℚ
  currency : String := "USD"

def priceFor (plan : Plan) (billingCycle : BillingCycle) (discountPercent : ℚ) : PriceQuote :=
  let baseAmount := if billingCycle = .annual then plan.annualPriceUsd else plan.monthlyPriceUsd
  { planId := plan.id
    billingCycle
    baseAmount
    discountPercent
    finalAmount := baseAmount * (1 - discountPercent / 100) }

/-- The engine with the ones it is given, and the discount of the one for billing. -/
structure InvoicingEngine where
  billing : BillingEngine := {}
  subscriptions : SubscriptionEngine := {}
  discountPercent : ℚ := 0

/-- When a run of the billing cycle reads the clock. -/
structure Readings where
  checked : ℤ
  created : ℤ
  issued : ℤ
  advanced : ℤ

namespace InvoicingEngine

variable (engine : InvoicingEngine)

def invoiceForSubscription (firmId : String) (created issued : ℤ) :
    Except PyException (Invoice × InvoicingEngine) := do
  let subscription ← engine.subscriptions.get firmId
  let plan ← engine.subscriptions.plans.get subscription.planId
  let price := priceFor plan subscription.billingCycle engine.discountPercent
  let (invoice, billing) := engine.billing.createInvoice firmId firmId none created
  let (_, billing) ← billing.addInvoiceLine invoice.id
    ("Abonnement " ++ plan.name.value ++ " (" ++ subscription.billingCycle.value ++ ")") 1
    price.finalAmount .flatFee
  let (invoice, billing) ← billing.issueInvoice invoice.id none issued
  return (invoice, { engine with billing })

def isDue (firmId : String) (now : ℤ) : Except PyException Bool := do
  let subscription ← engine.subscriptions.get firmId
  if subscription.status ≠ .active then return false
  match subscription.currentPeriodEnd with
  | none => return false
  | some periodEnd => return periodEnd ≤ now

def runBillingCycle (firmId : String) (times : Readings) :
    Except PyException (Option Invoice × InvoicingEngine) := do
  let due ← engine.isDue firmId times.checked
  if !due then return (none, engine)
  let (invoice, engine) ← engine.invoiceForSubscription firmId times.created times.issued
  let (_, subscriptions) ← engine.subscriptions.advancePeriod firmId times.advanced
  return (some invoice, { engine with subscriptions })

end InvoicingEngine

/-! ### Runs -/

/-- The engine, and the time. -/
structure PlatformState where
  engine : InvoicingEngine
  clock : ℤ

/-- A call of the subscriptions, a run of the billing cycle with the time that passes between its
readings, or time that passes. -/
inductive PlatformOperation where
  | subscriptions (op : SubscriptionOperation)
  | runBillingCycle (firmId : String) (beforeCreated beforeIssued beforeAdvanced : ℕ)
  | tick (duration : ℕ)

namespace PlatformState

/-- The readings of a run that begins now. -/
def readings (s : PlatformState) (beforeCreated beforeIssued beforeAdvanced : ℕ) : Readings where
  checked := s.clock
  created := s.clock + beforeCreated
  issued := s.clock + beforeCreated + beforeIssued
  advanced := s.clock + beforeCreated + beforeIssued + beforeAdvanced

def step (s : PlatformState) : PlatformOperation → PlatformState
  | .subscriptions op =>
      { s with engine := { s.engine with subscriptions := s.engine.subscriptions.after s.clock op } }
  | .runBillingCycle firmId beforeCreated beforeIssued beforeAdvanced =>
      let times := s.readings beforeCreated beforeIssued beforeAdvanced
      { engine := afterCall s.engine ((s.engine.runBillingCycle firmId times).map Prod.snd)
        clock := times.advanced }
  | .tick duration => { s with clock := s.clock + duration }

end PlatformState

/-! ### What a run does -/

section Returns

variable {engine : InvoicingEngine} {firmId : String} {subscription : Subscription} {plan : Plan}
  {periodEnd : ℤ}

/-- The number of invoices of a firm. -/
def invoicesOf (billing : BillingEngine) (firmId : String) : ℕ :=
  billing.invoices.values.countP (·.firmId = firmId)

/-- The engine for billing has made one more invoice, for the firm. -/
structure Invoiced (firmId : String) (billing billing' : BillingEngine) : Prop where
  below : billing'.invoices.Below billing'.uuids
  count : ∀ firmId', invoicesOf billing' firmId' =
    invoicesOf billing firmId' + if firmId' = firmId then 1 else 0

lemma invoiced_createInvoice {billing : BillingEngine} (hbelow : billing.invoices.Below billing.uuids)
    (firmId clientId : String) (caseId : Option String) (now : ℤ) :
    Invoiced firmId billing (billing.createInvoice firmId clientId caseId now).2 where
  below := (hbelow.mono (Nat.le_succ _)).save (Nat.lt_succ_self _)
  count firmId' := by
    refine (Store.countP_save_new _ (hbelow.get_eq_none (Nat.le_refl _))).trans ?_
    by_cases hfirm : firmId' = firmId
    · subst hfirm
      simp [invoicesOf]
    · simp [invoicesOf, hfirm, Ne.symm hfirm]

/-- An invoice that is written over counts for the firm it counted for. -/
lemma Invoiced.save {billing billing' billing'' : BillingEngine} {invoice : Invoice}
    (h : Invoiced firmId billing billing') (invoice' : Invoice)
    (hget : billing'.invoices.get invoice'.id = some invoice) (hfirm : invoice'.firmId = invoice.firmId)
    (hinvoices : billing''.invoices = billing'.invoices.save invoice')
    (hle : billing'.uuids ≤ billing''.uuids) : Invoiced firmId billing billing'' where
  below := by
    rw [hinvoices]
    exact (h.below.mono hle).save (Nat.lt_of_lt_of_le (h.below _ _ hget) hle)
  count firmId' := by
    rw [← h.count firmId', invoicesOf, hinvoices]
    have hcount := Store.countP_save_over (fun invoice : Invoice => decide (invoice.firmId = firmId'))
      hget
    rw [hfirm] at hcount
    exact Nat.add_right_cancel hcount

/-- **An invoice is made** for every subscription whose plan is in the catalog. -/
theorem invoiceForSubscription_ok (hbelow : engine.billing.invoices.Below engine.billing.uuids)
    (hget : engine.subscriptions.store.get firmId = some subscription)
    (hplan : engine.subscriptions.plans.store.get subscription.planId = some plan) (created issued : ℤ) :
    ∃ invoice billing, engine.invoiceForSubscription firmId created issued =
      .ok (invoice, { engine with billing }) ∧ Invoiced firmId engine.billing billing := by
  unfold InvoicingEngine.invoiceForSubscription
  rw [subscription_ok.mpr hget]
  simp only [bind, Except.bind]
  rw [get_ok.mpr hplan]
  dsimp only
  have hcreated := invoiced_createInvoice hbelow firmId firmId none created
  have hfirst : (engine.billing.createInvoice firmId firmId none created).2.invoices.get
      (engine.billing.createInvoice firmId firmId none created).1.id = some _ :=
    Store.get_save_self ..
  generalize engine.billing.createInvoice firmId firmId none created = draft at hcreated hfirst ⊢
  -- the line is added to the draft, and the draft with the line is issued
  obtain ⟨r, hadd⟩ := BillingEngine.addInvoiceLine_finds hfirst
    ("Abonnement " ++ plan.name.value ++ " (" ++ subscription.billingCycle.value ++ ")") 1
    (priceFor plan subscription.billingCycle engine.discountPercent).finalAmount .flatFee 0
  obtain ⟨hid, hsecond⟩ := BillingEngine.get_of_addInvoiceLine_ok hadd
  obtain ⟨found, hfound, hline, hbilling⟩ := BillingEngine.addInvoiceLine_ok.mp hadd
  have hinvoices : r.2.invoices = draft.2.invoices.save r.1 := by rw [hbilling]
  have hle : draft.2.uuids ≤ r.2.uuids := by
    rw [hbilling]
    exact Nat.le_succ _
  have hadded := hcreated.save r.1 (hid ▸ hfound) (by rw [hline]) hinvoices hle
  rw [hadd]
  dsimp only
  rw [← hid, BillingEngine.issueInvoice_ok.mpr ⟨r.1, hsecond, rfl⟩]
  exact ⟨_, _, rfl, hadded.save (BillingEngine.issued r.1 none issued) hsecond rfl rfl (Nat.le_refl _)⟩

/-- **A run that is due** makes one invoice and rolls the period forward from the time it reads. -/
theorem runBillingCycle_due (times : Readings)
    (hbelow : engine.billing.invoices.Below engine.billing.uuids)
    (hget : engine.subscriptions.store.get firmId = some subscription)
    (hplan : engine.subscriptions.plans.store.get subscription.planId = some plan)
    (hactive : subscription.status = .active) (hend : subscription.currentPeriodEnd = some periodEnd)
    (hdue : periodEnd ≤ times.checked) :
    ∃ invoice billing, engine.runBillingCycle firmId times = .ok (some invoice, { engine with
        billing
        subscriptions := engine.subscriptions.save { subscription with
          currentPeriodEnd := some (periodEndForCycle subscription.billingCycle times.advanced) } }) ∧
      Invoiced firmId engine.billing billing := by
  obtain ⟨invoice, billing, hcall, hinvoiced⟩ :=
    invoiceForSubscription_ok hbelow hget hplan times.created times.issued
  refine ⟨invoice, billing, ?_, hinvoiced⟩
  have hcheck : engine.isDue firmId times.checked = .ok true := by
    unfold InvoicingEngine.isDue
    rw [subscription_ok.mpr hget]
    simp [bind, Except.bind, hactive, hend, hdue, pure, Except.pure]
  unfold InvoicingEngine.runBillingCycle
  rw [hcheck]
  simp only [bind, Except.bind, Bool.not_true, Bool.false_eq_true, if_false, hcall]
  rw [SubscriptionEngine.advancePeriod, subscription_ok.mpr hget]
  rfl

/-- A run that is not due makes no invoice. -/
theorem runBillingCycle_not_due (times : Readings) (hnot : ∀ subscription periodEnd,
    engine.subscriptions.store.get firmId = some subscription → subscription.status = .active →
    subscription.currentPeriodEnd = some periodEnd → times.checked < periodEnd) :
    (∃ e, engine.runBillingCycle firmId times = .error e) ∨
      engine.runBillingCycle firmId times = .ok (none, engine) := by
  unfold InvoicingEngine.runBillingCycle InvoicingEngine.isDue
  cases hget : engine.subscriptions.store.get firmId with
  | none =>
    rw [SubscriptionEngine.get, hget]
    exact Or.inl ⟨_, rfl⟩
  | some subscription =>
    rw [subscription_ok.mpr hget]
    refine Or.inr ?_
    by_cases hactive : subscription.status = .active
    · cases hend : subscription.currentPeriodEnd with
      | none => simp [bind, Except.bind, hactive, hend, pure, Except.pure]
      | some periodEnd =>
        have hlt := hnot subscription periodEnd hget hactive hend
        simp [bind, Except.bind, hactive, hend, pure, Except.pure, hlt]
    · simp [bind, Except.bind, hactive, pure, Except.pure]

end Returns

end Tmis.BusinessPlatform
