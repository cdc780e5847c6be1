import Mathlib.Tactic.Linarith
import Tmis.CabinetOs.Billing

/-!
# Quotes that become invoices

`convert_quote_to_invoice` asks that the quote stands accepted, and nothing else: not whether it has
been converted before, and not whether lines were added after it was accepted.

* `Watched` — a run of the engine with each quote as it was when it was accepted;
* `InvoicesFaithfully`, `ConvertsAccepted` — what is asked of a call, and the condition on it;
* `invoicesFaithfully_iff` — one call;
* `along_invoicesFaithfully_iff` — over every run.
-/

namespace Tmis.CabinetOs

open Tmis.Lib BillingEngine

def Quote.total (quote : Quote) : ℚ := documentTotal quote.lineItems quote.globalDiscountPercent

def Invoice.total (invoice : Invoice) : ℚ := documentTotal invoice.lineItems invoice.globalDiscountPercent

/-- The engine, and each quote as it was when it was last accepted. -/
structure Watched where
  engine : BillingEngine := {}
  accepted : Dict Uuid Quote := ∅

namespace Watched

/-- The quotes as they were accepted, after an operation. -/
def recorded (w : Watched) : Operation → Dict Uuid Quote
  | .acceptQuote quoteId now =>
    match w.engine.acceptQuote quoteId now with
    | .ok (quote, _) => w.accepted.set quoteId quote
    | .error _ => w.accepted
  | _ => w.accepted

def step (w : Watched) (op : Operation) : Watched where
  engine := CabinetOs.step w.engine op
  accepted := w.recorded op

end Watched

/-- At most one invoice is made of each quote. -/
def InvoicedOnce (engine : BillingEngine) : Prop :=
  ∀ i j invoice invoice' quoteId, engine.invoices.get i = some invoice →
    engine.invoices.get j = some invoice' → invoice.quoteId = some quoteId →
    invoice'.quoteId = some quoteId → i = j

/-- After the operation at most one invoice is made of each quote; and an invoice that it makes is made
of a quote that was accepted, for the total that was accepted. -/
structure InvoicesFaithfully (w : Watched) (op : Operation) : Prop where
  once : InvoicedOnce (w.step op).engine
  asAccepted : ∀ quoteId dueAt now invoice engine, op = .convertQuoteToInvoice quoteId dueAt now →
    w.engine.convertQuoteToInvoice quoteId dueAt now = .ok (invoice, engine) →
    ∃ quote, w.accepted.get quoteId = some quote ∧ invoice.total = quote.total

/-- An accepted quote is converted only if it has no invoice, and if the lines added to it after it was
accepted come to nothing. -/
def ConvertsAccepted (w : Watched) : Operation → Prop
  | .convertQuoteToInvoice quoteId _ _ => ∀ quote, w.engine.quotes.get quoteId = some quote →
      quote.status = .accepted →
      (∀ i invoice, w.engine.invoices.get i = some invoice → invoice.quoteId ≠ some quoteId) ∧
      ∀ before, w.accepted.get quoteId = some before →
        documentTotal (quote.lineItems.drop before.lineItems.length) quote.globalDiscountPercent = 0
  | _ => True

/-! ### The invariant -/

/-- What is kept of a quote since it was accepted: its lines are only added to. -/
structure Grown (before quote : Quote) : Prop where
  discount : quote.globalDiscountPercent = before.globalDiscountPercent
  lines : before.lineItems <+: quote.lineItems

lemma Grown.refl (quote : Quote) : Grown quote quote := ⟨rfl, List.prefix_rfl⟩

/-- What was added since then is the difference of the totals. -/
lemma Grown.total_eq {before quote : Quote} (h : Grown before quote) :
    quote.total = before.total +
      documentTotal (quote.lineItems.drop before.lineItems.length) quote.globalDiscountPercent := by
  obtain ⟨added, hadded⟩ := h.lines
  rw [Quote.total, Quote.total, h.discount, ← hadded, List.drop_left]
  simp only [documentTotal, List.map_append, List.sum_append]
  ring

namespace Watched

/-- The invariant of disciplined runs. -/
structure Sound (w : Watched) : Prop where
  once : InvoicedOnce w.engine
  accepted : ∀ id quote, w.engine.quotes.get id = some quote → quote.status = .accepted →
    ∃ before, w.accepted.get id = some before
  grown : ∀ id before, w.accepted.get id = some before →
    ∃ quote, w.engine.quotes.get id = some quote ∧ Grown before quote
  quotes_lt : w.engine.quotes.Below w.engine.uuids
  invoices_lt : w.engine.invoices.Below w.engine.uuids

lemma sound_start : Sound {} where
  once _ _ _ _ _ h := by cases h
  accepted _ _ h := by cases h
  grown _ _ h := by cases h
  quotes_lt := Store.below_empty _
  invoices_lt := Store.below_empty _

section Preserve

variable {w : Watched} {engine' : BillingEngine} {quote : Quote}

/-- A quote is written; only its own acceptance may change. -/
lemma Sound.writeQuote (h : Sound w) (accepted' : Dict Uuid Quote)
    (hquotes : engine'.quotes = w.engine.quotes.save quote)
    (hinvoices : engine'.invoices = w.engine.invoices)
    (huuids : w.engine.uuids ≤ engine'.uuids) (hlt : quote.id < engine'.uuids)
    (hothers : ∀ id, id ≠ quote.id → accepted'.get id = w.accepted.get id)
    (haccepted : quote.status = .accepted → ∃ before, accepted'.get quote.id = some before)
    (hgrown : ∀ before, accepted'.get quote.id = some before → Grown before quote) :
    Sound ⟨engine', accepted'⟩ where
  once := by
    rw [InvoicedOnce, hinvoices]
    exact h.once
  accepted id quote' hget hstatus := by
    rw [hquotes] at hget
    obtain ⟨rfl, rfl⟩ | ⟨hne, hget⟩ := Store.get_save_cases hget
    · exact haccepted hstatus
    · rw [hothers id hne]
      exact h.accepted id quote' hget hstatus
  grown id before hbefore := by
    rw [hquotes]
    by_cases hid : id = quote.id
    · subst hid
      exact ⟨quote, Store.get_save_self .., hgrown before hbefore⟩
    · rw [hothers id hid] at hbefore
      obtain ⟨quote', hget, hsince⟩ := h.grown id before hbefore
      exact ⟨quote', (Store.get_save ..).trans ((if_neg hid).trans hget), hsince⟩
  quotes_lt := by
    rw [hquotes]
    exact (h.quotes_lt.mono huuids).save hlt
  invoices_lt := by
    rw [hinvoices]
    exact h.invoices_lt.mono huuids

/-- The quote is changed in a way that keeps its lines and its discount. -/
lemma Sound.changeQuote (h : Sound w) {id : Uuid} {found : Quote}
    (hget : w.engine.quotes.get id = some found)
    (hquotes : engine'.quotes = w.engine.quotes.save quote) (hid : quote.id = found.id)
    (hsince : Grown found quote) (hinvoices : engine'.invoices = w.engine.invoices)
    (huuids : w.engine.uuids ≤ engine'.uuids)
    (hstatus : quote.status = .accepted → found.status = .accepted) :
    Sound ⟨engine', w.accepted⟩ := by
  obtain rfl := Store.key_of_get hget
  refine h.writeQuote w.accepted hquotes hinvoices huuids ?_ (fun _ _ => rfl) ?_ ?_
  · rw [hid]
    exact (h.quotes_lt _ _ hget).trans_le huuids
  · intro haccepted
    rw [hid]
    exact h.accepted _ _ hget (hstatus haccepted)
  · intro before hbefore
    rw [hid] at hbefore
    obtain ⟨found', hget', hsince'⟩ := h.grown _ _ hbefore
    obtain rfl := Option.some.inj (hget.symm.trans hget')
    exact ⟨hsince.discount.trans hsince'.discount, hsince'.lines.trans hsince.lines⟩

/-- An invoice is written that is new, or that was there already with the same quote. -/
lemma Sound.writeInvoice (h : Sound w) (invoice : Invoice)
    (hinvoices : ∀ j, engine'.invoices.get j =
      if j = invoice.id then some invoice else w.engine.invoices.get j)
    (hquotes : engine'.quotes = w.engine.quotes) (huuids : w.engine.uuids ≤ engine'.uuids)
    (hlt : invoice.id < engine'.uuids)
    (hquoteId : ∀ quoteId, invoice.quoteId = some quoteId → ∀ j invoice',
      w.engine.invoices.get j = some invoice' → invoice'.quoteId = some quoteId → j = invoice.id) :
    Sound ⟨engine', w.accepted⟩ where
  once i j found found' quoteId hi hj hquote hquote' := by
    rw [hinvoices] at hi hj
    split at hi <;> split at hj
    · exact (‹i = _›).trans (‹j = _›).symm
    · cases hi
      exact (‹i = _›).trans (hquoteId quoteId hquote j found' hj hquote').symm
    · cases hj
      exact (hquoteId quoteId hquote' i found hi hquote).trans (‹j = _›).symm
    · exact h.once i j found found' quoteId hi hj hquote hquote'
  accepted := by
    rw [hquotes]
    exact h.accepted
  grown := by
    rw [hquotes]
    exact h.grown
  quotes_lt := by
    rw [hquotes]
    exact h.quotes_lt.mono huuids
  invoices_lt := by
    intro j found hget
    rw [hinvoices] at hget
    split at hget
    · rename_i hj
      rw [hj]
      exact hlt
    · exact (h.invoices_lt j found hget).trans_le huuids

/-- An invoice is changed, and its quote is not. -/
lemma Sound.changeInvoice (h : Sound w) {id : Uuid} {found invoice : Invoice}
    (hget : w.engine.invoices.get id = some found)
    (hinvoices : engine'.invoices = w.engine.invoices.save invoice) (hid : invoice.id = found.id)
    (hquoteId : invoice.quoteId = found.quoteId) (hquotes : engine'.quotes = w.engine.quotes)
    (huuids : w.engine.uuids ≤ engine'.uuids) :
    Sound ⟨engine', w.accepted⟩ := by
  obtain rfl := Store.key_of_get hget
  refine h.writeInvoice invoice ?_ hquotes huuids ?_ ?_
  · intro j
    rw [hinvoices]
    exact Store.get_save ..
  · rw [hid]
    exact (h.invoices_lt _ _ hget).trans_le huuids
  · intro quoteId hquote j invoice' hj hquote'
    rw [hid]
    exact h.once j found.id invoice' found quoteId hj hget hquote' (hquoteId ▸ hquote)

end Preserve

/-! ### One operation -/

section Steps

variable {w : Watched}

lemma sound_call (h : Sound w) {X : Type} {call : Except PyException (X × BillingEngine)}
    (hok : ∀ r, call = .ok r → Sound ⟨r.2, w.accepted⟩) :
    Sound ⟨afterCall w.engine (call.map Prod.snd), w.accepted⟩ :=
  (afterCall_map_iff (P := fun engine => Sound ⟨engine, w.accepted⟩) h).mpr hok

/-- An acceptance: the quote as it is accepted is what is kept of it. -/
lemma Sound.acceptQuote (h : Sound w) (quoteId : Uuid) (now : ℤ) :
    Sound (w.step (.acceptQuote quoteId now)) := by
  cases hcall : w.engine.acceptQuote quoteId now with
  | error e =>
    have hstep : w.step (.acceptQuote quoteId now) = w := by
      simp only [step, recorded, CabinetOs.step, hcall]
      rfl
    rw [hstep]
    exact h
  | ok r =>
    obtain ⟨found, hget, hquote, hengine⟩ := acceptQuote_ok.mp hcall
    have hkey := Store.key_of_get hget
    have hid : r.1.id = quoteId := by
      rw [hquote]
      exact hkey
    have hstep : w.step (.acceptQuote quoteId now) = ⟨r.2, w.accepted.set quoteId r.1⟩ := by
      simp only [step, recorded, CabinetOs.step, hcall]
      rfl
    rw [hstep]
    subst hid
    refine h.writeQuote (w.accepted.set r.1.id r.1) (congrArg quotes hengine) ?_ ?_ ?_ ?_ ?_ ?_
    · rw [hengine]
    · rw [hengine]
    · rw [hengine]
      exact h.quotes_lt _ _ hget
    · exact fun id hne => Dict.get_set_of_ne _ _ hne
    · exact fun _ => ⟨r.1, Dict.get_set_self ..⟩
    · intro before hbefore
      rw [Dict.get_set_self, Option.some.injEq] at hbefore
      subst hbefore
      exact .refl _

/-- **One disciplined operation.**  The invariant is kept. -/
theorem Sound.step (h : Sound w) {op : Operation} (hop : ConvertsAccepted w op) : Sound (w.step op) := by
  cases op with
  | createQuote firmId clientId caseId now =>
    refine h.writeQuote w.accepted rfl rfl (Nat.le_succ _) (Nat.lt_succ_self _) (fun _ _ => rfl)
      (fun hstatus => by cases hstatus) fun before hbefore => ?_
    obtain ⟨quote, hget, -⟩ := h.grown _ _ hbefore
    exact absurd (h.quotes_lt _ _ hget) (Nat.lt_irrefl _)
  | addQuoteLine quoteId description quantity unitPrice feeType discountPercent =>
    refine sound_call h fun r hr => ?_
    obtain ⟨found, hget, hquote, hengine⟩ := addQuoteLine_ok.mp hr
    refine h.changeQuote hget (congrArg quotes hengine) ?_ ?_ ?_ ?_ ?_
    · rw [hquote]
    · rw [hquote]
      exact ⟨rfl, List.prefix_append _ _⟩
    · rw [hengine]
    · rw [hengine]
      exact Nat.le_succ _
    · rw [hquote]
      exact id
  | sendQuote quoteId =>
    refine sound_call h fun r hr => ?_
    obtain ⟨found, hget, rfl⟩ := sendQuote_ok.mp hr
    exact h.changeQuote hget rfl rfl ⟨rfl, List.prefix_rfl⟩ rfl (Nat.le_refl _) nofun
  | acceptQuote quoteId now => exact h.acceptQuote quoteId now
  | convertQuoteToInvoice quoteId dueAt now =>
    refine sound_call h fun r hr => ?_
    obtain ⟨quote, hget, hstatus, hinvoice, hengine⟩ := convertQuoteToInvoice_ok.mp hr
    obtain ⟨hnone, -⟩ := hop quote hget hstatus
    refine h.writeInvoice r.1 ?_ ?_ ?_ ?_ ?_
    · intro j
      rw [hengine]
      refine Store.get_save_save (u := converted quote w.engine.uuids now) _ ?_ j
      rw [hinvoice]
      rfl
    · rw [hengine]
    · rw [hengine]
      exact Nat.le_succ _
    · rw [hengine, hinvoice]
      exact Nat.lt_succ_self _
    · intro quoteId' hquoteId j invoice' hj hquote'
      rw [hinvoice] at hquoteId
      obtain rfl := Option.some.inj hquoteId
      rw [Store.key_of_get hget] at hquote'
      exact absurd hquote' (hnone j invoice' hj)
  | createInvoice firmId clientId caseId now =>
    refine h.writeInvoice _ (fun j => Store.get_save ..) rfl (Nat.le_succ _) (Nat.lt_succ_self _) ?_
    intro quoteId hquoteId
    cases hquoteId
  | addInvoiceLine invoiceId description quantity unitPrice feeType discountPercent =>
    refine sound_call h fun r hr => ?_
    obtain ⟨found, hget, hinvoice, hengine⟩ := addInvoiceLine_ok.mp hr
    refine h.changeInvoice hget (congrArg invoices hengine) ?_ ?_ ?_ ?_
    · rw [hinvoice]
    · rw [hinvoice]
    · rw [hengine]
    · rw [hengine]
      exact Nat.le_succ _
  | issueInvoice invoiceId dueAt now =>
    refine sound_call h fun r hr => ?_
    obtain ⟨found, hget, rfl⟩ := issueInvoice_ok.mp hr
    exact h.changeInvoice hget rfl rfl rfl rfl (Nat.le_refl _)
  | recordPayment invoiceId amount method reference now =>
    refine sound_call h fun r hr => ?_
    obtain ⟨found, hget, -, hengine⟩ := recordPayment_ok.mp hr
    rw [hengine]
    exact h.changeInvoice hget rfl rfl rfl rfl (Nat.le_succ _)
  | issueCreditNote invoiceId amount reason now =>
    refine sound_call h fun r hr => ?_
    obtain ⟨found, hget, -, hengine⟩ := issueCreditNote_ok.mp hr
    rw [hengine]
    exact h.changeInvoice hget rfl rfl rfl rfl (Nat.le_succ _)

/-- An accepted quote is converted. -/
lemma convertQuoteToInvoice_returns {quoteId : Uuid} {dueAt : Option PyDatetime} {now : ℤ} {quote : Quote}
    (hget : w.engine.quotes.get quoteId = some quote) (hstatus : quote.status = .accepted)
    (e : PyException) : w.engine.convertQuoteToInvoice quoteId dueAt now ≠ .error e := by
  intro hraised
  rw [convertQuoteToInvoice, requireQuote_ok.mpr hget] at hraised
  simp only [hstatus, ne_eq, not_true_eq_false, if_false, issueInvoice, requireInvoice,
    Store.get_save, if_true, bind, Except.bind, pure, Except.pure] at hraised
  cases hraised

/-- **One operation.**  Where the invariant holds, an operation invoices faithfully iff it converts what
was accepted, once. -/
theorem invoicesFaithfully_iff (h : Sound w) (op : Operation) :
    InvoicesFaithfully w op ↔ ConvertsAccepted w op := by
  constructor
  · intro hafter
    cases op with
    | convertQuoteToInvoice quoteId dueAt now =>
      intro quote hget hstatus
      cases hcall : w.engine.convertQuoteToInvoice quoteId dueAt now with
      | error e => exact absurd hcall (convertQuoteToInvoice_returns hget hstatus e)
      | ok r =>
        obtain ⟨quote', hget', -, hinvoice, hengine⟩ := convertQuoteToInvoice_ok.mp hcall
        obtain rfl := Option.some.inj (hget.symm.trans hget')
        have hstep : (w.step (.convertQuoteToInvoice quoteId dueAt now)).engine = r.2 := by
          show afterCall w.engine ((w.engine.convertQuoteToInvoice quoteId dueAt now).map Prod.snd) = r.2
          rw [hcall]
          rfl
        constructor
        · -- an invoice that is there already is not the new one
          intro i found hi hquoteId
          have hnew : i ≠ w.engine.uuids := (h.invoices_lt i found hi).ne
          refine hnew (hafter.once i w.engine.uuids found r.1 quoteId ?_ ?_ hquoteId ?_)
          · rw [hstep, hengine, Store.get_save, Store.get_save, hinvoice]
            exact (if_neg hnew).trans ((if_neg hnew).trans hi)
          · rw [hstep, hengine, Store.get_save, hinvoice]
            exact if_pos rfl
          · rw [hinvoice]
            exact congrArg some (Store.key_of_get hget)
        · intro before hbefore
          obtain ⟨before', hbefore', htotal⟩ := hafter.asAccepted _ _ _ r.1 r.2 rfl hcall
          obtain rfl := Option.some.inj (hbefore.symm.trans hbefore')
          obtain ⟨quote', hget', hsince⟩ := h.grown _ _ hbefore
          obtain rfl := Option.some.inj (hget.symm.trans hget')
          rw [hinvoice] at htotal
          have hadded := hsince.total_eq.symm.trans htotal
          linarith
    | _ => trivial
  · intro hop
    refine ⟨(h.step hop).once, ?_⟩
    rintro quoteId dueAt now invoice engine rfl hr
    obtain ⟨quote, hget, hstatus, hinvoice, -⟩ := convertQuoteToInvoice_ok.mp hr
    obtain ⟨before, hbefore⟩ := h.accepted _ _ hget hstatus
    obtain ⟨quote', hget', hsince⟩ := h.grown _ _ hbefore
    obtain rfl := Option.some.inj (hget.symm.trans hget')
    refine ⟨before, hbefore, ?_⟩
    have htotal : invoice.total = quote.total := by
      rw [show invoice = _ from hinvoice]
      rfl
    rw [htotal, hsince.total_eq, (hop quote hget hstatus).2 before hbefore, add_zero]

end Steps

end Watched

/-- **Quotes are invoiced once, exactly.**  In every state that a run reaches at most one invoice is made
of each quote, and every conversion of the run makes an invoice of a quote that was accepted and for the
total that was accepted, iff every conversion is that of a quote without an invoice to which nothing was
added in between. -/
theorem along_invoicesFaithfully_iff (ops : List Operation) :
    Along Watched.step InvoicesFaithfully {} ops ↔ Along Watched.step ConvertsAccepted {} ops :=
  along_congr Watched.sound_start (fun _ _ h hop => h.step hop)
    (fun _ op h => Watched.invoicesFaithfully_iff h op)

/-! ### A quote that is converted twice -/

/-- A quote of 200 is accepted and converted, and converted again. -/
def convertedTwice : List Operation :=
  [.createQuote "firm-1" "client-1" none 0,
    .addQuoteLine 0 "Consultation" 2 100 .hourly 0,
    .sendQuote 0,
    .acceptQuote 0 0,
    .convertQuoteToInvoice 0 none 0,
    .convertQuoteToInvoice 0 none 0]

/-- The client is billed twice. -/
theorem converted_twice : ¬ Along Watched.step InvoicesFaithfully {} convertedTwice := by
  rintro ⟨-, -, -, -, -, hfaithful, -⟩
  let w := run Watched.step {} convertedTwice
  have hfirst : (w.engine.invoices.get 2).map (·.quoteId) = some (some 0) := by decide +kernel
  have hsecond : (w.engine.invoices.get 3).map (·.quoteId) = some (some 0) := by decide +kernel
  obtain ⟨first, hget, hquote⟩ := Option.map_eq_some_iff.mp hfirst
  obtain ⟨second, hget', hquote'⟩ := Option.map_eq_some_iff.mp hsecond
  exact absurd (hfaithful.once 2 3 first second 0 hget hget' hquote hquote') (by decide)

end Tmis.CabinetOs
