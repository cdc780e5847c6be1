import Tmis.CabinetOs.Billing

/-!
# The status of an invoice

The status is stored, what is due is recomputed from the lines, the credit notes and the payments.
`record_payment` sets the one after the other; the other calls that change what is due, or the status,
do not look at the other one.

* `Truthful` — what the status of an issued invoice says of what is due;
* `KeepsStatus` — the condition on a call;
* `truthful_step_iff` — one call;
* `along_truthful_iff` — over every run.
-/

namespace Tmis.CabinetOs

open Tmis.Lib BillingEngine

variable {engine engine' : BillingEngine} {id : Uuid} {invoice : Invoice} {op : Operation}

/-! ### What the status says -/

/-- A payment or a credit note is recorded on the invoice. -/
def Recorded (engine : BillingEngine) (id : Uuid) : Prop :=
  engine.paymentsFor id ≠ [] ∨ engine.creditNotesFor id ≠ []

instance (engine : BillingEngine) (id : Uuid) : Decidable (Recorded engine id) :=
  inferInstanceAs (Decidable (_ ∨ _))

/-- The status an amount due calls for. -/
def statusOf (due : ℚ) : InvoiceStatus := if due ≤ 0 then .paid else .partiallyPaid

/-- Once an invoice is issued and something is recorded on it, it is `PAID` if nothing is due, and
`PARTIALLY_PAID` otherwise. -/
def Truthful (engine : BillingEngine) : Prop :=
  ∀ id invoice due, engine.invoices.get id = some invoice → engine.totalDue id = .ok due →
    invoice.issuedAt ≠ none → Recorded engine id →
    invoice.status = if due ≤ 0 then .paid else .partiallyPaid

/-- The condition on a call.  An invoice is issued while nothing is recorded on it; where something is,
a line or a credit note that is added leaves what is due on the same side of zero; and what is recorded
first on an issued invoice is a payment. -/
def KeepsStatus (engine : BillingEngine) : Operation → Prop
  | .addInvoiceLine id description quantity unitPrice feeType discountPercent =>
      ∀ invoice, engine.invoices.get id = some invoice → invoice.issuedAt ≠ none → Recorded engine id →
        (engine.due invoice ≤ 0 ↔
          engine.due invoice +
            (LineItem.mk engine.uuids description quantity unitPrice feeType discountPercent).total *
              (1 - invoice.globalDiscountPercent / 100) ≤ 0)
  | .issueInvoice id _ _ => ∀ invoice, engine.invoices.get id = some invoice → ¬ Recorded engine id
  | .issueCreditNote id amount _ _ =>
      ∀ invoice, engine.invoices.get id = some invoice → invoice.issuedAt ≠ none →
        Recorded engine id ∧ (engine.due invoice ≤ 0 ↔ engine.due invoice - amount ≤ 0)
  | _ => True

/-! ### One invoice at a time -/

/-- The status of the invoice `id` says what is due. -/
def TruthfulAt (engine : BillingEngine) (id : Uuid) : Prop :=
  ∀ invoice, engine.invoices.get id = some invoice → invoice.issuedAt ≠ none → Recorded engine id →
    invoice.status = statusOf (engine.due invoice)

lemma truthful_iff : Truthful engine ↔ ∀ id, TruthfulAt engine id := by
  constructor
  · intro h id invoice hget hissued hrecorded
    exact h id invoice _ hget (totalDue_eq hget) hissued hrecorded
  · intro h id invoice due hget hdue hissued hrecorded
    obtain rfl := Except.ok.inj ((totalDue_eq hget).symm.trans hdue)
    exact h id invoice hget hissued hrecorded

/-- What a disciplined run keeps of an invoice: it is truthful, and its status does not speak of
payments where nothing is recorded. -/
structure SoundAt (engine : BillingEngine) (id : Uuid) : Prop where
  truthful : TruthfulAt engine id
  unpaid : ∀ invoice, engine.invoices.get id = some invoice → ¬ Recorded engine id →
    ∀ due, invoice.status ≠ statusOf due

/-- The invoice, and what is recorded on it, is the same in both states. -/
structure SameAt (engine engine' : BillingEngine) (id : Uuid) : Prop where
  invoice : engine'.invoices.get id = engine.invoices.get id
  payments : engine'.paymentsFor id = engine.paymentsFor id
  creditNotes : engine'.creditNotesFor id = engine.creditNotesFor id

namespace SameAt

lemma recorded (h : SameAt engine engine' id) : Recorded engine' id ↔ Recorded engine id := by
  rw [Recorded, Recorded, h.payments, h.creditNotes]

lemma due (h : SameAt engine engine' id) (hget : engine.invoices.get id = some invoice) :
    engine'.due invoice = engine.due invoice := by
  obtain rfl := Store.key_of_get hget
  rw [BillingEngine.due, BillingEngine.due, h.payments, h.creditNotes]

lemma truthfulAt (h : SameAt engine engine' id) : TruthfulAt engine' id ↔ TruthfulAt engine id := by
  unfold TruthfulAt
  rw [h.invoice]
  refine forall_congr' fun invoice => forall_congr' fun hget => ?_
  rw [h.recorded, h.due hget]

lemma soundAt (h : SameAt engine engine' id) (hsound : SoundAt engine id) : SoundAt engine' id where
  truthful := h.truthfulAt.mpr hsound.truthful
  unpaid := by
    rw [h.invoice, h.recorded]
    exact hsound.unpaid

end SameAt

/-- Nothing is recorded under an identifier that is still to be drawn, and no invoice has it. -/
structure Fresh (engine : BillingEngine) : Prop where
  invoices : engine.invoices.Below engine.uuids
  payments : ∀ payment ∈ engine.payments, payment.invoiceId < engine.uuids
  creditNotes : ∀ note ∈ engine.creditNotes, note.invoiceId < engine.uuids

lemma Fresh.not_recorded (h : Fresh engine) : ¬ Recorded engine engine.uuids := by
  rw [Recorded, not_or, not_not, not_not, paymentsFor, creditNotesFor, List.filter_eq_nil_iff,
    List.filter_eq_nil_iff]
  constructor
  · intro payment hmem heq
    exact Nat.lt_irrefl _ (of_decide_eq_true heq ▸ h.payments payment hmem)
  · intro note hmem heq
    exact Nat.lt_irrefl _ (of_decide_eq_true heq ▸ h.creditNotes note hmem)

/-- The invariant of disciplined runs. -/
structure SoundStatuses (engine : BillingEngine) : Prop where
  soundAt : ∀ id, SoundAt engine id
  fresh : Fresh engine

lemma soundStatuses_start : SoundStatuses {} where
  soundAt _ := ⟨fun _ h => (nomatch h), fun _ h => (nomatch h)⟩
  fresh := ⟨Store.below_empty _, fun _ h => (nomatch h), fun _ h => (nomatch h)⟩

/-! ### A call about one invoice -/

/-- The invoice `id` is written as `invoice`; what else is written is recorded on it. -/
structure Touches (engine engine' : BillingEngine) (id : Uuid) (invoice : Invoice) : Prop where
  get : engine'.invoices.get id = some invoice
  others : ∀ j ≠ id, SameAt engine engine' j
  fresh : Fresh engine'

namespace Touches

lemma truthful_iff (t : Touches engine engine' id invoice) (h : SoundStatuses engine) :
    Truthful engine' ↔
      (invoice.issuedAt ≠ none → Recorded engine' id → invoice.status = statusOf (engine'.due invoice)) := by
  rw [CabinetOs.truthful_iff]
  constructor
  · intro hall
    exact hall id invoice t.get
  · intro hat j
    by_cases hj : j = id
    · subst hj
      intro invoice' hget
      obtain rfl := Option.some.inj (t.get.symm.trans hget)
      exact hat
    · exact (t.others j hj).truthfulAt.mpr (h.soundAt j).truthful

lemma sound (t : Touches engine engine' id invoice) (h : SoundStatuses engine) (htruthful : Truthful engine')
    (hunpaid : ¬ Recorded engine' id → ∀ due, invoice.status ≠ statusOf due) : SoundStatuses engine' where
  soundAt j := by
    by_cases hj : j = id
    · subst hj
      refine ⟨CabinetOs.truthful_iff.mp htruthful j, fun invoice' hget => ?_⟩
      obtain rfl := Option.some.inj (t.get.symm.trans hget)
      exact hunpaid
    · exact (t.others j hj).soundAt (h.soundAt j)
  fresh := t.fresh

/-- The invoice is written, and what is recorded with it is about the same invoice. -/
lemma of_write (h : Fresh engine) (invoice : Invoice)
    (payments : List Payment) (hpayments : ∀ payment ∈ payments, payment.invoiceId = invoice.id)
    (creditNotes : List CreditNote) (hcreditNotes : ∀ note ∈ creditNotes, note.invoiceId = invoice.id)
    (hinvoices : ∀ j, engine'.invoices.get j =
      if j = invoice.id then some invoice else engine.invoices.get j)
    (hpaid : engine'.payments = engine.payments ++ payments)
    (hcredited : engine'.creditNotes = engine.creditNotes ++ creditNotes)
    (huuids : engine.uuids ≤ engine'.uuids) (hlt : invoice.id < engine'.uuids) :
    Touches engine engine' invoice.id invoice where
  get := by rw [hinvoices, if_pos rfl]
  others j hj := by
    refine ⟨?_, ?_, ?_⟩
    · rw [hinvoices, if_neg hj]
    · rw [paymentsFor, hpaid, List.filter_append, paymentsFor, List.append_right_eq_self,
        List.filter_eq_nil_iff]
      intro payment hmem
      rw [hpayments payment hmem]
      exact fun heq => hj (of_decide_eq_true heq).symm
    · rw [creditNotesFor, hcredited, List.filter_append, creditNotesFor, List.append_right_eq_self,
        List.filter_eq_nil_iff]
      intro note hmem
      rw [hcreditNotes note hmem]
      exact fun heq => hj (of_decide_eq_true heq).symm
  fresh := by
    refine ⟨?_, ?_, ?_⟩
    · intro j found hget
      rw [hinvoices] at hget
      split at hget
      · rename_i hj
        rw [hj]
        exact hlt
      · exact (h.invoices j found hget).trans_le huuids
    · rw [hpaid]
      intro payment hmem
      rcases List.mem_append.mp hmem with hmem | hmem
      · exact (h.payments payment hmem).trans_le huuids
      · exact hpayments payment hmem ▸ hlt
    · rw [hcredited]
      intro note hmem
      rcases List.mem_append.mp hmem with hmem | hmem
      · exact (h.creditNotes note hmem).trans_le huuids
      · exact hcreditNotes note hmem ▸ hlt

/-- An invoice that was there is written, and one identifier drawn for what is recorded with it. -/
lemma of_rewrite (h : Fresh engine) (invoice : Invoice) {old : Invoice}
    (hold : engine.invoices.get invoice.id = some old)
    (payments : List Payment) (hpayments : ∀ payment ∈ payments, payment.invoiceId = invoice.id)
    (creditNotes : List CreditNote) (hcreditNotes : ∀ note ∈ creditNotes, note.invoiceId = invoice.id)
    (hinvoices : engine'.invoices = engine.invoices.save invoice)
    (hpaid : engine'.payments = engine.payments ++ payments)
    (hcredited : engine'.creditNotes = engine.creditNotes ++ creditNotes)
    (huuids : engine'.uuids = engine.uuids + 1) : Touches engine engine' invoice.id invoice := by
  refine .of_write h invoice payments hpayments creditNotes hcreditNotes ?_ hpaid hcredited ?_ ?_
  · intro j
    rw [hinvoices]
    exact Store.get_save ..
  · rw [huuids]
    exact Nat.le_succ _
  · rw [huuids]
    exact Nat.lt_succ_of_lt (h.invoices _ _ hold)

end Touches

/-! ### What is due after a call -/

section Due

lemma documentTotal_append (lines lines' : List LineItem) (discount : ℚ) :
    documentTotal (lines ++ lines') discount =
      documentTotal lines discount + documentTotal lines' discount := by
  simp only [documentTotal, List.map_append, List.sum_append]
  ring

lemma documentTotal_singleton (line : LineItem) (discount : ℚ) :
    documentTotal [line] discount = line.total * (1 - discount / 100) := by
  simp [documentTotal]

lemma statusOf_eq_iff {due due' : ℚ} : statusOf due = statusOf due' ↔ (due ≤ 0 ↔ due' ≤ 0) := by
  unfold statusOf
  split_ifs with h h' h' <;> simp [h, h']

lemma sent_ne_statusOf (due : ℚ) : InvoiceStatus.sent ≠ statusOf due := by
  unfold statusOf
  split <;> decide

lemma draft_ne_statusOf (due : ℚ) : InvoiceStatus.draft ≠ statusOf due := by
  unfold statusOf
  split <;> decide

end Due

/-! ### One call -/

section Calls

variable (h : SoundStatuses engine)
include h

lemma sound_addInvoiceLine {description : String} {quantity unitPrice discountPercent : ℚ}
    {feeType : FeeType} {r : Invoice × BillingEngine}
    (hr : engine.addInvoiceLine id description quantity unitPrice feeType discountPercent = .ok r) :
    (Truthful r.2 ↔ KeepsStatus engine
      (.addInvoiceLine id description quantity unitPrice feeType discountPercent)) ∧
    (Truthful r.2 → SoundStatuses r.2) := by
  obtain ⟨invoice, hget, hinvoice, hengine⟩ := addInvoiceLine_ok.mp hr
  have hkey := Store.key_of_get hget
  have hid : r.1.id = id := by
    rw [hinvoice]
    exact hkey
  have t : Touches engine r.2 id r.1 := by
    subst hid
    refine .of_rewrite h.fresh r.1 hget [] nofun [] nofun ?_ ?_ ?_ ?_ <;> simp [hengine]
  have hrecorded : Recorded r.2 id ↔ Recorded engine id := by
    rw [hengine]
    rfl
  have hdue : r.2.due r.1 = engine.due invoice +
      (LineItem.mk engine.uuids description quantity unitPrice feeType discountPercent).total *
        (1 - invoice.globalDiscountPercent / 100) := by
    rw [hengine, hinvoice, ← documentTotal_singleton]
    simp only [BillingEngine.due, documentTotal_append]
    show _ - ((engine.creditNotesFor _).map _).sum - ((engine.paymentsFor _).map _).sum = _
    ring
  have hstatus := (h.soundAt id).truthful invoice hget
  refine ⟨?_, fun htruthful => t.sound h htruthful ?_⟩
  · rw [t.truthful_iff h, hrecorded, hdue, hinvoice]
    constructor
    · intro hafter invoice' hget' hissued hrec
      obtain rfl := Option.some.inj (hget.symm.trans hget')
      exact statusOf_eq_iff.mp ((hstatus hissued hrec).symm.trans (hafter hissued hrec))
    · intro hkeeps hissued hrec
      exact (hstatus hissued hrec).trans (statusOf_eq_iff.mpr (hkeeps invoice hget hissued hrec))
  · rw [hrecorded, hinvoice]
    exact (h.soundAt id).unpaid invoice hget

lemma sound_issueInvoice {dueAt : Option PyDatetime} {now : ℤ} {r : Invoice × BillingEngine}
    (hr : engine.issueInvoice id dueAt now = .ok r) :
    (Truthful r.2 ↔ KeepsStatus engine (.issueInvoice id dueAt now)) ∧ (Truthful r.2 → SoundStatuses r.2) := by
  obtain ⟨invoice, hget, rfl⟩ := issueInvoice_ok.mp hr
  obtain rfl := Store.key_of_get hget
  have t : Touches engine { engine with
      invoices := engine.invoices.save (issued invoice dueAt now)
      exported := engine.exported ++ [invoice.id] } invoice.id (issued invoice dueAt now) := by
    refine .of_write h.fresh (issued invoice dueAt now) [] nofun [] nofun
      (fun j => Store.get_save ..) ?_ ?_ (Nat.le_refl _) (h.fresh.invoices _ _ hget)
    · exact (List.append_nil _).symm
    · exact (List.append_nil _).symm
  refine ⟨?_, fun htruthful => t.sound h htruthful fun _ => sent_ne_statusOf⟩
  rw [t.truthful_iff h]
  constructor
  · intro hafter invoice' hget' hrecorded
    exact sent_ne_statusOf _ (hafter (Option.some_ne_none _) hrecorded)
  · intro hkeeps _ hrecorded
    exact absurd hrecorded (hkeeps invoice hget)

lemma sound_recordPayment {amount : ℚ} {method : PaymentMethod} {reference : String} {now : ℤ}
    {r : Payment × BillingEngine}
    (hr : engine.recordPayment id amount method reference now = .ok r) :
    Truthful r.2 ∧ SoundStatuses r.2 := by
  obtain ⟨invoice, hget, hpayment, hengine⟩ := recordPayment_ok.mp hr
  obtain rfl := Store.key_of_get hget
  let invoice' :=
    { invoice with
      paymentIds := insert engine.uuids invoice.paymentIds
      status := statusOf (BillingEngine.due { engine with payments := engine.payments ++ [r.1] } invoice) }
  have t : Touches engine r.2 invoice.id invoice' := by
    have hpayments : ∀ payment ∈ [r.1], payment.invoiceId = invoice'.id := by simp [hpayment, invoice']
    have hinvoices : r.2.invoices = engine.invoices.save invoice' := congrArg BillingEngine.invoices hengine
    refine .of_rewrite h.fresh invoice' hget [r.1] hpayments [] nofun hinvoices ?_ ?_ ?_ <;> simp [hengine]
  have hrecorded : Recorded r.2 invoice.id := by
    refine Or.inl (List.ne_nil_of_mem (a := r.1) ?_)
    simp [paymentsFor, hengine, hpayment]
  have htruthful : Truthful r.2 := by
    rw [t.truthful_iff h]
    intro _ _
    rw [hengine]
    rfl
  exact ⟨htruthful, t.sound h htruthful fun hnot => absurd hrecorded hnot⟩

lemma sound_issueCreditNote {amount : ℚ} {reason : String} {now : ℤ} {r : CreditNote × BillingEngine}
    (hr : engine.issueCreditNote id amount reason now = .ok r) :
    (Truthful r.2 ↔ KeepsStatus engine (.issueCreditNote id amount reason now)) ∧
      (Truthful r.2 → SoundStatuses r.2) := by
  obtain ⟨invoice, hget, hnote, hengine⟩ := issueCreditNote_ok.mp hr
  obtain rfl := Store.key_of_get hget
  let invoice' := { invoice with creditNoteIds := insert engine.uuids invoice.creditNoteIds }
  have t : Touches engine r.2 invoice.id invoice' := by
    have hcreditNotes : ∀ note ∈ [r.1], note.invoiceId = invoice'.id := by simp [hnote, invoice']
    have hinvoices : r.2.invoices = engine.invoices.save invoice' := congrArg BillingEngine.invoices hengine
    refine .of_rewrite h.fresh invoice' hget [] nofun [r.1] hcreditNotes hinvoices ?_ ?_ ?_ <;> simp [hengine]
  have hrecorded : Recorded r.2 invoice.id := by
    refine Or.inr (List.ne_nil_of_mem (a := r.1) ?_)
    simp [creditNotesFor, hengine, hnote]
  have hdue : r.2.due invoice' = engine.due invoice - amount := by
    rw [hengine]
    simp only [BillingEngine.due, creditNotesFor, paymentsFor, List.filter_append, List.map_append,
      List.sum_append, hnote, invoice']
    simp
    ring
  refine ⟨?_, fun htruthful => t.sound h htruthful fun hnot => absurd hrecorded hnot⟩
  rw [t.truthful_iff h, hdue]
  constructor
  · intro hafter found hget' hissued
    obtain rfl := Option.some.inj (hget.symm.trans hget')
    have hstatus := hafter hissued hrecorded
    have hbefore : Recorded engine invoice.id := by
      by_contra hnot
      exact (h.soundAt _).unpaid invoice hget hnot _ hstatus
    exact ⟨hbefore,
      statusOf_eq_iff.mp (((h.soundAt _).truthful invoice hget hissued hbefore).symm.trans hstatus)⟩
  · intro hkeeps hissued _
    obtain ⟨hbefore, hsame⟩ := hkeeps invoice hget hissued
    exact ((h.soundAt _).truthful invoice hget hissued hbefore).trans (statusOf_eq_iff.mpr hsame)

/-- A new invoice: nothing is recorded on it. -/
lemma sound_new (invoice : Invoice) (hid : invoice.id = engine.uuids)
    (hstatus : ∀ due, invoice.status ≠ statusOf due)
    (hinvoices : ∀ j, engine'.invoices.get j =
      if j = invoice.id then some invoice else engine.invoices.get j)
    (hpayments : engine'.payments = engine.payments)
    (hcreditNotes : engine'.creditNotes = engine.creditNotes)
    (huuids : engine'.uuids = engine.uuids + 1) : Truthful engine' ∧ SoundStatuses engine' := by
  have t : Touches engine engine' invoice.id invoice := by
    refine .of_write h.fresh invoice [] nofun [] nofun hinvoices ?_ ?_ ?_ ?_
    · rw [hpayments, List.append_nil]
    · rw [hcreditNotes, List.append_nil]
    · rw [huuids]
      exact Nat.le_succ _
    · rw [huuids, hid]
      exact Nat.lt_succ_self _
  have hnot : ¬ Recorded engine' invoice.id := by
    rw [Recorded, paymentsFor, creditNotesFor, hpayments, hcreditNotes, hid]
    exact h.fresh.not_recorded
  have htruthful : Truthful engine' := (t.truthful_iff h).mpr fun _ hrec => absurd hrec hnot
  exact ⟨htruthful, t.sound h htruthful fun _ => hstatus⟩

/-- A call about a quote. -/
lemma sound_quotes (hinvoices : engine'.invoices = engine.invoices)
    (hpayments : engine'.payments = engine.payments)
    (hcreditNotes : engine'.creditNotes = engine.creditNotes)
    (huuids : engine.uuids ≤ engine'.uuids) : Truthful engine' ∧ SoundStatuses engine' := by
  have hsame : ∀ id, SameAt engine engine' id := by
    intro id
    refine ⟨?_, ?_, ?_⟩
    · rw [hinvoices]
    · rw [paymentsFor, hpayments]
      rfl
    · rw [creditNotesFor, hcreditNotes]
      rfl
  have hsound : SoundStatuses engine' := by
    refine ⟨fun id => (hsame id).soundAt (h.soundAt id), ?_, ?_, ?_⟩
    · rw [hinvoices]
      exact h.fresh.invoices.mono huuids
    · rw [hpayments]
      exact fun payment hmem => (h.fresh.payments payment hmem).trans_le huuids
    · rw [hcreditNotes]
      exact fun note hmem => (h.fresh.creditNotes note hmem).trans_le huuids
  exact ⟨CabinetOs.truthful_iff.mpr fun id => (hsound.soundAt id).truthful, hsound⟩

end Calls

/-- A call that raises changes nothing, and asks for nothing. -/
lemma soundStatuses_call (h : SoundStatuses engine) {X : Type}
    {call : Except PyException (X × BillingEngine)} {P : Prop}
    (hok : ∀ r, call = .ok r → (Truthful r.2 ↔ P) ∧ (Truthful r.2 → SoundStatuses r.2))
    (herror : ∀ e, call = .error e → P) :
    (Truthful (afterCall engine (call.map Prod.snd)) ↔ P) ∧
      (Truthful (afterCall engine (call.map Prod.snd)) →
        SoundStatuses (afterCall engine (call.map Prod.snd))) := by
  cases call with
  | error e =>
    exact ⟨iff_of_true (truthful_iff.mpr fun id => (h.soundAt id).truthful) (herror e rfl), fun _ => h⟩
  | ok r => exact hok r rfl

/-- **One call.**  Where the invariant holds, a call leaves every status truthful iff it meets its
condition; and then it keeps the invariant. -/
theorem truthful_step_iff (h : SoundStatuses engine) (op : Operation) :
    (Truthful (step engine op) ↔ KeepsStatus engine op) ∧
      (Truthful (step engine op) → SoundStatuses (step engine op)) := by
  have hfree : ∀ {engine' : BillingEngine}, Truthful engine' ∧ SoundStatuses engine' →
      (Truthful engine' ↔ True) ∧ (Truthful engine' → SoundStatuses engine') :=
    fun hboth => ⟨iff_of_true hboth.1 trivial, fun _ => hboth.2⟩
  cases op with
  | createQuote firmId clientId caseId now =>
    exact hfree (sound_quotes h rfl rfl rfl (Nat.le_succ _))
  | addQuoteLine quoteId description quantity unitPrice feeType discountPercent =>
    refine soundStatuses_call h (fun r hr => ?_) fun _ _ => trivial
    obtain ⟨quote, -, -, hengine⟩ := addQuoteLine_ok.mp hr
    rw [hengine]
    exact hfree (sound_quotes h rfl rfl rfl (Nat.le_succ _))
  | sendQuote quoteId =>
    refine soundStatuses_call h (fun r hr => ?_) fun _ _ => trivial
    obtain ⟨quote, -, rfl⟩ := sendQuote_ok.mp hr
    exact hfree (sound_quotes h rfl rfl rfl (Nat.le_refl _))
  | acceptQuote quoteId now =>
    refine soundStatuses_call h (fun r hr => ?_) fun _ _ => trivial
    obtain ⟨quote, -, -, hengine⟩ := acceptQuote_ok.mp hr
    rw [hengine]
    exact hfree (sound_quotes h rfl rfl rfl (Nat.le_refl _))
  | convertQuoteToInvoice quoteId dueAt now =>
    refine soundStatuses_call h (fun r hr => ?_) fun _ _ => trivial
    obtain ⟨quote, -, -, hinvoice, hengine⟩ := convertQuoteToInvoice_ok.mp hr
    refine hfree (sound_new h r.1 ?_ ?_ ?_ ?_ ?_ ?_)
    · rw [hinvoice]
      rfl
    · rw [hinvoice]
      exact sent_ne_statusOf
    · intro j
      rw [hengine]
      refine Store.get_save_save (u := converted quote engine.uuids now) _ ?_ j
      rw [hinvoice]
      rfl
    · rw [hengine]
    · rw [hengine]
    · rw [hengine]
  | createInvoice firmId clientId caseId now =>
    exact hfree (sound_new h _ rfl draft_ne_statusOf (fun j => Store.get_save ..) rfl rfl rfl)
  | addInvoiceLine invoiceId description quantity unitPrice feeType discountPercent =>
    refine soundStatuses_call h (fun r hr => sound_addInvoiceLine h hr) fun e hraised invoice hget => ?_
    rw [addInvoiceLine, requireInvoice_ok.mpr hget] at hraised
    cases hraised
  | issueInvoice invoiceId dueAt now =>
    refine soundStatuses_call h (fun r hr => sound_issueInvoice h hr) fun e hraised invoice hget => ?_
    rw [issueInvoice, requireInvoice_ok.mpr hget] at hraised
    cases hraised
  | recordPayment invoiceId amount method reference now =>
    exact soundStatuses_call h (fun r hr => hfree (sound_recordPayment h hr)) fun _ _ => trivial
  | issueCreditNote invoiceId amount reason now =>
    refine soundStatuses_call h (fun r hr => sound_issueCreditNote h hr) fun e hraised invoice hget => ?_
    rw [issueCreditNote, requireInvoice_ok.mpr hget] at hraised
    cases hraised

/-- **Statuses tell the truth, exactly.**  In every state that a run reaches, every invoice that is
issued and has a payment or a credit note is `PAID` if nothing is due and `PARTIALLY_PAID` otherwise,
iff every call of the run meets its condition. -/
theorem along_truthful_iff (ops : List Operation) :
    Along step (fun engine op => Truthful (step engine op)) {} ops ↔ Along step KeepsStatus {} ops :=
  along_congr (I := SoundStatuses) soundStatuses_start
    (fun _ op h hop => (truthful_step_iff h op).2 ((truthful_step_iff h op).1.mpr hop))
    (fun _ op h => (truthful_step_iff h op).1)

/-! ### A credit note for all that is due -/

/-- An invoice of 100 is issued, half of it is paid, and the other half is credited. -/
def paidAndCredited : List Operation :=
  [.createInvoice "firm-1" "client-1" none 0,
    .addInvoiceLine 0 "Honoraires" 1 100 .flatFee 0,
    .issueInvoice 0 none 0,
    .recordPayment 0 50 .bankTransfer "VIR-042" 0,
    .issueCreditNote 0 50 "Geste commercial" 0]

/-- Nothing is due any more, and the invoice is still `PARTIALLY_PAID`. -/
theorem credited_in_full :
    ¬ Along step (fun engine op => Truthful (step engine op)) {} paidAndCredited := by
  rintro ⟨-, -, -, -, htruthful, -⟩
  let engine := run step {} paidAndCredited
  have hnow : (engine.invoices.get 0).map (fun invoice => (invoice.issuedAt.isSome, invoice.status)) =
      some (true, .partiallyPaid) := by decide +kernel
  have hdue : engine.totalDue 0 = .ok 0 := by decide +kernel
  have hrecorded : Recorded engine 0 := by decide +kernel
  obtain ⟨invoice, hget, hinvoice⟩ := Option.map_eq_some_iff.mp hnow
  obtain ⟨hissued, hstatus⟩ := Prod.mk.inj hinvoice
  have hpaid := htruthful 0 invoice 0 hget hdue (Option.ne_none_iff_isSome.mpr hissued) hrecorded
  rw [hstatus, if_pos le_rfl] at hpaid
  cases hpaid

end Tmis.CabinetOs
