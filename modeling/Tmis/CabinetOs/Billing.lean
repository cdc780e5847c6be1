import Mathlib.Data.Finset.Basic
import Mathlib.Data.Rat.Defs
import Mathlib.Algebra.BigOperators.Group.List.Basic
import Tmis.Lib.Calls
import Tmis.Lib.Store
import Tmis.Lib.Run

/-!
# Billing

`cabinet_os.billing`: quotes, invoices, credit notes and payments over their in-memory stores, with
`ManualPaymentGateway` and `NoOpAccountingExport`, which only record what they are given.  Amounts are
exact.

* `LineItem.total`, `documentTotal` — what a line and a document come to;
* `BillingEngine.convertQuoteToInvoice`, `issueInvoice`, `recordPayment`, `issueCreditNote`,
  `totalDue` — the calls, under the source's names;
* `Operation`, `step` — one call of the engine;
* `recordPayment_ok` and its siblings — what a call that returns leaves.
-/

namespace Tmis.CabinetOs

open Tmis.Lib

/-! ### Documents -/

inductive FeeType where
  | hourly | flatFee | successFee | other
  deriving DecidableEq

inductive QuoteStatus where
  | draft | sent | accepted | rejected | expired
  deriving DecidableEq

inductive InvoiceStatus where
  | draft | sent | partiallyPaid | paid | overdue | cancelled
  deriving DecidableEq

inductive PaymentMethod where
  | bankTransfer | card | check | cash | other
  deriving DecidableEq

structure LineItem where
  id : Uuid
  description : String
  quantity : ℚ
  unitPrice : ℚ
  feeType : FeeType := .hourly
  discountPercent : ℚ := 0
  deriving DecidableEq

def LineItem.total (item : LineItem) : ℚ :=
  let gross := item.quantity * item.unitPrice
  gross * (1 - item.discountPercent / 100)

/-- `_document_total`. -/
def documentTotal (lineItems : List LineItem) (globalDiscountPercent : ℚ) : ℚ :=
  let subtotal := (lineItems.map LineItem.total).sum
  subtotal * (1 - globalDiscountPercent / 100)

structure Quote where
  id : Uuid
  firmId : String
  clientId : String
  caseId : Option String
  status : QuoteStatus := .draft
  lineItems : List LineItem := []
  globalDiscountPercent : ℚ := 0
  currency : String := "EUR"
  validUntil : Option PyDatetime := none
  acceptedAt : Option PyDatetime := none
  createdAt : Option PyDatetime := none

structure Invoice where
  id : Uuid
  firmId : String
  clientId : String
  caseId : Option String
  quoteId : Option Uuid := none
  status : InvoiceStatus := .draft
  lineItems : List LineItem := []
  globalDiscountPercent : ℚ := 0
  currency : String := "EUR"
  issuedAt : Option PyDatetime := none
  dueAt : Option PyDatetime := none
  creditNoteIds : Finset Uuid := ∅
  paymentIds : Finset Uuid := ∅
  createdAt : Option PyDatetime := none

structure CreditNote where
  id : Uuid
  firmId : String
  invoiceId : Uuid
  amount : ℚ
  reason : String
  createdAt : Option PyDatetime := none

structure Payment where
  id : Uuid
  firmId : String
  invoiceId : Uuid
  amount : ℚ
  method : PaymentMethod
  reference : String := ""
  paidAt : Option PyDatetime := none
  createdAt : Option PyDatetime := none

/-- `datetime.now(UTC)` at the instant `now`. -/
def utc (now : ℤ) : PyDatetime := ⟨true, now⟩

/-- `timedelta(days=n)`, in microseconds. -/
def days (n : ℤ) : ℤ := n * 86400000000

/-! ### The engine -/

/-- The engine with its stores, its gateway and its export, and the number of identifiers drawn. -/
structure BillingEngine where
  quotes : Store Uuid Quote Quote.id := ∅
  invoices : Store Uuid Invoice Invoice.id := ∅
  creditNotes : List CreditNote := []
  payments : List Payment := []
  /-- `ManualPaymentGateway.recorded`. -/
  recorded : List (Uuid × ℚ × PaymentMethod × String) := []
  /-- `NoOpAccountingExport.exported`, which keeps the invoices themselves. -/
  exported : List Uuid := []
  uuids : ℕ := 0

namespace BillingEngine

variable (engine : BillingEngine)

/-- `InMemoryCreditNoteStore.list_for_invoice`. -/
def creditNotesFor (invoiceId : Uuid) : List CreditNote :=
  engine.creditNotes.filter (·.invoiceId = invoiceId)

/-- `InMemoryPaymentStore.list_for_invoice`. -/
def paymentsFor (invoiceId : Uuid) : List Payment :=
  engine.payments.filter (·.invoiceId = invoiceId)

def requireQuote (quoteId : Uuid) : Except PyException Quote :=
  match engine.quotes.get quoteId with
  | none => .error (valueError ("Unknown quote " ++ pyRepr (toString quoteId)))
  | some quote => .ok quote

def requireInvoice (invoiceId : Uuid) : Except PyException Invoice :=
  match engine.invoices.get invoiceId with
  | none => .error (valueError ("Unknown invoice " ++ pyRepr (toString invoiceId)))
  | some invoice => .ok invoice

/-! #### Quotes -/

def createQuote (firmId clientId : String) (caseId : Option String) (now : ℤ) : Quote × BillingEngine :=
  let quote : Quote := { id := engine.uuids, firmId, clientId, caseId, createdAt := utc now }
  (quote, { engine with quotes := engine.quotes.save quote, uuids := engine.uuids + 1 })

def addQuoteLine (quoteId : Uuid) (description : String) (quantity unitPrice : ℚ)
    (feeType : FeeType := .hourly) (discountPercent : ℚ := 0) :
    Except PyException (Quote × BillingEngine) := do
  let quote ← engine.requireQuote quoteId
  let line : LineItem :=
    { id := engine.uuids, description, quantity, unitPrice, feeType, discountPercent }
  let quote := { quote with lineItems := quote.lineItems ++ [line] }
  return (quote, { engine with quotes := engine.quotes.save quote, uuids := engine.uuids + 1 })

def sendQuote (quoteId : Uuid) : Except PyException (Quote × BillingEngine) := do
  let quote ← engine.requireQuote quoteId
  let quote := { quote with status := .sent }
  return (quote, { engine with quotes := engine.quotes.save quote })

def acceptQuote (quoteId : Uuid) (now : ℤ) : Except PyException (Quote × BillingEngine) := do
  let quote ← engine.requireQuote quoteId
  let quote := { quote with status := .accepted, acceptedAt := some (utc now) }
  return (quote, { engine with quotes := engine.quotes.save quote })

/-! #### Invoices -/

def createInvoice (firmId clientId : String) (caseId : Option String) (now : ℤ) :
    Invoice × BillingEngine :=
  let invoice : Invoice := { id := engine.uuids, firmId, clientId, caseId, createdAt := utc now }
  (invoice, { engine with invoices := engine.invoices.save invoice, uuids := engine.uuids + 1 })

def addInvoiceLine (invoiceId : Uuid) (description : String) (quantity unitPrice : ℚ)
    (feeType : FeeType := .hourly) (discountPercent : ℚ := 0) :
    Except PyException (Invoice × BillingEngine) := do
  let invoice ← engine.requireInvoice invoiceId
  let line : LineItem :=
    { id := engine.uuids, description, quantity, unitPrice, feeType, discountPercent }
  let invoice := { invoice with lineItems := invoice.lineItems ++ [line] }
  return (invoice, { engine with invoices := engine.invoices.save invoice, uuids := engine.uuids + 1 })

def issueInvoice (invoiceId : Uuid) (dueAt : Option PyDatetime) (now : ℤ) :
    Except PyException (Invoice × BillingEngine) := do
  let invoice ← engine.requireInvoice invoiceId
  let invoice :=
    { invoice with
      status := .sent
      issuedAt := some (utc now)
      dueAt := some (dueAt.getD (utc (now + days 30))) }
  return (invoice,
    { engine with
      invoices := engine.invoices.save invoice
      exported := engine.exported ++ [invoice.id] })

def convertQuoteToInvoice (quoteId : Uuid) (dueAt : Option PyDatetime) (now : ℤ) :
    Except PyException (Invoice × BillingEngine) := do
  let quote ← engine.requireQuote quoteId
  if quote.status ≠ .accepted then
    throw (valueError ("Quote " ++ pyRepr (toString quoteId) ++ " must be accepted before invoicing"))
  let invoice : Invoice :=
    { id := engine.uuids
      firmId := quote.firmId
      clientId := quote.clientId
      caseId := quote.caseId
      quoteId := some quote.id
      lineItems := quote.lineItems
      globalDiscountPercent := quote.globalDiscountPercent
      currency := quote.currency
      createdAt := utc now }
  let engine := { engine with invoices := engine.invoices.save invoice, uuids := engine.uuids + 1 }
  engine.issueInvoice invoice.id dueAt now

def totalDue (invoiceId : Uuid) : Except PyException ℚ := do
  let invoice ← engine.requireInvoice invoiceId
  let gross := documentTotal invoice.lineItems invoice.globalDiscountPercent
  let credited := ((engine.creditNotesFor invoiceId).map (·.amount)).sum
  let paid := ((engine.paymentsFor invoiceId).map (·.amount)).sum
  return gross - credited - paid

def recordPayment (invoiceId : Uuid) (amount : ℚ) (method : PaymentMethod) (reference : String)
    (now : ℤ) : Except PyException (Payment × BillingEngine) := do
  let invoice ← engine.requireInvoice invoiceId
  let payment : Payment :=
    { id := engine.uuids
      firmId := invoice.firmId
      invoiceId
      amount
      method
      reference
      paidAt := utc now
      createdAt := utc now }
  let engine :=
    { engine with
      payments := engine.payments ++ [payment]
      recorded := engine.recorded ++ [(invoiceId, amount, method, reference)]
      uuids := engine.uuids + 1 }
  let remaining ← engine.totalDue invoiceId
  let invoice :=
    { invoice with
      paymentIds := insert payment.id invoice.paymentIds
      status := if remaining ≤ 0 then .paid else .partiallyPaid }
  return (payment, { engine with invoices := engine.invoices.save invoice })

def issueCreditNote (invoiceId : Uuid) (amount : ℚ) (reason : String) (now : ℤ) :
    Except PyException (CreditNote × BillingEngine) := do
  let invoice ← engine.requireInvoice invoiceId
  let creditNote : CreditNote :=
    { id := engine.uuids, firmId := invoice.firmId, invoiceId, amount, reason, createdAt := utc now }
  let invoice := { invoice with creditNoteIds := insert creditNote.id invoice.creditNoteIds }
  return (creditNote,
    { engine with
      creditNotes := engine.creditNotes ++ [creditNote]
      invoices := engine.invoices.save invoice
      uuids := engine.uuids + 1 })

end BillingEngine

/-! ### Operations -/

inductive Operation where
  | createQuote (firmId clientId : String) (caseId : Option String) (now : ℤ)
  | addQuoteLine (quoteId : Uuid) (description : String) (quantity unitPrice : ℚ) (feeType : FeeType)
      (discountPercent : ℚ)
  | sendQuote (quoteId : Uuid)
  | acceptQuote (quoteId : Uuid) (now : ℤ)
  | convertQuoteToInvoice (quoteId : Uuid) (dueAt : Option PyDatetime) (now : ℤ)
  | createInvoice (firmId clientId : String) (caseId : Option String) (now : ℤ)
  | addInvoiceLine (invoiceId : Uuid) (description : String) (quantity unitPrice : ℚ) (feeType : FeeType)
      (discountPercent : ℚ)
  | issueInvoice (invoiceId : Uuid) (dueAt : Option PyDatetime) (now : ℤ)
  | recordPayment (invoiceId : Uuid) (amount : ℚ) (method : PaymentMethod) (reference : String) (now : ℤ)
  | issueCreditNote (invoiceId : Uuid) (amount : ℚ) (reason : String) (now : ℤ)

/-- The state after a call; one that raises leaves it as it is. -/
def step (engine : BillingEngine) : Operation → BillingEngine
  | .createQuote firmId clientId caseId now => (engine.createQuote firmId clientId caseId now).2
  | .addQuoteLine quoteId description quantity unitPrice feeType discountPercent =>
      afterCall engine ((engine.addQuoteLine quoteId description quantity unitPrice feeType
        discountPercent).map Prod.snd)
  | .sendQuote quoteId => afterCall engine ((engine.sendQuote quoteId).map Prod.snd)
  | .acceptQuote quoteId now => afterCall engine ((engine.acceptQuote quoteId now).map Prod.snd)
  | .convertQuoteToInvoice quoteId dueAt now =>
      afterCall engine ((engine.convertQuoteToInvoice quoteId dueAt now).map Prod.snd)
  | .createInvoice firmId clientId caseId now => (engine.createInvoice firmId clientId caseId now).2
  | .addInvoiceLine invoiceId description quantity unitPrice feeType discountPercent =>
      afterCall engine ((engine.addInvoiceLine invoiceId description quantity unitPrice feeType
        discountPercent).map Prod.snd)
  | .issueInvoice invoiceId dueAt now =>
      afterCall engine ((engine.issueInvoice invoiceId dueAt now).map Prod.snd)
  | .recordPayment invoiceId amount method reference now =>
      afterCall engine ((engine.recordPayment invoiceId amount method reference now).map Prod.snd)
  | .issueCreditNote invoiceId amount reason now =>
      afterCall engine ((engine.issueCreditNote invoiceId amount reason now).map Prod.snd)

/-! ### Calls that return -/

namespace BillingEngine

/-- What is left to pay of an invoice. -/
def due (engine : BillingEngine) (invoice : Invoice) : ℚ :=
  documentTotal invoice.lineItems invoice.globalDiscountPercent -
    ((engine.creditNotesFor invoice.id).map (·.amount)).sum -
    ((engine.paymentsFor invoice.id).map (·.amount)).sum

section Returns

variable {engine : BillingEngine} {id : Uuid} {invoice : Invoice}

lemma requireQuote_ok {quote : Quote} :
    engine.requireQuote id = .ok quote ↔ engine.quotes.get id = some quote := by
  unfold requireQuote
  cases engine.quotes.get id <;> simp

lemma requireInvoice_ok :
    engine.requireInvoice id = .ok invoice ↔ engine.invoices.get id = some invoice := by
  unfold requireInvoice
  cases engine.invoices.get id <;> simp

/-- **The amount due** of an invoice that is found. -/
theorem totalDue_eq (hget : engine.invoices.get id = some invoice) :
    engine.totalDue id = .ok (engine.due invoice) := by
  unfold totalDue
  rw [requireInvoice_ok.mpr hget]
  obtain rfl := Store.key_of_get hget
  rfl

lemma addQuoteLine_ok {description : String} {quantity unitPrice discountPercent : ℚ}
    {feeType : FeeType} {r : Quote × BillingEngine} :
    engine.addQuoteLine id description quantity unitPrice feeType discountPercent = .ok r ↔
      ∃ quote, engine.quotes.get id = some quote ∧
        r.1 = { quote with
          lineItems := quote.lineItems ++
            [⟨engine.uuids, description, quantity, unitPrice, feeType, discountPercent⟩] } ∧
        r.2 = { engine with quotes := engine.quotes.save r.1, uuids := engine.uuids + 1 } := by
  simp only [addQuoteLine, bind_eq_ok, pure_eq_ok, requireQuote_ok]
  refine exists_congr fun quote => and_congr_right fun _ => ?_
  rw [eq_comm, Prod.ext_iff]
  exact and_congr_right fun hquote => by rw [hquote]

lemma sendQuote_ok {r : Quote × BillingEngine} :
    engine.sendQuote id = .ok r ↔ ∃ quote, engine.quotes.get id = some quote ∧
      r = ({ quote with status := .sent },
        { engine with quotes := engine.quotes.save { quote with status := .sent } }) := by
  simp only [sendQuote, bind_eq_ok, pure_eq_ok, requireQuote_ok]
  exact exists_congr fun quote => and_congr_right fun _ => eq_comm

lemma acceptQuote_ok {now : ℤ} {r : Quote × BillingEngine} :
    engine.acceptQuote id now = .ok r ↔ ∃ quote, engine.quotes.get id = some quote ∧
      r.1 = { quote with status := .accepted, acceptedAt := some (utc now) } ∧
      r.2 = { engine with quotes := engine.quotes.save r.1 } := by
  simp only [acceptQuote, bind_eq_ok, pure_eq_ok, requireQuote_ok]
  refine exists_congr fun quote => and_congr_right fun _ => ?_
  rw [eq_comm, Prod.ext_iff]
  exact and_congr_right fun hquote => by rw [hquote]

lemma addInvoiceLine_ok {description : String} {quantity unitPrice discountPercent : ℚ}
    {feeType : FeeType} {r : Invoice × BillingEngine} :
    engine.addInvoiceLine id description quantity unitPrice feeType discountPercent = .ok r ↔
      ∃ invoice, engine.invoices.get id = some invoice ∧
        r.1 = { invoice with
          lineItems := invoice.lineItems ++
            [⟨engine.uuids, description, quantity, unitPrice, feeType, discountPercent⟩] } ∧
        r.2 = { engine with invoices := engine.invoices.save r.1, uuids := engine.uuids + 1 } := by
  simp only [addInvoiceLine, bind_eq_ok, pure_eq_ok, requireInvoice_ok]
  refine exists_congr fun invoice => and_congr_right fun _ => ?_
  rw [eq_comm, Prod.ext_iff]
  exact and_congr_right fun hinvoice => by rw [hinvoice]

/-- The invoice with its line is the one that is found. -/
lemma get_of_addInvoiceLine_ok {description : String} {quantity unitPrice discountPercent : ℚ}
    {feeType : FeeType} {r : Invoice × BillingEngine}
    (h : engine.addInvoiceLine id description quantity unitPrice feeType discountPercent = .ok r) :
    r.1.id = id ∧ r.2.invoices.get r.1.id = some r.1 := by
  obtain ⟨found, hfound, hline, hengine⟩ := addInvoiceLine_ok.mp h
  refine ⟨by rw [hline, ← Store.key_of_get hfound], ?_⟩
  rw [hengine]
  exact Store.get_save_self ..

/-- An invoice that is found gets its line. -/
lemma addInvoiceLine_finds (hget : engine.invoices.get id = some invoice) (description : String)
    (quantity unitPrice : ℚ) (feeType : FeeType) (discountPercent : ℚ) :
    ∃ r, engine.addInvoiceLine id description quantity unitPrice feeType discountPercent = .ok r := by
  rw [addInvoiceLine, requireInvoice_ok.mpr hget]
  exact ⟨_, rfl⟩

/-- An invoice as `issue_invoice` leaves it. -/
def issued (invoice : Invoice) (dueAt : Option PyDatetime) (now : ℤ) : Invoice :=
  { invoice with
    status := .sent
    issuedAt := some (utc now)
    dueAt := some (dueAt.getD (utc (now + days 30))) }

lemma issueInvoice_ok {dueAt : Option PyDatetime} {now : ℤ} {r : Invoice × BillingEngine} :
    engine.issueInvoice id dueAt now = .ok r ↔ ∃ invoice, engine.invoices.get id = some invoice ∧
      r = (issued invoice dueAt now,
        { engine with
          invoices := engine.invoices.save (issued invoice dueAt now)
          exported := engine.exported ++ [invoice.id] }) := by
  simp only [issueInvoice, bind_eq_ok, pure_eq_ok, requireInvoice_ok]
  exact exists_congr fun invoice => and_congr_right fun _ => eq_comm

/-- The invoice that `convert_quote_to_invoice` makes of a quote. -/
def converted (quote : Quote) (id : Uuid) (now : ℤ) : Invoice :=
  { id
    firmId := quote.firmId
    clientId := quote.clientId
    caseId := quote.caseId
    quoteId := some quote.id
    lineItems := quote.lineItems
    globalDiscountPercent := quote.globalDiscountPercent
    currency := quote.currency
    createdAt := utc now }

/-- A conversion saves the new invoice twice, the second time as issued. -/
lemma convertQuoteToInvoice_ok {dueAt : Option PyDatetime} {now : ℤ} {r : Invoice × BillingEngine} :
    engine.convertQuoteToInvoice id dueAt now = .ok r ↔ ∃ quote,
      engine.quotes.get id = some quote ∧ quote.status = .accepted ∧
      r.1 = issued (converted quote engine.uuids now) dueAt now ∧
      r.2 = { engine with
        invoices := (engine.invoices.save (converted quote engine.uuids now)).save r.1
        exported := engine.exported ++ [engine.uuids]
        uuids := engine.uuids + 1 } := by
  simp only [convertQuoteToInvoice, bind_eq_ok, requireQuote_ok]
  refine exists_congr fun quote => and_congr_right fun _ => ?_
  by_cases hstatus : quote.status = .accepted
  · simp only [hstatus, ne_eq, not_true_eq_false, if_false, true_and, issueInvoice_ok]
    constructor
    · rintro ⟨invoice, hget, rfl⟩
      rw [Store.get_save_self, Option.some.injEq] at hget
      subst hget
      exact ⟨rfl, rfl⟩
    · rintro ⟨hinvoice, hengine⟩
      refine ⟨converted quote engine.uuids now, Store.get_save_self .., ?_⟩
      rw [hinvoice] at hengine
      exact Prod.ext hinvoice hengine
  · simp only [hstatus, ne_eq, not_false_eq_true, if_true, false_and, iff_false]
    rintro ⟨_, ⟨⟩, -⟩

lemma recordPayment_ok {amount : ℚ} {method : PaymentMethod} {reference : String} {now : ℤ}
    {r : Payment × BillingEngine} :
    engine.recordPayment id amount method reference now = .ok r ↔ ∃ invoice,
      engine.invoices.get id = some invoice ∧
      r.1 = ⟨engine.uuids, invoice.firmId, id, amount, method, reference, some (utc now),
        some (utc now)⟩ ∧
      r.2 = { engine with
        payments := engine.payments ++ [r.1]
        recorded := engine.recorded ++ [(id, amount, method, reference)]
        uuids := engine.uuids + 1
        invoices := engine.invoices.save
          { invoice with
            paymentIds := insert engine.uuids invoice.paymentIds
            status := if BillingEngine.due { engine with payments := engine.payments ++ [r.1] } invoice ≤ 0
              then .paid else .partiallyPaid } } := by
  simp only [recordPayment, bind_eq_ok, pure_eq_ok, requireInvoice_ok]
  refine exists_congr fun invoice => and_congr_right fun hget => ?_
  have hdue : ∀ engine' : BillingEngine, engine'.invoices = engine.invoices →
      engine'.totalDue id = .ok (engine'.due invoice) := by
    intro engine' hsame
    refine totalDue_eq ?_
    rw [hsame]
    exact hget
  constructor
  · rintro ⟨remaining, hremaining, rfl⟩
    obtain rfl := Except.ok.inj (hremaining.symm.trans (hdue _ rfl))
    exact ⟨rfl, rfl⟩
  · rintro ⟨hpayment, hengine⟩
    refine ⟨_, hdue _ rfl, ?_⟩
    rw [hpayment] at hengine
    exact Prod.ext hpayment.symm hengine.symm

lemma issueCreditNote_ok {amount : ℚ} {reason : String} {now : ℤ} {r : CreditNote × BillingEngine} :
    engine.issueCreditNote id amount reason now = .ok r ↔ ∃ invoice,
      engine.invoices.get id = some invoice ∧
      r.1 = ⟨engine.uuids, invoice.firmId, id, amount, reason, some (utc now)⟩ ∧
      r.2 = { engine with
        creditNotes := engine.creditNotes ++ [r.1]
        invoices := engine.invoices.save
          { invoice with creditNoteIds := insert engine.uuids invoice.creditNoteIds }
        uuids := engine.uuids + 1 } := by
  simp only [issueCreditNote, bind_eq_ok, pure_eq_ok, requireInvoice_ok]
  refine exists_congr fun invoice => and_congr_right fun _ => ?_
  rw [eq_comm, Prod.ext_iff]
  exact and_congr_right fun hnote => by rw [hnote]

end Returns

end BillingEngine

end Tmis.CabinetOs
