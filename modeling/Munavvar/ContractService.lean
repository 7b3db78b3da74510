import Munavvar.OrderService

/-!
# The contract service

The operations of the contract service, each one transaction: the life cycle
of a contract with the cancellation of its open orders, the price list, the
invoices and the two scheduled jobs.
-/

namespace Munavvar.ContractService

open Munavvar.KeyedTable
open Munavvar.Transaction
open Munavvar.Transaction.Prog
open Munavvar.Database
open Munavvar.StockLedger
open Munavvar.OrderQueries
open Munavvar.OrderService
open Munavvar.Quota

/-! ## Life cycle -/

/-- A new contract. -/
structure ContractCreate where
  /-- The contract's number. -/
  number : String
  /-- First day. -/
  startDate : ℤ
  /-- Last day; none for an open-ended contract. -/
  endDate : Option ℤ
  /-- Days between the end of an invoice's period and its due date. -/
  paymentDueDays : ℤ
  /-- The schema admits numbers of 1 to 50 characters. -/
  number_length : 1 ≤ number.length ∧ number.length ≤ 50
  /-- The schema admits 1 to 365 days. -/
  paymentDueDays_range : 0 < paymentDueDays ∧ paymentDueDays ≤ 365

/-- `get_active_for_client` without a lock. -/
def getActiveForClient (clientId : Uuid) : Uow (Option (Uuid × Contract)) := do
  let rows ← select fun s => s.contracts.rows.filter fun r =>
    r.2.clientId = clientId && r.2.status = .active && r.2.isActive
  scalarOneOrNone rows

/-- An active row under its lock. -/
def getContractLocked (contractId : Uuid) : Uow Contract := do
  let contract ← forUpdate (.contract contractId)
  orRaise (contract.filter Contract.isActive) (.contractNotFound contractId)

/-- `contracts.update`: a row that is gone is reported. -/
def updateContract (contractId : Uuid) (data : ContractUpdate) : Uow Unit := do
  let row ← forUpdate (.contract contractId)
  issue (.contract contractId) (.update data)
  raiseIf (row.isNone = true)
    (.notFound s!"Запись Contract с id={contractId} не найдена" "NOT_FOUND"
      [("id", .id contractId)])

/-- `create_contract`. -/
def createContract (env : Env) (clientId : Uuid) (dto : ContractCreate) : Uow Unit := do
  let existing ← getActiveForClient clientId
  whenSome existing fun c => raise (.contractAlreadyActive clientId c.1)
  issue (.contract (env.uuid 0 0))
    (.insert
      { clientId, number := dto.number, status := .draft, startDate := dto.startDate,
        endDate := dto.endDate, paymentDueDays := dto.paymentDueDays, isActive := true,
        signedAt := none, signedById := none, suspendedAt := none, suspensionReason := none,
        terminatedAt := none, terminationReason := none, statusLogs := [] })

/-- Another active contract of the same client. -/
def ensureNoOtherActive (contractId : Uuid) (contract : Contract) : Uow Unit := do
  let existing ← getActiveForClientLocked contract.clientId
  whenSome existing fun c =>
    raiseIf (c.1 ≠ contractId) (.contractAlreadyActive contract.clientId c.1)

/-- `activate_contract`. -/
def activateContract (env : Env) (contractId signedById : Uuid) : Uow Unit := do
  let contract ← getContractLocked contractId
  raiseIf (contract.status ≠ .draft)
    (.contractStatusTransition contractId contract.status .active)
  ensureNoOtherActive contractId contract
  updateContract contractId { status := .active, signed := some (env.now, signedById) }
  issue (.contract contractId) (.log ⟨some contract.status, .active, some signedById, none⟩)

/-- `_cancel_inflight_orders`: the new and assigned orders that no other
transaction holds are cancelled and their quota is released in one sum. -/
def cancelInflightOrders (env : Env) (contractId : Uuid) (reason : String) : Uow Unit := do
  let cancelled ← lockMatching (fun o => o.contractId = some contractId &&
    (o.status = .new || o.status = .assigned) && o.isActive) none
  forEach cancelled fun x =>
    issue (.order x.1) (.update { status := some .cancelled } env.now)
  let reserved := cancelled.filter fun x => x.2.quantitiesReserved
  -- the lines of an order change under its lock only, which this transaction holds
  let items ← collect reserved fun x => do
    let order ← forUpdate (.order x.1)
    ret (order.elim [] Order.items)
  decrementQuantitiesUsed contractId (Bag.collect (items.flatten.map OrderItem.pair))
  forEach reserved fun x =>
    issue (.order x.1) (.update { quantitiesReserved := some false } env.now)
  forEach cancelled fun x => do
    issue (.order x.1) (.update { cancellationReason := some reason } env.now)
    issue (.order x.1) (.logTransition ⟨some x.2.status, .cancelled, none, some reason⟩)

/-- `suspend_contract`. -/
def suspendContract (env : Env) (contractId : Uuid) (reason : String)
    (changedById : Option Uuid) : Uow Unit := do
  let contract ← getContractLocked contractId
  raiseIf (contract.status ≠ .active)
    (.contractStatusTransition contractId contract.status .suspended)
  updateContract contractId { status := .suspended, suspension := some (some (env.now, reason)) }
  cancelInflightOrders env contractId "Приостановка договора"
  issue (.contract contractId) (.log ⟨some contract.status, .suspended, changedById, some reason⟩)

/-- `reinstate_contract`. -/
def reinstateContract (contractId : Uuid) (changedById : Option Uuid) : Uow Unit := do
  let contract ← getContractLocked contractId
  raiseIf (contract.status ≠ .suspended)
    (.contractStatusTransition contractId contract.status .active)
  ensureNoOtherActive contractId contract
  updateContract contractId { status := .active, suspension := some none }
  issue (.contract contractId) (.log ⟨some contract.status, .active, changedById, none⟩)

/-- `terminate_contract`. -/
def terminateContract (env : Env) (contractId : Uuid) (reason : String)
    (changedById : Option Uuid) : Uow Unit := do
  let contract ← getContractLocked contractId
  raiseIf (contract.status ≠ .active ∧ contract.status ≠ .suspended)
    (.contractStatusTransition contractId contract.status .terminated)
  updateContract contractId { status := .terminated, termination := some (env.now, reason) }
  cancelInflightOrders env contractId "Расторжение договора"
  issue (.contract contractId) (.log ⟨some contract.status, .terminated, changedById, some reason⟩)

/-- `run_expire_job`: the candidates are read without a lock. -/
def runExpireJob (env : Env) : Uow Unit := do
  let candidates ← select fun s => (s.contracts.rows.filter fun r =>
    r.2.status = .active && r.2.isActive &&
      r.2.endDate.any fun d => d < dateOf env.now).map Prod.fst
  forEach candidates fun id => do
    cancelInflightOrders env id "Истёк срок действия договора"
    updateContract id { status := .expired }
    issue (.contract id)
      (.log ⟨some .active, .expired, none, some "Истёк срок действия договора"⟩)

/-! ## Price list -/

/-- `get_by_contract_and_product`: an active price item, read without a lock. -/
def getByContractAndProduct (contractId productId : Uuid) : Uow (Option PriceItem) :=
  select fun s => (s.priceItems.find? (contractId, productId)).filter PriceItem.isActive

/-- `set_price_item`: the guard looks at the row as it was read without a lock. -/
def setPriceItem (env : Env) (contractId productId : Uuid) (price quantity : ℤ) : Uow Unit := do
  let existing ← getByContractAndProduct contractId productId
  match existing with
  | some existing => do
    raiseIf (0 < quantity ∧ quantity < existing.quantityUsed)
      (.priceItemHasUsage contractId productId existing.quantityUsed)
    let row ← forUpdate (.priceItem contractId productId)
    issue (.priceItem contractId productId) (.update existing.id price quantity)
    raiseIf (¬ row.any fun p => p.id = existing.id)
      (.notFound s!"Запись ContractPriceItem с id={existing.id} не найдена" "NOT_FOUND"
        [("id", .id existing.id)])
  | none => do
    issue (.priceItem contractId productId) (.insert (env.uuid 0 0) price quantity)
    let contract ← select fun s => s.contracts.find? contractId
    let product ← select fun s => s.products.find? productId
    raiseIf (contract.isNone = true)
      (.foreignKeyViolation "contract_price_items_contract_id_fkey")
    raiseIf (product.isNone = true) (.foreignKeyViolation "contract_price_items_product_id_fkey")

/-- `remove_price_item`: the guard looks at the row as it was read without a lock. -/
def removePriceItem (contractId productId : Uuid) : Uow Unit := do
  let item ← getByContractAndProduct contractId productId
  let item ← orRaise item (.contractPriceItemNotFound contractId productId)
  raiseIf (0 < item.quantityUsed) (.priceItemHasUsage contractId productId item.quantityUsed)
  issue (.priceItem contractId productId) (.delete item.id)

/-! ## Invoices -/

/-- Year and month of a date, counted in days from the first of January 1970. -/
def yearMonth (date : ℤ) : ℤ × ℤ :=
  -- days are counted from the first of March, so that a leap day ends its year
  let z := date + 719468
  let era := z / 146097
  let dayOfEra := z - era * 146097
  let yearOfEra := (dayOfEra - dayOfEra / 1460 + dayOfEra / 36524 - dayOfEra / 146096) / 365
  let dayOfYear := dayOfEra - (365 * yearOfEra + yearOfEra / 4 - yearOfEra / 100)
  let shifted := (5 * dayOfYear + 2) / 153
  let month := if shifted < 10 then shifted + 3 else shifted - 9
  (yearOfEra + era * 400 + if month ≤ 2 then 1 else 0, month)

/-- A number with leading zeros. -/
def padded (width : ℕ) (n : ℤ) : String :=
  let digits := toString n
  String.ofList (List.replicate (width - digits.length) '0') ++ digits

/-- The number of an invoice. -/
def invoiceNumber (contractNumber : String) (periodFrom : ℤ) (sequence : ℕ) : String :=
  let (year, month) := yearMonth periodFrom
  s!"{contractNumber}/{year}-{padded 2 month}-{padded 3 sequence}"

/-- `get_for_period`: invoices of exactly this period that are not cancelled. -/
def getForPeriod (contractId : Uuid) (periodFrom periodTo : ℤ) : Uow (Option Invoice) := do
  let invoices ← select fun s => s.invoices.select fun _ i =>
    i.contractId = contractId && i.periodFrom = periodFrom && i.periodTo = periodTo &&
      i.status ≠ .cancelled && i.isActive
  scalarOneOrNone invoices

/-- Orders of a contract that are delivered and were created in a period. -/
def isDeliveredIn (contractId : Uuid) (dateFrom dateTo : ℤ) (o : Order) : Bool :=
  o.contractId = some contractId && (o.status = .delivered || o.status = .pickupCompleted) &&
    dateFrom * dayLength ≤ o.createdAt && o.createdAt < (dateTo + 1) * dayLength && o.isActive

/-- `get_delivered_by_contract`. -/
def getDeliveredByContract (contractId : Uuid) (dateFrom dateTo : ℤ) (s : Db) : List Order :=
  s.orders.select fun _ o => isDeliveredIn contractId dateFrom dateTo o

/-- `generate_invoice`. -/
def generateInvoice (env : Env) (contractId : Uuid) (periodFrom periodTo : ℤ) : Uow Unit := do
  let contract ← getContractLocked contractId
  let duplicate ← getForPeriod contractId periodFrom periodTo
  raiseIf (duplicate.isSome = true) (.duplicateInvoicePeriod contractId periodFrom periodTo)
  let deliveredOrders ← select (getDeliveredByContract contractId periodFrom periodTo)
  let totalAmount := (deliveredOrders.map Order.totalAmount).sum
  let existing ← select fun s => s.invoices.select fun _ i => i.contractId = contractId && i.isActive
  let number := invoiceNumber contract.number periodFrom (existing.length + 1)
  let taken ← select fun s =>
    s.invoices.select fun _ i => i.contractId = contractId && i.number = number
  issue (.invoice (env.uuid 0 0))
    (.insert
      { contractId, number, status := .draft, periodFrom, periodTo, amount := totalAmount,
        dueDate := some (periodTo + contract.paymentDueDays), issuedAt := none, paidAt := none,
        isActive := true })
  raiseIf (taken ≠ []) (.uniqueViolation "uq_invoice_contract_number")

/-- The common part of the invoice transitions: the invoice is read without a
lock, its status is compared, and the row is updated. -/
def changeInvoice (contractId invoiceId : Uuid) (expected : List InvoiceStatus)
    (data : InvoiceUpdate) : Uow Unit := do
  let invoice ← select fun s => (s.invoices.find? invoiceId).filter Invoice.isActive
  let invoice ← orRaise (invoice.filter fun i => i.contractId = contractId)
    (.invoiceNotFound invoiceId)
  raiseIf (invoice.status ∉ expected)
    (.invalidInvoiceTransition invoiceId invoice.status expected)
  let row ← forUpdate (.invoice invoiceId)
  issue (.invoice invoiceId) (.update data)
  raiseIf (row.isNone = true)
    (.notFound s!"Запись Invoice с id={invoiceId} не найдена" "NOT_FOUND" [("id", .id invoiceId)])

/-- `issue_invoice`. -/
def issueInvoice (env : Env) (contractId invoiceId : Uuid) : Uow Unit :=
  changeInvoice contractId invoiceId [.draft] { status := .issued, issuedAt := some env.now }

/-- `mark_invoice_paid`. -/
def markInvoicePaid (env : Env) (contractId invoiceId : Uuid) : Uow Unit :=
  changeInvoice contractId invoiceId [.issued, .overdue]
    { status := .paid, paidAt := some env.now }

/-- `cancel_invoice`. -/
def cancelInvoice (contractId invoiceId : Uuid) : Uow Unit :=
  changeInvoice contractId invoiceId [.draft, .issued] { status := .cancelled }

/-- `run_overdue_job`: the candidates are read without a lock. -/
def runOverdueJob (env : Env) : Uow Unit := do
  let candidates ← select fun s => (s.invoices.rows.filter fun r =>
    r.2.status = .issued && r.2.isActive &&
      r.2.dueDate.any fun d => d < dateOf env.now).map Prod.fst
  forEach candidates fun id => do
    let row ← forUpdate (.invoice id)
    issue (.invoice id) (.update { status := .overdue })
    raiseIf (row.isNone = true)
      (.notFound s!"Запись Invoice с id={id} не найдена" "NOT_FOUND" [("id", .id id)])

end Munavvar.ContractService
