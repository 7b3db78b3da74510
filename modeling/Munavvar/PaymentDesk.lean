import Munavvar.PaymentDecision
import Munavvar.OrderQueries

/-!
# The payment desk

Payments of clients that a cashier enters and postings that an accountant makes
by hand. Cash and bank payments move money at once, a payment by card waits for
the accountant. A posting by hand may be between any two active accounts.
-/

namespace Munavvar.PaymentDesk

open Munavvar.KeyedTable
open Munavvar.Transaction
open Munavvar.Transaction.Prog
open Munavvar.Database
open Munavvar.StockLedger
open Munavvar.FinancialLedger
open Munavvar.PaymentDecision

/-! ## Requests -/

/-- The body of a request to accept a payment. -/
structure AcceptPayment where
  /-- Who pays. -/
  clientId : Uuid
  /-- How much. -/
  amount : ℤ
  /-- How: `cash`, `card`, and every other text is taken for the bank. -/
  paymentMethod : String
  /-- Ground of the payment. -/
  reason : String
  /-- The order that is paid. -/
  orderId : Option Uuid
  /-- The endpoint admits positive amounts only. -/
  amount_pos : 0 < amount
  /-- The endpoint admits grounds of 3 to 255 characters. -/
  reason_length : 3 ≤ reason.length ∧ reason.length ≤ 255

/-- `TransactionCreate`. -/
structure TransactionCreate where
  /-- The account that is charged. -/
  fromId : Uuid
  /-- The account that is credited. -/
  toId : Uuid
  /-- The amount that moves. -/
  amount : ℤ
  /-- Ground of the posting. -/
  reason : String
  /-- The order it is for. -/
  orderId : Option Uuid
  /-- The schema admits positive amounts only. -/
  amount_pos : 0 < amount
  /-- The schema admits grounds of 3 to 255 characters. -/
  reason_length : 3 ≤ reason.length ∧ reason.length ≤ 255

/-! ## The services -/

/-- `AccountNotFoundError`. -/
def accountNotFound (accountId : Option Uuid) (message : String) : Err :=
  .notFound message "ACCOUNT_NOT_FOUND" (accountId.toList.map fun id => ("account_id", .id id))

/-- `get_system_bank_account`. -/
def systemBankAccount (d : Directory) : Option Account :=
  d.userAccountByType systemUserId .bank

/-- The account that takes a payment and the status that the payment gets. -/
def paymentTarget (d : Directory) (paymentMethod : String) : Option Account × TransactionStatus :=
  if paymentMethod = "cash" then (d.systemCashAccount, .completed)
  else if paymentMethod = "card" then (d.systemCardAccount, .pending)
  else (systemBankAccount d, .completed)

/-- The foreign key of the verifier. -/
def checkVerifier (row : FinancialTransaction) : Uow Unit := do
  let found ← select fun s => row.verifiedById.all fun id => (s.users.find? id).isSome
  raiseIf (found = false) (.foreignKeyViolation "transactions_verified_by_id_fkey")

/-- `transactions.add`. -/
def addTransaction (env : Env) (row : FinancialTransaction) : Uow Unit := do
  insertTransactions [(env.uuid 9 0, row)]
  checkVerifier row

/-- The row of an accepted payment; who accepts it verifies it unless it is to wait. -/
def acceptedPayment (env : Env) (client target : Account) (status : TransactionStatus)
    (dto : AcceptPayment) (acceptedById : Uuid) : FinancialTransaction :=
  { fromId := client.id
    toId := target.id
    orderId := dto.orderId
    verifiedById := if status = .completed then some acceptedById else none
    amount := dto.amount
    status
    reason := dto.reason
    createdAt := env.now
    isActive := true }

/-- `accept_payment`. -/
def acceptPayment (env : Env) (dto : AcceptPayment) (acceptedById : Uuid) : Uow Unit := do
  let d ← select Db.directory
  let client ← orRaise (d.clientAccount dto.clientId)
    (accountNotFound none s!"Лицевой счет клиента не найден: {dto.clientId}")
  let (target, status) := paymentTarget d dto.paymentMethod
  let target ← orRaise target
    (accountNotFound none s!"Системный счёт для метода оплаты '{dto.paymentMethod}' не найден.")
  addTransaction env (acceptedPayment env client target status dto acceptedById)

/-- `accounts.get`: an active account. -/
def getAccount (d : Directory) (id : Uuid) : Option Account :=
  (d.account? id).filter Account.isActive

/-- The row of a posting by hand; who makes it verifies it. -/
def manualTransaction (env : Env) (dto : TransactionCreate) (createdById : Uuid) :
    FinancialTransaction :=
  { fromId := dto.fromId
    toId := dto.toId
    orderId := dto.orderId
    verifiedById := some createdById
    amount := dto.amount
    status := .completed
    reason := dto.reason
    createdAt := env.now
    isActive := true }

/-- `create_transaction`. -/
def createTransaction (env : Env) (dto : TransactionCreate) (createdById : Uuid) : Uow Unit := do
  raiseIf (dto.fromId = dto.toId)
    (.conflict "Нельзя перевести средства на тот же самый счет." "SELF_TRANSFER_NOT_ALLOWED"
      [("account_id", .id dto.fromId)])
  let d ← select Db.directory
  let _ ← orRaise (getAccount d dto.fromId)
    (accountNotFound (some dto.fromId) s!"Счет списания не найден: {dto.fromId}")
  let _ ← orRaise (getAccount d dto.toId)
    (accountNotFound (some dto.toId) s!"Счет зачисления не найден: {dto.toId}")
  addTransaction env (manualTransaction env dto createdById)

/-- What is asked of the payment desk and of the accountant. -/
inductive PaymentOperation
  | acceptPayment (dto : AcceptPayment) (acceptedById : Uuid)
  | createTransaction (dto : TransactionCreate) (createdById : Uuid)
  | decide (transactionId : Uuid) (decision : Decision)

/-- The transaction of an operation. -/
def PaymentOperation.program (env : Env) : PaymentOperation → Uow Unit
  | .acceptPayment dto acceptedById => PaymentDesk.acceptPayment env dto acceptedById
  | .createTransaction dto createdById => PaymentDesk.createTransaction env dto createdById
  | .decide transactionId decision => decision.program transactionId

end Munavvar.PaymentDesk
