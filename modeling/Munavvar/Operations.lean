import Munavvar.ContractService

/-!
# Operations

The requests that change orders, contracts, price lists, invoices and the
catalog, and the transaction that serves each of them.
-/

namespace Munavvar.Operations

open Munavvar.KeyedTable
open Munavvar.Transaction
open Munavvar.Database
open Munavvar.StockLedger
open Munavvar.OrderQueries
open Munavvar.OrderService
open Munavvar.ContractService

/-- What a request asks for. -/
inductive Operation
  | createOrder (clientId : Uuid) (dto : OrderCreate)
  | createWarehouseSale (dto : WarehouseSaleCreate) (clientId : Option Uuid) (createdById : Uuid)
  | completePickup (orderId completedById : Uuid)
  | addProductToOrder (orderId productId : Uuid) (quantity : ℤ) (requestingUserId : Option Uuid)
  | removeProductFromOrder (orderId productId : Uuid) (requestingUserId : Option Uuid)
  | assignCourier (orderId courierId : Uuid)
  | updateStatus (orderId : Uuid) (newStatus : OrderStatus) (actualItems : List OrderItemActual)
      (requestingUserId : Option Uuid) (cancellationReason : Option String)
  | cancelOrder (orderId requestingUserId : Uuid) (reason : Option String)
  | expireStaleOrders (maxAgeHours assignedMaxAgeHours : ℤ) (adminId : Option Uuid)
  | createContract (clientId : Uuid) (dto : ContractCreate)
  | activateContract (contractId signedById : Uuid)
  | suspendContract (contractId : Uuid) (reason : String) (changedById : Option Uuid)
  | reinstateContract (contractId : Uuid) (changedById : Option Uuid)
  | terminateContract (contractId : Uuid) (reason : String) (changedById : Option Uuid)
  | runExpireJob
  | setPriceItem (contractId productId : Uuid) (price quantity : ℤ)
  | removePriceItem (contractId productId : Uuid)
  | generateInvoice (contractId : Uuid) (periodFrom periodTo : ℤ)
  | issueInvoice (contractId invoiceId : Uuid)
  | markInvoicePaid (contractId invoiceId : Uuid)
  | cancelInvoice (contractId invoiceId : Uuid)
  | runOverdueJob
  | updateProduct (productId : Uuid) (product : Product)

/-- An operation with the time of its transaction and identifiers for new rows. -/
structure Request where
  /-- Time and identifiers. -/
  env : Env
  /-- What is asked for. -/
  op : Operation

/-- The transaction that serves a request. -/
def program (r : Request) : Uow Unit :=
  match r.op with
  | .createOrder clientId dto => createOrder r.env clientId dto
  | .createWarehouseSale dto clientId createdById =>
    createWarehouseSale r.env dto clientId createdById
  | .completePickup orderId completedById => completePickup r.env orderId completedById
  | .addProductToOrder orderId productId quantity requestingUserId =>
    addProductToOrder r.env orderId productId quantity requestingUserId
  | .removeProductFromOrder orderId productId requestingUserId =>
    removeProductFromOrder r.env orderId productId requestingUserId
  | .assignCourier orderId courierId => assignCourier r.env orderId courierId
  | .updateStatus orderId newStatus actualItems requestingUserId cancellationReason =>
    updateStatus r.env orderId newStatus actualItems requestingUserId cancellationReason
  | .cancelOrder orderId requestingUserId reason =>
    cancelOrder r.env orderId requestingUserId reason
  | .expireStaleOrders maxAgeHours assignedMaxAgeHours adminId =>
    expireStaleOrders r.env maxAgeHours assignedMaxAgeHours adminId
  | .createContract clientId dto => createContract r.env clientId dto
  | .activateContract contractId signedById => activateContract r.env contractId signedById
  | .suspendContract contractId reason changedById =>
    suspendContract r.env contractId reason changedById
  | .reinstateContract contractId changedById => reinstateContract contractId changedById
  | .terminateContract contractId reason changedById =>
    terminateContract r.env contractId reason changedById
  | .runExpireJob => runExpireJob r.env
  | .setPriceItem contractId productId price quantity =>
    setPriceItem r.env contractId productId price quantity
  | .removePriceItem contractId productId => removePriceItem contractId productId
  | .generateInvoice contractId periodFrom periodTo =>
    generateInvoice r.env contractId periodFrom periodTo
  | .issueInvoice contractId invoiceId => issueInvoice r.env contractId invoiceId
  | .markInvoicePaid contractId invoiceId => markInvoicePaid r.env contractId invoiceId
  | .cancelInvoice contractId invoiceId => cancelInvoice contractId invoiceId
  | .runOverdueJob => runOverdueJob r.env
  | .updateProduct productId product => issue (.product productId) (.set product)

/-- The database before its first order, price item and invoice; the directory,
the users, the catalog, the contracts and the stock are arbitrary. -/
def fresh (s : Db) : Db :=
  { s with priceItems := .empty, orders := .empty, transactions := .empty, invoices := .empty }

/-- The database after some requests, each served alone; one that fails changes nothing. -/
def after (rs : List Request) (s : Db) : Db := serveAll program rs s

/-- A company with a warehouse, a courier's van and a client with a contract. Water (21) is sold
in a bottle (22), coffee (23) is not. -/
def sampleDb : Db where
  directory :=
    { inventories := [⟨1, some systemUserId, .virtualVendor, true, "vendor"⟩,
        ⟨3, some 9, .warehouse, true, "main"⟩, ⟨4, some 6, .courier, true, "van"⟩,
        ⟨5, some 7, .client, true, "office"⟩]
      accounts := [⟨11, systemUserId, .revenue, true, 0, "revenue"⟩,
        ⟨12, systemUserId, .cash, true, 0, "cash"⟩, ⟨13, systemUserId, .card, true, 0, "card"⟩,
        ⟨14, 6, .courier, true, 0, "courier"⟩, ⟨15, 7, .client, true, 0, "client"⟩] }
  users := ⟨[(6, ⟨.courier, true, "courier"⟩), (7, ⟨.clientB2B, true, "office"⟩)], by decide⟩
  products := ⟨[(21, ⟨.water, "water", 100, some 22, true⟩),
    (22, ⟨.container, "bottle", 50, none, true⟩),
    (23, ⟨.equipment, "coffee", 70, none, true⟩)], by decide⟩
  contracts := ⟨[(31, ⟨7, "A", .active, 0, none, 10, true, none, none, none, none, none, none,
    []⟩)], by decide⟩
  priceItems := .empty
  orders := .empty
  accountBalances := ⟨[(11, 0), (12, 0), (13, 0), (14, 0), (15, 0)], by decide⟩
  balances := ⟨[((1, 21), -200), ((1, 22), -200), ((1, 23), -200), ((3, 21), 100), ((3, 22), 100),
    ((3, 23), 100), ((4, 21), 100), ((4, 22), 100), ((4, 23), 100)], by decide⟩
  stockTransfers := .empty
  stockTransactions := .empty
  transactions := .empty
  invoices := .empty

/-! The quantities of the samples. -/

theorem one_piece : (0 : ℤ) < 1 := by decide

theorem two_pieces : (0 : ℤ) < 2 := by decide

theorem three_pieces : (0 : ℤ) < 3 := by decide

theorem five_pieces : (0 : ℤ) < 5 := by decide

/-- The `n`-th request of a sample, made at a time. -/
def sampleRequest (n : ℕ) (now : ℤ) (op : Operation) : Request :=
  ⟨⟨now, fun i j => 10000 * (n + 1) + 100 * i + j⟩, op⟩

end Munavvar.Operations
