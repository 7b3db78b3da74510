import Munavvar.KeyedTable
import Munavvar.Transaction
import Mathlib.Algebra.Order.Group.Int

/-!
# Tables, rows and statements

The tables that orders, contracts, the stock ledger and the financial ledger
are kept in, with the statements their repositories issue and the constraints
the migrations leave on each row. Order lines and status logs are stored with
their order: every access to them happens under the order's row lock.
Times are microseconds and dates are days, both in UTC.
-/

namespace Munavvar.Database

open Munavvar.KeyedTable
open Munavvar.Transaction

/-! ## Enumerations -/

/-- Identifiers of rows. -/
abbrev Uuid := ℕ

/-- Owner of the system accounts and of the virtual inventories. -/
def systemUserId : Uuid := 0

/-- The anonymous buyer of warehouse sales. -/
def walkinUserId : Uuid := 2

/-- Life cycle of an order. -/
inductive OrderStatus
  | new | assigned | inTransit | arrived | delivered | pickupCompleted | cancelled
  deriving DecidableEq, Repr

/-- The value a status is stored and printed as. -/
def OrderStatus.value : OrderStatus → String
  | .new => "new"
  | .assigned => "assigned"
  | .inTransit => "in_transit"
  | .arrived => "arrived"
  | .delivered => "delivered"
  | .pickupCompleted => "pickup_completed"
  | .cancelled => "cancelled"

/-- How an order reaches its client. -/
inductive SaleType
  | delivery | warehousePickup
  deriving DecidableEq, Repr

/-- How a client intends to pay. -/
inductive PaymentMethod
  | cash | card | contract
  deriving DecidableEq, Repr

/-- Life cycle of a contract. -/
inductive ContractStatus
  | draft | active | suspended | terminated | expired
  deriving DecidableEq, Repr

/-- Life cycle of an invoice. -/
inductive InvoiceStatus
  | draft | issued | partiallyPaid | paid | overdue | cancelled
  deriving DecidableEq, Repr

/-- Kinds of financial accounts. -/
inductive AccountType
  | revenue | cash | card | bank | discount | client | courier | expense | admin
  deriving DecidableEq, Repr

/-- Life cycle of a financial transaction. -/
inductive TransactionStatus
  | pending | completed | rejected
  deriving DecidableEq, Repr

/-- Kinds of inventories. -/
inductive InventoryType
  | warehouse | courier | client | virtualLoss | virtualVendor
  deriving DecidableEq, Repr

/-- Kinds of stock transfers. -/
inductive TransferType
  | courierLoad | courierReturn | clientDelivery | clientReturn | lossWriteOff
  | inventoryFinding | initialBalance | warehouseSale | warehouseTaraReturn
  deriving DecidableEq, Repr

/-- The value a kind of transfer is stored and printed as. -/
def TransferType.value : TransferType → String
  | .courierLoad => "COURIER_LOAD"
  | .courierReturn => "COURIER_RETURN"
  | .clientDelivery => "CLIENT_DELIVERY"
  | .clientReturn => "CLIENT_RETURN"
  | .lossWriteOff => "LOSS_WRITE_OFF"
  | .inventoryFinding => "INVENTORY_FINDING"
  | .initialBalance => "INITIAL_BALANCE"
  | .warehouseSale => "WAREHOUSE_SALE"
  | .warehouseTaraReturn => "WAREHOUSE_TARA_RETURN"

/-- Life cycle of a stock transfer. -/
inductive TransferStatus
  | draft | completed | cancelled
  deriving DecidableEq, Repr

/-- Roles of users. -/
inductive Role
  | system | admin | accountant | storekeeper | cashier | courier | clientB2C | clientB2B
  deriving DecidableEq, Repr

/-- Kinds of products. -/
inductive ProductType
  | water | container | equipment
  deriving DecidableEq, Repr

/-! ## Rows -/

/-- A catalog product. -/
structure Product where
  /-- Category of the product. -/
  type : ProductType
  /-- Name shown to clients. -/
  name : String
  /-- Base price of one piece. -/
  price : ℤ
  /-- The container that is exchanged when the product is sold. -/
  returnableItemId : Option Uuid
  /-- False after archiving. -/
  isActive : Bool
  deriving DecidableEq, Repr

/-- A user as far as orders read it. -/
structure User where
  /-- The user's role. -/
  role : Role
  /-- False after archiving. -/
  isActive : Bool
  /-- The user's name. -/
  username : String
  deriving DecidableEq, Repr

/-- One transition of a contract's status. -/
structure ContractStatusLog where
  /-- Status before the transition. -/
  fromStatus : Option ContractStatus
  /-- Status after the transition. -/
  toStatus : ContractStatus
  /-- Who changed the status; none for the system. -/
  changedById : Option Uuid
  /-- Why the status was changed. -/
  reason : Option String
  deriving DecidableEq, Repr

/-- A contract with a legal entity and its status log. -/
structure Contract where
  /-- The contract's client. -/
  clientId : Uuid
  /-- The contract's number. -/
  number : String
  /-- Current status. -/
  status : ContractStatus
  /-- First day. -/
  startDate : ℤ
  /-- Last day; none for an open-ended contract. -/
  endDate : Option ℤ
  /-- Days between the end of an invoice's period and its due date. -/
  paymentDueDays : ℤ
  /-- False after archiving. -/
  isActive : Bool
  /-- When the contract was activated. -/
  signedAt : Option ℤ
  /-- Who activated the contract. -/
  signedById : Option Uuid
  /-- When the contract was suspended. -/
  suspendedAt : Option ℤ
  /-- Why the contract was suspended. -/
  suspensionReason : Option String
  /-- When the contract was terminated. -/
  terminatedAt : Option ℤ
  /-- Why the contract was terminated. -/
  terminationReason : Option String
  /-- The transitions so far, oldest first. -/
  statusLogs : List ContractStatusLog
  deriving DecidableEq, Repr

/-- The price and quota of one product in a contract. -/
structure PriceItem where
  /-- The row's identifier; contract and product are the row's key. -/
  id : Uuid
  /-- Contract price of one piece. -/
  price : ℤ
  /-- Most pieces that may be ordered; zero for no limit. -/
  quantity : ℤ
  /-- Pieces reserved or sold so far. -/
  quantityUsed : ℤ
  /-- False after archiving. -/
  isActive : Bool
  deriving DecidableEq, Repr

/-- One line of an order. -/
structure OrderItem where
  /-- The ordered product. -/
  productId : Uuid
  /-- Number of pieces. -/
  quantity : ℤ
  /-- Price of one piece, fixed when the line was made. -/
  unitPrice : ℤ
  deriving DecidableEq, Repr

/-- One transition of an order's status. -/
structure OrderStatusLog where
  /-- Status before the transition; none at creation. -/
  oldStatus : Option OrderStatus
  /-- Status after the transition. -/
  newStatus : OrderStatus
  /-- Who caused the transition; none for the system. -/
  changedById : Option Uuid
  /-- Why the status was changed. -/
  reason : Option String
  deriving DecidableEq, Repr

/-- An order with its lines and its status log. -/
structure Order where
  /-- The buyer. -/
  clientId : Uuid
  /-- The buyer's inventory that goods and containers move to. -/
  clientInventoryId : Uuid
  /-- The assigned courier. -/
  courierId : Option Uuid
  /-- How the buyer intends to pay. -/
  paymentMethod : PaymentMethod
  /-- Current status. -/
  status : OrderStatus
  /-- The amount of the whole order. -/
  totalAmount : ℤ
  /-- Whether missing containers were entered when the order was made. -/
  capitalizationApplied : Bool
  /-- Delivery or pickup. -/
  saleType : SaleType
  /-- The warehouse of a pickup. -/
  warehouseId : Option Uuid
  /-- The contract of an order that is paid by contract. -/
  contractId : Option Uuid
  /-- Whether the contract's quota holds the order's lines. -/
  quantitiesReserved : Bool
  /-- Why the order was cancelled. -/
  cancellationReason : Option String
  /-- Instructions for the courier. -/
  notes : Option String
  /-- False after archiving. -/
  isActive : Bool
  /-- When the row was inserted. -/
  createdAt : ℤ
  /-- When the row was last updated. -/
  updatedAt : ℤ
  /-- The lines in the order they were inserted. -/
  items : List OrderItem
  /-- The transitions so far, oldest first. -/
  statusLogs : List OrderStatusLog
  deriving DecidableEq, Repr

/-- A stock transfer document with its lines. -/
structure StockTransfer where
  /-- The inventory that gives. -/
  fromId : Uuid
  /-- The inventory that takes. -/
  toId : Uuid
  /-- Kind of the transfer. -/
  type : TransferType
  /-- Status of the document. -/
  status : TransferStatus
  /-- Who made the document. -/
  createdById : Uuid
  /-- Who accepted the goods. -/
  acceptedById : Option Uuid
  /-- The order that caused the transfer. -/
  orderId : Option Uuid
  /-- Why the transfer was made. -/
  reason : Option String
  /-- The document's lines: product and quantity. -/
  items : List (Uuid × ℤ)
  deriving DecidableEq, Repr

/-- One movement of the stock ledger. -/
structure StockTransaction where
  /-- The document the movement belongs to. -/
  transferId : Uuid
  /-- The moved product. -/
  productId : Uuid
  /-- The inventory that gives. -/
  fromId : Uuid
  /-- The inventory that takes. -/
  toId : Uuid
  /-- Number of pieces. -/
  quantity : ℤ
  /-- When the row was inserted. -/
  createdAt : ℤ
  deriving DecidableEq, Repr

/-- One entry of the financial ledger. -/
structure FinancialTransaction where
  /-- The account that is charged. -/
  fromId : Uuid
  /-- The account that is credited. -/
  toId : Uuid
  /-- The order that is paid. -/
  orderId : Option Uuid
  /-- Who verified or rejected the transaction. -/
  verifiedById : Option Uuid
  /-- The amount that moves. -/
  amount : ℤ
  /-- Only completed transactions move money. -/
  status : TransactionStatus
  /-- Ground of the transaction. -/
  reason : String
  /-- When the row was inserted. -/
  createdAt : ℤ
  /-- False after archiving. -/
  isActive : Bool
  deriving DecidableEq, Repr

/-- A bill for the delivered orders of a period. -/
structure Invoice where
  /-- The billed contract. -/
  contractId : Uuid
  /-- The invoice's number. -/
  number : String
  /-- Current status. -/
  status : InvoiceStatus
  /-- First day of the period. -/
  periodFrom : ℤ
  /-- Last day of the period. -/
  periodTo : ℤ
  /-- Sum of the billed orders. -/
  amount : ℤ
  /-- Last day of payment. -/
  dueDate : Option ℤ
  /-- When the invoice was issued. -/
  issuedAt : Option ℤ
  /-- When the invoice was marked paid. -/
  paidAt : Option ℤ
  /-- False after archiving. -/
  isActive : Bool
  deriving DecidableEq, Repr

/-- An inventory without its balances. -/
structure Inventory where
  /-- The row's identifier. -/
  id : Uuid
  /-- The owner. -/
  userId : Option Uuid
  /-- Kind of the inventory. -/
  type : InventoryType
  /-- False after archiving. -/
  isActive : Bool
  /-- The inventory's name. -/
  name : String
  deriving DecidableEq, Repr

/-- A financial account without its balance. -/
structure Account where
  /-- The row's identifier. -/
  id : Uuid
  /-- The owner. -/
  userId : Uuid
  /-- Kind of the account. -/
  type : AccountType
  /-- False after archiving. -/
  isActive : Bool
  /-- When the row was inserted. -/
  createdAt : ℤ
  /-- The account's name. -/
  name : String
  deriving DecidableEq, Repr

/-- Inventories and accounts: no operation on orders, contracts or ledgers writes them. -/
structure Directory where
  /-- All inventories. -/
  inventories : List Inventory
  /-- All accounts. -/
  accounts : List Account
  deriving DecidableEq, Repr

/-! ## Exceptions -/

/-- A value in the details of an exception. -/
inductive Detail
  | id (id : Uuid)
  | int (n : ℤ)
  | role (role : Role)
  | text (text : String)
  deriving DecidableEq, Repr

/-- A container shortage of one order line. -/
structure TaraShortage where
  /-- The ordered product. -/
  productId : Uuid
  /-- The product's name. -/
  productName : String
  /-- The container the product needs. -/
  returnableItemId : Uuid
  /-- Containers needed. -/
  required : ℤ
  /-- Containers the client has or buys with the order. -/
  available : ℤ
  /-- Containers missing. -/
  deficit : ℤ
  deriving DecidableEq, Repr

/-- The exceptions of the services, of their repositories and of the database. -/
inductive Err
  | emptyCart
  | badRequest (message errorCode : String) (details : List (String × Detail))
  | notFound (message errorCode : String) (details : List (String × Detail))
  | conflict (message errorCode : String) (details : List (String × Detail))
  | accessForbidden (message errorCode : String) (details : List (String × Detail))
  | productsUnavailable (missingProductIds : List Uuid)
  | productNotFound (productId : Uuid)
  | productHasStock (productId : Uuid)
  | productHasAssociatedProducts (productId : Uuid)
  | invalidReturnableItem (message : String)
  | userNotFound (userId : Uuid)
  | orderNotFound (orderId : Uuid)
  | orderAccessDenied (userId orderId : Uuid)
  | invalidOrderStatus (orderId : Uuid) (current : OrderStatus)
      (expected target : Option OrderStatus) (allowed : List OrderStatus) (message : String)
  | invalidPickupOperation (orderId : Uuid) (reason : String)
  | courierAssignment (orderId courierId : Uuid) (reason : String)
  | cannotRemoveLastItem
  | deliveryQuantityExceeded (productId : Uuid) (ordered actual : ℤ)
  | clientInventoryNotFound (inventoryId : Uuid)
  | insufficientTara (shortages : List TaraShortage)
  | insufficientStock (shortages : List (Uuid × ℤ))
  | inventoryNotFound (inventoryId : Uuid) (message : String)
  | virtualInventoryMissing (type : InventoryType)
  | forbidden (message errorCode : String) (transferType : TransferType)
  | archivedProductsInTransfer (archivedProductIds : List Uuid)
  | routeLoop (inventoryId : Uuid)
  | inventoryTypeMismatch (inventoryId : Uuid) (expected : List InventoryType)
      (actual : InventoryType)
  | clientNotFound (clientId : Uuid)
  | clientAlreadyExists (phone : String)
  | userAlreadyExists (identityId : String)
  | courierAlreadyExists (phone : String)
  | userUpdateConflict (userId : Uuid) (reason : Option String)
  | staffPasswordRequired (userId : Uuid) (role : Role)
  | systemUserDeletionForbidden (userId : Uuid)
  | phoneAlreadyExists (phone : String)
  | phoneNotFound (phoneId : Uuid)
  | phoneLimitExceeded (userId : Uuid) (limit : ℕ)
  | contractNotFound (contractId : Uuid)
  | contractRequired (clientId : Uuid)
  | contractNotActive (contractId : Uuid) (status : ContractStatus)
  | contractExpired (contractId : Uuid)
  | contractAlreadyActive (clientId existingContractId : Uuid)
  | contractStatusTransition (contractId : Uuid) (current target : ContractStatus)
  | productNotInContract (contractId productId : Uuid)
  | quantityLimitExceeded (contractId productId : Uuid) (limit used requested : ℤ)
  | priceItemHasUsage (contractId productId : Uuid) (used : ℤ)
  | contractPriceItemNotFound (contractId productId : Uuid)
  | duplicateInvoicePeriod (contractId : Uuid) (periodFrom periodTo : ℤ)
  | invoiceNotFound (invoiceId : Uuid)
  | invalidInvoiceTransition (invoiceId : Uuid) (current : InvoiceStatus)
      (expected : List InvoiceStatus)
  | transactionNotFound (transactionId : Uuid)
  | invalidTransactionStatus (transactionId : Uuid) (current : TransactionStatus)
  | incrementNotPositive (priceItemId : Uuid) (delta : ℤ)
  | incrementNoRows (priceItemId : Uuid)
  | decrementNotPositive (productId : Uuid) (delta : ℤ)
  | decrementNoRows (contractId productId : Uuid)
  | cursorInvalid
  | multipleResultsFound
  | noResultFound
  | recordNotFound (model : String) (id : Uuid)
  | checkViolation (constraint : String)
  | uniqueViolation (constraint : String)
  | foreignKeyViolation (constraint : String)
  | notNullViolation (column : String)
  | outOfRange (column : String)
  | stringTooLong (column : String)
  | immutableHistory (message : String)
  | negativeBalance (message : String)
  deriving DecidableEq, Repr

/-- The `ValueError`s of a release: nothing to release, or no price item. -/
def Err.isQuotaLeak : Err → Bool
  | .decrementNotPositive _ _ => true
  | .decrementNoRows _ _ => true
  | _ => false

/-! ## Statements -/

/-- The values of an `INTEGER` column. -/
def int32 (n : ℤ) : Bool := decide (-2147483648 ≤ n) && decide (n ≤ 2147483647)

/-- The values of a `BIGINT` column. -/
def int64 (n : ℤ) : Bool :=
  decide (-9223372036854775808 ≤ n) && decide (n ≤ 9223372036854775807)

/-- A text that fits a `VARCHAR` column. -/
def fits (limit : ℕ) (text : Option String) : Bool := text.all fun t => decide (t.length ≤ limit)

/-- Keep a row that passes its constraints. -/
def checked {V : Type} (v : V) : List (Bool × Err) → Except Err (Option V)
  | [] => .ok (some v)
  | (passes, e) :: rest => if passes then checked v rest else .error e

/-- The columns of an order that an `UPDATE` sets. -/
structure OrderUpdate where
  /-- New courier. -/
  courierId : Option Uuid := none
  /-- New status. -/
  status : Option OrderStatus := none
  /-- New total. -/
  totalAmount : Option ℤ := none
  /-- New flag of reserved quotas. -/
  quantitiesReserved : Option Bool := none
  /-- New reason of the cancellation. -/
  cancellationReason : Option String := none
  deriving DecidableEq, Repr

/-- Statements on an order, its lines and its status log. -/
inductive OrderStmt
  /-- `orders.add`. -/
  | insert (order : Order)
  /-- `order_items.add` and `order_items.add_many`. -/
  | addItems (items : List OrderItem)
  /-- `orders.update` and `orders.update_status`. -/
  | update (data : OrderUpdate) (now : ℤ)
  /-- `order_items.update_quantity`; a line is named by its place. -/
  | updateQuantity (index : ℕ) (quantity : ℤ)
  /-- `order_items.delete_by_order_and_product`. -/
  | deleteItem (productId : Uuid)
  /-- `status_logs.log_transition`. -/
  | logTransition (entry : OrderStatusLog)
  deriving DecidableEq, Repr

/-- The row after an `UPDATE` of an order. -/
def Order.set (o : Order) (data : OrderUpdate) (now : ℤ) : Order :=
  { o with
    courierId := data.courierId.or o.courierId
    status := data.status.getD o.status
    totalAmount := data.totalAmount.getD o.totalAmount
    quantitiesReserved := data.quantitiesReserved.getD o.quantitiesReserved
    cancellationReason := data.cancellationReason.or o.cancellationReason
    updatedAt := now }

/-- The constraints on a line of an order. -/
def OrderItem.constraints (i : OrderItem) : List (Bool × Err) :=
  [(int32 i.quantity, .outOfRange "order_items.quantity"),
   (int64 i.unitPrice, .outOfRange "order_items.unit_price"),
   (decide (0 < i.quantity), .checkViolation "ck_order_item_quantity_pos"),
   (decide (0 ≤ i.unitPrice), .checkViolation "ck_order_item_price_pos")]

/-- Statements on orders. -/
def OrderStmt.exec : OrderStmt → Option Order → Except Err (Option Order)
  | .insert order, none =>
    checked order
      [(int64 order.totalAmount, .outOfRange "orders.total_amount"),
       (fits 500 order.notes, .stringTooLong "orders.notes")]
  | .insert _, some _ => .error (.uniqueViolation "orders_pkey")
  | .addItems items, some o =>
    checked { o with items := o.items ++ items } (items.flatMap OrderItem.constraints)
  | .addItems _, none => .error (.foreignKeyViolation "order_items_order_id_fkey")
  | .update data now, some o =>
    checked (o.set data now)
      [(int64 (o.set data now).totalAmount, .outOfRange "orders.total_amount"),
       (fits 500 data.cancellationReason, .stringTooLong "orders.cancellation_reason")]
  | .update _ _, none => .ok none
  | .updateQuantity index quantity, some o =>
    match o.items[index]? with
    | some i =>
      checked { o with items := o.items.set index { i with quantity := quantity } }
        { i with quantity := quantity }.constraints
    | none => .ok (some o)
  | .updateQuantity _ _, none => .ok none
  | .deleteItem productId, some o =>
    .ok (some { o with items := o.items.filter fun i => i.productId ≠ productId })
  | .deleteItem _, none => .ok none
  | .logTransition entry, some o =>
    checked { o with statusLogs := o.statusLogs ++ [entry] }
      [(fits 500 entry.reason, .stringTooLong "order_status_logs.reason")]
  | .logTransition _, none => .error (.foreignKeyViolation "order_status_logs_order_id_fkey")

/-- Statements on a price item; contract and product are its key. -/
inductive PriceItemStmt
  /-- `price_items.add`. -/
  | insert (id : Uuid) (price quantity : ℤ)
  /-- `price_items.update`. -/
  | update (id : Uuid) (price quantity : ℤ)
  /-- One `UPDATE` of `increment_quantities_used`. -/
  | increment (id : Uuid) (delta : ℤ)
  /-- One `UPDATE` of `decrement_quantities_used`. -/
  | decrement (delta : ℤ)
  /-- `price_items.delete`. -/
  | delete (id : Uuid)
  deriving DecidableEq, Repr

/-- The constraints the migrations leave on a price item. -/
def PriceItem.constraints (p : PriceItem) : List (Bool × Err) :=
  [(int64 p.price, .outOfRange "contract_price_items.price"),
   (int32 p.quantity, .outOfRange "contract_price_items.quantity"),
   (int32 p.quantityUsed, .outOfRange "contract_price_items.quantity_used"),
   (decide (0 ≤ p.price), .checkViolation "ck_contract_price_item_price_non_neg"),
   (decide (0 ≤ p.quantity), .checkViolation "ck_contract_price_item_quantity_non_neg"),
   (decide (0 ≤ p.quantityUsed), .checkViolation "ck_contract_price_item_quantity_used_non_neg")]

/-- Statements on price items. -/
def PriceItemStmt.exec : PriceItemStmt → Option PriceItem → Except Err (Option PriceItem)
  | .insert id price quantity, none =>
    let row : PriceItem := ⟨id, price, quantity, 0, true⟩
    checked row row.constraints
  | .insert _ _ _, some _ => .error (.uniqueViolation "uq_contract_price_item_product")
  | .update id price quantity, some p =>
    let row : PriceItem := { p with price := price, quantity := quantity }
    if p.id = id then checked row row.constraints else .ok (some p)
  | .increment id delta, some p =>
    let row : PriceItem := { p with quantityUsed := p.quantityUsed + delta }
    if p.id = id then checked row row.constraints else .ok (some p)
  | .decrement delta, some p =>
    let row : PriceItem := { p with quantityUsed := max (p.quantityUsed - delta) 0 }
    if p.isActive then checked row row.constraints else .ok (some p)
  | .delete id, some p => .ok (if p.id = id then none else some p)
  | .update _ _ _, none => .ok none
  | .increment _ _, none => .ok none
  | .decrement _, none => .ok none
  | .delete _, none => .ok none

/-- The columns of a contract that an `UPDATE` sets. -/
structure ContractUpdate where
  /-- New status. -/
  status : ContractStatus
  /-- New time and author of the activation. -/
  signed : Option (ℤ × Uuid) := none
  /-- New time and reason of the suspension. -/
  suspension : Option (Option (ℤ × String)) := none
  /-- New time and reason of the termination. -/
  termination : Option (ℤ × String) := none
  deriving DecidableEq, Repr

/-- The row after an `UPDATE` of a contract. -/
def Contract.set (c : Contract) (data : ContractUpdate) : Contract :=
  { c with
    status := data.status
    signedAt := (data.signed.map Prod.fst).or c.signedAt
    signedById := (data.signed.map Prod.snd).or c.signedById
    suspendedAt := (data.suspension.map fun x => x.map Prod.fst).getD c.suspendedAt
    suspensionReason := (data.suspension.map fun x => x.map Prod.snd).getD c.suspensionReason
    terminatedAt := (data.termination.map Prod.fst).or c.terminatedAt
    terminationReason := (data.termination.map Prod.snd).or c.terminationReason }

/-- Statements on a contract and its status log. -/
inductive ContractStmt
  /-- `contracts.add`. -/
  | insert (contract : Contract)
  /-- `contracts.update`. -/
  | update (data : ContractUpdate)
  /-- `status_logs.add`. -/
  | log (entry : ContractStatusLog)
  deriving DecidableEq, Repr

/-- Statements on contracts. -/
def ContractStmt.exec : ContractStmt → Option Contract → Except Err (Option Contract)
  | .insert contract, none =>
    checked contract
      [(fits 50 (some contract.number), .stringTooLong "contracts.number"),
       (decide (0 < contract.paymentDueDays), .checkViolation "ck_contract_payment_due_days_pos"),
       (contract.endDate.all fun d => decide (contract.startDate < d),
        .checkViolation "ck_contract_dates_order")]
  | .insert _, some _ => .error (.uniqueViolation "contracts_pkey")
  | .update data, some c =>
    checked (c.set data)
      [(fits 512 (c.set data).suspensionReason, .stringTooLong "contracts.suspension_reason"),
       (fits 512 (c.set data).terminationReason, .stringTooLong "contracts.termination_reason")]
  | .update _, none => .ok none
  | .log entry, some c =>
    checked { c with statusLogs := c.statusLogs ++ [entry] }
      [(fits 512 entry.reason, .stringTooLong "contract_status_logs.reason")]
  | .log _, none => .error (.foreignKeyViolation "contract_status_logs_contract_id_fkey")

/-- Statements on a balance: the upsert of the stock trigger and the update of the account trigger. -/
inductive BalanceStmt
  | add (delta : ℤ)
  deriving DecidableEq, Repr

/-- `INSERT … ON CONFLICT DO UPDATE` on an inventory balance. -/
def BalanceStmt.upsert : BalanceStmt → Option ℤ → Except Err (Option ℤ)
  | .add delta, old =>
    checked (old.getD 0 + delta)
      [(int32 (old.getD 0 + delta), .outOfRange "inventory_balances.quantity")]

/-- `UPDATE accounts SET balance = balance + …`. -/
def BalanceStmt.update : BalanceStmt → Option ℤ → Except Err (Option ℤ)
  | .add delta, some balance =>
    checked (balance + delta) [(int64 (balance + delta), .outOfRange "accounts.balance")]
  | .add _, none => .ok none

/-- Statements on a stock transfer and its lines. -/
inductive TransferStmt
  /-- `transfers.add`. -/
  | insert (transfer : StockTransfer)
  /-- `transfer_items.add_many`. -/
  | addItems (items : List (Uuid × ℤ))
  deriving DecidableEq, Repr

/-- Statements on stock transfers. -/
def TransferStmt.exec : TransferStmt → Option StockTransfer → Except Err (Option StockTransfer)
  | .insert transfer, none =>
    checked transfer
      [(fits 255 transfer.reason, .stringTooLong "stock_transfers.reason"),
       (decide (transfer.fromId ≠ transfer.toId), .checkViolation "ck_stock_transfer_no_circular")]
  | .insert _, some _ => .error (.uniqueViolation "stock_transfers_pkey")
  | .addItems items, some t =>
    checked { t with items := t.items ++ items }
      (items.flatMap fun i =>
        [(int32 i.2, .outOfRange "stock_transfer_items.quantity"),
         (decide (0 < i.2), .checkViolation "ck_stock_transfer_item_quantity_pos")])
  | .addItems _, none => .error (.foreignKeyViolation "stock_transfer_items_transfer_id_fkey")

/-- Statements on the stock ledger. -/
inductive StockTransactionStmt
  /-- `INSERT`. -/
  | insert (row : StockTransaction)
  /-- Any `UPDATE`. -/
  | update (row : StockTransaction)
  /-- `DELETE`. -/
  | delete
  deriving DecidableEq, Repr

/-- The row operations on the stock ledger, without the balance trigger. A
stored movement never starts where it ends: its route is that of a transfer. -/
def StockTransactionStmt.exec :
    StockTransactionStmt → Option StockTransaction → Except Err (Option StockTransaction)
  | .insert row, none =>
    checked row
      [(int32 row.quantity, .outOfRange "stock_transactions.quantity"),
       (decide (0 < row.quantity), .checkViolation "ck_stock_transaction_quantity_positive"),
       (decide (row.fromId ≠ row.toId), .foreignKeyViolation "fk_stock_transaction_strict_route")]
  | .insert _, some _ => .error (.uniqueViolation "stock_transactions_pkey")
  | .update _, none => .ok none
  | .update row, some _ => .ok (some row)
  | .delete, _ => .ok none

/-- The columns of a financial transaction that an `UPDATE` sets. -/
structure TransactionUpdate where
  /-- New charged account. -/
  fromId : Option Uuid := none
  /-- New credited account. -/
  toId : Option Uuid := none
  /-- New amount. -/
  amount : Option ℤ := none
  /-- New status. -/
  status : Option TransactionStatus := none
  /-- New reason. -/
  reason : Option String := none
  /-- New verifier. -/
  verifiedById : Option Uuid := none
  deriving DecidableEq, Repr

/-- The row after an `UPDATE` of a financial transaction. -/
def FinancialTransaction.set (x : FinancialTransaction) (data : TransactionUpdate) :
    FinancialTransaction :=
  { x with
    fromId := data.fromId.getD x.fromId
    toId := data.toId.getD x.toId
    amount := data.amount.getD x.amount
    status := data.status.getD x.status
    reason := data.reason.getD x.reason
    verifiedById := data.verifiedById.or x.verifiedById }

/-- The constraints on a financial transaction. -/
def FinancialTransaction.constraints (x : FinancialTransaction) : List (Bool × Err) :=
  [(int64 x.amount, .outOfRange "transactions.amount"),
   (fits 255 (some x.reason), .stringTooLong "transactions.reason"),
   (decide (0 < x.amount), .checkViolation "ck_transaction_amount_pos"),
   (decide (x.fromId ≠ x.toId), .checkViolation "ck_transaction_no_self_transfer")]

/-- Statements on the financial ledger. -/
inductive FinancialStmt
  /-- `INSERT`. -/
  | insert (row : FinancialTransaction)
  /-- `UPDATE`. -/
  | update (data : TransactionUpdate)
  /-- `DELETE`. -/
  | delete
  deriving DecidableEq, Repr

/-- The row operations on the financial ledger, without the balance trigger. -/
def FinancialStmt.exec :
    FinancialStmt → Option FinancialTransaction → Except Err (Option FinancialTransaction)
  | .insert row, none => checked row row.constraints
  | .insert _, some _ => .error (.uniqueViolation "transactions_pkey")
  | .update data, some x => checked (x.set data) (x.set data).constraints
  | .update _, none => .ok none
  | .delete, _ => .ok none

/-- The columns of an invoice that an `UPDATE` sets. -/
structure InvoiceUpdate where
  /-- New status. -/
  status : InvoiceStatus
  /-- New time of issue. -/
  issuedAt : Option ℤ := none
  /-- New time of payment. -/
  paidAt : Option ℤ := none
  deriving DecidableEq, Repr

/-- The row after an `UPDATE` of an invoice. -/
def Invoice.set (i : Invoice) (data : InvoiceUpdate) : Invoice :=
  { i with
    status := data.status
    issuedAt := data.issuedAt.or i.issuedAt
    paidAt := data.paidAt.or i.paidAt }

/-- Statements on an invoice. -/
inductive InvoiceStmt
  /-- `invoices.add`. -/
  | insert (invoice : Invoice)
  /-- `invoices.update`. -/
  | update (data : InvoiceUpdate)
  deriving DecidableEq, Repr

/-- Statements on invoices. -/
def InvoiceStmt.exec : InvoiceStmt → Option Invoice → Except Err (Option Invoice)
  | .insert invoice, none =>
    checked invoice
      [(fits 50 (some invoice.number), .stringTooLong "invoices.number"),
       (int64 invoice.amount, .outOfRange "invoices.amount"),
       (decide (invoice.periodFrom < invoice.periodTo), .checkViolation "ck_invoice_period_order"),
       (decide (0 ≤ invoice.amount), .checkViolation "ck_invoice_amount_non_neg")]
  | .insert _, some _ => .error (.uniqueViolation "invoices_pkey")
  | .update data, some i => .ok (some (i.set data))
  | .update _, none => .ok none

/-- Statements on a product. -/
inductive ProductStmt
  /-- The catalog replaces the columns. -/
  | set (product : Product)
  /-- `DELETE`. -/
  | delete
  deriving DecidableEq, Repr

/-- Statements on products. -/
def ProductStmt.exec : ProductStmt → Option Product → Except Err (Option Product)
  | .set product, _ =>
    checked product
      [(int64 product.price, .outOfRange "products.price"),
       (decide (0 ≤ product.price), .checkViolation "ck_product_price_pos")]
  | .delete, _ => .ok none

/-! ## The database -/

/-- The tables. -/
structure Db where
  /-- Inventories and accounts. -/
  directory : Directory
  /-- `users`. -/
  users : Table Uuid User
  /-- `products`. -/
  products : Table Uuid Product
  /-- `contracts` with `contract_status_logs`. -/
  contracts : Table Uuid Contract
  /-- `contract_price_items` by contract and product. -/
  priceItems : Table (Uuid × Uuid) PriceItem
  /-- `orders` with `order_items` and `order_status_logs`. -/
  orders : Table Uuid Order
  /-- `accounts.balance`. -/
  accountBalances : Table Uuid ℤ
  /-- `inventory_balances` by inventory and product. -/
  balances : Table (Uuid × Uuid) ℤ
  /-- `stock_transfers` with `stock_transfer_items`. -/
  stockTransfers : Table Uuid StockTransfer
  /-- `stock_transactions`. -/
  stockTransactions : Table Uuid StockTransaction
  /-- `transactions`. -/
  transactions : Table Uuid FinancialTransaction
  /-- `invoices`. -/
  invoices : Table Uuid Invoice

/-- The rows a transaction locks and writes. Of an inventory only the lock is used. -/
inductive Key
  | user (id : Uuid)
  | product (id : Uuid)
  | contract (id : Uuid)
  | priceItem (contractId productId : Uuid)
  | order (id : Uuid)
  | inventory (id : Uuid)
  | account (id : Uuid)
  | balance (inventoryId productId : Uuid)
  | stockTransfer (id : Uuid)
  | stockTransaction (id : Uuid)
  | transaction (id : Uuid)
  | invoice (id : Uuid)
  deriving DecidableEq

/-- The row type of each key. -/
@[reducible] def Row : Key → Type
  | .user _ => User
  | .product _ => Product
  | .contract _ => Contract
  | .priceItem _ _ => PriceItem
  | .order _ => Order
  | .inventory _ => Empty
  | .account _ => ℤ
  | .balance _ _ => ℤ
  | .stockTransfer _ => StockTransfer
  | .stockTransaction _ => StockTransaction
  | .transaction _ => FinancialTransaction
  | .invoice _ => Invoice

/-- The statement type of each key. -/
@[reducible] def Stmt : Key → Type
  | .user _ => Empty
  | .product _ => ProductStmt
  | .contract _ => ContractStmt
  | .priceItem _ _ => PriceItemStmt
  | .order _ => OrderStmt
  | .inventory _ => Empty
  | .account _ => BalanceStmt
  | .balance _ _ => BalanceStmt
  | .stockTransfer _ => TransferStmt
  | .stockTransaction _ => StockTransactionStmt
  | .transaction _ => FinancialStmt
  | .invoice _ => InvoiceStmt

namespace Db

/-- Look a row up. -/
def get (s : Db) : (k : Key) → Option (Row k)
  | .user id => s.users.find? id
  | .product id => s.products.find? id
  | .contract id => s.contracts.find? id
  | .priceItem c p => s.priceItems.find? (c, p)
  | .order id => s.orders.find? id
  | .inventory _ => none
  | .account id => s.accountBalances.find? id
  | .balance i p => s.balances.find? (i, p)
  | .stockTransfer id => s.stockTransfers.find? id
  | .stockTransaction id => s.stockTransactions.find? id
  | .transaction id => s.transactions.find? id
  | .invoice id => s.invoices.find? id

/-- Store, overwrite or delete a row. -/
def put (s : Db) : (k : Key) → Option (Row k) → Db
  | .user id, r => { s with users := s.users.put id r }
  | .product id, r => { s with products := s.products.put id r }
  | .contract id, r => { s with contracts := s.contracts.put id r }
  | .priceItem c p, r => { s with priceItems := s.priceItems.put (c, p) r }
  | .order id, r => { s with orders := s.orders.put id r }
  | .inventory _, _ => s
  | .account id, r => { s with accountBalances := s.accountBalances.put id r }
  | .balance i p, r => { s with balances := s.balances.put (i, p) r }
  | .stockTransfer id, r => { s with stockTransfers := s.stockTransfers.put id r }
  | .stockTransaction id, r => { s with stockTransactions := s.stockTransactions.put id r }
  | .transaction id, r => { s with transactions := s.transactions.put id r }
  | .invoice id, r => { s with invoices := s.invoices.put id r }

theorem get_put_self (s : Db) (k : Key) (r : Option (Row k)) : (s.put k r).get k = r := by
  cases k with
  | inventory id =>
    cases r with
    | none => rfl
    | some r => exact r.elim
  | _ => exact Table.find?_put_self _ _ _

theorem get_put_ne (s : Db) (k : Key) (r : Option (Row k)) (j : Key) (hne : j ≠ k) :
    (s.put k r).get j = s.get j := by
  cases j <;> cases k <;> first
    | rfl
    | exact Table.find?_put_ne _ (fun h => hne (by cases h; rfl)) _

@[simp] theorem orders_put (s : Db) (id : Uuid) (r : Option Order) :
    (s.put (.order id) r).orders = s.orders.put id r := rfl

theorem directory_put (s : Db) (k : Key) (r : Option (Row k)) :
    (s.put k r).directory = s.directory := by
  cases k <;> rfl

end Db

/-- One statement on a row. -/
def exec : (k : Key) → Stmt k → Option (Row k) → Except Err (Option (Row k))
  | .user _, st, _ => st.elim
  | .product _, st, r => st.exec r
  | .contract _, st, r => st.exec r
  | .priceItem _ _, st, r => st.exec r
  | .order _, st, r => st.exec r
  | .inventory _, st, _ => st.elim
  | .account _, st, r => st.update r
  | .balance _ _, st, r => st.upsert r
  | .stockTransfer _, st, r => st.exec r
  | .stockTransaction _, st, r => st.exec r
  | .transaction _, st, r => st.exec r
  | .invoice _, st, r => st.exec r

/-- The database as a store that transaction programs run on. -/
@[reducible] def schema : Schema where
  State := Db
  Key := Key
  keyEq := inferInstance
  Row := Row
  Stmt := Stmt
  Err := Err
  Static := Directory
  get := Db.get
  put := Db.put
  exec := exec
  static := Db.directory
  get_put_self := Db.get_put_self
  get_put_ne := Db.get_put_ne
  static_put := Db.directory_put

/-- A unit of work: one transaction of the application. -/
abbrev Uow (α : Type) := Prog schema α

/-- A plain `SELECT`. -/
abbrev select {α : Type} (f : Db → α) : Uow α := Prog.ask (S := schema) f

/-- `SELECT … FOR UPDATE` of one row. -/
abbrev forUpdate (k : Key) : Uow (Option (Row k)) := Prog.locked (S := schema) k

/-- `SELECT … FOR UPDATE SKIP LOCKED` of one row. -/
abbrev skipLocked (k : Key) : Uow (Option (Option (Row k))) := Prog.unlessLocked (S := schema) k

/-- An `INSERT`, `UPDATE` or `DELETE` of one row. -/
abbrev issue (k : Key) (st : Stmt k) : Uow Unit := Prog.execute (S := schema) k st

/-- A statement that passes keeps the row it was to write. -/
theorem checked_ok {V : Type} {v : V} {cs : List (Bool × Err)} {r : Option V}
    (h : checked v cs = .ok r) : r = some v ∧ ∀ c ∈ cs, c.1 = true := by
  induction cs with
  | nil => exact ⟨(Except.ok.inj h).symm, fun c hc => absurd hc List.not_mem_nil⟩
  | cons c cs ih =>
    obtain ⟨passes, e⟩ := c
    cases passes with
    | false => exact absurd h (by simp [checked])
    | true =>
      obtain ⟨hr, hcs⟩ := ih h
      exact ⟨hr, List.forall_mem_cons.mpr ⟨rfl, hcs⟩⟩

/-- A row whose constraints hold is kept. -/
theorem checked_of_forall {V : Type} {v : V} {cs : List (Bool × Err)}
    (h : ∀ c ∈ cs, c.1 = true) : checked v cs = .ok (some v) := by
  induction cs with
  | nil => rfl
  | cons c cs ih =>
    obtain ⟨hc, hcs⟩ := List.forall_mem_cons.mp h
    rw [checked, if_pos hc]
    exact ih hcs

/-- A statement is rejected with the exception of one of its constraints. -/
theorem checked_error {V : Type} {v : V} {cs : List (Bool × Err)} {e : Err}
    (h : checked v cs = .error e) : (false, e) ∈ cs := by
  induction cs with
  | nil => exact absurd h (by simp [checked])
  | cons c cs ih =>
    obtain ⟨passes, e'⟩ := c
    cases passes with
    | false =>
      cases h
      exact List.mem_cons_self
    | true => exact List.mem_cons_of_mem _ (ih h)

end Munavvar.Database
