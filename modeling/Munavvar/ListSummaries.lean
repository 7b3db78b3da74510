import Munavvar.Aggregation
import Munavvar.StockConservation

/-!
# Lists and their summaries

The lists of financial transactions, stock movements and balances filter a
join; their summaries filter the same join and aggregate. The totals take
their columns from the table itself and not from the filtered subquery, so
the whole table enters the query a second time, unjoined. The grouped sums
aggregate the filtered join.
-/

namespace Munavvar.ListSummaries

open Munavvar.KeyedTable
open Munavvar.Database
open Munavvar.Aggregation
open Munavvar.DoubleEntry
open Munavvar.StockConservation

/-! ## Filters -/

/-- What the database and the search helpers contribute to free text search. -/
structure TextSearch where
  /-- A text without white space at its ends. -/
  strip : String → String
  /-- Whether a column matches the escaped pattern of a query under `ILIKE`. -/
  ilike : String → String → Bool
  /-- Whether a query reads like a phone number. -/
  isPhoneLike : String → Bool
  /-- The number a query denotes, if it is one of at most nine digits. -/
  tryParseInt : String → Option ℤ
  /-- Whether a local identity of an inventory's owner contains the digits of a query. -/
  ownerPhoneContains : Inventory → String → Bool

/-- A condition that is left out when the filter does not set it. -/
def unset {α : Type} (value : Option α) (p : α → Bool) : Bool := value.all p

/-- A list condition that is left out when the list is missing or empty. -/
def unsetIn {α : Type} [DecidableEq α] (values : Option (List α)) (x : α) : Bool :=
  values.all fun vs => vs.isEmpty || decide (x ∈ vs)

/-- A list condition on a column of an outer join, which is never met by a missing row. -/
def unsetInOuter {α : Type} [DecidableEq α] (values : Option (List α)) (x : Option α) : Bool :=
  values.all fun vs => vs.isEmpty || x.any fun x => decide (x ∈ vs)

/-- Which side of a transaction an account filter looks at. -/
inductive Direction
  | incoming | outgoing | internal
  deriving DecidableEq, Repr

/-- `TransactionFilter`; the free text `q` has passed its normalisation. -/
structure TransactionFilter where
  /-- Free text. -/
  q : Option String := none
  /-- Statuses. -/
  statusIn : Option (List TransactionStatus) := none
  /-- Side of `accountId`. -/
  direction : Option Direction := none
  /-- Account on either side. -/
  accountId : Option Uuid := none
  /-- Charged account. -/
  fromAccountId : Option Uuid := none
  /-- Credited account. -/
  toAccountId : Option Uuid := none
  /-- Types of the charged account. -/
  fromAccountTypeIn : Option (List AccountType) := none
  /-- Types of the credited account. -/
  toAccountTypeIn : Option (List AccountType) := none
  /-- Paid order. -/
  orderId : Option Uuid := none
  /-- Statuses of the order. -/
  orderStatusIn : Option (List OrderStatus) := none
  /-- Payment methods of the order. -/
  orderPaymentMethodIn : Option (List PaymentMethod) := none
  /-- Sale types of the order. -/
  orderSaleTypeIn : Option (List SaleType) := none
  /-- Whether an order is paid. -/
  hasOrder : Option Bool := none
  /-- Contract of the order. -/
  contractId : Option Uuid := none
  /-- Part of the contract's number. -/
  contractNumber : Option String := none
  /-- Owner of either account, as a client. -/
  clientId : Option Uuid := none
  /-- Owner of either account, as a courier. -/
  courierId : Option Uuid := none
  /-- Roles of the owners. -/
  userRoleIn : Option (List Role) := none
  /-- Verifier. -/
  verifiedById : Option Uuid := none
  /-- Whether there is a verifier. -/
  verified : Option Bool := none
  /-- Part of the reason. -/
  reasonSearch : Option String := none
  /-- Exact amount. -/
  amountEq : Option ℤ := none
  /-- Least amount. -/
  amountFrom : Option ℤ := none
  /-- Greatest amount. -/
  amountTo : Option ℤ := none
  /-- Earliest time. -/
  dateFrom : Option ℤ := none
  /-- Latest time. -/
  dateTo : Option ℤ := none
  /-- Ascending order of time. -/
  ascending : Bool := false

/-- A transaction with the rows it is joined with. -/
structure JoinedTransaction where
  /-- The transaction's identifier. -/
  id : Uuid
  /-- The transaction. -/
  row : FinancialTransaction
  /-- The charged account. -/
  fromAcc : Account
  /-- The credited account. -/
  toAcc : Account
  /-- Owner of the charged account. -/
  fromUser : User
  /-- Owner of the credited account. -/
  toUser : User
  /-- The order, by an outer join. -/
  order : Option Order
  /-- The order's contract, by an outer join. -/
  contract : Option Contract

/-- `_transaction_base_joins`. -/
def transactionBaseJoins (s : Db) : List JoinedTransaction :=
  s.transactions.rows.filterMap fun r => do
    let fromAcc ← s.directory.account? r.2.fromId
    let toAcc ← s.directory.account? r.2.toId
    let fromUser ← s.users.find? fromAcc.userId
    let toUser ← s.users.find? toAcc.userId
    let order := r.2.orderId.bind s.orders.find?
    let contract := (order.bind fun o => o.contractId).bind s.contracts.find?
    return ⟨r.1, r.2, fromAcc, toAcc, fromUser, toUser, order, contract⟩

/-- `_apply_transaction_filters`. -/
def TransactionFilter.admits (search : TextSearch) (f : TransactionFilter)
    (j : JoinedTransaction) : Bool :=
  j.row.isActive &&
  unsetIn f.statusIn j.row.status &&
  (unset f.accountId fun a =>
    match f.direction with
    | some .incoming => j.row.toId = a
    | some .outgoing => j.row.fromId = a
    | some .internal => j.row.fromId = a && j.row.toId = a
    | none => j.row.fromId = a || j.row.toId = a) &&
  (unset f.fromAccountId fun a => j.row.fromId = a) &&
  (unset f.toAccountId fun a => j.row.toId = a) &&
  unsetIn f.fromAccountTypeIn j.fromAcc.type &&
  unsetIn f.toAccountTypeIn j.toAcc.type &&
  (unset f.orderId fun o => j.row.orderId = some o) &&
  (unset f.hasOrder fun b => j.row.orderId.isSome = b) &&
  unsetInOuter f.orderStatusIn (j.order.map fun o => o.status) &&
  unsetInOuter f.orderPaymentMethodIn (j.order.map fun o => o.paymentMethod) &&
  unsetInOuter f.orderSaleTypeIn (j.order.map fun o => o.saleType) &&
  (unset f.contractId fun c => j.order.any fun o => o.contractId = some c) &&
  (unset f.contractNumber fun n => n = "" || j.contract.any fun c => search.ilike c.number n) &&
  (unset f.clientId fun u => j.fromAcc.userId = u || j.toAcc.userId = u) &&
  (unset f.courierId fun u => j.fromAcc.userId = u || j.toAcc.userId = u) &&
  (unsetIn f.userRoleIn j.fromUser.role || unsetIn f.userRoleIn j.toUser.role) &&
  (unset f.verifiedById fun u => j.row.verifiedById = some u) &&
  (unset f.verified fun b => j.row.verifiedById.isSome = b) &&
  (unset f.reasonSearch fun t => t = "" || search.ilike j.row.reason (search.strip t)) &&
  (unset f.amountEq fun n => j.row.amount = n) &&
  (unset f.amountFrom fun n => n ≤ j.row.amount) &&
  (unset f.amountTo fun n => j.row.amount ≤ n) &&
  (unset f.dateFrom fun t => t ≤ j.row.createdAt) &&
  (unset f.dateTo fun t => j.row.createdAt ≤ t) &&
  (unset f.q fun q => search.ilike j.row.reason q || search.ilike j.fromAcc.name q ||
    search.ilike j.toAcc.name q || search.ilike j.fromUser.username q ||
    search.ilike j.toUser.username q)

/-- The filtered join that the list and the summary build. -/
def matchedTransactions (search : TextSearch) (s : Db) (f : TransactionFilter) :
    List JoinedTransaction :=
  (transactionBaseJoins s).filter (f.admits search)

/-! ## Financial transactions -/

/-- One page of a list with the number of all rows it is taken from. -/
structure Page (α : Type) where
  /-- Number of rows without paging. -/
  total : ℕ
  /-- The rows of the page. -/
  items : List α

/-- `ORDER BY column, id DESC`, then `OFFSET` and `LIMIT`. -/
def page {α : Type} (rows : List α) (ascending : Bool) (column : α → ℤ) (id : α → Uuid)
    (skip limit : ℕ) : Page α where
  total := rows.length
  items :=
    let before (a b : α) : Bool :=
      if column a = column b then id b ≤ id a
      else if ascending then column a ≤ column b
      else column b ≤ column a
    ((rows.mergeSort before).drop skip).take limit

/-- `get_transactions_with_filters`. -/
def getTransactionsWithFilters (search : TextSearch) (s : Db) (f : TransactionFilter)
    (skip limit : ℕ) : Page JoinedTransaction :=
  page (matchedTransactions search s f) f.ascending (fun j => j.row.createdAt) (fun j => j.id)
    skip limit

/-- `TransactionSummary`. -/
structure TransactionSummary where
  /-- Sum of the amounts. -/
  sumAmount : ℤ
  /-- Number of transactions with each status. -/
  countByStatus : TransactionStatus → ℕ

/-- `get_transactions_summary`: the columns come from `transactions`, so the
query reads the subquery and, unjoined, the whole table. -/
def getTransactionsSummary (search : TextSearch) (s : Db) (f : TransactionFilter) :
    TransactionSummary :=
  let rows := crossJoin (matchedTransactions search s f) s.transactions.rows
  { sumAmount := (rows.map fun r => r.2.2.amount).sum
    countByStatus := fun status => (rows.filter fun r => r.2.2.status = status).length }

/-- The summary describes exactly the rows of a list with a total. -/
structure TransactionSummary.Agrees (summary : TransactionSummary) (rows : List JoinedTransaction)
    (total : ℕ) : Prop where
  /-- The sum is over the list. -/
  sum_eq : summary.sumAmount = (rows.map fun j => j.row.amount).sum
  /-- The counts are over the list. -/
  count_eq : ∀ status,
    summary.countByStatus status = (rows.filter fun j => j.row.status = status).length
  /-- The counts add up to the list's total. -/
  total_eq : summary.countByStatus .pending + summary.countByStatus .completed +
    summary.countByStatus .rejected = total

/-! ## Stock movements -/

/-- Which side of a movement an inventory filter looks at. -/
inductive StockDirection
  | incoming | outgoing | any
  deriving DecidableEq, Repr

/-- `StockTransactionFilter`. -/
structure StockTransactionFilter where
  /-- Free text. -/
  q : Option String := none
  /-- Product. -/
  productId : Option Uuid := none
  /-- Products. -/
  productIdIn : Option (List Uuid) := none
  /-- Types of the product. -/
  productTypeIn : Option (List ProductType) := none
  /-- Giving inventory. -/
  fromId : Option Uuid := none
  /-- Taking inventory. -/
  toId : Option Uuid := none
  /-- Inventory on either side. -/
  inventoryId : Option Uuid := none
  /-- Side of `inventoryId`. -/
  direction : Option StockDirection := none
  /-- Types of the giving inventory. -/
  fromTypeIn : Option (List InventoryType) := none
  /-- Types of the taking inventory. -/
  toTypeIn : Option (List InventoryType) := none
  /-- Transfer. -/
  transferId : Option Uuid := none
  /-- Types of the transfer. -/
  transferTypeIn : Option (List TransferType) := none
  /-- Order of the transfer. -/
  orderId : Option Uuid := none
  /-- Author of the transfer. -/
  createdById : Option Uuid := none
  /-- Exact quantity. -/
  quantityEq : Option ℤ := none
  /-- Least quantity. -/
  quantityFrom : Option ℤ := none
  /-- Greatest quantity. -/
  quantityTo : Option ℤ := none
  /-- Earliest time. -/
  dateFrom : Option ℤ := none
  /-- Latest time. -/
  dateTo : Option ℤ := none
  /-- Order by quantity, not by time. -/
  sortByQuantity : Bool := false
  /-- Ascending order. -/
  ascending : Bool := false

/-- A movement with the rows it is joined with. -/
structure JoinedMovement where
  /-- The movement's identifier. -/
  id : Uuid
  /-- The movement. -/
  row : StockTransaction
  /-- The giving inventory. -/
  fromInv : Inventory
  /-- The taking inventory. -/
  toInv : Inventory
  /-- The product. -/
  product : Product
  /-- The transfer. -/
  transfer : StockTransfer

/-- `_stock_transaction_base_joins`. -/
def stockTransactionBaseJoins (s : Db) : List JoinedMovement :=
  s.stockTransactions.rows.filterMap fun r => do
    let fromInv ← s.directory.inventory? r.2.fromId
    let toInv ← s.directory.inventory? r.2.toId
    let product ← s.products.find? r.2.productId
    let transfer ← s.stockTransfers.find? r.2.transferId
    return ⟨r.1, r.2, fromInv, toInv, product, transfer⟩

/-- `_apply_stock_transaction_filters`. -/
def StockTransactionFilter.admits (search : TextSearch) (f : StockTransactionFilter)
    (j : JoinedMovement) : Bool :=
  (unset f.productId fun p => j.row.productId = p) &&
  unsetIn f.productIdIn j.row.productId &&
  unsetIn f.productTypeIn j.product.type &&
  (unset f.fromId fun i => j.row.fromId = i) &&
  (unset f.toId fun i => j.row.toId = i) &&
  (unset f.inventoryId fun i =>
    match f.direction with
    | some .incoming => j.row.toId = i
    | some .outgoing => j.row.fromId = i
    | _ => j.row.fromId = i || j.row.toId = i) &&
  unsetIn f.fromTypeIn j.fromInv.type &&
  unsetIn f.toTypeIn j.toInv.type &&
  (unset f.transferId fun t => j.row.transferId = t) &&
  unsetIn f.transferTypeIn j.transfer.type &&
  (unset f.orderId fun o => j.transfer.orderId = some o) &&
  (unset f.createdById fun u => j.transfer.createdById = u) &&
  (unset f.quantityEq fun n => j.row.quantity = n) &&
  (unset f.quantityFrom fun n => n ≤ j.row.quantity) &&
  (unset f.quantityTo fun n => j.row.quantity ≤ n) &&
  (unset f.dateFrom fun t => t ≤ j.row.createdAt) &&
  (unset f.dateTo fun t => j.row.createdAt ≤ t) &&
  (unset f.q fun text =>
    let q := search.strip text
    text = "" ||
    (!search.isPhoneLike q && (search.tryParseInt q).any fun n => j.row.quantity = n) ||
    search.ilike j.product.name q || search.ilike j.fromInv.name q ||
    search.ilike j.toInv.name q || (j.transfer.reason.any fun t => search.ilike t q) ||
    (search.isPhoneLike q &&
      (search.ownerPhoneContains j.fromInv q || search.ownerPhoneContains j.toInv q)))

/-- The filtered join that the list and the summary build. -/
def matchedMovements (search : TextSearch) (s : Db) (f : StockTransactionFilter) :
    List JoinedMovement :=
  (stockTransactionBaseJoins s).filter (f.admits search)

/-- `StockTransactionRepository.search_with_filters`. -/
def searchMovements (search : TextSearch) (s : Db) (f : StockTransactionFilter)
    (skip limit : ℕ) : Page JoinedMovement :=
  page (matchedMovements search s f) f.ascending
    (fun j => if f.sortByQuantity then j.row.quantity else j.row.createdAt) (fun j => j.id)
    skip limit

/-- The types of transfers that `GROUP BY` distinguishes. -/
def transferTypes : List TransferType :=
  [.courierLoad, .courierReturn, .clientDelivery, .clientReturn, .lossWriteOff,
    .inventoryFinding, .initialBalance, .warehouseSale, .warehouseTaraReturn]

/-- The summary of stock movements. -/
structure StockSummary where
  /-- Number of movements. -/
  totalTransactions : ℕ
  /-- Sum of the quantities. -/
  totalQuantity : ℤ
  /-- Sum of the quantities for each type of transfer that occurs. -/
  byTransferType : List (TransferType × ℤ)

/-- `StockTransactionRepository.summarize_with_filters`: the totals read the
subquery and, unjoined, the whole table; the groups read the filtered join. -/
def summarizeMovements (search : TextSearch) (s : Db) (f : StockTransactionFilter) :
    StockSummary :=
  let rows := crossJoin (matchedMovements search s f) s.stockTransactions.rows
  { totalTransactions := rows.length
    totalQuantity := (rows.map fun r => r.2.2.quantity).sum
    byTransferType := groupSums transferTypes (fun j => j.transfer.type)
      (fun j => j.row.quantity) (matchedMovements search s f) }

/-- The summary describes exactly the rows of a list with a total, and its groups add up. -/
structure StockSummary.Agrees (summary : StockSummary) (rows : List JoinedMovement) (total : ℕ) :
    Prop where
  /-- The count is that of the list. -/
  count_eq : summary.totalTransactions = total
  /-- The sum is over the list. -/
  sum_eq : summary.totalQuantity = (rows.map fun j => j.row.quantity).sum
  /-- The groups add up to the total quantity. -/
  groups_eq : (summary.byTransferType.map Prod.snd).sum = summary.totalQuantity

/-! ## Balances -/

/-- `BalanceFilter`. -/
structure BalanceFilter where
  /-- Free text. -/
  q : Option String := none
  /-- Product. -/
  productId : Option Uuid := none
  /-- Products. -/
  productIdIn : Option (List Uuid) := none
  /-- Types of the product. -/
  productTypeIn : Option (List ProductType) := none
  /-- Types of the inventory. -/
  inventoryTypeIn : Option (List InventoryType) := none
  /-- Inventories. -/
  inventoryIdIn : Option (List Uuid) := none
  /-- Owner of the inventory. -/
  userId : Option Uuid := none
  /-- Least quantity. -/
  quantityFrom : Option ℤ := none
  /-- Greatest quantity. -/
  quantityTo : Option ℤ := none
  /-- Only positive balances. -/
  nonzeroOnly : Bool := true

/-- A balance with the rows it is joined with. -/
structure JoinedBalance where
  /-- The quantity. -/
  quantity : ℤ
  /-- The product's identifier. -/
  productId : Uuid
  /-- The product. -/
  product : Product
  /-- The inventory. -/
  inventory : Inventory

/-- `_balance_base_joins`. -/
def balanceBaseJoins (s : Db) : List JoinedBalance :=
  s.balances.rows.filterMap fun r => do
    let product ← s.products.find? r.1.2
    let inventory ← s.directory.inventory? r.1.1
    return ⟨r.2, r.1.2, product, inventory⟩

/-- `_apply_balance_filters`. -/
def BalanceFilter.admits (search : TextSearch) (f : BalanceFilter) (j : JoinedBalance) : Bool :=
  (!f.nonzeroOnly || 0 < j.quantity) &&
  (unset f.productId fun p => j.productId = p) &&
  unsetIn f.productIdIn j.productId &&
  unsetIn f.productTypeIn j.product.type &&
  unsetIn f.inventoryTypeIn j.inventory.type &&
  unsetIn f.inventoryIdIn j.inventory.id &&
  (unset f.userId fun u => j.inventory.userId = some u) &&
  (unset f.quantityFrom fun n => n ≤ j.quantity) &&
  (unset f.quantityTo fun n => j.quantity ≤ n) &&
  (unset f.q fun q => q = "" || search.ilike j.product.name (search.strip q) ||
    search.ilike j.inventory.name (search.strip q))

/-- The filtered join that the summary builds. -/
def matchedBalances (search : TextSearch) (s : Db) (f : BalanceFilter) : List JoinedBalance :=
  (balanceBaseJoins s).filter (f.admits search)

/-- The types of inventories that `GROUP BY` distinguishes. -/
def inventoryTypes : List InventoryType :=
  [.warehouse, .courier, .client, .virtualLoss, .virtualVendor]

/-- The summary of balances. -/
structure BalanceSummary where
  /-- Sum of the quantities. -/
  totalQuantity : ℤ
  /-- Sum of the quantities for each type of inventory that occurs. -/
  byInventoryType : List (InventoryType × ℤ)

/-- `BalanceRepository.summarize_with_filters`: the total reads the subquery
and, unjoined, the whole table; the groups read the filtered join. -/
def summarizeBalances (search : TextSearch) (s : Db) (f : BalanceFilter) : BalanceSummary :=
  let rows := crossJoin (matchedBalances search s f) s.balances.rows
  { totalQuantity := (rows.map fun r => r.2.2).sum
    byInventoryType := groupSums inventoryTypes (fun j => j.inventory.type)
      (fun j => j.quantity) (matchedBalances search s f) }

/-- The total is what the groups add up to. -/
def BalanceSummary.Agrees (summary : BalanceSummary) : Prop :=
  summary.totalQuantity = (summary.byInventoryType.map Prod.snd).sum

/-! ## When the summaries agree -/

section Transactions

variable (search : TextSearch) (s : Db) (f : TransactionFilter)

/-- Matched transactions are rows of the table. -/
theorem matchedTransactions_sublist :
    ((matchedTransactions search s f).map fun j => j.row).Sublist
      (s.transactions.rows.map Prod.snd) := by
  refine (List.filter_sublist.map _).trans (joined_sublist ?_ _)
  intro r j hj
  simp only [Option.bind_eq_bind, Option.bind_eq_some_iff, Option.pure_def, Option.some.injEq] at hj
  obtain ⟨_, _, _, _, _, _, _, _, rfl⟩ := hj
  rfl

/-- Every transaction has one of three statuses. -/
theorem count_statuses (rows : List FinancialTransaction) :
    (rows.filter fun x => x.status = .pending).length +
        (rows.filter fun x => x.status = .completed).length +
        (rows.filter fun x => x.status = .rejected).length = rows.length := by
  induction rows with
  | nil => rfl
  | cons x rows ih =>
    cases hx : x.status <;> simp only [List.filter_cons, hx, decide_true, decide_false, if_true,
      reduceCtorEq, Bool.false_eq_true, if_false, List.length_cons] <;> omega

/-- The sum of the summary counts the whole table once for each matched row. -/
theorem sumAmount_eq :
    (getTransactionsSummary search s f).sumAmount =
      ((matchedTransactions search s f).map fun j => j.row).length *
        ((s.transactions.rows.map Prod.snd).map fun x => x.amount).sum := by
  rw [List.length_map, List.map_map]
  exact sum_crossJoin _ _ fun r : Uuid × FinancialTransaction => r.2.amount

/-- So do its counts. -/
theorem countByStatus_eq (status : TransactionStatus) :
    (getTransactionsSummary search s f).countByStatus status =
      ((matchedTransactions search s f).map fun j => j.row).length *
        ((s.transactions.rows.map Prod.snd).filter fun x => x.status = status).length := by
  rw [List.length_map, List.filter_map, List.length_map]
  exact length_filter_crossJoin _ _ fun r : Uuid × FinancialTransaction => r.2.status = status

/-- The summary of transactions agrees with the list exactly when nothing is
matched or the table holds a single row. -/
theorem transactionSummary_agrees_iff (skip limit : ℕ) :
    (getTransactionsSummary search s f).Agrees (matchedTransactions search s f)
        (getTransactionsWithFilters search s f skip limit).total ↔
      matchedTransactions search s f = [] ∨ s.transactions.rows.length = 1 := by
  have hsub := matchedTransactions_sublist search s f
  have hcondition : matchedTransactions search s f = [] ∨ s.transactions.rows.length = 1 ↔
      (matchedTransactions search s f).map (fun j => j.row) = [] ∨
        (s.transactions.rows.map Prod.snd).length = 1 := by
    rw [List.map_eq_nil_iff, List.length_map]
  rw [hcondition]
  have htotal : (getTransactionsWithFilters search s f skip limit).total =
      ((matchedTransactions search s f).map fun j => j.row).length := (List.length_map _).symm
  constructor
  · intro h
    have hcount := h.total_eq
    rw [countByStatus_eq, countByStatus_eq, countByStatus_eq, ← Nat.mul_add, ← Nat.mul_add,
      count_statuses, htotal] at hcount
    exact length_mul_length_eq_iff.mp hcount
  · intro h
    refine ⟨?_, fun status => ?_, ?_⟩
    · rw [sumAmount_eq, sum_product hsub h, List.map_map]
      rfl
    · rw [countByStatus_eq, count_product hsub h, List.filter_map, List.length_map]
      rfl
    · rw [countByStatus_eq, countByStatus_eq, countByStatus_eq, ← Nat.mul_add, ← Nat.mul_add,
        count_statuses, htotal]
      exact length_mul_length_eq_iff.mpr h

end Transactions

section Movements

variable (search : TextSearch) (s : Db) (f : StockTransactionFilter)

/-- Matched movements are rows of the table. -/
theorem matchedMovements_sublist :
    ((matchedMovements search s f).map fun j => j.row).Sublist
      (s.stockTransactions.rows.map Prod.snd) := by
  refine (List.filter_sublist.map _).trans (joined_sublist ?_ _)
  intro r j hj
  simp only [Option.bind_eq_bind, Option.bind_eq_some_iff, Option.pure_def, Option.some.injEq] at hj
  obtain ⟨_, _, _, _, _, _, _, _, rfl⟩ := hj
  rfl

/-- The groups of the summary add up to the matched movements. -/
theorem byTransferType_sum :
    ((summarizeMovements search s f).byTransferType.map Prod.snd).sum =
      ((matchedMovements search s f).map fun j => j.row.quantity).sum := by
  refine sum_groupSums (by decide) _ fun j _ => ?_
  cases j.transfer.type <;> decide

/-- The summary of movements agrees with the list exactly when nothing is
matched or the table holds a single row. -/
theorem stockSummary_agrees_iff (skip limit : ℕ) :
    (summarizeMovements search s f).Agrees (matchedMovements search s f)
        (searchMovements search s f skip limit).total ↔
      matchedMovements search s f = [] ∨ s.stockTransactions.rows.length = 1 := by
  have hsub := matchedMovements_sublist search s f
  have hcondition : matchedMovements search s f = [] ∨ s.stockTransactions.rows.length = 1 ↔
      (matchedMovements search s f).map (fun j => j.row) = [] ∨
        (s.stockTransactions.rows.map Prod.snd).length = 1 := by
    rw [List.map_eq_nil_iff, List.length_map]
  rw [hcondition]
  have hcount : (summarizeMovements search s f).totalTransactions =
      ((matchedMovements search s f).map fun j => j.row).length *
        (s.stockTransactions.rows.map Prod.snd).length := by
    rw [List.length_map, List.length_map]
    exact length_crossJoin _ _
  have hsum : (summarizeMovements search s f).totalQuantity =
      ((matchedMovements search s f).map fun j => j.row).length *
        ((s.stockTransactions.rows.map Prod.snd).map fun x => x.quantity).sum := by
    rw [List.length_map, List.map_map]
    exact sum_crossJoin _ _ fun r : Uuid × StockTransaction => r.2.quantity
  have htotal : (searchMovements search s f skip limit).total =
      ((matchedMovements search s f).map fun j => j.row).length := (List.length_map _).symm
  constructor
  · intro h
    have hcount' := h.count_eq
    rw [hcount, htotal] at hcount'
    exact length_mul_length_eq_iff.mp hcount'
  · intro h
    have hmatched : (summarizeMovements search s f).totalQuantity =
        ((matchedMovements search s f).map fun j => j.row.quantity).sum := by
      rw [hsum, sum_product hsub h, List.map_map]
      rfl
    refine ⟨?_, hmatched, ?_⟩
    · rw [hcount, htotal]
      exact length_mul_length_eq_iff.mpr h
    · rw [byTransferType_sum, hmatched]

end Movements

section Balances

variable (search : TextSearch) {s : Db} (f : BalanceFilter)

/-- In a ledger state all balances add up to nothing, so the total of the
summary is zero and agrees with its groups exactly when the matched balances
add up to nothing too. -/
theorem balanceSummary_agrees_iff (hledger : Conserved s) :
    (summarizeBalances search s f).Agrees ↔
      ((matchedBalances search s f).map fun j => j.quantity).sum = 0 := by
  have hall : (s.balances.rows.map fun r => r.2).sum = 0 := hledger.grand_total
  have htotal : (summarizeBalances search s f).totalQuantity = 0 := by
    have hsum := sum_crossJoin (matchedBalances search s f) s.balances.rows fun r => r.2
    rw [hall, mul_zero] at hsum
    exact hsum
  have hgroups : ((summarizeBalances search s f).byInventoryType.map Prod.snd).sum =
      ((matchedBalances search s f).map fun j => j.quantity).sum := by
    refine sum_groupSums (by decide) _ fun j _ => ?_
    cases j.inventory.type <;> decide
  rw [BalanceSummary.Agrees, htotal, hgroups]
  exact eq_comm

end Balances

/-- The three summaries agree with what they summarise exactly under these conditions. -/
theorem summaries_agree_iff (search : TextSearch) {s : Db} (hledger : Conserved s)
    (f : TransactionFilter) (g : StockTransactionFilter) (h : BalanceFilter) (skip limit : ℕ) :
    ((getTransactionsSummary search s f).Agrees (matchedTransactions search s f)
        (getTransactionsWithFilters search s f skip limit).total ∧
      (summarizeMovements search s g).Agrees (matchedMovements search s g)
        (searchMovements search s g skip limit).total ∧
      (summarizeBalances search s h).Agrees) ↔
    (matchedTransactions search s f = [] ∨ s.transactions.rows.length = 1) ∧
      (matchedMovements search s g = [] ∨ s.stockTransactions.rows.length = 1) ∧
      ((matchedBalances search s h).map fun j => j.quantity).sum = 0 := by
  rw [transactionSummary_agrees_iff, stockSummary_agrees_iff, balanceSummary_agrees_iff _ _ hledger]

/-- A search that no filter below uses. -/
def noSearch : TextSearch := ⟨id, fun _ _ => false, fun _ => false, fun _ => none, fun _ _ => false⟩

/-- A vendor, a warehouse and a product, and two posted debts of a client. -/
def sampleDb : Db where
  directory := ⟨[⟨1, some 0, .virtualVendor, true, "vendor"⟩, ⟨2, some 5, .warehouse, true, "main"⟩],
    [⟨1, 0, .revenue, true, 0, "revenue"⟩, ⟨2, 5, .client, true, 0, "client"⟩]⟩
  users := ⟨[(0, ⟨.system, true, "system"⟩), (5, ⟨.clientB2C, true, "client"⟩)], by decide⟩
  products := ⟨[(7, ⟨.water, "water", 10, none, true⟩)], by decide⟩
  contracts := Table.empty
  priceItems := Table.empty
  orders := Table.empty
  accountBalances := ⟨[(1, -80), (2, 80)], by decide⟩
  balances := Table.empty
  stockTransfers := ⟨[(11, ⟨1, 2, .initialBalance, .completed, 5, some 5, none, none, []⟩)],
    by decide⟩
  stockTransactions := Table.empty
  transactions := ⟨[(21, ⟨1, 2, none, none, 50, .completed, "debt", 0, true⟩),
    (22, ⟨1, 2, none, none, 30, .completed, "debt", 1, true⟩)], by decide⟩
  invoices := Table.empty

/-- Two deliveries of water by the vendor. -/
def sampleMovements : List StockStatement :=
  [.insert [(31, ⟨11, 7, 1, 2, 4, 0⟩)], .insert [(32, ⟨11, 7, 1, 2, 6, 1⟩)]]

/-- With two transactions and two movements no summary agrees with its list
when nothing but the default filters is set. -/
theorem summaries_disagree :
    ¬ ∀ (search : TextSearch) (s : Db), Conserved s → ∀ (f : TransactionFilter)
      (g : StockTransactionFilter) (h : BalanceFilter) (skip limit : ℕ),
      (getTransactionsSummary search s f).Agrees (matchedTransactions search s f)
          (getTransactionsWithFilters search s f skip limit).total ∧
        (summarizeMovements search s g).Agrees (matchedMovements search s g)
          (searchMovements search s g skip limit).total ∧
        (summarizeBalances search s h).Agrees := by
  intro hall
  have heval : ((transactionProgram sampleMovements).run sampleDb).toOption.map
      (fun r => ((getTransactionsSummary noSearch r.2 {}).sumAmount,
        ((matchedTransactions noSearch r.2 {}).map fun j => j.row.amount).sum)) =
      some (160, 80) := by decide +kernel
  cases hrun : (transactionProgram sampleMovements).run sampleDb with
  | error e => exact absurd (hrun ▸ heval) (by simp [Except.toOption])
  | ok r =>
    rw [hrun, Except.toOption, Option.map_some, Option.some.injEq, Prod.mk.injEq] at heval
    have hledger : Conserved r.2 := conserved_of_run (pending_empty rfl rfl) hrun
    have hsum := (hall noSearch r.2 hledger {} {} {} 0 50).1.sum_eq
    omega

theorem summaries_agree_iff_sample :
    Conserved sampleDb ∧
      (((getTransactionsSummary noSearch sampleDb { amountFrom := some 60 }).Agrees
          (matchedTransactions noSearch sampleDb { amountFrom := some 60 })
          (getTransactionsWithFilters noSearch sampleDb { amountFrom := some 60 } 0 50).total ∧
        (summarizeMovements noSearch sampleDb {}).Agrees (matchedMovements noSearch sampleDb {})
          (searchMovements noSearch sampleDb {} 0 50).total ∧
        (summarizeBalances noSearch sampleDb {}).Agrees) ↔
      (matchedTransactions noSearch sampleDb { amountFrom := some 60 } = [] ∨
          sampleDb.transactions.rows.length = 1) ∧
        (matchedMovements noSearch sampleDb {} = [] ∨
          sampleDb.stockTransactions.rows.length = 1) ∧
        ((matchedBalances noSearch sampleDb {}).map fun j => j.quantity).sum = 0) := by
  have hledger : Conserved sampleDb := (pending_empty rfl rfl).conserved
  exact ⟨hledger, summaries_agree_iff noSearch hledger { amountFrom := some 60 } {} {} 0 50⟩

end Munavvar.ListSummaries
