import Munavvar.StockLedger
import Mathlib.Data.List.Sort

/-!
# Reads of the order service

The requests of the order endpoints and the queries by which the order service
reads products, users, inventories and accounts. Inventories and accounts are
found in the directory; of an inventory only the row lock is taken.
-/

namespace Munavvar.OrderQueries

open Munavvar.KeyedTable
open Munavvar.Transaction
open Munavvar.Transaction.Prog
open Munavvar.Database
open Munavvar.StockLedger

/-! ## Requests -/

/-- A line of a cart. -/
structure Item where
  /-- The product. -/
  productId : Uuid
  /-- The number of pieces. -/
  quantity : ℤ
  /-- The schema admits positive quantities only. -/
  quantity_pos : 0 < quantity
  deriving DecidableEq

/-- A line as product and quantity. -/
def Item.pair (i : Item) : Uuid × ℤ := (i.productId, i.quantity)

/-- A delivery order. -/
structure OrderCreate where
  /-- The cart. -/
  items : List Item
  /-- How the client intends to pay. -/
  paymentMethod : PaymentMethod
  /-- The address of the delivery. -/
  clientInventoryId : Uuid
  /-- Whether missing containers are entered. -/
  capitalizeMissingTara : Bool
  /-- Instructions for the courier. -/
  notes : Option String

/-- A sale from a warehouse. -/
structure WarehouseSaleCreate where
  /-- The selling warehouse. -/
  warehouseId : Uuid
  /-- The cart. -/
  items : List Item
  /-- Whether missing containers are entered. -/
  capitalizeMissingTara : Bool

/-- What was delivered of one product. -/
structure OrderItemActual where
  /-- The product. -/
  productId : Uuid
  /-- The number of pieces. -/
  quantity : ℤ
  /-- The schema admits no negative quantities. -/
  quantity_nonneg : 0 ≤ quantity

/-! ## Products and users -/

/-- `get_by_ids`: the active products with the given identifiers. -/
def getByIds (productIds : List Uuid) : Uow (List (Uuid × Product)) :=
  select fun s => s.products.rows.filter fun r => r.1 ∈ productIds && r.2.isActive

/-- `get_client`: an active user with a client's role. -/
def getClient (clientId : Uuid) : Uow User := do
  let user ← select fun s => s.users.find? clientId
  orRaise (user.filter fun u => (u.role = .clientB2B || u.role = .clientB2C) && u.isActive)
    (.userNotFound clientId)

/-- `get_courier`: an active user with the role of a courier. -/
def getCourier (id : Uuid) : Uow (Option User) := do
  let user ← select fun s => s.users.find? id
  ret (user.filter fun u => u.role = .courier && u.isActive)

/-! ## Inventories -/

/-- `scalar_one_or_none`: at most one row. -/
def scalarOneOrNone {V : Type} : List V → Uow (Option V)
  | [] => ret none
  | [v] => ret (some v)
  | _ :: _ :: _ => raise .multipleResultsFound

/-- `get_inventory_with_balances`: an active inventory, of a type if one is
asked for, and its balances, read after its row was locked if that is asked for. -/
def getInventoryWithBalances (inventoryId : Uuid) (invType : Option InventoryType)
    (withForUpdate : Bool) : Uow (Option (Inventory × (Uuid → ℤ))) := do
  whenever (withForUpdate = true) do
    let _ ← forUpdate (.inventory inventoryId)
  let d ← select Db.directory
  let balances ← select Db.balances
  ret (((d.inventory? inventoryId).filter fun i =>
    i.isActive && invType.all fun type => i.type = type).map fun i =>
      (i, fun productId => (balances.find? (inventoryId, productId)).getD 0))

/-- `get_system_inventory`: the inventory of a virtual type, active or not. -/
def getSystemInventory (invType : InventoryType) : Uow Inventory := do
  let d ← select Db.directory
  let inventory ← scalarOneOrNone <| d.inventories.filter fun i =>
    i.userId = some systemUserId && i.type = invType
  orRaise inventory (.virtualInventoryMissing invType)

/-- `get_vendor_inventory`. -/
def getVendorInventory : Uow Inventory := getSystemInventory .virtualVendor

/-- `get_courier_inventory`: the courier's active vehicle. -/
def getCourierInventory (courierId : Uuid) : Uow (Option Inventory) := do
  let d ← select Db.directory
  scalarOneOrNone <| d.inventories.filter fun i =>
    i.userId = some courierId && i.type = .courier && i.isActive

/-- `get_client_inventory`: some active inventory of a client. -/
def getClientInventory (userId : Uuid) : Uow (Option Inventory) := do
  let d ← select Db.directory
  ret (d.inventories.find? fun i => i.userId = some userId && i.type = .client && i.isActive)

end Munavvar.OrderQueries

namespace Munavvar.Database.Directory

open Munavvar.Database

/-- An active inventory of a client. -/
def isClientInventory (d : Directory) (userId inventoryId : Uuid) : Bool :=
  d.inventories.any fun i =>
    i.id = inventoryId && i.userId = some userId && i.type = .client && i.isActive

/-- `get_user_account_by_type`: the oldest active account of a user and a type. -/
def userAccountByType (d : Directory) (userId : Uuid) (accountType : AccountType) :
    Option Account :=
  ((d.accounts.filter fun a =>
    a.userId = userId && a.type = accountType && a.isActive).insertionSort fun a b =>
      a.createdAt < b.createdAt ∨ a.createdAt = b.createdAt ∧ a.id ≤ b.id).head?

/-- `get_client_account`. -/
def clientAccount (d : Directory) (clientId : Uuid) : Option Account :=
  d.userAccountByType clientId .client

/-- `get_courier_account`. -/
def courierAccount (d : Directory) (courierId : Uuid) : Option Account :=
  d.userAccountByType courierId .courier

/-- `get_system_revenue_account`. -/
def systemRevenueAccount (d : Directory) : Option Account :=
  d.userAccountByType systemUserId .revenue

/-- `get_system_cash_account`. -/
def systemCashAccount (d : Directory) : Option Account :=
  d.userAccountByType systemUserId .cash

/-- `get_system_card_account`. -/
def systemCardAccount (d : Directory) : Option Account :=
  d.userAccountByType systemUserId .card

end Munavvar.Database.Directory

namespace Munavvar.Database

/-- The contract whose quota an order uses. -/
def Order.contract? (o : Order) : Option Uuid :=
  if o.paymentMethod = .contract then o.contractId else none

/-- An order line as product and quantity. -/
def OrderItem.pair (i : OrderItem) : Uuid × ℤ := (i.productId, i.quantity)

/-- The amount of some lines. -/
def lineTotal (items : List OrderItem) : ℤ := (items.map fun i => i.unitPrice * i.quantity).sum

end Munavvar.Database
