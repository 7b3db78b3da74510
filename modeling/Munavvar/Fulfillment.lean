import Munavvar.OrderQueries
import Munavvar.FinancialLedger
import Munavvar.Quota

/-!
# Fulfillment and settlement

What happens when an order is delivered or picked up: lines are adjusted to
what was handed over, stock is checked and moved, empty containers come back,
and the amount is settled on the accounts.
-/

namespace Munavvar.Fulfillment

open Munavvar.KeyedTable
open Munavvar.Transaction
open Munavvar.Transaction.Prog
open Munavvar.Database
open Munavvar.StockLedger
open Munavvar.FinancialLedger
open Munavvar.OrderQueries
open Munavvar.Quota

/-! ## Settlement -/

/-- A financial transaction for an order. -/
def settlementTransaction (env : Env) (orderId : Uuid) (order : Order) (source target : Account)
    (status : TransactionStatus) (reason : String) : FinancialTransaction :=
  ⟨source.id, target.id, some orderId, none, order.totalAmount, status, reason, env.now, true⟩

/-- The pending transfer to the card account. -/
def cardPayment (env : Env) (orderId : Uuid) (order : Order) (reason : String) (d : Directory)
    (client : Account) : Except Err (List FinancialTransaction) :=
  match d.systemCardAccount with
  | none => .error (.notFound "Системный счет карты не найден" "CARD_ACCOUNT_NOT_FOUND" [])
  | some card => .ok [settlementTransaction env orderId order client card .pending reason]

/-- The payment of a delivery: cash goes to the courier. -/
def deliveryPayment (env : Env) (orderId : Uuid) (order : Order) (d : Directory)
    (client : Account) : Except Err (List FinancialTransaction) :=
  match order.paymentMethod, order.courierId with
  | .cash, some courierId =>
    match d.courierAccount courierId with
    | none => .error (.notFound "Счет курьера не найден" "COURIER_ACCOUNT_NOT_FOUND"
        [("courier_id", .id courierId)])
    | some courier => .ok [settlementTransaction env orderId order client courier .completed
        "Оплата наличными курьеру"]
  | .cash, none => .ok []
  | .card, _ => cardPayment env orderId order "Перевод на карту" d client
  | .contract, _ => .ok []

/-- The payment of a pickup: cash goes to the cash desk. -/
def pickupPayment (env : Env) (orderId : Uuid) (order : Order) (d : Directory)
    (client : Account) : Except Err (List FinancialTransaction) :=
  match order.paymentMethod with
  | .cash =>
    match d.systemCashAccount with
    | none => .error (.notFound "Системная касса не найдена" "CASH_ACCOUNT_NOT_FOUND" [])
    | some cash => .ok [settlementTransaction env orderId order client cash .completed
        "Оплата наличными на складе (самовывоз)"]
  | .card => cardPayment env orderId order "Перевод на карту (самовывоз)" d client
  | .contract => .ok []

/-- The debt of the client followed by the payment. -/
def settle (env : Env) (orderId : Uuid) (order : Order) (missingClient debtReason : String)
    (payment : Directory → Account → Except Err (List FinancialTransaction)) : Uow Unit := do
  let d ← select Db.directory
  let client ← orRaise (d.clientAccount order.clientId)
    (.notFound missingClient "CLIENT_ACCOUNT_NOT_FOUND" [("client_id", .id order.clientId)])
  let revenue ← orRaise d.systemRevenueAccount
    (.notFound "Системный счет выручки не найден" "REVENUE_ACCOUNT_NOT_FOUND" [])
  let debt := settlementTransaction env orderId order revenue client .completed debtReason
  let payments ← fromExcept (payment d client)
  insertTransactions ((debt :: payments).zipIdx.map fun x => (env.uuid 9 x.2, x.1))

/-- `_process_financial_settlement`. -/
def processFinancialSettlement (env : Env) (orderId : Uuid) (order : Order) : Uow Unit :=
  settle env orderId order
    (s!"Финансовый счет клиента {order.clientId} не найден. " ++
      "Создайте счет перед обработкой заказа.")
    "Задолженность за заказ" (deliveryPayment env orderId order)

/-- `_process_pickup_settlement`. -/
def processPickupSettlement (env : Env) (orderId : Uuid) (order : Order) : Uow Unit :=
  settle env orderId order s!"Финансовый счет клиента {order.clientId} не найден"
    "Задолженность за заказ (самовывоз)" (pickupPayment env orderId order)

/-! ## Stock -/

/-- `_build_returnable_items`: the containers that belong to the lines, one
entry for each container. -/
def buildReturnableItems (returnableItemId : Uuid → Option Uuid) (orderItems : List OrderItem) :
    List (Uuid × ℤ) :=
  Bag.collect <| orderItems.filterMap fun item =>
    if 0 < item.quantity then (returnableItemId item.productId).map fun tare => (tare, item.quantity)
    else none

/-- Assign the entry of a key in a dictionary. -/
def setEntry : List (Uuid × ℤ) → Uuid → ℤ → List (Uuid × ℤ)
  | [], id, q => [(id, q)]
  | (j, a) :: m, id, q => if j = id then (j, q) :: m else (j, a) :: setEntry m id q

/-- `stock_shortages`: each line is compared with the balance on its own. -/
def stockShortages (balance : Uuid → ℤ) (items : List OrderItem) : List (Uuid × ℤ) :=
  items.foldl (fun m item =>
    if balance item.productId < item.quantity then
      setEntry m item.productId (item.quantity - balance item.productId)
    else m) []

/-- The lines that are moved. -/
def movedItems (items : List OrderItem) : List (Uuid × ℤ) :=
  (items.filter fun i => 0 < i.quantity).map OrderItem.pair

/-! ## Delivery -/

/-- `actual_map`: of several entries for one product the last one counts. -/
def actualQuantity (actual : List OrderItemActual) (productId : Uuid) : Option ℤ :=
  (actual.reverse.find? fun a => a.productId = productId).map OrderItemActual.quantity

/-- A line with the quantity that was handed over. -/
def adjustItem (actual : List OrderItemActual) (item : OrderItem) : OrderItem :=
  { item with quantity := (actualQuantity actual item.productId).getD item.quantity }

/-- `quota_deltas`: what was ordered and not handed over. -/
def quotaDeltas (actual : List OrderItemActual) (items : List OrderItem) : List (Uuid × ℤ) :=
  (items.map fun i => (i.productId, i.quantity - (adjustItem actual i).quantity)).filter
    fun d => 0 < d.2

/-- The adjustment of the lines, of the contract's quota and of the total. -/
def adjustOrder (env : Env) (orderId : Uuid) (order : Order) (actual : List OrderItemActual) :
    Uow Order := do
  forEach order.items.zipIdx fun (item, index) =>
    whenSome (actualQuantity actual item.productId) fun requested => do
      raiseIf (requested < 0) (.deliveryQuantityExceeded item.productId item.quantity requested)
      raiseIf (item.quantity < requested)
        (.deliveryQuantityExceeded item.productId item.quantity requested)
      issue (.order orderId) (.updateQuantity index requested)
  whenSome order.contract? fun contractId =>
    decrementQuantitiesUsed contractId (quotaDeltas actual order.items)
  let items := order.items.map (adjustItem actual)
  issue (.order orderId) (.update { totalAmount := some (lineTotal items) } env.now)
  ret { order with items := items, totalAmount := lineTotal items }

/-- The courier has no active vehicle. -/
def courierInventoryNotFound (courierId : Uuid) : Err :=
  .badRequest "У курьера нет активного инвентаря (машины)" "COURIER_INVENTORY_NOT_FOUND"
    [("courier_id", .id courierId)]

/-- The stock check of a delivery, the delivery itself and the return of containers. -/
def deliverStock (env : Env) (orderId : Uuid) (order : Order) (courierId : Uuid) :
    Uow Unit := do
  let courierInvRow ← getCourierInventory courierId
  let courierInvRow ← orRaise courierInvRow (courierInventoryNotFound courierId)
  let courierInventory ← getInventoryWithBalances courierInvRow.id none true
  let (courierInventory, courierBalances) ←
    orRaise courierInventory (courierInventoryNotFound courierId)
  raiseIf (stockShortages courierBalances order.items ≠ [])
    (.insufficientStock (stockShortages courierBalances order.items))
  let returnableItemId ← select fun s productId =>
    (s.products.find? productId).bind Product.returnableItemId
  let returnableItems := buildReturnableItems returnableItemId order.items
  createStockTransfer env 2 courierInventory.id order.clientInventoryId .clientDelivery
    (movedItems order.items ++ returnableItems) courierId (some order.clientId) (some orderId) none
  whenever (returnableItems ≠ []) <|
    createStockTransfer env 3 order.clientInventoryId courierInventory.id .clientReturn
      returnableItems courierId (some courierId) (some orderId) none

/-- `_handle_order_fulfillment`. -/
def handleOrderFulfillment (env : Env) (orderId : Uuid) (order : Order)
    (actualItems : List OrderItemActual) : Uow Unit := do
  let courierId ← orRaise order.courierId
    (.badRequest "Заказ не может быть доставлен без курьера" "COURIER_NOT_ASSIGNED"
      [("order_id", .id orderId)])
  let order ← (if actualItems.isEmpty then ret order
    else adjustOrder env orderId order actualItems)
  deliverStock env orderId order courierId
  processFinancialSettlement env orderId order

/-! ## Pickup -/

/-- The containers that the buyer hands back: a walk-in buyer keeps those that
are bought as lines. -/
def returnableForPickup (isWalkin : Bool) (items : List OrderItem)
    (returnableItems : List (Uuid × ℤ)) : List (Uuid × ℤ) :=
  if isWalkin then returnableItems.filter fun r => r.1 ∉ items.map OrderItem.productId
  else returnableItems

/-- The stock check of a pickup, the containers from the vendor, the sale and
the return of containers. -/
def pickUpStock (env : Env) (orderId : Uuid) (order : Order) (warehouseId completedById : Uuid) :
    Uow Unit := do
  let warehouse ← getInventoryWithBalances warehouseId (some .warehouse) true
  let (warehouse, warehouseBalances) ← orRaise warehouse
    (.inventoryNotFound warehouseId s!"Склад {warehouseId} не найден")
  raiseIf (stockShortages warehouseBalances order.items ≠ [])
    (.insufficientStock (stockShortages warehouseBalances order.items))
  let isWalkin := decide (order.clientId = walkinUserId)
  let returnableItemId ← select fun s productId =>
    (s.products.find? productId).bind Product.returnableItemId
  let returnableItems := buildReturnableItems returnableItemId order.items
  let returnable := returnableForPickup isWalkin order.items returnableItems
  whenever (returnableItems ≠ [] ∧ isWalkin = false) do
    let vendorInv ← getVendorInventory
    createStockTransfer env 2 vendorInv.id warehouse.id .initialBalance returnableItems
      completedById (some completedById) (some orderId)
      (some "Container issued with warehouse pickup")
  createStockTransfer env 3 warehouse.id order.clientInventoryId .warehouseSale
    (movedItems order.items ++ returnable) completedById (some order.clientId) (some orderId) none
  whenever (returnable ≠ []) <|
    createStockTransfer env 4 order.clientInventoryId warehouse.id .warehouseTaraReturn
      returnable completedById (some completedById) (some orderId) none

/-- `_handle_warehouse_pickup`. -/
def handleWarehousePickup (env : Env) (orderId : Uuid) (order : Order) (completedById : Uuid) :
    Uow Unit := do
  let warehouseId ← orRaise order.warehouseId
    (.badRequest "Заказ самовывоза без warehouse_id" "WAREHOUSE_ID_MISSING"
      [("order_id", .id orderId)])
  pickUpStock env orderId order warehouseId completedById
  processPickupSettlement env orderId order

end Munavvar.Fulfillment
