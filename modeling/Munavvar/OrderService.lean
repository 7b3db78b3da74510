import Munavvar.Fulfillment

/-!
# The order service

The operations of the order service, each one transaction: placing and editing
an order, assigning a courier, the life cycle with delivery and cancellation,
the pickup at a warehouse and the cancellation of stale orders.
-/

namespace Munavvar.OrderService

open Munavvar.KeyedTable
open Munavvar.Transaction
open Munavvar.Transaction.Prog
open Munavvar.Database
open Munavvar.StockLedger
open Munavvar.OrderQueries
open Munavvar.Quota
open Munavvar.Fulfillment

/-! ## Transitions -/

/-- `_DELIVERY_ALLOWED_TRANSITIONS`, each list sorted by value. -/
def deliveryAllowedTransitions : OrderStatus → List OrderStatus
  | .new => [.cancelled]
  | .assigned => [.cancelled, .inTransit]
  | .inTransit => [.arrived, .cancelled]
  | .arrived => [.cancelled, .delivered]
  | _ => []

/-- `_PICKUP_ALLOWED_TRANSITIONS`. -/
def pickupAllowedTransitions : OrderStatus → List OrderStatus
  | .new => [.cancelled]
  | _ => []

/-- `_get_allowed_statuses`. -/
def getAllowedStatuses (saleType : SaleType) (currentStatus : OrderStatus) : List OrderStatus :=
  match saleType with
  | .warehousePickup => pickupAllowedTransitions currentStatus
  | .delivery => deliveryAllowedTransitions currentStatus

/-- `_ensure_status_transition_allowed`: a transition to the same status is always allowed. -/
def ensureStatusTransitionAllowed (orderId : Uuid) (order : Order) (newStatus : OrderStatus) :
    Uow Unit :=
  whenever (order.status ≠ newStatus) do
    raiseIf (order.saleType = .warehousePickup ∧ newStatus = .pickupCompleted)
      (.invalidPickupOperation orderId
        "Статус PICKUP_COMPLETED нельзя выставить вручную. Используйте complete-pickup.")
    raiseIf (order.saleType = .warehousePickup ∧
        newStatus ∈ [OrderStatus.assigned, .inTransit, .arrived, .delivered])
      (.invalidPickupOperation orderId
        (s!"Заказ самовывоза не может перейти в статус {newStatus.value}." ++
          " Используйте complete-pickup."))
    let allowedStatuses := getAllowedStatuses order.saleType order.status
    raiseIf (newStatus ∉ allowedStatuses)
      (.invalidOrderStatus orderId order.status none (some newStatus) allowedStatuses
        s!"Недопустимый переход статуса заказа: {order.status.value} -> {newStatus.value}")

/-! ## Containers -/

/-- A sold product whose container is exchanged. -/
structure ExchangeItem where
  /-- The sold product. -/
  productId : Uuid
  /-- The product's name. -/
  productName : String
  /-- The container. -/
  requiredTareId : Uuid
  /-- The number of sold pieces. -/
  quantity : ℤ

/-- `exchange_items`: the products with a container and their lines of the cart. -/
def exchangeItems (products : List (Uuid × Product)) (line? : Uuid → Option Item) :
    List ExchangeItem :=
  products.filterMap fun p => p.2.returnableItemId.bind fun tare =>
    (line? p.1).map fun i => ⟨p.1, p.2.name, tare, i.quantity⟩

/-- `ordering_tare_now`: of several lines of one product the last one counts. -/
def orderingNow (items : List Item) (productId : Uuid) : ℤ :=
  ((items.reverse.find? fun i => i.productId = productId).map Item.quantity).getD 0

/-- `shortages`: each product is compared with the containers on its own. -/
def taraShortages (balance : Uuid → ℤ) (items : List Item) (exchange : List ExchangeItem) :
    List TaraShortage :=
  exchange.filterMap fun x =>
    let effectiveAvailable := balance x.requiredTareId + orderingNow items x.requiredTareId
    if effectiveAvailable < x.quantity then
      some ⟨x.productId, x.productName, x.requiredTareId, x.quantity, effectiveAvailable,
        x.quantity - effectiveAvailable⟩
    else none

/-- The container check of a new order; tells whether a deficit was entered. -/
def exchangeTara (env : Env) (inventoryId : Uuid) (items : List Item)
    (exchange : List ExchangeItem) (capitalizeMissingTara : Bool) (createdById : Uuid) :
    Uow Bool :=
  if exchange.isEmpty then ret false
  else do
    let inventory ← getInventoryWithBalances inventoryId none true
    let (inventory, balances) ← orRaise inventory (.clientInventoryNotFound inventoryId)
    let shortages := taraShortages balances items exchange
    raiseIf (shortages ≠ [] ∧ capitalizeMissingTara = false) (.insufficientTara shortages)
    whenever (shortages ≠ []) do
      let vendorInv ← getVendorInventory
      createStockTransfer env 1 vendorInv.id inventory.id .initialBalance
        (shortages.map fun x => (x.returnableItemId, x.deficit)) createdById (some createdById)
        none none
    ret (shortages ≠ [])

/-! ## New orders -/

/-- Microseconds of a day. -/
def dayLength : ℤ := 86400000000

/-- The UTC date of a time. -/
def dateOf (time : ℤ) : ℤ := time / dayLength

/-- `get_active_for_client` with a lock: the client's active contract. -/
def getActiveForClientLocked (clientId : Uuid) : Uow (Option (Uuid × Contract)) := do
  let isActiveFor (c : Contract) : Bool :=
    c.clientId = clientId && c.status = .active && c.isActive
  let candidates ← select fun s => (s.contracts.rows.filter fun r => isActiveFor r.2).map Prod.fst
  let rows ← collect candidates fun id => do
    let row ← forUpdate (.contract id)
    ret (id, row.filter isActiveFor)
  scalarOneOrNone (rows.filterMap fun r => r.2.map (Prod.mk r.1))

/-- `_get_and_validate_contract_locked`. -/
def getAndValidateContractLocked (env : Env) (clientId : Uuid) (clientRole : Role) :
    Uow (Uuid × Contract) := do
  raiseIf (clientRole ≠ .clientB2B)
    (.badRequest "Оплата по договору доступна только для юридических лиц (CLIENT_B2B)"
      "CONTRACT_PAYMENT_NOT_ALLOWED" [("client_role", .role clientRole)])
  let contract ← getActiveForClientLocked clientId
  let (id, contract) ← orRaise contract (.contractRequired clientId)
  raiseIf (contract.status ≠ .active) (.contractNotActive id contract.status)
  raiseIf (contract.endDate.any fun endDate => endDate < dateOf env.now) (.contractExpired id)
  ret (id, contract)

/-- The contract of a new order with its price items; none if the order is not
paid by contract. -/
def contractTerms (env : Env) (clientId : Uuid) (clientRole : Role)
    (paymentMethod : PaymentMethod) (productIds : List Uuid) :
    Uow (Option (Uuid × List (Uuid × PriceItem))) :=
  if paymentMethod = .contract then do
    let (contractId, _) ← getAndValidateContractLocked env clientId clientRole
    let lockedItems ← getForProductsLocked contractId productIds
    whenSome (productIds.find? fun p => (lockedItems.lookup p).isNone) fun p =>
      raise (.productNotInContract contractId p)
    ret (some (contractId, lockedItems))
  else ret none

/-- `price_map`: catalog prices, overridden by those of the contract. -/
def priceMap (products : List (Uuid × Product)) (terms : Option (Uuid × List (Uuid × PriceItem)))
    (productId : Uuid) : ℤ :=
  ((terms.bind fun t => (t.2.lookup productId).map PriceItem.price).or
    ((products.lookup productId).map Product.price)).getD 0

/-- `order_items_data`: the lines with the prices of the moment. -/
def orderItemsData (price : Uuid → ℤ) (items : List Item) : List OrderItem :=
  items.map fun i => ⟨i.productId, i.quantity, price i.productId⟩

/-- The catalog products of a cart; all of them have to be available. -/
def availableProducts (productIds : List Uuid) : Uow (List (Uuid × Product)) := do
  let products ← getByIds productIds
  let missingIds := productIds.filter fun id => (products.lookup id).isNone
  raiseIf (missingIds ≠ []) (.productsUnavailable missingIds)
  ret products

/-- Insert an order with its lines; the inventory of the buyer is a foreign key. -/
def insertOrder (orderId : Uuid) (order : Order) (items : List OrderItem) : Uow Unit := do
  issue (.order orderId) (.insert order)
  let d ← select Db.directory
  raiseIf ((d.inventory? order.clientInventoryId).isNone)
    (.foreignKeyViolation "orders_client_inventory_id_fkey")
  issue (.order orderId) (.addItems items)

/-- `create_order`. -/
def createOrder (env : Env) (clientId : Uuid) (dto : OrderCreate) : Uow Unit := do
  raiseIf (dto.items.isEmpty = true) .emptyCart
  let productIds := dto.items.map Item.productId
  raiseIf (¬ productIds.Nodup)
    (.badRequest "Корзина содержит дубликаты товаров. Используйте quantity для указания количества."
      "DUPLICATE_PRODUCTS_IN_CART" [])
  let products ← availableProducts productIds
  let client ← getClient clientId
  let exchange := exchangeItems products fun id => dto.items.reverse.find? fun i => i.productId = id
  let terms ← contractTerms env clientId client.role dto.paymentMethod productIds
  let items := orderItemsData (priceMap products terms) dto.items
  whenSome terms fun t => checkAndReserveQuantities t.1 (dto.items.map Item.pair) t.2
  let capitalizationApplied ← exchangeTara env dto.clientInventoryId dto.items exchange
    dto.capitalizeMissingTara clientId
  insertOrder (env.uuid 0 0)
    { clientId, clientInventoryId := dto.clientInventoryId, courierId := none,
      paymentMethod := dto.paymentMethod, status := .new, totalAmount := lineTotal items,
      capitalizationApplied, saleType := .delivery, warehouseId := none,
      contractId := terms.map Prod.fst, quantitiesReserved := terms.isSome,
      cancellationReason := none, notes := dto.notes, isActive := true, createdAt := env.now,
      updatedAt := env.now, items := [], statusLogs := [] } items
  issue (.order (env.uuid 0 0)) (.logTransition ⟨none, .new, some clientId, none⟩)

/-- `create_warehouse_sale`. -/
def createWarehouseSale (env : Env) (dto : WarehouseSaleCreate) (clientId : Option Uuid)
    (createdById : Uuid) : Uow Unit := do
  let effectiveClientId := clientId.getD walkinUserId
  let isWalkin := decide (effectiveClientId = walkinUserId)
  raiseIf (dto.items.isEmpty = true) .emptyCart
  let products ← availableProducts (dto.items.map Item.productId)
  let exchange := exchangeItems products fun id => dto.items.find? fun i => i.productId = id
  let items := orderItemsData (priceMap products none) dto.items
  let warehouse ← getInventoryWithBalances dto.warehouseId (some .warehouse) false
  let _ ← orRaise warehouse
    (.inventoryNotFound dto.warehouseId s!"Склад {dto.warehouseId} не найден")
  let clientInventory ← getClientInventory effectiveClientId
  let clientInventory ← orRaise clientInventory (.clientInventoryNotFound effectiveClientId)
  let capitalizeMissingTara := dto.capitalizeMissingTara || isWalkin
  let capitalizationApplied ← exchangeTara env clientInventory.id dto.items
    (if isWalkin then [] else exchange) capitalizeMissingTara createdById
  let order : Order :=
    { clientId := effectiveClientId, clientInventoryId := clientInventory.id, courierId := none,
      paymentMethod := .cash, status := .pickupCompleted, totalAmount := lineTotal items,
      capitalizationApplied, saleType := .warehousePickup, warehouseId := some dto.warehouseId,
      contractId := none, quantitiesReserved := false, cancellationReason := none, notes := none,
      isActive := true, createdAt := env.now, updatedAt := env.now, items := [], statusLogs := [] }
  insertOrder (env.uuid 0 0) order items
  handleWarehousePickup env (env.uuid 0 0) { order with items := items } createdById
  issue (.order (env.uuid 0 0)) (.logTransition ⟨none, .pickupCompleted, some createdById, none⟩)

/-! ## Edits of an order -/

/-- `get_by_order_and_product`: a line of an order and its place. -/
def getByOrderAndProduct (order : Order) (productId : Uuid) : Uow (Option (OrderItem × ℕ)) :=
  scalarOneOrNone (order.items.zipIdx.filter fun x => x.1.productId = productId)

/-- The order under its row lock. -/
def getOrderLocked (orderId : Uuid) : Uow Order := do
  let order ← forUpdate (.order orderId)
  orRaise order (.orderNotFound orderId)

/-- Access and status of an order that is to be edited. -/
def ensureEditable (orderId : Uuid) (order : Order) (requestingUserId : Option Uuid) :
    Uow Unit := do
  raiseIf (requestingUserId.any fun u => order.clientId ≠ u)
    (.orderAccessDenied (requestingUserId.getD 0) orderId)
  raiseIf (order.status ≠ .new)
    (.invalidOrderStatus orderId order.status (some .new) none []
      "Нельзя менять состав заказа в текущем статусе")

/-- The quota of one more line and its contract price. The status of the
contract is that of the row as it was joined to the order. -/
def reserveLine (order : Order) (joined : Option Contract) (contractId productId : Uuid)
    (quantity : ℤ) : Uow ℤ := do
  let contract ← forUpdate (.contract contractId)
  let contract ← orRaise (contract.filter Contract.isActive) (.contractRequired order.clientId)
  let contract := joined.getD contract
  raiseIf (contract.status ≠ .active) (.contractNotActive contractId contract.status)
  let locked ← getForProductsLocked contractId [productId]
  let p ← orRaise (locked.lookup productId) (.productNotInContract contractId productId)
  raiseIf (p.quantity ≠ 0 ∧ p.quantity - p.quantityUsed < quantity)
    (.quantityLimitExceeded contractId productId p.quantity p.quantityUsed quantity)
  incrementQuantitiesUsed contractId [(productId, p.id, quantity)]
  ret p.price

/-- `current_price`: an order of a contract uses the contract's price and quota. -/
def linePrice (order : Order) (joined : Option Contract) (product : Product) (productId : Uuid)
    (quantity : ℤ) : Uow ℤ :=
  match order.contract? with
  | some contractId => reserveLine order joined contractId productId quantity
  | none => ret product.price

/-- The line of a product grows, or a new line is made. -/
def addLine (orderId : Uuid) (existingItem : Option (OrderItem × ℕ)) (productId : Uuid)
    (quantity currentPrice : ℤ) : Uow Unit :=
  match existingItem with
  | some (item, index) =>
    issue (.order orderId) (.updateQuantity index (item.quantity + quantity))
  | none => issue (.order orderId) (.addItems [⟨productId, quantity, currentPrice⟩])

/-- `add_product_to_order`. -/
def addProductToOrder (env : Env) (orderId productId : Uuid) (quantity : ℤ)
    (requestingUserId : Option Uuid) : Uow Unit := do
  raiseIf (quantity ≤ 0)
    (.badRequest "Количество должно быть строго больше нуля" "INVALID_QUANTITY"
      [("provided_quantity", .int quantity)])
  let products ← getByIds [productId]
  let product ← orRaise products.head? (.productsUnavailable [productId])
  let joined ← select fun s =>
    (s.orders.find? orderId).bind fun o => o.contractId.bind s.contracts.find?
  let order ← getOrderLocked orderId
  ensureEditable orderId order requestingUserId
  let existingItem ← getByOrderAndProduct order productId
  let currentPrice ← linePrice order joined product.2 productId quantity
  addLine orderId existingItem productId quantity currentPrice
  issue (.order orderId)
    (.update { totalAmount := some (order.totalAmount + currentPrice * quantity),
               quantitiesReserved := order.contract?.map fun _ => true } env.now)

/-- `remove_product_from_order`: an order without the product stays as it is. -/
def removeProductFromOrder (env : Env) (orderId productId : Uuid)
    (requestingUserId : Option Uuid) : Uow Unit := do
  let order ← getOrderLocked orderId
  ensureEditable orderId order requestingUserId
  let existingItem ← getByOrderAndProduct order productId
  whenSome existingItem fun (item, _) => do
    raiseIf (order.items.length ≤ 1) .cannotRemoveLastItem
    issue (.order orderId) (.deleteItem productId)
    whenever (order.quantitiesReserved = true) <| whenSome order.contract? fun contractId =>
      decrementQuantitiesUsed contractId [(productId, item.quantity)]
    issue (.order orderId)
      (.update { totalAmount := some (max 0 (order.totalAmount - item.unitPrice * item.quantity)) }
        env.now)

/-! ## The life cycle -/

/-- `assign_courier`. -/
def assignCourier (env : Env) (orderId courierId : Uuid) : Uow Unit := do
  let order ← getOrderLocked orderId
  raiseIf (order.saleType = .warehousePickup)
    (.invalidPickupOperation orderId "Заказ самовывоза не может быть назначен курьеру")
  raiseIf (order.status ≠ .new ∧ order.status ≠ .assigned)
    (.courierAssignment orderId courierId
      "Назначение или смена курьера разрешены только для заказов в статусах NEW и ASSIGNED")
  let courier ← getCourier courierId
  raiseIf (courier.isNone = true)
    (.courierAssignment orderId courierId
      "Назначить можно только активного пользователя с ролью courier")
  let courierInventory ← getCourierInventory courierId
  raiseIf (courierInventory.isNone = true)
    (.courierAssignment orderId courierId "У курьера нет активного инвентаря (машины)")
  issue (.order orderId)
    (.update { courierId := some courierId, status := some .assigned } env.now)
  issue (.order orderId) (.logTransition ⟨some order.status, .assigned, none, none⟩)

/-- `_release_order_quantities`. -/
def releaseOrderQuantities (env : Env) (orderId : Uuid) (order : Order) : Uow Unit := do
  whenSome order.contract? fun contractId =>
    decrementQuantitiesUsed contractId (order.items.map OrderItem.pair)
  issue (.order orderId) (.update { quantitiesReserved := some false } env.now)

/-- `update_status`. -/
def updateStatus (env : Env) (orderId : Uuid) (newStatus : OrderStatus)
    (actualItems : List OrderItemActual) (requestingUserId : Option Uuid)
    (cancellationReason : Option String) : Uow Unit := do
  let order ← getOrderLocked orderId
  raiseIf (requestingUserId.any fun u => u ∉ order.courierId ∧ u ≠ order.clientId)
    (.orderAccessDenied (requestingUserId.getD 0) orderId)
  ensureStatusTransitionAllowed orderId order newStatus
  issue (.order orderId) (.update { status := some newStatus } env.now)
  whenever (order.status ≠ .delivered ∧ newStatus = .delivered) <|
    handleOrderFulfillment env orderId { order with status := newStatus } actualItems
  whenever (newStatus = .cancelled ∧ order.status ≠ .cancelled ∧ order.contract?.isSome ∧
      order.quantitiesReserved = true ∧ order.status ∉ [OrderStatus.delivered, .pickupCompleted]) <|
    releaseOrderQuantities env orderId order
  whenever (newStatus = .cancelled ∧ cancellationReason.any fun r => r ≠ "") <|
    issue (.order orderId) (.update { cancellationReason } env.now)
  issue (.order orderId)
    (.logTransition ⟨some order.status, newStatus, requestingUserId, cancellationReason⟩)

/-- `cancel_order`: the client's check runs in a transaction of its own. -/
def cancelOrder (env : Env) (orderId requestingUserId : Uuid) (reason : Option String) :
    Uow Unit := do
  let order ← select fun s => (s.orders.find? orderId).filter Order.isActive
  let order ← orRaise order (.orderNotFound orderId)
  raiseIf (order.clientId ≠ requestingUserId) (.orderAccessDenied requestingUserId orderId)
  raiseIf (order.status ≠ .new)
    (.invalidOrderStatus orderId order.status (some .new) none []
      "Клиент может отменить заказ только в статусе NEW")
  updateStatus env orderId .cancelled [] (some requestingUserId) reason

/-- `complete_pickup`. -/
def completePickup (env : Env) (orderId completedById : Uuid) : Uow Unit := do
  let order ← getOrderLocked orderId
  raiseIf (order.saleType ≠ .warehousePickup)
    (.invalidPickupOperation orderId "Заказ не является самовывозом")
  raiseIf (order.status ≠ .new)
    (.invalidPickupOperation orderId s!"Ожидался статус NEW, текущий: {order.status.value}")
  issue (.order orderId) (.update { status := some .pickupCompleted } env.now)
  issue (.order orderId)
    (.logTransition ⟨some .new, .pickupCompleted, some completedById, none⟩)
  handleWarehousePickup env orderId { order with status := .pickupCompleted } completedById

/-! ## Stale orders -/

/-- Lock candidates that still match, skipping those that others hold, until
there are enough. -/
def lockCandidates (isMatch : Order → Bool) : ℕ → List Uuid → Uow (List (Uuid × Order))
  | 0, _ => ret []
  | _, [] => ret []
  | n + 1, id :: ids => do
    let row ← skipLocked (.order id)
    match row.join.filter isMatch with
    | some order => do
      let rest ← lockCandidates isMatch n ids
      ret ((id, order) :: rest)
    | none => lockCandidates isMatch (n + 1) ids

/-- `SELECT … FOR UPDATE SKIP LOCKED` of orders, with or without a limit. -/
def lockMatching (isMatch : Order → Bool) (limit : Option ℕ) : Uow (List (Uuid × Order)) := do
  let candidates ← select fun s => (s.orders.rows.filter fun r => isMatch r.2).map Prod.fst
  lockCandidates isMatch (limit.getD candidates.length) candidates

/-- `get_stale_orders`: new orders by creation, assigned ones by their last update. -/
def getStaleOrders (olderThan : ℤ) (status : OrderStatus) (byUpdated : Bool) :
    Uow (List (Uuid × Order)) :=
  lockMatching (fun o => o.status = status &&
    (if byUpdated then o.updatedAt else o.createdAt) < olderThan && o.isActive) (some 500)

/-- Cancel one locked order of a batch. -/
def cancelLocked (env : Env) (reason : String) (changedById : Option Uuid)
    (x : Uuid × Order) : Uow Unit := do
  issue (.order x.1) (.update { status := some .cancelled } env.now)
  whenever (x.2.contract?.isSome ∧ x.2.quantitiesReserved = true) <|
    releaseOrderQuantities env x.1 x.2
  issue (.order x.1) (.update { cancellationReason := some reason } env.now)
  issue (.order x.1) (.logTransition ⟨some x.2.status, .cancelled, changedById, some reason⟩)

/-- `expire_stale_orders`. -/
def expireStaleOrders (env : Env) (maxAgeHours assignedMaxAgeHours : ℤ)
    (adminId : Option Uuid) : Uow Unit := do
  let hour : ℤ := 3600000000
  let stale ← getStaleOrders (env.now - maxAgeHours * hour) .new false
  forEach stale <|
    cancelLocked env s!"Авто-отмена: заказ не обработан за {maxAgeHours}ч" adminId
  let stale ← getStaleOrders (env.now - assignedMaxAgeHours * hour) .assigned true
  forEach stale <|
    cancelLocked env s!"Авто-отмена: заказ не доставлен за {assignedMaxAgeHours}ч" adminId

end Munavvar.OrderService
