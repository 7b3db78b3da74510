import Munavvar.OrderQueries
import Munavvar.Bag

/-!
# The stock service

Transfers that are requested directly and the entry of containers that a client
already has. A requested transfer is checked against the table of routes, and
all that is entered for a client comes from the virtual vendor.
-/

namespace Munavvar.StockService

open Munavvar.KeyedTable
open Munavvar.Transaction
open Munavvar.Transaction.Prog
open Munavvar.Database
open Munavvar.StockLedger
open Munavvar.OrderQueries

/-! ## Transfers -/

/-- `_VALID_ROUTES`: the types of the inventories that a transfer may start from and end at. -/
def validRoutes : TransferType → List InventoryType × List InventoryType
  | .courierLoad => ([.warehouse], [.courier])
  | .courierReturn => ([.courier], [.warehouse])
  | .clientDelivery => ([.courier], [.client])
  | .clientReturn => ([.client], [.courier])
  | .lossWriteOff => ([.warehouse, .courier, .client], [.virtualLoss])
  | .inventoryFinding => ([.virtualVendor], [.warehouse, .courier])
  | .initialBalance => ([.virtualVendor], [.client, .warehouse, .courier])
  | .warehouseSale => ([.warehouse], [.client])
  | .warehouseTaraReturn => ([.client], [.warehouse])

/-- `_ADJUSTMENT_TRANSFER_TYPES`: transfers that need a scope of their own. -/
def adjustmentTransferTypes : List TransferType :=
  [.inventoryFinding, .initialBalance, .lossWriteOff]

/-- `Scope.LOGISTICS_ADJUSTMENT`. -/
def logisticsAdjustment : String := "logistics:adjustment"

/-- `_VIRTUAL_SOURCE_TYPES`: transfers that start at the vendor. -/
def virtualSourceTypes : List TransferType := [.inventoryFinding, .initialBalance]

/-- `_VIRTUAL_DEST_TYPES`: transfers that end at the loss. -/
def virtualDestTypes : List TransferType := [.lossWriteOff]

/-- A requested transfer. -/
structure CreateTransferRequest where
  /-- Kind of the transfer. -/
  type : TransferType
  /-- The inventory that gives. -/
  fromId : Option Uuid
  /-- The inventory that takes. -/
  toId : Option Uuid
  /-- The goods. -/
  items : List Item
  /-- Why the transfer is made. -/
  reason : Option String
  /-- `min_length=1`. -/
  items_ne_nil : items ≠ []
  /-- The schema admits reasons of 3 to 255 characters. -/
  reason_length : ∀ r ∈ reason, 3 ≤ r.length ∧ r.length ≤ 255
  /-- Only the vendor need not be named. -/
  fromId_isSome : type ∉ virtualSourceTypes → fromId.isSome = true
  /-- Only the loss need not be named. -/
  toId_isSome : type ∉ virtualDestTypes → toId.isSome = true
  /-- A loss has a reason. -/
  reason_isSome : type = .lossWriteOff → reason.isSome = true

/-- The message of an `InventoryNotFoundError` without one of its own. -/
def locationNotFound : String := "Локация (склад/клиент/машина) не найдена"

/-- `inventories.get`: an active inventory. -/
def getInventory (inventoryId : Uuid) : Uow Inventory := do
  let d ← select Db.directory
  orRaise ((d.inventory? inventoryId).filter Inventory.isActive)
    (.inventoryNotFound inventoryId locationNotFound)

/-- The inventory at one end of a transfer: a virtual one, if the kind of the
transfer has one there, or the one that is named. -/
def endpoint (types : List TransferType) (invType : InventoryType) (type : TransferType)
    (named : Option Uuid) : Uow (Option Uuid) :=
  if type ∈ types then do
    let inventory ← getSystemInventory invType
    ret (some inventory.id)
  else ret named

/-- `shortages` of a requested transfer, the lines of a product taken together. -/
def transferShortages (balance : Uuid → ℤ) (items : List Item) : List (Uuid × ℤ) :=
  (Bag.collect (items.map Item.pair)).filterMap fun r =>
    if balance r.1 < r.2 then some (r.1, r.2 - balance r.1) else none

/-- The source of a requested transfer is locked and holds the goods; the vendor is not asked. -/
def checkStock (fromInventory : Inventory) (items : List Item) : Uow Unit :=
  whenever (fromInventory.type ≠ .virtualVendor) do
    let locked ← getInventoryWithBalances fromInventory.id none true
    let (_, balances) ← orRaise locked (.inventoryNotFound fromInventory.id locationNotFound)
    raiseIf (transferShortages balances items ≠ [])
      (.insufficientStock (transferShortages balances items))

/-- `create_transfer`. What the trigger refuses is reported as `InsufficientStockError`;
the transaction is rolled back either way. -/
def createTransfer (env : Env) (createdById : Uuid) (dto : CreateTransferRequest)
    (callerScopes : Option (List String)) : Uow Unit := do
  raiseIf (dto.type ∈ adjustmentTransferTypes ∧
      ¬ callerScopes.any fun scopes => logisticsAdjustment ∈ scopes)
    (.forbidden
      s!"Для создания накладной типа '{dto.type.value}' требуется разрешение logistics:adjustment."
      "INSUFFICIENT_PERMISSIONS" dto.type)
  let productIds := dto.items.map Item.productId
  let activeProducts ← getByIds productIds
  let archivedIds := productIds.filter fun id => (activeProducts.lookup id).isNone
  raiseIf (archivedIds ≠ []) (.archivedProductsInTransfer archivedIds)
  let fromId ← endpoint virtualSourceTypes .virtualVendor dto.type dto.fromId
  let toId ← endpoint virtualDestTypes .virtualLoss dto.type dto.toId
  let fromId ← orRaise fromId (.badRequest "Не указан склад-отправитель" "MISSING_FROM_ID" [])
  let toId ← orRaise toId (.badRequest "Не указан склад-получатель" "MISSING_TO_ID" [])
  raiseIf (fromId = toId) (.routeLoop fromId)
  let fromInventory ← getInventory fromId
  let toInventory ← getInventory toId
  let (allowedFrom, allowedTo) := validRoutes dto.type
  raiseIf (fromInventory.type ∉ allowedFrom)
    (.inventoryTypeMismatch fromInventory.id allowedFrom fromInventory.type)
  raiseIf (toInventory.type ∉ allowedTo)
    (.inventoryTypeMismatch toInventory.id allowedTo toInventory.type)
  checkStock fromInventory dto.items
  createStockTransfer env 0 fromId toId dto.type (dto.items.map Item.pair) createdById
    (some createdById) none dto.reason

/-! ## Containers of clients -/

/-- `CapitalizeTaraItem`: containers that a client has. -/
structure CapitalizeTaraItem where
  /-- The container. -/
  productId : Uuid
  /-- The number of pieces. -/
  quantity : ℤ
  /-- The schema admits positive quantities only. -/
  quantity_pos : 0 < quantity

/-- `CapitalizeTaraRequest`. -/
structure CapitalizeTaraRequest where
  /-- The client's address. -/
  clientInventoryId : Uuid
  /-- The containers. -/
  items : List CapitalizeTaraItem
  /-- `min_length=1`. -/
  items_ne_nil : items ≠ []

/-- `CapitalizeDeficitRequest`. -/
structure CapitalizeDeficitRequest where
  /-- The cart. -/
  items : List Item
  /-- The client's address. -/
  clientInventoryId : Uuid
  /-- `min_length=1`. -/
  items_ne_nil : items ≠ []

/-- One line of a document and its movement, each added on its own. -/
def addMovement (env : Env) (n : ℕ) (fromId toId : Uuid) (x : (Uuid × ℤ) × ℕ) : Uow Unit := do
  issue (.stockTransfer (env.uuid n 0)) (.addItems [x.1])
  let product ← select fun s => s.products.find? x.1.1
  raiseIf (product.isNone = true)
    (.foreignKeyViolation "stock_transfer_items_product_id_fkey")
  insertStockTransactions
    [(env.uuid n (x.2 + 1), ⟨env.uuid n 0, x.1.1, fromId, toId, x.1.2, env.now⟩)]

/-- Containers come into an inventory from the vendor: the document and then line by line. -/
def enterInitialBalance (env : Env) (n : ℕ) (toId : Uuid) (items : List (Uuid × ℤ))
    (createdById : Uuid) : Uow Unit := do
  let vendorInv ← getVendorInventory
  let d ← select Db.directory
  issue (.stockTransfer (env.uuid n 0))
    (.insert ⟨vendorInv.id, toId, .initialBalance, .completed, createdById, some createdById,
      none, none, []⟩)
  raiseIf ((d.inventory? vendorInv.id).isNone) (.foreignKeyViolation "stock_transfers_from_id_fkey")
  raiseIf ((d.inventory? toId).isNone) (.foreignKeyViolation "stock_transfers_to_id_fkey")
  forEach items.zipIdx (addMovement env n vendorInv.id toId)

/-- `capitalize_tara`. -/
def capitalizeTara (env : Env) (dto : CapitalizeTaraRequest) (createdById : Uuid) : Uow Unit := do
  let inventory ← getInventoryWithBalances dto.clientInventoryId (some .client) false
  let (inventory, _) ← orRaise inventory
    (.inventoryNotFound dto.clientInventoryId locationNotFound)
  enterInitialBalance env 0 inventory.id (dto.items.map fun i => (i.productId, i.quantity))
    createdById

/-- `capitalize_tara_for_client`. -/
def capitalizeTaraForClient (env : Env) (clientId : Uuid) (items : List CapitalizeTaraItem)
    (createdById : Uuid) : Uow Unit := do
  let clientInv ← getClientInventory clientId
  let clientInv ← orRaise clientInv (.inventoryNotFound clientId locationNotFound)
  enterInitialBalance env 0 clientInv.id (items.map fun i => (i.productId, i.quantity)) createdById

/-- `items_to_capitalize`: the containers a client lacks, each product of the
cart compared with the balance on its own. -/
def itemsToCapitalize (balance : Uuid → ℤ) (exchange : List (Uuid × ℤ)) : List (Uuid × ℤ) :=
  (exchange.map fun x => (x.1, x.2 - balance x.1)).filter fun x => 0 < x.2

/-- `capitalize_deficit`. -/
def capitalizeDeficit (env : Env) (dto : CapitalizeDeficitRequest) (clientId : Uuid) :
    Uow Unit := do
  let products ← getByIds (dto.items.map Item.productId)
  let exchange := products.filterMap fun p => p.2.returnableItemId.bind fun tare =>
    (dto.items.find? fun i => i.productId = p.1).map fun i => (tare, i.quantity)
  whenever (exchange ≠ []) do
    let inventory ← getInventoryWithBalances dto.clientInventoryId (some .client) false
    let (inventory, balances) ← orRaise inventory
      (.inventoryNotFound dto.clientInventoryId locationNotFound)
    raiseIf (inventory.userId ≠ some clientId)
      (.inventoryNotFound dto.clientInventoryId locationNotFound)
    let items := itemsToCapitalize balances exchange
    whenever (items ≠ []) (enterInitialBalance env 0 inventory.id items clientId)

/-! ## Requests -/

/-- What is asked of the stock service. -/
inductive StockOperation
  | createTransfer (createdById : Uuid) (dto : CreateTransferRequest)
      (callerScopes : Option (List String))
  | capitalizeTara (dto : CapitalizeTaraRequest) (createdById : Uuid)
  | capitalizeTaraForClient (clientId : Uuid) (items : List CapitalizeTaraItem)
      (createdById : Uuid)
  | capitalizeDeficit (dto : CapitalizeDeficitRequest) (clientId : Uuid)

/-- The transaction of an operation. -/
def StockOperation.program (env : Env) : StockOperation → Uow Unit
  | .createTransfer createdById dto callerScopes => StockService.createTransfer env createdById dto callerScopes
  | .capitalizeTara dto createdById => StockService.capitalizeTara env dto createdById
  | .capitalizeTaraForClient clientId items createdById =>
    StockService.capitalizeTaraForClient env clientId items createdById
  | .capitalizeDeficit dto clientId => StockService.capitalizeDeficit env dto clientId

end Munavvar.StockService
