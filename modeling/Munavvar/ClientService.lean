import Munavvar.OrderService
import Munavvar.StockService

/-!
# The client service

The commands that bring a new client into the company: the user with a phone
number, an account and an inventory, and possibly containers and a first order.
They are the only ones that write users, accounts and inventories, so each is a
step of the whole registry, and what comes after is a transaction on the
database that the new rows are part of.
-/

namespace Munavvar.ClientService

open Munavvar.KeyedTable
open Munavvar.Transaction
open Munavvar.Transaction.Prog
open Munavvar.Database
open Munavvar.StockLedger
open Munavvar.OrderQueries
open Munavvar.OrderService
open Munavvar.StockService

/-! ## The registry -/

/-- The database with the local identities: phone numbers and their users. -/
structure Registry where
  /-- The tables. -/
  db : Db
  /-- `identities` of the local provider. -/
  identities : List (String × Uuid)

/-- A check of a command. -/
def require (passes : Bool) (e : Err) : Except Err Unit := if passes then .ok () else .error e

/-- The value of a column after an update that sets it, or not; null is refused. -/
def setNotNull {α : Type} (column : String) (current : α) : Option (Option α) → Except Err α
  | none => .ok current
  | some none => .error (.notNullViolation column)
  | some (some value) => .ok value

/-- `users.add`. -/
def addUser (id : Uuid) (user : User) (r : Registry) : Except Err Registry := do
  require (fits 255 (some user.username)) (.stringTooLong "users.username")
  require (r.db.users.find? id).isNone (.uniqueViolation "users_pkey")
  .ok { r with db := { r.db with users := r.db.users.put id (some user) } }

/-- `identities.add_local`. -/
def addLocal (userId : Uuid) (phone : String) (r : Registry) : Except Err Registry := do
  require (fits 255 (some phone)) (.stringTooLong "identities.provider_identity_id")
  require (r.identities.lookup phone).isNone
    (.uniqueViolation "uq_identities_provider_identity_id")
  .ok { r with identities := r.identities ++ [(phone, userId)] }

/-- `accounts.create`: a client's account without money. -/
def addAccount (id userId : Uuid) (name : String) (now : ℤ) (r : Registry) :
    Except Err Registry := do
  require (fits 255 (some name)) (.stringTooLong "accounts.name")
  require (r.db.directory.account? id).isNone (.uniqueViolation "accounts_pkey")
  .ok { r with db := { r.db with
    directory := { r.db.directory with
      accounts := r.db.directory.accounts ++ [⟨id, userId, .client, true, now, name⟩] }
    accountBalances := r.db.accountBalances.put id (some 0) } }

/-- `inventories.create_client_inventory`. -/
def addInventory (id userId : Uuid) (name : String) (r : Registry) : Except Err Registry := do
  require (fits 255 (some name)) (.stringTooLong "inventories.name")
  require (r.db.directory.inventory? id).isNone (.uniqueViolation "inventories_pkey")
  .ok { r with db := { r.db with
    directory := { r.db.directory with
      inventories := r.db.directory.inventories ++ [⟨id, some userId, .client, true, name⟩] } } }

/-- The rest of a command, a transaction on the tables. -/
def runOn (p : Uow Unit) (r : Registry) : Except Err Registry := do
  let (_, db) ← p.run r.db
  .ok { r with db := db }

/-! ## Requests -/

/-- `ClientCreate`. -/
structure ClientCreate where
  /-- Name of the person or the company. -/
  username : String
  /-- The phone number by which the client is known. -/
  phone : Option String
  /-- A person or a company. -/
  role : Role
  /-- Name of the first address. -/
  addressName : Option String
  /-- The schema admits clients only. -/
  role_client : role = .clientB2C ∨ role = .clientB2B
  /-- `min_length=1`. -/
  phone_length : ∀ p ∈ phone, 1 ≤ p.length
  /-- `_b2c_requires_phone`. -/
  phone_isSome : role = .clientB2C → phone.isSome = true

/-- `OnboardingOrderSchema`: the quantities are not checked. -/
structure OnboardingOrder where
  /-- Products and quantities. -/
  items : List (Uuid × ℤ)
  /-- How the client intends to pay. -/
  paymentMethod : PaymentMethod
  deriving DecidableEq

/-- `ClientOnboardingRequest`. -/
structure ClientOnboardingRequest where
  /-- Name of the person or the company. -/
  username : String
  /-- The phone number by which the client is known. -/
  phone : Option String
  /-- Name of the address. -/
  addressName : String
  /-- A person or a company. -/
  role : Role
  /-- The container the client has. -/
  initialBalanceProductId : Option Uuid
  /-- How many of them. -/
  initialBalanceQuantity : ℤ
  /-- The first order. -/
  order : Option OnboardingOrder
  /-- The schema admits clients only. -/
  role_client : role = .clientB2C ∨ role = .clientB2B
  /-- `min_length=1`. -/
  phone_length : ∀ p ∈ phone, 1 ≤ p.length
  /-- `ge=0`. -/
  initialBalanceQuantity_nonneg : 0 ≤ initialBalanceQuantity
  /-- `_b2c_requires_phone`. -/
  phone_isSome : role = .clientB2C → phone.isSome = true

/-- `UserClientCreate` without the password. -/
structure UserClientCreate where
  /-- Name of the user. -/
  username : String
  /-- The phone number by which the user is known. -/
  phone : String
  /-- The user's role; the schema admits any. -/
  role : Role
  /-- How many containers the user has. -/
  initialTareQuantity : Option ℤ
  /-- The container. -/
  tareProductId : Option Uuid
  /-- The schema admits names of 2 to 255 characters. -/
  username_length : 2 ≤ username.length ∧ username.length ≤ 255
  /-- `gt=0`. -/
  initialTareQuantity_pos : ∀ q ∈ initialTareQuantity, 0 < q

/-! ## Commands -/

/-- The new user, known by a phone number if there is one. -/
def addClient (env : Env) (username : String) (role : Role) (phone : Option String)
    (r : Registry) : Except Err Registry := do
  let r ← addUser (env.uuid 0 0) ⟨role, true, username⟩ r
  match phone with
  | some phone => addLocal (env.uuid 0 0) phone r
  | none => .ok r

/-- The phone number of a new client is not in use. -/
def checkPhone (phone : Option String) (r : Registry) : Except Err Unit :=
  match phone with
  | some phone => require (r.identities.lookup phone).isNone (.clientAlreadyExists phone)
  | none => .ok ()

/-- `create_client`. -/
def createClient (env : Env) (data : ClientCreate) (r : Registry) : Except Err Registry := do
  checkPhone data.phone r
  let r ← addClient env data.username data.role data.phone r
  let r ← addAccount (env.uuid 0 1) (env.uuid 0 0) s!"Лицевой счет клиента: {data.username}"
    env.now r
  match data.addressName.filter fun name => name ≠ "" with
  | some name => addInventory (env.uuid 0 2) (env.uuid 0 0) name r
  | none => .ok r

/-- `create_client_inventory`. -/
def createClientInventory (env : Env) (clientId : Uuid) (name : String) (r : Registry) :
    Except Err Registry := do
  require ((r.db.users.find? clientId).any User.isActive) (.clientNotFound clientId)
  addInventory (env.uuid 0 2) clientId name r

/-- The first order of a new client. Its lines are added one by one. -/
def firstOrder (env : Env) (clientId inventoryId : Uuid) (order : OnboardingOrder) : Uow Unit := do
  let products ← availableProducts (order.items.map Prod.fst)
  let items := order.items.map fun i =>
    (⟨i.1, i.2, priceMap products none i.1⟩ : OrderItem)
  issue (.order (env.uuid 2 0))
    (.insert
      { clientId, clientInventoryId := inventoryId, courierId := none,
        paymentMethod := order.paymentMethod, status := .new, totalAmount := lineTotal items,
        capitalizationApplied := false, saleType := .delivery, warehouseId := none,
        contractId := none, quantitiesReserved := false, cancellationReason := none,
        notes := none, isActive := true, createdAt := env.now, updatedAt := env.now, items := [],
        statusLogs := [] })
  forEach items fun item => issue (.order (env.uuid 2 0)) (.addItems [item])

/-- The containers and the first order of an onboarding. -/
def firstMovements (env : Env) (data : ClientOnboardingRequest) (creatorId : Uuid) :
    Uow Unit := do
  whenever (0 < data.initialBalanceQuantity) <| whenSome data.initialBalanceProductId fun p =>
    enterInitialBalance env 1 (env.uuid 0 2) [(p, data.initialBalanceQuantity)] creatorId
  whenSome data.order (firstOrder env (env.uuid 0 0) (env.uuid 0 2))

/-- `onboard_client_with_balance`. -/
def onboardClientWithBalance (env : Env) (data : ClientOnboardingRequest) (creatorId : Uuid)
    (r : Registry) : Except Err Registry := do
  checkPhone data.phone r
  let r ← addClient env data.username data.role data.phone r
  let r ← addAccount (env.uuid 0 1) (env.uuid 0 0) s!"Лицевой счет клиента: {data.username}"
    env.now r
  let r ← addInventory (env.uuid 0 2) (env.uuid 0 0) data.addressName r
  runOn (firstMovements env data creatorId) r

/-- The containers that a user registers with. -/
def startingTare (env : Env) (data : UserClientCreate) : Uow Unit :=
  whenSome data.initialTareQuantity fun quantity => whenSome data.tareProductId fun p =>
    enterInitialBalance env 1 (env.uuid 0 2) [(p, quantity)] (env.uuid 0 0)

/-- `register_client`. A phone number of an archived user passes the check and
is refused by its constraint. -/
def registerClient (env : Env) (data : UserClientCreate) (r : Registry) : Except Err Registry := do
  require (¬ (r.identities.lookup data.phone).any fun id =>
    (r.db.users.find? id).any User.isActive) (.userAlreadyExists data.phone)
  let r ← addClient env data.username data.role (some data.phone) r
  let r ← addAccount (env.uuid 0 1) (env.uuid 0 0) s!"Лицевой счет: {data.username}" env.now r
  let r ← addInventory (env.uuid 0 2) (env.uuid 0 0) s!"Адрес: {data.username}" r
  runOn (startingTare env data) r

/-- What is asked of the client service. -/
inductive ClientOperation
  | createClient (data : ClientCreate)
  | createClientInventory (clientId : Uuid) (name : String)
  | onboardClientWithBalance (data : ClientOnboardingRequest) (creatorId : Uuid)
  | registerClient (data : UserClientCreate)

/-- A command on the registry. -/
def ClientOperation.run (env : Env) : ClientOperation → Registry → Except Err Registry
  | .createClient data => ClientService.createClient env data
  | .createClientInventory clientId name => ClientService.createClientInventory env clientId name
  | .onboardClientWithBalance data creatorId =>
    ClientService.onboardClientWithBalance env data creatorId
  | .registerClient data => ClientService.registerClient env data

end Munavvar.ClientService
