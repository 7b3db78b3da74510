import Munavvar.ClientService

/-!
# Replies of the client service

A command that creates a client commits its unit of work and then reads the new
client back for its caller. The reading is a unit of work of its own: what it
raises reaches the caller, while the client has been stored.
-/

namespace Munavvar.UnitOfWork

/-- What a call leaves behind and what its caller gets. -/
structure Call (σ ε α : Type) where
  /-- The state after the call. -/
  state : σ
  /-- The reply or the exception. -/
  reply : Except ε α

variable {σ ε α : Type}

/-- A body that is committed or rolled back, and the reply that is read after the commit. -/
def commit (body : σ → Except ε σ) (read : σ → Except ε α) (s : σ) : Call σ ε α :=
  match body s with
  | .ok s' => ⟨s', read s'⟩
  | .error e => ⟨s, .error e⟩

/-- An exception leaves no trace. -/
def AllOrNothing (c : Call σ ε α) (s : σ) : Prop := ∀ e, c.reply = .error e → c.state = s

theorem allOrNothing_of_error {body : σ → Except ε σ} {read : σ → Except ε α} {s : σ} {e : ε}
    (h : body s = .error e) : AllOrNothing (commit body read s) s := by
  rw [commit, h]
  exact fun _ _ => rfl

/-- A body that is committed and changes something needs its reply. -/
theorem allOrNothing_iff_of_ok {body : σ → Except ε σ} {read : σ → Except ε α} {s s' : σ}
    (h : body s = .ok s') (hne : s' ≠ s) :
    AllOrNothing (commit body read s) s ↔ ∃ a, read s' = .ok a := by
  have hcall : commit body read s = ⟨s', read s'⟩ := by rw [commit, h]
  rw [hcall]
  constructor
  · intro hnothing
    cases hread : read s' with
    | ok a => exact ⟨a, rfl⟩
    | error e => exact absurd (hnothing e hread) hne
  · rintro ⟨a, ha⟩ e he
    exact nomatch ha.symm.trans he

end Munavvar.UnitOfWork

namespace Munavvar.ClientReplies

open Munavvar.KeyedTable
open Munavvar.Database
open Munavvar.StockLedger
open Munavvar.ClientService
open Munavvar.UnitOfWork

/-! ## Responses -/

/-- `Balance`: the stock of one product. The product is a foreign key. -/
structure BalanceResponse where
  /-- Number of pieces. -/
  quantity : ℤ
  /-- The product. -/
  product : Option Product
  deriving DecidableEq, Repr

/-- `Inventory`: an address and what is there. -/
structure InventoryResponse where
  /-- The row's identifier. -/
  id : Uuid
  /-- Kind of the inventory. -/
  type : InventoryType
  /-- The inventory's name. -/
  name : String
  /-- Its stock. -/
  balances : List BalanceResponse
  deriving DecidableEq, Repr

/-- `Item`: a line of an order. The product is a foreign key. -/
structure ItemResponse where
  /-- Number of pieces. -/
  quantity : ℤ
  /-- Price of one piece. -/
  unitPrice : ℤ
  /-- The product. -/
  product : Option Product
  deriving DecidableEq, Repr

/-- `subtotal`. -/
def ItemResponse.subtotal (i : ItemResponse) : ℤ := i.quantity * i.unitPrice

/-- `Order`: an order of the client. Its inventory is a foreign key. -/
structure OrderResponse where
  /-- How the client pays. -/
  paymentMethod : PaymentMethod
  /-- Current status. -/
  status : OrderStatus
  /-- The amount of the whole order. -/
  totalAmount : ℤ
  /-- Where the order goes. -/
  clientInventory : Option Inventory
  /-- Name of the assigned courier. -/
  courier : Option String
  /-- The lines. -/
  items : List ItemResponse
  /-- When the order was made. -/
  createdAt : ℤ
  deriving DecidableEq, Repr

/-- `ContractSummary`. -/
structure ContractSummary where
  /-- The row's identifier. -/
  id : Uuid
  /-- The contract's number. -/
  number : String
  /-- Current status. -/
  status : ContractStatus
  /-- First day. -/
  startDate : ℤ
  /-- Last day; none for an open-ended contract. -/
  endDate : Option ℤ
  deriving DecidableEq, Repr

/-- `ClientResponse`. -/
structure ClientResponse where
  /-- The row's identifier. -/
  id : Uuid
  /-- Name of the person or the company. -/
  username : String
  /-- A person or a company. -/
  role : Role
  /-- The phone number by which the client is known. -/
  phone : Option String
  /-- Name and balance of the client's account. -/
  account : Option (String × ℤ)
  /-- The client's addresses. -/
  inventories : List InventoryResponse
  /-- The client's orders, latest first. -/
  clientOrders : List OrderResponse
  /-- The client's contracts. -/
  contracts : List ContractSummary
  deriving DecidableEq, Repr

/-- The stock of an inventory. -/
def inventoryResponse (s : Db) (i : Inventory) : InventoryResponse :=
  ⟨i.id, i.type, i.name, (s.balances.rows.filter fun r => r.1.1 = i.id).map fun r =>
    ⟨r.2, s.products.find? r.1.2⟩⟩

/-- An order with what its foreign keys name. -/
def orderResponse (s : Db) (o : Order) : OrderResponse :=
  ⟨o.paymentMethod, o.status, o.totalAmount, s.directory.inventory? o.clientInventoryId,
    (o.courierId.bind s.users.find?).map User.username,
    o.items.map fun i => ⟨i.quantity, i.unitPrice, s.products.find? i.productId⟩, o.createdAt⟩

/-- The name and the balance of an account. -/
def accountResponse (s : Db) (a : Account) : String × ℤ :=
  (a.name, (s.accountBalances.find? a.id).getD 0)

/-- `contracts.get_multi` with its default limit. -/
def contractSummaries (s : Db) (clientId : Uuid) : List ContractSummary :=
  ((s.contracts.rows.filter fun r => r.2.clientId = clientId && r.2.isActive).take 100).map
    fun r => ⟨r.1, r.2.number, r.2.status, r.2.startDate, r.2.endDate⟩

/-! ## Reading a client -/

/-- `get_client_with_details`: an active user with a client's role. -/
def getClientWithDetails (clientId : Uuid) (r : Registry) : Option User :=
  (r.db.users.find? clientId).filter fun u =>
    u.isActive && (u.role = .clientB2B || u.role = .clientB2C)

/-- `get_by_user_and_provider` for the local provider: a user without an identity is an error. -/
def getByUserAndProvider (userId : Uuid) (r : Registry) : Except Err String :=
  match (r.identities.filter fun x => x.2 = userId).map Prod.fst with
  | [] => .error (.userNotFound userId)
  | [phone] => .ok phone
  | _ :: _ :: _ => .error .multipleResultsFound

/-- `get_client`. -/
def getClient (clientId : Uuid) (r : Registry) : Except Err ClientResponse :=
  match getClientWithDetails clientId r with
  | none => .error (.clientNotFound clientId)
  | some client => do
    let identity ← getByUserAndProvider clientId r
    .ok
      { id := clientId
        username := client.username
        role := client.role
        phone := some identity
        account := (r.db.directory.clientAccount clientId).map (accountResponse r.db)
        inventories := (r.db.directory.inventories.filter fun i => i.userId = some clientId).map
          (inventoryResponse r.db)
        clientOrders := ((r.db.orders.select fun _ o => o.clientId = clientId).insertionSort
          fun o o' => o'.createdAt ≤ o.createdAt).map (orderResponse r.db)
        contracts := contractSummaries r.db clientId }

/-! ## Calls -/

/-- `create_client` with its reply. -/
def createClientCall (env : Env) (data : ClientCreate) :
    Registry → Call Registry Err ClientResponse :=
  commit (createClient env data) (getClient (env.uuid 0 0))

/-- `onboard_client_with_balance` with its reply. -/
def onboardClientWithBalanceCall (env : Env) (data : ClientOnboardingRequest) (creatorId : Uuid) :
    Registry → Call Registry Err ClientResponse :=
  commit (onboardClientWithBalance env data creatorId) (getClient (env.uuid 0 0))

end Munavvar.ClientReplies
