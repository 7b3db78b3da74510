import Munavvar.WarehouseNames

/-!
# Vehicles

The vehicles of the couriers are inventories. A courier has at most one that is
in use. A vehicle may be renamed and given to another courier, and it may be
deleted as long as nothing refers to it. Neither command looks whether the
inventory is a vehicle.
-/

namespace Munavvar.Transports

open Munavvar.KeyedTable
open Munavvar.Database
open Munavvar.StockLedger
open Munavvar.ClientService
open Munavvar.ClientEffects
open Munavvar.WarehouseNames (withInventories)

/-! ## The transport service -/

/-- `TransportCreate`. -/
structure TransportCreate where
  /-- Who is responsible for the vehicle. -/
  userId : Uuid
  /-- Name of the vehicle. -/
  name : String
  /-- The schema admits names of at most 255 characters. -/
  name_length : name.length ≤ 255

/-- `TransportUpdate`: a field is not set, or null, or has a value. -/
structure TransportUpdate where
  /-- Who is responsible for the vehicle. -/
  userId : Option (Option Uuid)
  /-- Name of the vehicle. -/
  name : Option (Option String)
  /-- The schema admits names of at most 255 characters. -/
  name_length : ∀ n, name = some (some n) → n.length ≤ 255

/-- A vehicle in use of a user. -/
def drives (userId : Uuid) (i : Inventory) : Bool :=
  i.userId = some userId && i.type = .courier && i.isActive

/-- `uq_active_courier_inventory` for one user. -/
def isUnique (userId : Option Uuid) (inventories : List Inventory) : Bool :=
  userId.all fun u => (inventories.filter (drives u)).length ≤ 1

/-- An inventory is entered. -/
def enterInventory (i : Inventory) (s : Db) : Except Err Db := do
  require (fits 255 (some i.name)) (.stringTooLong "inventories.name")
  require (s.directory.inventory? i.id).isNone (.uniqueViolation "inventories_pkey")
  require (isUnique i.userId (s.directory.inventories ++ [i]))
    (.uniqueViolation "uq_active_courier_inventory")
  require (i.userId.all fun u => (s.users.find? u).isSome)
    (.foreignKeyViolation "inventories_user_id_fkey")
  .ok (withInventories (s.directory.inventories ++ [i]) s)

/-- `create_transport`. -/
def createTransport (env : Env) (schema : TransportCreate) (s : Db) : Except Err Db :=
  enterInventory ⟨env.uuid 0 0, some schema.userId, .courier, true, schema.name⟩ s

/-- `create_courier_inventory`: the constraint that is looked for has another name. -/
def createCourierInventory (env : Env) (courierId : Uuid) (name : String) (s : Db) :
    Except Err Db := do
  require ((s.users.find? courierId).any User.isActive)
    (.notFound s!"Курьер с идентификатором {courierId} не найден." "COURIER_NOT_FOUND"
      [("courier_id", .id courierId)])
  enterInventory ⟨env.uuid 0 0, some courierId, .courier, true, name⟩ s

/-- `get_courier_inventory`. -/
def getCourierInventory (courierId : Uuid) (s : Db) : Except Err (Option Inventory) :=
  match s.directory.inventories.filter (drives courierId) with
  | [] => .ok none
  | [i] => .ok (some i)
  | _ :: _ :: _ => .error .multipleResultsFound

/-- A courier that is to get an inventory has no other vehicle. -/
def checkCourier (transportId : Uuid) (userId : Option (Option Uuid)) (s : Db) : Except Err Unit :=
  match userId with
  | some (some courierId) => do
    let existing ← getCourierInventory courierId s
    match existing with
    | none => .ok ()
    | some i =>
      require (i.id = transportId)
        (.conflict ("Курьер уже привязан к другому активному транспорту." ++
            " Сначала снимите назначение.") "COURIER_ALREADY_ASSIGNED"
          [("courier_id", .id courierId), ("existing_transport_id", .id i.id)])
  | _ => .ok ()

/-- The inventories after one of them is given a name and an owner. -/
def rewritten (id : Uuid) (name : String) (userId : Option Uuid) (inventories : List Inventory) :
    List Inventory :=
  inventories.map fun i => if i.id = id then { i with name, userId } else i

/-- `inventories.update`: any inventory, in use or not. -/
def writeTransport (id : Uuid) (schema : TransportUpdate) (s : Db) : Except Err Db :=
  match s.directory.inventory? id with
  | none => .error (.notFound s!"Запись Inventory с id={id} не найдена" "NOT_FOUND" [("id", .id id)])
  | some i => do
    let userId ← setNotNull "inventories.user_id" i.userId (schema.userId.map (Option.map some))
    let name ← setNotNull "inventories.name" i.name schema.name
    require (isUnique userId (rewritten id name userId s.directory.inventories))
      (.uniqueViolation "uq_active_courier_inventory")
    require (schema.userId.all fun u => u.all fun u => (s.users.find? u).isSome)
      (.foreignKeyViolation "inventories_user_id_fkey")
    .ok (withInventories (rewritten id name userId s.directory.inventories) s)

/-- `update_transport`. -/
def updateTransport (id : Uuid) (schema : TransportUpdate) (s : Db) : Except Err Db :=
  if schema.userId.isNone && schema.name.isNone then .ok s
  else do
    checkCourier id schema.userId s
    writeTransport id schema s

/-- The tables after an inventory is deleted; its balances go with it. -/
def withoutInventory (id : Uuid) (s : Db) : Db :=
  { withInventories (s.directory.inventories.filter fun i => i.id ≠ id) s with
    balances := s.balances.restrict fun k => k.1 ≠ id }

/-- The foreign keys that keep an inventory: orders, transfers and movements. -/
def references (id : Uuid) (s : Db) : List (Bool × Err) :=
  [(s.orders.rows.any fun r => r.2.clientInventoryId = id,
      .foreignKeyViolation "orders_client_inventory_id_fkey"),
   (s.orders.rows.any fun r => r.2.warehouseId = some id,
      .foreignKeyViolation "orders_warehouse_id_fkey"),
   (s.stockTransfers.rows.any fun r => r.2.fromId = id,
      .foreignKeyViolation "stock_transfers_from_id_fkey"),
   (s.stockTransfers.rows.any fun r => r.2.toId = id,
      .foreignKeyViolation "stock_transfers_to_id_fkey"),
   (s.stockTransactions.rows.any fun r => r.2.fromId = id,
      .foreignKeyViolation "stock_transactions_from_id_fkey"),
   (s.stockTransactions.rows.any fun r => r.2.toId = id,
      .foreignKeyViolation "stock_transactions_to_id_fkey")]

/-- The first reference that is there is reported. -/
def checkReferences : List (Bool × Err) → Except Err Unit
  | [] => .ok ()
  | (found, e) :: rest => do
    require (!found) e
    checkReferences rest

/-- `delete_transport`: what is not in use is not found, and nothing happens. -/
def deleteTransport (id : Uuid) (s : Db) : Except Err Db :=
  match (s.directory.inventory? id).filter Inventory.isActive with
  | none => .ok s
  | some i => do
    require (i.type ≠ .virtualVendor ∧ i.type ≠ .virtualLoss)
      (.badRequest "Удаление системных складов запрещено" "SYSTEM_INVENTORY_DELETE_FORBIDDEN"
        [("transport_id", .id id)])
    checkReferences (references id s)
    .ok (withoutInventory id s)

/-- What is asked of the transport service and of the courier service. -/
inductive TransportOperation
  | createTransport (env : Env) (schema : TransportCreate)
  | createCourierInventory (env : Env) (courierId : Uuid) (name : String)
  | updateTransport (id : Uuid) (schema : TransportUpdate)
  | deleteTransport (id : Uuid)

/-- A command on the tables. -/
def TransportOperation.run : TransportOperation → Db → Except Err Db
  | .createTransport env schema, s => Transports.createTransport env schema s
  | .createCourierInventory env courierId name, s =>
    Transports.createCourierInventory env courierId name s
  | .updateTransport id schema, s => Transports.updateTransport id schema s
  | .deleteTransport id, s => Transports.deleteTransport id s

/-! ## What a command does -/

/-- Nothing refers to an inventory. -/
structure Unreferenced (id : Uuid) (s : Db) : Prop where
  /-- No order is for it. -/
  orders : ∀ n o, s.orders.find? n = some o → o.clientInventoryId ≠ id ∧ o.warehouseId ≠ some id
  /-- No transfer is from it or to it. -/
  transfers : ∀ n x, s.stockTransfers.find? n = some x → x.fromId ≠ id ∧ x.toId ≠ id
  /-- No movement is. -/
  movements : ∀ n x, s.stockTransactions.find? n = some x → x.fromId ≠ id ∧ x.toId ≠ id

theorem checkReferences_ok {refs : List (Bool × Err)} {u : Unit} (h : checkReferences refs = .ok u) :
    ∀ x ∈ refs, x.1 = false := by
  induction refs with
  | nil => exact fun x hx => absurd hx List.not_mem_nil
  | cons r refs ih =>
    obtain ⟨found, e⟩ := r
    obtain ⟨_, hfound, hrest⟩ := bind_eq_ok.mp h
    rw [require_eq_ok, Bool.not_eq_true'] at hfound
    exact List.forall_mem_cons.mpr ⟨hfound, ih hrest⟩

theorem unreferenced_of_check {id : Uuid} {s : Db} {u : Unit}
    (h : checkReferences (references id s) = .ok u) : Unreferenced id s := by
  have hrefs := checkReferences_ok h
  simp only [references, List.forall_mem_cons, List.any_eq_false, decide_eq_true_eq] at hrefs
  obtain ⟨hclient, hwarehouse, hfrom, hto, hsource, htarget, -⟩ := hrefs
  constructor
  · intro n o ho
    have hmem := (Table.mem_rows_iff _ n o).mpr ho
    exact ⟨hclient _ hmem, hwarehouse _ hmem⟩
  · intro n x hx
    have hmem := (Table.mem_rows_iff _ n x).mpr hx
    exact ⟨hfrom _ hmem, hto _ hmem⟩
  · intro n x hx
    have hmem := (Table.mem_rows_iff _ n x).mpr hx
    exact ⟨hsource _ hmem, htarget _ hmem⟩

/-- The inventories of two states by what a command of the service does to them. -/
inductive Moves (s : Db) : Db → Prop
  /-- Nothing. -/
  | same : Moves s s
  /-- A vehicle is entered. -/
  | enter (id userId : Uuid) (name : String) : s.directory.inventory? id = none →
    Moves s (withInventories (s.directory.inventories ++ [⟨id, some userId, .courier, true, name⟩]) s)
  /-- An inventory is given a name and an owner. -/
  | rewrite (id : Uuid) (i : Inventory) (name : String) (userId : Option Uuid) :
    s.directory.inventory? id = some i →
    Moves s (withInventories (rewritten id name userId s.directory.inventories) s)
  /-- An inventory that is not virtual and that nothing refers to is deleted. -/
  | delete (id : Uuid) (i : Inventory) : s.directory.inventory? id = some i →
    i.type ≠ .virtualVendor → i.type ≠ .virtualLoss → Unreferenced id s →
    Moves s (withoutInventory id s)

theorem enterInventory_moves {id userId : Uuid} {name : String} {s s' : Db}
    (h : enterInventory ⟨id, some userId, .courier, true, name⟩ s = .ok s') : Moves s s' := by
  simp only [enterInventory, bind_eq_ok, require_eq_ok] at h
  obtain ⟨-, -, -, hfresh, -, -, -, -, h⟩ := h
  cases h
  exact .enter _ _ _ (Option.isNone_iff_eq_none.mp hfresh)

/-- A command of the service does one of the four. -/
theorem run_moves {op : TransportOperation} {s s' : Db} (h : op.run s = .ok s') : Moves s s' := by
  cases op with
  | createTransport env schema => exact enterInventory_moves h
  | createCourierInventory env courierId name =>
    obtain ⟨-, -, h⟩ := bind_eq_ok.mp h
    exact enterInventory_moves h
  | updateTransport id schema =>
    dsimp only [TransportOperation.run, updateTransport] at h
    split at h
    · cases h
      exact .same
    · obtain ⟨-, -, h⟩ := bind_eq_ok.mp h
      unfold writeTransport at h
      split at h
      · cases h
      · next i hi =>
        simp only [bind_eq_ok, require_eq_ok] at h
        obtain ⟨userId, -, name, -, -, -, -, -, h⟩ := h
        cases h
        exact .rewrite id i name userId hi
  | deleteTransport id =>
    dsimp only [TransportOperation.run, deleteTransport] at h
    split at h
    · cases h
      exact .same
    · next i hi =>
      simp only [bind_eq_ok, require_eq_ok, decide_eq_true_eq] at h
      obtain ⟨-, ⟨hvendor, hloss⟩, u, hrefs, h⟩ := h
      cases h
      obtain ⟨hfind, -⟩ := Option.filter_eq_some_iff.mp hi
      exact .delete id i hfind hvendor hloss (unreferenced_of_check hrefs)

end Munavvar.Transports
