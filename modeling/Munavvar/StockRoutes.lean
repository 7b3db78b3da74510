import Munavvar.Headers
import Munavvar.StatusLog

/-!
# Routes of stock transfers

Only transfers that are requested directly are checked against the table of
routes. All others follow it as long as each order is for an inventory of a
client, which `create_order` does not check: it takes the inventory from the
request, and a delivery goes wherever the order says.
-/

namespace Munavvar.StockRoutes

open Munavvar.KeyedTable
open Munavvar.Transaction
open Munavvar.Transaction.Prog
open Munavvar.Database
open Munavvar.StockLedger
open Munavvar.OrderQueries
open Munavvar.ClientService
open Munavvar.Operations (Request sampleDb sampleRequest)
open Munavvar.Discipline
open Munavvar.ClientEffects
open Munavvar.Company
open Munavvar.Headers

/-! ## Routes -/

/-- Every transfer goes along an allowed route. -/
def RoutesAllowed (s : Db) : Prop :=
  ∀ id x, s.stockTransfers.find? id = some x → AllowedRoute s.directory x.type x.fromId x.toId

section Directories

variable {d d' : Directory} {i j : Uuid} {type : TransferType}

/-- Types are kept by directories that find the same inventories. -/
theorem HasType.mono {t : InventoryType}
    (hd : ∀ id x, d.inventory? id = some x → d'.inventory? id = some x) (h : HasType d i t) :
    HasType d' i t := by
  obtain ⟨x, hx, ht⟩ := h
  exact ⟨x, hd i x hx, ht⟩

theorem AllowedRoute.mono
    (hd : ∀ id x, d.inventory? id = some x → d'.inventory? id = some x)
    (h : AllowedRoute d type i j) : AllowedRoute d' type i j := by
  obtain ⟨source, hsource, target, htarget, hi, hj⟩ := h
  exact ⟨source, hsource, target, htarget, HasType.mono hd hi, HasType.mono hd hj⟩

/-- An inventory of a client may be supplied. -/
theorem routesTo_client {env : Env} (h : HasType d i .client) :
    RoutesTo (fun _ type i j => AllowedRoute d type i j) d env i where
  initial _ _ hv := ⟨_, List.mem_cons_self, _, List.mem_cons_self, hv, h⟩
  delivery _ _ hi := ⟨_, List.mem_cons_self, _, List.mem_cons_self, hi, h⟩
  clientReturn _ _ hi := ⟨_, List.mem_cons_self, _, List.mem_cons_self, h, hi⟩
  issue _ _ _ hv hw := ⟨_, List.mem_cons_self, _, List.mem_cons_of_mem _ List.mem_cons_self, hv, hw⟩
  sale _ _ hw := ⟨_, List.mem_cons_self, _, List.mem_cons_self, hw, h⟩
  taraReturn _ _ hw := ⟨_, List.mem_cons_self, _, List.mem_cons_self, h, hw⟩

end Directories

/-- The inventories of orders are those of clients, and transfers go along allowed routes. -/
def RouteRow (d : Directory) : (k : Key) → Option (Row k) → Prop :=
  HeaderRow (fun _ _ i => HasType d i .client) fun _ type i j => AllowedRoute d type i j

theorem RouteRow.mono {d d' : Directory}
    (hd : ∀ id x, d.inventory? id = some x → d'.inventory? id = some x) {k : Key}
    {r : Option (Row k)} (h : RouteRow d k r) : RouteRow d' k r := by
  cases k with
  | order id => exact fun o ho => HasType.mono hd (h o ho)
  | stockTransfer id => exact fun x hx => AllowedRoute.mono hd (h x hx)
  | _ => exact trivial

/-- What holds between transactions. -/
structure RoutesKept (s : Db) : Prop where
  /-- Inventories have different identifiers. -/
  nodup : (s.directory.inventories.map Inventory.id).Nodup
  /-- Every row is in order. -/
  rows : ∀ k, RouteRow s.directory k (s.get k)

theorem RoutesKept.allowed {s : Db} (h : RoutesKept s) : RoutesAllowed s :=
  fun id x hx => h.rows (.stockTransfer id) x hx

/-! ## Steps -/

/-- An order that is requested is not for an inventory of another type than CLIENT. -/
def forClientInventory : ServiceRequest → Directory → Bool
  | .operation ⟨_, .createOrder _ dto⟩, d =>
    (d.inventory? dto.clientInventoryId).all fun i => i.type = .client
  | _, _ => true

/-- Every transaction keeps to the routes. -/
theorem program_routesKept {s : Db} (hs : RoutesKept s) (r : ServiceRequest)
    (hr : forClientInventory r s.directory = true) :
    wp Regime.concurrent (program r) (fun _ s' => RoutesKept s') (fun _ => True) s := by
  have hsound : Regime.Sound (S := schema) Regime.concurrent := Regime.concurrentAssuming_sound _
  have hlax : Regime.Lax (S := schema) Regime.concurrent := Regime.concurrentAssuming_lax _
  have hkept : ∀ {p : Uow Unit}, Obeys (headers (fun _ _ i => HasType s.directory i .client)
        fun _ type i j => AllowedRoute s.directory type i j) s.directory p (fun _ _ => True)
        (fun _ => False) →
      wp Regime.concurrent p (fun _ s' => RoutesKept s') (fun _ => True) s := by
    intro p hp
    refine wp_mono _ (wp_headers hsound hlax hp hs.rows) (fun _ s' h => ?_) fun _ he => he
    obtain ⟨-, hdirectory, hrows⟩ := h
    constructor
    · rw [hdirectory]
      exact hs.nodup
    · rw [hdirectory]
      exact hrows
  cases r with
  | stock env op => exact hkept (obeys_stock hs.nodup env op fun type i j hroute => hroute)
  | operation r =>
    by_cases hcreate : ∃ clientId dto, r.op = .createOrder clientId dto ∧
      s.directory.inventory? dto.clientInventoryId = none
    · obtain ⟨clientId, dto, hop, hnone⟩ := hcreate
      have hprogram : program (.operation r) = OrderService.createOrder r.env clientId dto := by
        rw [program, Operations.program, hop]
      rw [hprogram]
      refine wp_mono _ (wp_headers hsound hlax (H := fun _ => False)
        (obeys_createOrder_missing hnone) fun k => ?_) (fun _ s' h => ?_) fun _ he => he
      · cases k <;> simp [HeaderRow]
      · obtain ⟨⟨H', hfalse⟩, -⟩ := h
        exact hfalse.elim
    · refine hkept (obeys_operation hs.nodup r (fun _ _ i hi => routesTo_client hi) ?_ ?_)
      · intro clientId dto hop
        obtain ⟨env, op⟩ := r
        subst hop
        cases hfind : s.directory.inventory? dto.clientInventoryId with
        | none => exact absurd ⟨clientId, dto, rfl, hfind⟩ hcreate
        | some i =>
          rw [forClientInventory, hfind] at hr
          exact ⟨i, hfind, by simpa using hr⟩
      · intro dto clientId u i _ hi
        obtain ⟨hmem, -, htype, -⟩ := clientInventory?_spec hi
        exact htype ▸ hasType_of_mem hs.nodup hmem

/-- Every command of the client service keeps to the routes. -/
theorem client_routesKept {env : Env} {op : ClientOperation} {r r' : Registry}
    (hr : RoutesKept r.db) (h : op.run env r = .ok r') : RoutesKept r'.db := by
  refine run_wp (Q := RoutesKept) h fun s new henrolled hown => ?_
  have hnodup := henrolled.nodup hr.nodup
  have hrows : ∀ k, RouteRow s.directory k (s.get k) := by
    intro k
    have hrow := RouteRow.mono (fun id x => henrolled.inventory?) (hr.rows k)
    obtain ⟨users, balances, directory, rfl⟩ := henrolled.same
    cases k with
    | order id => exact hrow
    | stockTransfer id => exact hrow
    | _ => exact trivial
  have hobeys : Obeys (headers (fun _ _ i => HasType s.directory i .client)
      fun _ type i j => AllowedRoute s.directory type i j) s.directory (followUp env op)
      (fun _ _ => True) fun _ => False := by
    refine obeys_followUp hnodup env op hown ?_
    rintro name rfl
    have hclient : HasType s.directory (env.uuid 0 2) .client := ⟨_, henrolled.inventory?_new, rfl⟩
    have hroutes : RoutesTo _ _ env _ := routesTo_client hclient
    exact ⟨fun v hv => hroutes.initial 1 v hv, hclient⟩
  refine wp_mono _ (wp_headers Regime.serial_sound Regime.serial_lax hobeys hrows)
    (fun _ s' h => ?_) fun _ he => he
  obtain ⟨-, hdirectory, hrows⟩ := h
  constructor
  · rw [hdirectory]
    exact hnodup
  · rw [hdirectory]
    exact hrows

/-! ## Runs -/

/-- The registry before the first order and the first transfer. -/
def noTransfers (r : Registry) : Registry :=
  { r with db := { r.db with orders := .empty, stockTransfers := .empty } }

theorem noTransfers_routesKept {r : Registry}
    (hd : (r.db.directory.inventories.map Inventory.id).Nodup) : RoutesKept (noTransfers r).db where
  nodup := hd
  rows k := by
    cases k with
    | order id => exact fun o ho => absurd ho (by simp [noTransfers, Db.get])
    | stockTransfer id => exact fun x hx => absurd hx (by simp [noTransfers, Db.get])
    | _ => exact trivial

/-- In every run in which no order is requested for an inventory of another type
than CLIENT, all transfers go along allowed routes. -/
theorem transfers_follow_routes (r : Registry)
    (hd : (r.db.directory.inventories.map Inventory.id).Nodup) {w : World}
    (h : Reachable forClientInventory (fun _ => true) (World.init (noTransfers r)) w) :
    RoutesAllowed w.sys.db := by
  have hkept := h.kept (I := RoutesKept) (T := fun _ _ => True) (fun _ => trivial)
    (fun r s hs hr => wp_mono _ (program_routesKept hs r hr) (fun _ _ hs' => ⟨hs', trivial⟩)
      fun _ he => he)
    (fun env op r r' hr _ hrun => ⟨client_routesKept hr hrun, trivial⟩)
    (noTransfers_routesKept hd)
  exact hkept.1.allowed

/-! ## Two runs -/

/-- Coffee is ordered for an inventory and delivered there. -/
def deliveryTo (inventoryId : Uuid) : List Event :=
  served 0 (.operation
      (sampleRequest 0 0 (.createOrder 7 ⟨[⟨23, 2, Operations.two_pieces⟩], .cash, inventoryId, false, none⟩))) 6 ++
    served 1 (.operation (sampleRequest 1 1 (.assignCourier 10000 6))) 5 ++
    served 2 (.operation (sampleRequest 2 2 (.updateStatus 10000 .inTransit [] none none))) 3 ++
    served 3 (.operation (sampleRequest 3 3 (.updateStatus 10000 .arrived [] none none))) 3 ++
    served 4 (.operation (sampleRequest 4 4 (.updateStatus 10000 .delivered [] none none))) 34

/-- Kind and ends of the transfers. -/
def routes (w : World) : List (TransferType × Uuid × Uuid) :=
  w.sys.db.stockTransfers.rows.map fun x => (x.2.type, x.2.fromId, x.2.toId)

theorem transfers_follow_routes_sample :
    ∃ w, (deliveryTo 5).foldlM (World.execIf forClientInventory fun _ => true)
        (World.init (noTransfers ⟨sampleDb, []⟩)) = some w ∧
      routes w = [(.clientDelivery, 4, 5)] ∧ RoutesAllowed w.sys.db := by
  have heval : ((deliveryTo 5).foldlM (World.execIf forClientInventory fun _ => true)
      (World.init (noTransfers ⟨sampleDb, []⟩))).map routes = some [(.clientDelivery, 4, 5)] := by
    decide +kernel
  obtain ⟨w, hrun, hroutes⟩ := Option.map_eq_some_iff.mp heval
  have hreach := Reachable.of_events _ hrun
  exact ⟨w, hrun, hroutes, transfers_follow_routes ⟨sampleDb, []⟩ (by decide) hreach⟩

/-- The type of an inventory, if there is one. -/
def typeIn (w : World) (id : Uuid) : Option InventoryType :=
  (w.sys.db.directory.inventory? id).map Inventory.type

theorem delivery_to_warehouse :
    ¬ ∀ (r : Registry), (r.db.directory.inventories.map Inventory.id).Nodup → ∀ w : World,
      Reachable (fun _ _ => true) (fun _ => true) (World.init (noTransfers r)) w →
      RoutesAllowed w.sys.db := by
  intro hclaim
  have heval : ((deliveryTo 3).foldlM (World.execIf (fun _ _ => true) fun _ => true)
      (World.init (noTransfers ⟨sampleDb, []⟩))).map (fun w =>
        ((w.sys.db.stockTransfers.find? 50200).map fun x => (x.type, x.fromId, x.toId), typeIn w 3)) =
      some (some (.clientDelivery, 4, 3), some .warehouse) := by decide +kernel
  obtain ⟨w, hrun, hpair⟩ := Option.map_eq_some_iff.mp heval
  obtain ⟨htransfer, htype⟩ := Prod.mk.inj hpair
  obtain ⟨x, hx, hroute⟩ := Option.map_eq_some_iff.mp htransfer
  simp only [Prod.mk.injEq] at hroute
  obtain ⟨hkind, -, hto⟩ := hroute
  have hallowed := hclaim _ (by decide) w (Reachable.of_events _ hrun) 50200 x hx
  obtain ⟨source, -, target, htarget, -, i, hi, hit⟩ := hallowed
  rw [hkind] at htarget
  rw [hto] at hi
  rw [typeIn, hi, Option.map_some, Option.some.injEq, hit, List.mem_singleton.mp htarget] at htype
  cases htype

end Munavvar.StockRoutes
