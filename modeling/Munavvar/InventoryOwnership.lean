import Munavvar.Headers
import Munavvar.StatusLog

/-!
# The inventory of an order

The client service checks that containers are counted and entered for a client's
own inventory, and a warehouse sale looks the inventory up. Only `create_order`
takes it from the request as it is. If each request names an inventory of its
client, then every order is for an active inventory of its client, and the stock
that moves when an order is placed leaves all other clients alone.
-/

namespace Munavvar.InventoryOwnership

open Munavvar.KeyedTable
open Munavvar.Transaction
open Munavvar.Transaction.Prog
open Munavvar.Database
open Munavvar.StockLedger
open Munavvar.OrderQueries
open Munavvar.ClientService
open Munavvar.Operations (Request sampleDb sampleRequest)
open Munavvar.Discipline
open Munavvar.ClientEffects
open Munavvar.Company
open Munavvar.Headers
open Munavvar.StatusLog (noOrders newcomer)

/-! ## What an order may touch -/

/-- Every order is for an active inventory of its client. -/
def OrdersOwned (s : Db) : Prop :=
  ∀ id o, s.orders.find? id = some o →
    s.directory.isClientInventory o.clientId o.clientInventoryId = true

/-- Whoever makes an order between two states makes it for an active inventory
of its client, and moves stock from and to no other inventory of a client. -/
def TouchesOwn (s s' : Db) : Prop :=
  ∀ id o, s.orders.find? id = none → s'.orders.find? id = some o →
    s'.directory.isClientInventory o.clientId o.clientInventoryId = true ∧
    ∀ n x, s.stockTransfers.find? n = none → s'.stockTransfers.find? n = some x →
      ∀ i, i = x.fromId ∨ i = x.toId → HasType s'.directory i .client → i = o.clientInventoryId

section Directories

variable {d d' : Directory} {env : Env}

/-- A client keeps its inventories when more are entered. -/
theorem isClientInventory_append {c i : Uuid} {new : List Inventory}
    (hd : d'.inventories = d.inventories ++ new) (h : d.isClientInventory c i = true) :
    d'.isClientInventory c i = true := by
  rw [Directory.isClientInventory] at h ⊢
  rw [hd, List.any_append, h, Bool.true_or]

/-- An inventory that is found is one of the client's. -/
theorem isClientInventory_of_mem {c : Uuid} {i : Inventory} (hi : i ∈ d.inventories)
    (huser : i.userId = some c) (htype : i.type = .client) (hactive : i.isActive = true) :
    d.isClientInventory c i.id = true := by
  refine List.any_eq_true.mpr ⟨i, hi, ?_⟩
  simp [huser, htype, hactive]

/-- An inventory has one type. -/
theorem HasType.unique {i : Uuid} {t t' : InventoryType} (h : HasType d i t) (h' : HasType d i t') :
    t = t' := by
  obtain ⟨x, hx, rfl⟩ := h
  obtain ⟨y, hy, rfl⟩ := h'
  cases hx.symm.trans hy
  rfl

/-- The transfers that supply an order are between its inventory and the company's. -/
theorem routesTo_own {B W : Uuid → Prop} {inventoryId : Uuid}
    (h : W inventoryId) :
    RoutesTo (fun n _ i j => B n ∨ ∀ x, x = i ∨ x = j → HasType d x .client → W x) d env
      inventoryId := by
  have hcompany : ∀ {i : Uuid} {t : InventoryType}, HasType d i t → t ≠ .client →
      HasType d i .client → W i := fun htype hne hclient =>
    absurd (HasType.unique htype hclient) hne
  have hends : ∀ {i j : Uuid}, (HasType d i .client → W i) → (HasType d j .client → W j) →
      ∀ x, x = i ∨ x = j → HasType d x .client → W x := by
    rintro i j hi hj x (rfl | rfl)
    · exact hi
    · exact hj
  constructor
  · exact fun _ _ hv => .inr (hends (hcompany hv (by decide)) fun _ => h)
  · exact fun _ _ hi => .inr (hends (hcompany hi (by decide)) fun _ => h)
  · exact fun _ _ hi => .inr (hends (fun _ => h) (hcompany hi (by decide)))
  · exact fun _ _ _ hv hw => .inr (hends (hcompany hv (by decide)) (hcompany hw (by decide)))
  · exact fun _ _ hw => .inr (hends (hcompany hw (by decide)) fun _ => h)
  · exact fun _ _ hw => .inr (hends (fun _ => h) (hcompany hw (by decide)))

end Directories

/-! ## Steps -/

section Steps

variable {R : Regime schema} {s : Db} {p : Uow Unit} {H : Key → Prop}

/-- A transaction that makes orders of a client for its own inventory only. -/
theorem wp_touchesOwn (hsound : R.Sound) (hlax : R.Lax) {c : Uuid} {W : Uuid → Prop}
    (hown : ∀ i, W i → s.directory.isClientInventory c i = true)
    (hunique : ∀ i j, W i → W j → i = j)
    (hp : Obeys (headers (fun id c' i => (s.orders.find? id).isSome = true ∨ c' = c ∧ W i)
      fun n _ i j => (s.stockTransfers.find? n).isSome = true ∨
        ∀ x, x = i ∨ x = j → HasType s.directory x .client → W x) s.directory p
      (fun _ _ => True) H) :
    wp R p (fun _ s' => TouchesOwn s s') (fun _ => True) s := by
  refine wp_mono _ (wp_headers hsound hlax hp fun k => ?_) (fun _ s' h => ?_) fun _ he => he
  · cases k with
    | order id => exact fun o ho => .inl (Option.isSome_of_eq_some ho)
    | stockTransfer id => exact fun x hx => .inl (Option.isSome_of_eq_some hx)
    | _ => exact trivial
  · obtain ⟨-, hdirectory, hrows⟩ := h
    intro id o hold hnew
    rcases hrows (.order id) o hnew with hsome | ⟨hclient, howned⟩
    · rw [hold] at hsome
      cases hsome
    · rw [hdirectory, hclient]
      refine ⟨hown _ howned, fun n x hold hnew i hi htype => ?_⟩
      rcases hrows (.stockTransfer n) x hnew with hsome | htouched
      · rw [hold] at hsome
        cases hsome
      · exact hunique _ _ (htouched i hi htype) howned

/-- A transaction that makes no order. -/
theorem wp_touchesOwn_of_none (hsound : R.Sound) (hlax : R.Lax)
    (hp : Obeys (headers (fun id _ _ => (s.orders.find? id).isSome = true) fun _ _ _ _ => True)
      s.directory p (fun _ _ => True) H) :
    wp R p (fun _ s' => TouchesOwn s s') (fun _ => True) s := by
  refine wp_mono _ (wp_headers hsound hlax hp fun k => ?_) (fun _ s' h => ?_) fun _ he => he
  · cases k with
    | order id => exact fun o ho => Option.isSome_of_eq_some ho
    | stockTransfer id => exact fun x hx => trivial
    | _ => exact trivial
  · obtain ⟨-, -, hrows⟩ := h
    intro id o hold hnew
    have hsome : (s.orders.find? id).isSome = true := hrows (.order id) o hnew
    rw [hold] at hsome
    cases hsome

end Steps

/-- What holds between transactions. -/
structure OwnershipKept (s : Db) : Prop where
  /-- Inventories have different identifiers. -/
  nodup : (s.directory.inventories.map Inventory.id).Nodup
  /-- Orders are for inventories of their clients. -/
  owned : OrdersOwned s

/-- An order that is requested is not for an inventory but an active one of its client. -/
def forOwnInventory : ServiceRequest → Directory → Bool
  | .operation ⟨_, .createOrder clientId dto⟩, d =>
    (d.inventory? dto.clientInventoryId).all fun i =>
      i.userId = some clientId && i.type = .client && i.isActive
  | _, _ => true

/-- Every transaction keeps the ownership. -/
theorem program_ownershipKept {s : Db} (hs : OwnershipKept s) (r : ServiceRequest)
    (hr : forOwnInventory r s.directory = true) :
    wp Regime.concurrent (program r) (fun _ s' => OwnershipKept s' ∧ TouchesOwn s s')
      (fun _ => True) s := by
  have hsound : Regime.Sound (S := schema) Regime.concurrent := Regime.concurrentAssuming_sound _
  have hlax : Regime.Lax (S := schema) Regime.concurrent := Regime.concurrentAssuming_lax _
  -- both descriptions are of one run of the transaction
  have hboth : ∀ {p : Uow Unit}, Obeys (headers (fun _ c i => s.directory.isClientInventory c i = true)
        fun _ _ _ _ => True) s.directory p (fun _ _ => True) (fun _ => False) →
      wp Regime.concurrent p (fun _ s' => TouchesOwn s s') (fun _ => True) s →
      wp Regime.concurrent p (fun _ s' => OwnershipKept s' ∧ TouchesOwn s s') (fun _ => True) s := by
    intro p hp htouches
    have howned := wp_headers hsound hlax hp fun k => by
      cases k with
      | order id => exact fun o ho => hs.owned id o ho
      | stockTransfer id => exact fun x hx => trivial
      | _ => exact trivial
    refine wp_mono _ (wp_and _ howned htouches) (fun _ s' h => ?_) fun _ _ => trivial
    obtain ⟨⟨-, hdirectory, hrows⟩, htouches⟩ := h
    refine ⟨⟨hdirectory ▸ hs.nodup, fun id o ho => ?_⟩, htouches⟩
    rw [hdirectory]
    exact hrows (.order id) o ho
  have hroutes : ∀ env i, RoutesTo (fun _ _ _ _ => True) s.directory env i := fun env i =>
    ⟨fun _ _ _ => trivial, fun _ _ _ => trivial, fun _ _ _ => trivial, fun _ _ _ _ _ => trivial,
      fun _ _ _ => trivial, fun _ _ _ => trivial⟩
  cases r with
  | stock env op =>
    exact hboth (obeys_stock hs.nodup env op fun _ _ _ _ => trivial)
      (wp_touchesOwn_of_none (H := fun _ => False) hsound hlax
        (obeys_stock hs.nodup env op fun _ _ _ _ => trivial))
  | operation r =>
    obtain ⟨env, op⟩ := r
    have hsale : ∀ {clientId i}, clientInventory? s.directory clientId = some i →
        s.directory.isClientInventory clientId i.id = true := by
      intro clientId i hi
      obtain ⟨hmem, huser, htype, hactive⟩ := clientInventory?_spec hi
      exact isClientInventory_of_mem hmem huser htype hactive
    have hother : (∀ clientId dto, op ≠ .createOrder clientId dto) →
        (∀ dto clientId u, op ≠ .createWarehouseSale dto clientId u) →
        wp Regime.concurrent (program (.operation ⟨env, op⟩))
          (fun _ s' => OwnershipKept s' ∧ TouchesOwn s s') (fun _ => True) s := by
      intro hcreate hsold
      have hobeys : ∀ {P : Uuid → Uuid → Uuid → Prop}, Obeys (headers P fun _ _ _ _ => True)
          s.directory (program (.operation ⟨env, op⟩)) (fun _ _ => True) fun _ => False := by
        intro P
        refine obeys_operation hs.nodup ⟨env, op⟩ (fun _ _ i _ => hroutes _ i) ?_ ?_
        · exact fun clientId dto h => absurd h (hcreate clientId dto)
        · exact fun dto clientId u _ h => absurd h (hsold dto clientId u)
      exact hboth hobeys (wp_touchesOwn_of_none hsound hlax hobeys)
    cases op with
    | createOrder clientId dto =>
      cases hfind : s.directory.inventory? dto.clientInventoryId with
      | none =>
        refine wp_mono _ (wp_headers hsound hlax (H := fun _ => False)
          (obeys_createOrder_missing hfind) fun k => ?_) (fun _ s' h => ?_) fun _ he => he
        · cases k <;> simp [HeaderRow]
        · obtain ⟨⟨H', hfalse⟩, -⟩ := h
          exact hfalse.elim
      | some i =>
        rw [forOwnInventory, hfind] at hr
        simp only [Option.all_some, Bool.and_eq_true, decide_eq_true_eq] at hr
        obtain ⟨⟨huser, htype⟩, hactive⟩ := hr
        have hid : i.id = dto.clientInventoryId := ShortageCheck.inventory?_id hfind
        have hown : s.directory.isClientInventory clientId dto.clientInventoryId = true :=
          hid ▸ isClientInventory_of_mem (List.mem_of_find?_eq_some hfind) huser htype hactive
        refine hboth (obeys_createOrder hs.nodup hown (hroutes _ _)) ?_
        refine wp_touchesOwn hsound hlax (c := clientId) (W := (· = dto.clientInventoryId))
          (H := fun _ => False) ?_ ?_ ?_
        · rintro _ rfl
          exact hown
        · exact fun i j hi hj => hi.trans hj.symm
        · exact obeys_createOrder hs.nodup (.inr ⟨rfl, rfl⟩) (routesTo_own rfl)
    | createWarehouseSale dto clientId u =>
      refine hboth (obeys_createWarehouseSale hs.nodup fun i hi => ⟨hsale hi, hroutes _ _⟩) ?_
      refine wp_touchesOwn hsound hlax (c := clientId.getD walkinUserId) (H := fun _ => False)
        (W := fun i => ∃ j, clientInventory? s.directory (clientId.getD walkinUserId) = some j ∧
          i = j.id) ?_ ?_ ?_
      · rintro _ ⟨j, hj, rfl⟩
        exact hsale hj
      · rintro _ _ ⟨j, hj, rfl⟩ ⟨j', hj', rfl⟩
        cases hj.symm.trans hj'
        rfl
      · exact obeys_createWarehouseSale hs.nodup fun i hi =>
          ⟨.inr ⟨rfl, i, hi, rfl⟩, routesTo_own ⟨i, hi, rfl⟩⟩
    | _ => exact hother (fun _ _ h => by cases h) fun _ _ _ h => by cases h

/-- Every command of the client service keeps the ownership. -/
theorem client_ownershipKept {env : Env} {op : ClientOperation} {r r' : Registry}
    (hr : OwnershipKept r.db) (h : op.run env r = .ok r') :
    OwnershipKept r'.db ∧ TouchesOwn r.db r'.db := by
  refine run_wp (Q := fun s => OwnershipKept s ∧ TouchesOwn r.db s) h fun s new henrolled hown => ?_
  have hnodup := henrolled.nodup hr.nodup
  have hsame : s.orders = r.db.orders ∧ s.stockTransfers = r.db.stockTransfers := by
    obtain ⟨users, balances, directory, rfl⟩ := henrolled.same
    exact ⟨rfl, rfl⟩
  have hnew : ∀ name, new = some ⟨env.uuid 0 2, some (env.uuid 0 0), .client, true, name⟩ →
      s.directory.isClientInventory (env.uuid 0 0) (env.uuid 0 2) = true := by
    rintro name rfl
    refine isClientInventory_of_mem (i := ⟨env.uuid 0 2, some (env.uuid 0 0), .client, true, name⟩)
      ?_ rfl rfl rfl
    rw [henrolled.inventories_eq]
    exact List.mem_append_right _ (List.mem_singleton.mpr rfl)
  have howned : Obeys (headers (fun _ c i => s.directory.isClientInventory c i = true)
      fun _ _ _ _ => True) s.directory (followUp env op) (fun _ _ => True) fun _ => False :=
    obeys_followUp hnodup env op hown fun name hname => ⟨fun _ _ => trivial, hnew name hname⟩
  have htouches : wp Regime.serial (followUp env op) (fun _ s' => TouchesOwn s s')
      (fun _ => True) s := by
    refine wp_touchesOwn Regime.serial_sound Regime.serial_lax (c := env.uuid 0 0)
      (W := fun i => i = env.uuid 0 2 ∧
        s.directory.isClientInventory (env.uuid 0 0) i = true) (H := fun _ => False) ?_ ?_ ?_
    · exact fun i hi => hi.2
    · exact fun i j hi hj => hi.1.trans hj.1.symm
    · refine obeys_followUp hnodup env op hown fun name hname => ?_
      have hself := hnew name hname
      have hroutes : RoutesTo (fun n _ i j => (s.stockTransfers.find? n).isSome = true ∨
          ∀ x, x = i ∨ x = j → HasType s.directory x .client → x = env.uuid 0 2 ∧
            s.directory.isClientInventory (env.uuid 0 0) x = true) s.directory env (env.uuid 0 2) :=
        routesTo_own (W := fun x => x = env.uuid 0 2 ∧
          s.directory.isClientInventory (env.uuid 0 0) x = true) ⟨rfl, hself⟩
      exact ⟨hroutes.initial 1, .inr ⟨rfl, rfl, hself⟩⟩
  have hrows := wp_headers Regime.serial_sound Regime.serial_lax howned fun k => by
    cases k with
    | order id =>
      intro o ho
      have ho : r.db.orders.find? id = some o := hsame.1 ▸ ho
      exact isClientInventory_append henrolled.inventories_eq (hr.owned id o ho)
    | stockTransfer id => exact fun x hx => trivial
    | _ => exact trivial
  refine wp_mono _ (wp_and _ hrows htouches) (fun _ s' h => ?_) fun _ _ => trivial
  obtain ⟨⟨-, hdirectory, hrows⟩, htouches⟩ := h
  refine ⟨⟨hdirectory ▸ hnodup, fun id o ho => ?_⟩, fun id o hold hmade => ?_⟩
  · rw [hdirectory]
    exact hrows (.order id) o ho
  · rw [← hsame.1] at hold
    rw [← hsame.2]
    exact htouches id o hold hmade

theorem noOrders_ownershipKept {r : Registry}
    (hd : (r.db.directory.inventories.map Inventory.id).Nodup) : OwnershipKept (noOrders r).db where
  nodup := hd
  owned id o ho := absurd ho (by simp [noOrders])

/-! ## Runs -/

/-- Orders are for inventories of their clients: in the committed state, and in
whatever an event makes of it. -/
def InventoriesOwned (ok : ServiceRequest → Directory → Bool) (okClient : ClientOperation → Bool)
    (w : World) : Prop :=
  OrdersOwned w.sys.db ∧
  ∀ e w', e.meets ok okClient w = true → w.exec e = some w' → TouchesOwn w.sys.db w'.sys.db

/-- In every run in which no order is requested for an inventory that is not an
active one of its client, all orders are for inventories of their clients, and
no other client's stock moves when an order is placed. -/
theorem inventories_owned (r : Registry)
    (hd : (r.db.directory.inventories.map Inventory.id).Nodup) {w : World}
    (h : Reachable forOwnInventory (fun _ => true) (World.init (noOrders r)) w) :
    InventoriesOwned forOwnInventory (fun _ => true) w := by
  have hkept := h.kept (I := OwnershipKept) (T := TouchesOwn)
    (fun s id o hold hnew => by cases hold.symm.trans hnew)
    (fun r s hs hr => program_ownershipKept hs r hr)
    (fun env op r r' hr _ hrun => client_ownershipKept hr hrun)
    (noOrders_ownershipKept hd)
  exact ⟨hkept.1.owned, hkept.2⟩

/-! ## Two runs -/

/-- Coffee is ordered for an inventory. -/
def orderFor (inventoryId : Uuid) : List Event :=
  .client ⟨0, fun i j => 500 + 10 * i + j⟩ (.onboardClientWithBalance (newcomer none) 9) ::
    served 0 (.operation
      (sampleRequest 0 0 (.createOrder 7 ⟨[⟨23, 2, Operations.two_pieces⟩], .cash, inventoryId, false, none⟩))) 6

/-- Buyer and inventory of an order. -/
def placed (id : Uuid) (w : World) : Option (Uuid × Uuid) :=
  (w.sys.db.orders.find? id).map fun o => (o.clientId, o.clientInventoryId)

theorem inventories_owned_sample :
    ∃ w, (orderFor 5).foldlM (World.execIf forOwnInventory fun _ => true)
        (World.init (noOrders ⟨sampleDb, []⟩)) = some w ∧
      placed 10000 w = some (7, 5) ∧ InventoriesOwned forOwnInventory (fun _ => true) w := by
  have heval : ((orderFor 5).foldlM (World.execIf forOwnInventory fun _ => true)
      (World.init (noOrders ⟨sampleDb, []⟩))).map (placed 10000) = some (some (7, 5)) := by
    decide +kernel
  obtain ⟨w, hrun, hplaced⟩ := Option.map_eq_some_iff.mp heval
  have hreach := Reachable.of_events _ hrun
  exact ⟨w, hrun, hplaced, inventories_owned ⟨sampleDb, []⟩ (by decide) hreach⟩

theorem order_for_foreign_inventory :
    ¬ ∀ r : Registry, (r.db.directory.inventories.map Inventory.id).Nodup → ∀ w : World,
      Reachable (fun _ _ => true) (fun _ => true) (World.init (noOrders r)) w →
      InventoriesOwned (fun _ _ => true) (fun _ => true) w := by
  intro hclaim
  -- the inventory 502 is the new client's
  have heval : ((orderFor 502).foldlM (World.execIf (fun _ _ => true) fun _ => true)
      (World.init (noOrders ⟨sampleDb, []⟩))).map (fun w =>
        (placed 10000 w, w.sys.db.directory.isClientInventory 7 502)) =
      some (some (7, 502), false) := by decide +kernel
  obtain ⟨w, hrun, hpair⟩ := Option.map_eq_some_iff.mp heval
  obtain ⟨hplaced, hforeign⟩ := Prod.mk.inj hpair
  obtain ⟨o, ho, hheader⟩ := Option.map_eq_some_iff.mp hplaced
  obtain ⟨hclient, hinventory⟩ := Prod.mk.inj hheader
  have howned := (hclaim _ (by decide) w (Reachable.of_events _ hrun)).1 10000 o ho
  rw [hclient, hinventory, hforeign] at howned
  cases howned

end Munavvar.InventoryOwnership
