import Munavvar.Enterprise
import Munavvar.SettlementOnce
import Munavvar.Turnover

/-!
# Goods are handed over once

The transaction that settles an order also moves its goods to the client: the
lines as they were settled, and the containers that go with them. No other
transaction makes such a transfer, whatever else runs at the same time, and a
settled order keeps the lines it was settled with. So a settled order has one
transfer of its goods, and any other order has none.
-/

namespace Munavvar.Handovers

open Munavvar.KeyedTable
open Munavvar.Transaction
open Munavvar.Transaction.Prog
open Munavvar.Invariance
open Munavvar.MixedRuns
open Munavvar.Database
open Munavvar.Statements
open Munavvar.StockLedger
open Munavvar.FinancialLedger
open Munavvar.OrderQueries
open Munavvar.Fulfillment
open Munavvar.OrderService
open Munavvar.StockService
open Munavvar.Operations
open Munavvar.OrderChanges
open Munavvar.OrderEffects
open Munavvar.LifecycleEffects
open Munavvar.ContractEffects
open Munavvar.ClientEffects
open Munavvar.SettlementOnce (posted posted_of_appended step_of_final isFinal_of_isSettled
  settledBy_of_settlement step_courier)
open Munavvar.PaymentDesk
open Munavvar.LedgerKeeping
open Munavvar.Footprints
open Munavvar.RegistryKeeping
open Munavvar.CompanyBooks
open Munavvar.Enterprise
open Munavvar.Turnover (firstSale)

/-! ## Transfers of goods -/

/-- A transfer hands the goods of an order over. -/
def hands (id : Uuid) (x : StockTransfer) : Bool :=
  x.orderId = some id && (x.type = .clientDelivery || x.type = .warehouseSale)

/-- The transfer under an identifier, if it hands the goods of the order over. -/
def handover (id : Uuid) (t : Table Uuid StockTransfer) (n : Uuid) : Option StockTransfer :=
  (t.find? n).filter (hands id)

/-- The containers that go with the lines of an order; `tare` tells the container
of each product. -/
def containersOf (tare : Uuid → Option Uuid) (o : Order) : List (Uuid × ℤ) :=
  match o.saleType with
  | .delivery => buildReturnableItems tare o.items
  | .warehousePickup =>
    returnableForPickup (o.clientId = walkinUserId) o.items (buildReturnableItems tare o.items)

/-- A transfer moves the lines of an order and their containers to the client's
inventory: by the courier if the order is delivered, else from the warehouse. -/
structure HandedOver (o : Order) (x : StockTransfer) : Prop where
  /-- The way of the goods. -/
  route : match o.saleType with
    | .delivery => x.type = .clientDelivery ∧ o.courierId = some x.createdById
    | .warehousePickup => x.type = .warehouseSale ∧ o.warehouseId = some x.fromId
  /-- The inventory they come to. -/
  toId_eq : x.toId = o.clientInventoryId
  /-- The client accepts them. -/
  acceptedById_eq : x.acceptedById = some o.clientId
  /-- The goods. -/
  items_eq : ∃ tare, x.items = o.items.map OrderItem.pair ++ containersOf tare o

/-- Every settled order has been handed over by one transfer, and no other order
by any. -/
structure HandedOnce (s : Db) : Prop where
  /-- A settled order. -/
  settled : ∀ id o, s.orders.find? id = some o → isSettled o = true →
    ∃ n x, HandedOver o x ∧
      ∀ m, handover id s.stockTransfers m = if m = n then some x else none
  /-- Any other identifier. -/
  unsettled : ∀ id, ¬ (s.orders.find? id).any isSettled = true →
    ∀ m, handover id s.stockTransfers m = none

section Tables

variable {t t' t'' : Table Uuid StockTransfer} {id n : Uuid} {x : StockTransfer}

/-- The same transfers hand the same orders over. -/
def SameHandovers (t t' : Table Uuid StockTransfer) : Prop :=
  ∀ id m, handover id t' m = handover id t m

theorem SameHandovers.trans (h : SameHandovers t t') (h' : SameHandovers t' t'') :
    SameHandovers t t'' := fun id m => (h' id m).trans (h id m)

/-- A new transfer that hands no order over. -/
theorem sameHandovers_of_written (hfresh : t.find? n = none) (h : t.Written t' n (some x))
    (hx : ∀ id, hands id x = false) : SameHandovers t t' := by
  intro id m
  by_cases hm : m = n
  · subst hm
    rw [handover, h.find?_self, handover, hfresh, Option.filter_some, hx id]
    rfl
  · rw [handover, h.find?_ne hm, handover]

/-- One transfer is new and hands one order over. -/
def NewHandover (id : Uuid) (x : StockTransfer) (t t' : Table Uuid StockTransfer) : Prop :=
  ∃ n, handover id t n = none ∧
    ∀ j m, handover j t' m = if j = id ∧ m = n then some x else handover j t m

theorem newHandover_of_written (hfresh : t.find? n = none) (h : t.Written t' n (some x))
    (hx : hands id x = true) : NewHandover id x t t' := by
  have hother : ∀ j, j ≠ id → hands j x = false := by
    intro j hj
    rw [hands, Bool.and_eq_true, decide_eq_true_eq] at hx
    rw [hands, hx.1, decide_eq_false (fun heq => hj (Option.some.inj heq).symm), Bool.false_and]
  have hnone : ∀ j, handover j t n = none := by
    intro j
    rw [handover, hfresh]
    rfl
  refine ⟨n, hnone id, fun j m => ?_⟩
  by_cases hm : m = n
  · subst hm
    rw [hnone j, handover, h.find?_self, Option.filter_some]
    by_cases hj : j = id
    · subst hj
      rw [if_pos hx, if_pos ⟨rfl, rfl⟩]
    · rw [if_neg (by simp [hother j hj]), if_neg (fun heq => hj heq.1)]
  · rw [if_neg (fun heq => hm heq.2), handover, h.find?_ne hm, handover]

theorem NewHandover.trans_same (h : NewHandover id x t t') (h' : SameHandovers t' t'') :
    NewHandover id x t t'' := by
  obtain ⟨n, hnone, heq⟩ := h
  exact ⟨n, hnone, fun j m => (h' j m).trans (heq j m)⟩

theorem SameHandovers.trans_new (h : SameHandovers t t') (h' : NewHandover id x t' t'') :
    NewHandover id x t t'' := by
  obtain ⟨n, hnone, heq⟩ := h'
  refine ⟨n, (h id n).symm.trans hnone, fun j m => ?_⟩
  rw [heq j m, h j m]

end Tables

/-! ## Stock -/

section Stock

variable {R : Regime schema} {E : Err → Prop} {s : Db}

/-- Statements on movements and balances. -/
def OnMovements : (k : Key) → Stmt k → Prop
  | .balance _ _, _ => True
  | .stockTransaction _, _ => True
  | _, _ => False

theorem movements_of_frame {s s' : Db} (h : Frame (S := schema) OnMovements s s') :
    ∃ balances stockTransactions, s' = { s with balances, stockTransactions } := by
  refine h.induction (I := fun s' => ∃ balances stockTransactions,
    s' = { s with balances, stockTransactions }) ⟨_, _, rfl⟩ ?_
  rintro _ k st r hst ⟨b, x, rfl⟩
  cases k with
  | balance i p => exact ⟨_, _, rfl⟩
  | stockTransaction id => exact ⟨_, _, rfl⟩
  | _ => exact hst.elim

/-- A transfer is stored with its lines. -/
theorem wp_writeTransfer (ht : Tame R E) {env : Env} {n : ℕ} {fromId toId : Uuid}
    {type : TransferType} {items : List (Uuid × ℤ)} {createdById : Uuid}
    {acceptedById orderId : Option Uuid} {reason : Option String} {Q : Unit → Db → Prop}
    (hQ : ∀ t b x, s.stockTransfers.find? (env.uuid n 0) = none →
      s.stockTransfers.Written t (env.uuid n 0)
        (some ⟨fromId, toId, type, .completed, createdById, some (acceptedById.getD createdById),
          orderId, reason, items.filter fun i => 0 < i.2⟩) →
      Q () { s with stockTransfers := t, balances := b, stockTransactions := x }) :
    wp R (createStockTransfer env n fromId toId type items createdById acceptedById orderId reason)
      Q E s := by
  rw [createStockTransfer, wp_bind, wp_ask]
  intro v _
  rw [wp_bind]
  refine wp_issue ht (k := .stockTransfer (env.uuid n 0)) (by exact not_false) fun _ r hr => ?_
  change TransferStmt.exec (.insert _) (s.stockTransfers.find? (env.uuid n 0)) = .ok r at hr
  cases hfresh : s.stockTransfers.find? (env.uuid n 0) with
  | some old =>
    rw [hfresh] at hr
    cases hr
  | none =>
    rw [hfresh] at hr
    obtain ⟨rfl, -⟩ := checked_ok hr
    have hwritten := s.stockTransfers.written_put (env.uuid n 0) (some
      (⟨fromId, toId, type, .completed, createdById, some (acceptedById.getD createdById),
        orderId, reason, []⟩ : StockTransfer))
    rw [wp_bind]
    refine wp_check ht rfl fun _ => ?_
    rw [wp_bind]
    refine wp_check ht rfl fun _ => ?_
    rw [wp_bind]
    refine wp_issue ht (k := .stockTransfer (env.uuid n 0)) (by exact not_false) fun _ r hr => ?_
    change TransferStmt.exec (.addItems _)
      ((s.stockTransfers.put (env.uuid n 0) (some _)).find? (env.uuid n 0)) = .ok r at hr
    rw [hwritten.find?_self] at hr
    obtain ⟨rfl, -⟩ := checked_ok hr
    refine wp_within ht (P := OnMovements) (insertStockTransactions_within (fun _ _ => trivial)
      (fun _ _ _ => trivial) (fun _ => rfl) (fun _ => rfl) _) (fun k st hst => ?_) fun _ s' hframe => ?_
    · cases k <;> first | exact hst.elim | exact not_false
    · obtain ⟨b, x, rfl⟩ := movements_of_frame hframe
      exact hQ _ b x hfresh (hwritten.put _)

/-- The containers of lines are moved in positive quantities. -/
theorem buildReturnableItems_pos (tare : Uuid → Option Uuid) (items : List OrderItem) :
    ∀ x ∈ buildReturnableItems tare items, 0 < x.2 := by
  refine Bag.collect_pos fun x hx => ?_
  obtain ⟨i, -, hi⟩ := List.mem_filterMap.mp hx
  by_cases hpos : 0 < i.quantity
  · rw [if_pos hpos] at hi
    obtain ⟨c, -, rfl⟩ := Option.map_eq_some_iff.mp hi
    exact hpos
  · rw [if_neg hpos] at hi
    cases hi

/-- What is stored of the goods of an order is all of them. -/
theorem handed_items {items : List OrderItem} (hpos : ∀ i ∈ items, 0 < i.quantity)
    {containers : List (Uuid × ℤ)} (hcontainers : ∀ x ∈ containers, 0 < x.2) :
    (movedItems items ++ containers).filter (fun i => 0 < i.2) =
      items.map OrderItem.pair ++ containers := by
  have hlines : movedItems items = items.map OrderItem.pair := by
    rw [movedItems, List.filter_eq_self.mpr fun i hi => decide_eq_true (hpos i hi)]
  rw [hlines, List.filter_eq_self]
  intro x hx
  rcases List.mem_append.mp hx with hx | hx
  · obtain ⟨i, hi, rfl⟩ := List.mem_map.mp hx
    exact decide_eq_true (hpos i hi)
  · exact decide_eq_true (hcontainers x hx)

/-- The transfer of a delivery. -/
theorem handedOver_of_delivery {o : Order} {courierId : Uuid} (id fromId : Uuid)
    (hsale : o.saleType = .delivery) (hcourier : o.courierId = some courierId)
    (tare : Uuid → Option Uuid) :
    HandedOver o ⟨fromId, o.clientInventoryId, .clientDelivery, .completed, courierId,
      some o.clientId, some id, none, o.items.map OrderItem.pair ++ buildReturnableItems tare o.items⟩ := by
  constructor
  case route =>
    rw [hsale]
    exact ⟨rfl, hcourier⟩
  case toId_eq => rfl
  case acceptedById_eq => rfl
  case items_eq =>
    use tare
    rw [containersOf, hsale]

/-- The transfer of a pickup. -/
theorem handedOver_of_pickup {o : Order} {warehouseId : Uuid} (id createdById : Uuid)
    (hsale : o.saleType = .warehousePickup) (hwarehouse : o.warehouseId = some warehouseId)
    (tare : Uuid → Option Uuid) :
    HandedOver o ⟨warehouseId, o.clientInventoryId, .warehouseSale, .completed, createdById,
      some o.clientId, some id, none, o.items.map OrderItem.pair ++ returnableForPickup
        (o.clientId = walkinUserId) o.items (buildReturnableItems tare o.items)⟩ := by
  constructor
  case route =>
    rw [hsale]
    exact ⟨rfl, hwarehouse⟩
  case toId_eq => rfl
  case acceptedById_eq => rfl
  case items_eq =>
    use tare
    rw [containersOf, hsale]

/-- A delivery makes one transfer of the goods. -/
theorem wp_deliverStock (ht : Tame R E) {env : Env} {id courierId : Uuid} {o : Order}
    (hsale : o.saleType = .delivery) (hcourier : o.courierId = some courierId)
    (hpos : ∀ i ∈ o.items, 0 < i.quantity) {Q : Unit → Db → Prop}
    (hQ : ∀ x t b m, HandedOver o x → NewHandover id x s.stockTransfers t →
      Q () { s with stockTransfers := t, balances := b, stockTransactions := m }) :
    wp R (deliverStock env id o courierId) Q E s := by
  rw [deliverStock, wp_bind]
  refine wp_reads ht (getCourierInventory_quiet _) fun row => ?_
  rw [wp_bind]
  refine wp_required ht rfl fun row _ => ?_
  rw [wp_bind]
  refine wp_reads ht (getInventoryWithBalances_within _ _ _) fun inventory => ?_
  rw [wp_bind]
  refine wp_required ht rfl fun inventory _ => ?_
  dsimp only
  rw [wp_bind]
  refine wp_check ht rfl fun _ => ?_
  rw [wp_bind, wp_ask]
  intro v _
  rw [wp_bind]
  refine wp_writeTransfer ht fun t b m hfresh hwritten => ?_
  rw [handed_items hpos (buildReturnableItems_pos _ _)] at hwritten
  have hnew : NewHandover id _ s.stockTransfers t :=
    newHandover_of_written hfresh hwritten (by simp [hands])
  have hover := handedOver_of_delivery id inventory.1.id hsale hcourier fun productId =>
    (v.products.find? productId).bind Product.returnableItemId
  rw [wp_whenever]
  refine ⟨fun _ => ?_, fun _ => hQ _ t b m hover hnew⟩
  refine wp_writeTransfer ht fun t' b' m' hfresh' hwritten' => hQ _ t' b' m' hover ?_
  refine hnew.trans_same (sameHandovers_of_written hfresh' hwritten' fun j => ?_)
  rw [hands]
  simp

/-- An inventory is found under the identifier that was asked for. -/
theorem wp_getInventoryWithBalances (inventoryId : Uuid)
    (type : Option InventoryType) (lock : Bool) {Q : Option (Inventory × (Uuid → ℤ)) → Db → Prop}
    (hQ : ∀ found, (∀ x, found = some x → x.1.id = inventoryId) → Q found s) :
    wp R (getInventoryWithBalances inventoryId type lock) Q E s := by
  have hread : ∀ v w : Db, ∀ x, ((v.directory.inventory? inventoryId).filter fun i =>
      i.isActive && type.all fun t => i.type = t).map (fun i =>
        (i, fun productId => (w.balances.find? (inventoryId, productId)).getD 0)) = some x →
      x.1.id = inventoryId := by
    intro v w x hx
    obtain ⟨i, hi, rfl⟩ := Option.map_eq_some_iff.mp hx
    have hi := (Option.filter_eq_some_iff.mp hi).1
    have hid := List.find?_some hi
    exact of_decide_eq_true hid
  rw [getInventoryWithBalances, wp_bind, wp_whenever]
  have hrest : wp R (do
      let d ← select Db.directory
      let balances ← select Db.balances
      ret (((d.inventory? inventoryId).filter fun i =>
        i.isActive && type.all fun t => i.type = t).map fun i =>
          (i, fun productId => (balances.find? (inventoryId, productId)).getD 0))) Q E s := by
    rw [wp_bind, wp_ask]
    intro v _
    rw [wp_bind, wp_ask]
    exact fun w _ => hQ _ (hread v w)
  refine ⟨fun _ => ?_, fun _ => hrest⟩
  rw [wp_bind, wp_locked]
  exact hrest

/-- A pickup makes one transfer of the goods. -/
theorem wp_pickUpStock (ht : Tame R E) {env : Env} {id warehouseId completedById : Uuid} {o : Order}
    (hsale : o.saleType = .warehousePickup) (hwarehouse : o.warehouseId = some warehouseId)
    (hpos : ∀ i ∈ o.items, 0 < i.quantity) {Q : Unit → Db → Prop}
    (hQ : ∀ x t b m, HandedOver o x → NewHandover id x s.stockTransfers t →
      Q () { s with stockTransfers := t, balances := b, stockTransactions := m }) :
    wp R (pickUpStock env id o warehouseId completedById) Q E s := by
  rw [pickUpStock, wp_bind]
  refine wp_getInventoryWithBalances _ _ _ fun found hfound => ?_
  rw [wp_bind]
  refine wp_required ht rfl fun warehouse hwarehouse' => ?_
  have hid := hfound warehouse hwarehouse'
  obtain ⟨warehouse, balances⟩ := warehouse
  dsimp only at hid ⊢
  subst hid
  rw [wp_bind]
  refine wp_check ht rfl fun _ => ?_
  rw [wp_bind, wp_ask]
  intro v _
  generalize htare : (fun productId =>
    (v.products.find? productId).bind Product.returnableItemId) = tare
  have hover := handedOver_of_pickup id completedById hsale hwarehouse tare
  have hcontainers := buildReturnableItems_pos tare o.items
  generalize buildReturnableItems tare o.items = containers at hover hcontainers
  have hreturnable : ∀ x ∈ returnableForPickup (o.clientId = walkinUserId) o.items containers,
      0 < x.2 := by
    intro x hx
    unfold returnableForPickup at hx
    split at hx
    · exact hcontainers x (List.mem_of_mem_filter hx)
    · exact hcontainers x hx
  generalize returnableForPickup (o.clientId = walkinUserId) o.items containers = returnable
    at hover hreturnable
  -- the sale and the return of containers, once those from the vendor are entered
  have hrest : ∀ t b m, SameHandovers s.stockTransfers t → wp R (do
      createStockTransfer env 3 warehouse.id o.clientInventoryId .warehouseSale
        (movedItems o.items ++ returnable) completedById (some o.clientId) (some id) none
      whenever (returnable ≠ []) <|
        createStockTransfer env 4 o.clientInventoryId warehouse.id .warehouseTaraReturn
          returnable completedById (some completedById) (some id) none) Q E
      { s with stockTransfers := t, balances := b, stockTransactions := m } := by
    intro t b m hsame
    rw [wp_bind]
    refine wp_writeTransfer ht fun t' b' m' hfresh hwritten => ?_
    rw [handed_items hpos hreturnable] at hwritten
    have hnew : NewHandover id _ s.stockTransfers t' :=
      hsame.trans_new (newHandover_of_written hfresh hwritten (by simp [hands]))
    rw [wp_whenever]
    refine ⟨fun _ => ?_, fun _ => hQ _ t' b' m' hover hnew⟩
    refine wp_writeTransfer ht fun t'' b'' m'' hfresh' hwritten' => hQ _ t'' b'' m'' hover ?_
    refine hnew.trans_same (sameHandovers_of_written hfresh' hwritten' fun j => ?_)
    rw [hands]
    simp
  rw [wp_bind, wp_whenever]
  refine ⟨fun _ => ?_, fun _ => hrest _ _ _ fun _ _ => rfl⟩
  rw [wp_bind]
  refine wp_reads ht getVendorInventory_quiet fun vendor => ?_
  refine wp_writeTransfer ht fun t b m hfresh hwritten => hrest t b m ?_
  refine sameHandovers_of_written hfresh hwritten fun j => ?_
  rw [hands]
  simp

end Stock

/-! ## Transactions that hand nothing over -/

/-- No order has been handed over, and nothing has been posted. -/
def Untouched (s s' : Db) : Prop :=
  SameHandovers s.stockTransfers s'.stockTransfers ∧ s'.transactions = s.transactions

section Untouched

variable {R : Regime schema} {s₀ : Db}

/-- Statements on one document after it has been entered. -/
def OnDocument (n : Uuid) : (k : Key) → Stmt k → Prop
  | .stockTransfer id, .addItems _ => id = n
  | .stockTransfer _, _ => False
  | .balance _ _, _ => True
  | .stockTransaction _, _ => True
  | _, _ => False

/-- A document that is for no order is written. -/
theorem keeps_onDocument {α : Type} (hlax : R.Lax) {n : Uuid} {p : Uow α}
    (hp : Within (S := schema) (OnDocument n) (fun _ => True) p) :
    Keeps R (fun s => Untouched s₀ s ∧
      ∃ x, s.stockTransfers.find? n = some x ∧ x.orderId = none) p := by
  refine keeps_within hlax (fun s k st r hst hs hr => ?_) hp
  obtain ⟨⟨hsame, hledger⟩, x, hx, horder⟩ := hs
  cases k with
  | stockTransfer id =>
    cases st with
    | insert row => exact hst.elim
    | addItems items =>
      have hid : id = n := hst
      subst hid
      change TransferStmt.exec (.addItems items) (s.stockTransfers.find? id) = .ok r at hr
      rw [hx] at hr
      obtain ⟨rfl, -⟩ := checked_ok hr
      have hnone : ∀ j (y : StockTransfer), y.orderId = none → hands j y = false := by
        intro j y hy
        rw [hands, hy]
        rfl
      refine ⟨⟨fun j m => ?_, hledger⟩, _, Table.find?_put_self _ _ _, horder⟩
      refine Eq.trans ?_ (hsame j m)
      by_cases hm : m = id
      · subst hm
        change ((s.stockTransfers.put m _).find? m).filter (hands j) =
          (s.stockTransfers.find? m).filter (hands j)
        rw [Table.find?_put_self, hx, Option.filter_some, Option.filter_some, hnone j x horder,
          hnone j _ (by exact horder)]
        rfl
      · exact congrArg (Option.filter (hands j)) (Table.find?_put_ne _ hm _)
  | balance i p => exact ⟨⟨hsame, hledger⟩, x, hx, horder⟩
  | stockTransaction id => exact ⟨⟨hsame, hledger⟩, x, hx, horder⟩
  | _ => exact hst.elim

/-- A document for no order is entered and then written. -/
theorem keeps_document (hlax : R.Lax) {n : Uuid} {row : StockTransfer} {f : Unit → Uow Unit}
    (hrow : row.orderId = none)
    (hf : ∀ u, Within (S := schema) (OnDocument n) (fun _ => True) (f u)) :
    Keeps R (Untouched s₀) (issue (.stockTransfer n) (.insert row) >>= f) := by
  intro s hs
  rw [wp_bind]
  refine wp_execute_of (hlax _ _ _) (fun _ r hr => ?_) fun _ _ => trivial
  change TransferStmt.exec (.insert row) (s.stockTransfers.find? n) = .ok r at hr
  cases hfresh : s.stockTransfers.find? n with
  | some old =>
    rw [hfresh] at hr
    cases hr
  | none =>
    rw [hfresh] at hr
    obtain ⟨rfl, -⟩ := checked_ok hr
    have hsame := sameHandovers_of_written hfresh (s.stockTransfers.written_put n (some row))
      fun j => by rw [hands, hrow]; rfl
    have hentered : Untouched s₀ (schema.put s (.stockTransfer n) (some row)) :=
      ⟨hs.1.trans hsame, hs.2⟩
    refine wp_mono _ (keeps_onDocument hlax (hf ()) _ ⟨hentered, row, ?_, hrow⟩)
      (fun _ _ hs' => hs'.1) fun _ _ => trivial
    exact Table.find?_put_self _ _ _

theorem insertStockTransactions_onDocument (n : Uuid) (rows : List (Uuid × StockTransaction)) :
    Within (S := schema) (OnDocument n) (fun _ => True) (insertStockTransactions rows) :=
  insertStockTransactions_within (fun _ _ => trivial) (fun _ _ _ => trivial) (fun _ => trivial)
    (fun _ => trivial) rows

/-- Neither work elsewhere nor stock that is moved for no order hands anything over. -/
theorem untouched_keeping (hlax : R.Lax) (s₀ : Db) : StockKeeping R (Untouched s₀) := by
  constructor
  case lax => exact hlax
  case elsewhere =>
    intro s k st r hst hs _
    cases k <;> first | exact hst.elim | exact hs
  case transfer =>
    intro env n fromId toId type items createdById acceptedById reason
    refine keeps_bind (keeps_ask _) fun d => keeps_document hlax rfl fun _ => ?_
    refine within_bind ((within_raiseIf _ _).mpr fun _ => trivial) fun _ => ?_
    refine within_bind ((within_raiseIf _ _).mpr fun _ => trivial) fun _ => ?_
    refine within_bind ((within_execute _ _).mpr rfl) fun _ => ?_
    exact insertStockTransactions_onDocument _ _
  case initialBalance =>
    intro env n toId items createdById
    have hquiet : Keeps R (Untouched s₀) getVendorInventory :=
      keeps_within hlax (fun _ _ _ _ hst _ _ => hst.elim) (getVendorInventory_quiet (P := NoStmt))
    refine keeps_bind hquiet fun vendor => keeps_bind (keeps_ask _) fun d => ?_
    refine keeps_document hlax rfl fun _ => ?_
    refine within_bind ((within_raiseIf _ _).mpr fun _ => trivial) fun _ => ?_
    refine within_bind ((within_raiseIf _ _).mpr fun _ => trivial) fun _ => ?_
    refine within_forEach fun x => within_bind ((within_execute _ _).mpr rfl) fun _ => ?_
    refine within_bind (within_ask _) fun product => ?_
    refine within_bind ((within_raiseIf _ _).mpr fun _ => trivial) fun _ => ?_
    exact insertStockTransactions_onDocument _ _

end Untouched

/-! ## What orders go through -/

section Courses

variable {R : Regime schema} {r : Request} {s s' s'' : Db} {id : Uuid}

/-- A step of a settled order keeps it settled and its goods as they are. -/
theorem step_of_settled {o new : Order} (h : OrderStep R r s id (some o) new)
    (ho : isSettled o = true) : isSettled new = true ∧ ∀ x, HandedOver o x → HandedOver new x := by
  obtain ⟨hstatus, hclient, hcourier, -, hsale, -, hitems⟩ := step_of_final h (isFinal_of_isSettled ho)
  have hinventory := h.sameHeader.clientInventoryId_eq
  have hwarehouse : new.warehouseId = o.warehouseId := by cases h <;> rfl
  constructor
  · rw [isSettled, hstatus]
    exact ho
  intro x hx
  constructor
  case route =>
    rw [hsale, hcourier, hwarehouse]
    exact hx.route
  case toId_eq =>
    rw [hinventory]
    exact hx.toId_eq
  case acceptedById_eq =>
    rw [hclient]
    exact hx.acceptedById_eq
  case items_eq =>
    obtain ⟨tare, hx⟩ := hx.items_eq
    refine ⟨tare, ?_⟩
    rw [hitems, containersOf, hsale, hclient, hitems]
    exact hx

/-- What an order goes through while a request runs: it is settled and posted,
or neither. -/
inductive Course (id : Uuid) (s s' : Db) : Prop
  /-- Nothing is posted, and a settled order keeps its goods. -/
  | kept (hposted : (posted id s').length = (posted id s).length)
      (hsettled : (s'.orders.find? id).any isSettled = (s.orders.find? id).any isSettled)
      (hgoods : ∀ o, s.orders.find? id = some o → isSettled o = true →
        ∃ o', s'.orders.find? id = some o' ∧ ∀ x, HandedOver o x → HandedOver o' x)
  /-- The order is settled. -/
  | settled (hposted : (posted id s).length < (posted id s').length)
      (hold : (s.orders.find? id).any isSettled = false)
      (hnew : (s'.orders.find? id).any isSettled = true)

theorem Course.refl (id : Uuid) (s : Db) : Course id s s :=
  .kept rfl rfl fun o ho _ => ⟨o, ho, fun _ hx => hx⟩

theorem Course.trans (h : Course id s s') (h' : Course id s' s'') : Course id s s'' := by
  cases h with
  | kept hposted hsettled hgoods =>
    cases h' with
    | kept hposted' hsettled' hgoods' =>
      refine .kept (hposted'.trans hposted) (hsettled'.trans hsettled) fun o ho hosettled => ?_
      obtain ⟨o', ho', hkept⟩ := hgoods o ho hosettled
      have ho'settled : isSettled o' = true := by
        rw [ho, ho', Option.any_some, Option.any_some, hosettled] at hsettled
        exact hsettled
      obtain ⟨o'', ho'', hkept'⟩ := hgoods' o' ho' ho'settled
      exact ⟨o'', ho'', fun x hx => hkept' x (hkept x hx)⟩
    | settled hposted' hold hnew => exact .settled (by omega) (hsettled ▸ hold) hnew
  | settled hposted hold hnew =>
    cases h' with
    | kept hposted' hsettled' hgoods' => exact .settled (by omega) hold (hsettled'.trans hnew)
    | settled hposted' hold' hnew' =>
      rw [hnew] at hold'
      cases hold'

/-- An order that is left alone. -/
theorem course_of_same (hposted : posted id s' = posted id s)
    (horder : s'.orders.find? id = s.orders.find? id) : Course id s s' := by
  refine .kept (by rw [hposted]) (by rw [horder]) fun o ho _ => ⟨o, ?_, fun _ hx => hx⟩
  rw [horder]
  exact ho

/-- An order that takes a step without a posting. -/
theorem course_of_step {new : Order} (hstep : OrderStep R r s id (s.orders.find? id) new)
    (hnew : s'.orders.find? id = some new) (hposted : posted id s' = posted id s)
    (hnot : ¬ (isSettled new = true ∧ ¬ (s.orders.find? id).any isSettled = true)) :
    Course id s s' := by
  cases hold : (s.orders.find? id).any isSettled with
  | false =>
    have hunsettled : isSettled new = false := by
      rw [Bool.eq_false_iff]
      exact fun h => hnot ⟨h, by rw [hold]; exact Bool.false_ne_true⟩
    refine .kept (by rw [hposted]) ?_ fun o ho hosettled => ?_
    · rw [hnew, hold, Option.any_some, hunsettled]
    · rw [ho, Option.any_some, hosettled] at hold
      cases hold
  | true =>
    obtain ⟨o, ho, hosettled⟩ := (Option.any_eq_true _ _).mp hold
    rw [ho] at hstep
    obtain ⟨hsettled, hkept⟩ := step_of_settled hstep hosettled
    refine .kept (by rw [hposted]) ?_ fun o' ho' _ => ⟨new, hnew, ?_⟩
    · rw [hnew, hold, Option.any_some, hsettled]
    · cases ho.symm.trans ho'
      exact hkept

/-- Every change takes every order along its course. -/
theorem course_of_change (h : Change R r s s') (id : Uuid) : Course id s s' := by
  have hposted : s'.transactions = s.transactions → posted id s' = posted id s := by
    intro hledger
    rw [posted, hledger, posted]
  cases h.kind with
  | order j new rows hstep horders hquota hrows hledger hinvoices =>
    have happended := posted_of_appended hledger id
    by_cases hsettled : isSettled new = true ∧ ¬ (s.orders.find? j).any isSettled = true
    · rw [Postings, if_pos hsettled] at hrows
      obtain ⟨⟨client, revenue, payment, -, -, -, hpostings⟩, hnamed⟩ :=
        settledBy_of_settlement hrows fun hsale => step_courier hstep hsettled.2 hsettled.1 hsale
      by_cases hid : id = j
      · subst hid
        refine .settled ?_ (by simpa using hsettled.2) ?_
        · rw [happended, List.filter_eq_self.mpr fun x hx => decide_eq_true (hnamed x hx),
            hpostings, List.length_append, List.length_cons]
          omega
        · rw [horders.find?_self]
          exact hsettled.1
      · refine course_of_same ?_ (horders.find?_ne hid)
        have hnone : (rows.filter fun x => decide (x.orderId = some id)) = [] := by
          rw [List.filter_eq_nil_iff]
          intro x hx
          rw [hnamed x hx]
          simpa using fun heq : j = id => hid heq.symm
        rw [happended, hnone, List.map_nil, List.append_nil]
    · rw [Postings, if_neg hsettled] at hrows
      subst hrows
      rw [List.filter_nil, List.map_nil, List.append_nil] at happended
      by_cases hid : id = j
      · subst hid
        exact course_of_step hstep horders.find?_self happended hsettled
      · exact course_of_same happended (horders.find?_ne hid)
  | cancelled xs hnodup hstep horders hquota hledger hinvoices =>
    rcases h.order_cases id with hsame | ⟨new, hnew, hnewStep⟩
    · exact course_of_same (hposted hledger) hsame
    · refine course_of_step hnewStep hnew (hposted hledger) fun hboth => ?_
      -- an order of the batch is cancelled, another one stays as it was
      have hlookup := horders id
      rw [hnew] at hlookup
      cases hfound : (xs.map fun x => (x.1, x.2.2)).lookup id with
      | none =>
        rw [hfound, Option.none_or] at hlookup
        rw [← hlookup] at hboth
        exact hboth.2 hboth.1
      | some o =>
        rw [hfound, Option.some_or] at hlookup
        obtain ⟨l₁, l₂, hsplit, -⟩ := List.lookup_eq_some_iff.mp hfound
        have hmem : (id, o) ∈ xs.map fun x => (x.1, x.2.2) :=
          hsplit ▸ List.mem_append_right _ List.mem_cons_self
        obtain ⟨x, hx, heq⟩ := List.mem_map.mp hmem
        cases heq
        have hstatus := (hstep x hx).2.1
        rw [Option.some.inj hlookup, isSettled, hstatus] at hboth
        cases hboth.1
  | priceSet _ _ _ _ _ _ horders hledger => exact course_of_same (hposted hledger) (by rw [horders])
  | priceRemoved _ _ _ _ _ _ _ horders hledger =>
    exact course_of_same (hposted hledger) (by rw [horders])
  | billed _ _ _ _ _ _ _ _ _ _ _ _ horders _ hledger =>
    exact course_of_same (hposted hledger) (by rw [horders])
  | invoiceSet _ _ _ _ _ _ horders _ hledger =>
    exact course_of_same (hposted hledger) (by rw [horders])
  | other horders _ hledger => exact course_of_same (hposted hledger) (by rw [horders])

theorem course_of_changes (h : Changes R r s s') (id : Uuid) : Course id s s' :=
  h.induction (I := fun s' => Course id s s') (.refl id s) fun _ _ hcourse hchange =>
    hcourse.trans (course_of_change hchange id)

end Courses

/-! ## Transactions that hand an order over -/

/-- One order is handed over and settled. -/
structure Handing (id : Uuid) (s s' : Db) : Prop where
  /-- The order was not settled before. -/
  open_before : (s.orders.find? id).any isSettled = false
  /-- The order is settled, and its goods are moved. -/
  handed : ∃ o x, s'.orders.find? id = some o ∧ isSettled o = true ∧ HandedOver o x ∧
    NewHandover id x s.stockTransfers s'.stockTransfers
  /-- Nothing is posted for other orders. -/
  others : ∀ j, j ≠ id → posted j s' = posted j s

/-- What a transaction does to the handovers. -/
inductive Effect (s s' : Db) : Prop
  /-- Nothing is handed over. -/
  | untouched (h : Untouched s s')
  /-- One order is handed over. -/
  | handing (id : Uuid) (h : Handing id s s')

section Programs

variable {R : Regime schema} {E : Err → Prop} {s : Db}

/-- Postings for one order are not seen by another one. -/
theorem posted_of_named {s' : Db} {id j : Uuid} {rows : List FinancialTransaction}
    (h : Appended s.transactions s'.transactions rows) (hnamed : ∀ x ∈ rows, x.orderId = some id)
    (hj : j ≠ id) : posted j s' = posted j s := by
  have hnone : (rows.filter fun x => decide (x.orderId = some j)) = [] := by
    rw [List.filter_eq_nil_iff]
    intro x hx
    rw [hnamed x hx]
    simpa using fun heq : id = j => hj heq.symm
  rw [posted_of_appended h, hnone, List.map_nil, List.append_nil]

/-- A pickup moves the goods of its order and posts its settlement. -/
theorem wp_handPickup (ht : Tame R E) {env : Env} {id u : Uuid} {o : Order}
    (hsale : o.saleType = .warehousePickup) (hpos : ∀ i ∈ o.items, 0 < i.quantity)
    {Q : Unit → Db → Prop}
    (hQ : ∀ x t b m ledger a rows, HandedOver o x → NewHandover id x s.stockTransfers t →
      Appended s.transactions ledger rows → (∀ y ∈ rows, y.orderId = some id) →
      Q () { s with
        stockTransfers := t, balances := b, stockTransactions := m, transactions := ledger
        accountBalances := a }) :
    wp R (handleWarehousePickup env id o u) Q E s := by
  rw [handleWarehousePickup, wp_bind]
  refine wp_required ht rfl fun warehouseId hwarehouse => ?_
  rw [wp_bind]
  refine wp_pickUpStock ht hsale hwarehouse hpos fun x t b m hover hnew => ?_
  refine wp_processPickupSettlement ht env id hsale fun ledger a rows hsettlement happended => ?_
  have hnamed := (settledBy_of_settlement hsettlement fun h => by rw [hsale] at h; cases h).2
  exact hQ x t b m ledger a rows hover hnew happended hnamed

/-- A delivery adjusts its order, moves the goods of the adjusted order and posts
its settlement. -/
theorem wp_handDelivery (ht : Tame R E) {env : Env} {id : Uuid} {o row : Order}
    (hrow : s.orders.find? id = some row) (hitems : row.items = o.items)
    (htotal : row.totalAmount = o.totalAmount) (hnow : row.updatedAt = env.now)
    (hsale : o.saleType = .delivery) (hpos : ∀ i ∈ o.items, 0 < i.quantity)
    (hrel : LinesReleasable R E o s.priceItems) (actual : List OrderItemActual)
    {Q : Unit → Db → Prop}
    (hQ : ∀ orders prices x t b m ledger a items total rows,
      s.orders.Written orders id
        (some { row with items := items, totalAmount := total, updatedAt := env.now }) →
      HandedOver { o with items := items, totalAmount := total } x →
      NewHandover id x s.stockTransfers t → Appended s.transactions ledger rows →
      (∀ y ∈ rows, y.orderId = some id) →
      Q () { s with
        orders := orders, priceItems := prices, stockTransfers := t, balances := b
        stockTransactions := m, transactions := ledger, accountBalances := a }) :
    wp R (handleOrderFulfillment env id o actual) Q E s := by
  rw [handleOrderFulfillment, wp_bind]
  refine wp_required ht rfl fun courierId hcourier => ?_
  -- the goods and the settlement of the adjusted order
  have hrest : ∀ (orders : Table Uuid Order) (prices : Table (Uuid × Uuid) PriceItem)
      (items : List OrderItem) (total : ℤ), (∀ i ∈ items, 0 < i.quantity) →
      s.orders.Written orders id
        (some { row with items := items, totalAmount := total, updatedAt := env.now }) →
      wp R (do
        deliverStock env id { o with items := items, totalAmount := total } courierId
        processFinancialSettlement env id { o with items := items, totalAmount := total }) Q E
        { s with orders := orders, priceItems := prices } := by
    intro orders prices items total hpos hwritten
    have hsale : ({ o with items := items, totalAmount := total } : Order).saleType = .delivery := hsale
    rw [wp_bind]
    refine wp_deliverStock ht hsale hcourier hpos fun x t b m hover hnew => ?_
    refine wp_processFinancialSettlement ht env id hsale fun ledger a rows hsettlement happended => ?_
    have hnamed := (settledBy_of_settlement hsettlement fun _ => by
      change o.courierId.isSome = true
      rw [hcourier, Option.isSome_some]).2
    exact hQ orders prices x t b m ledger a items total rows hwritten hover hnew happended hnamed
  rw [wp_bind]
  split
  · refine hrest s.orders s.priceItems o.items o.totalAmount hpos ?_
    rw [← hitems, ← htotal, ← hnow]
    exact Table.written_self hrow
  · refine wp_adjustOrder ht hrow hitems hpos hrel actual fun orders t hrange hwritten _ => ?_
    rw [adjustedRow, hitems] at hwritten
    refine hrest orders t _ _ (fun i hi => ?_) hwritten
    obtain ⟨line, hline, rfl⟩ := List.mem_map.mp hi
    exact (hrange line hline).1

/-- `update_status` hands the order over if it is delivered. -/
theorem updateStatus_effect (ht : Tame R fun _ => True) (hlax : R.Lax) (hs : OrdersOk s)
    {env : Env} {id : Uuid} {newStatus : OrderStatus} {actual : List OrderItemActual}
    {u : Option Uuid} {reason : Option String} :
    wp R (updateStatus env id newStatus actual u reason) (fun _ s' => Effect s s')
      (fun _ => True) s := by
  rw [updateStatus, wp_bind]
  refine wp_getOrderLocked ht id fun o ho => ?_
  have hok := hs id o ho
  rw [wp_bind]
  refine wp_check ht rfl fun _ => ?_
  rw [wp_bind]
  refine wp_ensureStatusTransitionAllowed ht fun hallowed => ?_
  rw [wp_bind]
  refine wp_updateOrder ht ho ?_
  have hwritten := s.orders.written_put id (some (o.set { status := some newStatus } env.now))
  by_cases hdelivered : o.status ≠ .delivered ∧ newStatus = .delivered
  · obtain ⟨hnot, rfl⟩ := hdelivered
    obtain ⟨hsale, hstatus⟩ := delivered_of_allowed (hallowed.resolve_left fun h => hnot h)
    rw [wp_bind, wp_whenever]
    refine ⟨fun _ => ?_, fun h => absurd ⟨hnot, rfl⟩ h⟩
    have hlines : LinesReleasable R (fun _ => True) o s.priceItems :=
      linesReleasable hs (releasable_of_lax hlax s) ho (by simp [hstatus])
    refine wp_handDelivery ht (s := s.put (.order id) _) (o := { o with status := .delivered })
      hwritten.find?_self rfl rfl rfl hsale hok.quantity_pos hlines actual ?_
    intro orders prices x t b m ledger a items total rows hput hover hnew happended hnamed
    rw [wp_bind, wp_whenever]
    refine ⟨fun h => absurd h.1 (by simp), fun _ => ?_⟩
    rw [wp_bind, wp_whenever]
    refine ⟨fun h => absurd h.1 (by simp), fun _ => ?_⟩
    refine wp_logTransition ht hput.find?_self (.handing id ?_)
    constructor
    case open_before =>
      rw [ho, Option.any_some, isSettled, hstatus]
      decide
    case handed =>
      have hall := (hwritten.trans hput).put (some { o with
        status := .delivered
        items := items
        totalAmount := total
        updatedAt := env.now
        statusLogs := o.statusLogs ++ [⟨some o.status, .delivered, u, reason⟩] })
      exact ⟨_, x, hall.find?_self, rfl, ⟨hover.route, hover.toId_eq, hover.acceptedById_eq,
        hover.items_eq⟩, hnew⟩
    case others => exact fun j hj => posted_of_named happended hnamed hj
  · -- what follows is work on the order and on its quota
    have hkeeping : StockKeeping R (Untouched s) := untouched_keeping hlax s
    have hentered : Untouched s
        (s.put (.order id) (some (o.set { status := some newStatus } env.now))) :=
      ⟨fun _ _ => rfl, rfl⟩
    rw [wp_bind, wp_whenever]
    refine ⟨fun h => absurd h hdelivered, fun _ => ?_⟩
    have hquiet : Keeps R (Untouched s) (do
        whenever (newStatus = .cancelled ∧ o.status ≠ .cancelled ∧ o.contract?.isSome ∧
            o.quantitiesReserved = true ∧ o.status ∉ [OrderStatus.delivered, .pickupCompleted]) <|
          releaseOrderQuantities env id o
        whenever (newStatus = .cancelled ∧ reason.any fun r => r ≠ "") <|
          issue (.order id) (.update { cancellationReason := reason } env.now)
        issue (.order id) (.logTransition ⟨some o.status, newStatus, u, reason⟩)) := by
      refine hkeeping.keeps_elsewhere (within_bind (isElsewhere_whenever ?_) fun _ => ?_)
      · exact releaseOrderQuantities_elsewhere _ _ _
      · refine within_bind (isElsewhere_whenever (isElsewhere_issue trivial)) fun _ => ?_
        exact isElsewhere_issue trivial
    exact wp_mono _ (hquiet _ hentered) (fun _ _ h => .untouched h) fun _ _ => trivial

/-- `cancel_order` cancels. -/
theorem cancelOrder_effect (ht : Tame R fun _ => True) (hlax : R.Lax) (hs : OrdersOk s)
    {env : Env} {id u : Uuid} {reason : Option String} :
    wp R (cancelOrder env id u reason) (fun _ s' => Effect s s') (fun _ => True) s := by
  rw [cancelOrder, wp_bind, wp_ask]
  intro v _
  rw [wp_bind]
  refine wp_required ht rfl fun o _ => ?_
  rw [wp_bind]
  refine wp_check ht rfl fun _ => ?_
  rw [wp_bind]
  exact wp_check ht rfl fun _ => updateStatus_effect ht hlax hs

/-- `complete_pickup` hands the order over. -/
theorem completePickup_effect (ht : Tame R fun _ => True) (hs : OrdersOk s) {env : Env}
    {id u : Uuid} :
    wp R (completePickup env id u) (fun _ s' => Effect s s') (fun _ => True) s := by
  rw [completePickup, wp_bind]
  refine wp_getOrderLocked ht id fun o ho => ?_
  rw [wp_bind]
  refine wp_check ht rfl fun hsale => ?_
  rw [not_not] at hsale
  rw [wp_bind]
  refine wp_check ht rfl fun hstatus => ?_
  rw [not_not] at hstatus
  rw [wp_bind]
  refine wp_updateOrder ht ho ?_
  have hwritten := s.orders.written_put id (some (o.set { status := some .pickupCompleted } env.now))
  rw [wp_bind]
  refine wp_logTransition ht hwritten.find?_self ?_
  refine wp_handPickup ht (o := { o with status := .pickupCompleted }) hsale (hs id o ho).quantity_pos ?_
  intro x t b m ledger a rows hover hnew happended hnamed
  refine .handing id ?_
  constructor
  case open_before =>
    rw [ho, Option.any_some, isSettled, hstatus]
    decide
  case handed =>
    have hall := hwritten.put (some { o with
      status := .pickupCompleted
      updatedAt := env.now
      statusLogs := o.statusLogs ++ [⟨some .new, .pickupCompleted, some u, none⟩] })
    exact ⟨_, x, hall.find?_self, rfl, ⟨hover.route, hover.toId_eq, hover.acceptedById_eq,
      hover.items_eq⟩, hnew⟩
  case others => exact fun j hj => posted_of_named happended hnamed hj

/-- `create_warehouse_sale` hands its order over. -/
theorem createWarehouseSale_effect (ht : Tame R fun _ => True) (hlax : R.Lax) {env : Env}
    {dto : WarehouseSaleCreate} {clientId : Option Uuid} {createdById : Uuid} :
    wp R (createWarehouseSale env dto clientId createdById) (fun _ s' => Effect s s')
      (fun _ => True) s := by
  rw [createWarehouseSale, wp_bind]
  refine wp_check ht rfl fun _ => ?_
  rw [wp_bind]
  refine wp_reads ht (availableProducts_quiet _) fun products => ?_
  rw [wp_bind]
  refine wp_reads ht (getInventoryWithBalances_within _ _ _) fun warehouse => ?_
  rw [wp_bind]
  refine wp_required ht rfl fun _ _ => ?_
  rw [wp_bind]
  refine wp_reads ht (getClientInventory_quiet _) fun found => ?_
  rw [wp_bind]
  refine wp_required ht rfl fun clientInventory _ => ?_
  rw [wp_bind]
  -- the containers that are missing come in before the order is stored
  have hstock : wp R (exchangeTara env clientInventory.id dto.items
        (if decide (clientId.getD walkinUserId = walkinUserId) = true then [] else
          exchangeItems products fun id => dto.items.find? fun i => i.productId = id)
        (dto.capitalizeMissingTara || decide (clientId.getD walkinUserId = walkinUserId)) createdById)
      (fun _ s' => ∃ t b m, s' = { s with
        stockTransfers := t, balances := b, stockTransactions := m }) (fun _ => True) s :=
    wp_stock ht (exchangeTara_quiet _ _ _ _ _ _) fun _ b t m => ⟨t, b, m, rfl⟩
  have huntouched := (untouched_keeping hlax s).exchangeTara env clientInventory.id dto.items
    (if decide (clientId.getD walkinUserId = walkinUserId) = true then [] else
      exchangeItems products fun id => dto.items.find? fun i => i.productId = id)
    (dto.capitalizeMissingTara || decide (clientId.getD walkinUserId = walkinUserId)) createdById s
    ⟨fun _ _ => rfl, rfl⟩
  refine wp_mono _ (wp_and _ hstock huntouched) ?_ fun _ _ => trivial
  rintro capitalized _ ⟨⟨t, b, m, rfl⟩, hsame, -⟩
  rw [wp_bind]
  refine wp_insertOrderWithItems ht rfl fun orders hfresh hlines hwritten => ?_
  rw [wp_bind]
  refine wp_handPickup ht rfl (fun i hi => (hlines i hi).quantity_pos) ?_
  intro x t' b' m' ledger a rows hover hnew happended hnamed
  refine wp_logTransition ht hwritten.find?_self (.handing (env.uuid 0 0) ?_)
  have hfresh : s.orders.find? (env.uuid 0 0) = none := hfresh
  constructor
  case open_before =>
    rw [hfresh]
    rfl
  case handed =>
    exact ⟨_, x, (hwritten.put _).find?_self, rfl, ⟨hover.route, hover.toId_eq,
      hover.acceptedById_eq, hover.items_eq⟩, hsame.trans_new hnew⟩
  case others => exact fun j hj => posted_of_named (s := s) happended hnamed hj

/-- Every request hands one order over or none. -/
theorem program_effect (ht : Tame R fun _ => True) (hlax : R.Lax) (hs : OrdersOk s) (r : Request) :
    wp R (Operations.program r) (fun _ s' => Effect s s') (fun _ => True) s := by
  have hquiet : mayHandOver r.op = false →
      wp R (Operations.program r) (fun _ s' => Effect s s') (fun _ => True) s := by
    intro hr
    have hkept := (untouched_keeping hlax s).operation r hr s ⟨fun _ _ => rfl, rfl⟩
    exact wp_mono _ hkept (fun _ _ h => .untouched h) fun _ he => he
  obtain ⟨env, op⟩ := r
  cases op with
  | createWarehouseSale dto clientId createdById => exact createWarehouseSale_effect ht hlax
  | completePickup id u => exact completePickup_effect ht hs
  | updateStatus id status actual u reason => exact updateStatus_effect ht hlax hs
  | cancelOrder id u reason => exact cancelOrder_effect ht hlax hs
  | _ => exact hquiet rfl

end Programs

/-! ## The invariant -/

section Invariant

variable {R : Regime schema} {r : Request} {s s' : Db}

/-- Where nothing is handed over, settled orders stay settled and no others are. -/
theorem HandedOnce.untouched (h : HandedOnce s) (htouch : Untouched s s')
    (hcourse : ∀ id, Course id s s') : HandedOnce s' := by
  have hkept : ∀ id, (s'.orders.find? id).any isSettled = (s.orders.find? id).any isSettled ∧
      ∀ o, s.orders.find? id = some o → isSettled o = true →
        ∃ o', s'.orders.find? id = some o' ∧ ∀ x, HandedOver o x → HandedOver o' x := by
    intro id
    cases hcourse id with
    | kept hposted hsettled hgoods => exact ⟨hsettled, hgoods⟩
    | settled hposted hold hnew =>
      rw [posted, posted, htouch.2] at hposted
      omega
  constructor
  · intro id o' ho' hsettled'
    obtain ⟨hsettled, hgoods⟩ := hkept id
    rw [ho', Option.any_some, hsettled', eq_comm] at hsettled
    obtain ⟨o, ho, hosettled⟩ := (Option.any_eq_true _ _).mp hsettled
    obtain ⟨n, x, hover, honly⟩ := h.settled id o ho hosettled
    obtain ⟨o'', ho'', hgoods⟩ := hgoods o ho hosettled
    cases ho'.symm.trans ho''
    exact ⟨n, x, hgoods x hover, fun m => (htouch.1 id m).trans (honly m)⟩
  · intro id hid m
    rw [(hkept id).1] at hid
    exact (htouch.1 id m).trans (h.unsettled id hid m)

/-- The order that is handed over has its transfer, and the others keep theirs. -/
theorem HandedOnce.handing (h : HandedOnce s) {id : Uuid} (hhanding : Handing id s s')
    (hcourse : ∀ j, Course j s s') : HandedOnce s' := by
  obtain ⟨o, x, ho, hosettled, hover, n, hnone, hnew⟩ := hhanding.handed
  have hopen : ¬ (s.orders.find? id).any isSettled = true := by
    rw [hhanding.open_before]
    exact Bool.false_ne_true
  have hother : ∀ j, j ≠ id → ∀ m, handover j s'.stockTransfers m = handover j s.stockTransfers m := by
    intro j hj m
    rw [hnew j m, if_neg fun heq => hj heq.1]
  have hkept : ∀ j, j ≠ id →
      (s'.orders.find? j).any isSettled = (s.orders.find? j).any isSettled ∧
      ∀ o, s.orders.find? j = some o → isSettled o = true →
        ∃ o', s'.orders.find? j = some o' ∧ ∀ x, HandedOver o x → HandedOver o' x := by
    intro j hj
    cases hcourse j with
    | kept hposted hsettled hgoods => exact ⟨hsettled, hgoods⟩
    | settled hposted hold hnew =>
      rw [hhanding.others j hj] at hposted
      omega
  constructor
  · intro j o' ho' hsettled'
    by_cases hj : j = id
    · subst hj
      cases ho.symm.trans ho'
      refine ⟨n, x, hover, fun m => ?_⟩
      rw [hnew j m, h.unsettled j hopen m]
      simp only [true_and]
    · obtain ⟨hsettled, hgoods⟩ := hkept j hj
      rw [ho', Option.any_some, hsettled', eq_comm] at hsettled
      obtain ⟨o, ho, hosettled⟩ := (Option.any_eq_true _ _).mp hsettled
      obtain ⟨k, y, hover, honly⟩ := h.settled j o ho hosettled
      obtain ⟨o'', ho'', hgoods⟩ := hgoods o ho hosettled
      cases ho'.symm.trans ho''
      exact ⟨k, y, hgoods y hover, fun m => (hother j hj m).trans (honly m)⟩
  · intro j hj m
    have hne : j ≠ id := by
      rintro rfl
      rw [ho] at hj
      exact hj hosettled
    rw [(hkept j hne).1] at hj
    rw [hother j hne m]
    exact h.unsettled j hj m

/-- What the orders and the transfers keep to. -/
def Handed (s : Db) : Prop := OrdersOk s ∧ HandedOnce s

theorem handed_of_same (h : Handed s) (horders : s'.orders = s.orders)
    (htransfers : s'.stockTransfers = s.stockTransfers) : Handed s' := by
  refine ⟨fun id o ho => h.1 id o (horders ▸ ho), fun id o ho hsettled => ?_, fun id hid => ?_⟩
  · rw [htransfers]
    exact h.2.settled id o (horders ▸ ho) hsettled
  · rw [htransfers]
    exact h.2.unsettled id (horders ▸ hid)

/-- Every transaction hands its orders over once. -/
theorem handed_work (hs : Handed s) (op : Work) :
    wp Regime.concurrent op.program (fun _ s' => Handed s') (fun _ => True) s := by
  have ht : Tame Regime.concurrent fun _ => True := Tame.concurrentAssuming _
  have hlax : Regime.Lax (S := schema) Regime.concurrent := Regime.concurrentAssuming_lax _
  have haway : ∀ {p : Uow Unit}, Within (S := schema) Unrouted (fun _ => True) p →
      Keeps Regime.concurrent Handed p := by
    intro p hp
    refine keeps_within hlax (fun s k st r hst hs _ => ?_) hp
    cases k <;> first | exact hst.elim | exact handed_of_same hs rfl rfl
  cases op with
  | service r =>
    cases r with
    | operation r =>
      have hchanges := program_changes (r := r) ht hs.1 fun s₁ _ => releasable_of_lax hlax s₁
      have heffect := program_effect ht hlax hs.1 r
      refine wp_mono _ (wp_and _ hchanges heffect) ?_ fun _ _ => trivial
      rintro _ s' ⟨hchanges, heffect⟩
      refine ⟨hchanges.ordersOk hs.1, ?_⟩
      cases heffect with
      | untouched h => exact hs.2.untouched h (course_of_changes hchanges)
      | handing id h => exact hs.2.handing h (course_of_changes hchanges)
    | stock env op =>
      have hstock : wp Regime.concurrent (op.program env)
          (fun _ s' => s'.orders = s.orders) (fun _ => True) s :=
        wp_stock ht (StockEffects.stockProgram_quiet env op) fun _ _ _ _ => rfl
      have hkept := (untouched_keeping hlax s).stock env op s ⟨fun _ _ => rfl, rfl⟩
      refine wp_mono _ (wp_and _ hstock hkept) ?_ fun _ _ => trivial
      rintro _ s' ⟨horders, hsame, hledger⟩
      refine ⟨fun id o ho => hs.1 id o (horders ▸ ho), hs.2.untouched ⟨hsame, hledger⟩ fun id => ?_⟩
      exact course_of_same (by rw [posted, hledger, posted]) (by rw [horders])
  | payment env op =>
    refine haway ((payment_onAccounts env op).mono (fun k st hst => ?_) fun _ _ => trivial) s hs
    cases k <;> first | exact hst.elim | trivial
  | hardDelete productId =>
    refine haway ((hardDelete_onCatalog productId).mono (fun k st hst => ?_) fun _ _ => trivial) s hs
    cases k <;> first | exact hst.elim | trivial

/-- No command hands an order over. -/
theorem handed_registering : Registering Handed := by
  have hsame : ∀ {s s' : Db}, s'.orders = s.orders → s'.stockTransfers = s.stockTransfers →
      Handed s → Handed s' := fun horders htransfers h => handed_of_same h horders htransfers
  have huser : ∀ s id u, Handed s → Handed { s with users := s.users.put id (some u) } :=
    fun s id u => hsame rfl rfl
  have haccount : ∀ s a, s.directory.account? a.id = none → Handed s → Handed (openAccount a s) :=
    fun s a _ => hsame rfl rfl
  have hinventory : ∀ s i, s.directory.inventory? i.id = none → Handed s →
      Handed (WarehouseNames.withInventories (s.directory.inventories ++ [i]) s) :=
    fun s i _ => hsame rfl rfl
  have hlax : Regime.Lax (S := schema) Regime.serial := Regime.serial_lax
  constructor
  case user => exact huser
  case account => exact haccount
  case inventory => exact hinventory
  case rewrite => exact fun s g _ => hsame rfl rfl
  case delete => exact fun s id i _ _ _ _ => hsame rfl rfl
  case client =>
    refine client_of huser haccount hinventory (fun env data creatorId s hs => ?_)
      fun env data s hs => ?_
    · have horders : wp Regime.serial (ClientService.firstMovements env data creatorId)
          (fun _ s' => FirstOrdered env data s.orders s'.orders) (fun _ => True) s :=
        wp_firstMovements Tame.serial env data creatorId fun _ _ _ _ hordered => hordered
      have hkept := (untouched_keeping hlax s).firstMovements env data creatorId s
        ⟨fun _ _ => rfl, rfl⟩
      refine wp_mono _ (wp_and _ horders hkept) ?_ fun _ _ => trivial
      rintro _ s' ⟨hordered, hsame, hledger⟩
      have hposted : ∀ id, posted id s' = posted id s := fun id => by rw [posted, hledger, posted]
      cases hordered with
      | none _ horders =>
        refine ⟨fun id o ho => hs.1 id o (horders ▸ ho), hs.2.untouched ⟨hsame, hledger⟩ fun id => ?_⟩
        exact course_of_same (hposted id) (by rw [horders])
      | some order o _ hfresh ho horders =>
        constructor
        · intro id o' ho'
          by_cases hid : id = env.uuid 2 0
          · subst hid
            cases horders.find?_self.symm.trans ho'
            exact ho.orderOk
          · exact hs.1 id o' (horders.find?_ne hid ▸ ho')
        · refine hs.2.untouched ⟨hsame, hledger⟩ fun id => ?_
          by_cases hid : id = env.uuid 2 0
          · -- a first order is not settled
            subst hid
            refine .kept (by rw [hposted]) ?_ fun o' ho' => ?_
            · rw [horders.find?_self, hfresh, Option.any_some, isSettled, ho.status_eq]
              rfl
            · rw [hfresh] at ho'
              cases ho'
          · exact course_of_same (hposted id) (horders.find?_ne hid)
    · have horders : wp Regime.serial (ClientService.startingTare env data)
          (fun _ s' => s'.orders = s.orders) (fun _ => True) s :=
        wp_stock Tame.serial (startingTare_quiet env data) fun _ _ _ _ => rfl
      have hkept := (untouched_keeping hlax s).startingTare env data s ⟨fun _ _ => rfl, rfl⟩
      refine wp_mono _ (wp_and _ horders hkept) ?_ fun _ _ => trivial
      rintro _ s' ⟨horders, hsame, hledger⟩
      refine ⟨fun id o ho => hs.1 id o (horders ▸ ho), hs.2.untouched ⟨hsame, hledger⟩ fun id => ?_⟩
      exact course_of_same (by rw [posted, hledger, posted]) (by rw [horders])

end Invariant

/-! ## Runs -/

section Runs

variable {ilike : String → String → Bool} {scan : List Inventory → List Inventory}
  {w : World schema Work SignIns}

end Runs

end Munavvar.Handovers
