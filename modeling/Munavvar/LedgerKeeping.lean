import Munavvar.Company
import Munavvar.Invariance
import Munavvar.PaymentDesk
import Munavvar.StockEffects

/-!
# What the services do to the ledgers

A transaction of any service changes the two ledgers in few places: it makes a
transfer, it enters containers from the vendor, it settles an order, or it works
at the payment desk. Whatever these places keep, and the writes of orders,
contracts, price lists, invoices and products keep, every service keeps.
-/

namespace Munavvar.LedgerKeeping

open Munavvar.Transaction
open Munavvar.Transaction.Prog
open Munavvar.Invariance
open Munavvar.Database
open Munavvar.StockLedger
open Munavvar.FinancialLedger
open Munavvar.OrderQueries
open Munavvar.Quota
open Munavvar.Fulfillment
open Munavvar.OrderService
open Munavvar.ContractService
open Munavvar.StockService
open Munavvar.ClientService
open Munavvar.PaymentDesk
open Munavvar.OrderEffects
open Munavvar.StockEffects
open Munavvar.Footprints

/-! ## Parts that are away from the ledgers -/

/-- Statements on orders, contracts, price lists, invoices and products. -/
def Elsewhere : (k : Key) → Stmt k → Prop
  | .order _, _ => True
  | .contract _, _ => True
  | .priceItem _ _, _ => True
  | .invoice _, _ => True
  | .product _, _ => True
  | _, _ => False

/-- A part that leaves the ledgers alone. -/
abbrev IsElsewhere {α : Type} (p : Uow α) : Prop := Within (S := schema) Elsewhere (fun _ => True) p

/-- A part that only reads and locks. -/
theorem isElsewhere_of_quiet {α : Type} {p : Uow α} (h : Quiet Elsewhere p) : IsElsewhere p :=
  h.mono (fun _ _ hst => hst) fun _ _ => trivial

section Parts

variable {α β : Type}

theorem isElsewhere_raiseIf (c : Prop) [Decidable c] (e : Err) :
    IsElsewhere (raiseIf (S := schema) c e) := (within_raiseIf _ _).mpr fun _ => trivial

theorem isElsewhere_orRaise (o : Option α) (e : Err) : IsElsewhere (orRaise (S := schema) o e) :=
  (within_orRaise _ _).mpr fun _ => trivial

theorem isElsewhere_issue {k : Key} {st : Stmt k} (h : Elsewhere k st) : IsElsewhere (issue k st) :=
  (within_execute _ _).mpr h

theorem isElsewhere_whenSome {o : Option α} {f : α → Uow Unit} (h : ∀ a, IsElsewhere (f a)) :
    IsElsewhere (whenSome o f) := (within_whenSome _ _).mpr fun a _ => h a

theorem isElsewhere_whenever {c : Prop} [Decidable c] {p : Uow Unit} (h : IsElsewhere p) :
    IsElsewhere (whenever (S := schema) c p) := (within_whenever _ _).mpr fun _ => h

theorem scalarOneOrNone_elsewhere (l : List α) : IsElsewhere (scalarOneOrNone l) :=
  isElsewhere_of_quiet (scalarOneOrNone_quiet l)

theorem incrementQuantitiesUsed_elsewhere (c : Uuid) (items : List (Uuid × Uuid × ℤ)) :
    IsElsewhere (incrementQuantitiesUsed c items) :=
  incrementQuantitiesUsed_within (fun _ _ _ => trivial) (fun _ _ => trivial) (fun _ => trivial)
    items

theorem decrementQuantitiesUsed_elsewhere (c : Uuid) (qs : List (Uuid × ℤ)) :
    IsElsewhere (decrementQuantitiesUsed c qs) :=
  decrementQuantitiesUsed_within (fun _ _ => trivial) (fun _ _ => trivial) (fun _ => trivial) qs

theorem getOrderLocked_elsewhere (id : Uuid) : IsElsewhere (getOrderLocked id) :=
  within_bind (within_locked _) fun _ => isElsewhere_orRaise _ _

theorem ensureEditable_elsewhere (id : Uuid) (o : Order) (u : Option Uuid) :
    IsElsewhere (ensureEditable id o u) :=
  within_bind (isElsewhere_raiseIf _ _) fun _ => isElsewhere_raiseIf _ _

theorem releaseOrderQuantities_elsewhere (env : Env) (id : Uuid) (o : Order) :
    IsElsewhere (releaseOrderQuantities env id o) :=
  within_bind (isElsewhere_whenSome fun _ => decrementQuantitiesUsed_elsewhere _ _) fun _ =>
    isElsewhere_issue trivial

theorem linePrice_elsewhere (o : Order) (joined : Option Contract) (product : Product) (p : Uuid)
    (q : ℤ) : IsElsewhere (linePrice o joined product p q) := by
  unfold linePrice
  split
  · refine within_bind (within_locked _) fun row => ?_
    refine within_bind (isElsewhere_orRaise _ _) fun contract => ?_
    refine within_bind (isElsewhere_raiseIf _ _) fun _ => ?_
    refine within_bind (getForProductsLocked_within _ _) fun items => ?_
    refine within_bind (isElsewhere_orRaise _ _) fun item => ?_
    refine within_bind (isElsewhere_raiseIf _ _) fun _ => ?_
    exact within_bind (incrementQuantitiesUsed_elsewhere _ _) fun _ => within_ret _
  · exact within_ret _

theorem insertOrder_elsewhere (id : Uuid) (o : Order) (items : List OrderItem) :
    IsElsewhere (insertOrder id o items) := by
  refine within_bind (isElsewhere_issue trivial) fun _ => within_bind (within_ask _) fun d => ?_
  exact within_bind (isElsewhere_raiseIf _ _) fun _ => isElsewhere_issue trivial

theorem adjustOrder_elsewhere (env : Env) (id : Uuid) (o : Order) (actual : List OrderItemActual) :
    IsElsewhere (adjustOrder env id o actual) := by
  refine within_bind (adjustLines_within (fun _ _ => trivial) (fun _ _ _ => trivial) _ _) fun _ => ?_
  refine within_bind (isElsewhere_whenSome fun c => decrementQuantitiesUsed_elsewhere _ _) fun _ => ?_
  exact within_bind (isElsewhere_issue trivial) fun _ => within_ret _

theorem cancelLocked_elsewhere (env : Env) (reason : String) (u : Option Uuid) (x : Uuid × Order) :
    IsElsewhere (cancelLocked env reason u x) := by
  refine within_bind (isElsewhere_issue trivial) fun _ => ?_
  refine within_bind (isElsewhere_whenever (releaseOrderQuantities_elsewhere _ _ _)) fun _ => ?_
  exact within_bind (isElsewhere_issue trivial) fun _ => isElsewhere_issue trivial

theorem cancelInflightOrders_elsewhere (env : Env) (c : Uuid) (reason : String) :
    IsElsewhere (cancelInflightOrders env c reason) :=
  cancelInflightOrders_within (fun _ _ _ => trivial) (fun _ _ => trivial) (fun _ _ => trivial)
    (fun _ _ => trivial) (fun _ => trivial) env reason

theorem getContractLocked_elsewhere (c : Uuid) : IsElsewhere (getContractLocked c) :=
  within_bind (within_locked _) fun _ => isElsewhere_orRaise _ _

theorem updateContract_elsewhere (c : Uuid) (data : ContractUpdate) :
    IsElsewhere (updateContract c data) :=
  within_bind (within_locked _) fun _ => within_bind (isElsewhere_issue trivial) fun _ =>
    isElsewhere_raiseIf _ _

theorem ensureNoOtherActive_elsewhere (id : Uuid) (c : Contract) :
    IsElsewhere (ensureNoOtherActive id c) :=
  within_bind (getActiveForClientLocked_within (by trivial) _) fun _ =>
    isElsewhere_whenSome fun _ => isElsewhere_raiseIf _ _

/-- A change of a contract's status that cancels its open orders. -/
theorem stopContract_elsewhere (env : Env) (c : Uuid) (data : ContractUpdate) (reason : String)
    (entry : ContractStatusLog) : IsElsewhere (do
      updateContract c data
      cancelInflightOrders env c reason
      issue (.contract c) (.log entry)) := by
  refine within_bind (updateContract_elsewhere _ _) fun _ => ?_
  exact within_bind (cancelInflightOrders_elsewhere _ _ _) fun _ => isElsewhere_issue trivial

theorem changeInvoice_elsewhere (c id : Uuid) (expected : List InvoiceStatus)
    (data : InvoiceUpdate) : IsElsewhere (changeInvoice c id expected data) := by
  refine within_bind (within_ask _) fun invoice => ?_
  refine within_bind (isElsewhere_orRaise _ _) fun invoice => ?_
  refine within_bind (isElsewhere_raiseIf _ _) fun _ => within_bind (within_locked _) fun row => ?_
  exact within_bind (isElsewhere_issue trivial) fun _ => isElsewhere_raiseIf _ _

end Parts

/-! ## What is kept -/

/-- What is kept by the writes elsewhere, by transfers that are for no order and
by the entry of containers. -/
structure StockKeeping (R : Regime schema) (I : Db → Prop) : Prop where
  /-- Statements are not looked at. -/
  lax : R.Lax
  /-- Writes elsewhere. -/
  elsewhere : ∀ s k st r, Elsewhere k st → I s → schema.exec k st (schema.get s k) = .ok r →
    I (schema.put s k r)
  /-- Transfers for no order. -/
  transfer : ∀ env n fromId toId type items createdById acceptedById reason, Keeps R I
    (createStockTransfer env n fromId toId type items createdById acceptedById none reason)
  /-- Containers from the vendor. -/
  initialBalance : ∀ env n toId items createdById,
    Keeps R I (enterInitialBalance env n toId items createdById)

/-- What every service keeps: it is kept by the writes elsewhere and at the
places where a service changes the ledgers. -/
structure Bookkeeping (R : Regime schema) (I : Db → Prop) : Prop extends StockKeeping R I where
  /-- Transfers for an order. -/
  orderTransfer : ∀ env n fromId toId type items createdById acceptedById orderId reason, Keeps R I
    (createStockTransfer env n fromId toId type items createdById acceptedById (some orderId) reason)
  /-- The settlement of a delivery. -/
  delivery : ∀ env id o, Keeps R I (processFinancialSettlement env id o)
  /-- The settlement of a pickup. -/
  pickup : ∀ env id o, Keeps R I (processPickupSettlement env id o)
  /-- The payment desk. -/
  payment : ∀ env op, Keeps R I (PaymentOperation.program env op)

/-- Operations that may hand an order over. -/
def mayHandOver : Operations.Operation → Bool
  | .createWarehouseSale _ _ _ => true
  | .completePickup _ _ => true
  | .updateStatus _ _ _ _ _ => true
  | .cancelOrder _ _ _ => true
  | _ => false

namespace StockKeeping

variable {R : Regime schema} {I : Db → Prop} (h : StockKeeping R I)

include h

theorem keeps_elsewhere {α : Type} {p : Uow α} (hp : IsElsewhere p) : Keeps R I p :=
  keeps_within h.lax h.elsewhere hp

theorem keeps_quiet {α : Type} {p : Uow α} (hp : Quiet Elsewhere p) : Keeps R I p :=
  h.keeps_elsewhere (isElsewhere_of_quiet hp)

/-! ### Orders -/

theorem exchangeTara (env : Env) (inventoryId : Uuid) (items : List Item)
    (exchange : List ExchangeItem) (capitalize : Bool) (createdById : Uuid) :
    Keeps R I (OrderService.exchangeTara env inventoryId items exchange capitalize createdById) := by
  unfold OrderService.exchangeTara
  split
  · exact keeps_ret _
  · refine keeps_bind (h.keeps_elsewhere (getInventoryWithBalances_within _ _ _)) fun inventory => ?_
    refine keeps_bind (keeps_orRaise _ _) fun x => keeps_bind (keeps_raiseIf _ _) fun _ => ?_
    refine keeps_bind (keeps_whenever _ fun _ => ?_) fun _ => keeps_ret _
    exact keeps_bind (h.keeps_quiet getVendorInventory_quiet) fun vendor => h.transfer _ _ _ _ _ _ _ _ _

theorem createOrder (env : Env) (clientId : Uuid) (dto : OrderCreate) :
    Keeps R I (OrderService.createOrder env clientId dto) := by
  refine keeps_bind (keeps_raiseIf _ _) fun _ => keeps_bind (keeps_raiseIf _ _) fun _ => ?_
  refine keeps_bind (h.keeps_quiet (availableProducts_quiet _)) fun products => ?_
  refine keeps_bind (h.keeps_quiet (getClient_quiet _)) fun client => ?_
  refine keeps_bind (h.keeps_elsewhere ?_) fun terms => ?_
  · exact (contractTerms_within _ _ _ _ _).mono (fun _ _ hst => hst) fun _ _ => trivial
  refine keeps_bind (keeps_whenSome _ fun t _ => h.keeps_elsewhere ?_) fun _ => ?_
  · exact checkAndReserveQuantities_within (fun _ _ _ => trivial) (fun _ _ _ _ => trivial)
      (fun _ _ => trivial) (fun _ => trivial) _ _
  refine keeps_bind (h.exchangeTara _ _ _ _ _ _) fun applied => h.keeps_elsewhere ?_
  exact within_bind (insertOrder_elsewhere _ _ _) fun _ => isElsewhere_issue trivial

/-- The operations that hand over no order. -/
theorem operation (r : Operations.Request) (hr : mayHandOver r.op = false) :
    Keeps R I (Operations.program r) := by
  obtain ⟨env, op⟩ := r
  cases op with
  | createOrder clientId dto => exact h.createOrder _ _ _
  | createWarehouseSale dto clientId createdById => cases hr
  | completePickup id u => cases hr
  | updateStatus id status actual u reason => cases hr
  | cancelOrder id u reason => cases hr
  | addProductToOrder id p q u =>
    refine h.keeps_elsewhere (within_bind (isElsewhere_raiseIf _ _) fun _ => ?_)
    refine within_bind (within_ask _) fun products => ?_
    refine within_bind (isElsewhere_orRaise _ _) fun product => ?_
    refine within_bind (within_ask _) fun joined => ?_
    refine within_bind (getOrderLocked_elsewhere _) fun o => ?_
    refine within_bind (ensureEditable_elsewhere _ _ _) fun _ => ?_
    refine within_bind (scalarOneOrNone_elsewhere _) fun item => ?_
    refine within_bind (linePrice_elsewhere _ _ _ _ _) fun price => within_bind ?_ fun _ => ?_
    · unfold addLine
      split <;> exact isElsewhere_issue trivial
    · exact isElsewhere_issue trivial
  | removeProductFromOrder id p u =>
    refine h.keeps_elsewhere (within_bind (getOrderLocked_elsewhere _) fun o => ?_)
    refine within_bind (ensureEditable_elsewhere _ _ _) fun _ => ?_
    refine within_bind (scalarOneOrNone_elsewhere _) fun item => isElsewhere_whenSome fun x => ?_
    refine within_bind (isElsewhere_raiseIf _ _) fun _ => ?_
    refine within_bind (isElsewhere_issue trivial) fun _ => within_bind ?_ fun _ => ?_
    · exact isElsewhere_whenever (isElsewhere_whenSome fun c => decrementQuantitiesUsed_elsewhere _ _)
    · exact isElsewhere_issue trivial
  | assignCourier id courierId =>
    refine h.keeps_elsewhere (within_bind (getOrderLocked_elsewhere _) fun o => ?_)
    refine within_bind (isElsewhere_raiseIf _ _) fun _ => ?_
    refine within_bind (isElsewhere_raiseIf _ _) fun _ => ?_
    refine within_bind (isElsewhere_of_quiet (getCourier_quiet _)) fun courier => ?_
    refine within_bind (isElsewhere_raiseIf _ _) fun _ => ?_
    refine within_bind (isElsewhere_of_quiet (getCourierInventory_quiet _)) fun inventory => ?_
    refine within_bind (isElsewhere_raiseIf _ _) fun _ => ?_
    exact within_bind (isElsewhere_issue trivial) fun _ => isElsewhere_issue trivial
  | expireStaleOrders maxAge assignedMaxAge adminId =>
    refine h.keeps_elsewhere (within_bind (lockMatching_within _ _) fun stale => ?_)
    refine within_bind (within_forEach fun x => cancelLocked_elsewhere _ _ _ _) fun _ => ?_
    refine within_bind (lockMatching_within _ _) fun stale => ?_
    exact within_forEach fun x => cancelLocked_elsewhere _ _ _ _
  | createContract clientId dto =>
    refine h.keeps_elsewhere (within_bind ?_ fun existing => ?_)
    · exact within_bind (within_ask _) fun _ => scalarOneOrNone_elsewhere _
    · exact within_bind (isElsewhere_whenSome fun _ => trivial) fun _ => isElsewhere_issue trivial
  | activateContract c u =>
    refine h.keeps_elsewhere (within_bind (getContractLocked_elsewhere _) fun contract => ?_)
    refine within_bind (isElsewhere_raiseIf _ _) fun _ => ?_
    refine within_bind (ensureNoOtherActive_elsewhere _ _) fun _ => ?_
    exact within_bind (updateContract_elsewhere _ _) fun _ => isElsewhere_issue trivial
  | suspendContract c reason u =>
    refine h.keeps_elsewhere (within_bind (getContractLocked_elsewhere _) fun contract => ?_)
    exact within_bind (isElsewhere_raiseIf _ _) fun _ => stopContract_elsewhere _ _ _ _ _
  | reinstateContract c u =>
    refine h.keeps_elsewhere (within_bind (getContractLocked_elsewhere _) fun contract => ?_)
    refine within_bind (isElsewhere_raiseIf _ _) fun _ => ?_
    refine within_bind (ensureNoOtherActive_elsewhere _ _) fun _ => ?_
    exact within_bind (updateContract_elsewhere _ _) fun _ => isElsewhere_issue trivial
  | terminateContract c reason u =>
    refine h.keeps_elsewhere (within_bind (getContractLocked_elsewhere _) fun contract => ?_)
    exact within_bind (isElsewhere_raiseIf _ _) fun _ => stopContract_elsewhere _ _ _ _ _
  | runExpireJob =>
    refine h.keeps_elsewhere (within_bind (within_ask _) fun candidates => ?_)
    refine within_forEach fun id => within_bind (cancelInflightOrders_elsewhere _ _ _) fun _ => ?_
    exact within_bind (updateContract_elsewhere _ _) fun _ => isElsewhere_issue trivial
  | setPriceItem c p price q =>
    refine h.keeps_elsewhere (within_bind (within_ask _) fun existing => ?_)
    cases existing with
    | some existing =>
      refine within_bind (isElsewhere_raiseIf _ _) fun _ => within_bind (within_locked _) fun row => ?_
      exact within_bind (isElsewhere_issue trivial) fun _ => isElsewhere_raiseIf _ _
    | none =>
      refine within_bind (isElsewhere_issue trivial) fun _ => within_bind (within_ask _) fun _ => ?_
      refine within_bind (within_ask _) fun _ => within_bind (isElsewhere_raiseIf _ _) fun _ => ?_
      exact isElsewhere_raiseIf _ _
  | removePriceItem c p =>
    refine h.keeps_elsewhere (within_bind (within_ask _) fun item => ?_)
    refine within_bind (isElsewhere_orRaise _ _) fun item => ?_
    exact within_bind (isElsewhere_raiseIf _ _) fun _ => isElsewhere_issue trivial
  | generateInvoice c periodFrom periodTo =>
    refine h.keeps_elsewhere (within_bind (getContractLocked_elsewhere _) fun contract => ?_)
    refine within_bind (within_bind (within_ask _) fun _ => scalarOneOrNone_elsewhere _) fun _ => ?_
    refine within_bind (isElsewhere_raiseIf _ _) fun _ => within_bind (within_ask _) fun orders => ?_
    refine within_bind (within_ask _) fun existing => within_bind (within_ask _) fun taken => ?_
    exact within_bind (isElsewhere_issue trivial) fun _ => isElsewhere_raiseIf _ _
  | issueInvoice c id => exact h.keeps_elsewhere (changeInvoice_elsewhere _ _ _ _)
  | markInvoicePaid c id => exact h.keeps_elsewhere (changeInvoice_elsewhere _ _ _ _)
  | cancelInvoice c id => exact h.keeps_elsewhere (changeInvoice_elsewhere _ _ _ _)
  | runOverdueJob =>
    refine h.keeps_elsewhere (within_bind (within_ask _) fun _ => within_forEach fun id => ?_)
    refine within_bind (within_locked _) fun row => within_bind (isElsewhere_issue trivial) fun _ => ?_
    exact isElsewhere_raiseIf _ _
  | updateProduct id product => exact h.keeps_elsewhere (isElsewhere_issue trivial)

/-- The operations of the stock service. -/
theorem stock (env : Env) (op : StockOperation) : Keeps R I (op.program env) := by
  cases op with
  | createTransfer createdById dto callerScopes =>
    refine keeps_bind (keeps_raiseIf _ _) fun _ => keeps_bind (keeps_ask _) fun products => ?_
    refine keeps_bind (keeps_raiseIf _ _) fun _ => ?_
    refine keeps_bind (h.keeps_quiet (endpoint_quiet _ _ _ _)) fun fromId => ?_
    refine keeps_bind (h.keeps_quiet (endpoint_quiet _ _ _ _)) fun toId => ?_
    refine keeps_bind (keeps_orRaise _ _) fun fromId => keeps_bind (keeps_orRaise _ _) fun toId => ?_
    refine keeps_bind (keeps_raiseIf _ _) fun _ => ?_
    refine keeps_bind (h.keeps_quiet (getInventory_quiet _)) fun source => ?_
    refine keeps_bind (h.keeps_quiet (getInventory_quiet _)) fun target => ?_
    refine keeps_bind (keeps_raiseIf _ _) fun _ => keeps_bind (keeps_raiseIf _ _) fun _ => ?_
    refine keeps_bind (h.keeps_quiet (checkStock_quiet _ _)) fun _ => ?_
    exact h.transfer _ _ _ _ _ _ _ _ _
  | capitalizeTara dto createdById =>
    refine keeps_bind (h.keeps_elsewhere (getInventoryWithBalances_within _ _ _)) fun inventory => ?_
    exact keeps_bind (keeps_orRaise _ _) fun x => h.initialBalance _ _ _ _ _
  | capitalizeTaraForClient clientId items createdById =>
    refine keeps_bind (h.keeps_quiet (getClientInventory_quiet _)) fun inventory => ?_
    exact keeps_bind (keeps_orRaise _ _) fun x => h.initialBalance _ _ _ _ _
  | capitalizeDeficit dto clientId =>
    refine keeps_bind (keeps_ask _) fun products => keeps_whenever _ fun _ => ?_
    refine keeps_bind (h.keeps_elsewhere (getInventoryWithBalances_within _ _ _)) fun inventory => ?_
    refine keeps_bind (keeps_orRaise _ _) fun x => keeps_bind (keeps_raiseIf _ _) fun _ => ?_
    exact keeps_whenever _ fun _ => h.initialBalance _ _ _ _ _

/-- What an onboarding does after the client is entered. -/
theorem firstMovements (env : Env) (data : ClientOnboardingRequest) (creatorId : Uuid) :
    Keeps R I (ClientService.firstMovements env data creatorId) := by
  refine keeps_bind (keeps_whenever _ fun _ => keeps_whenSome _ fun p _ => ?_) fun _ => ?_
  · exact h.initialBalance _ _ _ _ _
  refine keeps_whenSome _ fun order _ => h.keeps_elsewhere ?_
  refine within_bind (isElsewhere_of_quiet (availableProducts_quiet _)) fun products => ?_
  exact within_bind (isElsewhere_issue trivial) fun _ => within_forEach fun _ => isElsewhere_issue trivial

/-- The containers that a user registers with. -/
theorem startingTare (env : Env) (data : UserClientCreate) :
    Keeps R I (ClientService.startingTare env data) :=
  keeps_whenSome _ fun _ _ => keeps_whenSome _ fun _ _ => h.initialBalance _ _ _ _ _

end StockKeeping

namespace Bookkeeping

variable {R : Regime schema} {I J : Db → Prop}

/-- Two things that are kept are kept together. -/
theorem and (h : Bookkeeping R I) (h' : Bookkeeping R J) :
    Bookkeeping R fun s => I s ∧ J s where
  lax := h.lax
  elsewhere s k st r hst hs hr := ⟨h.elsewhere s k st r hst hs.1 hr, h'.elsewhere s k st r hst hs.2 hr⟩
  transfer _ _ _ _ _ _ _ _ _ := (h.transfer _ _ _ _ _ _ _ _ _).and (h'.transfer _ _ _ _ _ _ _ _ _)
  initialBalance _ _ _ _ _ := (h.initialBalance _ _ _ _ _).and (h'.initialBalance _ _ _ _ _)
  orderTransfer _ _ _ _ _ _ _ _ _ _ :=
    (h.orderTransfer _ _ _ _ _ _ _ _ _ _).and (h'.orderTransfer _ _ _ _ _ _ _ _ _ _)
  delivery _ _ _ := (h.delivery _ _ _).and (h'.delivery _ _ _)
  pickup _ _ _ := (h.pickup _ _ _).and (h'.pickup _ _ _)
  payment _ _ := (h.payment _ _).and (h'.payment _ _)

variable (h : Bookkeeping R I)

include h

theorem deliverStock (env : Env) (orderId : Uuid) (o : Order) (courierId : Uuid) :
    Keeps R I (Fulfillment.deliverStock env orderId o courierId) := by
  refine keeps_bind (h.keeps_quiet (getCourierInventory_quiet _)) fun row => ?_
  refine keeps_bind (keeps_orRaise _ _) fun row => ?_
  refine keeps_bind (h.keeps_elsewhere (getInventoryWithBalances_within _ _ _)) fun inventory => ?_
  refine keeps_bind (keeps_orRaise _ _) fun x => keeps_bind (keeps_raiseIf _ _) fun _ => ?_
  refine keeps_bind (keeps_ask _) fun returnable => ?_
  refine keeps_bind (h.orderTransfer _ _ _ _ _ _ _ _ _ _) fun _ => ?_
  exact keeps_whenever _ fun _ => h.orderTransfer _ _ _ _ _ _ _ _ _ _

theorem pickUpStock (env : Env) (orderId : Uuid) (o : Order) (warehouseId completedById : Uuid) :
    Keeps R I (Fulfillment.pickUpStock env orderId o warehouseId completedById) := by
  refine keeps_bind (h.keeps_elsewhere (getInventoryWithBalances_within _ _ _)) fun inventory => ?_
  refine keeps_bind (keeps_orRaise _ _) fun x => keeps_bind (keeps_raiseIf _ _) fun _ => ?_
  refine keeps_bind (keeps_ask _) fun returnable => keeps_bind (keeps_whenever _ fun _ => ?_) fun _ => ?_
  · exact keeps_bind (h.keeps_quiet getVendorInventory_quiet) fun vendor => h.orderTransfer _ _ _ _ _ _ _ _ _ _
  · refine keeps_bind (h.orderTransfer _ _ _ _ _ _ _ _ _ _) fun _ => ?_
    exact keeps_whenever _ fun _ => h.orderTransfer _ _ _ _ _ _ _ _ _ _

theorem handleOrderFulfillment (env : Env) (id : Uuid) (o : Order)
    (actual : List OrderItemActual) :
    Keeps R I (Fulfillment.handleOrderFulfillment env id o actual) := by
  refine keeps_bind (keeps_orRaise _ _) fun courierId => keeps_bind ?_ fun adjusted => ?_
  · split
    · exact keeps_ret _
    · exact h.keeps_elsewhere (adjustOrder_elsewhere _ _ _ _)
  · exact keeps_bind (h.deliverStock _ _ _ _) fun _ => h.delivery _ _ _

theorem handleWarehousePickup (env : Env) (id : Uuid) (o : Order) (completedById : Uuid) :
    Keeps R I (Fulfillment.handleWarehousePickup env id o completedById) := by
  refine keeps_bind (keeps_orRaise _ _) fun warehouseId => ?_
  exact keeps_bind (h.pickUpStock _ _ _ _ _) fun _ => h.pickup _ _ _

theorem createWarehouseSale (env : Env) (dto : WarehouseSaleCreate) (clientId : Option Uuid)
    (createdById : Uuid) :
    Keeps R I (OrderService.createWarehouseSale env dto clientId createdById) := by
  refine keeps_bind (keeps_raiseIf _ _) fun _ => ?_
  refine keeps_bind (h.keeps_quiet (availableProducts_quiet _)) fun products => ?_
  refine keeps_bind (h.keeps_elsewhere (getInventoryWithBalances_within _ _ _)) fun warehouse => ?_
  refine keeps_bind (keeps_orRaise _ _) fun _ => ?_
  refine keeps_bind (h.keeps_quiet (getClientInventory_quiet _)) fun inventory => ?_
  refine keeps_bind (keeps_orRaise _ _) fun inventory => ?_
  refine keeps_bind (h.exchangeTara _ _ _ _ _ _) fun applied => ?_
  refine keeps_bind (h.keeps_elsewhere (insertOrder_elsewhere _ _ _)) fun _ => ?_
  refine keeps_bind (h.handleWarehousePickup _ _ _ _) fun _ => ?_
  exact h.keeps_elsewhere (isElsewhere_issue trivial)

theorem updateStatus (env : Env) (id : Uuid) (status : OrderStatus)
    (actual : List OrderItemActual) (u : Option Uuid) (reason : Option String) :
    Keeps R I (OrderService.updateStatus env id status actual u reason) := by
  refine keeps_bind (h.keeps_elsewhere (getOrderLocked_elsewhere _)) fun o => ?_
  refine keeps_bind (keeps_raiseIf _ _) fun _ => keeps_bind (keeps_whenever _ fun _ => ?_) fun _ => ?_
  · refine keeps_bind (keeps_raiseIf _ _) fun _ => keeps_bind (keeps_raiseIf _ _) fun _ => ?_
    exact keeps_raiseIf _ _
  refine keeps_bind (h.keeps_elsewhere (isElsewhere_issue trivial)) fun _ => ?_
  refine keeps_bind (keeps_whenever _ fun _ => h.handleOrderFulfillment _ _ _ _) fun _ => ?_
  refine h.keeps_elsewhere (within_bind (isElsewhere_whenever ?_) fun _ => ?_)
  · exact releaseOrderQuantities_elsewhere _ _ _
  · exact within_bind (isElsewhere_whenever (isElsewhere_issue trivial)) fun _ => isElsewhere_issue trivial

theorem completePickup (env : Env) (id completedById : Uuid) :
    Keeps R I (OrderService.completePickup env id completedById) := by
  refine keeps_bind (h.keeps_elsewhere (getOrderLocked_elsewhere _)) fun o => ?_
  refine keeps_bind (keeps_raiseIf _ _) fun _ => keeps_bind (keeps_raiseIf _ _) fun _ => ?_
  refine keeps_bind (h.keeps_elsewhere (isElsewhere_issue trivial)) fun _ => ?_
  refine keeps_bind (h.keeps_elsewhere (isElsewhere_issue trivial)) fun _ => ?_
  exact h.handleWarehousePickup _ _ _ _

/-- The operations on orders, contracts, price lists, invoices and products. -/
theorem operation (r : Operations.Request) : Keeps R I (Operations.program r) := by
  by_cases hr : mayHandOver r.op = false
  · exact h.toStockKeeping.operation r hr
  obtain ⟨env, op⟩ := r
  cases op with
  | createWarehouseSale dto clientId createdById => exact h.createWarehouseSale _ _ _ _
  | completePickup id u => exact h.completePickup _ _ _
  | updateStatus id status actual u reason => exact h.updateStatus _ _ _ _ _ _
  | cancelOrder id u reason =>
    refine keeps_bind (keeps_ask _) fun o => keeps_bind (keeps_orRaise _ _) fun o => ?_
    refine keeps_bind (keeps_raiseIf _ _) fun _ => keeps_bind (keeps_raiseIf _ _) fun _ => ?_
    exact h.updateStatus _ _ _ _ _ _
  | _ => exact absurd rfl hr

/-- Every transaction of the company's services. -/
theorem service (r : Company.ServiceRequest) : Keeps R I (Company.program r) := by
  cases r with
  | operation r => exact h.operation r
  | stock env op => exact h.toStockKeeping.stock env op

end Bookkeeping

/-! ## What is enough -/

section Enough

variable {R : Regime schema} {I : Db → Prop}

/-- Statements on other rows than those of the two ledgers and their balances. -/
def Beside : (k : Key) → Stmt k → Prop
  | .stockTransfer _, _ => True
  | k, st => Elsewhere k st

theorem beside_of_elsewhere {k : Key} {st : Stmt k} (h : Elsewhere k st) : Beside k st := by
  cases k with
  | stockTransfer id => trivial
  | _ => exact h

/-- What the statements on the ledgers keep with their triggers, and all other
statements keep by themselves, every service keeps. -/
theorem bookkeeping_of (hlax : R.Lax)
    (hbeside : ∀ s k st r, Beside k st → I s → schema.exec k st (schema.get s k) = .ok r →
      I (schema.put s k r))
    (hmove : ∀ rows, Keeps R I (insertStockTransactions rows))
    (hpost : ∀ rows, Keeps R I (insertTransactions rows))
    (hchange : ∀ id data, Keeps R I (updateTransaction id data)) : Bookkeeping R I := by
  have hissue : ∀ {k : Key} {st : Stmt k}, Beside k st → Keeps R I (issue k st) :=
    fun hst => keeps_within (X := fun _ => True) hlax hbeside ((within_execute _ _).mpr hst)
  have hquiet : ∀ {α : Type} {p : Uow α}, Quiet Beside p → Keeps R I p :=
    fun hp => keeps_within hlax hbeside hp
  have hadd : ∀ env row, Keeps R I (addTransaction env row) := fun env row =>
    keeps_bind (hpost _) fun _ => keeps_bind (keeps_ask _) fun _ => keeps_raiseIf _ _
  have hsettle : ∀ env id o missing debt payment,
      Keeps R I (settle env id o missing debt payment) := by
    intro env id o missing debt payment
    refine keeps_bind (keeps_ask _) fun d => keeps_bind (keeps_orRaise _ _) fun client => ?_
    refine keeps_bind (keeps_orRaise _ _) fun revenue => ?_
    exact keeps_bind (keeps_fromExcept _) fun payments => hpost _
  have htransfer : ∀ env n fromId toId type items createdById acceptedById orderId reason, Keeps R I
      (createStockTransfer env n fromId toId type items createdById acceptedById orderId reason) := by
    intro env n fromId toId type items createdById acceptedById orderId reason
    refine keeps_bind (keeps_ask _) fun d => keeps_bind (hissue trivial) fun _ => ?_
    refine keeps_bind (keeps_raiseIf _ _) fun _ => keeps_bind (keeps_raiseIf _ _) fun _ => ?_
    exact keeps_bind (hissue trivial) fun _ => hmove _
  have hstock : StockKeeping R I := by
    constructor
    case lax => exact hlax
    case elsewhere => exact fun s k st r hst hs hr => hbeside s k st r (beside_of_elsewhere hst) hs hr
    case transfer => exact fun _ _ _ _ _ _ _ _ _ => htransfer _ _ _ _ _ _ _ _ _ _
    case initialBalance =>
      intro env n toId items createdById
      refine keeps_bind (hquiet getVendorInventory_quiet) fun vendor => ?_
      refine keeps_bind (keeps_ask _) fun d => keeps_bind (hissue trivial) fun _ => ?_
      refine keeps_bind (keeps_raiseIf _ _) fun _ => keeps_bind (keeps_raiseIf _ _) fun _ => ?_
      refine keeps_forEach fun x => keeps_bind (hissue trivial) fun _ => ?_
      exact keeps_bind (keeps_ask _) fun product => keeps_bind (keeps_raiseIf _ _) fun _ => hmove _
  constructor
  case toStockKeeping => exact hstock
  case orderTransfer => exact fun _ _ _ _ _ _ _ _ _ _ => htransfer _ _ _ _ _ _ _ _ _ _
  case delivery => exact fun env id o => hsettle _ _ _ _ _ _
  case pickup => exact fun env id o => hsettle _ _ _ _ _ _
  case payment =>
    intro env op
    cases op with
    | acceptPayment dto acceptedById =>
      refine keeps_bind (keeps_ask _) fun d => keeps_bind (keeps_orRaise _ _) fun client => ?_
      exact keeps_bind (keeps_orRaise _ _) fun target => hadd _ _
    | createTransaction dto createdById =>
      refine keeps_bind (keeps_raiseIf _ _) fun _ => keeps_bind (keeps_ask _) fun d => ?_
      refine keeps_bind (keeps_orRaise _ _) fun source => ?_
      exact keeps_bind (keeps_orRaise _ _) fun target => hadd _ _
    | decide id decision =>
      cases decision <;>
        exact keeps_bind (keeps_locked _) fun row => keeps_bind (keeps_orRaise _ _) fun txn =>
          keeps_bind (keeps_raiseIf _ _) fun _ => hchange _ _

/-- What every statement keeps by itself. -/
theorem bookkeeping_of_statements (hlax : R.Lax)
    (hstep : ∀ s k st r, I s → schema.exec k st (schema.get s k) = .ok r → I (schema.put s k r)) :
    Bookkeeping R I := by
  have hall : ∀ {α : Type} (p : Uow α), Keeps R I p := fun p =>
    keeps_within hlax (fun s k st r _ hs hr => hstep s k st r hs hr) (within_true p)
  exact bookkeeping_of hlax (fun s k st r _ hs hr => hstep s k st r hs hr) (fun _ => hall _)
    (fun _ => hall _) fun _ _ => hall _

end Enough

end Munavvar.LedgerKeeping
