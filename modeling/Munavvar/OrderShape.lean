import Munavvar.StatusLog
import Munavvar.OrderInvariants

/-!
# The shape of an order

The status of an order says which of its columns are filled. An order that is
underway or delivered is a delivery with a courier, an order that was picked up
is a pickup with a warehouse, and an order that holds quota is paid by a
contract and not cancelled.
-/

namespace Munavvar.OrderShape

open Munavvar.KeyedTable
open Munavvar.Transaction
open Munavvar.ReadCommitted
open Munavvar.Database
open Munavvar.StockLedger
open Munavvar.OrderQueries
open Munavvar.OrderService
open Munavvar.ClientService
open Munavvar.Operations (Request sampleRequest)
open Munavvar.OrderChanges
open Munavvar.Company
open Munavvar.ClientEffects
open Munavvar.StatusLog
open Munavvar.OrderInvariants

/-- The order is with a courier or has been. -/
def isUnderway (o : Order) : Bool :=
  o.status = .assigned || o.status = .inTransit || o.status = .arrived || o.status = .delivered

/-- What the status and the flag of an order say about its other columns. -/
structure Shaped (o : Order) : Prop where
  /-- Who delivers is known. -/
  underway : isUnderway o = true → o.saleType = .delivery ∧ o.courierId.isSome = true
  /-- Where it was picked up is known. -/
  pickedUp : o.status = .pickupCompleted →
    o.saleType = .warehousePickup ∧ o.warehouseId.isSome = true
  /-- Whose quota is held is known. -/
  reserved : o.quantitiesReserved = true →
    o.paymentMethod = .contract ∧ o.contractId.isSome = true ∧ o.status ≠ .cancelled

/-- What the operations rely on to keep orders in shape. -/
structure Founded (o : Order) : Prop where
  /-- The flag follows the contract and the status. -/
  orderOk : OrderOk o
  /-- Who delivers is known. -/
  underway : isUnderway o = true → o.saleType = .delivery ∧ o.courierId.isSome = true
  /-- Only a pickup is picked up. -/
  pickedUp : o.status = .pickupCompleted → o.saleType = .warehousePickup
  /-- A pickup has its warehouse from the start. -/
  pickup : o.saleType = .warehousePickup → o.warehouseId.isSome = true

theorem contract?_isSome {o : Order} (h : o.contract?.isSome = true) :
    o.paymentMethod = .contract ∧ o.contractId.isSome = true := by
  unfold Order.contract? at h
  split at h
  · next hmethod => exact ⟨hmethod, h⟩
  · cases h

theorem Founded.shaped {o : Order} (h : Founded o) : Shaped o where
  underway := h.underway
  pickedUp hstatus := by
    have hsale := h.pickedUp hstatus
    exact ⟨hsale, h.pickup hsale⟩
  reserved hreserved := by
    obtain ⟨hcontract, hstatus⟩ := h.orderOk.reserved_iff.mp hreserved
    obtain ⟨hmethod, hid⟩ := contract?_isSome hcontract
    exact ⟨hmethod, hid, hstatus⟩

/-- Only an order in one of four statuses is underway. -/
theorem isUnderway_iff (o : Order) : isUnderway o = true ↔
    o.status = .assigned ∨ o.status = .inTransit ∨ o.status = .arrived ∨ o.status = .delivered := by
  simp only [isUnderway, Bool.or_eq_true, decide_eq_true_eq, or_assoc]

theorem not_isUnderway {o : Order} (h : o.status = .new ∨ o.status = .pickupCompleted ∨
    o.status = .cancelled) : ¬ isUnderway o = true := by
  rw [isUnderway_iff]
  rcases h with h | h | h <;> simp [h]

/-- Every step of an order keeps what the next one relies on. -/
theorem step_founded {R : Regime schema} {r : Request} {s : Db} {id : Uuid} {old : Option Order}
    {new : Order} (h : OrderStep R r s id old new) (hold : ∀ o, old = some o → Founded o) :
    Founded new := by
  have hok := h.orderOk fun o ho => (hold o ho).orderOk
  cases h with
  | placed hstatus hsale =>
    refine ⟨hok, fun hunder => absurd hunder (not_isUnderway (.inl hstatus)), fun hpicked => ?_,
      fun hpickup => ?_⟩
    · cases hstatus.symm.trans hpicked
    · cases hsale.symm.trans hpickup
  | sold hstatus hsale _ _ _ _ _ _ _ _ _ hwarehouse =>
    refine ⟨hok, fun hunder => absurd hunder (not_isUnderway (.inr (.inl hstatus))), fun _ => hsale,
      fun _ => hwarehouse⟩
  | @lineAdded o =>
    have ho := hold o rfl
    exact ⟨hok, ho.underway, ho.pickedUp, ho.pickup⟩
  | @lineRemoved o =>
    have ho := hold o rfl
    exact ⟨hok, ho.underway, ho.pickedUp, ho.pickup⟩
  | @assigned o courierId _ hsale =>
    have ho := hold o rfl
    exact ⟨hok, fun _ => ⟨hsale, rfl⟩, nofun, ho.pickup⟩
  | @moved o newStatus by_ kept logged hstatus =>
    have ho := hold o rfl
    rcases hstatus with rfl | ⟨hsale, hedge⟩
    · exact ⟨hok, ho.underway, ho.pickedUp, ho.pickup⟩
    · -- an edge between two statuses of an order that is underway
      have hcourier : o.saleType = .delivery ∧ o.courierId.isSome = true := by
        refine ho.underway ((isUnderway_iff o).mpr ?_)
        rcases hedge with ⟨hstatus, -⟩ | ⟨hstatus, -⟩ <;> simp [hstatus]
      refine ⟨hok, fun _ => hcourier, fun hpicked => ?_, ho.pickup⟩
      rcases hedge with ⟨-, rfl⟩ | ⟨-, rfl⟩ <;> cases hpicked
  | @cancelled o =>
    have ho := hold o rfl
    refine ⟨hok, fun hunder => ?_, nofun, ho.pickup⟩
    exact absurd hunder (not_isUnderway (.inr (.inr rfl)))
  | @delivered o items total by_ logged hstatus hsale hcourier =>
    have ho := hold o rfl
    exact ⟨hok, fun _ => ⟨hsale, hcourier⟩, nofun, ho.pickup⟩
  | @pickedUp o by_ hstatus hsale =>
    have ho := hold o rfl
    refine ⟨hok, fun hunder => ?_, fun _ => hsale, ho.pickup⟩
    exact absurd hunder (not_isUnderway (.inr (.inl rfl)))

theorem firstOrder_founded {env : Env} {order : OnboardingOrder} {o : Order}
    (h : FirstOrder env order o) : Founded o where
  orderOk := h.orderOk
  underway hunder := absurd hunder (not_isUnderway (.inl h.status_eq))
  pickedUp hpicked := by cases h.status_eq.symm.trans hpicked
  pickup hpickup := by cases h.saleType_eq.symm.trans hpickup

/-- Every request and every command keeps orders founded. -/
theorem founded_invariant :
    OrderInvariant (fun _ _ => true) (fun _ => true) Founded where
  orderOk h := h.orderOk
  step _ hstep hold := step_founded hstep hold
  first _ _ hfirst := firstOrder_founded hfirst

/-- In every run of the company all orders are in shape. -/
theorem orders_in_shape (r : Registry) {w : World}
    (h : Reachable (fun _ _ => true) (fun _ => true) (World.init (noOrders r)) w) :
    ∀ id o, w.sys.db.orders.find? id = some o → Shaped o := by
  intro id o ho
  have hnone : OrdersMeet Founded (noOrders r).db := fun id o ho => absurd ho (by simp [noOrders])
  exact (founded_invariant.reachable hnone h id o ho).shaped

theorem orders_in_shape_sample :
    ∃ w, deliveryEvents.foldlM (World.execIf (fun _ _ => true) fun _ => true)
        (World.init (noOrders ⟨Operations.sampleDb, []⟩)) = some w ∧
      (w.sys.db.orders.find? 10000).map isUnderway = some true ∧
      ∀ id o, w.sys.db.orders.find? id = some o → Shaped o := by
  have heval : (deliveryEvents.foldlM (World.execIf (fun _ _ => true) fun _ => true)
      (World.init (noOrders ⟨Operations.sampleDb, []⟩))).map
      (fun w => (w.sys.db.orders.find? 10000).map isUnderway) = some (some true) := by
    decide +kernel
  obtain ⟨w, hrun, hunder⟩ := Option.map_eq_some_iff.mp heval
  exact ⟨w, hrun, hunder,
    orders_in_shape ⟨Operations.sampleDb, []⟩ (Reachable.of_events _ hrun)⟩

end Munavvar.OrderShape
