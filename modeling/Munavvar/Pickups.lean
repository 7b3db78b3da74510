import Munavvar.Deliveries

/-!
# Pickups

What a pickup at the warehouse moves. A known client is handed full containers
that the vendor has issued before and gives the empty ones back, so they stay
in the warehouse; a walk-in buyer brings his own. Either way the buyer gets the
lines, and the amount leaves the revenue for the cash desk or for the client.
-/

namespace Munavvar.Pickups

open Munavvar.KeyedTable
open Munavvar.Transaction
open Munavvar.Transaction.Prog
open Munavvar.Database
open Munavvar.DoubleEntry
open Munavvar.Statements
open Munavvar.StockLedger
open Munavvar.StockTransfers
open Munavvar.FinancialLedger
open Munavvar.OrderQueries
open Munavvar.Fulfillment
open Munavvar.ShortageCheck
open Munavvar.Settlements
open Munavvar.Deliveries
open Munavvar.Operations (sampleDb)
open Munavvar.Bag (amount)

/-! ## Containers -/

/-- The pieces of the lines whose product comes in a container. -/
def issued (s : Db) (items : List OrderItem) (p : Uuid) : ℤ :=
  ((items.filter fun i => returnableItem s i.productId = some p).map OrderItem.quantity).sum

/-- The containers of some lines are counted once for each piece. -/
theorem amount_containers (s : Db) {items : List OrderItem} (h : ∀ i ∈ items, 0 < i.quantity)
    (p : Uuid) : amount (containers s items) p = issued s items p := by
  rw [containers, buildReturnableItems, Bag.amount_collect, issued]
  induction items with
  | nil => rfl
  | cons i items ih =>
    obtain ⟨hpos, hrest⟩ := List.forall_mem_cons.mp h
    have hrest := ih hrest
    rw [List.filterMap_cons, List.filter_cons, if_pos hpos]
    cases htare : returnableItem s i.productId with
    | none =>
      simp only [Option.map_none, reduceCtorEq, decide_false, Bool.false_eq_true, if_false]
      exact hrest
    | some tare =>
      simp only [Option.map_some, Bag.amount_cons, Option.some.injEq]
      by_cases hsame : tare = p
      · rw [if_pos hsame, decide_eq_true hsame, if_pos rfl, List.map_cons, List.sum_cons, hrest]
      · rw [if_neg hsame, decide_eq_false hsame, if_neg Bool.false_ne_true, zero_add, hrest]

/-- Without containers nothing is issued. -/
theorem issued_eq_zero (s : Db) {items : List OrderItem} (h : ∀ i ∈ items, 0 < i.quantity)
    (hnone : containers s items = []) (p : Uuid) : issued s items p = 0 := by
  have hamount := amount_containers s h p
  rw [hnone, Bag.amount_nil] at hamount
  exact hamount.symm

/-! ## The stock -/

/-- What a warehouse and the vendor give for lines that a buyer gets: nothing
but the lines, or also the containers that the vendor issues and the warehouse
keeps. -/
structure PickedUp (walkin : Bool) (warehouseId client : Uuid) (vendorIds : List Uuid)
    (lines tare : Uuid → ℤ) (s s' : Db) : Prop where
  /-- The buyer's inventory is not the warehouse. -/
  route : warehouseId ≠ client
  /-- A vendor issues the containers. -/
  vendor : walkin = false → (∃ p, tare p ≠ 0) → ∃ v, vendorIds = [v] ∧ v ≠ warehouseId
  /-- The balances have moved. -/
  stock : ∀ i p, stockOf s' i p = stockOf s i p +
    (if i = client then lines p else 0) - (if i = warehouseId then lines p else 0) +
    (if walkin = false ∧ i = warehouseId then tare p else 0) -
    (if walkin = false ∧ i ∈ vendorIds then tare p else 0)

section Stock

variable {R : Regime schema} {s : Db}

/-- A pickup moves the lines to the buyer and new containers to the warehouse. -/
theorem wp_pickedUp (hexact : R.Exact) (hlax : R.Lax) (env : Env) (id : Uuid) {o : Order}
    (hlines : ∀ i ∈ o.items, 0 < i.quantity) (warehouseId u : Uuid) {Q : Unit → Db → Prop}
    (hQ : ∀ s', SameButStock s s' →
      PickedUp (decide (o.clientId = walkinUserId)) warehouseId o.clientInventoryId
        ((vendors s.directory).map Inventory.id) (pieces o.items) (issued s o.items) s s' → Q () s') :
    wp R (pickUpStock env id o warehouseId u) Q (fun _ => True) s := by
  have hmoved : movedItems o.items = o.items.map OrderItem.pair := movedItems_of_pos hlines
  have hissued : ∀ p, amount (containers s o.items) p = issued s o.items p :=
    amount_containers s hlines
  refine wp_pickUpStock_reads hexact (.inr fun _ _ => trivial) (fun _ _ => trivial)
    fun i hfind htype _ => ?_
  -- the sale and the return move the lines, whatever has been issued before
  have hsale : ∀ s₁, (∀ tare : List (Uuid × ℤ), (∀ x ∈ tare, 0 < x.2) → ∀ Q' : Unit → Db → Prop,
      (∀ s', SameButStock s₁ s' → warehouseId ≠ o.clientInventoryId →
        Transferred warehouseId o.clientInventoryId (pieces o.items) s₁.balances s'.balances →
        Q' () s') →
      wp R (do
        createStockTransfer env 3 warehouseId o.clientInventoryId .warehouseSale
          (movedItems o.items ++ tare) u (some o.clientId) (some id) none
        whenever (tare ≠ []) <|
          createStockTransfer env 4 o.clientInventoryId warehouseId .warehouseTaraReturn
            tare u (some u) (some id) none) Q' (fun _ => True) s₁) := by
    intro s₁ tare htare Q' hQ'
    refine wp_exchanged hexact hlax (by decide : 3 ≠ 4) (movedItems_pos o.items) htare
      (.inr fun _ => trivial) fun s' hsame hexchanged => ?_
    have htransferred := hexchanged.transferred
    rw [hmoved] at htransferred
    exact hQ' s' hsame hexchanged.route htransferred
  rw [wp_bind, wp_whenever]
  refine ⟨fun hissuing => ?_, fun hnone => ?_⟩
  · obtain ⟨hsome, hnamed⟩ := hissuing
    rw [wp_bind]
    refine wp_getVendorInventory hexact (.inr fun _ _ => trivial) fun vendor hvendor => ?_
    refine wp_createStockTransfer hexact hlax (.inr fun _ _ => trivial) (.inr fun _ => trivial)
      fun s₁ hafter => ?_
    have hentered := hafter.transferred
    rw [filter_of_pos (containers_pos s o.items)] at hentered
    have hroute := hafter.route
    rw [hnamed]
    refine hsale s₁ (containers s o.items) (containers_pos s o.items) Q fun s' hsame hne hsold => ?_
    refine hQ s' ?_ ⟨hne, fun _ _ => ?_, fun i p => ?_⟩
    · obtain ⟨_, _, _, rfl⟩ := hafter.same
      obtain ⟨_, _, _, rfl⟩ := hsame
      exact ⟨_, _, _, rfl⟩
    · exact ⟨vendor.id, by rw [hvendor, List.map_singleton], hroute⟩
    · have hsold := hsold i p
      have hentered := hentered i p
      rw [hissued] at hentered
      rw [hnamed, hvendor, List.map_singleton]
      simp only [true_and, List.mem_singleton]
      rw [stockOf, stockOf, hsold, hentered]
      omega
  · have htare : ∀ x ∈ returnableForPickup (decide (o.clientId = walkinUserId)) o.items
        (containers s o.items), 0 < x.2 := returnableForPickup_pos s o.items _
    refine hsale s _ htare Q fun s' hsame hne hsold => hQ s' hsame ?_
    have hzero : decide (o.clientId = walkinUserId) = false → ∀ p, issued s o.items p = 0 := by
      intro hnamed
      refine issued_eq_zero s hlines ?_
      by_contra hsome
      exact hnone ⟨hsome, hnamed⟩
    refine ⟨hne, fun hnamed hissued => hissued.elim fun p hp => absurd (hzero hnamed p) hp,
      fun i p => ?_⟩
    have hsold := hsold i p
    rw [stockOf, stockOf, hsold]
    cases hwalkin : decide (o.clientId = walkinUserId) with
    | false =>
      rw [hzero hwalkin p]
      simp
    | true => simp

end Stock

/-! ## The net effect -/

/-- Stock and money before and after the pickup of an order. -/
structure NetPickup (o : Order) (s s' : Db) : Prop where
  /-- The lines have gone from the warehouse to the buyer. -/
  stock : ∃ warehouseId, o.warehouseId = some warehouseId ∧
    PickedUp (decide (o.clientId = walkinUserId)) warehouseId o.clientInventoryId
      ((vendors s.directory).map Inventory.id) (pieces o.items) (issued s o.items) s s'
  /-- The total has gone from the revenue to the cash desk or to the client. -/
  money : ∃ client revenue debtor, s.directory.clientAccount o.clientId = some client ∧
    s.directory.systemRevenueAccount = some revenue ∧
    pickupDebtor s.directory o client = some debtor ∧
    client.id ≠ revenue.id ∧ debtor.id ≠ revenue.id ∧
    (o.paymentMethod = .cash → client.id ≠ debtor.id) ∧
    ∀ a, balance s'.accountBalances a = balance s.accountBalances a +
      (if a = debtor.id then o.totalAmount else 0) - (if a = revenue.id then o.totalAmount else 0)

/-- The client's account or the cash desk, but never the revenue. -/
theorem pickupDebtor_ne {d : Directory} (hids : (d.accounts.map Account.id).Nodup) {o : Order}
    {client revenue debtor : Account} (hclient : d.clientAccount o.clientId = some client)
    (hrevenue : d.systemRevenueAccount = some revenue)
    (hdebtor : pickupDebtor d o client = some debtor) :
    debtor.id ≠ revenue.id ∧ (o.paymentMethod = .cash → client.id ≠ debtor.id) := by
  rw [pickupDebtor] at hdebtor
  constructor
  · split at hdebtor
    · exact accountIds_ne hids (by decide) hdebtor hrevenue
    · cases hdebtor
      exact accountIds_ne hids (by decide) hclient hrevenue
  · intro hcash
    rw [hcash] at hdebtor
    exact accountIds_ne hids (by decide) hclient hdebtor

/-- A pickup moves the lines, the containers of a known client and the amount. -/
theorem pickup_net_effect {env : Env} {id u : Uuid} {o : Order} {s s' : Db}
    (hlines : ∀ i ∈ o.items, 0 < i.quantity) (hheld : AccountsHeld s)
    (hids : (s.directory.accounts.map Account.id).Nodup)
    (hrun : (handleWarehousePickup env id o u).run s = .ok ((), s')) : NetPickup o s s' := by
  have hexact : Regime.Exact (S := schema) Regime.serial :=
    Regime.serialAsserting_exact (S := schema) _
  have hlax : Regime.Lax (S := schema) Regime.serial := Regime.serial_lax
  have hwp : wp Regime.serial (handleWarehousePickup env id o u) (fun _ s' => NetPickup o s s')
      (fun _ => True) s := by
    rw [handleWarehousePickup, wp_bind, wp_orRaise]
    refine ⟨fun _ => trivial, fun warehouseId hwarehouse => ?_⟩
    rw [wp_bind]
    refine wp_pickedUp hexact hlax env id hlines warehouseId u fun s₁ hsame hpicked => ?_
    obtain ⟨b, transfers, movements, rfl⟩ := hsame
    refine wp_settled (s := { s with
      balances := b, stockTransfers := transfers, stockTransactions := movements }) hexact hlax env
      id o _ _ _ hheld (.inr fun _ => trivial) fun client revenue rows t' b' hsettling hentered => ?_
    obtain ⟨debtor, hdebtor, hends⟩ := hsettling.pickup
    obtain ⟨hne, hcash⟩ := pickupDebtor_ne hids hsettling.client_eq hsettling.revenue_eq hdebtor
    constructor
    · exact ⟨warehouseId, hwarehouse, hpicked.route, hpicked.vendor, hpicked.stock⟩
    · refine ⟨client, revenue, debtor, hsettling.client_eq, hsettling.revenue_eq, hdebtor,
        accountIds_ne hids (by decide) hsettling.client_eq hsettling.revenue_eq, hne, hcash,
        fun a => ?_⟩
      have hbalance := hentered.balance_eq a
      rw [hends a] at hbalance
      rw [hbalance]
      exact (add_sub_assoc _ _ _).symm
  exact wp_serial_run hwp hrun

/-- A client takes two waters and buys one of their bottles. -/
def sampleSale : Order :=
  { sampleOrder with
    saleType := .warehousePickup, status := .pickupCompleted, totalAmount := 250
    items := [⟨21, 2, 100⟩, ⟨22, 1, 50⟩] }

theorem pickup_net_effect_sample : ∃ s', (handleWarehousePickup sampleEnv 1 sampleSale 9).run
    { sampleDb with orders := Table.empty.put 1 (some sampleSale) } = .ok ((), s') ∧
    NetPickup sampleSale { sampleDb with orders := Table.empty.put 1 (some sampleSale) } s' := by
  have hsucceeds : ((handleWarehousePickup sampleEnv 1 sampleSale 9).run
      { sampleDb with orders := Table.empty.put 1 (some sampleSale) }).isOk = true := by
    decide +kernel
  cases hrun : (handleWarehousePickup sampleEnv 1 sampleSale 9).run
      { sampleDb with orders := Table.empty.put 1 (some sampleSale) } with
  | error e =>
    rw [hrun] at hsucceeds
    cases hsucceeds
  | ok x =>
    exact ⟨x.2, rfl, pickup_net_effect (by decide) (doorstep_held .arrived) (by decide) hrun⟩

end Munavvar.Pickups
