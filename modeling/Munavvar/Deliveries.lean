import Munavvar.ShortageCheck
import Munavvar.Settlements

/-!
# Deliveries

What a delivery does when it runs alone, and all that can stop it. Goods and
containers go to the client and the containers come back, so the stock moves by
the lines; the released quota is what was not handed over; and the amount of
the delivered lines leaves the revenue for the account that owes it.
-/

namespace Munavvar.Deliveries

open Munavvar.KeyedTable
open Munavvar.Transaction
open Munavvar.Transaction.Prog
open Munavvar.Database
open Munavvar.DoubleEntry
open Munavvar.Statements
open Munavvar.StockLedger
open Munavvar.StockTransfers
open Munavvar.FinancialLedger
open Munavvar.OrderQueries
open Munavvar.OrderService
open Munavvar.Quota
open Munavvar.Fulfillment
open Munavvar.OrderChanges
open Munavvar.OrderEffects
open Munavvar.LifecycleEffects
open Munavvar.ShortageCheck (containers vehicles stockOf deliveredLines movedItems_pos containers_pos
  filter_of_pos stockShortages_eq_nil inventory?_of_mem wp_deliverStock_reads sampleOrder sampleEnv)
open Munavvar.Operations (sampleDb)
open Munavvar.Settlements
open Munavvar.Bag (amount)

/-! ## The exchange -/

/-- Lines went from one inventory to another, and containers there and back. -/
structure Exchanged (env : Env) (n m : ℕ) (source client : Uuid) (lines tare : List (Uuid × ℤ))
    (b b' : Table (Uuid × Uuid) ℤ) (movements : Table Uuid StockTransaction) : Prop where
  /-- The route has two ends. -/
  route : source ≠ client
  /-- The lines have moved. -/
  transferred : Transferred source client (amount lines) b b'
  /-- What the client held in between fits the column. -/
  fits : ∀ p, 0 < amount (lines ++ tare) p →
    int32 (balance b (client, p) + amount (lines ++ tare) p) = true
  /-- What was handed over is on record. -/
  given : ∀ r ∈ movementsFor env n source client (lines ++ tare), movements.find? r.1 = some r.2
  /-- What came back is on record. -/
  returned : ∀ r ∈ movementsFor env m client source tare, movements.find? r.1 = some r.2

/-- Nothing stops an exchange. -/
structure Exchangeable (env : Env) (source client : Uuid) (moved : List (Uuid × ℤ)) (s : Db) :
    Prop where
  /-- New identifiers differ. -/
  ids_inj : ∀ n j n' j', env.uuid n j = env.uuid n' j' → n = n' ∧ j = j'
  /-- New identifiers are not those of transfers. -/
  transfers_new : ∀ n j, s.stockTransfers.find? (env.uuid n j) = none
  /-- Neither are they those of movements. -/
  movements_new : ∀ n j, s.stockTransactions.find? (env.uuid n j) = none
  /-- The source exists. -/
  source_known : (s.directory.inventory? source).isSome = true
  /-- The client's inventory exists. -/
  client_known : (s.directory.inventory? client).isSome = true
  /-- They are two inventories. -/
  route : source ≠ client
  /-- The balances fit their column. -/
  in_range : ∀ i p, int32 (balance s.balances (i, p)) = true
  /-- The source holds what is taken from it. -/
  covered : ∀ p, amount moved p ≤ balance s.balances (source, p)
  /-- The client's stock is not negative. -/
  client_nonneg : NonNegative s client
  /-- The client has room for what is handed over. -/
  room : ∀ p, int32 (balance s.balances (client, p) + amount moved p) = true

section Exchange

variable {R : Regime schema} {E : Err → Prop} {s : Db}

theorem Sure.granted {c : Prop} (h : Sure E c) : Granted E c := h.imp_right fun hany e _ => hany e

/-- Nothing that stops an exchange has changed with other tables. -/
theorem Exchangeable.of_same {env : Env} {source client : Uuid} {moved : List (Uuid × ℤ)} {s' : Db}
    (h : Exchangeable env source client moved s) (hdirectory : s'.directory = s.directory)
    (hbalances : s'.balances = s.balances) (htransfers : s'.stockTransfers = s.stockTransfers)
    (hmovements : s'.stockTransactions = s.stockTransactions) :
    Exchangeable env source client moved s' := by
  have hnonneg : NonNegative s' client := by
    rw [NonNegative, hdirectory, hbalances]
    exact h.client_nonneg
  constructor
  · exact h.ids_inj
  · rw [htransfers]
    exact h.transfers_new
  · rw [hmovements]
    exact h.movements_new
  · rw [hdirectory]
    exact h.source_known
  · rw [hdirectory]
    exact h.client_known
  · exact h.route
  · rw [hbalances]
    exact h.in_range
  · rw [hbalances]
    exact h.covered
  · exact hnonneg
  · rw [hbalances]
    exact h.room

/-- The first transfer of an exchange. -/
theorem Exchangeable.insertable {env : Env} {source client : Uuid} {moved : List (Uuid × ℤ)}
    (h : Exchangeable env source client moved s) (hpos : ∀ x ∈ moved, 0 < x.2) (n : ℕ) :
    Insertable env n source client moved none s := by
  have hnonneg : ∀ p, 0 ≤ amount moved p := Bag.amount_nonneg fun x hx => (hpos x hx).le
  refine ⟨fun j j' hj => (h.ids_inj n j n j' hj).2, h.transfers_new n 0, h.movements_new n,
    h.source_known, h.client_known, h.route, rfl, fun x hx => ?_, fun p _ => ?_⟩
  · have hpart := Bag.le_amount (fun y hy => (hpos y hy).le) hx
    have hcovered := h.covered x.1
    have hrange := h.in_range source x.1
    have hx := hpos x hx
    rw [int32_iff] at hrange ⊢
    omega
  · have hcovered := h.covered p
    have hsource := h.in_range source p
    have hclient := h.in_range client p
    have hroom := h.room p
    have hnonneg := hnonneg p
    rw [filter_of_pos hpos, FitsColumn, FitsColumn]
    rw [int32_iff] at hsource hclient hroom
    simp only [int32_iff]
    omega

/-- The second transfer of an exchange. -/
theorem Exchangeable.insertable_after {env : Env} {source client : Uuid}
    {lines tare : List (Uuid × ℤ)} (h : Exchangeable env source client (lines ++ tare) s)
    (hlines : ∀ x ∈ lines, 0 < x.2) (htare : ∀ x ∈ tare, 0 < x.2) {n m : ℕ} (hnm : n ≠ m) {s₁ : Db}
    (hafter : AfterTransfer env n source client (lines ++ tare) s s₁) :
    Insertable env m client source tare none s₁ := by
  have hpos : ∀ x ∈ lines ++ tare, 0 < x.2 := fun x hx =>
    (List.mem_append.mp hx).elim (hlines x) (htare x)
  have hother : ∀ j j', env.uuid m j ≠ env.uuid n j' := fun j j' he => hnm (h.ids_inj m j n j' he).1.symm
  have hdirectory : s₁.directory = s.directory := by
    obtain ⟨_, _, _, rfl⟩ := hafter.same
    rfl
  have hmoved := hafter.transferred
  rw [filter_of_pos hpos] at hmoved
  have hlinesNonneg : ∀ p, 0 ≤ amount lines p := Bag.amount_nonneg fun x hx => (hlines x hx).le
  have htareNonneg : ∀ p, 0 ≤ amount tare p := Bag.amount_nonneg fun x hx => (htare x hx).le
  refine ⟨fun j j' hj => (h.ids_inj m j m j' hj).2, ?_, fun j => ?_, ?_, ?_, h.route.symm, rfl,
    fun x hx => ?_, fun p _ => ?_⟩
  · exact (hafter.transfers_eq _ (hother 0)).trans (h.transfers_new m 0)
  · exact (hafter.movements_eq (hother j)).trans (h.movements_new m j)
  · rw [hdirectory]
    exact h.client_known
  · rw [hdirectory]
    exact h.source_known
  · have hpart := Bag.le_amount (fun y hy => (htare y hy).le) hx
    have hcovered := h.covered x.1
    have hrange := h.in_range source x.1
    have hlinesNonneg := hlinesNonneg x.1
    have hx := htare x hx
    rw [Bag.amount_append] at hcovered
    rw [int32_iff] at hrange ⊢
    omega
  · have hcovered := h.covered p
    have hsource := h.in_range source p
    have hclient := h.in_range client p
    have hroom := h.room p
    have hlinesNonneg := hlinesNonneg p
    have htareNonneg := htareNonneg p
    have hsource' := hmoved source p
    have hclient' := hmoved client p
    rw [if_neg h.route, if_pos rfl] at hsource'
    rw [if_pos rfl, if_neg h.route.symm] at hclient'
    rw [Bag.amount_append] at hcovered hroom hsource' hclient'
    rw [filter_of_pos htare, FitsColumn, FitsColumn, hsource', hclient']
    rw [int32_iff] at hsource hclient hroom
    simp only [int32_iff]
    omega

/-- Goods and containers go to the client and the containers come back. -/
theorem wp_exchanged (hexact : R.Exact) (hlax : R.Lax) {env : Env} {n m : ℕ} (hnm : n ≠ m)
    {source client : Uuid} {type type' : TransferType} {lines tare : List (Uuid × ℤ)} {u u' : Uuid}
    {v v' orderId orderId' : Option Uuid} (hlines : ∀ x ∈ lines, 0 < x.2)
    (htare : ∀ x ∈ tare, 0 < x.2) (hsure : Sure E (Exchangeable env source client (lines ++ tare) s))
    {Q : Unit → Db → Prop}
    (hQ : ∀ s', SameButStock s s' → Exchanged env n m source client lines tare s.balances s'.balances
      s'.stockTransactions → Q () s') :
    wp R (do
      createStockTransfer env n source client type (lines ++ tare) u v orderId none
      whenever (tare ≠ []) <|
        createStockTransfer env m client source type' tare u' v' orderId' none) Q E s := by
  have hpos : ∀ x ∈ lines ++ tare, 0 < x.2 := fun x hx =>
    (List.mem_append.mp hx).elim (hlines x) (htare x)
  rw [wp_bind]
  refine wp_createStockTransfer hexact hlax (Sure.granted (hsure.imp fun h => h.insertable hpos n)) ?_
    fun s₁ hafter => ?_
  · refine hsure.elim (fun h => .inl ⟨h.client_nonneg, fun _ p => ?_⟩) fun hany => .inr fun _ => hany _
    rw [filter_of_pos hpos]
    exact h.covered p
  have hmoved := hafter.transferred
  have hrecorded := hafter.recorded
  have hfits := hafter.fits
  rw [filter_of_pos hpos] at hmoved hrecorded hfits
  have hroom : ∀ p, 0 < amount (lines ++ tare) p →
      int32 (balance s.balances (client, p) + amount (lines ++ tare) p) = true := by
    intro p hp
    have hclient := hmoved client p
    rw [if_pos rfl, if_neg hafter.route.symm, sub_zero] at hclient
    rw [← hclient]
    exact hfits p hp
  rw [wp_whenever]
  refine ⟨fun _ => ?_, fun hnone => ?_⟩
  · refine wp_createStockTransfer hexact hlax
      (Sure.granted (hsure.imp fun h => h.insertable_after hlines htare hnm hafter)) ?_ fun s₂ hback => ?_
    · refine hsure.elim (fun h => .inl ⟨?_, fun hthere p => ?_⟩) fun hany => .inr fun _ => hany _
      · refine hafter.nonneg source (.inl rfl) fun _ p => ?_
        have hcovered := h.covered p
        have hnonneg := Bag.amount_nonneg (fun x hx => (hpos x hx).le) p
        omega
      · -- the client has just been handed the containers
        have hdirectory : s₁.directory = s.directory := by
          obtain ⟨_, _, _, rfl⟩ := hafter.same
          rfl
        have hstock := h.client_nonneg (hdirectory ▸ hthere) p
        have hnonneg := Bag.amount_nonneg (fun x hx => (hlines x hx).le) p
        rw [filter_of_pos htare, hmoved, if_pos rfl, if_neg (Ne.symm hafter.route), Bag.amount_append]
        omega
    · have hreturned := hback.transferred
      have hrecorded' := hback.recorded
      rw [filter_of_pos htare] at hreturned hrecorded'
      refine hQ s₂ ?_ ⟨hafter.route, fun i p => ?_, hroom, fun r hr => ?_, hrecorded'.found⟩
      · obtain ⟨_, _, _, rfl⟩ := hafter.same
        obtain ⟨_, _, _, rfl⟩ := hback.same
        exact ⟨_, _, _, rfl⟩
      · rw [hreturned, hmoved, Bag.amount_append]
        split <;> split <;> omega
      · exact hrecorded'.kept _ _ (hrecorded.found r hr)
  · obtain rfl := not_not.mp hnone
    rw [List.append_nil] at hmoved
    refine hQ s₁ hafter.same ⟨hafter.route, hmoved, hroom, hrecorded.found, fun r hr => ?_⟩
    exact absurd hr List.not_mem_nil

end Exchange

/-! ## The adjustment -/

/-- The total of an order once it has been delivered. -/
def deliveredTotal (o : Order) (actual : List OrderItemActual) : ℤ :=
  if actual.isEmpty then o.totalAmount else lineTotal (deliveredLines o actual)

/-- The counters after what was not handed over has been released. -/
def QuotaReleased (o : Order) (actual : List OrderItemActual)
    (t t' : Table (Uuid × Uuid) PriceItem) : Prop :=
  match o.contract? with
  | none => t' = t
  | some c => Released c (quotaDeltas actual o.items) t t' ∧
      ∀ x ∈ quotaDeltas actual o.items, (t.find? (c, x.1)).any PriceItem.isActive = true

/-- Nothing stops the adjustment of an order. -/
structure AdjustmentReady (o : Order) (actual : List OrderItemActual) (s : Db) : Prop where
  /-- The quantities may be written on the lines. -/
  adjustable : ∀ i ∈ o.items, Adjustable actual i
  /-- The counters of what is released exist. -/
  priced : ∀ c, o.contract? = some c → ∀ x ∈ quotaDeltas actual o.items, ∃ p,
    s.priceItems.find? (c, x.1) = some p ∧ p.isActive = true ∧ ∀ k ∈ p.constraints, k.1 = true
  /-- The total fits its column. -/
  total_range : int64 (deliveredTotal o actual) = true

section Adjustment

variable {R : Regime schema} {E : Err → Prop} {s : Db}

theorem deliveredLines_nil (o : Order) : deliveredLines o [] = o.items := List.map_id' o.items

theorem adjustItem_nil (i : OrderItem) : adjustItem [] i = i := rfl

theorem quotaDeltas_nil (items : List OrderItem) : quotaDeltas [] items = [] := by
  rw [quotaDeltas, List.filter_eq_nil_iff]
  intro x hx
  obtain ⟨i, -, rfl⟩ := List.mem_map.mp hx
  simp [adjustItem_nil]

theorem quotaReleased_nil (o : Order) (t : Table (Uuid × Uuid) PriceItem) :
    QuotaReleased o [] t t := by
  rw [QuotaReleased, quotaDeltas_nil]
  split
  · rfl
  · exact ⟨released_nil _ _, fun x hx => absurd hx List.not_mem_nil⟩

/-- An adjustment, if there is one, of an order whose row may already carry another status. -/
theorem wp_adjustment (hlax : R.Lax) {env : Env} {id : Uuid} {o row : Order}
    (hrow : s.orders.find? id = some row) (hitems : row.items = o.items)
    (htotal : row.totalAmount = o.totalAmount) (hnow : row.updatedAt = env.now)
    (actual : List OrderItemActual) (hsure : Sure E (AdjustmentReady o actual s))
    {Q : Order → Db → Prop}
    (hQ : ∀ orders t, (∀ i ∈ o.items, Adjustable actual i) →
      s.orders.Written orders id (some { row with
        items := deliveredLines o actual, totalAmount := deliveredTotal o actual }) →
      QuotaReleased o actual s.priceItems t →
      Q { o with items := deliveredLines o actual, totalAmount := deliveredTotal o actual }
        { s with orders, priceItems := t }) :
    wp R (if actual.isEmpty then ret o else adjustOrder env id o actual) Q E s := by
  cases actual with
  | nil =>
    have hsame : ({ row with items := deliveredLines o [], totalAmount := deliveredTotal o [] } : Order) =
        row := by
      rw [deliveredLines_nil, ← hitems]
      change { row with items := row.items, totalAmount := o.totalAmount } = row
      rw [← htotal]
    have h := hQ s.orders s.priceItems (fun i hi requested h => by cases h)
      (Table.written_self (hrow.trans (congrArg some hsame.symm))) (quotaReleased_nil o _)
    have horder : ({ o with items := deliveredLines o [], totalAmount := deliveredTotal o [] } : Order) =
        o := by
      rw [deliveredLines_nil]
      rfl
    rw [horder] at h
    exact h
  | cons x actual =>
    generalize hall : x :: actual = actual' at *
    have hnotEmpty : actual'.isEmpty = false := by rw [← hall]; rfl
    have htotal' : deliveredTotal o actual' = lineTotal (deliveredLines o actual') := by
      rw [deliveredTotal, hnotEmpty]
      rfl
    rw [hnotEmpty, if_neg Bool.false_ne_true, adjustOrder, wp_bind, ← hitems]
    refine wp_adjustLines (fun _ _ => hlax _ _ _) hrow actual' ?_ fun orders hadjustable hwritten => ?_
    · rw [hitems]
      exact hsure.elim (fun h => .inl h.adjustable) fun hany => .inr fun e _ => hany e
    rw [hitems] at hadjustable hwritten ⊢
    -- the last statements, for any counter table that goes with the lines
    have hrest : ∀ t, QuotaReleased o actual' s.priceItems t → wp R (do
        issue (.order id)
          (.update { totalAmount := some (lineTotal (o.items.map (adjustItem actual'))) } env.now)
        ret { o with
          items := o.items.map (adjustItem actual')
          totalAmount := lineTotal (o.items.map (adjustItem actual')) }) Q E
        { s with orders := orders, priceItems := t } := by
      intro t hquota
      rw [wp_bind]
      have hfind := hwritten.find?_self
      let new : Order := { row with
        items := deliveredLines o actual', totalAmount := deliveredTotal o actual' }
      have hexec : exec (.order id)
          (.update { totalAmount := some (lineTotal (o.items.map (adjustItem actual'))) } env.now)
          (orders.find? id) = checked new [(int64 new.totalAmount, .outOfRange "orders.total_amount"),
            (fits 500 none, .stringTooLong "orders.cancellation_reason")] := by
        change (OrderStmt.update _ env.now).exec (orders.find? id) = _
        rw [hfind]
        simp only [new, OrderStmt.exec, Order.set, Option.getD_none, Option.getD_some,
          Option.none_or, htotal', deliveredLines, ← hnow]
      refine wp_checked (k := .order id) hlax hexec (hsure.imp fun h => ?_) fun _ => ?_
      · simp only [new, List.forall_mem_cons, List.not_mem_nil, false_implies, implies_true, and_true]
        exact ⟨h.total_range, rfl⟩
      · have h := hQ (orders.put id (some new)) t hadjustable (hwritten.put _) hquota
        rw [htotal'] at h
        exact h
    rw [wp_bind, wp_whenSome]
    refine ⟨fun c hcontract => ?_, fun hnone => hrest s.priceItems ?_⟩
    · refine wp_releaseAll (s := { s with orders := orders }) hlax (quotaDeltas_pos actual' o.items)
        (hsure.imp fun h => h.priced c hcontract) fun t hreleased hactive => hrest t ?_
      rw [QuotaReleased, hcontract]
      exact ⟨hreleased, hactive⟩
    · rw [QuotaReleased, hnone]

end Adjustment

/-! ## The fulfillment -/

/-- An order with what was handed over. -/
def handedOver (o : Order) (actual : List OrderItemActual) : Order :=
  { o with items := deliveredLines o actual, totalAmount := deliveredTotal o actual }

/-- The debt of a delivered order and its payment. -/
abbrev SettlesDelivery (env : Env) (id : Uuid) (o : Order) : Directory → Account → Account →
    List FinancialTransaction → Prop :=
  Settling env id o "Задолженность за заказ" (deliveryPayment env id o)

/-- Nothing stops the fulfillment of an order. -/
structure FulfillmentReady (env : Env) (id : Uuid) (o : Order) (actual : List OrderItemActual)
    (s : Db) : Prop where
  /-- What was handed over can be entered. -/
  adjustment : AdjustmentReady o actual s
  /-- The primary key of the inventories. -/
  ids_nodup : (s.directory.inventories.map Inventory.id).Nodup
  /-- The courier has one vehicle, and it can hand over the goods. -/
  handover : ∃ courierId van, o.courierId = some courierId ∧
    vehicles s.directory courierId = [van] ∧
    Exchangeable env van.id o.clientInventoryId
      (movedItems (deliveredLines o actual) ++ containers s (deliveredLines o actual)) s
  /-- The amount can be settled. -/
  settlement : ∃ client revenue rows,
    SettlesDelivery env id (handedOver o actual) s.directory client revenue rows ∧
      Enterable (settlementRows env rows) s

/-- What a fulfilled order leaves. -/
structure Fulfilled (env : Env) (id : Uuid) (o row : Order) (actual : List OrderItemActual)
    (s s' : Db) : Prop where
  /-- The quantities were admitted. -/
  adjustable : ∀ i ∈ o.items, Adjustable actual i
  /-- The lines and the total are those that were handed over. -/
  written : s.orders.Written s'.orders id (some (handedOver row actual))
  /-- The rest of the quota is free again. -/
  released : QuotaReleased o actual s.priceItems s'.priceItems
  /-- The goods have moved. -/
  handover : ∃ courierId van, o.courierId = some courierId ∧
    vehicles s.directory courierId = [van] ∧
    Exchanged env 2 3 van.id o.clientInventoryId (movedItems (deliveredLines o actual))
      (containers s (deliveredLines o actual)) s.balances s'.balances s'.stockTransactions
  /-- The amount has been settled. -/
  settled : ∃ client revenue rows,
    SettlesDelivery env id (handedOver o actual) s.directory client revenue rows ∧
      Entered rows s.transactions s'.transactions s.accountBalances s'.accountBalances

section Fulfillment

variable {R : Regime schema} {E : Err → Prop} {s : Db}

/-- A stock that covers the lines together covers each of them. -/
theorem stockShortages_of_covered {b : Uuid → ℤ} {items : List OrderItem} {tare : List (Uuid × ℤ)}
    (htare : ∀ x ∈ tare, 0 < x.2) (hcovered : ∀ p, amount (movedItems items ++ tare) p ≤ b p) :
    stockShortages b items = [] := by
  rw [stockShortages_eq_nil]
  intro i hi
  have hlines := Bag.amount_nonneg (fun x hx => (movedItems_pos items x hx).le) i.productId
  have hrest := Bag.amount_nonneg (fun x hx => (htare x hx).le) i.productId
  have hall := hcovered i.productId
  rw [Bag.amount_append] at hall
  by_cases hpos : 0 < i.quantity
  · have hmem : i.pair ∈ movedItems items :=
      List.mem_map.mpr ⟨i, List.mem_filter.mpr ⟨hi, decide_eq_true hpos⟩, rfl⟩
    have hpart : i.quantity ≤ amount (movedItems items) i.productId :=
      Bag.le_amount (fun y hy => (movedItems_pos items y hy).le) hmem
    omega
  · omega

/-- The fulfillment of an order whose row already carries its new status. -/
theorem wp_fulfilled (hexact : R.Exact) (hlax : R.Lax) {env : Env} {id : Uuid} {o row : Order}
    (hrow : s.orders.find? id = some row) (hitems : row.items = o.items)
    (htotal : row.totalAmount = o.totalAmount) (hnow : row.updatedAt = env.now)
    (actual : List OrderItemActual) (hheld : AccountsHeld s)
    (hsure : Sure E (FulfillmentReady env id o actual s)) {Q : Unit → Db → Prop}
    (hQ : ∀ s', Fulfilled env id o row actual s s' → Q () s') :
    wp R (handleOrderFulfillment env id o actual) Q E s := by
  rw [handleOrderFulfillment, wp_bind, wp_orRaise]
  refine ⟨fun hnone => hsure.err (fun hready => ?_) _, fun courierId hcourier => ?_⟩
  · obtain ⟨_, _, hcourier, -⟩ := hready.handover
    exact absurd (hnone.symm.trans hcourier) (by simp)
  rw [wp_bind]
  refine wp_adjustment hlax hrow hitems htotal hnow actual (hsure.imp fun h => h.adjustment)
    fun orders t hadjustable hwritten hreleased => ?_
  have hsame : ({ row with items := deliveredLines o actual, totalAmount := deliveredTotal o actual } : Order) =
      handedOver row actual := by
    rw [handedOver, deliveredTotal, deliveredTotal, deliveredLines, deliveredLines, hitems, htotal]
  rw [hsame] at hwritten
  have hthere : ∀ j, (s.orders.find? j).isSome = true → (orders.find? j).isSome = true := by
    intro j hj
    rw [hwritten j]
    split
    · rfl
    · exact hj
  have hready : ∀ van, vehicles s.directory courierId = [van] → FulfillmentReady env id o actual s →
      Exchangeable env van.id o.clientInventoryId
        (movedItems (deliveredLines o actual) ++ containers s (deliveredLines o actual)) s := by
    intro van hvan h
    obtain ⟨courierId', van', hcourier', hvan', hexchangeable⟩ := h.handover
    cases hcourier.symm.trans hcourier'
    cases hvan.symm.trans hvan'
    exact hexchangeable
  rw [wp_bind]
  refine wp_deliverStock_reads hexact ?_ (Sure.granted (hsure.imp fun h => h.ids_nodup))
    (fun van hvan hshort => hsure.err (fun h => hshort ?_) _) fun van hvan _ => ?_
  · refine Sure.granted (hsure.imp fun h => ?_)
    obtain ⟨courierId', van, hcourier', hvan, -⟩ := h.handover
    cases hcourier.symm.trans hcourier'
    exact ⟨van, hvan⟩
  · exact stockShortages_of_covered (containers_pos s _) (hready van hvan h).covered
  · have hexchangeable := hsure.imp (hready van hvan)
    refine wp_exchanged (s := { s with orders := orders, priceItems := t }) hexact hlax (by decide : 2 ≠ 3)
      (movedItems_pos _) (containers_pos _ _)
      (hexchangeable.imp fun h => h.of_same rfl rfl rfl rfl) ?_
    intro s₂ hsame hexchanged
    obtain ⟨b, transfers, movements, rfl⟩ := hsame
    let s₂ : Db := { s with
      orders := orders, priceItems := t, balances := b, stockTransfers := transfers
      stockTransactions := movements }
    refine wp_settled (s := s₂) hexact hlax env id _ _ _ _ hheld (hsure.imp fun h => ?_)
      fun client revenue rows t' b' hsettling hentered => ?_
    · obtain ⟨client, revenue, rows, hsettling, henterable⟩ := h.settlement
      exact ⟨client, revenue, rows, hsettling, henterable.of_same rfl rfl rfl hthere⟩
    · exact hQ _ ⟨hadjustable, hwritten, hreleased, ⟨courierId, van, hcourier, hvan, hexchanged⟩,
        client, revenue, rows, hsettling, hentered⟩

end Fulfillment

/-! ## The request -/

/-- The row of an order that is being delivered. -/
def underDelivery (env : Env) (o : Order) : Order :=
  { o with status := .delivered, updatedAt := env.now }

/-- The row of an order that has been delivered. -/
def deliveredRow (env : Env) (o : Order) (actual : List OrderItemActual) (u : Option Uuid)
    (reason : Option String) : Order :=
  { handedOver (underDelivery env o) actual with
    statusLogs := o.statusLogs ++ [⟨some o.status, .delivered, u, reason⟩] }

/-- Nothing stops a delivery. -/
structure DeliveryReady (env : Env) (id : Uuid) (o : Order) (actual : List OrderItemActual)
    (u : Option Uuid) (reason : Option String) (s : Db) : Prop where
  /-- The user may act for the order. -/
  access : u.any (fun x => x ∉ o.courierId ∧ x ≠ o.clientId) = false
  /-- The order is a delivery. -/
  sale : o.saleType = .delivery
  /-- The courier is there. -/
  arrived : o.status = .arrived
  /-- The total fits its column. -/
  total_range : int64 o.totalAmount = true
  /-- The reason fits its column. -/
  reason_fits : fits 500 reason = true
  /-- The order can be fulfilled. -/
  fulfillment : FulfillmentReady env id { o with status := .delivered } actual s

/-- What a delivered order leaves. -/
structure Delivered (env : Env) (id : Uuid) (o : Order) (actual : List OrderItemActual)
    (u : Option Uuid) (reason : Option String) (s s' : Db) : Prop where
  /-- The quantities were admitted. -/
  adjustable : ∀ i ∈ o.items, Adjustable actual i
  /-- The row of the order. -/
  written : s.orders.Written s'.orders id (some (deliveredRow env o actual u reason))
  /-- The rest of the quota is free again. -/
  released : QuotaReleased o actual s.priceItems s'.priceItems
  /-- The goods have moved. -/
  handover : ∃ courierId van, o.courierId = some courierId ∧
    vehicles s.directory courierId = [van] ∧
    Exchanged env 2 3 van.id o.clientInventoryId (movedItems (deliveredLines o actual))
      (containers s (deliveredLines o actual)) s.balances s'.balances s'.stockTransactions
  /-- The amount has been settled. -/
  settled : ∃ client revenue rows,
    SettlesDelivery env id { handedOver o actual with status := .delivered } s.directory client
      revenue rows ∧
    Entered rows s.transactions s'.transactions s.accountBalances s'.accountBalances

section Request

variable {R : Regime schema} {E : Err → Prop} {s : Db}

/-- A delivery is only let through if the courier is there. -/
theorem wp_deliveryAllowed {id : Uuid} {o : Order} (hfresh : o.status ≠ .delivered)
    (hsure : Sure E (o.saleType = .delivery ∧ o.status = .arrived)) {Q : Unit → Db → Prop}
    (hQ : Q () s) : wp R (ensureStatusTransitionAllowed id o .delivered) Q E s := by
  rw [ensureStatusTransitionAllowed, wp_whenever]
  refine ⟨fun _ => ?_, fun h => absurd hfresh h⟩
  rw [wp_bind]
  refine wp_sure (hsure.imp fun hready h => ?_) fun _ => ?_
  · rw [hready.1] at h
    exact absurd h.1 (by decide)
  rw [wp_bind]
  refine wp_sure (hsure.imp fun hready h => ?_) fun _ => ?_
  · rw [hready.1] at h
    exact absurd h.1 (by decide)
  refine wp_sure (hsure.imp fun hready h => ?_) fun _ => hQ
  rw [hready.1, hready.2] at h
  exact absurd (by decide) h

/-- A delivery that has not been made before. -/
theorem wp_delivered (hexact : R.Exact) (hlax : R.Lax) {env : Env} {id : Uuid} {o : Order}
    (ho : s.orders.find? id = some o) (hfresh : o.status ≠ .delivered)
    (actual : List OrderItemActual) (u : Option Uuid) (reason : Option String)
    (hheld : AccountsHeld s) (hsure : Sure E (DeliveryReady env id o actual u reason s))
    {Q : Unit → Db → Prop} (hQ : ∀ s', Delivered env id o actual u reason s s' → Q () s') :
    wp R (updateStatus env id .delivered actual u reason) Q E s := by
  rw [updateStatus, wp_bind, getOrderLocked, wp_bind, wp_locked, wp_orRaise]
  refine ⟨fun hnone => ?_, fun order horder => ?_⟩
  · exact absurd (hnone.symm.trans ho) (by simp)
  cases ho.symm.trans horder
  rw [wp_bind]
  refine wp_sure (hsure.imp fun h => by rw [h.access]; exact Bool.false_ne_true) fun _ => ?_
  rw [wp_bind]
  refine wp_deliveryAllowed hfresh (hsure.imp fun h => ⟨h.sale, h.arrived⟩) ?_
  have hstatus : exec (.order id) (.update { status := some .delivered } env.now)
      (s.orders.find? id) = checked (underDelivery env o)
        [(int64 o.totalAmount, .outOfRange "orders.total_amount"),
          (fits 500 none, .stringTooLong "orders.cancellation_reason")] := by
    rw [ho]
    rfl
  rw [wp_bind]
  refine wp_checked (k := .order id) hlax hstatus (hsure.imp fun h => ?_) fun _ => ?_
  · simp only [List.forall_mem_cons, List.not_mem_nil, false_implies, implies_true, and_true]
    exact ⟨h.total_range, rfl⟩
  have hwritten := Table.written_put s.orders id (some (underDelivery env o))
  rw [wp_bind, wp_whenever]
  refine ⟨fun _ => ?_, fun h => absurd ⟨hfresh, rfl⟩ h⟩
  have hrow : (s.put (.order id) (some (underDelivery env o))).orders.find? id =
      some (underDelivery env o) := hwritten.find?_self
  refine wp_fulfilled (o := { o with status := .delivered }) hexact hlax hrow rfl rfl rfl
    actual hheld (hsure.imp fun h => ?_) fun s' hfulfilled => ?_
  · obtain ⟨client, revenue, rows, hsettling, henterable⟩ := h.fulfillment.settlement
    obtain ⟨courierId, van, hcourier, hvan, hexchangeable⟩ := h.fulfillment.handover
    have hadjustment := h.fulfillment.adjustment
    refine ⟨⟨hadjustment.adjustable, hadjustment.priced, hadjustment.total_range⟩,
      h.fulfillment.ids_nodup,
      ⟨courierId, van, hcourier, hvan, hexchangeable.of_same rfl rfl rfl rfl⟩, client, revenue, rows,
      hsettling, henterable.of_same rfl rfl rfl fun j hj => ?_⟩
    change ((s.orders.put id _).find? j).isSome = true
    rw [hwritten j]
    split
    · rfl
    · exact hj
  rw [wp_bind, wp_whenever]
  refine ⟨fun h => absurd h.1 (by decide), fun _ => ?_⟩
  rw [wp_bind, wp_whenever]
  refine ⟨fun h => absurd h.1 (by decide), fun _ => ?_⟩
  have hlog : exec (.order id) (.logTransition ⟨some o.status, .delivered, u, reason⟩)
      (s'.orders.find? id) = checked (deliveredRow env o actual u reason)
        [(fits 500 reason, .stringTooLong "order_status_logs.reason")] := by
    rw [hfulfilled.written.find?_self]
    rfl
  refine wp_checked (k := .order id) hlax hlog (hsure.imp fun h => ?_) fun _ => hQ _ ?_
  · simp only [List.forall_mem_cons, List.not_mem_nil, false_implies, implies_true, and_true]
    exact h.reason_fits
  · exact ⟨hfulfilled.adjustable, (hwritten.trans hfulfilled.written).put _, hfulfilled.released,
      hfulfilled.handover, hfulfilled.settled⟩

end Request

/-! ## The net effect -/

/-- The pieces of a product on some lines. -/
def pieces (items : List OrderItem) (p : Uuid) : ℤ := amount (items.map OrderItem.pair) p

theorem movedItems_of_pos {items : List OrderItem} (h : ∀ i ∈ items, 0 < i.quantity) :
    movedItems items = items.map OrderItem.pair := by
  have hall : (items.filter fun i => 0 < i.quantity) = items :=
    List.filter_eq_self.mpr fun i hi => decide_eq_true (h i hi)
  rw [movedItems, hall]

/-- The account that some user's query finds. -/
theorem userAccountByType_mem {d : Directory} {u : Uuid} {type : AccountType} {a : Account}
    (h : d.userAccountByType u type = some a) : a ∈ d.accounts ∧ a.userId = u ∧ a.type = type := by
  have hmem := List.mem_of_mem_head? h
  rw [List.mem_insertionSort, List.mem_filter] at hmem
  simp only [Bool.and_eq_true, decide_eq_true_eq] at hmem
  exact ⟨hmem.1, hmem.2.1⟩

/-- Accounts of two types are two accounts. -/
theorem accountIds_ne {d : Directory} (hids : (d.accounts.map Account.id).Nodup) {u u' : Uuid}
    {type type' : AccountType} (htypes : type ≠ type') {a a' : Account}
    (h : d.userAccountByType u type = some a) (h' : d.userAccountByType u' type' = some a') :
    a.id ≠ a'.id := by
  intro hid
  obtain ⟨hmem, -, htype⟩ := userAccountByType_mem h
  obtain ⟨hmem', -, htype'⟩ := userAccountByType_mem h'
  have hsame := List.inj_on_of_nodup_map hids hmem hmem' hid
  rw [hsame] at htype
  exact htypes (htype.symm.trans htype')

/-- The client's account or the courier's, but never the revenue. -/
theorem deliveryDebtor_ne {d : Directory} (hids : (d.accounts.map Account.id).Nodup) {o : Order}
    {client revenue debtor : Account} (hclient : d.clientAccount o.clientId = some client)
    (hrevenue : d.systemRevenueAccount = some revenue)
    (hdebtor : deliveryDebtor d o client = some debtor) : debtor.id ≠ revenue.id := by
  rw [deliveryDebtor] at hdebtor
  split at hdebtor
  · exact accountIds_ne hids (by decide) hdebtor hrevenue
  · cases hdebtor
    exact accountIds_ne hids (by decide) hclient hrevenue

/-- Stock and money before and after the delivery of the lines of an order. -/
structure NetDelivery (o : Order) (s s' : Db) : Prop where
  /-- The lines have gone from the courier's only vehicle to the client. -/
  stock : ∃ courierId van, o.courierId = some courierId ∧ vehicles s.directory courierId = [van] ∧
    van.id ≠ o.clientInventoryId ∧ ∀ i p, stockOf s' i p = stockOf s i p +
      (if i = o.clientInventoryId then pieces o.items p else 0) -
      (if i = van.id then pieces o.items p else 0)
  /-- The total has gone from the revenue to the courier or to the client. -/
  money : ∃ client revenue debtor, s.directory.clientAccount o.clientId = some client ∧
    s.directory.systemRevenueAccount = some revenue ∧
    deliveryDebtor s.directory o client = some debtor ∧
    client.id ≠ revenue.id ∧ debtor.id ≠ revenue.id ∧
    (o.paymentMethod = .cash → client.id ≠ debtor.id) ∧
    ∀ a, balance s'.accountBalances a = balance s.accountBalances a +
      (if a = debtor.id then o.totalAmount else 0) - (if a = revenue.id then o.totalAmount else 0)

/-- What a delivery leaves, in total. -/
theorem Delivered.net {env : Env} {id : Uuid} {o : Order} {actual : List OrderItemActual}
    {u : Option Uuid} {reason : Option String} {s s' : Db}
    (h : Delivered env id o actual u reason s s') (hlines : ∀ i ∈ o.items, 0 < i.quantity)
    (hids : (s.directory.accounts.map Account.id).Nodup) :
    NetDelivery (deliveredRow env o actual u reason) s s' := by
  constructor
  · obtain ⟨courierId, van, hcourier, hvan, hexchanged⟩ := h.handover
    have hpos : ∀ i ∈ deliveredLines o actual, 0 < i.quantity := by
      intro i hi
      obtain ⟨j, hj, rfl⟩ := List.mem_map.mp hi
      exact ((h.adjustable j hj).range (hlines j hj)).1
    have hmoved := hexchanged.transferred
    rw [movedItems_of_pos hpos] at hmoved
    exact ⟨courierId, van, hcourier, hvan, hexchanged.route, hmoved⟩
  · obtain ⟨client, revenue, rows, hsettling, hentered⟩ := h.settled
    obtain ⟨debtor, hdebtor, hends⟩ := hsettling.delivery
    refine ⟨client, revenue, debtor, hsettling.client_eq, hsettling.revenue_eq, hdebtor,
      accountIds_ne hids (by decide) hsettling.client_eq hsettling.revenue_eq,
      deliveryDebtor_ne hids hsettling.client_eq hsettling.revenue_eq hdebtor, fun hcash => ?_, ?_⟩
    · have hmethod : o.paymentMethod = .cash := hcash
      have hcourier : deliveryDebtor s.directory
          { handedOver o actual with status := .delivered } client = some debtor := hdebtor
      obtain ⟨courierId, _, hassigned, -⟩ := h.handover
      rw [deliveryDebtor] at hcourier
      simp only [handedOver, hmethod, hassigned] at hcourier
      exact accountIds_ne hids (by decide) hsettling.client_eq hcourier
    · intro a
      have hbalance := hentered.balance_eq a
      rw [hends a] at hbalance
      rw [hbalance]
      exact (add_sub_assoc _ _ _).symm

/-- An order that has been delivered before is not delivered again. -/
theorem wp_deliveredBefore {env : Env} {id : Uuid} {s : Db} {o : Order}
    (ho : s.orders.find? id = some o) (hdelivered : o.status = .delivered)
    (actual : List OrderItemActual) (u : Option Uuid) (reason : Option String) :
    wp Regime.serial (updateStatus env id .delivered actual u reason)
      (fun _ s' => s'.balances = s.balances ∧ s'.accountBalances = s.accountBalances)
      (fun _ => True) s := by
  have hlax : Regime.Lax (S := schema) Regime.serial := Regime.serial_lax
  rw [updateStatus, wp_bind, getOrderLocked, wp_bind, wp_locked, wp_orRaise]
  refine ⟨fun _ => trivial, fun order horder => ?_⟩
  cases ho.symm.trans horder
  rw [wp_bind, wp_raiseIf]
  refine ⟨fun _ => trivial, fun _ => ?_⟩
  rw [wp_bind, ensureStatusTransitionAllowed, wp_whenever]
  refine ⟨fun h => absurd hdelivered h, fun _ => ?_⟩
  rw [wp_bind]
  refine wp_execute_of (hlax _ _ _) (fun _ row _ => ?_) fun _ _ => trivial
  rw [wp_bind, wp_whenever]
  refine ⟨fun h => absurd hdelivered h.1, fun _ => ?_⟩
  rw [wp_bind, wp_whenever]
  refine ⟨fun h => absurd h.1 (by decide), fun _ => ?_⟩
  rw [wp_bind, wp_whenever]
  refine ⟨fun h => absurd h.1 (by decide), fun _ => ?_⟩
  refine wp_execute_of (hlax _ _ _) (fun _ row' _ => ?_) fun _ _ => trivial
  exact ⟨rfl, rfl⟩

/-- A delivery that has been made before changes neither stock nor money, and
any other moves the delivered lines and their amount. -/
theorem delivery_net_effect {env : Env} {id : Uuid} {actual : List OrderItemActual}
    {u : Option Uuid} {reason : Option String} {s s' : Db} {o : Order}
    (ho : s.orders.find? id = some o) (hlines : ∀ i ∈ o.items, 0 < i.quantity)
    (hheld : AccountsHeld s) (hids : (s.directory.accounts.map Account.id).Nodup)
    (hrun : (updateStatus env id .delivered actual u reason).run s = .ok ((), s')) :
    (o.status = .delivered →
      s'.balances = s.balances ∧ s'.accountBalances = s.accountBalances) ∧
    (o.status ≠ .delivered →
      ∃ o', s'.orders.find? id = some o' ∧ o'.status = .delivered ∧ NetDelivery o' s s') := by
  constructor
  · intro hdelivered
    exact wp_serial_run (wp_deliveredBefore ho hdelivered actual u reason) hrun
  · intro hfresh
    have hexact : Regime.Exact (S := schema) Regime.serial :=
      Regime.serialAsserting_exact (S := schema) _
    have hwp : wp Regime.serial (updateStatus env id .delivered actual u reason)
        (fun _ s' => ∃ o', s'.orders.find? id = some o' ∧ o'.status = .delivered ∧
          NetDelivery o' s s') (fun _ => True) s := by
      refine wp_delivered hexact Regime.serial_lax ho hfresh actual u reason hheld
        (.inr fun _ => trivial) fun s' hdelivered => ?_
      exact ⟨_, hdelivered.written.find?_self, rfl, hdelivered.net hlines hids⟩
    exact wp_serial_run hwp hrun

/-- The courier is at the client's door, or has been there. -/
def doorstep (status : OrderStatus) : Db :=
  { sampleDb with orders := Table.empty.put 1 (some { sampleOrder with status := status }) }

theorem doorstep_order (status : OrderStatus) :
    (doorstep status).orders.find? 1 = some { sampleOrder with status := status } :=
  Table.find?_put_self _ _ _

theorem doorstep_held (status : OrderStatus) : AccountsHeld (doorstep status) := by
  intro id hid
  have hall : ∀ a ∈ sampleDb.directory.accounts,
      (sampleDb.accountBalances.find? a.id).isSome = true := by decide
  obtain ⟨a, ha⟩ := Option.isSome_iff_exists.mp hid
  have hid : a.id = id := by simpa using List.find?_some ha
  have hheld := hall a (List.mem_of_find?_eq_some ha)
  rw [hid] at hheld
  exact hheld

/-- One of the two waters is handed over. -/
theorem delivery_net_effect_sample : ∃ s', (updateStatus sampleEnv 1 .delivered [⟨21, 1, by decide⟩] (some 6)
    none).run (doorstep .arrived) = .ok ((), s') ∧
    ∃ o', s'.orders.find? 1 = some o' ∧ o'.status = .delivered ∧
      NetDelivery o' (doorstep .arrived) s' := by
  have hsucceeds : ((updateStatus sampleEnv 1 .delivered [⟨21, 1, by decide⟩] (some 6) none).run
      (doorstep .arrived)).isOk = true := by decide +kernel
  cases hrun : (updateStatus sampleEnv 1 .delivered [⟨21, 1, by decide⟩] (some 6) none).run
      (doorstep .arrived) with
  | error e =>
    rw [hrun] at hsucceeds
    cases hsucceeds
  | ok x =>
    have hnet := delivery_net_effect (doorstep_order .arrived) (by decide) (doorstep_held .arrived)
      (by decide) hrun
    exact ⟨x.2, rfl, hnet.2 (by decide)⟩

/-- A second delivery succeeds and hands nothing over. -/
theorem second_delivery : ¬ ∀ (env : Env) (id : Uuid) (actual : List OrderItemActual)
    (u : Option Uuid) (reason : Option String) (s s' : Db) (o : Order),
    s.orders.find? id = some o → (∀ i ∈ o.items, 0 < i.quantity) → AccountsHeld s →
    (s.directory.accounts.map Account.id).Nodup →
    (updateStatus env id .delivered actual u reason).run s = .ok ((), s') →
    ∃ o', s'.orders.find? id = some o' ∧ NetDelivery o' s s' := by
  intro hclaim
  have hsucceeds : (match (updateStatus sampleEnv 1 .delivered [] none none).run
        (doorstep .delivered) with
      | .ok x => (x.2.orders.find? 1).map fun o => pieces o.items 21
      | .error _ => none) = some 2 := by decide +kernel
  cases hrun : (updateStatus sampleEnv 1 .delivered [] none none).run (doorstep .delivered) with
  | error e =>
    rw [hrun] at hsucceeds
    cases hsucceeds
  | ok x =>
    rw [hrun] at hsucceeds
    obtain ⟨o', ho', hnet⟩ := hclaim _ _ _ _ _ _ _ _ (doorstep_order .delivered) (by decide)
      (doorstep_held .delivered) (by decide) hrun
    obtain ⟨o, ho, hpieces⟩ := Option.map_eq_some_iff.mp hsucceeds
    cases ho.symm.trans ho'
    obtain ⟨hkept, -⟩ := wp_serial_run (wp_deliveredBefore (doorstep_order .delivered) rfl [] none none)
      hrun
    obtain ⟨courierId, van, hcourier, hvan, hroute, hmoved⟩ := hnet.stock
    have hclient := hmoved o'.clientInventoryId 21
    rw [if_pos rfl, if_neg (Ne.symm hroute), stockOf, stockOf, hkept, hpieces] at hclient
    omega

end Munavvar.Deliveries
