import Munavvar.Operations

/-!
# What an operation can change

The steps of a single order, with the fields they leave alone, and the changes
of the database that a request can make: one order takes a step, several orders
are cancelled, a price item or an invoice is written. Quota counters follow
what the orders hold, and an order that becomes settled posts its transactions.
-/

namespace Munavvar.OrderChanges

open Munavvar.KeyedTable
open Munavvar.Transaction
open Munavvar.Database
open Munavvar.Statements
open Munavvar.StockLedger
open Munavvar.FinancialLedger
open Munavvar.OrderQueries
open Munavvar.Fulfillment
open Munavvar.OrderService
open Munavvar.ContractService
open Munavvar.Operations
open Munavvar.Quota
open Munavvar.Bag (amount)

/-! ## Orders -/

/-- How many pieces of a price item's quota an order holds. -/
def held (o : Order) (k : Uuid × Uuid) : ℤ :=
  if o.quantitiesReserved then o.contract?.elim 0 fun c => demand c (o.items.map OrderItem.pair) k
  else 0

/-- Goods and money have changed hands. -/
def isSettled (o : Order) : Bool := o.status = .delivered || o.status = .pickupCompleted

/-- A quota is held by the orders of a contract that are not cancelled. -/
structure OrderOk (o : Order) : Prop where
  /-- The flag tells whether the order holds quota. -/
  reserved_iff : o.quantitiesReserved = true ↔ o.contract?.isSome = true ∧ o.status ≠ .cancelled
  /-- The lines satisfy their constraints. -/
  items_ok : ∀ i ∈ o.items, LineOk i

theorem OrderOk.quantity_pos {o : Order} (h : OrderOk o) : ∀ i ∈ o.items, 0 < i.quantity :=
  fun i hi => (h.items_ok i hi).quantity_pos

/-- The price that a product would be added to an order at. -/
def effectivePrice (s : Db) (o : Order) (productId : Uuid) : Option ℤ :=
  match o.contract? with
  | some c => ((s.priceItems.find? (c, productId)).filter PriceItem.isActive).map PriceItem.price
  | none => ((s.products.find? productId).filter Product.isActive).map Product.price

/-- The lines before and after some pieces of a product were added. -/
inductive LineAdded (items : List OrderItem) (productId : Uuid) (quantity price : ℤ) :
    List OrderItem → Prop
  /-- The line of the product grows and keeps its price. -/
  | merged {index : ℕ} {i : OrderItem} (hline : items[index]? = some i)
      (hproduct : i.productId = productId) :
    LineAdded items productId quantity price
      (items.set index { i with quantity := i.quantity + quantity })
  /-- A new line is made at the current price. -/
  | appended (hnew : ∀ i ∈ items, i.productId ≠ productId) (hprice : 0 ≤ price) :
    LineAdded items productId quantity price (items ++ [⟨productId, quantity, price⟩])

/-- The lines and the total before and after they were adjusted to a delivery. -/
inductive Adjusted (o : Order) : List OrderItem → ℤ → Prop
  /-- Everything was delivered. -/
  | whole : Adjusted o o.items o.totalAmount
  /-- Some lines were reduced. -/
  | partly (actual : List OrderItemActual)
      (hactual : ∀ i ∈ o.items, 0 < (adjustItem actual i).quantity ∧
        (adjustItem actual i).quantity ≤ i.quantity) :
    Adjusted o (o.items.map (adjustItem actual)) (lineTotal (o.items.map (adjustItem actual)))

/-- An order is placed on the terms of an active contract of its client. -/
structure OnTerms (s : Db) (o : Order) (c : Uuid) : Prop where
  /-- The contract. -/
  contract : ∃ k, s.contracts.find? c = some k ∧ k.clientId = o.clientId ∧ k.status = .active ∧
    k.isActive = true
  /-- The prices are those of its price list. -/
  prices : ∀ i ∈ o.items, ∃ p, s.priceItems.find? (c, i.productId) = some p ∧
    p.isActive = true ∧ i.unitPrice = p.price

section Steps

variable (R : Regime schema) (r : Request) (s : Db) (id : Uuid)

/-- What a request can do to one order. -/
inductive OrderStep : Option Order → Order → Prop
  /-- `create_order`. -/
  | placed {o : Order} (hstatus : o.status = .new) (hsale : o.saleType = .delivery)
      (hitems : ∀ i ∈ o.items, LineOk i) (hnodup : (o.items.map OrderItem.productId).Nodup)
      (htotal : o.totalAmount = lineTotal o.items)
      (hreserved : o.quantitiesReserved = o.contract?.isSome)
      (hcreated : o.createdAt = r.env.now)
      (hlogs : o.statusLogs = [⟨none, .new, some o.clientId, none⟩])
      (hop : ∃ dto, r.op = .createOrder o.clientId dto ∧
        o.clientInventoryId = dto.clientInventoryId)
      (hmethod : o.paymentMethod = .contract ↔ o.contractId.isSome = true)
      (hterms : ∀ c, o.contractId = some c → OnTerms s o c) (hnonempty : o.items ≠ [])
      (hcourier : o.courierId = none)
      (hclient : R.Exact → (s.users.find? o.clientId).any (fun u =>
        (u.role = .clientB2B || u.role = .clientB2C) && u.isActive) = true) :
    OrderStep none o
  /-- `create_warehouse_sale`. -/
  | sold {o : Order} {by_ : Uuid} (hstatus : o.status = .pickupCompleted)
      (hsale : o.saleType = .warehousePickup) (hitems : ∀ i ∈ o.items, LineOk i)
      (htotal : o.totalAmount = lineTotal o.items) (hcontract : o.contractId = none)
      (hreserved : o.quantitiesReserved = false) (hcreated : o.createdAt = r.env.now)
      (hlogs : o.statusLogs = [⟨none, .pickupCompleted, some by_, none⟩])
      (hop : ∃ dto clientId createdById, r.op = .createWarehouseSale dto clientId createdById)
      (hmethod : o.paymentMethod = .cash)
      (howned : s.directory.isClientInventory o.clientId o.clientInventoryId = true)
      (hwarehouse : o.warehouseId.isSome = true) (hnonempty : o.items ≠ [])
      (hproducts : ∀ dto clientId createdById,
        r.op = .createWarehouseSale dto clientId createdById →
        o.items.map OrderItem.productId = dto.items.map Item.productId) :
    OrderStep none o
  /-- `add_product_to_order`. -/
  | lineAdded {o : Order} {productId : Uuid} {quantity price : ℤ} {items : List OrderItem}
      (hop : ∃ u, r.op = .addProductToOrder id productId quantity u) (hstatus : o.status = .new)
      (hquantity : 0 < quantity) (hitems : LineAdded o.items productId quantity price items)
      (hprice : R.Exact → effectivePrice s o productId = some price) :
    OrderStep (some o)
      { o with
        items := items
        totalAmount := o.totalAmount + price * quantity
        quantitiesReserved := o.contract?.isSome || o.quantitiesReserved
        updatedAt := r.env.now }
  /-- `remove_product_from_order`. -/
  | lineRemoved {o : Order} {productId : Uuid} {i : OrderItem} (hstatus : o.status = .new)
      (hline : o.items.filter (fun i => i.productId = productId) = [i])
      (hlength : 1 < o.items.length) :
    OrderStep (some o)
      { o with
        items := o.items.filter fun i => i.productId ≠ productId
        totalAmount := max 0 (o.totalAmount - i.unitPrice * i.quantity)
        updatedAt := r.env.now }
  /-- `assign_courier`. -/
  | assigned {o : Order} {courierId : Uuid} (hstatus : o.status = .new ∨ o.status = .assigned)
      (hsale : o.saleType = .delivery) (hop : r.op = .assignCourier id courierId)
      (hcourier : R.Exact → (s.users.find? courierId).any (fun u =>
        u.role = .courier && u.isActive) = true) :
    OrderStep (some o)
      { o with
        courierId := some courierId
        status := .assigned
        updatedAt := r.env.now
        statusLogs := o.statusLogs ++ [⟨some o.status, .assigned, none, none⟩] }
  /-- `update_status` along an edge without side effects. -/
  | moved {o : Order} {newStatus : OrderStatus} {by_ : Option Uuid} {kept logged : Option String}
      (hstatus : newStatus = o.status ∨ o.saleType = .delivery ∧
        (o.status = .assigned ∧ newStatus = .inTransit ∨
          o.status = .inTransit ∧ newStatus = .arrived)) :
    OrderStep (some o)
      { o with
        status := newStatus
        cancellationReason := kept
        updatedAt := r.env.now
        statusLogs := o.statusLogs ++ [⟨some o.status, newStatus, by_, logged⟩] }
  /-- A cancellation by a user, by its age or with its contract. -/
  | cancelled {o : Order} {by_ : Option Uuid} {kept logged : Option String}
      (hstatus : o.status ∈ [OrderStatus.new, .assigned, .inTransit, .arrived]) :
    OrderStep (some o)
      { o with
        status := .cancelled
        quantitiesReserved := false
        cancellationReason := kept
        updatedAt := r.env.now
        statusLogs := o.statusLogs ++ [⟨some o.status, .cancelled, by_, logged⟩] }
  /-- `update_status` to DELIVERED. -/
  | delivered {o : Order} {items : List OrderItem} {total : ℤ} {by_ : Option Uuid}
      {logged : Option String} (hstatus : o.status = .arrived) (hsale : o.saleType = .delivery)
      (hcourier : o.courierId.isSome = true) (hitems : Adjusted o items total) :
    OrderStep (some o)
      { o with
        status := .delivered
        items := items
        totalAmount := total
        updatedAt := r.env.now
        statusLogs := o.statusLogs ++ [⟨some o.status, .delivered, by_, logged⟩] }
  /-- `complete_pickup`. -/
  | pickedUp {o : Order} {by_ : Uuid} (hstatus : o.status = .new)
      (hsale : o.saleType = .warehousePickup) :
    OrderStep (some o)
      { o with
        status := .pickupCompleted
        updatedAt := r.env.now
        statusLogs := o.statusLogs ++ [⟨some .new, .pickupCompleted, some by_, none⟩] }

end Steps

/-! ## Counters and postings -/

/-- A counter after the orders hold some pieces more or less. -/
def shifted (used change : ℤ) : ℤ := if change ≤ 0 then released used (-change) else used + change

theorem shifted_zero (used : ℤ) : shifted used 0 = used := by
  rw [shifted, if_pos (le_refl 0), neg_zero, released_zero]

/-- A counter that does not clip moves by the change. -/
theorem shifted_of_le {used change : ℤ} (h : -change ≤ used) : shifted used change = used + change := by
  unfold shifted
  split
  · rw [released_of_le h, sub_neg_eq_add]
  · rfl

/-- The counters follow a change of what the orders hold, within the quotas. -/
structure QuotaMoved (t t' : Table (Uuid × Uuid) PriceItem) (change : Uuid × Uuid → ℤ) : Prop where
  /-- Each counter moves by the change, but not below zero. -/
  find_eq : ∀ k, t'.find? k = (t.find? k).map fun p =>
    { p with quantityUsed := shifted p.quantityUsed (change k) }
  /-- What is held in addition was free. -/
  within : ∀ k, 0 < change k → ∃ p, t.find? k = some p ∧ p.isActive = true ∧
    (p.quantity = 0 ∨ p.quantityUsed + change k ≤ p.quantity)

/-- The transactions of a settlement: the debt and then the payment. -/
def Settlement (env : Env) (d : Directory) (id : Uuid) (o : Order)
    (rows : List FinancialTransaction) : Prop :=
  ∃ client revenue payments reason, d.clientAccount o.clientId = some client ∧
    d.systemRevenueAccount = some revenue ∧
    (match o.saleType with
      | .delivery => deliveryPayment env id o d client
      | .warehousePickup => pickupPayment env id o d client) = .ok payments ∧
    rows = settlementTransaction env id o revenue client .completed reason :: payments

/-- What becoming settled adds to the ledger. -/
def Postings (env : Env) (d : Directory) (id : Uuid) (old : Option Order) (new : Order)
    (rows : List FinancialTransaction) : Prop :=
  if isSettled new = true ∧ ¬ old.any isSettled = true then Settlement env d id new rows
  else rows = []

/-- Rows are appended to the ledger. -/
def Appended (t t' : Table Uuid FinancialTransaction) (rows : List FinancialTransaction) : Prop :=
  ∀ p : FinancialTransaction → Bool, (t'.select fun _ => p) = (t.select fun _ => p) ++ rows.filter p

theorem appended_nil (t : Table Uuid FinancialTransaction) : Appended t t [] :=
  fun _ => (List.append_nil _).symm

theorem quotaMoved_zero (t : Table (Uuid × Uuid) PriceItem) : QuotaMoved t t fun _ => 0 where
  find_eq k := by simp [shifted_zero]
  within _ h := absurd h (lt_irrefl 0)

theorem QuotaMoved.congr {t t' : Table (Uuid × Uuid) PriceItem} {change change' : Uuid × Uuid → ℤ}
    (h : QuotaMoved t t' change) (heq : ∀ k, change' k = change k) : QuotaMoved t t' change' := by
  rwa [funext heq]

/-- A release moves the counters down. -/
theorem quotaMoved_of_released {c : Uuid} {qs : List (Uuid × ℤ)}
    {t t' : Table (Uuid × Uuid) PriceItem} (h : Released c qs t t') :
    QuotaMoved t t' fun k => -demand c qs k where
  find_eq k := by
    rw [h.find_eq k]
    congr 1
    funext p
    rw [shifted, if_pos (Int.neg_nonpos_of_nonneg (demand_nonneg h.pos k)), neg_neg]
  within k hk := absurd hk (not_lt.mpr (Int.neg_nonpos_of_nonneg (demand_nonneg h.pos k)))

/-- A reservation of different products moves the counters up, within the quotas. -/
theorem quotaMoved_of_reserved {c : Uuid} {qs : List (Uuid × ℤ)}
    {t t' : Table (Uuid × Uuid) PriceItem} (hnodup : (qs.map Prod.fst).Nodup)
    (hwithin : WithinQuota c qs t) (h : Reserved c qs t t') :
    QuotaMoved t t' (demand c qs) where
  find_eq k := by
    rw [h.find_eq k]
    congr 1
    funext p
    have hnonneg := demand_nonneg (c := c) h.pos k
    by_cases hzero : demand c qs k = 0
    · rw [hzero, shifted_zero, add_zero]
    · rw [shifted, if_neg (by omega)]
  within k hk := by
    have hkey : k.1 = c ∧ k.2 ∈ qs.map Prod.fst := by
      unfold demand at hk
      split at hk
      · next hc =>
        refine ⟨hc, ?_⟩
        by_contra hnot
        rw [Bag.amount_eq_zero hnot] at hk
        exact absurd hk (lt_irrefl 0)
      · exact absurd hk (lt_irrefl 0)
    obtain ⟨x, hx, hxk⟩ := List.mem_map.mp hkey.2
    obtain ⟨p, hp, hactive, hquota⟩ := hwithin x hx
    have hdemand : demand c qs k = x.2 := by
      rw [demand, if_pos hkey.1, ← hxk, Bag.amount_of_mem hnodup hx]
    have hk : (c, x.1) = k := Prod.ext hkey.1.symm hxk
    exact ⟨p, hk ▸ hp, hactive, hdemand ▸ hquota⟩

/-! ## Changes -/

/-- The transitions of an invoice. -/
def invoiceEdge : InvoiceStatus → InvoiceStatus → Bool
  | .draft, .issued => true
  | .issued, .overdue => true
  | .issued, .paid => true
  | .overdue, .paid => true
  | .draft, .cancelled => true
  | .issued, .cancelled => true
  | _, _ => false

/-- What a request can change at once. -/
inductive ChangeKind (R : Regime schema) (r : Request) (s s' : Db) : Prop
  /-- One order takes a step. -/
  | order (id : Uuid) (new : Order) (rows : List FinancialTransaction)
      (hstep : OrderStep R r s id (s.orders.find? id) new)
      (horders : s.orders.Written s'.orders id (some new))
      (hquota : QuotaMoved s.priceItems s'.priceItems fun k =>
        held new k - (s.orders.find? id).elim 0 fun o => held o k)
      (hrows : Postings r.env s.directory id (s.orders.find? id) new rows)
      (hledger : Appended s.transactions s'.transactions rows)
      (hinvoices : s'.invoices = s.invoices)
  /-- Several orders are cancelled; each is listed as it was and as it is. -/
  | cancelled (xs : List (Uuid × Order × Order)) (hnodup : (xs.map Prod.fst).Nodup)
      (hstep : ∀ x ∈ xs, s.orders.find? x.1 = some x.2.1 ∧ x.2.2.status = .cancelled ∧
        x.2.2.quantitiesReserved = false ∧ OrderStep R r s x.1 (some x.2.1) x.2.2)
      (horders : ∀ k, s'.orders.find? k =
        ((xs.map fun x => (x.1, x.2.2)).lookup k).or (s.orders.find? k))
      (hquota : QuotaMoved s.priceItems s'.priceItems fun k => (xs.map fun x => -held x.2.1 k).sum)
      (hledger : s'.transactions = s.transactions) (hinvoices : s'.invoices = s.invoices)
  /-- A price item is made or repriced. -/
  | priceSet (c p : Uuid) (row : PriceItem)
      (hwritten : s.priceItems.Written s'.priceItems (c, p) (some row))
      (hrow : match s.priceItems.find? (c, p) with
        | none => row.quantityUsed = 0 ∧ row.isActive = true
        | some old => row = { old with price := row.price, quantity := row.quantity } ∧
          R.assumes (.priceItem c p) (.update old.id row.price row.quantity) (some old))
      (hquantity : 0 ≤ row.quantity) (horders : s'.orders = s.orders) (hledger : s'.transactions = s.transactions)
      (hinvoices : s'.invoices = s.invoices)
  /-- A price item is removed. -/
  | priceRemoved (c p : Uuid) (row : PriceItem) (hrow : s.priceItems.find? (c, p) = some row)
      (hwritten : s.priceItems.Written s'.priceItems (c, p) none)
      (hused : R.Exact → row.quantityUsed ≤ 0)
      (hassumed : R.assumes (.priceItem c p) (.delete row.id) (some row))
      (horders : s'.orders = s.orders) (hledger : s'.transactions = s.transactions)
      (hinvoices : s'.invoices = s.invoices)
  /-- An invoice is generated. -/
  | billed (id contractId : Uuid) (periodFrom periodTo : ℤ) (i : Invoice)
      (hop : r.op = .generateInvoice contractId periodFrom periodTo)
      (hperiod : periodFrom < periodTo) (hfresh : s.invoices.find? id = none)
      (hinvoices : s'.invoices = s.invoices.put id (some i))
      (hdata : i.contractId = contractId ∧ i.periodFrom = periodFrom ∧ i.periodTo = periodTo ∧
        i.status = .draft ∧ i.isActive = true)
      (hamount : R.Exact → i.amount =
        ((getDeliveredByContract contractId periodFrom periodTo s).map Order.totalAmount).sum)
      (hunique : R.Exact → (s.invoices.select fun _ i => i.contractId = contractId &&
        i.periodFrom = periodFrom && i.periodTo = periodTo && i.status ≠ .cancelled &&
          i.isActive) = [])
      (horders : s'.orders = s.orders) (hprices : s'.priceItems = s.priceItems)
      (hledger : s'.transactions = s.transactions)
  /-- An invoice changes its status. -/
  | invoiceSet (id : Uuid) (i : Invoice) (data : InvoiceUpdate)
      (hrow : s.invoices.find? id = some i)
      (hinvoices : s'.invoices = s.invoices.put id (some (i.set data)))
      (hedge : R.Exact → invoiceEdge i.status data.status = true)
      (horders : s'.orders = s.orders) (hprices : s'.priceItems = s.priceItems)
      (hledger : s'.transactions = s.transactions)
  /-- Other tables are written. -/
  | other (horders : s'.orders = s.orders) (hprices : s'.priceItems = s.priceItems)
      (hledger : s'.transactions = s.transactions) (hinvoices : s'.invoices = s.invoices)

/-- A change keeps the directory. -/
structure Change (R : Regime schema) (r : Request) (s s' : Db) : Prop where
  /-- What is changed. -/
  kind : ChangeKind R r s s'
  /-- Inventories and accounts stay. -/
  directory_eq : s'.directory = s.directory

/-- One change after another. -/
inductive Changes (R : Regime schema) (r : Request) (s : Db) : Db → Prop
  /-- No change. -/
  | refl : Changes R r s s
  /-- One more change. -/
  | tail {s₁ s₂ : Db} : Changes R r s s₁ → Change R r s₁ s₂ → Changes R r s s₂

/-- Every stored order is in order. -/
def OrdersOk (s : Db) : Prop := ∀ id o, s.orders.find? id = some o → OrderOk o

/-- Releasing quantities that are held by orders works in a regime. -/
def Releasable (R : Regime schema) (E : Err → Prop) (s : Db) : Prop :=
  ∀ c qs, (∀ x ∈ qs, 0 < x.2) → (∀ k, demand c qs k ≤ s.orders.total fun _ o => held o k) →
    Releases R E c qs s.priceItems

theorem releasable_of_lax {R : Regime schema} (hlax : R.Lax) (s : Db) :
    Releasable R (fun _ => True) s :=
  fun c qs _ _ => releases_of_lax hlax c qs s.priceItems

section Held

variable {o : Order}

theorem held_of_not_reserved (h : o.quantitiesReserved = false) (k : Uuid × Uuid) :
    held o k = 0 := by
  rw [held, h]
  rfl

theorem held_of_no_contract (h : o.contract? = none) (k : Uuid × Uuid) : held o k = 0 := by
  rw [held, h]
  exact ite_self 0

theorem held_of_reserved {c : Uuid} (h : o.quantitiesReserved = true) (hc : o.contract? = some c)
    (k : Uuid × Uuid) : held o k = demand c (o.items.map OrderItem.pair) k := by
  rw [held, if_pos h, hc, Option.elim_some]

theorem pair_pos (h : ∀ i ∈ o.items, 0 < i.quantity) :
    ∀ x ∈ o.items.map OrderItem.pair, 0 < x.2 := by
  intro x hx
  obtain ⟨i, hi, rfl⟩ := List.mem_map.mp hx
  exact h i hi

theorem held_nonneg (h : OrderOk o) (k : Uuid × Uuid) : 0 ≤ held o k := by
  unfold held
  split
  · cases o.contract? with
    | none => exact le_refl 0
    | some c => exact demand_nonneg (pair_pos h.quantity_pos) k
  · exact le_refl 0

theorem held_le_total {s : Db} (hs : OrdersOk s) {id : Uuid}
    (ho : s.orders.find? id = some o) (k : Uuid × Uuid) :
    held o k ≤ s.orders.total fun _ o => held o k :=
  Table.le_total (g := fun _ o => held o k) (fun id' o' ho' => held_nonneg (hs id' o' ho') k) ho

end Held

section Consequences

variable {R : Regime schema} {r : Request} {s s' s'' : Db}

theorem Change.single (h : Change R r s s') : Changes R r s s' := .tail .refl h

theorem Changes.trans (h : Changes R r s s') (h' : Changes R r s' s'') : Changes R r s s'' := by
  induction h' with
  | refl => exact h
  | tail _ hchange ih => exact ih.tail hchange

/-- What every change keeps is kept by all of them. -/
theorem Changes.induction {I : Db → Prop} (h : Changes R r s s') (hs : I s)
    (hstep : ∀ s₁ s₂, I s₁ → Change R r s₁ s₂ → I s₂) : I s' := by
  induction h with
  | refl => exact hs
  | tail _ hchange ih => exact hstep _ _ ih hchange

theorem Change.other_of (horders : s'.orders = s.orders) (hprices : s'.priceItems = s.priceItems)
    (hledger : s'.transactions = s.transactions) (hinvoices : s'.invoices = s.invoices)
    (hdirectory : s'.directory = s.directory) : Change R r s s' :=
  ⟨.other horders hprices hledger hinvoices, hdirectory⟩

/-- Whatever changes, each order stays or takes a step. -/
theorem Change.order_cases (h : Change R r s s') (id : Uuid) :
    s'.orders.find? id = s.orders.find? id ∨
      ∃ new, s'.orders.find? id = some new ∧ OrderStep R r s id (s.orders.find? id) new := by
  cases h.kind with
  | order id' new rows hstep horders hquota hrows hledger hinvoices =>
    by_cases hid : id = id'
    · subst hid
      exact .inr ⟨new, horders.find?_self, hstep⟩
    · exact .inl (horders.find?_ne hid)
  | cancelled xs hnodup hstep horders hquota hledger hinvoices =>
    rw [horders id]
    cases hlookup : (xs.map fun x => (x.1, x.2.2)).lookup id with
    | none => exact .inl rfl
    | some new =>
      obtain ⟨l₁, l₂, hsplit, -⟩ := List.lookup_eq_some_iff.mp hlookup
      have hmem : (id, new) ∈ xs.map fun x => (x.1, x.2.2) :=
        hsplit ▸ List.mem_append_right _ List.mem_cons_self
      obtain ⟨x, hx, heq⟩ := List.mem_map.mp hmem
      cases heq
      obtain ⟨hold, -, -, hx⟩ := hstep x hx
      exact .inr ⟨x.2.2, rfl, hold ▸ hx⟩
  | priceSet c p row hwritten hrow hquantity horders hledger hinvoices => exact .inl (by rw [horders])
  | priceRemoved c p row hrow hwritten hused hassumed horders hledger hinvoices =>
    exact .inl (by rw [horders])
  | billed id' c dateFrom dateTo i hop hperiod hfresh hinvoices hdata hamount hunique horders =>
    exact .inl (by rw [horders])
  | invoiceSet id' i data hrow hinvoices hedge horders => exact .inl (by rw [horders])
  | other horders => exact .inl (by rw [horders])

/-- What an order is about: it is fixed when the order is made. -/
structure SameHeader (o o' : Order) : Prop where
  /-- The buyer. -/
  clientId_eq : o'.clientId = o.clientId
  /-- The buyer's inventory. -/
  clientInventoryId_eq : o'.clientInventoryId = o.clientInventoryId
  /-- The way of payment. -/
  paymentMethod_eq : o'.paymentMethod = o.paymentMethod
  /-- The contract. -/
  contractId_eq : o'.contractId = o.contractId
  /-- Delivery or pickup. -/
  saleType_eq : o'.saleType = o.saleType

/-- No step of an order changes what it is about. -/
theorem OrderStep.sameHeader {id : Uuid} {o new : Order} (h : OrderStep R r s id (some o) new) :
    SameHeader o new := by
  cases h <;> exact ⟨rfl, rfl, rfl, rfl, rfl⟩

/-- Every step leaves an order in order. -/
theorem OrderStep.orderOk {id : Uuid} {old : Option Order} {new : Order}
    (h : OrderStep R r s id old new) (hold : ∀ o, old = some o → OrderOk o) : OrderOk new := by
  cases h with
  | placed hstatus hsale hitems hnodup htotal hreserved =>
    refine ⟨?_, hitems⟩
    rw [hreserved, hstatus]
    simp
  | sold hstatus hsale hitems htotal hcontract hreserved =>
    refine ⟨?_, hitems⟩
    have hnone : new.contract? = none := by
      rw [Order.contract?, hcontract]
      exact ite_self none
    rw [hreserved, hnone]
    simp
  | @lineAdded o p q price items hop hstatus hq hitems hprice =>
    obtain ⟨hreserved, hlines⟩ := hold _ rfl
    refine ⟨?_, ?_⟩
    · change (o.contract?.isSome || o.quantitiesReserved) = true ↔
        o.contract?.isSome = true ∧ o.status ≠ .cancelled
      rw [Bool.or_eq_true, hreserved, hstatus]
      simp
    · dsimp only
      cases hitems with
      | @merged index i hline hproduct =>
        intro j hj
        rcases List.mem_or_eq_of_mem_set hj with hj | rfl
        · exact hlines j hj
        · obtain ⟨hquantity, hprice⟩ := hlines i (List.mem_of_getElem? hline)
          exact ⟨add_pos hquantity hq, hprice⟩
      | appended hnew hprice =>
        intro j hj
        rcases List.mem_append.mp hj with hj | hj
        · exact hlines j hj
        · rw [List.mem_singleton.mp hj]
          exact ⟨hq, hprice⟩
  | lineRemoved hstatus hline hlength =>
    obtain ⟨hreserved, hlines⟩ := hold _ rfl
    exact ⟨hreserved, fun i hi => hlines i (List.mem_filter.mp hi).1⟩
  | @assigned o courierId hstatus hsale =>
    obtain ⟨hreserved, hlines⟩ := hold _ rfl
    refine ⟨?_, hlines⟩
    change o.quantitiesReserved = true ↔ o.contract?.isSome = true ∧ OrderStatus.assigned ≠ .cancelled
    rw [hreserved]
    rcases hstatus with h | h <;> simp [h]
  | @moved o newStatus by_ kept logged hstatus =>
    obtain ⟨hreserved, hlines⟩ := hold _ rfl
    refine ⟨?_, hlines⟩
    change o.quantitiesReserved = true ↔ o.contract?.isSome = true ∧ newStatus ≠ .cancelled
    rw [hreserved]
    rcases hstatus with rfl | ⟨-, ⟨h, rfl⟩ | ⟨h, rfl⟩⟩
    · rfl
    · simp [h]
    · simp [h]
  | cancelled hstatus =>
    obtain ⟨hreserved, hlines⟩ := hold _ rfl
    exact ⟨by simp, hlines⟩
  | @delivered o items total by_ logged hstatus hsale hcourier hitems =>
    obtain ⟨hreserved, hlines⟩ := hold _ rfl
    refine ⟨?_, ?_⟩
    · change o.quantitiesReserved = true ↔
        o.contract?.isSome = true ∧ OrderStatus.delivered ≠ .cancelled
      rw [hreserved, hstatus]
      simp
    · cases hitems with
      | whole => exact hlines
      | partly actual hactual =>
        intro j hj
        obtain ⟨i, hi, rfl⟩ := List.mem_map.mp hj
        exact ⟨(hactual i hi).1, (hlines i hi).unitPrice_nonneg⟩
  | @pickedUp o by_ hstatus hsale =>
    obtain ⟨hreserved, hlines⟩ := hold _ rfl
    refine ⟨?_, hlines⟩
    change o.quantitiesReserved = true ↔
      o.contract?.isSome = true ∧ OrderStatus.pickupCompleted ≠ .cancelled
    rw [hreserved, hstatus]
    simp

theorem Change.ordersOk (h : Change R r s s') (hs : OrdersOk s) : OrdersOk s' := by
  intro id o ho
  rcases h.order_cases id with hsame | ⟨new, hnew, hstep⟩
  · exact hs id o (hsame ▸ ho)
  · rw [hnew] at ho
    cases ho
    exact hstep.orderOk fun old hold => hs id old hold

theorem Changes.ordersOk (h : Changes R r s s') (hs : OrdersOk s) : OrdersOk s' :=
  h.induction hs fun _ _ hs₁ hchange => hchange.ordersOk hs₁

/-- What a change does to the counters and to what the orders hold. -/
inductive QuotaStep (R : Regime schema) (s s' : Db) : Prop
  /-- Counters and orders move together. -/
  | moved (change : Uuid × Uuid → ℤ) (hquota : QuotaMoved s.priceItems s'.priceItems change)
      (htotal : ∀ k, (s'.orders.total fun _ o => held o k) =
        (s.orders.total fun _ o => held o k) + change k)
  /-- A price item is made or repriced. -/
  | set (c p : Uuid) (row : PriceItem)
      (hwritten : s.priceItems.Written s'.priceItems (c, p) (some row))
      (hrow : match s.priceItems.find? (c, p) with
        | none => row.quantityUsed = 0 ∧ row.isActive = true
        | some old => row = { old with price := row.price, quantity := row.quantity } ∧
          R.assumes (.priceItem c p) (.update old.id row.price row.quantity) (some old))
      (hquantity : 0 ≤ row.quantity) (horders : s'.orders = s.orders)
  /-- A price item is removed. -/
  | removed (c p : Uuid) (row : PriceItem) (hrow : s.priceItems.find? (c, p) = some row)
      (hwritten : s.priceItems.Written s'.priceItems (c, p) none)
      (hused : R.Exact → row.quantityUsed ≤ 0)
      (hassumed : R.assumes (.priceItem c p) (.delete row.id) (some row))
      (horders : s'.orders = s.orders)

theorem QuotaStep.unmoved (horders : s'.orders = s.orders) (hprices : s'.priceItems = s.priceItems) :
    QuotaStep R s s' := by
  refine .moved (fun _ => 0) ?_ fun k => ?_
  · rw [hprices]
    exact quotaMoved_zero _
  · rw [horders, add_zero]

/-- Several orders that let go of their quota, each listed as it was and as it is. -/
theorem total_of_cancelled {xs : List (Uuid × Order × Order)} (hnodup : (xs.map Prod.fst).Nodup)
    (hstep : ∀ x ∈ xs, s.orders.find? x.1 = some x.2.1 ∧ x.2.2.quantitiesReserved = false)
    (horders : ∀ k, s'.orders.find? k =
      ((xs.map fun x => (x.1, x.2.2)).lookup k).or (s.orders.find? k)) (k : Uuid × Uuid) :
    (s'.orders.total fun _ o => held o k) =
      (s.orders.total fun _ o => held o k) + (xs.map fun x => -held x.2.1 k).sum := by
  have hkeys : (xs.map fun x => (x.1, x.2.2)).map Prod.fst = xs.map Prod.fst := by
    rw [List.map_map]
    rfl
  have hfind : ∀ j, s'.orders.find? j =
      (s.orders.putAll (xs.map fun x => (x.1, x.2.2))).find? j := by
    intro j
    rw [horders j, Table.find?_putAll _ (hkeys ▸ hnodup)]
  rw [Table.total_of_find?_eq hfind, Table.total_putAll _ (hkeys ▸ hnodup), List.map_map]
  congr 2
  refine List.map_congr_left fun x hx => ?_
  obtain ⟨hold, hflag⟩ := hstep x hx
  dsimp only [Function.comp]
  rw [hold, Option.elim_some, held_of_not_reserved hflag, zero_sub]

theorem Change.quotaStep (h : Change R r s s') : QuotaStep R s s' := by
  cases h.kind with
  | order id new rows hstep horders hquota hrows hledger hinvoices =>
    refine .moved _ hquota fun k => ?_
    rw [horders.total fun _ o => held o k, Option.elim_some]
    abel
  | cancelled xs hnodup hstep horders hquota hledger hinvoices =>
    exact .moved _ hquota (total_of_cancelled hnodup (fun x hx =>
      ⟨(hstep x hx).1, (hstep x hx).2.2.1⟩) horders)
  | priceSet c p row hwritten hrow hquantity horders hledger hinvoices =>
    exact .set c p row hwritten hrow hquantity horders
  | priceRemoved c p row hrow hwritten hused hassumed horders hledger hinvoices =>
    exact .removed c p row hrow hwritten hused hassumed horders
  | billed id c dateFrom dateTo i hop hperiod hfresh hinvoices hdata hamount hunique horders hprices =>
    exact .unmoved horders hprices
  | invoiceSet id i data hrow hinvoices hedge horders hprices => exact .unmoved horders hprices
  | other horders hprices => exact .unmoved horders hprices

end Consequences

end Munavvar.OrderChanges
