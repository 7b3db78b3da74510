import Munavvar.Deliveries
import Munavvar.OrderShape

/-!
# Partial deliveries

A courier may hand over less than was ordered. The request admits any quantity
from nothing to the whole line, but a line has to keep a positive quantity and a
payment a positive amount, so lines that are not handed over at all and
deliveries without a price are refused. What else stands between the quantities
that were handed over and those on record are a header whose total has drifted,
counters that hold less than is released, and columns that are too small.
-/

namespace Munavvar.PartialDelivery

open Munavvar.KeyedTable
open Munavvar.Transaction
open Munavvar.Transaction.Prog
open Munavvar.Database
open Munavvar.DoubleEntry
open Munavvar.Statements
open Munavvar.StockLedger
open Munavvar.StockTransfers
open Munavvar.FinancialLedger
open Munavvar.OrderQueries
open Munavvar.OrderService
open Munavvar.ClientService (Registry)
open Munavvar.Quota (demand Released)
open Munavvar.Fulfillment
open Munavvar.OrderChanges
open Munavvar.LifecycleEffects
open Munavvar.ShortageCheck (WellStocked containers vehicles stockOf deliveredLines movedItems_pos
  containers_pos inventory?_of_mem sampleOrder sampleEnv)
open Munavvar.Operations (sampleDb)
open Munavvar.OrderShape
open Munavvar.OrderInvariants
open Munavvar.Company
open Munavvar.Settlements
open Munavvar.Deliveries
open Munavvar.Bag (amount)

/-! ## The rows of a settlement -/

/-- A row of a settlement between two accounts of different types. -/
def Between (env : Env) (id : Uuid) (o : Order) (d : Directory) (x : FinancialTransaction) : Prop :=
  ∃ source target status reason, source ∈ d.accounts ∧ target ∈ d.accounts ∧
    source.type ≠ target.type ∧ fits 255 (some reason) = true ∧
    x = settlementTransaction env id o source target status reason

section Rows

variable {env : Env} {id : Uuid} {o : Order} {d : Directory}

theorem account?_of_mem {a : Account} (h : a ∈ d.accounts) : (d.account? a.id).isSome = true := by
  rw [Directory.account?, List.find?_isSome]
  exact ⟨a, h, decide_eq_true rfl⟩

/-- A row between two accounts passes its checks. -/
theorem Between.checks {x : FinancialTransaction} (h : Between env id o d x)
    (hids : (d.accounts.map Account.id).Nodup) (hpos : 0 < o.totalAmount)
    (hrange : int64 o.totalAmount = true) : ∀ c ∈ x.constraints, c.1 = true := by
  obtain ⟨source, target, status, reason, hsource, htarget, htypes, hfits, rfl⟩ := h
  have hroute : source.id ≠ target.id := by
    intro hid
    have hsame := List.inj_on_of_nodup_map hids hsource htarget hid
    exact htypes (congrArg Account.type hsame)
  simp only [FinancialTransaction.constraints, settlementTransaction, List.forall_mem_cons,
    List.not_mem_nil, false_implies, implies_true, and_true]
  exact ⟨hrange, hfits, decide_eq_true hpos, decide_eq_true hroute⟩

/-- The accounts that the settlement of a delivery needs. -/
structure AccountsPresent (o : Order) (d : Directory) : Prop where
  /-- The client has one. -/
  client : (d.clientAccount o.clientId).isSome = true
  /-- The company earns on one. -/
  revenue : d.systemRevenueAccount.isSome = true
  /-- A courier who takes cash has one. -/
  courier : o.paymentMethod = .cash → ∀ courierId, o.courierId = some courierId →
    (d.courierAccount courierId).isSome = true
  /-- There is one for transfers to the card. -/
  card : o.paymentMethod = .card → d.systemCardAccount.isSome = true

/-- The accounts have room for the amount of an order. -/
structure AccountRoom (o : Order) (d : Directory) (b : Uuid → ℤ) : Prop where
  /-- The revenue may owe it. -/
  revenue : ∀ a, d.systemRevenueAccount = some a → int64 (b a.id - o.totalAmount) = true
  /-- The client may owe it. -/
  client : ∀ a, d.clientAccount o.clientId = some a → int64 (b a.id + o.totalAmount) = true
  /-- A courier who takes cash may hold it. -/
  courier : o.paymentMethod = .cash → ∀ courierId, o.courierId = some courierId →
    ∀ a, d.courierAccount courierId = some a → int64 (b a.id + o.totalAmount) = true

/-- The payment of an order with a courier, for each way of payment. -/
theorem deliveryPayment_cases {courierId : Uuid} (hcourier : o.courierId = some courierId)
    {client : Account} {payments : List FinancialTransaction}
    (h : deliveryPayment env id o d client = .ok payments) :
    (o.paymentMethod = .cash ∧ ∃ courier, d.courierAccount courierId = some courier ∧
      payments = [settlementTransaction env id o client courier .completed
        "Оплата наличными курьеру"]) ∨
    (o.paymentMethod ≠ .cash ∧ ∃ card, d.systemCardAccount = some card ∧
      payments = [settlementTransaction env id o client card .pending "Перевод на карту"]) ∨
    (o.paymentMethod ≠ .cash ∧ payments = []) := by
  unfold deliveryPayment at h
  cases hmethod : o.paymentMethod with
  | cash =>
    rw [hmethod, hcourier] at h
    dsimp only at h
    split at h
    · cases h
    · next courier haccount =>
      cases h
      exact .inl ⟨rfl, courier, haccount, rfl⟩
  | card =>
    rw [hmethod] at h
    dsimp only [cardPayment] at h
    split at h
    · cases h
    · next card haccount =>
      cases h
      exact .inr (.inl ⟨by decide, card, haccount, rfl⟩)
  | contract =>
    rw [hmethod] at h
    cases h
    exact .inr (.inr ⟨by decide, rfl⟩)

/-- With the accounts there is a payment. -/
theorem deliveryPayment_ok (env : Env) (id : Uuid) (h : AccountsPresent o d) (client : Account) :
    ∃ payments, deliveryPayment env id o d client = .ok payments := by
  unfold deliveryPayment
  cases hmethod : o.paymentMethod with
  | cash =>
    cases hcourier : o.courierId with
    | none => exact ⟨_, rfl⟩
    | some courierId =>
      obtain ⟨courier, haccount⟩ :=
        Option.isSome_iff_exists.mp (h.courier hmethod courierId hcourier)
      dsimp only
      rw [haccount]
      exact ⟨_, rfl⟩
  | card =>
    obtain ⟨card, haccount⟩ := Option.isSome_iff_exists.mp (h.card hmethod)
    dsimp only [cardPayment]
    rw [haccount]
    exact ⟨_, rfl⟩
  | contract => exact ⟨_, rfl⟩

variable {client revenue : Account} {rows : List FinancialTransaction}

/-- Every row of a delivery's settlement leads from one account to another. -/
theorem settles_between {courierId : Uuid} (hcourier : o.courierId = some courierId)
    (h : SettlesDelivery env id o d client revenue rows) : ∀ x ∈ rows, Between env id o d x := by
  obtain ⟨payments, hpayments, rfl⟩ := h.rows_eq
  obtain ⟨hclient, -, hclientType⟩ := userAccountByType_mem h.client_eq
  obtain ⟨hrevenue, -, hrevenueType⟩ := userAccountByType_mem h.revenue_eq
  intro x hx
  rcases List.mem_cons.mp hx with rfl | hx
  · refine ⟨revenue, client, .completed, "Задолженность за заказ", hrevenue, hclient, ?_, by decide, rfl⟩
    rw [hclientType, hrevenueType]
    decide
  · rcases deliveryPayment_cases hcourier hpayments with
      ⟨-, courier, haccount, rfl⟩ | ⟨-, card, haccount, rfl⟩ | ⟨-, rfl⟩
    · obtain ⟨hmem, -, htype⟩ := userAccountByType_mem haccount
      refine ⟨client, courier, _, _, hclient, hmem, ?_, by decide, List.mem_singleton.mp hx⟩
      rw [hclientType, htype]
      decide
    · obtain ⟨hmem, -, htype⟩ := userAccountByType_mem haccount
      refine ⟨client, card, _, _, hclient, hmem, ?_, by decide, List.mem_singleton.mp hx⟩
      rw [hclientType, htype]
      decide
    · exact absurd hx List.not_mem_nil

/-- The balances have room for the rows exactly if the accounts have room for the amount. -/
theorem haveRoom_iff {courierId : Uuid} (hcourier : o.courierId = some courierId)
    (hids : (d.accounts.map Account.id).Nodup) (h : SettlesDelivery env id o d client revenue rows)
    {b : Uuid → ℤ} (hb : ∀ a, int64 (b a) = true) : HaveRoom rows b ↔ AccountRoom o d b := by
  obtain ⟨payments, hpayments, rfl⟩ := h.rows_eq
  have hne : client.id ≠ revenue.id :=
    accountIds_ne hids (by decide) h.client_eq h.revenue_eq
  have hdebt : AccountRoom o d b ↔
      (int64 (b revenue.id - o.totalAmount) = true ∧ int64 (b client.id + o.totalAmount) = true) ∧
      (o.paymentMethod = .cash → ∀ a, d.courierAccount courierId = some a →
        int64 (b a.id + o.totalAmount) = true) := by
    constructor
    · intro hroom
      refine ⟨⟨hroom.revenue _ h.revenue_eq, hroom.client _ h.client_eq⟩, fun hcash a ha => ?_⟩
      exact hroom.courier hcash courierId hcourier a ha
    · rintro ⟨⟨hrevenue, hclient⟩, hcash⟩
      constructor
      · intro a ha
        cases h.revenue_eq.symm.trans ha
        exact hrevenue
      · intro a ha
        cases h.client_eq.symm.trans ha
        exact hclient
      · intro hmethod courierId' hcourier' a ha
        cases hcourier.symm.trans hcourier'
        exact hcash hmethod a ha
  rw [hdebt, HaveRoom]
  refine and_congr (forall_prop_of_true rfl) ?_
  rcases deliveryPayment_cases hcourier hpayments with
    ⟨hcash, courier, haccount, rfl⟩ | ⟨hcash, card, -, rfl⟩ | ⟨hcash, rfl⟩
  · have hclient : courier.id ≠ client.id := fun hid =>
      accountIds_ne hids (by decide) h.client_eq haccount hid.symm
    have hrevenue : courier.id ≠ revenue.id :=
      accountIds_ne hids (by decide) haccount h.revenue_eq
    rw [HaveRoom, HaveRoom, and_true, forall_prop_of_true hcash]
    simp only [rowEffect_completed, haccount, Option.some.injEq, forall_eq']
    simp only [settlementTransaction, hne, hclient, hrevenue, if_true, if_false, forall_const]
    have hback : b client.id + (o.totalAmount - 0) - o.totalAmount = b client.id := by omega
    rw [hback, sub_zero, add_zero]
    exact and_iff_right (hb client.id)
  · rw [HaveRoom, HaveRoom]
    refine iff_of_true ⟨fun hstatus => ?_, trivial⟩ fun hmethod => absurd hmethod hcash
    cases hstatus
  · exact iff_of_true trivial fun hmethod => absurd hmethod hcash

end Rows

/-! ## What a delivery starts from -/

/-- What keys, columns, checks and the trigger promise of a stored state. -/
structure Consistent (s : Db) : Prop extends WellStocked s where
  /-- The primary key of the accounts. -/
  accounts_nodup : (s.directory.accounts.map Account.id).Nodup
  /-- The balance is a column of the account. -/
  held : AccountsHeld s
  /-- The range of the stock's column. -/
  stock_range : ∀ a, int32 (balance s.balances a) = true
  /-- The range of the accounts' column. -/
  account_range : ∀ a, int64 (balance s.accountBalances a) = true
  /-- The range of the totals' column. -/
  total_range : ∀ id o, s.orders.find? id = some o → int64 o.totalAmount = true
  /-- The constraints on lines. -/
  lines : ∀ id o, s.orders.find? id = some o → ∀ i ∈ o.items, ∀ c ∈ i.constraints, c.1 = true
  /-- The constraints on price items. -/
  counters : ∀ k p, s.priceItems.find? k = some p → ∀ c ∈ p.constraints, c.1 = true
  /-- The foreign key of an order's inventory. -/
  inventories_known : ∀ id o, s.orders.find? id = some o →
    (s.directory.inventory? o.clientInventoryId).isSome = true

/-- The identifiers of a request are new. -/
structure NewIds (env : Env) (s : Db) : Prop where
  /-- They differ. -/
  inj : ∀ n j n' j', env.uuid n j = env.uuid n' j' → n = n' ∧ j = j'
  /-- No transfer has one. -/
  transfers : ∀ n j, s.stockTransfers.find? (env.uuid n j) = none
  /-- No movement has one. -/
  movements : ∀ n j, s.stockTransactions.find? (env.uuid n j) = none
  /-- No financial transaction has one. -/
  transactions : ∀ n j, s.transactions.find? (env.uuid n j) = none

/-- The goods that are handed over, and the containers that they are in. -/
def handedOut (s : Db) (o : Order) (actual : List OrderItemActual) : List (Uuid × ℤ) :=
  movedItems (deliveredLines o actual) ++ containers s (deliveredLines o actual)

/-- A courier with enough stock is at the client's door, and the client takes
of each line no more than was ordered. -/
structure AtTheDoor (o : Order) (actual : List OrderItemActual) (u : Option Uuid)
    (reason : Option String) (s : Db) : Prop where
  /-- The courier is there. -/
  arrived : o.status = .arrived
  /-- The user may act for the order. -/
  access : u.any (fun x => x ∉ o.courierId ∧ x ≠ o.clientId) = false
  /-- The reason fits its column. -/
  reason_fits : fits 500 reason = true
  /-- No line is exceeded. -/
  admitted : ∀ i ∈ o.items, ∀ q, actualQuantity actual i.productId = some q → q ≤ i.quantity
  /-- The courier's vehicle holds what is handed over. -/
  stocked : ∃ courierId van, o.courierId = some courierId ∧ vehicles s.directory courierId = [van] ∧
    ∀ p, amount (handedOut s o actual) p ≤ stockOf s van.id p
  /-- The accounts are there. -/
  accounts : AccountsPresent o s.directory

/-! ## What is recorded -/

/-- The counters of the order's contract hold what was handed over instead of
what was ordered. -/
def QuotaHandedOver (o : Order) (actual : List OrderItemActual)
    (t t' : Table (Uuid × Uuid) PriceItem) : Prop :=
  match o.contract? with
  | none => t' = t
  | some c => ∀ k, t'.find? k = (t.find? k).map fun p =>
      { p with
        quantityUsed := p.quantityUsed - (demand c (o.items.map OrderItem.pair) k -
          demand c ((deliveredLines o actual).map OrderItem.pair) k) }

/-- Everything that a delivery records is what was handed over. -/
structure AsHandedOver (env : Env) (id : Uuid) (o : Order) (actual : List OrderItemActual)
    (s s' : Db) : Prop where
  /-- The order, its stock and its money. -/
  order : ∃ o', s'.orders.find? id = some o' ∧ o'.status = .delivered ∧
    o'.items = deliveredLines o actual ∧
    o'.totalAmount = lineTotal (deliveredLines o actual) ∧ NetDelivery o' s s'
  /-- The contract's quota. -/
  quota : QuotaHandedOver o actual s.priceItems s'.priceItems
  /-- The movements of the stock. -/
  movements : ∃ courierId van, o.courierId = some courierId ∧
    vehicles s.directory courierId = [van] ∧
    ∀ r ∈ movementsFor env 2 van.id o.clientInventoryId
        ((deliveredLines o actual).map OrderItem.pair ++ containers s (deliveredLines o actual)),
      s'.stockTransactions.find? r.1 = some r.2
  /-- The amount that is settled. -/
  settled : ∃ rows, rows ≠ [] ∧ Appended s.transactions s'.transactions rows ∧
    ∀ x ∈ rows, x.amount = lineTotal (deliveredLines o actual)

/-- What stands between a partial delivery and its record. -/
structure Deliverable (o : Order) (actual : List OrderItemActual) (s : Db) : Prop where
  /-- Something of every line is handed over. -/
  lines_pos : ∀ i ∈ o.items, 0 < (adjustItem actual i).quantity
  /-- It costs something. -/
  total_pos : 0 < lineTotal (deliveredLines o actual)
  /-- Its price fits the columns of amounts. -/
  total_range : int64 (lineTotal (deliveredLines o actual)) = true
  /-- If nothing is said of the lines, then the header agrees with them. -/
  header : actual = [] → o.totalAmount = lineTotal o.items
  /-- The counters hold what is released. -/
  quota : ∀ c, o.contract? = some c → Quota.Covered c (quotaDeltas actual o.items) s.priceItems
  /-- The order is not for the courier's own vehicle. -/
  route : ∀ courierId, o.courierId = some courierId → ∀ van ∈ vehicles s.directory courierId,
    van.id ≠ o.clientInventoryId
  /-- The client's stock fits its column, with all that is handed over. -/
  room : ∀ p, int32 (stockOf s o.clientInventoryId p + amount (handedOut s o actual) p) = true
  /-- The balances fit their column. -/
  accounts : AccountRoom { o with totalAmount := lineTotal (deliveredLines o actual) } s.directory
    (balance s.accountBalances)

/-- The total is that of the lines unless nothing was said of them. -/
theorem deliveredTotal_eq_iff (o : Order) (actual : List OrderItemActual) :
    deliveredTotal o actual = lineTotal (deliveredLines o actual) ↔
      (actual = [] → o.totalAmount = lineTotal o.items) := by
  cases actual with
  | nil =>
    rw [deliveredLines_nil]
    exact ⟨fun h _ => h, fun h => h rfl⟩
  | cons x actual => exact iff_of_true rfl fun h => absurd h (List.cons_ne_nil x actual)

/-- The order that is settled. -/
abbrev settledOrder (o : Order) (actual : List OrderItemActual) : Order :=
  { handedOver o actual with status := .delivered }

section Delivery

variable {env : Env} {id : Uuid} {o : Order} {actual : List OrderItemActual} {u : Option Uuid}
  {reason : Option String} {s s' : Db}

/-! ## From the condition to the record -/

/-- The counters that are lowered cover what they are lowered by. -/
theorem demand_le_used (hs : Consistent s) {c : Uuid} {qs : List (Uuid × ℤ)}
    (h : Quota.Covered c qs s.priceItems) {k : Uuid × Uuid} {p : PriceItem}
    (hp : s.priceItems.find? k = some p) : demand c qs k ≤ p.quantityUsed := by
  have hchecks := hs.counters k p hp
  have hnonneg : 0 ≤ p.quantityUsed := by
    have hcheck := hchecks (decide (0 ≤ p.quantityUsed),
      .checkViolation "ck_contract_price_item_quantity_used_non_neg")
      (by simp [PriceItem.constraints])
    exact of_decide_eq_true hcheck
  obtain ⟨c', productId⟩ := k
  by_cases hmem : c' = c ∧ productId ∈ qs.map Prod.fst
  · obtain ⟨rfl, hproduct⟩ := hmem
    obtain ⟨x, hx, rfl⟩ := List.mem_map.mp hproduct
    obtain ⟨p', hp', -, hle⟩ := h.le_used x hx
    cases hp.symm.trans hp'
    exact hle
  · have hzero : demand c qs (c', productId) = 0 := by
      rw [demand]
      split
      · next hc => exact Bag.amount_eq_zero fun hproduct => hmem ⟨hc, hproduct⟩
      · rfl
    omega

/-- What was handed over may be written. -/
theorem Deliverable.adjustable (h : Deliverable o actual s) (hs : Consistent s)
    (ho : s.orders.find? id = some o) (hdoor : AtTheDoor o actual u reason s) :
    ∀ i ∈ o.items, Adjustable actual i := by
  intro i hi requested hrequested
  have hle := hdoor.admitted i hi requested hrequested
  have hpos := h.lines_pos i hi
  have hline := hs.lines id o ho i hi
  rw [adjustItem, hrequested, Option.getD_some] at hpos
  refine ⟨hle, ?_⟩
  simp only [OrderItem.constraints, List.forall_mem_cons, List.not_mem_nil, false_implies,
    implies_true, and_true, int32_iff, decide_eq_true_eq] at hline hpos ⊢
  obtain ⟨hrange, hprice, -, hprice'⟩ := hline
  exact ⟨by omega, hprice, hpos, hprice'⟩

/-- The rows of the settlement can be entered. -/
theorem Deliverable.settlement (h : Deliverable o actual s) (hs : Consistent s)
    (hnew : NewIds env s) (ho : s.orders.find? id = some o)
    (hdoor : AtTheDoor o actual u reason s) :
    ∃ client revenue rows, SettlesDelivery env id (settledOrder o actual) s.directory client
      revenue rows ∧ Enterable (settlementRows env rows) s := by
  obtain ⟨courierId, van, hcourier, -⟩ := hdoor.stocked
  obtain ⟨client, hclient⟩ := Option.isSome_iff_exists.mp hdoor.accounts.client
  obtain ⟨revenue, hrevenue⟩ := Option.isSome_iff_exists.mp hdoor.accounts.revenue
  have htotal : deliveredTotal o actual = lineTotal (deliveredLines o actual) :=
    (deliveredTotal_eq_iff o actual).mpr h.header
  have hpresent : AccountsPresent (settledOrder o actual) s.directory :=
    ⟨hdoor.accounts.client, hdoor.accounts.revenue, hdoor.accounts.courier, hdoor.accounts.card⟩
  obtain ⟨payments, hpayments⟩ := deliveryPayment_ok env id hpresent client
  have hsettles : SettlesDelivery env id (settledOrder o actual) s.directory client revenue
      (settlementTransaction env id (settledOrder o actual) revenue client .completed
        "Задолженность за заказ" :: payments) := ⟨hclient, hrevenue, payments, hpayments, rfl⟩
  refine ⟨client, revenue, _, hsettles, ?_⟩
  have hassigned : (settledOrder o actual).courierId = some courierId := hcourier
  have hbetween := settles_between hassigned hsettles
  have hmem : ∀ r ∈ settlementRows env (settlementTransaction env id (settledOrder o actual) revenue
      client .completed "Задолженность за заказ" :: payments),
      Between env id (settledOrder o actual) s.directory r.2 := by
    intro r hr
    refine hbetween r.2 ?_
    rw [← settlementRows_snd env (_ :: payments)]
    exact List.mem_map_of_mem hr
  constructor
  · intro r hr
    obtain ⟨x, -, rfl⟩ := List.mem_map.mp hr
    exact hnew.transactions 9 x.2
  · have hfst : (settlementRows env (settlementTransaction env id (settledOrder o actual) revenue
        client .completed "Задолженность за заказ" :: payments)).map Prod.fst =
        (List.range (payments.length + 1)).map (env.uuid 9) := by
      rw [settlementRows, List.map_map, List.range_eq_range']
      change List.map (env.uuid 9 ∘ Prod.snd) _ = _
      rw [← List.map_map, List.zipIdx_map_snd, List.length_cons]
    rw [hfst]
    exact List.nodup_range.map fun j j' hj => (hnew.inj 9 j 9 j' hj).2
  · intro r hr
    refine (hmem r hr).checks hs.accounts_nodup ?_ ?_
    · change 0 < deliveredTotal o actual
      rw [htotal]
      exact h.total_pos
    · change int64 (deliveredTotal o actual) = true
      rw [htotal]
      exact h.total_range
  · intro r hr
    obtain ⟨source, target, status, text, hsource, htarget, -, -, hx⟩ := hmem r hr
    rw [hx]
    exact ⟨account?_of_mem hsource, account?_of_mem htarget⟩
  · intro r hr
    obtain ⟨source, target, status, text, -, -, -, -, hx⟩ := hmem r hr
    rw [hx]
    change (s.orders.find? id).isSome = true
    rw [ho]
    rfl
  · rw [settlementRows_snd, haveRoom_iff hassigned hs.accounts_nodup hsettles hs.account_range]
    have hroom := h.accounts
    rw [← htotal] at hroom
    exact ⟨hroom.revenue, hroom.client, hroom.courier⟩

/-- Under the condition nothing stops the delivery. -/
theorem Deliverable.ready (h : Deliverable o actual s) (hs : Consistent s) (hnew : NewIds env s)
    (ho : s.orders.find? id = some o) (hsale : o.saleType = .delivery)
    (hdoor : AtTheDoor o actual u reason s) : DeliveryReady env id o actual u reason s := by
  have htotal : deliveredTotal o actual = lineTotal (deliveredLines o actual) :=
    (deliveredTotal_eq_iff o actual).mpr h.header
  refine ⟨hdoor.access, hsale, hdoor.arrived, hs.total_range id o ho, hdoor.reason_fits, ?_⟩
  constructor
  · refine ⟨h.adjustable hs ho hdoor, fun c hc x hx => ?_, ?_⟩
    · obtain ⟨p, hp, hactive, -⟩ := (h.quota c hc).le_used x hx
      exact ⟨p, hp, hactive, hs.counters _ p hp⟩
    · change int64 (deliveredTotal o actual) = true
      rw [htotal]
      exact h.total_range
  · exact hs.ids_nodup
  · obtain ⟨courierId, van, hcourier, hvan, hcovered⟩ := hdoor.stocked
    have hmem : van ∈ vehicles s.directory courierId := by
      rw [hvan]
      exact List.mem_singleton_self van
    refine ⟨courierId, van, hcourier, hvan, ?_⟩
    constructor
    · exact hnew.inj
    · exact hnew.transfers
    · exact hnew.movements
    · rw [inventory?_of_mem hs.ids_nodup (List.mem_filter.mp hmem).1]
      rfl
    · exact hs.inventories_known id o ho
    · exact h.route courierId hcourier van hmem
    · exact fun i p => hs.stock_range (i, p)
    · exact hcovered
    · exact hs.toWellStocked.nonNegative _
    · exact h.room
  · exact h.settlement hs hnew ho hdoor

/-- A delivery under the condition records what was handed over. -/
theorem Deliverable.asHandedOver (h : Deliverable o actual s) (hs : Consistent s)
    (ho : s.orders.find? id = some o) (hdelivered : Delivered env id o actual u reason s s') :
    AsHandedOver env id o actual s s' := by
  have htotal : deliveredTotal o actual = lineTotal (deliveredLines o actual) :=
    (deliveredTotal_eq_iff o actual).mpr h.header
  have hpos : ∀ i ∈ o.items, 0 < i.quantity := fun i hi =>
    (lineOk_of_constraints (hs.lines id o ho i hi)).quantity_pos
  have hlines : ∀ i ∈ deliveredLines o actual, 0 < i.quantity := by
    intro i hi
    obtain ⟨j, hj, rfl⟩ := List.mem_map.mp hi
    exact h.lines_pos j hj
  constructor
  · exact ⟨_, hdelivered.written.find?_self, rfl, rfl, htotal,
      hdelivered.net hpos hs.accounts_nodup⟩
  · have hreleased := hdelivered.released
    unfold QuotaReleased at hreleased
    unfold QuotaHandedOver
    cases hc : o.contract? with
    | none =>
      rw [hc] at hreleased
      exact hreleased
    | some c =>
      rw [hc] at hreleased
      intro k
      have hle : ∀ i ∈ o.items, (adjustItem actual i).quantity ≤ i.quantity := fun i hi =>
        ((hdelivered.adjustable i hi).range (hpos i hi)).2
      rw [hreleased.1.find_eq k]
      cases hp : s.priceItems.find? k with
      | none => rfl
      | some p =>
        have hcovered := demand_le_used hs (h.quota c hc) hp
        rw [Option.map_some, Option.map_some, Quota.released_of_le hcovered,
          demand_quotaDeltas hle k]
        rfl
  · obtain ⟨courierId, van, hcourier, hvan, hexchanged⟩ := hdelivered.handover
    have hgiven := hexchanged.given
    rw [movedItems_of_pos hlines] at hgiven
    exact ⟨courierId, van, hcourier, hvan, hgiven⟩
  · obtain ⟨courierId, -, hcourier, -⟩ := hdelivered.handover
    obtain ⟨client, revenue, rows, hsettles, hentered⟩ := hdelivered.settled
    have hassigned : (settledOrder o actual).courierId = some courierId := hcourier
    refine ⟨rows, ?_, hentered.appended, fun x hx => ?_⟩
    · obtain ⟨payments, -, rfl⟩ := hsettles.rows_eq
      exact List.cons_ne_nil _ _
    · obtain ⟨source, target, status, text, -, -, -, -, rfl⟩ := settles_between hassigned hsettles x hx
      exact htotal

/-! ## From the record to the condition -/

/-- A delivery that records what was handed over has met the condition. -/
theorem AsHandedOver.deliverable (h : AsHandedOver env id o actual s s') (hs : Consistent s)
    (ho : s.orders.find? id = some o) (hdelivered : Delivered env id o actual u reason s s') :
    Deliverable o actual s := by
  obtain ⟨o', ho', -, -, htotal', -⟩ := h.order
  cases hdelivered.written.find?_self.symm.trans ho'
  have htotal : deliveredTotal o actual = lineTotal (deliveredLines o actual) := htotal'
  have hrange : ∀ i ∈ o.items,
      0 < (adjustItem actual i).quantity ∧ (adjustItem actual i).quantity ≤ i.quantity :=
    fun i hi => (hdelivered.adjustable i hi).range
      (lineOk_of_constraints (hs.lines id o ho i hi)).quantity_pos
  obtain ⟨courierId, van, hcourier, hvan, hexchanged⟩ := hdelivered.handover
  obtain ⟨client, revenue, rows, hsettles, hentered⟩ := hdelivered.settled
  have hassigned : (settledOrder o actual).courierId = some courierId := hcourier
  have hdebt : settlementTransaction env id (settledOrder o actual) revenue client .completed
      "Задолженность за заказ" ∈ rows := by
    obtain ⟨payments, -, rfl⟩ := hsettles.rows_eq
    exact List.mem_cons_self
  have hchecks := hentered.checks _ hdebt
  constructor
  · exact fun i hi => (hrange i hi).1
  · rw [← htotal]
    exact (pos_of_constraints hchecks).1
  · rw [← htotal]
    exact hchecks (int64 (deliveredTotal o actual), .outOfRange "transactions.amount")
      List.mem_cons_self
  · exact (deliveredTotal_eq_iff o actual).mp htotal
  · intro c hc
    have hreleased := hdelivered.released
    have hquota := h.quota
    rw [QuotaReleased, hc] at hreleased
    rw [QuotaHandedOver, hc] at hquota
    refine ⟨hreleased.1.pos, fun x hx => ?_⟩
    have hactive := hreleased.2 x hx
    obtain ⟨p, hp, hactive⟩ := (Option.any_eq_true _ _).mp hactive
    refine ⟨p, hp, hactive, ?_⟩
    have hstored := hreleased.1.find_eq (c, x.1)
    have hwanted := hquota (c, x.1)
    rw [hp, Option.map_some] at hstored hwanted
    have hused := congrArg PriceItem.quantityUsed (Option.some.inj (hstored.symm.trans hwanted))
    dsimp only at hused
    rw [deliveredLines, ← demand_quotaDeltas fun i hi => (hrange i hi).2] at hused
    have hpositive := hreleased.1.pos x hx
    have hpart := Quota.le_demand hreleased.1.pos hx (c := c)
    rw [Quota.released, if_neg (by omega)] at hused
    omega
  · intro courierId' hcourier' van' hvan'
    cases hcourier.symm.trans hcourier'
    rw [hvan, List.mem_singleton] at hvan'
    rw [hvan']
    exact hexchanged.route
  · intro p
    have hnonneg : 0 ≤ amount (handedOut s o actual) p :=
      Bag.amount_nonneg (fun x hx => (List.mem_append.mp hx).elim
        (fun hx => (movedItems_pos _ x hx).le) fun hx => (containers_pos s _ x hx).le) p
    by_cases hmoved : 0 < amount (handedOut s o actual) p
    · exact hexchanged.fits p hmoved
    · have hzero : amount (handedOut s o actual) p = 0 := by omega
      rw [hzero, add_zero]
      exact hs.stock_range (o.clientInventoryId, p)
  · have hroom := (haveRoom_iff hassigned hs.accounts_nodup hsettles hs.account_range).mp hentered.room
    rw [← htotal]
    exact ⟨hroom.revenue, hroom.client, hroom.courier⟩

/-- A delivery that meets the schema's limits succeeds and records what was
handed over, and no other one does. -/
theorem delivers_iff (hs : Consistent s) (hnew : NewIds env s) (ho : s.orders.find? id = some o)
    (hsale : o.saleType = .delivery) (hdoor : AtTheDoor o actual u reason s) :
    (∃ s', (updateStatus env id .delivered actual u reason).run s = .ok ((), s') ∧
      AsHandedOver env id o actual s s') ↔ Deliverable o actual s := by
  have hexact : Regime.Exact (S := schema) Regime.serial :=
    Regime.serialAsserting_exact (S := schema) _
  have hfresh : o.status ≠ .delivered := by
    rw [hdoor.arrived]
    decide
  constructor
  · rintro ⟨s', hrun, hrecorded⟩
    have hdelivered : Delivered env id o actual u reason s s' := by
      have hwp : wp Regime.serial (updateStatus env id .delivered actual u reason)
          (fun _ s' => Delivered env id o actual u reason s s') (fun _ => True) s :=
        wp_delivered hexact Regime.serial_lax ho hfresh actual u reason hs.held
          (.inr fun _ => trivial) fun s' h => h
      have hrecord := wp_serial_run hwp hrun
      exact hrecord
    exact hrecorded.deliverable hs ho hdelivered
  · intro h
    have hwp : wp Regime.serial (updateStatus env id .delivered actual u reason)
        (fun _ s' => AsHandedOver env id o actual s s') (fun _ => False) s :=
      wp_delivered hexact Regime.serial_lax ho hfresh actual u reason hs.held
        (.inl (h.ready hs hnew ho hsale hdoor)) fun s' hdelivered => h.asHandedOver hs ho hdelivered
    rw [wp_serial_iff] at hwp
    cases hrun : (updateStatus env id .delivered actual u reason).run s with
    | error e =>
      rw [hrun] at hwp
      exact hwp.elim
    | ok x =>
      rw [hrun] at hwp
      exact ⟨x.2, rfl, hwp⟩

end Delivery

/-! ## Runs -/

/-- The courier is at the door with two waters. -/
abbrev arrivedOrder : Order := { sampleOrder with status := .arrived }

/-- What holds of every entry and of nothing holds of every balance. -/
theorem balance_induction {K : Type} [DecidableEq K] {t : Table K ℤ} {P : K → ℤ → Prop}
    (hrows : ∀ r ∈ t.rows, P r.1 r.2) (hzero : ∀ k, P k 0) (k : K) : P k (balance t k) := by
  rw [balance]
  cases hk : t.find? k with
  | none => exact hzero k
  | some q => exact hrows (k, q) ((Table.mem_rows_iff t k q).mpr hk)

theorem doorstep_consistent : Consistent (doorstep .arrived) where
  ids_nodup := show (sampleDb.directory.inventories.map Inventory.id).Nodup by decide
  physical_nonneg i p := by
    refine balance_induction (t := (doorstep .arrived).balances) (K := Uuid × Uuid)
      (P := fun a q => (doorstep .arrived).directory.isPhysical a.1 = true → 0 ≤ q) ?_ ?_ (i, p)
    · decide
    · exact fun _ _ => le_refl 0
  accounts_nodup := show (sampleDb.directory.accounts.map Account.id).Nodup by decide
  held := doorstep_held .arrived
  stock_range := balance_induction (P := fun _ q => int32 q = true) (by decide) fun _ => rfl
  account_range := balance_induction (P := fun _ q => int64 q = true) (by decide) fun _ => rfl
  total_range id o ho := by
    have hall : ∀ r ∈ (doorstep .arrived).orders.rows, int64 r.2.totalAmount = true := by decide
    exact hall (id, o) ((Table.mem_rows_iff _ _ _).mpr ho)
  lines id o ho := by
    have hall : ∀ r ∈ (doorstep .arrived).orders.rows,
        ∀ i ∈ r.2.items, ∀ c ∈ i.constraints, c.1 = true := by decide
    exact hall (id, o) ((Table.mem_rows_iff _ _ _).mpr ho)
  counters k p hp := by
    rw [doorstep, sampleDb, Table.find?_empty] at hp
    cases hp
  inventories_known id o ho := by
    have hall : ∀ r ∈ (doorstep .arrived).orders.rows,
        (sampleDb.directory.inventory? r.2.clientInventoryId).isSome = true := by decide
    exact hall (id, o) ((Table.mem_rows_iff _ _ _).mpr ho)

theorem doorstep_newIds : NewIds sampleEnv (doorstep .arrived) where
  inj _ _ _ _ h := Nat.pair_eq_pair.mp (Nat.add_left_cancel h)
  transfers _ _ := rfl
  movements _ _ := rfl
  transactions _ _ := rfl

theorem doorstep_founded : OrdersMeet Founded (doorstep .arrived) := by
  intro id o ho
  have hall : ∀ r ∈ (doorstep .arrived).orders.rows, r.2 = arrivedOrder := by decide
  have hsame : o = arrivedOrder := hall (id, o) ((Table.mem_rows_iff _ _ _).mpr ho)
  rw [hsame]
  constructor
  · exact ⟨by decide, fun i hi => lineOk_of_constraints (by revert i; decide)⟩
  · exact fun _ => ⟨rfl, rfl⟩
  · exact fun h => by cases h
  · exact fun h => by cases h

/-- No more than a hundred waters and bottles are in the van. -/
theorem doorstep_stock {l : List (Uuid × ℤ)} {q : ℤ} (hl : l = [(21, q), (22, q)] ∨ l = [])
    (hq : q ≤ 100) (p : Uuid) : amount l p ≤ stockOf (doorstep .arrived) 4 p := by
  have hnonneg : 0 ≤ stockOf (doorstep .arrived) 4 p :=
    doorstep_consistent.physical_nonneg 4 p (by decide)
  rcases hl with rfl | rfl
  · by_cases hwater : p = 21
    · have hstock : stockOf (doorstep .arrived) 4 21 = 100 := rfl
      rw [hwater, hstock]
      simpa using hq
    · by_cases hbottle : p = 22
      · have hstock : stockOf (doorstep .arrived) 4 22 = 100 := rfl
        rw [hbottle, hstock]
        simpa using hq
      · simpa [hwater, hbottle, Ne.symm hwater, Ne.symm hbottle] using hnonneg
  · exact hnonneg

theorem doorstep_atTheDoor {actual : List OrderItemActual} {q : ℤ}
    (hactual : actualQuantity actual 21 = some q) (hle : q ≤ 2)
    (hlist : handedOut (doorstep .arrived) arrivedOrder actual = [(21, q), (22, q)] ∨
      handedOut (doorstep .arrived) arrivedOrder actual = []) :
    AtTheDoor arrivedOrder actual (some 6) none (doorstep .arrived) where
  arrived := rfl
  access := by decide
  reason_fits := rfl
  admitted i hi q' hq' := by
    rw [List.mem_singleton.mp hi] at hq' ⊢
    cases hactual.symm.trans hq'
    exact hle
  stocked := by
    refine ⟨6, ⟨4, some 6, .courier, true, "van"⟩, rfl, rfl, ?_⟩
    exact doorstep_stock hlist (by omega)
  accounts := ⟨by decide, by decide, fun _ courierId h => by cases h; decide, fun h => by cases h⟩

/-- One of two waters can be handed over. -/
theorem doorstep_deliverable :
    Deliverable arrivedOrder [⟨21, 1, by decide⟩] (doorstep .arrived) where
  lines_pos := by decide
  total_pos := by decide
  total_range := by decide
  header h := absurd h (by decide)
  quota c hc := by cases hc
  route courierId hcourier van hvan := by
    cases hcourier
    rw [List.mem_singleton.mp hvan]
    decide
  room p := by
    have hnone : stockOf (doorstep .arrived) 5 p = 0 :=
      balance_induction (t := (doorstep .arrived).balances) (K := Uuid × Uuid)
        (P := fun a q => a.1 = 5 → q = 0) (by decide) (fun _ _ => rfl) (5, p) rfl
    have hstock := doorstep_stock (q := 1) (.inl rfl) (by decide) p
    have hrange := doorstep_consistent.stock_range (4, p)
    have hnonneg : 0 ≤ amount [(21, (1 : ℤ)), (22, 1)] p := Bag.amount_nonneg (by decide) p
    change int32 (stockOf (doorstep .arrived) 5 p + amount [(21, 1), (22, 1)] p) = true
    rw [stockOf] at hstock
    rw [int32_iff] at hrange ⊢
    omega
  accounts := by
    have hzero : ∀ a, balance (doorstep .arrived).accountBalances a = 0 :=
      balance_induction (P := fun _ q => q = 0) (by decide) fun _ => rfl
    have hroom : ∀ a, int64 (balance (doorstep .arrived).accountBalances a - 100) = true ∧
        int64 (balance (doorstep .arrived).accountBalances a + 100) = true := by
      intro a
      rw [hzero a]
      decide
    exact ⟨fun a _ => (hroom a.id).1, fun a _ => (hroom a.id).2, fun _ _ _ a _ => (hroom a.id).2⟩

end Munavvar.PartialDelivery
