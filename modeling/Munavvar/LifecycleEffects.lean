import Munavvar.OrderEffects

/-!
# The effect of the order life cycle

Delivery adjusts the lines of one order, its quota and its total; cancellation
releases the quota of an order, alone or in a batch of locked orders; a pickup
is completed. The status of the order decides which of these takes place.
-/

namespace Munavvar.LifecycleEffects

open Munavvar.KeyedTable
open Munavvar.Transaction
open Munavvar.Transaction.Prog
open Munavvar.Database
open Munavvar.Statements
open Munavvar.StockLedger
open Munavvar.FinancialLedger
open Munavvar.OrderQueries
open Munavvar.Quota
open Munavvar.Fulfillment
open Munavvar.OrderService
open Munavvar.Operations
open Munavvar.OrderChanges
open Munavvar.OrderEffects

/-! ## Adjusted lines -/

/-- What was ordered and not handed over is what the lines lose. -/
theorem demand_quotaDeltas {c : Uuid} {actual : List OrderItemActual} {items : List OrderItem}
    (hle : ∀ i ∈ items, (adjustItem actual i).quantity ≤ i.quantity) (k : Uuid × Uuid) :
    demand c (quotaDeltas actual items) k =
      demand c (items.map OrderItem.pair) k -
        demand c ((items.map (adjustItem actual)).map OrderItem.pair) k := by
  induction items with
  | nil => simp [quotaDeltas]
  | cons i items ih =>
    have ih := ih fun j hj => hle j (List.mem_cons_of_mem _ hj)
    have hi := hle i List.mem_cons_self
    have hcons : ∀ (p : Uuid) (q : ℤ) (l : List (Uuid × ℤ)),
        demand c ((p, q) :: l) k = (if k = (c, p) then q else 0) + demand c l k := by
      intro p q l
      rw [← demand_singleton, ← demand_append, List.singleton_append]
    have hitems : demand c ((i :: items).map OrderItem.pair) k =
        (if k = (c, i.productId) then i.quantity else 0) + demand c (items.map OrderItem.pair) k :=
      hcons _ _ _
    have hadjusted : demand c (((i :: items).map (adjustItem actual)).map OrderItem.pair) k =
        (if k = (c, i.productId) then (adjustItem actual i).quantity else 0) +
          demand c ((items.map (adjustItem actual)).map OrderItem.pair) k := hcons _ _ _
    have hdeltas : demand c (quotaDeltas actual (i :: items)) k =
        (if k = (c, i.productId) then i.quantity - (adjustItem actual i).quantity else 0) +
          demand c (quotaDeltas actual items) k := by
      unfold quotaDeltas
      rw [List.map_cons, List.filter_cons]
      split
      · exact hcons _ _ _
      · next hzero =>
        have hzero : ¬ 0 < i.quantity - (adjustItem actual i).quantity := by simpa using hzero
        have hnone : i.quantity - (adjustItem actual i).quantity = 0 := by omega
        rw [hnone, ite_self, zero_add]
    rw [hitems, hadjusted, hdeltas, ih]
    split <;> omega

theorem quotaDeltas_pos (actual : List OrderItemActual) (items : List OrderItem) :
    ∀ x ∈ quotaDeltas actual items, 0 < x.2 := by
  intro x hx
  exact of_decide_eq_true (List.mem_filter.mp hx).2

/-- What stands at a place of an enumerated list. -/
theorem zipIdx_place {V : Type} {l : List V} {done todo : List (V × ℕ)} {v : V} {n : ℕ}
    (h : done ++ (v, n) :: todo = l.zipIdx) : n = done.length ∧ l[done.length]? = some v := by
  have hplace : l.zipIdx[done.length]? = some (v, n) := by
    rw [← h, List.getElem?_append_right (le_refl _), Nat.sub_self, List.getElem?_cons_zero]
  rw [List.getElem?_zipIdx, Nat.zero_add] at hplace
  obtain ⟨w, hw, heq⟩ := Option.map_eq_some_iff.mp hplace
  obtain ⟨rfl, rfl⟩ := Prod.mk.inj heq
  exact ⟨rfl, hw⟩

/-- A list whose first elements have been replaced. -/
def mapFirst {V : Type} (f : V → V) (l : List V) (n : ℕ) : List V :=
  (l.take n).map f ++ l.drop n

section MapFirst

variable {V : Type} {f : V → V} {l : List V} {n : ℕ} {v : V}

theorem mapFirst_zero (f : V → V) (l : List V) : mapFirst f l 0 = l := rfl

theorem mapFirst_length (f : V → V) (l : List V) : mapFirst f l l.length = l.map f := by
  rw [mapFirst, List.take_length, List.drop_length, List.append_nil]

theorem length_map_take (hn : l[n]? = some v) (f : V → V) : ((l.take n).map f).length = n := by
  have hlt := (List.getElem?_eq_some_iff.mp hn).1
  rw [List.length_map, List.length_take]
  omega

theorem drop_eq_cons (hn : l[n]? = some v) : l.drop n = v :: l.drop (n + 1) := by
  obtain ⟨hlt, hv⟩ := List.getElem?_eq_some_iff.mp hn
  rw [List.drop_eq_getElem_cons hlt, hv]

theorem getElem?_mapFirst (hn : l[n]? = some v) : (mapFirst f l n)[n]? = some v := by
  have hlength := length_map_take hn f
  rw [mapFirst, List.getElem?_append_right hlength.le, hlength, Nat.sub_self, drop_eq_cons hn,
    List.getElem?_cons_zero]

theorem mapFirst_succ (hn : l[n]? = some v) :
    mapFirst f l (n + 1) = (l.take n).map f ++ f v :: l.drop (n + 1) := by
  rw [mapFirst, List.take_add_one, hn, Option.toList_some, List.map_append, List.map_singleton,
    List.append_assoc, List.singleton_append]

theorem set_mapFirst (hn : l[n]? = some v) : (mapFirst f l n).set n (f v) = mapFirst f l (n + 1) := by
  have hlength := length_map_take hn f
  rw [mapFirst_succ hn, mapFirst, List.set_append_right _ _ hlength.le, hlength, Nat.sub_self,
    drop_eq_cons hn, List.set_cons_zero]

theorem mapFirst_succ_of_fixed (hn : l[n]? = some v) (hv : f v = v) :
    mapFirst f l (n + 1) = mapFirst f l n := by
  rw [mapFirst_succ hn, hv, ← drop_eq_cons hn, mapFirst]

end MapFirst

section Rules

variable {R : Regime schema} {E : Err → Prop} {s : Db}

/-- The quantity that was handed over may be written on a line. -/
def Adjustable (actual : List OrderItemActual) (i : OrderItem) : Prop :=
  ∀ requested, actualQuantity actual i.productId = some requested → requested ≤ i.quantity ∧
    ∀ c ∈ ({ i with quantity := requested } : OrderItem).constraints, c.1 = true

theorem Adjustable.range {actual : List OrderItemActual} {i : OrderItem} (h : Adjustable actual i)
    (hpos : 0 < i.quantity) :
    0 < (adjustItem actual i).quantity ∧ (adjustItem actual i).quantity ≤ i.quantity := by
  unfold adjustItem
  cases hactual : actualQuantity actual i.productId with
  | none => exact ⟨hpos, le_refl _⟩
  | some requested =>
    obtain ⟨hle, hchecks⟩ := h requested hactual
    have hline := lineOk_of_constraints hchecks
    exact ⟨hline.quantity_pos, hle⟩

/-- One round writes the quantity that was handed over of a line. -/
theorem wp_adjustLine {id : Uuid} (hassert : ∀ st old, R.asserts (.order id) st old) {o : Order}
    {orders : Table Uuid Order} {actual : List OrderItemActual} {n : ℕ} {item : OrderItem}
    (hn : o.items[n]? = some item)
    (hwritten : s.orders.Written orders id
      (some { o with items := mapFirst (adjustItem actual) o.items n }))
    (hfail : ¬ Adjustable actual item → ∀ e, e.isQuotaLeak = false → E e) {Q : Unit → Db → Prop}
    (hQ : ∀ orders', Adjustable actual item →
      s.orders.Written orders' id
        (some { o with items := mapFirst (adjustItem actual) o.items (n + 1) }) →
      Q () { s with orders := orders' }) :
    wp R (whenSome (actualQuantity actual item.productId) fun requested => do
      raiseIf (requested < 0) (.deliveryQuantityExceeded item.productId item.quantity requested)
      raiseIf (item.quantity < requested)
        (.deliveryQuantityExceeded item.productId item.quantity requested)
      issue (.order id) (.updateQuantity n requested)) Q E { s with orders := orders } := by
  rw [wp_whenSome]
  refine ⟨fun requested hrequested => ?_, fun hnone => ?_⟩
  · have hadjust : adjustItem actual item = { item with quantity := requested } := by
      rw [adjustItem, hrequested]
      rfl
    rw [wp_bind, wp_raiseIf]
    refine ⟨fun hneg => hfail (fun hok => ?_) _ rfl, fun _ => ?_⟩
    · have hpos := (lineOk_of_constraints (hok requested hrequested).2).quantity_pos
      exact absurd hpos (not_lt.mpr hneg.le)
    rw [wp_bind, wp_raiseIf]
    refine ⟨fun hlt => hfail (fun hok => ?_) _ rfl, fun hle => ?_⟩
    · exact absurd (hok requested hrequested).1 (not_le.mpr hlt)
    have hexec : (OrderStmt.updateQuantity n requested).exec (orders.find? id) =
        checked { o with items := mapFirst (adjustItem actual) o.items (n + 1) }
          ({ item with quantity := requested } : OrderItem).constraints := by
      rw [hwritten.find?_self]
      simp only [OrderStmt.exec, getElem?_mapFirst hn, ← hadjust, set_mapFirst hn]
    refine wp_execute_of (hassert _ _) (fun _ r hr => ?_) fun e he => ?_
    · have hr := hexec.symm.trans hr
      obtain ⟨rfl, hchecks⟩ := checked_ok hr
      refine hQ _ (fun requested' hrequested' => ?_) (hwritten.put _)
      cases hrequested.symm.trans hrequested'
      exact ⟨not_lt.mp hle, hchecks⟩
    · refine hfail (fun hok => ?_) e (exec_not_leak (.order id) (.updateQuantity _ _) _ he)
      have he := hexec.symm.trans he
      rw [checked_of_forall (hok requested hrequested).2] at he
      cases he
  · have hadjust : adjustItem actual item = item := by
      rw [adjustItem, hnone]
      rfl
    refine hQ orders (fun requested hrequested => ?_) ?_
    · cases hnone.symm.trans hrequested
    · rw [mapFirst_succ_of_fixed hn hadjust]
      exact hwritten

/-- The loop over the lines writes the quantities that were handed over, and
nothing but a quantity that may not be written can stop it. -/
theorem wp_adjustLines {id : Uuid} (hassert : ∀ st old, R.asserts (.order id) st old) {o : Order}
    (ho : s.orders.find? id = some o) (actual : List OrderItemActual)
    (hfail : (∀ i ∈ o.items, Adjustable actual i) ∨ ∀ e, e.isQuotaLeak = false → E e)
    {Q : Unit → Db → Prop}
    (hQ : ∀ orders, (∀ i ∈ o.items, Adjustable actual i) →
      s.orders.Written orders id (some { o with items := o.items.map (adjustItem actual) }) →
      Q () { s with orders }) :
    wp R (forEach o.items.zipIdx fun (item, index) =>
      whenSome (actualQuantity actual item.productId) fun requested => do
        raiseIf (requested < 0) (.deliveryQuantityExceeded item.productId item.quantity requested)
        raiseIf (item.quantity < requested)
          (.deliveryQuantityExceeded item.productId item.quantity requested)
        issue (.order id) (.updateQuantity index requested)) Q E s := by
  refine wp_loop (fun done s' => ∃ orders, s' = { s with orders := orders } ∧
      (∀ i ∈ o.items.take done.length, Adjustable actual i) ∧
      s.orders.Written orders id
        (some { o with items := mapFirst (adjustItem actual) o.items done.length }))
    ⟨s.orders, rfl, fun i hi => absurd hi List.not_mem_nil, Table.written_self ho⟩ ?_ ?_
  · rintro done ⟨item, index⟩ todo _ hdone ⟨orders, rfl, hrange, hwritten⟩
    obtain ⟨rfl, hn⟩ := zipIdx_place hdone
    have hfail' : ¬ Adjustable actual item → ∀ e, e.isQuotaLeak = false → E e := by
      intro hnot
      rcases hfail with hall | hany
      · exact absurd (hall item (List.mem_of_getElem? hn)) hnot
      · exact hany
    refine wp_adjustLine hassert hn hwritten hfail' fun orders' hitem hwritten' => ?_
    rw [List.length_append, List.length_singleton]
    refine ⟨orders', rfl, fun i hi => ?_, hwritten'⟩
    rw [List.take_add_one, hn, Option.toList_some, List.mem_append, List.mem_singleton] at hi
    rcases hi with hi | rfl
    · exact hrange i hi
    · exact hitem
  · rintro _ ⟨orders, rfl, hrange, hwritten⟩
    rw [List.length_zipIdx, List.take_length] at hrange
    rw [List.length_zipIdx, mapFirst_length] at hwritten
    exact hQ orders hrange hwritten

/-- The loop over the lines where failures are allowed. -/
theorem wp_adjustItems (ht : Tame R E) {id : Uuid} {o : Order} (ho : s.orders.find? id = some o)
    (hpos : ∀ i ∈ o.items, 0 < i.quantity) (actual : List OrderItemActual) {Q : Unit → Db → Prop}
    (hQ : ∀ orders, (∀ i ∈ o.items, 0 < (adjustItem actual i).quantity ∧
        (adjustItem actual i).quantity ≤ i.quantity) →
      s.orders.Written orders id (some { o with items := o.items.map (adjustItem actual) }) →
      Q () { s with orders }) :
    wp R (forEach o.items.zipIdx fun (item, index) =>
      whenSome (actualQuantity actual item.productId) fun requested => do
        raiseIf (requested < 0) (.deliveryQuantityExceeded item.productId item.quantity requested)
        raiseIf (item.quantity < requested)
          (.deliveryQuantityExceeded item.productId item.quantity requested)
        issue (.order id) (.updateQuantity index requested)) Q E s := by
  have hassert : ∀ st old, R.asserts (.order id) st old :=
    fun st old => ht.lax (.order id) st old fun h => h
  refine wp_adjustLines hassert ho actual (.inr ht.err) fun orders hall hwritten => ?_
  exact hQ orders (fun i hi => (hall i hi).range (hpos i hi)) hwritten

/-- What an order holds can be released in part. -/
def LinesReleasable (R : Regime schema) (E : Err → Prop) (o : Order)
    (t : Table (Uuid × Uuid) PriceItem) : Prop :=
  ∀ c qs, o.contract? = some c → (∀ x ∈ qs, 0 < x.2) →
    (∀ k, demand c qs k ≤ demand c (o.items.map OrderItem.pair) k) → Releases R E c qs t

theorem linesReleasable (hs : OrdersOk s) (hrel : Releasable R E s) {id : Uuid} {o : Order}
    (ho : s.orders.find? id = some o) (hstatus : o.status ≠ .cancelled) :
    LinesReleasable R E o s.priceItems := by
  intro c qs hcontract hpos hle
  have hflag : o.quantitiesReserved = true :=
    (hs id o ho).reserved_iff.mpr ⟨by rw [hcontract, Option.isSome_some], hstatus⟩
  refine hrel c qs hpos fun k => ?_
  have hheld := held_le_total hs ho k
  rw [held_of_reserved hflag hcontract] at hheld
  exact (hle k).trans hheld

/-- What is done to the stored row when a delivery is adjusted. -/
def adjustedRow (env : Env) (o : Order) (actual : List OrderItemActual) : Order :=
  { o with
    items := o.items.map (adjustItem actual)
    totalAmount := lineTotal (o.items.map (adjustItem actual))
    updatedAt := env.now }

/-- How the quota held by the lines of an order moves when they are replaced. -/
def linesMoved (o : Order) (items : List OrderItem) (k : Uuid × Uuid) : ℤ :=
  o.contract?.elim 0 fun c =>
    demand c (items.map OrderItem.pair) k - demand c (o.items.map OrderItem.pair) k

/-- The adjustment of an order whose row may already carry another status. -/
theorem wp_adjustOrder (ht : Tame R E) {env : Env} {id : Uuid} {o row : Order}
    (hrow : s.orders.find? id = some row) (hitems : row.items = o.items)
    (hpos : ∀ i ∈ o.items, 0 < i.quantity) (hrel : LinesReleasable R E o s.priceItems)
    (actual : List OrderItemActual) {Q : Order → Db → Prop}
    (hQ : ∀ orders t, (∀ i ∈ o.items, 0 < (adjustItem actual i).quantity ∧
        (adjustItem actual i).quantity ≤ i.quantity) →
      s.orders.Written orders id (some (adjustedRow env row actual)) →
      QuotaMoved s.priceItems t (linesMoved o (o.items.map (adjustItem actual))) →
      Q { o with
        items := o.items.map (adjustItem actual)
        totalAmount := lineTotal (o.items.map (adjustItem actual)) }
        { s with orders := orders, priceItems := t }) :
    wp R (adjustOrder env id o actual) Q E s := by
  rw [adjustOrder, wp_bind, ← hitems]
  refine wp_adjustItems ht hrow (hitems ▸ hpos) actual fun orders hrange hwritten => ?_
  rw [hitems] at hrange ⊢
  -- the last statements, for any counter table that goes with the lines
  have hrest : ∀ t : Table (Uuid × Uuid) PriceItem,
      QuotaMoved s.priceItems t (linesMoved o (o.items.map (adjustItem actual))) →
      wp R (do
        issue (.order id)
          (.update { totalAmount := some (lineTotal (o.items.map (adjustItem actual))) } env.now)
        ret { o with
          items := o.items.map (adjustItem actual)
          totalAmount := lineTotal (o.items.map (adjustItem actual)) }) Q E
        { s with orders := orders, priceItems := t } := by
    intro t hquota
    have hfind : ({ s with orders := orders, priceItems := t } : Db).orders.find? id = some
        { row with items := row.items.map (adjustItem actual) } := hwritten.find?_self
    rw [wp_bind]
    refine wp_updateOrder ht hfind ?_
    refine hQ _ t hrange ?_ hquota
    have hput := hwritten.put (some (({ row with
      items := row.items.map (adjustItem actual) } : Order).set
        { totalAmount := some (lineTotal (o.items.map (adjustItem actual))) } env.now))
    rw [← hitems] at hput ⊢
    exact hput
  have hmoved : ∀ c k, demand c (quotaDeltas actual o.items) k =
      demand c (o.items.map OrderItem.pair) k -
        demand c ((o.items.map (adjustItem actual)).map OrderItem.pair) k :=
    fun c => demand_quotaDeltas fun i hi => (hrange i hi).2
  rw [wp_bind, wp_whenSome]
  refine ⟨fun c hcontract => ?_, fun hnone => hrest s.priceItems ?_⟩
  · refine hrel c _ hcontract (quotaDeltas_pos actual o.items) (fun k => ?_) { s with orders } rfl _
      fun t hreleased => hrest t ((quotaMoved_of_released hreleased).congr fun k => ?_)
    · have hrest : 0 ≤ demand c ((o.items.map (adjustItem actual)).map OrderItem.pair) k := by
        refine demand_nonneg (fun x hx => ?_) k
        obtain ⟨j, hj, rfl⟩ := List.mem_map.mp hx
        obtain ⟨i, hi, rfl⟩ := List.mem_map.mp hj
        exact (hrange i hi).1
      rw [hmoved]
      omega
    · rw [linesMoved, hcontract, Option.elim_some, hmoved, neg_sub]
  · refine (quotaMoved_zero _).congr fun k => ?_
    rw [linesMoved, hnone, Option.elim_none]

/-- A delivery adjusts the order, moves stock and posts the settlement. -/
theorem wp_handleOrderFulfillment (ht : Tame R E) {env : Env} {id : Uuid} {o row : Order}
    (hrow : s.orders.find? id = some row) (hitems : row.items = o.items)
    (htotal : row.totalAmount = o.totalAmount) (hnow : row.updatedAt = env.now)
    (hsale : o.saleType = .delivery) (hpos : ∀ i ∈ o.items, 0 < i.quantity)
    (hrel : LinesReleasable R E o s.priceItems) (actual : List OrderItemActual)
    {Q : Unit → Db → Prop}
    (hQ : ∀ orders priceItems balances stockTransfers stockTransactions transactions
        accountBalances items total rows, o.courierId.isSome = true → Adjusted o items total →
      s.orders.Written orders id
        (some { row with items := items, totalAmount := total, updatedAt := env.now }) →
      QuotaMoved s.priceItems priceItems (linesMoved o items) →
      Settlement env s.directory id { o with items := items, totalAmount := total } rows →
      Appended s.transactions transactions rows →
      Q () { s with orders, priceItems, balances, stockTransfers, stockTransactions,
                    transactions, accountBalances }) :
    wp R (handleOrderFulfillment env id o actual) Q E s := by
  rw [handleOrderFulfillment, wp_bind]
  refine wp_required ht rfl fun courierId hcourier => ?_
  have hcourier : o.courierId.isSome = true := by rw [hcourier, Option.isSome_some]
  have hrest : ∀ (orders : Table Uuid Order) (t : Table (Uuid × Uuid) PriceItem)
      (items : List OrderItem) (total : ℤ), Adjusted o items total →
      s.orders.Written orders id
        (some { row with items := items, totalAmount := total, updatedAt := env.now }) →
      QuotaMoved s.priceItems t (linesMoved o items) →
      wp R (do
        deliverStock env id { o with items := items, totalAmount := total } courierId
        processFinancialSettlement env id { o with items := items, totalAmount := total }) Q E
        { s with orders := orders, priceItems := t } := by
    intro orders t items total hadjusted hwritten hquota
    rw [wp_bind]
    refine wp_stock ht (deliverStock_quiet _ _ _ _) fun _ b st sx => ?_
    have hsale : ({ o with items := items, totalAmount := total } : Order).saleType = .delivery := hsale
    refine wp_processFinancialSettlement ht env id hsale fun tr ab rows hsettlement happended => ?_
    exact hQ orders t b st sx tr ab items total rows hcourier hadjusted hwritten hquota
      hsettlement happended
  rw [wp_bind]
  split
  · refine hrest s.orders s.priceItems o.items o.totalAmount .whole ?_ ?_
    · rw [← hitems, ← htotal, ← hnow]
      exact Table.written_self hrow
    · refine (quotaMoved_zero _).congr fun k => ?_
      rw [linesMoved]
      cases o.contract? with
      | none => rfl
      | some c => exact sub_self (demand c (o.items.map OrderItem.pair) k)
  · refine wp_adjustOrder ht hrow hitems hpos hrel actual fun orders t hrange hwritten hquota => ?_
    rw [adjustedRow, hitems] at hwritten
    exact hrest orders t _ _ (.partly actual hrange) hwritten hquota

/-! ## Cancellation -/

/-- A cancelled order gives back what it held, if it held anything. -/
theorem wp_releaseWhen (ht : Tame R E) {env : Env} {id : Uuid} {o row : Order}
    (hrow : s.orders.find? id = some row) (hflag : row.quantitiesReserved = o.quantitiesReserved)
    (hnow : row.updatedAt = env.now) (hok : OrderOk o)
    (hrel : LinesReleasable R E o s.priceItems) {c : Prop} [Decidable c]
    (hc : c ↔ o.contract?.isSome = true ∧ o.quantitiesReserved = true) {Q : Unit → Db → Prop}
    (hQ : ∀ orders t, s.orders.Written orders id (some { row with quantitiesReserved := false }) →
      QuotaMoved s.priceItems t (fun k => -held o k) →
      Q () { s with orders := orders, priceItems := t }) :
    wp R (whenever c (releaseOrderQuantities env id o)) Q E s := by
  rw [wp_whenever, hc]
  refine ⟨fun ⟨hcontract, hreserved⟩ => ?_, fun hnot => ?_⟩
  · obtain ⟨contractId, hcontract⟩ := Option.isSome_iff_exists.mp hcontract
    rw [releaseOrderQuantities, wp_bind, wp_whenSome]
    refine ⟨?_, fun h => absurd (h.symm.trans hcontract) (by simp)⟩
    intro contractId' hcontract'
    cases hcontract'.symm.trans hcontract
    refine hrel _ _ hcontract (pair_pos hok.quantity_pos) (fun _ => le_refl _) s rfl _
      fun t hreleased => ?_
    refine wp_updateOrder ht (s := { s with priceItems := t }) hrow ?_
    refine hQ _ t ?_ ((quotaMoved_of_released hreleased).congr fun k => ?_)
    · have hset : row.set { quantitiesReserved := some false } env.now =
          { row with quantitiesReserved := false } := by
        rw [← hnow]
        rfl
      rw [hset]
      exact s.orders.written_put id _
    · rw [held_of_reserved hreserved hcontract]
  · have hreserved : o.quantitiesReserved = false := by
      cases h : o.quantitiesReserved with
      | false => rfl
      | true => exact absurd ⟨(hok.reserved_iff.mp h).1, h⟩ hnot
    refine hQ s.orders s.priceItems ?_ ((quotaMoved_zero _).congr fun k => ?_)
    · rw [← hflag.trans hreserved]
      exact Table.written_self hrow
    · rw [held_of_not_reserved hreserved, neg_zero]

/-- The reason of a cancellation is kept when there is one. -/
theorem wp_keepReason (ht : Tame R E) {env : Env} {id : Uuid} {row : Order}
    (hrow : s.orders.find? id = some row) (hnow : row.updatedAt = env.now) {c : Prop}
    [Decidable c] {reason : Option String} {Q : Unit → Db → Prop}
    (hQ : ∀ orders kept, s.orders.Written orders id (some { row with cancellationReason := kept }) →
      Q () { s with orders := orders }) :
    wp R (whenever c (issue (.order id) (.update { cancellationReason := reason } env.now))) Q E s := by
  rw [wp_whenever]
  refine ⟨fun _ => ?_, fun _ => ?_⟩
  · refine wp_updateOrder ht hrow (hQ _ (reason.or row.cancellationReason) ?_)
    rw [Order.set, ← hnow]
    exact s.orders.written_put id _
  · exact hQ s.orders row.cancellationReason (Table.written_self hrow)

theorem wp_ensureStatusTransitionAllowed (ht : Tame R E) {id : Uuid} {o : Order}
    {newStatus : OrderStatus} {Q : Unit → Db → Prop}
    (hQ : o.status = newStatus ∨ newStatus ∈ getAllowedStatuses o.saleType o.status → Q () s) :
    wp R (ensureStatusTransitionAllowed id o newStatus) Q E s := by
  rw [ensureStatusTransitionAllowed, wp_whenever]
  refine ⟨fun _ => ?_, fun h => hQ (.inl (not_not.mp h))⟩
  rw [wp_bind]
  refine wp_check ht rfl fun _ => ?_
  rw [wp_bind]
  refine wp_check ht rfl fun _ => ?_
  rw [wp_raiseIf]
  exact ⟨fun _ => ht.err _ rfl, fun h => hQ (.inr (not_not.mp h))⟩

/-- How lines are adjusted does not depend on the status. -/
theorem adjusted_of_status {o : Order} {status : OrderStatus} {items : List OrderItem} {total : ℤ}
    (h : Adjusted { o with status := status } items total) : Adjusted o items total := by
  cases h with
  | whole => exact .whole
  | partly actual hactual => exact .partly actual hactual

theorem delivered_of_allowed {saleType : SaleType} {status : OrderStatus}
    (h : OrderStatus.delivered ∈ getAllowedStatuses saleType status) :
    saleType = .delivery ∧ status = .arrived := by
  cases saleType <;> cases status <;> simp_all [getAllowedStatuses, deliveryAllowedTransitions,
    pickupAllowedTransitions]

theorem cancelled_of_allowed {saleType : SaleType} {status : OrderStatus}
    (h : OrderStatus.cancelled ∈ getAllowedStatuses saleType status) :
    status ∈ [OrderStatus.new, .assigned, .inTransit, .arrived] := by
  cases saleType <;> cases status <;> simp_all [getAllowedStatuses, deliveryAllowedTransitions,
    pickupAllowedTransitions]

theorem moved_of_allowed {saleType : SaleType} {status newStatus : OrderStatus}
    (h : newStatus ∈ getAllowedStatuses saleType status) (hdelivered : newStatus ≠ .delivered)
    (hcancelled : newStatus ≠ .cancelled) :
    saleType = .delivery ∧ (status = .assigned ∧ newStatus = .inTransit ∨
      status = .inTransit ∧ newStatus = .arrived) := by
  cases saleType <;> cases status <;> simp_all [getAllowedStatuses, deliveryAllowedTransitions,
    pickupAllowedTransitions]

/-- `update_status` moves, delivers or cancels one order. -/
theorem updateStatus_changes (ht : Tame R E) (hs : OrdersOk s) (hrel : Releasable R E s)
    {r : Request} {id : Uuid} {newStatus : OrderStatus} {actual : List OrderItemActual}
    {u : Option Uuid} {reason : Option String} :
    wp R (updateStatus r.env id newStatus actual u reason) (fun _ s' => Changes R r s s') E s := by
  rw [updateStatus, wp_bind]
  refine wp_getOrderLocked ht id fun o ho => ?_
  have hok := hs id o ho
  rw [wp_bind]
  refine wp_check ht rfl fun _ => ?_
  rw [wp_bind]
  refine wp_ensureStatusTransitionAllowed ht fun hallowed => ?_
  rw [wp_bind]
  refine wp_updateOrder ht ho ?_
  have hwritten := s.orders.written_put id
    (some (o.set { status := some newStatus } r.env.now))
  have hrow := hwritten.find?_self
  by_cases hdelivered : o.status ≠ .delivered ∧ newStatus = .delivered
  · obtain ⟨hnot, rfl⟩ := hdelivered
    obtain ⟨hsale, hstatus⟩ := delivered_of_allowed
      (hallowed.resolve_left fun h => hnot h)
    rw [wp_bind, wp_whenever]
    refine ⟨fun _ => ?_, fun h => absurd ⟨hnot, rfl⟩ h⟩
    have hlines : LinesReleasable R E o s.priceItems :=
      linesReleasable hs hrel ho (by simp [hstatus])
    refine wp_handleOrderFulfillment ht (s := s.put (.order id) _)
      (o := { o with status := .delivered }) hrow rfl rfl rfl hsale hok.quantity_pos hlines actual ?_
    intro orders t b st sx tr ab items total rows hcourier hadjusted hput hquota hsettlement happended
    have hfind := hput.find?_self
    rw [wp_bind, wp_whenever]
    refine ⟨fun h => absurd h.1 (by simp), fun _ => ?_⟩
    rw [wp_bind, wp_whenever]
    refine ⟨fun h => absurd h.1 (by simp), fun _ => ?_⟩
    refine wp_logTransition ht hfind ?_
    have hall : s.orders.Written _ id _ := (hwritten.trans hput).put
      (some { o with
        status := .delivered
        items := items
        totalAmount := total
        updatedAt := r.env.now
        statusLogs := o.statusLogs ++ [⟨some o.status, .delivered, u, reason⟩] })
    refine Change.single ⟨.order id _ rows ?_ hall ?_ ?_ happended rfl, rfl⟩
    · rw [ho]
      exact .delivered hstatus hsale hcourier (adjusted_of_status hadjusted)
    · rw [ho]
      refine hquota.congr fun k => ?_
      change (if o.quantitiesReserved = true then o.contract?.elim 0 fun c =>
          demand c (items.map OrderItem.pair) k else 0) -
        (if o.quantitiesReserved = true then o.contract?.elim 0 fun c =>
          demand c (o.items.map OrderItem.pair) k else 0) =
        o.contract?.elim 0 fun c =>
          demand c (items.map OrderItem.pair) k - demand c (o.items.map OrderItem.pair) k
      cases hcontract : o.contract? with
      | none => simp only [Option.elim_none, ite_self, sub_zero]
      | some c =>
        have hflag : o.quantitiesReserved = true := by
          rw [hok.reserved_iff, hcontract, hstatus]
          simp
        rw [if_pos hflag, if_pos hflag]
        rfl
    · rw [ho, Postings, if_pos (by simp [isSettled, hstatus])]
      exact hsettlement
  rw [wp_bind, wp_whenever]
  refine ⟨fun h => absurd h hdelivered, fun _ => ?_⟩
  rw [wp_bind]
  by_cases hcancelled : o.status ≠ .cancelled ∧ newStatus = .cancelled
  · obtain ⟨hnot, rfl⟩ := hcancelled
    have hstatus := cancelled_of_allowed (hallowed.resolve_left hnot)
    have hlines := linesReleasable hs hrel ho hnot
    refine wp_releaseWhen ht (s := s.put (.order id) _) (o := o) hrow rfl rfl hok hlines ?_
      fun orders t hput hquota => ?_
    · simp only [List.mem_cons, List.not_mem_nil, or_false] at hstatus ⊢
      rcases hstatus with h | h | h | h <;> simp [h]
    have hput := hwritten.trans hput
    rw [wp_bind]
    refine wp_keepReason ht hput.find?_self rfl fun orders' kept hput' => ?_
    have hput := hput.trans hput'
    refine wp_logTransition ht hput.find?_self ?_
    refine Change.single ⟨.order id _ [] ?_ (hput.put _) ?_ ?_ (appended_nil _) rfl, rfl⟩
    · rw [ho]
      exact .cancelled hstatus
    · rw [ho]
      refine hquota.congr fun k => ?_
      rw [held_of_not_reserved rfl, Option.elim_some, zero_sub]
    · rw [ho, Postings, if_neg (by simp [isSettled, Order.set])]
  · rw [wp_whenever]
    refine ⟨fun h => absurd ⟨h.2.1, h.1⟩ hcancelled, fun _ => ?_⟩
    rw [wp_bind]
    refine wp_keepReason ht hrow rfl fun orders kept hput => ?_
    have hput := hwritten.trans hput
    refine wp_logTransition ht hput.find?_self ?_
    have hmoved : newStatus = o.status ∨ o.saleType = .delivery ∧
        (o.status = .assigned ∧ newStatus = .inTransit ∨
          o.status = .inTransit ∧ newStatus = .arrived) := by
      by_cases hsame : o.status = newStatus
      · exact .inl hsame.symm
      · refine .inr (moved_of_allowed (hallowed.resolve_left hsame) ?_ ?_)
        · exact fun h => hdelivered ⟨h ▸ hsame, h⟩
        · exact fun h => hcancelled ⟨h ▸ hsame, h⟩
    refine Change.single ⟨.order id _ [] ?_ (hput.put _) ?_ ?_ (appended_nil _) rfl, rfl⟩
    · rw [ho]
      exact .moved hmoved
    · rw [ho]
      exact (quotaMoved_zero _).congr fun k => sub_self (held o k)
    · rw [ho, Postings, if_neg]
      rintro ⟨hnew, hold⟩
      change (decide (newStatus = .delivered) || decide (newStatus = .pickupCompleted)) = true at hnew
      change ¬ (decide (o.status = .delivered) || decide (o.status = .pickupCompleted)) = true at hold
      rcases hmoved with rfl | ⟨-, ⟨-, rfl⟩ | ⟨-, rfl⟩⟩
      · exact hold hnew
      · exact absurd hnew (by decide)
      · exact absurd hnew (by decide)

/-- `cancel_order` cancels one order of the client. -/
theorem cancelOrder_changes (ht : Tame R E) (hs : OrdersOk s) (hrel : Releasable R E s)
    {r : Request} {id u : Uuid} {reason : Option String} :
    wp R (cancelOrder r.env id u reason) (fun _ s' => Changes R r s s') E s := by
  rw [cancelOrder, wp_bind, wp_ask]
  intro v _
  rw [wp_bind]
  refine wp_required ht rfl fun o _ => ?_
  rw [wp_bind]
  refine wp_check ht rfl fun _ => ?_
  rw [wp_bind, wp_raiseIf]
  exact ⟨fun _ => ht.err _ rfl, fun _ => updateStatus_changes ht hs hrel⟩

/-- `complete_pickup` settles one order. -/
theorem completePickup_changes (ht : Tame R E) {r : Request} {id u : Uuid} :
    wp R (completePickup r.env id u) (fun _ s' => Changes R r s s') E s := by
  rw [completePickup, wp_bind]
  refine wp_getOrderLocked ht id fun o ho => ?_
  rw [wp_bind]
  refine wp_check ht rfl fun hsale => ?_
  have hsale := not_not.mp hsale
  rw [wp_bind]
  refine wp_check ht rfl fun hstatus => ?_
  have hstatus := not_not.mp hstatus
  rw [wp_bind]
  refine wp_updateOrder ht ho ?_
  have hwritten := s.orders.written_put id
    (some (o.set { status := some .pickupCompleted } r.env.now))
  rw [wp_bind]
  refine wp_logTransition ht hwritten.find?_self ?_
  have hwritten := hwritten.put (some { o with
    status := .pickupCompleted
    updatedAt := r.env.now
    statusLogs := o.statusLogs ++ [⟨some .new, .pickupCompleted, some u, none⟩] })
  refine wp_handleWarehousePickup ht r.env id (o := { o with status := .pickupCompleted }) u hsale ?_
  intro b st sx tr ab rows hsettlement happended
  refine Change.single ⟨.order id _ rows ?_ hwritten ?_ ?_ happended rfl, rfl⟩
  · rw [ho]
    exact .pickedUp hstatus hsale
  · rw [ho]
    exact (quotaMoved_zero _).congr fun k => sub_self (held o k)
  · rw [ho, Postings, if_pos (by simp [isSettled, hstatus])]
    exact hsettlement

/-! ## Batches -/

/-- A candidate is taken if it still matches, and passed over if it does not or is locked. -/
theorem wp_lockCandidates_cons {isMatch : Order → Bool} {id : Uuid} {ids : List Uuid} {n : ℕ}
    {Q : List (Uuid × Order) → Db → Prop}
    (hmatch : ∀ o, (s.orders.find? id).filter isMatch = some o →
      wp R (lockCandidates isMatch n ids) (fun rest => Q ((id, o) :: rest)) E s)
    (hpassed : (s.orders.find? id).filter isMatch = none →
      wp R (lockCandidates isMatch (n + 1) ids) Q E s)
    (hlocked : R.skips → wp R (lockCandidates isMatch (n + 1) ids) Q E s) :
    wp R (lockCandidates isMatch (n + 1) (id :: ids)) Q E s := by
  rw [lockCandidates, wp_bind, wp_unlessLocked]
  refine ⟨?_, hlocked⟩
  cases hrow : (s.orders.find? id).filter isMatch with
  | none =>
    have hjoin : (some (schema.get s (.order id))).join.filter isMatch = none := hrow
    rw [hjoin]
    exact hpassed hrow
  | some o =>
    have hjoin : (some (schema.get s (.order id))).join.filter isMatch = some o := hrow
    rw [hjoin]
    dsimp only
    rw [wp_bind]
    exact hmatch o hrow

/-- The rows that are locked match, are current and differ. -/
theorem wp_lockCandidates (isMatch : Order → Bool) {ids : List Uuid} (hnodup : ids.Nodup) (n : ℕ)
    {Q : List (Uuid × Order) → Db → Prop}
    (hQ : ∀ rows : List (Uuid × Order), (rows.map Prod.fst).Sublist ids →
      (∀ x ∈ rows, s.orders.find? x.1 = some x.2 ∧ isMatch x.2 = true) → Q rows s) :
    wp R (lockCandidates isMatch n ids) Q E s := by
  induction ids generalizing n Q with
  | nil =>
    cases n <;> exact hQ [] (List.nil_sublist _) fun x hx => absurd hx List.not_mem_nil
  | cons id ids ih =>
    cases n with
    | zero => exact hQ [] (List.nil_sublist _) fun x hx => absurd hx List.not_mem_nil
    | succ n =>
      obtain ⟨hid, hids⟩ := List.nodup_cons.mp hnodup
      have hskip : wp R (lockCandidates isMatch (n + 1) ids) Q E s :=
        ih hids (n + 1) fun rows hsub hrows => hQ rows (hsub.cons id) hrows
      refine wp_lockCandidates_cons (fun o hrow => ?_) (fun _ => hskip) fun _ => hskip
      obtain ⟨ho, hmatch⟩ := Option.filter_eq_some_iff.mp hrow
      refine ih hids n fun rows hsub hrows => hQ ((id, o) :: rows) (hsub.cons_cons id) fun x hx => ?_
      rcases List.mem_cons.mp hx with rfl | hx
      · exact ⟨ho, hmatch⟩
      · exact hrows x hx

theorem wp_lockMatching (isMatch : Order → Bool) (limit : Option ℕ)
    {Q : List (Uuid × Order) → Db → Prop}
    (hQ : ∀ rows : List (Uuid × Order), (rows.map Prod.fst).Nodup →
      (∀ x ∈ rows, s.orders.find? x.1 = some x.2 ∧ isMatch x.2 = true) → Q rows s) :
    wp R (lockMatching isMatch limit) Q E s := by
  rw [lockMatching, wp_bind, wp_ask]
  intro v _
  have hnodup : ((v.orders.rows.filter fun r => isMatch r.2).map Prod.fst).Nodup :=
    (List.filter_sublist.map Prod.fst).nodup v.orders.nodup
  exact wp_lockCandidates isMatch hnodup _ fun rows hsub hrows => hQ rows (hsub.nodup hnodup) hrows

/-- One order of a batch is cancelled and the others stay. -/
theorem wp_cancelLocked (ht : Tame R E) (hs : OrdersOk s) (hrel : Releasable R E s) {r : Request}
    (reason : String) (u : Option Uuid) {x : Uuid × Order} (ho : s.orders.find? x.1 = some x.2)
    (hstatus : x.2.status ∈ [OrderStatus.new, .assigned, .inTransit, .arrived])
    {Q : Unit → Db → Prop}
    (hQ : ∀ s', Change R r s s' → (∀ id, id ≠ x.1 → s'.orders.find? id = s.orders.find? id) →
      Q () s') :
    wp R (cancelLocked r.env reason u x) Q E s := by
  obtain ⟨id, o⟩ := x
  dsimp only at ho hstatus hQ ⊢
  have hok := hs id o ho
  have hnot : o.status ≠ .cancelled := by
    intro h
    rw [h] at hstatus
    exact absurd hstatus (by decide)
  rw [cancelLocked, wp_bind]
  refine wp_updateOrder ht ho ?_
  have hwritten := s.orders.written_put id
    (some (o.set { status := some .cancelled } r.env.now))
  rw [wp_bind]
  refine wp_releaseWhen ht (s := s.put (.order id) _) (o := o) hwritten.find?_self rfl rfl hok
    (linesReleasable hs hrel ho hnot) Iff.rfl fun orders t hput hquota => ?_
  have hput := hwritten.trans hput
  rw [wp_bind]
  refine wp_updateOrder ht hput.find?_self ?_
  have hput := hput.put (some (({ (o.set { status := some .cancelled } r.env.now) with
    quantitiesReserved := false } : Order).set { cancellationReason := some reason } r.env.now))
  refine wp_logTransition ht hput.find?_self ?_
  refine hQ _ ⟨.order id _ [] ?_ (hput.put _) ?_ ?_ (appended_nil _) rfl, rfl⟩
    fun j hj => (hput.put _).find?_ne hj
  · rw [ho]
    exact .cancelled hstatus
  · rw [ho]
    refine hquota.congr fun k => ?_
    rw [held_of_not_reserved rfl, Option.elim_some, zero_sub]
  · rw [ho, Postings, if_neg (by simp [isSettled, Order.set])]

/-- A batch of locked orders is cancelled one by one. -/
theorem wp_cancelBatch (ht : Tame R E) (hs : OrdersOk s) {r : Request}
    (hrel : ∀ s₁, Changes R r s s₁ → Releasable R E s₁) (reason : String) (u : Option Uuid)
    {rows : List (Uuid × Order)} (hnodup : (rows.map Prod.fst).Nodup)
    (hrows : ∀ x ∈ rows, s.orders.find? x.1 = some x.2 ∧
      x.2.status ∈ [OrderStatus.new, .assigned, .inTransit, .arrived])
    {Q : Unit → Db → Prop} (hQ : ∀ s', Changes R r s s' → Q () s') :
    wp R (forEach rows (cancelLocked r.env reason u)) Q E s := by
  refine wp_loop (fun done (s' : Db) => Changes R r s s' ∧
      ∀ x ∈ rows, x.1 ∉ done.map Prod.fst → s'.orders.find? x.1 = some x.2)
    ⟨.refl, fun x hx _ => (hrows x hx).1⟩ ?_ fun s' h => hQ s' h.1
  rintro done x todo s₁ hdone ⟨hchanges, hstays⟩
  have hx : x ∈ rows := hdone ▸ List.mem_append_right _ List.mem_cons_self
  have hfresh : x.1 ∉ done.map Prod.fst := by
    rw [← hdone, List.map_append, List.map_cons, List.nodup_middle, List.nodup_cons] at hnodup
    exact fun h => hnodup.1 (List.mem_append_left _ h)
  refine wp_cancelLocked ht (hchanges.ordersOk hs) (hrel s₁ hchanges) reason u (hstays x hx hfresh)
    (hrows x hx).2 fun s₂ hchange hothers => ⟨hchanges.tail hchange, fun y hy hnot => ?_⟩
  rw [List.map_append, List.mem_append, not_or, List.map_singleton, List.mem_singleton] at hnot
  rw [hothers y.1 hnot.2]
  exact hstays y hy hnot.1

theorem wp_getStaleOrders {olderThan : ℤ} {status : OrderStatus} {byUpdated : Bool}
    (hstatus : status ∈ [OrderStatus.new, .assigned, .inTransit, .arrived])
    {Q : List (Uuid × Order) → Db → Prop}
    (hQ : ∀ rows : List (Uuid × Order), (rows.map Prod.fst).Nodup →
      (∀ x ∈ rows, s.orders.find? x.1 = some x.2 ∧
        x.2.status ∈ [OrderStatus.new, .assigned, .inTransit, .arrived]) → Q rows s) :
    wp R (getStaleOrders olderThan status byUpdated) Q E s := by
  refine wp_lockMatching _ _ fun rows hnodup hrows => hQ rows hnodup fun x hx => ?_
  obtain ⟨hfind, hmatch⟩ := hrows x hx
  rw [Bool.and_eq_true, Bool.and_eq_true] at hmatch
  rw [of_decide_eq_true hmatch.1.1]
  exact ⟨hfind, hstatus⟩

/-- `expire_stale_orders` cancels two batches of orders. -/
theorem expireStaleOrders_changes (ht : Tame R E) (hs : OrdersOk s) {r : Request}
    (hrel : ∀ s₁, Changes R r s s₁ → Releasable R E s₁) {maxAge assignedMaxAge : ℤ}
    {u : Option Uuid} :
    wp R (expireStaleOrders r.env maxAge assignedMaxAge u) (fun _ s' => Changes R r s s') E s := by
  rw [expireStaleOrders, wp_bind]
  refine wp_getStaleOrders (by decide) fun rows hnodup hrows => ?_
  rw [wp_bind]
  refine wp_cancelBatch ht hs hrel _ u hnodup hrows fun s₁ h₁ => ?_
  rw [wp_bind]
  refine wp_getStaleOrders (by decide) fun rows hnodup hrows => ?_
  exact wp_cancelBatch ht (h₁.ordersOk hs) (fun s₂ h₂ => hrel s₂ (h₁.trans h₂)) _ u hnodup hrows
    fun s₂ h₂ => h₁.trans h₂

end Rules

end Munavvar.LifecycleEffects
