import Munavvar.Capitalization
import Munavvar.Pickups

/-!
# The container check

Before an order is placed the client's empty containers are compared with the
cart, one line after the other. A container that several lines need is counted
for each of them, so the check misses what only the lines together lack; the
preview leaves out the containers that are bought in the same cart.
-/

namespace Munavvar.ContainerShortage

open Munavvar.Footprints
open Munavvar.KeyedTable
open Munavvar.Transaction
open Munavvar.Transaction.Prog
open Munavvar.Database
open Munavvar.DoubleEntry
open Munavvar.Statements
open Munavvar.StockLedger
open Munavvar.StockTransfers
open Munavvar.OrderQueries
open Munavvar.Quota (checkAndReserveQuantities)
open Munavvar.OrderService
open Munavvar.StockService (itemsToCapitalize)
open Munavvar.Capitalization (need cartProducts exchanged amount_itemsToCapitalize_cons)
open Munavvar.ShortageCheck
open Munavvar.Operations (sampleDb)
open Munavvar.Bag (amount)

/-! ## Counting line by line -/

/-- What each of some numbers exceeds a bound by. -/
theorem sum_excess (a : ℤ) (es : List ℤ) : (es.map fun e => max 0 (e - a)).sum =
    (es.filter (a < ·)).sum - (es.filter (a < ·)).length * a := by
  induction es with
  | nil => simp
  | cons e es ih =>
    rw [List.map_cons, List.sum_cons, ih, List.filter_cons]
    by_cases hover : a < e
    · rw [decide_eq_true hover, if_pos rfl, List.sum_cons, List.length_cons, max_eq_right (by omega)]
      push_cast
      rw [add_mul, one_mul]
      omega
    · rw [decide_eq_false hover, if_neg Bool.false_ne_true, max_eq_left (by omega), zero_add]

theorem sum_split (a : ℤ) (es : List ℤ) :
    es.sum = (es.filter (a < ·)).sum + (es.filter (· ≤ a)).sum := by
  induction es with
  | nil => rfl
  | cons e es ih =>
    rw [List.sum_cons, ih, List.filter_cons, List.filter_cons]
    by_cases hover : a < e
    · have hnot : ¬ e ≤ a := by omega
      simp only [hover, hnot, decide_true, decide_false, if_true, Bool.false_eq_true, if_false,
        List.sum_cons]
      omega
    · have hle : e ≤ a := by omega
      simp only [hover, hle, decide_true, decide_false, if_true, Bool.false_eq_true, if_false,
        List.sum_cons]
      omega

/-- Something that exceeds the bound exceeds it in the sum. -/
theorem excess_pos {a : ℤ} {es : List ℤ} (h : es.filter (a < ·) ≠ []) :
    0 < (es.map fun e => max 0 (e - a)).sum := by
  obtain ⟨e, he⟩ := List.exists_mem_of_ne_nil _ h
  obtain ⟨hmem, hover⟩ := List.mem_filter.mp he
  have hover : a < e := of_decide_eq_true hover
  have hle : max 0 (e - a) ≤ (es.map fun e => max 0 (e - a)).sum := by
    refine List.single_le_sum (fun x hx => ?_) _ (List.mem_map.mpr ⟨e, hmem, rfl⟩)
    obtain ⟨_, -, rfl⟩ := List.mem_map.mp hx
    exact le_max_left 0 _
  rw [max_eq_right (by omega)] at hle
  omega

/-- The quantities that are asked of one container. -/
def entries (exchange : List (Uuid × ℤ)) (tare : Uuid) : List ℤ :=
  (exchange.filter fun x => x.1 = tare).map Prod.snd

/-- What is entered of one container. -/
theorem amount_itemsToCapitalize (b : Uuid → ℤ) (exchange : List (Uuid × ℤ)) (tare : Uuid) :
    amount (itemsToCapitalize b exchange) tare =
      ((entries exchange tare).map fun e => max 0 (e - b tare)).sum := by
  induction exchange with
  | nil => rfl
  | cons x exchange ih =>
    rw [amount_itemsToCapitalize_cons, ih, entries, entries, List.filter_cons]
    by_cases hsame : x.1 = tare
    · rw [if_pos hsame, decide_eq_true hsame, if_pos rfl, List.map_cons, List.map_cons, List.sum_cons,
        hsame]
    · rw [if_neg hsame, decide_eq_false hsame, if_neg Bool.false_ne_true, zero_add]

/-! ## Shortages -/

section Shortage

variable (s : Db) (inventoryId : Uuid) (items : List Item)

/-- The pieces of a container that a cart buys. -/
def bought (tare : Uuid) : ℤ := amount (items.map Item.pair) tare

/-- The containers that a cart lacks. -/
def short (tare : Uuid) : ℤ :=
  max 0 (need s items tare - (stockOf s inventoryId tare + bought items tare))

/-- The containers that every line is compared with. -/
def counted (tare : Uuid) : ℤ := stockOf s inventoryId tare + orderingNow items tare

/-- Counting line by line comes to the same. If no entry alone exceeds the
containers, then the whole cart does not either. If one does, then the bought
containers that are not counted make up for all that is not counted as needed:
repeated lines, entries that find their containers, and the containers that are
counted again for every further entry that exceeds them. -/
def Agrees (tare : Uuid) : Prop :=
  let a := counted s inventoryId items tare
  let es := entries (exchanged s items) tare
  if es.filter (a < ·) = [] then need s items tare ≤ stockOf s inventoryId tare + bought items tare
  else bought items tare - orderingNow items tare =
    (need s items tare - es.sum) + (es.filter (· ≤ a)).sum +
      ((es.filter (a < ·)).length - 1) * a

/-- The lines of a cart that need a container. -/
def linesFor (tare : Uuid) : List Item :=
  items.filter fun i => returnableItem s i.productId = some tare

/-- At most one line needs the container, or there are none or enough of them
for all lines together. -/
def Unshared (tare : Uuid) : Prop :=
  (linesFor s items tare).length ≤ 1 ∨ counted s inventoryId items tare = 0 ∨
    need s items tare ≤ counted s inventoryId items tare

variable {s inventoryId items}

/-- What is entered line by line is what the cart lacks exactly if the counting agrees. -/
theorem entered_eq_short_iff (tare : Uuid) :
    amount (itemsToCapitalize (counted s inventoryId items) (exchanged s items)) tare =
      short s inventoryId items tare ↔ Agrees s inventoryId items tare := by
  rw [amount_itemsToCapitalize, short, Agrees]
  have hexcess := sum_excess (counted s inventoryId items tare) (entries (exchanged s items) tare)
  have hsplit := sum_split (counted s inventoryId items tare) (entries (exchanged s items) tare)
  have hcounted : counted s inventoryId items tare =
      stockOf s inventoryId tare + orderingNow items tare := rfl
  split
  · next hnone =>
    rw [hexcess, hnone, List.sum_nil, List.length_nil]
    push_cast
    omega
  · next hsome =>
    have hpos := excess_pos hsome
    rw [hexcess] at hpos ⊢
    rw [sub_mul, one_mul]
    omega

end Shortage

/-! ## Carts without repeated products -/

section Distinct

variable {s : Db} {inventoryId : Uuid} {items : List Item}

theorem need_eq_sum (tare : Uuid) :
    need s items tare = ((linesFor s items tare).map Item.quantity).sum := by
  rw [need, linesFor]
  induction items with
  | nil => rfl
  | cons i items ih =>
    rw [List.map_cons, List.sum_cons, ih, List.filter_cons]
    by_cases hneeds : returnableItem s i.productId = some tare
    · rw [if_pos hneeds, decide_eq_true hneeds, if_pos rfl, List.map_cons, List.sum_cons]
    · rw [if_neg hneeds, decide_eq_false hneeds, if_neg Bool.false_ne_true, zero_add]

/-- Without repeated products every line is the one that is found. -/
theorem find_line (hnodup : (items.map Item.productId).Nodup) {i : Item} (hi : i ∈ items) :
    items.find? (fun j => j.productId = i.productId) = some i := by
  cases hfind : items.find? fun j => j.productId = i.productId with
  | none => exact absurd (List.find?_eq_none.mp hfind i hi) (by simp)
  | some j =>
    have hj : j.productId = i.productId := by simpa using List.find?_some hfind
    rw [List.inj_on_of_nodup_map hnodup (List.mem_of_find?_eq_some hfind) hi hj]

/-- The first line of a product is also its last one. -/
theorem find_reverse (hnodup : (items.map Item.productId).Nodup) (p : Uuid) :
    items.reverse.find? (fun i => i.productId = p) = items.find? fun i => i.productId = p := by
  have hreverse : (items.reverse.map Item.productId).Nodup := by
    rw [List.map_reverse]
    exact List.nodup_reverse.mpr hnodup
  cases hfind : items.find? fun i => i.productId = p with
  | none =>
    rw [List.find?_eq_none] at hfind ⊢
    exact fun i hi => hfind i (List.mem_reverse.mp hi)
  | some i =>
    have hi : i.productId = p := by simpa using List.find?_some hfind
    subst hi
    exact find_line hreverse (List.mem_reverse.mpr (List.mem_of_find?_eq_some hfind))

/-- The only line of a container counts in full. -/
theorem bought_eq_orderingNow (hnodup : (items.map Item.productId).Nodup) (tare : Uuid) :
    bought items tare = orderingNow items tare := by
  rw [orderingNow, find_reverse hnodup, bought]
  have hpairs : ((items.map Item.pair).map Prod.fst).Nodup := by
    rw [List.map_map]
    exact hnodup
  cases hfind : items.find? fun i => i.productId = tare with
  | none =>
    refine Bag.amount_eq_zero fun hmem => ?_
    rw [List.map_map] at hmem
    obtain ⟨i, hi, htare⟩ := List.mem_map.mp hmem
    exact List.find?_eq_none.mp hfind i hi (decide_eq_true htare)
  | some i =>
    have hi : i.productId = tare := by simpa using List.find?_some hfind
    have hmem : (tare, i.quantity) ∈ items.map Item.pair :=
      List.mem_map.mpr ⟨i, List.mem_of_find?_eq_some hfind, by rw [Item.pair, hi]⟩
    exact Bag.amount_of_mem hpairs hmem

/-- Every product of the cart is on sale. -/
def OnSale (s : Db) (items : List Item) : Prop :=
  ∀ i ∈ items, ∃ p, s.products.find? i.productId = some p ∧ p.isActive = true

theorem mem_cartProducts (r : Uuid × Product) : r ∈ cartProducts s items ↔
    s.products.find? r.1 = some r.2 ∧ r.1 ∈ items.map Item.productId ∧ r.2.isActive = true := by
  rw [cartProducts, List.mem_filter, Table.mem_rows_iff _ r.1 r.2]
  simp only [Bool.and_eq_true, decide_eq_true_eq]

theorem cartProducts_nodup : ((cartProducts s items).map Prod.fst).Nodup :=
  (List.filter_sublist.map Prod.fst).nodup s.products.nodup

/-- A list whose entries keep the different keys of another one. -/
theorem keys_nodup {K V W : Type} {f : V → Option W} {key : V → K} {key' : W → K}
    (hf : ∀ v w, f v = some w → key' w = key v) {l : List V} (hl : (l.map key).Nodup) :
    ((l.filterMap f).map key').Nodup := by
  induction l with
  | nil => exact List.nodup_nil
  | cons v l ih =>
    rw [List.map_cons, List.nodup_cons] at hl
    rw [List.filterMap_cons]
    cases hv : f v with
    | none => exact ih hl.2
    | some w =>
      rw [List.map_cons, List.nodup_cons]
      refine ⟨fun hmem => hl.1 ?_, ih hl.2⟩
      obtain ⟨w', hw', hsame⟩ := List.mem_map.mp hmem
      obtain ⟨v', hv', hw'⟩ := List.mem_filterMap.mp hw'
      rw [← hf v w hv, ← hsame, hf v' w' hw']
      exact List.mem_map.mpr ⟨v', hv', rfl⟩

/-- The products of the cart with their containers and quantities, product by
product and line by line. -/
theorem exchanged_perm (hnodup : (items.map Item.productId).Nodup) (hsale : OnSale s items) :
    (exchanged s items).Perm (items.filterMap fun i =>
      (returnableItem s i.productId).map fun tare => (tare, i.quantity)) := by
  -- with the product beside it no entry occurs twice on either side
  let byProduct := (cartProducts s items).filterMap fun p => p.2.returnableItemId.bind fun tare =>
    (items.find? fun i => i.productId = p.1).map fun i => (p.1, tare, i.quantity)
  let byLine := items.filterMap fun i =>
    (returnableItem s i.productId).map fun tare => (i.productId, tare, i.quantity)
  have hproducts : exchanged s items = byProduct.map Prod.snd := by
    simp only [byProduct, exchanged, Capitalization.exchangeItems, List.map_filterMap,
      Option.map_bind, Function.comp_def, Option.map_map]
  have hlines : (items.filterMap fun i =>
      (returnableItem s i.productId).map fun tare => (tare, i.quantity)) = byLine.map Prod.snd := by
    simp only [byLine, List.map_filterMap, Option.map_map, Function.comp_def]
  have hproductsNodup : byProduct.Nodup := by
    refine List.Nodup.of_map Prod.fst (keys_nodup (fun p x hx => ?_) cartProducts_nodup)
    obtain ⟨tare, -, hx⟩ := Option.bind_eq_some_iff.mp hx
    obtain ⟨i, -, rfl⟩ := Option.map_eq_some_iff.mp hx
    rfl
  have hlinesNodup : byLine.Nodup := by
    refine List.Nodup.of_map Prod.fst (keys_nodup (fun i x hx => ?_) hnodup)
    obtain ⟨tare, -, rfl⟩ := Option.map_eq_some_iff.mp hx
    rfl
  rw [hproducts, hlines]
  refine ((List.perm_ext_iff_of_nodup hproductsNodup hlinesNodup).mpr fun x => ?_).map Prod.snd
  constructor
  · intro hx
    obtain ⟨p, hp, hx⟩ := List.mem_filterMap.mp hx
    obtain ⟨tare, htare, hx⟩ := Option.bind_eq_some_iff.mp hx
    obtain ⟨i, hi, rfl⟩ := Option.map_eq_some_iff.mp hx
    have hproduct : i.productId = p.1 := by simpa using List.find?_some hi
    have hneeds : returnableItem s i.productId = some tare := by
      rw [returnableItem, hproduct, ((mem_cartProducts p).mp hp).1]
      exact htare
    refine List.mem_filterMap.mpr ⟨i, List.mem_of_find?_eq_some hi, ?_⟩
    rw [hneeds, ← hproduct]
    rfl
  · intro hx
    obtain ⟨i, hi, hx⟩ := List.mem_filterMap.mp hx
    obtain ⟨tare, htare, rfl⟩ := Option.map_eq_some_iff.mp hx
    obtain ⟨p, hp, hactive⟩ := hsale i hi
    have hmem : (i.productId, p) ∈ cartProducts s items :=
      (mem_cartProducts _).mpr ⟨hp, List.mem_map.mpr ⟨i, hi, rfl⟩, hactive⟩
    have hneeds : p.returnableItemId = some tare := by
      rw [returnableItem, hp] at htare
      exact htare
    refine List.mem_filterMap.mpr ⟨(i.productId, p), hmem, ?_⟩
    rw [hneeds, Option.bind_some, find_line hnodup hi]
    rfl

/-- Each line that needs a container is one entry. -/
theorem entries_perm (hnodup : (items.map Item.productId).Nodup) (hsale : OnSale s items)
    (tare : Uuid) :
    (entries (exchanged s items) tare).Perm ((linesFor s items tare).map Item.quantity) := by
  have hperm := ((exchanged_perm hnodup hsale).filter fun x => x.1 = tare).map Prod.snd
  have hlines : ∀ items : List Item, ((items.filterMap fun i =>
      (returnableItem s i.productId).map fun tare => (tare, i.quantity)).filter fun x =>
        x.1 = tare).map Prod.snd = (linesFor s items tare).map Item.quantity := by
    intro items
    induction items with
    | nil => rfl
    | cons i items ih =>
      rw [linesFor, List.filterMap_cons, List.filter_cons]
      rw [linesFor] at ih
      cases hneeds : returnableItem s i.productId with
      | none =>
        simp only [Option.map_none, reduceCtorEq, decide_false, Bool.false_eq_true, if_false]
        exact ih
      | some t =>
        simp only [Option.map_some, List.filter_cons, Option.some.injEq]
        by_cases hsame : t = tare
        · rw [decide_eq_true hsame, if_pos rfl, if_pos rfl, List.map_cons, List.map_cons, ih]
        · rw [decide_eq_false hsame, if_neg Bool.false_ne_true, if_neg Bool.false_ne_true, ih]
  rw [hlines] at hperm
  exact hperm

/-- Quantities exceed a bound one by one by as much as together only if there is
one of them, or nothing to compare with, or enough. -/
theorem agrees_of_entries {a : ℤ} {es : List ℤ} (hpos : ∀ e ∈ es, 0 < e) (ha : 0 ≤ a) :
    (if es.filter (a < ·) = [] then es.sum ≤ a
      else 0 = (es.filter (· ≤ a)).sum + ((es.filter (a < ·)).length - 1) * a) ↔
      es.length ≤ 1 ∨ a = 0 ∨ es.sum ≤ a := by
  split
  · next hnone =>
    have hle : ∀ e ∈ es, e ≤ a := by
      intro e he
      have hover := List.filter_eq_nil_iff.mp hnone e he
      simpa using hover
    constructor
    · exact fun h => .inr (.inr h)
    · rintro (hlength | hzero | h)
      · match es, hlength with
        | [], _ => exact ha
        | [e], _ =>
          have hone := hle e List.mem_cons_self
          simpa using hone
      · have hempty : es = [] := by
          refine List.eq_nil_iff_forall_not_mem.mpr fun e he => ?_
          have hpos := hpos e he
          have hle := hle e he
          omega
        rw [hempty]
        exact ha
      · exact h
  · next hsome =>
    have hlengths := List.length_eq_length_filter_add (l := es) fun e => decide (a < e)
    have hnot : (es.filter fun e => !decide (a < e)) = es.filter (· ≤ a) :=
      List.filter_congr fun e _ => by
        rw [← decide_not]
        exact decide_eq_decide.mpr not_lt
    rw [hnot] at hlengths
    have hmany : 0 < (es.filter (a < ·)).length := List.length_pos_of_ne_nil hsome
    have hunderPos : ∀ e ∈ es.filter (· ≤ a), 0 < e := fun e he => hpos e (List.mem_filter.mp he).1
    have hunder : 0 ≤ (es.filter (· ≤ a)).sum :=
      List.sum_nonneg fun e he => (hunderPos e he).le
    constructor
    · intro h
      have hagain : 0 ≤ (((es.filter (a < ·)).length : ℤ) - 1) * a :=
        Int.mul_nonneg (by omega) ha
      have hempty : es.filter (· ≤ a) = [] := by
        by_contra hne
        obtain ⟨e, he⟩ := List.exists_mem_of_ne_nil _ hne
        have hle := List.single_le_sum (fun x hx => (hunderPos x hx).le) e he
        have hpos := hunderPos e he
        omega
      rw [hempty, List.length_nil] at hlengths
      have hproduct : (((es.filter (a < ·)).length : ℤ) - 1) * a = 0 := by omega
      rcases Int.mul_eq_zero.mp hproduct with hone | hzero
      · exact .inl (by omega)
      · exact .inr (.inl hzero)
    · rintro (hlength | hzero | hle)
      · have hempty : es.filter (· ≤ a) = [] := List.eq_nil_of_length_eq_zero (by omega)
        have hone : (es.filter (a < ·)).length = 1 := by omega
        rw [hempty, hone]
        simp
      · have hempty : es.filter (· ≤ a) = [] := by
          refine List.eq_nil_iff_forall_not_mem.mpr fun e he => ?_
          have hpos := hunderPos e he
          have hle := of_decide_eq_true (List.mem_filter.mp he).2
          omega
        rw [hempty, hzero]
        simp
      · obtain ⟨e, he⟩ := List.exists_mem_of_ne_nil _ hsome
        obtain ⟨hmem, hover⟩ := List.mem_filter.mp he
        have hover : a < e := of_decide_eq_true hover
        have hpart := List.single_le_sum (fun x hx => (hpos x hx).le) e hmem
        omega

/-- In a cart without repeated products the counting agrees unless lines share
a container that is there, but not for all of them. -/
theorem agrees_iff_unshared (hnodup : (items.map Item.productId).Nodup) (hsale : OnSale s items)
    {tare : Uuid} (hstock : 0 ≤ stockOf s inventoryId tare) :
    Agrees s inventoryId items tare ↔ Unshared s inventoryId items tare := by
  have hperm := entries_perm hnodup hsale tare
  have hbought := bought_eq_orderingNow hnodup tare
  have hneed : need s items tare = (entries (exchanged s items) tare).sum := by
    rw [need_eq_sum, hperm.sum_eq]
  have hlength : (linesFor s items tare).length = (entries (exchanged s items) tare).length := by
    rw [hperm.length_eq, List.length_map]
  have hpos : ∀ e ∈ entries (exchanged s items) tare, 0 < e := by
    intro e he
    obtain ⟨i, -, rfl⟩ := List.mem_map.mp (hperm.mem_iff.mp he)
    exact i.quantity_pos
  have hcounted : counted s inventoryId items tare =
      stockOf s inventoryId tare + bought items tare := by rw [counted, hbought]
  have havailable : 0 ≤ counted s inventoryId items tare := by
    have hnonneg : 0 ≤ bought items tare := by
      refine Bag.amount_nonneg (fun x hx => ?_) tare
      obtain ⟨i, -, rfl⟩ := List.mem_map.mp hx
      exact i.quantity_pos.le
    omega
  rw [Agrees, Unshared, hlength, hneed, ← hcounted, hbought, sub_self, sub_self, zero_add]
  exact agrees_of_entries hpos havailable

end Distinct

/-! ## The check -/

section Check

variable {R : Regime schema} {E : Err → Prop} {s : Db}

/-- The missing containers that are entered are those that are counted line by line. -/
theorem taraShortages_map (b : Uuid → ℤ) (items : List Item) (exchange : List ExchangeItem) :
    (taraShortages b items exchange).map (fun x => (x.returnableItemId, x.deficit)) =
      itemsToCapitalize (fun tare => b tare + orderingNow items tare)
        (exchange.map fun x => (x.requiredTareId, x.quantity)) := by
  induction exchange with
  | nil => rfl
  | cons x exchange ih =>
    rw [taraShortages] at ih ⊢
    rw [itemsToCapitalize] at ih ⊢
    rw [List.filterMap_cons, List.map_cons, List.map_cons, List.filter_cons]
    by_cases hshort : b x.requiredTareId + orderingNow items x.requiredTareId < x.quantity
    · rw [if_pos hshort, decide_eq_true (by dsimp only; omega), if_pos rfl, List.map_cons, ih]
    · rw [if_neg hshort, decide_eq_false (by dsimp only; omega), if_neg Bool.false_ne_true, ih]

/-- The check fails without capitalisation if a line alone lacks containers, and
enters what the lines lack one by one with it. -/
theorem wp_exchangeTara (hexact : R.Exact) (hlax : R.Lax) {env : Env} {inventoryId u : Uuid}
    {items : List Item} {exchange : List ExchangeItem} {flag : Bool}
    (hfound : ∃ i, s.directory.inventory? inventoryId = some i ∧ i.isActive = true)
    (hshort : flag = false → taraShortages (stockOf s inventoryId) items exchange ≠ [] →
      E (.insufficientTara (taraShortages (stockOf s inventoryId) items exchange)))
    (hother : flag = false ∨ ∀ e, E e) {Q : Bool → Db → Prop}
    (hnone : taraShortages (stockOf s inventoryId) items exchange = [] → Q false s)
    (hsome : flag = true → ∀ vendor s', vendors s.directory = [vendor] →
      Transferred vendor.id inventoryId (amount ((taraShortages (stockOf s inventoryId) items
        exchange).map fun x => (x.returnableItemId, x.deficit))) s.balances s'.balances → Q true s') :
    wp R (exchangeTara env inventoryId items exchange flag u) Q E s := by
  rw [exchangeTara]
  split
  · next hempty =>
    rw [List.isEmpty_iff.mp hempty] at hnone
    exact hnone rfl
  obtain ⟨i, hi, hactive⟩ := hfound
  rw [wp_bind]
  refine wp_getInventoryWithBalances hexact _ _ ?_
  rw [wp_bind, wp_orRaise]
  refine ⟨fun hmissing => ?_, fun x hx => ?_⟩
  · rw [hi] at hmissing
    simp [hactive] at hmissing
  obtain ⟨j, hj, rfl⟩ := Option.map_eq_some_iff.mp hx
  have hid : j.id = inventoryId := inventory?_id (Option.filter_eq_some_iff.mp hj).1
  rw [wp_bind, wp_raiseIf]
  refine ⟨fun h => hshort h.2 h.1, fun hpasses => ?_⟩
  rw [wp_bind, wp_whenever]
  refine ⟨fun hmissing => ?_, fun hnot => ?_⟩
  · have hflag : flag = true := by
      by_contra h
      exact hpasses ⟨hmissing, Bool.not_eq_true _ ▸ h⟩
    have hany : ∀ e, E e := hother.resolve_left (by rw [hflag]; decide)
    rw [wp_bind]
    refine wp_getVendorInventory hexact (.inr fun e _ => hany e) fun vendor hvendor => ?_
    refine wp_createStockTransfer hexact hlax (.inr fun e _ => hany e) (.inr fun _ => hany _)
      fun s' hafter => ?_
    have hmoved := hafter.transferred
    rw [filter_of_pos ?_, hid] at hmoved
    · rw [wp_ret, decide_eq_true hmissing]
      exact hsome hflag vendor s' hvendor hmoved
    · rw [taraShortages_map]
      exact Capitalization.itemsToCapitalize_pos _ _
  · have hnot := not_not.mp hnot
    rw [wp_ret, hnot]
    exact hnone hnot

end Check

/-! ## What the check comes to -/

/-- A container check looks at the cart as a whole: it passes if the cart lacks
nothing, and it enters what the cart lacks. -/
structure PerContainer (check : Bool → Uow Bool) (inventoryId : Uuid) (items : List Item) (s : Db) :
    Prop where
  /-- Without capitalisation. -/
  passes : (∃ x, (check false).run s = .ok x) ↔ ∀ tare, short s inventoryId items tare = 0
  /-- With capitalisation. -/
  moves : ∀ x, (check true).run s = .ok x → ∀ i p, stockOf x.2 i p = stockOf s i p +
    (if i = inventoryId then short s inventoryId items p else 0) -
    (if i ∈ (vendors s.directory).map Inventory.id then short s inventoryId items p else 0)

section Iff

variable {s : Db} {env : Env} {inventoryId u : Uuid} {items : List Item}
  {exchange : List ExchangeItem}

/-- Nothing is missing if nothing of any container is missing. -/
theorem taraShortages_eq_nil
    (hexchange : exchange.map (fun x => (x.requiredTareId, x.quantity)) = exchanged s items) :
    taraShortages (stockOf s inventoryId) items exchange = [] ↔
      ∀ tare, amount (itemsToCapitalize (counted s inventoryId items) (exchanged s items)) tare = 0 := by
  have hmap := taraShortages_map (stockOf s inventoryId) items exchange
  rw [hexchange] at hmap
  change _ = itemsToCapitalize (counted s inventoryId items) (exchanged s items) at hmap
  constructor
  · intro hnone tare
    rw [← hmap, hnone]
    rfl
  · intro hzero
    by_contra hsome
    obtain ⟨x, hx⟩ := List.exists_mem_of_ne_nil _ hsome
    have hmem : (x.returnableItemId, x.deficit) ∈
        itemsToCapitalize (counted s inventoryId items) (exchanged s items) := by
      rw [← hmap]
      exact List.mem_map.mpr ⟨x, hx, rfl⟩
    have hpos := Capitalization.itemsToCapitalize_pos _ _ _ hmem
    have hle := Bag.le_amount (fun y hy =>
      (Capitalization.itemsToCapitalize_pos (counted s inventoryId items) _ y hy).le) hmem
    dsimp only at hle hpos
    rw [hzero] at hle
    omega

/-- The check without capitalisation. -/
theorem exchangeTara_passes_iff
    (hfound : ∃ i, s.directory.inventory? inventoryId = some i ∧ i.isActive = true) :
    (∃ x, (exchangeTara env inventoryId items exchange false u).run s = .ok x) ↔
      taraShortages (stockOf s inventoryId) items exchange = [] := by
  have hwp : wp Regime.serial (exchangeTara env inventoryId items exchange false u)
      (fun _ _ => taraShortages (stockOf s inventoryId) items exchange = [])
      (fun _ => taraShortages (stockOf s inventoryId) items exchange ≠ []) s :=
    wp_exchangeTara (Regime.serialAsserting_exact (S := schema) _) Regime.serial_lax hfound
      (fun _ h => h) (.inl rfl) (fun h => h) fun h => absurd h (by decide)
  rw [wp_serial_iff] at hwp
  cases hrun : (exchangeTara env inventoryId items exchange false u).run s with
  | ok x =>
    rw [hrun] at hwp
    exact iff_of_true ⟨x, rfl⟩ hwp
  | error e =>
    rw [hrun] at hwp
    refine iff_of_false ?_ hwp
    rintro ⟨x, hx⟩
    cases hx

/-- The check with capitalisation enters what is missing line by line. -/
theorem exchangeTara_moves
    (hfound : ∃ i, s.directory.inventory? inventoryId = some i ∧ i.isActive = true)
    (hexchange : exchange.map (fun x => (x.requiredTareId, x.quantity)) = exchanged s items)
    {x : Bool × Db} (hrun : (exchangeTara env inventoryId items exchange true u).run s = .ok x)
    (i p : Uuid) : stockOf x.2 i p = stockOf s i p +
      (if i = inventoryId then
        amount (itemsToCapitalize (counted s inventoryId items) (exchanged s items)) p else 0) -
      (if i ∈ (vendors s.directory).map Inventory.id then
        amount (itemsToCapitalize (counted s inventoryId items) (exchanged s items)) p else 0) := by
  have hwp : wp Regime.serial (exchangeTara env inventoryId items exchange true u)
      (fun _ s' => ∀ i p, stockOf s' i p = stockOf s i p +
        (if i = inventoryId then
          amount (itemsToCapitalize (counted s inventoryId items) (exchanged s items)) p else 0) -
        (if i ∈ (vendors s.directory).map Inventory.id then
          amount (itemsToCapitalize (counted s inventoryId items) (exchanged s items)) p else 0))
      (fun _ => True) s := by
    refine wp_exchangeTara (Regime.serialAsserting_exact (S := schema) _) Regime.serial_lax hfound
      (fun h => absurd h (by decide)) (.inr fun _ => trivial) (fun hnone i p => ?_)
      fun _ vendor s' hvendor hmoved i p => ?_
    · rw [(taraShortages_eq_nil hexchange).mp hnone p]
      simp
    · rw [taraShortages_map, hexchange] at hmoved
      rw [hvendor, List.map_singleton]
      simp only [List.mem_singleton]
      exact hmoved i p
  exact wp_serial_run hwp hrun i p

variable (env u) in
/-- The check looks at the cart as a whole if counting line by line agrees for
each container, and only then if the entry goes through. -/
theorem perContainer_iff
    (hfound : ∃ i, s.directory.inventory? inventoryId = some i ∧ i.isActive = true)
    (hvendor : inventoryId ∉ (vendors s.directory).map Inventory.id)
    (hexchange : exchange.map (fun x => (x.requiredTareId, x.quantity)) = exchanged s items) :
    ((∀ tare, Agrees s inventoryId items tare) →
      PerContainer (fun flag => exchangeTara env inventoryId items exchange flag u) inventoryId items s) ∧
    ((∃ x, (exchangeTara env inventoryId items exchange true u).run s = .ok x) →
      PerContainer (fun flag => exchangeTara env inventoryId items exchange flag u) inventoryId items s →
      ∀ tare, Agrees s inventoryId items tare) := by
  constructor
  · intro hagrees
    have hentered := fun tare => (entered_eq_short_iff tare).mpr (hagrees tare)
    constructor
    · rw [exchangeTara_passes_iff hfound, taraShortages_eq_nil hexchange]
      exact forall_congr' fun tare => by rw [hentered]
    · intro x hrun i p
      rw [exchangeTara_moves hfound hexchange hrun, hentered]
  · rintro ⟨x, hrun⟩ hcheck tare
    have hclaim := hcheck.moves x hrun inventoryId tare
    rw [exchangeTara_moves hfound hexchange hrun, if_pos rfl, if_pos rfl, if_neg hvendor,
      if_neg hvendor] at hclaim
    exact (entered_eq_short_iff tare).mp (by omega)

end Iff

/-! ## The parts of the functions -/

/-- `create_order` up to its container check. -/
def beforeOrder (env : Env) (clientId : Uuid) (dto : OrderCreate) :
    Uow (List (Uuid × Product) × Option (Uuid × List (Uuid × PriceItem))) := do
  raiseIf (dto.items.isEmpty = true) .emptyCart
  raiseIf (¬ (dto.items.map Item.productId).Nodup)
    (.badRequest "Корзина содержит дубликаты товаров. Используйте quantity для указания количества."
      "DUPLICATE_PRODUCTS_IN_CART" [])
  let products ← availableProducts (dto.items.map Item.productId)
  let client ← getClient clientId
  let terms ← contractTerms env clientId client.role dto.paymentMethod (dto.items.map Item.productId)
  whenSome terms fun t => checkAndReserveQuantities t.1 (dto.items.map Item.pair) t.2
  ret (products, terms)

/-- The products of an order with a container and their lines. -/
def orderExchange (dto : OrderCreate) (products : List (Uuid × Product)) : List ExchangeItem :=
  exchangeItems products fun id => dto.items.reverse.find? fun i => i.productId = id

/-- `create_order` from its container check on. -/
def afterOrder (env : Env) (clientId : Uuid) (dto : OrderCreate)
    (x : List (Uuid × Product) × Option (Uuid × List (Uuid × PriceItem)))
    (capitalizationApplied : Bool) : Uow Unit := do
  let items := orderItemsData (priceMap x.1 x.2) dto.items
  insertOrder (env.uuid 0 0)
    { clientId, clientInventoryId := dto.clientInventoryId, courierId := none,
      paymentMethod := dto.paymentMethod, status := .new, totalAmount := lineTotal items,
      capitalizationApplied, saleType := .delivery, warehouseId := none,
      contractId := x.2.map Prod.fst, quantitiesReserved := x.2.isSome,
      cancellationReason := none, notes := dto.notes, isActive := true, createdAt := env.now,
      updatedAt := env.now, items := [], statusLogs := [] } items
  issue (.order (env.uuid 0 0)) (.logTransition ⟨none, .new, some clientId, none⟩)

theorem createOrder_parts (env : Env) (clientId : Uuid) (dto : OrderCreate) :
    createOrder env clientId dto = beforeOrder env clientId dto >>= fun x =>
      exchangeTara env dto.clientInventoryId dto.items (orderExchange dto x.1)
        dto.capitalizeMissingTara clientId >>= afterOrder env clientId dto x := by
  simp only [createOrder, beforeOrder, bind_bind]
  rfl

/-- `create_warehouse_sale` up to its container check. -/
def beforeSale (dto : WarehouseSaleCreate) (clientId : Option Uuid) :
    Uow (List (Uuid × Product) × Inventory) := do
  let effectiveClientId := clientId.getD walkinUserId
  raiseIf (dto.items.isEmpty = true) .emptyCart
  let products ← availableProducts (dto.items.map Item.productId)
  let warehouse ← getInventoryWithBalances dto.warehouseId (some .warehouse) false
  let _ ← orRaise warehouse
    (.inventoryNotFound dto.warehouseId s!"Склад {dto.warehouseId} не найден")
  let clientInventory ← getClientInventory effectiveClientId
  let clientInventory ← orRaise clientInventory (.clientInventoryNotFound effectiveClientId)
  ret (products, clientInventory)

/-- The products of a sale with a container and their lines. -/
def saleExchange (dto : WarehouseSaleCreate) (products : List (Uuid × Product)) : List ExchangeItem :=
  exchangeItems products fun id => dto.items.find? fun i => i.productId = id

/-- `create_warehouse_sale` from its container check on. -/
def afterSale (env : Env) (dto : WarehouseSaleCreate) (clientId : Option Uuid) (createdById : Uuid)
    (x : List (Uuid × Product) × Inventory) (capitalizationApplied : Bool) : Uow Unit := do
  let items := orderItemsData (priceMap x.1 none) dto.items
  let order : Order :=
    { clientId := clientId.getD walkinUserId, clientInventoryId := x.2.id, courierId := none,
      paymentMethod := .cash, status := .pickupCompleted, totalAmount := lineTotal items,
      capitalizationApplied, saleType := .warehousePickup, warehouseId := some dto.warehouseId,
      contractId := none, quantitiesReserved := false, cancellationReason := none, notes := none,
      isActive := true, createdAt := env.now, updatedAt := env.now, items := [], statusLogs := [] }
  insertOrder (env.uuid 0 0) order items
  Fulfillment.handleWarehousePickup env (env.uuid 0 0) { order with items := items } createdById
  issue (.order (env.uuid 0 0)) (.logTransition ⟨none, .pickupCompleted, some createdById, none⟩)

theorem createWarehouseSale_parts (env : Env) (dto : WarehouseSaleCreate) {clientId : Option Uuid}
    (hnamed : clientId.getD walkinUserId ≠ walkinUserId) (createdById : Uuid) :
    createWarehouseSale env dto clientId createdById = beforeSale dto clientId >>= fun x =>
      exchangeTara env x.2.id dto.items (saleExchange dto x.1) dto.capitalizeMissingTara
        createdById >>= afterSale env dto clientId createdById x := by
  simp only [createWarehouseSale, beforeSale, bind_bind, decide_eq_false hnamed, Bool.or_false,
    Bool.false_eq_true, if_false]
  rfl

/-! ## Before the check -/

/-- Statements on price items. -/
def QuotaStmt : (k : Key) → Stmt k → Prop
  | .priceItem _ _, _ => True
  | _, _ => False

/-- Every exception but that of the container check. -/
def NotTara (e : Err) : Prop := ∀ shortages, e ≠ .insufficientTara shortages

/-- A part that the container check has nothing to do with. -/
abbrev Apart (P : (k : Key) → Stmt k → Prop) {α : Type} (p : Uow α) : Prop :=
  Within (S := schema) P NotTara p

section Before

variable {s : Db}

theorem contractTerms_apart (env : Env) (clientId : Uuid) (role : Role) (method : PaymentMethod)
    (ids : List Uuid) : Apart QuotaStmt (contractTerms env clientId role method ids) := by
  refine (contractTerms_within env clientId role method ids).mono (fun _ _ h => h) ?_
  rintro e he shortages rfl
  cases he

theorem checkAndReserveQuantities_apart (c : Uuid) (qs : List (Uuid × ℤ))
    (ps : List (Uuid × PriceItem)) : Apart QuotaStmt (checkAndReserveQuantities c qs ps) :=
  checkAndReserveQuantities_within (fun _ _ _ => trivial) (fun _ _ _ _ _ => nofun)
    (fun _ _ _ => nofun) (fun _ _ => nofun) qs ps

theorem beforeOrder_apart (env : Env) (clientId : Uuid) (dto : OrderCreate) :
    Apart QuotaStmt (beforeOrder env clientId dto) := by
  refine within_bind ((within_raiseIf _ _).mpr fun _ _ => nofun) fun _ => ?_
  refine within_bind ((within_raiseIf _ _).mpr fun _ _ => nofun) fun _ => ?_
  refine within_bind (within_bind (within_ask _) fun _ => ?_) fun products => ?_
  · exact within_bind ((within_raiseIf _ _).mpr fun _ _ => nofun) fun _ => trivial
  refine within_bind (within_bind (within_ask _) fun _ => ?_) fun client => ?_
  · exact (within_orRaise _ _).mpr fun _ _ => nofun
  refine within_bind (contractTerms_apart _ _ _ _ _) fun terms => ?_
  refine within_bind ((within_whenSome _ _).mpr fun t _ => ?_) fun _ => trivial
  exact checkAndReserveQuantities_apart _ _ _

/-- Only the quota has moved before the check. -/
theorem beforeOrder_frame {env : Env} {clientId : Uuid} {dto : OrderCreate}
    {x : List (Uuid × Product) × Option (Uuid × List (Uuid × PriceItem))} {s₁ : Db}
    (hrun : (beforeOrder env clientId dto).run s = .ok (x, s₁)) :
    ∃ t, s₁ = { s with priceItems := t } := by
  have hwp : wp Regime.serial (beforeOrder env clientId dto)
      (fun _ s₁ => ∃ t, s₁ = { s with priceItems := t }) (fun _ => True) s := by
    refine wp_frame (beforeOrder_apart env clientId dto) (fun _ _ _ _ => Regime.serial_lax _ _ _)
      (fun _ _ => trivial) (fun _ _ _ _ _ _ => trivial) fun _ s' hframe => ?_
    refine hframe.induction (I := fun s₁ => ∃ t, s₁ = { s with priceItems := t })
      ⟨s.priceItems, rfl⟩ ?_
    rintro s₁ k st r hst ⟨t, rfl⟩
    cases k with
    | priceItem c p => exact ⟨_, rfl⟩
    | _ => exact hst.elim
  exact wp_serial_run hwp hrun

/-- The products of a cart are those on sale, and all of them are. -/
theorem wp_availableProducts {E : Err → Prop} {items : List Item}
    (hmissing : ∀ ids, E (.productsUnavailable ids)) {Q : List (Uuid × Product) → Db → Prop}
    (hQ : OnSale s items → Q (cartProducts s items) s) :
    wp Regime.serial (availableProducts (items.map Item.productId)) Q E s := by
  have hexact : Regime.Exact (S := schema) Regime.serial :=
    Regime.serialAsserting_exact (S := schema) _
  rw [availableProducts, getByIds, wp_bind]
  refine wp_ask_exact hexact ?_
  change wp Regime.serial (do
    raiseIf (S := schema) (((items.map Item.productId).filter fun id =>
      ((cartProducts s items).lookup id).isNone) ≠ []) _
    ret (cartProducts s items)) Q E s
  rw [wp_bind, wp_raiseIf]
  refine ⟨fun _ => hmissing _, fun hall => hQ fun i hi => ?_⟩
  have hnone := List.filter_eq_nil_iff.mp (not_not.mp hall) i.productId (List.mem_map.mpr ⟨i, hi, rfl⟩)
  rw [Bool.not_eq_true, Option.isNone_eq_false_iff] at hnone
  obtain ⟨p, hp⟩ := Option.isSome_iff_exists.mp hnone
  obtain ⟨l₁, l₂, hsplit, -⟩ := List.lookup_eq_some_iff.mp hp
  have hmem : (i.productId, p) ∈ cartProducts s items := by
    rw [hsplit]
    exact List.mem_append_right _ List.mem_cons_self
  obtain ⟨hfind, -, hactive⟩ := (mem_cartProducts _).mp hmem
  exact ⟨p, hfind, hactive⟩

/-- An order that reaches its check has different products, all of them on sale. -/
theorem beforeOrder_result {env : Env} {clientId : Uuid} {dto : OrderCreate}
    {x : List (Uuid × Product) × Option (Uuid × List (Uuid × PriceItem))} {s₁ : Db}
    (hrun : (beforeOrder env clientId dto).run s = .ok (x, s₁)) :
    x.1 = cartProducts s dto.items ∧ (dto.items.map Item.productId).Nodup ∧ OnSale s dto.items := by
  have hfree : ∀ {α : Type} (p : Uow α) {Q : α → Db → Prop} (s : Db), (∀ a s', Q a s') →
      wp Regime.serial p Q (fun _ => True) s := by
    intro α p Q s hQ
    exact wp_frame (within_true p) (fun _ _ _ _ => Regime.serial_lax _ _ _) (fun _ _ => trivial)
      (fun _ _ _ _ _ _ => trivial) fun a s' _ => hQ a s'
  have hwp : wp Regime.serial (beforeOrder env clientId dto) (fun x _ =>
      x.1 = cartProducts s dto.items ∧ (dto.items.map Item.productId).Nodup ∧ OnSale s dto.items)
      (fun _ => True) s := by
    rw [beforeOrder, wp_bind, wp_raiseIf]
    refine ⟨fun _ => trivial, fun _ => ?_⟩
    rw [wp_bind, wp_raiseIf]
    refine ⟨fun _ => trivial, fun hnodup => ?_⟩
    rw [wp_bind]
    refine wp_availableProducts (fun _ => trivial) fun hsale => ?_
    rw [wp_bind]
    refine hfree _ _ fun client s₂ => ?_
    rw [wp_bind]
    refine hfree _ _ fun terms s₃ => ?_
    rw [wp_bind]
    exact hfree _ _ fun _ s₄ => ⟨rfl, not_not.mp hnodup, hsale⟩
  exact wp_serial_run hwp hrun

/-- A sale that reaches its check has written nothing and found the client's inventory. -/
theorem beforeSale_result {dto : WarehouseSaleCreate} {clientId : Option Uuid}
    {x : List (Uuid × Product) × Inventory} {s₁ : Db}
    (hrun : (beforeSale dto clientId).run s = .ok (x, s₁)) :
    s₁ = s ∧ x.1 = cartProducts s dto.items ∧ OnSale s dto.items ∧
      x.2 ∈ s.directory.inventories ∧ x.2.type = .client ∧ x.2.isActive = true := by
  have hexact : Regime.Exact (S := schema) Regime.serial :=
    Regime.serialAsserting_exact (S := schema) _
  have hwp : wp Regime.serial (beforeSale dto clientId) (fun x s₁ =>
      s₁ = s ∧ x.1 = cartProducts s dto.items ∧ OnSale s dto.items ∧
        x.2 ∈ s.directory.inventories ∧ x.2.type = .client ∧ x.2.isActive = true)
      (fun _ => True) s := by
    rw [beforeSale, wp_bind, wp_raiseIf]
    refine ⟨fun _ => trivial, fun _ => ?_⟩
    rw [wp_bind]
    refine wp_availableProducts (fun _ => trivial) fun hsale => ?_
    rw [wp_bind]
    refine wp_getInventoryWithBalances hexact _ _ ?_
    rw [wp_bind, wp_orRaise]
    refine ⟨fun _ => trivial, fun _ _ => ?_⟩
    rw [wp_bind, getClientInventory, wp_bind]
    refine wp_ask_exact hexact ?_
    rw [wp_ret, wp_bind, wp_orRaise]
    refine ⟨fun _ => trivial, fun i hi => ?_⟩
    have hmatch := List.find?_some hi
    simp only [Bool.and_eq_true, decide_eq_true_eq] at hmatch
    exact ⟨rfl, rfl, hsale, List.mem_of_find?_eq_some hi, hmatch.1.2, hmatch.2⟩
  exact wp_serial_run hwp hrun

end Before

/-! ## Orders and sales -/

/-- The container check of an order. -/
def orderCheck (env : Env) (clientId : Uuid) (dto : OrderCreate) (products : List (Uuid × Product))
    (flag : Bool) : Uow Bool :=
  exchangeTara env dto.clientInventoryId dto.items (orderExchange dto products) flag clientId

/-- The container check of a sale to a named client. -/
def saleCheck (env : Env) (dto : WarehouseSaleCreate) (createdById : Uuid)
    (x : List (Uuid × Product) × Inventory) (flag : Bool) : Uow Bool :=
  exchangeTara env x.2.id dto.items (saleExchange dto x.1) flag createdById

/-- A client's inventory that is in use. -/
def ClientAt (s : Db) (inventoryId : Uuid) : Prop :=
  ∃ i ∈ s.directory.inventories, i.id = inventoryId ∧ i.type = .client ∧ i.isActive = true

/-- Under a condition a check looks at the cart as a whole; the entry of what is
missing shows the converse, if nothing else stops it. -/
def LooksAtWhole (condition : Prop) (check : Bool → Uow Bool) (inventoryId : Uuid)
    (items : List Item) (s : Db) : Prop :=
  (condition → PerContainer check inventoryId items s) ∧
    ((∃ x, (check true).run s = .ok x) → PerContainer check inventoryId items s → condition)

section Functions

variable {s : Db} {inventoryId : Uuid}

theorem ClientAt.found (hs : WellStocked s) (h : ClientAt s inventoryId) :
    ∃ i, s.directory.inventory? inventoryId = some i ∧ i.isActive = true := by
  obtain ⟨i, hi, rfl, -, hactive⟩ := h
  exact ⟨i, inventory?_of_mem hs.ids_nodup hi, hactive⟩

/-- The stock of a client is not negative. -/
theorem ClientAt.nonneg (hs : WellStocked s) (h : ClientAt s inventoryId) (p : Uuid) :
    0 ≤ stockOf s inventoryId p := by
  obtain ⟨i, hi, rfl, htype, -⟩ := h
  exact hs.physical_nonneg _ _ (isPhysical_of_mem hi (by simp [htype]) (by simp [htype]))

/-- A client is not the vendor. -/
theorem ClientAt.not_vendor (hs : WellStocked s) (h : ClientAt s inventoryId) :
    inventoryId ∉ (vendors s.directory).map Inventory.id := by
  obtain ⟨i, hi, rfl, htype, -⟩ := h
  intro hmem
  obtain ⟨vendor, hvendor, hid⟩ := List.mem_map.mp hmem
  obtain ⟨hstored, hmatch⟩ := List.mem_filter.mp hvendor
  simp only [Bool.and_eq_true, decide_eq_true_eq] at hmatch
  have hsame := List.inj_on_of_nodup_map hs.ids_nodup hstored hi hid
  rw [hsame, htype] at hmatch
  exact absurd hmatch.2 (by decide)

theorem orderExchange_map {dto : OrderCreate} (hnodup : (dto.items.map Item.productId).Nodup) :
    (orderExchange dto (cartProducts s dto.items)).map (fun x => (x.requiredTareId, x.quantity)) =
      exchanged s dto.items := by
  simp only [orderExchange, exchangeItems, exchanged, Capitalization.exchangeItems,
    List.map_filterMap, Option.map_bind, Function.comp_def, Option.map_map, find_reverse hnodup]

theorem saleExchange_map (dto : WarehouseSaleCreate) :
    (saleExchange dto (cartProducts s dto.items)).map (fun x => (x.requiredTareId, x.quantity)) =
      exchanged s dto.items := by
  simp only [saleExchange, exchangeItems, exchanged, Capitalization.exchangeItems,
    List.map_filterMap, Option.map_bind, Function.comp_def, Option.map_map]

/-- The container check of an order or a sale looks at the cart as a whole unless
it counts something twice or not at all. -/
theorem container_check_iff (env : Env) :
    (∀ clientId dto, (∀ flag, createOrder env clientId { dto with capitalizeMissingTara := flag } =
        beforeOrder env clientId dto >>= fun x =>
          orderCheck env clientId dto x.1 flag >>= afterOrder env clientId dto x) ∧
      ∀ s x s₁, (beforeOrder env clientId dto).run s = .ok (x, s₁) → WellStocked s₁ →
        ClientAt s₁ dto.clientInventoryId →
        LooksAtWhole (∀ tare, Unshared s₁ dto.clientInventoryId dto.items tare)
          (orderCheck env clientId dto x.1) dto.clientInventoryId dto.items s₁) ∧
    ∀ dto clientId createdById, clientId.getD walkinUserId ≠ walkinUserId →
      (∀ flag, createWarehouseSale env { dto with capitalizeMissingTara := flag } clientId
          createdById = beforeSale dto clientId >>= fun x =>
            saleCheck env dto createdById x flag >>= afterSale env dto clientId createdById x) ∧
      ∀ s x s₁, (beforeSale dto clientId).run s = .ok (x, s₁) → WellStocked s₁ →
        LooksAtWhole (∀ tare, Agrees s₁ x.2.id dto.items tare)
          (saleCheck env dto createdById x) x.2.id dto.items s₁ := by
  constructor
  · refine fun clientId dto => ⟨fun flag => createOrder_parts env clientId _, ?_⟩
    intro s x s₁ hrun hs hclient
    obtain ⟨hproducts, hnodup, hsale⟩ := beforeOrder_result hrun
    obtain ⟨t, rfl⟩ := beforeOrder_frame hrun
    have hsale : OnSale { s with priceItems := t } dto.items := hsale
    have hexchange : (orderExchange dto x.1).map (fun x => (x.requiredTareId, x.quantity)) =
        exchanged { s with priceItems := t } dto.items := by
      rw [hproducts]
      exact orderExchange_map hnodup
    have hiff := perContainer_iff env clientId (hclient.found hs) (hclient.not_vendor hs) hexchange
    have hunshared : ∀ tare, Agrees { s with priceItems := t } dto.clientInventoryId dto.items tare ↔
        Unshared { s with priceItems := t } dto.clientInventoryId dto.items tare :=
      fun tare => agrees_iff_unshared hnodup hsale (hclient.nonneg hs tare)
    constructor
    · exact fun h => hiff.1 fun tare => (hunshared tare).mpr (h tare)
    · exact fun hentered hwhole tare => (hunshared tare).mp (hiff.2 hentered hwhole tare)
  · refine fun dto clientId createdById hnamed =>
      ⟨fun flag => createWarehouseSale_parts env _ hnamed createdById, ?_⟩
    intro s x s₁ hrun hs
    obtain ⟨rfl, hproducts, -, hmem, htype, hactive⟩ := beforeSale_result hrun
    have hclient : ClientAt s₁ x.2.id := ⟨x.2, hmem, rfl, htype, hactive⟩
    refine perContainer_iff env createdById (hclient.found hs) (hclient.not_vendor hs) ?_
    rw [hproducts]
    exact saleExchange_map dto

end Functions

/-- Two kinds of water come in one bottle, and the client has two of them. -/
def shared : Db :=
  { sampleDb with
    products := ⟨[(21, ⟨.water, "water", 100, some 22, true⟩),
      (22, ⟨.container, "bottle", 50, none, true⟩),
      (24, ⟨.water, "mineral water", 120, some 22, true⟩)], by decide⟩
    balances := Table.empty.put (5, 22) (some 2) }

theorem stockOf_shared (i p : Uuid) : stockOf shared i p = if (i, p) = (5, 22) then 2 else 0 := by
  rw [stockOf, balance, shared, Table.find?_put]
  split <;> rfl

theorem shared_wellStocked : WellStocked shared where
  ids_nodup := by decide
  physical_nonneg i p _ := by
    have h := stockOf_shared i p
    rw [stockOf] at h
    rw [h]
    split <;> decide

/-- An order of some lines that is paid in cash. -/
def cartOf (items : List Item) : OrderCreate := ⟨items, .cash, 5, false, none⟩

/-- A sale of some lines. -/
def saleOf (items : List Item) : WarehouseSaleCreate := ⟨3, items, false⟩

theorem shared_clientAt : ClientAt shared 5 :=
  ⟨⟨5, some 7, .client, true, "office"⟩, by decide, rfl, rfl, rfl⟩

/-- What reaches its check leaves a state that the check can start from. -/
theorem reached {α : Type} {p : Uow α} {s : Db} (h : (p.run s).isOk = true) :
    ∃ x s₁, p.run s = .ok (x, s₁) := by
  cases hrun : p.run s with
  | ok y => exact ⟨y.1, y.2, rfl⟩
  | error e =>
    rw [hrun] at h
    cases h

/-- Three waters for two bottles: one line alone is counted as it should be, in
an order and in a sale. -/
theorem container_check_iff_sample :
    (∃ x s₁, (beforeOrder sampleEnv 7 (cartOf [⟨21, 3, by decide⟩])).run shared = .ok (x, s₁) ∧
      PerContainer (orderCheck sampleEnv 7 (cartOf [⟨21, 3, by decide⟩]) x.1) 5
        [⟨21, 3, by decide⟩] s₁) ∧
    ∃ x s₁, (beforeSale (saleOf [⟨21, 3, by decide⟩]) (some 7)).run shared = .ok (x, s₁) ∧
      PerContainer (saleCheck sampleEnv (saleOf [⟨21, 3, by decide⟩]) 9 x) x.2.id
        [⟨21, 3, by decide⟩] s₁ := by
  obtain ⟨x, s₁, hrun⟩ := reached
    (p := beforeOrder sampleEnv 7 (cartOf [⟨21, 3, by decide⟩])) (s := shared) (by decide +kernel)
  obtain ⟨y, s₂, hrun'⟩ := reached
    (p := beforeSale (saleOf [⟨21, 3, by decide⟩]) (some 7)) (s := shared) (by decide +kernel)
  constructor
  · obtain ⟨t, rfl⟩ := beforeOrder_frame hrun
    refine ⟨x, _, hrun, (((container_check_iff sampleEnv).1 7 (cartOf [⟨21, 3, by decide⟩])).2 shared x
      _ hrun ⟨shared_wellStocked.ids_nodup, shared_wellStocked.physical_nonneg⟩ shared_clientAt).1 ?_⟩
    exact fun tare => .inl (List.length_filter_le _ _)
  · obtain ⟨rfl, -, hsale, hmem, htype, hactive⟩ := beforeSale_result hrun'
    refine ⟨y, _, hrun', (((container_check_iff sampleEnv).2 (saleOf [⟨21, 3, by decide⟩]) (some 7) 9
      (by decide)).2 shared y _ hrun' shared_wellStocked).1 fun tare => ?_⟩
    have hclient : ClientAt shared y.2.id := ⟨y.2, hmem, rfl, htype, hactive⟩
    refine (agrees_iff_unshared (by decide) hsale (hclient.nonneg shared_wellStocked tare)).mpr ?_
    exact .inl (List.length_filter_le _ _)

/-- Two lines of two waters find the two bottles one after the other. -/
theorem shared_container_missed : ¬ ∀ (env : Env) (clientId : Uuid) (dto : OrderCreate) (s : Db)
    (x : List (Uuid × Product) × Option (Uuid × List (Uuid × PriceItem))) (s₁ : Db),
    (beforeOrder env clientId dto).run s = .ok (x, s₁) → WellStocked s₁ →
    ClientAt s₁ dto.clientInventoryId →
    PerContainer (orderCheck env clientId dto x.1) dto.clientInventoryId dto.items s₁ := by
  intro hclaim
  obtain ⟨x, s₁, hrun⟩ := reached (p := beforeOrder sampleEnv 7
    (cartOf [⟨21, 2, by decide⟩, ⟨24, 2, by decide⟩])) (s := shared) (by decide +kernel)
  obtain ⟨hproducts, -⟩ := beforeOrder_result hrun
  obtain ⟨t, rfl⟩ := beforeOrder_frame hrun
  have hwhole := hclaim _ _ _ _ _ _ hrun
    ⟨shared_wellStocked.ids_nodup, shared_wellStocked.physical_nonneg⟩ shared_clientAt
  have hpasses : ∃ y, (orderCheck sampleEnv 7 (cartOf [⟨21, 2, by decide⟩, ⟨24, 2, by decide⟩]) x.1
      false).run { shared with priceItems := t } = .ok y := by
    refine (exchangeTara_passes_iff ⟨⟨5, some 7, .client, true, "office"⟩, rfl, rfl⟩).mpr ?_
    rw [hproducts]
    change taraShortages (stockOf shared 5) _ _ = []
    decide +kernel
  have hshort := hwhole.passes.mp hpasses 22
  change short shared 5 _ 22 = 0 at hshort
  exact absurd hshort (by decide +kernel)

end Munavvar.ContainerShortage
