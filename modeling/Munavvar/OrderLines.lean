import Munavvar.StatusLog
import Munavvar.OrderInvariants

/-!
# The lines of an order

An edit looks a line up by its product, and a removal leaves at least one line.
Both rest on carts in which each product stands once: a placed order is checked
for that, while a sale may repeat a product and the first order of an onboarding
may also be empty. Apart from such carts every order has lines, and no two of
them have one product.
-/

namespace Munavvar.OrderLines

open Munavvar.KeyedTable
open Munavvar.Transaction
open Munavvar.Transaction.Prog
open Munavvar.ReadCommitted
open Munavvar.Database
open Munavvar.StockLedger
open Munavvar.Fulfillment
open Munavvar.OrderQueries
open Munavvar.OrderService
open Munavvar.ClientService
open Munavvar.Operations (Request sampleDb)
open Munavvar.OrderChanges
open Munavvar.Company
open Munavvar.ClientEffects
open Munavvar.StatusLog
open Munavvar.OrderInvariants

/-- The products of the lines. -/
def productsOf (o : Order) : List Uuid := o.items.map OrderItem.productId

/-- The order has a line, and no two of its lines have the same product. -/
structure WellFormed (o : Order) : Prop where
  /-- There is a line. -/
  nonempty : o.items ≠ []
  /-- Each product has one line. -/
  nodup : (productsOf o).Nodup

/-- A cart that makes well formed lines. -/
def cartOk (products : List Uuid) : Bool := products ≠ [] && decide products.Nodup

/-- A sale repeats no product. -/
def saleOk : ServiceRequest → Directory → Bool
  | .operation r, _ =>
    match r.op with
    | .createWarehouseSale dto _ _ => cartOk (dto.items.map Item.productId)
    | _ => true
  | .stock _ _, _ => true

/-- A first order has lines and repeats no product. -/
def firstOrderOk : ClientOperation → Bool
  | .onboardClientWithBalance data _ => data.order.all fun order => cartOk (order.items.map Prod.fst)
  | _ => true

theorem nodup_of_cartOk {products : List Uuid} (h : cartOk products = true) :
    products ≠ [] ∧ products.Nodup := by
  simpa [cartOk] using h

/-- Lines of the products of a good cart are well formed. -/
theorem wellFormed_of_products {o : Order} {products : List Uuid} (hne : products ≠ [])
    (hnodup : products.Nodup) (h : productsOf o = products) : WellFormed o := by
  constructor
  · intro hnil
    rw [productsOf, hnil] at h
    exact hne h.symm
  · rw [h]
    exact hnodup

/-- Lines of the same products stay well formed. -/
theorem WellFormed.congr {o o' : Order} (h : WellFormed o)
    (hproducts : productsOf o' = productsOf o) : WellFormed o' := by
  refine wellFormed_of_products ?_ h.nodup hproducts
  intro hnil
  exact h.nonempty (List.map_eq_nil_iff.mp hnil)

/-- A product that is added gets a line or is put on its line. -/
theorem WellFormed.lineAdded {o o' : Order} {productId : Uuid} {quantity price : ℤ}
    (h : WellFormed o) (hadded : LineAdded o.items productId quantity price o'.items) :
    WellFormed o' := by
  generalize hitems : o'.items = items at hadded
  cases hadded with
  | @merged index i hline hproduct =>
    refine h.congr ?_
    have hindex : (o.items.map OrderItem.productId)[index]? = some i.productId := by
      rw [List.getElem?_map, hline]
      rfl
    obtain ⟨hlt, hget⟩ := List.getElem?_eq_some_iff.mp hindex
    rw [productsOf, hitems, List.map_set, ← hget]
    exact List.set_getElem_self hlt
  | appended hnew hprice =>
    constructor
    · rw [hitems]
      exact List.append_ne_nil_of_right_ne_nil _ (List.cons_ne_nil _ _)
    · have hmem : productId ∉ o.items.map OrderItem.productId := by
        intro hmem
        obtain ⟨i, hi, hproduct⟩ := List.mem_map.mp hmem
        exact hnew i hi hproduct
      rw [productsOf, hitems, List.map_append, List.map_singleton]
      refine List.nodup_append.mpr ⟨h.nodup, List.nodup_singleton _, ?_⟩
      intro a ha b hb heq
      rw [heq, List.mem_singleton.mp hb] at ha
      exact hmem ha

/-- A removal takes one of several lines. -/
theorem WellFormed.lineRemoved {o o' : Order} {productId : Uuid} {i : OrderItem}
    (h : WellFormed o) (hline : o.items.filter (fun i => i.productId = productId) = [i])
    (hlength : 1 < o.items.length)
    (hitems : o'.items = o.items.filter fun i => i.productId ≠ productId) : WellFormed o' := by
  constructor
  · intro hnil
    rw [hitems] at hnil
    have hcount := List.length_eq_length_filter_add (l := o.items)
      fun i => decide (i.productId = productId)
    have hrest : o.items.filter (fun i => !decide (i.productId = productId)) = [] := by
      simpa using hnil
    rw [hline, hrest, List.length_singleton, List.length_nil] at hcount
    omega
  · rw [productsOf, hitems]
    exact (List.filter_sublist.map OrderItem.productId).nodup h.nodup

/-- Lines that are adjusted keep their products. -/
theorem products_adjusted {o o' : Order} {total : ℤ} (h : Adjusted o o'.items total) :
    productsOf o' = productsOf o := by
  generalize hitems : o'.items = items at h
  cases h with
  | whole => rw [productsOf, productsOf, hitems]
  | partly actual hactual =>
    rw [productsOf, productsOf, hitems, List.map_map]
    exact List.map_congr_left fun i _ => rfl

/-- Every step keeps the lines of an order well formed, a sale if its cart does. -/
theorem step_wellFormed {R : Regime schema} {r : Request} {d : Directory} {s : Db} {id : Uuid}
    {old : Option Order} {new : Order} (hr : saleOk (.operation r) d = true)
    (h : OrderStep R r s id old new) (hold : ∀ o, old = some o → WellFormed o) :
    WellFormed new := by
  cases h with
  | placed _ _ _ hnodup _ _ _ _ _ _ _ hnonempty => exact ⟨hnonempty, hnodup⟩
  | sold _ _ _ _ _ _ _ _ hop _ _ _ _ hproducts =>
    obtain ⟨dto, clientId, createdById, hop⟩ := hop
    simp only [saleOk, hop] at hr
    obtain ⟨hne, hnodup⟩ := nodup_of_cartOk hr
    exact wellFormed_of_products hne hnodup (hproducts dto clientId createdById hop)
  | lineAdded _ _ _ hitems _ => exact (hold _ rfl).lineAdded hitems
  | lineRemoved _ hline hlength => exact (hold _ rfl).lineRemoved hline hlength rfl
  | delivered _ _ _ hitems => exact (hold _ rfl).congr (products_adjusted hitems)
  | assigned | moved | cancelled | pickedUp => exact (hold _ rfl).congr rfl

/-- What the operations rely on, with lines that are well formed. -/
theorem wellFormed_invariant :
    OrderInvariant saleOk firstOrderOk fun o => OrderOk o ∧ WellFormed o where
  orderOk h := h.1
  step hr hstep hold :=
    ⟨hstep.orderOk fun o ho => (hold o ho).1, step_wellFormed hr hstep fun o ho => (hold o ho).2⟩
  first := by
    intro data creatorId env order o hop horder hfirst
    rw [firstOrderOk, horder] at hop
    obtain ⟨hne, hnodup⟩ := nodup_of_cartOk hop
    exact ⟨hfirst.orderOk, wellFormed_of_products hne hnodup hfirst.products_eq⟩

/-- A product is looked up in well formed lines without an error. -/
theorem WellFormed.found {o : Order} (h : WellFormed o) (productId : Uuid) :
    ∃ line, getByOrderAndProduct o productId = ret line := by
  have hproducts : o.items.zipIdx.map (fun x => x.1.productId) = productsOf o := by
    have hfst := List.zipIdx_map_fst 0 o.items
    rw [productsOf, ← hfst, List.map_map, hfst]
    rfl
  have hnodup : ((o.items.zipIdx.filter fun x => x.1.productId = productId).map
      fun x => x.1.productId).Nodup :=
    (List.filter_sublist.map fun x : OrderItem × ℕ => x.1.productId).nodup (hproducts ▸ h.nodup)
  have hall : ∀ x ∈ o.items.zipIdx.filter (fun x => x.1.productId = productId),
      x.1.productId = productId := fun x hx => of_decide_eq_true (List.mem_filter.mp hx).2
  rw [getByOrderAndProduct]
  cases hlines : o.items.zipIdx.filter (fun x => x.1.productId = productId) with
  | nil => exact ⟨none, rfl⟩
  | cons x rest =>
    cases rest with
    | nil => exact ⟨some x, rfl⟩
    | cons y rest =>
      rw [hlines] at hnodup hall
      have hx := hall x List.mem_cons_self
      have hy := hall y (List.mem_cons_of_mem x List.mem_cons_self)
      rw [List.map_cons, List.map_cons, hx, hy] at hnodup
      exact absurd List.mem_cons_self (List.nodup_cons.mp hnodup).1

/-- In every run in which no sale repeats a product and first orders have lines
and repeat none, all orders have lines of different products, and the lookup of
a line never meets two rows. -/
theorem order_lines_well_formed (r : Registry) {w : World}
    (h : Reachable saleOk firstOrderOk (World.init (noOrders r)) w) :
    ∀ id o, w.sys.db.orders.find? id = some o →
      WellFormed o ∧ ∀ productId, ∃ line, getByOrderAndProduct o productId = ret line := by
  have hnone : OrdersMeet (fun o => OrderOk o ∧ WellFormed o) (noOrders r).db :=
    fun id o ho => absurd ho (by simp [noOrders])
  intro id o ho
  have hwell := (wellFormed_invariant.reachable hnone h id o ho).2
  exact ⟨hwell, hwell.found⟩

/-- The products of the lines of a stored order. -/
def storedProducts (id : Uuid) (w : World) : Option (List Uuid) :=
  (w.sys.db.orders.find? id).map productsOf

theorem order_lines_well_formed_sample :
    ∃ w, deliveryEvents.foldlM (World.execIf saleOk firstOrderOk)
        (World.init (noOrders ⟨sampleDb, []⟩)) = some w ∧
      storedProducts 10000 w = some [23] ∧
      ∀ id o, w.sys.db.orders.find? id = some o →
        WellFormed o ∧ ∀ productId, ∃ line, getByOrderAndProduct o productId = ret line := by
  have heval : (deliveryEvents.foldlM (World.execIf saleOk firstOrderOk)
      (World.init (noOrders ⟨sampleDb, []⟩))).map (storedProducts 10000) = some (some [23]) := by
    decide +kernel
  obtain ⟨w, hrun, hproducts⟩ := Option.map_eq_some_iff.mp heval
  exact ⟨w, hrun, hproducts,
    order_lines_well_formed ⟨sampleDb, []⟩ (Reachable.of_events _ hrun)⟩

/-- A client is onboarded with a first order that repeats coffee. -/
def repeatedEvents : List Event :=
  [.client ⟨0, fun i j => 500 + 10 * i + j⟩
    (.onboardClientWithBalance (newcomer (some ⟨[(23, 1), (23, 1)], .cash⟩)) 9)]

/-- A first order may repeat a product, and then its lines are not well formed. -/
theorem first_order_repeats_product :
    ¬ ∀ (r : Registry) (w : World),
      Reachable (fun _ _ => true) (fun _ => true) (World.init (noOrders r)) w →
      ∀ id o, w.sys.db.orders.find? id = some o →
        WellFormed o ∧ ∀ productId, ∃ line, getByOrderAndProduct o productId = ret line := by
  intro hclaim
  have heval : (repeatedEvents.foldlM (World.execIf (fun _ _ => true) fun _ => true)
      (World.init (noOrders ⟨sampleDb, []⟩))).map (storedProducts 520) = some (some [23, 23]) := by
    decide +kernel
  obtain ⟨w, hrun, hproducts⟩ := Option.map_eq_some_iff.mp heval
  obtain ⟨o, ho, hlines⟩ := Option.map_eq_some_iff.mp hproducts
  have hwell := (hclaim _ w (Reachable.of_events _ hrun) 520 o ho).1
  have hnodup := hwell.nodup
  rw [hlines] at hnodup
  exact absurd hnodup (by decide)

end Munavvar.OrderLines
