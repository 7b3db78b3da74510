import Munavvar.StockTransfers
import Munavvar.LifecycleEffects
import Mathlib.Data.Nat.Pairing

/-!
# The stock check

Before stock is moved each line of an order is compared with the balance of the
courier or of the warehouse. The movements take more than one line shows: lines
of one product add up, and containers are handed over beside the lines. The
guard of the trigger stays silent exactly if the check has failed before or the
stock covers all that is taken together.
-/

namespace Munavvar.ShortageCheck

open Munavvar.Footprints
open Munavvar.KeyedTable
open Munavvar.Transaction
open Munavvar.Transaction.Prog
open Munavvar.Database
open Munavvar.DoubleEntry
open Munavvar.StockLedger
open Munavvar.StockTransfers
open Munavvar.Statements
open Munavvar.OrderQueries
open Munavvar.Quota
open Munavvar.Fulfillment
open Munavvar.Operations
open Munavvar.Bag (amount)

/-! ## What the check compares -/

theorem setEntry_ne_nil (m : List (Uuid × ℤ)) (p : Uuid) (q : ℤ) : setEntry m p q ≠ [] := by
  cases m with
  | nil => simp [setEntry]
  | cons x m =>
    rw [setEntry]
    split <;> simp

/-- The check passes if no line alone exceeds the balance. -/
theorem stockShortages_eq_nil (b : Uuid → ℤ) (items : List OrderItem) :
    stockShortages b items = [] ↔ ∀ i ∈ items, i.quantity ≤ b i.productId := by
  have hfold : ∀ m, items.foldl (fun m item =>
      if b item.productId < item.quantity then
        setEntry m item.productId (item.quantity - b item.productId)
      else m) m = [] ↔ m = [] ∧ ∀ i ∈ items, i.quantity ≤ b i.productId := by
    induction items with
    | nil => simp
    | cons i items ih =>
      intro m
      rw [List.foldl_cons, ih, List.forall_mem_cons]
      split
      · next hshort =>
        constructor
        · exact fun h => absurd h.1 (setEntry_ne_nil _ _ _)
        · exact fun h => absurd h.2.1 (not_le.mpr hshort)
      · next henough => simp [not_lt.mp henough]
  exact (hfold []).trans (and_iff_right rfl)

/-- The containers of the products in a database. -/
def returnableItem (s : Db) (productId : Uuid) : Option Uuid :=
  (s.products.find? productId).bind Product.returnableItemId

/-- The containers that go with some lines. -/
def containers (s : Db) (items : List OrderItem) : List (Uuid × ℤ) :=
  buildReturnableItems (returnableItem s) items

theorem containers_pos (s : Db) (items : List OrderItem) : ∀ x ∈ containers s items, 0 < x.2 := by
  refine Bag.collect_pos fun x hx => ?_
  obtain ⟨i, -, hi⟩ := List.mem_filterMap.mp hx
  split at hi
  · next hpos =>
    obtain ⟨tare, -, rfl⟩ := Option.map_eq_some_iff.mp hi
    exact hpos
  · cases hi

theorem movedItems_pos (items : List OrderItem) : ∀ x ∈ movedItems items, 0 < x.2 := by
  intro x hx
  obtain ⟨i, hi, rfl⟩ := List.mem_map.mp hx
  exact of_decide_eq_true (List.mem_filter.mp hi).2

/-- Transfers leave out no line with a positive quantity. -/
theorem filter_of_pos {items : List (Uuid × ℤ)} (h : ∀ x ∈ items, 0 < x.2) :
    (items.filter fun i => 0 < i.2) = items :=
  List.filter_eq_self.mpr fun x hx => by simpa using h x hx

/-- A line alone exceeds the stock, or the stock covers the lines and the
containers that are taken with them. -/
def Covered (b : Uuid → ℤ) (items : List OrderItem) (taken : List (Uuid × ℤ)) : Prop :=
  (∃ i ∈ items, b i.productId < i.quantity) ∨ ∀ p, amount (movedItems items ++ taken) p ≤ b p

/-- The stock of one inventory. -/
def stockOf (s : Db) (inventoryId productId : Uuid) : ℤ := balance s.balances (inventoryId, productId)

/-- The active vehicles of a courier. -/
def vehicles (d : Directory) (courierId : Uuid) : List Inventory :=
  d.inventories.filter fun i => i.userId = some courierId && i.type = .courier && i.isActive

/-- The inventories that containers are entered from. -/
def vendors (d : Directory) : List Inventory :=
  d.inventories.filter fun i => i.userId = some systemUserId && i.type = .virtualVendor

/-- The lines after what was handed over has been entered. -/
def deliveredLines (o : Order) (actual : List OrderItemActual) : List OrderItem :=
  o.items.map (adjustItem actual)

/-- The courier's vehicle covers the delivery: the client's empty containers
come back only after the full ones have been handed over. -/
def DeliveryCovered (o : Order) (actual : List OrderItemActual) (s : Db) : Prop :=
  ∀ courierId, o.courierId = some courierId → ∀ van ∈ vehicles s.directory courierId,
    Covered (stockOf s van.id) (deliveredLines o actual) (containers s (deliveredLines o actual))

/-- The containers that a pickup takes from the warehouse's own stock: those of
a known client are entered before, those that a walk-in buyer brings are not. -/
def ownContainers (o : Order) (s : Db) : List (Uuid × ℤ) :=
  if o.clientId = walkinUserId then returnableForPickup true o.items (containers s o.items) else []

/-- The warehouse covers the pickup. -/
def PickupCovered (o : Order) (s : Db) : Prop :=
  ∀ warehouseId, o.warehouseId = some warehouseId →
    Covered (stockOf s warehouseId) o.items (ownContainers o s)

/-- No movement that a program inserts is refused by the guard of the trigger. -/
def NeverRefused (p : Uow Unit) (s : Db) : Prop := ∀ message, p.run s ≠ .error (.negativeBalance message)

/-- A database whose inventories have different identifiers and none that is
really there a negative stock. -/
structure WellStocked (s : Db) : Prop where
  /-- The primary key of the inventories. -/
  ids_nodup : (s.directory.inventories.map Inventory.id).Nodup
  /-- Stock that is really there is not negative. -/
  physical_nonneg : ∀ i p, s.directory.isPhysical i = true → 0 ≤ balance s.balances (i, p)

theorem WellStocked.nonNegative {s : Db} (h : WellStocked s) (i : Uuid) : NonNegative s i :=
  fun hphysical p => h.physical_nonneg i p hphysical

/-- Nothing but missing stock can stop the transfers between a source and a
client that together move no more than some quantities. -/
structure Unhindered (env : Env) (source client : Uuid) (quantity : Uuid → ℤ) (s : Db) : Prop where
  /-- New identifiers differ. -/
  ids_inj : ∀ n j n' j', env.uuid n j = env.uuid n' j' → n = n' ∧ j = j'
  /-- New identifiers are not those of transfers. -/
  transfers_new : ∀ n j, s.stockTransfers.find? (env.uuid n j) = none
  /-- Neither are they those of movements. -/
  movements_new : ∀ n j, s.stockTransactions.find? (env.uuid n j) = none
  /-- The client's inventory exists. -/
  client_known : (s.directory.inventory? client).isSome = true
  /-- It is another one than the source. -/
  route : source ≠ client
  /-- No balance leaves the range of its column. -/
  range : ∀ i p, int32 (balance s.balances (i, p) - quantity p) = true ∧
    int32 (balance s.balances (i, p) + quantity p) = true

/-- Nothing but missing stock can stop a delivery before its settlement. -/
structure DeliveryUnhindered (env : Env) (id : Uuid) (o : Order) (actual : List OrderItemActual)
    (courierId : Uuid) (van : Inventory) (s : Db) : Prop where
  /-- What was handed over can be entered. -/
  adjusts : ∃ x, (if actual.isEmpty then ret o else adjustOrder env id o actual).run s = .ok x
  /-- The order has a courier. -/
  courier : o.courierId = some courierId
  /-- The courier has one active vehicle. -/
  vehicle : vehicles s.directory courierId = [van]
  /-- The transfer can be made. -/
  unhindered : Unhindered env van.id o.clientInventoryId
    (amount (movedItems (deliveredLines o actual) ++ containers s (deliveredLines o actual))) s

/-- Nothing but missing stock can stop a pickup before its settlement. -/
structure PickupUnhindered (env : Env) (o : Order) (warehouse vendor : Inventory) (s : Db) :
    Prop where
  /-- The order has a warehouse. -/
  origin : o.warehouseId = some warehouse.id
  /-- The warehouse exists. -/
  stored : s.directory.inventory? warehouse.id = some warehouse
  /-- It is in use. -/
  active : warehouse.isActive = true
  /-- It is a warehouse. -/
  type_eq : warehouse.type = .warehouse
  /-- There is one vendor. -/
  only_vendor : vendors s.directory = [vendor]
  /-- The transfers can be made. -/
  unhindered : Unhindered env warehouse.id o.clientInventoryId
    (fun p => amount (movedItems o.items) p + 2 * amount (containers s o.items) p) s

/-! ## Before and after the stock -/

/-- Only orders and price items may differ. -/
def SameButOrders (s s' : Db) : Prop := ∃ orders priceItems, s' = { s with orders, priceItems }

/-- Statements on orders and price items. -/
def OrderStmtOnly : (k : Key) → Stmt k → Prop
  | .order _, _ => True
  | .priceItem _ _, _ => True
  | _, _ => False

theorem sameButOrders_of_frame {s s' : Db} (h : Frame (S := schema) OrderStmtOnly s s') :
    SameButOrders s s' := by
  refine h.induction (I := SameButOrders s) ⟨_, _, rfl⟩ ?_
  rintro s₁ k st r hst ⟨o, t, rfl⟩
  cases k with
  | order id => exact ⟨_, _, rfl⟩
  | priceItem c p => exact ⟨_, _, rfl⟩
  | _ => exact hst.elim

/-- A part that leaves the guard of the stock alone. -/
abbrev Unguarded (P : (k : Key) → Stmt k → Prop) {α : Type} (p : Uow α) : Prop :=
  Within (S := schema) P (fun e => isNegativeBalance e = false) p

theorem decrementQuantitiesUsed_unguarded (c : Uuid) (qs : List (Uuid × ℤ)) :
    Unguarded OrderStmtOnly (decrementQuantitiesUsed c qs) :=
  decrementQuantitiesUsed_within (fun _ _ => trivial) (fun _ _ => rfl) (fun _ => rfl) qs

theorem settle_unguarded (env : Env) (id : Uuid) (o : Order) (missingClient debtReason : String)
    (payment : Directory → Account → Except Err (List FinancialTransaction))
    (hpayment : ∀ d a e, payment d a = .error e → isNegativeBalance e = false) :
    Unguarded (fun _ _ => True) (settle env id o missingClient debtReason payment) :=
  settle_within (fun _ _ => trivial) (fun _ _ => trivial) (fun _ => rfl) (fun _ => rfl)
    (fun _ _ _ => rfl) env id o missingClient debtReason hpayment

theorem processFinancialSettlement_unguarded (env : Env) (id : Uuid) (o : Order) :
    Unguarded (fun _ _ => True) (processFinancialSettlement env id o) := by
  refine settle_unguarded env id o _ _ _ fun d a e he => ?_
  unfold deliveryPayment cardPayment at he
  repeat' split at he
  all_goals cases he
  all_goals rfl

theorem processPickupSettlement_unguarded (env : Env) (id : Uuid) (o : Order) :
    Unguarded (fun _ _ => True) (processPickupSettlement env id o) := by
  refine settle_unguarded env id o _ _ _ fun d a e he => ?_
  unfold pickupPayment cardPayment at he
  repeat' split at he
  all_goals cases he
  all_goals rfl

section Rules

variable {R : Regime schema} {E : Err → Prop} {s : Db}

theorem wp_unguarded (hlax : R.Lax) (hany : ∀ e, isNegativeBalance e = false → E e)
    {P : (k : Key) → Stmt k → Prop} {α : Type} {p : Uow α} (hp : Unguarded P p) {Q : α → Db → Prop}
    (hQ : ∀ a s', Frame (S := schema) P s s' → Q a s') : wp R p Q E s :=
  wp_frame hp (fun k st old _ => hlax k st old) hany
    (fun k st old e _ he => hany e (exec_not_negative k st old he)) hQ

/-- Entering what was handed over gives the delivered lines and leaves the stock as it is. -/
theorem wp_adjusted (hlax : R.Lax) (hany : ∀ e, isNegativeBalance e = false → E e) (env : Env)
    (id : Uuid) (o : Order) (actual : List OrderItemActual) {Q : Order → Db → Prop}
    (hQ : ∀ total s', SameButOrders s s' →
      Q { o with items := deliveredLines o actual, totalAmount := total } s') :
    wp R (if actual.isEmpty then ret o else adjustOrder env id o actual) Q E s := by
  cases actual with
  | nil =>
    have hitems : o.items = deliveredLines o [] := (List.map_id' o.items).symm
    have h := hQ o.totalAmount s ⟨_, _, rfl⟩
    rw [← hitems] at h
    exact h
  | cons x actual =>
    change wp R (adjustOrder env id o (x :: actual)) Q E s
    rw [adjustOrder, wp_bind]
    refine wp_unguarded hlax hany (P := OrderStmtOnly)
      (adjustLines_within (fun _ _ => trivial) (fun _ _ _ => rfl) o.items _) fun _ s₁ h₁ => ?_
    obtain ⟨o₁, t₁, rfl⟩ := sameButOrders_of_frame h₁
    rw [wp_bind]
    refine wp_unguarded hlax hany ((within_whenSome _ _).mpr fun c _ =>
      decrementQuantitiesUsed_unguarded c _) fun _ s₂ h₂ => ?_
    obtain ⟨o₂, t₂, rfl⟩ := sameButOrders_of_frame h₂
    rw [wp_bind]
    refine wp_unguarded hlax hany (P := OrderStmtOnly)
      ((within_execute (S := schema) (Key.order id) _).mpr trivial) fun _ s₃ h₃ => ?_
    obtain ⟨o₃, t₃, rfl⟩ := sameButOrders_of_frame h₃
    exact hQ _ _ ⟨_, _, rfl⟩

/-! ## Reads -/

theorem wp_scalarOneOrNone {V : Type} (l : List V) {Q : Option V → Db → Prop} :
    wp R (scalarOneOrNone l) Q E s ↔
      (l = [] → Q none s) ∧ (∀ v, l = [v] → Q (some v) s) ∧
        (2 ≤ l.length → E .multipleResultsFound) := by
  match l with
  | [] => simp [scalarOneOrNone]
  | [v] => simp [scalarOneOrNone]
  | _ :: _ :: _ => simp [scalarOneOrNone]

theorem inventory?_id {d : Directory} {id : Uuid} {i : Inventory} (h : d.inventory? id = some i) :
    i.id = id := by simpa using List.find?_some h

theorem inventory?_of_mem {d : Directory} (hd : (d.inventories.map Inventory.id).Nodup)
    {i : Inventory} (hi : i ∈ d.inventories) : d.inventory? i.id = some i := by
  cases hfind : d.inventory? i.id with
  | none => exact absurd (List.find?_eq_none.mp hfind i hi) (by simp)
  | some j =>
    have hj : j ∈ d.inventories := List.mem_of_find?_eq_some hfind
    rw [List.inj_on_of_nodup_map hd hj hi (inventory?_id hfind)]

theorem isPhysical_of_mem {d : Directory} {i : Inventory} (hi : i ∈ d.inventories)
    (hvendor : i.type ≠ .virtualVendor) (hloss : i.type ≠ .virtualLoss) :
    d.isPhysical i.id = true := List.any_eq_true.mpr ⟨i, hi, by simp [hvendor, hloss]⟩

/-- The vendor's stock is not really there. -/
theorem not_isPhysical {d : Directory} (hd : (d.inventories.map Inventory.id).Nodup) {i : Inventory}
    (hi : i ∈ d.inventories) (hvendor : i.type = .virtualVendor) : d.isPhysical i.id = false := by
  rw [Directory.isPhysical, List.any_eq_false]
  intro j hj hphysical
  simp only [Bool.and_eq_true, decide_eq_true_eq] at hphysical
  have hij := List.inj_on_of_nodup_map hd hj hi hphysical.1.1
  exact hphysical.1.2 (hij ▸ hvendor)

/-- An inventory is read with its current stock. -/
theorem wp_getInventoryWithBalances (hexact : R.Exact) (id : Uuid) (type : Option InventoryType)
    {lock : Bool} {Q : Option (Inventory × (Uuid → ℤ)) → Db → Prop}
    (hQ : Q (((s.directory.inventory? id).filter fun i =>
      i.isActive && type.all fun type => i.type = type).map fun i => (i, stockOf s id)) s) :
    wp R (getInventoryWithBalances id type lock) Q E s := by
  have hread : wp R (do
      let d ← select Db.directory
      let balances ← select Db.balances
      ret (((d.inventory? id).filter fun i =>
        i.isActive && type.all fun type => i.type = type).map fun i =>
          (i, fun productId => (balances.find? (id, productId)).getD 0))) Q E s := by
    rw [wp_bind]
    refine wp_ask_exact hexact ?_
    rw [wp_bind]
    exact wp_ask_exact hexact hQ
  rw [getInventoryWithBalances, wp_bind, wp_whenever]
  refine ⟨fun _ => ?_, fun _ => hread⟩
  rw [wp_bind, wp_locked, wp_pure]
  exact hread

theorem wp_getVendorInventory (hexact : R.Exact)
    (hfail : (∃ vendor, vendors s.directory = [vendor]) ∨ ∀ e, isNegativeBalance e = false → E e)
    {Q : Inventory → Db → Prop} (hQ : ∀ vendor, vendors s.directory = [vendor] → Q vendor s) :
    wp R getVendorInventory Q E s := by
  rw [getVendorInventory, getSystemInventory, wp_bind]
  refine wp_ask_exact hexact ?_
  change wp R (scalarOneOrNone (vendors s.directory) >>= _) Q E s
  rw [wp_bind, wp_scalarOneOrNone]
  refine ⟨fun hnone => ?_, fun vendor hvendor => ?_, fun hmany => ?_⟩
  · rw [wp_orRaise]
    refine ⟨fun _ => ?_, fun _ h => absurd h (by simp)⟩
    rcases hfail with ⟨vendor, hvendor⟩ | hany
    · exact absurd (hnone.symm.trans hvendor) (by simp)
    · exact hany _ rfl
  · rw [wp_orRaise]
    refine ⟨fun h => absurd h (by simp), fun x hx => ?_⟩
    exact Option.some.inj hx ▸ hQ vendor hvendor
  · rcases hfail with ⟨vendor, hvendor⟩ | hany
    · rw [hvendor] at hmany
      exact absurd hmany (by simp)
    · exact hany _ rfl

/-! ## Transfers of an order -/

/-- A line of no more than expected fits its column. -/
theorem Unhindered.line_fits {env : Env} {source client : Uuid} {quantity : Uuid → ℤ}
    (h : Unhindered env source client quantity s) {items : List (Uuid × ℤ)}
    (hitems : ∀ x ∈ items, 0 < x.2) {x : Uuid × ℤ} (hx : x ∈ items)
    (hle : amount items x.1 ≤ quantity x.1) : int32 x.2 = true := by
  have hrange := h.range source x.1
  have hpart := Bag.le_amount (fun y hy => (hitems y hy).le) hx
  have hpos := hitems x hx
  simp only [int32_iff] at hrange ⊢
  omega

/-- A transfer of an order can be made as long as it moves no more than expected. -/
theorem Unhindered.insertable {env : Env} {source client : Uuid} {quantity : Uuid → ℤ}
    (h : Unhindered env source client quantity s) (n : ℕ) {fromId toId : Uuid}
    {items : List (Uuid × ℤ)} {reason : Option String} (hitems : ∀ x ∈ items, 0 < x.2)
    (hfrom : (s.directory.inventory? fromId).isSome = true)
    (hto : (s.directory.inventory? toId).isSome = true) (hroute : fromId ≠ toId)
    (hreason : fits 255 reason = true) (hle : ∀ p, amount items p ≤ quantity p) :
    Insertable env n fromId toId items reason s := by
  refine ⟨fun j j' hj => (h.ids_inj n j n j' hj).2, h.transfers_new n 0, h.movements_new n, hfrom, hto,
    hroute, hreason, fun x hx => ?_, fun p _ => ?_⟩
  · exact h.line_fits hitems hx (hle x.1)
  · have hrange := h.range fromId p
    have hrange' := h.range toId p
    have hquantity := hle p
    have hnonneg := Bag.amount_nonneg (fun x hx => (hitems x hx).le) p
    rw [filter_of_pos hitems, FitsColumn, FitsColumn]
    simp only [int32_iff] at hrange hrange' ⊢
    omega

/-- A transfer can still be made after another one if both together move no
more than expected. -/
theorem Unhindered.insertable_after {env : Env} {source client : Uuid} {quantity : Uuid → ℤ}
    (h : Unhindered env source client quantity s) {n m : ℕ} (hnm : n ≠ m) {s' : Db}
    {fromId' toId' : Uuid} {items' : List (Uuid × ℤ)} (hitems' : ∀ x ∈ items', 0 < x.2)
    (hafter : AfterTransfer env m fromId' toId' items' s s') {fromId toId : Uuid}
    {items : List (Uuid × ℤ)} {reason : Option String} (hitems : ∀ x ∈ items, 0 < x.2)
    (hfrom : (s.directory.inventory? fromId).isSome = true)
    (hto : (s.directory.inventory? toId).isSome = true) (hroute : fromId ≠ toId)
    (hreason : fits 255 reason = true) (hle : ∀ p, amount items p + amount items' p ≤ quantity p) :
    Insertable env n fromId toId items reason s' := by
  have hother : ∀ j j', env.uuid n j ≠ env.uuid m j' := fun j j' he => hnm (h.ids_inj n j m j' he).1
  have hdirectory : s'.directory = s.directory := by
    obtain ⟨_, _, _, rfl⟩ := hafter.same
    rfl
  refine ⟨fun j j' hj => (h.ids_inj n j n j' hj).2, ?_, fun j => ?_, ?_, ?_, hroute, hreason,
    fun x hx => ?_, fun p _ => ?_⟩
  · exact (hafter.transfers_eq _ (hother 0)).trans (h.transfers_new n 0)
  · exact (hafter.movements_eq (hother j)).trans (h.movements_new n j)
  · rwa [hdirectory]
  · rwa [hdirectory]
  · have hnonneg' := Bag.amount_nonneg (fun x hx => (hitems' x hx).le) x.1
    have hboth := hle x.1
    exact h.line_fits hitems hx (by omega)
  · have hquantity := hle p
    have hnonneg := Bag.amount_nonneg (fun x hx => (hitems x hx).le) p
    have hnonneg' := Bag.amount_nonneg (fun x hx => (hitems' x hx).le) p
    have hbetween : ∀ i, FitsColumn (balance s'.balances (i, p)) (-amount items p) ∧
        FitsColumn (balance s'.balances (i, p)) (amount items p) := by
      intro i
      have hmoved := hafter.transferred i p
      have hrange := h.range i p
      rw [filter_of_pos hitems'] at hmoved
      rw [FitsColumn, FitsColumn]
      simp only [int32_iff] at hrange ⊢
      split at hmoved <;> split at hmoved <;> omega
    rw [filter_of_pos hitems]
    exact ⟨(hbetween fromId).1, (hbetween toId).2⟩

/-- How a part of a fulfillment is looked at: the stock covers it and the guard
must not refuse it, or the stock does not cover it and nothing else can stop it. -/
def Judged (E : Err → Prop) (covered unhindered : Prop) : Prop :=
  ((∀ e, isNegativeBalance e = false → E e) ∧ covered) ∨
    (∀ message, E (.negativeBalance message)) ∧ unhindered ∧ ¬ covered

/-- Goods and containers go to the client and the empty containers come back. -/
theorem wp_exchange (tare : List (Uuid × ℤ)) (hexact : R.Exact) (hlax : R.Lax) {env : Env} {n m : ℕ}
    {source client : Uuid} {type type' : TransferType} {lines : List (Uuid × ℤ)} {u u' : Uuid}
    {v v' orderId orderId' : Option Uuid} {reason reason' : Option String}
    (hlines : ∀ x ∈ lines, 0 < x.2) (htare : ∀ x ∈ tare, 0 < x.2)
    (hsource : NonNegative s source) (hclient : NonNegative s client)
    (hphysical : s.directory.isPhysical source = true)
    (hjudged : Judged E (∀ p, amount (lines ++ tare) p ≤ balance s.balances (source, p))
      (Insertable env n source client (lines ++ tare) reason s)) {Q : Unit → Db → Prop}
    (hQ : (∀ e, isNegativeBalance e = false → E e) → ∀ s', Q () s') :
    wp R (do
      createStockTransfer env n source client type (lines ++ tare) u v orderId reason
      whenever (tare ≠ []) <|
        createStockTransfer env m client source type' tare u' v' orderId' reason') Q E s := by
  have hpos : ∀ x ∈ lines ++ tare, 0 < x.2 := fun x hx =>
    (List.mem_append.mp hx).elim (hlines x) (htare x)
  rw [wp_bind]
  refine wp_createStockTransfer hexact hlax ?_ ?_ fun s₁ hafter => ?_
  · exact hjudged.elim (fun h => .inr h.1) fun h => .inl h.2.1
  · rw [filter_of_pos hpos]
    exact hjudged.elim (fun h => .inl ⟨hclient, fun _ => h.2⟩) fun h => .inr h.1
  · have hmoved := hafter.transferred
    rw [filter_of_pos hpos] at hmoved
    have hdirectory : s₁.directory = s.directory := by
      obtain ⟨_, _, _, rfl⟩ := hafter.same
      rfl
    rcases hjudged with ⟨hany, -⟩ | ⟨-, -, hnot⟩
    · rw [wp_whenever]
      refine ⟨fun _ => ?_, fun _ => hQ hany s₁⟩
      have hback : NonNegative s₁ source := hafter.nonneg source (.inl rfl) hsource
      refine wp_createStockTransfer hexact hlax (.inr hany) (.inl ⟨hback, fun hthere p => ?_⟩)
        fun s₂ _ => hQ hany s₂
      -- the client has just been handed the containers
      rw [filter_of_pos htare, hmoved, if_pos rfl, if_neg (Ne.symm hafter.route), Bag.amount_append]
      have hstock := hclient (hdirectory ▸ hthere) p
      have hnonneg := Bag.amount_nonneg (fun x hx => (hlines x hx).le) p
      omega
    · -- the guard has seen what the first transfer left
      refine absurd (fun p => ?_) hnot
      have hleft := hafter.nonneg source (.inl rfl) hsource (hdirectory ▸ hphysical) p
      rw [hmoved, if_neg hafter.route, if_pos rfl] at hleft
      omega

/-! ## Delivery -/

theorem covered_iff {b : Uuid → ℤ} {items : List OrderItem} (taken : List (Uuid × ℤ))
    (hlines : ∀ i ∈ items, i.quantity ≤ b i.productId) :
    Covered b items taken ↔ ∀ p, amount (movedItems items ++ taken) p ≤ b p :=
  or_iff_right fun ⟨i, hi, h⟩ => absurd (hlines i hi) (not_le.mpr h)

/-- The check fails with its own exception. -/
theorem judged_short {b : Uuid → ℤ} {items : List OrderItem} {taken : List (Uuid × ℤ)}
    {unhindered : Prop} (hjudged : Judged E (Covered b items taken) unhindered)
    (hshort : stockShortages b items ≠ []) : E (.insufficientStock (stockShortages b items)) := by
  rcases hjudged with ⟨hany, -⟩ | ⟨-, -, hnot⟩
  · exact hany _ rfl
  · exact absurd ((stockShortages_eq_nil _ _).mpr fun i hi => not_lt.mp fun h =>
      hnot (.inl ⟨i, hi, h⟩)) hshort

/-- A delivery reads the courier's only vehicle and compares its stock with the lines. -/
theorem wp_deliverStock_reads (hexact : R.Exact) {env : Env} {id : Uuid} {o : Order}
    {courierId : Uuid} {Q : Unit → Db → Prop}
    (hvan : Granted E (∃ van, vehicles s.directory courierId = [van]))
    (hids : Granted E (s.directory.inventories.map Inventory.id).Nodup)
    (hshort : ∀ van, vehicles s.directory courierId = [van] →
      stockShortages (stockOf s van.id) o.items ≠ [] →
      E (.insufficientStock (stockShortages (stockOf s van.id) o.items)))
    (hrest : ∀ van, vehicles s.directory courierId = [van] →
      stockShortages (stockOf s van.id) o.items = [] →
      wp R (do
        createStockTransfer env 2 van.id o.clientInventoryId .clientDelivery
          (movedItems o.items ++ containers s o.items) courierId (some o.clientId) (some id) none
        whenever (containers s o.items ≠ []) <|
          createStockTransfer env 3 o.clientInventoryId van.id .clientReturn
            (containers s o.items) courierId (some courierId) (some id) none) Q E s) :
    wp R (deliverStock env id o courierId) Q E s := by
  rw [deliverStock, wp_bind, getCourierInventory, wp_bind]
  refine wp_ask_exact hexact ?_
  change wp R (scalarOneOrNone (vehicles s.directory courierId)) _ E s
  rw [wp_scalarOneOrNone]
  refine ⟨fun hnone => ?_, fun van hone => ?_, fun hmany => ?_⟩
  · rw [wp_bind, wp_orRaise]
    refine ⟨fun _ => hvan.err (fun ⟨van, hvan⟩ => ?_) rfl, fun _ h => absurd h (by simp)⟩
    exact absurd (hnone.symm.trans hvan) (by simp)
  · have hmem : van ∈ vehicles s.directory courierId := hone ▸ List.mem_singleton_self van
    obtain ⟨hstored, htype⟩ := List.mem_filter.mp hmem
    simp only [Bool.and_eq_true, decide_eq_true_eq] at htype
    rw [wp_bind, wp_orRaise]
    refine ⟨fun h => absurd h (by simp), fun van' hvan' => ?_⟩
    obtain rfl := Option.some.inj hvan'
    rw [wp_bind]
    refine wp_getInventoryWithBalances hexact _ _ ?_
    rw [wp_bind, wp_orRaise]
    refine ⟨fun hnone => hids.err (fun hnodup => ?_) rfl, fun x hx => ?_⟩
    · rw [inventory?_of_mem hnodup hstored] at hnone
      simp [htype.2] at hnone
    · obtain ⟨i, hi, rfl⟩ := Option.map_eq_some_iff.mp hx
      have hid : i.id = van.id := inventory?_id (Option.filter_eq_some_iff.mp hi).1
      rw [wp_bind, wp_raiseIf]
      refine ⟨fun h => hshort van hone h, fun hpasses => ?_⟩
      rw [wp_bind]
      refine wp_ask_exact hexact ?_
      rw [hid]
      exact hrest van hone (not_not.mp hpasses)
  · refine hvan.err (fun ⟨van, hvan⟩ => ?_) rfl
    rw [hvan] at hmany
    exact absurd hmany (by simp)

/-- The check, the delivery and the return of containers. -/
theorem wp_deliverStock (hexact : R.Exact) (hlax : R.Lax) (hs : WellStocked s) (env : Env)
    (id : Uuid) (o : Order) (courierId : Uuid)
    (hjudged : Judged E
      (∀ van ∈ vehicles s.directory courierId,
        Covered (stockOf s van.id) o.items (containers s o.items))
      (∃ van, vehicles s.directory courierId = [van] ∧ Unhindered env van.id o.clientInventoryId
        (amount (movedItems o.items ++ containers s o.items)) s)) {Q : Unit → Db → Prop}
    (hQ : (∀ e, isNegativeBalance e = false → E e) → ∀ s', Q () s') :
    wp R (deliverStock env id o courierId) Q E s := by
  have hpos : ∀ x ∈ movedItems o.items ++ containers s o.items, 0 < x.2 := fun x hx =>
    (List.mem_append.mp hx).elim (movedItems_pos _ x) (containers_pos s _ x)
  have hone : ∀ van, vehicles s.directory courierId = [van] →
      Judged E (Covered (stockOf s van.id) o.items (containers s o.items))
        (Unhindered env van.id o.clientInventoryId
          (amount (movedItems o.items ++ containers s o.items)) s) := by
    intro van hvan
    rcases hjudged with ⟨hany, hcovered⟩ | ⟨hneg, ⟨van', hvan', hunhindered⟩, hnot⟩
    · exact .inl ⟨hany, hcovered van (hvan ▸ List.mem_singleton_self van)⟩
    · cases hvan.symm.trans hvan'
      refine .inr ⟨hneg, hunhindered, fun h => hnot fun x hx => ?_⟩
      rw [hvan, List.mem_singleton] at hx
      exact hx ▸ h
  refine wp_deliverStock_reads hexact ?_ (.inl hs.ids_nodup)
    (fun van hvan => judged_short (hone van hvan)) fun van hvan hpasses => ?_
  · exact hjudged.elim (fun h => .inr h.1) fun ⟨_, ⟨van, hvan, _⟩, _⟩ => .inl ⟨van, hvan⟩
  · have hmem : van ∈ vehicles s.directory courierId := hvan ▸ List.mem_singleton_self van
    obtain ⟨hstored, htype⟩ := List.mem_filter.mp hmem
    simp only [Bool.and_eq_true, decide_eq_true_eq] at htype
    have hphysical : s.directory.isPhysical van.id = true :=
      isPhysical_of_mem hstored (by simp [htype.1.2]) (by simp [htype.1.2])
    have hiff := covered_iff (containers s o.items) ((stockShortages_eq_nil _ _).mp hpasses)
    refine wp_exchange (containers s o.items) hexact hlax (movedItems_pos o.items)
      (containers_pos s o.items) (hs.nonNegative _) (hs.nonNegative _) hphysical ?_ hQ
    rcases hone van hvan with ⟨hany, hcovered⟩ | ⟨hneg, hunhindered, hnot⟩
    · exact .inl ⟨hany, hiff.mp hcovered⟩
    · refine .inr ⟨hneg, ?_, fun h => hnot (hiff.mpr h)⟩
      refine hunhindered.insertable 2 hpos ?_ hunhindered.client_known hunhindered.route rfl
        fun p => le_refl _
      rw [inventory?_of_mem hs.ids_nodup hstored, Option.isSome_some]

/-! ## Pickup -/

theorem returnableForPickup_pos (s : Db) (items : List OrderItem) (walkin : Bool) :
    ∀ x ∈ returnableForPickup walkin items (containers s items), 0 < x.2 := by
  intro x hx
  cases walkin with
  | false => exact containers_pos s items x hx
  | true => exact containers_pos s items x (List.mem_filter.mp hx).1

/-- A walk-in buyer hands back no more than the containers of the lines. -/
theorem amount_returnableForPickup_le (s : Db) (items : List OrderItem) (p : Uuid) :
    amount (returnableForPickup true items (containers s items)) p ≤ amount (containers s items) p := by
  have hnonneg := Bag.amount_nonneg (fun x hx => (containers_pos s items x hx).le) p
  change amount ((containers s items).filter fun r => r.1 ∉ items.map OrderItem.productId) p ≤ _
  rw [Bag.amount_filter (containers s items) fun q => decide (q ∉ items.map OrderItem.productId)]
  split <;> omega

/-- A pickup reads its warehouse and compares the stock with the lines. -/
theorem wp_pickUpStock_reads (hexact : R.Exact) {env : Env} {id : Uuid} {o : Order}
    {warehouseId u : Uuid} {Q : Unit → Db → Prop}
    (hstored : Granted E (∃ i, s.directory.inventory? warehouseId = some i ∧ i.isActive = true ∧
      i.type = .warehouse))
    (hshort : (∃ i, s.directory.inventory? warehouseId = some i) →
      stockShortages (stockOf s warehouseId) o.items ≠ [] →
      E (.insufficientStock (stockShortages (stockOf s warehouseId) o.items)))
    (hrest : ∀ i, s.directory.inventory? warehouseId = some i → i.type = .warehouse →
      stockShortages (stockOf s warehouseId) o.items = [] →
      wp R (do
        whenever (containers s o.items ≠ [] ∧ decide (o.clientId = walkinUserId) = false) do
          let vendorInv ← getVendorInventory
          createStockTransfer env 2 vendorInv.id warehouseId .initialBalance (containers s o.items)
            u (some u) (some id) (some "Container issued with warehouse pickup")
        createStockTransfer env 3 warehouseId o.clientInventoryId .warehouseSale
          (movedItems o.items ++ returnableForPickup (decide (o.clientId = walkinUserId)) o.items
            (containers s o.items)) u (some o.clientId) (some id) none
        whenever (returnableForPickup (decide (o.clientId = walkinUserId)) o.items
            (containers s o.items) ≠ []) <|
          createStockTransfer env 4 o.clientInventoryId warehouseId .warehouseTaraReturn
            (returnableForPickup (decide (o.clientId = walkinUserId)) o.items
              (containers s o.items)) u (some u) (some id) none) Q E s) :
    wp R (pickUpStock env id o warehouseId u) Q E s := by
  rw [pickUpStock, wp_bind]
  refine wp_getInventoryWithBalances hexact _ _ ?_
  rw [wp_bind, wp_orRaise]
  refine ⟨fun hnone => hstored.err (fun ⟨i, hfind, hactive, htype⟩ => ?_) rfl, fun x hx => ?_⟩
  · rw [hfind] at hnone
    simp [hactive, htype] at hnone
  · obtain ⟨i, hi, rfl⟩ := Option.map_eq_some_iff.mp hx
    obtain ⟨hfind, htype⟩ := Option.filter_eq_some_iff.mp hi
    simp only [Option.all_some, Bool.and_eq_true, decide_eq_true_eq] at htype
    have hid : i.id = warehouseId := inventory?_id hfind
    rw [wp_bind, wp_raiseIf]
    refine ⟨hshort ⟨i, hfind⟩, fun hpasses => ?_⟩
    rw [wp_bind]
    refine wp_ask_exact hexact ?_
    rw [hid]
    exact hrest i hfind htype.2 (not_not.mp hpasses)

/-- The check, the containers from the vendor, the sale and the return of containers. -/
theorem wp_pickUpStock (hexact : R.Exact) (hlax : R.Lax) (hs : WellStocked s) (env : Env)
    (id : Uuid) (o : Order) (warehouseId u : Uuid)
    (hjudged : Judged E (Covered (stockOf s warehouseId) o.items (ownContainers o s))
      (∃ warehouse vendor, warehouse.id = warehouseId ∧ PickupUnhindered env o warehouse vendor s))
    {Q : Unit → Db → Prop} (hQ : (∀ e, isNegativeBalance e = false → E e) → ∀ s', Q () s') :
    wp R (pickUpStock env id o warehouseId u) Q E s := by
  have hsame : ∀ i, s.directory.inventory? warehouseId = some i →
      Judged E (Covered (stockOf s warehouseId) o.items (ownContainers o s))
        (∃ vendor, PickupUnhindered env o i vendor s) := by
    intro i hfind
    refine hjudged.imp_right fun hshort => ?_
    obtain ⟨hneg, ⟨i', vendor, hi', hpickup⟩, hnot⟩ := hshort
    refine ⟨hneg, ⟨vendor, ?_⟩, hnot⟩
    rw [← hi'] at hfind
    have hsame : i' = i := Option.some.inj (hpickup.stored.symm.trans hfind)
    exact hsame ▸ hpickup
  refine wp_pickUpStock_reads hexact ?_
    (fun hstored => hstored.elim fun i hfind => judged_short (hsame i hfind))
    fun i hfind htype hpasses => ?_
  · rcases hjudged with ⟨hany, -⟩ | ⟨-, ⟨i, vendor, rfl, hpickup⟩, -⟩
    · exact .inr hany
    · exact .inl ⟨i, hpickup.stored, hpickup.active, hpickup.type_eq⟩
  · have hjudged := hsame i hfind
    have hid := inventory?_id hfind
    subst hid
    have hstored : i ∈ s.directory.inventories := List.mem_of_find?_eq_some hfind
    have hphysical : s.directory.isPhysical i.id = true :=
      isPhysical_of_mem hstored (by simp [htype]) (by simp [htype])
    have hlines := (stockShortages_eq_nil _ _).mp hpasses
    have hiff := covered_iff (ownContainers o s) hlines
    have hnonneg : ∀ p, 0 ≤ amount (containers s o.items) p :=
      Bag.amount_nonneg fun x hx => (containers_pos s o.items x hx).le
    have hstock : ∀ p, stockOf s i.id p = balance s.balances (i.id, p) := fun _ => rfl
    have hknown : (s.directory.inventory? i.id).isSome = true := by rw [hfind, Option.isSome_some]
    by_cases hwalkin : o.clientId = walkinUserId
    · have hown : ownContainers o s = returnableForPickup true o.items (containers s o.items) :=
        if_pos hwalkin
      rw [hown] at hiff hjudged
      rw [decide_eq_true hwalkin, wp_bind, wp_whenever]
      refine ⟨fun h => absurd h.2 (by simp), fun _ => ?_⟩
      refine wp_exchange (returnableForPickup true o.items (containers s o.items)) hexact hlax
        (movedItems_pos o.items) (returnableForPickup_pos s o.items true) (hs.nonNegative _)
        (hs.nonNegative _) hphysical ?_ hQ
      rcases hjudged with ⟨hany, hcovered⟩ | ⟨hneg, ⟨vendor, hpickup⟩, hnot⟩
      · exact .inl ⟨hany, hiff.mp hcovered⟩
      · refine .inr ⟨hneg, ?_, fun h => hnot (hiff.mpr h)⟩
        refine hpickup.unhindered.insertable 3 (fun x hx => (List.mem_append.mp hx).elim
          (movedItems_pos _ x) (returnableForPickup_pos s _ true x)) hknown
          hpickup.unhindered.client_known hpickup.unhindered.route rfl fun p => ?_
        have hle := amount_returnableForPickup_le s o.items p
        have hnonneg := hnonneg p
        rw [Bag.amount_append]
        omega
    · have hown : ownContainers o s = [] := if_neg hwalkin
      rw [hown] at hiff hjudged
      simp only [List.append_nil] at hiff
      rw [decide_eq_false hwalkin, wp_bind, wp_whenever]
      refine ⟨fun _ => ?_, fun hnone => ?_⟩
      · rw [wp_bind]
        refine wp_getVendorInventory hexact ?_ fun vendor hvendor => ?_
        · rcases hjudged with ⟨hany, -⟩ | ⟨-, ⟨vendor, hpickup⟩, -⟩
          · exact .inr hany
          · exact .inl ⟨vendor, hpickup.only_vendor⟩
        have hmem : vendor ∈ vendors s.directory := hvendor ▸ List.mem_singleton_self vendor
        obtain ⟨hvstored, hvtype⟩ := List.mem_filter.mp hmem
        simp only [Bool.and_eq_true, decide_eq_true_eq] at hvtype
        have hvirtual := not_isPhysical hs.ids_nodup hvstored hvtype.2
        have hvknown : (s.directory.inventory? vendor.id).isSome = true := by
          rw [inventory?_of_mem hs.ids_nodup hvstored, Option.isSome_some]
        have hvroute : vendor.id ≠ i.id := by
          intro h
          rw [h, hphysical] at hvirtual
          cases hvirtual
        refine wp_createStockTransfer hexact hlax ?_ (.inl ⟨hs.nonNegative _,
          fun h => absurd (hvirtual.symm.trans h) (by simp)⟩) fun s₁ hafter => ?_
        · rcases hjudged with ⟨hany, -⟩ | ⟨-, ⟨_, hpickup⟩, -⟩
          · exact .inr hany
          refine .inl ?_
          refine hpickup.unhindered.insertable 2 (containers_pos s o.items) hvknown hknown hvroute
            (by decide) fun p => ?_
          have hnonneg := hnonneg p
          have hlines := Bag.amount_nonneg (fun x hx => (movedItems_pos o.items x hx).le) p
          change amount (containers s o.items) p ≤ _
          omega
        have hafter : AfterTransfer env 2 vendor.id i.id (containers s o.items) s s₁ := hafter
        have hmoved := hafter.transferred
        rw [filter_of_pos (containers_pos s o.items)] at hmoved
        have hdirectory : s₁.directory = s.directory := by
          obtain ⟨_, _, _, rfl⟩ := hafter.same
          rfl
        have hclient : NonNegative s₁ o.clientInventoryId := by
          intro hthere p
          rw [hdirectory] at hthere
          have hne : o.clientInventoryId ≠ vendor.id := by
            intro h
            rw [h, hvirtual] at hthere
            cases hthere
          have hbefore := hs.nonNegative _ hthere p
          have hnonneg := hnonneg p
          rw [hmoved, if_neg hne]
          split <;> omega
        -- the containers have been entered, so the lines alone have to be there
        have hstock₁ : ∀ p, balance s₁.balances (i.id, p) =
            stockOf s i.id p + amount (containers s o.items) p := by
          intro p
          rw [hmoved, if_pos rfl, if_neg (Ne.symm hvroute), sub_zero, hstock]
        refine wp_exchange (containers s o.items) hexact hlax
          (movedItems_pos o.items) (containers_pos s o.items)
          (hafter.nonneg i.id (.inr rfl) (hs.nonNegative _)) hclient (hdirectory ▸ hphysical) ?_ hQ
        rcases hjudged with ⟨hany, hcovered⟩ | ⟨hneg, ⟨_, hpickup⟩, hnot⟩
        · refine .inl ⟨hany, fun p => ?_⟩
          have hcovered := hiff.mp hcovered p
          rw [hstock₁, Bag.amount_append]
          omega
        · refine .inr ⟨hneg, ?_, fun h => hnot (hiff.mpr fun p => ?_)⟩
          · refine hpickup.unhindered.insertable_after (by decide) (containers_pos s o.items) hafter
              (fun x hx => (List.mem_append.mp hx).elim (movedItems_pos _ x)
                (containers_pos s o.items x)) hknown
              hpickup.unhindered.client_known hpickup.unhindered.route rfl fun p => ?_
            rw [Bag.amount_append]
            omega
          · have h := h p
            rw [hstock₁, Bag.amount_append] at h
            omega
      · have hnone : containers s o.items = [] := by
          by_contra h
          exact hnone ⟨h, rfl⟩
        refine wp_exchange (containers s o.items) hexact hlax
          (movedItems_pos o.items) (containers_pos s o.items) (hs.nonNegative _)
          (hs.nonNegative _) hphysical ?_ hQ
        rw [hnone, List.append_nil]
        rcases hjudged with ⟨hany, hcovered⟩ | ⟨hneg, ⟨vendor, hpickup⟩, hnot⟩
        · exact .inl ⟨hany, hiff.mp hcovered⟩
        · refine .inr ⟨hneg, ?_, fun h => hnot (hiff.mpr h)⟩
          refine hpickup.unhindered.insertable 3 (movedItems_pos o.items) hknown
            hpickup.unhindered.client_known hpickup.unhindered.route rfl fun p => ?_
          have hnonneg := hnonneg p
          omega

end Rules

/-! ## The whole functions -/

section Functions

variable {E : Err → Prop} {s : Db} {Q : Unit → Db → Prop}

theorem wp_handleOrderFulfillment (hs : WellStocked s) (env : Env) (id : Uuid) (o : Order)
    (actual : List OrderItemActual)
    (hjudged : Judged E (DeliveryCovered o actual s)
      (∃ courierId van, DeliveryUnhindered env id o actual courierId van s))
    (hQ : (∀ e, isNegativeBalance e = false → E e) → ∀ s', Q () s') :
    wp Regime.serial (handleOrderFulfillment env id o actual) Q E s := by
  have hexact : Regime.Exact (S := schema) Regime.serial :=
    Regime.serialAsserting_exact (S := schema) _
  have hlax : Regime.Lax (S := schema) Regime.serial := Regime.serial_lax
  rw [handleOrderFulfillment, wp_bind, wp_orRaise]
  refine ⟨fun hnone => ?_, fun courierId hcourier => ?_⟩
  · rcases hjudged with ⟨hany, -⟩ | ⟨-, ⟨_, _, hdelivery⟩, -⟩
    · exact hany _ rfl
    · exact absurd (hnone.symm.trans hdelivery.courier) (by simp)
  · have hrest : ∀ total s', SameButOrders s s' → wp Regime.serial (do
        deliverStock env id { o with items := deliveredLines o actual, totalAmount := total } courierId
        processFinancialSettlement env id
          { o with items := deliveredLines o actual, totalAmount := total }) Q E s' := by
      rintro total _ ⟨orders, priceItems, rfl⟩
      rw [wp_bind]
      refine wp_deliverStock (s := { s with orders, priceItems }) hexact hlax
        ⟨hs.ids_nodup, hs.physical_nonneg⟩ env id _ courierId ?_ fun hany s' => ?_
      · rcases hjudged with ⟨hany, hcovered⟩ | ⟨hneg, ⟨_, van, hdelivery⟩, hnot⟩
        · exact .inl ⟨hany, hcovered courierId hcourier⟩
        · cases hcourier.symm.trans hdelivery.courier
          have h := hdelivery.unhindered
          refine .inr ⟨hneg, ⟨van, hdelivery.vehicle, ⟨h.ids_inj, h.transfers_new, h.movements_new,
            h.client_known, h.route, h.range⟩⟩, fun hall => hnot fun c hc => ?_⟩
          cases hcourier.symm.trans hc
          exact hall
      · exact wp_unguarded hlax hany (processFinancialSettlement_unguarded env id _)
          fun _ s'' _ => hQ hany s''
    rw [wp_bind]
    rcases hjudged with ⟨hany, -⟩ | ⟨-, ⟨_, _, hdelivery⟩, -⟩
    · exact wp_adjusted hlax hany env id o actual hrest
    · -- what was handed over can be entered, so the stock is reached
      obtain ⟨x, hx⟩ := hdelivery.adjusts
      have hreached := wp_adjusted (R := Regime.serial) (E := fun e => isNegativeBalance e = false)
        (Q := fun o' s' => wp Regime.serial (do
          deliverStock env id o' courierId
          processFinancialSettlement env id o') Q E s') hlax (fun _ he => he) env id o actual hrest
      rw [wp_serial_iff, hx] at hreached ⊢
      exact hreached

theorem wp_handleWarehousePickup (hs : WellStocked s) (env : Env) (id : Uuid) (o : Order) (u : Uuid)
    (hjudged : Judged E (PickupCovered o s)
      (∃ warehouse vendor, PickupUnhindered env o warehouse vendor s))
    (hQ : (∀ e, isNegativeBalance e = false → E e) → ∀ s', Q () s') :
    wp Regime.serial (handleWarehousePickup env id o u) Q E s := by
  have hexact : Regime.Exact (S := schema) Regime.serial :=
    Regime.serialAsserting_exact (S := schema) _
  have hlax : Regime.Lax (S := schema) Regime.serial := Regime.serial_lax
  rw [handleWarehousePickup, wp_bind, wp_orRaise]
  refine ⟨fun hnone => ?_, fun warehouseId hwarehouse => ?_⟩
  · rcases hjudged with ⟨hany, -⟩ | ⟨-, ⟨_, _, hpickup⟩, -⟩
    · exact hany _ rfl
    · exact absurd (hnone.symm.trans hpickup.origin) (by simp)
  · rw [wp_bind]
    refine wp_pickUpStock hexact hlax hs env id o warehouseId u ?_ fun hany s' => ?_
    · rcases hjudged with ⟨hany, hcovered⟩ | ⟨hneg, ⟨warehouse, vendor, hpickup⟩, hnot⟩
      · exact .inl ⟨hany, hcovered warehouseId hwarehouse⟩
      · cases hwarehouse.symm.trans hpickup.origin
        refine .inr ⟨hneg, ⟨warehouse, vendor, rfl, hpickup⟩, fun hall => hnot fun w hw => ?_⟩
        cases hwarehouse.symm.trans hw
        exact hall
    · exact wp_unguarded hlax hany (processPickupSettlement_unguarded env id _)
        fun _ s'' _ => hQ hany s''

/-- What is judged both ways is refused exactly if it is not covered. -/
theorem neverRefused_iff {p : Uow Unit} {covered unhindered : Prop}
    (hp : ∀ (E : Err → Prop) (Q : Unit → Db → Prop), Judged E covered unhindered →
      ((∀ e, isNegativeBalance e = false → E e) → ∀ s', Q () s') → wp Regime.serial p Q E s) :
    (covered → NeverRefused p s) ∧ (unhindered → (NeverRefused p s ↔ covered)) := by
  have hcovered : covered → NeverRefused p s := by
    intro h message hrun
    have hwp := hp (fun e => isNegativeBalance e = false) (fun _ _ => True)
      (.inl ⟨fun _ he => he, h⟩) fun _ _ => trivial
    rw [wp_serial_iff, hrun] at hwp
    exact absurd hwp (by simp [isNegativeBalance])
  refine ⟨hcovered, fun hunhindered => ⟨fun hnever => ?_, hcovered⟩⟩
  by_contra hnot
  have hwp := hp (fun e => isNegativeBalance e = true) (fun _ _ => False)
    (.inr ⟨fun _ => rfl, hunhindered, hnot⟩) fun hany _ => absurd (hany .multipleResultsFound rfl)
      (by decide)
  rw [wp_serial_iff] at hwp
  cases hrun : p.run s with
  | ok x =>
    rw [hrun] at hwp
    exact hwp
  | error e =>
    rw [hrun] at hwp
    cases e with
    | negativeBalance message => exact hnever message hrun
    | _ => exact absurd hwp (by simp [isNegativeBalance])

end Functions

/-- The guard refuses no movement of a delivery or a pickup whose stock is
covered, and unless something else stops it the guard refuses one otherwise. -/
theorem shortages_surface_iff {s : Db} (hs : WellStocked s) (env : Env) (id : Uuid) (o : Order) :
    (∀ actual, (DeliveryCovered o actual s → NeverRefused (handleOrderFulfillment env id o actual) s) ∧
      ((∃ courierId van, DeliveryUnhindered env id o actual courierId van s) →
        (NeverRefused (handleOrderFulfillment env id o actual) s ↔ DeliveryCovered o actual s))) ∧
    ∀ u, (PickupCovered o s → NeverRefused (handleWarehousePickup env id o u) s) ∧
      ((∃ warehouse vendor, PickupUnhindered env o warehouse vendor s) →
        (NeverRefused (handleWarehousePickup env id o u) s ↔ PickupCovered o s)) :=
  ⟨fun actual => neverRefused_iff fun _ _ hjudged hQ =>
      wp_handleOrderFulfillment hs env id o actual hjudged hQ,
    fun u => neverRefused_iff fun _ _ hjudged hQ =>
      wp_handleWarehousePickup hs env id o u hjudged hQ⟩

/-- Two waters for a client, at the courier's door. -/
def sampleOrder : Order where
  clientId := 7
  clientInventoryId := 5
  courierId := some 6
  paymentMethod := .cash
  status := .delivered
  totalAmount := 200
  capitalizationApplied := false
  saleType := .delivery
  warehouseId := some 3
  contractId := none
  quantitiesReserved := false
  cancellationReason := none
  notes := none
  isActive := true
  createdAt := 0
  updatedAt := 0
  items := [⟨21, 2, 100⟩]
  statusLogs := []

/-- The van carries ten waters and some empty bottles. -/
def loaded (bottles : ℤ) : Db :=
  { sampleDb with balances := (Table.empty.put (4, 22) (some bottles)).put (4, 21) (some 10) }

/-- New identifiers that all differ. -/
def sampleEnv : Env := ⟨0, fun n j => 1000 + Nat.pair n j⟩

theorem balance_loaded (bottles : ℤ) (a : Uuid × Uuid) : balance (loaded bottles).balances a =
    if a = (4, 21) then 10 else if a = (4, 22) then bottles else 0 := by
  simp only [balance, loaded, Table.find?_put, Table.find?_empty]
  split
  · rfl
  · split <;> rfl

theorem loaded_wellStocked {bottles : ℤ} (h : 0 ≤ bottles) : WellStocked (loaded bottles) where
  ids_nodup := show (sampleDb.directory.inventories.map Inventory.id).Nodup by decide
  physical_nonneg i p _ := by
    rw [balance_loaded]
    split
    · decide
    · split
      · exact h
      · exact le_refl 0

/-- The delivery takes two waters and two bottles. -/
theorem amount_sampleOrder (bottles : ℤ) (p : Uuid) :
    amount (movedItems (deliveredLines sampleOrder []) ++
      containers (loaded bottles) (deliveredLines sampleOrder [])) p =
        if p = 21 then 2 else if p = 22 then 2 else 0 := by
  have hlist : movedItems (deliveredLines sampleOrder []) ++
      containers (loaded bottles) (deliveredLines sampleOrder []) = [(21, 2), (22, 2)] := by rfl
  rw [hlist]
  by_cases hwater : p = 21
  · subst hwater
    rfl
  · by_cases hbottle : p = 22
    · subst hbottle
      rfl
    · simp [hwater, hbottle, Ne.symm hwater, Ne.symm hbottle]

theorem loaded_vehicles (bottles : ℤ) :
    vehicles (loaded bottles).directory 6 = [⟨4, some 6, .courier, true, "van"⟩] := by rfl

theorem loaded_covered_iff (bottles : ℤ) :
    DeliveryCovered sampleOrder [] (loaded bottles) ↔ 2 ≤ bottles := by
  have hstock : ∀ p, stockOf (loaded bottles) 4 p = if p = 21 then 10 else if p = 22 then bottles else 0 := by
    intro p
    rw [stockOf, balance_loaded]
    simp
  constructor
  · intro h
    have hvan := h 6 rfl ⟨4, some 6, .courier, true, "van"⟩ (by rw [loaded_vehicles]; exact List.mem_cons_self)
    rcases hvan with ⟨i, hi, hlt⟩ | henough
    · have hi : i = ⟨21, 2, 100⟩ := List.mem_singleton.mp hi
      subst hi
      rw [hstock, if_pos rfl] at hlt
      exact absurd hlt (by decide)
    · have hbottles := henough 22
      rw [amount_sampleOrder, hstock] at hbottles
      simpa using hbottles
  · intro h courierId hcourier van hvan
    cases hcourier
    rw [loaded_vehicles, List.mem_singleton] at hvan
    subst hvan
    refine .inr fun p => ?_
    rw [amount_sampleOrder, hstock]
    split
    · decide
    · split <;> omega

theorem loaded_unhindered :
    DeliveryUnhindered sampleEnv 1 sampleOrder [] 6 ⟨4, some 6, .courier, true, "van"⟩ (loaded 0) where
  adjusts := ⟨_, rfl⟩
  courier := rfl
  vehicle := loaded_vehicles 0
  unhindered :=
    { ids_inj := fun n j n' j' h => Nat.pair_eq_pair.mp (Nat.add_left_cancel h)
      transfers_new := fun n j => Table.find?_empty _
      movements_new := fun n j => Table.find?_empty _
      client_known := by decide
      route := by decide
      range := by
        intro i p
        have hmoved : ∀ q : Uuid, (0 : ℤ) ≤ (if q = 21 then 2 else if q = 22 then 2 else 0) ∧
            (if q = 21 then 2 else if q = 22 then 2 else 0) ≤ (2 : ℤ) := by
          intro q
          split
          · decide
          · split <;> decide
        have hstock : ∀ a : Uuid × Uuid, (0 : ℤ) ≤ (if a = (4, 21) then 10 else if a = (4, 22) then 0 else 0) ∧
            (if a = (4, 21) then 10 else if a = (4, 22) then 0 else 0) ≤ (10 : ℤ) := by
          intro a
          split
          · decide
          · split <;> decide
        have hmoved := hmoved p
        have hstock := hstock (i, p)
        rw [amount_sampleOrder, balance_loaded, int32_iff, int32_iff]
        omega }

theorem shortages_surface_iff_sample :
    NeverRefused (handleOrderFulfillment sampleEnv 1 sampleOrder []) (loaded 2) ∧
      ¬ NeverRefused (handleOrderFulfillment sampleEnv 1 sampleOrder []) (loaded 0) := by
  have hcovered := (shortages_surface_iff (loaded_wellStocked (by decide : (0 : ℤ) ≤ 2)) sampleEnv 1
    sampleOrder).1 []
  have huncovered := (shortages_surface_iff (loaded_wellStocked (le_refl 0)) sampleEnv 1
    sampleOrder).1 []
  constructor
  · exact hcovered.1 ((loaded_covered_iff 2).mpr (le_refl 2))
  · intro hnever
    have h := (huncovered.2 ⟨_, _, loaded_unhindered⟩).mp hnever
    exact absurd ((loaded_covered_iff 0).mp h) (by decide)

/-- With no bottle in the van the check passes and the guard refuses the delivery. -/
theorem shortage_missed : ¬ ∀ (s : Db) (env : Env) (id : Uuid) (o : Order)
    (actual : List OrderItemActual), WellStocked s →
      (∀ courierId, o.courierId = some courierId → ∀ van ∈ vehicles s.directory courierId,
        stockShortages (stockOf s van.id) (deliveredLines o actual) = []) →
      NeverRefused (handleOrderFulfillment env id o actual) s := by
  intro hclaim
  have hnever := hclaim (loaded 0) sampleEnv 1 sampleOrder [] (loaded_wellStocked (le_refl 0)) (by
    intro courierId hcourier van hvan
    cases hcourier
    rw [loaded_vehicles, List.mem_singleton] at hvan
    subst hvan
    decide +kernel)
  have heval : (match (handleOrderFulfillment sampleEnv 1 sampleOrder []).run (loaded 0) with
      | .ok _ => none
      | .error e => some e) = some (Err.negativeBalance
        "Negative balances are not allowed for non-virtual inventories.") := by decide +kernel
  cases hrun : (handleOrderFulfillment sampleEnv 1 sampleOrder []).run (loaded 0) with
  | ok x => exact absurd (hrun ▸ heval) (by simp)
  | error e =>
    rw [hrun] at heval
    exact hnever _ (hrun.trans (congrArg _ (Option.some.inj heval)))

end Munavvar.ShortageCheck
