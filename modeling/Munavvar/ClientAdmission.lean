import Munavvar.ClientEffects
import Munavvar.ShortageCheck

/-!
# Which clients the tables admit

A client without a phone number is checked by nothing but the tables: the
identifiers have to be free, the texts and numbers have to fit their columns,
and the containers and the first order have to satisfy the constraints and the
trigger. Whether a command is refused is said here without running it.
-/

namespace Munavvar.ClientAdmission

open Munavvar.KeyedTable
open Munavvar.DoubleEntry
open Munavvar.Transaction
open Munavvar.Transaction.Prog
open Munavvar.Database
open Munavvar.Statements
open Munavvar.StockLedger
open Munavvar.OrderQueries
open Munavvar.OrderService
open Munavvar.StockService
open Munavvar.OrderEffects
open Munavvar.StockEffects
open Munavvar.ShortageCheck (vendors wp_scalarOneOrNone)
open Munavvar.ClientService
open Munavvar.ClientEffects

/-- A row that passes all of its constraints is stored. -/
theorem checked_eq_ok {V : Type} {v : V} {cs : List (Bool × Err)} {r : Option V} :
    checked v cs = .ok r ↔ r = some v ∧ ∀ c ∈ cs, c.1 = true := by
  constructor
  · exact checked_ok
  · rintro ⟨rfl, h⟩
    exact checked_of_forall h

/-! ## The containers of a new client -/

/-- The movement that brings a new client's containers. -/
def tareMovement (env : Env) (vendorId productId : Uuid) (quantity : ℤ) : StockTransaction :=
  ⟨env.uuid 1 0, productId, vendorId, env.uuid 0 2, quantity, env.now⟩

/-- The tables admit the containers of a new client from a vendor. -/
structure TareAdmitted (env : Env) (s : Db) (productId : Uuid) (quantity : ℤ) (vendor : Inventory) :
    Prop where
  /-- There is one vendor. -/
  vendors_eq : vendors s.directory = [vendor]
  /-- The document's identifier is free. -/
  transfer_fresh : s.stockTransfers.find? (env.uuid 1 0) = none
  /-- The quantity fits its column. -/
  quantity_fits : int32 quantity = true
  /-- The product exists. -/
  product_isSome : (s.products.find? productId).isSome = true
  /-- The movement's identifier is free. -/
  movement_fresh : s.stockTransactions.find? (env.uuid 1 1) = none
  /-- The balances fit their column. -/
  balances_fit : FitsBalances s (tareMovement env vendor.id productId quantity)
  /-- An inventory with the vendor's identifier that is not virtual has enough. -/
  vendor_covers : s.directory.isPhysical vendor.id = true →
    quantity ≤ balance s.balances (vendor.id, productId)
  /-- Nothing was owed from the new inventory. -/
  client_nonneg : 0 ≤ balance s.balances (env.uuid 0 2, productId) + quantity

section Tare

variable {s : Db} {env : Env}

/-- The trigger accepts a movement exactly if its balances fit and no physical one is negative. -/
theorem completes_updateInventoryBalances {row : StockTransaction}
    (hroute : row.fromId ≠ row.toId) :
    Completes (updateInventoryBalances row) s ↔ FitsBalances s row ∧
      ∀ i, i = row.fromId ∨ i = row.toId → s.directory.isPhysical i = true →
        0 ≤ balance s.balances (i, row.productId) + (entry row).effect (i, row.productId) := by
  constructor
  · intro h
    have hposted : wp Regime.serial (updateInventoryBalances row)
        (fun _ s' => ∃ b', Posted s.directory row s.balances b') (fun _ => True) s :=
      updateInventoryBalances_spec Regime.serial_sound Regime.serial_lax row (.inr trivial)
        (fun _ _ _ _ _ => trivial) fun b' hb' => ⟨b', hb'⟩
    obtain ⟨u, s', hrun⟩ := completes_iff.mp h
    obtain ⟨b', hb'⟩ := wp_serial_run hposted hrun
    have hsource := hb'.fits hroute _ (.inl rfl)
    have htarget := hb'.fits hroute _ (.inr rfl)
    rw [hb'.balance_eq, effect_entry] at hsource htarget
    simp only [hroute, hroute.symm, false_and, true_and, if_true, if_false, zero_sub, sub_zero]
      at hsource htarget
    constructor
    · exact ⟨hroute, hsource, htarget⟩
    · intro i hi hphysical
      rw [← hb'.balance_eq]
      exact hb'.guard i hi hphysical
  · rintro ⟨hfits, hguard⟩
    refine updateInventoryBalances_spec Regime.serial_sound Regime.serial_lax row (.inl hfits) ?_
      fun _ _ => trivial
    intro i hi hphysical hneg
    exact absurd (hguard i hi hphysical) (not_le.mpr hneg)

/-- The foreign keys and the trigger admit a movement. -/
structure RouteAdmitted (s : Db) (row : StockTransaction) : Prop where
  /-- The inventory that gives is there. -/
  from_isSome : (s.directory.inventory? row.fromId).isSome = true
  /-- The inventory that takes is there. -/
  to_isSome : (s.directory.inventory? row.toId).isSome = true
  /-- The document has the route of the movement. -/
  route : ∃ t, s.stockTransfers.find? row.transferId = some t ∧ t.fromId = row.fromId ∧
    t.toId = row.toId
  /-- The balances fit their column. -/
  balances_fit : FitsBalances s row
  /-- No physical inventory is overdrawn. -/
  guard : ∀ i, i = row.fromId ∨ i = row.toId → s.directory.isPhysical i = true →
    0 ≤ balance s.balances (i, row.productId) + (entry row).effect (i, row.productId)

theorem completes_checkRoute {row : StockTransaction} (hroute : row.fromId ≠ row.toId) :
    Completes (do checkRoute row; updateInventoryBalances row) s ↔ RouteAdmitted s row := by
  rw [Completes, wp_bind, checkRoute]
  simp only [wp_bind, wp_ask_alone, wp_raiseIf_alone]
  rw [← Completes, completes_updateInventoryBalances hroute, Option.any_eq_true]
  simp only [Option.isNone_iff_eq_none, ← Option.not_isSome_iff_eq_none, not_not,
    Bool.and_eq_true, decide_eq_true_eq]
  constructor
  · rintro ⟨hfrom, hto, htransfer, hfits, hguard⟩
    exact ⟨hfrom, hto, htransfer, hfits, hguard⟩
  · intro h
    exact ⟨h.from_isSome, h.to_isSome, h.route, h.balances_fit, h.guard⟩

/-- The ledger itself is not looked at. -/
theorem RouteAdmitted.put {row : StockTransaction} {id : Uuid} {r : Option StockTransaction} :
    RouteAdmitted (s.put (.stockTransaction id) r) row ↔ RouteAdmitted s row := by
  have hfits : FitsBalances (s.put (.stockTransaction id) r) row ↔ FitsBalances s row :=
    ⟨fun h => ⟨h.route, h.source, h.target⟩, fun h => ⟨h.route, h.source, h.target⟩⟩
  constructor
  · intro h
    exact ⟨h.from_isSome, h.to_isSome, h.route, hfits.mp h.balances_fit, h.guard⟩
  · intro h
    exact ⟨h.from_isSome, h.to_isSome, h.route, hfits.mpr h.balances_fit, h.guard⟩

/-- A movement of pieces is stored where its identifier is free and its route is admitted. -/
theorem completes_insertStockTransaction {id : Uuid} {row : StockTransaction}
    (hpos : 0 < row.quantity) :
    Completes (insertStockTransactions [(id, row)]) s ↔
      s.stockTransactions.find? id = none ∧ int32 row.quantity = true ∧ RouteAdmitted s row := by
  rw [insertStockTransactions, Completes, wp_bind, wp_forEach_singleton, wp_execute_alone]
  simp only [wp_forEach_singleton]
  change (∃ r, StockTransactionStmt.exec _ (s.stockTransactions.find? id) = .ok r ∧ _) ↔ _
  cases hfind : s.stockTransactions.find? id with
  | some old => simp [StockTransactionStmt.exec]
  | none =>
    simp only [StockTransactionStmt.exec, checked_eq_ok, List.forall_mem_cons, List.not_mem_nil,
      decide_eq_true_eq, true_and]
    constructor
    · rintro ⟨r, ⟨-, hquantity, -, hroute, -⟩, h⟩
      exact ⟨hquantity, RouteAdmitted.put.mp ((completes_checkRoute hroute).mp h)⟩
    · rintro ⟨hquantity, h⟩
      have hroute := h.balances_fit.route
      refine ⟨_, ⟨rfl, hquantity, hpos, hroute, ?_⟩, ?_⟩
      · exact fun _ hc => hc.elim
      · exact (completes_checkRoute hroute).mpr (RouteAdmitted.put.mpr h)

theorem wp_getVendorInventory {Q : Inventory → Db → Prop} :
    wp Regime.serial getVendorInventory Q (fun _ => False) s ↔
      ∃ vendor, vendors s.directory = [vendor] ∧ Q vendor s := by
  rw [getVendorInventory, getSystemInventory, wp_bind, wp_ask_alone, wp_bind,
    wp_scalarOneOrNone]
  change (vendors s.directory = [] → _) ∧ (∀ v, vendors s.directory = [v] → _) ∧
    (2 ≤ (vendors s.directory).length → _) ↔ _
  rcases vendors s.directory with _ | ⟨vendor, _ | ⟨second, rest⟩⟩
  · simp
  · simp
  · simp

theorem insertTransfer_eq_ok {id : Uuid} {t : StockTransfer} {old r : Option StockTransfer} :
    exec (.stockTransfer id) (.insert t) old = .ok r ↔
      old = none ∧ r = some t ∧ fits 255 t.reason = true ∧ t.fromId ≠ t.toId := by
  cases old with
  | some o => simp [exec, TransferStmt.exec]
  | none => simp [exec, TransferStmt.exec, checked_eq_ok]

theorem addTransferItem_eq_ok {id productId : Uuid} {quantity : ℤ} {t : StockTransfer}
    {r : Option StockTransfer} (hpos : 0 < quantity) :
    exec (.stockTransfer id) (.addItems [(productId, quantity)]) (some t) = .ok r ↔
      r = some { t with items := t.items ++ [(productId, quantity)] } ∧
        int32 quantity = true := by
  simp [exec, TransferStmt.exec, checked_eq_ok, hpos]

/-- What the route and the trigger ask of the first movement into a new inventory. -/
theorem routeAdmitted_tareMovement {vendor inventory : Inventory} {productId : Uuid} {quantity : ℤ}
    {t : StockTransfer} {transfers : Table Uuid StockTransfer}
    (hvendor : (s.directory.inventory? vendor.id).isSome = true)
    (hnew : s.directory.inventory? (env.uuid 0 2) = some inventory)
    (hphysical : s.directory.isPhysical (env.uuid 0 2) = true)
    (ht : transfers.find? (env.uuid 1 0) = some t)
    (hroute : t.fromId = vendor.id ∧ t.toId = env.uuid 0 2) :
    RouteAdmitted { s with stockTransfers := transfers }
        (tareMovement env vendor.id productId quantity) ↔
      FitsBalances s (tareMovement env vendor.id productId quantity) ∧
        (s.directory.isPhysical vendor.id = true →
          quantity ≤ balance s.balances (vendor.id, productId)) ∧
        0 ≤ balance s.balances (env.uuid 0 2, productId) + quantity := by
  have hsource : vendor.id ≠ env.uuid 0 2 →
      (entry (tareMovement env vendor.id productId quantity)).effect (vendor.id, productId) =
        -quantity := by
    intro hne
    rw [effect_entry]
    simp [tareMovement, hne.symm]
  have htarget : vendor.id ≠ env.uuid 0 2 →
      (entry (tareMovement env vendor.id productId quantity)).effect (env.uuid 0 2, productId) =
        quantity := by
    intro hne
    rw [effect_entry]
    simp [tareMovement, hne]
  constructor
  · intro h
    have hne := h.balances_fit.route
    have hfits : FitsBalances s (tareMovement env vendor.id productId quantity) :=
      ⟨hne, h.balances_fit.source, h.balances_fit.target⟩
    refine ⟨hfits, fun hv => ?_, ?_⟩
    · have hguard := h.guard vendor.id (.inl rfl) hv
      change 0 ≤ balance s.balances (vendor.id, productId) + _ at hguard
      have heffect := hsource hne
      change (entry (tareMovement env vendor.id productId quantity)).effect
        (vendor.id, (tareMovement env vendor.id productId quantity).productId) = _ at heffect
      omega
    · have hguard := h.guard (env.uuid 0 2) (.inr rfl) hphysical
      change 0 ≤ balance s.balances (env.uuid 0 2, productId) + _ at hguard
      have heffect := htarget hne
      change (entry (tareMovement env vendor.id productId quantity)).effect
        (env.uuid 0 2, (tareMovement env vendor.id productId quantity).productId) = _ at heffect
      omega
  · rintro ⟨hfits, hcovers, hnonneg⟩
    have hne := hfits.route
    constructor
    · exact hvendor
    · exact hnew ▸ rfl
    · exact ⟨t, ht, hroute⟩
    · exact ⟨hne, hfits.source, hfits.target⟩
    · rintro i (rfl | rfl) hi
      · have hcovers := hcovers hi
        have heffect := hsource hne
        change 0 ≤ balance s.balances (vendor.id, productId) +
          (entry (tareMovement env vendor.id productId quantity)).effect (vendor.id, productId)
        omega
      · have heffect := htarget hne
        change 0 ≤ balance s.balances (env.uuid 0 2, productId) +
          (entry (tareMovement env vendor.id productId quantity)).effect (env.uuid 0 2, productId)
        omega

/-- A document of a new client's containers is stored with its line and its movement exactly if
the tables admit them. -/
theorem completes_enterInitialBalance {productId : Uuid} {quantity : ℤ} (createdById : Uuid)
    (hpos : 0 < quantity) {inventory : Inventory}
    (hnew : s.directory.inventory? (env.uuid 0 2) = some inventory)
    (hphysical : s.directory.isPhysical (env.uuid 0 2) = true) :
    Completes (enterInitialBalance env 1 (env.uuid 0 2) [(productId, quantity)] createdById) s ↔
      ∃ vendor, TareAdmitted env s productId quantity vendor := by
  rw [enterInitialBalance, Completes, wp_bind, wp_getVendorInventory]
  refine exists_congr fun vendor => ?_
  simp only [wp_bind, wp_ask_alone, wp_execute_alone, wp_raiseIf_alone, List.zipIdx_cons,
    List.zipIdx_nil, wp_forEach_singleton, addMovement, hnew, Option.isNone_iff_eq_none,
    ← Option.not_isSome_iff_eq_none, not_not]
  constructor
  · rintro ⟨hvendors, r, hr, hvendor, -, r', hr', hproduct, hmovement⟩
    obtain ⟨hfresh, rfl, -, -⟩ := insertTransfer_eq_ok.mp hr
    rw [Db.get_put_self] at hr'
    obtain ⟨rfl, hquantity⟩ := (addTransferItem_eq_ok hpos).mp hr'
    obtain ⟨hid, -, hadmitted⟩ := (completes_insertStockTransaction hpos).mp hmovement
    obtain ⟨hfits, hcovers, hnonneg⟩ := (routeAdmitted_tareMovement hvendor hnew hphysical
      (Table.find?_put_self _ _ _) ⟨rfl, rfl⟩).mp hadmitted
    exact ⟨hvendors, hfresh, hquantity, hproduct, hid, hfits, hcovers, hnonneg⟩
  · intro h
    have hmem : vendor ∈ s.directory.inventories :=
      List.mem_of_mem_filter (h.vendors_eq ▸ List.mem_singleton_self vendor : vendor ∈ vendors _)
    have hvendor : (s.directory.inventory? vendor.id).isSome = true :=
      List.find?_isSome.mpr ⟨vendor, hmem, by simp⟩
    refine ⟨h.vendors_eq, _, insertTransfer_eq_ok.mpr ⟨h.transfer_fresh, rfl, rfl,
      h.balances_fit.route⟩, hvendor, rfl, ?_⟩
    rw [Db.get_put_self]
    refine ⟨_, (addTransferItem_eq_ok hpos).mpr ⟨rfl, h.quantity_fits⟩, h.product_isSome, ?_⟩
    refine (completes_insertStockTransaction hpos).mpr ⟨h.movement_fresh, h.quantity_fits, ?_⟩
    exact (routeAdmitted_tareMovement hvendor hnew hphysical (Table.find?_put_self _ _ _)
      ⟨rfl, rfl⟩).mpr ⟨h.balances_fit, h.vendor_covers, h.client_nonneg⟩

end Tare

/-! ## The first order -/

/-- The active products of a cart. -/
def catalog (s : Db) (order : OnboardingOrder) : List (Uuid × Product) :=
  s.products.rows.filter fun r => r.1 ∈ order.items.map Prod.fst && r.2.isActive

/-- The lines of a first order with the prices of the moment. -/
def firstLines (s : Db) (order : OnboardingOrder) : List OrderItem :=
  order.items.map fun i => ⟨i.1, i.2, priceMap (catalog s order) none i.1⟩

/-- The tables admit a first order. -/
structure OrderAdmitted (env : Env) (s : Db) (order : OnboardingOrder) : Prop where
  /-- Every product is on sale. -/
  products_active : ∀ i ∈ order.items, (s.products.find? i.1).any Product.isActive = true
  /-- The order's identifier is free. -/
  fresh : s.orders.find? (env.uuid 2 0) = none
  /-- The total fits its column. -/
  total_fits : int64 (lineTotal (firstLines s order)) = true
  /-- The lines satisfy their constraints. -/
  lines_ok : ∀ i ∈ firstLines s order, ∀ c ∈ i.constraints, c.1 = true

section Orders

variable {s s' : Db} {env : Env}

/-- Only products and orders are looked at. -/
theorem OrderAdmitted.of_same {order : OnboardingOrder} (h : OrderAdmitted env s order)
    (hproducts : s'.products = s.products) (horders : s'.orders = s.orders) :
    OrderAdmitted env s' order := by
  have hlines : firstLines s' order = firstLines s order := by
    rw [firstLines, firstLines, catalog, catalog, hproducts]
  constructor
  · rw [hproducts]
    exact h.products_active
  · rw [horders]
    exact h.fresh
  · rw [hlines]
    exact h.total_fits
  · rw [hlines]
    exact h.lines_ok

/-- Selecting rows commutes with looking one up. -/
theorem lookup_filter {K V : Type} [DecidableEq K] (f : K × V → Bool) (k : K) {l : List (K × V)}
    (hl : (l.map Prod.fst).Nodup) :
    (l.filter f).lookup k = (l.lookup k).filter fun v => f (k, v) := by
  induction l with
  | nil => rfl
  | cons r l ih =>
    obtain ⟨j, v⟩ := r
    rw [List.map_cons, List.nodup_cons] at hl
    have hrest := ih hl.2
    by_cases hj : k = j
    · subst hj
      have hnone : l.lookup k = none := by
        rw [List.lookup_eq_none_iff]
        intro x hx
        have hne : x.1 ≠ k := fun h => hl.1 (List.mem_map.mpr ⟨x, hx, h⟩)
        simpa using hne.symm
      rw [hnone] at hrest
      by_cases hf : f (k, v) = true
      · simp [hf, Option.filter]
      · simp [hf, hrest, Option.filter]
    · have hbeq : (k == j) = false := by simpa using hj
      by_cases hf : f (j, v) = true
      · simp [hf, List.lookup_cons, hbeq, hrest]
      · simp [hf, List.lookup_cons, hbeq, hrest]

theorem lookup_catalog {order : OnboardingOrder} {id : Uuid}
    (hid : id ∈ order.items.map Prod.fst) :
    ((catalog s order).lookup id).isNone = false ↔
      (s.products.find? id).any Product.isActive = true := by
  rw [catalog, lookup_filter _ _ s.products.nodup, Table.find?]
  cases s.products.rows.lookup id with
  | none => simp
  | some p =>
    have hmem : decide (id ∈ order.items.map Prod.fst) = true := decide_eq_true hid
    simp [Option.filter, hmem]

/-- Lines are added one by one as long as they satisfy their constraints. -/
theorem completes_addLines {id : Uuid} {items : List OrderItem} {o : Order}
    (ho : s.orders.find? id = some o) :
    Completes (forEach items fun item => issue (.order id) (.addItems [item])) s ↔
      ∀ i ∈ items, ∀ c ∈ i.constraints, c.1 = true := by
  induction items generalizing s o with
  | nil => simp [Completes, forEach]
  | cons item items ih =>
    rw [Completes, forEach, wp_bind', wp_execute_alone]
    change (∃ r, OrderStmt.exec _ (s.orders.find? id) = .ok r ∧ Completes _ _) ↔ _
    rw [ho, List.forall_mem_cons]
    simp only [OrderStmt.exec, checked_eq_ok, List.flatMap_cons, List.flatMap_nil, List.append_nil]
    constructor
    · rintro ⟨r, ⟨rfl, hitem⟩, hrest⟩
      exact ⟨hitem, (ih (Table.find?_put_self _ _ _)).mp hrest⟩
    · rintro ⟨hitem, hrest⟩
      exact ⟨_, ⟨rfl, hitem⟩, (ih (Table.find?_put_self _ _ _)).mpr hrest⟩

theorem completes_firstOrder {clientId inventoryId : Uuid} {order : OnboardingOrder} :
    Completes (firstOrder env clientId inventoryId order) s ↔ OrderAdmitted env s order := by
  rw [firstOrder, availableProducts, getByIds, Completes, wp_bind, wp_bind, wp_ask_alone]
  change wp Regime.serial (do
    raiseIf (S := schema) (((order.items.map Prod.fst).filter fun id =>
      ((catalog s order).lookup id).isNone) ≠ []) _
    ret (catalog s order)) _ _ s ↔ _
  have hmissing : (order.items.map Prod.fst).filter
      (fun id => ((catalog s order).lookup id).isNone) = [] ↔
        ∀ i ∈ order.items, (s.products.find? i.1).any Product.isActive = true := by
    rw [List.filter_eq_nil_iff, List.forall_mem_map]
    refine forall₂_congr fun i hi => ?_
    rw [Bool.not_eq_true, lookup_catalog (List.mem_map_of_mem hi)]
  rw [wp_bind, wp_raiseIf_alone, not_not, hmissing, wp_ret, wp_bind, wp_execute_alone]
  change _ ∧ (∃ r, OrderStmt.exec _ (s.orders.find? (env.uuid 2 0)) = .ok r ∧ Completes _ _) ↔ _
  cases hfind : s.orders.find? (env.uuid 2 0) with
  | some o =>
    constructor
    · rintro ⟨-, r, hr, -⟩
      cases hr
    · intro h
      cases hfind.symm.trans h.fresh
  | none =>
    simp only [OrderStmt.exec, checked_eq_ok, List.forall_mem_cons, List.not_mem_nil]
    constructor
    · rintro ⟨hactive, r, ⟨rfl, htotal, -⟩, hlines⟩
      exact ⟨hactive, hfind, htotal, (completes_addLines (Table.find?_put_self _ _ _)).mp hlines⟩
    · intro h
      refine ⟨h.products_active, _, ⟨rfl, h.total_fits, rfl, fun _ hc => hc.elim⟩, ?_⟩
      exact (completes_addLines (Table.find?_put_self _ _ _)).mpr h.lines_ok

/-- The containers and the first order do not get in each other's way. -/
theorem completes_firstMovements {data : ClientOnboardingRequest} (creatorId : Uuid)
    {inventory : Inventory} (hnew : s.directory.inventory? (env.uuid 0 2) = some inventory)
    (hphysical : s.directory.isPhysical (env.uuid 0 2) = true) :
    Completes (firstMovements env data creatorId) s ↔
      (0 < data.initialBalanceQuantity → ∀ productId,
        data.initialBalanceProductId = some productId →
          ∃ vendor, TareAdmitted env s productId data.initialBalanceQuantity vendor) ∧
      ∀ order, data.order = some order → OrderAdmitted env s order := by
  have hquiet : Quiet StockStmt (Prog.whenever (S := schema) (0 < data.initialBalanceQuantity) <|
      whenSome data.initialBalanceProductId fun p =>
        enterInitialBalance env 1 (env.uuid 0 2) [(p, data.initialBalanceQuantity)] creatorId) :=
    (within_whenever _ _).mpr fun _ => (within_whenSome _ _).mpr fun _ _ =>
      enterInitialBalance_quiet _ _ _ _ _
  -- the containers leave the products and the orders as they are
  have horder : ∀ b st sx, Completes (whenSome data.order
      (firstOrder env (env.uuid 0 0) (env.uuid 0 2)))
        { s with balances := b, stockTransfers := st, stockTransactions := sx } ↔
      ∀ order, data.order = some order → OrderAdmitted env s order := by
    intro b st sx
    rw [Completes, wp_whenSome]
    simp only [implies_true, and_true]
    refine forall₂_congr fun order _ => completes_firstOrder.trans ?_
    exact ⟨fun h => h.of_same rfl rfl, fun h => h.of_same rfl rfl⟩
  have htare : Completes (Prog.whenever (S := schema) (0 < data.initialBalanceQuantity) <|
      whenSome data.initialBalanceProductId fun p =>
        enterInitialBalance env 1 (env.uuid 0 2) [(p, data.initialBalanceQuantity)] creatorId) s ↔
      (0 < data.initialBalanceQuantity → ∀ productId,
        data.initialBalanceProductId = some productId →
          ∃ vendor, TareAdmitted env s productId data.initialBalanceQuantity vendor) := by
    rw [Completes, wp_whenever]
    simp only [wp_whenSome, implies_true, and_true]
    refine forall_congr' fun hpos => forall₂_congr fun productId _ => ?_
    exact completes_enterInitialBalance creatorId hpos hnew hphysical
  have hsame : wp Regime.serial (Prog.whenever (S := schema) (0 < data.initialBalanceQuantity) <|
      whenSome data.initialBalanceProductId fun p =>
        enterInitialBalance env 1 (env.uuid 0 2) [(p, data.initialBalanceQuantity)] creatorId)
      (fun _ s' => Completes (whenSome data.order
        (firstOrder env (env.uuid 0 0) (env.uuid 0 2))) s' ↔
          ∀ order, data.order = some order → OrderAdmitted env s order) (fun _ => True) s :=
    wp_stock Tame.serial hquiet fun _ b st sx => horder b st sx
  rw [firstMovements, Completes, wp_bind, ← htare, ← wp_const_iff]
  constructor
  · intro h
    exact wp_mono _ (wp_and _ h hsame) (fun _ _ h' => h'.2.mp h'.1) fun _ he => he.1
  · intro h
    exact wp_mono _ (wp_and _ h hsame) (fun _ _ h' => h'.2.mpr h'.1) fun _ he => he.1

end Orders

/-! ## Which clients are stored -/

/-- The tables admit a new client with its account. -/
structure ClientAdmitted (env : Env) (r : Registry) (username : String) : Prop where
  /-- The name fits its column. -/
  username_fits : fits 255 (some username) = true
  /-- The user's identifier is free. -/
  user_fresh : r.db.users.find? (env.uuid 0 0) = none
  /-- The account's name, which is longer, fits its column. -/
  account_fits : fits 255 (some s!"Лицевой счет клиента: {username}") = true
  /-- The account's identifier is free. -/
  account_fresh : r.db.directory.account? (env.uuid 0 1) = none

/-- The tables admit an address of a new client. -/
structure AddressAdmitted (env : Env) (r : Registry) (name : String) : Prop where
  /-- The name fits its column. -/
  name_fits : fits 255 (some name) = true
  /-- The inventory's identifier is free. -/
  inventory_fresh : r.db.directory.inventory? (env.uuid 0 2) = none

/-- The tables admit a client without a phone number that is created. -/
structure CreateAdmitted (env : Env) (data : ClientCreate) (r : Registry) : Prop where
  /-- The client and its account. -/
  client : ClientAdmitted env r data.username
  /-- The first address, if it has a name. -/
  address : ∀ name, data.addressName = some name → name ≠ "" → AddressAdmitted env r name

/-- The tables admit a client without a phone number that is onboarded. -/
structure OnboardAdmitted (env : Env) (data : ClientOnboardingRequest) (r : Registry) : Prop where
  /-- The client and its account. -/
  client : ClientAdmitted env r data.username
  /-- The address. -/
  address : AddressAdmitted env r data.addressName
  /-- The containers, if there are any. -/
  tare : 0 < data.initialBalanceQuantity → ∀ productId,
    data.initialBalanceProductId = some productId →
      ∃ vendor, TareAdmitted env r.db productId data.initialBalanceQuantity vendor
  /-- The first order, if there is one. -/
  order : ∀ order, data.order = some order → OrderAdmitted env r.db order

section Stored

variable {env : Env} {r r' : Registry}

/-- The registry with a client without a phone number and its account. -/
def withClient (env : Env) (username : String) (role : Role) (r : Registry) : Registry :=
  { r with db := { r.db with
    users := r.db.users.put (env.uuid 0 0) (some ⟨role, true, username⟩)
    directory := { r.db.directory with
      accounts := r.db.directory.accounts ++ [⟨env.uuid 0 1, env.uuid 0 0, .client, true, env.now,
        s!"Лицевой счет клиента: {username}"⟩] }
    accountBalances := r.db.accountBalances.put (env.uuid 0 1) (some 0) } }

/-- The registry with an address of the client. -/
def withAddress (env : Env) (name : String) (r : Registry) : Registry :=
  { r with db := { r.db with
    directory := { r.db.directory with
      inventories := r.db.directory.inventories ++
        [⟨env.uuid 0 2, some (env.uuid 0 0), .client, true, name⟩] } } }

/-- A command on a client without a phone number goes on from the registry with the client. -/
theorem withClient_steps {username : String} {role : Role} {f : Registry → Except Err Registry} :
    (do
      checkPhone none r
      let r ← addClient env username role none r
      let r ← addAccount (env.uuid 0 1) (env.uuid 0 0) s!"Лицевой счет клиента: {username}"
        env.now r
      f r) = .ok r' ↔
      ClientAdmitted env r username ∧ f (withClient env username role r) = .ok r' := by
  simp only [checkPhone, addClient, addUser, addAccount, bind_eq_ok, require_eq_ok,
    Option.isNone_iff_eq_none]
  constructor
  · rintro ⟨-, -, r₁, ⟨r₂, ⟨-, hname, -, huser, h₂⟩, h₁⟩, r₃, ⟨-, haccount, -, hfresh, h₃⟩, h⟩
    cases h₂
    cases h₁
    cases h₃
    exact ⟨⟨hname, huser, haccount, hfresh⟩, h⟩
  · rintro ⟨hadmitted, h⟩
    exact ⟨(), trivial, _,
      ⟨_, ⟨(), hadmitted.username_fits, (), hadmitted.user_fresh, rfl⟩, rfl⟩, _,
      ⟨(), hadmitted.account_fits, (), hadmitted.account_fresh, rfl⟩, h⟩

theorem addInventory_eq_ok {name : String} :
    addInventory (env.uuid 0 2) (env.uuid 0 0) name r = .ok r' ↔
      AddressAdmitted env r name ∧ r' = withAddress env name r := by
  simp only [addInventory, bind_eq_ok, require_eq_ok, Option.isNone_iff_eq_none]
  constructor
  · rintro ⟨-, hname, -, hfresh, h⟩
    cases h
    exact ⟨⟨hname, hfresh⟩, rfl⟩
  · rintro ⟨h, rfl⟩
    exact ⟨(), h.name_fits, (), h.inventory_fresh, rfl⟩

/-- The address of the client is found. -/
theorem withAddress_inventory? {name : String}
    (hfresh : r.db.directory.inventory? (env.uuid 0 2) = none) :
    (withAddress env name r).db.directory.inventory? (env.uuid 0 2) =
      some ⟨env.uuid 0 2, some (env.uuid 0 0), .client, true, name⟩ := by
  rw [Directory.inventory?] at hfresh
  rw [Directory.inventory?, withAddress, List.find?_append, hfresh, Option.none_or]
  simp

theorem withAddress_isPhysical {name : String} :
    (withAddress env name r).db.directory.isPhysical (env.uuid 0 2) = true := by
  rw [Directory.isPhysical, withAddress, List.any_append]
  simp

/-- The containers are admitted into the new address as the registry was before. -/
theorem tareAdmitted_withAddress {username name : String} {role : Role} {productId : Uuid}
    {quantity : ℤ} {vendor : Inventory} :
    TareAdmitted env (withAddress env name (withClient env username role r)).db productId quantity
        vendor ↔ TareAdmitted env r.db productId quantity vendor := by
  have hvendors : vendors (withAddress env name (withClient env username role r)).db.directory =
      vendors r.db.directory := by
    rw [vendors, withAddress, List.filter_append]
    simp [vendors, withClient]
  have hphysical : vendor.id ≠ env.uuid 0 2 →
      (withAddress env name (withClient env username role r)).db.directory.isPhysical vendor.id =
        r.db.directory.isPhysical vendor.id := by
    intro hne
    rw [Directory.isPhysical, withAddress, List.any_append]
    simp [Directory.isPhysical, withClient, hne.symm]
  constructor
  · intro h
    have hroute := h.balances_fit.route
    refine ⟨hvendors ▸ h.vendors_eq, h.transfer_fresh, h.quantity_fits, h.product_isSome,
      h.movement_fresh, ⟨hroute, h.balances_fit.source, h.balances_fit.target⟩, fun hv => ?_,
      h.client_nonneg⟩
    exact h.vendor_covers ((hphysical hroute).trans hv)
  · intro h
    have hroute := h.balances_fit.route
    refine ⟨hvendors.trans h.vendors_eq, h.transfer_fresh, h.quantity_fits, h.product_isSome,
      h.movement_fresh, ⟨hroute, h.balances_fit.source, h.balances_fit.target⟩, fun hv => ?_,
      h.client_nonneg⟩
    exact h.vendor_covers ((hphysical hroute).symm.trans hv)

/-- The containers and the first order of a new client, told by the registry before it. -/
theorem completes_withAddress {data : ClientOnboardingRequest} (creatorId : Uuid)
    (hfresh : r.db.directory.inventory? (env.uuid 0 2) = none) :
    Completes (firstMovements env data creatorId)
        (withAddress env data.addressName (withClient env data.username data.role r)).db ↔
      (0 < data.initialBalanceQuantity → ∀ productId,
        data.initialBalanceProductId = some productId →
          ∃ vendor, TareAdmitted env r.db productId data.initialBalanceQuantity vendor) ∧
      ∀ order, data.order = some order → OrderAdmitted env r.db order := by
  have hnew : (withAddress env data.addressName
      (withClient env data.username data.role r)).db.directory.inventory? (env.uuid 0 2) = _ :=
    withAddress_inventory? hfresh
  rw [completes_firstMovements creatorId hnew withAddress_isPhysical]
  simp only [tareAdmitted_withAddress]
  refine and_congr_right fun _ => forall₂_congr fun order _ => ?_
  exact ⟨fun h => h.of_same rfl rfl, fun h => h.of_same rfl rfl⟩

/-- A client without a phone number is created exactly if the tables admit it. -/
theorem createClient_stored_iff {data : ClientCreate} (hphone : data.phone = none) :
    (∃ r', createClient env data r = .ok r') ↔ CreateAdmitted env data r := by
  have hadmitted : ∀ name, AddressAdmitted env (withClient env data.username data.role r) name ↔
      AddressAdmitted env r name :=
    fun name => ⟨fun h => ⟨h.name_fits, h.inventory_fresh⟩,
      fun h => ⟨h.name_fits, h.inventory_fresh⟩⟩
  rw [createClient, hphone]
  simp only [withClient_steps]
  constructor
  · rintro ⟨r', hclient, h⟩
    refine ⟨hclient, fun name hname hne => ?_⟩
    rw [hname, Option.filter_some, if_pos (decide_eq_true hne)] at h
    exact (hadmitted name).mp (addInventory_eq_ok.mp h).1
  · intro h
    cases hname : data.addressName.filter fun name => name ≠ "" with
    | none => exact ⟨_, h.client, rfl⟩
    | some name =>
      obtain ⟨hname, hne⟩ := Option.filter_eq_some_iff.mp hname
      have haddress := (hadmitted name).mpr (h.address name hname (of_decide_eq_true hne))
      exact ⟨_, h.client, addInventory_eq_ok.mpr ⟨haddress, rfl⟩⟩

/-- A client without a phone number is onboarded exactly if the tables admit it. -/
theorem onboardClientWithBalance_stored_iff {data : ClientOnboardingRequest} {creatorId : Uuid}
    (hphone : data.phone = none) :
    (∃ r', onboardClientWithBalance env data creatorId r = .ok r') ↔
      OnboardAdmitted env data r := by
  rw [onboardClientWithBalance, hphone]
  simp only [withClient_steps]
  simp only [bind_eq_ok, addInventory_eq_ok]
  constructor
  · rintro ⟨r', hclient, r₃, ⟨haddress, rfl⟩, h⟩
    obtain ⟨u, hrun⟩ := runOn_ok h
    have hfresh : r.db.directory.inventory? (env.uuid 0 2) = none := haddress.inventory_fresh
    obtain ⟨htare, horder⟩ := (completes_withAddress creatorId hfresh).mp
      (completes_iff.mpr ⟨u, _, hrun⟩)
    exact ⟨hclient, ⟨haddress.name_fits, hfresh⟩, htare, horder⟩
  · intro h
    have hfresh := h.address.inventory_fresh
    have hcompletes := (completes_withAddress creatorId hfresh).mpr ⟨h.tare, h.order⟩
    obtain ⟨u, s', hrun⟩ := completes_iff.mp hcompletes
    have hstored : runOn (firstMovements env data creatorId)
        (withAddress env data.addressName (withClient env data.username data.role r)) =
          .ok { r with db := s' } := by
      rw [runOn, hrun]
      rfl
    exact ⟨_, h.client, _, ⟨⟨h.address.name_fits, hfresh⟩, rfl⟩, hstored⟩

end Stored

end Munavvar.ClientAdmission
