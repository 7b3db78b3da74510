import Munavvar.Footprints
import Munavvar.OrderChanges

/-!
# The effect of the order service

Every operation of the order service changes at most one order, or cancels some,
moves the quota counters with what the orders hold and posts the transactions
of an order exactly when it becomes settled. Each part of an operation has one
rule, and the operations' rules are put together from them.
-/

namespace Munavvar.OrderEffects

open Munavvar.KeyedTable
open Munavvar.Transaction
open Munavvar.Transaction.Prog
open Munavvar.Database
open Munavvar.Statements
open Munavvar.StockLedger
open Munavvar.FinancialLedger
open Munavvar.OrderQueries
open Munavvar.Quota
open Munavvar.Fulfillment
open Munavvar.OrderService
open Munavvar.Operations
open Munavvar.OrderChanges
open Munavvar.Footprints
open Munavvar.Bag (amount)

/-! ## Parts that only read or only move stock -/

section Within

variable {P : (k : Key) → Stmt k → Prop}

/-- Neither reads nor stock movements raise the exception of a failed release. -/
abbrev Quiet (P : (k : Key) → Stmt k → Prop) {α : Type} (p : Uow α) : Prop :=
  Within (S := schema) P (fun e => e.isQuotaLeak = false) p

theorem scalarOneOrNone_quiet {V : Type} (l : List V) : Quiet P (scalarOneOrNone l) :=
  scalarOneOrNone_within (by rfl) l

theorem getVendorInventory_quiet : Quiet P getVendorInventory := by
  refine within_bind (within_ask _) fun d => ?_
  exact within_bind (scalarOneOrNone_quiet _) fun i => (within_orRaise _ _).mpr fun _ => rfl

theorem getCourierInventory_quiet (courierId : Uuid) : Quiet P (getCourierInventory courierId) :=
  within_bind (within_ask _) fun _ => scalarOneOrNone_quiet _

theorem getClientInventory_quiet (userId : Uuid) : Quiet P (getClientInventory userId) :=
  within_bind (within_ask _) fun _ => trivial

theorem getCourier_quiet (id : Uuid) : Quiet P (getCourier id) :=
  within_bind (within_ask _) fun _ => trivial

theorem getClient_quiet (id : Uuid) : Quiet P (getClient id) :=
  within_bind (within_ask _) fun _ => (within_orRaise _ _).mpr fun _ => rfl

theorem availableProducts_quiet (ids : List Uuid) : Quiet P (availableProducts ids) :=
  within_bind (within_ask _) fun _ =>
    within_bind ((within_raiseIf _ _).mpr fun _ => rfl) fun _ => trivial

theorem createStockTransfer_quiet (env : Env) (n : ℕ) (fromId toId : Uuid) (type : TransferType)
    (items : List (Uuid × ℤ)) (createdById : Uuid) (acceptedById orderId : Option Uuid)
    (reason : Option String) :
    Quiet StockStmt
      (createStockTransfer env n fromId toId type items createdById acceptedById orderId reason) :=
  createStockTransfer_within (fun _ => rfl) (fun _ => rfl) _ _ _ _ _ _ _ _ _ _

theorem exchangeTara_quiet (env : Env) (inventoryId : Uuid) (items : List Item)
    (exchange : List ExchangeItem) (capitalize : Bool) (createdById : Uuid) :
    Quiet StockStmt (exchangeTara env inventoryId items exchange capitalize createdById) := by
  unfold exchangeTara
  split
  · exact trivial
  · refine within_bind (getInventoryWithBalances_within _ _ _) fun inventory => ?_
    refine within_bind ((within_orRaise _ _).mpr fun _ => rfl) fun x => ?_
    refine within_bind ((within_raiseIf _ _).mpr fun _ => rfl) fun _ => ?_
    refine within_bind ((within_whenever _ _).mpr fun _ => ?_) fun _ => trivial
    exact within_bind getVendorInventory_quiet fun _ => createStockTransfer_quiet _ _ _ _ _ _ _ _ _ _

theorem deliverStock_quiet (env : Env) (orderId : Uuid) (o : Order) (courierId : Uuid) :
    Quiet StockStmt (deliverStock env orderId o courierId) :=
  deliverStock_within (by rfl) (fun _ => rfl) (fun _ => rfl) (fun _ => rfl) (fun _ => rfl) _ _ _ _

theorem pickUpStock_quiet (env : Env) (orderId : Uuid) (o : Order)
    (warehouseId completedById : Uuid) :
    Quiet StockStmt (pickUpStock env orderId o warehouseId completedById) := by
  refine within_bind (getInventoryWithBalances_within _ _ _) fun inventory => ?_
  refine within_bind ((within_orRaise _ _).mpr fun _ => rfl) fun x => ?_
  refine within_bind ((within_raiseIf _ _).mpr fun _ => rfl) fun _ => ?_
  refine within_bind (within_ask _) fun returnable => ?_
  refine within_bind ((within_whenever _ _).mpr fun _ => ?_) fun _ => ?_
  · exact within_bind getVendorInventory_quiet fun _ => createStockTransfer_quiet _ _ _ _ _ _ _ _ _ _
  · refine within_bind (createStockTransfer_quiet _ _ _ _ _ _ _ _ _ _) fun _ => ?_
    exact (within_whenever _ _).mpr fun _ => createStockTransfer_quiet _ _ _ _ _ _ _ _ _ _

/-- Statements that the balance trigger of the accounts issues. -/
def AccountStmt : (k : Key) → Stmt k → Prop
  | .account _, _ => True
  | _, _ => False

theorem postTransaction_quiet (row : FinancialTransaction) :
    Quiet AccountStmt (do checkReferences row; updateAccountBalances none row) :=
  postTransaction_within (fun _ _ => trivial) (fun _ => rfl) (fun _ => rfl) row

end Within

section Rules

variable {R : Regime schema} {E : Err → Prop} {s : Db}

/-- A part that moves stock changes nothing but the stock ledger. -/
theorem wp_stock (ht : Tame R E) {α : Type} {p : Uow α} (hp : Quiet StockStmt p)
    {Q : α → Db → Prop}
    (hQ : ∀ a balances stockTransfers stockTransactions,
      Q a { s with balances, stockTransfers, stockTransactions }) : wp R p Q E s := by
  refine wp_within ht hp (fun k st hst => ?_) fun a s' hframe => ?_
  · cases k <;> first | exact hst.elim | exact not_false
  · obtain ⟨b, t, x, rfl⟩ := sameButStock_of_frame hframe
    exact hQ a b t x

/-! ## Settlement -/

theorem appended_put {t t' : Table Uuid FinancialTransaction} {rows : List FinancialTransaction}
    (h : Appended t t' rows) {id : Uuid} (hid : t'.find? id = none) (row : FinancialTransaction) :
    Appended t (t'.put id (some row)) (rows ++ [row]) := by
  intro p
  rw [List.filter_append, ← List.append_assoc, ← h p]
  cases hp : p row with
  | true => rw [Table.select_put_new hid hp, List.filter_cons_of_pos hp, List.filter_nil]
  | false =>
    rw [List.filter_cons_of_neg (by simp [hp]), List.filter_nil, List.append_nil]
    refine Table.select_put_of_not (fun v hv => ?_) fun v hv => ?_
    · exact absurd (hid.symm.trans hv) (by simp)
    · rw [← Option.some.inj hv, hp]

/-- Inserting transactions appends them and moves account balances. -/
theorem wp_insertTransactions (ht : Tame R E) (rows : List (Uuid × FinancialTransaction))
    {Q : Unit → Db → Prop}
    (hQ : ∀ transactions accountBalances,
      Appended s.transactions transactions (rows.map Prod.snd) →
      Q () { s with transactions, accountBalances }) :
    wp R (insertTransactions rows) Q E s := by
  rw [insertTransactions, wp_bind]
  refine wp_loop (fun done s' => ∃ t, Appended s.transactions t (done.map Prod.snd) ∧
    s' = { s with transactions := t }) ⟨s.transactions, appended_nil _, rfl⟩ ?_ ?_
  · rintro done x todo _ - ⟨t, happended, rfl⟩
    refine wp_issue ht (k := .transaction x.1) (by exact not_false) fun _ r hr => ?_
    change (FinancialStmt.insert x.2).exec (t.find? x.1) = .ok r at hr
    cases hid : t.find? x.1 with
    | some old =>
      rw [hid] at hr
      cases hr
    | none =>
      rw [hid] at hr
      obtain ⟨rfl, -⟩ := checked_ok hr
      refine ⟨_, ?_, rfl⟩
      rw [List.map_append]
      exact appended_put happended hid x.2
  · rintro _ ⟨t, happended, rfl⟩
    have hquiet : Quiet AccountStmt (forEach rows fun x => do
        checkReferences x.2
        updateAccountBalances none x.2) := within_forEach fun x => postTransaction_quiet x.2
    refine wp_within ht hquiet (fun k st hst => ?_) fun _ s' hframe => ?_
    · cases k <;> first | exact hst.elim | exact not_false
    · have hbalances : ∃ b, s' = { s with transactions := t, accountBalances := b } := by
        refine hframe.induction (I := fun s' =>
          ∃ b, s' = { s with transactions := t, accountBalances := b }) ⟨s.accountBalances, rfl⟩ ?_
        rintro _ k st r hst ⟨b, rfl⟩
        cases k with
        | account id => exact ⟨_, rfl⟩
        | _ => exact hst.elim
      obtain ⟨b, rfl⟩ := hbalances
      exact hQ t b happended

/-- Settling posts the debt and the payment. -/
theorem wp_settle (ht : Tame R E) (env : Env) (id : Uuid) (o : Order)
    (missingClient debtReason : String)
    (payment : Directory → Account → Except Err (List FinancialTransaction))
    (hpayment : ∀ d a e, payment d a = .error e → e.isQuotaLeak = false)
    {Q : Unit → Db → Prop}
    (hQ : ∀ transactions accountBalances client revenue payments,
      s.directory.clientAccount o.clientId = some client →
      s.directory.systemRevenueAccount = some revenue →
      payment s.directory client = .ok payments →
      Appended s.transactions transactions
        (settlementTransaction env id o revenue client .completed debtReason :: payments) →
      Q () { s with transactions, accountBalances }) :
    wp R (settle env id o missingClient debtReason payment) Q E s := by
  rw [settle, wp_bind, wp_ask]
  intro v hv
  have hd : v.directory = s.directory := ht.sound _ _ hv
  simp only [hd, wp_bind, wp_orRaise, wp_fromExcept]
  refine ⟨fun _ => ht.err _ rfl, fun client hclient => ⟨fun _ => ht.err _ rfl, fun revenue hrevenue => ?_⟩⟩
  refine ⟨fun e he => ht.err _ (hpayment _ _ _ he), fun payments hpayments => ?_⟩
  refine wp_insertTransactions ht _ fun t b happended => ?_
  have hrows : ∀ rows : List FinancialTransaction,
      (rows.zipIdx.map fun x => (env.uuid 9 x.2, x.1)).map Prod.snd = rows := by
    intro rows
    rw [List.map_map]
    exact List.zipIdx_map_fst 0 rows
  rw [hrows] at happended
  exact hQ t b client revenue payments hclient hrevenue hpayments happended

theorem cardPayment_error {env : Env} {id : Uuid} {o : Order} {reason : String} {d : Directory}
    {a : Account} {e : Err} (h : cardPayment env id o reason d a = .error e) :
    e.isQuotaLeak = false := by
  unfold cardPayment at h
  split at h <;> cases h
  rfl

theorem deliveryPayment_error {env : Env} {id : Uuid} {o : Order} {d : Directory} {a : Account}
    {e : Err} (h : deliveryPayment env id o d a = .error e) : e.isQuotaLeak = false := by
  unfold deliveryPayment at h
  split at h
  · split at h <;> cases h
    rfl
  · cases h
  · exact cardPayment_error h
  · cases h

theorem pickupPayment_error {env : Env} {id : Uuid} {o : Order} {d : Directory} {a : Account}
    {e : Err} (h : pickupPayment env id o d a = .error e) : e.isQuotaLeak = false := by
  unfold pickupPayment at h
  split at h
  · split at h <;> cases h
    rfl
  · exact cardPayment_error h
  · cases h

theorem wp_processFinancialSettlement (ht : Tame R E) (env : Env) (id : Uuid) {o : Order}
    (hsale : o.saleType = .delivery) {Q : Unit → Db → Prop}
    (hQ : ∀ transactions accountBalances rows, Settlement env s.directory id o rows →
      Appended s.transactions transactions rows → Q () { s with transactions, accountBalances }) :
    wp R (processFinancialSettlement env id o) Q E s := by
  refine wp_settle ht env id o _ _ _ (fun _ _ _ h => deliveryPayment_error h) ?_
  intro t b client revenue payments hclient hrevenue hpayments happended
  refine hQ t b _ ⟨client, revenue, payments, _, hclient, hrevenue, ?_, rfl⟩ happended
  rw [hsale]
  exact hpayments

theorem wp_processPickupSettlement (ht : Tame R E) (env : Env) (id : Uuid) {o : Order}
    (hsale : o.saleType = .warehousePickup) {Q : Unit → Db → Prop}
    (hQ : ∀ transactions accountBalances rows, Settlement env s.directory id o rows →
      Appended s.transactions transactions rows → Q () { s with transactions, accountBalances }) :
    wp R (processPickupSettlement env id o) Q E s := by
  refine wp_settle ht env id o _ _ _ (fun _ _ _ h => pickupPayment_error h) ?_
  intro t b client revenue payments hclient hrevenue hpayments happended
  refine hQ t b _ ⟨client, revenue, payments, _, hclient, hrevenue, ?_, rfl⟩ happended
  rw [hsale]
  exact hpayments

/-- A pickup moves stock and posts its settlement. -/
theorem wp_handleWarehousePickup (ht : Tame R E) (env : Env) (id : Uuid) {o : Order}
    (completedById : Uuid) (hsale : o.saleType = .warehousePickup) {Q : Unit → Db → Prop}
    (hQ : ∀ balances stockTransfers stockTransactions transactions accountBalances rows,
      Settlement env s.directory id o rows → Appended s.transactions transactions rows →
      Q () { s with balances, stockTransfers, stockTransactions, transactions, accountBalances }) :
    wp R (handleWarehousePickup env id o completedById) Q E s := by
  rw [handleWarehousePickup, wp_bind]
  refine wp_required ht rfl fun warehouseId _ => ?_
  rw [wp_bind]
  refine wp_stock ht (pickUpStock_quiet env id o warehouseId completedById) fun _ b st sx => ?_
  exact wp_processPickupSettlement ht env id hsale fun t a rows => hQ b st sx t a rows

/-! ## New orders -/

/-- The locking read of a client's active contract returns a current row. -/
theorem wp_getActiveForClientLocked (ht : Tame R E) (clientId : Uuid)
    {Q : Option (Uuid × Contract) → Db → Prop}
    (hQ : ∀ x, (∀ c k, x = some (c, k) → s.contracts.find? c = some k ∧ k.clientId = clientId ∧
      k.status = .active ∧ k.isActive = true) → Q x s) :
    wp R (getActiveForClientLocked clientId) Q E s := by
  rw [getActiveForClientLocked, wp_bind, wp_ask]
  intro v _
  rw [wp_bind]
  refine wp_collect_reads (R := R) (fun id => (id, (s.contracts.find? id).filter fun c =>
    c.clientId = clientId && c.status = .active && c.isActive)) ?_ ?_
  · exact fun id _ Q hQ => hQ
  have hrow : ∀ (ids : List Uuid) (c : Uuid) (k : Contract),
      (c, k) ∈ (ids.map fun id => (id, (s.contracts.find? id).filter fun c =>
        c.clientId = clientId && c.status = .active && c.isActive)).filterMap
          (fun r => r.2.map (Prod.mk r.1)) →
      s.contracts.find? c = some k ∧ k.clientId = clientId ∧ k.status = .active ∧
        k.isActive = true := by
    intro ids c k hmem
    obtain ⟨r, hr, hck⟩ := List.mem_filterMap.mp hmem
    obtain ⟨id, -, rfl⟩ := List.mem_map.mp hr
    obtain ⟨k', hk', heq⟩ := Option.map_eq_some_iff.mp hck
    cases heq
    obtain ⟨hfind, hmatch⟩ := Option.filter_eq_some_iff.mp hk'
    rw [Bool.and_eq_true, Bool.and_eq_true, decide_eq_true_eq, decide_eq_true_eq] at hmatch
    exact ⟨hfind, hmatch.1.1, hmatch.1.2, hmatch.2⟩
  have hrow := hrow ((v.contracts.rows.filter fun r =>
    r.2.clientId = clientId && r.2.status = .active && r.2.isActive).map Prod.fst)
  revert hrow
  generalize List.filterMap _ _ = l
  intro hrow
  match l with
  | [] => exact hQ none fun _ _ h => absurd h (by simp)
  | [x] =>
    refine hQ (some x) fun c k h => hrow c k ?_
    rw [Option.some.inj h]
    exact List.mem_singleton_self _
  | _ :: _ :: _ => exact ht.err _ rfl

/-- The contract of a new order is an active one of the client that has not
ended; its price items are current and cover the cart. -/
theorem wp_termsInForce (ht : Tame R E) (env : Env) (clientId : Uuid) (role : Role)
    (paymentMethod : PaymentMethod) (productIds : List Uuid)
    {Q : Option (Uuid × List (Uuid × PriceItem)) → Db → Prop}
    (hnone : paymentMethod ≠ .contract → Q none s)
    (hsome : ∀ c k items, paymentMethod = .contract →
      (s.contracts.find? c = some k ∧ k.clientId = clientId ∧ k.status = .active ∧
        k.isActive = true) →
      ¬ (k.endDate.any fun endDate => endDate < dateOf env.now) = true →
      (∀ x ∈ items, s.priceItems.find? (c, x.1) = some x.2 ∧ x.2.isActive = true) →
      (∀ p ∈ productIds, (items.lookup p).isSome = true) → Q (some (c, items)) s) :
    wp R (contractTerms env clientId role paymentMethod productIds) Q E s := by
  unfold contractTerms
  split
  · next hmethod =>
    rw [wp_bind, getAndValidateContractLocked, wp_bind]
    refine wp_check ht rfl fun _ => ?_
    rw [wp_bind]
    refine wp_getActiveForClientLocked ht clientId fun found hfound => ?_
    rw [wp_bind, wp_orRaise]
    refine ⟨fun _ => ht.err _ rfl, ?_⟩
    rintro ⟨c, contract⟩ rfl
    have hcontract := hfound c contract rfl
    rw [wp_bind]
    refine wp_check ht rfl fun _ => ?_
    rw [wp_bind]
    refine wp_check ht rfl fun hended => ?_
    rw [wp_ret, wp_bind]
    refine wp_getForProductsLocked c productIds fun items hitems => ?_
    rw [wp_bind, wp_whenSome]
    refine ⟨fun p _ => ht.err _ rfl, fun hmissing => ?_⟩
    refine hsome c contract items hmethod hcontract hended (fun x hx => (hitems x hx).2) fun p hp => ?_
    have hmem := List.find?_eq_none.mp hmissing p hp
    simpa using hmem
  · next hmethod => exact hnone hmethod

/-- The contract of a new order is an active one of the client; its price items
are current and cover the cart. -/
theorem wp_contractTerms (ht : Tame R E) (env : Env) (clientId : Uuid) (role : Role)
    (paymentMethod : PaymentMethod) (productIds : List Uuid)
    {Q : Option (Uuid × List (Uuid × PriceItem)) → Db → Prop}
    (hnone : paymentMethod ≠ .contract → Q none s)
    (hsome : ∀ c k items, paymentMethod = .contract →
      (s.contracts.find? c = some k ∧ k.clientId = clientId ∧ k.status = .active ∧
        k.isActive = true) →
      (∀ x ∈ items, s.priceItems.find? (c, x.1) = some x.2 ∧ x.2.isActive = true) →
      (∀ p ∈ productIds, (items.lookup p).isSome = true) → Q (some (c, items)) s) :
    wp R (contractTerms env clientId role paymentMethod productIds) Q E s :=
  wp_termsInForce ht env clientId role paymentMethod productIds hnone
    fun c k items hmethod hcontract _ => hsome c k items hmethod hcontract

/-- A new order is stored with its lines, which satisfy their constraints. -/
theorem wp_insertOrderWithItems (ht : Tame R E) {id : Uuid} {o : Order} {items : List OrderItem}
    (hempty : o.items = []) {Q : Unit → Db → Prop}
    (hQ : ∀ orders, s.orders.find? id = none → (∀ i ∈ items, LineOk i) →
      s.orders.Written orders id (some { o with items := items }) → Q () { s with orders }) :
    wp R (insertOrder id o items) Q E s := by
  rw [insertOrder, wp_bind]
  refine wp_insertOrder ht fun hfresh => ?_
  rw [wp_bind, wp_ask]
  intro v _
  rw [wp_bind]
  refine wp_check ht rfl fun _ => ?_
  refine wp_addOrderItems ht (Table.find?_put_self _ _ _) fun hlines => ?_
  rw [hempty, List.nil_append]
  have hwritten : s.orders.Written (s.orders.put id (some o)) id (some o) :=
    s.orders.written_put id _
  exact hQ _ hfresh hlines (hwritten.put _)

theorem orderItemsData_pairs (price : Uuid → ℤ) (items : List Item) :
    (orderItemsData price items).map OrderItem.pair = items.map Item.pair := by
  rw [orderItemsData, List.map_map]
  rfl

theorem orderItemsData_productIds (price : Uuid → ℤ) (items : List Item) :
    (orderItemsData price items).map OrderItem.productId = items.map Item.productId := by
  rw [orderItemsData, List.map_map]
  rfl

/-- The price of a line whose product is in the contract's price list. -/
theorem priceMap_of_lookup (products : List (Uuid × Product)) {c : Uuid}
    {items : List (Uuid × PriceItem)} {p : Uuid} {row : PriceItem}
    (h : items.lookup p = some row) : priceMap products (some (c, items)) p = row.price := by
  simp [priceMap, h]

/-- A cart that is not empty gives lines. -/
theorem orderItemsData_ne_nil (price : Uuid → ℤ) {items : List Item}
    (h : ¬ items.isEmpty = true) : orderItemsData price items ≠ [] := by
  rw [orderItemsData, ne_eq, List.map_eq_nil_iff, ← List.isEmpty_iff]
  exact h

/-- The client of an order is an active user with a client's role. -/
theorem wp_getClient (ht : Tame R E) (id : Uuid) {Q : User → Db → Prop}
    (hQ : ∀ u, (R.Exact → (s.users.find? id).any (fun u =>
      (u.role = .clientB2B || u.role = .clientB2C) && u.isActive) = true) → Q u s) :
    wp R (getClient id) Q E s := by
  rw [getClient, wp_bind, wp_ask]
  intro v hv
  refine wp_required ht rfl fun u hu => hQ u fun hexact => ?_
  obtain rfl : v = s := hexact _ _ hv
  obtain ⟨hu, hclient⟩ := Option.filter_eq_some_iff.mp hu
  rw [hu, Option.any_some]
  exact hclient

/-- A courier that is found is an active user with the role of a courier. -/
theorem wp_getCourier (id : Uuid) {Q : Option User → Db → Prop}
    (hQ : ∀ courier, (R.Exact → courier.isSome = true → (s.users.find? id).any (fun u =>
      u.role = .courier && u.isActive) = true) → Q courier s) :
    wp R (getCourier id) Q E s := by
  rw [getCourier, wp_bind, wp_ask]
  intro v hv
  refine hQ _ fun hexact hsome => ?_
  obtain rfl : v = s := hexact _ _ hv
  obtain ⟨u, hu⟩ := Option.isSome_iff_exists.mp hsome
  obtain ⟨hu, hcourier⟩ := Option.filter_eq_some_iff.mp hu
  rw [hu, Option.any_some]
  exact hcourier

/-- `create_order` places one order and reserves its lines. -/
theorem createOrder_change (ht : Tame R E) {r : Request} {clientId : Uuid} {dto : OrderCreate}
    (hop : r.op = .createOrder clientId dto) :
    wp R (createOrder r.env clientId dto) (fun _ s' => Change R r s s') E s := by
  rw [createOrder, wp_bind]
  refine wp_check ht rfl fun hcart => ?_
  rw [wp_bind]
  refine wp_check ht rfl fun hnodup => ?_
  have hnodup := not_not.mp hnodup
  rw [wp_bind]
  refine wp_reads ht (availableProducts_quiet _) fun products => ?_
  rw [wp_bind]
  refine wp_getClient ht clientId fun client hclient => ?_
  rw [wp_bind]
  -- what follows the reservation, for any terms whose quota is held
  have hrest : ∀ (terms : Option (Uuid × List (Uuid × PriceItem)))
      (t : Table (Uuid × Uuid) PriceItem),
      (terms.isSome = true ↔ dto.paymentMethod = .contract) →
      (∀ c l, terms = some (c, l) →
        (∃ k, s.contracts.find? c = some k ∧ k.clientId = clientId ∧ k.status = .active ∧
          k.isActive = true) ∧
        ∀ p ∈ dto.items.map Item.productId, ∃ row, l.lookup p = some row ∧
          s.priceItems.find? (c, p) = some row ∧ row.isActive = true) →
      QuotaMoved s.priceItems t
        (fun k => terms.elim 0 fun x => demand x.1 (dto.items.map Item.pair) k) →
      wp R (do
        let capitalizationApplied ← exchangeTara r.env dto.clientInventoryId dto.items
          (exchangeItems products fun id => dto.items.reverse.find? fun i => i.productId = id)
          dto.capitalizeMissingTara clientId
        insertOrder (r.env.uuid 0 0)
          { clientId, clientInventoryId := dto.clientInventoryId, courierId := none,
            paymentMethod := dto.paymentMethod, status := .new,
            totalAmount := lineTotal (orderItemsData (priceMap products terms) dto.items),
            capitalizationApplied, saleType := .delivery, warehouseId := none,
            contractId := terms.map Prod.fst, quantitiesReserved := terms.isSome,
            cancellationReason := none, notes := dto.notes, isActive := true,
            createdAt := r.env.now, updatedAt := r.env.now, items := [], statusLogs := [] }
          (orderItemsData (priceMap products terms) dto.items)
        issue (.order (r.env.uuid 0 0)) (.logTransition ⟨none, .new, some clientId, none⟩))
        (fun _ s' => Change R r s s') E { s with priceItems := t } := by
    intro terms t hterms hbacked hquota
    rw [wp_bind]
    refine wp_stock ht (exchangeTara_quiet _ _ _ _ _ _) fun capitalized b st sx => ?_
    rw [wp_bind]
    refine wp_insertOrderWithItems ht rfl fun orders hfresh hlines hwritten => ?_
    refine wp_logTransition ht hwritten.find?_self ?_
    have hcontract : ∀ o : Order, o.paymentMethod = dto.paymentMethod →
        o.contractId = terms.map Prod.fst → o.contract? = terms.map Prod.fst := by
      intro o hmethod hid
      rw [Order.contract?, hmethod, hid]
      split
      · rfl
      · next hmethod =>
        cases terms with
        | none => rfl
        | some x => exact absurd (hterms.mp rfl) hmethod
    refine ⟨.order (r.env.uuid 0 0) _ [] ?_ (hwritten.put _) ?_ ?_ (appended_nil _) rfl, rfl⟩
    · rw [hfresh]
      refine .placed rfl rfl hlines ?_ rfl ?_ rfl rfl ⟨dto, hop, rfl⟩ ?_ ?_
        (orderItemsData_ne_nil _ hcart) rfl hclient
      · dsimp only
        rw [orderItemsData_productIds]
        exact hnodup
      · rw [hcontract _ rfl rfl, Option.isSome_map]
      · dsimp only
        rw [Option.isSome_map]
        exact hterms.symm
      · intro c hc
        obtain ⟨⟨c', l⟩, rfl, rfl⟩ := Option.map_eq_some_iff.mp hc
        obtain ⟨hactive, hprices⟩ := hbacked c' l rfl
        refine ⟨hactive, fun i hi => ?_⟩
        obtain ⟨j, hj, rfl⟩ := List.mem_map.mp hi
        obtain ⟨row, hlookup, hrow, hisActive⟩ :=
          hprices j.productId (List.mem_map.mpr ⟨j, hj, rfl⟩)
        exact ⟨row, hrow, hisActive, priceMap_of_lookup products hlookup⟩
    · rw [hfresh]
      refine hquota.congr fun k => ?_
      rw [Option.elim_none, sub_zero]
      cases terms with
      | none => exact held_of_not_reserved rfl k
      | some x =>
        rw [held_of_reserved rfl (hcontract _ rfl rfl)]
        dsimp only
        rw [orderItemsData_pairs]
        rfl
    · rw [hfresh, Postings, if_neg (by simp [isSettled])]
  refine wp_contractTerms ht _ _ _ _ _ (fun hmethod => ?_)
    fun c k items hmethod hcontract hitems hall => ?_
  · rw [wp_bind, wp_whenSome]
    refine ⟨fun _ h => absurd h (by simp), fun _ => ?_⟩
    refine hrest none s.priceItems ?_ (fun _ _ h => absurd h (by simp)) (quotaMoved_zero _)
    simpa using hmethod
  · rw [wp_bind, wp_whenSome]
    refine ⟨?_, fun h => absurd h (by simp)⟩
    rintro _ ⟨rfl⟩
    refine wp_checkAndReserveQuantities ht c hitems (fun x hx => ?_) fun t hwithin hreserved => ?_
    · obtain ⟨i, hi, rfl⟩ := List.mem_map.mp hx
      exact hall _ (List.mem_map.mpr ⟨i, hi, rfl⟩)
    · refine hrest (some (c, items)) t (by simpa using hmethod) ?_ ?_
      · rintro _ _ ⟨rfl⟩
        refine ⟨⟨k, hcontract⟩, fun p hp => ?_⟩
        obtain ⟨row, hrow⟩ := Option.isSome_iff_exists.mp (hall p hp)
        obtain ⟨l₁, l₂, hsplit, -⟩ := List.lookup_eq_some_iff.mp hrow
        have hmem : (p, row) ∈ items := hsplit ▸ List.mem_append_right _ List.mem_cons_self
        exact ⟨row, hrow, hitems _ hmem⟩
      · refine quotaMoved_of_reserved ?_ hwithin hreserved
        rw [List.map_map]
        exact hnodup

/-- `get_client_inventory` finds an active inventory of the client. -/
theorem wp_getClientInventory (ht : Tame R E) (userId : Uuid) {Q : Option Inventory → Db → Prop}
    (hQ : ∀ x, (∀ i, x = some i → s.directory.isClientInventory userId i.id = true) → Q x s) :
    wp R (getClientInventory userId) Q E s := by
  rw [getClientInventory, wp_bind, wp_ask]
  intro v hv
  have hd : v.directory = s.directory := ht.sound _ _ hv
  rw [wp_ret, hd]
  refine hQ _ fun i hi => ?_
  have hmem := List.mem_of_find?_eq_some hi
  have hmatch := List.find?_some hi
  rw [Directory.isClientInventory, List.any_eq_true]
  refine ⟨i, hmem, ?_⟩
  simpa using hmatch

/-- `create_warehouse_sale` stores one settled order. -/
theorem createWarehouseSale_changes (ht : Tame R E) {r : Request} {dto : WarehouseSaleCreate}
    {clientId : Option Uuid} {createdById : Uuid}
    (hop : r.op = .createWarehouseSale dto clientId createdById) :
    wp R (createWarehouseSale r.env dto clientId createdById)
      (fun _ s' => Changes R r s s') E s := by
  rw [createWarehouseSale, wp_bind]
  refine wp_check ht rfl fun hcart => ?_
  rw [wp_bind]
  refine wp_reads ht (availableProducts_quiet _) fun products => ?_
  rw [wp_bind]
  refine wp_reads ht (getInventoryWithBalances_within _ _ _) fun warehouse => ?_
  rw [wp_bind]
  refine wp_required ht rfl fun _ _ => ?_
  rw [wp_bind]
  refine wp_getClientInventory ht _ fun found howned => ?_
  rw [wp_bind]
  refine wp_required ht rfl fun clientInventory hfound => ?_
  rw [wp_bind]
  refine wp_stock ht (exchangeTara_quiet _ _ _ _ _ _) fun capitalized b st sx => ?_
  rw [wp_bind]
  refine wp_insertOrderWithItems ht rfl fun orders hfresh hlines hwritten => ?_
  rw [wp_bind]
  refine wp_handleWarehousePickup ht _ _ _ rfl fun b st sx t a rows hsettlement happended => ?_
  refine wp_logTransition ht hwritten.find?_self ?_
  refine Change.single ⟨.order (r.env.uuid 0 0) _ rows ?_ (hwritten.put _) ?_ ?_ happended rfl, rfl⟩
  · rw [hfresh]
    refine .sold rfl rfl hlines rfl rfl rfl rfl rfl ⟨dto, clientId, createdById, hop⟩ rfl
      (howned clientInventory hfound) rfl (orderItemsData_ne_nil _ hcart) fun dto' _ _ hop' => ?_
    cases hop.symm.trans hop'
    exact orderItemsData_productIds _ _
  · rw [hfresh]
    refine (quotaMoved_zero _).congr fun k => ?_
    rw [Option.elim_none, sub_zero]
    exact held_of_not_reserved rfl k
  · rw [hfresh, Postings, if_pos (by simp [isSettled])]
    exact hsettlement

/-! ## Edits -/

theorem wp_getOrderLocked (ht : Tame R E) (id : Uuid) {Q : Order → Db → Prop}
    (hQ : ∀ o, s.orders.find? id = some o → Q o s) : wp R (getOrderLocked id) Q E s := by
  rw [getOrderLocked, wp_bind, wp_locked, wp_orRaise]
  exact ⟨fun _ => ht.err _ rfl, hQ⟩

theorem wp_ensureEditable (ht : Tame R E) (id : Uuid) (o : Order) (u : Option Uuid)
    {Q : Unit → Db → Prop} (hQ : o.status = .new → Q () s) :
    wp R (ensureEditable id o u) Q E s := by
  rw [ensureEditable, wp_bind]
  refine wp_check ht rfl fun _ => ?_
  rw [wp_raiseIf]
  exact ⟨fun _ => ht.err _ rfl, fun h => hQ (not_not.mp h)⟩

/-- The lines of a product: none, one, which is found with its place, or too many. -/
theorem wp_linesOf (o : Order) (productId : Uuid) {Q : Option (OrderItem × ℕ) → Db → Prop}
    (hmany : 1 < (o.items.filter fun i => i.productId = productId).length → E .multipleResultsFound)
    (hnone : (∀ i ∈ o.items, i.productId ≠ productId) → Q none s)
    (hsome : ∀ i index, o.items[index]? = some i → i.productId = productId →
      o.items.filter (fun i => i.productId = productId) = [i] → Q (some (i, index)) s) :
    wp R (getByOrderAndProduct o productId) Q E s := by
  have hfst : (o.items.zipIdx.filter fun x => x.1.productId = productId).map Prod.fst =
      o.items.filter fun i => i.productId = productId := by
    conv_rhs => rw [← List.zipIdx_map_fst 0 o.items, List.filter_map]
    rfl
  unfold getByOrderAndProduct
  cases hlines : o.items.zipIdx.filter (fun x => x.1.productId = productId) with
  | nil =>
    rw [hlines] at hfst
    refine hnone fun i hi hproduct => ?_
    have hmem : i ∈ o.items.filter fun i => i.productId = productId :=
      List.mem_filter.mpr ⟨hi, decide_eq_true hproduct⟩
    rw [← hfst] at hmem
    exact List.not_mem_nil hmem
  | cons x rest =>
    cases rest with
    | cons y rest =>
      apply hmany
      rw [← hfst, hlines, List.length_map, List.length_cons, List.length_cons]
      omega
    | nil =>
      rw [hlines] at hfst
      have hx : x ∈ o.items.zipIdx.filter fun x => x.1.productId = productId := by
        rw [hlines]
        exact List.mem_cons_self
      obtain ⟨hx, hproduct⟩ := List.mem_filter.mp hx
      exact hsome x.1 x.2 (List.mem_zipIdx_iff_getElem?.mp hx) (of_decide_eq_true hproduct)
        hfst.symm

/-- A line is found with its place, and it is the only line of its product. -/
theorem wp_getByOrderAndProduct (ht : Tame R E) (o : Order) (productId : Uuid)
    {Q : Option (OrderItem × ℕ) → Db → Prop}
    (hnone : (∀ i ∈ o.items, i.productId ≠ productId) → Q none s)
    (hsome : ∀ i index, o.items[index]? = some i → i.productId = productId →
      o.items.filter (fun i => i.productId = productId) = [i] → Q (some (i, index)) s) :
    wp R (getByOrderAndProduct o productId) Q E s :=
  wp_linesOf o productId (fun _ => ht.err _ rfl) hnone hsome

/-- The price of a line; the quota of a contract's line is reserved. -/
theorem wp_linePrice (ht : Tame R E) (o : Order) (joined : Option Contract) (product : Product)
    (productId : Uuid) {quantity : ℤ} {Q : ℤ → Db → Prop}
    (hnone : o.contract? = none → Q product.price s)
    (hsome : ∀ c p t, o.contract? = some c → s.priceItems.find? (c, productId) = some p →
      p.isActive = true →
      QuotaMoved s.priceItems t (demand c [(productId, quantity)]) →
      Q p.price { s with priceItems := t }) :
    wp R (linePrice o joined product productId quantity) Q E s := by
  unfold linePrice
  cases hcontract : o.contract? with
  | none => exact hnone hcontract
  | some c =>
    dsimp only
    rw [reserveLine, wp_bind, wp_locked, wp_bind]
    refine wp_required ht rfl fun contract _ => ?_
    dsimp only
    rw [wp_bind]
    refine wp_check ht rfl fun _ => ?_
    rw [wp_bind]
    refine wp_getForProductsLocked c _ fun rows hrows => ?_
    rw [wp_bind]
    refine wp_required ht rfl fun p hp => ?_
    rw [wp_bind]
    refine wp_check ht rfl fun hquota => ?_
    obtain ⟨l₁, l₂, hsplit, -⟩ := List.lookup_eq_some_iff.mp hp
    have hmem : (productId, p) ∈ rows := hsplit ▸ List.mem_append_right _ List.mem_cons_self
    obtain ⟨-, hfind, hactive⟩ := hrows _ hmem
    rw [wp_bind]
    refine wp_incrementQuantitiesUsed ht c _ fun t hreserved => ?_
    refine hsome c p t hcontract hfind hactive (quotaMoved_of_reserved ?_ ?_ hreserved)
    · exact List.nodup_singleton _
    · intro x hx
      rw [List.mem_singleton.mp hx]
      exact ⟨p, hfind, hactive, by dsimp only; omega⟩

theorem wp_addLine (ht : Tame R E) {id : Uuid} {o : Order} (ho : s.orders.find? id = some o)
    {existing : Option (OrderItem × ℕ)} {productId : Uuid} {quantity price : ℤ}
    (hnone : existing = none → ∀ i ∈ o.items, i.productId ≠ productId)
    (hsome : ∀ i index, existing = some (i, index) →
      o.items[index]? = some i ∧ i.productId = productId)
    {Q : Unit → Db → Prop}
    (hQ : ∀ items, LineAdded o.items productId quantity price items →
      Q () (s.put (.order id) (some { o with items := items }))) :
    wp R (addLine id existing productId quantity price) Q E s := by
  unfold addLine
  cases existing with
  | none =>
    refine wp_addOrderItems ht ho fun hlines => hQ _ (.appended (hnone rfl) ?_)
    exact (hlines _ List.mem_cons_self).unitPrice_nonneg
  | some x =>
    obtain ⟨i, index⟩ := x
    obtain ⟨hline, hproduct⟩ := hsome i index rfl
    exact wp_updateQuantity ht ho hline fun _ => hQ _ (.merged hline hproduct)

theorem demand_lineAdded {c : Uuid} {items items' : List OrderItem} {productId : Uuid}
    {quantity price : ℤ} (h : LineAdded items productId quantity price items')
    (k : Uuid × Uuid) :
    demand c (items'.map OrderItem.pair) k =
      demand c (items.map OrderItem.pair) k + demand c [(productId, quantity)] k := by
  cases h with
  | appended hnew =>
    rw [List.map_append, demand_append]
    rfl
  | @merged index i hline hproduct =>
    obtain ⟨hindex, hi⟩ := List.getElem?_eq_some_iff.mp hline
    have hsplit : items = items.take index ++ i :: items.drop (index + 1) := by
      rw [← hi, List.cons_getElem_drop_succ, List.take_append_drop]
    have hset : items.set index { i with quantity := i.quantity + quantity } =
        items.take index ++ { i with quantity := i.quantity + quantity } :: items.drop (index + 1) :=
      List.set_eq_take_append_cons_drop.trans (if_pos hindex)
    have hpair : ∀ (l₁ l₂ : List OrderItem) (j : OrderItem),
        demand c ((l₁ ++ j :: l₂).map OrderItem.pair) k =
          demand c (l₁.map OrderItem.pair) k + demand c [j.pair] k +
            demand c (l₂.map OrderItem.pair) k := by
      intro l₁ l₂ j
      rw [List.map_append, List.map_cons, demand_append, ← List.singleton_append, demand_append,
        add_assoc]
    rw [hset, hpair]
    conv_rhs => rw [hsplit, hpair]
    simp only [OrderItem.pair, demand_singleton, hproduct]
    split <;> omega

/-- `add_product_to_order` adds to one line and reserves what it adds. -/
theorem addProductToOrder_change (ht : Tame R E) (hs : OrdersOk s) {r : Request}
    {id productId : Uuid} {quantity : ℤ} {u : Option Uuid}
    (hop : r.op = .addProductToOrder id productId quantity u) :
    wp R (addProductToOrder r.env id productId quantity u) (fun _ s' => Change R r s s') E s := by
  rw [addProductToOrder, wp_bind]
  refine wp_check ht rfl fun hquantity => ?_
  have hquantity := not_le.mp hquantity
  rw [wp_bind, getByIds, wp_ask]
  intro v hv
  rw [wp_bind]
  refine wp_required ht rfl fun product hproduct => ?_
  have hprice : (v.products.find? productId).filter Product.isActive = some product.2 := by
    have hmem := List.mem_of_mem_head? hproduct
    obtain ⟨hrow, hactive⟩ := List.mem_filter.mp hmem
    rw [Bool.and_eq_true, decide_eq_true_eq, List.mem_singleton] at hactive
    have hrow : v.products.find? productId = some product.2 :=
      (Table.mem_rows_iff _ _ _).mp (hactive.1 ▸ hrow)
    rw [hrow, Option.filter_some, if_pos hactive.2]
  rw [wp_bind, wp_ask]
  intro v' _
  generalize (v'.orders.find? id).bind (fun o => o.contractId.bind v'.contracts.find?) = joined
  rw [wp_bind]
  refine wp_getOrderLocked ht id fun o ho => ?_
  rw [wp_bind]
  refine wp_ensureEditable ht id o u fun hstatus => ?_
  have hreserved := (hs id o ho).reserved_iff
  -- the rest for a price and a counter table that go with the order's contract
  have hrest : ∀ (existing : Option (OrderItem × ℕ)) (price : ℤ) (t : Table (Uuid × Uuid) PriceItem),
      (existing = none → ∀ i ∈ o.items, i.productId ≠ productId) →
      (∀ i index, existing = some (i, index) →
        o.items[index]? = some i ∧ i.productId = productId) →
      (R.Exact → effectivePrice s o productId = some price) →
      QuotaMoved s.priceItems t
        (fun k => o.contract?.elim 0 fun c => demand c [(productId, quantity)] k) →
      wp R (do
        addLine id existing productId quantity price
        issue (.order id)
          (.update { totalAmount := some (o.totalAmount + price * quantity),
                     quantitiesReserved := o.contract?.map fun _ => true } r.env.now))
        (fun _ s' => Change R r s s') E { s with priceItems := t } := by
    intro existing price t hnone hsome hexact hquota
    have ho' : ({ s with priceItems := t } : Db).orders.find? id = some o := ho
    rw [wp_bind]
    refine wp_addLine ht ho' hnone hsome fun items hitems => ?_
    refine wp_updateOrder ht (Table.find?_put_self _ _ _) ?_
    have hset : (({ o with items := items } : Order).set
        { totalAmount := some (o.totalAmount + price * quantity),
          quantitiesReserved := o.contract?.map fun _ => true } r.env.now) =
        { o with
          items := items
          totalAmount := o.totalAmount + price * quantity
          quantitiesReserved := o.contract?.isSome || o.quantitiesReserved
          updatedAt := r.env.now } := by
      cases o.contract? <;> rfl
    rw [hset]
    have hwritten := s.orders.written_put id (some { o with items := items })
    refine ⟨.order id _ [] ?_ (hwritten.put _) ?_ ?_ (appended_nil _) rfl, rfl⟩
    · rw [ho]
      exact .lineAdded ⟨u, hop⟩ hstatus hquantity hitems hexact
    · rw [ho]
      refine hquota.congr fun k => ?_
      rw [Option.elim_some]
      cases hcontract : o.contract? with
      | none =>
        rw [held_of_no_contract hcontract, held_of_no_contract (o := { o with
          items := items
          totalAmount := o.totalAmount + price * quantity
          quantitiesReserved := (none : Option Uuid).isSome || o.quantitiesReserved
          updatedAt := r.env.now }) hcontract]
        rfl
      | some c =>
        have hflag : o.quantitiesReserved = true := by simp [hreserved, hcontract, hstatus]
        rw [held_of_reserved hflag hcontract, held_of_reserved (o := { o with
          items := items
          totalAmount := o.totalAmount + price * quantity
          quantitiesReserved := (some c).isSome || o.quantitiesReserved
          updatedAt := r.env.now }) rfl hcontract]
        dsimp only
        rw [demand_lineAdded hitems, Option.elim_some]
        omega
    · rw [ho, Postings, if_neg (by simp [isSettled, hstatus])]
  have hprices : ∀ existing : Option (OrderItem × ℕ),
      (existing = none → ∀ i ∈ o.items, i.productId ≠ productId) →
      (∀ i index, existing = some (i, index) →
        o.items[index]? = some i ∧ i.productId = productId) →
      wp R (do
        let currentPrice ← linePrice o joined product.2 productId quantity
        addLine id existing productId quantity currentPrice
        issue (.order id)
          (.update { totalAmount := some (o.totalAmount + currentPrice * quantity),
                     quantitiesReserved := o.contract?.map fun _ => true } r.env.now))
        (fun _ s' => Change R r s s') E s := by
    intro existing hnone hsome
    rw [wp_bind]
    refine wp_linePrice ht o _ _ productId (fun hcontract => ?_)
      fun c p t hcontract hp hactive hquota => ?_
    · refine hrest existing _ s.priceItems hnone hsome (fun hexact => ?_) ?_
      · rw [effectivePrice, hcontract, ← hexact _ _ hv, hprice]
        rfl
      · rw [hcontract]
        exact quotaMoved_zero _
    · refine hrest existing _ t hnone hsome (fun _ => ?_) ?_
      · rw [effectivePrice, hcontract]
        dsimp only
        rw [hp, Option.filter_some, if_pos hactive]
        rfl
      · rw [hcontract]
        exact hquota
  rw [wp_bind]
  refine wp_getByOrderAndProduct ht o productId (fun hnew => ?_) fun i index hline hproduct _ => ?_
  · exact hprices none (fun _ => hnew) fun _ _ h => absurd h (by simp)
  · refine hprices (some (i, index)) (fun h => absurd h (by simp)) fun j index' h => ?_
    cases h
    exact ⟨hline, hproduct⟩

/-- Removing the only line of a product removes its demand. -/
theorem demand_lineRemoved {c productId : Uuid} {items : List OrderItem} {i : OrderItem}
    (hline : items.filter (fun i => i.productId = productId) = [i]) (k : Uuid × Uuid) :
    demand c (items.map OrderItem.pair) k =
      demand c [(productId, i.quantity)] k +
        demand c ((items.filter fun i => i.productId ≠ productId).map OrderItem.pair) k := by
  have hperm := List.filter_append_perm (fun i : OrderItem => decide (i.productId = productId)) items
  have hproduct : i.productId = productId := by
    have hmem : i ∈ items.filter fun i => i.productId = productId :=
      hline ▸ List.mem_cons_self
    exact of_decide_eq_true (List.mem_filter.mp hmem).2
  have hpair : [(productId, i.quantity)] = [i].map OrderItem.pair := by
    rw [← hproduct]
    rfl
  have hnot : (items.filter fun i => !decide (i.productId = productId)) =
      items.filter fun i => i.productId ≠ productId :=
    List.filter_congr fun j _ => decide_not.symm
  rw [hline, hnot] at hperm
  rw [hpair, ← demand_append, ← List.map_append]
  unfold demand
  rw [Bag.amount_perm (hperm.map OrderItem.pair)]

/-- `remove_product_from_order` removes one line and releases what it held. -/
theorem removeProductFromOrder_changes (ht : Tame R E) (hs : OrdersOk s) (hrel : Releasable R E s)
    {r : Request} {id productId : Uuid} {u : Option Uuid} :
    wp R (removeProductFromOrder r.env id productId u) (fun _ s' => Changes R r s s') E s := by
  rw [removeProductFromOrder, wp_bind]
  refine wp_getOrderLocked ht id fun o ho => ?_
  have hpos := (hs id o ho).quantity_pos
  rw [wp_bind]
  refine wp_ensureEditable ht id o u fun hstatus => ?_
  rw [wp_bind]
  refine wp_getByOrderAndProduct ht o productId (fun _ => .refl) fun i index _ _ hline => ?_
  rw [wp_whenSome]
  refine ⟨?_, fun h => absurd h (by simp)⟩
  rintro _ ⟨rfl⟩
  dsimp only
  rw [wp_bind]
  refine wp_check ht rfl fun hlength => ?_
  rw [wp_bind]
  refine wp_deleteItem ht ho ?_
  -- the last statement, for any counter table that goes with the order's contract
  have hrest : ∀ t : Table (Uuid × Uuid) PriceItem,
      QuotaMoved s.priceItems t (fun k => if o.quantitiesReserved = true then
        o.contract?.elim 0 fun c => -demand c [(productId, i.quantity)] k else 0) →
      wp R (issue (.order id)
          (.update { totalAmount := some (max 0 (o.totalAmount - i.unitPrice * i.quantity)) }
            r.env.now))
        (fun _ s' => Changes R r s s') E
        { s.put (.order id)
            (some { o with items := o.items.filter fun i => i.productId ≠ productId }) with
          priceItems := t } := by
    intro t hquota
    refine wp_updateOrder ht (Table.find?_put_self _ _ _) ?_
    have hwritten := s.orders.written_put id
      (some { o with items := o.items.filter fun i => i.productId ≠ productId })
    refine Change.single ⟨.order id _ [] ?_ (hwritten.put _) ?_ ?_ (appended_nil _) rfl, rfl⟩
    · rw [ho]
      exact .lineRemoved hstatus hline (not_le.mp hlength)
    · rw [ho]
      refine hquota.congr fun k => ?_
      change (if o.quantitiesReserved = true then o.contract?.elim 0 fun c => demand c
          ((o.items.filter fun i => i.productId ≠ productId).map OrderItem.pair) k else 0) -
        (if o.quantitiesReserved = true then o.contract?.elim 0 fun c =>
          demand c (o.items.map OrderItem.pair) k else 0) = _
      split
      · cases o.contract? with
        | none => rfl
        | some c =>
          rw [Option.elim_some, Option.elim_some, Option.elim_some, demand_lineRemoved hline]
          omega
      · rfl
    · rw [ho, Postings, if_neg (by simp [isSettled, hstatus, Order.set])]
  rw [wp_bind, wp_whenever]
  refine ⟨fun hflag => ?_, fun hflag => ?_⟩
  · rw [wp_whenSome]
    refine ⟨fun c hcontract => ?_, fun hcontract => ?_⟩
    · have hheld := held_le_total hs ho
      refine hrel c [(productId, i.quantity)] ?_ (fun k => ?_) (s.put (.order id) _) rfl _
        fun t hreleased => ?_
      · have hmem : i ∈ o.items.filter fun i => i.productId = productId :=
          hline ▸ List.mem_cons_self
        simpa using hpos i (List.mem_filter.mp hmem).1
      · have hrest := demand_nonneg (c := c) (pair_pos (o := { o with
          items := o.items.filter fun i => i.productId ≠ productId })
          fun i hi => hpos i (List.mem_filter.mp hi).1) k
        have hle := hheld k
        rw [held_of_reserved hflag hcontract, demand_lineRemoved hline] at hle
        dsimp only at hrest
        omega
      · refine hrest t ((quotaMoved_of_released hreleased).congr fun k => ?_)
        rw [if_pos hflag, hcontract, Option.elim_some]
    · refine hrest s.priceItems ((quotaMoved_zero _).congr fun k => ?_)
      rw [hcontract, Option.elim_none, ite_self]
  · refine hrest s.priceItems ((quotaMoved_zero _).congr fun k => ?_)
    rw [if_neg hflag]

/-- `assign_courier` assigns one order. -/
theorem assignCourier_change (ht : Tame R E) {r : Request} {id courierId : Uuid}
    (hop : r.op = .assignCourier id courierId) :
    wp R (assignCourier r.env id courierId) (fun _ s' => Change R r s s') E s := by
  rw [assignCourier, wp_bind]
  refine wp_getOrderLocked ht id fun o ho => ?_
  rw [wp_bind]
  refine wp_check ht rfl fun hsale => ?_
  rw [wp_bind]
  refine wp_check ht rfl fun hstatus => ?_
  rw [wp_bind]
  refine wp_getCourier courierId fun courier hcourier => ?_
  rw [wp_bind]
  refine wp_check ht rfl fun hsome => ?_
  rw [wp_bind]
  refine wp_reads ht (getCourierInventory_quiet _) fun inventory => ?_
  rw [wp_bind]
  refine wp_check ht rfl fun _ => ?_
  rw [wp_bind]
  refine wp_updateOrder ht ho ?_
  refine wp_logTransition ht (Table.find?_put_self _ _ _) ?_
  have hsale : o.saleType = .delivery := by
    cases h : o.saleType with
    | delivery => rfl
    | warehousePickup => exact absurd h hsale
  have hstatus : o.status = .new ∨ o.status = .assigned := by
    by_contra hnot
    exact hstatus (not_or.mp hnot)
  have hwritten := s.orders.written_put id
    (some (o.set { courierId := some courierId, status := some .assigned } r.env.now))
  refine ⟨.order id _ [] ?_ (hwritten.put _) ?_ ?_ (appended_nil _) rfl, rfl⟩
  · rw [ho]
    refine .assigned hstatus hsale hop fun hexact => hcourier hexact ?_
    rwa [Option.isSome_iff_ne_none, ne_eq, ← Option.isNone_iff_eq_none]
  · rw [ho]
    exact (quotaMoved_zero _).congr fun k => sub_self (held o k)
  · rw [ho, Postings, if_neg (by simp [isSettled, Order.set])]

end Rules

end Munavvar.OrderEffects
