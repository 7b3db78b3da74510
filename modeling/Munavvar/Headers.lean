import Munavvar.Discipline
import Munavvar.ClientEffects
import Munavvar.ShortageCheck

/-!
# Headers of orders and transfers

The buyer and the inventory of an order, and the kind and the ends of a
transfer, are written when the row is made and stay. What is known of them when
they are made is known of all rows, so each operation is looked through for what
it makes; most make neither.
-/

namespace Munavvar.Headers

open Munavvar.KeyedTable
open Munavvar.Transaction
open Munavvar.Transaction.Prog
open Munavvar.Database
open Munavvar.Statements
open Munavvar.Discipline
open Munavvar.StockLedger
open Munavvar.FinancialLedger
open Munavvar.Quota
open Munavvar.OrderQueries
open Munavvar.Fulfillment
open Munavvar.OrderService
open Munavvar.ContractService
open Munavvar.StockService
open Munavvar.ClientService
open Munavvar.Operations (Request)
open Munavvar.Footprints
open Munavvar.OrderEffects
open Munavvar.StockEffects
open Munavvar.ClientEffects
open Munavvar.ShortageCheck (inventory?_of_mem inventory?_id)

/-! ## Parts that make neither orders nor transfers -/

/-- Statements that make neither an order nor a transfer. -/
def Plain : (k : Key) → Stmt k → Prop
  | .order _, .insert _ => False
  | .stockTransfer _, .insert _ => False
  | _, _ => True

/-- A part that makes neither orders nor transfers. -/
abbrev IsPlain {α : Type} (p : Uow α) : Prop := Within (S := schema) Plain (fun _ => True) p

/-- A part that only reads and locks. -/
theorem isPlain_of_quiet {α : Type} {p : Uow α} (h : Quiet NoStmt p) : IsPlain p :=
  h.mono (fun _ _ hst => hst.elim) fun _ _ => trivial

section Parts

variable {α β : Type}

theorem isPlain_raiseIf (c : Prop) [Decidable c] (e : Err) :
    IsPlain (raiseIf (S := schema) c e) := (within_raiseIf _ _).mpr fun _ => trivial

theorem isPlain_orRaise (o : Option α) (e : Err) : IsPlain (orRaise (S := schema) o e) :=
  (within_orRaise _ _).mpr fun _ => trivial

theorem isPlain_issue {k : Key} {st : Stmt k} (h : Plain k st) : IsPlain (issue k st) :=
  (within_execute _ _).mpr h

theorem isPlain_whenSome {o : Option α} {f : α → Uow Unit} (h : ∀ a, IsPlain (f a)) :
    IsPlain (whenSome o f) := (within_whenSome _ _).mpr fun a _ => h a

theorem isPlain_whenever {c : Prop} [Decidable c] {p : Uow Unit} (h : IsPlain p) :
    IsPlain (whenever (S := schema) c p) := (within_whenever _ _).mpr fun _ => h

theorem scalarOneOrNone_plain (l : List α) : IsPlain (scalarOneOrNone l) :=
  isPlain_of_quiet (scalarOneOrNone_quiet l)

theorem insertStockTransactions_plain (rows : List (Uuid × StockTransaction)) :
    IsPlain (insertStockTransactions rows) :=
  insertStockTransactions_within (fun _ _ => trivial) (fun _ _ _ => trivial) (fun _ => trivial)
    (fun _ => trivial) rows

theorem settle_plain (env : Env) (id : Uuid) (o : Order) (missingClient debtReason : String)
    (payment : Directory → Account → Except Err (List FinancialTransaction)) :
    IsPlain (settle env id o missingClient debtReason payment) :=
  settle_within (fun _ _ => trivial) (fun _ _ => trivial) (fun _ => trivial) (fun _ => trivial)
    (fun _ _ _ => trivial) env id o missingClient debtReason fun _ _ _ _ => trivial

theorem incrementQuantitiesUsed_plain (c : Uuid) (items : List (Uuid × Uuid × ℤ)) :
    IsPlain (incrementQuantitiesUsed c items) :=
  incrementQuantitiesUsed_within (fun _ _ _ => trivial) (fun _ _ => trivial) (fun _ => trivial)
    items

theorem decrementQuantitiesUsed_plain (c : Uuid) (qs : List (Uuid × ℤ)) :
    IsPlain (decrementQuantitiesUsed c qs) :=
  decrementQuantitiesUsed_within (fun _ _ => trivial) (fun _ _ => trivial) (fun _ => trivial) qs

theorem checkAndReserveQuantities_plain (c : Uuid) (items : List (Uuid × ℤ))
    (ps : List (Uuid × PriceItem)) : IsPlain (checkAndReserveQuantities c items ps) :=
  checkAndReserveQuantities_within (fun _ _ _ => trivial) (fun _ _ _ _ => trivial)
    (fun _ _ => trivial) (fun _ => trivial) items ps

theorem contractTerms_plain (env : Env) (clientId : Uuid) (role : Role) (method : PaymentMethod)
    (ids : List Uuid) : IsPlain (contractTerms env clientId role method ids) :=
  (contractTerms_within env clientId role method ids).mono (fun _ _ h => h) fun _ _ => trivial

theorem ensureStatusTransitionAllowed_plain (id : Uuid) (o : Order) (status : OrderStatus) :
    IsPlain (ensureStatusTransitionAllowed id o status) := by
  refine isPlain_whenever (within_bind (isPlain_raiseIf _ _) fun _ => ?_)
  exact within_bind (isPlain_raiseIf _ _) fun _ => isPlain_raiseIf _ _

theorem ensureEditable_plain (id : Uuid) (o : Order) (u : Option Uuid) :
    IsPlain (ensureEditable id o u) :=
  within_bind (isPlain_raiseIf _ _) fun _ => isPlain_raiseIf _ _

theorem getOrderLocked_plain (id : Uuid) : IsPlain (getOrderLocked id) :=
  within_bind (within_locked _) fun _ => isPlain_orRaise _ _

theorem releaseOrderQuantities_plain (env : Env) (id : Uuid) (o : Order) :
    IsPlain (releaseOrderQuantities env id o) :=
  within_bind (isPlain_whenSome fun _ => decrementQuantitiesUsed_plain _ _) fun _ =>
    isPlain_issue trivial

theorem linePrice_plain (o : Order) (joined : Option Contract) (product : Product) (p : Uuid)
    (q : ℤ) : IsPlain (linePrice o joined product p q) := by
  unfold linePrice
  split
  · refine within_bind (within_locked _) fun row => ?_
    refine within_bind (isPlain_orRaise _ _) fun contract => ?_
    refine within_bind (isPlain_raiseIf _ _) fun _ => ?_
    refine within_bind (getForProductsLocked_within _ _) fun items => ?_
    refine within_bind (isPlain_orRaise _ _) fun item => ?_
    refine within_bind (isPlain_raiseIf _ _) fun _ => ?_
    exact within_bind (incrementQuantitiesUsed_plain _ _) fun _ => within_ret _
  · exact within_ret _

theorem addLine_plain (id : Uuid) (existing : Option (OrderItem × ℕ)) (p : Uuid) (q price : ℤ) :
    IsPlain (addLine id existing p q price) := by
  unfold addLine
  split <;> exact isPlain_issue trivial

theorem cancelLocked_plain (env : Env) (reason : String) (u : Option Uuid) (x : Uuid × Order) :
    IsPlain (cancelLocked env reason u x) := by
  refine within_bind (isPlain_issue trivial) fun _ => ?_
  refine within_bind (isPlain_whenever (releaseOrderQuantities_plain _ _ _)) fun _ => ?_
  exact within_bind (isPlain_issue trivial) fun _ => isPlain_issue trivial

theorem cancelInflightOrders_plain (env : Env) (c : Uuid) (reason : String) :
    IsPlain (cancelInflightOrders env c reason) :=
  cancelInflightOrders_within (fun _ _ _ => trivial) (fun _ _ => trivial) (fun _ _ => trivial)
    (fun _ _ => trivial) (fun _ => trivial) env reason

theorem getContractLocked_plain (c : Uuid) : IsPlain (getContractLocked c) :=
  within_bind (within_locked _) fun _ => isPlain_orRaise _ _

theorem updateContract_plain (c : Uuid) (data : ContractUpdate) :
    IsPlain (updateContract c data) :=
  within_bind (within_locked _) fun _ => within_bind (isPlain_issue trivial) fun _ =>
    isPlain_raiseIf _ _

theorem ensureNoOtherActive_plain (id : Uuid) (c : Contract) :
    IsPlain (ensureNoOtherActive id c) :=
  within_bind (getActiveForClientLocked_within (by trivial) _) fun _ => isPlain_whenSome fun _ =>
    isPlain_raiseIf _ _

theorem changeInvoice_plain (c id : Uuid) (expected : List InvoiceStatus) (data : InvoiceUpdate) :
    IsPlain (changeInvoice c id expected data) := by
  refine within_bind (within_ask _) fun invoice => ?_
  refine within_bind (isPlain_orRaise _ _) fun invoice => ?_
  refine within_bind (isPlain_raiseIf _ _) fun _ => within_bind (within_locked _) fun row => ?_
  exact within_bind (isPlain_issue trivial) fun _ => isPlain_raiseIf _ _

end Parts

/-! ## The discipline -/

/-- What is known of the headers: `P` of an order, its buyer and inventory, `V`
of a transfer, its kind and ends. -/
def HeaderRow (P : Uuid → Uuid → Uuid → Prop) (V : Uuid → TransferType → Uuid → Uuid → Prop) :
    (k : Key) → Option (Row k) → Prop
  | .order id, r => ∀ o : Order, r = some o → P id o.clientId o.clientInventoryId
  | .stockTransfer id, r => ∀ x : StockTransfer, r = some x → V id x.type x.fromId x.toId
  | _, _ => True

/-- What has to be shown of the headers that a statement makes. -/
def HeaderStmt (P : Uuid → Uuid → Uuid → Prop) (V : Uuid → TransferType → Uuid → Uuid → Prop) :
    (k : Key) → Stmt k → Prop
  | .order id, .insert o => P id o.clientId o.clientInventoryId
  | .stockTransfer id, .insert x => V id x.type x.fromId x.toId
  | _, _ => True

/-- Headers are made as they are known to be. -/
def headers (P : Uuid → Uuid → Uuid → Prop) (V : Uuid → TransferType → Uuid → Uuid → Prop) :
    Discipline schema where
  rows := HeaderRow P V
  locks _ _ := True
  writes _ := HeaderStmt P V

section Headers

variable {P : Uuid → Uuid → Uuid → Prop} {V : Uuid → TransferType → Uuid → Uuid → Prop}
  {d : Directory} {H : Key → Prop} {α : Type} {A : α → (Key → Prop) → Prop}

/-- Statements keep what is known of the headers. -/
theorem headerRow_exec {k : Key} {st : Stmt k} {old r : Option (Row k)} (hst : HeaderStmt P V k st)
    (hold : HeaderRow P V k old) (h : exec k st old = .ok r) : HeaderRow P V k r := by
  cases k with
  | order id =>
    rintro o rfl
    change OrderStmt.exec st old = .ok (some o) at h
    cases old with
    | none =>
      cases st with
      | insert order =>
        obtain ⟨hrow, -⟩ := checked_ok h
        cases hrow
        exact hst
      | _ => cases h
    | some order =>
      have hold := hold order rfl
      cases st with
      | insert _ => cases h
      | addItems items =>
        obtain ⟨hrow, -⟩ := checked_ok h
        cases hrow
        exact hold
      | update data now =>
        obtain ⟨hrow, -⟩ := checked_ok h
        cases hrow
        exact hold
      | updateQuantity index quantity =>
        rw [OrderStmt.exec] at h
        split at h
        · obtain ⟨hrow, -⟩ := checked_ok h
          cases hrow
          exact hold
        · cases h
          exact hold
      | deleteItem productId =>
        cases h
        exact hold
      | logTransition entry =>
        obtain ⟨hrow, -⟩ := checked_ok h
        cases hrow
        exact hold
  | stockTransfer id =>
    rintro x rfl
    change TransferStmt.exec st old = .ok (some x) at h
    cases old with
    | none =>
      cases st with
      | insert transfer =>
        obtain ⟨hrow, -⟩ := checked_ok h
        cases hrow
        exact hst
      | addItems items => cases h
    | some transfer =>
      cases st with
      | insert _ => cases h
      | addItems items =>
        obtain ⟨hrow, -⟩ := checked_ok h
        cases hrow
        exact hold transfer rfl
  | _ => exact trivial

/-- What is known of all headers is kept by a transaction that makes them so. -/
theorem wp_headers {R : Regime schema} {s : Db} {p : Uow α} (hsound : R.Sound) (hlax : R.Lax)
    (hp : Obeys (headers P V) s.directory p A H) (hrows : ∀ k, HeaderRow P V k (s.get k)) :
    wp R p (fun a s' => (∃ H', A a H') ∧ s'.directory = s.directory ∧
      ∀ k, HeaderRow P V k (s'.get k)) (fun _ => True) s := by
  refine wp_of_obeys hsound hlax (fun H k st old r hst hold hexec => ?_) hp hrows
  exact headerRow_exec hst hold hexec

/-- A part that makes no headers. -/
theorem obeys_plain {p : Uow α} (hp : IsPlain p) (hA : ∀ a H, A a H) :
    Obeys (headers P V) d p A H := by
  have hplain : Obeys (headers P V) d p (fun _ _ => True) H := by
    refine obeys_of_within hp (fun _ _ => trivial) fun H k st hst => ?_
    cases k with
    | order id => cases st <;> first | exact hst.elim | exact trivial
    | stockTransfer id => cases st <;> first | exact hst.elim | exact trivial
    | _ => exact trivial
  exact hplain.mono fun a H' _ => hA a H'

/-- A part that makes no headers, followed by more. -/
theorem obeys_plain_bind {β : Type} {p : Uow β} {f : β → Uow α} (hp : IsPlain p)
    (hf : ∀ b H, Obeys (headers P V) d (f b) A H) : Obeys (headers P V) d (p >>= f) A H :=
  (obeys_bind p f).mpr (obeys_plain hp hf)

/-! ## Inventories that are read -/

/-- An inventory has a type. -/
def HasType (d : Directory) (id : Uuid) (type : InventoryType) : Prop :=
  ∃ i, d.inventory? id = some i ∧ i.type = type

theorem hasType_of_mem (hd : (d.inventories.map Inventory.id).Nodup) {i : Inventory}
    (hi : i ∈ d.inventories) : HasType d i.id i.type := ⟨i, inventory?_of_mem hd hi, rfl⟩

theorem obeys_scalarOneOrNone {V' : Type} {l : List V'} {A : Option V' → (Key → Prop) → Prop}
    (hnone : A none H) (hsome : ∀ v ∈ l, A (some v) H) :
    Obeys (headers P V) d (scalarOneOrNone l) A H := by
  match l with
  | [] => exact hnone
  | [v] => exact hsome v List.mem_cons_self
  | _ :: _ :: _ => exact trivial

/-- A virtual inventory. -/
theorem obeys_getSystemInventory (hd : (d.inventories.map Inventory.id).Nodup) {type : InventoryType}
    {A : Inventory → (Key → Prop) → Prop} (hA : ∀ i, HasType d i.id type → A i H) :
    Obeys (headers P V) d (getSystemInventory type) A H := by
  refine (obeys_bind _ _).mpr fun v (hv : v.directory = d) => (obeys_bind _ _).mpr ?_
  refine obeys_scalarOneOrNone ?_ fun i hi => ?_
  · exact obeys_raise _
  · obtain ⟨hmem, hi⟩ := List.mem_filter.mp hi
    rw [hv] at hmem
    rw [Bool.and_eq_true, decide_eq_true_eq, decide_eq_true_eq] at hi
    exact hA i (hi.2 ▸ hasType_of_mem hd hmem)

/-- The courier's vehicle. -/
theorem obeys_getCourierInventory (hd : (d.inventories.map Inventory.id).Nodup) {courierId : Uuid}
    {A : Option Inventory → (Key → Prop) → Prop} (hnone : A none H)
    (hsome : ∀ i, HasType d i.id .courier → A (some i) H) :
    Obeys (headers P V) d (getCourierInventory courierId) A H := by
  refine (obeys_bind _ _).mpr fun v (hv : v.directory = d) => ?_
  refine obeys_scalarOneOrNone hnone fun i hi => hsome i ?_
  obtain ⟨hmem, hi⟩ := List.mem_filter.mp hi
  rw [hv] at hmem
  simp only [Bool.and_eq_true, decide_eq_true_eq] at hi
  exact hi.1.2 ▸ hasType_of_mem hd hmem

/-- An active inventory. -/
theorem obeys_getInventory {id : Uuid} {A : Inventory → (Key → Prop) → Prop}
    (hA : ∀ i H, d.inventory? id = some i → A i H) :
    Obeys (headers P V) d (getInventory id) A H := by
  refine (obeys_bind _ _).mpr fun v (hv : v.directory = d) => ?_
  subst hv
  exact (obeys_orRaise _ _).mpr fun i hi => hA i H (Option.filter_eq_some_iff.mp hi).1

/-- An inventory with its balances. -/
theorem obeys_getInventoryWithBalances {id : Uuid} {type : Option InventoryType} {lock : Bool}
    {A : Option (Inventory × (Uuid → ℤ)) → (Key → Prop) → Prop} (hnone : ∀ H, A none H)
    (hsome : ∀ i b H, d.inventory? id = some i → (∀ t ∈ type, i.type = t) → A (some (i, b)) H) :
    Obeys (headers P V) d (getInventoryWithBalances id type lock) A H := by
  refine obeys_plain_bind (isPlain_whenever fun _ => trivial) fun _ H => ?_
  refine (obeys_bind _ _).mpr fun v (hv : v.directory = d) => ?_
  refine (obeys_bind _ _).mpr fun v' _ => ?_
  rw [obeys_ret, hv]
  cases hfind : (d.inventory? id).filter fun i => i.isActive && type.all fun t => i.type = t with
  | none => exact hnone H
  | some i =>
    obtain ⟨hi, hpass⟩ := Option.filter_eq_some_iff.mp hfind
    rw [Bool.and_eq_true] at hpass
    refine hsome i _ H hi fun t ht => ?_
    cases ht
    simpa using hpass.2

/-! ## Stock that is moved -/

/-- A transfer with its lines and movements. -/
theorem obeys_createStockTransfer {env : Env} {n : ℕ} {fromId toId : Uuid} {type : TransferType}
    {items : List (Uuid × ℤ)} {createdById : Uuid} {acceptedById orderId : Option Uuid}
    {reason : Option String} {A : Unit → (Key → Prop) → Prop}
    (hV : V (env.uuid n 0) type fromId toId) (hA : ∀ H, A () H) :
    Obeys (headers P V) d (createStockTransfer env n fromId toId type items createdById acceptedById
      orderId reason) A H := by
  refine (obeys_bind _ _).mpr fun v _ => (obeys_bind _ _).mpr ⟨hV, ?_⟩
  refine obeys_plain_bind (isPlain_raiseIf _ _) fun _ _ => ?_
  refine obeys_plain_bind (isPlain_raiseIf _ _) fun _ _ => ?_
  refine obeys_plain_bind (isPlain_issue trivial) fun _ _ => ?_
  exact obeys_plain (insertStockTransactions_plain _) fun _ H => hA H

/-- Containers that come from the vendor. -/
theorem obeys_enterInitialBalance (hd : (d.inventories.map Inventory.id).Nodup) {env : Env} {n : ℕ}
    {toId : Uuid} {items : List (Uuid × ℤ)} {createdById : Uuid} {A : Unit → (Key → Prop) → Prop}
    (hV : ∀ vendorId, HasType d vendorId .virtualVendor →
      V (env.uuid n 0) .initialBalance vendorId toId) (hA : ∀ H, A () H) :
    Obeys (headers P V) d (enterInitialBalance env n toId items createdById) A H := by
  refine (obeys_bind _ _).mpr (obeys_getSystemInventory hd fun vendor hvendor => ?_)
  refine (obeys_bind _ _).mpr fun v _ => (obeys_bind _ _).mpr ⟨hV vendor.id hvendor, ?_⟩
  refine obeys_plain_bind (isPlain_raiseIf _ _) fun _ _ => ?_
  refine obeys_plain_bind (isPlain_raiseIf _ _) fun _ _ => ?_
  refine obeys_plain (within_forEach fun x => ?_) fun _ H => hA H
  refine within_bind (isPlain_issue trivial) fun _ => within_bind (within_ask _) fun product => ?_
  exact within_bind (isPlain_raiseIf _ _) fun _ => insertStockTransactions_plain _

/-- The container check of a new order. -/
theorem obeys_exchangeTara (hd : (d.inventories.map Inventory.id).Nodup) {env : Env}
    {inventoryId : Uuid} {items : List Item} {exchange : List ExchangeItem} {capitalize : Bool}
    {createdById : Uuid} {A : Bool → (Key → Prop) → Prop}
    (hV : ∀ vendorId, HasType d vendorId .virtualVendor →
      V (env.uuid 1 0) .initialBalance vendorId inventoryId) (hA : ∀ b H, A b H) :
    Obeys (headers P V) d (exchangeTara env inventoryId items exchange capitalize createdById) A H := by
  unfold exchangeTara
  split
  · exact hA _ _
  · refine (obeys_bind _ _).mpr ?_
    refine obeys_getInventoryWithBalances (fun _ => obeys_raise _) fun i b H hi _ => ?_
    refine (obeys_bind _ _).mpr ((obeys_orRaise _ _).mpr ?_)
    rintro _ ⟨⟩
    refine obeys_plain_bind (isPlain_raiseIf _ _) fun _ _ => (obeys_bind _ _).mpr ?_
    refine (obeys_whenever _ _).mpr ⟨fun _ => (obeys_bind _ _).mpr ?_, fun _ => hA _ _⟩
    refine obeys_getSystemInventory hd fun vendor hvendor => ?_
    refine obeys_createStockTransfer ?_ fun _ => hA _ _
    rw [inventory?_id hi]
    exact hV vendor.id hvendor

/-- The delivery of an order to its inventory and the containers that come back. -/
theorem obeys_deliverStock (hd : (d.inventories.map Inventory.id).Nodup) {env : Env} {id : Uuid}
    {o : Order} {courierId : Uuid} {A : Unit → (Key → Prop) → Prop}
    (hdelivery : ∀ i, HasType d i .courier → V (env.uuid 2 0) .clientDelivery i o.clientInventoryId)
    (hreturn : ∀ i, HasType d i .courier → V (env.uuid 3 0) .clientReturn o.clientInventoryId i)
    (hA : ∀ H, A () H) : Obeys (headers P V) d (deliverStock env id o courierId) A H := by
  refine (obeys_bind _ _).mpr (obeys_getCourierInventory hd (obeys_raise _) fun row hrow => ?_)
  refine (obeys_bind _ _).mpr ((obeys_orRaise _ _).mpr ?_)
  rintro _ ⟨⟩
  refine (obeys_bind _ _).mpr ?_
  refine obeys_getInventoryWithBalances (fun _ => obeys_raise _) fun i b H hi _ => ?_
  refine (obeys_bind _ _).mpr ((obeys_orRaise _ _).mpr ?_)
  rintro _ ⟨⟩
  have hcourier : HasType d i.id .courier := (inventory?_id hi).symm ▸ hrow
  refine obeys_plain_bind (isPlain_raiseIf _ _) fun _ _ => (obeys_bind _ _).mpr fun v _ => ?_
  refine (obeys_bind _ _).mpr (obeys_createStockTransfer (hdelivery i.id hcourier) fun H => ?_)
  refine (obeys_whenever _ _).mpr ⟨fun _ => ?_, fun _ => hA _⟩
  exact obeys_createStockTransfer (hreturn i.id hcourier) hA

/-- A pickup at a warehouse: containers from the vendor, the sale, and the
containers that come back. -/
theorem obeys_pickUpStock (hd : (d.inventories.map Inventory.id).Nodup) {env : Env} {id : Uuid}
    {o : Order} {warehouseId completedById : Uuid} {A : Unit → (Key → Prop) → Prop}
    (hissue : ∀ i w, HasType d i .virtualVendor → HasType d w .warehouse →
      V (env.uuid 2 0) .initialBalance i w)
    (hsale : ∀ w, HasType d w .warehouse → V (env.uuid 3 0) .warehouseSale w o.clientInventoryId)
    (hreturn : ∀ w, HasType d w .warehouse →
      V (env.uuid 4 0) .warehouseTaraReturn o.clientInventoryId w)
    (hA : ∀ H, A () H) :
    Obeys (headers P V) d (pickUpStock env id o warehouseId completedById) A H := by
  refine (obeys_bind _ _).mpr ?_
  refine obeys_getInventoryWithBalances (fun _ => obeys_raise _) fun w b H hw htype => ?_
  refine (obeys_bind _ _).mpr ((obeys_orRaise _ _).mpr ?_)
  rintro _ ⟨⟩
  have hwarehouse : HasType d w.id .warehouse := by
    rw [inventory?_id hw]
    exact ⟨w, hw, htype _ rfl⟩
  refine obeys_plain_bind (isPlain_raiseIf _ _) fun _ _ => (obeys_bind _ _).mpr fun v _ => ?_
  refine (obeys_bind _ _).mpr (Obeys.mono (A := fun _ _ => True) ?_ fun _ H _ => ?_)
  · refine (obeys_whenever _ _).mpr ⟨fun _ => (obeys_bind _ _).mpr ?_, fun _ => trivial⟩
    refine obeys_getSystemInventory hd fun vendor hvendor => ?_
    exact obeys_createStockTransfer (hissue vendor.id w.id hvendor hwarehouse) fun _ => trivial
  · refine (obeys_bind _ _).mpr (obeys_createStockTransfer (hsale w.id hwarehouse) fun H => ?_)
    refine (obeys_whenever _ _).mpr ⟨fun _ => ?_, fun _ => hA _⟩
    exact obeys_createStockTransfer (hreturn w.id hwarehouse) hA

/-! ## Operations -/

/-- The transfers by which an order is supplied may go to its inventory and come from it. -/
structure RoutesTo (V : Uuid → TransferType → Uuid → Uuid → Prop) (d : Directory) (env : Env)
    (inventoryId : Uuid) : Prop where
  /-- Containers that are entered for a client. -/
  initial : ∀ n v, HasType d v .virtualVendor → V (env.uuid n 0) .initialBalance v inventoryId
  /-- A delivery. -/
  delivery : ∀ n i, HasType d i .courier → V (env.uuid n 0) .clientDelivery i inventoryId
  /-- Containers that the courier takes back. -/
  clientReturn : ∀ n i, HasType d i .courier → V (env.uuid n 0) .clientReturn inventoryId i
  /-- Containers that are entered for a warehouse. -/
  issue : ∀ n v w, HasType d v .virtualVendor → HasType d w .warehouse →
    V (env.uuid n 0) .initialBalance v w
  /-- A sale at a warehouse. -/
  sale : ∀ n w, HasType d w .warehouse → V (env.uuid n 0) .warehouseSale w inventoryId
  /-- Containers that the warehouse takes back. -/
  taraReturn : ∀ n w, HasType d w .warehouse → V (env.uuid n 0) .warehouseTaraReturn inventoryId w

/-- The inventory that `get_client_inventory` finds. -/
def clientInventory? (d : Directory) (userId : Uuid) : Option Inventory :=
  d.inventories.find? fun i => i.userId = some userId && i.type = .client && i.isActive

/-- It is an active inventory of the client. -/
theorem clientInventory?_spec {userId : Uuid} {i : Inventory}
    (h : clientInventory? d userId = some i) :
    i ∈ d.inventories ∧ i.userId = some userId ∧ i.type = .client ∧ i.isActive = true := by
  have hpass := List.find?_some h
  simp only [Bool.and_eq_true, decide_eq_true_eq] at hpass
  exact ⟨List.mem_of_find?_eq_some h, hpass.1.1, hpass.1.2, hpass.2⟩

theorem obeys_getClientInventory {userId : Uuid} {A : Option Inventory → (Key → Prop) → Prop}
    (hA : A (clientInventory? d userId) H) :
    Obeys (headers P V) d (getClientInventory userId) A H := by
  refine (obeys_bind _ _).mpr fun v (hv : v.directory = d) => ?_
  subst hv
  exact hA

/-- An order with its lines. -/
theorem obeys_insertOrder {id : Uuid} {o : Order} {items : List OrderItem}
    {A : Unit → (Key → Prop) → Prop} (hP : P id o.clientId o.clientInventoryId) (hA : ∀ H, A () H) :
    Obeys (headers P V) d (insertOrder id o items) A H := by
  refine (obeys_bind _ _).mpr ⟨hP, (obeys_bind _ _).mpr fun v _ => ?_⟩
  exact obeys_plain_bind (isPlain_raiseIf _ _) fun _ _ => ⟨trivial, hA _⟩

/-- `create_order` makes the order of the request. -/
theorem obeys_createOrder (hd : (d.inventories.map Inventory.id).Nodup) {env : Env}
    {clientId : Uuid} {dto : OrderCreate} (hP : P (env.uuid 0 0) clientId dto.clientInventoryId)
    (hV : RoutesTo V d env dto.clientInventoryId) :
    Obeys (headers P V) d (createOrder env clientId dto) (fun _ _ => True) H := by
  refine obeys_plain_bind (isPlain_raiseIf _ _) fun _ _ => ?_
  refine obeys_plain_bind (isPlain_raiseIf _ _) fun _ _ => ?_
  refine obeys_plain_bind (isPlain_of_quiet (availableProducts_quiet _)) fun products _ => ?_
  refine obeys_plain_bind (isPlain_of_quiet (getClient_quiet _)) fun client _ => ?_
  refine obeys_plain_bind (contractTerms_plain _ _ _ _ _) fun terms _ => ?_
  refine obeys_plain_bind (isPlain_whenSome fun x => checkAndReserveQuantities_plain _ _ _)
    fun _ _ => ?_
  refine (obeys_bind _ _).mpr (obeys_exchangeTara hd (hV.initial 1) fun b _ => ?_)
  refine (obeys_bind _ _).mpr (obeys_insertOrder hP fun _ => ?_)
  exact obeys_plain (isPlain_issue trivial) fun _ _ => trivial

/-- `create_order` fails if it names no inventory. -/
theorem obeys_createOrder_missing {env : Env} {clientId : Uuid} {dto : OrderCreate}
    (hnone : d.inventory? dto.clientInventoryId = none) :
    Obeys (headers (fun _ _ _ => True) fun _ _ _ _ => True) d (createOrder env clientId dto)
      (fun _ _ => False) H := by
  refine obeys_plain_bind (isPlain_raiseIf _ _) fun _ _ => ?_
  refine obeys_plain_bind (isPlain_raiseIf _ _) fun _ _ => ?_
  refine obeys_plain_bind (isPlain_of_quiet (availableProducts_quiet _)) fun products _ => ?_
  refine obeys_plain_bind (isPlain_of_quiet (getClient_quiet _)) fun client _ => ?_
  refine obeys_plain_bind (contractTerms_plain _ _ _ _ _) fun terms _ => ?_
  refine obeys_plain_bind (isPlain_whenSome fun x => checkAndReserveQuantities_plain _ _ _)
    fun _ _ => (obeys_bind _ _).mpr ?_
  refine Obeys.mono (A := fun _ _ => True) ?_ fun b _ _ => ?_
  · unfold exchangeTara
    split
    · exact trivial
    · refine (obeys_bind _ _).mpr ?_
      refine obeys_getInventoryWithBalances (fun _ => obeys_raise _) fun i b _ hi _ => ?_
      cases hnone.symm.trans hi
  · refine (obeys_bind _ _).mpr ((obeys_bind _ _).mpr ⟨trivial, ?_⟩)
    refine (obeys_bind _ _).mpr fun v (hv : v.directory = d) => (obeys_bind _ _).mpr ?_
    refine (obeys_raiseIf _ _).mpr fun hpass => absurd ?_ hpass
    change (v.directory.inventory? dto.clientInventoryId).isNone = true
    rw [hv, hnone]
    rfl

/-- A pickup supplies its order. -/
theorem obeys_handleWarehousePickup (hd : (d.inventories.map Inventory.id).Nodup) {env : Env}
    {id : Uuid} {o : Order} {completedById : Uuid} (hV : RoutesTo V d env o.clientInventoryId)
    {A : Unit → (Key → Prop) → Prop} (hA : ∀ H, A () H) :
    Obeys (headers P V) d (handleWarehousePickup env id o completedById) A H := by
  refine obeys_plain_bind (isPlain_orRaise _ _) fun warehouseId _ => (obeys_bind _ _).mpr ?_
  refine obeys_pickUpStock hd (hV.issue 2) (hV.sale 3) (hV.taraReturn 4) fun _ => ?_
  exact obeys_plain (settle_plain _ _ _ _ _ _) fun _ H => hA H

/-- `create_warehouse_sale` makes an order that goes to an inventory of the client. -/
theorem obeys_createWarehouseSale (hd : (d.inventories.map Inventory.id).Nodup) {env : Env}
    {dto : WarehouseSaleCreate} {clientId : Option Uuid} {createdById : Uuid}
    (hP : ∀ i, clientInventory? d (clientId.getD walkinUserId) = some i →
      P (env.uuid 0 0) (clientId.getD walkinUserId) i.id ∧ RoutesTo V d env i.id) :
    Obeys (headers P V) d (createWarehouseSale env dto clientId createdById) (fun _ _ => True) H := by
  refine obeys_plain_bind (isPlain_raiseIf _ _) fun _ _ => ?_
  refine obeys_plain_bind (isPlain_of_quiet (availableProducts_quiet _)) fun products _ => ?_
  refine obeys_plain_bind ((getInventoryWithBalances_within _ _ _))
    fun warehouse _ => ?_
  refine obeys_plain_bind (isPlain_orRaise _ _) fun _ _ => ?_
  refine (obeys_bind _ _).mpr (obeys_getClientInventory ((obeys_bind _ _).mpr ?_))
  refine (obeys_orRaise _ _).mpr fun i hi => ?_
  obtain ⟨hP, hV⟩ := hP i hi
  refine (obeys_bind _ _).mpr (obeys_exchangeTara hd (hV.initial 1) fun b _ => ?_)
  refine (obeys_bind _ _).mpr (obeys_insertOrder hP fun _ => (obeys_bind _ _).mpr ?_)
  refine obeys_handleWarehousePickup hd hV fun _ => ?_
  exact obeys_plain (isPlain_issue trivial) fun _ _ => trivial

/-- A row under its lock is one of which the headers are known. -/
theorem obeys_getOrderLocked {id : Uuid} {A : Order → (Key → Prop) → Prop}
    (hA : ∀ o H, P id o.clientId o.clientInventoryId → A o H) :
    Obeys (headers P V) d (getOrderLocked id) A H := by
  refine (obeys_bind _ _).mpr ⟨trivial, fun r hr => ?_⟩
  exact (obeys_orRaise _ _).mpr fun o ho => hA o _ (hr o ho)

/-- The adjustment keeps the inventory of the order. -/
theorem obeys_adjustOrder {env : Env} {id : Uuid} {o : Order} {actual : List OrderItemActual} :
    Obeys (headers P V) d (adjustOrder env id o actual)
      (fun o' _ => o'.clientInventoryId = o.clientInventoryId) H := by
  refine obeys_plain_bind (within_forEach fun x => isPlain_whenSome fun requested => ?_)
    fun _ _ => ?_
  · refine within_bind (isPlain_raiseIf _ _) fun _ => ?_
    exact within_bind (isPlain_raiseIf _ _) fun _ => isPlain_issue trivial
  · refine obeys_plain_bind (isPlain_whenSome fun c => decrementQuantitiesUsed_plain _ _)
      fun _ _ => ?_
    exact obeys_plain_bind (isPlain_issue trivial) fun _ _ => rfl

/-- `update_status` supplies the order it delivers. -/
theorem obeys_updateStatus (hd : (d.inventories.map Inventory.id).Nodup) {env : Env} {id : Uuid}
    {status : OrderStatus} {actual : List OrderItemActual} {u : Option Uuid}
    {reason : Option String} (hV : ∀ c i, P id c i → RoutesTo V d env i) :
    Obeys (headers P V) d (updateStatus env id status actual u reason) (fun _ _ => True) H := by
  refine (obeys_bind _ _).mpr (obeys_getOrderLocked fun o _ ho => ?_)
  have hV := hV _ _ ho
  refine obeys_plain_bind (isPlain_raiseIf _ _) fun _ _ => ?_
  refine obeys_plain_bind (ensureStatusTransitionAllowed_plain _ _ _) fun _ _ => ?_
  refine obeys_plain_bind (isPlain_issue trivial) fun _ _ => ?_
  refine (obeys_bind _ _).mpr (Obeys.mono (A := fun _ _ => True) ?_ fun _ H _ => ?_)
  · refine (obeys_whenever _ _).mpr ⟨fun _ => ?_, fun _ => trivial⟩
    refine obeys_plain_bind (isPlain_orRaise _ _) fun courierId _ => (obeys_bind _ _).mpr ?_
    refine Obeys.mono (A := fun o' _ => o'.clientInventoryId = o.clientInventoryId) ?_
      fun o' H ho' => (obeys_bind _ _).mpr ?_
    · split
      · exact rfl
      · exact obeys_adjustOrder
    · refine obeys_deliverStock hd (ho' ▸ hV.delivery 2) (ho' ▸ hV.clientReturn 3) fun _ => ?_
      exact obeys_plain (settle_plain _ _ _ _ _ _) fun _ _ => trivial
  · refine obeys_plain_bind (isPlain_whenever (releaseOrderQuantities_plain _ _ _)) fun _ _ => ?_
    refine obeys_plain_bind (isPlain_whenever (isPlain_issue trivial)) fun _ _ => ?_
    exact obeys_plain (isPlain_issue trivial) fun _ _ => trivial

/-- `complete_pickup` supplies its order. -/
theorem obeys_completePickup (hd : (d.inventories.map Inventory.id).Nodup) {env : Env} {id u : Uuid}
    (hV : ∀ c i, P id c i → RoutesTo V d env i) :
    Obeys (headers P V) d (completePickup env id u) (fun _ _ => True) H := by
  refine (obeys_bind _ _).mpr (obeys_getOrderLocked fun o _ ho => ?_)
  refine obeys_plain_bind (isPlain_raiseIf _ _) fun _ _ => ?_
  refine obeys_plain_bind (isPlain_raiseIf _ _) fun _ _ => ?_
  refine obeys_plain_bind (isPlain_issue trivial) fun _ _ => ?_
  refine obeys_plain_bind (isPlain_issue trivial) fun _ _ => ?_
  exact obeys_handleWarehousePickup hd (hV _ _ ho) fun _ => trivial

/-- The operations of the order and contract services make orders only for the
inventory of the request or one of the client, and supply only those. -/
theorem obeys_operation (hd : (d.inventories.map Inventory.id).Nodup) (r : Request)
    (hV : ∀ id c i, P id c i → RoutesTo V d r.env i)
    (hcreate : ∀ clientId dto, r.op = .createOrder clientId dto →
      P (r.env.uuid 0 0) clientId dto.clientInventoryId)
    (hsale : ∀ dto clientId u i, r.op = .createWarehouseSale dto clientId u →
      clientInventory? d (clientId.getD walkinUserId) = some i →
      P (r.env.uuid 0 0) (clientId.getD walkinUserId) i.id) :
    Obeys (headers P V) d (Operations.program r) (fun _ _ => True) H := by
  obtain ⟨env, op⟩ := r
  cases op with
  | createOrder clientId dto =>
    have hP := hcreate clientId dto rfl
    exact obeys_createOrder hd hP (hV _ _ _ hP)
  | createWarehouseSale dto clientId createdById =>
    refine obeys_createWarehouseSale hd fun i hi => ?_
    have hP := hsale dto clientId createdById i rfl hi
    exact ⟨hP, hV _ _ _ hP⟩
  | completePickup id u => exact obeys_completePickup hd (hV id)
  | updateStatus id status actual u reason => exact obeys_updateStatus hd (hV id)
  | cancelOrder id u reason =>
    refine (obeys_bind _ _).mpr fun v _ => ?_
    refine obeys_plain_bind (isPlain_orRaise _ _) fun o _ => ?_
    refine obeys_plain_bind (isPlain_raiseIf _ _) fun _ _ => ?_
    refine obeys_plain_bind (isPlain_raiseIf _ _) fun _ _ => ?_
    exact obeys_updateStatus hd (hV id)
  | addProductToOrder id p q u =>
    refine obeys_plain ?_ fun _ _ => trivial
    refine within_bind (isPlain_raiseIf _ _) fun _ => within_bind (within_ask _) fun products => ?_
    refine within_bind (isPlain_orRaise _ _) fun product => within_bind (within_ask _) fun joined => ?_
    refine within_bind (getOrderLocked_plain _) fun o => ?_
    refine within_bind (ensureEditable_plain _ _ _) fun _ => ?_
    refine within_bind (scalarOneOrNone_plain _) fun item => ?_
    refine within_bind (linePrice_plain _ _ _ _ _) fun price => ?_
    exact within_bind (addLine_plain _ _ _ _ _) fun _ => isPlain_issue trivial
  | removeProductFromOrder id p u =>
    refine obeys_plain ?_ fun _ _ => trivial
    refine within_bind (getOrderLocked_plain _) fun o => ?_
    refine within_bind (ensureEditable_plain _ _ _) fun _ => ?_
    refine within_bind (scalarOneOrNone_plain _) fun item => isPlain_whenSome fun x => ?_
    refine within_bind (isPlain_raiseIf _ _) fun _ => within_bind (isPlain_issue trivial) fun _ => ?_
    refine within_bind (isPlain_whenever (isPlain_whenSome fun c =>
      decrementQuantitiesUsed_plain _ _)) fun _ => ?_
    exact isPlain_issue trivial
  | assignCourier id courierId =>
    refine obeys_plain ?_ fun _ _ => trivial
    refine within_bind (getOrderLocked_plain _) fun o => ?_
    refine within_bind (isPlain_raiseIf _ _) fun _ => within_bind (isPlain_raiseIf _ _) fun _ => ?_
    refine within_bind (isPlain_of_quiet (getCourier_quiet _)) fun courier => ?_
    refine within_bind (isPlain_raiseIf _ _) fun _ => ?_
    refine within_bind (isPlain_of_quiet (getCourierInventory_quiet _)) fun inventory => ?_
    refine within_bind (isPlain_raiseIf _ _) fun _ => ?_
    exact within_bind (isPlain_issue trivial) fun _ => isPlain_issue trivial
  | expireStaleOrders maxAge assignedMaxAge adminId =>
    refine obeys_plain ?_ fun _ _ => trivial
    refine within_bind (lockMatching_within _ _) fun stale => ?_
    refine within_bind (within_forEach fun x => cancelLocked_plain _ _ _ _) fun _ => ?_
    refine within_bind (lockMatching_within _ _) fun stale => ?_
    exact within_forEach fun x => cancelLocked_plain _ _ _ _
  | createContract clientId dto =>
    refine obeys_plain ?_ fun _ _ => trivial
    refine within_bind (within_bind (within_ask _) fun _ => scalarOneOrNone_plain _) fun existing => ?_
    exact within_bind (isPlain_whenSome fun _ => trivial) fun _ => isPlain_issue trivial
  | activateContract c u =>
    refine obeys_plain ?_ fun _ _ => trivial
    refine within_bind (getContractLocked_plain _) fun contract => ?_
    refine within_bind (isPlain_raiseIf _ _) fun _ => ?_
    refine within_bind (ensureNoOtherActive_plain _ _) fun _ => ?_
    exact within_bind (updateContract_plain _ _) fun _ => isPlain_issue trivial
  | suspendContract c reason u =>
    refine obeys_plain ?_ fun _ _ => trivial
    refine within_bind (getContractLocked_plain _) fun contract => ?_
    refine within_bind (isPlain_raiseIf _ _) fun _ => ?_
    refine within_bind (updateContract_plain _ _) fun _ => ?_
    exact within_bind (cancelInflightOrders_plain _ _ _) fun _ => isPlain_issue trivial
  | reinstateContract c u =>
    refine obeys_plain ?_ fun _ _ => trivial
    refine within_bind (getContractLocked_plain _) fun contract => ?_
    refine within_bind (isPlain_raiseIf _ _) fun _ => ?_
    refine within_bind (ensureNoOtherActive_plain _ _) fun _ => ?_
    exact within_bind (updateContract_plain _ _) fun _ => isPlain_issue trivial
  | terminateContract c reason u =>
    refine obeys_plain ?_ fun _ _ => trivial
    refine within_bind (getContractLocked_plain _) fun contract => ?_
    refine within_bind (isPlain_raiseIf _ _) fun _ => ?_
    refine within_bind (updateContract_plain _ _) fun _ => ?_
    exact within_bind (cancelInflightOrders_plain _ _ _) fun _ => isPlain_issue trivial
  | runExpireJob =>
    refine obeys_plain ?_ fun _ _ => trivial
    refine within_bind (within_ask _) fun candidates => within_forEach fun id => ?_
    refine within_bind (cancelInflightOrders_plain _ _ _) fun _ => ?_
    exact within_bind (updateContract_plain _ _) fun _ => isPlain_issue trivial
  | setPriceItem c p price q =>
    refine obeys_plain (within_bind (within_ask _) fun existing => ?_) fun _ _ => trivial
    cases existing with
    | some existing =>
      refine within_bind (isPlain_raiseIf _ _) fun _ => within_bind (within_locked _) fun row => ?_
      exact within_bind (isPlain_issue trivial) fun _ => isPlain_raiseIf _ _
    | none =>
      refine within_bind (isPlain_issue trivial) fun _ => within_bind (within_ask _) fun _ => ?_
      refine within_bind (within_ask _) fun _ => within_bind (isPlain_raiseIf _ _) fun _ => ?_
      exact isPlain_raiseIf _ _
  | removePriceItem c p =>
    refine obeys_plain (within_bind (within_ask _) fun item => ?_) fun _ _ => trivial
    refine within_bind (isPlain_orRaise _ _) fun item => within_bind (isPlain_raiseIf _ _) fun _ => ?_
    exact isPlain_issue trivial
  | generateInvoice c periodFrom periodTo =>
    refine obeys_plain (within_bind (getContractLocked_plain _) fun contract => ?_) fun _ _ => trivial
    refine within_bind (within_bind (within_ask _) fun _ => scalarOneOrNone_plain _) fun _ => ?_
    refine within_bind (isPlain_raiseIf _ _) fun _ => within_bind (within_ask _) fun orders => ?_
    refine within_bind (within_ask _) fun existing => within_bind (within_ask _) fun taken => ?_
    exact within_bind (isPlain_issue trivial) fun _ => isPlain_raiseIf _ _
  | issueInvoice c id => exact obeys_plain (changeInvoice_plain _ _ _ _) fun _ _ => trivial
  | markInvoicePaid c id => exact obeys_plain (changeInvoice_plain _ _ _ _) fun _ _ => trivial
  | cancelInvoice c id => exact obeys_plain (changeInvoice_plain _ _ _ _) fun _ _ => trivial
  | runOverdueJob =>
    refine obeys_plain (within_bind (within_ask _) fun _ => within_forEach fun id => ?_)
      fun _ _ => trivial
    refine within_bind (within_locked _) fun row => within_bind (isPlain_issue trivial) fun _ => ?_
    exact isPlain_raiseIf _ _
  | updateProduct id product => exact obeys_plain (isPlain_issue trivial) fun _ _ => trivial

/-! ## The stock service and the client service -/

/-- A route that is allowed. -/
def AllowedRoute (d : Directory) (type : TransferType) (fromId toId : Uuid) : Prop :=
  ∃ source ∈ (validRoutes type).1, ∃ target ∈ (validRoutes type).2,
    HasType d fromId source ∧ HasType d toId target

/-- The stock service makes transfers along allowed routes only. -/
theorem obeys_stock (hd : (d.inventories.map Inventory.id).Nodup) (env : Env) (op : StockOperation)
    (hV : ∀ type i j, AllowedRoute d type i j → V (env.uuid 0 0) type i j) :
    Obeys (headers P V) d (op.program env) (fun _ _ => True) H := by
  have hinitial : ∀ {id : Uuid}, HasType d id .client → ∀ v, HasType d v .virtualVendor →
      V (env.uuid 0 0) .initialBalance v id := by
    intro id hid v hv
    exact hV _ _ _ ⟨_, List.mem_singleton.mpr rfl, _, List.mem_cons_self, hv, hid⟩
  cases op with
  | createTransfer createdById dto callerScopes =>
    refine obeys_plain_bind (isPlain_raiseIf _ _) fun _ _ => ?_
    refine (obeys_bind _ _).mpr fun v _ => ?_
    refine obeys_plain_bind (isPlain_raiseIf _ _) fun _ _ => ?_
    refine obeys_plain_bind (isPlain_of_quiet (endpoint_quiet _ _ _ _)) fun fromId _ => ?_
    refine obeys_plain_bind (isPlain_of_quiet (endpoint_quiet _ _ _ _)) fun toId _ => ?_
    refine obeys_plain_bind (isPlain_orRaise _ _) fun fromId _ => ?_
    refine obeys_plain_bind (isPlain_orRaise _ _) fun toId _ => ?_
    refine obeys_plain_bind (isPlain_raiseIf _ _) fun _ _ => ?_
    refine (obeys_bind _ _).mpr (obeys_getInventory fun source _ hsource => ?_)
    refine (obeys_bind _ _).mpr (obeys_getInventory fun target _ htarget => ?_)
    refine (obeys_bind _ _).mpr ((obeys_raiseIf _ _).mpr fun hfrom => ?_)
    refine (obeys_bind _ _).mpr ((obeys_raiseIf _ _).mpr fun hto => ?_)
    refine obeys_plain_bind (isPlain_of_quiet (checkStock_quiet _ _)) fun _ _ => ?_
    refine obeys_createStockTransfer (hV _ _ _ ?_) fun _ => trivial
    exact ⟨_, not_not.mp hfrom, _, not_not.mp hto, ⟨_, hsource, rfl⟩, ⟨_, htarget, rfl⟩⟩
  | capitalizeTara dto createdById =>
    refine (obeys_bind _ _).mpr ?_
    refine obeys_getInventoryWithBalances (fun _ => obeys_raise _) fun i b _ hi htype => ?_
    refine (obeys_bind _ _).mpr ((obeys_orRaise _ _).mpr ?_)
    rintro _ ⟨⟩
    refine obeys_enterInitialBalance hd (hinitial ?_) fun _ => trivial
    exact ⟨i, inventory?_id hi ▸ hi, htype _ rfl⟩
  | capitalizeTaraForClient clientId items createdById =>
    refine (obeys_bind _ _).mpr (obeys_getClientInventory ((obeys_bind _ _).mpr ?_))
    refine (obeys_orRaise _ _).mpr fun i hi => ?_
    obtain ⟨hmem, -, htype, -⟩ := clientInventory?_spec hi
    exact obeys_enterInitialBalance hd (hinitial (htype ▸ hasType_of_mem hd hmem)) fun _ => trivial
  | capitalizeDeficit dto clientId =>
    refine (obeys_bind _ _).mpr fun v _ => ?_
    refine (obeys_whenever _ _).mpr ⟨fun _ => (obeys_bind _ _).mpr ?_, fun _ => trivial⟩
    refine obeys_getInventoryWithBalances (fun _ => obeys_raise _) fun i b _ hi htype => ?_
    refine (obeys_bind _ _).mpr ((obeys_orRaise _ _).mpr ?_)
    rintro _ ⟨⟩
    refine obeys_plain_bind (isPlain_raiseIf _ _) fun _ _ => ?_
    refine (obeys_whenever _ _).mpr ⟨fun _ => ?_, fun _ => trivial⟩
    refine obeys_enterInitialBalance hd (hinitial ?_) fun _ => trivial
    exact ⟨i, inventory?_id hi ▸ hi, htype _ rfl⟩

/-- A new client is given containers and a first order for the inventory that is made with it. -/
theorem obeys_followUp (hd : (d.inventories.map Inventory.id).Nodup) (env : Env)
    (op : ClientOperation) {new : Option Inventory} (hown : OwnInventory env new op)
    (hnew : ∀ name, new = some ⟨env.uuid 0 2, some (env.uuid 0 0), .client, true, name⟩ →
      (∀ v, HasType d v .virtualVendor → V (env.uuid 1 0) .initialBalance v (env.uuid 0 2)) ∧
        P (env.uuid 2 0) (env.uuid 0 0) (env.uuid 0 2)) :
    Obeys (headers P V) d (followUp env op) (fun _ _ => True) H := by
  cases op with
  | createClient data => exact trivial
  | createClientInventory clientId name => exact trivial
  | onboardClientWithBalance data creatorId =>
    obtain ⟨name, hname⟩ := hown
    obtain ⟨hV, hP⟩ := hnew name hname
    refine (obeys_bind _ _).mpr (Obeys.mono (A := fun _ _ => True) ?_ fun _ _ _ => ?_)
    · refine (obeys_whenever _ _).mpr ⟨fun _ => ?_, fun _ => trivial⟩
      refine (obeys_whenSome _ _).mpr ⟨fun p _ => ?_, fun _ => trivial⟩
      exact obeys_enterInitialBalance hd hV fun _ => trivial
    · refine (obeys_whenSome _ _).mpr ⟨fun order _ => ?_, fun _ => trivial⟩
      refine obeys_plain_bind (isPlain_of_quiet (availableProducts_quiet _)) fun products _ => ?_
      refine (obeys_bind _ _).mpr ⟨hP, ?_⟩
      change Obeys _ _ (forEach _ _) _ _
      refine obeys_plain (within_forEach fun item => ?_) fun _ _ => trivial
      exact (within_execute (S := schema) (Key.order _) _).mpr trivial
  | registerClient data =>
    obtain ⟨name, hname⟩ := hown
    obtain ⟨hV, -⟩ := hnew name hname
    refine (obeys_whenSome _ _).mpr ⟨fun quantity _ => ?_, fun _ => trivial⟩
    refine (obeys_whenSome _ _).mpr ⟨fun p _ => ?_, fun _ => trivial⟩
    exact obeys_enterInitialBalance hd hV fun _ => trivial

end Headers

end Munavvar.Headers
