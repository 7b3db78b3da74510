import Munavvar.ContractLocks

/-!
# Operations and the rows of a contract

Every operation locks the rows of a contract in order, releases and the expiry
job apart. Orders by contract are made under the lock of the contract, and only
three operations stop contracts.
-/

namespace Munavvar.OperationLocks

open Munavvar.KeyedTable
open Munavvar.Transaction
open Munavvar.Transaction.Prog
open Munavvar.Database
open Munavvar.Statements (order_exec)
open Munavvar.StockLedger
open Munavvar.FinancialLedger
open Munavvar.Quota
open Munavvar.OrderQueries
open Munavvar.Fulfillment
open Munavvar.OrderService
open Munavvar.ContractService
open Munavvar.Operations
open Munavvar.Discipline
open Munavvar.LockOrder
open Munavvar.ContractLocks

section Programs

variable {c : Uuid} {X : Licence} {d : Directory}

/-- A program keeps to the lock order of a contract. -/
abbrev KeepsOrder (c : Uuid) (X : Licence) (d : Directory) (p : Uow Unit) : Prop :=
  Obeys (contractRows c X) d p (fun _ _ => True) fun _ => False

theorem aside_availableProducts (ids : List Uuid) : Aside c X d (availableProducts ids) :=
  (aside_ask _).bind fun _ => (aside_raiseIf _ _).bind fun _ => aside_ret _

/-- Placing an order locks the contract, then its price list. -/
theorem keepsOrder_createOrder (env : Env) (clientId : Uuid) (dto : OrderCreate) :
    KeepsOrder c X d (createOrder env clientId dto) := by
  refine (aside_raiseIf _ _).obeys_bind clear_empty fun _ H₁ h₁ => ?_
  refine (aside_raiseIf _ _).obeys_bind h₁ fun _ H₂ h₂ => ?_
  refine (aside_availableProducts _).obeys_bind h₂ fun products H₃ h₃ => ?_
  refine ((aside_ask _).bind fun _ => aside_orRaise _ _).obeys_bind h₃ fun client H₄ h₄ => ?_
  refine (obeys_bind _ _).mpr ((obeys_contractTerms h₄ _ _ _ _ _).mono fun terms H₅ h₅ => ?_)
  refine Under.bind ?_ (fun _ => ?_) H₅ fun _ hk => hk
  · cases terms with
    | none => exact (aside_ret _).under
    | some t => exact under_checkAndReserveQuantities (h₅ t rfl).2
  refine (aside_exchangeTara _ _ _ _ _ _).under.bind fun _ => under_insertOrder ⟨rfl, ?_⟩ ?_
  · intro c' hc'
    obtain ⟨t, ht, rfl⟩ := Option.map_eq_some_iff.mp hc'
    exact (h₅ t ht).1
  exact under_issue (.inr (.inr rfl)) rfl

theorem keepsOrder_createWarehouseSale (env : Env) (dto : WarehouseSaleCreate)
    (clientId : Option Uuid) (createdById : Uuid) :
    KeepsOrder c X d (createWarehouseSale env dto clientId createdById) := by
  refine (aside_raiseIf _ _).obeys_bind clear_empty fun _ H₁ h₁ => ?_
  refine (aside_availableProducts _).obeys_bind h₁ fun products H₂ h₂ => ?_
  refine (aside_getInventoryWithBalances _ _ _).obeys_bind h₂ fun _ H₃ h₃ => ?_
  refine (aside_orRaise _ _).obeys_bind h₃ fun _ H₄ h₄ => ?_
  refine ((aside_ask _).bind fun _ => aside_ret _).obeys_bind h₄ fun _ H₅ h₅ => ?_
  refine (aside_orRaise _ _).obeys_bind h₅ fun _ H₆ h₆ => ?_
  refine (aside_exchangeTara _ _ _ _ _ _).obeys_bind h₆ fun _ H₇ h₇ => ?_
  refine under_insertOrder ⟨rfl, nofun⟩ ?_ H₇ fun _ hk => hk
  refine (aside_handleWarehousePickup _ _ _ _).under.bind fun _ => ?_
  exact under_issue (.inr (.inr rfl)) rfl

theorem keepsOrder_completePickup (env : Env) (id completedById : Uuid) :
    KeepsOrder c X d (completePickup env id completedById) := by
  refine (obeys_bind _ _).mpr (obeys_getOrderLocked clear_empty fun o H' _ hid => ?_)
  refine Under.bind (H := H') (aside_raiseIf _ _).under (fun _ => ?_) H' fun _ hk => hk
  refine (aside_raiseIf _ _).under.bind fun _ => (under_issue (.inr hid) rfl).bind fun _ => ?_
  exact (under_issue (.inr hid) rfl).bind fun _ => (aside_handleWarehousePickup _ _ _ _).under

/-- A product is added under the order's lock, then the contract's, then the price item's. -/
theorem keepsOrder_addProductToOrder (env : Env) (id productId : Uuid) (quantity : ℤ)
    (u : Option Uuid) : KeepsOrder c X d (addProductToOrder env id productId quantity u) := by
  refine (aside_raiseIf _ _).obeys_bind clear_empty fun _ H₁ h₁ => ?_
  refine (aside_ask _).obeys_bind h₁ fun products H₂ h₂ => ?_
  refine (aside_orRaise _ _).obeys_bind h₂ fun product H₃ h₃ => ?_
  refine (aside_ask _).obeys_bind h₃ fun joined H₄ h₄ => ?_
  refine (obeys_bind _ _).mpr (obeys_getOrderLocked h₄ fun o H₅ hlow₅ hid₅ => ?_)
  have hguard : Aside c X d (ensureEditable id o u) :=
    (aside_raiseIf _ _).bind fun _ => aside_raiseIf _ _
  refine (obeys_bind _ _).mpr (hguard.obeys fun _ H₆ hno₆ hheld₆ => ?_)
  refine (obeys_bind _ _).mpr ((aside_scalarOneOrNone _).obeys fun existing H₇ hno₇ hheld₇ => ?_)
  have hlow₇ : Low c H₇ := hno₇.low (hno₆.low hlow₅)
  have hid₇ : H₇ (.order id) := hheld₇ _ (hheld₆ _ hid₅)
  refine (obeys_bind _ _).mpr ((obeys_linePrice hlow₇ _ _ _ _ _).and_held.mono fun price H₈ h₈ => ?_)
  have hid₈ : H₈ (.order id) := h₈.2 _ hid₇
  refine Under.bind (H := H₈) ?_ (fun _ => under_issue (.inr hid₈) rfl) H₈ fun _ hk => hk
  cases existing with
  | none => exact under_issue (.inr hid₈) rfl
  | some x => exact under_issue (.inr hid₈) rfl

/-- What follows the lock of an order keeps to the lock order with it. -/
theorem keepsOrder_getOrderLocked {id : Uuid} {f : Order → Uow Unit}
    (h : ∀ o H', H' (.order id) → Under c X d H' (f o)) :
    KeepsOrder c X d (getOrderLocked id >>= f) := by
  refine (obeys_bind _ _).mpr (obeys_getOrderLocked clear_empty fun o H' _ hid => ?_)
  exact h o H' hid H' fun _ hk => hk

theorem keepsOrder_removeProductFromOrder (hX : ∀ c' p, X.exempt (.priceItem c' p)) (env : Env)
    (id productId : Uuid) (u : Option Uuid) :
    KeepsOrder c X d (removeProductFromOrder env id productId u) := by
  refine keepsOrder_getOrderLocked fun o H hid => ?_
  refine Under.bind ?_ fun _ => (aside_scalarOneOrNone _).under.bind fun _ => ?_
  · exact ((aside_raiseIf _ _).bind fun _ => aside_raiseIf _ _).under
  refine under_whenSome fun x => (aside_raiseIf _ _).under.bind fun _ => ?_
  refine (under_issue (.inr hid) rfl).bind fun _ => Under.bind ?_ fun _ => under_issue (.inr hid) rfl
  exact under_whenever (under_whenSome fun _ => under_decrementQuantitiesUsed hX)

theorem keepsOrder_assignCourier (env : Env) (id courierId : Uuid) :
    KeepsOrder c X d (assignCourier env id courierId) := by
  refine keepsOrder_getOrderLocked fun o H hid => ?_
  refine (aside_raiseIf _ _).under.bind fun _ => (aside_raiseIf _ _).under.bind fun _ => ?_
  refine ((aside_ask _).bind fun _ => aside_ret _).under.bind fun _ => ?_
  refine (aside_raiseIf _ _).under.bind fun _ => ?_
  refine ((aside_ask _).bind fun _ => aside_scalarOneOrNone _).under.bind fun _ => ?_
  refine (aside_raiseIf _ _).under.bind fun _ => (under_issue (.inr hid) rfl).bind fun _ => ?_
  exact under_issue (.inr hid) rfl

theorem keepsOrder_updateStatus (hX : ∀ c' p, X.exempt (.priceItem c' p)) (env : Env) (id : Uuid)
    (status : OrderStatus) (actual : List OrderItemActual) (u : Option Uuid)
    (reason : Option String) : KeepsOrder c X d (updateStatus env id status actual u reason) := by
  refine keepsOrder_getOrderLocked fun o H hid => ?_
  refine (aside_raiseIf _ _).under.bind fun _ => Under.bind ?_ fun _ => ?_
  · refine under_whenever ((aside_raiseIf _ _).under.bind fun _ => ?_)
    exact (aside_raiseIf _ _).under.bind fun _ => (aside_raiseIf _ _).under
  refine (under_issue (.inr hid) rfl).bind fun _ => Under.bind ?_ fun _ => Under.bind ?_ fun _ => ?_
  · exact under_whenever (under_handleOrderFulfillment hX env hid _ _)
  · exact under_whenever (under_releaseOrderQuantities hX env hid o)
  · exact (under_whenever (under_issue (.inr hid) rfl)).bind fun _ => under_issue (.inr hid) rfl

/-- The check of a cancellation only reads. -/
theorem keepsOrder_cancelOrder (hX : ∀ c' p, X.exempt (.priceItem c' p)) (env : Env) (id u : Uuid)
    (reason : Option String) : KeepsOrder c X d (cancelOrder env id u reason) := by
  refine (obeys_bind _ _).mpr fun v _ => (obeys_bind _ _).mpr ((obeys_orRaise _ _).mpr ?_)
  refine fun o _ => (obeys_bind _ _).mpr ((obeys_raiseIf _ _).mpr fun _ => ?_)
  refine (obeys_bind _ _).mpr ((obeys_raiseIf _ _).mpr fun _ => ?_)
  exact keepsOrder_updateStatus hX env id _ _ _ _

/-- What follows the lock of a contract keeps to the lock order with it. -/
theorem keepsOrder_getContractLocked {id : Uuid} {f : Contract → Uow Unit}
    (h : ∀ x H', Low c H' → H' (.contract id) → Obeys (contractRows c X) d (f x) (fun _ _ => True) H') :
    KeepsOrder c X d (getContractLocked id >>= f) :=
  (obeys_bind _ _).mpr (obeys_getContractLocked clear_empty.low h)

/-- The other contracts of the client are locked after the contract. -/
theorem keepsOrder_makeActive {id : Uuid} {mayBecome : Contract → Prop} [DecidablePred mayBecome]
    {e : Contract → Err} {data : ContractUpdate} {log : Contract → ContractStatusLog}
    (hactive : X.stops ∨ data.status = .active) :
    KeepsOrder c X d (getContractLocked id >>= fun contract => do
      raiseIf (mayBecome contract) (e contract)
      ensureNoOtherActive id contract
      updateContract id data
      issue (.contract id) (.log (log contract))) := by
  refine keepsOrder_getContractLocked fun x H₁ hlow₁ hid₁ => ?_
  refine (obeys_bind _ _).mpr ((obeys_raiseIf _ _).mpr fun _ => (obeys_bind _ _).mpr ?_)
  refine (obeys_bind _ _).mpr (obeys_getActiveForClientLocked hlow₁ fun other H₂ _ _ hheld₂ => ?_)
  have hcheck : Aside c X d (whenSome other fun y =>
      raiseIf (y.1 ≠ id) (.contractAlreadyActive x.clientId y.1)) :=
    aside_whenSome fun _ => aside_raiseIf _ _
  refine hcheck.obeys fun _ H₃ _ hheld₃ => ?_
  have hid₃ : H₃ (.contract id) := hheld₃ _ (hheld₂ _ hid₁)
  exact ((under_updateContract (.inr hid₃) hactive).bind fun _ => under_issue (.inr hid₃) rfl) H₃
    fun _ hk => hk

/-- A contract is stopped under its lock; the orders it cancels are never waited for. -/
theorem keepsOrder_stop (hX : ∀ c' p, X.exempt (.priceItem c' p)) (hstops : X.stops) {env : Env} {id : Uuid}
    {isStopped : Contract → Prop} [DecidablePred isStopped] {e : Contract → Err}
    {data : ContractUpdate} {reason : String} {log : Contract → ContractStatusLog} :
    KeepsOrder c X d (getContractLocked id >>= fun contract => do
      raiseIf (isStopped contract) (e contract)
      updateContract id data
      cancelInflightOrders env id reason
      issue (.contract id) (.log (log contract))) := by
  refine keepsOrder_getContractLocked fun x H _ hid => ?_
  refine ((aside_raiseIf _ _).under.bind fun _ => ?_) H fun _ hk => hk
  refine (under_updateContract (.inr hid) (.inl hstops)).bind fun _ => ?_
  exact (under_cancelInflightOrders hX env id reason).bind fun _ => under_issue (.inr hid) rfl

/-- The expiry job locks contracts after the price items of their orders. -/
theorem under_runExpireJob (hX : ∀ c' p, X.exempt (.priceItem c' p)) (hX' : ∀ c', X.exempt (.contract c'))
    (hstops : X.stops) {H : Key → Prop} (env : Env) : Under c X d H (runExpireJob env) := by
  refine (aside_ask _).under.bind fun ids => under_forEach fun id _ => ?_
  refine (under_cancelInflightOrders hX env id _).bind fun _ => ?_
  exact (under_updateContract (.inl (hX' id)) (.inl hstops)).bind fun _ => under_issue (.inl (hX' id)) rfl

theorem keepsOrder_setPriceItem (env : Env) (c' p : Uuid) (price quantity : ℤ) :
    KeepsOrder c X d (setPriceItem env c' p price quantity) := by
  refine (obeys_bind _ _).mpr fun v _ => ?_
  rw [obeys_ret]
  split
  · refine (obeys_bind _ _).mpr ((obeys_raiseIf _ _).mpr fun _ => (obeys_bind _ _).mpr ?_)
    refine ⟨.inr (clear_empty.rises _), fun r _ => (obeys_bind _ _).mpr ?_⟩
    refine ⟨⟨trivial, .inr (.inr (rises_of_held (.inr rfl)))⟩, ?_⟩
    exact (obeys_raiseIf _ _).mpr fun _ => trivial
  · refine (obeys_bind _ _).mpr ⟨⟨trivial, .inl rfl⟩, (obeys_bind _ _).mpr fun v _ => ?_⟩
    refine (obeys_bind _ _).mpr fun w _ => (obeys_bind _ _).mpr ((obeys_raiseIf _ _).mpr ?_)
    exact fun _ => (obeys_raiseIf _ _).mpr fun _ => trivial

theorem keepsOrder_removePriceItem (c' p : Uuid) :
    KeepsOrder c X d (removePriceItem c' p) := by
  refine (obeys_bind _ _).mpr fun v _ => (obeys_bind _ _).mpr ((obeys_orRaise _ _).mpr ?_)
  refine fun row _ => (obeys_bind _ _).mpr ((obeys_raiseIf _ _).mpr fun _ => ?_)
  exact ⟨⟨trivial, .inr (.inr (clear_empty.rises _))⟩, trivial⟩

theorem keepsOrder_createContract (env : Env) (clientId : Uuid) (dto : ContractCreate) :
    KeepsOrder c X d (createContract env clientId dto) := by
  refine (obeys_bind _ _).mpr ((obeys_bind _ _).mpr fun v _ => ?_)
  refine (aside_scalarOneOrNone _).obeys fun existing H _ _ => (obeys_bind _ _).mpr ?_
  exact (obeys_whenSome _ _).mpr ⟨fun _ _ => trivial, fun _ => ⟨⟨rfl, .inl rfl⟩, trivial⟩⟩

/-! ## Invoices -/

theorem keepsOrder_generateInvoice (env : Env) (id : Uuid) (periodFrom periodTo : ℤ) :
    KeepsOrder c X d (generateInvoice env id periodFrom periodTo) := by
  refine keepsOrder_getContractLocked fun x H _ _ => ?_
  refine Aside.obeys ?_ fun _ _ _ _ => trivial
  refine ((aside_ask _).bind fun _ => aside_scalarOneOrNone _).bind fun _ => ?_
  refine (aside_raiseIf _ _).bind fun _ => (aside_ask _).bind fun _ => (aside_ask _).bind fun _ => ?_
  refine (aside_ask _).bind fun _ => (aside_issue rfl rfl).bind fun _ => ?_
  exact aside_raiseIf _ _

theorem aside_changeInvoice (contractId id : Uuid) (expected : List InvoiceStatus)
    (data : InvoiceUpdate) : Aside c X d (changeInvoice contractId id expected data) := by
  refine (aside_ask _).bind fun _ => (aside_orRaise _ _).bind fun _ => ?_
  refine (aside_raiseIf _ _).bind fun _ => (aside_lock rfl).bind fun _ => ?_
  exact (aside_issue rfl rfl).bind fun _ => aside_raiseIf _ _

theorem aside_runOverdueJob (env : Env) : Aside c X d (runOverdueJob env) := by
  refine (aside_ask _).bind fun _ => aside_forEach fun id => (aside_lock rfl).bind fun _ => ?_
  exact (aside_issue rfl rfl).bind fun _ => aside_raiseIf _ _

/-- Every operation keeps to the lock order, but for the locks of releases and
of the expiry job. -/
theorem keepsOrder_program (r : Request) : KeepsOrder c (licence r.op) d (program r) := by
  have hempty : ∀ k : Key, False → False := fun _ h => h
  obtain ⟨env, op⟩ := r
  cases op with
  | createOrder clientId dto => exact keepsOrder_createOrder env clientId dto
  | createWarehouseSale dto clientId createdById =>
    exact keepsOrder_createWarehouseSale env dto clientId createdById
  | completePickup id u => exact keepsOrder_completePickup env id u
  | addProductToOrder id p q u => exact keepsOrder_addProductToOrder env id p q u
  | removeProductFromOrder id p u =>
    exact keepsOrder_removeProductFromOrder (fun _ _ => trivial) env id p u
  | assignCourier id u => exact keepsOrder_assignCourier env id u
  | updateStatus id status actual u reason =>
    exact keepsOrder_updateStatus (fun _ _ => trivial) env id status actual u reason
  | cancelOrder id u reason => exact keepsOrder_cancelOrder (fun _ _ => trivial) env id u reason
  | expireStaleOrders a b u =>
    exact under_expireStaleOrders (fun _ _ => trivial) env a b u _ hempty
  | createContract clientId dto => exact keepsOrder_createContract env clientId dto
  | activateContract id u => exact keepsOrder_makeActive (.inr rfl)
  | suspendContract id reason u => exact keepsOrder_stop (fun _ _ => trivial) trivial
  | reinstateContract id u => exact keepsOrder_makeActive (.inr rfl)
  | terminateContract id reason u => exact keepsOrder_stop (fun _ _ => trivial) trivial
  | runExpireJob =>
    exact under_runExpireJob (fun _ _ => trivial) (fun _ => trivial) trivial env _ hempty
  | setPriceItem c' p price q => exact keepsOrder_setPriceItem env c' p price q
  | removePriceItem c' p => exact keepsOrder_removePriceItem c' p
  | generateInvoice id a b => exact keepsOrder_generateInvoice env id a b
  | issueInvoice c' id => exact (aside_changeInvoice _ _ _ _).under _ hempty
  | markInvoicePaid c' id => exact (aside_changeInvoice _ _ _ _).under _ hempty
  | cancelInvoice c' id => exact (aside_changeInvoice _ _ _ _).under _ hempty
  | runOverdueJob => exact (aside_runOverdueJob env).under _ hempty
  | updateProduct p product => exact ((aside_issue rfl rfl).under (H := fun _ => False)) _ hempty

end Programs

/-- Every stored order is active. -/
def AllActive (s : Db) : Prop := ∀ id o, s.orders.find? id = some o → o.isActive = true

/-- A row that is not an order out of use. -/
def ActiveRow : (k : Key) → Option (Row k) → Prop
  | .order _, row => ∀ o : Order, row = some o → o.isActive = true
  | _, _ => True

/-- Orders are made active and stay so. -/
theorem program_allActive {R : Regime schema} (hsound : R.Sound) (hlax : R.Lax) {s : Db}
    (h : AllActive s) (r : Request) :
    wp R (program r) (fun _ s' => AllActive s') (fun _ => True) s := by
  have hobeys : Obeys { contractRows 0 (licence r.op) with rows := ActiveRow } s.directory
      (program r) (fun _ _ => True) fun _ => False :=
    (keepsOrder_program r).weaken (fun _ _ _ => trivial) (fun _ _ hk => hk) fun _ _ _ hst => hst
  refine wp_mono _ (wp_of_obeys hsound hlax ?_ hobeys ?_)
    (fun _ s' hs' id o ho => hs'.2.2 (.order id) o ho) fun _ he => he
  · intro H k st old row hst hold hrow
    cases k with
    | order id =>
      intro o ho
      rcases order_exec hrow with ⟨o₀, o', rfl, rfl, -, hsame⟩ | ⟨-, rfl | ⟨o', rfl, rfl⟩⟩
      · cases ho
        exact hsame.trans (hold o₀ rfl)
      · cases ho
      · cases ho
        exact hst.1.1
    | _ => exact trivial
  · intro k
    cases k with
    | order id => exact h id
    | _ => exact trivial

end Munavvar.OperationLocks
