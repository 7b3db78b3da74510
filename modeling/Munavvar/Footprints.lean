import Munavvar.ContractService

/-!
# Footprints of the services

Which statements a program may execute and which exceptions it may raise,
whatever it reads. Each footprint names the statements and the exceptions that
the program needs; what a result asks of them is left to the result.
-/

namespace Munavvar.Footprints

open Munavvar.Transaction
open Munavvar.Transaction.Prog
open Munavvar.Database
open Munavvar.StockLedger
open Munavvar.FinancialLedger
open Munavvar.OrderQueries
open Munavvar.Quota
open Munavvar.Fulfillment
open Munavvar.OrderService
open Munavvar.ContractService

variable {P : (k : Key) → Stmt k → Prop} {X : Err → Prop}

/-! ## Reads -/

theorem scalarOneOrNone_within {V : Type} (hmultiple : X .multipleResultsFound) (l : List V) :
    Within (S := schema) P X (scalarOneOrNone l) := by
  match l with
  | [] => exact trivial
  | [_] => exact trivial
  | _ :: _ :: _ => exact hmultiple

theorem getInventoryWithBalances_within (id : Uuid) (type : Option InventoryType) (lock : Bool) :
    Within (S := schema) P X (getInventoryWithBalances id type lock) := by
  refine within_bind ((within_whenever _ _).mpr fun _ => ?_) fun _ => ?_
  · exact within_bind (within_locked _) fun _ => within_ret _
  · exact within_bind (within_ask _) fun _ => within_bind (within_ask _) fun _ => within_ret _

theorem getActiveForClientLocked_within (hmultiple : X .multipleResultsFound) (clientId : Uuid) :
    Within (S := schema) P X (getActiveForClientLocked clientId) := by
  refine within_bind (within_ask _) fun candidates => ?_
  refine within_bind (within_collect fun id => ?_) fun rows => scalarOneOrNone_within hmultiple _
  exact within_bind (within_locked _) fun row => within_ret _

theorem getForProductsLocked_within (c : Uuid) (ids : List Uuid) :
    Within (S := schema) P X (getForProductsLocked c ids) := by
  refine within_bind (within_ask _) fun candidates => ?_
  refine within_bind (within_collect fun x => ?_) fun rows => within_ret _
  exact within_bind (within_locked _) fun row => within_ret _

theorem lockCandidates_within (isMatch : Order → Bool) (n : ℕ) (ids : List Uuid) :
    Within (S := schema) P X (lockCandidates isMatch n ids) := by
  induction ids generalizing n with
  | nil => cases n <;> exact within_ret _
  | cons id ids ih =>
    cases n with
    | zero => exact within_ret _
    | succ n =>
      refine within_bind (within_unlessLocked _) fun row => ?_
      cases row.join.filter isMatch with
      | none => exact ih (n + 1)
      | some o => exact within_bind (ih n) fun _ => within_ret _

theorem lockMatching_within (isMatch : Order → Bool) (limit : Option ℕ) :
    Within (S := schema) P X (lockMatching isMatch limit) :=
  within_bind (within_ask _) fun _ => lockCandidates_within _ _ _

/-- The exceptions of an order that cannot be paid by contract. -/
def refusesContract : Err → Bool
  | .badRequest _ _ _ => true
  | .multipleResultsFound => true
  | .contractRequired _ => true
  | .contractNotActive _ _ => true
  | .contractExpired _ => true
  | .productNotInContract _ _ => true
  | _ => false

theorem contractTerms_within (env : Env) (clientId : Uuid) (role : Role) (method : PaymentMethod)
    (ids : List Uuid) :
    Within (S := schema) P (fun e => refusesContract e = true)
      (contractTerms env clientId role method ids) := by
  have hmultiple : refusesContract .multipleResultsFound = true := rfl
  unfold contractTerms
  split
  · refine within_bind ?_ fun x => within_bind (getForProductsLocked_within _ _) fun locked => ?_
    · refine within_bind ((within_raiseIf _ _).mpr fun _ => rfl) fun _ => ?_
      refine within_bind (getActiveForClientLocked_within hmultiple _) fun contract => ?_
      refine within_bind ((within_orRaise _ _).mpr fun _ => rfl) fun x => ?_
      refine within_bind ((within_raiseIf _ _).mpr fun _ => rfl) fun _ => ?_
      exact within_bind ((within_raiseIf _ _).mpr fun _ => rfl) fun _ => within_ret _
    · exact within_bind ((within_whenSome _ _).mpr fun _ _ => rfl) fun _ => within_ret _
  · exact within_ret _

/-! ## The quota -/

theorem incrementQuantitiesUsed_within {c : Uuid}
    (hprice : ∀ p id q, P (.priceItem c p) (.increment id q))
    (hpos : ∀ id q, X (.incrementNotPositive id q)) (hrow : ∀ id, X (.incrementNoRows id))
    (items : List (Uuid × Uuid × ℤ)) :
    Within (S := schema) P X (incrementQuantitiesUsed c items) := by
  refine within_forEach fun x => ?_
  refine within_bind ((within_raiseIf _ _).mpr fun _ => hpos _ _) fun _ => ?_
  refine within_bind (within_locked _) fun row => ?_
  refine within_bind ((within_execute _ _).mpr (hprice _ _ _)) fun _ => ?_
  exact (within_raiseIf _ _).mpr fun _ => hrow _

theorem decrementQuantitiesUsed_within {c : Uuid}
    (hprice : ∀ p q, P (.priceItem c p) (.decrement q))
    (hpos : ∀ p q, X (.decrementNotPositive p q)) (hrow : ∀ p, X (.decrementNoRows c p))
    (qs : List (Uuid × ℤ)) : Within (S := schema) P X (decrementQuantitiesUsed c qs) := by
  refine within_forEach fun x => ?_
  refine within_bind ((within_raiseIf _ _).mpr fun _ => hpos _ _) fun _ => ?_
  refine within_bind (within_locked _) fun row => ?_
  refine within_bind ((within_execute _ _).mpr (hprice _ _)) fun _ => ?_
  exact (within_raiseIf _ _).mpr fun _ => hrow _

theorem checkAndReserveQuantities_within {c : Uuid}
    (hprice : ∀ p id q, P (.priceItem c p) (.increment id q))
    (hlimit : ∀ p limit used q, X (.quantityLimitExceeded c p limit used q))
    (hpos : ∀ id q, X (.incrementNotPositive id q)) (hrow : ∀ id, X (.incrementNoRows id))
    (items : List (Uuid × ℤ)) (ps : List (Uuid × PriceItem)) :
    Within (S := schema) P X (checkAndReserveQuantities c items ps) := by
  refine within_bind (within_forEach fun x => ?_) fun _ =>
    incrementQuantitiesUsed_within hprice hpos hrow _
  exact (within_whenSome _ _).mpr fun p _ => (within_raiseIf _ _).mpr fun _ => hlimit _ _ _ _

/-! ## The ledgers -/

theorem postTransaction_within (haccount : ∀ id q, P (.account id) (.add q))
    (hkey : ∀ c, X (.foreignKeyViolation c)) (hhistory : ∀ m, X (.immutableHistory m))
    (row : FinancialTransaction) :
    Within (S := schema) P X (do checkReferences row; updateAccountBalances none row) := by
  refine within_bind ?_ fun _ => ?_
  · refine within_bind (within_ask _) fun d => within_bind (within_ask _) fun orderExists => ?_
    refine within_bind ((within_raiseIf _ _).mpr fun _ => hkey _) fun _ => ?_
    refine within_bind ((within_raiseIf _ _).mpr fun _ => hkey _) fun _ => ?_
    exact (within_raiseIf _ _).mpr fun _ => hkey _
  · refine within_bind ((within_raiseIf _ _).mpr fun _ => hhistory _) fun _ => ?_
    refine within_bind ((within_raiseIf _ _).mpr fun _ => hhistory _) fun _ => ?_
    refine (within_whenever _ _).mpr fun _ => ?_
    refine within_bind (within_locked _) fun _ => within_bind (within_locked _) fun _ => ?_
    exact within_bind ((within_execute _ _).mpr (haccount _ _)) fun _ =>
      (within_execute _ _).mpr (haccount _ _)

theorem insertTransactions_within (hinsert : ∀ id row, P (.transaction id) (.insert row))
    (haccount : ∀ id q, P (.account id) (.add q)) (hkey : ∀ c, X (.foreignKeyViolation c))
    (hhistory : ∀ m, X (.immutableHistory m)) (rows : List (Uuid × FinancialTransaction)) :
    Within (S := schema) P X (insertTransactions rows) := by
  refine within_bind (within_forEach fun r => (within_execute _ _).mpr (hinsert _ _)) fun _ => ?_
  exact within_forEach fun r => postTransaction_within haccount hkey hhistory r.2

/-- A settlement fails for want of an account, of its payment or of its postings. -/
theorem settle_within (hinsert : ∀ id row, P (.transaction id) (.insert row))
    (haccount : ∀ id q, P (.account id) (.add q)) (hkey : ∀ c, X (.foreignKeyViolation c))
    (hhistory : ∀ m, X (.immutableHistory m))
    (hmissing : ∀ message code details, X (.notFound message code details)) (env : Env)
    (id : Uuid) (o : Order) (missingClient debtReason : String)
    {payment : Directory → Account → Except Err (List FinancialTransaction)}
    (hpayment : ∀ d a e, payment d a = .error e → X e) :
    Within (S := schema) P X (settle env id o missingClient debtReason payment) := by
  refine within_bind (within_ask _) fun d => ?_
  refine within_bind ((within_orRaise _ _).mpr fun _ => hmissing _ _ _) fun client => ?_
  refine within_bind ((within_orRaise _ _).mpr fun _ => hmissing _ _ _) fun revenue => ?_
  refine within_bind ((within_fromExcept _).mpr fun e he => hpayment _ _ _ he) fun payments => ?_
  exact insertTransactions_within hinsert haccount hkey hhistory _

theorem postMovement_within (hbalance : ∀ i p q, P (.balance i p) (.add q))
    (hkey : ∀ c, X (.foreignKeyViolation c)) (hguard : ∀ m, X (.negativeBalance m))
    (row : StockTransaction) :
    Within (S := schema) P X (do checkRoute row; updateInventoryBalances row) := by
  refine within_bind ?_ fun _ => ?_
  · refine within_bind (within_ask _) fun d => within_bind (within_ask _) fun transfer => ?_
    refine within_bind ((within_raiseIf _ _).mpr fun _ => hkey _) fun _ => ?_
    refine within_bind ((within_raiseIf _ _).mpr fun _ => hkey _) fun _ => ?_
    exact (within_raiseIf _ _).mpr fun _ => hkey _
  · refine within_bind (within_forEach fun leg => (within_execute _ _).mpr (hbalance _ _ _))
      fun _ => ?_
    refine within_bind (within_locked _) fun source => ?_
    refine within_bind (within_locked _) fun target => ?_
    exact within_bind (within_ask _) fun d => (within_raiseIf _ _).mpr fun _ => hguard _

theorem insertStockTransactions_within
    (hinsert : ∀ id row, P (.stockTransaction id) (.insert row))
    (hbalance : ∀ i p q, P (.balance i p) (.add q)) (hkey : ∀ c, X (.foreignKeyViolation c))
    (hguard : ∀ m, X (.negativeBalance m)) (rows : List (Uuid × StockTransaction)) :
    Within (S := schema) P X (insertStockTransactions rows) := by
  refine within_bind (within_forEach fun r => (within_execute _ _).mpr (hinsert _ _)) fun _ => ?_
  exact within_forEach fun r => postMovement_within hbalance hkey hguard r.2

theorem createStockTransfer_within (hkey : ∀ c, X (.foreignKeyViolation c))
    (hguard : ∀ m, X (.negativeBalance m)) (env : Env) (n : ℕ) (fromId toId : Uuid)
    (type : TransferType) (items : List (Uuid × ℤ)) (createdById : Uuid)
    (acceptedById orderId : Option Uuid) (reason : Option String) :
    Within (S := schema) StockStmt X
      (createStockTransfer env n fromId toId type items createdById acceptedById orderId reason) := by
  refine within_bind (within_ask _) fun d => ?_
  refine within_bind ((within_execute _ _).mpr trivial) fun _ => ?_
  refine within_bind ((within_raiseIf _ _).mpr fun _ => hkey _) fun _ => ?_
  refine within_bind ((within_raiseIf _ _).mpr fun _ => hkey _) fun _ => ?_
  refine within_bind ((within_execute _ _).mpr trivial) fun _ => ?_
  exact insertStockTransactions_within (fun _ _ => trivial) (fun _ _ _ => trivial) hkey hguard _

/-! ## Orders -/

/-- Entering what was handed over of the lines. -/
theorem adjustLines_within {id : Uuid} (hline : ∀ i q, P (.order id) (.updateQuantity i q))
    (hexceeded : ∀ p ordered actual, X (.deliveryQuantityExceeded p ordered actual))
    (items : List OrderItem) (actual : List OrderItemActual) :
    Within (S := schema) P X (forEach items.zipIdx fun (item, index) =>
      whenSome (actualQuantity actual item.productId) fun requested => do
        raiseIf (requested < 0) (.deliveryQuantityExceeded item.productId item.quantity requested)
        raiseIf (item.quantity < requested)
          (.deliveryQuantityExceeded item.productId item.quantity requested)
        issue (.order id) (.updateQuantity index requested)) := by
  refine within_forEach fun x => (within_whenSome _ _).mpr fun requested _ => ?_
  refine within_bind ((within_raiseIf _ _).mpr fun _ => hexceeded _ _ _) fun _ => ?_
  refine within_bind ((within_raiseIf _ _).mpr fun _ => hexceeded _ _ _) fun _ => ?_
  exact (within_execute _ _).mpr (hline _ _)

theorem deliverStock_within (hmultiple : X .multipleResultsFound)
    (hvehicle : ∀ id, X (courierInventoryNotFound id))
    (hshort : ∀ shortages, X (.insufficientStock shortages))
    (hkey : ∀ c, X (.foreignKeyViolation c)) (hguard : ∀ m, X (.negativeBalance m)) (env : Env)
    (orderId : Uuid) (o : Order) (courierId : Uuid) :
    Within (S := schema) StockStmt X (deliverStock env orderId o courierId) := by
  refine within_bind ?_ fun row => ?_
  · exact within_bind (within_ask _) fun _ => scalarOneOrNone_within hmultiple _
  refine within_bind ((within_orRaise _ _).mpr fun _ => hvehicle _) fun row => ?_
  refine within_bind (getInventoryWithBalances_within _ _ _) fun inventory => ?_
  refine within_bind ((within_orRaise _ _).mpr fun _ => hvehicle _) fun x => ?_
  refine within_bind ((within_raiseIf _ _).mpr fun _ => hshort _) fun _ => ?_
  refine within_bind (within_ask _) fun returnable => ?_
  refine within_bind (createStockTransfer_within hkey hguard _ _ _ _ _ _ _ _ _ _) fun _ => ?_
  exact (within_whenever _ _).mpr fun _ => createStockTransfer_within hkey hguard _ _ _ _ _ _ _ _ _ _

/-- The cancellation of a contract's open orders. -/
theorem cancelInflightOrders_within {c : Uuid}
    (hupdate : ∀ id data now, P (.order id) (.update data now))
    (hlog : ∀ id entry, P (.order id) (.logTransition entry))
    (hprice : ∀ p q, P (.priceItem c p) (.decrement q))
    (hpos : ∀ p q, X (.decrementNotPositive p q)) (hrow : ∀ p, X (.decrementNoRows c p))
    (env : Env) (reason : String) :
    Within (S := schema) P X (cancelInflightOrders env c reason) := by
  refine within_bind (lockMatching_within _ _) fun cancelled => ?_
  refine within_bind (within_forEach fun x => (within_execute _ _).mpr (hupdate _ _ _)) fun _ => ?_
  refine within_bind (within_collect fun x => within_bind (within_locked _) fun _ => within_ret _)
    fun items => ?_
  refine within_bind (decrementQuantitiesUsed_within hprice hpos hrow _) fun _ => ?_
  refine within_bind (within_forEach fun x => (within_execute _ _).mpr (hupdate _ _ _)) fun _ => ?_
  exact within_forEach fun x => within_bind ((within_execute _ _).mpr (hupdate _ _ _)) fun _ =>
    (within_execute _ _).mpr (hlog _ _)

end Munavvar.Footprints
