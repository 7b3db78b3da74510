import Munavvar.StockService
import Munavvar.OrderEffects

/-!
# The effect of the stock service

The operations of the stock service move stock and change nothing else.
-/

namespace Munavvar.StockEffects

open Munavvar.KeyedTable
open Munavvar.Transaction
open Munavvar.Transaction.Prog
open Munavvar.Database
open Munavvar.StockLedger
open Munavvar.OrderQueries
open Munavvar.StockService
open Munavvar.Footprints
open Munavvar.OrderEffects

section Within

variable {P : (k : Key) → Stmt k → Prop}

theorem getSystemInventory_quiet (type : InventoryType) : Quiet P (getSystemInventory type) := by
  refine within_bind (within_ask _) fun d => ?_
  exact within_bind (scalarOneOrNone_quiet _) fun i => (within_orRaise _ _).mpr fun _ => rfl

theorem getInventory_quiet (id : Uuid) : Quiet P (getInventory id) :=
  within_bind (within_ask _) fun _ => (within_orRaise _ _).mpr fun _ => rfl

theorem endpoint_quiet (types : List TransferType) (invType : InventoryType) (type : TransferType)
    (named : Option Uuid) : Quiet P (endpoint types invType type named) := by
  unfold endpoint
  split
  · exact within_bind (getSystemInventory_quiet _) fun _ => trivial
  · exact trivial

theorem checkStock_quiet (i : Inventory) (items : List Item) : Quiet P (checkStock i items) := by
  refine (within_whenever _ _).mpr fun _ => ?_
  refine within_bind (getInventoryWithBalances_within _ _ _) fun locked => ?_
  refine within_bind ((within_orRaise _ _).mpr fun _ => rfl) fun x => ?_
  exact (within_raiseIf _ _).mpr fun _ => rfl

theorem createTransfer_quiet (env : Env) (createdById : Uuid) (dto : CreateTransferRequest)
    (callerScopes : Option (List String)) :
    Quiet StockStmt (createTransfer env createdById dto callerScopes) := by
  refine within_bind ((within_raiseIf _ _).mpr fun _ => rfl) fun _ => ?_
  refine within_bind (within_ask _) fun products => ?_
  refine within_bind ((within_raiseIf _ _).mpr fun _ => rfl) fun _ => ?_
  refine within_bind (endpoint_quiet _ _ _ _) fun fromId => ?_
  refine within_bind (endpoint_quiet _ _ _ _) fun toId => ?_
  refine within_bind ((within_orRaise _ _).mpr fun _ => rfl) fun fromId => ?_
  refine within_bind ((within_orRaise _ _).mpr fun _ => rfl) fun toId => ?_
  refine within_bind ((within_raiseIf _ _).mpr fun _ => rfl) fun _ => ?_
  refine within_bind (getInventory_quiet _) fun source => ?_
  refine within_bind (getInventory_quiet _) fun target => ?_
  refine within_bind ((within_raiseIf _ _).mpr fun _ => rfl) fun _ => ?_
  refine within_bind ((within_raiseIf _ _).mpr fun _ => rfl) fun _ => ?_
  refine within_bind (checkStock_quiet _ _) fun _ => ?_
  exact createStockTransfer_quiet _ _ _ _ _ _ _ _ _ _

theorem enterInitialBalance_quiet (env : Env) (n : ℕ) (toId : Uuid) (items : List (Uuid × ℤ))
    (createdById : Uuid) : Quiet StockStmt (enterInitialBalance env n toId items createdById) := by
  refine within_bind getVendorInventory_quiet fun vendor => ?_
  refine within_bind (within_ask _) fun d => ?_
  refine within_bind ((within_execute _ _).mpr trivial) fun _ => ?_
  refine within_bind ((within_raiseIf _ _).mpr fun _ => rfl) fun _ => ?_
  refine within_bind ((within_raiseIf _ _).mpr fun _ => rfl) fun _ => ?_
  refine within_forEach fun x => ?_
  refine within_bind ((within_execute _ _).mpr trivial) fun _ => ?_
  refine within_bind (within_ask _) fun product => ?_
  refine within_bind ((within_raiseIf _ _).mpr fun _ => rfl) fun _ => ?_
  exact insertStockTransactions_within (fun _ _ => trivial) (fun _ _ _ => trivial) (fun _ => rfl)
    (fun _ => rfl) _

/-- The stock service moves stock and nothing else. -/
theorem stockProgram_quiet (env : Env) (op : StockOperation) :
    Quiet StockStmt (op.program env) := by
  cases op with
  | createTransfer createdById dto callerScopes => exact createTransfer_quiet _ _ _ _
  | capitalizeTara dto createdById =>
    refine within_bind (getInventoryWithBalances_within _ _ _) fun inventory => ?_
    refine within_bind ((within_orRaise _ _).mpr fun _ => rfl) fun x => ?_
    exact enterInitialBalance_quiet _ _ _ _ _
  | capitalizeTaraForClient clientId items createdById =>
    refine within_bind (getClientInventory_quiet _) fun inventory => ?_
    refine within_bind ((within_orRaise _ _).mpr fun _ => rfl) fun x => ?_
    exact enterInitialBalance_quiet _ _ _ _ _
  | capitalizeDeficit dto clientId =>
    refine within_bind (within_ask _) fun products => (within_whenever _ _).mpr fun _ => ?_
    refine within_bind (getInventoryWithBalances_within _ _ _) fun inventory => ?_
    refine within_bind ((within_orRaise _ _).mpr fun _ => rfl) fun x => ?_
    refine within_bind ((within_raiseIf _ _).mpr fun _ => rfl) fun _ => ?_
    exact (within_whenever _ _).mpr fun _ => enterInitialBalance_quiet _ _ _ _ _

end Within

end Munavvar.StockEffects
