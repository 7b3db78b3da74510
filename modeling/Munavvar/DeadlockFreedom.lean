import Munavvar.OperationLocks
import Munavvar.QuotaLimit

/-!
# No deadlock on the rows of a contract

Every operation keeps to the lock order of every contract, releases and the
expiry job apart. Where these ask for their locks in order as well, transactions
never wait for each other in a cycle. Two cancellations of orders that hold the
same products in opposite orders do.
-/

namespace Munavvar.DeadlockFreedom

open Munavvar.KeyedTable
open Munavvar.Transaction
open Munavvar.Transaction.Prog
open Munavvar.ReadCommitted
open Munavvar.Database
open Munavvar.StockLedger
open Munavvar.FinancialLedger
open Munavvar.Quota
open Munavvar.OrderQueries
open Munavvar.Fulfillment
open Munavvar.OrderService
open Munavvar.ContractService
open Munavvar.Operations
open Munavvar.Discipline
open Munavvar.LockOrder
open Munavvar.ContractLocks
open Munavvar.OperationLocks
open Munavvar.QuotaLimit (alone)

/-! ## Runs -/

/-- A transaction that releases quota and now asks for a price item, or the
expiry job that asks for a contract, asks in the lock order: the row is its own
already, or it comes after all rows of the contract that the transaction holds. -/
def ReleasesInOrder (c : Uuid) (σ : Sys schema Request) : Prop :=
  ∀ t x k, σ.txns t = some x → request isInsert x.prog = some k → outOfOrder x.op.op k →
    InOrder c (fun j => σ.holder j = some t) k

/-- A cycle of transactions, each of which waits for a row of the orders, of a
contract or of its price list that the next one holds. -/
def Deadlock (c : Uuid) (σ : Sys schema Request) : Prop :=
  ∃ t, Relation.TransGen (Waits isInsert (contractRank c) σ) t t

theorem no_deadlock_of_releases_in_order (c : Uuid) (s : Db) {σ : Sys schema Request}
    (h : Reach program (fun _ _ _ => True) (Sys.init s) σ) (hreleases : ReleasesInOrder c σ) :
    ¬ Deadlock c σ := by
  have hdisciplined : Disciplined (fun r : Request =>
      ordered isInsert (contractRank c) (outOfOrder r.op)) (schema.static s) σ := by
    refine Reach.disciplined (fun _ _ _ => trivial) (fun r => ?_) h
    exact (keepsOrder_program r).weaken (fun _ _ _ => trivial) (fun _ _ hk => hk) fun _ _ _ hk => hk.2
  rintro ⟨t, hcycle⟩
  exact no_cycle hdisciplined hreleases t hcycle

/-! ## Two schedules -/

/-- An order of two products by contract. -/
def bothOf (p q : Uuid) : Operation :=
  .createOrder 7 ⟨[⟨p, 1, one_piece⟩, ⟨q, 1, one_piece⟩], .contract, 5, false, none⟩

/-- Bottles and coffee are in the price list. -/
def priceList : List (ReadCommitted.Action Request) :=
  alone 0 4 (.setPriceItem 31 22 60 10) ++ alone 1 4 (.setPriceItem 31 23 60 10)

/-- Two orders list the same products in opposite orders; the second waits for the contract. -/
def reservingActions : List (ReadCommitted.Action Request) :=
  priceList ++ [.start 2 (sampleRequest 2 1 (bothOf 22 23)),
    .start 3 (sampleRequest 3 1 (bothOf 23 22))] ++
  List.replicate 4 (.step 2) ++ List.replicate 3 (.step 3)

theorem no_deadlock_of_reservations :
    ∃ σ, reservingActions.foldlM (Sys.exec program) (Sys.init (fresh sampleDb)) = some σ ∧
      Waits isInsert (contractRank 31) σ 3 2 ∧ ¬ Deadlock 31 σ := by
  have heval : (reservingActions.foldlM (Sys.exec program) (Sys.init (fresh sampleDb))).map
      (fun σ => ((σ.txns 3).map fun x => request isInsert x.prog, σ.holder (.contract 31))) =
      some (some (some (.contract 31)), some 2) := by decide +kernel
  obtain ⟨σ, hrun, heval⟩ := Option.map_eq_some_iff.mp heval
  rw [Prod.mk.injEq] at heval
  obtain ⟨hrequest, hholder⟩ := heval
  obtain ⟨x, hx, hk⟩ := Option.map_eq_some_iff.mp hrequest
  refine ⟨σ, hrun, ⟨x, _, hx, hk, rfl, hholder, by decide⟩, ?_⟩
  refine no_deadlock_of_releases_in_order 31 (fresh sampleDb) (Reach.of_actions _ hrun) ?_
  intro t y k hy _ hrelease
  have hstarted := Sys.started_of_actions hrun hy
  simp only [reservingActions, priceList, alone, List.mem_append, List.mem_cons, List.mem_replicate,
    List.not_mem_nil, Action.start.injEq, reduceCtorEq, and_false, or_false] at hstarted
  rcases hstarted with (⟨-, hop⟩ | ⟨-, hop⟩) | ⟨-, hop⟩ | ⟨-, hop⟩ <;> rw [hop] at hrelease <;>
    exact hrelease.elim

/-- Two orders list the same products in opposite orders and are both cancelled. -/
def releasingActions : List (ReadCommitted.Action Request) :=
  priceList ++ alone 2 15 (bothOf 22 23) ++ alone 3 15 (bothOf 23 22) ++
  [.start 4 (sampleRequest 4 1 (.cancelOrder 30000 7 none)),
    .start 5 (sampleRequest 5 1 (.cancelOrder 40000 7 none))] ++
  List.replicate 5 (.step 4) ++ List.replicate 5 (.step 5)

theorem cancellations_deadlock :
    ¬ ∀ (c : Uuid) (s : Db) (σ : Sys schema Request),
      Reach program (fun _ _ _ => True) (Sys.init (fresh s)) σ → ¬ Deadlock c σ := by
  intro hclaim
  have heval : (releasingActions.foldlM (Sys.exec program) (Sys.init (fresh sampleDb))).map
      (fun σ => ((σ.txns 4).map fun x => request isInsert x.prog, σ.holder (.priceItem 31 23),
        (σ.txns 5).map fun x => request isInsert x.prog, σ.holder (.priceItem 31 22))) =
      some (some (some (.priceItem 31 23)), some 5, some (some (.priceItem 31 22)), some 4) := by
    decide +kernel
  obtain ⟨σ, hrun, heval⟩ := Option.map_eq_some_iff.mp heval
  simp only [Prod.mk.injEq] at heval
  obtain ⟨hfirst, hheld, hsecond, hheld'⟩ := heval
  obtain ⟨x, hx, hk⟩ := Option.map_eq_some_iff.mp hfirst
  obtain ⟨y, hy, hj⟩ := Option.map_eq_some_iff.mp hsecond
  have hwaits : Waits isInsert (contractRank 31) σ 4 5 := ⟨x, _, hx, hk, rfl, hheld, by decide⟩
  have hwaits' : Waits isInsert (contractRank 31) σ 5 4 := ⟨y, _, hy, hj, rfl, hheld', by decide⟩
  refine hclaim 31 sampleDb σ (Reach.of_actions _ hrun) ⟨4, ?_⟩
  exact Relation.TransGen.tail (.single hwaits) hwaits'

end Munavvar.DeadlockFreedom
