import Munavvar.OrderService
import Munavvar.Operations
import Munavvar.FirstRead

/-!
# The cancellation by a client

A client may cancel a new order only. The check is a transaction of its own;
the cancellation is left to the general change of status, which locks the order
and also cancels orders that are on their way. The check decides as long as
nobody changes the status between the two.
-/

namespace Munavvar.ClientCancellation

open Munavvar.KeyedTable
open Munavvar.Transaction
open Munavvar.Transaction.Prog
open Munavvar.ReadCommitted
open Munavvar.FirstRead
open Munavvar.Database
open Munavvar.StockLedger
open Munavvar.OrderQueries
open Munavvar.OrderService
open Munavvar.Operations (sampleDb)

/-- The operations on one order that the cancellation meets. -/
inductive StatusOperation
  | cancelOrder (env : Env) (orderId requestingUserId : Uuid) (reason : Option String)
  | assignCourier (env : Env) (orderId courierId : Uuid)
  | updateStatus (env : Env) (orderId : Uuid) (newStatus : OrderStatus)
      (actualItems : List OrderItemActual) (requestingUserId : Option Uuid)
      (cancellationReason : Option String)

/-- The transaction of an operation. -/
def program : StatusOperation → Uow Unit
  | .cancelOrder env orderId requestingUserId reason => cancelOrder env orderId requestingUserId reason
  | .assignCourier env orderId courierId => assignCourier env orderId courierId
  | .updateStatus env orderId newStatus actualItems requestingUserId cancellationReason =>
    updateStatus env orderId newStatus actualItems requestingUserId cancellationReason

/-- The cancellation of an order finds the status that its check has read. -/
def statusAsRead : (k : Key) → Option Db × Stmt k → Option (Row k) → Bool
  | .order id, (some v, .update data _), old =>
    data.status ≠ some .cancelled || old.map Order.status = (v.orders.find? id).map Order.status
  | _, _, _ => true

/-- The order is new. -/
def IsNew (id : Uuid) (s : Db) : Prop := ∃ o, s.orders.find? id = some o ∧ o.status = .new

/-- A cancellation that ends well has found a new order. -/
theorem cancelOrder_new {s : Db} (env : Env) (id u : Uuid) (reason : Option String) :
    wp (Regime.concurrentAssuming (S := recalling schema) fun k st old => statusAsRead k st old = true)
      (remember none (cancelOrder env id u reason)) (fun _ _ => IsNew id s) (fun _ => True) s := by
  refine wp_remember_ask fun v _ => ?_
  have hlax := Regime.concurrentAssuming_lax (S := schema)
    fun k st old => statusAsRead k (some v, st) old = true
  rw [wp_bind, wp_orRaise]
  refine ⟨fun _ => trivial, fun read hread => ?_⟩
  have hread : v.orders.find? id = some read := (Option.filter_eq_some_iff.mp hread).1
  rw [wp_bind, wp_raiseIf]
  refine ⟨fun _ => trivial, fun _ => ?_⟩
  rw [wp_bind, wp_raiseIf]
  refine ⟨fun _ => trivial, fun hnew => ?_⟩
  have hnew : read.status = .new := not_not.mp hnew
  rw [updateStatus, wp_bind, getOrderLocked, wp_bind, wp_locked, wp_orRaise]
  refine ⟨fun _ => trivial, fun o ho => ?_⟩
  have ho : s.orders.find? id = some o := ho
  rw [wp_bind, wp_raiseIf]
  refine ⟨fun _ => trivial, fun _ => ?_⟩
  have hallowed : Within (S := schema) (fun _ _ => False) (fun _ => True)
      (ensureStatusTransitionAllowed id o .cancelled) := by
    refine (within_whenever _ _).mpr fun _ => ?_
    refine within_bind ((within_raiseIf _ _).mpr fun _ => trivial) fun _ => ?_
    refine within_bind ((within_raiseIf _ _).mpr fun _ => trivial) fun _ => ?_
    exact (within_raiseIf _ _).mpr fun _ => trivial
  rw [wp_bind]
  refine wp_frame hallowed (fun _ _ _ h => h.elim) (fun _ _ => trivial) (fun _ _ _ _ h => h.elim)
    fun _ s₁ hframe => ?_
  have hsame : s₁ = s := hframe.proj_eq (fun x => x) fun _ _ _ _ h => h.elim
  rw [hsame, wp_bind]
  refine wp_execute_of trivial (fun hassumed r _ => ?_) fun _ _ => trivial
  have hstatus : o.status = .new := by
    have hassumed : (decide (some OrderStatus.cancelled ≠ some .cancelled) ||
        decide ((s.orders.find? id).map Order.status = (v.orders.find? id).map Order.status)) = true :=
      hassumed
    rw [ho, hread] at hassumed
    rcases (Bool.or_eq_true _ _).mp hassumed with h | h
    · exact absurd rfl (of_decide_eq_true h)
    · exact (Option.some.inj (of_decide_eq_true h)).trans hnew
  exact wp_of_forall hlax _ fun _ _ => ⟨o, ho, hstatus⟩

/-- In every interleaving in which a cancellation finds the status that its check has read, a
client's cancellation that commits has cancelled a new order. -/
theorem client_cancels_new_order (s : Db) {σ σ' : Sys (recalling schema) StatusOperation}
    (h : Reach (recalled program) (fun k st old => statusAsRead k st old = true) (Sys.init s) σ)
    {t : Tid} {x : Txn (recalling schema) StatusOperation} {env : Env} {id u : Uuid}
    {reason : Option String} (hx : σ.txns t = some x) (hop : x.op = .cancelOrder env id u reason)
    (hexec : σ.exec (recalled program) (.commit t) = some σ') : IsNew id σ.db := by
  have hnew : wp (Regime.concurrentAssuming (S := recalling schema)
      fun k st old => statusAsRead k st old = true) (recalled program x.op)
      (fun _ _ => IsNew id σ.db) (fun _ => True) σ.db := by
    rw [hop]
    exact cancelOrder_new env id u reason
  exact h.commit (Sys.init_explained (S := recalling schema) s) hx hnew hexec

/-! ## Two schedules -/

/-- A client with a new order. -/
def placedDb : Db :=
  { sampleDb with
    orders := ⟨[(41, ⟨7, 5, none, .cash, .new, 140, false, .delivery, none, none, false, none, none,
      true, 0, 0, [⟨23, 2, 70⟩], [⟨none, .new, some 7, none⟩]⟩)], by decide⟩ }

/-- The status of that order. -/
def sampleStatus (s : Db) : Option OrderStatus := (s.orders.find? 41).map Order.status

/-- The cancellation up to its check. -/
def cancellationRead : List (ReadCommitted.Action StatusOperation) :=
  [.start 0 (.cancelOrder ⟨1, fun _ _ => 0⟩ 41 7 none), .step 0]

/-- The change of the status. -/
def cancellationWrite : List (ReadCommitted.Action StatusOperation) := [.step 0, .step 0, .step 0]

/-- The operation that a transaction serves. -/
def operationOf {S : Schema} (σ : Sys S StatusOperation) (t : Tid) : Option Uuid :=
  match σ.txns t with
  | some ⟨.cancelOrder _ id _ _, _, _⟩ => some id
  | _ => none

theorem operationOf_eq_some {S : Schema} {σ : Sys S StatusOperation} {t : Tid} {id : Uuid}
    (h : operationOf σ t = some id) :
    ∃ x env u reason, σ.txns t = some x ∧ x.op = .cancelOrder env id u reason := by
  unfold operationOf at h
  split at h
  · next env id' u reason prog writes hx =>
    cases h
    exact ⟨_, env, u, reason, hx, rfl⟩
  · cases h

theorem client_cancels_new_order_sample :
    ∃ σ σ', (cancellationRead ++ cancellationWrite).foldlM
        (Sys.execIf (recalled program) statusAsRead) (Sys.init placedDb) = some σ ∧
      σ.exec (recalled program) (.commit 0) = some σ' ∧
      sampleStatus σ'.db = some .cancelled ∧ IsNew 41 σ.db := by
  have heval : ((cancellationRead ++ cancellationWrite).foldlM
      (Sys.execIf (recalled program) statusAsRead) (Sys.init placedDb)).map (fun σ =>
        (operationOf σ 0, (σ.exec (recalled program) (.commit 0)).map fun σ' => sampleStatus σ'.db)) =
      some (some 41, some (some .cancelled)) := by decide +kernel
  cases hrun : (cancellationRead ++ cancellationWrite).foldlM
      (Sys.execIf (recalled program) statusAsRead) (Sys.init placedDb) with
  | none => exact absurd (hrun ▸ heval) (by simp)
  | some σ =>
    rw [hrun, Option.map_some, Option.some.injEq] at heval
    obtain ⟨hop, hexec⟩ := Prod.mk.inj heval
    obtain ⟨σ', hexec, hstatus⟩ := Option.map_eq_some_iff.mp hexec
    obtain ⟨x, env, u, reason, hx, hop⟩ := operationOf_eq_some hop
    exact ⟨σ, σ', rfl, hexec, hstatus,
      client_cancels_new_order placedDb (Reach.of_checked _ hrun) hx hop hexec⟩

/-- A courier is assigned between the check and the change. -/
def overtakenActions : List (ReadCommitted.Action StatusOperation) :=
  cancellationRead ++
  [.start 1 (.assignCourier ⟨1, fun _ _ => 0⟩ 41 6), .step 1, .step 1, .step 1, .step 1, .step 1,
    .commit 1] ++ cancellationWrite

theorem assigned_order_cancelled :
    ¬ ∀ (s : Db) (σ σ' : Sys schema StatusOperation) (t : Tid) (x : Txn schema StatusOperation)
      (env : Env) (id u : Uuid) (reason : Option String),
      Reach program (fun _ _ _ => True) (Sys.init s) σ → σ.txns t = some x →
      x.op = .cancelOrder env id u reason → σ.exec program (.commit t) = some σ' →
      IsNew id σ.db := by
  intro hclaim
  have heval : (overtakenActions.foldlM (Sys.exec program) (Sys.init placedDb)).map (fun σ =>
      (operationOf σ 0, sampleStatus σ.db,
        (σ.exec program (.commit 0)).map fun σ' => sampleStatus σ'.db)) =
      some (some 41, some .assigned, some (some .cancelled)) := by decide +kernel
  cases hrun : overtakenActions.foldlM (Sys.exec program) (Sys.init placedDb) with
  | none => exact absurd (hrun ▸ heval) (by simp)
  | some σ =>
    rw [hrun, Option.map_some, Option.some.injEq] at heval
    obtain ⟨hop, heval⟩ := Prod.mk.inj heval
    obtain ⟨hassigned, hexec⟩ := Prod.mk.inj heval
    obtain ⟨σ', hexec, -⟩ := Option.map_eq_some_iff.mp hexec
    obtain ⟨x, env, u, reason, hx, hop⟩ := operationOf_eq_some hop
    obtain ⟨o, ho, hnew⟩ :=
      hclaim placedDb σ σ' 0 x env 41 u reason (Reach.of_actions _ hrun) hx hop hexec
    rw [sampleStatus, ho, Option.map_some, hnew] at hassigned
    exact absurd hassigned (by decide)

end Munavvar.ClientCancellation
