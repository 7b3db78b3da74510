import Munavvar.QuotaConservation
import Munavvar.QuotaLimit

/-!
# The removal of a price item

A price item may be removed while nothing of its quota is used. The guard looks
at a row that is not locked, and the deletion does not look again. If every
deletion finds a counter that is still zero, each reserved line keeps its price
item and no release of quota fails, in any interleaving.
-/

namespace Munavvar.PriceItemRemoval

open Munavvar.KeyedTable
open Munavvar.Transaction
open Munavvar.Transaction.Prog
open Munavvar.ReadCommitted
open Munavvar.Database
open Munavvar.Statements
open Munavvar.OrderQueries
open Munavvar.Quota
open Munavvar.Operations
open Munavvar.OrderChanges
open Munavvar.QuotaConservation
open Munavvar.QuotaLimit (alone coffee)

/-- The guard of `remove_price_item`, on the row that its `DELETE` removes. -/
def removalInOrder : (k : Key) → Stmt k → Option (Row k) → Bool
  | .priceItem _ _, .delete id, old => old.all fun p : PriceItem => p.id ≠ id || p.quantityUsed ≤ 0
  | _, _, _ => true

/-- What a release of quota relies on. -/
structure QuotaReleasable (σ : Sys schema Request) : Prop where
  /-- Every line of a reserved order has its price item. -/
  priced : ∀ id o, σ.db.orders.find? id = some o → o.quantitiesReserved = true →
    ∀ i ∈ o.items, ∃ c row, o.contractId = some c ∧
      σ.db.priceItems.find? (c, i.productId) = some row
  /-- No transaction has failed to release quota. -/
  released : ∀ t x e, σ.txns t = some x → x.prog = .raise e → e.isQuotaLeak = false

/-- What is counted on a reserved line has its price item. -/
theorem priced_of_quotaKept {s : Db} (hs : QuotaKept s) {id : Uuid} {o : Order}
    (ho : s.orders.find? id = some o) (hreserved : o.quantitiesReserved = true) {i : OrderItem}
    (hi : i ∈ o.items) :
    ∃ c row, o.contractId = some c ∧ s.priceItems.find? (c, i.productId) = some row := by
  have hok := hs.ordersOk id o ho
  obtain ⟨c, hc⟩ := Option.isSome_iff_exists.mp (hok.reserved_iff.mp hreserved).1
  have hcontract : o.contractId = some c := by
    rw [Order.contract?] at hc
    split at hc
    · exact hc
    · cases hc
  have hpos : 0 < i.quantity := hok.quantity_pos i hi
  have hline : i.quantity ≤ held o (c, i.productId) := by
    rw [held_of_reserved hreserved hc]
    exact le_demand (pair_pos hok.quantity_pos) (List.mem_map_of_mem (f := OrderItem.pair) hi)
  have htotal := held_le_total hs.ordersOk ho (c, i.productId)
  cases hrow : s.priceItems.find? (c, i.productId) with
  | none =>
    have hnone := hs.missing _ hrow
    omega
  | some row => exact ⟨c, row, hcontract, hrow⟩

theorem removesUnused :
    RemovesUnused (Regime.concurrentAssuming (S := schema) fun k st old => removalInOrder k st old = true) := by
  refine .inr fun c p row hassumed => ?_
  have hguard : (decide (row.id ≠ row.id) || decide (row.quantityUsed ≤ 0)) = true := hassumed
  rcases (Bool.or_eq_true _ _).mp hguard with h | h
  · exact absurd rfl (of_decide_eq_true h)
  · exact of_decide_eq_true h

/-- As one commit whose deletions find unused rows, a request keeps the counters in agreement
and does not fail to release quota. -/
theorem program_releasable {s : Db} (h : QuotaKept s) (r : Request) :
    wp (Regime.concurrentAssuming fun k st old => removalInOrder k st old = true) (program r)
      (fun _ s' => QuotaKept s') (fun e => e.isQuotaLeak = false) s := by
  have ht : Tame (Regime.concurrentAssuming fun k st old => removalInOrder k st old = true)
      fun e => e.isQuotaLeak = false :=
    ⟨Regime.concurrentAssuming_sound _, fun _ _ _ _ => trivial, fun _ he => he⟩
  exact program_quotaKept ht removesUnused (fun _ _ _ _ => trivial) h r

/-- In every interleaving whose deletions find counters that are still zero, each reserved line
has its price item and no release fails. -/
theorem reserved_quota_releasable (s : Db) {σ : Sys schema Request}
    (h : Reach program (fun k st old => removalInOrder k st old = true) (Sys.init (fresh s)) σ) :
    QuotaReleasable σ := by
  have hkept : QuotaKept σ.db := h.invariant (I := QuotaKept)
    (fun r _ hs => wp_mono _ (program_releasable hs r) (fun _ _ hs' => hs') fun _ _ => trivial)
    (fresh_quotaKept s)
  constructor
  · intro id o ho hreserved i hi
    exact priced_of_quotaKept hkept ho hreserved hi
  · intro t x e hx hraise
    have hexp := h.explained (Sys.init_explained _) t x hx
    rw [hraise] at hexp
    exact hexp.wp (program_releasable hkept x.op)

/-! ## Two schedules -/

/-- A price item is made and removed, made again and ordered. -/
def orderlyActions : List (ReadCommitted.Action Request) :=
  alone 0 4 (.setPriceItem 31 23 60 10) ++ alone 1 2 (.removePriceItem 31 23) ++
  alone 2 4 (.setPriceItem 31 23 60 10) ++ alone 3 12 (coffee 5 five_pieces)

theorem reserved_quota_releasable_sample :
    ∃ σ, orderlyActions.foldlM (Sys.execIf program removalInOrder) (Sys.init (fresh sampleDb)) =
        some σ ∧
      σ.db.priceItems.find? (31, 23) = some ⟨30000, 60, 10, 5, true⟩ ∧ QuotaReleasable σ := by
  have heval : (orderlyActions.foldlM (Sys.execIf program removalInOrder)
      (Sys.init (fresh sampleDb))).map (fun σ => σ.db.priceItems.find? (31, 23)) =
        some (some ⟨30000, 60, 10, 5, true⟩) := by decide +kernel
  cases hrun : orderlyActions.foldlM (Sys.execIf program removalInOrder)
      (Sys.init (fresh sampleDb)) with
  | none => exact absurd (hrun ▸ heval) (by simp)
  | some σ =>
    rw [hrun, Option.map_some, Option.some.injEq] at heval
    exact ⟨σ, rfl, heval, reserved_quota_releasable sampleDb (Reach.of_checked _ hrun)⟩

/-- Five pieces are ordered between the `SELECT` of a removal and its `DELETE`. -/
def overtakenActions : List (ReadCommitted.Action Request) :=
  alone 0 4 (.setPriceItem 31 23 60 10) ++
  [.start 1 (sampleRequest 1 1 (.removePriceItem 31 23)), .step 1] ++
  alone 2 12 (coffee 5 five_pieces) ++ [.step 1, .commit 1]

theorem reserved_quota_lost :
    ¬ ∀ (s : Db) (σ : Sys schema Request),
      Reach program (fun _ _ _ => True) (Sys.init (fresh s)) σ → QuotaReleasable σ := by
  intro hclaim
  have heval : (overtakenActions.foldlM (Sys.exec program) (Sys.init (fresh sampleDb))).map
      (fun σ => (σ.db.orders.find? 30000).map fun o =>
        (o.quantitiesReserved, o.contractId, o.items.map OrderItem.productId,
          (σ.db.priceItems.find? (31, 23)).isSome)) =
      some (some (true, some 31, [23], false)) := by decide +kernel
  cases hrun : overtakenActions.foldlM (Sys.exec program) (Sys.init (fresh sampleDb)) with
  | none => exact absurd (hrun ▸ heval) (by simp)
  | some σ =>
    rw [hrun, Option.map_some, Option.some.injEq] at heval
    obtain ⟨o, ho, hdata⟩ := Option.map_eq_some_iff.mp heval
    obtain ⟨hreserved, hdata⟩ := Prod.mk.inj hdata
    obtain ⟨hcontract, hdata⟩ := Prod.mk.inj hdata
    obtain ⟨hitems, hmissing⟩ := Prod.mk.inj hdata
    have hpriced := (hclaim sampleDb σ (Reach.of_actions _ hrun)).priced 30000 o ho hreserved
    have hproduct : 23 ∈ o.items.map OrderItem.productId := by
      rw [hitems]
      exact List.mem_singleton_self 23
    obtain ⟨i, hi, hproduct⟩ := List.mem_map.mp hproduct
    obtain ⟨c, row, hc, hrow⟩ := hpriced i hi
    have hcc : c = 31 := Option.some.inj (hc.symm.trans hcontract)
    rw [hcc, hproduct] at hrow
    rw [hrow] at hmissing
    cases hmissing

end Munavvar.PriceItemRemoval
