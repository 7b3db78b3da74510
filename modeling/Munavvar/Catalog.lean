import Munavvar.StockConservation

/-!
# The deletion of a product

A product may be deleted from the catalog only if no stock of it is left. The
query behind this guard adds up the balances of all inventories, the virtual
ones included. In a conserved ledger that sum is nothing, whatever is in stock,
so the guard lets every product pass.
-/

namespace Munavvar.Catalog

open Munavvar.KeyedTable
open Munavvar.Transaction
open Munavvar.Transaction.Prog
open Munavvar.ReadCommitted
open Munavvar.Database
open Munavvar.DoubleEntry
open Munavvar.StockLedger
open Munavvar.StockConservation

/-! ## The service -/

/-- `has_stock`. -/
def hasStock (productId : Uuid) (s : Db) : Bool :=
  0 < s.balances.total fun a quantity => if a.2 = productId then quantity else 0

/-- `has_associated_products`. -/
def hasAssociatedProducts (productId : Uuid) (s : Db) : Bool :=
  s.products.rows.any fun r => r.2.returnableItemId = some productId

/-- The foreign keys that refer to products, in the order in which they are checked. -/
def references (productId : Uuid) (s : Db) : List (Bool × Err) :=
  [(hasAssociatedProducts productId s, .foreignKeyViolation "products_returnable_item_id_fkey"),
   (s.priceItems.rows.any fun r => r.1.2 = productId,
     .foreignKeyViolation "contract_price_items_product_id_fkey"),
   (s.balances.rows.any fun r => r.1.2 = productId,
     .foreignKeyViolation "inventory_balances_product_id_fkey"),
   (s.orders.rows.any fun r => r.2.items.any fun i => i.productId = productId,
     .foreignKeyViolation "order_items_product_id_fkey"),
   (s.stockTransactions.rows.any fun r => r.2.productId = productId,
     .foreignKeyViolation "stock_transactions_product_id_fkey"),
   (s.stockTransfers.rows.any fun r => r.2.items.any fun i => i.1 = productId,
     .foreignKeyViolation "stock_transfer_items_product_id_fkey")]

/-- `hard_delete`. -/
def hardDelete (productId : Uuid) : Uow Unit := do
  let product ← select fun s => s.products.find? productId
  raiseIf (product.isNone = true) (.productNotFound productId)
  let stocked ← select (hasStock productId)
  raiseIf (stocked = true) (.productHasStock productId)
  let associated ← select (hasAssociatedProducts productId)
  raiseIf (associated = true) (.productHasAssociatedProducts productId)
  issue (.product productId) .delete
  let violated ← select fun s => (references productId s).find? Prod.fst
  whenSome violated fun v => raise v.2

/-! ## The guard -/

/-- Some warehouse, courier or client has pieces of a product. -/
def InStock (s : Db) (productId : Uuid) : Prop :=
  ∃ i, s.directory.isPhysical i = true ∧ 0 < balance s.balances (i, productId)

/-- The guard stands for what is in stock, and the deletion of a product of the
catalog is refused exactly then. -/
def GuardsStock (s : Db) (productId : Uuid) : Prop :=
  (hasStock productId s = true ↔ InStock s productId) ∧
    ((s.products.find? productId).isSome = true →
      ((hardDelete productId).run s = .error (.productHasStock productId) ↔ InStock s productId))

/-- All balances of a product add up to nothing, so the guard sees no stock. -/
theorem hasStock_eq_false {s : Db} (h : Conserved s) (p : Uuid) : hasStock p s = false := by
  have htotal : (s.balances.total fun a quantity => if a.2 = p then quantity else 0) = 0 := by
    have hproduct := h.product_total p
    simp only [groupTotal, decide_eq_true_eq] at hproduct
    exact hproduct
  rw [hasStock, htotal]
  rfl

/-- A guard that is silent refuses nothing. -/
theorem hardDelete_not_refused {s : Db} {p : Uuid} (h : hasStock p s = false) :
    (hardDelete p).run s ≠ .error (.productHasStock p) := by
  have hwp : wp Regime.serial (hardDelete p) (fun _ _ => True) (fun e => e ≠ .productHasStock p)
      s := by
    rw [hardDelete, wp_bind, wp_ask]
    rintro _ rfl
    rw [wp_bind, wp_raiseIf]
    refine ⟨fun _ => by simp, fun _ => ?_⟩
    rw [wp_bind, wp_ask]
    rintro _ rfl
    rw [wp_bind, wp_raiseIf]
    refine ⟨fun hstocked => absurd hstocked (by simp [h]), fun _ => ?_⟩
    rw [wp_bind, wp_ask]
    rintro _ rfl
    rw [wp_bind, wp_raiseIf]
    refine ⟨fun _ => by simp, fun _ => ?_⟩
    rw [wp_bind]
    refine wp_execute_of trivial (fun _ r _ => ?_) fun e he => ?_
    · rw [wp_bind, wp_ask]
      rintro _ rfl
      rw [wp_whenSome]
      refine ⟨fun v hv => ?_, fun _ => trivial⟩
      -- what is left are foreign keys
      have hmem := List.mem_of_find?_eq_some hv
      simp only [references, List.mem_cons, List.not_mem_nil, or_false] at hmem
      rw [wp_raise]
      rcases hmem with rfl | rfl | rfl | rfl | rfl | rfl <;> simp
    · cases he
  rw [wp_serial_iff] at hwp
  intro hrun
  rw [hrun] at hwp
  exact hwp rfl

/-- In every state that the trigger leads to, the guard is right exactly for the
products that are not in stock. -/
theorem stock_guard_iff {db : Db} {σ : Sys schema (List StockStatement)}
    (hledger : db.stockTransactions = Table.empty) (hbalances : db.balances = Table.empty)
    (hreach : Reach transactionProgram (fun _ _ _ => True) (Sys.init db) σ) (p : Uuid) :
    GuardsStock σ.db p ↔ ¬ InStock σ.db p := by
  have hpending : Pending [] σ.db := hreach.invariant (fun sts s hs =>
    transaction_conserved (Regime.concurrentAssuming_sound _) (Regime.concurrentAssuming_lax _)
      sts hs) (pending_empty hledger hbalances)
  have hsilent := hasStock_eq_false hpending.conserved p
  constructor
  · intro hguard hstock
    have hstocked := hguard.1.mpr hstock
    rw [hsilent] at hstocked
    cases hstocked
  · intro hempty
    constructor
    · simp [hsilent, hempty]
    · intro _
      simp [hardDelete_not_refused hsilent, hempty]

/-- The sample with its product in the catalog. -/
def sampleCatalog : Db :=
  { sampleDb with products := ⟨[(7, ⟨.equipment, "pump", 100, none, true⟩)], by decide⟩ }

theorem stock_guard_iff_sample :
    ∃ σ, sampleActions.foldlM (Sys.exec transactionProgram) (Sys.init sampleCatalog) = some σ ∧
      (GuardsStock σ.db 7 ↔ ¬ InStock σ.db 7) := by
  have heval : ((sampleActions.foldlM (Sys.exec transactionProgram)
      (Sys.init sampleCatalog)).map fun _ => ()) = some () := by decide +kernel
  obtain ⟨σ, hrun, -⟩ := Option.map_eq_some_iff.mp heval
  exact ⟨σ, hrun, stock_guard_iff rfl rfl (Reach.of_actions _ hrun) 7⟩

/-- Six pieces are in the warehouse, and the guard sees none of them. -/
theorem stock_guard_blind :
    ¬ ∀ (db : Db) (σ : Sys schema (List StockStatement)),
      db.stockTransactions = Table.empty → db.balances = Table.empty →
      Reach transactionProgram (fun _ _ _ => True) (Sys.init db) σ →
      ∀ p, GuardsStock σ.db p := by
  intro hclaim
  have heval : (sampleActions.foldlM (Sys.exec transactionProgram) (Sys.init sampleCatalog)).map
      (fun σ => (balance σ.db.balances (2, 7), σ.db.directory.isPhysical 2, hasStock 7 σ.db)) =
      some (6, true, false) := by decide +kernel
  obtain ⟨σ, hrun, heval⟩ := Option.map_eq_some_iff.mp heval
  simp only [Prod.mk.injEq] at heval
  obtain ⟨hbalance, hphysical, hsilent⟩ := heval
  have hguard := hclaim sampleCatalog σ rfl rfl (Reach.of_actions _ hrun) 7
  have hstocked := hguard.1.mpr ⟨2, hphysical, by omega⟩
  rw [hsilent] at hstocked
  cases hstocked

end Munavvar.Catalog
