import Munavvar.ReadCommitted
import Munavvar.StockLedger

/-!
# Conservation of the stock ledger

Transactions of any number of statements on the stock ledger run concurrently.
In every committed state the balances are what the ledger nets to, the balances
of each product add up to nothing, and no physical inventory is below zero. A
transaction whose statement was rejected changes nothing.
-/

namespace Munavvar.StockConservation

open Munavvar.KeyedTable
open Munavvar.Transaction
open Munavvar.Transaction.Prog
open Munavvar.ReadCommitted
open Munavvar.Database
open Munavvar.DoubleEntry
open Munavvar.StockLedger

/-- The statements on stock transfers and on the stock ledger. -/
inductive StockStatement
  /-- `INSERT INTO stock_transfers`. -/
  | insertTransfer (id : Uuid) (row : StockTransfer)
  /-- `INSERT INTO stock_transactions`. -/
  | insert (rows : List (Uuid × StockTransaction))
  /-- `UPDATE stock_transactions`. -/
  | update (id : Uuid) (row : StockTransaction)
  /-- `DELETE FROM stock_transactions`. -/
  | delete (id : Uuid)

/-- Execute one statement with its trigger. -/
def StockStatement.program : StockStatement → Uow Unit
  | .insertTransfer id row => issue (.stockTransfer id) (.insert row)
  | .insert rows => insertStockTransactions rows
  | .update id row => updateStockTransaction id row
  | .delete id => deleteStockTransaction id

/-- Execute the statements of one transaction. -/
def transactionProgram (statements : List StockStatement) : Uow Unit :=
  forEach statements StockStatement.program

/-- The quantity that moved into an inventory. -/
def quantityInto (s : Db) (inventoryId productId : Uuid) : ℤ :=
  s.stockTransactions.total fun _ x =>
    if x.toId = inventoryId ∧ x.productId = productId then x.quantity else 0

/-- The quantity that moved out of an inventory. -/
def quantityOutOf (s : Db) (inventoryId productId : Uuid) : ℤ :=
  s.stockTransactions.total fun _ x =>
    if x.fromId = inventoryId ∧ x.productId = productId then x.quantity else 0

/-- The conservation law of the stock ledger. -/
structure Conserved (s : Db) : Prop where
  /-- A balance is what moved in less what moved out. -/
  balance_eq : ∀ i p, balance s.balances (i, p) = quantityInto s i p - quantityOutOf s i p
  /-- The recomputed balance is the stored one. -/
  getBalance_eq : ∀ i p, getBalance s i p none = balance s.balances (i, p)
  /-- Nothing of a product is created or lost. -/
  product_total : ∀ p, groupTotal s.balances (fun a => decide (a.2 = p)) = 0
  /-- Neither is anything of all products together. -/
  grand_total : groupTotal s.balances (fun _ => true) = 0
  /-- Stock that is really there is not negative. -/
  physical_nonneg : ∀ i p, s.directory.isPhysical i = true → 0 ≤ balance s.balances (i, p)

/-- Every stored movement counts. -/
def entryOf (x : StockTransaction) : Option (Entry (Uuid × Uuid) ℤ) := some (entry x)

/-- What movements that the trigger has not yet seen will do to a balance. -/
def outstanding (rows : List (Uuid × StockTransaction)) (a : Uuid × Uuid) : ℤ :=
  (rows.map fun r => (entry r.2).effect a).sum

/-- The ledger while some stored movements still wait for their trigger. -/
structure Pending (rows : List (Uuid × StockTransaction)) (s : Db) : Prop where
  /-- The balances lag behind by the waiting movements. -/
  lag : ∀ a, balance s.balances a + outstanding rows a = net entryOf s.stockTransactions a
  /-- Stored movements passed the table's constraints. -/
  rows_ok : ∀ id x, s.stockTransactions.find? id = some x → 0 < x.quantity ∧ x.fromId ≠ x.toId
  /-- Nothing of any group of products is created or lost. -/
  product_total : ∀ products : Uuid → Bool, groupTotal s.balances (fun a => products a.2) = 0
  /-- Stock that is really there is not negative. -/
  physical_nonneg : ∀ i p, s.directory.isPhysical i = true → 0 ≤ balance s.balances (i, p)

theorem pending_empty {s : Db} (hledger : s.stockTransactions = Table.empty)
    (hbalances : s.balances = Table.empty) : Pending [] s where
  lag a := by
    rw [hledger, hbalances]
    rfl
  rows_ok id x hx := by
    rw [hledger, Table.find?_empty] at hx
    exact absurd hx (by simp)
  product_total p := by
    rw [hbalances]
    rfl
  physical_nonneg i p _ := by
    rw [hbalances]
    exact le_refl 0

/-- The movements `get_balance` selects for an inventory and a product. -/
def concerns (i p : Uuid) (x : StockTransaction) : Bool :=
  x.productId = p && (x.toId = i || x.fromId = i) && Option.all (fun t => x.createdAt ≤ t) none

theorem signedQuantity_eq_effect {i p : Uuid} {x : StockTransaction} (hroute : x.fromId ≠ x.toId)
    (hx : concerns i p x = true) : signedQuantity i x = (entry x).effect (i, p) := by
  simp only [concerns, Option.all_none, Bool.and_true, Bool.and_eq_true, decide_eq_true_eq] at hx
  rw [effect_entry, signedQuantity]
  by_cases hto : x.toId = i
  · have hfrom : x.fromId ≠ i := fun h => hroute (h.trans hto.symm)
    simp [hto, hfrom, hx.1]
  · by_cases hfrom : x.fromId = i
    · simp [hto, hfrom, hx.1]
    · simp [hto, hfrom]

theorem effect_eq_zero {i p : Uuid} {x : StockTransaction} (hx : concerns i p x = false) :
    (entry x).effect (i, p) = 0 := by
  rw [effect_entry]
  by_cases hp : x.productId = p
  · have hx : x.toId ≠ i ∧ x.fromId ≠ i := by simpa [concerns, hp] using hx
    simp [hx.1, hx.2]
  · simp [hp]

/-- `get_balance` nets the ledger. -/
theorem getBalance_eq_net {s : Db}
    (hroute : ∀ id x, s.stockTransactions.find? id = some x → x.fromId ≠ x.toId) (i p : Uuid) :
    getBalance s i p none = net entryOf s.stockTransactions (i, p) := by
  have hsigned : (s.stockTransactions.select fun _ x => concerns i p x).map (signedQuantity i) =
      (s.stockTransactions.select fun _ x => concerns i p x).map
        fun x => (entry x).effect (i, p) := by
    apply List.map_congr_left
    intro x hx
    obtain ⟨id, hid, hx⟩ := (Table.mem_select_iff _ _ _).mp hx
    exact signedQuantity_eq_effect (hroute id x hid) hx
  change ((s.stockTransactions.select fun _ x => concerns i p x).map (signedQuantity i)).sum = _
  rw [hsigned]
  exact Table.sum_select fun _ x _ hx => effect_eq_zero hx

theorem Pending.conserved {s : Db} (h : Pending [] s) : Conserved s where
  balance_eq i p := by
    have hlag := h.lag (i, p)
    rw [outstanding, List.map_nil, List.sum_nil, add_zero] at hlag
    rw [hlag, net, quantityInto, quantityOutOf, ← Table.total_sub]
    exact Table.total_congr fun _ x _ => effect_entry x i p
  getBalance_eq i p := by
    have hlag := h.lag (i, p)
    rw [outstanding, List.map_nil, List.sum_nil, add_zero] at hlag
    rw [getBalance_eq_net fun id x hx => (h.rows_ok id x hx).2, hlag]
  product_total p := h.product_total fun q => decide (q = p)
  grand_total := h.product_total fun _ => true
  physical_nonneg := h.physical_nonneg

section Statements

variable {R : Regime schema} {s : Db}

/-- A stored movement waits for its trigger. -/
theorem insertRow_pending (hlax : R.Lax) {rows : List (Uuid × StockTransaction)}
    (r : Uuid × StockTransaction) (h : Pending rows s) :
    wp R (issue (.stockTransaction r.1) (.insert r.2)) (fun _ s' => Pending (rows ++ [r]) s')
      (fun _ => True) s := by
  refine wp_execute_of (hlax _ _ _) (fun _ r' hr' => ?_) fun _ _ => trivial
  change (StockTransactionStmt.insert r.2).exec (s.stockTransactions.find? r.1) = .ok r' at hr'
  cases hold : s.stockTransactions.find? r.1 with
  | some old =>
    rw [hold] at hr'
    exact absurd hr' (by simp [StockTransactionStmt.exec])
  | none =>
    rw [hold] at hr'
    obtain ⟨rfl, hchecks⟩ := checked_ok hr'
    simp only [List.forall_mem_cons, decide_eq_true_eq] at hchecks
    refine ⟨fun a => ?_, fun id x hx => ?_, h.product_total, h.physical_nonneg⟩
    · change balance s.balances a + outstanding (rows ++ [r]) a =
        net entryOf (s.stockTransactions.put r.1 (some r.2)) a
      rw [net_put, hold, rowEffect_none, sub_zero, ← h.lag a, outstanding, outstanding,
        List.map_append, List.sum_append, List.map_singleton, List.sum_singleton, add_assoc]
      rfl
    · change (s.stockTransactions.put r.1 (some r.2)).find? id = some x at hx
      rw [Table.find?_put] at hx
      split at hx
      · cases hx
        exact ⟨hchecks.2.1, hchecks.2.2.1⟩
      · exact h.rows_ok id x hx

/-- The trigger of one movement settles it. -/
theorem trigger_pending (hsound : R.Sound) (hlax : R.Lax) {rows : List (Uuid × StockTransaction)}
    (r : Uuid × StockTransaction) (h : Pending (r :: rows) s) :
    wp R (do checkRoute r.2; updateInventoryBalances r.2) (fun _ s' => Pending rows s')
      (fun _ => True) s := by
  rw [wp_bind, checkRoute]
  simp only [wp_bind, wp_ask, wp_raiseIf, implies_true, true_and]
  intro _ _ _ _ _ _ _
  refine updateInventoryBalances_spec hsound hlax r.2 (.inr trivial) (fun _ _ _ _ _ => trivial) ?_
  intro b' hposted
  refine ⟨fun a => ?_, h.rows_ok, fun p => ?_, fun i p hphysical => ?_⟩
  · have hlag := h.lag a
    rw [outstanding, List.map_cons, List.sum_cons] at hlag
    change balance b' a + outstanding rows a = net entryOf s.stockTransactions a
    rw [hposted.balance_eq, ← hlag, add_assoc, outstanding]
  · exact (hposted.group_eq _ rfl).trans (h.product_total p)
  · change 0 ≤ balance b' (i, p)
    by_cases hp : p = r.2.productId ∧ (i = r.2.fromId ∨ i = r.2.toId)
    · rw [hp.1]
      exact hposted.guard i hp.2 hphysical
    · have hother : b'.find? (i, p) = s.balances.find? (i, p) := by
        refine hposted.other_eq _ (fun he => hp ?_) fun he => hp ?_
        · cases he
          exact ⟨rfl, .inl rfl⟩
        · cases he
          exact ⟨rfl, .inr rfl⟩
      rw [balance, hother]
      exact h.physical_nonneg i p hphysical

/-- Every accepted statement keeps the law. -/
theorem statement_conserved (hsound : R.Sound) (hlax : R.Lax) (st : StockStatement)
    (h : Pending [] s) :
    wp R st.program (fun _ s' => Pending [] s') (fun _ => True) s := by
  cases st with
  | insertTransfer id row =>
    refine wp_execute_of (hlax _ _ _) (fun _ r hr => ?_) fun _ _ => trivial
    exact ⟨h.lag, h.rows_ok, h.product_total, h.physical_nonneg⟩
  | insert rows =>
    exact wp_storeAndTrigger (R := R) Pending (fun _ r _ hs => insertRow_pending hlax r hs)
      (fun r _ _ hs => trigger_pending hsound hlax r hs) h
  | update id row =>
    dsimp only [StockStatement.program, updateStockTransaction]
    simp only [wp_bind, wp_whenever]
    refine ⟨fun _ => ?_, fun _ => h⟩
    exact wp_execute_of (hlax _ _ _) (fun _ _ _ => trivial) fun _ _ => trivial
  | delete id =>
    dsimp only [StockStatement.program, deleteStockTransaction]
    simp only [wp_bind, wp_whenever]
    refine ⟨fun _ => ?_, fun _ => h⟩
    exact wp_execute_of (hlax _ _ _) (fun _ _ _ => trivial) fun _ _ => trivial

theorem transaction_conserved (hsound : R.Sound) (hlax : R.Lax) (sts : List StockStatement)
    (h : Pending [] s) :
    wp R (transactionProgram sts) (fun _ s' => Pending [] s') (fun _ => True) s :=
  wp_forEach StockStatement.program (fun (_ : List StockStatement) (s : Db) => Pending [] s)
    (fun st _ _ hs => statement_conserved hsound hlax st hs) sts s h

/-- Statements executed alone keep the law too. -/
theorem conserved_of_run {s s' : Db} {sts : List StockStatement} (h : Pending [] s)
    (hrun : (transactionProgram sts).run s = .ok ((), s')) : Conserved s' :=
  (wp_serial_run (transaction_conserved Regime.serial_sound Regime.serial_lax sts h) hrun).conserved

end Statements

/-- In every committed state of every interleaving the stock ledger is
conserved, and a transaction with a rejected statement leaves the committed
state as it is. -/
theorem stock_ledger_conserved {db : Db} {σ : Sys schema (List StockStatement)}
    (hledger : db.stockTransactions = Table.empty) (hbalances : db.balances = Table.empty)
    (hreach : Reach transactionProgram (fun _ _ _ => True) (Sys.init db) σ) :
    Conserved σ.db ∧
      ∀ t x e, σ.txns t = some x → x.prog = .raise e →
        ∀ a σ', a = .step t ∨ a = .commit t ∨ a = .rollback t →
          σ.exec transactionProgram a = some σ' → σ'.db = σ.db := by
  constructor
  · have hpending : Pending [] σ.db := hreach.invariant (fun sts s hs =>
      transaction_conserved (Regime.concurrentAssuming_sound _) (Regime.concurrentAssuming_lax _)
        sts hs) (pending_empty hledger hbalances)
    exact hpending.conserved
  · exact fun t x e hx hprog a σ' ha hexec => Sys.raised_unchanged hx hprog ha hexec

/-- A vendor, a warehouse and a courier without stock. -/
def sampleDb : Db where
  directory := ⟨[⟨1, some 0, .virtualVendor, true, "vendor"⟩, ⟨2, some 5, .warehouse, true, "main"⟩,
    ⟨3, some 6, .courier, true, "van"⟩], []⟩
  users := Table.empty
  products := Table.empty
  contracts := Table.empty
  priceItems := Table.empty
  orders := Table.empty
  accountBalances := Table.empty
  balances := Table.empty
  stockTransfers := Table.empty
  stockTransactions := Table.empty
  transactions := Table.empty
  invoices := Table.empty

/-- Ten pieces are taken in; of two loads from the warehouse the one that asks for too many waits
for the other's locks and is rejected. -/
def sampleActions : List (ReadCommitted.Action (List StockStatement)) :=
  let document (fromId toId : Uuid) (type : TransferType) : StockTransfer :=
    ⟨fromId, toId, type, .completed, 9, some 9, none, none, []⟩
  let takeIn : List StockStatement :=
    [.insertTransfer 11 (document 1 2 .initialBalance), .insert [(21, ⟨11, 7, 1, 2, 10, 0⟩)]]
  let load (transfer movement : Uuid) (quantity : ℤ) : List StockStatement :=
    [.insertTransfer transfer (document 2 3 .courierLoad),
      .insert [(movement, ⟨transfer, 7, 2, 3, quantity, 0⟩)]]
  let steps (t n : ℕ) := List.replicate n (ReadCommitted.Action.step t)
  [.start 0 takeIn] ++ steps 0 9 ++ [.commit 0] ++
  [.start 1 (load 12 22 4), .start 2 (load 13 23 20)] ++
  steps 1 5 ++ steps 2 4 ++ steps 1 4 ++ [.commit 1] ++ steps 2 5 ++ [.rollback 2]

theorem stock_ledger_conserved_sample :
    ∃ σ, sampleActions.foldlM (Sys.exec transactionProgram) (Sys.init sampleDb) = some σ ∧
      balance σ.db.balances (2, 7) = 6 ∧ Conserved σ.db := by
  have heval : (sampleActions.foldlM (Sys.exec transactionProgram) (Sys.init sampleDb)).map
      (fun σ => balance σ.db.balances (2, 7)) = some 6 := by decide +kernel
  cases hrun : sampleActions.foldlM (Sys.exec transactionProgram) (Sys.init sampleDb) with
  | none => exact absurd (hrun ▸ heval) (by simp)
  | some σ =>
    rw [hrun, Option.map_some, Option.some.injEq] at heval
    exact ⟨σ, rfl, heval, (stock_ledger_conserved rfl rfl (Reach.of_actions _ hrun)).1⟩

end Munavvar.StockConservation
