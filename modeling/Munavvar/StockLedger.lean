import Munavvar.Database
import Munavvar.DoubleEntry

/-!
# The stock ledger

Inserting a movement into the stock ledger fires the balance trigger, which
debits one inventory and credits the other in the order of their identifiers
and then refuses a negative balance of an inventory that is not virtual.
Transfers write their document, its lines and the movements.
-/

namespace Munavvar.StockLedger

open Munavvar.KeyedTable
open Munavvar.Transaction
open Munavvar.Transaction.Prog
open Munavvar.Database

/-- What a request brings along: the time and identifiers for new rows, the
`j`-th row of the `n`-th document being `uuid n j`. -/
structure Env where
  /-- The time of the transaction. -/
  now : ℤ
  /-- Identifiers for new rows. -/
  uuid : ℕ → ℕ → Uuid

end Munavvar.StockLedger

namespace Munavvar.Database.Directory

open Munavvar.Database

/-- The inventory with an identifier. -/
def inventory? (d : Directory) (id : Uuid) : Option Inventory :=
  d.inventories.find? fun i => i.id = id

/-- The account with an identifier. -/
def account? (d : Directory) (id : Uuid) : Option Account :=
  d.accounts.find? fun a => a.id = id

/-- Inventories whose stock is real: all but the vendor and the loss. -/
def isPhysical (d : Directory) (id : Uuid) : Bool :=
  d.inventories.any fun i => i.id = id && i.type ≠ .virtualVendor && i.type ≠ .virtualLoss

end Munavvar.Database.Directory

namespace Munavvar.StockLedger

open Munavvar.KeyedTable
open Munavvar.Transaction
open Munavvar.Transaction.Prog
open Munavvar.Database
open Munavvar.DoubleEntry

/-! ## The trigger -/

/-- The debit and the credit of a movement, in the order of the inventories' identifiers. -/
def legs (row : StockTransaction) : List (Uuid × ℤ) :=
  if row.fromId ≤ row.toId then [(row.fromId, -row.quantity), (row.toId, row.quantity)]
  else [(row.toId, row.quantity), (row.fromId, -row.quantity)]

/-- A balance that only a virtual inventory may have. -/
def isNegative (d : Directory) (id : Uuid) (balance : Option ℤ) : Bool :=
  d.isPhysical id && balance.any fun b => b < 0

/-- The trigger `update_inventory_balances` on an inserted movement. Its guard
reads rows that the transaction has just written, so the reads are current. -/
def updateInventoryBalances (row : StockTransaction) : Uow Unit := do
  forEach (legs row) fun leg => issue (.balance leg.1 row.productId) (.add leg.2)
  let source ← forUpdate (.balance row.fromId row.productId)
  let target ← forUpdate (.balance row.toId row.productId)
  let d ← select Db.directory
  raiseIf (isNegative d row.fromId source || isNegative d row.toId target)
    (.negativeBalance "Negative balances are not allowed for non-virtual inventories.")

/-- The foreign keys of a movement: its inventories and the route of its transfer. -/
def checkRoute (row : StockTransaction) : Uow Unit := do
  let d ← select Db.directory
  let transfer ← select fun s => s.stockTransfers.find? row.transferId
  raiseIf ((d.inventory? row.fromId).isNone)
    (.foreignKeyViolation "stock_transactions_from_id_fkey")
  raiseIf ((d.inventory? row.toId).isNone)
    (.foreignKeyViolation "stock_transactions_to_id_fkey")
  raiseIf (¬ transfer.any fun t => t.fromId = row.fromId && t.toId = row.toId)
    (.foreignKeyViolation "fk_stock_transaction_strict_route")

/-- One `INSERT` of several movements: all rows are stored before the first
foreign key is checked and the first trigger fires. -/
def insertStockTransactions (rows : List (Uuid × StockTransaction)) : Uow Unit := do
  forEach rows fun r => issue (.stockTransaction r.1) (.insert r.2)
  forEach rows fun r => do
    checkRoute r.2
    updateInventoryBalances r.2

/-- An `UPDATE` of a movement: the trigger refuses to change history. -/
def updateStockTransaction (id : Uuid) (row : StockTransaction) : Uow Unit := do
  let old ← forUpdate (.stockTransaction id)
  whenever (old.isSome) do
    issue (.stockTransaction id) (.update row)
    raise (.immutableHistory
      "Изменение истории транзакций запрещено. Создайте корректирующее перемещение.")

/-- A `DELETE` of a movement: the trigger refuses to change history. -/
def deleteStockTransaction (id : Uuid) : Uow Unit := do
  let old ← forUpdate (.stockTransaction id)
  whenever (old.isSome) do
    issue (.stockTransaction id) .delete
    raise (.immutableHistory
      "Удаление транзакций запрещено. Создайте корректирующее перемещение.")

/-! ## Transfers -/

/-- `_create_stock_transfer`: the document, its lines and the movements. Lines
without a positive quantity are left out. -/
def createStockTransfer (env : Env) (n : ℕ) (fromId toId : Uuid) (type : TransferType)
    (items : List (Uuid × ℤ)) (createdById : Uuid) (acceptedById : Option Uuid)
    (orderId : Option Uuid) (reason : Option String) : Uow Unit := do
  let d ← select Db.directory
  issue (.stockTransfer (env.uuid n 0))
    (.insert ⟨fromId, toId, type, .completed, createdById, some (acceptedById.getD createdById),
      orderId, reason, []⟩)
  raiseIf ((d.inventory? fromId).isNone) (.foreignKeyViolation "stock_transfers_from_id_fkey")
  raiseIf ((d.inventory? toId).isNone) (.foreignKeyViolation "stock_transfers_to_id_fkey")
  let effectiveItems := items.filter fun i => 0 < i.2
  issue (.stockTransfer (env.uuid n 0)) (.addItems effectiveItems)
  insertStockTransactions <| effectiveItems.zipIdx.map fun x =>
    (env.uuid n (x.2 + 1), ⟨env.uuid n 0, x.1.1, fromId, toId, x.1.2, env.now⟩)

/-! ## Queries -/

/-- The signed quantity of a movement as `get_balance` counts it for an inventory. -/
def signedQuantity (inventoryId : Uuid) (x : StockTransaction) : ℤ :=
  if x.toId = inventoryId then x.quantity
  else if x.fromId = inventoryId then -x.quantity
  else 0

/-- `StockTransactionRepository.get_balance`: the balance recomputed from the ledger. -/
def getBalance (s : Db) (inventoryId productId : Uuid) (asOfDate : Option ℤ) : ℤ :=
  ((s.stockTransactions.select fun _ x =>
      x.productId = productId && (x.toId = inventoryId || x.fromId = inventoryId) &&
        asOfDate.all fun t => x.createdAt ≤ t).map (signedQuantity inventoryId)).sum

/-! ## What the trigger does -/

/-- A movement as an entry between the balances of its product. -/
def entry (row : StockTransaction) : Entry (Uuid × Uuid) ℤ :=
  ⟨(row.fromId, row.productId), (row.toId, row.productId), row.quantity⟩

/-- The effect on one balance, read off the movement's columns. -/
theorem effect_entry (x : StockTransaction) (i p : Uuid) :
    (entry x).effect (i, p) =
      (if x.toId = i ∧ x.productId = p then x.quantity else 0) -
        if x.fromId = i ∧ x.productId = p then x.quantity else 0 := by
  unfold Entry.effect entry
  simp only [Prod.mk.injEq, eq_comm]

/-- The balances before and after the trigger has accepted a movement. -/
structure Posted (d : Directory) (row : StockTransaction) (b b' : Table (Uuid × Uuid) ℤ) :
    Prop where
  /-- Each balance moves by the movement's effect. -/
  balance_eq : ∀ a, balance b' a = balance b a + (entry row).effect a
  /-- The sum over both inventories stays. -/
  group_eq : ∀ group : Uuid × Uuid → Bool,
    group (entry row).source = group (entry row).target → groupTotal b' group = groupTotal b group
  /-- Rows of other inventories and products stay. -/
  other_eq : ∀ a, a ≠ (entry row).source → a ≠ (entry row).target → b'.find? a = b.find? a
  /-- Both inventories passed the guard. -/
  guard : ∀ i, i = row.fromId ∨ i = row.toId → d.isPhysical i = true →
    0 ≤ balance b' (i, row.productId)
  /-- Different rows fit their column. -/
  fits : row.fromId ≠ row.toId → ∀ i, i = row.fromId ∨ i = row.toId →
    int32 (balance b' (i, row.productId)) = true

section Trigger

variable {R : Regime schema} {s : Db} {E : Err → Prop}

/-- One upsert of the trigger moves one balance or runs out of the column's range. -/
theorem wp_upsert (hlax : R.Lax) {i p : Uuid} {delta : ℤ} {Q : Unit → Db → Prop}
    (hok : int32 (balance s.balances (i, p) + delta) = true →
      Q () { s with balances := add s.balances (i, p) delta })
    (hrange : int32 (balance s.balances (i, p) + delta) = false →
      E (.outOfRange "inventory_balances.quantity")) :
    wp R (issue (.balance i p) (.add delta)) Q E s := by
  refine wp_execute_of (hlax _ _ _) (fun _ r hr => ?_) fun e he => ?_
  · obtain ⟨rfl, hchecks⟩ := checked_ok hr
    exact hok (hchecks _ (List.mem_singleton_self _))
  · have he := checked_error he
    rw [List.mem_singleton, Prod.mk.injEq] at he
    obtain ⟨hfalse, rfl⟩ := he
    exact hrange hfalse.symm

/-- The two balances that a movement between different inventories leaves fit their column. -/
structure FitsBalances (s : Db) (row : StockTransaction) : Prop where
  /-- Different rows are written. -/
  route : row.fromId ≠ row.toId
  /-- The debited balance. -/
  source : int32 (balance s.balances (row.fromId, row.productId) - row.quantity) = true
  /-- The credited balance. -/
  target : int32 (balance s.balances (row.toId, row.productId) + row.quantity) = true

/-- Both legs of a movement, in whichever order. -/
theorem wp_legs (hlax : R.Lax) (row : StockTransaction) {Q : Unit → Db → Prop}
    (hrange : FitsBalances s row ∨ E (.outOfRange "inventory_balances.quantity"))
    (hok : ∀ b', (∀ a, balance b' a = balance s.balances a + (entry row).effect a) →
      (∀ group : Uuid × Uuid → Bool, group (entry row).source = group (entry row).target →
        groupTotal b' group = groupTotal s.balances group) →
      (∀ a, a ≠ (entry row).source → a ≠ (entry row).target →
        b'.find? a = s.balances.find? a) →
      (row.fromId ≠ row.toId → ∀ i, i = row.fromId ∨ i = row.toId →
        int32 (balance b' (i, row.productId)) = true) →
      Q () { s with balances := b' }) :
    wp R (forEach (legs row) fun leg => issue (.balance leg.1 row.productId) (.add leg.2)) Q E s := by
  have hfind : ∀ (b : Table (Uuid × Uuid) ℤ) a k δ, a ≠ k → (add b k δ).find? a = b.find? a :=
    fun b a k δ hne => Table.find?_put_ne b hne _
  have hfits : ∀ {b : ℤ}, (FitsBalances s row → int32 b = true) → int32 b = false →
      E (.outOfRange "inventory_balances.quantity") := by
    intro b hb hfalse
    rcases hrange with h | h
    · exact absurd (hb h) (by simp [hfalse])
    · exact h
  -- the second leg finds its balance as it was, since the first one is of another inventory
  have hkeep : ∀ {i j : Uuid} (q : ℤ), i ≠ j →
      balance (add s.balances (i, row.productId) q) (j, row.productId) =
        balance s.balances (j, row.productId) := by
    intro i j q hij
    rw [balance_add, if_neg (by simp [hij.symm]), add_zero]
  -- the balance that is written first is not written again
  have hfirst : ∀ {i j : Uuid} {q q' : ℤ}, i ≠ j →
      int32 (balance s.balances (i, row.productId) + q) = true →
      int32 (balance (add (add s.balances (i, row.productId) q) (j, row.productId) q')
        (i, row.productId)) = true := by
    intro i j q q' hij h
    rw [balance_add, if_neg (by simp [hij]), add_zero, balance_add, if_pos rfl]
    exact h
  have hsecond : ∀ {b : Table (Uuid × Uuid) ℤ} {i : Uuid} {q : ℤ},
      int32 (balance b (i, row.productId) + q) = true →
      int32 (balance (add b (i, row.productId) q) (i, row.productId)) = true := by
    intro b i q h
    rw [balance_add, if_pos rfl]
    exact h
  unfold legs
  split
  · rw [forEach, wp_bind']
    refine wp_upsert hlax (fun hdebit => ?_) (hfits fun h => h.source)
    rw [forEach, wp_bind']
    refine wp_upsert hlax (fun hcredit => ?_) (hfits fun h => ?_)
    · refine hok _ (balance_post s.balances (entry row)) ?_ ?_ ?_
      · exact fun group hgroup => groupTotal_post s.balances group (entry row) hgroup
      · exact fun a hs ht => (hfind _ _ _ _ ht).trans (hfind _ _ _ _ hs)
      · rintro hroute i (rfl | rfl)
        · exact hfirst hroute hdebit
        · exact hsecond hcredit
    · exact (congrArg (fun b => int32 (b + row.quantity)) (hkeep _ h.route)).trans h.target
  · rw [forEach, wp_bind']
    refine wp_upsert hlax (fun hcredit => ?_) (hfits fun h => h.target)
    rw [forEach, wp_bind']
    refine wp_upsert hlax (fun hdebit => ?_) (hfits fun h => ?_)
    · refine hok _ (balance_credit_debit s.balances (entry row)) ?_ ?_ ?_
      · exact fun group hgroup => groupTotal_credit_debit s.balances group (entry row) hgroup
      · exact fun a hs ht => (hfind _ _ _ _ hs).trans (hfind _ _ _ _ ht)
      · rintro hroute i (rfl | rfl)
        · exact hsecond hdebit
        · exact hfirst hroute.symm hcredit
    · exact (congrArg (fun b => int32 (b - row.quantity)) (hkeep _ h.route.symm)).trans h.source

/-- The guard looks at the balance of a physical inventory. -/
theorem isNegative_iff (d : Directory) (b : Table (Uuid × Uuid) ℤ) (i p : Uuid) :
    isNegative d i (b.find? (i, p)) = true ↔ d.isPhysical i = true ∧ balance b (i, p) < 0 := by
  unfold isNegative balance
  cases b.find? (i, p) <;> simp

/-- The trigger: a movement it accepts is posted, and its guard refuses only a
movement that would leave a physical inventory below zero. -/
theorem updateInventoryBalances_spec (hsound : R.Sound) (hlax : R.Lax) (row : StockTransaction)
    {Q : Unit → Db → Prop}
    (hrange : FitsBalances s row ∨ E (.outOfRange "inventory_balances.quantity"))
    (hneg : ∀ i, i = row.fromId ∨ i = row.toId → s.directory.isPhysical i = true →
      balance s.balances (i, row.productId) + (entry row).effect (i, row.productId) < 0 →
      ∀ message, E (.negativeBalance message))
    (hok : ∀ b', Posted s.directory row s.balances b' → Q () { s with balances := b' }) :
    wp R (updateInventoryBalances row) Q E s := by
  rw [updateInventoryBalances, wp_bind]
  refine wp_legs hlax row hrange fun b' hbalance hgroup hother hfits => ?_
  rw [wp_bind, wp_locked, wp_bind, wp_locked, wp_bind, wp_ask]
  intro v hv
  have hd := hsound _ _ hv
  change v.directory = s.directory at hd
  rw [wp_raiseIf, hd, Bool.or_eq_true]
  have hguard : ∀ i, (isNegative s.directory i (b'.find? (i, row.productId)) = true ↔
      s.directory.isPhysical i = true ∧
        balance s.balances (i, row.productId) + (entry row).effect (i, row.productId) < 0) := by
    intro i
    rw [isNegative_iff, hbalance]
  constructor
  · rintro (h | h)
    · exact hneg _ (.inl rfl) ((hguard _).mp h).1 ((hguard _).mp h).2 _
    · exact hneg _ (.inr rfl) ((hguard _).mp h).1 ((hguard _).mp h).2 _
  · intro h
    refine hok b' ⟨hbalance, hgroup, hother, ?_, hfits⟩
    intro i hi hphysical
    by_contra hlt
    have hbad := (isNegative_iff s.directory b' i row.productId).mpr ⟨hphysical, not_le.mp hlt⟩
    rcases hi with rfl | rfl
    · exact h (.inl hbad)
    · exact h (.inr hbad)

end Trigger

/-! ## Frame -/

/-- Statements on the stock ledger and its balances. -/
def StockStmt : (k : Key) → Stmt k → Prop
  | .balance _ _, _ => True
  | .stockTransfer _, _ => True
  | .stockTransaction _, _ => True
  | _, _ => False

/-- The tables the stock ledger consists of may differ, all others are the same. -/
def SameButStock (s s' : Db) : Prop :=
  ∃ balances stockTransfers stockTransactions, s' = { s with balances, stockTransfers, stockTransactions }

theorem sameButStock_of_frame {s s' : Db} (h : Frame (S := schema) StockStmt s s') : SameButStock s s' := by
  refine h.induction (I := SameButStock s) ⟨_, _, _, rfl⟩ ?_
  rintro s₁ k st r hst ⟨b, t, x, rfl⟩
  cases k with
  | balance i p => exact ⟨_, _, _, rfl⟩
  | stockTransfer id => exact ⟨_, _, _, rfl⟩
  | stockTransaction id => exact ⟨_, _, _, rfl⟩
  | _ => exact hst.elim

end Munavvar.StockLedger
