import Munavvar.StockLedger

/-!
# The financial ledger

Inserting or updating a financial transaction fires the balance trigger, which
moves the two account balances when the transaction enters or leaves the
status COMPLETED, and which refuses changes of the amount and of the route and
every deletion.
-/

namespace Munavvar.FinancialLedger

open Munavvar.KeyedTable
open Munavvar.Transaction
open Munavvar.Transaction.Prog
open Munavvar.Database
open Munavvar.DoubleEntry

/-! ## The trigger -/

/-- The amounts `diff_from` and `diff_to` that the trigger adds to the two accounts. -/
def balanceDiff (old : Option FinancialTransaction) (new : FinancialTransaction) : ℤ × ℤ :=
  match old with
  | none => if new.status = .completed then (-new.amount, new.amount) else (0, 0)
  | some old =>
    if old.status ≠ .completed ∧ new.status = .completed then (-new.amount, new.amount)
    else if old.status = .completed ∧ new.status ≠ .completed then (old.amount, -old.amount)
    else (0, 0)

/-- Lock both accounts in the order of their identifiers and move their balances. -/
def moveBalances (fromId toId : Uuid) (diffFrom diffTo : ℤ) : Uow Unit :=
  whenever (¬ (diffFrom = 0 ∧ diffTo = 0)) do
    let _ ← forUpdate (.account (min fromId toId))
    let _ ← forUpdate (.account (max fromId toId))
    issue (.account fromId) (.add diffFrom)
    issue (.account toId) (.add diffTo)

/-- The trigger `update_account_balances` on an inserted or updated transaction. -/
def updateAccountBalances (old : Option FinancialTransaction) (new : FinancialTransaction) :
    Uow Unit := do
  raiseIf (old.any fun x => x.amount ≠ new.amount)
    (.immutableHistory "Изменение суммы существующей транзакции запрещено.")
  raiseIf (old.any fun x => x.fromId ≠ new.fromId || x.toId ≠ new.toId)
    (.immutableHistory "Изменение отправителя или получателя транзакции запрещено.")
  moveBalances new.fromId new.toId (balanceDiff old new).1 (balanceDiff old new).2

/-- The foreign keys of a transaction: its accounts and its order. -/
def checkReferences (row : FinancialTransaction) : Uow Unit := do
  let d ← select Db.directory
  let orderExists ← select fun s => row.orderId.all fun id => (s.orders.find? id).isSome
  raiseIf ((d.account? row.fromId).isNone) (.foreignKeyViolation "transactions_from_id_fkey")
  raiseIf ((d.account? row.toId).isNone) (.foreignKeyViolation "transactions_to_id_fkey")
  raiseIf (orderExists = false) (.foreignKeyViolation "transactions_order_id_fkey")

/-- One `INSERT` of several transactions: all rows are stored before the first
foreign key is checked and the first trigger fires. -/
def insertTransactions (rows : List (Uuid × FinancialTransaction)) : Uow Unit := do
  forEach rows fun r => issue (.transaction r.1) (.insert r.2)
  forEach rows fun r => do
    checkReferences r.2
    updateAccountBalances none r.2

/-- An `UPDATE` of a transaction. -/
def updateTransaction (id : Uuid) (data : TransactionUpdate) : Uow Unit := do
  let old ← forUpdate (.transaction id)
  match old with
  | none => ret ()
  | some old => do
    issue (.transaction id) (.update data)
    updateAccountBalances (some old) (old.set data)

/-- A `DELETE` of a transaction: the trigger refuses it. -/
def deleteTransaction (id : Uuid) : Uow Unit := do
  let old ← forUpdate (.transaction id)
  whenever (old.isSome) do
    issue (.transaction id) .delete
    raise (.immutableHistory ("Удаление транзакций запрещено. Используйте отмену (REJECTED) " ++
      "или корректирующую транзакцию."))

/-! ## What the trigger does -/

/-- A transaction as an entry between its accounts. -/
def entry (row : FinancialTransaction) : Entry Uuid ℤ := ⟨row.fromId, row.toId, row.amount⟩

/-- Only completed transactions count. -/
def entryOf (row : FinancialTransaction) : Option (Entry Uuid ℤ) :=
  if row.status = .completed then some (entry row) else none

/-- Both balances still fit their column after an entry between two accounts. -/
def Movable (b : Table Uuid ℤ) (e : Entry Uuid ℤ) : Prop :=
  int64 (balance b e.source - e.amount) = true ∧
    int64 (balance (add b e.source (-e.amount)) e.target + e.amount) = true

/-- Between two different accounts each balance moves by itself. -/
theorem movable_iff {b : Table Uuid ℤ} {e : Entry Uuid ℤ} (hne : e.source ≠ e.target) :
    Movable b e ↔ int64 (balance b e.source - e.amount) = true ∧
      int64 (balance b e.target + e.amount) = true := by
  rw [Movable, balance_add, if_neg hne.symm, add_zero]

/-- The balances before and after an amount has moved between two accounts. -/
structure Moved (e : Entry Uuid ℤ) (b b' : Table Uuid ℤ) : Prop where
  /-- Each balance moves by the entry's effect. -/
  balance_eq : ∀ a, balance b' a = balance b a + e.effect a
  /-- The sum of all balances stays. -/
  total_eq : groupTotal b' (fun _ => true) = groupTotal b (fun _ => true)
  /-- No account is added or lost. -/
  isSome_eq : ∀ a, (b'.find? a).isSome = (b.find? a).isSome

theorem effect_zero (fromId toId a : Uuid) : (⟨fromId, toId, 0⟩ : Entry Uuid ℤ).effect a = 0 := by
  unfold Entry.effect
  split <;> split <;> rfl

theorem moved_zero (fromId toId : Uuid) (b : Table Uuid ℤ) : Moved ⟨fromId, toId, 0⟩ b b where
  balance_eq a := by rw [effect_zero, add_zero]
  total_eq := rfl
  isSome_eq _ := rfl

/-- What one account gains the other one loses. -/
theorem balanceDiff_fst (old : Option FinancialTransaction) (new : FinancialTransaction) :
    (balanceDiff old new).1 = -(balanceDiff old new).2 := by
  unfold balanceDiff
  split
  · split <;> simp
  · split
    · rfl
    · split <;> simp

/-- For every pair of statuses the trigger moves the difference between what
the row counted for before and what it counts for now. -/
theorem effect_balanceDiff {old : Option FinancialTransaction} {new : FinancialTransaction}
    (hsame : ∀ x, old = some x → entry x = entry new) (a : Uuid) :
    (⟨new.fromId, new.toId, (balanceDiff old new).2⟩ : Entry Uuid ℤ).effect a =
      -rowEffect entryOf old a + rowEffect entryOf (some new) a := by
  cases old with
  | none =>
    by_cases hnew : new.status = .completed
    · simp only [balanceDiff, rowEffect, entryOf, if_pos hnew, Option.bind_some, Option.bind_none,
        Option.elim_some, Option.elim_none, neg_zero, zero_add]
      rfl
    · simp only [balanceDiff, rowEffect, entryOf, if_neg hnew, Option.bind_some, Option.bind_none,
        Option.elim_none, neg_zero, add_zero]
      exact effect_zero _ _ _
  | some old =>
    have hentry : entry old = entry new := hsame old rfl
    by_cases hold : old.status = .completed
    · by_cases hnew : new.status = .completed
      · simp only [balanceDiff, rowEffect, entryOf, hold, hnew, ne_eq, not_true_eq_false, false_and,
          and_false, if_false, if_true, Option.bind_some, Option.elim_some, hentry, neg_add_cancel]
        exact effect_zero _ _ _
      · simp only [balanceDiff, rowEffect, entryOf, hold, hnew, ne_eq, not_true_eq_false, if_false,
          not_false_eq_true, and_self, if_true, Option.bind_some, Option.elim_some,
          Option.elim_none, add_zero]
        have hamount : old.amount = new.amount := congrArg Entry.amount hentry
        rw [← Entry.effect_reversed, hentry, hamount]
        rfl
    · by_cases hnew : new.status = .completed
      · simp only [balanceDiff, rowEffect, entryOf, hold, hnew, ne_eq, not_false_eq_true, and_self,
          if_true, if_false, Option.bind_some, Option.elim_some, Option.elim_none, neg_zero,
          zero_add]
        rfl
      · simp only [balanceDiff, rowEffect, entryOf, hold, hnew, false_and, and_false, if_false,
          Option.bind_some, Option.elim_none, neg_zero, add_zero]
        exact effect_zero _ _ _

section Trigger

variable {R : Regime schema} {s : Db} {E : Err → Prop}

/-- Updating the balance of an existing account. -/
theorem wp_accountUpdate (hlax : R.Lax) {id : Uuid} {delta : ℤ} {Q : Unit → Db → Prop}
    (hrow : (s.accountBalances.find? id).isSome = true)
    (hok : int64 (balance s.accountBalances id + delta) = true →
      Q () { s with accountBalances := add s.accountBalances id delta })
    (hrange : int64 (balance s.accountBalances id + delta) = false →
      E (.outOfRange "accounts.balance")) :
    wp R (issue (.account id) (.add delta)) Q E s := by
  obtain ⟨b, hb⟩ := Option.isSome_iff_exists.mp hrow
  refine wp_execute_of (hlax _ _ _) (fun _ r hr => ?_) fun e he => ?_
  · change BalanceStmt.update (.add delta) (s.accountBalances.find? id) = .ok r at hr
    rw [hb] at hr
    obtain ⟨rfl, hchecks⟩ := checked_ok hr
    rw [add, balance, hb] at hok
    exact hok (hchecks _ (List.mem_singleton_self _))
  · change BalanceStmt.update (.add delta) (s.accountBalances.find? id) = .error e at he
    rw [hb] at he
    have he := checked_error he
    rw [List.mem_singleton, Prod.mk.injEq] at he
    rw [balance, hb] at hrange
    exact he.2 ▸ hrange he.1.symm

theorem isSome_add (b : Table Uuid ℤ) {id : Uuid} (delta : ℤ) (h : (b.find? id).isSome = true)
    (a : Uuid) : ((add b id delta).find? a).isSome = (b.find? a).isSome := by
  rw [add, Table.find?_put]
  split
  · next ha => rw [ha, h, Option.isSome_some]
  · rfl

/-- Two opposite differences move an amount between existing accounts. -/
theorem moveBalances_spec (hlax : R.Lax) {fromId toId : Uuid} {amount : ℤ}
    {Q : Unit → Db → Prop} (hfrom : (s.accountBalances.find? fromId).isSome = true)
    (hto : (s.accountBalances.find? toId).isSome = true)
    (hrange : amount ≠ 0 → ¬ Movable s.accountBalances ⟨fromId, toId, amount⟩ →
      E (.outOfRange "accounts.balance"))
    (hok : ∀ b', Moved ⟨fromId, toId, amount⟩ s.accountBalances b' →
      (amount ≠ 0 → Movable s.accountBalances ⟨fromId, toId, amount⟩) →
      Q () { s with accountBalances := b' }) :
    wp R (moveBalances fromId toId (-amount) amount) Q E s := by
  rw [moveBalances, wp_whenever]
  constructor
  · intro hdiff
    have hamount : amount ≠ 0 := fun h => hdiff ⟨by rw [h, neg_zero], h⟩
    rw [wp_bind, wp_locked, wp_bind, wp_locked, wp_bind]
    refine wp_accountUpdate hlax hfrom (fun hdebit => ?_) fun hdebit => ?_
    rotate_left
    · refine hrange hamount fun hmovable => ?_
      rw [← sub_eq_add_neg, hmovable.1] at hdebit
      cases hdebit
    refine wp_accountUpdate hlax ?_ (fun hcredit => ?_) fun hcredit => ?_
    rotate_right
    · refine hrange hamount fun hmovable => ?_
      rw [hmovable.2] at hcredit
      cases hcredit
    · exact (isSome_add _ _ hfrom toId).trans hto
    · refine hok _ ⟨balance_post s.accountBalances ⟨fromId, toId, amount⟩, ?_, fun a => ?_⟩ ?_
      · exact groupTotal_post s.accountBalances _ ⟨fromId, toId, amount⟩ rfl
      · refine (isSome_add _ _ ?_ a).trans (isSome_add _ _ hfrom a)
        exact (isSome_add _ _ hfrom toId).trans hto
      · intro _
        constructor
        · rw [sub_eq_add_neg]
          exact hdebit
        · exact hcredit
  · intro h
    have h : amount = 0 := (not_not.mp h).2
    rw [h] at hok
    exact hok _ (moved_zero fromId toId s.accountBalances) fun hne => absurd rfl hne

/-- The trigger moves exactly the difference between what the row counted for
before and what it counts for now. -/
theorem updateAccountBalances_spec (hlax : R.Lax) {old : Option FinancialTransaction}
    {new : FinancialTransaction} {Q : Unit → Db → Prop}
    (hexists : (∀ x, old = some x → entry x = entry new) →
      (s.accountBalances.find? new.fromId).isSome = true ∧
        (s.accountBalances.find? new.toId).isSome = true)
    (hrange : (balanceDiff old new).2 ≠ 0 →
      ¬ Movable s.accountBalances ⟨new.fromId, new.toId, (balanceDiff old new).2⟩ →
      E (.outOfRange "accounts.balance"))
    (himmutable : (∃ x, old = some x ∧ entry x ≠ entry new) →
      ∀ message, E (.immutableHistory message))
    (hok : (∀ x, old = some x → entry x = entry new) → ∀ b',
      (∀ a, balance b' a = balance s.accountBalances a -
        rowEffect entryOf old a + rowEffect entryOf (some new) a) →
      groupTotal b' (fun _ => true) = groupTotal s.accountBalances (fun _ => true) →
      (∀ a, (b'.find? a).isSome = (s.accountBalances.find? a).isSome) →
      ((balanceDiff old new).2 ≠ 0 →
        Movable s.accountBalances ⟨new.fromId, new.toId, (balanceDiff old new).2⟩) →
      Q () { s with accountBalances := b' }) :
    wp R (updateAccountBalances old new) Q E s := by
  rw [updateAccountBalances, wp_bind, wp_raiseIf]
  refine ⟨fun hamount => himmutable ?_ _, fun hamount => ?_⟩
  · obtain ⟨x, hx, hne⟩ := (Option.any_eq_true _ _).mp hamount
    have hne : x.amount ≠ new.amount := of_decide_eq_true hne
    exact ⟨x, hx, fun heq => hne (congrArg Entry.amount heq)⟩
  rw [wp_bind, wp_raiseIf]
  refine ⟨fun hroute => himmutable ?_ _, fun hroute => ?_⟩
  · obtain ⟨x, hx, hne⟩ := (Option.any_eq_true _ _).mp hroute
    refine ⟨x, hx, fun heq => ?_⟩
    have hsource : x.fromId = new.fromId := congrArg Entry.source heq
    have htarget : x.toId = new.toId := congrArg Entry.target heq
    simp [hsource, htarget] at hne
  have hsame : ∀ x, old = some x → entry x = entry new := by
    rintro x rfl
    have hamount : x.amount = new.amount := by simpa using hamount
    have hroute : x.fromId = new.fromId ∧ x.toId = new.toId := by simpa using hroute
    rw [entry, entry, hamount, hroute.1, hroute.2]
  rw [balanceDiff_fst]
  refine moveBalances_spec hlax (hexists hsame).1 (hexists hsame).2 hrange fun b' hb' hmovable => ?_
  refine hok hsame b' (fun a => ?_) hb'.total_eq hb'.isSome_eq hmovable
  rw [hb'.balance_eq, effect_balanceDiff hsame]
  omega

end Trigger

end Munavvar.FinancialLedger
