import Munavvar.ReadCommitted
import Munavvar.FinancialLedger

/-!
# Conservation of the financial ledger

Transactions of any number of statements on the financial ledger run
concurrently, from accounts with balance zero. In every committed state each
balance is what the completed transactions net to and the balances add up to
nothing, whatever statuses the rows went through. A transaction whose
statement was rejected changes nothing.
-/

namespace Munavvar.AccountConservation

open Munavvar.KeyedTable
open Munavvar.Transaction
open Munavvar.Transaction.Prog
open Munavvar.ReadCommitted
open Munavvar.Database
open Munavvar.DoubleEntry
open Munavvar.FinancialLedger

/-- The statements on the financial ledger. -/
inductive FinancialStatement
  /-- `INSERT INTO transactions`. -/
  | insert (rows : List (Uuid × FinancialTransaction))
  /-- `UPDATE transactions`. -/
  | update (id : Uuid) (data : TransactionUpdate)
  /-- `DELETE FROM transactions`. -/
  | delete (id : Uuid)

/-- Execute one statement with its trigger. -/
def FinancialStatement.program : FinancialStatement → Uow Unit
  | .insert rows => insertTransactions rows
  | .update id data => updateTransaction id data
  | .delete id => deleteTransaction id

/-- Execute the statements of one transaction. -/
def transactionProgram (statements : List FinancialStatement) : Uow Unit :=
  forEach statements FinancialStatement.program

/-- The completed amounts into an account. -/
def completedInto (s : Db) (accountId : Uuid) : ℤ :=
  s.transactions.total fun _ x =>
    if x.toId = accountId ∧ x.status = .completed then x.amount else 0

/-- The completed amounts out of an account. -/
def completedOutOf (s : Db) (accountId : Uuid) : ℤ :=
  s.transactions.total fun _ x =>
    if x.fromId = accountId ∧ x.status = .completed then x.amount else 0

/-- Accounts as they are opened, before the first transaction. -/
structure Opened (s : Db) : Prop where
  /-- Nothing was posted. -/
  transactions_empty : s.transactions = Table.empty
  /-- Every account of the directory has a balance. -/
  account_exists : ∀ id, (s.directory.account? id).isSome = true →
    (s.accountBalances.find? id).isSome = true
  /-- All balances are zero. -/
  balance_zero : ∀ id b, s.accountBalances.find? id = some b → b = 0

/-- The conservation law of the financial ledger. -/
structure Conserved (s : Db) : Prop where
  /-- A balance is what completed transactions moved in less what they moved out. -/
  balance_eq : ∀ id, balance s.accountBalances id = completedInto s id - completedOutOf s id
  /-- No money is created or lost. -/
  total_zero : groupTotal s.accountBalances (fun _ => true) = 0

/-- What transactions that the trigger has not yet seen will do to a balance. -/
def outstanding (rows : List (Uuid × FinancialTransaction)) (a : Uuid) : ℤ :=
  (rows.map fun r => rowEffect entryOf (some r.2) a).sum

/-- The ledger while some stored transactions still wait for their trigger. -/
structure Pending (rows : List (Uuid × FinancialTransaction)) (s : Db) : Prop where
  /-- The balances lag behind by the waiting transactions. -/
  lag : ∀ a, balance s.accountBalances a + outstanding rows a = net entryOf s.transactions a
  /-- No money is created or lost. -/
  total_zero : groupTotal s.accountBalances (fun _ => true) = 0
  /-- Every account of the directory has a balance. -/
  account_exists : ∀ id, (s.directory.account? id).isSome = true →
    (s.accountBalances.find? id).isSome = true
  /-- Stored transactions are between accounts of the directory, once their keys are checked. -/
  references : ∀ id x, s.transactions.find? id = some x →
    (s.accountBalances.find? x.fromId).isSome = true ∧
      (s.accountBalances.find? x.toId).isSome = true ∨ (id, x) ∈ rows

theorem Opened.pending {s : Db} (h : Opened s) : Pending [] s where
  lag a := by
    have hzero : balance s.accountBalances a = 0 := by
      unfold balance
      cases hb : s.accountBalances.find? a with
      | none => rfl
      | some b => exact h.balance_zero a b hb
    rw [hzero, h.transactions_empty]
    rfl
  total_zero := by
    have hzero : groupTotal s.accountBalances (fun _ => true) =
        s.accountBalances.total fun _ _ => 0 :=
      Table.total_congr fun id b hb => by rw [if_pos rfl, h.balance_zero id b hb]
    rw [hzero, Table.total]
    simp
  account_exists := h.account_exists
  references id x hx := by
    rw [h.transactions_empty, Table.find?_empty] at hx
    exact absurd hx (by simp)

/-- The effect on one balance, read off the transaction's columns. -/
theorem rowEffect_entryOf (x : FinancialTransaction) (id : Uuid) :
    rowEffect entryOf (some x) id =
      (if x.toId = id ∧ x.status = .completed then x.amount else 0) -
        if x.fromId = id ∧ x.status = .completed then x.amount else 0 := by
  by_cases hstatus : x.status = .completed
  · rw [rowEffect, Option.bind_some, entryOf, if_pos hstatus, Option.elim_some, Entry.effect]
    simp only [hstatus, and_true, entry, eq_comm]
    rfl
  · simp only [rowEffect, entryOf, Option.bind_some, Option.elim_none, hstatus,
      and_false, if_false, sub_zero]

theorem Pending.conserved {s : Db} (h : Pending [] s) : Conserved s where
  balance_eq id := by
    have hlag := h.lag id
    rw [outstanding, List.map_nil, List.sum_nil, add_zero] at hlag
    rw [hlag, net, completedInto, completedOutOf, ← Table.total_sub]
    exact Table.total_congr fun _ x _ => rowEffect_entryOf x id
  total_zero := h.total_zero

section Statements

variable {R : Regime schema} {s : Db}

/-- A stored transaction waits for its trigger. -/
theorem insertRow_pending (hlax : R.Lax) {rows : List (Uuid × FinancialTransaction)}
    (r : Uuid × FinancialTransaction) (h : Pending rows s) :
    wp R (issue (.transaction r.1) (.insert r.2)) (fun _ s' => Pending (rows ++ [r]) s')
      (fun _ => True) s := by
  refine wp_execute_of (hlax _ _ _) (fun _ r' hr' => ?_) fun _ _ => trivial
  change (FinancialStmt.insert r.2).exec (s.transactions.find? r.1) = .ok r' at hr'
  cases hold : s.transactions.find? r.1 with
  | some old =>
    rw [hold] at hr'
    exact absurd hr' (by simp [FinancialStmt.exec])
  | none =>
    rw [hold] at hr'
    obtain ⟨rfl, -⟩ := checked_ok hr'
    refine ⟨fun a => ?_, h.total_zero, h.account_exists, fun id x hx => ?_⟩
    · change balance s.accountBalances a + outstanding (rows ++ [r]) a =
        net entryOf (s.transactions.put r.1 (some r.2)) a
      rw [net_put, hold, rowEffect_none, sub_zero, ← h.lag a, outstanding, outstanding,
        List.map_append, List.sum_append, List.map_singleton, List.sum_singleton, add_assoc]
    · change (s.transactions.put r.1 (some r.2)).find? id = some x at hx
      rw [Table.find?_put] at hx
      split at hx
      · next hid =>
        cases hx
        exact .inr (List.mem_append_right _ (List.mem_singleton.mpr (by rw [hid])))
      · exact (h.references id x hx).imp_right (List.mem_append_left _)

/-- The trigger of one transaction settles it. -/
theorem trigger_pending (hsound : R.Sound) (hlax : R.Lax)
    {rows : List (Uuid × FinancialTransaction)} (r : Uuid × FinancialTransaction)
    (h : Pending (r :: rows) s) :
    wp R (do checkReferences r.2; updateAccountBalances none r.2) (fun _ s' => Pending rows s')
      (fun _ => True) s := by
  rw [wp_bind, checkReferences]
  simp only [wp_bind, wp_ask, wp_raiseIf, implies_true, true_and]
  intro v hv _ _ hfrom hto _
  have hd := hsound _ _ hv
  change v.directory = s.directory at hd
  rw [hd] at hfrom hto
  have hfrom := h.account_exists _
    (Option.isSome_iff_ne_none.mpr fun hnone => hfrom (by rw [hnone, Option.isNone_none]))
  have hto := h.account_exists _
    (Option.isSome_iff_ne_none.mpr fun hnone => hto (by rw [hnone, Option.isNone_none]))
  refine updateAccountBalances_spec hlax (fun _ => ⟨hfrom, hto⟩) (fun _ _ => trivial)
    (fun _ _ => trivial) ?_
  intro _ b' hbalance htotal hexists _
  refine ⟨fun a => ?_, htotal.trans h.total_zero, fun id hid => ?_, fun id x hx => ?_⟩
  · have hlag := h.lag a
    rw [outstanding, List.map_cons, List.sum_cons] at hlag
    change balance b' a + outstanding rows a = net entryOf s.transactions a
    rw [hbalance, rowEffect_none, sub_zero, ← hlag, add_assoc, outstanding]
  · exact (hexists id).trans (h.account_exists id hid)
  · change (b'.find? x.fromId).isSome = true ∧ (b'.find? x.toId).isSome = true ∨ _
    rw [hexists, hexists]
    rcases h.references id x hx with hboth | hmem
    · exact .inl hboth
    · rcases List.mem_cons.mp hmem with heq | hmem
      · cases heq
        exact .inl ⟨hfrom, hto⟩
      · exact .inr hmem

/-- Every accepted statement keeps the law. -/
theorem statement_conserved (hsound : R.Sound) (hlax : R.Lax) (st : FinancialStatement)
    (h : Pending [] s) :
    wp R st.program (fun _ s' => Pending [] s') (fun _ => True) s := by
  cases st with
  | insert rows =>
    exact wp_storeAndTrigger (R := R) Pending (fun _ r _ hs => insertRow_pending hlax r hs)
      (fun r _ _ hs => trigger_pending hsound hlax r hs) h
  | update id data =>
    dsimp only [FinancialStatement.program, updateTransaction]
    rw [wp_bind, wp_locked]
    cases hold : schema.get s (.transaction id) with
    | none => exact h
    | some old =>
      change s.transactions.find? id = some old at hold
      rw [wp_bind]
      refine wp_execute_of (hlax _ _ _) (fun _ r hr => ?_) fun _ _ => trivial
      change (FinancialStmt.update data).exec (s.transactions.find? id) = .ok r at hr
      rw [hold] at hr
      obtain ⟨rfl, -⟩ := checked_ok hr
      have hrefs : (s.accountBalances.find? old.fromId).isSome = true ∧
          (s.accountBalances.find? old.toId).isSome = true :=
        (h.references id old hold).resolve_right List.not_mem_nil
      have hroute : (∀ x, some old = some x → entry x = entry (old.set data)) →
          (s.accountBalances.find? (old.set data).fromId).isSome = true ∧
            (s.accountBalances.find? (old.set data).toId).isSome = true := by
        intro hsame
        have hsource : old.fromId = (old.set data).fromId := congrArg Entry.source (hsame old rfl)
        have htarget : old.toId = (old.set data).toId := congrArg Entry.target (hsame old rfl)
        rw [← hsource, ← htarget]
        exact hrefs
      refine updateAccountBalances_spec hlax hroute (fun _ _ => trivial) (fun _ _ => trivial) ?_
      intro hsame b' hbalance htotal hexists _
      refine ⟨fun a => ?_, htotal.trans h.total_zero, fun j hj => ?_, fun j x hx => ?_⟩
      · change balance b' a + outstanding [] a =
          net entryOf (s.transactions.put id (some (old.set data))) a
        rw [net_put, hold, ← h.lag a, hbalance]
        change balance s.accountBalances a - _ + _ + outstanding [] a = _
        omega
      · exact (hexists j).trans (h.account_exists j hj)
      · change (b'.find? x.fromId).isSome = true ∧ (b'.find? x.toId).isSome = true ∨ _
        rw [hexists, hexists]
        change (s.transactions.put id (some (old.set data))).find? j = some x at hx
        rw [Table.find?_put] at hx
        split at hx
        · cases hx
          exact .inl (hroute hsame)
        · exact h.references j x hx
  | delete id =>
    dsimp only [FinancialStatement.program, deleteTransaction]
    simp only [wp_bind, wp_whenever]
    refine ⟨fun _ => ?_, fun _ => h⟩
    exact wp_execute_of (hlax _ _ _) (fun _ _ _ => trivial) fun _ _ => trivial

theorem transaction_conserved (hsound : R.Sound) (hlax : R.Lax) (sts : List FinancialStatement)
    (h : Pending [] s) :
    wp R (transactionProgram sts) (fun _ s' => Pending [] s') (fun _ => True) s :=
  wp_forEach FinancialStatement.program
    (fun (_ : List FinancialStatement) (s : Db) => Pending [] s)
    (fun st _ _ hs => statement_conserved hsound hlax st hs) sts s h

end Statements

/-- In every committed state of every interleaving the financial ledger is
conserved, and a transaction with a rejected statement leaves the committed
state as it is. -/
theorem financial_ledger_conserved {db : Db} {σ : Sys schema (List FinancialStatement)}
    (hopened : Opened db)
    (hreach : Reach transactionProgram (fun _ _ _ => True) (Sys.init db) σ) :
    Conserved σ.db ∧
      ∀ t x e, σ.txns t = some x → x.prog = .raise e →
        ∀ a σ', a = .step t ∨ a = .commit t ∨ a = .rollback t →
          σ.exec transactionProgram a = some σ' → σ'.db = σ.db := by
  constructor
  · have hpending : Pending [] σ.db := hreach.invariant (fun sts s hs =>
      transaction_conserved (Regime.concurrentAssuming_sound _) (Regime.concurrentAssuming_lax _)
        sts hs) hopened.pending
    exact hpending.conserved
  · exact fun t x e hx hprog a σ' ha hexec => Sys.raised_unchanged hx hprog ha hexec

/-- The accounts of the system, a client and a courier. -/
def sampleDb : Db where
  directory := ⟨[], [⟨1, 0, .revenue, true, 0, "revenue"⟩, ⟨2, 5, .client, true, 0, "client"⟩,
    ⟨3, 6, .courier, true, 0, "courier"⟩]⟩
  users := Table.empty
  products := Table.empty
  contracts := Table.empty
  priceItems := Table.empty
  orders := Table.empty
  accountBalances := ⟨[(1, 0), (2, 0), (3, 0)], by decide⟩
  balances := Table.empty
  stockTransfers := Table.empty
  stockTransactions := Table.empty
  transactions := Table.empty
  invoices := Table.empty

/-- A debt is posted together with a pending payment, the payment is verified
and withdrawn, and a change of its amount is rejected. -/
def sampleActions : List (ReadCommitted.Action (List FinancialStatement)) :=
  let debt : FinancialTransaction := ⟨1, 2, none, none, 50, .completed, "debt", 0, true⟩
  let payment : FinancialTransaction := ⟨2, 3, none, none, 50, .pending, "payment", 0, true⟩
  let steps (t n : ℕ) := List.replicate n (ReadCommitted.Action.step t)
  [.start 0 [.insert [(11, debt), (12, payment)]]] ++ steps 0 10 ++ [.commit 0] ++
  [.start 1 [.update 12 { status := some .completed }]] ++ steps 1 6 ++ [.commit 1] ++
  [.start 2 [.update 12 { status := some .rejected }],
    .start 3 [.update 12 { amount := some 70 }]] ++
  steps 2 6 ++ [.commit 2] ++ steps 3 2 ++ [.rollback 3]

theorem financial_ledger_conserved_sample :
    ∃ σ, sampleActions.foldlM (Sys.exec transactionProgram) (Sys.init sampleDb) = some σ ∧
      balance σ.db.accountBalances 2 = 50 ∧ Conserved σ.db := by
  have hopened : Opened sampleDb := by
    refine ⟨rfl, fun id hid => ?_, fun id b hb => ?_⟩
    · simp [Directory.account?, sampleDb] at hid
      rcases hid with rfl | rfl | rfl <;> rfl
    · have hmem := (sampleDb.accountBalances.mem_rows_iff id b).mpr hb
      simp [sampleDb] at hmem
      omega
  have heval : (sampleActions.foldlM (Sys.exec transactionProgram) (Sys.init sampleDb)).map
      (fun σ => balance σ.db.accountBalances 2) = some 50 := by decide +kernel
  cases hrun : sampleActions.foldlM (Sys.exec transactionProgram) (Sys.init sampleDb) with
  | none => exact absurd (hrun ▸ heval) (by simp)
  | some σ =>
    rw [hrun, Option.map_some, Option.some.injEq] at heval
    exact ⟨σ, rfl, heval, (financial_ledger_conserved hopened (Reach.of_actions _ hrun)).1⟩

end Munavvar.AccountConservation
