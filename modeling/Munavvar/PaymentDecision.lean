import Munavvar.AccountConservation
import Munavvar.Gate

/-!
# Deciding a pending payment

A payment waits as a PENDING transaction until an accountant verifies or
rejects it. Any number of calls may compete for one payment. Each locks the
transaction's row first and checks its status under the lock, so the first that
succeeds decides and all later ones are refused.
-/

namespace Munavvar.PaymentDecision

open Munavvar.KeyedTable
open Munavvar.Transaction
open Munavvar.Transaction.Prog
open Munavvar.ReadCommitted
open Munavvar.Database
open Munavvar.DoubleEntry
open Munavvar.FinancialLedger
open Munavvar.Gate

/-! ## The calls -/

/-- The common course of `verify_transaction` and `reject_transaction`. -/
def decideTransaction (transactionId : Uuid) (data : FinancialTransaction → TransactionUpdate) :
    Uow Unit := do
  let txn ← forUpdate (.transaction transactionId)
  let txn ← orRaise txn (.transactionNotFound transactionId)
  raiseIf (txn.status ≠ .pending) (.invalidTransactionStatus transactionId txn.status)
  updateTransaction transactionId (data txn)

/-- What `verify_transaction` writes. -/
def verification (verifiedById : Uuid) (_ : FinancialTransaction) : TransactionUpdate :=
  { status := some .completed
    verifiedById := some verifiedById }

/-- What `reject_transaction` writes; an empty reason counts as none. -/
def rejection (verifiedById : Uuid) (reason : Option String) (txn : FinancialTransaction) :
    TransactionUpdate :=
  { status := some .rejected
    verifiedById := some verifiedById
    reason := (reason.filter (· ≠ "")).map fun r => txn.reason ++ " | Отклонено: " ++ r }

/-- `verify_transaction`. -/
def verifyTransaction (transactionId verifiedById : Uuid) : Uow Unit :=
  decideTransaction transactionId (verification verifiedById)

/-- `reject_transaction`. -/
def rejectTransaction (transactionId verifiedById : Uuid) (reason : Option String) : Uow Unit :=
  decideTransaction transactionId (rejection verifiedById reason)

/-- A call that decides a payment. -/
inductive Decision
  | verify (verifiedById : Uuid)
  | reject (verifiedById : Uuid) (reason : Option String)
  deriving DecidableEq, Repr

/-- Run a call on a payment. -/
def Decision.program (transactionId : Uuid) : Decision → Uow Unit
  | .verify verifiedById => verifyTransaction transactionId verifiedById
  | .reject verifiedById reason => rejectTransaction transactionId verifiedById reason

/-- What a call writes. -/
def Decision.data : Decision → FinancialTransaction → TransactionUpdate
  | .verify verifiedById => verification verifiedById
  | .reject verifiedById reason => rejection verifiedById reason

/-- The row that a call leaves. -/
def Decision.result (d : Decision) (row : FinancialTransaction) : FinancialTransaction :=
  row.set (d.data row)

/-- The reason that a call leaves fits its column. -/
def Decision.Fits (row : FinancialTransaction) (d : Decision) : Prop :=
  fits 255 (some (d.result row).reason) = true

instance (row : FinancialTransaction) (d : Decision) : Decidable (d.Fits row) :=
  inferInstanceAs (Decidable (fits 255 (some (d.result row).reason) = true))

/-- What a call does to the balance of an account: only a verification moves the amount. -/
def Decision.effect (d : Decision) (row : FinancialTransaction) (accountId : Uuid) : ℤ :=
  match d with
  | .verify _ => (entry row).effect accountId
  | .reject _ _ => 0

/-- A payment that waits for a decision, as the constraints of its table keep it. -/
structure PendingPayment (s : Db) (id : Uuid) (row : FinancialTransaction) : Prop where
  /-- The row is stored. -/
  found : s.transactions.find? id = some row
  /-- Nobody has decided. -/
  pending : row.status = .pending
  /-- The row meets its constraints. -/
  valid : ∀ c ∈ row.constraints, c.1 = true
  /-- The charged account exists. -/
  from_exists : (s.accountBalances.find? row.fromId).isSome = true
  /-- The credited account exists. -/
  to_exists : (s.accountBalances.find? row.toId).isSome = true

/-- A payment after the call that decided it. -/
structure Decided (db : Db) (id : Uuid) (row : FinancialTransaction) (d : Decision) (s : Db) :
    Prop where
  /-- The row is what the call left. -/
  found : s.transactions.find? id = some (d.result row)
  /-- The balances have moved by the amount once if the call was a verification. -/
  balance_eq : ∀ a, balance s.accountBalances a = balance db.accountBalances a + d.effect row a

/-- A verification that failed because the amount would take a balance out of its column. -/
def TooLarge (db : Db) (row : FinancialTransaction) (c : Decision × Option Err) : Prop :=
  (∃ verifiedById, c.1 = .verify verifiedById) ∧ c.2 = some (.outOfRange "accounts.balance") ∧
    ¬ Movable db.accountBalances (entry row)

/-- How calls on a pending payment have ended, in the order of their ends. -/
inductive Outcome (db : Db) (id : Uuid) (row : FinancialTransaction) :
    List (Decision × Option Err) → Db → Prop
  /-- No call has succeeded. -/
  | undecided {l : List (Decision × Option Err)} :
    (∀ c ∈ l, TooLarge db row c) → Outcome db id row l db
  /-- One call has succeeded and every later one was refused. -/
  | decided (early late : List (Decision × Option Err)) {winner : Decision} {s : Db} :
    (∀ c ∈ early, TooLarge db row c) → Decided db id row winner s →
    (∀ c ∈ late, c.2 = some (.invalidTransactionStatus id (winner.result row).status)) →
    Outcome db id row (early ++ (winner, none) :: late) s

/-! ## One call -/

section Calls

variable {s : Db} {id : Uuid} {row : FinancialTransaction} {d : Decision}

/-- Both calls take the same course. -/
theorem program_eq (id : Uuid) (d : Decision) :
    d.program id = decideTransaction id d.data := by
  cases d <;> rfl

theorem program_guarded (id : Uuid) : Guarded (Decision.program id) (.transaction id) := by
  intro d
  cases d <;> exact ⟨_, rfl⟩

/-- A call changes neither the amount nor the route. -/
theorem entry_result (d : Decision) (row : FinancialTransaction) :
    entry row = entry (d.result row) := by
  cases d <;> rfl

theorem result_not_pending (d : Decision) (row : FinancialTransaction) :
    (d.result row).status ≠ .pending := by
  intro h
  cases d <;> cases h

/-- The row that a call leaves meets the constraints. -/
theorem valid_result (hvalid : ∀ c ∈ row.constraints, c.1 = true) (hfits : d.Fits row) :
    ∀ c ∈ (d.result row).constraints, c.1 = true := by
  have hentry := entry_result d row
  have hamount : row.amount = (d.result row).amount := congrArg Entry.amount hentry
  have hsource : row.fromId = (d.result row).fromId := congrArg Entry.source hentry
  have htarget : row.toId = (d.result row).toId := congrArg Entry.target hentry
  simp only [FinancialTransaction.constraints, List.forall_mem_cons, ← hamount, ← hsource,
    ← htarget] at hvalid ⊢
  exact ⟨hvalid.1, hfits, hvalid.2.2⟩

/-- A pending row counts for nothing, and what a call leaves counts for its effect. -/
theorem rowEffect_result (hpending : row.status = .pending) (d : Decision) (a : Uuid) :
    -rowEffect entryOf (some row) a + rowEffect entryOf (some (d.result row)) a =
      d.effect row a := by
  have hbefore : rowEffect entryOf (some row) a = 0 := by
    simp [rowEffect, entryOf, hpending]
  rw [hbefore, neg_zero, zero_add]
  cases d <;> rfl

/-- An `UPDATE` of a pending payment that keeps its amount and its route. -/
theorem wp_updatePending {data : TransactionUpdate} {Q : Unit → Db → Prop} {E : Err → Prop}
    (h : PendingPayment s id row) (hentry : entry row = entry (row.set data))
    (hvalid : ∀ c ∈ (row.set data).constraints, c.1 = true)
    (hrange : (balanceDiff (some row) (row.set data)).2 ≠ 0 →
      ¬ Movable s.accountBalances
        ⟨(row.set data).fromId, (row.set data).toId, (balanceDiff (some row) (row.set data)).2⟩ →
      E (.outOfRange "accounts.balance"))
    (hok : ∀ s', s'.transactions.find? id = some (row.set data) →
      (∀ a, balance s'.accountBalances a = balance s.accountBalances a -
        rowEffect entryOf (some row) a + rowEffect entryOf (some (row.set data)) a) → Q () s') :
    wp Regime.serial (updateTransaction id data) Q E s := by
  have hlocked : schema.get s (.transaction id) = some row := h.found
  have hexec : schema.exec (.transaction id) (.update data)
      (schema.get s (.transaction id)) = .ok (some (row.set data)) := by
    rw [hlocked]
    exact checked_of_forall hvalid
  rw [updateTransaction, wp_bind, wp_locked, hlocked]
  dsimp only
  rw [wp_bind]
  refine wp_execute_of (Regime.serial_lax _ _ _) (fun _ r hr => ?_) fun e he => ?_
  · rw [hexec] at hr
    cases hr
    refine updateAccountBalances_spec Regime.serial_lax (fun _ => ?_) hrange
      (fun himmutable => ?_) fun _ b' hbalance _ _ _ => ?_
    · have hsource : row.fromId = (row.set data).fromId := congrArg Entry.source hentry
      have htarget : row.toId = (row.set data).toId := congrArg Entry.target hentry
      exact ⟨hsource ▸ h.from_exists, htarget ▸ h.to_exists⟩
    · obtain ⟨x, hx, hne⟩ := himmutable
      cases hx
      exact absurd hentry hne
    · exact hok _ (Table.find?_put_self _ _ _) hbalance
  · rw [hexec] at he
    cases he

/-- A call on a pending payment decides it, unless it is a verification that
would take a balance out of its column. -/
theorem decide_pending (h : PendingPayment s id row) (hfits : d.Fits row) :
    wp Regime.serial (d.program id) (fun _ s' => Decided s id row d s')
      (fun e => TooLarge s row (d, some e)) s := by
  have hlocked : schema.get s (.transaction id) = some row := h.found
  rw [program_eq, decideTransaction, wp_bind, wp_locked, hlocked, wp_bind, wp_orRaise]
  refine ⟨fun hnone => absurd hnone (by simp), fun txn htxn => ?_⟩
  cases htxn
  rw [wp_bind, wp_raiseIf]
  refine ⟨fun hdecided => absurd h.pending hdecided, fun _ => ?_⟩
  refine wp_updatePending h (entry_result d row) (valid_result h.valid hfits)
    (fun hdiff hrange => ?_) fun s' hfound hbalance => ?_
  · -- only a verification moves an amount
    cases d with
    | verify verifiedById =>
      have hdiff : (balanceDiff (some row)
          (row.set ((Decision.verify verifiedById).data row))).2 = row.amount := by
        simp only [balanceDiff, h.pending]
        rfl
      rw [hdiff] at hrange
      exact ⟨⟨verifiedById, rfl⟩, rfl, hrange⟩
    | reject verifiedById reason =>
      refine absurd ?_ hdiff
      simp only [balanceDiff, h.pending]
      rfl
  · constructor
    · exact hfound
    · intro a
      have heffect := rowEffect_result h.pending d a
      rw [hbalance]
      change balance s.accountBalances a - rowEffect entryOf (some row) a +
        rowEffect entryOf (some (d.result row)) a = _
      omega

/-- A call on a payment that is decided is refused. -/
theorem decide_decided (hfound : s.transactions.find? id = some row)
    (hdecided : row.status ≠ .pending) :
    (d.program id).run s = .error (.invalidTransactionStatus id row.status) := by
  have hlocked : schema.get s (.transaction id) = some row := hfound
  have hwp : wp Regime.serial (d.program id) (fun _ _ => False)
      (fun e => e = .invalidTransactionStatus id row.status) s := by
    rw [program_eq, decideTransaction, wp_bind, wp_locked, hlocked, wp_bind, wp_orRaise]
    refine ⟨fun hnone => absurd hnone (by simp), fun txn htxn => ?_⟩
    cases htxn
    rw [wp_bind, wp_raiseIf]
    exact ⟨fun _ => rfl, fun hpending => absurd hdecided hpending⟩
  have hrun := (wp_serial_iff _ _ _ _).mp hwp
  split at hrun
  · exact hrun.elim
  · next e he => rw [he, hrun]

end Calls

/-! ## All calls together -/

section Runs

variable {db s : Db} {id : Uuid} {row : FinancialTransaction}

/-- Once a payment is decided, every call is refused and changes nothing. -/
theorem served_decided {x : FinancialTransaction} (hfound : s.transactions.find? id = some x)
    (hdecided : x.status ≠ .pending) (ds : List Decision) :
    (∀ c ∈ served (Decision.program id) ds s,
        c.2 = some (.invalidTransactionStatus id x.status)) ∧
      serveAll (Decision.program id) ds s = s := by
  induction ds with
  | nil => exact ⟨fun c hc => absurd hc List.not_mem_nil, rfl⟩
  | cons d ds ih =>
    have hrun := decide_decided (d := d) hfound hdecided
    have hserve : serve (d.program id) s = s := by rw [serve, hrun]
    rw [served, hserve, List.forall_mem_cons, serveAll, List.foldl_cons, hserve]
    refine ⟨⟨?_, ih.1⟩, ih.2⟩
    rw [exceptionOf, hrun]

/-- The calls on a pending payment, one after another. -/
theorem served_pending (h : PendingPayment db id row) (ds : List Decision)
    (hfits : ∀ d ∈ ds, d.Fits row) :
    Outcome db id row (served (Decision.program id) ds db)
      (serveAll (Decision.program id) ds db) := by
  induction ds with
  | nil => exact .undecided fun c hc => absurd hc List.not_mem_nil
  | cons d ds ih =>
    obtain ⟨hd, hds⟩ := List.forall_mem_cons.mp hfits
    have hcall := (wp_serial_iff _ _ _ _).mp (decide_pending h hd)
    rw [served, serveAll, List.foldl_cons]
    split at hcall
    · next u s' hrun =>
      have hserve : serve (d.program id) db = s' := by rw [serve, hrun]
      have hlate := served_decided hcall.found (result_not_pending d row) ds
      have hfailure : exceptionOf (d.program id) db = none := by rw [exceptionOf, hrun]
      rw [hserve, hfailure]
      change Outcome db id row _ (serveAll (Decision.program id) ds s')
      rw [hlate.2]
      exact (.decided [] _ (fun c hc => absurd hc List.not_mem_nil) hcall hlate.1)
    · next e hrun =>
      have hserve : serve (d.program id) db = db := by rw [serve, hrun]
      have hfailure : exceptionOf (d.program id) db = some e := by rw [exceptionOf, hrun]
      rw [hserve, hfailure]
      have hrest := ih hds
      change Outcome db id row _ (serveAll (Decision.program id) ds db)
      generalize served (Decision.program id) ds db = l at hrest ⊢
      generalize serveAll (Decision.program id) ds db = s' at hrest ⊢
      cases hrest with
      | undecided hearly => exact .undecided (List.forall_mem_cons.mpr ⟨hcall, hearly⟩)
      | decided early late hearly hdecided hlate =>
        exact .decided (_ :: early) late (List.forall_mem_cons.mpr ⟨hcall, hearly⟩) hdecided hlate

/-- In every run of competing calls on one pending payment the first that
succeeds decides it, and every later one is refused. -/
theorem payment_decided_once {l : List (Decision × Option Err)} {σ : Sys schema Decision}
    (hpending : PendingPayment db id row) (hfits : ∀ c ∈ l, c.1.Fits row)
    (h : Recorded (Decision.program id) (Sys.init db) l σ) : Outcome db id row l σ.db := by
  obtain ⟨ds, rfl, hdb⟩ := recorded_serial (program_guarded id) h
  rw [hdb]
  have hfits : ∀ d ∈ ds, d.Fits row := by
    intro d hd
    rw [← map_fst_served (Decision.program id) ds db] at hd
    obtain ⟨c, hc, rfl⟩ := List.mem_map.mp hd
    exact hfits c hc
  exact served_pending hpending ds hfits

end Runs

/-- A payment of fifty beside a completed transaction, as both are posted. -/
def pendingDb (posted : FinancialTransaction) : Db :=
  serve (AccountConservation.transactionProgram [.insert [(11, posted),
    (12, ⟨2, 3, none, none, 50, .pending, "payment", 0, true⟩)]]) AccountConservation.sampleDb

/-- The payment waits beside a debt of fifty. -/
def sampleDb : Db := pendingDb ⟨1, 2, none, none, 50, .completed, "debt", 0, true⟩

/-- The payment waits while its target is full. -/
def fullDb : Db :=
  pendingDb ⟨1, 3, none, none, 9223372036854775807, .completed, "deposit", 0, true⟩

/-- The waiting payment. -/
def samplePayment : FinancialTransaction := ⟨2, 3, none, none, 50, .pending, "payment", 0, true⟩

theorem sampleDb_pending : PendingPayment sampleDb 12 samplePayment := by
  constructor <;> decide +kernel

theorem fullDb_pending : PendingPayment fullDb 12 samplePayment := by
  constructor <;> decide +kernel

/-- A verification and a rejection of one payment. -/
def sampleActions : List (ReadCommitted.Action Decision) :=
  [.start 0 (.verify 4), .start 1 (.reject 5 (some "wrong account"))] ++
  List.replicate 7 (.step 0) ++ [.commit 0, .step 1, .rollback 1]

/-- A verification alone. -/
def verifyAlone : List (ReadCommitted.Action Decision) :=
  [.start 0 (.verify 4)] ++ List.replicate 7 (.step 0) ++ [.rollback 0]

theorem payment_decided_once_sample :
    ∃ l σ, sampleActions.foldlM (record (Decision.program 12)) ([], Sys.init sampleDb) =
        some (l, σ) ∧ balance σ.db.accountBalances 3 = 50 ∧
      Outcome sampleDb 12 samplePayment l σ.db := by
  have heval : (sampleActions.foldlM (record (Decision.program 12)) ([], Sys.init sampleDb)).map
      (fun st => (st.1, balance st.2.db.accountBalances 3)) =
      some ([(.verify 4, none), (.reject 5 (some "wrong account"),
        some (.invalidTransactionStatus 12 .completed))], 50) := by decide +kernel
  obtain ⟨⟨l, σ⟩, hrun, hend⟩ := Option.map_eq_some_iff.mp heval
  rw [Prod.mk.injEq] at hend
  dsimp only at hend
  have hfits : ∀ c ∈ l, c.1.Fits samplePayment := by
    rw [hend.1]
    simp only [List.forall_mem_cons]
    exact ⟨by decide +kernel, by decide +kernel, fun c hc => absurd hc List.not_mem_nil⟩
  exact ⟨l, σ, hrun, hend.2,
    payment_decided_once sampleDb_pending hfits (Recorded.of_actions _ hrun)⟩

theorem payment_left_undecided :
    ¬ ∀ (db : Db) (id : Uuid) (row : FinancialTransaction) (l : List (Decision × Option Err))
      (σ : Sys schema Decision), PendingPayment db id row → (∀ c ∈ l, c.1.Fits row) →
      Recorded (Decision.program id) (Sys.init db) l σ → l ≠ [] →
      (l.filter fun c => c.2 = none).length = 1 := by
  intro hclaim
  have heval : (verifyAlone.foldlM (record (Decision.program 12)) ([], Sys.init fullDb)).map
      Prod.fst = some [(.verify 4, some (.outOfRange "accounts.balance"))] := by decide +kernel
  obtain ⟨⟨l, σ⟩, hrun, hend⟩ := Option.map_eq_some_iff.mp heval
  dsimp only at hend
  subst hend
  have hone := hclaim fullDb 12 samplePayment _ σ fullDb_pending
    (by
      simp only [List.forall_mem_cons]
      exact ⟨by decide +kernel, fun c hc => absurd hc List.not_mem_nil⟩)
    (Recorded.of_actions _ hrun) (by simp)
  exact absurd hone (by decide)

end Munavvar.PaymentDecision
