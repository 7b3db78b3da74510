import Munavvar.OrderChanges
import Munavvar.FirstRead

/-!
# The life cycle of an invoice

Issuing, paying, cancelling and the overdue job read an invoice without a lock
and then update its row whatever it has become. While no other transaction
changes the status between the two, the committed statuses follow the declared
edges; otherwise a paid invoice can be cancelled.
-/

namespace Munavvar.InvoiceLifecycle

open Munavvar.KeyedTable
open Munavvar.Transaction
open Munavvar.Transaction.Prog
open Munavvar.ReadCommitted
open Munavvar.FirstRead
open Munavvar.Database
open Munavvar.StockLedger
open Munavvar.OrderService
open Munavvar.ContractService
open Munavvar.OrderChanges
open Munavvar.Operations (sampleDb)

/-- The operations that change the status of an invoice. -/
inductive InvoiceOperation
  | issueInvoice (env : Env) (contractId invoiceId : Uuid)
  | markInvoicePaid (env : Env) (contractId invoiceId : Uuid)
  | cancelInvoice (contractId invoiceId : Uuid)
  | runOverdueJob (env : Env)

/-- The transaction of an operation. -/
def program : InvoiceOperation → Uow Unit
  | .issueInvoice env contractId invoiceId => issueInvoice env contractId invoiceId
  | .markInvoicePaid env contractId invoiceId => markInvoicePaid env contractId invoiceId
  | .cancelInvoice contractId invoiceId => cancelInvoice contractId invoiceId
  | .runOverdueJob env => runOverdueJob env

/-- An `UPDATE` of an invoice finds the status that its transaction has read. -/
def statusAsRead : (k : Key) → Option Db × Stmt k → Option (Row k) → Bool
  | .invoice id, (some v, .update _), old =>
    old.map Invoice.status = (v.invoices.find? id).map Invoice.status
  | _, _, _ => true

/-- What one commit may do to the statuses of the invoices. -/
structure LifecycleKept (s s' : Db) : Prop where
  /-- A status stays or moves along an edge. -/
  edge : ∀ id i, s.invoices.find? id = some i →
    ∃ i', s'.invoices.find? id = some i' ∧
      (i'.status = i.status ∨ invoiceEdge i.status i'.status = true)
  /-- No invoice leaves PAID or CANCELLED. -/
  final : ∀ id i, s.invoices.find? id = some i → i.status = .paid ∨ i.status = .cancelled →
    ∃ i', s'.invoices.find? id = some i' ∧ i'.status = i.status

/-- No edge leaves PAID or CANCELLED. -/
theorem lifecycleKept_of_edge {s s' : Db}
    (h : ∀ id i, s.invoices.find? id = some i →
      ∃ i', s'.invoices.find? id = some i' ∧
        (i'.status = i.status ∨ invoiceEdge i.status i'.status = true)) : LifecycleKept s s' where
  edge := h
  final := by
    intro id i hi hfinal
    obtain ⟨i', hi', hedge⟩ := h id i hi
    have hstays : i'.status = i.status := by
      rcases hedge with hsame | hedge
      · exact hsame
      · rcases hfinal with hfinal | hfinal
        · rw [hfinal] at hedge
          cases hedge
        · rw [hfinal] at hedge
          cases hedge
    exact ⟨i', hi', hstays⟩

theorem LifecycleKept.refl (s : Db) : LifecycleKept s s :=
  lifecycleKept_of_edge fun _ i hi => ⟨i, hi, .inl rfl⟩

section Steps

variable {B : (k : Key) → Stmt k → Option (Row k) → Prop} {s : Db}

/-- One `UPDATE` with its check that the row was there. -/
theorem wp_updateInvoice {id : Uuid} {data : InvoiceUpdate} {e : Err} {Q : Unit → Db → Prop}
    (hQ : ∀ i, s.invoices.find? id = some i → B (.invoice id) (.update data) (some i) →
      Q () (s.put (.invoice id) (some (i.set data)))) :
    wp (Regime.concurrentAssuming (S := schema) B) (do
      let row ← forUpdate (.invoice id)
      issue (.invoice id) (.update data)
      raiseIf (row.isNone = true) e) Q (fun _ => True) s := by
  rw [wp_bind, wp_locked, wp_bind]
  refine wp_execute_of trivial (fun hassumed r hr => ?_) fun _ _ => trivial
  rw [wp_raiseIf]
  refine ⟨fun _ => trivial, fun hsome => ?_⟩
  change ¬ (s.invoices.find? id).isNone = true at hsome
  change B (.invoice id) (.update data) (s.invoices.find? id) at hassumed
  change (InvoiceStmt.update data).exec (s.invoices.find? id) = .ok r at hr
  cases hi : s.invoices.find? id with
  | none => simp [hi] at hsome
  | some i =>
    rw [hi] at hassumed hr
    cases hr
    exact hQ i hi hassumed

/-- A request changes the status along an edge that it has checked. -/
theorem changeInvoice_kept {c id : Uuid} {expected : List InvoiceStatus} {data : InvoiceUpdate}
    (hedge : ∀ status ∈ expected, invoiceEdge status data.status = true) :
    wp (Regime.concurrentAssuming (S := recalling schema) fun k st old => statusAsRead k st old = true)
      (remember none (changeInvoice c id expected data)) (fun _ s' => LifecycleKept s s')
      (fun _ => True) s := by
  refine wp_remember_ask fun v _ => ?_
  rw [wp_bind, wp_orRaise]
  refine ⟨fun _ => trivial, fun invoice hinvoice => ?_⟩
  obtain ⟨hactive, -⟩ := Option.filter_eq_some_iff.mp hinvoice
  obtain ⟨hread, -⟩ := Option.filter_eq_some_iff.mp hactive
  rw [wp_bind, wp_raiseIf]
  refine ⟨fun _ => trivial, fun hexpected => ?_⟩
  refine wp_updateInvoice fun i hi hassumed => lifecycleKept_of_edge fun j x hx => ?_
  have hsame : some i.status = (v.invoices.find? id).map Invoice.status := of_decide_eq_true hassumed
  rw [hread] at hsame
  have hstatus : i.status = invoice.status := Option.some.inj hsame
  have hmoves : invoiceEdge i.status data.status = true := by
    rw [hstatus]
    exact hedge _ (not_not.mp hexpected)
  by_cases hj : j = id
  · subst hj
    have hxi : x = i := Option.some.inj (hx.symm.trans hi)
    subst hxi
    exact ⟨x.set data, Table.find?_put_self _ _ _, .inr hmoves⟩
  · exact ⟨x, (Table.find?_put_ne _ hj _).trans hx, .inl rfl⟩

/-- The overdue job moves each of its candidates once. -/
theorem runOverdueJob_kept (env : Env) :
    wp (Regime.concurrentAssuming (S := recalling schema) fun k st old => statusAsRead k st old = true)
      (remember none (runOverdueJob env)) (fun _ s' => LifecycleKept s s') (fun _ => True) s := by
  refine wp_remember_ask fun v _ => ?_
  let isOverdue (i : Invoice) : Bool :=
    i.status = .issued && i.isActive && i.dueDate.any fun d => d < dateOf env.now
  have hnodup : ((v.invoices.rows.filter fun x => isOverdue x.2).map Prod.fst).Nodup :=
    (List.filter_sublist.map Prod.fst).nodup v.invoices.nodup
  refine wp_loop (fun done (s' : Db) => LifecycleKept s s' ∧
      ∀ id, id ∉ done → s'.invoices.find? id = s.invoices.find? id)
    ⟨.refl s, fun _ _ => rfl⟩ ?_ fun _ h => h.1
  intro done id todo s₁ hdone h
  obtain ⟨hkept, hstays⟩ := h
  have hid : id ∉ done := by
    rw [← hdone, List.nodup_middle, List.nodup_cons] at hnodup
    exact fun h => hnodup.1 (List.mem_append_left _ h)
  refine wp_updateInvoice fun i hi hassumed => ?_
  have hissued : i.status = .issued := by
    have hmem : id ∈ (v.invoices.rows.filter fun x => isOverdue x.2).map Prod.fst :=
      hdone ▸ List.mem_append_right _ List.mem_cons_self
    obtain ⟨x, hx, rfl⟩ := List.mem_map.mp hmem
    obtain ⟨hx, hoverdue⟩ := List.mem_filter.mp hx
    rw [Bool.and_eq_true, Bool.and_eq_true] at hoverdue
    have hread : v.invoices.find? x.1 = some x.2 := (Table.mem_rows_iff _ _ _).mp hx
    have hsame : some i.status = (v.invoices.find? x.1).map Invoice.status :=
      of_decide_eq_true hassumed
    rw [hread] at hsame
    exact (Option.some.inj hsame).trans (of_decide_eq_true hoverdue.1.1)
  constructor
  · refine lifecycleKept_of_edge fun j x hx => ?_
    by_cases hj : j = id
    · subst hj
      have hxi : x = i := Option.some.inj (hx.symm.trans ((hstays j hid).symm.trans hi))
      subst hxi
      refine ⟨x.set { status := .overdue }, Table.find?_put_self _ _ _, .inr ?_⟩
      rw [hissued]
      rfl
    · obtain ⟨x', hx', hedge⟩ := hkept.edge j x hx
      exact ⟨x', (Table.find?_put_ne _ hj _).trans hx', hedge⟩
  · intro j hj
    rw [List.mem_append, not_or, List.mem_singleton] at hj
    exact (Table.find?_put_ne _ hj.2 _).trans (hstays j hj.1)

/-- Every operation moves the statuses along the edges. -/
theorem program_kept (op : InvoiceOperation) :
    wp (Regime.concurrentAssuming (S := recalling schema) fun k st old => statusAsRead k st old = true)
      (recalled program op) (fun _ s' => LifecycleKept s s') (fun _ => True) s := by
  cases op with
  | issueInvoice env c id => exact changeInvoice_kept (by simp [invoiceEdge])
  | markInvoicePaid env c id => exact changeInvoice_kept (by simp [invoiceEdge])
  | cancelInvoice c id => exact changeInvoice_kept (by simp [invoiceEdge])
  | runOverdueJob env => exact runOverdueJob_kept env

end Steps

/-- In every interleaving in which an `UPDATE` of an invoice finds the status that its
transaction has read, committed statuses move along the edges and never leave a final one. -/
theorem invoices_follow_lifecycle (s : Db) {σ : Sys (recalling schema) InvoiceOperation}
    (h : Reach (recalled program) (fun k st old => statusAsRead k st old = true) (Sys.init s) σ)
    {a : ReadCommitted.Action InvoiceOperation} {σ' : Sys (recalling schema) InvoiceOperation}
    (hok : σ.StatementOk (fun k st old => statusAsRead k st old = true) a)
    (hexec : σ.exec (recalled program) a = some σ') : LifecycleKept σ.db σ'.db := by
  have hcommitted := h.committed (I := fun _ => True) (T := LifecycleKept) LifecycleKept.refl
    (fun op s _ => wp_mono _ (program_kept op) (fun _ _ hkept => ⟨trivial, hkept⟩) fun _ he => he)
    (Sys.init_explained (S := recalling schema) s) trivial
  exact hcommitted.2 a σ' hok hexec

/-! ## Two schedules -/

/-- An issued invoice. -/
def issuedDb : Db :=
  { sampleDb with
    invoices := ⟨[(51, ⟨31, "A/1970-01-001", .issued, 0, 30, 500, some 40, some 1, none, true⟩)],
      by decide⟩ }

/-- The status of that invoice. -/
def sampleStatus (s : Db) : Option InvoiceStatus := (s.invoices.find? 51).map Invoice.status

/-- A payment on the tenth day. -/
def payment : InvoiceOperation := .markInvoicePaid ⟨10 * dayLength, fun _ _ => 0⟩ 31 51

/-- The payment up to its commit. -/
def payingActions : List (ReadCommitted.Action InvoiceOperation) :=
  [.start 0 payment, .step 0, .step 0, .step 0]

theorem invoices_follow_lifecycle_sample :
    ∃ σ σ', payingActions.foldlM (Sys.execIf (recalled program) statusAsRead)
        (Sys.init issuedDb) = some σ ∧
      σ.exec (recalled program) (.commit 0) = some σ' ∧
      (sampleStatus σ.db, sampleStatus σ'.db) = (some .issued, some .paid) ∧
      LifecycleKept σ.db σ'.db := by
  have heval : (payingActions.foldlM (Sys.execIf (recalled program) statusAsRead)
      (Sys.init issuedDb)).map (fun σ => ((σ.exec (recalled program) (.commit 0)).map fun σ' =>
        (sampleStatus σ.db, sampleStatus σ'.db))) = some (some (some .issued, some .paid)) := by
    decide +kernel
  cases hrun : payingActions.foldlM (Sys.execIf (recalled program) statusAsRead)
      (Sys.init issuedDb) with
  | none => exact absurd (hrun ▸ heval) (by simp)
  | some σ =>
    rw [hrun, Option.map_some, Option.some.injEq] at heval
    obtain ⟨σ', hexec, hstatus⟩ := Option.map_eq_some_iff.mp heval
    exact ⟨σ, σ', rfl, hexec, hstatus,
      invoices_follow_lifecycle (a := .commit 0) issuedDb (Reach.of_checked _ hrun) trivial hexec⟩

/-- The payment commits between the `SELECT` of a cancellation and its `UPDATE`. -/
def overtakenActions : List (ReadCommitted.Action InvoiceOperation) :=
  [.start 1 (.cancelInvoice 31 51), .step 1] ++ payingActions ++ [.commit 0, .step 1, .step 1]

theorem paid_invoice_cancelled :
    ¬ ∀ (s : Db) (σ σ' : Sys schema InvoiceOperation) (a : ReadCommitted.Action InvoiceOperation),
      Reach program (fun _ _ _ => True) (Sys.init s) σ → σ.exec program a = some σ' →
      LifecycleKept σ.db σ'.db := by
  intro hclaim
  have heval : (overtakenActions.foldlM (Sys.exec program) (Sys.init issuedDb)).map
      (fun σ => ((σ.exec program (.commit 1)).map fun σ' =>
        (sampleStatus σ.db, sampleStatus σ'.db))) = some (some (some .paid, some .cancelled)) := by
    decide +kernel
  cases hrun : overtakenActions.foldlM (Sys.exec program) (Sys.init issuedDb) with
  | none => exact absurd (hrun ▸ heval) (by simp)
  | some σ =>
    rw [hrun, Option.map_some, Option.some.injEq] at heval
    obtain ⟨σ', hexec, hstatus⟩ := Option.map_eq_some_iff.mp heval
    have hkept := hclaim issuedDb σ σ' (.commit 1) (Reach.of_actions _ hrun) hexec
    obtain ⟨hpaid, hcancelled⟩ := Prod.mk.inj hstatus
    obtain ⟨i, hi, hstatus⟩ := Option.map_eq_some_iff.mp hpaid
    obtain ⟨i', hi', hstays⟩ := hkept.final 51 i hi (.inl hstatus)
    rw [sampleStatus, hi', Option.map_some, hstays, hstatus] at hcancelled
    exact absurd hcancelled (by decide)

end Munavvar.InvoiceLifecycle
