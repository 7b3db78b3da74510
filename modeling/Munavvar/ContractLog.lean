import Munavvar.ContractEffects
import Munavvar.FirstRead
import Munavvar.Journal

/-!
# The life cycle of a contract and its log

The manual operations lock the contract before they look at its status, write
the new one and log the step. The expiry job takes its candidates from a plain
read and logs every step as one from ACTIVE. While nobody changes the status
between that read and the update, the log of each contract is a chain that ends
in the current status, and a contract that has ended stays so.
-/

namespace Munavvar.ContractLog

open Munavvar.KeyedTable
open Munavvar.Transaction
open Munavvar.Transaction.Prog
open Munavvar.ReadCommitted
open Munavvar.FirstRead
open Munavvar.Journal
open Munavvar.Database
open Munavvar.Statements
open Munavvar.StockLedger
open Munavvar.OrderQueries
open Munavvar.OrderService
open Munavvar.ContractService
open Munavvar.Quota
open Munavvar.Operations (sampleDb)
open Munavvar.Footprints
open Munavvar.OrderEffects (scalarOneOrNone_quiet)
open Munavvar.ContractEffects (ensureNoOtherActive_quiet)

/-- The operations that make a contract or change its status. -/
inductive ContractOperation
  | createContract (env : Env) (clientId : Uuid) (dto : ContractCreate)
  | activateContract (env : Env) (contractId signedById : Uuid)
  | suspendContract (env : Env) (contractId : Uuid) (reason : String) (changedById : Option Uuid)
  | reinstateContract (contractId : Uuid) (changedById : Option Uuid)
  | terminateContract (env : Env) (contractId : Uuid) (reason : String) (changedById : Option Uuid)
  | runExpireJob (env : Env)

/-- The transaction of an operation. -/
def program : ContractOperation → Uow Unit
  | .createContract env clientId dto => createContract env clientId dto
  | .activateContract env contractId signedById => activateContract env contractId signedById
  | .suspendContract env contractId reason changedById =>
    suspendContract env contractId reason changedById
  | .reinstateContract contractId changedById => reinstateContract contractId changedById
  | .terminateContract env contractId reason changedById =>
    terminateContract env contractId reason changedById
  | .runExpireJob env => runExpireJob env

/-- The `UPDATE` of the expiry job finds the status that the job has read. -/
def statusAsRead : (k : Key) → Option Db × Stmt k → Option (Row k) → Bool
  | .contract id, (some v, .update data), old =>
    data.status ≠ .expired || old.map Contract.status = (v.contracts.find? id).map Contract.status
  | _, _, _ => true

/-- The log of a contract leads from DRAFT to its current status. -/
def LogAgrees (c : Contract) : Prop :=
  follow ContractStatusLog.fromStatus ContractStatusLog.toStatus (some .draft) c.statusLogs =
    some (some c.status)

/-- A contract that has ended. -/
def isEnded (c : Contract) : Bool := c.status = .terminated || c.status = .expired

/-- Every log agrees with its contract. -/
def LogsAgree (s : Db) : Prop := ∀ id c, s.contracts.find? id = some c → LogAgrees c

/-- A contract that has ended keeps its status. -/
def EndedKept (s s' : Db) : Prop :=
  ∀ id c, s.contracts.find? id = some c → isEnded c = true →
    ∃ c', s'.contracts.find? id = some c' ∧ c'.status = c.status

theorem EndedKept.refl (s : Db) : EndedKept s s := fun _ c hc _ => ⟨c, hc, rfl⟩

/-- What a commit leaves. -/
structure Kept (s s' : Db) : Prop where
  /-- The logs agree. -/
  logs : LogsAgree s'
  /-- Ended contracts have not moved. -/
  ended : EndedKept s s'

/-- Statements on other rows than contracts. -/
def NotContract : (k : Key) → Stmt k → Prop
  | .contract _, _ => False
  | _, _ => True

theorem contracts_of_frame {s s' : Db} (h : Frame (S := schema) NotContract s s') :
    s'.contracts = s.contracts := by
  refine h.proj_eq Db.contracts fun s₁ k st r hst => ?_
  cases k with
  | contract id => exact hst.elim
  | _ => rfl

/-- A part that writes no contract. -/
abbrev Apart {α : Type} (p : Uow α) : Prop := Within (S := schema) NotContract (fun _ => True) p

/-- The only exception that a `SELECT` of one row raises. -/
abbrev NotMultiple (e : Err) : Prop := e ≠ .multipleResultsFound

/-- A cancellation of open orders writes no contract and selects no single row. -/
theorem cancelInflightOrders_notContract (env : Env) (id : Uuid) (reason : String) :
    Within (S := schema) NotContract NotMultiple (cancelInflightOrders env id reason) :=
  cancelInflightOrders_within (fun _ _ _ => trivial) (fun _ _ => trivial) (fun _ _ => trivial)
    (fun _ _ => nofun) (fun _ => nofun) env reason

theorem cancelInflightOrders_apart (env : Env) (id : Uuid) (reason : String) :
    Apart (cancelInflightOrders env id reason) :=
  (cancelInflightOrders_notContract env id reason).mono (fun _ _ h => h) fun _ _ => trivial

section Steps

variable {R : Regime schema} {s : Db}

/-- A part that writes no contract leaves the contracts as they are. -/
theorem wp_apart (hlax : R.Lax) {α : Type} {p : Uow α} (hp : Apart p) {Q : α → Db → Prop}
    (hQ : ∀ a s', s'.contracts = s.contracts → Q a s') : wp R p Q (fun _ => True) s :=
  wp_frame hp (fun _ _ _ _ => hlax _ _ _) (fun _ _ => trivial) (fun _ _ _ _ _ _ => trivial)
    fun a s' hframe => hQ a s' (contracts_of_frame hframe)

theorem wp_updateContract (hlax : R.Lax) {id : Uuid} {data : ContractUpdate} {Q : Unit → Db → Prop}
    (hQ : ∀ c, s.contracts.find? id = some c → R.assumes (.contract id) (.update data) (some c) →
      Q () (s.put (.contract id) (some (c.set data)))) :
    wp R (updateContract id data) Q (fun _ => True) s := by
  rw [updateContract, wp_bind, wp_locked, wp_bind]
  refine wp_execute_of (hlax _ _ _) (fun hassumed r hr => ?_) fun _ _ => trivial
  rw [wp_raiseIf]
  refine ⟨fun _ => trivial, fun hsome => ?_⟩
  change ¬ (s.contracts.find? id).isNone = true at hsome
  change R.assumes (.contract id) (.update data) (s.contracts.find? id) at hassumed
  change (ContractStmt.update data).exec (s.contracts.find? id) = .ok r at hr
  cases hc : s.contracts.find? id with
  | none => simp [hc] at hsome
  | some c =>
    rw [hc] at hassumed hr
    obtain ⟨rfl, -⟩ := checked_ok hr
    exact hQ c hc hassumed

theorem wp_logContract (hlax : R.Lax) {id : Uuid} {c : Contract}
    (hc : s.contracts.find? id = some c) {entry : ContractStatusLog} {Q : Unit → Db → Prop}
    (hQ : Q () (s.put (.contract id) (some { c with statusLogs := c.statusLogs ++ [entry] }))) :
    wp R (issue (.contract id) (.log entry)) Q (fun _ => True) s := by
  refine wp_execute_of (hlax _ _ _) (fun _ r hr => ?_) fun _ _ => trivial
  change (ContractStmt.log entry).exec (s.contracts.find? id) = .ok r at hr
  rw [hc] at hr
  obtain ⟨rfl, -⟩ := checked_ok hr
  exact hQ

/-- A step of a contract's status with its log entry, after some work elsewhere. -/
theorem kept_of_step {s₀ s' : Db} (hs : Kept s₀ s) {id : Uuid} {c : Contract}
    (hc : s.contracts.find? id = some c) (hlive : isEnded c = false) (data : ContractUpdate)
    (entry : ContractStatusLog) (hfrom : entry.fromStatus = some c.status)
    (hto : entry.toStatus = data.status)
    (hs' : ∀ j, s'.contracts.find? j = if j = id then
      some { c.set data with statusLogs := c.statusLogs ++ [entry] } else s.contracts.find? j) :
    Kept s₀ s' := by
  have hold : LogAgrees c := hs.logs id c hc
  have hnew : LogAgrees { c.set data with statusLogs := c.statusLogs ++ [entry] } := by
    have hchain := follow_concat hold hfrom
    rw [hto] at hchain
    exact hchain
  constructor
  · intro j x hx
    rw [hs' j] at hx
    split at hx
    · cases hx
      exact hnew
    · exact hs.logs j x hx
  · intro j x hx hended
    obtain ⟨x', hx', hstatus⟩ := hs.ended j x hx hended
    refine ⟨x', ?_, hstatus⟩
    have hj : j ≠ id := by
      intro heq
      subst heq
      have hxc : x' = c := Option.some.inj (hx'.symm.trans hc)
      subst hxc
      have hsame : isEnded x' = isEnded x := by rw [isEnded, isEnded, hstatus]
      rw [hsame, hended] at hlive
      cases hlive
    rw [hs' j, if_neg hj]
    exact hx'

/-- The row of a contract is updated, work is done elsewhere and the step is logged. -/
theorem wp_transition (hlax : R.Lax) {s₀ : Db} (hs : Kept s₀ s) {id : Uuid} {c : Contract}
    (hc : s.contracts.find? id = some c) (hlive : isEnded c = false) {data : ContractUpdate}
    {entry : ContractStatusLog} (hfrom : entry.fromStatus = some c.status)
    (hto : entry.toStatus = data.status) {p : Uow Unit} (hp : Apart p) :
    wp R (do
      updateContract id data
      p
      issue (.contract id) (.log entry)) (fun _ s' => Kept s₀ s') (fun _ => True) s := by
  rw [wp_bind]
  refine wp_updateContract hlax fun c' hc' _ => ?_
  have hcc : c' = c := Option.some.inj (hc'.symm.trans hc)
  subst hcc
  rw [wp_bind]
  refine wp_apart hlax hp fun _ s₁ hcontracts => ?_
  have hrow : s₁.contracts.find? id = some (c'.set data) := by
    rw [hcontracts]
    exact Table.find?_put_self _ _ _
  refine wp_logContract hlax hrow (kept_of_step hs hc hlive data entry hfrom hto fun j => ?_)
  change (s₁.contracts.put id _).find? j = _
  rw [Table.find?_put]
  split
  · rfl
  · next hj =>
    rw [hcontracts]
    exact Table.find?_put_ne _ hj _

/-- The row a manual operation has locked. -/
theorem wp_getContractLocked {id : Uuid} {Q : Contract → Db → Prop}
    (hQ : ∀ c, s.contracts.find? id = some c → Q c s) :
    wp R (getContractLocked id) Q (fun _ => True) s := by
  rw [getContractLocked, wp_bind, wp_locked, wp_orRaise]
  refine ⟨fun _ => trivial, fun c hc => hQ c ?_⟩
  exact (Option.filter_eq_some_iff.mp hc).1

/-! ## Operations -/

/-- The manual operations after their checks. -/
theorem wp_manual (ht : Tame R fun _ => True) (hlax : R.Lax) (hs : LogsAgree s) {id : Uuid}
    {bad : Contract → Prop} [DecidablePred bad] {e : Contract → Err} (hbad : ∀ c, ¬ bad c → isEnded c = false)
    {f : Contract → Uow Unit}
    (hf : ∀ c, Within (S := schema) NoStmt (fun e => e.isQuotaLeak = false) (f c))
    {data : ContractUpdate} {p : Uow Unit} (hp : Apart p) {by_ : Option Uuid} {reason : Option String} :
    wp R (do
      let contract ← getContractLocked id
      raiseIf (bad contract) (e contract)
      f contract
      updateContract id data
      p
      issue (.contract id) (.log ⟨some contract.status, data.status, by_, reason⟩))
      (fun _ s' => Kept s s') (fun _ => True) s := by
  rw [wp_bind]
  refine wp_getContractLocked fun c hc => ?_
  rw [wp_bind, wp_raiseIf]
  refine ⟨fun _ => trivial, fun hgood => ?_⟩
  rw [wp_bind]
  refine wp_reads ht (hf c) fun _ => ?_
  exact wp_transition hlax ⟨hs, .refl s⟩ hc (hbad c hgood) rfl rfl hp

theorem not_ended_of_status {c : Contract} {status : ContractStatus} (h : ¬ c.status ≠ status)
    (hlive : status ≠ .terminated ∧ status ≠ .expired) : isEnded c = false := by
  rw [isEnded, not_not.mp h, Bool.or_eq_false_iff]
  exact ⟨decide_eq_false hlive.1, decide_eq_false hlive.2⟩

theorem createContract_kept (ht : Tame R fun _ => True) (hs : LogsAgree s) (env : Env)
    (clientId : Uuid) (dto : ContractCreate) :
    wp R (createContract env clientId dto) (fun _ s' => Kept s s') (fun _ => True) s := by
  rw [createContract, wp_bind]
  refine wp_reads ht (within_bind (within_ask _) fun _ => scalarOneOrNone_quiet _) fun existing => ?_
  rw [wp_bind, wp_whenSome]
  refine ⟨fun _ _ => trivial, fun _ => ?_⟩
  refine wp_issue ht (k := .contract (env.uuid 0 0)) (fun h => h) fun _ r hr => ?_
  change ContractStmt.exec _ (s.contracts.find? (env.uuid 0 0)) = .ok r at hr
  cases hold : s.contracts.find? (env.uuid 0 0) with
  | some c =>
    rw [hold] at hr
    cases hr
  | none =>
    rw [hold] at hr
    obtain ⟨rfl, -⟩ := checked_ok hr
    constructor
    · intro id c hc
      change (s.contracts.put (env.uuid 0 0) _).find? id = some c at hc
      rw [Table.find?_put] at hc
      split at hc
      · cases hc
        exact follow_nil _
      · exact hs id c hc
    · intro id c hc _
      have hne : id ≠ env.uuid 0 0 := by
        intro heq
        rw [heq, hold] at hc
        cases hc
      exact ⟨c, (Table.find?_put_ne _ hne _).trans hc, rfl⟩

theorem activateContract_kept (ht : Tame R fun _ => True) (hlax : R.Lax) (hs : LogsAgree s)
    (env : Env) (id u : Uuid) :
    wp R (activateContract env id u) (fun _ s' => Kept s s') (fun _ => True) s :=
  wp_manual ht hlax hs (fun _ hc => not_ended_of_status hc (by decide))
    (fun c => ensureNoOtherActive_quiet id c) (p := ret ()) (within_ret _)

theorem reinstateContract_kept (ht : Tame R fun _ => True) (hlax : R.Lax) (hs : LogsAgree s)
    (id : Uuid) (u : Option Uuid) :
    wp R (reinstateContract id u) (fun _ s' => Kept s s') (fun _ => True) s :=
  wp_manual ht hlax hs (fun _ hc => not_ended_of_status hc (by decide))
    (fun c => ensureNoOtherActive_quiet id c) (p := ret ()) (within_ret _)

theorem suspendContract_kept (ht : Tame R fun _ => True) (hlax : R.Lax) (hs : LogsAgree s)
    (env : Env) (id : Uuid) (reason : String) (u : Option Uuid) :
    wp R (suspendContract env id reason u) (fun _ s' => Kept s s') (fun _ => True) s :=
  wp_manual ht hlax hs (fun _ hc => not_ended_of_status hc (by decide))
    (f := fun _ => ret ()) (fun _ => within_ret _) (cancelInflightOrders_apart env id _)

theorem terminateContract_kept (ht : Tame R fun _ => True) (hlax : R.Lax) (hs : LogsAgree s)
    (env : Env) (id : Uuid) (reason : String) (u : Option Uuid) :
    wp R (terminateContract env id reason u) (fun _ s' => Kept s s') (fun _ => True) s := by
  refine wp_manual ht hlax hs (fun c hc => ?_) (f := fun _ => ret ()) (fun _ => within_ret _)
    (cancelInflightOrders_apart env id _)
  rw [Classical.not_and_iff_not_or_not] at hc
  rcases hc with hc | hc
  · exact not_ended_of_status hc (by decide)
  · exact not_ended_of_status hc (by decide)

/-- The expiry job logs a step from ACTIVE, which is what it has read. -/
theorem runExpireJob_kept (hs : LogsAgree s) (env : Env) :
    wp (Regime.concurrentAssuming (S := recalling schema) fun k st old => statusAsRead k st old = true)
      (remember none (runExpireJob env)) (fun _ s' => Kept s s') (fun _ => True) s := by
  refine wp_remember_ask fun v _ => ?_
  have hlax := Regime.concurrentAssuming_lax (S := schema)
    fun k st old => statusAsRead k (some v, st) old = true
  refine wp_loop (fun _ s' => Kept s s') ⟨hs, .refl s⟩ ?_ fun _ h => h
  intro done id todo s₁ hdone hkept
  have hread : ∃ c, v.contracts.find? id = some c ∧ c.status = .active := by
    have hmem : id ∈ (v.contracts.rows.filter fun r => r.2.status = .active && r.2.isActive &&
        r.2.endDate.any fun d => d < dateOf env.now).map Prod.fst :=
      hdone ▸ List.mem_append_right _ List.mem_cons_self
    obtain ⟨x, hx, rfl⟩ := List.mem_map.mp hmem
    obtain ⟨hx, hmatch⟩ := List.mem_filter.mp hx
    rw [Bool.and_eq_true, Bool.and_eq_true] at hmatch
    exact ⟨x.2, (Table.mem_rows_iff _ _ _).mp hx, of_decide_eq_true hmatch.1.1⟩
  obtain ⟨read, hread, hactive⟩ := hread
  rw [wp_bind]
  refine wp_apart hlax (cancelInflightOrders_apart env id _) fun _ s₂ hcontracts => ?_
  have hkept₂ : Kept s s₂ := by
    constructor
    · intro j x hx
      rw [hcontracts] at hx
      exact hkept.logs j x hx
    · intro j x hx hended
      rw [hcontracts]
      exact hkept.ended j x hx hended
  rw [wp_bind]
  refine wp_updateContract hlax fun c hc hassumed => ?_
  have hstatus : c.status = .active := by
    have hsame : some c.status = (v.contracts.find? id).map Contract.status := by
      have hread : (decide (ContractStatus.expired ≠ .expired) ||
          decide ((some c).map Contract.status = (v.contracts.find? id).map Contract.status)) = true :=
        hassumed
      rcases (Bool.or_eq_true _ _).mp hread with h | h
      · exact absurd rfl (of_decide_eq_true h)
      · exact of_decide_eq_true h
    rw [hread] at hsame
    exact (Option.some.inj hsame).trans hactive
  have hlive : isEnded c = false := by
    rw [isEnded, hstatus]
    rfl
  refine wp_logContract hlax (Table.find?_put_self _ _ _) ?_
  refine kept_of_step hkept₂ hc hlive { status := .expired }
    ⟨some .active, .expired, none, some "Истёк срок действия договора"⟩
    (congrArg some hstatus.symm) rfl fun j => ?_
  have hput : ∀ r r' : Option Contract, ((s₂.put (.contract id) r).put (.contract id) r').contracts.find? j =
      if j = id then r' else s₂.contracts.find? j := by
    intro r r'
    change ((s₂.contracts.put id r).put id r').find? j = _
    rw [Table.find?_put]
    split
    · rfl
    · next hj => exact Table.find?_put_ne _ hj _
  exact hput _ _

/-- Every operation keeps the logs and the contracts that have ended. -/
theorem program_kept (hs : LogsAgree s) (op : ContractOperation) :
    wp (Regime.concurrentAssuming (S := recalling schema) fun k st old => statusAsRead k st old = true)
      (recalled program op) (fun _ s' => Kept s s') (fun _ => True) s := by
  have ht : Tame Regime.concurrent fun _ => True := Tame.concurrentAssuming _
  have hlax : Regime.Lax (S := schema) Regime.concurrent := Regime.concurrentAssuming_lax _
  cases op with
  | createContract env clientId dto => exact wp_remember _ _ (createContract_kept ht hs env clientId dto)
  | activateContract env id u => exact wp_remember _ _ (activateContract_kept ht hlax hs env id u)
  | suspendContract env id reason u =>
    exact wp_remember _ _ (suspendContract_kept ht hlax hs env id reason u)
  | reinstateContract id u => exact wp_remember _ _ (reinstateContract_kept ht hlax hs id u)
  | terminateContract env id reason u =>
    exact wp_remember _ _ (terminateContract_kept ht hlax hs env id reason u)
  | runExpireJob env => exact runExpireJob_kept hs env

end Steps

/-! ## Runs -/

/-- The database before its first contract. -/
def noContracts (s : Db) : Db := { s with contracts := .empty }

theorem noContracts_logsAgree (s : Db) : LogsAgree (noContracts s) :=
  fun _ _ hc => absurd hc (by simp [noContracts])

/-- In every interleaving in which the `UPDATE` of the expiry job finds the status that the
job has read, the logs agree with the contracts and no commit moves a contract that has ended. -/
theorem contract_logs_agree (s : Db) {σ : Sys (recalling schema) ContractOperation}
    (h : Reach (recalled program) (fun k st old => statusAsRead k st old = true)
      (Sys.init (noContracts s)) σ) :
    LogsAgree σ.db ∧
      ∀ (a : ReadCommitted.Action ContractOperation) (σ' : Sys (recalling schema) ContractOperation),
        σ.StatementOk (fun k st old => statusAsRead k st old = true) a →
        σ.exec (recalled program) a = some σ' → EndedKept σ.db σ'.db :=
  h.committed (I := LogsAgree) (T := EndedKept) EndedKept.refl
    (fun op _ hs => wp_mono _ (program_kept hs op) (fun _ _ hkept => ⟨hkept.logs, hkept.ended⟩)
      fun _ he => he)
    (Sys.init_explained (S := recalling schema) _) (noContracts_logsAgree s)

/-! ## Two schedules -/

/-- A contract for the first day, made and activated on that day. -/
def madeActions : List (ReadCommitted.Action ContractOperation) :=
  [.start 0 (.createContract ⟨0, fun _ _ => 31⟩ 7 ⟨"A", 0, some 1, 10, by decide, by decide⟩),
    .step 0, .step 0, .commit 0,
    .start 1 (.activateContract ⟨0, fun _ _ => 0⟩ 31 9), .step 1, .step 1, .step 1, .step 1, .step 1,
    .commit 1]

/-- The expiry job on the tenth day, up to its first `SELECT`. -/
def expiryRead : List (ReadCommitted.Action ContractOperation) :=
  [.start 2 (.runExpireJob ⟨10 * dayLength, fun _ _ => 0⟩), .step 2]

/-- The rest of the job. -/
def expiryWrite : List (ReadCommitted.Action ContractOperation) :=
  [.step 2, .step 2, .step 2, .step 2, .commit 2]

/-- The steps of the log with the current status. -/
def sampleLog (s : Db) : Option (List (Option ContractStatus × ContractStatus) × ContractStatus) :=
  (s.contracts.find? 31).map fun c =>
    (c.statusLogs.map fun e => (e.fromStatus, e.toStatus), c.status)

theorem contract_logs_agree_sample :
    ∃ σ, (madeActions ++ expiryRead ++ expiryWrite).foldlM
        (Sys.execIf (recalled program) statusAsRead) (Sys.init (noContracts sampleDb)) = some σ ∧
      sampleLog σ.db =
        some ([(some .draft, .active), (some .active, .expired)], .expired) ∧ LogsAgree σ.db := by
  have heval : ((madeActions ++ expiryRead ++ expiryWrite).foldlM
      (Sys.execIf (recalled program) statusAsRead) (Sys.init (noContracts sampleDb))).map
        (fun σ => sampleLog σ.db) =
      some (some ([(some .draft, .active), (some .active, .expired)], .expired)) := by
    decide +kernel
  cases hrun : (madeActions ++ expiryRead ++ expiryWrite).foldlM
      (Sys.execIf (recalled program) statusAsRead) (Sys.init (noContracts sampleDb)) with
  | none => exact absurd (hrun ▸ heval) (by simp)
  | some σ =>
    rw [hrun, Option.map_some, Option.some.injEq] at heval
    exact ⟨σ, rfl, heval, (contract_logs_agree sampleDb (Reach.of_checked _ hrun)).1⟩

/-- The contract is terminated between the two. -/
def overtakenActions : List (ReadCommitted.Action ContractOperation) :=
  madeActions ++ expiryRead ++
  [.start 3 (.terminateContract ⟨10 * dayLength, fun _ _ => 0⟩ 31 "over" (some 9)), .step 3, .step 3,
    .step 3, .step 3, .step 3, .commit 3] ++ expiryWrite

theorem terminated_contract_expires :
    ¬ ∀ (s : Db) (σ : Sys schema ContractOperation),
      Reach program (fun _ _ _ => True) (Sys.init (noContracts s)) σ →
      LogsAgree σ.db ∧ ∀ (a : ReadCommitted.Action ContractOperation) (σ' : Sys schema ContractOperation),
        σ.exec program a = some σ' → EndedKept σ.db σ'.db := by
  intro hclaim
  have heval : (overtakenActions.foldlM (Sys.exec program) (Sys.init (noContracts sampleDb))).map
      (fun σ => (σ.db.contracts.find? 31).map fun c =>
        (c.status, follow ContractStatusLog.fromStatus ContractStatusLog.toStatus (some .draft)
          c.statusLogs)) = some (some (.expired, none)) := by
    decide +kernel
  cases hrun : overtakenActions.foldlM (Sys.exec program) (Sys.init (noContracts sampleDb)) with
  | none => exact absurd (hrun ▸ heval) (by simp)
  | some σ =>
    rw [hrun, Option.map_some, Option.some.injEq] at heval
    obtain ⟨c, hc, hbroken⟩ := Option.map_eq_some_iff.mp heval
    have hagrees : LogAgrees c := (hclaim sampleDb σ (Reach.of_actions _ hrun)).1 31 c hc
    rw [LogAgrees, (Prod.mk.inj hbroken).2] at hagrees
    cases hagrees

end Munavvar.ContractLog
