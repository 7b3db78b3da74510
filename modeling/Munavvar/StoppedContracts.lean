import Munavvar.ContractPayment
import Munavvar.ContractStop
import Munavvar.OperationLocks
import Munavvar.QuotaLimit

/-!
# Stopped contracts have no open orders

The bulk cancellation skips the orders that others have locked, and the expiry
job cancels before it locks the contract. In runs in which no open order is
skipped and nothing is ordered under a contract that the job may be expiring, a
contract that is stopped has no open orders, and their quota is released with
the commit that stops it. An order that is assigned to a courier during a
termination stays open.
-/

namespace Munavvar.StoppedContracts

open Munavvar.KeyedTable
open Munavvar.Transaction
open Munavvar.ReadCommitted
open Munavvar.Database
open Munavvar.Statements
open Munavvar.StockLedger
open Munavvar.Quota
open Munavvar.Operations
open Munavvar.OrderChanges
open Munavvar.OrderEffects
open Munavvar.ContractEffects
open Munavvar.ContractPayment (NewOnTerms program_newOnTerms newWithout_of_changes)
open Munavvar.Discipline
open Munavvar.Interference
open Munavvar.ContractLocks
open Munavvar.OperationLocks
open Munavvar.ContractStop
open Munavvar.QuotaLimit (alone coffee)

/-! ## Rows after a commit -/

/-- Suspended, terminated or expired. -/
def isStopped (x : Contract) : Bool :=
  x.status = .suspended || x.status = .terminated || x.status = .expired

/-- A stored contract is stopped. -/
def Stopped (c : Uuid) (s : Db) : Prop :=
  ∃ x, s.contracts.find? c = some x ∧ isStopped x = true

/-- An order stays under its contract, or it is made under the contract's lock. -/
def OrderMade (held : Key → Prop) : Option Order → Option Order → Prop
  | some o, new => ∃ o', new = some o' ∧ o'.contractId = o.contractId ∧ o'.isActive = o.isActive
  | none, new => ∀ o', new = some o' →
    o'.isActive = true ∧ ∀ c, o'.contractId = some c → held (.contract c)

/-- A contract keeps its last day and is stopped only by those who may. -/
def ContractMade (X : Licence) : Option Contract → Option Contract → Prop
  | some x, new => ∃ x', new = some x' ∧ x'.endDate = x.endDate ∧
    (isStopped x' = true → X.stops ∨ isStopped x = true)
  | none, new => ∀ x', new = some x' → isStopped x' = true → X.stops

/-- How a transaction that holds some locks may leave a row. -/
def Made (X : Licence) (held : Key → Prop) : (k : Key) → Option (Row k) → Option (Row k) → Prop
  | .order _, old, new => OrderMade held old new
  | .contract _, old, new => ContractMade X old new
  | _, _, _ => True

section Rows

variable {X : Licence} {H held : Key → Prop}

theorem Made.refl (k : Key) (row : Option (Row k)) : Made X held k row row := by
  cases k with
  | order id =>
    cases row with
    | none => exact fun _ h => absurd h (by simp)
    | some o => exact ⟨o, rfl, rfl, rfl⟩
  | contract id =>
    cases row with
    | none => exact fun _ h => absurd h (by simp)
    | some x => exact ⟨x, rfl, rfl, .inr⟩
  | _ => exact trivial

/-- A statement under some locks leaves an order as it may be left. -/
theorem OrderMade.step {st : OrderStmt} {id : Uuid} {old mid row : Option Order}
    (hheld : ∀ j, H j → held j) (hfit : Fitting X H (.order id) st) (hmade : OrderMade held old mid)
    (h : st.exec mid = .ok row) : OrderMade held old row := by
  rcases order_exec h with ⟨o, o', rfl, rfl, hcontract, hactive⟩ | ⟨rfl, rfl | ⟨o, rfl, rfl⟩⟩
  · cases old with
    | none =>
      intro _ heq
      cases heq
      have hmid := hmade o rfl
      rw [hcontract, hactive]
      exact hmid
    | some o₀ =>
      obtain ⟨_, heq, hcontract₀, hactive₀⟩ := hmade
      cases heq
      exact ⟨o', rfl, hcontract.trans hcontract₀, hactive.trans hactive₀⟩
  · exact hmade
  · cases old with
    | none =>
      intro _ heq
      cases heq
      exact ⟨hfit.1, fun c hc => hheld _ (hfit.2 c hc)⟩
    | some o₀ =>
      obtain ⟨o', hnone, -⟩ := hmade
      cases hnone

/-- A statement that fits leaves a contract as it may be left. -/
theorem ContractMade.step {st : ContractStmt} {id : Uuid} {old mid row : Option Contract}
    (hfit : Fitting X H (.contract id) st) (hmade : ContractMade X old mid)
    (h : st.exec mid = .ok row) : ContractMade X old row := by
  have hstep : ContractMade X mid row := by
    cases mid with
    | none =>
      cases st with
      | insert x =>
        obtain ⟨rfl, -⟩ := checked_ok h
        have hdraft : x.status = .draft := hfit
        intro _ heq hstopped
        cases heq
        simp [isStopped, hdraft] at hstopped
      | update data =>
        cases h
        exact fun _ heq => absurd heq (by simp)
      | log entry => cases h
    | some x =>
      cases st with
      | insert _ => cases h
      | update data =>
        obtain ⟨rfl, -⟩ := checked_ok h
        refine ⟨_, rfl, rfl, fun hstopped => .inl ?_⟩
        refine hfit.resolve_right fun hactive => ?_
        simp [isStopped, Contract.set, hactive] at hstopped
      | log entry =>
        obtain ⟨rfl, -⟩ := checked_ok h
        exact ⟨_, rfl, rfl, .inr⟩
  cases old with
  | none =>
    cases mid with
    | none => exact hstep
    | some x =>
      obtain ⟨x', rfl, -, hstops⟩ := hstep
      intro _ heq hstopped
      cases heq
      rcases hstops hstopped with hstops | hmid
      · exact hstops
      · exact hmade x rfl hmid
  | some x₀ =>
    obtain ⟨x, rfl, hend, hstops⟩ := hmade
    obtain ⟨x', rfl, hend', hstops'⟩ := hstep
    refine ⟨x', rfl, hend'.trans hend, fun hstopped => ?_⟩
    exact (hstops' hstopped).elim .inl hstops

/-- Statements that fit leave every row as it may be left. -/
theorem Made.step {k : Key} {st : Stmt k} {old mid row : Option (Row k)}
    (hheld : ∀ j, H j → held j) (hfit : Fitting X H k st) (hmade : Made X held k old mid)
    (h : schema.exec k st mid = .ok row) : Made X held k old row := by
  cases k with
  | order id => exact OrderMade.step hheld hfit hmade h
  | contract id => exact ContractMade.step hfit hmade h
  | _ => exact trivial

end Rows

/-! ## Commits -/

/-- New or assigned. -/
def isOpen (status : OrderStatus) : Bool := status = .new || status = .assigned

/-- What a commit does to the committed state of a system. -/
structure Commits (σ : Sys schema Request) (t : Tid) (r : Request) (s' : Db) : Prop where
  /-- The request makes its changes. -/
  changes : Changes Regime.concurrent r σ.db s'
  /-- Orders by contract are placed on the terms of the contract. -/
  terms : NewOnTerms σ.db s'
  /-- Rows are left as the locks admit. -/
  made : ∀ k, Made (licence r.op) (fun j => σ.holder j = some t) k (schema.get σ.db k)
    (schema.get s' k)
  /-- Rows that others have locked stay. -/
  others : ∀ u k, u ≠ t → σ.holder k = some u → schema.get s' k = schema.get σ.db k

/-- A commit in a run publishes the writes of its transaction, and these are in order. -/
theorem commits_of_exec {db : Db} {σ σ' : Sys schema Request}
    (hreach : Reach program (fun _ _ _ => True) (Sys.init db) σ) (hok : OrdersOk σ.db) {t : Tid}
    (hexec : σ.exec program (.commit t) = some σ') :
    ∃ x u, σ.txns t = some x ∧ x.prog = .ret u ∧ σ'.db = view σ.db x.writes ∧
      Commits σ t x.op σ'.db := by
  obtain ⟨x, u, hx, hret, rfl⟩ := Sys.commit_cases hexec
  have hexplained := hreach.explained (Sys.init_explained (S := schema) db) t x hx
  obtain ⟨hchanges, hterms⟩ := hreach.commit (Sys.init_explained (S := schema) db) hx
    (program_newOnTerms hok x.op) hexec
  refine ⟨x, u, hx, hret, rfl, hchanges, hterms, ?_, fun v k hv hk => ?_⟩
  · -- the discipline of any one contract says how orders and contracts are written
    exact (rows_of_explains (fun _ _ => trivial) (keepsOrder_program (c := 0) x.op)
      (fun k row => Made.refl k row) (fun hheld hwrites hmade hrow =>
        hmade.step hheld hwrites.1 hrow) hexplained).2
  · refine get_view_of_not_mem σ.db fun w hw hkey => hv ?_
    have hheld : σ.holder w.key = some t := hexplained.writes_held w hw
    rw [hkey, hk] at hheld
    exact Option.some.inj hheld

section Orders

variable {R : Regime schema} {r : Request} {s s' : Db}

/-- No step opens an order again. -/
theorem open_of_step {id : Uuid} {o new : Order} (h : OrderStep R r s id (some o) new)
    (hopen : isOpen new.status = true) : isOpen o.status = true := by
  cases h with
  | lineAdded => exact hopen
  | lineRemoved => exact hopen
  | assigned hstatus =>
    rcases hstatus with hstatus | hstatus <;> rw [hstatus] <;> rfl
  | moved hstatus =>
    rcases hstatus with hsame | ⟨-, ⟨-, hmoved⟩ | ⟨-, hmoved⟩⟩
    · rw [← hsame]
      exact hopen
    · simp [hmoved, isOpen] at hopen
    · simp [hmoved, isOpen] at hopen
  | cancelled => cases hopen
  | delivered => cases hopen
  | pickedUp => cases hopen

/-- Orders stay under their contracts, and those that are open were so before. -/
theorem open_of_changes (h : Changes R r s s') : ∀ id o, s.orders.find? id = some o →
    ∃ o', s'.orders.find? id = some o' ∧ o'.contractId = o.contractId ∧
      (isOpen o'.status = true → isOpen o.status = true) := by
  refine Changes.induction (I := fun s₁ => ∀ id o, s.orders.find? id = some o →
    ∃ o', s₁.orders.find? id = some o' ∧ o'.contractId = o.contractId ∧
      (isOpen o'.status = true → isOpen o.status = true)) h (fun id o ho => ⟨o, ho, rfl, fun h => h⟩) ?_
  intro s₁ s₂ hs₁ hchange id o ho
  obtain ⟨o₁, ho₁, hcontract, hopen⟩ := hs₁ id o ho
  rcases hchange.order_cases id with hsame | ⟨new, hnew, hstep⟩
  · exact ⟨o₁, hsame.trans ho₁, hcontract, hopen⟩
  · rw [ho₁] at hstep
    have hcontract' := hstep.sameHeader.contractId_eq
    exact ⟨new, hnew, hcontract'.trans hcontract, fun h => hopen (open_of_step hstep h)⟩

end Orders

/-! ## The invariant -/

/-- No open order of a contract is missed: a request that stops contracts finds
its open orders free, and no order is placed under the contract while an expiry
job is running that finds it overdue. -/
def NoneMissed (c : Uuid) (σ : Sys schema Request) : ReadCommitted.Action Request → Prop
  | .step t => ∀ x id next o, σ.txns t = some x → stops x.op.op →
    x.prog = .tryLock (.order id) next → σ.db.orders.find? id = some o → isInflight c o = true →
    σ.Free t (.order id)
  | .commit t => ∀ x u y, σ.txns t = some x → (∃ clientId dto, x.op.op = .createOrder clientId dto) →
    σ.holder (.contract c) = some t → σ.txns u = some y → y.op.op = .runExpireJob →
    ¬ Overdue c y.op.env σ.db
  | _ => True

/-- The contract has no open orders. -/
def NothingInflight (c : Uuid) (s : Db) : Prop :=
  ∀ id o, s.orders.find? id = some o → isInflight c o = false

section Commit

variable {c : Uuid} {σ : Sys schema Request} {t : Tid} {r : Request} {s' : Db}

theorem Commits.allActive (h : Commits σ t r s') (hactive : AllActive σ.db) : AllActive s' := by
  intro id o' ho'
  have hmade : OrderMade (fun j => σ.holder j = some t) (σ.db.orders.find? id)
    (s'.orders.find? id) := h.made (.order id)
  cases hold : σ.db.orders.find? id with
  | none =>
    rw [hold] at hmade
    exact (hmade o' ho').1
  | some o =>
    rw [hold] at hmade
    obtain ⟨o'', ho'', -, hsame⟩ := hmade
    cases ho'.symm.trans ho''
    exact hsame.trans (hactive id o hold)

/-- What makes an order open after a commit. -/
theorem Commits.inflight_cases (h : Commits σ t r s') (hactive : AllActive σ.db) {id : Uuid}
    {o' : Order} (ho' : s'.orders.find? id = some o') (hopen : isInflight c o' = true) :
    (∃ o, σ.db.orders.find? id = some o ∧ isInflight c o = true) ∨
    (∃ clientId dto, r.op = .createOrder clientId dto) ∧ σ.holder (.contract c) = some t ∧
      ¬ Stopped c σ.db := by
  rw [isInflight, Bool.and_eq_true, Bool.and_eq_true] at hopen
  obtain ⟨⟨hcontract, hstatus⟩, -⟩ := hopen
  have hcontract := of_decide_eq_true hcontract
  cases hold : σ.db.orders.find? id with
  | some o =>
    obtain ⟨o'', ho'', hsame, hbefore⟩ := open_of_changes h.changes id o hold
    cases ho'.symm.trans ho''
    refine .inl ⟨o, rfl, ?_⟩
    rw [isInflight, Bool.and_eq_true, Bool.and_eq_true]
    exact ⟨⟨decide_eq_true (hsame.symm.trans hcontract), hbefore hstatus⟩, hactive id o hold⟩
  | none =>
    refine .inr ⟨?_, ?_, ?_⟩
    · by_contra hop
      have hnone := newWithout_of_changes h.changes
        (fun clientId dto heq => hop ⟨clientId, dto, heq⟩) id o' hold ho'
      rw [hcontract] at hnone
      cases hnone
    · have hmade : OrderMade (fun j => σ.holder j = some t) (σ.db.orders.find? id)
        (s'.orders.find? id) := h.made (.order id)
      rw [hold] at hmade
      exact (hmade o' ho').2 c hcontract
    · rintro ⟨x, hx, hstopped⟩
      obtain ⟨y, hy, -, hstatus, -⟩ := (h.terms id o' c hold ho' hcontract).terms.contract
      cases hx.symm.trans hy
      simp [isStopped, hstatus] at hstopped

/-- The last day of a contract stays. -/
theorem Commits.overdue (h : Commits σ t r s') {env : Env} (hover : Overdue c env σ.db) :
    Overdue c env s' := by
  obtain ⟨x, hx, hdate⟩ := hover
  have hmade : ContractMade (licence r.op) (σ.db.contracts.find? c) (s'.contracts.find? c) :=
    h.made (.contract c)
  rw [hx] at hmade
  obtain ⟨x', hx', hend, -⟩ := hmade
  refine ⟨x', hx', ?_⟩
  rw [hend]
  exact hdate

/-- A contract is stopped by a request that may do so, which writes it. -/
theorem Commits.stopped_cases (h : Commits σ t r s') (hstopped : Stopped c s') :
    Stopped c σ.db ∨ stops r.op ∧ s'.contracts.find? c ≠ σ.db.contracts.find? c := by
  obtain ⟨x', hx', hstatus⟩ := hstopped
  have hmade : ContractMade (licence r.op) (σ.db.contracts.find? c) (s'.contracts.find? c) :=
    h.made (.contract c)
  by_cases hbefore : Stopped c σ.db
  · exact .inl hbefore
  · refine .inr ⟨?_, fun hsame => hbefore ⟨x', hsame ▸ hx', hstatus⟩⟩
    cases hx : σ.db.contracts.find? c with
    | none =>
      rw [hx] at hmade
      exact hmade x' hx' hstatus
    | some x =>
      rw [hx] at hmade
      obtain ⟨x'', hx'', -, hstops⟩ := hmade
      cases hx'.symm.trans hx''
      exact (hstops hstatus).resolve_right fun h => hbefore ⟨x, hx, h⟩

/-- The others may rely on a commit that misses no order. -/
theorem Commits.relies (h : Commits σ t r s') (hactive : AllActive σ.db) {u : Tid} {r' : Request}
    (hu : u ≠ t) (hjob : (∃ clientId dto, r.op = .createOrder clientId dto) →
      σ.holder (.contract c) = some t → r'.op = .runExpireJob → ¬ Overdue c r'.env σ.db) :
    Relies c r' (fun k => σ.holder k = some u) σ.db s' where
  rows k hk := h.others u k hu hk
  overdue := h.overdue
  shrinks hguarded id o' ho' hopen := by
    rcases h.inflight_cases hactive ho' hopen with hbefore | ⟨hcreate, hholder, -⟩
    · exact hbefore
    · rcases hguarded with hheld | ⟨hop, hover⟩
      · exact absurd (Option.some.inj (hheld.symm.trans hholder)) hu
      · exact absurd hover (hjob hcreate hholder hop)

end Commit

/-- What holds of a contract in every state of a run that misses no order. -/
structure NothingLeft (c : Uuid) (σ : Sys schema Request) : Prop where
  /-- The orders are in order. -/
  ordersOk : OrdersOk σ.db
  /-- All orders are active. -/
  active : AllActive σ.db
  /-- A stopped contract has no open orders. -/
  cleared : Stopped c σ.db → NothingInflight c σ.db
  /-- Requests that stop contracts are on their way to what they achieve. -/
  supported : Supported (around c) (Goal c) σ

section Runs

variable {c : Uuid} {s : Db} {σ σ' : Sys schema Request}

theorem init_nothingLeft (c : Uuid) (s : Db) : NothingLeft c (Sys.init (fresh s)) where
  ordersOk id o ho := absurd ho (by simp [Sys.init, fresh])
  active id o ho := absurd ho (by simp [Sys.init, fresh])
  cleared _ id o ho := absurd ho (by simp [Sys.init, fresh])
  supported := init_supported _

/-- A request that stops contracts has achieved its goal when it commits. -/
theorem NothingLeft.goal (h : NothingLeft c σ) {t : Tid} {x : Txn schema Request} {u : Unit}
    (hx : σ.txns t = some x) (hret : x.prog = .ret u) :
    Goal c x.op (fun k => σ.holder k = some t) x.writes σ.db :=
  h.supported.ended (fun _ _ _ _ _ hgoal hrely => hgoal.relies hrely) hx hret

/-- An order that was written by a request that stops contracts is cancelled. -/
theorem cancelled_of_touches {W : List (RowWrite schema)} {id : Uuid} (h : OnlyCancels W)
    (htouched : Touches W id) (s : Db) :
    ∃ o, (view s W).orders.find? id = some o ∧ o.status = .cancelled := h s id htouched

/-- A commit that stops the contract cancels its open orders. -/
theorem NothingLeft.cancels (h : NothingLeft c σ) {t : Tid} {x : Txn schema Request} {u : Unit}
    (hx : σ.txns t = some x) (hret : x.prog = .ret u)
    (hcommits : Commits σ t x.op (view σ.db x.writes)) (hstopped : Stopped c (view σ.db x.writes))
    {id : Uuid} {o : Order} (ho : σ.db.orders.find? id = some o) (hopen : isInflight c o = true) :
    stops x.op.op ∧ ∃ o', (view σ.db x.writes).orders.find? id = some o' ∧ o'.status = .cancelled := by
  rcases hcommits.stopped_cases hstopped with hbefore | ⟨hstops, hwritten⟩
  · rw [h.cleared hbefore id o ho] at hopen
    cases hopen
  · obtain ⟨hcancels, hdone⟩ := h.goal hx hret hstops
    have hcontract : ∃ w ∈ x.writes, w.key = .contract c := by
      by_contra hnone
      refine hwritten (get_view_of_not_mem (k := .contract c) σ.db fun w hw hkey => ?_)
      exact hnone ⟨w, hw, hkey⟩
    exact ⟨hstops, cancelled_of_touches hcancels ((hdone hcontract).2 id o ho hopen) σ.db⟩

/-- A commit that misses no order leaves nothing of a stopped contract. -/
theorem NothingLeft.cleared_commit (h : NothingLeft c σ) {t : Tid} {x : Txn schema Request}
    {u : Unit} (hx : σ.txns t = some x) (hret : x.prog = .ret u)
    (hcommits : Commits σ t x.op (view σ.db x.writes))
    (hstopped : Stopped c (view σ.db x.writes)) : NothingInflight c (view σ.db x.writes) := by
  intro id o' ho'
  by_contra hnot
  have hopen : isInflight c o' = true := by simpa using hnot
  rcases hcommits.inflight_cases h.active ho' hopen with ⟨o, ho, hbefore⟩ | ⟨hcreate, -, hlive⟩
  · obtain ⟨-, o'', ho'', hcancelled⟩ := h.cancels hx hret hcommits hstopped ho hbefore
    cases ho'.symm.trans ho''
    simp [isInflight, hcancelled] at hopen
  · obtain ⟨clientId, dto, hop⟩ := hcreate
    rcases hcommits.stopped_cases hstopped with hbefore | ⟨hstops, -⟩
    · exact hlive hbefore
    · rw [hop] at hstops
      exact hstops

/-- Every decision that misses no order keeps the invariant. -/
theorem NothingLeft.exec (h : NothingLeft c σ)
    (hreach : Reach program (fun _ _ _ => True) (Sys.init (fresh s)) σ)
    {a : ReadCommitted.Action Request} (hmissed : NoneMissed c σ a)
    (hexec : σ.exec program a = some σ') : NothingLeft c σ' := by
  have hdisciplined : Disciplined (fun r : Request => contractRows c (licence r.op))
      (schema.static (fresh s)) σ :=
    Reach.disciplined (fun _ _ _ => trivial) (fun r => keepsOrder_program r) hreach
  have hskip : ∀ t x k next, a = .step t → σ.txns t = some x → x.prog = .tryLock k next →
      σ.Free t k ∨ (around c x.op).skips σ.db k := by
    rintro t x k next rfl hx hprog
    by_cases hfree : σ.Free t k
    · exact .inl hfree
    · refine .inr fun hstops id o hk ho => ?_
      by_contra hopen
      subst hk
      exact hfree (hmissed x id next o hx hstops hprog ho (by simpa using hopen))
  by_cases hcommit : ∃ t, a = .commit t
  · obtain ⟨t, rfl⟩ := hcommit
    obtain ⟨x, u, hx, hret, hdb, hcommits⟩ := commits_of_exec hreach h.ordersOk hexec
    refine ⟨hcommits.changes.ordersOk h.ordersOk, hcommits.allActive h.active, ?_, ?_⟩
    · rw [hdb] at hcommits ⊢
      exact h.cleared_commit hx hret hcommits
    · refine h.supported.exec (fun r => around_lawful c r) (fun r s => among_program c r s)
        hdisciplined.idle hskip (fun t' v y ha hv hy => ?_) hexec
      cases ha
      exact hcommits.relies h.active hv fun hcreate hholder hjob =>
        hmissed x v y hx hcreate hholder hy hjob
  · have hdb : σ'.db = σ.db := Sys.db_of_not_commit (fun t ha => hcommit ⟨t, ha⟩) hexec
    refine ⟨hdb ▸ h.ordersOk, hdb ▸ h.active, hdb ▸ h.cleared, ?_⟩
    exact h.supported.exec (fun r => around_lawful c r) (fun r s => among_program c r s)
      hdisciplined.idle hskip (fun t u y ha _ _ => absurd ⟨t, ha⟩ hcommit) hexec

theorem nothingLeft_of_runs (h : Runs program (NoneMissed c) (Sys.init (fresh s)) σ) :
    NothingLeft c σ := by
  induction h with
  | init => exact init_nothingLeft c s
  | next a hprev hmissed hexec ih => exact ih.exec hprev.reach hmissed hexec

/-- What a request that stops contracts does is a release of quota. -/
theorem program_drops {s : Db} (hs : OrdersOk s) {r : Request} (hstops : stops r.op) :
    wp Regime.concurrent (program r) (fun _ s' => Drops s s') (fun _ => True) s := by
  have ht : Tame Regime.concurrent fun _ => True := Tame.concurrentAssuming _
  have hlax : Regime.Lax (S := schema) Regime.concurrent := Regime.concurrentAssuming_lax _
  have hrel : ∀ s₁, Changes Regime.concurrent r s s₁ →
      Releasable Regime.concurrent (fun _ => True) s₁ := fun s₁ _ => releasable_of_lax hlax s₁
  obtain ⟨env, op⟩ := r
  cases op with
  | suspendContract id reason u =>
    exact wp_mono _ (suspendContract_changes ht hs hrel) (fun _ _ h => h.2) fun _ he => he
  | terminateContract id reason u =>
    exact wp_mono _ (terminateContract_changes ht hs hrel) (fun _ _ h => h.2) fun _ he => he
  | runExpireJob => exact wp_mono _ (runExpireJob_changes ht hs hrel) (fun _ _ h => h.2) fun _ he => he
  | _ => exact hstops.elim

/-- The quota of the open orders of a contract is released. -/
structure QuotaReleased (c : Uuid) (s s' : Db) : Prop where
  /-- The orders are cancelled and hold nothing. -/
  cancelled : ∀ id o, s.orders.find? id = some o → isInflight c o = true →
    ∃ o', s'.orders.find? id = some o' ∧ o'.status = .cancelled ∧ o'.quantitiesReserved = false
  /-- The counters drop by what they held. -/
  drops : Drops s s'

/-- A stopped contract has no open orders, and every commit that stops one
releases their quota. -/
def StopLeavesNothing (c : Uuid) (σ : Sys schema Request) : Prop :=
  (Stopped c σ.db → ∀ id o, σ.db.orders.find? id = some o → o.contractId = some c →
    o.status ≠ .new ∧ o.status ≠ .assigned) ∧
  ∀ t x σ', σ.txns t = some x → stops x.op.op → σ.exec program (.commit t) = some σ' →
    Stopped c σ'.db → QuotaReleased c σ.db σ'.db

/-- In every run that misses no order of a contract, stopping the contract leaves
nothing in flight. -/
theorem stop_leaves_nothing (c : Uuid) (s : Db) {σ : Sys schema Request}
    (h : Runs program (NoneMissed c) (Sys.init (fresh s)) σ) : StopLeavesNothing c σ := by
  have hleft := nothingLeft_of_runs h
  constructor
  · intro hstopped id o ho hcontract
    have hclosed := hleft.cleared hstopped id o ho
    rw [isInflight, hleft.active id o ho, Bool.and_true, decide_eq_true hcontract, Bool.true_and,
      Bool.or_eq_false_iff] at hclosed
    exact ⟨of_decide_eq_false hclosed.1, of_decide_eq_false hclosed.2⟩
  · intro t y σ' hy hstops hexec hstopped
    obtain ⟨x, u, hx, hret, hdb, hcommits⟩ := commits_of_exec h.reach hleft.ordersOk hexec
    cases hy.symm.trans hx
    have hok := hcommits.changes.ordersOk hleft.ordersOk
    refine ⟨fun id o ho hopen => ?_, ?_⟩
    · rw [hdb] at hcommits hstopped hok ⊢
      obtain ⟨-, o', ho', hcancelled⟩ := hleft.cancels hx hret hcommits hstopped ho hopen
      refine ⟨o', ho', hcancelled, ?_⟩
      by_contra hflag
      have hreserved := (hok id o' ho').reserved_iff.mp (by simpa using hflag)
      exact hreserved.2 hcancelled
    · exact h.reach.commit (Sys.init_explained (S := schema) _) hx
        (program_drops hleft.ordersOk hstops) hexec

end Runs

/-! ## Two schedules -/

/-- A decision that skips no row and starts no expiry job. -/
def execFree (σ : Sys schema Request) (a : ReadCommitted.Action Request) :
    Option (Sys schema Request) :=
  match a with
  | .start _ ⟨_, .runExpireJob⟩ => none
  | .step t =>
    match σ.txns t with
    | some ⟨_, .tryLock k _, _⟩ => if σ.Free t k then σ.exec program a else none
    | _ => σ.exec program a
  | _ => σ.exec program a

/-- No expiry job is running. -/
def NoJob (σ : Sys schema Request) : Prop := ∀ t x, σ.txns t = some x → x.op.op ≠ .runExpireJob

/-- Without skipped rows and without an expiry job no order is missed. -/
theorem execFree_noneMissed (c : Uuid) {σ σ' : Sys schema Request}
    {a : ReadCommitted.Action Request} (hjob : NoJob σ) (h : execFree σ a = some σ') :
    NoneMissed c σ a ∧ σ.exec program a = some σ' ∧ NoJob σ' := by
  have hexec : NoneMissed c σ a ∧ σ.exec program a = some σ' := by
    unfold execFree at h
    split at h
    · cases h
    · next t =>
      split at h
      · next op k next writes hx =>
        split at h
        · next hfree =>
          refine ⟨fun y id next' o hy _ hprog _ _ => ?_, h⟩
          rw [hx] at hy
          cases hy
          cases hprog
          exact hfree
        · cases h
      · next hother =>
        refine ⟨fun y id next' o hy _ hprog _ _ => ?_, h⟩
        obtain ⟨op, prog, writes⟩ := y
        dsimp only at hprog
        exact absurd (hprog ▸ hy) (hother op (.order id) next' writes)
    · next hother =>
      refine ⟨?_, h⟩
      cases a with
      | step t => exact absurd rfl (hother t)
      | commit t => exact fun x u y _ _ _ hy hop => absurd hop (hjob u y hy)
      | _ => exact trivial
  refine ⟨hexec.1, hexec.2, fun u x hx hop => ?_⟩
  rcases Sys.exec_op hexec.2 hx with ⟨y, hy, hsame⟩ | rfl
  · exact hjob u y hy (hsame ▸ hop)
  · obtain ⟨⟨env, op⟩, prog, writes⟩ := x
    dsimp only at hop
    subst hop
    cases h

/-- Coffee is ordered by contract. -/
def contractOrder : List (ReadCommitted.Action Request) :=
  alone 0 4 (.setPriceItem 31 23 60 10) ++ alone 1 12 (coffee 5 five_pieces)

/-- The order is assigned to a courier, and then the contract is terminated. -/
def assignedBefore : List (ReadCommitted.Action Request) :=
  contractOrder ++ alone 2 5 (.assignCourier 20000 6) ++
  alone 3 13 (.terminateContract 31 "unpaid" none)

/-- The status of the order and of the contract, and what is counted on the price item. -/
def outcome (σ : Sys schema Request) : Option OrderStatus × Option ContractStatus × Option ℤ :=
  ((σ.db.orders.find? 20000).map Order.status, (σ.db.contracts.find? 31).map Contract.status,
    (σ.db.priceItems.find? (31, 23)).map PriceItem.quantityUsed)

theorem stop_leaves_nothing_sample :
    ∃ σ, assignedBefore.foldlM execFree (Sys.init (fresh sampleDb)) = some σ ∧
      outcome σ = (some .cancelled, some .terminated, some 0) ∧ StopLeavesNothing 31 σ := by
  have heval : (assignedBefore.foldlM execFree (Sys.init (fresh sampleDb))).map outcome =
      some (some .cancelled, some .terminated, some 0) := by decide +kernel
  obtain ⟨σ, hrun, houtcome⟩ := Option.map_eq_some_iff.mp heval
  have hnojob : NoJob (Sys.init (fresh sampleDb)) := fun t x hx => absurd hx (by simp [Sys.init])
  have hruns : Runs program (NoneMissed 31) (Sys.init (fresh sampleDb)) σ :=
    Runs.of_fold (fun τ a τ' hjob h => execFree_noneMissed 31 hjob h) hnojob assignedBefore hrun
  exact ⟨σ, hrun, houtcome, stop_leaves_nothing 31 sampleDb hruns⟩

/-- The contract is terminated while the order is being assigned. -/
def assignedMeanwhile : List (ReadCommitted.Action Request) :=
  contractOrder ++ [.start 2 (sampleRequest 2 2 (.assignCourier 20000 6)), .step 2] ++
  alone 3 6 (.terminateContract 31 "unpaid" none) ++ List.replicate 4 (.step 2) ++ [.commit 2]

theorem termination_leaves_assigned_order :
    ¬ ∀ (c : Uuid) (s : Db) (σ : Sys schema Request),
      Reach program (fun _ _ _ => True) (Sys.init (fresh s)) σ → (∀ t, σ.txns t = none) →
      StopLeavesNothing c σ := by
  intro hclaim
  have heval : (assignedMeanwhile.foldlM (Sys.exec program) (Sys.init (fresh sampleDb))).map
      (fun σ => ((σ.db.orders.find? 20000).map fun o => (o.contractId, o.status),
        (σ.db.contracts.find? 31).map isStopped, [0, 1, 2, 3].all fun t => (σ.txns t).isNone)) =
      some (some (some 31, .assigned), some true, true) := by decide +kernel
  obtain ⟨σ, hrun, heval⟩ := Option.map_eq_some_iff.mp heval
  simp only [Prod.mk.injEq, Option.map_eq_some_iff] at heval
  obtain ⟨⟨o, ho, hcontract, hstatus⟩, ⟨x, hx, hstopped⟩, hended⟩ := heval
  have hidle : ∀ t, σ.txns t = none := by
    intro t
    by_contra hrunning
    obtain ⟨y, hy⟩ := Option.ne_none_iff_exists'.mp hrunning
    have hstarted := Sys.started_of_actions hrun hy
    simp only [assignedMeanwhile, contractOrder, alone, List.mem_append, List.mem_cons,
      List.mem_replicate, List.not_mem_nil, Action.start.injEq, reduceCtorEq, and_false, or_false] at hstarted
    have hmem : t ∈ [0, 1, 2, 3] := by
      rcases hstarted with ((⟨rfl, -⟩ | ⟨rfl, -⟩) | ⟨rfl, -⟩) | ⟨rfl, -⟩ <;> decide
    rw [List.all_eq_true] at hended
    have hnone := hended t hmem
    rw [hy] at hnone
    cases hnone
  have hleft := (hclaim 31 sampleDb σ (Reach.of_actions _ hrun) hidle).1 ⟨x, hx, hstopped⟩ 20000 o ho
    hcontract
  exact hleft.2 hstatus

end Munavvar.StoppedContracts
