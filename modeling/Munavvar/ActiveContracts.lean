import Munavvar.ContractLog

/-!
# One active contract for each client

Two edges of the life cycle lead to ACTIVE, and both look for another active
contract of the client first. Served one after another, the operations never
leave a client with two active contracts, so the lookup never meets two rows.
No index on the table is needed for this.
-/

namespace Munavvar.ActiveContracts

open Munavvar.KeyedTable
open Munavvar.Transaction
open Munavvar.Transaction.Prog
open Munavvar.Database
open Munavvar.Statements
open Munavvar.StockLedger
open Munavvar.OrderQueries
open Munavvar.OrderService
open Munavvar.ContractService
open Munavvar.ContractLog

/-! ## Active contracts -/

/-- No two active contracts have the same client. -/
def OneActive (s : Db) : Prop :=
  ∀ id id' c c', s.contracts.find? id = some c → s.contracts.find? id' = some c' →
    c.status = .active → c'.status = .active → c.clientId = c'.clientId → id = id'

/-- What the operations keep: the lookup sees every active contract. -/
structure ActiveOnce (s : Db) : Prop where
  /-- No two active contracts have the same client. -/
  one : OneActive s
  /-- No active contract is archived. -/
  live : ∀ id c, s.contracts.find? id = some c → c.status = .active → c.isActive = true

/-- The rows that the lookup selects for a client. -/
def activeRows (s : Db) (clientId : Uuid) : List (Uuid × Contract) :=
  s.contracts.rows.filter fun r => r.2.clientId = clientId && r.2.status = .active && r.2.isActive

section Rows

variable {s : Db} {clientId : Uuid}

theorem mem_activeRows {id : Uuid} {c : Contract} : (id, c) ∈ activeRows s clientId ↔
    s.contracts.find? id = some c ∧ c.clientId = clientId ∧ c.status = .active ∧
      c.isActive = true := by
  rw [activeRows, List.mem_filter, Table.mem_rows_iff, Bool.and_eq_true, Bool.and_eq_true,
    decide_eq_true_eq, decide_eq_true_eq, and_assoc]

/-- The lookup never meets two rows. -/
theorem ActiveOnce.length_le_one (h : ActiveOnce s) (clientId : Uuid) :
    (activeRows s clientId).length ≤ 1 := by
  have hnodup : ((activeRows s clientId).map Prod.fst).Nodup :=
    (List.filter_sublist.map Prod.fst).nodup s.contracts.nodup
  cases hrows : activeRows s clientId with
  | nil => exact Nat.zero_le 1
  | cons x rest =>
    cases rest with
    | nil => exact le_refl 1
    | cons y rest =>
      have hx := mem_activeRows.mp (hrows ▸ List.mem_cons_self : x ∈ activeRows s clientId)
      have hy := mem_activeRows.mp
        (hrows ▸ List.mem_cons_of_mem x List.mem_cons_self : y ∈ activeRows s clientId)
      have hsame : x.1 = y.1 := h.one _ _ _ _ hx.1 hy.1 hx.2.2.1 hy.2.2.1
        (hx.2.1.trans hy.2.1.symm)
      rw [hrows, List.map_cons, List.map_cons, List.nodup_cons] at hnodup
      exact absurd (hsame ▸ List.mem_cons_self) hnodup.1

/-- Only the contracts of one client that the lookup has found are active. -/
theorem ActiveOnce.eq_of_head? (h : ActiveOnce s) {j : Uuid} {c : Contract}
    (hc : s.contracts.find? j = some c) (hclient : c.clientId = clientId)
    (hactive : c.status = .active) :
    ∃ x, (activeRows s clientId).head? = some x ∧ x.1 = j := by
  have hmem : (j, c) ∈ activeRows s clientId :=
    mem_activeRows.mpr ⟨hc, hclient, hactive, h.live j c hc hactive⟩
  have hlength := h.length_le_one clientId
  match hrows : activeRows s clientId with
  | [] => simp [hrows] at hmem
  | [x] =>
    rw [hrows, List.mem_singleton] at hmem
    exact ⟨x, rfl, hmem ▸ rfl⟩
  | _ :: _ :: _ => simp [hrows] at hlength

end Rows

/-! ## Lookups -/

section Lookups

variable {R : Regime schema} {E : Err → Prop} {s : Db}

theorem wp_scalarOneOrNone {V : Type} {l : List V} (hone : l.length ≤ 1) {Q : Option V → Db → Prop}
    (hQ : Q l.head? s) : wp R (scalarOneOrNone l) Q E s := by
  match l with
  | [] => exact hQ
  | [v] => exact hQ
  | _ :: _ :: _ => simp at hone

theorem wp_getActiveForClient (hexact : R.Exact) (h : ActiveOnce s) (clientId : Uuid)
    {Q : Option (Uuid × Contract) → Db → Prop} (hQ : Q (activeRows s clientId).head? s) :
    wp R (getActiveForClient clientId) Q E s := by
  rw [getActiveForClient, wp_bind]
  refine wp_ask_exact hexact ?_
  exact wp_scalarOneOrNone (h.length_le_one clientId) hQ

/-- Locked one after another, the selected rows are the same. -/
theorem filterMap_activeRows (s : Db) (clientId : Uuid) :
    ((activeRows s clientId).map Prod.fst |>.map fun id =>
      (id, (s.contracts.find? id).filter fun c =>
        c.clientId = clientId && c.status = .active && c.isActive)).filterMap
      (fun r => r.2.map (Prod.mk r.1)) = activeRows s clientId := by
  rw [List.map_map, List.filterMap_map]
  have hself : ∀ r ∈ activeRows s clientId,
      ((fun r : Uuid × Option Contract => r.2.map (Prod.mk r.1)) ∘ ((fun id =>
        (id, (s.contracts.find? id).filter fun c =>
          c.clientId = clientId && c.status = .active && c.isActive)) ∘ Prod.fst)) r = some r := by
    rintro ⟨id, c⟩ hr
    obtain ⟨hc, hclient, hactive, hlive⟩ := mem_activeRows.mp hr
    simp [hc, hclient, hactive, hlive]
  rw [List.filterMap_congr hself, List.filterMap_some]

theorem wp_getActiveForClientLocked (hexact : R.Exact) (h : ActiveOnce s) (clientId : Uuid)
    {Q : Option (Uuid × Contract) → Db → Prop} (hQ : Q (activeRows s clientId).head? s) :
    wp R (getActiveForClientLocked clientId) Q E s := by
  rw [getActiveForClientLocked, wp_bind]
  refine wp_ask_exact hexact ?_
  rw [wp_bind]
  refine wp_collect_reads (R := R) (fun id => (id, (s.contracts.find? id).filter fun c =>
    c.clientId = clientId && c.status = .active && c.isActive)) ?_ ?_
  · exact fun id _ Q hQ => hQ
  have hrows := filterMap_activeRows s clientId
  rw [activeRows] at hrows
  dsimp only
  rw [hrows]
  exact wp_scalarOneOrNone (h.length_le_one clientId) hQ

/-- After the check no contract of the client but this one is active. -/
theorem wp_ensureNoOtherActive (hexact : R.Exact) (hE : ∀ e, NotMultiple e → E e)
    (h : ActiveOnce s) {id : Uuid} {contract : Contract} {Q : Unit → Db → Prop}
    (hQ : (∀ j c, s.contracts.find? j = some c → c.clientId = contract.clientId →
      c.status = .active → j = id) → Q () s) :
    wp R (ensureNoOtherActive id contract) Q E s := by
  rw [ensureNoOtherActive, wp_bind]
  refine wp_getActiveForClientLocked hexact h _ ?_
  rw [wp_whenSome]
  constructor
  · intro x hx
    rw [wp_raiseIf]
    refine ⟨fun _ => hE _ (by simp), fun hsame => hQ fun j c hc hclient hactive => ?_⟩
    obtain ⟨y, hy, hyj⟩ := h.eq_of_head? hc hclient hactive
    cases hx.symm.trans hy
    rw [← hyj]
    exact not_not.mp hsame
  · intro hnone
    refine hQ fun j c hc hclient hactive => ?_
    obtain ⟨y, hy, -⟩ := h.eq_of_head? hc hclient hactive
    cases hnone.symm.trans hy

end Lookups

/-! ## Statements -/

/-- Statements that make no contract active. -/
def NotActivating : (k : Key) → Stmt k → Prop
  | .contract _, .insert c => c.status ≠ .active
  | .contract _, .update data => data.status ≠ .active
  | _, _ => True

/-- Updates and log entries of one contract. -/
def OnContract (id : Uuid) : (k : Key) → Stmt k → Prop
  | .contract j, .update _ => j = id
  | .contract j, .log _ => j = id
  | _, _ => False

theorem notActivating_of_notContract (k : Key) (st : Stmt k) (h : NotContract k st) :
    NotActivating k st := by
  cases k with
  | contract id => exact h.elim
  | _ => trivial

section Statements

variable {s : Db}

/-- A contract that was not active before and is not active now hurts nobody. -/
theorem ActiveOnce.put (h : ActiveOnce s) {id : Uuid} {r : Option Contract}
    (hr : ∀ c, r = some c → c.status = .active → ∃ c', s.contracts.find? id = some c' ∧
      c'.status = .active ∧ c'.clientId = c.clientId ∧ c'.isActive = c.isActive) :
    ActiveOnce (s.put (.contract id) r) := by
  -- what is active now was so before, for the same client
  have hbefore : ∀ j c, (s.put (.contract id) r).contracts.find? j = some c →
      c.status = .active → ∃ c', s.contracts.find? j = some c' ∧ c'.status = .active ∧
        c'.clientId = c.clientId ∧ c'.isActive = c.isActive := by
    intro j c hc hactive
    change (s.contracts.put id r).find? j = some c at hc
    rw [Table.find?_put] at hc
    split at hc
    · next hj => exact hj ▸ hr c hc hactive
    · exact ⟨c, hc, hactive, rfl, rfl⟩
  constructor
  · intro j j' c c' hc hc' hactive hactive' hclient
    obtain ⟨x, hx, hxactive, hxclient, -⟩ := hbefore j c hc hactive
    obtain ⟨x', hx', hxactive', hxclient', -⟩ := hbefore j' c' hc' hactive'
    refine h.one j j' x x' hx hx' hxactive hxactive' ?_
    rw [hxclient, hxclient', hclient]
  · intro j c hc hactive
    obtain ⟨x, hx, hxactive, -, hxlive⟩ := hbefore j c hc hactive
    rw [← hxlive]
    exact h.live j x hx hxactive

/-- Every statement that makes no contract active keeps the invariant. -/
theorem activeOnce_step (s : Db) (k : Key) (st : Stmt k) (r : Option (Row k))
    (hst : NotActivating k st) (h : ActiveOnce s) (hexec : exec k st (s.get k) = .ok r) :
    ActiveOnce (s.put k r) := by
  cases k with
  | contract id =>
    refine h.put fun c hc hactive => ?_
    subst hc
    change st.exec (s.contracts.find? id) = .ok (some c) at hexec
    cases hold : s.contracts.find? id with
    | none =>
      rw [hold] at hexec
      cases st with
      | insert contract =>
        obtain ⟨hsame, -⟩ := checked_ok hexec
        cases hsame
        exact absurd hactive hst
      | update data => cases hexec
      | log entry => cases hexec
    | some old =>
      rw [hold] at hexec
      cases st with
      | insert contract => cases hexec
      | update data =>
        obtain ⟨hsame, -⟩ := checked_ok hexec
        cases hsame
        exact absurd hactive hst
      | log entry =>
        obtain ⟨hsame, -⟩ := checked_ok hexec
        cases hsame
        exact ⟨old, rfl, hactive, rfl, rfl⟩
  | _ => exact ⟨h.one, h.live⟩

/-- While one contract is being activated the others stay. -/
structure Activating (s₀ : Db) (id clientId : Uuid) (s : Db) : Prop where
  /-- The other contracts stay. -/
  others : ∀ j, j ≠ id → s.contracts.find? j = s₀.contracts.find? j
  /-- The contract keeps its client. -/
  own : ∀ c, s.contracts.find? id = some c → c.clientId = clientId ∧ c.isActive = true

/-- Every statement on the contract keeps the others. -/
theorem activating_step {s₀ : Db} {id clientId : Uuid} (s : Db) (k : Key) (st : Stmt k)
    (r : Option (Row k)) (hst : OnContract id k st) (h : Activating s₀ id clientId s)
    (hexec : exec k st (s.get k) = .ok r) : Activating s₀ id clientId (s.put k r) := by
  cases k with
  | contract j =>
    have hrow : j = id ∧ ∀ c, r = some c → ∃ old, s.contracts.find? j = some old ∧
        c.clientId = old.clientId ∧ c.isActive = old.isActive := by
      change st.exec (s.contracts.find? j) = .ok r at hexec
      cases st with
      | insert contract => exact hst.elim
      | update data =>
        refine ⟨hst, fun c hc => ?_⟩
        subst hc
        cases hold : s.contracts.find? j with
        | none =>
          rw [hold] at hexec
          cases hexec
        | some old =>
          rw [hold] at hexec
          obtain ⟨hsame, -⟩ := checked_ok hexec
          cases hsame
          exact ⟨old, rfl, rfl, rfl⟩
      | log entry =>
        refine ⟨hst, fun c hc => ?_⟩
        subst hc
        cases hold : s.contracts.find? j with
        | none =>
          rw [hold] at hexec
          cases hexec
        | some old =>
          rw [hold] at hexec
          obtain ⟨hsame, -⟩ := checked_ok hexec
          cases hsame
          exact ⟨old, rfl, rfl, rfl⟩
    obtain ⟨rfl, hrow⟩ := hrow
    constructor
    · intro i hi
      change (s.contracts.put j r).find? i = _
      rw [Table.find?_put_ne _ hi]
      exact h.others i hi
    · intro c hc
      change (s.contracts.put j r).find? j = some c at hc
      rw [Table.find?_put_self] at hc
      obtain ⟨old, hold, hclient, hlive⟩ := hrow c hc
      rw [hclient, hlive]
      exact h.own old hold
  | _ => exact hst.elim

/-- A contract may become active when no other one of its client is. -/
theorem Activating.activeOnce {s₀ : Db} {id clientId : Uuid} (h : Activating s₀ id clientId s)
    (h₀ : ActiveOnce s₀)
    (hsole : ∀ j c, s₀.contracts.find? j = some c → c.clientId = clientId →
      c.status = .active → j = id) : ActiveOnce s := by
  have hother : ∀ j c, s.contracts.find? j = some c → c.status = .active →
      c.clientId = clientId → j = id := by
    intro j c hc hactive hclient
    by_cases hj : j = id
    · exact hj
    · rw [h.others j hj] at hc
      exact hsole j c hc hclient hactive
  constructor
  · intro j j' c c' hc hc' hactive hactive' hclient
    by_cases hj : j = id
    · subst hj
      have hown := (h.own c hc).1
      exact (hother j' c' hc' hactive' (hclient.symm.trans hown)).symm
    · by_cases hj' : j' = id
      · subst hj'
        have hown := (h.own c' hc').1
        exact hother j c hc hactive (hclient.trans hown)
      · rw [h.others j hj] at hc
        rw [h.others j' hj'] at hc'
        exact h₀.one j j' c c' hc hc' hactive hactive' hclient
  · intro j c hc hactive
    by_cases hj : j = id
    · subst hj
      exact (h.own c hc).2
    · rw [h.others j hj] at hc
      exact h₀.live j c hc hactive

end Statements

/-! ## Operations -/

section Operations

variable {s : Db}

theorem notMultiple_of_exec {k : Key} {st : Stmt k} {old : Option (Row k)} {e : Err}
    (h : exec k st old = .error e) : NotMultiple e := by
  rintro rfl
  have hconstraint := exec_isConstraint k st old h
  cases hconstraint

/-- A part that makes no contract active. -/
abbrev Harmless {α : Type} (p : Uow α) : Prop := Within (S := schema) NotActivating NotMultiple p

theorem wp_harmless {α : Type} {p : Uow α} (hp : Harmless p) (h : ActiveOnce s) :
    wp Regime.serial p (fun _ s' => ActiveOnce s') NotMultiple s :=
  wp_within hp (fun _ _ _ _ => trivial) (fun _ he => he)
    (fun _ _ _ _ _ he => notMultiple_of_exec he)
    (fun s k st r hst hs hexec => activeOnce_step s k st r hst hs hexec) h

theorem getContractLocked_harmless (id : Uuid) : Harmless (getContractLocked id) :=
  within_bind (within_locked _) fun _ => (within_orRaise _ _).mpr fun _ => by simp

theorem updateContract_harmless (id : Uuid) {data : ContractUpdate}
    (hdata : data.status ≠ .active) : Harmless (updateContract id data) := by
  refine within_bind (within_locked _) fun row => ?_
  refine within_bind ((within_execute _ _).mpr hdata) fun _ => ?_
  exact (within_raiseIf _ _).mpr fun _ => by simp

theorem cancelInflightOrders_harmless (env : Env) (id : Uuid) (reason : String) :
    Harmless (cancelInflightOrders env id reason) :=
  (cancelInflightOrders_notContract env id reason).mono notActivating_of_notContract fun _ he => he

theorem logContract_harmless (id : Uuid) (entry : ContractStatusLog) :
    Harmless (issue (.contract id) (.log entry)) := (within_execute _ _).mpr trivial

theorem createContract_once (h : ActiveOnce s) (env : Env) (clientId : Uuid) (dto : ContractCreate) :
    wp Regime.serial (createContract env clientId dto) (fun _ s' => ActiveOnce s') NotMultiple s := by
  rw [createContract, wp_bind]
  refine wp_getActiveForClient (Regime.serialAsserting_exact _) h clientId ?_
  refine wp_harmless (within_bind ?_ fun _ => ?_) h
  · exact (within_whenSome _ _).mpr fun _ _ => (within_raise _).mpr (by simp)
  · exact (within_execute _ _).mpr (by simp [NotActivating])

/-- The operations on an edge to ACTIVE. -/
theorem wp_activation (h : ActiveOnce s) {id : Uuid} {bad : Contract → Prop} [DecidablePred bad]
    {e : Contract → Err} (he : ∀ c, NotMultiple (e c)) {data : ContractUpdate}
    {entry : Contract → ContractStatusLog} :
    wp Regime.serial (do
      let contract ← getContractLocked id
      raiseIf (bad contract) (e contract)
      ensureNoOtherActive id contract
      updateContract id data
      issue (.contract id) (.log (entry contract)))
      (fun _ s' => ActiveOnce s') NotMultiple s := by
  rw [wp_bind, getContractLocked, wp_bind, wp_locked, wp_orRaise]
  refine ⟨fun _ => by simp, fun contract hcontract => ?_⟩
  obtain ⟨hfound, hlive⟩ := Option.filter_eq_some_iff.mp hcontract
  rw [wp_bind, wp_raiseIf]
  refine ⟨fun _ => he contract, fun _ => ?_⟩
  rw [wp_bind]
  refine wp_ensureNoOtherActive (Regime.serialAsserting_exact _) (fun _ he => he) h fun hsole => ?_
  have hown : Activating s id contract.clientId s := by
    constructor
    · exact fun _ _ => rfl
    · intro c hc
      cases hc.symm.trans hfound
      exact ⟨rfl, hlive⟩
  have htail : Within (S := schema) (OnContract id) NotMultiple (do
      updateContract id data
      issue (.contract id) (.log (entry contract))) := by
    refine within_bind (within_bind (within_locked _) fun row => ?_) fun _ => ?_
    · refine within_bind ((within_execute _ _).mpr rfl) fun _ => ?_
      exact (within_raiseIf _ _).mpr fun _ => by simp
    · exact (within_execute _ _).mpr rfl
  have hactivated := wp_within (R := Regime.serial) (E := NotMultiple) htail
    (fun _ _ _ _ => trivial) (fun _ he => he) (fun _ _ _ _ _ he => notMultiple_of_exec he)
    (fun s k st r hst hs hexec => activating_step s k st r hst hs hexec) hown
  exact wp_mono _ hactivated (fun _ s' hs' => hs'.activeOnce h hsole) fun _ he => he

/-- Every operation keeps the invariant, and no lookup of it meets two rows. -/
theorem program_once (h : ActiveOnce s) (op : ContractOperation) :
    wp Regime.serial (program op) (fun _ s' => ActiveOnce s') NotMultiple s := by
  cases op with
  | createContract env clientId dto => exact createContract_once h env clientId dto
  | activateContract env id u => exact wp_activation h fun _ => by simp
  | reinstateContract id u => exact wp_activation h fun _ => by simp
  | suspendContract env id reason u =>
    refine wp_harmless (within_bind (getContractLocked_harmless id) fun contract => ?_) h
    refine within_bind ((within_raiseIf _ _).mpr fun _ => by simp) fun _ => ?_
    refine within_bind (updateContract_harmless id (by simp)) fun _ => ?_
    exact within_bind (cancelInflightOrders_harmless env id _) fun _ => logContract_harmless id _
  | terminateContract env id reason u =>
    refine wp_harmless (within_bind (getContractLocked_harmless id) fun contract => ?_) h
    refine within_bind ((within_raiseIf _ _).mpr fun _ => by simp) fun _ => ?_
    refine within_bind (updateContract_harmless id (by simp)) fun _ => ?_
    exact within_bind (cancelInflightOrders_harmless env id _) fun _ => logContract_harmless id _
  | runExpireJob env =>
    refine wp_harmless (within_bind (within_ask _) fun ids => within_forEach fun id => ?_) h
    refine within_bind (cancelInflightOrders_harmless env id _) fun _ => ?_
    exact within_bind (updateContract_harmless id (by simp)) fun _ => logContract_harmless id _

end Operations

/-! ## Runs -/

theorem noContracts_once (s : Db) : ActiveOnce (noContracts s) where
  one id id' c c' hc := absurd hc (by simp [noContracts])
  live id c hc := absurd hc (by simp [noContracts])

/-- In every state of a serial run no client has two active contracts, and
whatever operation comes next meets no two rows where it looks for one. -/
theorem one_active_contract (s : Db) (ops : List ContractOperation) :
    OneActive (serveAll program ops (noContracts s)) ∧
      ∀ op, (program op).run (serveAll program ops (noContracts s)) ≠
        .error .multipleResultsFound := by
  have honce : ActiveOnce (serveAll program ops (noContracts s)) :=
    serveAll_induction (noContracts_once s) (fun op s hs => serve_of_wp (program_once hs op) hs) ops
  refine ⟨honce.one, fun op herror => ?_⟩
  have hop := (wp_serial_iff _ _ _ _).mp (program_once honce op)
  rw [herror] at hop
  exact hop rfl

end Munavvar.ActiveContracts
