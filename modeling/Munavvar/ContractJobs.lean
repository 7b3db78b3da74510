import Munavvar.Cancellations
import Munavvar.ContractStop
import Munavvar.Independence

/-!
# The contract jobs

The expiry job expires the contracts whose last day has passed and cancels their
open orders, the overdue job marks the invoices whose due date has passed. Alone
each does all there is to do, a second run finds nothing, and the two do not
depend on each other.
-/

namespace Munavvar.ContractJobs

open Munavvar.KeyedTable
open Munavvar.Transaction
open Munavvar.Transaction.Prog
open Munavvar.Independence
open Munavvar.Database
open Munavvar.Statements
open Munavvar.StockLedger
open Munavvar.OrderQueries
open Munavvar.Quota
open Munavvar.OrderService
open Munavvar.ContractService
open Munavvar.Operations
open Munavvar.OrderChanges
open Munavvar.ContractEffects
open Munavvar.ContractStop (isInflight)
open Munavvar.Discipline
open Munavvar.ContractLocks
open Munavvar.OperationLocks
open Munavvar.Cancellations

/-! ## Open orders of one contract -/

section Inflight

variable {R : Regime schema} {E : Err → Prop} {s : Db}

/-- Alone, `_cancel_inflight_orders` cancels all open orders of the contract. -/
theorem wp_cancelInflight_alone (hexact : R.Exact) (hskips : ¬ R.skips) (hlax : R.Lax)
    (hs : Consistent s) {env : Env} (c : Uuid) {reason : String} (hreason : reason.length ≤ 500)
    {Q : Unit → Db → Prop}
    (hQ : ∀ orders priceItems, Cancels env none (fun _ => reason) (matching (isInflight c) s) s
      { s with orders, priceItems } → Q () { s with orders, priceItems }) :
    wp R (cancelInflightOrders env c reason) Q E s := by
  rw [cancelInflightOrders, wp_bind]
  change wp R (lockMatching (isInflight c) none) _ E s
  refine wp_lockMatching_alone hexact hskips ?_
  rw [Option.getD_none, List.take_length]
  have hnodup := matching_nodup (isInflight c) s
  have hrow : ∀ x ∈ matching (isInflight c) s, s.orders.find? x.1 = some x.2 ∧
      x.2.contractId = some c := by
    intro x hx
    obtain ⟨hfind, hmatch⟩ := mem_matching.mp hx
    rw [isInflight, Bool.and_eq_true, Bool.and_eq_true] at hmatch
    exact ⟨hfind, of_decide_eq_true hmatch.1.1⟩
  have htotal : ∀ x ∈ matching (isInflight c) s, int64 x.2.totalAmount = true :=
    fun x hx => hs.total_fits (hrow x hx).1
  have hfits : fits 500 (some reason) = true := decide_eq_true hreason
  have hsub : ((matching (isInflight c) s).filter fun x => x.2.quantitiesReserved).Sublist
      (matching (isInflight c) s) := List.filter_sublist
  rw [wp_bind]
  refine wp_eachOrder (f := fun x => x.2) (g := fun x => x.2.set { status := some .cancelled } env.now)
    hnodup (List.Sublist.refl _) (fun x hx s₁ Q hfind hQ => ?_) (fun x hx h => absurd hx h)
    ⟨fun x hx => (hrow x hx).1, fun _ _ => rfl⟩ fun orders hstored => ?_
  · exact wp_update_fits hlax hfind (by exact htotal x hx) rfl (hQ _ (s₁.orders.written_put x.1 _))
  dsimp only
  rw [wp_bind]
  refine wp_collect_reads (R := R) (fun x => x.2.items) (fun x hx Q hQ => ?_) ?_
  · have hfind := hstored.batch x (hsub.subset hx)
    rw [wp_bind, wp_locked]
    change Q ((orders.find? x.1).elim [] Order.items) _
    rw [hfind]
    exact hQ
  have hheld := demand_reserved fun x hx =>
    ⟨hs.kept.ordersOk x.1 x.2 (hrow x hx).1, (hrow x hx).2⟩
  have hcounted : Counted s.priceItems (heldBy (matching (isInflight c) s)) :=
    hs.counted hnodup fun x hx => (hrow x hx).1
  rw [wp_bind]
  refine wp_release_counted (s := { s with orders := orders }) hlax ?_
    (fun k hk => by rw [hheld] at hk ⊢; exact hcounted k hk) fun t hlowered => ?_
  · exact reserved_pos fun x hx => hs.kept.ordersOk x.1 x.2 (hrow x hx).1
  rw [wp_bind]
  refine wp_eachOrder (f := fun x => x.2.set { status := some .cancelled } env.now)
    (g := fun x => { (x.2.set { status := some .cancelled } env.now) with
      quantitiesReserved := false }) hnodup hsub (fun x hx s₁ Q hfind hQ => ?_) ?_ hstored
    fun orders hstored => ?_
  · exact wp_update_fits hlax hfind (by exact htotal x (hsub.subset hx)) rfl
      (hQ _ (s₁.orders.written_put x.1 _))
  · intro x hx hnot
    dsimp only [Order.set, Option.getD_none]
    rw [quantitiesReserved_of_not_mem hx hnot]
  refine wp_eachOrder (g := fun x => cancelledBy env none reason x.2) hnodup (List.Sublist.refl _)
    (fun x hx s₁ Q hfind hQ => ?_) (fun x hx h => absurd hx h) hstored fun orders hstored => ?_
  · rw [wp_bind]
    refine wp_update_fits hlax hfind (by exact htotal x hx) hfits ?_
    refine wp_log_fits hlax (Table.find?_put_self _ _ _) hfits (hQ _ ?_)
    rw [Db.orders_put]
    exact (s₁.orders.written_put x.1 _).put (some (cancelledBy env none reason x.2))
  exact hQ orders t ⟨hstored, hlowered.congr fun k => (hheld k).symm⟩

end Inflight

/-! ## The expiry job -/

/-- A contract that `get_expirable` takes. -/
def isExpirable (env : Env) (c : Contract) : Bool :=
  c.status = .active && c.isActive && c.endDate.any fun d => d < dateOf env.now

/-- `get_expirable`. -/
def expirable (env : Env) (s : Db) : List Uuid :=
  (s.contracts.rows.filter fun r => isExpirable env r.2).map Prod.fst

/-- The reason given for the contract and for its orders. -/
def expiryReason : String := "Истёк срок действия договора"

/-- One contract expires. -/
def expireContract (env : Env) (id : Uuid) : Uow Unit := do
  cancelInflightOrders env id expiryReason
  updateContract id { status := .expired }
  issue (.contract id) (.log ⟨some .active, .expired, none, some expiryReason⟩)

/-- `run_expire_job` with the number of contracts that it returns. -/
def expireContracts (env : Env) : Uow ℕ := do
  let candidates ← select (expirable env)
  forEach candidates (expireContract env)
  ret candidates.length

/-- Without its number it is the operation that requests ask for. -/
theorem expireContracts_operation (env : Env) :
    (do
      let _ ← expireContracts env
      ret ()) = runExpireJob env := by
  rw [expireContracts, runExpireJob]
  simp only [bind_bind]
  exact congrArg _ (funext fun candidates => bind_ret _)

/-- The row of an expired contract. -/
def expiredRow (c : Contract) : Contract :=
  { c with
    status := .expired
    statusLogs := c.statusLogs ++ [⟨some .active, .expired, none, some expiryReason⟩] }

/-- The texts of a contract fit their columns. -/
structure TextsFit (c : Contract) : Prop where
  /-- `suspension_reason` is a `VARCHAR(512)`. -/
  suspension : fits 512 c.suspensionReason = true
  /-- `termination_reason` is a `VARCHAR(512)`. -/
  termination : fits 512 c.terminationReason = true

/-- An open order of one of some contracts. -/
def isOpenUnder (ids : List Uuid) (o : Order) : Bool :=
  o.contractId.any (fun c => c ∈ ids) && (o.status = .new || o.status = .assigned)

theorem isOpenUnder_iff {ids : List Uuid} {o : Order} : isOpenUnder ids o = true ↔
    (∃ c ∈ ids, o.contractId = some c) ∧ (o.status = .new ∨ o.status = .assigned) := by
  rw [isOpenUnder, Bool.and_eq_true, Bool.or_eq_true, decide_eq_true_eq, decide_eq_true_eq]
  refine and_congr_left' ?_
  cases o.contractId with
  | none => simp
  | some c => simp

theorem mem_expirable {env : Env} {s : Db} {id : Uuid} : id ∈ expirable env s ↔
    ∃ c, s.contracts.find? id = some c ∧ isExpirable env c = true := by
  rw [expirable, List.mem_map]
  constructor
  · rintro ⟨r, hr, rfl⟩
    obtain ⟨hmem, hexpirable⟩ := List.mem_filter.mp hr
    exact ⟨r.2, (s.contracts.mem_rows_iff r.1 r.2).mp hmem, hexpirable⟩
  · rintro ⟨c, hc, hexpirable⟩
    exact ⟨(id, c), List.mem_filter.mpr ⟨(s.contracts.mem_rows_iff id c).mpr hc, hexpirable⟩, rfl⟩

theorem expirable_nodup (env : Env) (s : Db) : (expirable env s).Nodup :=
  (List.filter_sublist.map Prod.fst).nodup s.contracts.nodup

section Expiry

variable {R : Regime schema} {E : Err → Prop} {s : Db} {env : Env}

/-- One more contract brings its open orders. -/
theorem openUnder_perm (hactive : AllActive s) {ids : List Uuid} {id : Uuid}
    (hid : id ∉ ids) : (matching (isOpenUnder ids) s ++ matching (isInflight id) s).Perm
      (matching (isOpenUnder (ids ++ [id])) s) := by
  have hinflight : ∀ x ∈ s.orders.rows, isInflight id x.2 =
      (!isOpenUnder ids x.2 && isOpenUnder (ids ++ [id]) x.2) := by
    intro x hx
    have hlive := hactive x.1 x.2 ((s.orders.mem_rows_iff x.1 x.2).mp hx)
    rw [Bool.eq_iff_iff, Bool.and_eq_true, Bool.not_eq_true', ← Bool.not_eq_true, isOpenUnder_iff,
      isOpenUnder_iff, isInflight, hlive]
    cases x.2.contractId with
    | none => simp
    | some c =>
      simp only [Option.some.injEq, Bool.and_true, Bool.and_eq_true, Bool.or_eq_true,
        decide_eq_true_eq, List.mem_append, List.mem_singleton, exists_eq_right']
      constructor
      · rintro ⟨rfl, hopen⟩
        exact ⟨fun h => hid h.1, .inr rfl, hopen⟩
      · rintro ⟨hnot, hmem, hopen⟩
        exact ⟨hmem.resolve_left fun h => hnot ⟨h, hopen⟩, hopen⟩
  have hbefore : ∀ x ∈ s.orders.rows, isOpenUnder ids x.2 =
      (isOpenUnder ids x.2 && isOpenUnder (ids ++ [id]) x.2) := by
    intro x _
    rw [Bool.eq_iff_iff, Bool.and_eq_true, isOpenUnder_iff, isOpenUnder_iff]
    refine ⟨fun h => ⟨h, ?_⟩, And.left⟩
    obtain ⟨⟨c, hc, heq⟩, hopen⟩ := h
    exact ⟨⟨c, List.mem_append_left _ hc, heq⟩, hopen⟩
  have hperm := List.filter_append_perm (fun x => isOpenUnder ids x.2)
    (matching (isOpenUnder (ids ++ [id])) s)
  rw [matching, List.filter_filter, List.filter_filter, ← List.filter_congr hbefore,
    ← List.filter_congr hinflight] at hperm
  exact hperm

/-- A contract that is there is marked as expired. -/
theorem wp_markExpired (hlax : R.Lax) {id : Uuid} {c : Contract} (hc : s.contracts.find? id = some c)
    (htexts : TextsFit c) {Q : Unit → Db → Prop}
    (hQ : ∀ contracts, s.contracts.Written contracts id (some (expiredRow c)) →
      Q () { s with contracts }) :
    wp R (do
      updateContract id { status := .expired }
      issue (.contract id) (.log ⟨some .active, .expired, none, some expiryReason⟩)) Q E s := by
  have hupdate : exec (.contract id) (.update { status := .expired }) (s.get (.contract id)) =
      checked (c.set { status := .expired })
        [(fits 512 (c.set { status := .expired }).suspensionReason,
          .stringTooLong "contracts.suspension_reason"),
         (fits 512 (c.set { status := .expired }).terminationReason,
          .stringTooLong "contracts.termination_reason")] := by
    change ContractStmt.exec _ (s.contracts.find? id) = _
    rw [hc]
    rfl
  have hrow : s.get (.contract id) = some c := hc
  rw [wp_bind, updateContract, wp_bind, wp_locked, wp_bind]
  refine wp_checked hlax hupdate (.inl fun x hx => ?_) fun _ => ?_
  · rw [List.mem_cons, List.mem_singleton] at hx
    rcases hx with rfl | rfl
    · exact htexts.suspension
    · exact htexts.termination
  rw [wp_raiseIf]
  refine ⟨fun hnone => ?_, fun _ => ?_⟩
  · change (s.get (.contract id)).isNone = true at hnone
    rw [hrow] at hnone
    cases hnone
  have hput := s.contracts.written_put id (some (c.set { status := .expired }))
  have hlog : exec (.contract id) (.log ⟨some .active, .expired, none, some expiryReason⟩)
      ((s.put (.contract id) (some (c.set { status := .expired }))).get (.contract id)) =
      checked (expiredRow c)
        [(fits 512 (some expiryReason), .stringTooLong "contract_status_logs.reason")] := by
    change ContractStmt.exec _ ((s.contracts.put id _).find? id) = _
    rw [hput.find?_self]
    rfl
  refine wp_checked hlax hlog (.inl fun x hx => ?_) fun _ => hQ _ (hput.put _)
  rw [List.mem_singleton.mp hx]
  decide

/-- What a run has done to some of the contracts. -/
structure Expired (env : Env) (ids : List Uuid) (s s' : Db) : Prop where
  /-- Their open orders are cancelled. -/
  cancels : Cancels env none (fun _ => expiryReason) (matching (isOpenUnder ids) s) s s'
  /-- Their rows and their logs. -/
  contracts : ∀ id, s'.contracts.find? id =
    if id ∈ ids then (s.contracts.find? id).map expiredRow else s.contracts.find? id
  /-- Other tables stay. -/
  others : s' = { s with
    orders := s'.orders, priceItems := s'.priceItems, contracts := s'.contracts }

theorem isOpenUnder_nil (o : Order) : isOpenUnder [] o = false := by
  rw [← Bool.not_eq_true, isOpenUnder_iff]
  rintro ⟨⟨c, hc, -⟩, -⟩
  exact absurd hc List.not_mem_nil

theorem expired_nil (env : Env) (s : Db) : Expired env [] s s where
  cancels := by
    rw [matching_eq_nil fun _ o _ => isOpenUnder_nil o]
    exact cancels_nil _ _ _ _
  contracts id := (if_neg List.not_mem_nil).symm
  others := rfl

theorem matching_rows (isMatch : Order → Bool) (s : Db) :
    ∀ x ∈ matching isMatch s, s.orders.find? x.1 = some x.2 := fun _ hx => (mem_matching.mp hx).1

/-- One more contract expires. -/
theorem wp_expireContract (hexact : R.Exact) (hskips : ¬ R.skips) (hlax : R.Lax) (hs : Consistent s)
    {ids : List Uuid} {s₁ : Db} (h : Expired env ids s s₁) {id : Uuid} (hid : id ∉ ids) {c : Contract}
    (hc : s.contracts.find? id = some c) (htexts : TextsFit c) :
    wp R (expireContract env id) (fun _ s' => Expired env (ids ++ [id]) s s') E s₁ := by
  have hs₁ := h.cancels.consistent hs (matching_nodup _ _) (matching_rows _ _)
  have hrow : s₁.contracts.find? id = some c := by rw [h.contracts, if_neg hid, hc]
  rw [expireContract, wp_bind]
  refine wp_cancelInflight_alone hexact hskips hlax hs₁ id (by decide) fun orders priceItems hone => ?_
  refine wp_markExpired (s := { s₁ with orders, priceItems }) hlax hrow htexts fun contracts hwritten => ?_
  -- the open orders of this contract were open before the job
  have hsame : (matching (isInflight id) s₁).Perm (matching (isInflight id) s) := by
    refine h.cancels.matching_perm (fun o ho hcancelled => ?_) fun x hx => ?_
    · rw [isInflight, hcancelled] at ho
      simp at ho
    · obtain ⟨hfind, hopen⟩ := mem_matching.mp hx
      refine ⟨hfind, ?_⟩
      obtain ⟨⟨c', hc', heq⟩, -⟩ := isOpenUnder_iff.mp hopen
      have hne : c' ≠ id := fun h => hid (h ▸ hc')
      simp [isInflight, heq, hne]
  have hfresh : ∀ x ∈ matching (isOpenUnder ids) s,
      x.1 ∉ (matching (isInflight id) s₁).map Prod.fst := by
    intro x hx hmem
    obtain ⟨y, hy, heq⟩ := List.mem_map.mp hmem
    obtain ⟨hfind, hmatch⟩ := mem_matching.mp hy
    rw [heq, h.cancels.orders.batch x hx, Option.some.injEq] at hfind
    rw [← hfind] at hmatch
    simp [isInflight, cancelledBy] at hmatch
  have hall := (h.cancels.trans hone hfresh).perm ((hsame.append_left _).trans
    (openUnder_perm hs.active hid))
  refine ⟨hall.of_eq rfl rfl rfl rfl, fun j => ?_, by rw [h.others]⟩
  · by_cases hj : j = id
    · rw [hj, if_pos (List.mem_append_right _ List.mem_cons_self), hc]
      exact hwritten.find?_self
    · have hmem : j ∈ ids ++ [id] ↔ j ∈ ids := by
        rw [List.mem_append, List.mem_singleton]
        exact or_iff_left hj
      simp only [hmem]
      exact (hwritten.find?_ne hj).trans (h.contracts j)

/-- The texts of the contracts that are not drafts fit. -/
def AllTextsFit (s : Db) : Prop :=
  ∀ id c, s.contracts.find? id = some c → c.status ≠ .draft → TextsFit c

/-- Alone, the job expires all contracts whose last day has passed. -/
theorem wp_expireContracts (hs : Consistent s) (htexts : AllTextsFit s) (env : Env) :
    wp Regime.serial (expireContracts env)
      (fun n s' => n = (expirable env s).length ∧ Expired env (expirable env s) s s') E s := by
  rw [expireContracts, wp_bind, wp_ask]
  rintro v rfl
  rw [wp_bind]
  refine wp_loop (fun done s' => Expired env done v s') (expired_nil env v) ?_ fun s' h => ⟨rfl, h⟩
  intro done id todo s₁ hdone h
  have hmem : id ∈ expirable env v := hdone ▸ List.mem_append_right _ List.mem_cons_self
  have hid : id ∉ done := by
    have hnodup := expirable_nodup env v
    rw [← hdone, List.nodup_middle, List.nodup_cons] at hnodup
    exact fun h => hnodup.1 (List.mem_append_left _ h)
  obtain ⟨c, hc, hexpirable⟩ := mem_expirable.mp hmem
  rw [isExpirable, Bool.and_eq_true, Bool.and_eq_true] at hexpirable
  have hactive : c.status = .active := of_decide_eq_true hexpirable.1.1
  exact wp_expireContract (Regime.serialAsserting_exact _) (fun h => h) Regime.serial_lax hs h hid hc
    (htexts id c hc (by rw [hactive]; decide))

/-- Where no contract is expirable, the job does nothing. -/
theorem run_expireContracts_idle
    (hnone : ∀ id c, s.contracts.find? id = some c → isExpirable env c = false) :
    (expireContracts env).run s = .ok (0, s) := by
  have hempty : expirable env s = [] := by
    rw [List.eq_nil_iff_forall_not_mem]
    intro id hid
    obtain ⟨c, hc, hexpirable⟩ := mem_expirable.mp hid
    rw [hnone id c hc] at hexpirable
    cases hexpirable
  change (do
    forEach (expirable env s) (expireContract env)
    ret (expirable env s).length).run s = _
  rw [hempty]
  rfl

/-- A run of the expiry job that is complete and has nothing left to do. -/
structure ExpiresContracts (env : Env) (s : Db) (n : ℕ) (s' : Db) : Prop where
  /-- The job returns the number of expired contracts. -/
  returns : (expireContracts env).run s = .ok (n, s')
  /-- All that were expirable are expired and logged, the others stay. -/
  contracts : ∀ id, s'.contracts.find? id =
    (s.contracts.find? id).map fun c => if isExpirable env c then expiredRow c else c
  /-- How many they are. -/
  count : n = (expirable env s).length
  /-- None remains. -/
  none_left : ∀ id c, s'.contracts.find? id = some c → isExpirable env c = false
  /-- The expired contracts have no open orders. -/
  none_open : ∀ id c, s.contracts.find? id = some c → isExpirable env c = true →
    ∀ orderId o, s'.orders.find? orderId = some o → o.contractId = some id →
      o.status ≠ .new ∧ o.status ≠ .assigned
  /-- Exactly the open orders of these contracts are cancelled and release their quota. -/
  cancels : Cancels env none (fun _ => expiryReason) (matching (isOpenUnder (expirable env s)) s) s s'
  /-- Other tables stay. -/
  others : s' = { s with
    orders := s'.orders, priceItems := s'.priceItems, contracts := s'.contracts }
  /-- A second run expires nothing. -/
  again : (expireContracts env).run s' = .ok (0, s')

/-- Alone, the expiry job is complete and idempotent. -/
theorem expiresContracts (hs : Consistent s) (htexts : AllTextsFit s) (env : Env) :
    ∃ n s', ExpiresContracts env s n s' := by
  obtain ⟨n, s', hrun, hcount, h⟩ := run_of_wp (wp_expireContracts hs htexts env)
  have hcontracts : ∀ id, s'.contracts.find? id =
      (s.contracts.find? id).map fun c => if isExpirable env c then expiredRow c else c := by
    intro id
    rw [h.contracts id]
    cases hc : s.contracts.find? id with
    | none => exact ite_self none
    | some c =>
      have hmem : id ∈ expirable env s ↔ isExpirable env c = true := by
        rw [mem_expirable, hc]
        simp
      simp only [hmem, Option.map_some]
      split <;> rfl
  have hnone : ∀ id c, s'.contracts.find? id = some c → isExpirable env c = false := by
    intro id c hc
    rw [hcontracts id] at hc
    obtain ⟨c₀, -, rfl⟩ := Option.map_eq_some_iff.mp hc
    split
    · rfl
    · next hnot => exact Bool.not_eq_true _ ▸ hnot
  refine ⟨n, s', hrun, hcontracts, hcount, hnone, ?_, h.cancels, h.others,
    run_expireContracts_idle hnone⟩
  intro id c hc hexpirable orderId o ho hcontract
  -- an open order of the contract would have been cancelled
  have hopen : ¬ (o.status = .new ∨ o.status = .assigned) := by
    intro hopen
    have hunder : isOpenUnder (expirable env s) o = true :=
      isOpenUnder_iff.mpr ⟨⟨id, mem_expirable.mpr ⟨c, hc, hexpirable⟩, hcontract⟩, hopen⟩
    rcases h.cancels.find?_cases ho with hold | ⟨x, -, -, rfl⟩
    · have hbatch := h.cancels.orders.batch (orderId, o) (mem_matching.mpr ⟨hold, hunder⟩)
      rw [ho, Option.some.injEq] at hbatch
      have hstatus : o.status = .cancelled := congrArg Order.status hbatch
      rw [hstatus] at hopen
      simp at hopen
    · simp [cancelledBy] at hopen
  exact not_or.mp hopen

end Expiry

/-- Statements on contracts check the texts whenever they set them. -/
theorem contract_exec_textsFit {st : ContractStmt} {old new : Option Contract}
    (hinsert : ∀ x, st = .insert x → x.status = .draft)
    (h : ∀ c, old = some c → c.status ≠ .draft → TextsFit c) (hexec : st.exec old = .ok new) :
    ∀ c, new = some c → c.status ≠ .draft → TextsFit c := by
  rintro c rfl hstatus
  cases old with
  | none =>
    cases st with
    | insert x =>
      obtain ⟨hrow, -⟩ := checked_ok hexec
      cases hrow
      exact absurd (hinsert _ rfl) hstatus
    | update data => cases hexec
    | log entry => cases hexec
  | some old =>
    cases st with
    | insert x => cases hexec
    | update data =>
      obtain ⟨hrow, hchecks⟩ := checked_ok hexec
      cases hrow
      exact ⟨hchecks _ List.mem_cons_self,
        hchecks _ (List.mem_cons_of_mem _ List.mem_cons_self)⟩
    | log entry =>
      obtain ⟨hrow, -⟩ := checked_ok hexec
      cases hrow
      obtain ⟨hsuspension, htermination⟩ := h old rfl hstatus
      exact ⟨hsuspension, htermination⟩

/-- A row that is not a contract in use with texts that do not fit. -/
def FittingRow : (k : Key) → Option (Row k) → Prop
  | .contract _, row => ∀ c : Contract, row = some c → c.status ≠ .draft → TextsFit c
  | _, _ => True

/-- Every request that is served alone keeps the texts fitting: contracts are made as drafts. -/
theorem program_textsFit {s : Db} (h : AllTextsFit s) (r : Request) :
    wp Regime.serial (program r) (fun _ s' => AllTextsFit s') (fun _ => True) s := by
  have hobeys : Obeys { contractRows 0 (licence r.op) with rows := FittingRow } s.directory
      (program r) (fun _ _ => True) fun _ => False :=
    (keepsOrder_program r).weaken (fun _ _ _ => trivial) (fun _ _ hk => hk) fun _ _ _ hst => hst
  refine wp_mono _ (wp_of_obeys Regime.serial_sound Regime.serial_lax ?_ hobeys ?_)
    (fun _ s' hs' id c hc => hs'.2.2 (.contract id) c hc) fun _ he => he
  · intro H k st old row hst hold hrow
    cases k with
    | contract id =>
      refine contract_exec_textsFit (fun x hx => ?_) hold hrow
      subst hx
      exact hst.1
    | _ => exact trivial
  · intro k
    cases k with
    | contract id => exact h id
    | _ => exact trivial

/-- Serial runs keep the texts fitting. -/
theorem after_textsFit {s : Db} (h : ∀ id c, s.contracts.find? id = some c → TextsFit c)
    (rs : List Request) : AllTextsFit (after rs (fresh s)) := by
  have hfresh : AllTextsFit (fresh s) := fun id c hc _ => h id c hc
  exact serveAll_induction hfresh (fun r s' hs => serve_of_wp (program_textsFit hs r) hs) rs

/-! ## The overdue job -/

/-- An invoice that `get_overdue_candidates` takes. -/
def isOverdue (env : Env) (i : Invoice) : Bool :=
  i.status = .issued && i.isActive && i.dueDate.any fun d => d < dateOf env.now

/-- `get_overdue_candidates`. -/
def overdueRows (env : Env) (t : Table Uuid Invoice) : List (Uuid × Invoice) :=
  t.rows.filter fun r => isOverdue env r.2

/-- One invoice is marked. -/
def markOverdue (id : Uuid) : Uow Unit := do
  let row ← forUpdate (.invoice id)
  issue (.invoice id) (.update { status := .overdue })
  raiseIf (row.isNone = true)
    (.notFound s!"Запись Invoice с id={id} не найдена" "NOT_FOUND" [("id", .id id)])

/-- `run_overdue_job` with the number of invoices that it returns. -/
def markOverdueInvoices (env : Env) : Uow ℕ := do
  let candidates ← select fun s => (overdueRows env s.invoices).map Prod.fst
  forEach candidates markOverdue
  ret candidates.length

/-- Without its number it is the operation that requests ask for. -/
theorem markOverdueInvoices_operation (env : Env) :
    (do
      let _ ← markOverdueInvoices env
      ret ()) = runOverdueJob env := by
  rw [markOverdueInvoices, runOverdueJob]
  simp only [bind_bind]
  exact congrArg _ (funext fun candidates => bind_ret _)

/-- The invoices after the job. -/
def marked (env : Env) (t : Table Uuid Invoice) : Table Uuid Invoice :=
  t.putAll ((overdueRows env t).map fun x => (x.1, x.2.set { status := .overdue }))

section Overdue

variable {env : Env} {s : Db}

theorem overdueRows_nodup (env : Env) (t : Table Uuid Invoice) :
    ((overdueRows env t).map Prod.fst).Nodup := (List.filter_sublist.map Prod.fst).nodup t.nodup

theorem mem_overdueRows {t : Table Uuid Invoice} {x : Uuid × Invoice} :
    x ∈ overdueRows env t ↔ t.find? x.1 = some x.2 ∧ isOverdue env x.2 = true := by
  rw [overdueRows, List.mem_filter]
  exact and_congr_left' (t.mem_rows_iff x.1 x.2)

/-- An invoice that is stored is marked. -/
theorem wp_markOverdue {E : Err → Prop} {id : Uuid} {i : Invoice}
    (hi : s.invoices.find? id = some i) {Q : Unit → Db → Prop}
    (hQ : Q () { s with invoices := s.invoices.put id (some (i.set { status := .overdue })) }) :
    wp Regime.serial (markOverdue id) Q E s := by
  have hrow : s.get (.invoice id) = some i := hi
  have hexec : exec (.invoice id) (.update { status := .overdue }) (s.get (.invoice id)) =
      checked (i.set { status := .overdue }) [] := by
    rw [hrow]
    rfl
  rw [markOverdue, wp_bind, wp_locked, wp_bind]
  refine wp_checked Regime.serial_lax hexec (.inl fun c hc => absurd hc List.not_mem_nil) fun _ => ?_
  rw [wp_raiseIf]
  refine ⟨fun hnone => ?_, fun _ => hQ⟩
  change (s.get (.invoice id)).isNone = true at hnone
  rw [hrow] at hnone
  cases hnone

/-- Stored invoices are marked one after another. -/
theorem wp_markAll {E : Err → Prop} {xs : List (Uuid × Invoice)} (hnodup : (xs.map Prod.fst).Nodup)
    {t : Table Uuid Invoice} (hxs : ∀ x ∈ xs, t.find? x.1 = some x.2) :
    wp Regime.serial (forEach (xs.map Prod.fst) markOverdue)
      (fun _ s' => s' = { s with
        invoices := t.putAll (xs.map fun x => (x.1, x.2.set { status := .overdue })) }) E
      { s with invoices := t } := by
  induction xs generalizing t with
  | nil => exact rfl
  | cons x xs ih =>
    rw [List.map_cons, List.nodup_cons] at hnodup
    rw [List.map_cons, forEach, wp_bind']
    refine wp_markOverdue (s := { s with invoices := t }) (hxs x List.mem_cons_self) ?_
    refine ih hnodup.2 fun y hy => ?_
    have hne : y.1 ≠ x.1 := fun h => hnodup.1 (List.mem_map.mpr ⟨y, hy, h⟩)
    exact (Table.find?_put_ne t hne _).trans (hxs y (List.mem_cons_of_mem x hy))

/-- Alone, the job is a function of the invoices. -/
theorem run_markOverdueInvoices (env : Env) (s : Db) : (markOverdueInvoices env).run s =
    .ok ((overdueRows env s.invoices).length, { s with invoices := marked env s.invoices }) := by
  have hwp : wp Regime.serial (markOverdueInvoices env) (fun n s' =>
      n = (overdueRows env s.invoices).length ∧ s' = { s with invoices := marked env s.invoices })
      (fun _ => False) s := by
    rw [markOverdueInvoices, wp_bind, wp_ask]
    rintro v rfl
    have hall := wp_markAll (s := v) (E := fun _ => False) (overdueRows_nodup env v.invoices)
      fun x hx => (mem_overdueRows.mp hx).1
    rw [wp_bind]
    exact wp_mono _ hall (fun _ s' h => ⟨List.length_map _, h⟩) fun _ he => he
  obtain ⟨n, s', hrun, rfl, rfl⟩ := run_of_wp hwp
  exact hrun

/-- The overdue invoices are marked, the others stay. -/
theorem find?_marked (env : Env) (t : Table Uuid Invoice) (id : Uuid) :
    (marked env t).find? id =
      (t.find? id).map fun i => if isOverdue env i then { i with status := .overdue } else i := by
  have hsame : ((overdueRows env t).map fun x => (x.1, x.2.set { status := .overdue })).map Prod.fst =
      (overdueRows env t).map Prod.fst := by
    rw [List.map_map]
    rfl
  have hkeys := overdueRows_nodup env t
  rw [← hsame] at hkeys
  let changed : Table Uuid Invoice := ⟨_, hkeys⟩
  have hlookup : (marked env t).find? id = (changed.find? id).or (t.find? id) :=
    Table.find?_putAll t hkeys id
  -- an invoice that is not overdue is not among the changed ones
  have habsent : (∀ i, t.find? id = some i → ¬ isOverdue env i = true) → changed.find? id = none := by
    intro hnot
    rw [Table.find?_eq_none_iff]
    change id ∉ ((overdueRows env t).map fun x => (x.1, x.2.set { status := .overdue })).map Prod.fst
    rw [hsame]
    intro hmem
    obtain ⟨x, hx, rfl⟩ := List.mem_map.mp hmem
    obtain ⟨hfind, hoverdue⟩ := mem_overdueRows.mp hx
    exact hnot x.2 hfind hoverdue
  rw [hlookup]
  cases hi : t.find? id with
  | none =>
    rw [habsent fun i hsome => nomatch hi.symm.trans hsome]
    rfl
  | some i =>
    rw [Option.map_some]
    split
    · next hoverdue =>
      have hmem : (id, i.set { status := .overdue }) ∈ changed.rows :=
        List.mem_map.mpr ⟨(id, i), mem_overdueRows.mpr ⟨hi, hoverdue⟩, rfl⟩
      rw [(changed.mem_rows_iff _ _).mp hmem]
      rfl
    · next hnot =>
      rw [habsent fun j hj => ?_, Option.none_or]
      rw [hi, Option.some.injEq] at hj
      exact hj ▸ hnot

/-- A run of the overdue job that is complete and has nothing left to do. -/
structure MarksOverdue (env : Env) (s : Db) (n : ℕ) (s' : Db) : Prop where
  /-- The job returns the number of marked invoices. -/
  returns : (markOverdueInvoices env).run s = .ok (n, s')
  /-- All that were overdue are marked, the others stay. -/
  invoices : ∀ id, s'.invoices.find? id = (s.invoices.find? id).map fun i =>
    if isOverdue env i then { i with status := .overdue } else i
  /-- How many they are. -/
  count : n = (overdueRows env s.invoices).length
  /-- None remains. -/
  none_left : ∀ id i, s'.invoices.find? id = some i → isOverdue env i = false
  /-- Other tables stay. -/
  others : s' = { s with invoices := s'.invoices }
  /-- A second run marks nothing. -/
  again : (markOverdueInvoices env).run s' = .ok (0, s')

/-- Alone, the overdue job is complete and idempotent. -/
theorem marksOverdue (env : Env) (s : Db) : MarksOverdue env s (overdueRows env s.invoices).length
    { s with invoices := marked env s.invoices } := by
  have hnone : ∀ id i, (marked env s.invoices).find? id = some i → isOverdue env i = false := by
    intro id i hi
    rw [find?_marked] at hi
    obtain ⟨i₀, -, rfl⟩ := Option.map_eq_some_iff.mp hi
    split
    · rfl
    · next hnot => exact Bool.not_eq_true _ ▸ hnot
  have hempty : overdueRows env (marked env s.invoices) = [] := by
    rw [List.eq_nil_iff_forall_not_mem]
    intro x hx
    obtain ⟨hfind, hoverdue⟩ := mem_overdueRows.mp hx
    rw [hnone x.1 x.2 hfind] at hoverdue
    cases hoverdue
  have hsame : marked env (marked env s.invoices) = marked env s.invoices := by
    change (marked env s.invoices).putAll ((overdueRows env (marked env s.invoices)).map _) = _
    rw [hempty]
    rfl
  constructor
  · exact run_markOverdueInvoices env s
  · exact find?_marked env s.invoices
  · rfl
  · exact hnone
  · rfl
  · rw [run_markOverdueInvoices, hempty, hsame]
    rfl

end Overdue

/-! ## The two jobs together -/

section Together

variable {t : Table Uuid Invoice}

theorem apart_order (t : Table Uuid Invoice) (id : Uuid) :
    Apart (S := schema) (fun s : Db => { s with invoices := t }) (.order id) :=
  ⟨fun _ => rfl, fun _ _ => rfl⟩

theorem lockMatching_ignores (isMatch : Order → Bool) (limit : Option ℕ) :
    Ignores (S := schema) (fun s : Db => { s with invoices := t }) (lockMatching isMatch limit) := by
  refine ignores_bind (ignores_ask fun _ => rfl) fun candidates => ?_
  generalize limit.getD candidates.length = n
  induction candidates generalizing n with
  | nil => cases n <;> exact ignores_ret _
  | cons id ids ih =>
    cases n with
    | zero => exact ignores_ret _
    | succ n =>
      refine ignores_bind (ignores_unlessLocked (apart_order t id)) fun row => ?_
      cases row.join.filter isMatch with
      | none => exact ih (n + 1)
      | some o => exact ignores_bind (ih n) fun _ => ignores_ret _

theorem decrementQuantitiesUsed_ignores (c : Uuid) (qs : List (Uuid × ℤ)) :
    Ignores (S := schema) (fun s : Db => { s with invoices := t }) (decrementQuantitiesUsed c qs) := by
  have hitem : ∀ p, Apart (S := schema) (fun s : Db => { s with invoices := t }) (.priceItem c p) :=
    fun p => ⟨fun _ => rfl, fun _ _ => rfl⟩
  refine ignores_forEach fun x => ignores_bind (ignores_raiseIf _ _) fun _ => ?_
  refine ignores_bind (ignores_locked (hitem x.1)) fun row => ?_
  exact ignores_bind (ignores_execute (hitem x.1) _) fun _ => ignores_raiseIf _ _

theorem cancelInflightOrders_ignores (env : Env) (c : Uuid) (reason : String) :
    Ignores (S := schema) (fun s : Db => { s with invoices := t })
      (cancelInflightOrders env c reason) := by
  refine ignores_bind (lockMatching_ignores _ _) fun cancelled => ?_
  refine ignores_bind (ignores_forEach fun x => ignores_execute (apart_order t x.1) _) fun _ => ?_
  refine ignores_bind (ignores_collect fun x => ?_) fun items => ?_
  · exact ignores_bind (ignores_locked (apart_order t x.1)) fun _ => ignores_ret _
  refine ignores_bind (decrementQuantitiesUsed_ignores c _) fun _ => ?_
  refine ignores_bind (ignores_forEach fun x => ignores_execute (apart_order t x.1) _) fun _ => ?_
  refine ignores_forEach fun x => ?_
  exact ignores_bind (ignores_execute (apart_order t x.1) _) fun _ =>
    ignores_execute (apart_order t x.1) _

/-- The expiry job does not look at invoices. -/
theorem expireContracts_ignores (env : Env) :
    Ignores (S := schema) (fun s : Db => { s with invoices := t }) (expireContracts env) := by
  have hcontract : ∀ id, Apart (S := schema) (fun s : Db => { s with invoices := t }) (.contract id) :=
    fun id => ⟨fun _ => rfl, fun _ _ => rfl⟩
  refine ignores_bind (ignores_ask fun _ => rfl) fun candidates => ?_
  refine ignores_bind (ignores_forEach fun id => ?_) fun _ => ignores_ret _
  refine ignores_bind (cancelInflightOrders_ignores env id _) fun _ => ?_
  refine ignores_bind ?_ fun _ => ignores_execute (hcontract id) _
  refine ignores_bind (ignores_locked (hcontract id)) fun row => ?_
  exact ignores_bind (ignores_execute (hcontract id) _) fun _ => ignores_raiseIf _ _

end Together

/-- Either job is complete and idempotent in every serial run, and it does not matter which of them
runs first. -/
theorem contract_jobs_complete (s : Db) (htexts : ∀ id c, s.contracts.find? id = some c → TextsFit c)
    (rs : List Request) (env : Env) : ∃ n m s₁ s₂ s₃,
      ExpiresContracts env (after rs (fresh s)) n s₁ ∧ MarksOverdue env (after rs (fresh s)) m s₂ ∧
      (markOverdueInvoices env).run s₁ = .ok (m, s₃) ∧
      (expireContracts env).run s₂ = .ok (n, s₃) := by
  have hs := after_consistent s rs
  obtain ⟨n, s₁, hexpires⟩ := expiresContracts hs (after_textsFit htexts rs) env
  have hmarks := marksOverdue env (after rs (fresh s))
  refine ⟨n, _, s₁, _, { s₁ with invoices := marked env s₁.invoices }, hexpires, hmarks, ?_, ?_⟩
  · rw [run_markOverdueInvoices, hexpires.others]
  · have hignores := run_ignores (expireContracts_ignores (t := marked env s₁.invoices) env)
      (after rs (fresh s))
    have hinvoices : s₁.invoices = (after rs (fresh s)).invoices := by rw [hexpires.others]
    have hrun := hexpires.returns
    rw [hrun, hinvoices] at hignores
    rw [hinvoices]
    exact hignores

/-- The sample company; the contract ends on the second day. -/
def endingDb : Db := { sampleDb with
  contracts := ⟨[(31, ⟨7, "A", .active, 0, some 1, 10, true, none, none, none, none, none, none,
    []⟩)], by decide⟩ }

/-- Coffee is on the price list and some is ordered. -/
def endingRequests : List Request :=
  [sampleRequest 0 0 (.setPriceItem 31 23 60 10),
   sampleRequest 1 0 (.createOrder 7 ⟨[⟨23, 5, five_pieces⟩], .contract, 5, false, none⟩)]

/-- The fourth day. -/
def fourthDay : Env := (sampleRequest 2 (3 * dayLength) .runExpireJob).env

theorem contract_jobs_complete_sample :
    expirable fourthDay (after endingRequests (fresh endingDb)) = [31] ∧
      (matching (isOpenUnder [31]) (after endingRequests (fresh endingDb))).length = 1 ∧
      ∃ n m s₁ s₂ s₃,
        ExpiresContracts fourthDay (after endingRequests (fresh endingDb)) n s₁ ∧
        MarksOverdue fourthDay (after endingRequests (fresh endingDb)) m s₂ ∧
        (markOverdueInvoices fourthDay).run s₁ = .ok (m, s₃) ∧
        (expireContracts fourthDay).run s₂ = .ok (n, s₃) := by
  refine ⟨by decide +kernel, by decide +kernel, ?_⟩
  refine contract_jobs_complete endingDb (fun id c hc => ?_) endingRequests fourthDay
  have hmem := (endingDb.contracts.mem_rows_iff id c).mpr hc
  cases List.mem_singleton.mp hmem
  exact ⟨rfl, rfl⟩

end Munavvar.ContractJobs
