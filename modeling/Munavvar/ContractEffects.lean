import Munavvar.LifecycleEffects

/-!
# The effect of the contract service

A contract that ends cancels its open orders in one batch: the loops write each
order in turn, and the quota of all of them is released in one sum. The price
list and the invoices change one row at a time.
-/

namespace Munavvar.ContractEffects

open Munavvar.KeyedTable
open Munavvar.Transaction
open Munavvar.Transaction.Prog
open Munavvar.Database
open Munavvar.Statements
open Munavvar.StockLedger
open Munavvar.OrderQueries
open Munavvar.Quota
open Munavvar.OrderService
open Munavvar.ContractService
open Munavvar.Operations
open Munavvar.OrderChanges
open Munavvar.Footprints
open Munavvar.OrderEffects
open Munavvar.LifecycleEffects

/-! ## Batches of orders -/

/-- The orders of a batch are stored as `f` makes them, the others as they were. -/
structure Stored (rows : List (Uuid × Order)) (f : Uuid × Order → Order)
    (t t' : Table Uuid Order) : Prop where
  /-- An order of the batch. -/
  batch : ∀ x ∈ rows, t'.find? x.1 = some (f x)
  /-- Any other order. -/
  others : ∀ k, k ∉ rows.map Prod.fst → t'.find? k = t.find? k

theorem Stored.congr {rows : List (Uuid × Order)} {f f' : Uuid × Order → Order}
    {t t' : Table Uuid Order} (h : Stored rows f t t') (heq : ∀ x ∈ rows, f' x = f x) :
    Stored rows f' t t' where
  batch x hx := by rw [h.batch x hx, heq x hx]
  others := h.others

/-- Rows of a batch are told apart by their keys. -/
theorem eq_of_key_eq {rows : List (Uuid × Order)} (hnodup : (rows.map Prod.fst).Nodup)
    {x y : Uuid × Order} (hx : x ∈ rows) (hy : y ∈ rows) (h : x.1 = y.1) : x = y :=
  List.inj_on_of_nodup_map hnodup hx hy h

/-- A lookup in what a batch stores. -/
theorem Stored.find?_eq {rows : List (Uuid × Order)} {f : Uuid × Order → Order}
    {t t' : Table Uuid Order} (h : Stored rows f t t') (k : Uuid) :
    t'.find? k = ((rows.map fun x => (x.1, f x)).lookup k).or (t.find? k) := by
  cases hlookup : (rows.map fun x => (x.1, f x)).lookup k with
  | none =>
    rw [Option.none_or]
    refine h.others k fun hk => ?_
    obtain ⟨x, hx, rfl⟩ := List.mem_map.mp hk
    rw [List.lookup_eq_none_iff] at hlookup
    have hne := hlookup (x.1, f x) (List.mem_map.mpr ⟨x, hx, rfl⟩)
    exact bne_iff_ne.mp hne rfl
  | some o =>
    obtain ⟨l₁, l₂, hsplit, -⟩ := List.lookup_eq_some_iff.mp hlookup
    have hmem : (k, o) ∈ rows.map fun x => (x.1, f x) :=
      hsplit ▸ List.mem_append_right _ List.mem_cons_self
    obtain ⟨x, hx, heq⟩ := List.mem_map.mp hmem
    cases heq
    exact h.batch x hx

section Rules

variable {R : Regime schema} {E : Err → Prop} {s : Db}

/-- A loop over some orders of a batch rewrites these orders. -/
theorem wp_eachOrder {rows sub : List (Uuid × Order)} (hnodup : (rows.map Prod.fst).Nodup)
    (hsub : sub.Sublist rows) {f g : Uuid × Order → Order} {body : Uuid × Order → Uow Unit}
    (hbody : ∀ x ∈ sub, ∀ (s₁ : Db) (Q : Unit → Db → Prop), s₁.orders.find? x.1 = some (f x) →
      (∀ orders, s₁.orders.Written orders x.1 (some (g x)) → Q () { s₁ with orders := orders }) →
      wp R (body x) Q E s₁)
    (hsame : ∀ x ∈ rows, x ∉ sub → g x = f x) {t : Table Uuid Order}
    (hstored : Stored rows f t s.orders) {Q : Unit → Db → Prop}
    (hQ : ∀ orders, Stored rows g t orders → Q () { s with orders := orders }) :
    wp R (forEach sub body) Q E s := by
  have hnodup' : (sub.map Prod.fst).Nodup := (hsub.map Prod.fst).nodup hnodup
  refine wp_loop (fun done (s' : Db) => ∃ orders, s' = { s with orders := orders } ∧
      Stored rows (fun x => if x.1 ∈ done.map Prod.fst then g x else f x) t orders)
    ⟨s.orders, rfl, hstored.congr fun x _ => if_neg List.not_mem_nil⟩ ?_ ?_
  · rintro done x todo _ hdone ⟨orders, rfl, hstored⟩
    have hx : x ∈ sub := hdone ▸ List.mem_append_right _ List.mem_cons_self
    have hfresh : x.1 ∉ done.map Prod.fst := by
      rw [← hdone, List.map_append, List.map_cons, List.nodup_middle, List.nodup_cons] at hnodup'
      exact fun h => hnodup'.1 (List.mem_append_left _ h)
    have hfind := hstored.batch x (hsub.subset hx)
    rw [if_neg hfresh] at hfind
    refine hbody x hx _ _ hfind fun orders' hwritten => ⟨orders', rfl, ?_, fun k hk => ?_⟩
    · intro y hy
      by_cases hkey : y.1 = x.1
      · rw [eq_of_key_eq hnodup hy (hsub.subset hx) hkey, hwritten.find?_self, if_pos]
        simp
      · have hmem : y.1 ∈ (done ++ [x]).map Prod.fst ↔ y.1 ∈ done.map Prod.fst := by
          rw [List.map_append, List.mem_append, List.map_singleton, List.mem_singleton]
          exact or_iff_left hkey
        rw [hwritten.find?_ne hkey, hstored.batch y hy]
        simp only [hmem]
    · have hne : k ≠ x.1 := fun h => hk (h ▸ List.mem_map.mpr ⟨x, hsub.subset hx, rfl⟩)
      rw [hwritten.find?_ne hne, hstored.others k hk]
  · rintro _ ⟨orders, rfl, hstored⟩
    refine hQ orders (hstored.congr fun x hx => ?_)
    by_cases hmem : x.1 ∈ sub.map Prod.fst
    · rw [if_pos hmem]
    · rw [if_neg hmem]
      exact hsame x hx fun h => hmem (List.mem_map.mpr ⟨x, h, rfl⟩)

/-- A cancelled order of a batch. -/
def cancelledRow (env : Env) (reason : String) (o : Order) : Order :=
  { o with
    status := .cancelled
    quantitiesReserved := false
    cancellationReason := some reason
    updatedAt := env.now
    statusLogs := o.statusLogs ++ [⟨some o.status, .cancelled, none, some reason⟩] }

/-- An order that holds quota of the contract it names. -/
theorem held_of_contractId {o : Order} {c : Uuid} (hok : OrderOk o) (hc : o.contractId = some c)
    (k : Uuid × Uuid) :
    held o k = if o.quantitiesReserved = true then demand c (o.items.map OrderItem.pair) k else 0 := by
  split
  · next hflag =>
    obtain ⟨c', hc'⟩ := Option.isSome_iff_exists.mp (hok.reserved_iff.mp hflag).1
    have heq : o.contractId = some c' := by
      have hif := hc'
      rw [Order.contract?] at hif
      split at hif
      · exact hif
      · cases hif
    cases hc.symm.trans heq
    exact held_of_reserved hflag hc' k
  · next hflag => exact held_of_not_reserved (by simpa using hflag) k

/-- What some orders of a contract hold is what their reserved lines demand. -/
theorem demand_reserved {rows : List (Uuid × Order)} {c : Uuid}
    (hrows : ∀ x ∈ rows, OrderOk x.2 ∧ x.2.contractId = some c) (k : Uuid × Uuid) :
    demand c (Bag.collect ((((rows.filter fun x => x.2.quantitiesReserved).map fun x =>
      x.2.items).flatten).map OrderItem.pair)) k = (rows.map fun x => held x.2 k).sum := by
  rw [demand_collect, List.map_flatten, demand_flatten]
  induction rows with
  | nil => rfl
  | cons x rows ih =>
    have ih := ih fun y hy => hrows y (List.mem_cons_of_mem x hy)
    obtain ⟨hok, hcontract⟩ := hrows x List.mem_cons_self
    rw [List.map_cons, List.sum_cons, ← ih, held_of_contractId hok hcontract, List.filter_cons]
    split
    · rfl
    · rw [zero_add]

/-- The reserved lines of some orders are lines of pieces. -/
theorem reserved_pos {rows : List (Uuid × Order)} (hrows : ∀ x ∈ rows, OrderOk x.2) :
    ∀ x ∈ Bag.collect ((((rows.filter fun x => x.2.quantitiesReserved).map fun x =>
      x.2.items).flatten).map OrderItem.pair), 0 < x.2 := by
  refine Bag.collect_pos fun x hx => ?_
  obtain ⟨i, hi, rfl⟩ := List.mem_map.mp hx
  obtain ⟨items, hitems, hi⟩ := List.mem_flatten.mp hi
  obtain ⟨y, hy, rfl⟩ := List.mem_map.mp hitems
  exact (hrows y (List.mem_of_mem_filter hy)).quantity_pos i hi

/-- Clearing the flag of an order that was not reserved changes nothing. -/
theorem quantitiesReserved_of_not_mem {rows : List (Uuid × Order)} {x : Uuid × Order}
    (hx : x ∈ rows) (hnot : x ∉ rows.filter fun x => x.2.quantitiesReserved) :
    x.2.quantitiesReserved = false := by
  cases h : x.2.quantitiesReserved with
  | false => rfl
  | true => exact absurd (List.mem_filter.mpr ⟨hx, h⟩) hnot

/-- What the orders hold of a price item. -/
abbrev totalHeld (s : Db) (k : Uuid × Uuid) : ℤ := s.orders.total fun _ o => held o k

/-- The counters drop by what the orders hold no more. -/
structure Drops (s s' : Db) : Prop where
  /-- Nothing is held in addition. -/
  total_le : ∀ k, totalHeld s' k ≤ totalHeld s k
  /-- Each counter is lowered by the difference, but not below zero. -/
  find_eq : ∀ k, s'.priceItems.find? k = (s.priceItems.find? k).map fun p =>
    { p with quantityUsed := released p.quantityUsed (totalHeld s k - totalHeld s' k) }

theorem drops_of_eq {s s' : Db} (horders : s'.orders = s.orders)
    (hprices : s'.priceItems = s.priceItems) : Drops s s' := by
  constructor
  · intro k
    rw [totalHeld, horders]
  · intro k
    rw [totalHeld, totalHeld, horders, hprices, sub_self]
    simp [released_zero]

theorem Drops.trans {s s' s'' : Db} (h : Drops s s') (h' : Drops s' s'') : Drops s s'' := by
  constructor
  · exact fun k => (h'.total_le k).trans (h.total_le k)
  · intro k
    have hle := h.total_le k
    have hle' := h'.total_le k
    rw [h'.find_eq, h.find_eq, Option.map_map]
    congr 1
    funext p
    dsimp only [Function.comp]
    rw [released_released _ (by omega) (by omega)]
    congr 2
    omega

/-- Orders that let go of their quota, and counters that follow. -/
theorem drops_of_moved {s s' : Db} {change : Uuid × Uuid → ℤ}
    (hquota : QuotaMoved s.priceItems s'.priceItems change)
    (htotal : ∀ k, totalHeld s' k = totalHeld s k + change k) (hle : ∀ k, change k ≤ 0) :
    Drops s s' := by
  constructor
  · intro k
    have hchange := hle k
    have htotal := htotal k
    omega
  · intro k
    have hdifference : totalHeld s k - totalHeld s' k = -change k := by
      have htotal := htotal k
      omega
    rw [hquota.find_eq k, hdifference]
    congr 1
    funext p
    rw [shifted, if_pos (hle k)]

/-- `_cancel_inflight_orders` cancels a batch of orders. -/
theorem wp_cancelInflightOrders (ht : Tame R E) (hs : OrdersOk s) (hrel : Releasable R E s)
    {r : Request} (contractId : Uuid) (reason : String) {Q : Unit → Db → Prop}
    (hQ : ∀ orders priceItems, Change R r s { s with orders, priceItems } →
      Drops s { s with orders, priceItems } → Q () { s with orders, priceItems }) :
    wp R (cancelInflightOrders r.env contractId reason) Q E s := by
  rw [cancelInflightOrders, wp_bind]
  refine wp_lockMatching _ _ fun rows hnodup hrows => ?_
  have hrow : ∀ x ∈ rows, s.orders.find? x.1 = some x.2 ∧ x.2.contractId = some contractId ∧
      x.2.status ∈ [OrderStatus.new, .assigned, .inTransit, .arrived] := by
    intro x hx
    obtain ⟨hfind, hmatch⟩ := hrows x hx
    rw [Bool.and_eq_true, Bool.and_eq_true, Bool.or_eq_true] at hmatch
    refine ⟨hfind, of_decide_eq_true hmatch.1.1, ?_⟩
    rcases hmatch.1.2 with h | h <;> rw [of_decide_eq_true h] <;> decide
  have hsub : (rows.filter fun x => x.2.quantitiesReserved).Sublist rows := List.filter_sublist
  rw [wp_bind]
  refine wp_eachOrder (f := fun x => x.2)
    (g := fun x => x.2.set { status := some .cancelled } r.env.now) hnodup (List.Sublist.refl rows)
    ?_ (fun x hx h => absurd hx h) ⟨fun x hx => (hrow x hx).1, fun _ _ => rfl⟩ ?_
  · intro x _ s₁ Q hfind hQ
    exact wp_updateOrder ht hfind (hQ _ (s₁.orders.written_put x.1 _))
  intro orders hstored
  dsimp only
  rw [wp_bind]
  refine wp_collect_reads (R := R) (fun x => x.2.items) (fun x hx Q hQ => ?_) ?_
  · have hfind := hstored.batch x (hsub.subset hx)
    rw [wp_bind, wp_locked]
    change Q ((orders.find? x.1).elim [] Order.items) _
    rw [hfind]
    exact hQ
  have hheld := demand_reserved fun x hx => ⟨hs x.1 x.2 (hrow x hx).1, (hrow x hx).2.1⟩
  have hrelease := hrel contractId (Bag.collect ((((rows.filter fun x =>
      x.2.quantitiesReserved).map fun x => x.2.items).flatten).map OrderItem.pair)) ?_ ?_
  · rw [wp_bind]
    refine hrelease { s with orders := orders } rfl _ fun t hreleased => ?_
    rw [wp_bind]
    refine wp_eachOrder (f := fun x => x.2.set { status := some .cancelled } r.env.now)
      (g := fun x => { (x.2.set { status := some .cancelled } r.env.now) with
        quantitiesReserved := false }) hnodup hsub ?_ ?_ hstored fun orders hstored => ?_
    · intro x _ s₁ Q hfind hQ
      exact wp_updateOrder ht hfind (hQ _ (s₁.orders.written_put x.1 _))
    · intro x hx hnot
      dsimp only [Order.set, Option.getD_none]
      rw [quantitiesReserved_of_not_mem hx hnot]
    refine wp_eachOrder (g := fun x => cancelledRow r.env reason x.2) hnodup (List.Sublist.refl rows)
      ?_ (fun x hx h => absurd hx h) hstored fun orders hstored => ?_
    · intro x _ s₁ Q hfind hQ
      rw [wp_bind]
      refine wp_updateOrder ht hfind ?_
      refine wp_logTransition ht (Table.find?_put_self _ _ _) (hQ _ ?_)
      rw [Db.orders_put]
      exact (s₁.orders.written_put x.1 _).put (some (cancelledRow r.env reason x.2))
    let xs := rows.map fun x => (x.1, x.2, cancelledRow r.env reason x.2)
    have hkeys : (xs.map Prod.fst).Nodup := by
      rw [List.map_map]
      exact hnodup
    have hstep : ∀ x ∈ xs, s.orders.find? x.1 = some x.2.1 ∧ x.2.2.status = .cancelled ∧
        x.2.2.quantitiesReserved = false ∧ OrderStep R r s x.1 (some x.2.1) x.2.2 := by
      intro x hx
      obtain ⟨y, hy, rfl⟩ := List.mem_map.mp hx
      exact ⟨(hrow y hy).1, rfl, rfl, .cancelled (hrow y hy).2.2⟩
    have horders : ∀ k, orders.find? k =
        ((xs.map fun x => (x.1, x.2.2)).lookup k).or (s.orders.find? k) := by
      intro k
      rw [hstored.find?_eq, List.map_map]
      rfl
    have hsum : ∀ k, (xs.map fun x => -held x.2.1 k).sum = -demand contractId (Bag.collect
        ((((rows.filter fun x => x.2.quantitiesReserved).map fun x =>
          x.2.items).flatten).map OrderItem.pair)) k := by
      intro k
      rw [hheld, List.sum_neg, List.map_map, List.map_map]
      rfl
    have hquota := (quotaMoved_of_released hreleased).congr hsum
    refine hQ orders t ⟨.cancelled xs hkeys hstep horders hquota rfl rfl, rfl⟩ ?_
    refine drops_of_moved hquota (total_of_cancelled hkeys (fun x hx =>
      ⟨(hstep x hx).1, (hstep x hx).2.2.1⟩) horders) fun k => ?_
    have hnonneg := demand_nonneg (c := contractId) hreleased.pos k
    rw [hsum]
    omega
  · exact reserved_pos fun x hx => hs x.1 x.2 (hrow x hx).1
  · intro k
    rw [hheld]
    exact Table.sum_le_total (g := fun _ o => held o k)
      (fun id o ho => held_nonneg (hs id o ho) k) hnodup fun x hx => (hrow x hx).1

/-! ## Life cycle -/

/-- Statements on contracts change nothing else. -/
theorem wp_contractStmt (ht : Tame R E) {id : Uuid} {st : ContractStmt} {Q : Unit → Db → Prop}
    (hQ : ∀ contracts, Q () { s with contracts }) : wp R (issue (.contract id) st) Q E s :=
  wp_issue ht (k := .contract id) (fun h => h) fun _ _ _ => hQ _

theorem wp_updateContract (ht : Tame R E) {id : Uuid} {data : ContractUpdate}
    {Q : Unit → Db → Prop} (hQ : ∀ contracts, Q () { s with contracts }) :
    wp R (updateContract id data) Q E s := by
  rw [updateContract, wp_bind, wp_locked, wp_bind]
  refine wp_contractStmt ht fun contracts => ?_
  rw [wp_raiseIf]
  exact ⟨fun _ => ht.err _ rfl, fun _ => hQ contracts⟩

theorem getContractLocked_quiet {P : (k : Key) → Stmt k → Prop} (id : Uuid) :
    Quiet P (getContractLocked id) :=
  within_bind (within_locked _) fun _ => (within_orRaise _ _).mpr fun _ => rfl

theorem ensureNoOtherActive_quiet {P : (k : Key) → Stmt k → Prop} (id : Uuid) (c : Contract) :
    Quiet P (ensureNoOtherActive id c) :=
  within_bind (getActiveForClientLocked_within (by rfl) _) fun existing =>
    (within_whenSome _ _).mpr fun c _ => (within_raiseIf _ _).mpr fun _ => rfl

/-- Writing contracts is a change of another table. -/
theorem Change.contracts {r : Request} (s : Db) (contracts : Table Uuid Contract) :
    Change R r s { s with contracts } := .other_of rfl rfl rfl rfl rfl

theorem createContract_changes (ht : Tame R E) {r : Request} {clientId : Uuid}
    {dto : ContractCreate} :
    wp R (createContract r.env clientId dto) (fun _ s' => Changes R r s s') E s := by
  rw [createContract, wp_bind]
  refine wp_reads ht (within_bind (within_ask _) fun _ => scalarOneOrNone_quiet _) fun existing => ?_
  rw [wp_bind, wp_whenSome]
  refine ⟨fun _ _ => ht.err _ rfl, fun _ => ?_⟩
  exact wp_contractStmt ht fun contracts => (Change.contracts s contracts).single

/-- A contract is updated and the change is logged. -/
theorem wp_updateAndLog (ht : Tame R E) {r : Request} {id : Uuid} {data : ContractUpdate}
    {entry : ContractStatusLog} :
    wp R (do
      updateContract id data
      issue (.contract id) (.log entry)) (fun _ s' => Changes R r s s') E s := by
  rw [wp_bind]
  refine wp_updateContract ht fun contracts => wp_contractStmt ht fun contracts' => ?_
  exact (Change.contracts s contracts').single

/-- A contract is updated and its open orders are cancelled. -/
theorem wp_updateAndCancel (ht : Tame R E) (hs : OrdersOk s) {r : Request}
    (hrel : ∀ s₁, Changes R r s s₁ → Releasable R E s₁) {id : Uuid} {data : ContractUpdate}
    {reason : String} {entry : ContractStatusLog} :
    wp R (do
      updateContract id data
      cancelInflightOrders r.env id reason
      issue (.contract id) (.log entry)) (fun _ s' => Changes R r s s' ∧ Drops s s') E s := by
  rw [wp_bind]
  refine wp_updateContract ht fun contracts => ?_
  have hfirst : Changes R r s { s with contracts } := (Change.contracts s contracts).single
  rw [wp_bind]
  refine wp_cancelInflightOrders ht (hfirst.ordersOk hs) (hrel _ hfirst) id reason
    fun orders t hchange hdrops => ?_
  refine wp_contractStmt ht fun contracts' => ⟨(hfirst.tail hchange).tail ?_, ?_⟩
  · exact Change.contracts _ contracts'
  · exact ⟨hdrops.total_le, hdrops.find_eq⟩

/-- A contract is locked and its status is checked before it is changed. -/
theorem wp_checkedContract (ht : Tame R E) {id : Uuid} {bad : Contract → Prop} [DecidablePred bad]
    {e : Contract → Err} (he : ∀ c, (e c).isQuotaLeak = false) {next : Contract → Uow Unit}
    {Q : Unit → Db → Prop} (hnext : ∀ c, wp R (next c) Q E s) :
    wp R (do
      let contract ← getContractLocked id
      raiseIf (bad contract) (e contract)
      next contract) Q E s := by
  rw [wp_bind]
  refine wp_reads ht (getContractLocked_quiet id) fun contract => ?_
  rw [wp_bind, wp_raiseIf]
  exact ⟨fun _ => ht.err _ (he contract), fun _ => hnext contract⟩

theorem activateContract_changes (ht : Tame R E) {r : Request} {id u : Uuid} :
    wp R (activateContract r.env id u) (fun _ s' => Changes R r s s') E s := by
  refine wp_checkedContract ht (fun _ => rfl) fun contract => ?_
  rw [wp_bind]
  exact wp_reads ht (ensureNoOtherActive_quiet id contract) fun _ => wp_updateAndLog ht

theorem reinstateContract_changes (ht : Tame R E) {r : Request} {id : Uuid} {u : Option Uuid} :
    wp R (reinstateContract id u) (fun _ s' => Changes R r s s') E s := by
  refine wp_checkedContract ht (fun _ => rfl) fun contract => ?_
  rw [wp_bind]
  exact wp_reads ht (ensureNoOtherActive_quiet id contract) fun _ => wp_updateAndLog ht

theorem suspendContract_changes (ht : Tame R E) (hs : OrdersOk s) {r : Request}
    (hrel : ∀ s₁, Changes R r s s₁ → Releasable R E s₁) {id : Uuid} {reason : String}
    {u : Option Uuid} :
    wp R (suspendContract r.env id reason u) (fun _ s' => Changes R r s s' ∧ Drops s s') E s :=
  wp_checkedContract ht (fun _ => rfl) fun _ => wp_updateAndCancel ht hs hrel

theorem terminateContract_changes (ht : Tame R E) (hs : OrdersOk s) {r : Request}
    (hrel : ∀ s₁, Changes R r s s₁ → Releasable R E s₁) {id : Uuid} {reason : String}
    {u : Option Uuid} :
    wp R (terminateContract r.env id reason u) (fun _ s' => Changes R r s s' ∧ Drops s s') E s :=
  wp_checkedContract ht (fun _ => rfl) fun _ => wp_updateAndCancel ht hs hrel

/-- `run_expire_job` goes through the contracts one by one. -/
theorem runExpireJob_changes (ht : Tame R E) (hs : OrdersOk s) {r : Request}
    (hrel : ∀ s₁, Changes R r s s₁ → Releasable R E s₁) :
    wp R (runExpireJob r.env) (fun _ s' => Changes R r s s' ∧ Drops s s') E s := by
  rw [runExpireJob, wp_bind, wp_ask]
  intro v _
  refine wp_loop (fun _ (s' : Db) => Changes R r s s' ∧ Drops s s') ⟨.refl, drops_of_eq rfl rfl⟩
    (fun _ id _ s₁ _ h => ?_) fun _ h => h
  obtain ⟨hchanges, hdrops⟩ := h
  rw [wp_bind]
  refine wp_cancelInflightOrders ht (hchanges.ordersOk hs) (hrel s₁ hchanges) id _
    fun orders t hchange hdrops' => ?_
  rw [wp_bind]
  refine wp_updateContract ht fun contracts => wp_contractStmt ht fun contracts' => ⟨?_, ?_⟩
  · exact (hchanges.tail hchange).tail (Change.contracts _ contracts')
  · exact hdrops.trans ⟨hdrops'.total_le, hdrops'.find_eq⟩

/-! ## Price list -/

theorem quantity_nonneg_of_constraints {row : PriceItem} (h : ∀ c ∈ row.constraints, c.1 = true) :
    0 ≤ row.quantity := by
  have hquantity := h
    (decide (0 ≤ row.quantity), .checkViolation "ck_contract_price_item_quantity_non_neg")
    (by simp [PriceItem.constraints])
  exact of_decide_eq_true hquantity

/-- `set_price_item` writes one price item. -/
theorem setPriceItem_changes (ht : Tame R E) {r : Request} {c p : Uuid} {price quantity : ℤ} :
    wp R (setPriceItem r.env c p price quantity) (fun _ s' => Changes R r s s') E s := by
  rw [setPriceItem, wp_bind, getByContractAndProduct, wp_ask]
  intro v _
  cases (v.priceItems.find? (c, p)).filter PriceItem.isActive with
  | some existing =>
    dsimp only
    rw [wp_bind]
    refine wp_check ht rfl fun _ => ?_
    rw [wp_bind, wp_locked, wp_bind]
    refine wp_issue ht (k := .priceItem c p) (by exact not_false) fun hassumes row hrow => ?_
    refine wp_check ht rfl fun hid => ?_
    change (PriceItemStmt.update existing.id price quantity).exec (s.priceItems.find? (c, p)) =
      .ok row at hrow
    change R.assumes (.priceItem c p) (.update existing.id price quantity)
      (s.priceItems.find? (c, p)) at hassumes
    change ¬ ¬ (s.priceItems.find? (c, p)).any (fun p => p.id = existing.id) = true at hid
    cases hfind : s.priceItems.find? (c, p) with
    | none => simp [hfind] at hid
    | some old =>
      have hold : old.id = existing.id := by simpa [hfind] using hid
      rw [hfind] at hrow hassumes
      dsimp only [PriceItemStmt.exec] at hrow
      rw [if_pos hold] at hrow
      obtain ⟨rfl, hcs⟩ := checked_ok hrow
      refine Change.single ⟨.priceSet c p _ (s.priceItems.written_put (c, p) _) ?_
        (quantity_nonneg_of_constraints hcs) rfl rfl rfl, rfl⟩
      rw [hfind]
      exact ⟨rfl, hold ▸ hassumes⟩
  | none =>
    dsimp only
    rw [wp_bind]
    refine wp_issue ht (k := .priceItem c p) (by exact not_false) fun _ row hrow => ?_
    change (PriceItemStmt.insert (r.env.uuid 0 0) price quantity).exec (s.priceItems.find? (c, p)) =
      .ok row at hrow
    rw [wp_bind, wp_ask]
    intro v₁ _
    rw [wp_bind, wp_ask]
    intro v₂ _
    rw [wp_bind]
    refine wp_check ht rfl fun _ => ?_
    refine wp_check ht rfl fun _ => ?_
    cases hfind : s.priceItems.find? (c, p) with
    | none =>
      rw [hfind] at hrow
      obtain ⟨rfl, hcs⟩ := checked_ok hrow
      refine Change.single ⟨.priceSet c p _ (s.priceItems.written_put (c, p) _) ?_
        (quantity_nonneg_of_constraints hcs) rfl rfl rfl, rfl⟩
      rw [hfind]
      exact ⟨rfl, rfl⟩
    | some old =>
      rw [hfind] at hrow
      cases hrow

/-- `remove_price_item` removes one price item. -/
theorem removePriceItem_changes (ht : Tame R E) {r : Request} {c p : Uuid} :
    wp R (removePriceItem c p) (fun _ s' => Changes R r s s') E s := by
  rw [removePriceItem, wp_bind, getByContractAndProduct, wp_ask]
  intro v hv
  rw [wp_bind]
  refine wp_required ht rfl fun item hitem => ?_
  rw [wp_bind]
  refine wp_check ht rfl fun hused => ?_
  refine wp_issue ht (k := .priceItem c p) (by exact not_false) fun hassumed row hrow => ?_
  change (PriceItemStmt.delete item.id).exec (s.priceItems.find? (c, p)) = .ok row at hrow
  change R.assumes (.priceItem c p) (.delete item.id) (s.priceItems.find? (c, p)) at hassumed
  have hsame : s.priceItems.find? (c, p) = row →
      Changes R r s (s.put (.priceItem c p) row) := by
    intro h
    have hchange : Change R r s (s.put (.priceItem c p) row) :=
      .other_of rfl (Table.put_eq_self h) rfl rfl rfl
    exact hchange.single
  cases hfind : s.priceItems.find? (c, p) with
  | none =>
    rw [hfind] at hrow
    cases hrow
    exact hsame hfind
  | some old =>
    rw [hfind] at hrow hassumed
    dsimp only [PriceItemStmt.exec] at hrow
    by_cases hid : old.id = item.id
    · rw [if_pos hid] at hrow
      cases hrow
      rw [← hid] at hassumed
      refine Change.single ⟨.priceRemoved c p old hfind (s.priceItems.written_put (c, p) none)
        (fun hexact => ?_) hassumed rfl rfl rfl, rfl⟩
      rw [hexact _ _ hv, hfind] at hitem
      obtain ⟨heq, -⟩ := Option.filter_eq_some_iff.mp hitem
      cases heq
      exact not_lt.mp hused
    · rw [if_neg hid] at hrow
      cases hrow
      exact hsame hfind

/-! ## Invoices -/

/-- The invoice that `generate_invoice` makes of a period. -/
structure InvoiceOf (c : Uuid) (periodFrom periodTo : ℤ) (i : Invoice) : Prop where
  /-- The billed contract. -/
  contractId_eq : i.contractId = c
  /-- First day. -/
  periodFrom_eq : i.periodFrom = periodFrom
  /-- Last day. -/
  periodTo_eq : i.periodTo = periodTo
  /-- It is a draft. -/
  status_eq : i.status = .draft
  /-- It is active. -/
  isActive_eq : i.isActive = true

/-- `generate_invoice` makes one invoice. -/
theorem wp_generateInvoice (ht : Tame R E) {env : Env} {c : Uuid} {periodFrom periodTo : ℤ}
    {Q : Unit → Db → Prop}
    (hQ : ∀ i, periodFrom < periodTo → s.invoices.find? (env.uuid 0 0) = none →
      InvoiceOf c periodFrom periodTo i →
      (R.Exact → i.amount =
        ((getDeliveredByContract c periodFrom periodTo s).map Order.totalAmount).sum) →
      (R.Exact → (s.invoices.select fun _ i => i.contractId = c && i.periodFrom = periodFrom &&
        i.periodTo = periodTo && i.status ≠ .cancelled && i.isActive) = []) →
      Q () (s.put (.invoice (env.uuid 0 0)) (some i))) :
    wp R (generateInvoice env c periodFrom periodTo) Q E s := by
  rw [generateInvoice, wp_bind]
  refine wp_reads ht (getContractLocked_quiet c) fun contract => ?_
  rw [wp_bind, getForPeriod, wp_bind, wp_ask]
  intro v₁ hv₁
  -- no invoice of the same period is left when the check passes
  have hduplicate : ∀ (l : List Invoice) (Q : Option Invoice → Db → Prop),
      (∀ i, l ≠ [] → Q (some i) s) → (l = [] → Q none s) → wp R (scalarOneOrNone l) Q E s := by
    intro l Q hsome hnone
    match l with
    | [] => exact hnone rfl
    | [i] => exact hsome i (by simp)
    | _ :: _ :: _ => exact ht.err _ rfl
  refine hduplicate _ _ (fun i _ => ?_) fun hnone => ?_
  · rw [wp_bind, wp_raiseIf]
    exact ⟨fun _ => ht.err _ rfl, fun h => absurd rfl h⟩
  rw [wp_bind]
  refine wp_check ht rfl fun _ => ?_
  rw [wp_bind, wp_ask]
  intro v₂ hv₂
  rw [wp_bind, wp_ask]
  intro v₃ _
  rw [wp_bind, wp_ask]
  intro v₄ _
  rw [wp_bind]
  refine wp_issue ht (k := .invoice (env.uuid 0 0)) (fun h => h) fun _ row hrow => ?_
  refine wp_check ht rfl fun _ => ?_
  cases hfind : s.invoices.find? (env.uuid 0 0) with
  | some old =>
    change InvoiceStmt.exec _ (s.invoices.find? (env.uuid 0 0)) = .ok row at hrow
    rw [hfind] at hrow
    cases hrow
  | none =>
    change InvoiceStmt.exec _ (s.invoices.find? (env.uuid 0 0)) = .ok row at hrow
    rw [hfind] at hrow
    obtain ⟨rfl, hcs⟩ := checked_ok hrow
    have hperiod := hcs (decide (periodFrom < periodTo), .checkViolation "ck_invoice_period_order")
      (by simp)
    refine hQ _ (of_decide_eq_true hperiod) hfind ⟨rfl, rfl, rfl, rfl, rfl⟩ (fun hexact => ?_)
      fun hexact => ?_
    · rw [hexact _ _ hv₂]
    · rw [← hexact _ _ hv₁]
      exact hnone

theorem generateInvoice_changes (ht : Tame R E) {r : Request} {c : Uuid} {periodFrom periodTo : ℤ}
    (hop : r.op = .generateInvoice c periodFrom periodTo) :
    wp R (generateInvoice r.env c periodFrom periodTo) (fun _ s' => Changes R r s s') E s := by
  refine wp_generateInvoice ht fun i hperiod hfresh hdata hamount hunique => Change.single ⟨?_, rfl⟩
  obtain ⟨hcontract, hfrom, hto, hstatus, hactive⟩ := hdata
  exact .billed (r.env.uuid 0 0) c periodFrom periodTo i hop hperiod hfresh rfl
    ⟨hcontract, hfrom, hto, hstatus, hactive⟩ hamount hunique rfl rfl rfl

/-- One invoice changes its status. -/
theorem wp_setInvoice (ht : Tame R E) {r : Request} {id : Uuid} {data : InvoiceUpdate}
    {e : Err} (he : e.isQuotaLeak = false)
    (hedge : R.Exact → ∀ i, s.invoices.find? id = some i → invoiceEdge i.status data.status = true)
    {Q : Unit → Db → Prop}
    (hQ : ∀ i, s.invoices.find? id = some i →
      Change R r s (s.put (.invoice id) (some (i.set data))) →
      Q () (s.put (.invoice id) (some (i.set data)))) :
    wp R (do
      let row ← forUpdate (.invoice id)
      issue (.invoice id) (.update data)
      raiseIf (row.isNone = true) e) Q E s := by
  rw [wp_bind, wp_locked, wp_bind]
  refine wp_issue ht (k := .invoice id) (fun h => h) fun _ row hrow => ?_
  rw [wp_raiseIf]
  refine ⟨fun _ => ht.err _ he, fun hsome => ?_⟩
  change (InvoiceStmt.update data).exec (s.invoices.find? id) = .ok row at hrow
  change ¬ (s.invoices.find? id).isNone = true at hsome
  cases hfind : s.invoices.find? id with
  | none => simp [hfind] at hsome
  | some i =>
    rw [hfind] at hrow
    cases hrow
    exact hQ i hfind ⟨.invoiceSet id i data hfind rfl (fun hexact => hedge hexact i hfind) rfl rfl rfl,
      rfl⟩

/-- The transitions of an invoice by a request. -/
theorem changeInvoice_changes (ht : Tame R E) {r : Request} {c id : Uuid}
    {expected : List InvoiceStatus} {data : InvoiceUpdate}
    (hedge : ∀ status ∈ expected, invoiceEdge status data.status = true) :
    wp R (changeInvoice c id expected data) (fun _ s' => Changes R r s s') E s := by
  rw [changeInvoice, wp_bind, wp_ask]
  intro v hv
  rw [wp_bind]
  refine wp_required ht rfl fun invoice hinvoice => ?_
  rw [wp_bind]
  refine wp_check ht rfl fun hexpected => ?_
  refine wp_setInvoice ht rfl (fun hexact i hfind => ?_) fun i hfind hchange => hchange.single
  rw [hexact _ _ hv, hfind] at hinvoice
  obtain ⟨hactive, -⟩ := Option.filter_eq_some_iff.mp hinvoice
  obtain ⟨heq, -⟩ := Option.filter_eq_some_iff.mp hactive
  cases heq
  exact hedge _ (not_not.mp hexpected)

/-- `run_overdue_job` goes through the invoices one by one. -/
theorem runOverdueJob_changes (ht : Tame R E) {r : Request} :
    wp R (runOverdueJob r.env) (fun _ s' => Changes R r s s') E s := by
  rw [runOverdueJob, wp_bind, wp_ask]
  intro v hv
  let isOverdue (i : Invoice) : Bool :=
    i.status = .issued && i.isActive && i.dueDate.any fun d => d < dateOf r.env.now
  have hnodup : ((v.invoices.rows.filter fun x => isOverdue x.2).map Prod.fst).Nodup :=
    (List.filter_sublist.map Prod.fst).nodup v.invoices.nodup
  refine wp_loop (fun done (s' : Db) => Changes R r s s' ∧ ∀ id, id ∉ done →
    s'.invoices.find? id = s.invoices.find? id) ⟨.refl, fun _ _ => rfl⟩ ?_ fun _ h => h.1
  rintro done id todo s₁ hdone ⟨hchanges, hstays⟩
  have hid : id ∉ done := by
    rw [← hdone, List.nodup_middle, List.nodup_cons] at hnodup
    exact fun h => hnodup.1 (List.mem_append_left _ h)
  refine wp_setInvoice ht rfl (fun hexact i hfind => ?_) fun i hfind hchange =>
    ⟨hchanges.tail hchange, fun j hj => ?_⟩
  · have hmem : id ∈ (v.invoices.rows.filter fun x => isOverdue x.2).map Prod.fst :=
      hdone ▸ List.mem_append_right _ List.mem_cons_self
    obtain ⟨x, hx, rfl⟩ := List.mem_map.mp hmem
    obtain ⟨hx, hoverdue⟩ := List.mem_filter.mp hx
    rw [hstays x.1 hid, ← hexact _ _ hv, (Table.mem_rows_iff _ _ _).mp hx] at hfind
    cases hfind
    rw [Bool.and_eq_true, Bool.and_eq_true] at hoverdue
    rw [of_decide_eq_true hoverdue.1.1]
    rfl
  · rw [List.mem_append, not_or, List.mem_singleton] at hj
    exact (Table.find?_put_ne _ hj.2 _).trans (hstays j hj.1)

/-! ## All operations -/

/-- Whatever a request asks for, what it does is a sequence of changes. -/
theorem program_changes (ht : Tame R E) (hs : OrdersOk s) {r : Request}
    (hrel : ∀ s₁, Changes R r s s₁ → Releasable R E s₁) :
    wp R (program r) (fun _ s' => Changes R r s s') E s := by
  have hrel₀ := hrel s .refl
  unfold program
  split
  next hop => exact wp_mono _ (createOrder_change ht hop) (fun _ _ h => h.single) fun _ he => he
  next hop => exact createWarehouseSale_changes ht hop
  next => exact completePickup_changes ht
  next hop =>
    exact wp_mono _ (addProductToOrder_change ht hs hop) (fun _ _ h => h.single) fun _ he => he
  next => exact removeProductFromOrder_changes ht hs hrel₀
  next hop => exact wp_mono _ (assignCourier_change ht hop) (fun _ _ h => h.single) fun _ he => he
  next => exact updateStatus_changes ht hs hrel₀
  next => exact cancelOrder_changes ht hs hrel₀
  next => exact expireStaleOrders_changes ht hs hrel
  next => exact createContract_changes ht
  next => exact activateContract_changes ht
  next => exact wp_mono _ (suspendContract_changes ht hs hrel) (fun _ _ h => h.1) fun _ he => he
  next => exact reinstateContract_changes ht
  next => exact wp_mono _ (terminateContract_changes ht hs hrel) (fun _ _ h => h.1) fun _ he => he
  next => exact wp_mono _ (runExpireJob_changes ht hs hrel) (fun _ _ h => h.1) fun _ he => he
  next => exact setPriceItem_changes ht
  next => exact removePriceItem_changes ht
  next hop => exact generateInvoice_changes ht hop
  next => exact changeInvoice_changes ht (by simp [invoiceEdge])
  next => exact changeInvoice_changes ht (by simp [invoiceEdge])
  next => exact changeInvoice_changes ht (by simp [invoiceEdge])
  next => exact runOverdueJob_changes ht
  next id product _ =>
    refine wp_issue ht (k := .product id) (fun h => h) fun _ row _ => ?_
    have hchange : Change R r s (s.put (.product id) row) := .other_of rfl rfl rfl rfl rfl
    exact hchange.single

end Rules

end Munavvar.ContractEffects
